import Mathlib.Tactic

/-!
Rewriting the items of a list in place, one after the other, by code that may
raise in the middle.
-/

namespace InPlace

variable {α β γ : Type}

/-- The items after a pass of `f`, and whether it raised. The item at which `f`
raises stays as `f` left it, and the items after it are not reached. -/
def sweep (f : α → α × Bool) : List α → List α × Bool
  | [] => ([], false)
  | x :: xs =>
      if (f x).2 then ((f x).1 :: xs, true)
      else ((f x).1 :: (sweep f xs).1, (sweep f xs).2)

theorem sweep_cons (f : α → α × Bool) (x : α) (xs : List α) : sweep f (x :: xs) =
    if (f x).2 then ((f x).1 :: xs, true)
    else ((f x).1 :: (sweep f xs).1, (sweep f xs).2) := rfl

theorem map_sweep {f : α → α × Bool} {p : α → β} (h : ∀ x, p (f x).1 = p x) (xs : List α) :
    (sweep f xs).1.map p = xs.map p := by
  induction xs with
  | nil => rfl
  | cons x xs ih =>
      rw [sweep_cons]
      split_ifs
      · simp only [List.map_cons, h x]
      · simp only [List.map_cons, h x, ih]

theorem filterMap_sweep {f : α → α × Bool} {p : α → Option γ} (h : ∀ x, p (f x).1 = p x)
    (xs : List α) : (sweep f xs).1.filterMap p = xs.filterMap p := by
  have hmap := congrArg (List.filterMap id) (map_sweep h xs)
  simpa only [List.filterMap_map, Function.id_comp] using hmap

theorem sweep_sweep {f : α → α × Bool} (h : ∀ x, f (f x).1 = f x) (xs : List α) :
    sweep f (sweep f xs).1 = sweep f xs := by
  induction xs with
  | nil => rfl
  | cons x xs ih =>
      by_cases hx : (f x).2 = true
      · rw [sweep_cons, if_pos hx, sweep_cons, h x, if_pos hx]
      · rw [sweep_cons, if_neg hx, sweep_cons, h x, if_neg hx, ih]

theorem not_raised_iff {f : α → α × Bool} {xs : List α} :
    (sweep f xs).2 = false ↔ ∀ x ∈ xs, (f x).2 = false := by
  induction xs with
  | nil => exact iff_of_true rfl (by simp)
  | cons x xs ih =>
      rw [sweep_cons, List.forall_mem_cons]
      split_ifs with hx
      · simp [hx]
      · rw [ih]
        simp [hx]

theorem sweep_of_not_raised {f : α → α × Bool} {xs : List α} (h : ∀ x ∈ xs, (f x).2 = false) :
    (sweep f xs).1 = xs.map fun x => (f x).1 := by
  induction xs with
  | nil => rfl
  | cons x xs ih =>
      obtain ⟨hx, hxs⟩ := List.forall_mem_cons.mp h
      have hstep : ¬(f x).2 = true := by simp [hx]
      rw [sweep_cons, if_neg hstep, List.map_cons, ih hxs]

theorem forall_zip_self {q : α → α → Prop} (hself : ∀ x, q x x) (xs : List α) :
    ∀ p ∈ xs.zip xs, q p.1 p.2 := by
  induction xs with
  | nil => simp
  | cons x xs ih =>
      rw [List.zip_cons_cons, List.forall_mem_cons]
      exact ⟨hself x, ih⟩

theorem forall_zip_sweep {f : α → α × Bool} {q : α → α → Prop} (hself : ∀ x, q x x)
    (hraised : ∀ x, (f x).2 = true → q x (f x).1) (xs : List α) :
    (∀ p ∈ xs.zip (sweep f xs).1, q p.1 p.2) ↔ ∀ x ∈ xs.takeWhile fun x => !(f x).2, q x (f x).1 := by
  induction xs with
  | nil => simp
  | cons x xs ih =>
      by_cases hx : (f x).2 = true
      · rw [sweep_cons, if_pos hx, List.zip_cons_cons, List.forall_mem_cons,
          List.takeWhile_cons_of_neg (by simp [hx])]
        exact iff_of_true ⟨hraised x hx, forall_zip_self hself xs⟩ (by simp)
      · rw [sweep_cons, if_neg hx, List.zip_cons_cons, List.forall_mem_cons, ih]
        simp [hx]

end InPlace
