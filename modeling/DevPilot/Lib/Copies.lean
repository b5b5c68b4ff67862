import Mathlib.Tactic

/-!
Lists with copies: a list in which elements come again, the folds that pass
over the copies, and sorting where some elements are left out.
-/

namespace Copies

variable {α β σ : Type} {R : α → α → Prop} {l l' : List α}

inductive WithCopies (R : α → α → Prop) : List α → List α → Prop
  | nil : WithCopies R [] []
  | keep {l l' : List α} (a : α) : WithCopies R l l' → WithCopies R (l ++ [a]) (l' ++ [a])
  | copy {l l' : List α} {m : α} (a : α) : WithCopies R l l' → m ∈ l → R m a → WithCopies R l (l' ++ [a])

namespace WithCopies

theorem refl (l : List α) : WithCopies R l l := by
  induction l using List.reverseRecOn with
  | nil => exact nil
  | append_singleton l a ih => exact ih.keep a

theorem subset (h : WithCopies R l l') : l ⊆ l' := by
  induction h with
  | nil => exact List.Subset.refl _
  | keep a _ ih => exact List.append_subset.mpr ⟨List.subset_append_of_subset_left _ ih, List.subset_append_right _ _⟩
  | copy a _ _ _ ih => exact List.subset_append_of_subset_left _ ih

theorem length_le (h : WithCopies R l l') : l.length ≤ l'.length := by
  induction h with
  | nil => exact le_rfl
  | keep a _ ih => simpa using ih
  | copy a _ _ _ ih =>
      rw [List.length_append]
      exact ih.trans (Nat.le_add_right _ _)

theorem eq_of_length (h : WithCopies R l l') (hl : l'.length ≤ l.length) : l' = l := by
  induction h with
  | nil => rfl
  | keep a _ ih => rw [ih (by simpa using hl)]
  | copy a h _ _ _ =>
      have hle := h.length_le
      rw [List.length_append, List.length_singleton] at hl
      exact absurd (hl.trans hle) (Nat.not_succ_le_self _)

theorem mono {R' : α → α → Prop} (h : WithCopies R l l') (hR : ∀ m a, R m a → R' m a) : WithCopies R' l l' := by
  induction h with
  | nil => exact nil
  | keep a _ ih => exact ih.keep a
  | copy a _ hm hr ih => exact ih.copy a hm (hR _ _ hr)

theorem filter (h : WithCopies R l l') {p : α → Bool} (hp : ∀ m a, R m a → p m = true) :
    WithCopies R (l.filter p) (l'.filter p) := by
  induction h with
  | nil => exact nil
  | keep a _ ih =>
      rw [List.filter_append, List.filter_append]
      by_cases hpa : p a = true
      · rw [List.filter_cons_of_pos hpa, List.filter_nil]
        exact ih.keep a
      · rw [List.filter_cons_of_neg hpa, List.filter_nil, List.append_nil, List.append_nil]
        exact ih
  | copy a _ hm hr ih =>
      rw [List.filter_append]
      by_cases hpa : p a = true
      · rw [List.filter_cons_of_pos hpa, List.filter_nil]
        exact ih.copy a (List.mem_filter.mpr ⟨hm, hp _ _ hr⟩) hr
      · rw [List.filter_cons_of_neg hpa, List.filter_nil, List.append_nil]
        exact ih

end WithCopies

theorem filter_orderedInsert {r : α → α → Prop} [DecidableRel r] [IsTrans α r] (p : α → Bool) (a : α)
    {l : List α} (hl : l.Pairwise r) :
    (l.orderedInsert r a).filter p = if p a then (l.filter p).orderedInsert r a else l.filter p := by
  induction l with
  | nil => cases h : p a <;> simp [h]
  | cons b l ih =>
      obtain ⟨hb, hl⟩ := List.pairwise_cons.mp hl
      by_cases hab : r a b
      · rw [List.orderedInsert_cons_of_le _ _ hab]
        have hall : ∀ c ∈ (b :: l).filter p, r a c := by
          intro c hc
          rcases List.mem_cons.mp (List.mem_filter.mp hc).1 with rfl | hc
          · exact hab
          · exact IsTrans.trans _ _ _ hab (hb c hc)
        have hfirst : ∀ L : List α, (∀ c ∈ L, r a c) → L.orderedInsert r a = a :: L := by
          intro L hL
          cases L with
          | nil => rfl
          | cons c L => exact List.orderedInsert_cons_of_le _ _ (hL c List.mem_cons_self)
        rw [hfirst _ hall, List.filter_cons]
      · rw [List.orderedInsert_of_not_le _ _ hab, List.filter_cons, ih hl, List.filter_cons]
        cases p a <;> cases p b <;> simp [hab]

theorem filter_insertionSort {r : α → α → Prop} [DecidableRel r] [IsTrans α r] [Std.Total r] (p : α → Bool)
    (l : List α) : (l.insertionSort r).filter p = (l.filter p).insertionSort r := by
  induction l with
  | nil => rfl
  | cons a l ih =>
      rw [List.insertionSort_cons, filter_orderedInsert p a (List.pairwise_insertionSort r l), ih,
        List.filter_cons]
      split_ifs <;> rfl

end Copies
