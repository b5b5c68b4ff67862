import Mathlib.Tactic

/-!
The order in which values first occur in a list.
-/

namespace Firsts

variable {α : Type} [DecidableEq α]

theorem eraseDups_filter (p : α → Bool) (l : List α) : (l.filter p).eraseDups = l.eraseDups.filter p := by
  induction hn : l.length using Nat.strong_induction_on generalizing l with
  | _ n ih =>
      cases l with
      | nil => rfl
      | cons a l =>
          have hlt : (l.filter fun b => !b == a).length < n := by
            rw [← hn]
            exact Nat.lt_succ_of_le (List.length_filter_le _ _)
          have hswap : (l.filter p).filter (fun b => !b == a) = (l.filter fun b => !b == a).filter p := by
            rw [List.filter_filter, List.filter_filter]
            simp only [Bool.and_comm]
          by_cases ha : p a
          · rw [List.filter_cons_of_pos ha, List.eraseDups_cons, List.eraseDups_cons,
              List.filter_cons_of_pos ha, hswap, ih _ hlt _ rfl]
          · rw [List.filter_cons_of_neg ha, List.eraseDups_cons, List.filter_cons_of_neg ha,
              ← ih _ hlt _ rfl, ← hswap]
            congr 1
            refine (List.filter_eq_self.mpr fun b hb => ?_).symm
            have hb := (List.mem_filter.mp hb).2
            simp only [Bool.not_eq_eq_eq_not, Bool.not_true, beq_eq_false_iff_ne, ne_eq]
            rintro rfl
            exact ha hb

theorem eraseDups_append (as bs : List α) :
    (as ++ bs).eraseDups = as.eraseDups ++ bs.eraseDups.filter (· ∉ as) := by
  rw [List.eraseDups_append, ← eraseDups_filter]
  congr 2
  unfold List.removeAll
  congr 1
  funext b
  simp

theorem eraseDups_of_nodup {l : List α} (h : l.Nodup) : l.eraseDups = l := by
  induction l with
  | nil => rfl
  | cons a l ih =>
      obtain ⟨ha, hl⟩ := List.nodup_cons.mp h
      rw [List.eraseDups_cons, List.filter_eq_self.mpr, ih hl]
      intro b hb
      simp only [Bool.not_eq_eq_eq_not, Bool.not_true, beq_eq_false_iff_ne, ne_eq]
      rintro rfl
      exact ha hb

theorem mem_congr {as as' : List α} (h : as.eraseDups = as'.eraseDups) (a : α) : a ∈ as ↔ a ∈ as' := by
  rw [← List.mem_eraseDups, h, List.mem_eraseDups]

theorem eraseDups_append_congr {as as' bs bs' : List α} (ha : as.eraseDups = as'.eraseDups)
    (hb : bs.eraseDups = bs'.eraseDups) : (as ++ bs).eraseDups = (as' ++ bs').eraseDups := by
  rw [eraseDups_append, eraseDups_append, ha, hb]
  simp only [mem_congr ha]

theorem eraseDups_append_of_subset {as bs : List α} (h : bs ⊆ as) : (as ++ bs).eraseDups = as.eraseDups := by
  rw [eraseDups_append, List.filter_eq_nil_iff.mpr, List.append_nil]
  intro b hb
  simpa using h (List.mem_eraseDups.mp hb)

theorem eraseDups_append_singleton {as : List α} {a : α} (h : a ∉ as) :
    (as ++ [a]).eraseDups = as.eraseDups ++ [a] := by
  rw [eraseDups_append, eraseDups_of_nodup (List.nodup_singleton a), List.filter_eq_self.mpr]
  simpa using h

theorem eraseDups_drop_sublist {as xs bs : List α} (h : ∀ x ∈ xs, x ∈ bs → x ∈ as) :
    (as ++ bs).eraseDups.Sublist (as ++ (xs ++ bs)).eraseDups := by
  rw [eraseDups_append, eraseDups_append as, eraseDups_append xs, List.filter_append, List.filter_filter]
  refine List.Sublist.append_left ?_ _
  have heq : bs.eraseDups.filter (fun b => decide (b ∉ as)) =
      bs.eraseDups.filter fun b => decide (b ∉ as) && decide (b ∉ xs) := by
    refine List.filter_congr fun b hb => ?_
    have hb := List.mem_eraseDups.mp hb
    by_cases hxs : b ∈ xs
    · simp [h b hxs hb]
    · simp [hxs]
  rw [heq]
  exact List.sublist_append_right _ _

end Firsts
