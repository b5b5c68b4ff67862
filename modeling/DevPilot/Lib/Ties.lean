import DevPilot.Lib.Comparisons
import DevPilot.Lib.Copies

/-!
What a stable sort makes of elements that compare as equal: they keep their order.
-/

namespace Comparisons

variable {α : Type}

/-- A comparison that is an order on all elements, up to those that compare as equal. -/
structure Collation (cmp : α → α → Ordering) : Prop where
  swap : ∀ a b, cmp b a = (cmp a b).swap
  trans : ∀ a b c, (cmp a b).isLE → (cmp b c).isLE → (cmp a c).isLE

namespace Collation

variable {cmp : α → α → Ordering} (h : Collation cmp)

include h

theorem orderOn (l : List α) : OrderOn cmp l :=
  ⟨fun a _ b _ => h.swap a b, fun a _ b _ c _ => h.trans a b c⟩

theorem total (a b : α) : (cmp a b).isLE ∨ (cmp b a).isLE := by
  rw [h.swap a b]
  cases cmp a b <;> simp

theorem self_eq (a : α) : cmp a a = .eq := by
  have hswap := h.swap a a
  cases ha : cmp a a <;> simp_all

theorem isLE_of_tied {a b c : α} (hb : cmp a b = .eq) (hc : cmp a c = .eq) : (cmp b c).isLE := by
  have hba : (cmp b a).isLE := by
    rw [h.swap a b, hb]
    rfl
  exact h.trans b a c hba (by rw [hc]; rfl)

theorem filter_sort (p : α → Bool) (l : List α) : (sort cmp l).filter p = sort cmp (l.filter p) := by
  have htrans : IsTrans α fun a b => (cmp a b).isLE = true := ⟨h.trans⟩
  have htotal : Std.Total fun a b => (cmp a b).isLE = true := ⟨h.total⟩
  exact Copies.filter_insertionSort p l

def tied (cmp : α → α → Ordering) (a b : α) : Bool := cmp a b == .eq

theorem filter_tied_sort (a : α) (l : List α) :
    (sort cmp l).filter (tied cmp a) = l.filter (tied cmp a) := by
  rw [h.filter_sort]
  refine List.Pairwise.insertionSort_eq (List.pairwise_iff_forall_sublist.mpr fun {b c} hbc => ?_)
  have hmem : ∀ x ∈ [b, c], cmp a x = .eq := fun x hx => by
    simpa [tied] using (List.mem_filter.mp (hbc.subset hx)).2
  exact h.isLE_of_tied (hmem b (by simp)) (hmem c (by simp))

theorem eq_of_tied {l m : List α} (hl : Ascending cmp l) (hm : Ascending cmp m) (hperm : l.Perm m)
    (htied : ∀ a ∈ l, l.filter (tied cmp a) = m.filter (tied cmp a)) : l = m := by
  induction l generalizing m with
  | nil => exact hperm.nil_eq
  | cons a l ih =>
      cases m with
      | nil => exact absurd hperm.symm.nil_eq (List.cons_ne_nil a l).symm
      | cons b m =>
          obtain ⟨hal, hl⟩ := List.pairwise_cons.mp hl
          obtain ⟨hbm, htail⟩ := List.pairwise_cons.mp hm
          have hab : (cmp a b).isLE := by
            rcases List.mem_cons.mp (hperm.mem_iff.mpr List.mem_cons_self) with heq | hb
            · rw [heq, h.self_eq]
              rfl
            · exact hal b hb
          have hba : (cmp b a).isLE := by
            rcases List.mem_cons.mp (hperm.mem_iff.mp List.mem_cons_self) with heq | ha
            · rw [heq, h.self_eq]
              rfl
            · exact hbm a ha
          have heq : cmp a b = .eq := by
            rw [h.swap a b] at hba
            cases hcmp : cmp a b <;> simp_all
          have hfirst := htied a List.mem_cons_self
          rw [List.filter_cons_of_pos (by simp [tied, h.self_eq]), List.filter_cons_of_pos (by simp [tied, heq])]
            at hfirst
          obtain rfl := (List.cons.inj hfirst).1
          rw [ih hl htail hperm.cons_inv fun c hc => ?_]
          have hrest := htied c (List.mem_cons_of_mem a hc)
          rw [List.filter_cons, List.filter_cons] at hrest
          split_ifs at hrest
          · exact (List.cons.inj hrest).2
          · exact hrest

theorem sort_eq_iff {l m : List α} (hperm : l.Perm m) :
    sort cmp l = sort cmp m ↔ ∀ a ∈ l, l.filter (tied cmp a) = m.filter (tied cmp a) := by
  constructor
  · intro heq a _
    rw [← h.filter_tied_sort a l, heq, h.filter_tied_sort]
  · intro htied
    refine h.eq_of_tied (ascending_sort (h.orderOn l)) (ascending_sort (h.orderOn m))
      ((perm_sort l).trans (hperm.trans (perm_sort m).symm)) fun a ha => ?_
    rw [h.filter_tied_sort, h.filter_tied_sort]
    exact htied a ((perm_sort l).mem_iff.mp ha)

end Collation

end Comparisons
