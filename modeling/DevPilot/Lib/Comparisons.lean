import Mathlib.Tactic

/-!
Three-way comparisons that need to be orders on some elements only: what sorting and
insertion by binary search make of a list on which the comparison is one.
-/

namespace Comparisons

variable {α : Type}

def ThenBy (before fallback : α → α → Prop) (a b : α) : Prop :=
  before a b ∨ ¬before b a ∧ fallback a b

theorem ThenBy.aside {before fallback : α → α → Prop} [IsStrictOrder α before] {a b c : α}
    (hab : before a b) (hbc : ThenBy before fallback b c) (hca : ThenBy before fallback c a) :
    (¬before c b ∧ fallback b c) ∧ (¬before a c ∧ fallback c a) := by
  constructor
  · apply hbc.resolve_left
    intro hbc
    have hac := trans_of before hab hbc
    rcases hca with hca | ⟨hnot, -⟩
    · exact asymm_of before hac hca
    · exact hnot hac
  · apply hca.resolve_left
    intro hca
    have hcb := trans_of before hca hab
    rcases hbc with hbc | ⟨hnot, -⟩
    · exact asymm_of before hcb hbc
    · exact hnot hcb

/-- The comparison is antisymmetric and transitive on the elements of the list. -/
structure OrderOn (cmp : α → α → Ordering) (l : List α) : Prop where
  swap : ∀ a ∈ l, ∀ b ∈ l, cmp b a = (cmp a b).swap
  trans : ∀ a ∈ l, ∀ b ∈ l, ∀ c ∈ l, (cmp a b).isLE → (cmp b c).isLE → (cmp a c).isLE

def Apart (cmp : α → α → Ordering) (l : List α) : Prop :=
  ∀ a ∈ l, ∀ b ∈ l, cmp a b = .eq → a = b

def Ascending (cmp : α → α → Ordering) (l : List α) : Prop := l.Pairwise fun a b => (cmp a b).isLE

variable {cmp : α → α → Ordering} {l m : List α} {a : α}

theorem OrderOn.subset (h : OrderOn cmp l) (hsub : m ⊆ l) : OrderOn cmp m :=
  ⟨fun a ha b hb => h.swap a (hsub ha) b (hsub hb),
    fun a ha b hb c hc => h.trans a (hsub ha) b (hsub hb) c (hsub hc)⟩

theorem OrderOn.total (h : OrderOn cmp l) {a b : α} (ha : a ∈ l) (hb : b ∈ l)
    (hab : ¬(cmp a b).isLE) : (cmp b a).isLE := by
  rw [h.swap a ha b hb]
  cases hcmp : cmp a b <;> simp_all

def sort (cmp : α → α → Ordering) (l : List α) : List α :=
  l.insertionSort fun a b => (cmp a b).isLE

theorem perm_sort (l : List α) : (sort cmp l).Perm l := List.perm_insertionSort _ l

theorem ascending_orderedInsert (h : OrderOn cmp (a :: l)) (hl : Ascending cmp l) :
    Ascending cmp (l.orderedInsert (fun a b => (cmp a b).isLE) a) := by
  induction l with
  | nil => exact List.pairwise_singleton _ a
  | cons b l ih =>
      obtain ⟨hb, htail⟩ := List.pairwise_cons.mp hl
      have hrest : OrderOn cmp (a :: l) :=
        h.subset (List.cons_subset_cons a (List.subset_cons_self b l))
      rw [List.orderedInsert_cons]
      split_ifs with hab
      · refine List.pairwise_cons.mpr ⟨fun c hc => ?_, hl⟩
        rcases List.mem_cons.mp hc with rfl | hc
        · exact hab
        · exact h.trans a (by simp) b (by simp) c (by simp [hc]) hab (hb c hc)
      · refine List.pairwise_cons.mpr ⟨fun c hc => ?_, ih hrest htail⟩
        rcases (List.mem_orderedInsert _).mp hc with rfl | hc
        · exact h.total (by simp) (by simp) hab
        · exact hb c hc

theorem ascending_sort (h : OrderOn cmp l) : Ascending cmp (sort cmp l) := by
  induction l with
  | nil => exact List.Pairwise.nil
  | cons a l ih =>
      have hl := ih (h.subset (List.subset_cons_self a l))
      exact ascending_orderedInsert (h.subset (List.cons_subset_cons a (perm_sort l).subset)) hl

theorem eq_of_ascending (h : OrderOn cmp l) (hapart : Apart cmp l) (hl : Ascending cmp l)
    (hm : Ascending cmp m) (hperm : l.Perm m) : l = m := by
  refine hperm.eq_of_pairwise (fun a b ha hb hab hba => hapart a ha b (hperm.mem_iff.mpr hb) ?_) hl hm
  rw [h.swap a ha b (hperm.mem_iff.mpr hb)] at hba
  cases hcmp : cmp a b <;> simp_all

theorem sort_eq_of_perm (h : OrderOn cmp l) (hapart : Apart cmp l) (hperm : l.Perm m) :
    sort cmp l = sort cmp m := by
  have hsub := (@perm_sort _ cmp l).subset
  refine eq_of_ascending (h.subset hsub) (fun a ha b hb => hapart a (hsub ha) b (hsub hb))
    (ascending_sort h) (ascending_sort (h.subset hperm.symm.subset)) ?_
  exact (perm_sort l).trans (hperm.trans (perm_sort m).symm)

/-- The first position between `lo` and `hi` that does not stand before `a`, found by
halving. -/
def search (cmp : α → α → Ordering) (l : List α) (a : α) : Nat → Nat → Nat → Nat
  | 0, lo, _ => lo
  | rounds + 1, lo, hi =>
      if lo < hi then
        match l[(lo + hi) / 2]? with
        | none => lo
        | some b =>
            if (cmp b a).isLE then search cmp l a rounds ((lo + hi) / 2 + 1) hi
            else search cmp l a rounds lo ((lo + hi) / 2)
      else lo

def insertSorted (cmp : α → α → Ordering) (l : List α) (a : α) : List α :=
  let i := search cmp l a l.length 0 l.length
  l.take i ++ a :: l.drop i

def Splits (cmp : α → α → Ordering) (l : List α) (a : α) (i : Nat) : Prop :=
  (∀ b ∈ l.take i, (cmp b a).isLE) ∧ ∀ b ∈ l.drop i, ¬(cmp b a).isLE

theorem splits_search (h : OrderOn cmp (a :: l)) (hl : Ascending cmp l) (rounds lo hi : Nat)
    (hlo : ∀ b ∈ l.take lo, (cmp b a).isLE) (hhi : ∀ b ∈ l.drop hi, ¬(cmp b a).isLE)
    (hle : lo ≤ hi) (hlen : hi ≤ l.length) (hrounds : hi - lo ≤ rounds) :
    Splits cmp l a (search cmp l a rounds lo hi) := by
  induction rounds generalizing lo hi with
  | zero =>
      obtain rfl : lo = hi := by omega
      exact ⟨hlo, hhi⟩
  | succ rounds ih =>
      rw [search]
      split_ifs with hlt
      · have hmid : (lo + hi) / 2 < l.length := by omega
        rw [List.getElem?_eq_getElem hmid]
        dsimp only
        have hmem : l[(lo + hi) / 2] ∈ a :: l := List.mem_cons_of_mem _ (List.getElem_mem hmid)
        split_ifs with hbefore
        · refine ih _ _ (fun b hb => ?_) hhi (by omega) hlen (by omega)
          obtain ⟨i, hi', rfl⟩ := List.mem_take_iff_getElem.mp hb
          rcases Nat.lt_or_ge i ((lo + hi) / 2) with hbelow | habove
          · have hleq := List.pairwise_iff_getElem.mp hl i ((lo + hi) / 2) (by omega) hmid hbelow
            exact h.trans _ (by simp) _ hmem a (by simp) hleq hbefore
          · obtain rfl : i = (lo + hi) / 2 := by omega
            exact hbefore
        · refine ih _ _ hlo (fun b hb hba => hbefore ?_) (by omega) (by omega) (by omega)
          obtain ⟨i, hlong, rfl⟩ := List.mem_drop_iff_getElem.mp hb
          rcases Nat.eq_zero_or_pos i with rfl | hpos
          · simpa using hba
          · have hleq := List.pairwise_iff_getElem.mp hl ((lo + hi) / 2) ((lo + hi) / 2 + i) hmid
              (by omega) (by omega)
            exact h.trans _ hmem _ (by simp) a (by simp) hleq hba
      · obtain rfl : lo = hi := by omega
        exact ⟨hlo, hhi⟩

theorem insertSorted_eq_sort (h : OrderOn cmp (a :: l)) (hapart : Apart cmp (a :: l))
    (hl : Ascending cmp l) : insertSorted cmp l a = sort cmp (a :: l) := by
  obtain ⟨hbefore, hafter⟩ := splits_search h hl l.length 0 l.length (by simp) (by simp)
    (Nat.zero_le _) le_rfl le_rfl
  unfold insertSorted
  generalize search cmp l a l.length 0 l.length = i at hbefore hafter
  dsimp only
  have hperm : (l.take i ++ a :: l.drop i).Perm (a :: l) := by
    refine List.perm_middle.trans ?_
    rw [List.take_append_drop]
  have hasc : Ascending cmp (l.take i ++ a :: l.drop i) := by
    have hl' : Ascending cmp (l.take i ++ l.drop i) := by rwa [List.take_append_drop]
    obtain ⟨htake, hdrop, hacross⟩ := List.pairwise_append.mp hl'
    refine List.pairwise_append.mpr ⟨htake, List.pairwise_cons.mpr ⟨fun b hb => ?_, hdrop⟩, ?_⟩
    · have hb' : b ∈ a :: l := List.mem_cons_of_mem _ (List.mem_of_mem_drop hb)
      exact h.total hb' (by simp) (hafter b hb)
    · intro b hb c hc
      rcases List.mem_cons.mp hc with rfl | hc
      · exact hbefore b hb
      · exact hacross b hb c hc
  refine eq_of_ascending (h.subset hperm.subset)
    (fun b hb c hc => hapart b (hperm.subset hb) c (hperm.subset hc)) hasc (ascending_sort h) ?_
  exact hperm.trans (perm_sort _).symm

end Comparisons
