import Mathlib.Tactic

/-!
Sorting by a rank, where elements of one rank stay in the order they had.
-/

namespace RankSort

variable {α β : Type}

def byRank (rank : α → Nat) (l : List α) : List α := l.insertionSort fun a b => rank a ≤ rank b

/-- A lower rank comes first, and among equal ranks what came before. -/
def Precedes (rank : α → Nat) (before : α → α → Prop) (a b : α) : Prop :=
  rank a < rank b ∨ rank a = rank b ∧ before a b

variable {rank : α → Nat} {before : α → α → Prop} {l m : List α}

theorem perm_byRank (rank : α → Nat) (l : List α) : (byRank rank l).Perm l :=
  List.perm_insertionSort _ l

theorem Precedes.le {a b : α} (h : Precedes rank before a b) : rank a ≤ rank b := by
  rcases h with h | ⟨h, -⟩
  · exact h.le
  · exact h.le

theorem pairwise_orderedInsert {a : α} (ha : ∀ b ∈ l, before a b)
    (hl : l.Pairwise (Precedes rank before)) :
    (l.orderedInsert (fun a b => rank a ≤ rank b) a).Pairwise (Precedes rank before) := by
  induction l with
  | nil => exact List.pairwise_singleton _ a
  | cons b l ih =>
      obtain ⟨hb, hl⟩ := List.pairwise_cons.mp hl
      obtain ⟨hab, ha⟩ := List.forall_mem_cons.mp ha
      rw [List.orderedInsert_cons]
      split_ifs with hle
      · have hprecedes : ∀ c, rank a ≤ rank c → before a c → Precedes rank before a c :=
          fun c hc hac => (Nat.lt_or_eq_of_le hc).imp id fun h => ⟨h, hac⟩
        refine List.pairwise_cons.mpr ⟨fun c hc => ?_, List.pairwise_cons.mpr ⟨hb, hl⟩⟩
        rcases List.mem_cons.mp hc with rfl | hc
        · exact hprecedes c hle hab
        · exact hprecedes c (hle.trans (hb c hc).le) (ha c hc)
      · refine List.pairwise_cons.mpr ⟨fun c hc => ?_, ih ha hl⟩
        rcases List.mem_orderedInsert _ |>.mp hc with rfl | hc
        · exact .inl (Nat.lt_of_not_le hle)
        · exact hb c hc

theorem pairwise_byRank (hl : l.Pairwise before) :
    (byRank rank l).Pairwise (Precedes rank before) := by
  induction l with
  | nil => exact List.Pairwise.nil
  | cons a l ih =>
      obtain ⟨ha, hl⟩ := List.pairwise_cons.mp hl
      apply pairwise_orderedInsert _ (ih hl)
      exact fun b hb => ha b ((perm_byRank rank l).mem_iff.mp hb)

theorem byRank_eq (before : α → α → Prop) (hasymm : ∀ a b, before a b → ¬ before b a)
    (hl : l.Pairwise before) (hperm : m.Perm l) (hm : m.Pairwise (Precedes rank before)) : byRank rank l = m := by
  apply List.Perm.eq_of_pairwise _ (pairwise_byRank hl) hm
    ((perm_byRank rank l).trans hperm.symm)
  rintro a b - - (hab | ⟨heq, hab⟩) hba
  · exact absurd hba.le (Nat.not_le_of_lt hab)
  · rcases hba with hba | ⟨-, hba⟩
    · exact absurd hba heq.le.not_gt
    · exact absurd hba (hasymm a b hab)

theorem map_byRank (f : α → β) (rank' : β → Nat)
    (h : ∀ a ∈ l, ∀ b ∈ l, rank a ≤ rank b ↔ rank' (f a) ≤ rank' (f b)) :
    (byRank rank l).map f = byRank rank' (l.map f) :=
  List.map_insertionSort _ _ f l h

theorem byRank_congr {rank' : α → Nat}
    (h : ∀ a ∈ l, ∀ b ∈ l, rank a ≤ rank b ↔ rank' a ≤ rank' b) :
    byRank rank l = byRank rank' l := by
  have hmap := map_byRank id rank' h
  rwa [List.map_id, List.map_id] at hmap

end RankSort
