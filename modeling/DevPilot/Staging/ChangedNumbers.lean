import DevPilot.Staging.Patches

/-!
The numbers of the changed lines of the hunks: no number belongs to two hunks, so a hunk
without a selected change has no line that is taken for a selected one.
-/

namespace DevPilot.Staging

open UnifiedDiff DevPilot.Diffs

variable {keys : Finset SelectedDiffLineKey}

def deleteNumbers : Nat → List BodyLine → List Nat
  | _, [] => []
  | o, l :: rest => (if l.kind = .delete then [o] else []) ++ deleteNumbers (o + oldStep l) rest

def addNumbers : Nat → List BodyLine → List Nat
  | _, [] => []
  | n, l :: rest => (if l.kind = .add then [n] else []) ++ addNumbers (n + newStep l) rest

theorem mem_bodyKeys {o n : Nat} {body : List BodyLine} {key : SelectedDiffLineKey} :
    key ∈ bodyKeys o n body ↔
      (key.side = .deletions ∧ key.number ∈ deleteNumbers o body) ∨
        (key.side = .additions ∧ key.number ∈ addNumbers n body) := by
  induction body generalizing o n with
  | nil => simp [bodyKeys, deleteNumbers, addNumbers]
  | cons l rest ih =>
      obtain ⟨side, i⟩ := key
      rw [bodyKeys, List.mem_append, ih, deleteNumbers, addNumbers, List.mem_append, List.mem_append]
      cases hkind : l.kind <;> cases side <;> simp [keyOf, hkind]

theorem addNumbers_ge {n i : Nat} {body : List BodyLine} (h : i ∈ addNumbers n body) : n ≤ i := by
  induction body generalizing n with
  | nil => cases h
  | cons l rest ih =>
      rcases List.mem_append.mp h with h | h
      · split_ifs at h
        · exact (List.mem_singleton.mp h).ge
        · cases h
      · exact (Nat.le_add_right n _).trans (ih h)

theorem addNumbers_lt {n i : Nat} {body : List BodyLine} (h : i ∈ addNumbers n body) :
    i < n + body.countP BodyLine.isNew := by
  induction body generalizing n with
  | nil => cases h
  | cons l rest ih =>
      rw [countP_isNew_cons]
      rcases List.mem_append.mp h with h | h
      · split_ifs at h with hkind
        · obtain rfl := List.mem_singleton.mp h
          have hstep : newStep l = 1 := by simp [newStep, BodyLine.isNew, hkind]
          omega
        · cases h
      · have := ih h
        omega

theorem deleteNumbers_ge {o i : Nat} {body : List BodyLine} (h : i ∈ deleteNumbers o body) : o ≤ i := by
  induction body generalizing o with
  | nil => cases h
  | cons l rest ih =>
      rcases List.mem_append.mp h with h | h
      · split_ifs at h
        · exact (List.mem_singleton.mp h).ge
        · cases h
      · exact (Nat.le_add_right o _).trans (ih h)

theorem deleteNumbers_lt {o i : Nat} {body : List BodyLine} (h : i ∈ deleteNumbers o body) :
    i < o + body.countP BodyLine.isOld := by
  induction body generalizing o with
  | nil => cases h
  | cons l rest ih =>
      rw [countP_isOld_cons]
      rcases List.mem_append.mp h with h | h
      · split_ifs at h with hkind
        · obtain rfl := List.mem_singleton.mp h
          have hstep : oldStep l = 1 := by simp [oldStep, BodyLine.isOld, hkind]
          omega
        · cases h
      · have := ih h
        omega

theorem isSelected_of_key {o n : Nat} {body : List BodyLine} {key : SelectedDiffLineKey}
    (h : key ∈ bodyKeys o n body) (hkey : key ∈ keys) : (marked keys o n body).any Prod.snd = true := by
  induction body generalizing o n with
  | nil => cases h
  | cons l rest ih =>
      rw [marked, List.any_cons, Bool.or_eq_true]
      rcases List.mem_append.mp h with h | h
      · left
        rw [Option.mem_toList] at h
        simp [Option.mem_def.mp h, hkey]
      · exact .inr (ih h)

theorem mem_parsedBody {o n : Nat} {body : List BodyLine} {l : ParsedHunkLine}
    (h : l ∈ parsedBody o n body) :
    (l.kind = .delete → ∃ i, l.oldRef = some i ∧ o ≤ i ∧ i < o + body.countP BodyLine.isOld) ∧
      (l.kind = .add → ∃ i, l.newRef = some i ∧ n ≤ i ∧ i < n + body.countP BodyLine.isNew) := by
  induction body generalizing o n with
  | nil => cases h
  | cons b rest ih =>
      rw [countP_isOld_cons, countP_isNew_cons]
      have hold : readOld b ≤ oldStep b := by
        rw [readOld]
        split_ifs <;> omega
      have hnew : readNew b ≤ newStep b := by
        rw [readNew]
        split_ifs <;> omega
      rcases List.mem_cons.mp h with rfl | h
      · have hkind : ∀ kind, readKind b = kind → kind ≠ .other → parsedKind b.kind = kind := by
          intro kind hkind hother
          rw [readKind] at hkind
          split_ifs at hkind
          · exact hkind
          · exact absurd hkind.symm hother
        constructor
        · intro hdelete
          have hparsed := hkind _ hdelete (by decide)
          refine ⟨o, rfl, le_rfl, ?_⟩
          cases hb : b.kind <;> rw [hb] at hparsed <;> simp [parsedKind] at hparsed
          have hstep : oldStep b = 1 := by simp [oldStep, BodyLine.isOld, hb]
          omega
        · intro hadd
          have hparsed := hkind _ hadd (by decide)
          refine ⟨n, rfl, le_rfl, ?_⟩
          cases hb : b.kind <;> rw [hb] at hparsed <;> simp [parsedKind] at hparsed
          have hstep : newStep b = 1 := by simp [newStep, BodyLine.isNew, hb]
          omega
      · rcases List.mem_append.mp h with h | h
        · rw [parsedMarker] at h
          split_ifs at h
          · cases h
          · obtain rfl := List.mem_singleton.mp h
            exact ⟨by simp, by simp⟩
        · obtain ⟨hdelete, hadd⟩ := ih h
          constructor
          · intro hkind
            obtain ⟨i, hi, hge, hlt⟩ := hdelete hkind
            exact ⟨i, hi, by omega, by omega⟩
          · intro hkind
            obtain ⟨i, hi, hge, hlt⟩ := hadd hkind
            exact ⟨i, hi, by omega, by omega⟩

namespace Placed

def HasOld (p : Placed) (i : Nat) : Prop := p.oldStart ≤ i ∧ i < p.oldStart + p.hunk.oldCount

def HasNew (p : Placed) (i : Nat) : Prop := p.newStart ≤ i ∧ i < p.newStart + p.hunk.newCount

def Apart (p q : Placed) : Prop := ∀ i, ¬(p.HasOld i ∧ q.HasOld i) ∧ ¬(p.HasNew i ∧ q.HasNew i)

end Placed

theorem startOf_le (before count : Nat) : startOf before count ≤ before + 1 := by
  rw [startOf]
  split_ifs <;> omega

theorem lt_startOf {before count : Nat} (h : 0 < count) : before < startOf before count := by
  rw [startOf, if_neg (Nat.ne_of_gt h)]
  exact Nat.lt_succ_self before

theorem lt_of_has {parts : List Part} {o n i : Nat} {p : Placed} (hp : p ∈ placed o n parts) :
    (p.HasOld i → o < i) ∧ (p.HasNew i → n < i) := by
  induction parts generalizing o n with
  | nil => cases hp
  | cons part parts ih =>
      rcases List.mem_cons.mp hp with rfl | hp
      · constructor
        · rintro ⟨hge, hlt⟩
          have := @lt_startOf (o + part.gap.length) part.hunk.oldCount
            (by dsimp only at hge hlt; omega)
          dsimp only at hge
          omega
        · rintro ⟨hge, hlt⟩
          have := @lt_startOf (n + part.gap.length) part.hunk.newCount
            (by dsimp only at hge hlt; omega)
          dsimp only at hge
          omega
      · obtain ⟨hold, hnew⟩ := ih hp
        exact ⟨fun h => by have := hold h; omega, fun h => by have := hnew h; omega⟩

theorem pairwise_apart (parts : List Part) (o n : Nat) : (placed o n parts).Pairwise Placed.Apart := by
  induction parts generalizing o n with
  | nil => exact List.Pairwise.nil
  | cons part parts ih =>
      refine List.pairwise_cons.mpr ⟨fun q hq i => ?_, ih _ _⟩
      have hlater := lt_of_has (i := i) hq
      have hold := startOf_le (o + part.gap.length) part.hunk.oldCount
      have hnew := startOf_le (n + part.gap.length) part.hunk.newCount
      constructor
      · rintro ⟨⟨-, hlt⟩, hq⟩
        have := hlater.1 hq
        dsimp only at hlt
        omega
      · rintro ⟨⟨-, hlt⟩, hq⟩
        have := hlater.2 hq
        dsimp only at hlt
        omega

theorem placed_eq {parts : List Part} {o n i : Nat} {p q : Placed} (hp : p ∈ placed o n parts)
    (hq : q ∈ placed o n parts) (h : (p.HasOld i ∧ q.HasOld i) ∨ (p.HasNew i ∧ q.HasNew i)) : p = q := by
  by_contra hne
  have hsymm : Std.Symm Placed.Apart := ⟨fun p q hpq i =>
    ⟨fun h => (hpq i).1 ⟨h.2, h.1⟩, fun h => (hpq i).2 ⟨h.2, h.1⟩⟩⟩
  have hapart := (pairwise_apart parts o n).forall hp hq hne i
  exact h.elim hapart.1 hapart.2

theorem read_of_keys {d : Diff} {p : Placed} (hkeys : ∀ key ∈ keys, key ∈ changedKeys d)
    (hp : p ∈ placed 0 0 d.parts) (hplain : p.isSelected keys = true → ∀ l ∈ p.hunk.body, Plain l) :
    p.Read keys where
  counted := counted_placed p hp
  plain := hplain
  unselected hnone l hl := by
    have hkey : ∀ side i, isSelectedRef keys side (some i) = true →
        (⟨side, i⟩ : SelectedDiffLineKey) ∈ keys := by
      intro side i h
      cases i with
      | zero => simp [isSelectedRef, buildSelectedDiffLineKey] at h
      | succ i => simpa [isSelectedRef, buildSelectedDiffLineKey] using h
    refine Bool.eq_false_iff.mpr fun hselected => ?_
    obtain ⟨hdelete, hadd⟩ := mem_parsedBody hl
    have hboth : ∃ key ∈ keys, key ∈ bodyKeys p.oldStart p.newStart p.hunk.body := by
      cases hkind : l.kind with
      | context => simp [isSelected, hkind] at hselected
      | marker => simp [isSelected, hkind] at hselected
      | other => simp [isSelected, hkind] at hselected
      | delete =>
          obtain ⟨i, hi, hge, hlt⟩ := hdelete hkind
          have hmem := hkey .deletions i (by simpa [isSelected, hkind, hi] using hselected)
          obtain ⟨q, hq, hbody⟩ := List.mem_flatMap.mp (hkeys _ hmem)
          have hnumber : i ∈ deleteNumbers q.oldStart q.hunk.body := by
            simpa using mem_bodyKeys.mp hbody
          obtain rfl := placed_eq hp hq
            (.inl ⟨⟨hge, hlt⟩, deleteNumbers_ge hnumber, deleteNumbers_lt hnumber⟩)
          exact ⟨_, hmem, hbody⟩
      | add =>
          obtain ⟨i, hi, hge, hlt⟩ := hadd hkind
          have hmem := hkey .additions i (by simpa [isSelected, hkind, hi] using hselected)
          obtain ⟨q, hq, hbody⟩ := List.mem_flatMap.mp (hkeys _ hmem)
          have hnumber : i ∈ addNumbers q.newStart q.hunk.body := by
            simpa using mem_bodyKeys.mp hbody
          obtain rfl := placed_eq hp hq
            (.inr ⟨⟨hge, hlt⟩, addNumbers_ge hnumber, addNumbers_lt hnumber⟩)
          exact ⟨_, hmem, hbody⟩
    obtain ⟨key, hmem, hbody⟩ := hboth
    have := isSelected_of_key hbody hmem
    rw [Placed.isSelected, Placed.marked] at hnone
    rw [hnone] at this
    cases this

end DevPilot.Staging
