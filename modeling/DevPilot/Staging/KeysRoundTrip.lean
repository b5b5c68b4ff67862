import DevPilot.Staging.ReadBack
import Mathlib.Data.List.Sort

/-!
A stored patch gives the selection back when, before each selected addition, as many
deletions stay as additions are dropped.
-/

namespace DevPilot.Staging

open UnifiedDiff DevPilot.Diffs

variable {keys : Finset SelectedDiffLineKey} {mode : PatchSelectionMode}

structure Blocks (blocks : List (List Nat × List Nat)) : Prop where
  ascending : ∀ b ∈ blocks, b.1.Pairwise (· < ·) ∧ b.2.Pairwise (· < ·)
  length_eq : ∀ b ∈ blocks, b.1.length = b.2.length
  below : blocks.Pairwise fun b b' => ∀ i ∈ b.1, (∀ j ∈ b'.1, i < j) ∧ ∀ j ∈ b'.2, i < j

theorem eq_of_subset {a b : List Nat} (ha : a.Pairwise (· < ·)) (hb : b.Pairwise (· < ·))
    (hlength : a.length = b.length) (hsub : a ⊆ b) : a = b := by
  have hsublist := List.sublist_of_subperm_of_pairwise
    (List.subperm_of_subset (ha.imp fun h => Nat.ne_of_lt h) hsub) ha hb
  exact hsublist.eq_of_length hlength

theorem Blocks.forall_eq {blocks : List (List Nat × List Nat)} (h : Blocks blocks)
    (hsame : ∀ i, (∃ b ∈ blocks, i ∈ b.1) ↔ ∃ b ∈ blocks, i ∈ b.2) :
    ∀ b ∈ blocks, b.1 = b.2 := by
  induction blocks with
  | nil => simp
  | cons block blocks ih =>
      obtain ⟨hbelow, hrest⟩ := List.pairwise_cons.mp h.below
      have hfirst : block.1 = block.2 := by
        obtain ⟨h1, h2⟩ := h.ascending block List.mem_cons_self
        refine eq_of_subset h1 h2 (h.length_eq block List.mem_cons_self) fun i hi => ?_
        obtain ⟨b, hb, hib⟩ := (hsame i).mp ⟨block, List.mem_cons_self, hi⟩
        rcases List.mem_cons.mp hb with rfl | hb
        · exact hib
        · exact absurd ((hbelow b hb i hi).2 i hib) (lt_irrefl i)
      have hblocks : Blocks blocks :=
        ⟨fun b hb => h.ascending b (List.mem_cons_of_mem _ hb),
          fun b hb => h.length_eq b (List.mem_cons_of_mem _ hb), hrest⟩
      have hsame' : ∀ i, (∃ b ∈ blocks, i ∈ b.1) ↔ ∃ b ∈ blocks, i ∈ b.2 := by
        intro i
        constructor
        · rintro ⟨b, hb, hib⟩
          obtain ⟨b', hb', hib'⟩ := (hsame i).mp ⟨b, List.mem_cons_of_mem _ hb, hib⟩
          rcases List.mem_cons.mp hb' with rfl | hb'
          · exact absurd ((hbelow b hb i (hfirst ▸ hib')).1 i hib) (lt_irrefl i)
          · exact ⟨b', hb', hib'⟩
        · rintro ⟨b, hb, hib⟩
          obtain ⟨b', hb', hib'⟩ := (hsame i).mpr ⟨b, List.mem_cons_of_mem _ hb, hib⟩
          rcases List.mem_cons.mp hb' with rfl | hb'
          · exact absurd ((hbelow b hb i hib').2 i hib) (lt_irrefl i)
          · exact ⟨b', hb', hib'⟩
      intro b hb
      rcases List.mem_cons.mp hb with rfl | hb
      · exact hfirst
      · exact ih hblocks hsame' b hb

def selectedDeletions : Nat → Marked → List Nat
  | _, [] => []
  | o, (l, selected) :: rest =>
      (if l.kind = .delete ∧ selected then [o] else []) ++ selectedDeletions (o + oldStep l) rest

def selectedAdditions : Nat → Marked → List Nat
  | _, [] => []
  | n, (l, selected) :: rest =>
      (if l.kind = .add ∧ selected then [n] else []) ++ selectedAdditions (n + newStep l) rest

theorem mem_selectedDeletions {o n i : Nat} {body : List BodyLine} :
    i ∈ selectedDeletions o (marked keys o n body) ↔
      i ∈ deleteNumbers o body ∧ (⟨.deletions, i⟩ : SelectedDiffLineKey) ∈ keys := by
  induction body generalizing o n with
  | nil => simp [selectedDeletions, marked, deleteNumbers]
  | cons l rest ih =>
      rw [marked, selectedDeletions, deleteNumbers, List.mem_append, List.mem_append, ih, or_and_right]
      refine or_congr_left ?_
      cases hkind : l.kind with
      | context => simp
      | add => simp
      | delete =>
          by_cases hkey : (⟨.deletions, o⟩ : SelectedDiffLineKey) ∈ keys <;> simp [keyOf, hkind, hkey]
          · rintro rfl
            exact hkey
          · rintro rfl
            exact hkey

theorem mem_selectedAdditions {o n i : Nat} {body : List BodyLine} :
    i ∈ selectedAdditions n (marked keys o n body) ↔
      i ∈ addNumbers n body ∧ (⟨.additions, i⟩ : SelectedDiffLineKey) ∈ keys := by
  induction body generalizing o n with
  | nil => simp [selectedAdditions, marked, addNumbers]
  | cons l rest ih =>
      rw [marked, selectedAdditions, addNumbers, List.mem_append, List.mem_append, ih, or_and_right]
      refine or_congr_left ?_
      cases hkind : l.kind with
      | context => simp
      | delete => simp
      | add =>
          by_cases hkey : (⟨.additions, n⟩ : SelectedDiffLineKey) ∈ keys <;> simp [keyOf, hkind, hkey]
          · rintro rfl
            exact hkey
          · rintro rfl
            exact hkey

theorem deleteNumbers_selectedBody (o : Nat) (lines : Marked) :
    deleteNumbers o (selectedBody .stage lines) = selectedDeletions o lines := by
  induction lines generalizing o with
  | nil => rfl
  | cons entry rest ih =>
      obtain ⟨l, selected⟩ := entry
      rw [selectedBody_cons, selectedDeletions]
      cases hkind : l.kind <;> cases selected <;>
        simp [outcome, deleteNumbers, oldStep, BodyLine.isOld, hkind, ih]

theorem firstRefs_stage_old (o n : Nat) (lines : Marked) : (firstRefs .stage o n lines).1 = o := by
  induction lines generalizing o n with
  | nil => rfl
  | cons entry rest ih =>
      obtain ⟨l, selected⟩ := entry
      rw [firstRefs]
      cases hkind : l.kind <;> cases selected <;>
        simp [outcome, oldStep, BodyLine.isOld, hkind, ih]

theorem addNumbers_ascending (n : Nat) (body : List BodyLine) :
    (addNumbers n body).Pairwise (· < ·) := by
  induction body generalizing n with
  | nil => exact List.Pairwise.nil
  | cons l rest ih =>
      rw [addNumbers]
      split_ifs with hkind
      · refine List.pairwise_cons.mpr ⟨fun i hi => ?_, ih _⟩
        have hstep : newStep l = 1 := by simp [newStep, BodyLine.isNew, hkind]
        have := addNumbers_ge hi
        omega
      · exact ih _

theorem selectedAdditions_sublist (n o : Nat) (body : List BodyLine) :
    (selectedAdditions n (marked keys o n body)).Sublist (addNumbers n body) := by
  induction body generalizing n o with
  | nil => exact List.Sublist.slnil
  | cons l rest ih =>
      rw [marked, selectedAdditions, addNumbers]
      refine List.Sublist.append ?_ (ih _ _)
      by_cases hkind : l.kind = .add
      · by_cases hkey : (keyOf o n l).any (fun key => decide (key ∈ keys)) <;> simp [hkind, hkey]
      · simp [hkind]

theorem length_selectedAdditions (n n' : Nat) (lines : Marked) :
    (selectedAdditions n lines).length = (addNumbers n' (selectedBody .stage lines)).length := by
  induction lines generalizing n n' with
  | nil => rfl
  | cons entry rest ih =>
      obtain ⟨l, selected⟩ := entry
      rw [selectedBody_cons, selectedAdditions]
      cases hkind : l.kind <;> cases selected <;> simp [outcome, addNumbers, hkind] <;> exact ih _ _

def isDropped (l : BodyLine × Bool) : Bool := l.1.kind = .add && !l.2

def isKeptDeletion (l : BodyLine × Bool) : Bool := l.1.kind = .delete && !l.2

/-- Before each selected addition as many deletions stay as additions are dropped, from the
first line that is in the patch on. -/
def Balanced (lines : Marked) : Prop :=
  ∀ before l after, lines = before ++ l :: after → l.1.kind = .add → l.2 = true →
    before.countP isKeptDeletion = (before.dropWhile isDropped).countP isDropped

def isKeptNew (l : BodyLine × Bool) : Bool :=
  l.1.kind = .context || isKeptDeletion l || (l.1.kind = .add && l.2)

theorem countP_sides (lines : Marked) :
    lines.countP (fun l => l.1.isNew) + lines.countP isKeptDeletion =
      lines.countP isKeptNew + lines.countP isDropped := by
  induction lines with
  | nil => rfl
  | cons entry rest ih =>
      obtain ⟨l, selected⟩ := entry
      simp only [List.countP_cons]
      cases hkind : l.kind <;> cases selected <;>
        simp [BodyLine.isNew, isKeptDeletion, isKeptNew, isDropped, hkind] at ih ⊢ <;> omega

theorem selectedAdditions_eq_iff (n n' : Nat) (lines : Marked) :
    selectedAdditions n lines = addNumbers n' (selectedBody .stage lines) ↔
      ∀ before l after, lines = before ++ l :: after → l.1.kind = .add → l.2 = true →
        n + before.countP (fun l => l.1.isNew) = n' + before.countP isKeptNew := by
  induction lines generalizing n n' with
  | nil => simp [selectedAdditions, selectedBody, addNumbers]
  | cons entry rest ih =>
      obtain ⟨l, selected⟩ := entry
      have hsplit : (∀ before l' after, (l, selected) :: rest = before ++ l' :: after →
          l'.1.kind = .add → l'.2 = true →
          n + before.countP (fun l => l.1.isNew) = n' + before.countP isKeptNew) ↔
          (l.kind = .add → selected = true → n = n') ∧
            selectedAdditions (n + newStep l) rest =
              addNumbers (n' + if isKeptNew (l, selected) then 1 else 0) (selectedBody .stage rest) := by
        rw [ih]
        constructor
        · intro h
          refine ⟨fun hkind hselected => h [] (l, selected) rest rfl hkind hselected, ?_⟩
          intro before l' after heq hkind hselected
          have := h ((l, selected) :: before) l' after (by rw [heq]; rfl) hkind hselected
          rw [List.countP_cons, List.countP_cons] at this
          dsimp only at this
          rw [newStep]
          omega
        · rintro ⟨hfirst, hlater⟩ before l' after heq hkind hselected
          cases before with
          | nil =>
              obtain ⟨rfl, -⟩ := List.cons.inj heq
              exact hfirst hkind hselected
          | cons entry before =>
              obtain ⟨rfl, hrest⟩ := List.cons.inj heq
              have := hlater before l' after hrest hkind hselected
              rw [List.countP_cons, List.countP_cons]
              rw [newStep] at this
              dsimp only
              omega
      rw [hsplit, selectedBody_cons, selectedAdditions]
      cases hkind : l.kind <;> cases selected <;>
        simp [outcome, addNumbers, newStep, BodyLine.isNew, isKeptNew, isKeptDeletion, hkind]

theorem firstRefs_stage_new (o n : Nat) (lines : Marked) :
    (firstRefs .stage o n lines).2 = n + (lines.takeWhile isDropped).length := by
  induction lines generalizing o n with
  | nil => rfl
  | cons entry rest ih =>
      obtain ⟨l, selected⟩ := entry
      rw [firstRefs]
      cases hkind : l.kind <;> cases selected <;>
        simp [outcome, isDropped, newStep, BodyLine.isNew, hkind, ih] <;> omega

theorem selectedAdditions_eq_iff_balanced (o n : Nat) (lines : Marked) :
    selectedAdditions n lines =
        addNumbers (firstRefs .stage o n lines).2 (selectedBody .stage lines) ↔ Balanced lines := by
  rw [firstRefs_stage_new, selectedAdditions_eq_iff]
  refine forall_congr' fun before => forall_congr' fun l => forall_congr' fun after =>
    forall_congr' fun heq => forall_congr' fun hkind => forall_congr' fun hselected => ?_
  have hl : isDropped l = false := by simp [isDropped, hselected]
  have htake : (lines.takeWhile isDropped).length = (before.takeWhile isDropped).length := by
    rw [heq, List.takeWhile_append]
    split_ifs with h
    · rw [List.takeWhile_cons_of_neg (by simp [hl]), List.append_nil, h]
    · rfl
  have hparts : before.countP isDropped =
      (before.takeWhile isDropped).length + (before.dropWhile isDropped).countP isDropped := by
    have hall : (before.takeWhile isDropped).countP isDropped = (before.takeWhile isDropped).length :=
      List.countP_eq_length.mpr fun l hl => List.all_eq_true.mp (List.all_takeWhile) l hl
    rw [← hall, ← List.countP_append, List.takeWhile_append_dropWhile]
  have hsides := countP_sides before
  rw [htake]
  omega

instance (lines : Marked) : Decidable (Balanced lines) :=
  decidable_of_iff _ (selectedAdditions_eq_iff_balanced 0 0 lines)

namespace Placed

/-- The numbers of the selected additions and those read back for them. -/
def block (keys : Finset SelectedDiffLineKey) (p : Placed) : List Nat × List Nat :=
  (selectedAdditions p.newStart (p.marked keys),
    addNumbers (firstRefs .stage p.oldStart p.newStart (p.marked keys)).2
      (selectedBody .stage (p.marked keys)))

theorem length_block (p : Placed) : (p.block keys).1.length = (p.block keys).2.length :=
  length_selectedAdditions _ _ _

theorem block_fst_bounds {p : Placed} {i : Nat} (h : i ∈ (p.block keys).1) :
    p.newStart ≤ i ∧ i < p.newStart + p.hunk.newCount := by
  have hmem := (selectedAdditions_sublist p.newStart p.oldStart p.hunk.body).mem h
  exact ⟨addNumbers_ge hmem, addNumbers_lt hmem⟩

theorem block_snd_ge {p : Placed} {i : Nat} (h : i ∈ (p.block keys).2) : p.newStart ≤ i := by
  have hge := addNumbers_ge h
  rw [firstRefs_stage_new] at hge
  omega

theorem newCount_pos {p : Placed} {i : Nat} (h : i ∈ (p.block keys).1 ∨ i ∈ (p.block keys).2) :
    0 < p.hunk.newCount := by
  obtain ⟨j, hj⟩ : ∃ j, j ∈ (p.block keys).1 := by
    rcases h with h | h
    · exact ⟨i, h⟩
    · have hlength := @length_block keys p
      have hpos : 0 < (p.block keys).1.length := by
        rw [hlength]
        exact List.length_pos_of_mem h
      exact ⟨_, List.getElem_mem hpos⟩
  have := block_fst_bounds hj
  omega

end Placed

theorem lt_of_mem_block {parts : List Part} {o n i : Nat} {p : Placed} (hp : p ∈ placed o n parts)
    (h : i ∈ (p.block keys).1 ∨ i ∈ (p.block keys).2) : n < i := by
  induction parts generalizing o n with
  | nil => cases hp
  | cons part parts ih =>
      rcases List.mem_cons.mp hp with rfl | hp
      · have hpos := Placed.newCount_pos h
        have hge : startOf (n + part.gap.length) part.hunk.newCount ≤ i :=
          h.elim (fun h => (Placed.block_fst_bounds h).1) Placed.block_snd_ge
        rw [startOf, if_neg (Nat.ne_of_gt hpos)] at hge
        omega
      · have := ih hp
        omega

theorem blocks_placed (parts : List Part) (o n : Nat) :
    Blocks ((placed o n parts).map (Placed.block keys)) where
  ascending b hb := by
    obtain ⟨p, -, rfl⟩ := List.mem_map.mp hb
    exact ⟨(addNumbers_ascending _ _).sublist (selectedAdditions_sublist _ _ _),
      addNumbers_ascending _ _⟩
  length_eq b hb := by
    obtain ⟨p, -, rfl⟩ := List.mem_map.mp hb
    exact p.length_block
  below := by
    induction parts generalizing o n with
    | nil => exact List.Pairwise.nil
    | cons part parts ih =>
        refine List.pairwise_cons.mpr ⟨fun b hb i hi => ?_, ih _ _⟩
        obtain ⟨q, hq, rfl⟩ := List.mem_map.mp hb
        have hlt := (Placed.block_fst_bounds hi).2
        have hle : startOf (n + part.gap.length) part.hunk.newCount ≤ n + part.gap.length + 1 := by
          rw [startOf]
          split_ifs <;> omega
        constructor
        · intro j hj
          have := lt_of_mem_block hq (.inl hj)
          dsimp only at hlt
          omega
        · intro j hj
          have := lt_of_mem_block hq (.inr hj)
          dsimp only at hlt
          omega

theorem selected_eq_nil {o n : Nat} {lines : Marked} (h : lines.any Prod.snd = false) :
    selectedDeletions o lines = [] ∧ selectedAdditions n lines = [] := by
  induction lines generalizing o n with
  | nil => exact ⟨rfl, rfl⟩
  | cons entry rest ih =>
      obtain ⟨l, selected⟩ := entry
      rw [List.any_cons, Bool.or_eq_false_iff] at h
      obtain rfl : selected = false := h.1
      obtain ⟨hd, ha⟩ := @ih (o + oldStep l) (n + newStep l) h.2
      exact ⟨by simp [selectedDeletions, hd], by simp [selectedAdditions, ha]⟩

theorem Placed.mem_patchKeys {p : Placed} {key : SelectedDiffLineKey} :
    key ∈ p.patchKeys keys .stage ↔
      (key.side = .deletions ∧ key.number ∈ selectedDeletions p.oldStart (p.marked keys)) ∨
        (key.side = .additions ∧ key.number ∈ (p.block keys).2) := by
  rw [Placed.patchKeys]
  split_ifs with h
  · rw [mem_bodyKeys, firstRefs_stage_old, deleteNumbers_selectedBody]
    rfl
  · have h : (p.marked keys).any Prod.snd = false := by simpa [Placed.isSelected] using h
    obtain ⟨hd, ha⟩ := @selected_eq_nil p.oldStart p.newStart _ h
    have hlength := @Placed.length_block keys p
    have hnil : (p.block keys).2 = [] := by
      rw [Placed.block] at hlength
      dsimp only at hlength
      rw [ha] at hlength
      exact List.eq_nil_of_length_eq_zero hlength.symm
    simp [hd, hnil]

/-- For every diff whose changed lines are not taken for file headers and every choice of its
changed lines, the staged patch gives the choice back exactly when every hunk is balanced. -/
theorem keys_round_trip {d : Diff} (h : d.WellFormed)
    (hplain : ∀ p ∈ d.parts, ∀ l ∈ p.hunk.body, Plain l) {keys : Finset SelectedDiffLineKey}
    (hkeys : ∀ key ∈ keys, key ∈ changedKeys d) (hne : keys.Nonempty) :
    (∃ patch, buildPatchFromSelectedDiffLines d.text keys .stage = some patch ∧
        extractSelectedDiffLineKeysFromPatch patch = keys) ↔
      ∀ p ∈ placed 0 0 d.parts, Balanced (p.marked keys) := by
  have hdeletions : ∀ i, (⟨.deletions, i⟩ : SelectedDiffLineKey) ∈ keys ↔
      ∃ p ∈ placed 0 0 d.parts, i ∈ selectedDeletions p.oldStart (p.marked keys) := by
    intro i
    constructor
    · intro hi
      obtain ⟨p, hp, hmem⟩ := List.mem_flatMap.mp (hkeys _ hi)
      have hnumber : i ∈ deleteNumbers p.oldStart p.hunk.body := by simpa using mem_bodyKeys.mp hmem
      exact ⟨p, hp, mem_selectedDeletions.mpr ⟨hnumber, hi⟩⟩
    · rintro ⟨p, -, hi⟩
      exact (mem_selectedDeletions.mp hi).2
  have hadditions : ∀ i, (⟨.additions, i⟩ : SelectedDiffLineKey) ∈ keys ↔
      ∃ p ∈ placed 0 0 d.parts, i ∈ (p.block keys).1 := by
    intro i
    constructor
    · intro hi
      obtain ⟨p, hp, hmem⟩ := List.mem_flatMap.mp (hkeys _ hi)
      have hnumber : i ∈ addNumbers p.newStart p.hunk.body := by simpa using mem_bodyKeys.mp hmem
      exact ⟨p, hp, mem_selectedAdditions.mpr ⟨hnumber, hi⟩⟩
    · rintro ⟨p, -, hi⟩
      exact (mem_selectedAdditions.mp hi).2
  have hselected : (placed 0 0 d.parts).any (Placed.isSelected keys) = true := by
    obtain ⟨key, hkey⟩ := hne
    obtain ⟨p, hp, hmem⟩ := List.mem_flatMap.mp (hkeys key hkey)
    exact List.any_eq_true.mpr ⟨p, hp, isSelected_of_key hmem hkey⟩
  have hread : ∀ p ∈ placed 0 0 d.parts, p.Read keys := fun p hp => by
    obtain ⟨part, hpart, heq⟩ := mem_placed hp
    exact read_of_keys hkeys hp fun _ => heq ▸ hplain part hpart
  have hbuild := @build_eq keys .stage d h hread
  rw [if_pos hselected] at hbuild
  have hgiven : (∃ patch, buildPatchFromSelectedDiffLines d.text keys .stage = some patch ∧
      extractSelectedDiffLineKeysFromPatch patch = keys) ↔
      ∀ i, (∃ p ∈ placed 0 0 d.parts, i ∈ (p.block keys).1) ↔
        ∃ p ∈ placed 0 0 d.parts, i ∈ (p.block keys).2 := by
    rw [hbuild]
    simp only [Option.some.injEq, exists_eq_left', extract_patch h hplain]
    rw [Finset.ext_iff]
    constructor
    · intro hall i
      rw [← hadditions, ← hall, List.mem_toFinset, List.mem_flatMap]
      simp [Placed.mem_patchKeys]
    · rintro hall ⟨side, i⟩
      rw [List.mem_toFinset, List.mem_flatMap]
      cases side with
      | additions =>
          rw [hadditions, hall]
          simp [Placed.mem_patchKeys]
      | deletions =>
          rw [hdeletions]
          simp [Placed.mem_patchKeys]
  rw [hgiven]
  have hblocks := @blocks_placed keys d.parts 0 0
  constructor
  · intro hsame p hp
    refine (selectedAdditions_eq_iff_balanced p.oldStart p.newStart _).mp ?_
    refine hblocks.forall_eq (fun i => ?_) (p.block keys) (List.mem_map_of_mem hp)
    simpa using hsame i
  · intro hbalanced i
    refine exists_congr fun p => and_congr_right fun hp => ?_
    have heq : (p.block keys).1 = (p.block keys).2 :=
      (selectedAdditions_eq_iff_balanced p.oldStart p.newStart _).mpr (hbalanced p hp)
    rw [heq]

def sampleLine (kind : Kind) (text : String) : BodyLine := ⟨kind, ⟨text.toList, true⟩⟩

def sampleDiff : Diff where
  header := ["diff --git a/src/a.ts b/src/a.ts".toList, "--- a/src/a.ts".toList,
    "+++ b/src/a.ts".toList]
  parts := [⟨[], ⟨[], false, [sampleLine .context "keep-1", sampleLine .delete "old-line",
    sampleLine .add "new-line", sampleLine .context "keep-2"]⟩⟩]
  rest := []
  trailing := false

theorem sampleDiff_wellFormed : sampleDiff.WellFormed :=
  ⟨by decide, by decide, by decide, by decide, by simp [sampleDiff], by decide, by decide, by decide, by decide⟩

theorem sampleDiff_plain : ∀ p ∈ sampleDiff.parts, ∀ l ∈ p.hunk.body, Plain l := by decide

theorem keys_round_trip_replaced :
    ∃ patch, buildPatchFromSelectedDiffLines sampleDiff.text {⟨.deletions, 2⟩, ⟨.additions, 2⟩} .stage =
        some patch ∧
      extractSelectedDiffLineKeysFromPatch patch = {⟨.deletions, 2⟩, ⟨.additions, 2⟩} :=
  (keys_round_trip sampleDiff_wellFormed sampleDiff_plain (by decide) (by decide)).mpr (by decide)

/-- The addition alone comes back with the number 3: the deletion before it stays as context. -/
theorem addition_read_back_shifted :
    sampleDiff.WellFormed ∧ (∀ p ∈ sampleDiff.parts, ∀ l ∈ p.hunk.body, Plain l) ∧
      (∀ key ∈ ({⟨.additions, 2⟩} : Finset SelectedDiffLineKey), key ∈ changedKeys sampleDiff) ∧
      ¬∃ patch, buildPatchFromSelectedDiffLines sampleDiff.text {⟨.additions, 2⟩} .stage = some patch ∧
        extractSelectedDiffLineKeysFromPatch patch = {⟨.additions, 2⟩} := by
  refine ⟨sampleDiff_wellFormed, sampleDiff_plain, by decide, ?_⟩
  rintro ⟨patch, hbuild, hextract⟩
  have hread : ∀ p ∈ placed 0 0 sampleDiff.parts, p.Read {⟨.additions, 2⟩} := fun p hp =>
    read_of_keys (by decide) hp fun _ => by
      obtain ⟨part, hpart, heq⟩ := mem_placed hp
      exact heq ▸ sampleDiff_plain part hpart
  rw [build_eq sampleDiff_wellFormed hread, if_pos (by decide)] at hbuild
  obtain rfl := Option.some.inj hbuild
  rw [extract_patch sampleDiff_wellFormed sampleDiff_plain] at hextract
  exact absurd hextract (by decide)

end DevPilot.Staging
