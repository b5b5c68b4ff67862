import DevPilot.Hunks.UnifiedDiff
import Mathlib.Data.List.Sort

/-!
The aligned line sequence of two texts, numbered on both sides, and the pass over the parts of
the line diff that builds it.
-/

namespace DevPilot.Hunks

open UnifiedDiff DevPilot.Diffs

abbrev Entry := LineType × Text

def kindOf (change : Change) : LineType :=
  if change.removed then .remove else if change.added then .add else .normal

def aligned (changes : List Change) : List Entry :=
  changes.flatMap fun change => (linesOf change.value).map fun line => (kindOf change, line)

def oldTexts (entries : List Entry) : List Text :=
  (entries.filter fun e => e.1 ≠ .add).map Prod.snd

def newTexts (entries : List Entry) : List Text :=
  (entries.filter fun e => e.1 ≠ .remove).map Prod.snd

/-- The entries with their line numbers from `o` and `n` on. -/
def numbered : Nat → Nat → List Entry → List DiffLine
  | _, _, [] => []
  | o, n, (.remove, line) :: rest => ⟨.remove, line, some o, none, none⟩ :: numbered (o + 1) n rest
  | o, n, (.add, line) :: rest => ⟨.add, line, none, some n, none⟩ :: numbered o (n + 1) rest
  | o, n, (.normal, line) :: rest =>
      ⟨.normal, line, some o, some n, none⟩ :: numbered (o + 1) (n + 1) rest

/-- The indices of the changed lines among the lines of all parts. -/
def changedPlaces (changes : List Change) : List Nat :=
  ((aligned changes).zipIdx.filter fun e => e.1.1 ≠ .normal).map Prod.snd

def bare (l : DiffLine) : DiffLine := { l with tokens := none }

@[simp] theorem oldTexts_append (a b : List Entry) : oldTexts (a ++ b) = oldTexts a ++ oldTexts b := by
  simp [oldTexts]

@[simp] theorem newTexts_append (a b : List Entry) : newTexts (a ++ b) = newTexts a ++ newTexts b := by
  simp [newTexts]

theorem oldTexts_kind (kind : LineType) (lines : List Text) :
    oldTexts (lines.map fun line => (kind, line)) = if kind = .add then [] else lines := by
  induction lines with
  | nil => cases kind <;> rfl
  | cons line lines ih => cases kind <;> simpa [oldTexts] using ih

theorem newTexts_kind (kind : LineType) (lines : List Text) :
    newTexts (lines.map fun line => (kind, line)) = if kind = .remove then [] else lines := by
  induction lines with
  | nil => cases kind <;> rfl
  | cons line lines ih => cases kind <;> simpa [newTexts] using ih

theorem aligned_cons (change : Change) (changes : List Change) :
    aligned (change :: changes) =
      (linesOf change.value).map (fun line => (kindOf change, line)) ++ aligned changes := rfl

theorem numbered_append (a b : List Entry) (o n : Nat) :
    numbered o n (a ++ b) =
      numbered o n a ++ numbered (o + (oldTexts a).length) (n + (newTexts a).length) b := by
  induction a generalizing o n with
  | nil => rfl
  | cons e a ih =>
      obtain ⟨kind, line⟩ := e
      cases kind <;> simp [numbered, ih, oldTexts, newTexts] <;> congr 1 <;> omega

theorem numbered_shape (entries : List Entry) (o n : Nat) :
    (numbered o n entries).map (fun l => (l.type, l.content)) = entries := by
  induction entries generalizing o n with
  | nil => rfl
  | cons e entries ih =>
      obtain ⟨kind, line⟩ := e
      cases kind <;> simp [numbered, ih]

structure Sided (l : DiffLine) : Prop where
  old : l.oldLineNumber.isSome = true ↔ l.type ≠ .add
  new : l.newLineNumber.isSome = true ↔ l.type ≠ .remove
  oldPos : ∀ n ∈ l.oldLineNumber, 0 < n
  newPos : ∀ n ∈ l.newLineNumber, 0 < n

theorem sided_numbered {entries : List Entry} {o n : Nat} (ho : 0 < o) (hn : 0 < n) :
    ∀ l ∈ numbered o n entries, Sided l := by
  induction entries generalizing o n with
  | nil => simp [numbered]
  | cons e entries ih =>
      obtain ⟨kind, line⟩ := e
      intro l hl
      cases kind <;> rcases List.mem_cons.mp hl with rfl | hl
      · exact ⟨by simp, by simp, by simp, by simpa using hn⟩
      · exact ih ho (Nat.succ_pos n) l hl
      · exact ⟨by simp, by simp, by simpa using ho, by simp⟩
      · exact ih (Nat.succ_pos o) hn l hl
      · exact ⟨by simp, by simp, by simpa using ho, by simpa using hn⟩
      · exact ih (Nat.succ_pos o) (Nat.succ_pos n) l hl

theorem numbered_old (entries : List Entry) (o n : Nat) :
    (numbered o n entries).filterMap (fun l => l.oldLineNumber.map (l.content, ·)) =
      (oldTexts entries).zipIdx o := by
  induction entries generalizing o n with
  | nil => rfl
  | cons e entries ih =>
      obtain ⟨kind, line⟩ := e
      cases kind <;> simp [numbered, ih, oldTexts]

theorem numbered_new (entries : List Entry) (o n : Nat) :
    (numbered o n entries).filterMap (fun l => l.newLineNumber.map (l.content, ·)) =
      (newTexts entries).zipIdx n := by
  induction entries generalizing o n with
  | nil => rfl
  | cons e entries ih =>
      obtain ⟨kind, line⟩ := e
      cases kind <;> simp [numbered, ih, newTexts]

theorem linesOf_cons (c : Char) (t : Text) :
    linesOf (c :: t) = if c = '\n' then [] :: linesOf t
      else match linesOf t with
        | [] => [[c]]
        | line :: rest => (c :: line) :: rest := by
  have hne := List.splitOnP_ne_nil (· == '\n') t
  obtain ⟨first, rest, hsplit⟩ := List.exists_cons_of_ne_nil hne
  have htail : t.splitOn '\n' = first :: rest := hsplit
  have hhead : (c :: t).splitOn '\n' =
      if c = '\n' then [] :: first :: rest else (c :: first) :: rest := by
    rw [List.splitOn, List.splitOnP_cons_eq_if_modifyHead, hsplit]
    by_cases hc : c = '\n' <;> simp [hc]
  rw [linesOf, linesOf, hhead, htail]
  by_cases hc : c = '\n'
  · simp only [hc, if_true, List.getLast?_cons_cons, List.dropLast_cons₂]
    split_ifs <;> rfl
  · cases rest with
    | nil => cases first <;> simp [hc]
    | cons second rest =>
        simp only [hc, if_false, List.getLast?_cons_cons, List.dropLast_cons₂]
        split_ifs <;> rfl

theorem linesOf_eq (t : Text) : linesOf t = (lineTokens t).map fun line => line.filter (· ≠ '\n') := by
  induction t with
  | nil => rfl
  | cons c t ih =>
      rw [linesOf_cons, lineTokens, ih]
      by_cases hc : c = '\n'
      · simp [hc]
      · cases lineTokens t <;> simp [hc]

theorem flatten_lineTokens (t : Text) : (lineTokens t).flatten = t := by
  induction t with
  | nil => rfl
  | cons c t ih =>
      rw [lineTokens]
      by_cases hc : c = '\n'
      · simp [hc, ih]
      · cases h : lineTokens t with
        | nil => simp_all
        | cons line rest => simp_all

theorem lineTokens_eq_nil {t : Text} (h : linesOf t = []) : lineTokens t = [] :=
  List.map_eq_nil_iff.mp (linesOf_eq t ▸ h)

theorem flatMap_linesOf (changes : List Change) :
    changes.flatMap (fun change => linesOf change.value) =
      (changes.flatMap fun change => lineTokens change.value).map
        fun line => line.filter (· ≠ '\n') := by
  simp only [linesOf_eq, List.map_flatMap]

variable (lineDiff : LineDiff) (a b : Text)

theorem oldTexts_aligned :
    oldTexts (aligned (lineDiff.diffLines a b)) = linesOf a := by
  have hsides : ∀ changes : List Change,
      (∀ change ∈ changes, ¬ (change.added ∧ change.removed)) →
      oldTexts (aligned changes) =
        (changes.filter fun change => !change.added).flatMap fun change => linesOf change.value := by
    intro changes hexclusive
    induction changes with
    | nil => rfl
    | cons change changes ih =>
        have hone := hexclusive change List.mem_cons_self
        have hrest := ih fun c hc => hexclusive c (List.mem_cons_of_mem _ hc)
        rw [aligned_cons, oldTexts_append, oldTexts_kind, hrest, kindOf]
        cases hadded : change.added <;> cases hremoved : change.removed <;> simp_all
  rw [hsides _ (lineDiff.exclusive a b), flatMap_linesOf, lineDiff.old, ← linesOf_eq]

theorem newTexts_aligned :
    newTexts (aligned (lineDiff.diffLines a b)) = linesOf b := by
  have hsides : ∀ changes : List Change,
      newTexts (aligned changes) =
        (changes.filter fun change => !change.removed).flatMap fun change => linesOf change.value := by
    intro changes
    induction changes with
    | nil => rfl
    | cons change changes ih =>
        rw [aligned_cons, newTexts_append, newTexts_kind, ih, kindOf]
        cases hadded : change.added <;> cases hremoved : change.removed <;> simp_all
  rw [hsides, flatMap_linesOf, lineDiff.new, ← linesOf_eq]

theorem exists_change (hne : a ≠ b) : ∃ e ∈ aligned (lineDiff.diffLines a b), e.1 ≠ .normal := by
  by_contra hnone
  push Not at hnone
  have htokens : ∀ change ∈ lineDiff.diffLines a b, change.removed ∨ change.added →
      lineTokens change.value = [] := by
    intro change hchange hside
    apply lineTokens_eq_nil
    by_contra hlines
    obtain ⟨line, rest, heq⟩ := List.exists_cons_of_ne_nil hlines
    have hmem : (kindOf change, line) ∈ aligned (lineDiff.diffLines a b) :=
      List.mem_flatMap.mpr ⟨change, hchange, List.mem_map.mpr ⟨line, by simp [heq], rfl⟩⟩
    have := hnone _ hmem
    unfold kindOf at this
    rcases hside with h | h <;> simp [h] at this
    split_ifs at this
  have hcommon : ∀ (p : Change → Bool), (∀ change ∈ lineDiff.diffLines a b, p change = false →
        change.removed ∨ change.added) →
      ((lineDiff.diffLines a b).filter p).flatMap (fun change => lineTokens change.value) =
        (lineDiff.diffLines a b).flatMap fun change => lineTokens change.value := by
    intro p hp
    generalize lineDiff.diffLines a b = changes at htokens hp
    induction changes with
    | nil => rfl
    | cons change changes ih =>
        have hrest := ih (fun c hc => htokens c (List.mem_cons_of_mem _ hc))
          (fun c hc => hp c (List.mem_cons_of_mem _ hc))
        cases h : p change with
        | true => simp [h, hrest]
        | false =>
            have hnil := htokens change List.mem_cons_self (hp change List.mem_cons_self h)
            simp [h, hrest, hnil]
  have hold := lineDiff.old a b
  have hnew := lineDiff.new a b
  rw [hcommon _ fun change _ h => .inr (by simpa using h)] at hold
  rw [hcommon _ fun change _ h => .inl (by simpa using h)] at hnew
  exact hne (by rw [← flatten_lineTokens a, ← hold, hnew, flatten_lineTokens])

theorem old_calculateInlineDiff (words : WordDiff) (x y : Text) :
    ((calculateInlineDiff words x y).filter fun t => !t.added).flatMap DiffToken.value = x := by
  have h := words.old x y
  rw [calculateInlineDiff]
  generalize words.diffWordsWithSpace x y = parts at h
  induction parts generalizing x with
  | nil => simpa using h
  | cons part parts ih =>
      subst h
      have hrest := ih _ rfl
      cases part <;> simpa [WordPart.old] using hrest

theorem new_calculateInlineDiff (words : WordDiff) (x y : Text) :
    ((calculateInlineDiff words x y).filter fun t => !t.removed).flatMap DiffToken.value = y := by
  have h := words.new x y
  rw [calculateInlineDiff]
  generalize words.diffWordsWithSpace x y = parts at h
  induction parts generalizing y with
  | nil => simpa using h
  | cons part parts ih =>
      subst h
      have hrest := ih _ rfl
      cases part <;> simpa [WordPart.new] using hrest

def Spelled (l : DiffLine) : Prop := ∀ tokens ∈ l.tokens, tokens.flatMap DiffToken.value = l.content

structure Passed (s : PassState) (done : List Entry) : Prop where
  lines : s.allLines.map bare = numbered 1 1 done
  oldLineNum : s.oldLineNum = 1 + (oldTexts done).length
  newLineNum : s.newLineNum = 1 + (newTexts done).length
  spelled : ∀ l ∈ s.allLines, Spelled l
  pending : ∀ p ∈ s.pendingRemovals, ∃ l, s.allLines[p.index]? = some l ∧ l.content = p.line

namespace Passed

variable {s : PassState} {done : List Entry} {line : Text}

theorem pending_append (h : Passed s done) (l : DiffLine) :
    ∀ p ∈ s.pendingRemovals, ∃ l', (s.allLines ++ [l])[p.index]? = some l' ∧ l'.content = p.line := by
  intro p hp
  obtain ⟨l', hl', hcontent⟩ := h.pending p hp
  have hlt := (List.getElem?_eq_some_iff.mp hl').1
  exact ⟨l', by rw [List.getElem?_append_left hlt, hl'], hcontent⟩

theorem spelled_append (h : Passed s done) {l : DiffLine} (hl : Spelled l) :
    ∀ l' ∈ s.allLines ++ [l], Spelled l' := by
  intro l' hl'
  rcases List.mem_append.mp hl' with hl' | hl'
  · exact h.spelled l' hl'
  · exact List.mem_singleton.mp hl' ▸ hl

theorem removedLine (h : Passed s done) : Passed (s.removedLine line) (done ++ [(.remove, line)]) where
  lines := by
    simp [PassState.removedLine, numbered_append, h.lines, numbered, bare, h.oldLineNum]
  oldLineNum := by
    simp [PassState.removedLine, h.oldLineNum, oldTexts]
    omega
  newLineNum := by simp [PassState.removedLine, h.newLineNum, newTexts]
  spelled := h.spelled_append (by simp [Spelled])
  pending p hp := by
    rcases List.mem_append.mp hp with hp | hp
    · exact h.pending_append _ p hp
    · obtain rfl := List.mem_singleton.mp hp
      refine ⟨⟨.remove, line, some s.oldLineNum, none, none⟩, ?_, rfl⟩
      exact List.getElem?_concat_length

theorem unpairedLine (h : Passed s done) : Passed (s.unpairedLine line) (done ++ [(.add, line)]) where
  lines := by
    simp [PassState.unpairedLine, numbered_append, h.lines, numbered, bare, h.newLineNum]
  oldLineNum := by simp [PassState.unpairedLine, h.oldLineNum, oldTexts]
  newLineNum := by
    simp [PassState.unpairedLine, h.newLineNum, newTexts]
    omega
  spelled := h.spelled_append (by simp [Spelled])
  pending := h.pending_append _

theorem normalLine (h : Passed s done) : Passed (s.normalLine line) (done ++ [(.normal, line)]) where
  lines := by
    simp [PassState.normalLine, numbered_append, h.lines, numbered, bare, h.oldLineNum,
      h.newLineNum]
  oldLineNum := by
    simp [PassState.normalLine, h.oldLineNum, oldTexts]
    omega
  newLineNum := by
    simp [PassState.normalLine, h.newLineNum, newTexts]
    omega
  spelled := h.spelled_append (by simp [Spelled])
  pending := h.pending_append _

theorem map_bare_modify (l : List DiffLine) (i : Nat) (tokens : List DiffToken) :
    (l.modify i fun old => { old with tokens := some tokens }).map bare = l.map bare := by
  apply List.ext_getElem?
  intro j
  rw [List.getElem?_map, List.getElem?_map, List.getElem?_modify]
  cases l[j]? <;> by_cases hij : i = j <;> simp [hij, bare]

def withTokens (s : PassState) (i : Nat) (tokens : List DiffToken) : PassState :=
  { s with allLines := s.allLines.modify i fun old => { old with tokens := some tokens } }

theorem withOldTokens (h : Passed s done) (words : WordDiff) {removal : PendingRemoval}
    (hremoval : removal ∈ s.pendingRemovals) :
    Passed (withTokens s removal.index
      ((calculateInlineDiff words removal.line line).filter fun t => !t.added)) done where
  lines := by rw [withTokens, map_bare_modify, h.lines]
  oldLineNum := h.oldLineNum
  newLineNum := h.newLineNum
  spelled l hl := by
    obtain ⟨j, hj⟩ := List.getElem?_of_mem hl
    rw [withTokens, List.getElem?_modify] at hj
    obtain ⟨old, hold, heq⟩ := Option.map_eq_some_iff.mp hj
    by_cases hij : removal.index = j
    · obtain ⟨l', hl', hcontent⟩ := h.pending removal hremoval
      rw [hij, hold] at hl'
      obtain rfl := Option.some.inj hl'
      rw [if_pos hij] at heq
      subst heq
      intro tokens htokens
      obtain rfl := Option.some.inj htokens
      rw [old_calculateInlineDiff, ← hcontent]
    · rw [if_neg hij] at heq
      subst heq
      exact h.spelled old (List.mem_of_getElem? hold)
  pending p hp := by
    obtain ⟨l, hl, hcontent⟩ := h.pending p hp
    refine ⟨_, by rw [withTokens, List.getElem?_modify, hl]; rfl, ?_⟩
    split_ifs
    · exact hcontent
    · exact hcontent

theorem pairedLine (h : Passed s done) (words : WordDiff) {removal : PendingRemoval} {i : Nat}
    (hremoval : removal ∈ s.pendingRemovals) :
    Passed (s.pairedLine words line i removal) (done ++ [(.add, line)]) := by
  have htokens := @withOldTokens s done line h words removal hremoval
  have hadded := @unpairedLine _ _ line htokens
  have hlines := hadded.lines
  exact {
    lines := by simpa [PassState.pairedLine, PassState.unpairedLine, bare, withTokens] using hlines
    oldLineNum := hadded.oldLineNum
    newLineNum := hadded.newLineNum
    spelled := htokens.spelled_append (by
      intro tokens htokens
      obtain rfl := Option.some.inj htokens
      exact new_calculateInlineDiff words removal.line line)
    pending := fun p hp => htokens.pending_append _ p
      (List.mem_of_mem_eraseIdx hp) }

variable (F : Type) [NatCast F] [Add F] [Div F] [LT F] [DecidableLT F] (words : WordDiff)

theorem addedLine (h : Passed s done) :
    Passed (s.addedLine F words line) (done ++ [(.add, line)]) := by
  unfold PassState.addedLine
  cases findBestMatch F line (s.pendingRemovals.map PendingRemoval.line) with
  | none => exact h.unpairedLine
  | some i =>
      dsimp only
      cases hremoval : s.pendingRemovals[i]? with
      | none => exact h.unpairedLine
      | some removal => exact h.pairedLine words (List.mem_of_getElem? hremoval)

theorem oneLine (h : Passed s done) (change : Change) :
    Passed (PassState.line F words change s line) (done ++ [(kindOf change, line)]) := by
  unfold PassState.line kindOf
  by_cases hremoved : change.removed
  · simp only [hremoved, if_true]
    exact h.removedLine
  · by_cases hadded : change.added
    · simp only [hremoved, hadded, if_true]
      exact h.addedLine F words
    · simp only [hremoved, hadded]
      exact h.normalLine

theorem change (h : Passed s done) (change : Change) :
    Passed (s.change F words change)
      (done ++ (linesOf change.value).map fun line => (kindOf change, line)) := by
  unfold PassState.change
  generalize linesOf change.value = lines
  induction lines generalizing s done with
  | nil => simpa using h
  | cons line lines ih =>
      rw [List.foldl_cons, List.map_cons, List.append_cons]
      exact ih (h.oneLine F words change)

theorem changes (h : Passed s done) (changes : List Change) :
    Passed (changes.foldl (PassState.change F words) s) (done ++ aligned changes) := by
  induction changes generalizing s done with
  | nil => simpa [aligned] using h
  | cons change changes ih =>
      rw [List.foldl_cons, aligned_cons, ← List.append_assoc]
      exact ih (h.change F words change)

end Passed

theorem passed_firstPass (F : Type) [NatCast F] [Add F] [Div F] [LT F] [DecidableLT F]
    (words : WordDiff) :
    Passed (firstPass F lineDiff words a b) (aligned (lineDiff.diffLines a b)) := by
  have hinit : Passed ⟨[], [], 1, 1, 0, 0⟩ [] := ⟨rfl, rfl, rfl, by simp, by simp⟩
  exact hinit.changes F words (lineDiff.diffLines a b)

end DevPilot.Hunks
