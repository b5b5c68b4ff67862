import DevPilot.Diffs.CodeLines

/-!
The shown lines against the two texts of a diff: every line of a hunk once, with its text
and its number, unless its text makes it look like something else.
-/

namespace DevPilot.Diffs

open UnifiedDiff

def oldEntry (l : CodeLine) : Option (Text × Option Nat) :=
  if l.kind = .remove ∨ l.kind = .context ∧ l.renderPrefixText = [' '] then
    some (l.renderCodeText, l.oldLine) else none

def newEntry (l : CodeLine) : Option (Text × Option Nat) :=
  if l.kind = .add ∨ l.kind = .context ∧ l.renderPrefixText = [' '] then
    some (l.renderCodeText, l.newLine) else none

def oldEntries (out : List CodeLine) : List (Text × Option Nat) := out.filterMap oldEntry

def newEntries (out : List CodeLine) : List (Text × Option Nat) := out.filterMap newEntry

/-- The lines of the hunks that `side` picks with their numbers, `count` of a hunk being the
number of its picked lines. -/
def numbered (side : BodyLine → Bool) : Nat → List Part → List (Text × Option Nat)
  | _, [] => []
  | before, p :: ps =>
      ((p.hunk.body.filter side).zipIdx (before + p.gap.length + 1)).map
          (fun q => (q.1.line.text, some q.2)) ++
        numbered side (before + p.gap.length + p.hunk.body.countP side) ps

/-- The line looks like a hunk header, or like the name of a file. -/
def misread (l : BodyLine) : Bool :=
  match l.kind with
  | .context => startsWith "@@" (trimStart l.line.text)
  | .delete => startsWith "--" l.line.text
  | .add => startsWith "++" l.line.text

theorem filterMap_modify {α β : Type} {g : α → Option β} {f : α → α} (hf : ∀ x, g (f x) = g x)
    (l : List α) (i : Nat) : (l.modify i f).filterMap g = l.filterMap g := by
  induction l generalizing i with
  | nil => simp
  | cons x l ih =>
      cases i with
      | zero => simp [List.filterMap_cons, hf]
      | succ i => simp [List.filterMap_cons, ih]

structure Adds (s s' : BuildState) (old new : List (Text × Option Nat)) : Prop where
  inHunk : s'.inHunk = true
  oldLine : s'.oldLine = s.oldLine + old.length
  newLine : s'.newLine = s.newLine + new.length
  old : oldEntries s'.out = oldEntries s.out ++ old
  new : newEntries s'.out = newEntries s.out ++ new

theorem Adds.trans {s s' s'' : BuildState} {old new old' new' : List (Text × Option Nat)}
    (h : Adds s s' old new) (h' : Adds s' s'' old' new') :
    Adds s s'' (old ++ old') (new ++ new') := by
  refine ⟨h'.inHunk, ?_, ?_, ?_, ?_⟩
  · rw [h'.oldLine, h.oldLine, List.length_append, Nat.add_assoc]
  · rw [h'.newLine, h.newLine, List.length_append, Nat.add_assoc]
  · rw [h'.old, h.old, List.append_assoc]
  · rw [h'.new, h.new, List.append_assoc]

variable (words : WordDiff) (intra : IntraLineDiff) (enabled : Bool) {s : BuildState}

theorem pairAddition_keeps (codeText : Text) (s : BuildState) :
    let s' := (pairAddition words intra enabled codeText s).1
    s'.inHunk = s.inHunk ∧ s'.oldLine = s.oldLine ∧ s'.newLine = s.newLine ∧
      oldEntries s'.out = oldEntries s.out ∧ newEntries s'.out = newEntries s.out := by
  unfold pairAddition
  by_cases hon : (enabled && isPositive s.remainingIntraLinePairs) = true
  · rw [if_pos hon]
    cases s.pendingRemovals with
    | nil => exact ⟨rfl, rfl, rfl, rfl, rfl⟩
    | cons pending rest =>
        dsimp only
        cases s.out[pending.1]? with
        | none => exact ⟨rfl, rfl, rfl, rfl, rfl⟩
        | some removalLine =>
            dsimp only
            split_ifs
            · exact ⟨rfl, rfl, rfl, rfl, rfl⟩
            · exact ⟨rfl, rfl, rfl, filterMap_modify (f := withSegments _) (fun _ => rfl) _ _,
                filterMap_modify (f := withSegments _) (fun _ => rfl) _ _⟩
            · exact ⟨rfl, rfl, rfl, rfl, rfl⟩
  · rw [if_neg hon]
    split_ifs <;> exact ⟨rfl, rfl, rfl, rfl, rfl⟩

theorem queueRemoval_keeps (codeText : Text) (s : BuildState) :
    let s' := queueRemoval intra enabled codeText s
    s'.inHunk = s.inHunk ∧ s'.oldLine = s.oldLine ∧ s'.newLine = s.newLine ∧ s'.out = s.out := by
  unfold queueRemoval
  split_ifs <;> exact ⟨rfl, rfl, rfl, rfl⟩

theorem entries_push (line : CodeLine) (s : BuildState) :
    oldEntries (push line s).out = oldEntries s.out ++ (oldEntry line).toList ∧
      newEntries (push line s).out = newEntries s.out ++ (newEntry line).toList := by
  constructor
  · cases h : oldEntry line <;> simp [oldEntries, push, List.filterMap_append, h]
  · cases h : newEntry line <;> simp [newEntries, push, List.filterMap_append, h]

theorem entries_push_neither {a : CodeLine} (hold : oldEntry a = none)
    (hnew : newEntry a = none) (s : BuildState) :
    oldEntries (push a s).out = oldEntries s.out ∧ newEntries (push a s).out = newEntries s.out := by
  obtain ⟨h, h'⟩ := entries_push a s
  rw [hold, Option.toList_none, List.append_nil] at h
  rw [hnew, Option.toList_none, List.append_nil] at h'
  exact ⟨h, h'⟩

/-- What a line of a hunk shows when it is read as what it is. -/
def oldShown (l : BodyLine) (n : Nat) : List (Text × Option Nat) :=
  if l.isOld then [(l.line.text, some n)] else []

def newShown (l : BodyLine) (n : Nat) : List (Text × Option Nat) :=
  if l.isNew then [(l.line.text, some n)] else []

theorem adds_other {i : Nat} {t : Text} (hin : s.inHunk = true) (hplus : t.head? ≠ some '+')
    (hminus : t.head? ≠ some '-') (hspace : t.head? ≠ some ' ') :
    Adds s (hunkLine words intra enabled i t s) [] [] := by
  simp only [hunkLine, hplus, hminus, hspace, decide_false, Bool.false_and, Bool.false_eq_true, if_false]
  have h := entries_push (contextLine "x" i s.oldLine s.newLine [] t) { s with pendingRemovals := [] }
  exact ⟨hin, rfl, rfl, h.1, h.2⟩

theorem isBlank_prefixOf {k : Kind} (hk : k ≠ .context) : isBlank (prefixOf k) = false := by
  cases k with
  | context => exact absurd rfl hk
  | delete => decide
  | add => decide

theorem starts_render (l : BodyLine) :
    startsWith "@@" (trimStart (prefixOf l.kind :: l.line.text)) =
      (decide (l.kind = .context) && misread l) := by
  cases hk : l.kind with
  | context => simp [misread, hk, prefixOf, trimStart, isBlank]
  | delete =>
      rw [trimStart, List.dropWhile_cons_of_neg (by simp [isBlank_prefixOf])]
      rfl
  | add =>
      rw [trimStart, List.dropWhile_cons_of_neg (by simp [isBlank_prefixOf])]
      rfl

theorem step_render (l : BodyLine) {i : Nat} (hin : s.inHunk = true) :
    step words intra enabled s i (prefixOf l.kind :: l.line.text) =
      if l.kind = .context ∧ misread l = true then
        hunkHeader i (trimStart (prefixOf l.kind :: l.line.text)) s
      else hunkLine words intra enabled i (prefixOf l.kind :: l.line.text) s := by
  have hbom : (prefixOf l.kind :: l.line.text).head? ≠ some (Char.ofNat 0xFEFF) := by
    rw [List.head?_cons]
    cases l.kind <;> decide
  rw [step]
  simp only [hbom, if_false, hin, Bool.not_true, Bool.false_eq_true]
  rw [starts_render]
  simp

theorem adds_line (l : BodyLine) {i : Nat} (hin : s.inHunk = true) (hread : misread l = false) :
    Adds s (step words intra enabled s i (prefixOf l.kind :: l.line.text))
      (oldShown l s.oldLine) (newShown l s.newLine) := by
  rw [step_render words intra enabled l hin, if_neg (by simp [hread])]
  cases hk : l.kind with
  | add =>
      have hplus : startsWith "+++" ('+' :: l.line.text) = false := by
        simpa [misread, hk, startsWith] using hread
      simp only [hunkLine, prefixOf, List.head?_cons, hplus, decide_true, Bool.not_false, Bool.and_self,
        if_true, List.drop_succ_cons, List.drop_zero]
      obtain ⟨hhunk, hold, hnew, holds, hnews⟩ :=
        pairAddition_keeps words intra enabled l.line.text s
      set r := pairAddition words intra enabled l.line.text s
      have h := entries_push (addLine i r.1.newLine l.line.text r.2) r.1
      refine ⟨hhunk.trans hin, ?_, ?_, ?_, ?_⟩
      · simpa [oldShown, BodyLine.isOld, hk, push] using hold
      · simpa [newShown, BodyLine.isNew, hk, push] using hnew
      · rw [show oldShown l s.oldLine = [] by simp [oldShown, BodyLine.isOld, hk], ← holds]
        simpa [addLine, oldEntry] using h.1
      · rw [show newShown l s.newLine = [(l.line.text, some s.newLine)] by
          simp [newShown, BodyLine.isNew, hk], ← hnews, ← hnew]
        simpa [addLine, newEntry] using h.2
  | delete =>
      have hminus : startsWith "---" ('-' :: l.line.text) = false := by
        simpa [misread, hk, startsWith] using hread
      simp only [hunkLine, prefixOf, List.head?_cons, Option.some.injEq, Char.reduceEq, decide_false,
        Bool.false_and, Bool.false_eq_true, if_false, hminus, decide_true, Bool.not_false, Bool.and_self,
        if_true, List.drop_succ_cons, List.drop_zero]
      obtain ⟨hhunk, hold, hnew, hout⟩ :=
        queueRemoval_keeps intra enabled l.line.text s
      set r := queueRemoval intra enabled l.line.text s
      have h := entries_push (removeLine i r.oldLine l.line.text) r
      rw [hout] at h
      refine ⟨hhunk.trans hin, ?_, ?_, ?_, ?_⟩
      · simpa [oldShown, BodyLine.isOld, hk, push] using hold
      · simpa [newShown, BodyLine.isNew, hk, push] using hnew
      · rw [show oldShown l s.oldLine = [(l.line.text, some s.oldLine)] by
          simp [oldShown, BodyLine.isOld, hk], ← hold]
        simpa [removeLine, oldEntry] using h.1
      · rw [show newShown l s.newLine = [] by simp [newShown, BodyLine.isNew, hk]]
        simpa [removeLine, newEntry] using h.2
  | context =>
      simp only [hunkLine, prefixOf, List.head?_cons, Option.some.injEq, Char.reduceEq, decide_false,
        Bool.false_and, Bool.false_eq_true, if_false, if_true, List.drop_succ_cons, List.drop_zero]
      have h := entries_push (contextLine "c" i s.oldLine s.newLine [' '] l.line.text)
        { s with pendingRemovals := [] }
      refine ⟨hin, ?_, ?_, ?_, ?_⟩
      · simp [oldShown, BodyLine.isOld, hk, push]
      · simp [newShown, BodyLine.isNew, hk, push]
      · simpa [contextLine, oldEntry, oldShown, BodyLine.isOld, hk] using h.1
      · simpa [contextLine, newEntry, newShown, BodyLine.isNew, hk] using h.2

/-- The step adds this many lines to the two sides. -/
structure Counts (s s' : BuildState) (old new : Nat) : Prop where
  inHunk : s'.inHunk = true
  old : (oldEntries s'.out).length = (oldEntries s.out).length + old
  new : (newEntries s'.out).length = (newEntries s.out).length + new

theorem Adds.counts {s s' : BuildState} {old new : List (Text × Option Nat)} (h : Adds s s' old new) :
    Counts s s' old.length new.length :=
  ⟨h.inHunk, by rw [h.old, List.length_append], by rw [h.new, List.length_append]⟩

theorem Counts.trans {s s' s'' : BuildState} {old new old' new' : Nat} (h : Counts s s' old new)
    (h' : Counts s' s'' old' new') : Counts s s'' (old + old') (new + new') :=
  ⟨h'.inHunk, by rw [h'.old, h.old, Nat.add_assoc], by rw [h'.new, h.new, Nat.add_assoc]⟩

theorem counts_hunkHeader {i : Nat} {t : Text} (hin : s.inHunk = true) :
    Counts s (hunkHeader i t s) 0 0 := by
  unfold hunkHeader
  dsimp only
  cases parseHeader? t with
  | none =>
      have h := entries_push_neither (a := headerLine "h" i t) rfl rfl { s with pendingRemovals := [] }
      exact ⟨hin, congrArg List.length h.1, congrArg List.length h.2⟩
  | some header =>
      obtain ⟨oldStart, newStart, heading⟩ := header
      have h := entries_push_neither (a := headerLine "h" i t) rfl rfl
        { s with pendingRemovals := [], oldLine := oldStart, newLine := newStart, inHunk := true }
      exact ⟨rfl, congrArg List.length h.1, congrArg List.length h.2⟩

theorem counts_misread (l : BodyLine) {i : Nat} (hin : s.inHunk = true) (hread : misread l = true) :
    Counts s (step words intra enabled s i (prefixOf l.kind :: l.line.text)) 0 0 := by
  rw [step_render words intra enabled l hin]
  cases hk : l.kind with
  | context =>
      rw [if_pos ⟨rfl, hread⟩]
      exact counts_hunkHeader hin
  | delete =>
      rw [if_neg (by simp)]
      have hminus : startsWith "---" ('-' :: l.line.text) = true := by
        simpa [misread, hk, startsWith] using hread
      simp only [hunkLine, prefixOf, List.head?_cons, Option.some.injEq, Char.reduceEq, decide_false,
        Bool.false_and, Bool.false_eq_true, if_false, hminus, Bool.not_true, Bool.and_false]
      have h := entries_push_neither
        (a := contextLine "x" i s.oldLine s.newLine [] ('-' :: l.line.text)) rfl rfl
        { s with pendingRemovals := [] }
      exact ⟨hin, congrArg List.length h.1, congrArg List.length h.2⟩
  | add =>
      rw [if_neg (by simp)]
      have hplus : startsWith "+++" ('+' :: l.line.text) = true := by
        simpa [misread, hk, startsWith] using hread
      simp only [hunkLine, prefixOf, List.head?_cons, Option.some.injEq, Char.reduceEq, decide_false,
        Bool.false_and, Bool.false_eq_true, if_false, hplus, Bool.not_true, Bool.and_false]
      have h := entries_push_neither
        (a := contextLine "x" i s.oldLine s.newLine [] ('+' :: l.line.text)) rfl rfl
        { s with pendingRemovals := [] }
      exact ⟨hin, congrArg List.length h.1, congrArg List.length h.2⟩

theorem runLines_append (s : BuildState) (i : Nat) (as bs : List Text) :
    runLines words intra enabled s i (as ++ bs) =
      runLines words intra enabled (runLines words intra enabled s i as) (i + as.length) bs := by
  induction as generalizing s i with
  | nil => rfl
  | cons a as ih =>
      rw [List.cons_append, runLines, runLines, ih, List.length_cons]
      congr 1
      omega

theorem adds_step_other {i : Nat} {t : Text} (hin : s.inHunk = true)
    (hhead : ∀ c ∈ t.head?, c = '\\') :
    Adds s (step words intra enabled s i t) [] [] := by
  have hne : ∀ c, c ≠ '\\' → t.head? ≠ some c := fun c hc ht => hc (hhead c ht)
  have hats : startsWith "@@" (trimStart t) = false := by
    cases t with
    | nil => rfl
    | cons c t =>
        obtain rfl := hhead c rfl
        rw [trimStart, List.dropWhile_cons_of_neg (by decide)]
        rfl
  rw [step]
  simp only [hne _ (by decide : Char.ofNat 0xFEFF ≠ '\\'), if_false, hats, Bool.false_eq_true, hin,
    Bool.not_true]
  exact adds_other words intra enabled hin (hne _ (by decide)) (hne _ (by decide)) (hne _ (by decide))

theorem adds_marker (l : BodyLine) {i : Nat} (hin : s.inHunk = true) :
    Adds s (runLines words intra enabled s i (if l.line.ended then [] else [marker])) [] [] := by
  split_ifs
  · exact ⟨hin, rfl, rfl, (List.append_nil _).symm, (List.append_nil _).symm⟩
  · rw [runLines, runLines]
    refine adds_step_other words intra enabled hin fun c hc => ?_
    exact (Option.some.inj hc).symm

theorem adds_render (l : BodyLine) {i : Nat} (hin : s.inHunk = true) (hread : misread l = false) :
    Adds s (runLines words intra enabled s i l.render) (oldShown l s.oldLine) (newShown l s.newLine) := by
  have h := (adds_line words intra enabled (i := i) l hin hread)
  have h' := h.trans (adds_marker words intra enabled l (i := i + 1) h.inHunk)
  rwa [List.append_nil, List.append_nil] at h'

theorem counts_render (l : BodyLine) {i : Nat} (hin : s.inHunk = true) :
    Counts s (runLines words intra enabled s i l.render)
      (if l.isOld && !misread l then 1 else 0) (if l.isNew && !misread l then 1 else 0) := by
  cases hread : misread l with
  | true =>
      have h := counts_misread words intra enabled (i := i) l hin hread
      simp only [Bool.not_true, Bool.and_false, Bool.false_eq_true, if_false]
      exact h.trans (adds_marker words intra enabled l (i := i + 1) h.inHunk).counts
  | false =>
      have h := (adds_render words intra enabled (i := i) l hin hread).counts
      cases hold : l.isOld <;> cases hnew : l.isNew <;> simpa [oldShown, newShown, hold, hnew] using h

/-- The lines of a hunk body that `side` picks, numbered from `n` on. -/
def shown (side : BodyLine → Bool) (n : Nat) (body : List BodyLine) : List (Text × Option Nat) :=
  ((body.filter side).zipIdx n).map fun q => (q.1.line.text, some q.2)

theorem shown_cons (side : BodyLine → Bool) (n : Nat) (l : BodyLine) (body : List BodyLine) :
    shown side n (l :: body) =
      (if side l then [(l.line.text, some n)] else []) ++
        shown side (n + if side l then 1 else 0) body := by
  cases h : side l <;> simp [shown, h]

theorem adds_body {body : List BodyLine} {i : Nat} (hin : s.inHunk = true)
    (hread : ∀ l ∈ body, misread l = false) :
    Adds s (runLines words intra enabled s i (body.flatMap BodyLine.render))
      (shown BodyLine.isOld s.oldLine body) (shown BodyLine.isNew s.newLine body) := by
  induction body generalizing s i with
  | nil => exact ⟨hin, rfl, rfl, (List.append_nil _).symm, (List.append_nil _).symm⟩
  | cons l body ih =>
      rw [List.flatMap_cons, runLines_append]
      have h := adds_render words intra enabled (i := i) l hin
        (hread l (by simp))
      have h' := h.trans (ih (i := i + l.render.length) h.inHunk fun l hl => hread l (by simp [hl]))
      have hold : (oldShown l s.oldLine).length = if l.isOld then 1 else 0 := by
        cases ho : l.isOld <;> simp [oldShown, ho]
      have hnew : (newShown l s.newLine).length = if l.isNew then 1 else 0 := by
        cases hn : l.isNew <;> simp [newShown, hn]
      rw [h.oldLine, h.newLine, hold, hnew] at h'
      rw [shown_cons, shown_cons]
      exact h'

theorem counts_body {body : List BodyLine} {i : Nat} (hin : s.inHunk = true) :
    Counts s (runLines words intra enabled s i (body.flatMap BodyLine.render))
      (body.countP fun l => l.isOld && !misread l) (body.countP fun l => l.isNew && !misread l) := by
  induction body generalizing s i with
  | nil => exact ⟨hin, rfl, rfl⟩
  | cons l body ih =>
      rw [List.flatMap_cons, runLines_append]
      have h := counts_render words intra enabled (i := i) l hin
      obtain ⟨hhunk, hold, hnew⟩ := h.trans (ih (i := i + l.render.length) h.inHunk)
      refine ⟨hhunk, ?_, ?_⟩
      · rw [hold, List.countP_cons]
        omega
      · rw [hnew, List.countP_cons]
        omega

theorem step_renderHeader (short : Bool) (o oc n nc : Nat) (heading : Text) (s : BuildState) (i : Nat) :
    ∃ s', step words intra enabled s i (renderHeader short o oc n nc heading) = s' ∧
      s'.inHunk = true ∧ s'.oldLine = o ∧ s'.newLine = n ∧
      oldEntries s'.out = oldEntries s.out ∧ newEntries s'.out = newEntries s.out := by
  have htrim : trimStart (renderHeader short o oc n nc heading) =
      renderHeader short o oc n nc heading := List.dropWhile_cons_of_neg (by decide)
  have hbom : (renderHeader short o oc n nc heading).head? ≠ some (Char.ofNat 0xFEFF) := by
    rw [renderHeader, List.head?_cons]
    decide
  have hats : startsWith "@@" (renderHeader short o oc n nc heading) = true := by
    simp [startsWith, renderHeader]
  refine ⟨_, rfl, ?_⟩
  rw [step]
  simp only [hbom, if_false, htrim, hats, if_true, hunkHeader, parseHeader?_render]
  have h := entries_push_neither (a := headerLine "h" i (renderHeader short o oc n nc heading)) rfl rfl
    { s with pendingRemovals := [], oldLine := o, newLine := n, inHunk := true }
  exact ⟨rfl, rfl, rfl, h.1, h.2⟩

theorem shown_startOf (side : BodyLine → Bool) (before : Nat) (body : List BodyLine) :
    shown side (startOf before (body.countP side)) body = shown side (before + 1) body := by
  unfold startOf
  split_ifs with h
  · have hnil : body.filter side = [] := by
      rw [← List.length_eq_zero_iff, ← List.countP_eq_length_filter]
      exact h
    simp [shown, hnil]
  · rfl

theorem entries_parts {parts : List Part} (hread : ∀ p ∈ parts, ∀ l ∈ p.hunk.body, misread l = false)
    (s : BuildState) (i o n : Nat) :
    let s' := runLines words intra enabled s i (renderParts o n parts)
    oldEntries s'.out = oldEntries s.out ++ numbered BodyLine.isOld o parts ∧
      newEntries s'.out = newEntries s.out ++ numbered BodyLine.isNew n parts ∧
      (s.inHunk = true ∨ parts ≠ [] → s'.inHunk = true) := by
  induction parts generalizing s i o n with
  | nil => exact ⟨(List.append_nil _).symm, (List.append_nil _).symm, by simp [runLines, renderParts]⟩
  | cons p parts ih =>
      rw [renderParts, Hunk.render, List.cons_append, runLines, runLines_append]
      obtain ⟨s', hs', hin, hold, hnew, holds, hnews⟩ := step_renderHeader words intra enabled p.hunk.shortCounts
        (startOf (o + p.gap.length) p.hunk.oldCount) p.hunk.oldCount
        (startOf (n + p.gap.length) p.hunk.newCount) p.hunk.newCount p.hunk.heading s i
      rw [hs']
      have h := adds_body words intra enabled (i := i + 1) hin
        (hread p (by simp))
      obtain ⟨hih, hih', hinHunk⟩ := ih (fun q hq => hread q (by simp [hq]))
        (runLines words intra enabled s' (i + 1) (p.hunk.body.flatMap BodyLine.render))
        (i + 1 + (p.hunk.body.flatMap BodyLine.render).length)
        (o + p.gap.length + p.hunk.oldCount) (n + p.gap.length + p.hunk.newCount)
      refine ⟨?_, ?_, fun _ => hinHunk (.inl h.inHunk)⟩
      · rw [hih, h.old, holds, hold, Hunk.oldCount, shown_startOf, numbered, List.append_assoc]
        rfl
      · rw [hih', h.new, hnews, hnew, Hunk.newCount, shown_startOf, numbered, List.append_assoc]
        rfl

theorem counts_parts (parts : List Part) (s : BuildState) (i o n : Nat) :
    let s' := runLines words intra enabled s i (renderParts o n parts)
    (oldEntries s'.out).length = (oldEntries s.out).length +
        (parts.flatMap (·.hunk.body)).countP (fun l => l.isOld && !misread l) ∧
      (newEntries s'.out).length = (newEntries s.out).length +
        (parts.flatMap (·.hunk.body)).countP (fun l => l.isNew && !misread l) ∧
      (s.inHunk = true ∨ parts ≠ [] → s'.inHunk = true) := by
  induction parts generalizing s i o n with
  | nil => exact ⟨rfl, rfl, by simp [runLines, renderParts]⟩
  | cons p parts ih =>
      rw [renderParts, Hunk.render, List.cons_append, runLines, runLines_append]
      obtain ⟨s', hs', hin, -, -, holds, hnews⟩ := step_renderHeader words intra enabled
        p.hunk.shortCounts (startOf (o + p.gap.length) p.hunk.oldCount) p.hunk.oldCount
        (startOf (n + p.gap.length) p.hunk.newCount) p.hunk.newCount p.hunk.heading s i
      rw [hs']
      have h := @counts_body words intra enabled s' p.hunk.body (i + 1) hin
      obtain ⟨hih, hih', hinHunk⟩ := ih
        (runLines words intra enabled s' (i + 1) (p.hunk.body.flatMap BodyLine.render))
        (i + 1 + (p.hunk.body.flatMap BodyLine.render).length)
        (o + p.gap.length + p.hunk.oldCount) (n + p.gap.length + p.hunk.newCount)
      refine ⟨?_, ?_, fun _ => hinHunk (.inl h.inHunk)⟩
      · rw [hih, h.old, holds, List.flatMap_cons, List.countP_append]
        omega
      · rw [hih', h.new, hnews, List.flatMap_cons, List.countP_append]
        omega

theorem length_numbered (side : BodyLine → Bool) (before : Nat) (parts : List Part) :
    (numbered side before parts).length = (parts.flatMap (·.hunk.body)).countP side := by
  induction parts generalizing before with
  | nil => rfl
  | cons p parts ih =>
      rw [numbered, List.length_append, ih, List.flatMap_cons, List.countP_append, List.length_map,
        List.length_zipIdx, ← List.countP_eq_length_filter]

theorem entries_prelude {lines : List Text} (hlines : ∀ t ∈ lines, IsHeaderLine t)
    (hin : s.inHunk = false) (i : Nat) :
    let s' := runLines words intra enabled s i lines
    oldEntries s'.out = oldEntries s.out ∧ newEntries s'.out = newEntries s.out ∧
      s'.inHunk = false := by
  induction lines generalizing s i with
  | nil => exact ⟨rfl, rfl, hin⟩
  | cons t lines ih =>
      have hats : startsWith "@@" (trimStart (if t.head? = some (Char.ofNat 0xFEFF) then t.drop 1 else t)) =
          false := by
        have hnot := (hlines t (by simp)).2.1
        rw [← List.isPrefixOf_iff_prefix, Bool.not_eq_true] at hnot
        split_ifs with hbom
        · obtain ⟨t, rfl⟩ := List.head?_eq_some_iff.mp hbom
          rw [List.dropWhile_cons_of_pos (by decide)] at hnot
          exact hnot
        · exact hnot
      have hstep : ∃ tag text, step words intra enabled s i t =
          push (headerLine tag i text) { s with pendingRemovals := [] } := by
        rw [step]
        simp only [hats, Bool.false_eq_true, if_false, hin, Bool.not_false, if_true]
        exact ⟨_, _, rfl⟩
      obtain ⟨tag, text, hstep⟩ := hstep
      have h := entries_push_neither (a := headerLine tag i text) rfl rfl { s with pendingRemovals := [] }
      rw [runLines, hstep]
      obtain ⟨hold, hnew, hin'⟩ := ih (s := push (headerLine tag i text) { s with pendingRemovals := [] })
        (fun t ht => hlines t (by simp [ht])) hin (i + 1)
      exact ⟨hold.trans h.1, hnew.trans h.2, hin'⟩

theorem flatMap_oldSegments (parts : List WordPart) :
    (oldSegments parts).flatMap (·.text) = parts.flatMap WordPart.old := by
  induction parts with
  | nil => rfl
  | cons part parts ih =>
      rw [oldSegments] at ih ⊢
      cases part with
      | added value => simpa [WordPart.old] using ih
      | removed value => by_cases hv : value = [] <;> simpa [WordPart.old, hv] using ih
      | common value => by_cases hv : value = [] <;> simpa [WordPart.old, hv] using ih

theorem flatMap_newSegments (parts : List WordPart) :
    (newSegments parts).flatMap (·.text) = parts.flatMap WordPart.new := by
  induction parts with
  | nil => rfl
  | cons part parts ih =>
      rw [newSegments] at ih ⊢
      cases part with
      | removed value => simpa [WordPart.new] using ih
      | added value => by_cases hv : value = [] <;> simpa [WordPart.new, hv] using ih
      | common value => by_cases hv : value = [] <;> simpa [WordPart.new, hv] using ih

/-- The segments of a line, where it has any, make up its text. -/
def SegmentsMatch (l : CodeLine) : Prop :=
  ∀ segments ∈ l.renderIntraLineDiffSegments, segments.flatMap (·.text) = l.renderCodeText

structure Segmented (s : BuildState) : Prop where
  lines : ∀ l ∈ s.out, SegmentsMatch l
  pending : ∀ p ∈ s.pendingRemovals, ∃ l, s.out[p.1]? = some l ∧ l.renderCodeText = p.2

theorem mem_modify {α : Type} {f : α → α} {l : List α} {i : Nat} {x : α} (h : x ∈ l.modify i f) :
    x ∈ l ∨ ∃ y, l[i]? = some y ∧ x = f y := by
  obtain ⟨j, hj⟩ := List.mem_iff_getElem?.mp h
  rw [List.getElem?_modify] at hj
  obtain ⟨y, hy, rfl⟩ := Option.map_eq_some_iff.mp hj
  split_ifs with hij
  · exact .inr ⟨y, hij ▸ hy, rfl⟩
  · exact .inl (List.mem_of_getElem? hy)

variable {words intra enabled}

theorem Segmented.push (h : Segmented s) {l : CodeLine} (hl : SegmentsMatch l) :
    Segmented (push l s) := by
  refine ⟨fun m hm => ?_, fun p hp => ?_⟩
  · rcases List.mem_append.mp hm with hm | hm
    · exact h.lines m hm
    · obtain rfl := List.mem_singleton.mp hm
      exact hl
  · obtain ⟨m, hm, htext⟩ := h.pending p hp
    exact ⟨m, (List.getElem?_append_left (List.getElem?_eq_some_iff.mp hm).1).trans hm, htext⟩

theorem Segmented.of_out (h : Segmented s) {s' : BuildState} (hout : s'.out = s.out)
    (hpending : s'.pendingRemovals ⊆ s.pendingRemovals) : Segmented s' :=
  ⟨fun l hl => h.lines l (hout ▸ hl), fun p hp => hout ▸ h.pending p (hpending hp)⟩

theorem Segmented.cleared (h : Segmented s) : Segmented { s with pendingRemovals := [] } :=
  h.of_out rfl (List.nil_subset _)

theorem segmentsMatch_none {l : CodeLine} (h : l.renderIntraLineDiffSegments = none) :
    SegmentsMatch l := by
  intro segments hs
  rw [h] at hs
  cases hs

theorem segmented_pairAddition (h : Segmented s) (codeText : Text) :
    Segmented (pairAddition words intra enabled codeText s).1 ∧
      ∀ segments ∈ (pairAddition words intra enabled codeText s).2,
        segments.flatMap (·.text) = codeText := by
  unfold pairAddition
  by_cases hon : (enabled && isPositive s.remainingIntraLinePairs) = true
  · rw [if_pos hon]
    cases hpending : s.pendingRemovals with
    | nil => exact ⟨h, by simp⟩
    | cons pending rest =>
        have hrest : rest ⊆ s.pendingRemovals := hpending ▸ List.subset_cons_self pending rest
        obtain ⟨removal, hget, htext⟩ := h.pending pending (by simp [hpending])
        have hpopped : Segmented { s with pendingRemovals := rest } := h.of_out rfl hrest
        dsimp only
        rw [hget]
        dsimp only
        split_ifs
        · exact ⟨hpopped, by simp⟩
        · refine ⟨⟨fun l hl => ?_, fun p hp => ?_⟩, fun segments hs => ?_⟩
          · rcases mem_modify hl with hl | ⟨m, hm, rfl⟩
            · exact h.lines l hl
            · obtain rfl := Option.some.inj (hget.symm.trans hm)
              intro segments hs
              obtain rfl := Option.some.inj hs
              rw [flatMap_oldSegments, words.old]
              exact htext.symm
          · obtain ⟨l, hl, hltext⟩ := hpopped.pending p hp
            rw [List.getElem?_modify, hl]
            split_ifs
            · exact ⟨_, rfl, hltext⟩
            · exact ⟨l, rfl, hltext⟩
          · obtain rfl := Option.some.inj hs
            rw [flatMap_newSegments, words.new]
        · exact ⟨hpopped, by simp⟩
  · rw [if_neg hon]
    split_ifs
    · exact ⟨h.of_out rfl (List.nil_subset _), by simp⟩
    · exact ⟨h, by simp⟩

theorem segmented_hunkHeader (h : Segmented s) (i : Nat) (trimmed : Text) :
    Segmented (hunkHeader i trimmed s) := by
  have hcleared := h.cleared
  unfold hunkHeader
  dsimp only
  cases parseHeader? trimmed with
  | none => exact hcleared.push (l := headerLine "h" i trimmed) (segmentsMatch_none rfl)
  | some header =>
      have hcounters : Segmented
          { s with pendingRemovals := [], oldLine := header.1, newLine := header.2.1, inHunk := true } :=
        hcleared.of_out rfl (List.Subset.refl _)
      exact hcounters.push (l := headerLine "h" i trimmed) (segmentsMatch_none rfl)

theorem segmented_hunkLine (h : Segmented s) (i : Nat) (normalized : Text) :
    Segmented (hunkLine words intra enabled i normalized s) := by
  have hcleared := h.cleared
  unfold hunkLine
  dsimp only
  split_ifs
  · obtain ⟨hpaired, hsegments⟩ :=
      @segmented_pairAddition words intra enabled s h (normalized.drop 1)
    exact (hpaired.push (l := addLine i _ _ _) hsegments).of_out rfl (List.Subset.refl _)
  · unfold queueRemoval
    split_ifs
    · refine ⟨(h.push (l := removeLine i s.oldLine (normalized.drop 1)) (segmentsMatch_none rfl)).lines,
        fun p hp => ?_⟩
      rcases List.mem_append.mp hp with hp | hp
      · exact (h.push (l := removeLine i s.oldLine (normalized.drop 1)) (segmentsMatch_none rfl)).pending p hp
      · obtain rfl := List.mem_singleton.mp hp
        exact ⟨removeLine i s.oldLine (normalized.drop 1), by simp [push], rfl⟩
    · exact (h.push (l := removeLine i s.oldLine (normalized.drop 1)) (segmentsMatch_none rfl)).of_out
        rfl (List.Subset.refl _)
  · exact (hcleared.push (l := contextLine "c" i s.oldLine s.newLine [' '] (normalized.drop 1))
      (segmentsMatch_none rfl)).of_out rfl (List.Subset.refl _)
  · exact hcleared.push (l := contextLine "x" i s.oldLine s.newLine [] normalized)
      (segmentsMatch_none rfl)

theorem segmented_step (h : Segmented s) (i : Nat) (raw : Text) :
    Segmented (step words intra enabled s i raw) := by
  unfold step
  generalize (if raw.head? = some (Char.ofNat 0xFEFF) then raw.drop 1 else raw) = normalized
  dsimp only
  split_ifs
  · exact segmented_hunkHeader h i _
  · exact h.cleared.push
      (l := headerLine "hd" i (trimStart normalized)) (segmentsMatch_none rfl)
  · exact h.cleared.push
      (l := headerLine "p" i (trimStart normalized)) (segmentsMatch_none rfl)
  · exact segmented_hunkLine h i normalized

theorem segmented_runLines (h : Segmented s) (i : Nat) (lines : List Text) :
    Segmented (runLines words intra enabled s i lines) := by
  induction lines generalizing s i with
  | nil => exact h
  | cons raw lines ih => exact ih (segmented_step h i raw) (i + 1)

theorem unixLineEnds_eq {t : Text} (h : ¬['\r', '\n'] <:+: t) : unixLineEnds t = t := by
  induction t with
  | nil => rfl
  | cons c t ih =>
      have htail : ¬['\r', '\n'] <:+: t := fun hin => h (hin.trans (List.suffix_cons c t).isInfix)
      unfold unixLineEnds
      split
      · next rest heq =>
          obtain ⟨rfl, rfl⟩ := List.cons.inj heq
          exact absurd ⟨[], rest, rfl⟩ h
      · next heq =>
          obtain ⟨rfl, rfl⟩ := List.cons.inj heq
          rw [ih htail]
      · next heq => cases heq

theorem firstHunkIndex_lines {d : Diff} (h : d.WellFormed) :
    firstHunkIndex d.lines = d.header.length ∧ d.header.length < d.lines.length := by
  obtain ⟨p, parts, hparts⟩ := List.exists_cons_of_ne_nil h.parts
  have hnone : ¬∃ t ∈ d.header, startsWith "@@" (trimStart t) = true := by
    rintro ⟨t, ht, hats⟩
    exact (h.header t ht).2.1 (List.isPrefixOf_iff_prefix.mp hats)
  have hfirst : ∀ rest : List Text, (p.hunk.render p.gap.length p.gap.length ++ rest).findIdx
      (fun l => startsWith "@@" (trimStart l)) = 0 := by
    intro rest
    rw [Hunk.render, List.cons_append, List.findIdx_cons]
    simp [renderHeader, trimStart, startsWith, isBlank]
  constructor
  · rw [firstHunkIndex, Diff.lines, hparts, renderParts, Nat.zero_add, List.append_assoc, List.append_assoc,
      List.findIdx_append, if_neg (fun hlt => hnone (List.findIdx_lt_length.mp hlt)), hfirst,
      Nat.zero_add]
  · rw [Diff.lines, hparts, renderParts, Hunk.render]
    simp

theorem entries_build {d : Diff} (h : d.WellFormed) (hlf : ¬['\r', '\n'] <:+: d.text)
    (hideFilePrelude : Bool) (words : WordDiff) (intra : IntraLineDiff) :
    ∃ s i enabled, s.inHunk = false ∧ oldEntries s.out = [] ∧ newEntries s.out = [] ∧ Segmented s ∧
      buildCodeLinesFromUnifiedDiff words d.text hideFilePrelude intra =
        (runLines words intra enabled s i
          (renderParts 0 0 d.parts ++ if d.trailing then [[]] else [])).out := by
  unfold buildCodeLinesFromUnifiedDiff
  rw [unixLineEnds_eq hlf, h.splitOn_text]
  obtain ⟨hindex, hlt⟩ := firstHunkIndex_lines h
  dsimp only
  rw [hindex]
  generalize (intra.enabled && decide (d.lines.length ≤ intra.maxLines)) = enabled
  generalize hstart : (⟨[], 0, 0, false, [], if enabled = true then intra.maxPairs else some 0⟩ :
    BuildState) = start
  have hin : start.inHunk = false := by rw [← hstart]
  have hold : oldEntries start.out = [] := by
    rw [← hstart]
    rfl
  have hnew : newEntries start.out = [] := by
    rw [← hstart]
    rfl
  have hseg : Segmented start := by
    rw [← hstart]
    exact ⟨by simp, by simp⟩
  cases hhide : hideFilePrelude with
  | true =>
      refine ⟨start, d.header.length, enabled, hin, hold, hnew, hseg, ?_⟩
      simp only [Bool.true_and, decide_eq_true hlt, if_true]
      rw [Diff.lines, List.append_assoc, List.drop_left]
  | false =>
      obtain ⟨holds, hnews, hhunk⟩ := entries_prelude words intra enabled h.header hin 0
      refine ⟨_, 0 + d.header.length, enabled, hhunk, holds.trans hold, hnews.trans hnew,
        segmented_runLines hseg 0 d.header, ?_⟩
      simp only [Bool.false_and, Bool.false_eq_true, if_false, List.drop_zero]
      rw [Diff.lines, List.append_assoc, runLines_append]

/-- Every line of the hunks is shown once on its sides, in order, with its text and its
number, and the segments of a line make up its text. -/
structure ShownRight (d : Diff) (out : List CodeLine) : Prop where
  old : oldEntries out = numbered BodyLine.isOld 0 d.parts
  new : newEntries out = numbered BodyLine.isNew 0 d.parts
  segments : ∀ l ∈ out, SegmentsMatch l

theorem countP_and_lt {α : Type} {p q : α → Bool} {l : List α} {x : α} (hx : x ∈ l) (hp : p x = true)
    (hq : q x = false) : l.countP (fun y => p y && q y) < l.countP p := by
  obtain ⟨before, after, rfl⟩ := List.append_of_mem hx
  have hle : ∀ m : List α, m.countP (fun y => p y && q y) ≤ m.countP p := fun m =>
    List.countP_mono_left fun y _ hy => (Bool.and_eq_true_iff.mp hy).1
  have := hle before
  have := hle after
  simp only [List.countP_append, List.countP_cons, hp, hq, Bool.and_false, Bool.false_eq_true, if_false,
    if_true]
  omega

/-- That is so exactly when no line of a hunk is misread. -/
theorem code_lines {d : Diff} (h : d.WellFormed) (hlf : ¬['\r', '\n'] <:+: d.text)
    (hideFilePrelude : Bool) (words : WordDiff) (intra : IntraLineDiff) :
    ShownRight d (buildCodeLinesFromUnifiedDiff words d.text hideFilePrelude intra) ↔
      ∀ p ∈ d.parts, ∀ l ∈ p.hunk.body, misread l = false := by
  obtain ⟨s, i, enabled, hin, hold, hnew, hseg, hbuild⟩ := entries_build h hlf hideFilePrelude words intra
  rw [hbuild, runLines_append]
  -- the empty line after a last line end is shown on neither side
  have htrailing : ∀ (s' : BuildState) (j : Nat), s'.inHunk = true →
      let s'' := runLines words intra enabled s' j (if d.trailing then [[]] else [])
      oldEntries s''.out = oldEntries s'.out ∧ newEntries s''.out = newEntries s'.out := by
    intro s' j hs'
    cases d.trailing with
    | false => exact ⟨rfl, rfl⟩
    | true =>
        have hadds := adds_step_other words intra enabled (i := j) (t := []) hs' (by simp)
        exact ⟨hadds.old.trans (List.append_nil _), hadds.new.trans (List.append_nil _)⟩
  constructor
  · rintro ⟨hold', hnew', -⟩ p hp l hl
    obtain ⟨hlold, hlnew, hhunk⟩ := counts_parts words intra enabled d.parts s i 0 0
    obtain ⟨htold, htnew⟩ := htrailing _ (i + (renderParts 0 0 d.parts).length) (hhunk (.inr h.parts))
    rw [htold] at hold'
    rw [htnew] at hnew'
    rw [hold', hold, length_numbered, List.length_nil, Nat.zero_add] at hlold
    rw [hnew', hnew, length_numbered, List.length_nil, Nat.zero_add] at hlnew
    have hmem : l ∈ d.parts.flatMap (·.hunk.body) := List.mem_flatMap.mpr ⟨p, hp, hl⟩
    by_contra hread
    have hbad : (!misread l) = false := by simpa using hread
    have hsides : l.isOld = true ∨ l.isNew = true := by
      cases hk : l.kind <;> simp [BodyLine.isOld, BodyLine.isNew, hk]
    rcases hsides with hside | hside
    · exact absurd hlold (countP_and_lt (q := fun l => !misread l) hmem hside hbad).ne'
    · exact absurd hlnew (countP_and_lt (q := fun l => !misread l) hmem hside hbad).ne'
  · intro hread
    obtain ⟨hpold, hpnew, hhunk⟩ := entries_parts words intra enabled hread s i 0 0
    obtain ⟨htold, htnew⟩ := htrailing _ (i + (renderParts 0 0 d.parts).length) (hhunk (.inr h.parts))
    refine ⟨?_, ?_, (segmented_runLines (segmented_runLines hseg i _) _ _).lines⟩
    · rw [htold, hpold, hold, List.nil_append]
    · rw [htnew, hpnew, hnew, List.nil_append]

def wholeTexts : WordDiff where
  diffWordsWithSpace a b := [.removed a, .added b]
  old := by simp [WordPart.old]
  new := by simp [WordPart.new]

def noIntraLineDiff : IntraLineDiff := ⟨false, 0, 0, none⟩

def bodyLine (kind : Kind) (text : String) : BodyLine := ⟨kind, ⟨text.toList, true⟩⟩

def replacing (kept old new : String) : Diff where
  header := ["--- a/f".toList, "+++ b/f".toList]
  parts := [⟨[], ⟨[], false, [bodyLine .context kept, bodyLine .delete old, bodyLine .add new]⟩⟩]
  rest := []
  trailing := true

theorem code_lines_replacing :
    ShownRight (replacing "a" "b" "c")
      (buildCodeLinesFromUnifiedDiff wholeTexts (replacing "a" "b" "c").text true noIntraLineDiff) :=
  (code_lines (d := replacing "a" "b" "c")
    ⟨by decide, by decide, by decide, by decide, by simp [replacing], by decide, by decide, by decide, by decide⟩
    (by decide) true wholeTexts noIntraLineDiff).mpr (by decide)

theorem kept_line_shown_as_header :
    (replacing "  @@ note" "b" "c").WellFormed ∧ ¬['\r', '\n'] <:+: (replacing "  @@ note" "b" "c").text ∧
      ¬ShownRight (replacing "  @@ note" "b" "c") (buildCodeLinesFromUnifiedDiff wholeTexts
        (replacing "  @@ note" "b" "c").text true noIntraLineDiff) := by
  refine ⟨⟨by decide, by decide, by decide, by decide, by simp [replacing], by decide, by decide, by decide,
    by decide⟩, by decide, fun h => ?_⟩
  have hold := h.old
  revert hold
  decide

end DevPilot.Diffs
