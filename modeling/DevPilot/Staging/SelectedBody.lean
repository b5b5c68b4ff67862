import DevPilot.Staging.PatchSelection

/-!
What the patch has for the lines of a hunk: the lines as they are parsed, which of them are
selected, and what is emitted for them.
-/

namespace DevPilot.Staging

open UnifiedDiff DevPilot.Diffs

def oldStep (l : BodyLine) : Nat := if l.isOld then 1 else 0

def newStep (l : BodyLine) : Nat := if l.isNew then 1 else 0

/-- The key of a line at old number `o` and new number `n`. -/
def keyOf (o n : Nat) (l : BodyLine) : Option SelectedDiffLineKey :=
  match l.kind with
  | .context => none
  | .delete => some ⟨.deletions, o⟩
  | .add => some ⟨.additions, n⟩

/-- The keys of the changed lines of a hunk whose header starts at `o` and `n`. -/
def bodyKeys : Nat → Nat → List BodyLine → List SelectedDiffLineKey
  | _, _, [] => []
  | o, n, l :: rest => (keyOf o n l).toList ++ bodyKeys (o + oldStep l) (n + newStep l) rest

abbrev Marked := List (BodyLine × Bool)

def marked (keys : Finset SelectedDiffLineKey) : Nat → Nat → List BodyLine → Marked
  | _, _, [] => []
  | o, n, l :: rest =>
      (l, (keyOf o n l).any (· ∈ keys)) :: marked keys (o + oldStep l) (n + newStep l) rest

/-- A hunk with the numbers in its header. -/
structure Placed where
  oldStart : Nat
  newStart : Nat
  hunk : Hunk

def placed : Nat → Nat → List Part → List Placed
  | _, _, [] => []
  | o, n, p :: ps =>
      ⟨startOf (o + p.gap.length) p.hunk.oldCount, startOf (n + p.gap.length) p.hunk.newCount,
        p.hunk⟩ ::
        placed (o + p.gap.length + p.hunk.oldCount) (n + p.gap.length + p.hunk.newCount) ps

def Placed.marked (p : Placed) (keys : Finset SelectedDiffLineKey) : Marked :=
  Staging.marked keys p.oldStart p.newStart p.hunk.body

def changedKeys (d : Diff) : List SelectedDiffLineKey :=
  (placed 0 0 d.parts).flatMap fun p => bodyKeys p.oldStart p.newStart p.hunk.body

/-- The kind a line has in the patch and whether it carries a change there. -/
def outcome (mode : PatchSelectionMode) (kind : Kind) (selected : Bool) : Option (Kind × Bool) :=
  match kind, selected with
  | .context, _ => some (.context, false)
  | .add, true => some (.add, true)
  | .delete, true => some (.delete, true)
  | .add, false => if mode = .unstage then some (.context, false) else none
  | .delete, false => if mode = .stage then some (.context, false) else none

def selectedBody (mode : PatchSelectionMode) (lines : Marked) : List BodyLine :=
  lines.filterMap fun l => (outcome mode l.1.kind l.2).map fun out => ⟨out.1, l.1.line⟩

def Plain (l : BodyLine) : Prop :=
  (l.kind = .delete → ¬"--".toList <+: l.line.text) ∧ (l.kind = .add → ¬"++".toList <+: l.line.text)

instance (l : BodyLine) : Decidable (Plain l) := inferInstanceAs (Decidable (_ ∧ _))

def parsedKind : Kind → ParsedKind
  | .context => .context
  | .delete => .delete
  | .add => .add

def parsedMarker (l : BodyLine) : List ParsedHunkLine :=
  if l.line.ended then [] else [⟨marker, .marker, none, none⟩]

def readOld (l : BodyLine) : Nat := if Plain l then oldStep l else 0

def readNew (l : BodyLine) : Nat := if Plain l then newStep l else 0

def readKind (l : BodyLine) : ParsedKind := if Plain l then parsedKind l.kind else .other

def parsedBody : Nat → Nat → List BodyLine → List ParsedHunkLine
  | _, _, [] => []
  | o, n, l :: rest =>
      ⟨prefixOf l.kind :: l.line.text, readKind l, some o, some n⟩ ::
        (parsedMarker l ++ parsedBody (o + readOld l) (n + readNew l) rest)

theorem countP_isOld_cons (l : BodyLine) (rest : List BodyLine) :
    (l :: rest).countP BodyLine.isOld = oldStep l + rest.countP BodyLine.isOld := by
  rw [List.countP_cons, oldStep, Nat.add_comm]

theorem countP_isNew_cons (l : BodyLine) (rest : List BodyLine) :
    (l :: rest).countP BodyLine.isNew = newStep l + rest.countP BodyLine.isNew := by
  rw [List.countP_cons, newStep, Nat.add_comm]

theorem ne_marker (kind : Kind) (t : Text) : prefixOf kind :: t ≠ marker := by
  intro h
  have hhead : some (prefixOf kind) = marker.head? := congrArg List.head? h
  revert hhead
  cases kind <;> decide

theorem startsWith_dashes {t : Text} (h : ¬"--".toList <+: t) : startsWith "---" ('-' :: t) = false := by
  refine Bool.eq_false_iff.mpr fun hstarts => h ?_
  obtain ⟨rest, hrest⟩ := List.isPrefixOf_iff_prefix.mp hstarts
  exact ⟨rest, (List.cons.inj hrest).2⟩

theorem startsWith_pluses {t : Text} (h : ¬"++".toList <+: t) : startsWith "+++" ('+' :: t) = false := by
  refine Bool.eq_false_iff.mpr fun hstarts => h ?_
  obtain ⟨rest, hrest⟩ := List.isPrefixOf_iff_prefix.mp hstarts
  exact ⟨rest, (List.cons.inj hrest).2⟩

theorem line_plain {l : BodyLine} (h : Plain l) (c : HunkCursor) :
    c.line (prefixOf l.kind :: l.line.text) =
      c.push ⟨prefixOf l.kind :: l.line.text, parsedKind l.kind, some c.oldCursor, some c.newCursor⟩
        (oldStep l) (newStep l) := by
  unfold HunkCursor.line
  rw [if_neg (ne_marker _ _)]
  obtain ⟨kind, line⟩ := l
  cases kind with
  | context => simp [startsWith, prefixOf, parsedKind, oldStep, newStep, BodyLine.isOld, BodyLine.isNew]
  | delete =>
      have hdash := startsWith_dashes (h.1 rfl)
      simp only [prefixOf, hdash]
      simp [startsWith, parsedKind, oldStep, newStep, BodyLine.isOld, BodyLine.isNew]
  | add =>
      have hplus := startsWith_pluses (h.2 rfl)
      simp only [prefixOf, hplus]
      simp [startsWith, parsedKind, oldStep, newStep, BodyLine.isOld, BodyLine.isNew]

theorem line_misread {l : BodyLine} (h : ¬Plain l) (c : HunkCursor) :
    c.line (prefixOf l.kind :: l.line.text) =
      c.push ⟨prefixOf l.kind :: l.line.text, .other, some c.oldCursor, some c.newCursor⟩ 0 0 := by
  unfold HunkCursor.line
  rw [if_neg (ne_marker _ _)]
  obtain ⟨kind, line⟩ := l
  cases kind with
  | context => exact absurd ⟨by simp, by simp⟩ h
  | delete =>
      have hdash : startsWith "---" ('-' :: line.text) = true := by
        by_contra hnot
        refine h ⟨fun _ hstarts => hnot ?_, by simp⟩
        obtain ⟨rest, hrest⟩ := hstarts
        exact List.isPrefixOf_iff_prefix.mpr ⟨rest, congrArg ('-' :: ·) hrest⟩
      simp only [prefixOf, hdash]
      simp [startsWith]
  | add =>
      have hplus : startsWith "+++" ('+' :: line.text) = true := by
        by_contra hnot
        refine h ⟨by simp, fun _ hstarts => hnot ?_⟩
        obtain ⟨rest, hrest⟩ := hstarts
        exact List.isPrefixOf_iff_prefix.mpr ⟨rest, congrArg ('+' :: ·) hrest⟩
      simp only [prefixOf, hplus]
      simp [startsWith]

theorem line_body (l : BodyLine) (c : HunkCursor) :
    c.line (prefixOf l.kind :: l.line.text) =
      c.push ⟨prefixOf l.kind :: l.line.text, readKind l, some c.oldCursor, some c.newCursor⟩
        (readOld l) (readNew l) := by
  rw [readKind, readOld, readNew]
  split_ifs with h
  · exact line_plain h c
  · exact line_misread h c

theorem line_marker (c : HunkCursor) : c.line marker = c.push ⟨marker, .marker, none, none⟩ 0 0 :=
  if_pos rfl

theorem foldl_line_render (body : List BodyLine) (c : HunkCursor) :
    (body.flatMap BodyLine.render).foldl HunkCursor.line c =
      { hunk := { c.hunk with lines := c.hunk.lines ++ parsedBody c.oldCursor c.newCursor body }
        oldCursor := c.oldCursor + (body.map readOld).sum
        newCursor := c.newCursor + (body.map readNew).sum } := by
  induction body generalizing c with
  | nil => simp [parsedBody]
  | cons l rest ih =>
      rw [List.flatMap_cons, List.foldl_append, BodyLine.render, List.foldl_cons,
        line_body, ih, List.map_cons, List.map_cons, List.sum_cons, List.sum_cons, parsedBody]
      by_cases hended : l.line.ended
      · simp [hended, HunkCursor.push, parsedMarker, Nat.add_assoc]
      · simp [hended, HunkCursor.push, parsedMarker, line_marker, Nat.add_assoc]

theorem parseHunkHeader_eq_none {t : Text} (h : ¬"@@".toList <+: t) : parseHunkHeader t = none := by
  rw [parseHunkHeader, parseHeader?_eq_none h]

theorem parseHunkHeader_render (short : Bool) (oldStart oldCount newStart newCount : Nat)
    {heading : Text} (h : ∀ c ∈ heading, isLineTerminator c = false) :
    parseHunkHeader (renderHeader short oldStart oldCount newStart newCount heading) =
      some ⟨oldStart, newStart, trim heading⟩ := by
  have hheading : heading.any isLineTerminator = false := by
    rw [List.any_eq_false]
    simpa using h
  rw [parseHunkHeader, parseHeader?_render]
  simp [hheading]

def Inner (t : Text) : Prop := t.head? ≠ some '@' ∧ t.head? ≠ some 'd'

theorem inner_of_render {l : BodyLine} {t : Text} (ht : t ∈ l.render) : Inner t := by
  rcases List.mem_cons.mp ht with rfl | ht
  · constructor <;> cases l.kind <;> simp [prefixOf]
  · split_ifs at ht
    · cases ht
    · obtain rfl := List.mem_singleton.mp ht
      exact ⟨by decide, by decide⟩

theorem Inner.parseHunkHeader_eq {t : Text} (h : Inner t) : parseHunkHeader t = none := by
  refine parseHunkHeader_eq_none fun hstarts => h.1 ?_
  obtain ⟨rest, rfl⟩ := hstarts
  rfl

theorem Inner.not_diff {t : Text} (h : Inner t) : startsWith "diff --git " t = false := by
  refine Bool.eq_false_iff.mpr fun hstarts => h.2 ?_
  obtain ⟨rest, rfl⟩ := List.isPrefixOf_iff_prefix.mp hstarts
  rfl

theorem parseHunks_inner {lines : List Text} (h : ∀ t ∈ lines, Inner t) (c : HunkCursor)
    (rest : List Text) :
    parseHunks (some c) (lines ++ rest) = parseHunks (some (lines.foldl HunkCursor.line c)) rest := by
  induction lines generalizing c with
  | nil => rfl
  | cons t lines ih =>
      have ht := h t List.mem_cons_self
      rw [List.cons_append, parseHunks, ht.not_diff, ht.parseHunkHeader_eq]
      exact ih (fun t' ht' => h t' (List.mem_cons_of_mem _ ht')) (c.line t)

theorem not_diff_renderHeader (short : Bool) (o oc n nc : Nat) (heading : Text) :
    startsWith "diff --git " (renderHeader short o oc n nc heading) = false := by
  refine Bool.eq_false_iff.mpr fun hstarts => ?_
  obtain ⟨rest, hrest⟩ := List.isPrefixOf_iff_prefix.mp hstarts
  exact absurd (List.cons.inj hrest).1 (by decide)

/-- The empty text behind the last line end is a line of the last hunk. -/
def parsedTail (trailing : Bool) (o n : Nat) : List ParsedHunkLine :=
  if trailing then [⟨[], .other, some o, some n⟩] else []

def parsedHunks (trailing : Bool) : List Placed → List ParsedHunk
  | [] => []
  | [p] =>
      [⟨trim p.hunk.heading, parsedBody p.oldStart p.newStart p.hunk.body ++
        parsedTail trailing (p.oldStart + (p.hunk.body.map readOld).sum)
          (p.newStart + (p.hunk.body.map readNew).sum)⟩]
  | p :: ps => ⟨trim p.hunk.heading, parsedBody p.oldStart p.newStart p.hunk.body⟩ ::
      parsedHunks trailing ps

theorem parseHunks_body (p : Part) (o n : Nat) (rest : List Text) :
    parseHunks (some (.start ⟨o, n, trim p.hunk.heading⟩)) (p.hunk.body.flatMap BodyLine.render ++ rest) =
      parseHunks (some ⟨⟨trim p.hunk.heading, parsedBody o n p.hunk.body⟩,
        o + (p.hunk.body.map readOld).sum, n + (p.hunk.body.map readNew).sum⟩) rest := by
  have hinner : ∀ t ∈ p.hunk.body.flatMap BodyLine.render, Inner t := fun t ht => by
    obtain ⟨l, -, hl⟩ := List.mem_flatMap.mp ht
    exact inner_of_render hl
  rw [parseHunks_inner hinner, foldl_line_render]
  rfl

theorem parseHunks_tail (c : HunkCursor) (trailing : Bool) :
    parseHunks (some c) (if trailing then [[]] else []) =
      [{ c.hunk with lines := c.hunk.lines ++ parsedTail trailing c.oldCursor c.newCursor }] := by
  cases trailing with
  | false => simp [parseHunks, parsedTail]
  | true =>
      have hinner : ∀ t ∈ ([[]] : List Text), Inner t := by simp [Inner]
      have h := parseHunks_inner hinner c []
      rw [if_pos rfl]
      rw [List.append_nil] at h
      have hmarker : ([] : Text) ≠ marker := by decide
      have hline : c.line [] = c.push ⟨[], .other, some c.oldCursor, some c.newCursor⟩ 0 0 := by
        rw [HunkCursor.line, if_neg hmarker]
        rfl
      rw [h, List.foldl_cons, List.foldl_nil, hline]
      rfl

theorem parseHunks_renderParts {parts : List Part} (trailing : Bool) (o n : Nat)
    (hheading : ∀ p ∈ parts, ∀ c ∈ p.hunk.heading, isLineTerminator c = false)
    (hparts : parts ≠ []) (c : Option HunkCursor) :
    parseHunks c (renderParts o n parts ++ if trailing then [[]] else []) =
      (c.map HunkCursor.hunk).toList ++ parsedHunks trailing (placed o n parts) := by
  induction parts generalizing o n c with
  | nil => exact absurd rfl hparts
  | cons p ps ih =>
      have hheader := parseHunkHeader_render p.hunk.shortCounts
        (startOf (o + p.gap.length) p.hunk.oldCount) p.hunk.oldCount
        (startOf (n + p.gap.length) p.hunk.newCount) p.hunk.newCount (hheading p List.mem_cons_self)
      have hstart : ∀ rest, parseHunks c (renderHeader p.hunk.shortCounts
          (startOf (o + p.gap.length) p.hunk.oldCount) p.hunk.oldCount
          (startOf (n + p.gap.length) p.hunk.newCount) p.hunk.newCount p.hunk.heading :: rest) =
          (c.map HunkCursor.hunk).toList ++ parseHunks (some (.start
            ⟨startOf (o + p.gap.length) p.hunk.oldCount, startOf (n + p.gap.length) p.hunk.newCount,
              trim p.hunk.heading⟩)) rest := by
        intro rest
        cases c with
        | none => rw [parseHunks, hheader]; rfl
        | some c => rw [parseHunks, not_diff_renderHeader, hheader]; rfl
      rw [renderParts, Hunk.render, List.append_assoc, List.cons_append, hstart,
        parseHunks_body]
      congr 1
      cases ps with
      | nil =>
          rw [renderParts, List.nil_append, parseHunks_tail]
          rfl
      | cons q qs =>
          rw [ih _ _ (fun p' hp' => hheading p' (List.mem_cons_of_mem _ hp')) (List.cons_ne_nil _ _)]
          rfl

end DevPilot.Staging
