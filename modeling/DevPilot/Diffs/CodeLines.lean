import DevPilot.Lib.UnifiedDiff

/-!
The lines that are shown for a unified diff: one pass with two line counters and a queue of
removals that wait for an addition to be compared with.
-/

namespace DevPilot.Diffs

open UnifiedDiff

inductive SegmentKind
  | added
  | removed
  | context
deriving DecidableEq, Repr

structure IntraLineDiffSegment where
  text : Text
  kind : SegmentKind
deriving DecidableEq, Repr

inductive CodeLineKind
  | header
  | add
  | remove
  | context
deriving DecidableEq, Repr

structure CodeLine where
  tag : String
  sourceIndex : Nat
  kind : CodeLineKind
  oldLine : Option Nat
  newLine : Option Nat
  renderPrefixText : Text
  renderCodeText : Text
  renderIntraLineDiffSegments : Option (List IntraLineDiffSegment)
  renderIsHeaderLine : Bool
  selectable : Bool
deriving DecidableEq, Repr

/-- A piece of `diffWordsWithSpace`. -/
inductive WordPart
  | added (value : Text)
  | removed (value : Text)
  | common (value : Text)

namespace WordPart

def old : WordPart → Text
  | .added _ => []
  | .removed value | .common value => value

def new : WordPart → Text
  | .removed _ => []
  | .added value | .common value => value

end WordPart

/-- A word diff whose pieces partition both texts. -/
structure WordDiff where
  diffWordsWithSpace : Text → Text → List WordPart
  old : ∀ a b, (diffWordsWithSpace a b).flatMap WordPart.old = a
  new : ∀ a b, (diffWordsWithSpace a b).flatMap WordPart.new = b

/-- `params.intraLineDiff`; without `maxPairs` there is no bound. -/
structure IntraLineDiff where
  enabled : Bool
  maxLines : Nat
  maxLineLength : Nat
  maxPairs : Option Int

structure BuildState where
  out : List CodeLine
  oldLine : Nat
  newLine : Nat
  inHunk : Bool
  pendingRemovals : List (Nat × Text)
  remainingIntraLinePairs : Option Int

def trimStart (t : Text) : Text := t.dropWhile isBlank

def startsWith (s : String) (t : Text) : Bool := s.toList.isPrefixOf t

def isDiffHeaderLine (line : Text) : Bool :=
  let trimmed := trimStart line
  startsWith "diff --git " trimmed || startsWith "index " trimmed || startsWith "--- " trimmed ||
    startsWith "+++ " trimmed || startsWith "@@" trimmed

/-- `replace(/\r\n/g, '\n')` -/
def unixLineEnds : Text → Text
  | '\r' :: '\n' :: t => '\n' :: unixLineEnds t
  | c :: t => c :: unixLineEnds t
  | [] => []

def isPositive : Option Int → Bool
  | none => true
  | some n => 0 < n

def oldSegments (parts : List WordPart) : List IntraLineDiffSegment :=
  parts.filterMap fun part => match part with
    | .added _ => none
    | .removed value => if value = [] then none else some ⟨value, .removed⟩
    | .common value => if value = [] then none else some ⟨value, .context⟩

def newSegments (parts : List WordPart) : List IntraLineDiffSegment :=
  parts.filterMap fun part => match part with
    | .removed _ => none
    | .added value => if value = [] then none else some ⟨value, .added⟩
    | .common value => if value = [] then none else some ⟨value, .context⟩

def headerLine (tag : String) (i : Nat) (text : Text) : CodeLine :=
  ⟨tag, i, .header, none, none, [], text, none, true, false⟩

def addLine (i newLine : Nat) (codeText : Text) (segments : Option (List IntraLineDiffSegment)) :
    CodeLine :=
  ⟨"a", i, .add, none, some newLine, ['+'], codeText, segments, false, true⟩

def removeLine (i oldLine : Nat) (codeText : Text) : CodeLine :=
  ⟨"r", i, .remove, some oldLine, none, ['-'], codeText, none, false, true⟩

def contextLine (tag : String) (i oldLine newLine : Nat) (renderPrefix codeText : Text) : CodeLine :=
  ⟨tag, i, .context, some oldLine, some newLine, renderPrefix, codeText, none, false, false⟩

variable (words : WordDiff) (intra : IntraLineDiff) (intraLineEnabled : Bool)

def withSegments (segments : List IntraLineDiffSegment) (line : CodeLine) : CodeLine :=
  { line with renderIntraLineDiffSegments := some segments }

/-- An addition is compared with the removal that waits longest. -/
def pairAddition (codeText : Text) (s : BuildState) : BuildState × Option (List IntraLineDiffSegment) :=
  if intraLineEnabled && isPositive s.remainingIntraLinePairs then
    match s.pendingRemovals with
    | [] => (s, none)
    | (outIndex, oldText) :: pending =>
        let s := { s with pendingRemovals := pending }
        match s.out[outIndex]? with
        | none => (s, none)
        | some removalLine =>
            if removalLine.renderIsHeaderLine then (s, none)
            else if intra.maxLineLength = 0 || oldText.length ≤ intra.maxLineLength &&
                codeText.length ≤ intra.maxLineLength then
              let parts := words.diffWordsWithSpace oldText codeText
              ({ s with
                  out := s.out.modify outIndex (withSegments (oldSegments parts))
                  remainingIntraLinePairs := s.remainingIntraLinePairs.map (· - 1) },
                some (newSegments parts))
            else (s, none)
  else if intraLineEnabled then ({ s with pendingRemovals := [] }, none)
  else (s, none)

/-- A removal waits while there are pairs left and the queue is not full. -/
def queueRemoval (codeText : Text) (s : BuildState) : BuildState :=
  if intraLineEnabled && isPositive s.remainingIntraLinePairs &&
      (match intra.maxPairs with
        | none => true
        | some maxPairs => (s.pendingRemovals.length : Int) < maxPairs) then
    { s with pendingRemovals := s.pendingRemovals ++ [(s.out.length, codeText)] }
  else s

def push (line : CodeLine) (s : BuildState) : BuildState := { s with out := s.out ++ [line] }

def hunkHeader (i : Nat) (trimmed : Text) (s : BuildState) : BuildState :=
  let s := { s with pendingRemovals := [] }
  match parseHeader? trimmed with
  | none => push (headerLine "h" i trimmed) s
  | some (oldStart, newStart, _) =>
      push (headerLine "h" i trimmed) { s with oldLine := oldStart, newLine := newStart, inHunk := true }

def hunkLine (i : Nat) (normalized : Text) (s : BuildState) : BuildState :=
  let codeText := normalized.drop 1
  if normalized.head? = some '+' && !startsWith "+++" normalized then
    let (s, segments) := pairAddition words intra intraLineEnabled codeText s
    { push (addLine i s.newLine codeText segments) s with newLine := s.newLine + 1 }
  else if normalized.head? = some '-' && !startsWith "---" normalized then
    let s := queueRemoval intra intraLineEnabled codeText s
    { push (removeLine i s.oldLine codeText) s with oldLine := s.oldLine + 1 }
  else
    let s := { s with pendingRemovals := [] }
    if normalized.head? = some ' ' then
      { push (contextLine "c" i s.oldLine s.newLine [' '] codeText) s with
        oldLine := s.oldLine + 1, newLine := s.newLine + 1 }
    else push (contextLine "x" i s.oldLine s.newLine [] normalized) s

def step (s : BuildState) (i : Nat) (raw : Text) : BuildState :=
  let normalized := if raw.head? = some (Char.ofNat 0xFEFF) then raw.drop 1 else raw
  let trimmed := trimStart normalized
  if startsWith "@@" trimmed then hunkHeader i trimmed s
  else if !s.inHunk then
    push (headerLine (if isDiffHeaderLine trimmed then "hd" else "p") i trimmed)
      { s with pendingRemovals := [] }
  else hunkLine words intra intraLineEnabled i normalized s

/-- The lines from the index `i` on. -/
def runLines (s : BuildState) (i : Nat) : List Text → BuildState
  | [] => s
  | raw :: rest => runLines (step words intra intraLineEnabled s i raw) (i + 1) rest

/-- `findIndex`: the number of lines before the first hunk header. -/
def firstHunkIndex (rawLines : List Text) : Nat :=
  rawLines.findIdx fun l => startsWith "@@" (trimStart l)

def buildCodeLinesFromUnifiedDiff (unifiedDiff : Text) (hideFilePrelude : Bool)
    (intra : IntraLineDiff) : List CodeLine :=
  let rawLines := (unixLineEnds unifiedDiff).splitOn '\n'
  let skipped :=
    if hideFilePrelude && firstHunkIndex rawLines < rawLines.length then firstHunkIndex rawLines else 0
  let intraLineEnabled := intra.enabled && rawLines.length ≤ intra.maxLines
  let start : BuildState := {
    out := []
    oldLine := 0
    newLine := 0
    inHunk := false
    pendingRemovals := []
    remainingIntraLinePairs := if intraLineEnabled then intra.maxPairs else some 0 }
  (runLines words intra intraLineEnabled start skipped (rawLines.drop skipped)).out

end DevPilot.Diffs
