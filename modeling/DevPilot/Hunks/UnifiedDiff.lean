import DevPilot.Diffs.CodeLines
import DevPilot.Lib.ContextWindows

/-!
The hunks computed for two texts: a pass over the parts of the line diff that numbers the lines
and pairs additions with removals like them, then the grouping of the changed lines.
-/

namespace DevPilot.Hunks

open UnifiedDiff DevPilot.Diffs

structure DiffToken where
  value : Text
  added : Bool
  removed : Bool
deriving DecidableEq, Repr

inductive LineType
  | add
  | remove
  | normal
deriving DecidableEq, Repr

structure DiffLine where
  type : LineType
  content : Text
  oldLineNumber : Option Nat
  newLineNumber : Option Nat
  tokens : Option (List DiffToken)
deriving DecidableEq, Repr

structure DiffHunk where
  oldStart : Nat
  oldLines : Nat
  newStart : Nat
  newLines : Nat
  lines : List DiffLine
deriving DecidableEq, Repr

structure Change where
  value : Text
  added : Bool
  removed : Bool

def lineTokens : Text → List Text
  | [] => []
  | c :: t =>
      if c = '\n' then [c] :: lineTokens t
      else match lineTokens t with
        | [] => [[c]]
        | line :: rest => (c :: line) :: rest

structure LineDiff where
  diffLines : Text → Text → List Change
  exclusive : ∀ a b, ∀ change ∈ diffLines a b, ¬ (change.added ∧ change.removed)
  old : ∀ a b, ((diffLines a b).filter fun change => !change.added).flatMap
    (fun change => lineTokens change.value) = lineTokens a
  new : ∀ a b, ((diffLines a b).filter fun change => !change.removed).flatMap
    (fun change => lineTokens change.value) = lineTokens b

/-- `value.split('\n')` without the empty text behind the last line end. -/
def linesOf (value : Text) : List Text :=
  let lines := value.splitOn '\n'
  if lines.getLast? = some [] then lines.dropLast else lines

section Similarity

variable (F : Type) [NatCast F] [Add F] [Div F] [LT F] [DecidableLT F]

def findCommonSubstrings (str1 str2 : Text) : List Text :=
  let lengths := (List.range' 3 (min str1.length str2.length + 1 - 3)).reverse
  let candidates := lengths.flatMap fun len =>
    (List.range (str1.length - len + 1)).map fun i => (str1.drop i).take len
  candidates.foldl (fun substrings sub =>
    if sub <:+: str2 ∧ ¬ ∃ s ∈ substrings, sub <:+: s then substrings ++ [sub] else substrings) []

def calculateSimilarity (str1 str2 : Text) : F :=
  if str1 = str2 then ((1 : Nat) : F)
  else if str1 = [] ∨ str2 = [] then ((0 : Nat) : F)
  else
    let maxLen : F := (max str1.length str2.length : Nat)
    let equal : F := ((str1.zip str2).countP fun pair => pair.1 = pair.2 : Nat)
    let common : F := (((findCommonSubstrings str1 str2).map List.length).sum : Nat)
    (equal / maxLen + common / maxLen) / ((2 : Nat) : F)

/-- The index of the best of the candidates that are similar enough. -/
def findBestMatch (target : Text) (candidates : List Text) : Option Nat :=
  let threshold : F := ((3 : Nat) : F) / ((10 : Nat) : F)
  let best := candidates.zipIdx.foldl (fun (best : Option Nat × F) candidate =>
    let score := calculateSimilarity F target candidate.1
    if best.2 < score ∧ threshold < score then (some candidate.2, score) else best)
    (none, ((0 : Nat) : F))
  best.1

end Similarity

def calculateInlineDiff (words : WordDiff) (oldLine newLine : Text) : List DiffToken :=
  (words.diffWordsWithSpace oldLine newLine).map fun part => match part with
    | .added value => ⟨value, true, false⟩
    | .removed value => ⟨value, false, true⟩
    | .common value => ⟨value, false, false⟩

structure PendingRemoval where
  line : Text
  lineNum : Nat
  index : Nat

structure PassState where
  allLines : List DiffLine
  pendingRemovals : List PendingRemoval
  oldLineNum : Nat
  newLineNum : Nat
  additions : Nat
  deletions : Nat

namespace PassState

def removedLine (s : PassState) (line : Text) : PassState :=
  { s with
    pendingRemovals := s.pendingRemovals ++ [⟨line, s.oldLineNum, s.allLines.length⟩]
    allLines := s.allLines ++ [⟨.remove, line, some s.oldLineNum, none, none⟩]
    oldLineNum := s.oldLineNum + 1
    deletions := s.deletions + 1 }

def unpairedLine (s : PassState) (line : Text) : PassState :=
  { s with
    allLines := s.allLines ++ [⟨.add, line, none, some s.newLineNum, none⟩]
    newLineNum := s.newLineNum + 1
    additions := s.additions + 1 }

/-- The removal at `i` of the pending ones gets the tokens of the old line, the new line those
of the new one. -/
def pairedLine (words : WordDiff) (s : PassState) (line : Text) (i : Nat)
    (removal : PendingRemoval) : PassState :=
  let tokens := calculateInlineDiff words removal.line line
  let allLines := s.allLines.modify removal.index fun old =>
    { old with tokens := some (tokens.filter fun t => !t.added) }
  { s with
    pendingRemovals := s.pendingRemovals.eraseIdx i
    allLines := allLines ++
      [⟨.add, line, none, some s.newLineNum, some (tokens.filter fun t => !t.removed)⟩]
    newLineNum := s.newLineNum + 1
    additions := s.additions + 1 }

def normalLine (s : PassState) (line : Text) : PassState :=
  { s with
    allLines := s.allLines ++ [⟨.normal, line, some s.oldLineNum, some s.newLineNum, none⟩]
    oldLineNum := s.oldLineNum + 1
    newLineNum := s.newLineNum + 1 }

variable (F : Type) [NatCast F] [Add F] [Div F] [LT F] [DecidableLT F] (words : WordDiff)

def addedLine (s : PassState) (line : Text) : PassState :=
  match findBestMatch F line (s.pendingRemovals.map PendingRemoval.line) with
  | none => s.unpairedLine line
  | some i =>
      match s.pendingRemovals[i]? with
      | none => s.unpairedLine line
      | some removal => s.pairedLine words line i removal

def line (change : Change) (s : PassState) (text : Text) : PassState :=
  if change.removed then s.removedLine text
  else if change.added then s.addedLine F words text
  else s.normalLine text

def change (s : PassState) (change : Change) : PassState :=
  (linesOf change.value).foldl (line F words change) s

end PassState

def isChange (l : DiffLine) : Bool := l.type ≠ .normal

def orOne : Option Nat → Nat
  | none | some 0 => 1
  | some (n + 1) => n + 1

def isTruthy : Option Nat → Bool
  | none | some 0 => false
  | some (_ + 1) => true

def hunkOf (oldStart newStart : Nat) (lines : List DiffLine) : DiffHunk :=
  ⟨oldStart, lines.countP fun l => isTruthy l.oldLineNumber, newStart,
    lines.countP fun l => isTruthy l.newLineNumber, lines⟩

def finishHunk : List DiffLine → List DiffHunk
  | [] => []
  | firstLine :: rest =>
      [hunkOf (orOne firstLine.oldLineNumber) (orOne firstLine.newLineNumber) (firstLine :: rest)]

def linesAt (lines : List DiffLine) (places : List Nat) : List DiffLine :=
  places.filterMap (lines[·]?)

/-- The loop over the changes; `passed` is the index after the last one included. -/
def hunksFrom (lines : List DiffLine) (contextLines : Nat) :
    List DiffLine → Nat → List Nat → List DiffHunk
  | currentHunk, _, [] => finishHunk currentHunk
  | currentHunk, passed, change :: rest =>
      let startContext := change - contextLines
      let endContext := min (lines.length - 1) (change + contextLines)
      let start := max passed startContext
      let currentHunk := currentHunk ++ linesAt lines (List.range' start (endContext + 1 - start))
      if rest.head?.any fun nextChange => contextLines * 2 < nextChange - endContext then
        finishHunk currentHunk ++ hunksFrom lines contextLines [] (endContext + 1) rest
      else hunksFrom lines contextLines currentHunk (endContext + 1) rest

def changesOf (lines : List DiffLine) : List Nat :=
  (lines.zipIdx.filter fun entry => isChange entry.1).map Prod.snd

def createHunks (lines : List DiffLine) (contextLines : Nat) : List DiffHunk :=
  if changesOf lines = [] then
    if lines = [] then [] else [hunkOf 1 1 lines]
  else hunksFrom lines contextLines [] 0 (changesOf lines)

structure DiffResult where
  hunks : List DiffHunk
  additions : Nat
  deletions : Nat

section Result

variable (F : Type) [NatCast F] [Add F] [Div F] [LT F] [DecidableLT F]
variable (lineDiff : LineDiff) (words : WordDiff)

def firstPass (oldText newText : Text) : PassState :=
  (lineDiff.diffLines oldText newText).foldl (PassState.change F words) ⟨[], [], 1, 1, 0, 0⟩

def calculateUnifiedDiff (oldText newText : Text) (contextLines : Nat) : DiffResult :=
  let pass := firstPass F lineDiff words oldText newText
  ⟨createHunks pass.allLines contextLines, pass.additions, pass.deletions⟩

end Result

end DevPilot.Hunks
