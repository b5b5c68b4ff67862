import DevPilot.Diffs.CodeLines
import Mathlib.Data.Finset.Basic

/-!
Patches of some changed lines of a unified diff, to be staged or unstaged, and the changed
lines a stored patch stands for.
-/

namespace DevPilot.Staging

open UnifiedDiff DevPilot.Diffs

inductive Side
  | additions
  | deletions
deriving DecidableEq, Repr

structure SelectedDiffLineKey where
  side : Side
  number : Nat
deriving DecidableEq, Repr

def buildSelectedDiffLineKey (side : Side) (lineNumber : Nat) : Option SelectedDiffLineKey :=
  if lineNumber = 0 then none else some ⟨side, lineNumber⟩

structure HunkHeader where
  oldStart : Nat
  newStart : Nat
  sectionHeading : Text

def trim (t : Text) : Text := ((t.dropWhile isBlank).reverse.dropWhile isBlank).reverse

/-- The heading reaches to the end of the line, so it holds no line terminator. -/
def parseHunkHeader (line : Text) : Option HunkHeader :=
  match parseHeader? line with
  | none => none
  | some (oldStart, newStart, heading) =>
      if heading.any isLineTerminator then none else some ⟨oldStart, newStart, trim heading⟩

structure ExtractState where
  oldCursor : Nat
  newCursor : Nat
  selectedLineKeys : Finset SelectedDiffLineKey

def addKey (key : Option SelectedDiffLineKey) (keys : Finset SelectedDiffLineKey) :
    Finset SelectedDiffLineKey :=
  match key with
  | none => keys
  | some key => insert key keys

def extractLine (s : ExtractState) (line : Text) : ExtractState :=
  match parseHunkHeader line with
  | some header => { s with oldCursor := header.oldStart, newCursor := header.newStart }
  | none =>
      if startsWith " " line then
        { s with oldCursor := s.oldCursor + 1, newCursor := s.newCursor + 1 }
      else if startsWith "+" line && !startsWith "+++" line then
        { s with
          newCursor := s.newCursor + 1
          selectedLineKeys := addKey (buildSelectedDiffLineKey .additions s.newCursor)
            s.selectedLineKeys }
      else if startsWith "-" line && !startsWith "---" line then
        { s with
          oldCursor := s.oldCursor + 1
          selectedLineKeys := addKey (buildSelectedDiffLineKey .deletions s.oldCursor)
            s.selectedLineKeys }
      else s

def extractSelectedDiffLineKeysFromPatch (unifiedDiff : Text) : Finset SelectedDiffLineKey :=
  ((unifiedDiff.splitOn '\n').foldl extractLine ⟨0, 0, ∅⟩).selectedLineKeys

inductive ParsedKind
  | context
  | add
  | delete
  | marker
  | other
deriving DecidableEq, Repr

structure ParsedHunkLine where
  text : Text
  kind : ParsedKind
  oldRef : Option Nat
  newRef : Option Nat

structure ParsedHunk where
  sectionHeading : Text
  lines : List ParsedHunkLine

structure HunkCursor where
  hunk : ParsedHunk
  oldCursor : Nat
  newCursor : Nat

def HunkCursor.start (header : HunkHeader) : HunkCursor :=
  ⟨⟨header.sectionHeading, []⟩, header.oldStart, header.newStart⟩

def HunkCursor.push (c : HunkCursor) (line : ParsedHunkLine) (oldLines newLines : Nat) : HunkCursor :=
  { hunk := { c.hunk with lines := c.hunk.lines ++ [line] }
    oldCursor := c.oldCursor + oldLines
    newCursor := c.newCursor + newLines }

def HunkCursor.line (c : HunkCursor) (line : Text) : HunkCursor :=
  if line = marker then c.push ⟨line, .marker, none, none⟩ 0 0
  else if startsWith " " line then
    c.push ⟨line, .context, some c.oldCursor, some c.newCursor⟩ 1 1
  else if startsWith "-" line && !startsWith "---" line then
    c.push ⟨line, .delete, some c.oldCursor, some c.newCursor⟩ 1 0
  else if startsWith "+" line && !startsWith "+++" line then
    c.push ⟨line, .add, some c.oldCursor, some c.newCursor⟩ 0 1
  else c.push ⟨line, .other, some c.oldCursor, some c.newCursor⟩ 0 0

/-- The two nested loops over the lines; outside a hunk lines are skipped. -/
def parseHunks : Option HunkCursor → List Text → List ParsedHunk
  | none, [] => []
  | some c, [] => [c.hunk]
  | none, line :: rest => parseHunks ((parseHunkHeader line).map .start) rest
  | some c, line :: rest =>
      if startsWith "diff --git " line then c.hunk :: parseHunks none rest
      else match parseHunkHeader line with
        | some header => c.hunk :: parseHunks (some (.start header)) rest
        | none => parseHunks (some (c.line line)) rest

inductive PatchSelectionMode
  | stage
  | unstage
deriving DecidableEq, Repr

structure EmittedHunkLine where
  text : Text
  oldRef : Option Nat
  newRef : Option Nat
  carriesChange : Bool

def isSelectedRef (selectedLineKeys : Finset SelectedDiffLineKey) (side : Side) (ref : Option Nat) :
    Bool :=
  match ref with
  | none => false
  | some lineNumber =>
      match buildSelectedDiffLineKey side lineNumber with
      | none => false
      | some key => key ∈ selectedLineKeys

def isSelected (selectedLineKeys : Finset SelectedDiffLineKey) (line : ParsedHunkLine) : Bool :=
  match line.kind with
  | .add => isSelectedRef selectedLineKeys .additions line.newRef
  | .delete => isSelectedRef selectedLineKeys .deletions line.oldRef
  | _ => false

structure EmitState where
  emitted : List EmittedHunkLine
  hasSelectedChange : Bool

namespace EmitState

def push (s : EmitState) (line : EmittedHunkLine) : EmitState :=
  { s with emitted := s.emitted ++ [line] }

def pushChange (s : EmitState) (line : ParsedHunkLine) : EmitState :=
  { emitted := s.emitted ++ [⟨line.text, line.oldRef, line.newRef, true⟩]
    hasSelectedChange := true }

def pushContext (s : EmitState) (line : ParsedHunkLine) : EmitState :=
  s.push ⟨' ' :: line.text.drop 1, line.oldRef, line.newRef, false⟩

def line (selectedLineKeys : Finset SelectedDiffLineKey) (mode : PatchSelectionMode) (s : EmitState)
    (line : ParsedHunkLine) : EmitState :=
  match line.kind with
  | .context => s.push ⟨line.text, line.oldRef, line.newRef, false⟩
  | .add =>
      if isSelected selectedLineKeys line then s.pushChange line
      else if mode = .unstage then s.pushContext line else s
  | .delete =>
      if isSelected selectedLineKeys line then s.pushChange line
      else if mode = .stage then s.pushContext line else s
  | .marker =>
      match s.emitted.getLast? with
      | none => s
      | some previous => s.push ⟨line.text, none, none, previous.carriesChange⟩
  | .other => s.push ⟨line.text, line.oldRef, line.newRef, false⟩

end EmitState

/-- Without the markers whose previous line carries no change. -/
def dropMarkers : Bool → List EmittedHunkLine → List EmittedHunkLine
  | _, [] => []
  | previous, line :: rest =>
      if line.text ≠ marker ∨ previous then line :: dropMarkers line.carriesChange rest
      else dropMarkers line.carriesChange rest

def emitHunk (lines : List ParsedHunkLine) (selectedLineKeys : Finset SelectedDiffLineKey)
    (mode : PatchSelectionMode) : Option (List EmittedHunkLine) :=
  let s := lines.foldl (EmitState.line selectedLineKeys mode) ⟨[], false⟩
  if s.hasSelectedChange then some (dropMarkers false s.emitted) else none

/-- `@@ -oldStart,oldCount +newStart,newCount @@` and the lines under it. -/
def computeHunkHeaderLines (emitted : List EmittedHunkLine) (suffix : Text) : Option (List Text) :=
  let contentLines := emitted.filter fun line => line.text ≠ marker
  match contentLines with
  | [] => none
  | first :: _ =>
      let oldCount := contentLines.countP fun line => startsWith " " line.text || startsWith "-" line.text
      let newCount := contentLines.countP fun line => startsWith " " line.text || startsWith "+" line.text
      some (renderHeader false (first.oldRef.getD 0) oldCount (first.newRef.getD 0) newCount suffix ::
        emitted.map EmittedHunkLine.text)

def headingSuffix (heading : Text) : Text := if heading = [] then [] else ' ' :: heading

def renderedHunk (selectedLineKeys : Finset SelectedDiffLineKey) (mode : PatchSelectionMode)
    (parsedHunk : ParsedHunk) : List Text :=
  match emitHunk parsedHunk.lines selectedLineKeys mode with
  | none => []
  | some emitted =>
      (computeHunkHeaderLines emitted (headingSuffix parsedHunk.sectionHeading)).getD []

/-- The path behind `--- ` or `+++ ` without `a/` or `b/`. -/
def headerPath (side : Char) (header : Text) : Text :=
  let path := (header.drop 3).dropWhile isBlank
  if [side, '/'].isPrefixOf path then path.drop 2 else path

def normalizedHeaderLines (headerLines : List Text) (oldHeader newHeader : Text) : List Text :=
  if headerLines.any (startsWith "diff --git ") then headerLines
  else ("diff --git a/".toList ++ headerPath 'a' oldHeader ++ " b/".toList ++
    headerPath 'b' newHeader) :: headerLines

def isHunkHeader (line : Text) : Bool := (parseHunkHeader line).isSome

def buildPatchFromSelectedDiffLines (unifiedDiff : Text)
    (selectedLineKeys : Finset SelectedDiffLineKey) (mode : PatchSelectionMode) : Option Text :=
  if unifiedDiff = [] ∨ selectedLineKeys = ∅ then none
  else
    let lines := unifiedDiff.splitOn '\n'
    if lines.any isHunkHeader then
      let headerLines := lines.takeWhile fun line => !isHunkHeader line
      match headerLines.find? (startsWith "--- "), headerLines.find? (startsWith "+++ ") with
      | some oldHeader, some newHeader =>
          let hunks := parseHunks none (lines.dropWhile fun line => !isHunkHeader line)
          let renderedHunks := hunks.flatMap (renderedHunk selectedLineKeys mode)
          if renderedHunks = [] then none
          else
            let patchLines := normalizedHeaderLines headerLines oldHeader newHeader ++ renderedHunks
            let patchLines :=
              if patchLines.getLast? = some [] then patchLines else patchLines ++ [[]]
            some (['\n'].intercalate patchLines)
      | _, _ => none
    else none

end DevPilot.Staging
