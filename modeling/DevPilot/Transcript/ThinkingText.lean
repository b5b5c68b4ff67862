import DevPilot.Lib.PathText

/-!
The texts of thinking blocks: what a streamed chunk is read as, and how a chunk
joins the text before it. Lengths count characters.
-/

namespace DevPilot.Transcript

open PathText

attribute [local instance] lawfulBEq_text

def unixNewlines : Text → Text
  | '\r' :: '\n' :: t => '\n' :: unixNewlines t
  | '\r' :: t => '\n' :: unixNewlines t
  | c :: t => c :: unixNewlines t
  | [] => []

/-- Runs of newlines are cut to two; `n` of them came just before. -/
def capNewlines : Nat → Text → Text
  | _, [] => []
  | n, c :: t =>
      if c = '\n' then if n < 2 then c :: capNewlines (n + 1) t else capNewlines n t
      else c :: capNewlines 0 t

def startsWith (t start : Text) : Bool := start.isPrefixOf t

def endsWith (t ending : Text) : Bool := ending.isSuffixOf t

def includes (t part : Text) : Bool := t.tails.any part.isPrefixOf

def trimStart (t : Text) : Text := t.dropWhile isBlank

def fence : Text := ['`', '`', '`']

/-- `/^\d+\.\s/` -/
def isNumbered (t : Text) : Bool :=
  match t.span Char.isDigit with
  | (_ :: _, '.' :: c :: _) => isBlank c
  | _ => false

def isStructuredMarkdownLine (line : Text) : Bool :=
  let trimmed := trimStart line
  startsWith trimmed ['-', ' '] || startsWith trimmed ['*', ' '] || isNumbered trimmed ||
    startsWith trimmed ['>'] || startsWith trimmed fence

def isDelimiterToken (token : Text) : Bool :=
  token ∈ [['`'], ['*', '*'], ['*'], ['_'], ['_', '_'], ['~', '~']]

def isNoSpaceBeforeToken (token : Text) : Bool :=
  token ∈ [['%'], ['…']] || token.head?.any (· ∈ [',', '.', ';', ':', '!', '?', ')', ']', '}'])

def isNoSpaceAfterChar (c : Char) : Bool := c ∈ ['(', '[', '{', '<', '`', '*', '_', '~']

def isCodeChar (c : Char) : Bool := c ∈ ['=', ';', '{', '}', '[', ']', '(', ')', '<', '>']

def paragraphBreak : Text := ['\n', '\n']

structure Reassembly where
  out : Text
  prevToken : Option Text

/-- `hasLaterNonEmpty(i)`, which looks at the lines of the whole chunk. -/
def hasLaterNonEmpty (lines : List Text) (i : Nat) : Bool :=
  (lines.drop (i + 1)).any fun line => trim line ≠ []

/-- One line of the loop of `collapseWordPerLine`. -/
def addTokenLine (lines : List Text) (last : Nat) (r : Reassembly) (line : Text × Nat) : Reassembly :=
  let (rawLine, i) := line
  let token := trim rawLine
  if token = [] then
    if r.out ≠ [] ∧ !endsWith r.out ['\n'] ∧ !endsWith r.out [' '] ∧ i = last then
      ⟨r.out ++ [' '], none⟩
    else if r.out ≠ [] ∧ !endsWith r.out paragraphBreak ∧ hasLaterNonEmpty lines i then
      let out := if endsWith r.out [' '] then r.out.dropLast else r.out
      ⟨out ++ paragraphBreak, none⟩
    else ⟨r.out, none⟩
  else if r.out = [] ∨ endsWith r.out paragraphBreak then ⟨r.out ++ token, some token⟩
  else
    let shouldAttachToPrev := isNoSpaceBeforeToken token || isDelimiterToken token ||
      r.prevToken.any isDelimiterToken || r.out.getLast?.any isNoSpaceAfterChar
    ⟨r.out ++ (if shouldAttachToPrev then [] else [' ']) ++ token, some token⟩

def isWordLine (line : Text) : Bool :=
  let trimmed := trim line
  trimmed = line && !trimmed.any isCodeChar && trimmed.length ≤ 40 && !trimmed.any isBlank

def isWordPerLine (tokenLines : List Text) : Bool :=
  let nonEmptyLines := tokenLines.filter fun line => trim line ≠ []
  !tokenLines.any isStructuredMarkdownLine && !nonEmptyLines.isEmpty && nonEmptyLines.all isWordLine

def joinLines (lines : List Text) : Text := ['\n'].intercalate lines

def collapseWordPerLine (lines tokenLines : List Text) : Text :=
  if isWordPerLine tokenLines then
    (tokenLines.zipIdx.foldl (addTokenLine lines (tokenLines.length - 1)) ⟨[], none⟩).out
  else joinLines tokenLines

structure Fences where
  out : Text
  buffer : List Text
  inFence : Bool

def appendLine (out line : Text) : Text :=
  if out = [] then line else if endsWith out ['\n'] then out ++ line else out ++ '\n' :: line

def Fences.flushBuffer (lines : List Text) (s : Fences) : Fences :=
  if s.buffer = [] then s
  else { s with out := appendLine s.out (collapseWordPerLine lines s.buffer), buffer := [] }

def Fences.addLine (lines : List Text) (s : Fences) (line : Text) : Fences :=
  if startsWith (trimStart line) fence then
    let s := s.flushBuffer lines
    { s with out := appendLine s.out line, inFence := !s.inFence }
  else if s.inFence then { s with out := appendLine s.out line }
  else { s with buffer := s.buffer ++ [line] }

def normalizeThinkingText (chunk : Text) : Text :=
  let lines := (capNewlines 0 (unixNewlines chunk)).splitOn '\n'
  ((lines.foldl (Fences.addLine lines) ⟨[], [], false⟩).flushBuffer lines).out

def normalizeThinkingChunk (chunk : String) : String :=
  String.ofList (normalizeThinkingText chunk.toList)

def thinkingWrapper : Text := "*Thinking...*\n\n*".toList

def unwrapText (t : Text) : Text :=
  if startsWith t thinkingWrapper ∧ (t.drop thinkingWrapper.length).getLast? = some '*' then
    (t.drop thinkingWrapper.length).dropLast
  else t

def unwrapThinkingText (t : String) : String := String.ofList (unwrapText t.toList)

/-- The greatest size up to `size` at which the start of one text ends the other. -/
def overlapFrom (left right : Text) : Nat → Nat
  | 0 => 0
  | size + 1 => if endsWith left (right.take (size + 1)) then size + 1 else overlapFrom left right size

def findMaxOverlapSuffixPrefix (left right : Text) (maxProbe : Nat) : Nat :=
  overlapFrom left right (min maxProbe (min left.length right.length))

def plainQuote (c : Char) : Char :=
  if c = '\u2018' ∨ c = '\u2019' then '\'' else if c = '\u201C' ∨ c = '\u201D' then '"' else c

/-- `\s+` becomes a space; `afterBlank` when one was just written. -/
def collapseBlanks : Bool → Text → Text
  | _, [] => []
  | afterBlank, c :: t =>
      if isBlank c then if afterBlank then collapseBlanks true t else ' ' :: collapseBlanks true t
      else c :: collapseBlanks false t

def normalizeForCumulative (t : Text) : Text :=
  trim (collapseBlanks false ((unixNewlines t).map plainQuote))

def isCumulative (prev next : Text) : Bool :=
  let prevNorm := normalizeForCumulative prev
  let nextNorm := normalizeForCumulative next
  let probes := [0, 80, 160, 240].map fun start => trim ((prevNorm.drop start).take 160)
  40 ≤ prevNorm.length && includes nextNorm prevNorm ||
    probes.any fun probe => 40 ≤ probe.length && includes (nextNorm.take 800) probe

/-- The last character that is neither blank nor closes something. -/
def lastSignificant (prev : Text) : Option Char :=
  let trimmedEnd := trimEnd prev
  let significant := (trimmedEnd.reverse.dropWhile (· ∈ [')', ']', '"', '\'', '’', '”'])).head?
  significant.or (trimmedEnd.getLast?.or prev.getLast?)

/-- No space stands between the texts where the join would run words together. -/
def needsSpace (prev next : Text) : Bool :=
  match prev.getLast?, next.head? with
  | some prevLast, some nextFirst =>
      let prevWantsSpaceAfter := (lastSignificant prev).any (· ∈ ['.', '!', '?', ':', ';'])
      let nextLooksLikeNewWord := nextFirst.isUpper
      let nextIsPunctuation :=
        nextFirst ∈ ['.', ',', ';', ':', '!', '?', ')', '}', ']', '…', '%']
      let prevIsOpenPunctuationOrDelimiter := prevLast ∈ ['(', '[', '{', '<', '`', '*', '_', '~']
      !isBlank prevLast && !isBlank nextFirst && (prevWantsSpaceAfter || nextLooksLikeNewWord) &&
        !nextIsPunctuation && !prevIsOpenPunctuationOrDelimiter
  | _, _ => false

def mergeText (prevText next : Text) : Text :=
  let prev := unwrapText prevText
  if next = [] then prev
  else if prev = [] then next
  else if startsWith next prev then next
  else if endsWith prev next then prev
  else if prev.length < next.length ∧ isCumulative prev next then next
  else
    let overlap := findMaxOverlapSuffixPrefix prev next 4000
    if 0 < overlap then prev ++ next.drop overlap
    else if needsSpace prev next then prev ++ ' ' :: next
    else prev ++ next

def mergeThinkingText (prevText nextChunk : String) : String :=
  String.ofList (mergeText prevText.toList nextChunk.toList)

def hasVisibleText (t : String) : Bool := trim t.toList ≠ []

def hasParagraphBreak (t : String) : Bool := includes t.toList paragraphBreak

end DevPilot.Transcript
