import DevPilot.Lib.DottedIds

/-!
Unified diffs of one file: the two texts, the hunks between them with their numbers, the
lines a diff is written as, and reading the numbers of a hunk header.
-/

namespace UnifiedDiff

abbrev Text := List Char

inductive Kind
  | context
  | delete
  | add
deriving DecidableEq, Repr

/-- A line of a text; only the last one can lack its line end. -/
structure FileLine where
  text : Text
  ended : Bool
deriving DecidableEq, Repr

structure BodyLine where
  kind : Kind
  line : FileLine
deriving DecidableEq, Repr

namespace BodyLine

def isOld (l : BodyLine) : Bool := l.kind ≠ .add

def isNew (l : BodyLine) : Bool := l.kind ≠ .delete

end BodyLine

structure Hunk where
  /-- What follows the second `@@`. -/
  heading : Text
  /-- Whether a count of one is left out. -/
  shortCounts : Bool
  body : List BodyLine
deriving DecidableEq, Repr

namespace Hunk

def oldCount (h : Hunk) : Nat := h.body.countP BodyLine.isOld

def newCount (h : Hunk) : Nat := h.body.countP BodyLine.isNew

end Hunk

/-- A hunk with the unchanged lines since the hunk before it. -/
structure Part where
  gap : List FileLine
  hunk : Hunk
deriving DecidableEq, Repr

structure Diff where
  header : List Text
  parts : List Part
  /-- The unchanged lines after the last hunk. -/
  rest : List FileLine
  /-- Whether the written diff ends with a line end. -/
  trailing : Bool
deriving DecidableEq, Repr

def Part.oldLines (p : Part) : List FileLine :=
  p.gap ++ (p.hunk.body.filter BodyLine.isOld).map (·.line)

def Part.newLines (p : Part) : List FileLine :=
  p.gap ++ (p.hunk.body.filter BodyLine.isNew).map (·.line)

def Diff.oldLines (d : Diff) : List FileLine := d.parts.flatMap Part.oldLines ++ d.rest

def Diff.newLines (d : Diff) : List FileLine := d.parts.flatMap Part.newLines ++ d.rest

def marker : Text := "\\ No newline at end of file".toList

def prefixOf : Kind → Char
  | .context => ' '
  | .delete => '-'
  | .add => '+'

def BodyLine.render (l : BodyLine) : List Text :=
  (prefixOf l.kind :: l.line.text) :: if l.line.ended then [] else [marker]

/-- The number of the first line, or of the line before where there is none. -/
def startOf (before count : Nat) : Nat := if count = 0 then before else before + 1

def renderRange (short : Bool) (start count : Nat) : Text :=
  Nat.toDigits 10 start ++ if short && count = 1 then [] else ',' :: Nat.toDigits 10 count

def renderHeader (short : Bool) (oldStart oldCount newStart newCount : Nat) (heading : Text) : Text :=
  '@' :: '@' :: ' ' :: '-' :: (renderRange short oldStart oldCount ++
    ' ' :: '+' :: (renderRange short newStart newCount ++ ' ' :: '@' :: '@' :: heading))

/-- The hunk after `oldBefore` old and `newBefore` new lines. -/
def Hunk.render (h : Hunk) (oldBefore newBefore : Nat) : List Text :=
  renderHeader h.shortCounts (startOf oldBefore h.oldCount) h.oldCount
    (startOf newBefore h.newCount) h.newCount h.heading :: h.body.flatMap BodyLine.render

def renderParts : Nat → Nat → List Part → List Text
  | _, _, [] => []
  | o, n, p :: ps =>
      p.hunk.render (o + p.gap.length) (n + p.gap.length) ++
        renderParts (o + p.gap.length + p.hunk.oldCount) (n + p.gap.length + p.hunk.newCount) ps

def Diff.lines (d : Diff) : List Text :=
  d.header ++ renderParts 0 0 d.parts ++ if d.trailing then [[]] else []

def Diff.text (d : Diff) : Text := ['\n'].intercalate d.lines

def isLineTerminator (c : Char) : Bool := c ∈ ['\n', '\r', Char.ofNat 0x2028, Char.ofNat 0x2029]

def isBlank (c : Char) : Bool :=
  c.toNat ∈ [9, 10, 11, 12, 13, 32, 160, 0x1680, 0x2028, 0x2029, 0x202F, 0x205F, 0x3000, 0xFEFF] ||
    (0x2000 ≤ c.toNat && c.toNat ≤ 0x200A)

/-- Lines before the hunks: file names after `---` and `+++`, nothing that a hunk or its
lines would start with. -/
def IsHeaderLine (t : Text) : Prop :=
  '\n' ∉ t ∧ ¬"@@".toList <+: t.dropWhile isBlank ∧ t.head? ≠ some ' ' ∧
    (t.head? = some '-' → "---".toList <+: t) ∧ (t.head? = some '+' → "+++".toList <+: t)

instance (t : Text) : Decidable (IsHeaderLine t) :=
  inferInstanceAs (Decidable (_ ∧ _ ∧ _ ∧ _ ∧ _))

def Ended (lines : List FileLine) : Prop := ∀ l ∈ lines.dropLast, l.ended = true

instance (lines : List FileLine) : Decidable (Ended lines) :=
  inferInstanceAs (Decidable (∀ l ∈ lines.dropLast, l.ended = true))

structure Diff.WellFormed (d : Diff) : Prop where
  header : ∀ t ∈ d.header, IsHeaderLine t
  oldHeader : ∃ t ∈ d.header, "--- ".toList <+: t
  newHeader : ∃ t ∈ d.header, "+++ ".toList <+: t
  parts : d.parts ≠ []
  heading : ∀ p ∈ d.parts, ∀ c ∈ p.hunk.heading, isLineTerminator c = false
  body : ∀ p ∈ d.parts, p.hunk.body ≠ []
  lines : ∀ p ∈ d.parts, ∀ l ∈ p.hunk.body, '\n' ∉ l.line.text
  oldEnded : Ended d.oldLines
  newEnded : Ended d.newLines

def number? (t : Text) : Option (Nat × Text) :=
  let digits := t.takeWhile Char.isDigit
  if digits = [] then none else some (Nat.ofDigitChars 10 digits 0, t.dropWhile Char.isDigit)

/-- `(?:,\d+)?` before something that is no comma. -/
def skipCount : Text → Option Text
  | ',' :: t => (number? t).map Prod.snd
  | t => some t

def range? (sign : Char) : Text → Option (Nat × Text)
  | [] => none
  | c :: t =>
      if c = sign then do
        let (n, t) ← number? t
        let t ← skipCount t
        some (n, t)
      else none

def blanks? : Text → Option Text
  | [] => none
  | c :: t => if isBlank c then some (t.dropWhile isBlank) else none

def ats? : Text → Option Text
  | '@' :: '@' :: t => some t
  | _ => none

/-- `@@\s+-(\d+)(?:,\d+)?\s+\+(\d+)(?:,\d+)?\s+@@`: both starts and what follows. -/
def parseHeader? (t : Text) : Option (Nat × Nat × Text) := do
  let t ← ats? t
  let t ← blanks? t
  let (oldStart, t) ← range? '-' t
  let t ← blanks? t
  let (newStart, t) ← range? '+' t
  let t ← blanks? t
  let heading ← ats? t
  some (oldStart, newStart, heading)

theorem number?_toDigits (n : Nat) {t : Text} (ht : ∀ c ∈ t.head?, c.isDigit = false) :
    number? (Nat.toDigits 10 n ++ t) = some (n, t) := by
  have hall : ∀ c ∈ Nat.toDigits 10 n, c.isDigit = true := fun c hc => DottedIds.isDigit_toDigits hc
  have htail : t.takeWhile Char.isDigit = [] ∧ t.dropWhile Char.isDigit = t := by
    cases t with
    | nil => simp
    | cons c t => simp [ht c rfl]
  rw [number?, List.takeWhile_append_of_pos hall, List.dropWhile_append_of_pos hall, htail.1,
    htail.2, List.append_nil, if_neg Nat.toDigits_ne_nil, Nat.ofDigitChars_ten_toDigits]

theorem range?_render (sign : Char) (short : Bool) (start count : Nat) (t : Text) :
    range? sign (sign :: (renderRange short start count ++ ' ' :: t)) = some (start, ' ' :: t) := by
  rw [range?, if_pos rfl, renderRange]
  cases hshort : short && count = 1 with
  | true =>
      rw [if_pos rfl, List.append_nil, number?_toDigits start (by simp)]
      rfl
  | false =>
      rw [if_neg (by simp), List.append_assoc, List.cons_append,
        number?_toDigits start (by simp)]
      simp only [Option.bind_eq_bind, Option.bind_some, skipCount,
        number?_toDigits count (t := ' ' :: t) (by simp), Option.map_some]

theorem blanks?_space {c : Char} (hc : isBlank c = false) (t : Text) :
    blanks? (' ' :: c :: t) = some (c :: t) := by
  rw [blanks?, if_pos (by decide), List.dropWhile_cons_of_neg (by simp [hc])]

theorem parseHeader?_render (short : Bool) (oldStart oldCount newStart newCount : Nat)
    (heading : Text) :
    parseHeader? (renderHeader short oldStart oldCount newStart newCount heading) =
      some (oldStart, newStart, heading) := by
  simp only [parseHeader?, renderHeader, ats?, Option.bind_eq_bind, Option.bind_some,
    blanks?_space (c := '-') (by decide), blanks?_space (c := '+') (by decide),
    blanks?_space (c := '@') (by decide), range?_render]

theorem parseHeader?_eq_none {t : Text} (h : ¬"@@".toList <+: t) : parseHeader? t = none := by
  have hats : ats? t = none := by
    unfold ats?
    split
    · next t => exact absurd ⟨t, rfl⟩ h
    · rfl
  rw [parseHeader?, hats]
  rfl

theorem newline_notMem_renderHeader (short : Bool) (oldStart oldCount newStart newCount : Nat)
    {heading : Text} (h : '\n' ∉ heading) :
    '\n' ∉ renderHeader short oldStart oldCount newStart newCount heading := by
  have hdigits : ∀ n, '\n' ∉ Nat.toDigits 10 n := fun n hn => by
    have := DottedIds.isDigit_toDigits hn
    revert this
    decide
  have hrange : ∀ start count, '\n' ∉ renderRange short start count := by
    intro start count hmem
    rcases List.mem_append.mp hmem with hmem | hmem
    · exact hdigits start hmem
    · split_ifs at hmem
      · cases hmem
      · rcases List.mem_cons.mp hmem with hmem | hmem
        · exact absurd hmem (by decide)
        · exact hdigits count hmem
  simp [renderHeader, hrange, h]

theorem newline_notMem_render {l : BodyLine} (h : '\n' ∉ l.line.text) : ∀ t ∈ l.render, '\n' ∉ t := by
  intro t ht
  rcases List.mem_cons.mp ht with rfl | ht
  · have hstarts : '\n' ≠ prefixOf l.kind := by cases l.kind <;> decide
    simp [hstarts, h]
  · split_ifs at ht
    · cases ht
    · obtain rfl := List.mem_singleton.mp ht
      decide

theorem newline_notMem_renderParts {parts : List Part} {o n : Nat}
    (hheading : ∀ p ∈ parts, ∀ c ∈ p.hunk.heading, isLineTerminator c = false)
    (hlines : ∀ p ∈ parts, ∀ l ∈ p.hunk.body, '\n' ∉ l.line.text) :
    ∀ t ∈ renderParts o n parts, '\n' ∉ t := by
  induction parts generalizing o n with
  | nil => simp [renderParts]
  | cons p ps ih =>
      intro t ht
      rcases List.mem_append.mp ht with ht | ht
      · rcases List.mem_cons.mp ht with rfl | ht
        · refine newline_notMem_renderHeader _ _ _ _ _ fun hmem => ?_
          exact absurd (hheading p (by simp) '\n' hmem) (by decide)
        · obtain ⟨l, hl, ht⟩ := List.mem_flatMap.mp ht
          exact newline_notMem_render (hlines p (by simp) l hl) t ht
      · exact ih (fun q hq => hheading q (List.mem_cons_of_mem _ hq))
          (fun q hq => hlines q (List.mem_cons_of_mem _ hq)) t ht

theorem Diff.WellFormed.splitOn_text {d : Diff} (h : d.WellFormed) : d.text.splitOn '\n' = d.lines := by
  refine List.splitOn_intercalate '\n' (fun t ht => ?_) ?_
  · simp only [Diff.lines, List.mem_append] at ht
    rcases ht with (ht | ht) | ht
    · exact (h.header t ht).1
    · exact newline_notMem_renderParts h.heading h.lines t ht
    · split_ifs at ht
      · obtain rfl := List.mem_singleton.mp ht
        simp
      · cases ht
  · obtain ⟨t, ht, -⟩ := h.oldHeader
    exact List.ne_nil_of_mem (List.mem_append_left _ (List.mem_append_left _ ht))

end UnifiedDiff
