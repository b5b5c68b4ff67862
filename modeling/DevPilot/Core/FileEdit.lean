import DevPilot.Lib.Slices
import DevPilot.Lib.TextLines
import Mathlib.Data.List.DropRight

/-!
The Edit tool: how it finds the text to replace, and what becomes of the rest of the file.
-/

namespace DevPilot.FileEdit

open TextLines

def quoteMap : List (Char × Char) :=
  [('\u2018', '\''), ('\u2019', '\''), ('\u201c', '"'), ('\u201d', '"'), ('\u2032', '\''),
    ('\u2033', '"'),
    ('\u00ab', '"'), ('\u00bb', '"')]

def normalizeQuotes (text : List Char) : List Char := text.map fun c => (quoteMap.lookup c).getD c

def find (text needle : List Char) : Option ℕ := text.tails.findIdx? (needle.isPrefixOf ·)

def rstrip (line : List Char) : List Char := line.rdropWhile isSpace

/-- `"\n".join(line.rstrip() for line in text.split("\n"))`. -/
def stripLines (text : List Char) : List Char := ['\n'].intercalate ((text.splitOn '\n').map rstrip)

def slice (text : List Char) (start length : ℕ) : List Char := (text.drop start).take length

def findActualString (fileContent searchString : List Char) : Option (List Char) :=
  if Slices.contains fileContent searchString then some searchString
  else match find (normalizeQuotes fileContent) (normalizeQuotes searchString) with
    | some idx => some (slice fileContent idx searchString.length)
    | none =>
        let searchStripped := stripLines searchString
        (find (stripLines fileContent) searchStripped).map fun idx =>
          slice fileContent idx searchStripped.length

/-- `s` is in the file, and is the search string under the normalisation of the stage that
matched. -/
def IsMatch (fileContent searchString s : List Char) : Prop :=
  s <:+: fileContent ∧
    if Slices.contains fileContent searchString then s = searchString
    else if (find (normalizeQuotes fileContent) (normalizeQuotes searchString)).isSome then
      normalizeQuotes s = normalizeQuotes searchString
    else stripLines s = stripLines searchString

theorem isPrefix_drop_of_find {text needle : List Char} {idx : ℕ} (h : find text needle = some idx) :
    needle <+: text.drop idx := by
  obtain ⟨hidx, hmatch, -⟩ := List.findIdx?_eq_some_iff_getElem.mp h
  rw [List.getElem_tails] at hmatch
  exact List.isPrefixOf_iff_prefix.mp hmatch

theorem slice_isInfix (text : List Char) (start length : ℕ) : slice text start length <:+: text :=
  (List.take_prefix _ _).isInfix.trans (List.drop_suffix _ _).isInfix

theorem length_normalizeQuotes (text : List Char) : (normalizeQuotes text).length = text.length :=
    List.length_map _

theorem normalizeQuotes_slice {text needle : List Char} {idx : ℕ}
    (h : find (normalizeQuotes text) (normalizeQuotes needle) = some idx) :
    normalizeQuotes (slice text idx needle.length) = normalizeQuotes needle := by
  have hprefix := isPrefix_drop_of_find h
  rw [slice, normalizeQuotes, List.map_take, List.map_drop]
  have htake := List.prefix_iff_eq_take.mp hprefix
  rw [length_normalizeQuotes] at htake
  exact htake.symm

theorem notMem_of_mem_splitOn {sep : Char} {text line : List Char} (h : line ∈ text.splitOn sep) :
    sep ∉ line := by
  induction text generalizing line with
  | nil =>
      rw [List.splitOn_nil, List.mem_singleton] at h
      simp [h]
  | cons c text ih =>
      rw [List.splitOn_cons_eq_if_modifyHead] at h
      split_ifs at h with hc
      · rcases List.mem_cons.mp h with rfl | h
        · exact List.not_mem_nil
        · exact ih h
      · obtain ⟨first, rest, hsplit⟩ := List.exists_cons_of_ne_nil (List.splitOn_ne_nil sep text)
        rw [hsplit, List.modifyHead_cons] at h
        rw [hsplit] at ih
        rcases List.mem_cons.mp h with rfl | h
        · rw [List.mem_cons, not_or]
          exact ⟨fun heq => hc (by simp [heq]), ih List.mem_cons_self⟩
        · exact ih (List.mem_cons_of_mem _ h)

theorem splitOn_stripLines (text : List Char) : (stripLines text).splitOn '\n' =
    (text.splitOn '\n').map rstrip := by
  refine List.splitOn_intercalate '\n' (fun line hline => ?_) (by simp)
  obtain ⟨line', hline', rfl⟩ := List.mem_map.mp hline
  exact fun h => notMem_of_mem_splitOn hline' ((List.rdropWhile_prefix isSpace line').subset h)

theorem stripLines_stripLines (text : List Char) : stripLines (stripLines text) =
    stripLines text := by
  rw [stripLines, splitOn_stripLines, List.map_map, stripLines]
  congr 1
  exact List.map_congr_left fun line _ => List.rdropWhile_idempotent isSpace line

theorem intercalate_sublist (sep : List Char) {xs ys : List (List Char)}
    (h : List.Forall₂ List.Sublist xs ys) :
    (sep.intercalate xs).Sublist (sep.intercalate ys) := by
  induction h with
  | nil => exact List.Sublist.refl _
  | @cons x y xs ys hxy h ih =>
      cases h with
      | nil => simpa using hxy
      | cons _ _ =>
          rw [List.intercalate_cons_cons, List.intercalate_cons_cons]
          exact (hxy.append (List.Sublist.refl sep)).append ih

theorem stripLines_sublist (text : List Char) : (stripLines text).Sublist text := by
  have hlines : List.Forall₂ List.Sublist ((text.splitOn '\n').map rstrip) (text.splitOn '\n') := by
    rw [List.forall₂_map_left_iff, List.forall₂_same]
    exact fun line _ => (List.rdropWhile_prefix isSpace line).sublist
  have hsub := intercalate_sublist ['\n'] hlines
  rwa [List.intercalate_splitOn] at hsub

theorem stripLines_eq_iff {s search : List Char} (h : s.length ≤ (stripLines search).length) :
    stripLines s = stripLines search ↔ s = stripLines search := by
  constructor
  · intro heq
    have hsame := (stripLines_sublist s).eq_of_length (by
      have := (stripLines_sublist s).length_le
      rw [heq] at this ⊢
      omega)
    exact hsame.symm.trans heq
  · rintro rfl
    exact stripLines_stripLines search

/-- The third stage is right where the stripped search string also stands in the file as it
is, at the place where it stands in the stripped file. -/
theorem findActualString_isMatch_iff (fileContent searchString : List Char) :
    (∀ s, findActualString fileContent searchString = some s → IsMatch fileContent searchString s) ↔
      searchString <:+: fileContent ∨
        (find (normalizeQuotes fileContent) (normalizeQuotes searchString)).isSome ∨
        ∀ idx, find (stripLines fileContent) (stripLines searchString) = some idx →
          stripLines searchString <+: fileContent.drop idx := by
  rw [← Slices.contains_iff]
  unfold findActualString IsMatch
  cases hexact : Slices.contains fileContent searchString with
  | true =>
      simp only [if_true, Option.some.injEq, forall_eq', and_true]
      exact iff_of_true ((Slices.contains_iff _ _).mp hexact) (.inl trivial)
  | false =>
      cases hquotes : find (normalizeQuotes fileContent) (normalizeQuotes searchString) with
      | some idx =>
          refine iff_of_true (fun s hs => ?_) (.inr (.inl rfl))
          obtain rfl := Option.some.inj hs
          exact ⟨slice_isInfix _ _ _, normalizeQuotes_slice hquotes⟩
      | none =>
          cases hstripped : find (stripLines fileContent) (stripLines searchString) with
          | none => simp [hstripped]
          | some idx =>
              have hlength : (slice fileContent idx (stripLines searchString).length).length ≤
                  (stripLines searchString).length := List.length_take_le _ _
              simp only [Bool.false_eq_true, if_false, Option.map_some, Option.some.injEq,
                forall_eq',
                Option.isSome_none, false_or, hstripped]
              rw [and_iff_right (slice_isInfix _ _ _), stripLines_eq_iff hlength,
                List.prefix_iff_eq_take, slice, eq_comm]

theorem slice_misses_trailing_space :
    ¬ ∀ (fileContent searchString s : List Char),
      findActualString fileContent searchString = some s → IsMatch fileContent searchString s := by
  intro h
  have hmatch := (h "a  \nb".toList "a\nb".toList "a  ".toList (by decide)).2
  revert hmatch
  decide

section

variable {α β : Type} (key : α → Char)

/-- `xs` from the left, with `none` for each of the first `limit` occurrences of the needle;
`skip` elements belong to the occurrence before them. -/
def pieces (needle : List Char) : ℕ → ℕ → List α → List (Option α)
  | _, limit, [] => if needle = [] ∧ 0 < limit then [none] else []
  | skip + 1, limit, _ :: xs => pieces needle skip limit xs
  | 0, limit, x :: xs =>
      if 0 < limit ∧ needle.isPrefixOf ((x :: xs).map key) then
        if needle = [] then none :: some x :: pieces needle 0 (limit - 1) xs
        else none :: pieces needle (needle.length - 1) (limit - 1) xs
      else some x :: pieces needle 0 limit xs

/-- The elements that are kept, and `new` in place of each occurrence. -/
def fill (keep : α → List β) (new : List β) (ps : List (Option α)) : List β :=
  ps.flatMap fun p => p.elim new keep

theorem map_pieces (needle : List Char) (skip limit : ℕ) (xs : List α) :
    (pieces key needle skip limit xs).map (Option.map key) = pieces (fun c => c) needle skip limit
      (xs.map key) := by
  induction xs generalizing skip limit with
  | nil =>
      rw [List.map_nil, pieces, pieces]
      split_ifs <;> rfl
  | cons x xs ih =>
      cases skip with
      | succ skip => exact ih skip limit
      | zero =>
          rw [List.map_cons, pieces, pieces, List.map_id', List.map_cons]
          split_ifs
          · rw [List.map_cons, List.map_cons, ih]
            rfl
          · rw [List.map_cons, ih]
            rfl
          · rw [List.map_cons, ih]
            rfl

end

def count (text needle : List Char) : ℕ :=
    (pieces (fun c => c) needle 0 (text.length + 1) text).countP Option.isNone

/-- `text.replace(old, new)`, or `text.replace(old, new, 1)`. -/
def replace (all : Bool) (text old new : List Char) : List Char :=
  fill (fun c => [c]) new (pieces (fun c => c) old 0 (if all then text.length + 1 else 1) text)

/-- What is at the path, and what reading it gives. -/
inductive EditedFile
  | missing
  | unreadable (message : String)
  | text (raw : List Char)

inductive EditOutcome
  | error (message : String)
  | edited (message : String) (file : List Char)

def notFoundMessage (filePath : String) (content old : List Char) : String :=
  let stripped := strip old
  let firstLine := ((old.splitOn '\n').head?).getD []
  if !stripped.isEmpty && 0 < count content stripped then
    "Error: old_string not found in " ++ filePath ++ ". However, a stripped version was found " ++
      toString (count content stripped) ++
        " time(s). Check indentation and leading/trailing whitespace. " ++
      "Use Read to see the exact file content."
  else if !firstLine.isEmpty && Slices.contains content firstLine then
    "Error: old_string not found in " ++ filePath ++
      ". The first line was found but the full multi-line " ++
      "match failed. The file may have changed. Use Read to get the current content."
  else
    "Error: old_string not found in " ++ filePath ++
      ". Use Read to view the current file contents before editing."

def actualOldString (content old : List Char) : Option (List Char) :=
  if count content old = 0 then (findActualString content old).filter (· ≠ old) else some old

def editedMessage (filePath : String) (replacements : ℕ) : String :=
  "Successfully edited " ++ filePath ++ " (" ++ toString replacements ++ " replacement" ++
    (if replacements > 1 then "s" else "") ++ ")."

/-- `FileEditTool.execute`; files are read and written in text mode, where a line break is
written as it is. -/
def fileEdit (filePath : String) (file : EditedFile) (writeError : Option String)
    (oldString newString : List Char)
    (replaceAll : Bool) : EditOutcome :=
  if oldString = newString then .error
    "Error: old_string and new_string are identical. No change needed."
  else match file with
    | .missing => .error ("Error: File not found: " ++ filePath)
    | .unreadable message => .error ("Error reading file: " ++ message)
    | .text raw =>
        let content := universalNewlines raw
        match actualOldString content oldString with
        | none => .error (notFoundMessage filePath content oldString)
        | some old =>
            let n := count content old
            if n > 1 ∧ replaceAll = false then
              .error ("Error: old_string appears " ++ toString n ++ " times in " ++ filePath ++
                ". Provide more surrounding context to make it unique, or set replace_all=true to replace " ++
                "all occurrences.")
            else match writeError with
              | some message => .error ("Error writing file: " ++ message)
              | none => .edited (editedMessage filePath (if replaceAll then n else 1))
                  (replace replaceAll content old newString)

/-- A character of the text, with the characters of the file it was read from. -/
inductive FileChar
  | crlf
  | cr
  | other (c : Char)

def FileChar.read : FileChar → Char
  | .other c => c
  | _ => '\n'

def FileChar.raw : FileChar → List Char
  | .crlf => ['\r', '\n']
  | .cr => ['\r']
  | .other c => [c]

def fileChars : List Char → List FileChar
  | [] => []
  | '\r' :: '\n' :: s => .crlf :: fileChars s
  | c :: s => (if c = '\r' then .cr else .other c) :: fileChars s

theorem map_read_fileChars (s : List Char) : (fileChars s).map FileChar.read =
    universalNewlines s := by
  induction s using fileChars.induct with
  | case1 => rfl
  | case2 s ih =>
      rw [fileChars, universalNewlines, List.map_cons, ih]
      rfl
  | case3 c s hcrlf ih =>
      rw [fileChars.eq_3 _ _ hcrlf, universalNewlines.eq_3 _ _ hcrlf, List.map_cons, ih]
      split_ifs <;> rfl

/-- The file with the occurrences replaced, and all other characters as they were. -/
def editedInPlace (replaceAll : Bool) (raw old new : List Char) : List Char :=
  fill FileChar.raw new
    (pieces FileChar.read old 0 (if replaceAll then (universalNewlines raw).length + 1 else 1)
    (fileChars raw))

theorem fill_raw_eq_iff {new : List Char} (ps : List (Option FileChar))
    (hps : ∀ c, some (.other c) ∈ ps → c ≠ '\r') :
    fill (fun c => [c]) new (ps.map (Option.map FileChar.read)) = fill FileChar.raw new ps ↔
      ∀ x, some x ∈ ps → x ≠ .crlf ∧ x ≠ .cr := by
  induction ps with
  | nil => simp [fill]
  | cons p ps ih =>
      have ih := ih fun c hc => hps c (List.mem_cons_of_mem _ hc)
      rw [fill, fill, List.map_cons, List.flatMap_cons, List.flatMap_cons]
      cases p with
      | none => simpa [fill] using ih
      | some x =>
          cases x with
          | crlf => simp [FileChar.read, FileChar.raw]
          | cr => simp [FileChar.read, FileChar.raw]
          | other c => simpa [FileChar.read, FileChar.raw, fill] using ih

theorem mem_of_mem_pieces {α : Type} {key : α → Char} {needle : List Char} {skip limit : ℕ}
    {xs : List α} {x : α}
    (h : some x ∈ pieces key needle skip limit xs) : x ∈ xs := by
  induction xs generalizing skip limit with
  | nil =>
      rw [pieces] at h
      split_ifs at h <;> simp at h
  | cons y xs ih =>
      cases skip with
      | succ skip => exact List.mem_cons_of_mem _ (ih h)
      | zero =>
          rw [pieces] at h
          split_ifs at h
          · rcases List.mem_cons.mp ((List.mem_cons.mp h).resolve_left (Option.some_ne_none x)) with
              heq | h
            · exact Option.some.inj heq ▸ List.mem_cons_self
            · exact List.mem_cons_of_mem _ (ih h)
          · exact List.mem_cons_of_mem _
              (ih ((List.mem_cons.mp h).resolve_left (Option.some_ne_none x)))
          · rcases List.mem_cons.mp h with heq | h
            · exact Option.some.inj heq ▸ List.mem_cons_self
            · exact List.mem_cons_of_mem _ (ih h)

theorem other_ne_of_mem_fileChars {s : List Char} {c : Char} (h : FileChar.other c ∈ fileChars s) :
    c ≠ '\r' := by
  induction s using fileChars.induct with
  | case1 => cases h
  | case2 s ih =>
      rw [fileChars] at h
      exact ih ((List.mem_cons.mp h).resolve_left (by simp))
  | case3 d s hcrlf ih =>
      rw [fileChars.eq_3 _ _ hcrlf] at h
      rcases List.mem_cons.mp h with heq | h
      · split_ifs at heq with hd
        obtain rfl := FileChar.other.inj heq
        exact hd
      · exact ih h

def keptChars (replaceAll : Bool) (raw old : List Char) : List FileChar :=
  (pieces FileChar.read old 0 (if replaceAll then (universalNewlines raw).length + 1 else 1)
    (fileChars raw)).filterMap id

theorem replace_eq_editedInPlace_iff (replaceAll : Bool) (raw old new : List Char) :
    replace replaceAll (universalNewlines raw) old new = editedInPlace replaceAll raw old new ↔
      ∀ x ∈ keptChars replaceAll raw old, x ≠ .crlf ∧ x ≠ .cr := by
  rw [replace, editedInPlace, ← map_read_fileChars, List.length_map, ← map_pieces, fill_raw_eq_iff]
  · simp only [keptChars, List.mem_filterMap, id_eq, exists_eq_right, ← map_read_fileChars,
      List.length_map]
  · exact fun c hc => other_ne_of_mem_fileChars (mem_of_mem_pieces hc)

/-- An edit leaves the rest of the file as it was if no line break written with a carriage
return stands outside the replaced occurrences. -/
theorem fileEdit_keepsRest_iff {filePath : String} {raw oldString newString edited : List Char}
    {writeError : Option String} {replaceAll : Bool} {message : String}
    (h : fileEdit filePath (.text raw) writeError oldString newString replaceAll =
      .edited message edited) :
    ∃ old, actualOldString (universalNewlines raw) oldString = some old ∧
      (edited = editedInPlace replaceAll raw old newString ↔
        ∀ x ∈ keptChars replaceAll raw old, x ≠ .crlf ∧ x ≠ .cr) := by
  rw [fileEdit] at h
  by_cases hsame : oldString = newString
  · rw [if_pos hsame] at h
    cases h
  rw [if_neg hsame] at h
  dsimp only at h
  cases hold : actualOldString (universalNewlines raw) oldString with
  | none =>
      rw [hold] at h
      cases h
  | some old =>
      rw [hold] at h
      dsimp only at h
      by_cases hmany : count (universalNewlines raw) old > 1 ∧ replaceAll = false
      · rw [if_pos hmany] at h
        cases h
      rw [if_neg hmany] at h
      cases writeError with
      | some message' => cases h
      | none =>
          obtain ⟨-, rfl⟩ := EditOutcome.edited.inj h
          exact ⟨old, rfl, replace_eq_editedInPlace_iff replaceAll raw old newString⟩

theorem fileEdit_keepsRest_lineFeeds :
    fileEdit "a.txt" (.text "a\nb\n".toList) none "a".toList "c".toList false =
        .edited (editedMessage "a.txt" 1) "c\nb\n".toList ∧
      ∃ old, actualOldString (universalNewlines "a\nb\n".toList) "a".toList = some old ∧
        ("c\nb\n".toList = editedInPlace false "a\nb\n".toList old "c".toList ↔
          ∀ x ∈ keptChars false "a\nb\n".toList old, x ≠ .crlf ∧ x ≠ .cr) :=
  ⟨rfl, fileEdit_keepsRest_iff (show fileEdit "a.txt" (.text "a\nb\n".toList) none "a".toList
    "c".toList false =
    .edited (editedMessage "a.txt" 1) "c\nb\n".toList from rfl)⟩

theorem fileEdit_rewrites_lineBreaks :
    ¬ ∀ (filePath message : String) (raw oldString newString edited old : List Char)
      (writeError : Option String)
        (replaceAll : Bool),
      fileEdit filePath (.text raw) writeError oldString newString replaceAll =
        .edited message edited →
      actualOldString (universalNewlines raw) oldString = some old → edited =
        editedInPlace replaceAll raw old newString := by
  intro h
  have hsame := h "a.txt" (editedMessage "a.txt" 1) "a\r\nb\r\n".toList "a".toList "c".toList
    "c\nb\n".toList "a".toList
    none false rfl rfl
  revert hsame
  decide

end DevPilot.FileEdit
