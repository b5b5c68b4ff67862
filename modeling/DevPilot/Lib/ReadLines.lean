import DevPilot.Lib.PathText

/-!
The lines that `node:readline` makes of a text, and how many of them are not
blank.
-/

namespace ReadLines

open PathText

/-- The ends of a line, `\r\n` apart. -/
def isLineEnd (c : Char) : Bool := c == '\n' || c == '\r' || c == '\u2028' || c == '\u2029'

def readLines : Text → List Text
  | [] => []
  | '\r' :: '\n' :: s => [] :: readLines s
  | c :: s =>
      if isLineEnd c then [] :: readLines s
      else match readLines s with
        | [] => [[c]]
        | l :: ls => (c :: l) :: ls

def isBlankLine (l : Text) : Bool := (trim l).isEmpty

def filled (ls : List Text) : List Text := ls.filter fun l => !isBlankLine l

theorem readLines_cons {c : Char} (h : isLineEnd c = false) (s : Text) :
    readLines (c :: s) = match readLines s with
      | [] => [[c]]
      | l :: ls => (c :: l) :: ls := by
  have hc : c ≠ '\r' := by rintro rfl; revert h; decide
  rw [readLines.eq_def]
  split
  · contradiction
  · simp_all
  · rename_i heq
    simp only [List.cons.injEq] at heq
    obtain ⟨rfl, rfl⟩ := heq
    simp [h]

theorem readLines_end {c : Char} (h : isLineEnd c = true) (hc : c ≠ '\r') (s : Text) :
    readLines (c :: s) = [] :: readLines s := by
  rw [readLines.eq_def]
  split
  · contradiction
  · simp_all
  · rename_i heq
    simp only [List.cons.injEq] at heq
    obtain ⟨rfl, rfl⟩ := heq
    simp [h]

theorem readLines_line {l : Text} (h : l.all (fun c => !isLineEnd c) = true) {c : Char}
    (hc : isLineEnd c = true) (hr : c ≠ '\r') (s : Text) :
    readLines (l ++ c :: s) = l :: readLines s := by
  induction l with
  | nil => exact readLines_end hc hr s
  | cons d l ih =>
      simp only [List.all_cons, Bool.and_eq_true, Bool.not_eq_true'] at h
      rw [List.cons_append, readLines_cons h.1, ih h.2]

theorem readLines_append {t : Text} (ht : '\r' ∉ t) {c : Char} (hc : isLineEnd c = true)
    (hr : c ≠ '\r') (s : Text) :
    readLines (t ++ c :: s) = readLines (t ++ [c]) ++ readLines s := by
  induction t with
  | nil => rw [List.nil_append, List.nil_append, readLines_end hc hr, readLines_end hc hr]; rfl
  | cons d t ih =>
      obtain ⟨hd, ht⟩ := not_or.mp (mt List.mem_cons.mpr ht)
      rw [List.cons_append, List.cons_append]
      by_cases hend : isLineEnd d = true
      · rw [readLines_end hend (Ne.symm hd), readLines_end hend (Ne.symm hd), ih ht]
        rfl
      · have hend : isLineEnd d = false := by simpa using hend
        rw [readLines_cons hend, readLines_cons hend, ih ht]
        have hne : readLines (t ++ [c]) ≠ [] := by
          cases t with
          | nil => simp [readLines_end hc hr]
          | cons e t =>
              by_cases he : isLineEnd e = true
              · rw [List.cons_append, readLines_end he fun h => ht (by simp [h])]
                simp
              · rw [List.cons_append, readLines_cons (by simpa using he)]
                split <;> simp
        obtain ⟨l, ls, hl⟩ := List.exists_cons_of_ne_nil hne
        simp [hl]

theorem mem_readLines {t : Text} (ht : '\r' ∉ t) {c : Char} (hc : c ∈ t)
    (hend : isLineEnd c = false) : ∃ l ∈ readLines t, c ∈ l := by
  induction t with
  | nil => cases hc
  | cons d t ih =>
      obtain ⟨hd, ht⟩ := not_or.mp (mt List.mem_cons.mpr ht)
      by_cases hdend : isLineEnd d = true
      · have hct : c ∈ t := by
          rcases List.mem_cons.mp hc with rfl | hc
          · simp [hdend] at hend
          · exact hc
        obtain ⟨l, hl, hcl⟩ := ih ht hct
        rw [readLines_end hdend (Ne.symm hd)]
        exact ⟨l, List.mem_cons_of_mem _ hl, hcl⟩
      · rw [readLines_cons (by simpa using hdend)]
        rcases List.mem_cons.mp hc with rfl | hc
        · split
          · exact ⟨[c], by simp, by simp⟩
          · exact ⟨_, List.mem_cons_self, by simp⟩
        · obtain ⟨l, hl, hcl⟩ := ih ht hc
          split
          · next hnil => rw [hnil] at hl; cases hl
          · next l' ls hcons =>
              rw [hcons] at hl
              rcases List.mem_cons.mp hl with rfl | hl
              · exact ⟨_, List.mem_cons_self, by simp [hcl]⟩
              · exact ⟨l, List.mem_cons_of_mem _ hl, hcl⟩

theorem mem_dropWhile {p : Char → Bool} {c : Char} {t : Text} (hc : c ∈ t) (hp : p c = false) :
    c ∈ t.dropWhile p := by
  induction t with
  | nil => cases hc
  | cons d t ih =>
      rw [List.dropWhile_cons]
      split_ifs with hd
      · rcases List.mem_cons.mp hc with rfl | hc
        · simp [hp] at hd
        · exact ih hc
      · exact hc

theorem mem_trim {c : Char} {t : Text} (hc : c ∈ t) (hblank : isBlank c = false) : c ∈ trim t := by
  rw [trim, trimEnd, List.mem_reverse]
  exact mem_dropWhile (List.mem_reverse.mpr (mem_dropWhile hc hblank)) hblank

theorem filled_ne_nil {t : Text} (ht : '\r' ∉ t) {c : Char} (hc : c ∈ t)
    (hend : isLineEnd c = false) (hblank : isBlank c = false) : filled (readLines t) ≠ [] := by
  obtain ⟨l, hl, hcl⟩ := mem_readLines ht hc hend
  have hfilled : isBlankLine l = false := by
    have := mem_trim hcl hblank
    cases htrim : trim l with
    | nil => rw [htrim] at this; cases this
    | cons d ds => simp [isBlankLine, htrim]
  exact List.ne_nil_of_mem (List.mem_filter.mpr ⟨hl, by simp [hfilled]⟩)

end ReadLines
