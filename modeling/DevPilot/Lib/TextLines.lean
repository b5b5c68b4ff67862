import Mathlib.Tactic

/-!
Python's view of text as lines and words: `str.splitlines`, `str.strip`, `str.split` and
the newline translation of text files.
-/

namespace TextLines

/-- The characters at which `str.splitlines` ends a line. -/
def isLineBreak (c : Char) : Bool :=
  c == '\n' || c == '\r' || c == '\x0b' || c == '\x0c' || c == '\x1c' || c == '\x1d' ||
    c == '\x1e' || c == '\u0085' || c == '\u2028' || c == '\u2029'

def isSpace (c : Char) : Bool :=
  isLineBreak c || c == '\t' || c == '\x1f' || c == ' ' || c == '\u00a0' || c == '\u1680' ||
    ('\u2000' ≤ c && c ≤ '\u200a') || c == '\u202f' || c == '\u205f' || c == '\u3000'

def splitlines : List Char → List (List Char)
  | [] => []
  | '\r' :: '\n' :: s => [] :: splitlines s
  | c :: s =>
      if isLineBreak c then [] :: splitlines s
      else match splitlines s with
        | [] => [[c]]
        | l :: ls => (c :: l) :: ls

def strip (s : List Char) : List Char :=
  (s.dropWhile isSpace).reverse.dropWhile isSpace |>.reverse

/-- Text mode reads `\r\n` and `\r` as `\n`. -/
def universalNewlines : List Char → List Char
  | [] => []
  | '\r' :: '\n' :: s => '\n' :: universalNewlines s
  | c :: s => (if c = '\r' then '\n' else c) :: universalNewlines s

theorem isSpace_of_isLineBreak {c : Char} (h : isLineBreak c = true) : isSpace c = true := by
  simp only [isSpace, h, Bool.true_or]

theorem splitlines_cons {c : Char} (h : isLineBreak c = false) (s : List Char) :
    splitlines (c :: s) = match splitlines s with
      | [] => [[c]]
      | l :: ls => (c :: l) :: ls := by
  have hc : c ≠ '\r' := by rintro rfl; revert h; decide
  rw [splitlines.eq_def]
  split
  · contradiction
  · simp_all
  · rename_i heq
    simp only [List.cons.injEq] at heq
    obtain ⟨rfl, rfl⟩ := heq
    simp [h]

theorem splitlines_noBreak {s : List Char} (hne : s ≠ [])
    (h : s.all (fun c => !isLineBreak c) = true) : splitlines s = [s] := by
  induction s with
  | nil => exact absurd rfl hne
  | cons c s ih =>
      simp only [List.all_cons, Bool.and_eq_true, Bool.not_eq_true'] at h
      rw [splitlines_cons h.1]
      cases s with
      | nil => rfl
      | cons d s => rw [ih (by simp) h.2]

/-- The text after a line break; `\r\n` is one break. -/
def afterBreak (c : Char) (s : List Char) : List Char :=
  match c, s with
  | '\r', '\n' :: s => s
  | _, s => s

theorem splitlines_break {c : Char} (hc : isLineBreak c = true) {l : List Char}
    (h : l.all (fun c => !isLineBreak c) = true) (s : List Char) :
    splitlines (l ++ c :: s) = l :: splitlines (afterBreak c s) := by
  induction l with
  | nil =>
      rw [List.nil_append, splitlines.eq_def, afterBreak.eq_def]
      split
      · contradiction
      · rename_i heq
        simp only [List.cons.injEq] at heq
        obtain ⟨rfl, rfl⟩ := heq
        rfl
      · rename_i hcr heq
        simp only [List.cons.injEq] at heq
        obtain ⟨rfl, rfl⟩ := heq
        rw [if_pos hc]
        split
        · simp_all
        · rfl
  | cons d l ih =>
      simp only [List.all_cons, Bool.and_eq_true, Bool.not_eq_true'] at h
      rw [List.cons_append, splitlines_cons h.1, ih h.2]

theorem splitlines_line {l : List Char} (h : l.all (fun c => !isLineBreak c) = true) (s : List Char) :
    splitlines (l ++ '\n' :: s) = l :: splitlines s := by
  rw [splitlines_break (by decide) h]
  rfl

theorem firstLine_cases (s : List Char) :
    (s.all (fun c => !isLineBreak c) = true) ∨
      ∃ l c r, s = l ++ c :: r ∧ isLineBreak c = true ∧ l.all (fun c => !isLineBreak c) = true := by
  induction s with
  | nil => exact .inl rfl
  | cons c s ih =>
      cases hc : isLineBreak c with
      | true => exact .inr ⟨[], c, s, rfl, hc, rfl⟩
      | false =>
          rcases ih with h | ⟨l, d, r, rfl, hd, hl⟩
          · exact .inl (by simp [hc] at h ⊢; exact h)
          · exact .inr ⟨c :: l, d, r, rfl, hd, by simp [hc] at hl ⊢; exact hl⟩

theorem afterBreak_cases (c : Char) (s : List Char) :
    afterBreak c s = s ∨ ∃ d, isLineBreak d = true ∧ s = d :: afterBreak c s := by
  unfold afterBreak
  split
  · exact .inr ⟨'\n', by decide, rfl⟩
  · exact .inl rfl

theorem splitlines_induction {P : List Char → Prop}
    (hcut : ∀ a c b, isLineBreak c = true → P (a ++ c :: b) → P a ∧ P b) (s : List Char) (h : P s) :
    ∀ l ∈ splitlines s, P l ∧ l.all (fun c => !isLineBreak c) = true := by
  induction hn : s.length using Nat.strong_induction_on generalizing s with
  | _ n ih =>
      intro l hl
      rcases firstLine_cases s with hs | ⟨l₀, c, r, rfl, hc, hl₀⟩
      · rcases eq_or_ne s [] with rfl | hne
        · exact absurd hl List.not_mem_nil
        · rw [splitlines_noBreak hne hs, List.mem_singleton] at hl
          exact hl ▸ ⟨h, hs⟩
      · obtain ⟨ha, hb⟩ := hcut l₀ c r hc h
        rw [splitlines_break hc hl₀, List.mem_cons] at hl
        rcases hl with rfl | hl
        · exact ⟨ha, hl₀⟩
        · have hafter : P (afterBreak c r) ∧ (afterBreak c r).length ≤ r.length := by
            rcases afterBreak_cases c r with he | ⟨d, hd, he⟩
            · exact he.symm ▸ ⟨hb, le_refl _⟩
            · refine ⟨(hcut [] d _ hd (by rwa [List.nil_append, ← he])).2, ?_⟩
              have := congrArg List.length he
              rw [List.length_cons] at this
              omega
          refine ih _ ?_ _ hafter.1 rfl l hl
          simp only [List.length_append, List.length_cons] at hn
          omega

theorem universalNewlines_eq_self {s : List Char} (h : '\r' ∉ s) : universalNewlines s = s := by
  induction s using universalNewlines.induct with
  | case1 => rfl
  | case2 s ih => simp at h
  | case3 c s hcr ih =>
      simp only [List.mem_cons, not_or] at h
      rw [universalNewlines]
      · simp [Ne.symm h.1, ih h.2]
      · exact hcr

theorem strip_eq_self {s : List Char} (hh : ∀ c ∈ s.head?, isSpace c = false)
    (hl : ∀ c ∈ s.getLast?, isSpace c = false) : strip s = s := by
  have h1 : s.dropWhile isSpace = s := by
    cases s with
    | nil => rfl
    | cons c s => exact List.dropWhile_cons_of_neg (by simp [hh c (by simp)])
  have h2 : s.reverse.dropWhile isSpace = s.reverse := by
    cases hr : s.reverse with
    | nil => rfl
    | cons c t =>
        refine List.dropWhile_cons_of_neg ?_
        have : s.getLast? = some c := by rw [← List.head?_reverse, hr]; rfl
        simp [hl c (by simp [this])]
  rw [strip]
  rw [h1, h2, List.reverse_reverse]

theorem strip_decomposition (s : List Char) :
    ∃ pre post, s = pre ++ (strip s ++ post) ∧ pre.all isSpace = true ∧ post.all isSpace = true := by
  refine ⟨s.takeWhile isSpace, ((s.dropWhile isSpace).reverse.takeWhile isSpace).reverse, ?_,
    List.all_takeWhile, ?_⟩
  · have h := congrArg List.reverse
      (List.takeWhile_append_dropWhile (p := isSpace) (l := (s.dropWhile isSpace).reverse))
    rw [List.reverse_append, List.reverse_reverse] at h
    rw [strip]
    rw [h, List.takeWhile_append_dropWhile]
  · simp

/-- `str.split` without a separator. -/
def words : List Char → List (List Char)
  | [] => []
  | c :: s =>
      if isSpace c then words s
      else match s with
        | [] => [[c]]
        | d :: _ =>
            if isSpace d then [c] :: words s
            else match words s with
              | [] => [[c]]
              | w :: ws => (c :: w) :: ws

theorem words_head {s : List Char} (h : ∃ c ∈ s, isSpace c = false) :
    ∃ c w ws, words s = (c :: w) :: ws := by
  induction s with
  | nil => simp at h
  | cons c s ih =>
      rw [words.eq_def]
      dsimp only
      split_ifs with hc
      · apply ih
        obtain ⟨d, hd, hspace⟩ := h
        rcases List.mem_cons.mp hd with rfl | hd
        · rw [hc] at hspace
          cases hspace
        · exact ⟨d, hd, hspace⟩
      · split
        · exact ⟨c, [], [], rfl⟩
        · split_ifs
          · exact ⟨c, [], _, rfl⟩
          · split
            · exact ⟨c, [], [], rfl⟩
            · exact ⟨c, _, _, rfl⟩

theorem exists_not_isSpace_of_strip {s : List Char} (h : strip s ≠ []) :
    ∃ c ∈ strip s, isSpace c = false := by
  have hne : (s.dropWhile isSpace).reverse.dropWhile isSpace ≠ [] := by
    intro hnil
    exact h (by rw [strip, hnil, List.reverse_nil])
  refine ⟨_, ?_, List.head_dropWhile_not isSpace hne⟩
  rw [strip, List.mem_reverse]
  exact List.head_mem hne

end TextLines
