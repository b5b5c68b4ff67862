import DevPilot.Lib.Links

/-!
Paths as texts: what `node:path` makes of them, and the moves of a file system
that they stand for.
-/

namespace PathText

open Links

abbrev Text : Type := List Char

theorem lawfulBEq_text : LawfulBEq Text := inferInstance

def dot : Text := ['.']

def dotdot : Text := ['.', '.']

def split (t : Text) : List Text := t.splitOn '/'

def joinNames (names : List Text) : Text := ['/'].intercalate names

/-- The characters that `trim` drops. -/
def isBlank (c : Char) : Bool :=
  c.toNat ∈ [9, 10, 11, 12, 13, 32, 160, 5760, 8232, 8233, 8239, 8287, 12288, 65279] ||
    (8192 ≤ c.toNat && c.toNat ≤ 8202)

def trimEnd (t : Text) : Text := (t.reverse.dropWhile isBlank).reverse

def trim (t : Text) : Text := trimEnd (t.dropWhile isBlank)

def isAbsolute (t : Text) : Bool := t.head? = some '/'

/-- One name of `normalizeString`. -/
def pushName (allowAboveRoot : Bool) (stack : List Text) (name : Text) : List Text :=
  if name = [] ∨ name = dot then stack
  else if name = dotdot then
    if allowAboveRoot && stack.getLast?.all (· = dotdot) then stack ++ [dotdot]
    else stack.dropLast
  else stack ++ [name]

/-- `normalizeString`, on top of the names of `stack`. -/
def normalizeString (allowAboveRoot : Bool) (stack : List Text) (t : Text) : List Text :=
  (split t).foldl (pushName allowAboveRoot) stack

def normalize (t : Text) : Text :=
  if t = [] then dot
  else
    let path := joinNames (normalizeString (!isAbsolute t) [] t)
    let slash := if t.getLast? = some '/' then ['/'] else []
    if path = [] then if isAbsolute t then ['/'] else dot ++ slash
    else if isAbsolute t then '/' :: (path ++ slash)
    else path ++ slash

/-- `resolve(dir, text)`, by names. -/
def resolve (dir : List Text) (t : Text) : List Text :=
  normalizeString false (if isAbsolute t then [] else dir) t

def commonLength : List Text → List Text → Nat
  | a :: as, b :: bs => if a = b then commonLength as bs + 1 else 0
  | _, _ => 0

def relative (source dest : List Text) : Text :=
  let n := commonLength source dest
  joinNames (List.replicate (source.length - n) dotdot ++ dest.drop n)

def move (name : Text) : List (Move Text) :=
  if name = [] ∨ name = dot then [] else if name = dotdot then [.up] else [.into name]

def moves (t : Text) : List (Move Text) := (split t).flatMap move

theorem climb_move (d : List Text) (name : Text) : climb d (move name) = pushName false d name := by
  rw [move, pushName]
  split_ifs <;> simp_all [climb]

theorem resolve_eq_climb (d : List Text) (t : Text) :
    resolve d t = climb (base (isAbsolute t) d) (moves t) := by
  rw [resolve, normalizeString, moves, base]
  generalize (if isAbsolute t = true then [] else d) = d'
  induction split t generalizing d' with
  | nil => rfl
  | cons name names ih =>
      rw [List.foldl_cons, ih, List.flatMap_cons, climb_append, climb_move]

def Up (t : Text) : Prop := t = dotdot ∨ ∃ s, t = dotdot ++ '/' :: s

theorem Up.mem_split {t : Text} (h : Up t) : dotdot ∈ split t := by
  obtain rfl | ⟨s, rfl⟩ := h
  · decide
  · rw [split, List.splitOn, List.splitOnP_append_cons _ _ (by simp)]
    exact List.mem_append_left _ (by decide)

theorem up_joinNames (names : List Text) : Up (joinNames (dotdot :: names)) := by
  cases names with
  | nil => exact .inl (by simp [joinNames, List.intercalate])
  | cons name names => exact .inr ⟨joinNames (name :: names), by
      simp [joinNames, List.intercalate, List.intersperse]⟩

theorem Up.append_slash {t : Text} (h : Up t) (s : Text) : Up (t ++ '/' :: s) := by
  obtain rfl | ⟨s', rfl⟩ := h
  · exact .inr ⟨s, rfl⟩
  · exact .inr ⟨s' ++ '/' :: s, by simp⟩

theorem trimEnd_cons {c : Char} (hc : isBlank c = false) (t : Text) :
    trimEnd (c :: t) = c :: trimEnd t := by
  rw [trimEnd, List.reverse_cons, List.dropWhile_append]
  split_ifs with h
  · rw [List.isEmpty_iff] at h
    simp [trimEnd, h, hc]
  · simp [trimEnd]

theorem Up.trim {t : Text} (h : Up t) : Up (trim t) := by
  have hdot : isBlank '.' = false := by decide
  have hslash : isBlank '/' = false := by decide
  obtain rfl | ⟨s, rfl⟩ := h
  · exact .inl (by decide)
  · refine .inr ⟨trimEnd s, ?_⟩
    have hdrop : (dotdot ++ '/' :: s).dropWhile isBlank = '.' :: '.' :: '/' :: s := by
      simp [dotdot, hdot]
    rw [PathText.trim, hdrop, trimEnd_cons hdot, trimEnd_cons hdot, trimEnd_cons hslash]
    rfl

theorem foldl_pushName_dotdot (names : List Text) (stack : List Text) :
    ∃ stack', names.foldl (pushName true) (dotdot :: stack) = dotdot :: stack' := by
  induction names generalizing stack with
  | nil => exact ⟨stack, rfl⟩
  | cons name names ih =>
      have hpush : ∃ stack', pushName true (dotdot :: stack) name = dotdot :: stack' := by
        rw [pushName]
        split_ifs with h₁ h₂ h₃
        · exact ⟨stack, rfl⟩
        · exact ⟨stack ++ [dotdot], rfl⟩
        · cases stack with
          | nil => exact absurd rfl h₃
          | cons a as => exact ⟨(a :: as).dropLast, rfl⟩
        · exact ⟨stack ++ [name], rfl⟩
      obtain ⟨stack', h⟩ := hpush
      rw [List.foldl_cons, h]
      exact ih stack'

theorem Up.normalize {t : Text} (h : Up t) : Up (normalize t) := by
  have hne : t ≠ [] := by rintro rfl; obtain h | ⟨s, h⟩ := h <;> simp [dotdot] at h
  have habs : isAbsolute t = false := by
    obtain rfl | ⟨s, rfl⟩ := h <;> rfl
  have hnames : ∃ stack, normalizeString true [] t = dotdot :: stack := by
    obtain rfl | ⟨s, rfl⟩ := h
    · exact ⟨[], by decide⟩
    · rw [normalizeString, split, List.splitOn, List.splitOnP_append_cons _ _ (by simp),
        List.foldl_append]
      exact foldl_pushName_dotdot _ []
  obtain ⟨stack, hstack⟩ := hnames
  have hup := up_joinNames stack
  have hpath : joinNames (dotdot :: stack) ≠ [] := fun he => by
    rw [he] at hup
    obtain h | ⟨s, h⟩ := hup <;> simp [dotdot] at h
  simp only [PathText.normalize, if_neg hne, habs, Bool.not_false, hstack, if_neg hpath,
    Bool.false_eq_true, if_false]
  split
  · exact hup.append_slash []
  · rwa [List.append_nil]

theorem commonLength_le (as bs : List Text) : commonLength as bs ≤ as.length := by
  induction as generalizing bs with
  | nil => simp [commonLength]
  | cons a as ih =>
      cases bs with
      | nil => simp [commonLength]
      | cons b bs =>
          rw [commonLength]
          split
          · exact Nat.succ_le_succ (ih bs)
          · simp

theorem prefix_of_commonLength {as bs : List Text} (h : commonLength as bs = as.length) :
    as <+: bs := by
  induction as generalizing bs with
  | nil => exact List.nil_prefix
  | cons a as ih =>
      cases bs with
      | nil => simp [commonLength] at h
      | cons b bs =>
          rw [commonLength] at h
          split at h
          · next hab =>
              subst hab
              exact (List.prefix_cons_inj a).mpr (ih (by simpa using h))
          · simp at h

theorem up_relative {source dest : List Text} (h : ¬source <+: dest) : Up (relative source dest) := by
  have hlt : commonLength source dest < source.length :=
    lt_of_le_of_ne (commonLength_le ..) fun he => h (prefix_of_commonLength he)
  obtain ⟨n, hn⟩ := Nat.exists_eq_add_of_lt hlt
  have hrep : source.length - commonLength source dest = n + 1 := by omega
  simp only [relative, hrep, List.replicate_succ, List.cons_append]
  exact up_joinNames _

end PathText
