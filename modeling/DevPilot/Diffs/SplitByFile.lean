import DevPilot.Lib.BlankText
import DevPilot.Lib.MarkedLines
import DevPilot.Lib.UnifiedDiff

/-!
Cutting a unified diff into the diffs of its files: the boundaries that are looked for, and
which concatenations of diffs come apart again.
-/

namespace DevPilot.Diffs.SplitByFile

open UnifiedDiff MarkedLines BlankText

/-- `value.replace(/\r\n/g, '\n')`. -/
def normalizeNewlines : Text → Text
  | [] => []
  | '\r' :: '\n' :: t => '\n' :: normalizeNewlines t
  | c :: t => c :: normalizeNewlines t

def diffGit : Text := "diff --git ".toList

def oldPath : Text := "--- ".toList

def newPath : Text := "+++ ".toList

/-- The loop over `indexOf('\ndiff --git ', cursor)`. -/
def headerOffsets : Nat → Text → List Nat
  | _, [] => []
  | idx, c :: t =>
      if ('\n' :: diffGit).isPrefixOf (c :: t) then (idx + 1) :: headerOffsets (idx + 1) t
      else headerOffsets (idx + 1) t

/-- The loop over the lines of a diff without `diff --git`. -/
def pairOffsets (prevLineStart : Nat) (prevLine : Text) (cursor : Nat) : List Text → List Nat
  | [] => []
  | line :: lines =>
      let next := pairOffsets cursor line (cursor + (line.length + 1)) lines
      if oldPath.isPrefixOf prevLine && newPath.isPrefixOf line then prevLineStart :: next else next

def collectBoundaryOffsets (normalized : Text) : List Nat :=
  let boundaries := (if diffGit.isPrefixOf normalized then [0] else []) ++ headerOffsets 0 normalized
  if boundaries ≠ [] then boundaries else pairOffsets 0 [] 0 (normalized.splitOn '\n')

def splitUnifiedDiffByFile (unifiedDiff : Text) : List Text :=
  let normalized := normalizeNewlines unifiedDiff
  if trim isBlank normalized = [] then []
  else
    let boundaries := collectBoundaryOffsets normalized
    if boundaries = [] then [trimEnd isBlank normalized]
    else ((cuts normalized boundaries).map (trimEnd isBlank)).filter (· ≠ [])

/-- A line of a hunk, without the character that shows what it is. -/
inductive Row
  | line (kind : Kind) (text : Text)
  | noNewline

def Row.render : Row → Text
  | .line kind text => prefixOf kind :: text
  | .noNewline => marker

structure FileHunk where
  /-- What follows the first `@@`. -/
  ranges : Text
  body : List Row

def FileHunk.lines (h : FileHunk) : List Text := ('@' :: '@' :: h.ranges) :: h.body.map Row.render

structure FileChange where
  old : Text
  new : Text
  hunks : List FileHunk

def FileChange.lines (c : FileChange) : List Text :=
  (oldPath ++ c.old) :: (newPath ++ c.new) :: c.hunks.flatMap FileHunk.lines

/-- A header starts with `diff --git`; its other lines, such as those of a rename, do not.
Without a header there are the paths. -/
inductive FileDiff
  | git (paths : Text) (extended : List Text) (change : Option FileChange)
  | plain (change : FileChange)

namespace FileDiff

def lines : FileDiff → List Text
  | git paths extended change =>
      (diffGit ++ paths) :: extended ++ (change.map FileChange.lines).getD []
  | plain change => change.lines

/-- Every line has its line end; a carriage return before it is part of the line. -/
def text (d : FileDiff) : Text := unlines '\n' d.lines

def IsGit : FileDiff → Prop
  | git .. => True
  | plain _ => False

end FileDiff

structure SingleFileDiff where
  diff : FileDiff
  newline_notMem : ∀ l ∈ diff.lines, '\n' ∉ l
  extended_plain : ∀ paths extended change, diff = .git paths extended change →
    ∀ l ∈ extended, ¬diffGit <+: l

/-- Two lines of a hunk that look like the paths of a diff: a removed `-- …`, then an added `++ …`. -/
def LikePaths : Row → Row → Prop
  | .line .delete removed, .line .add added => "-- ".toList <+: removed ∧ "++ ".toList <+: added
  | _, _ => False

def FileDiff.Plain : FileDiff → Prop
  | .git .. => False
  | .plain change => ∀ h ∈ change.hunks, h.body.IsChain fun a b => ¬LikePaths a b

def SplitsBack (ds : List SingleFileDiff) : Prop :=
  splitUnifiedDiffByFile (ds.flatMap (·.diff.text)) =
    ds.map fun d => trimEnd isBlank (normalizeNewlines d.diff.text)

def dropReturn : Text → Text
  | [] => []
  | [c] => if c = '\r' then [] else [c]
  | c :: d :: l => c :: dropReturn (d :: l)

theorem normalizeNewlines_line {l : Text} (h : '\n' ∉ l) (t : Text) :
    normalizeNewlines (l ++ '\n' :: t) = dropReturn l ++ '\n' :: normalizeNewlines t := by
  induction l using dropReturn.induct with
  | case1 => simp [normalizeNewlines, dropReturn]
  | case2 =>  simp [normalizeNewlines, dropReturn]
  | case3 c hc =>
      rw [dropReturn, if_neg hc, List.singleton_append, normalizeNewlines]
      · simp [normalizeNewlines]
      · rintro _ rfl
        exact absurd rfl hc
  | case4 c d l ih =>
      have hd : d ≠ '\n' := by
        rintro rfl
        simp at h
      have hnext := ih (fun hmem => h (List.mem_cons_of_mem _ hmem))
      rw [dropReturn, List.cons_append, List.cons_append, normalizeNewlines]
      · rw [← List.cons_append, hnext, List.cons_append]
      · rintro t' - heq
        exact hd (List.cons.inj heq).1

theorem normalizeNewlines_unlines {lines : List Text} (h : ∀ l ∈ lines, '\n' ∉ l) :
    normalizeNewlines (unlines '\n' lines) = unlines '\n' (lines.map dropReturn) := by
  induction lines with
  | nil => rfl
  | cons l ls ih =>
      rw [unlines_cons, normalizeNewlines_line (h l List.mem_cons_self),
        ih fun l hl => h l (List.mem_cons_of_mem _ hl), List.map_cons, unlines_cons]

theorem dropReturn_isPrefix (l : Text) : dropReturn l <+: l := by
  induction l using dropReturn.induct with
  | case1 => exact List.prefix_rfl
  | case2 => exact List.nil_prefix
  | case3 c hc => rw [dropReturn, if_neg hc]
  | case4 c d l ih => exact List.cons_prefix_cons.mpr ⟨rfl, ih⟩

theorem isPrefix_dropReturn {p l : Text} (hp : '\r' ∉ p) : p <+: dropReturn l ↔ p <+: l := by
  refine ⟨fun h => h.trans (dropReturn_isPrefix l), fun h => ?_⟩
  induction l using dropReturn.induct generalizing p with
  | case1 => exact h
  | case2 =>
      cases p with
      | nil => exact List.nil_prefix
      | cons c p =>
          obtain ⟨rfl, -⟩ := List.cons_prefix_cons.mp h
          simp at hp
  | case3 c hc => rwa [dropReturn, if_neg hc]
  | case4 c d l ih =>
      cases p with
      | nil => exact List.nil_prefix
      | cons c' p =>
          obtain ⟨rfl, hrest⟩ := List.cons_prefix_cons.mp h
          refine List.cons_prefix_cons.mpr ⟨rfl, ih (fun hmem => hp ?_) hrest⟩
          exact List.mem_cons_of_mem _ hmem

theorem headerOffsets_line {l : Text} (h : '\n' ∉ l) (pos : Nat) (t : Text) :
    headerOffsets pos (l ++ '\n' :: t) =
      (if diffGit.isPrefixOf t then [pos + (l.length + 1)] else []) ++
        headerOffsets (pos + (l.length + 1)) t := by
  induction l generalizing pos with
  | nil =>
      rw [List.nil_append, headerOffsets, List.isPrefixOf_cons_cons, beq_self_eq_true, Bool.true_and]
      split_ifs <;> rfl
  | cons c l ih =>
      have hc : ('\n' == c) = false := by
        rw [beq_eq_false_iff_ne]
        rintro rfl
        simp at h
      rw [List.cons_append, headerOffsets, List.isPrefixOf_cons_cons, hc, Bool.false_and,
        if_neg Bool.false_ne_true, ih fun hmem => h (List.mem_cons_of_mem _ hmem)]
      simp only [List.length_cons, Nat.add_assoc, Nat.add_comm 1]

def headerMarks (lines : List Text) : Marked Char := lines.map fun l => (diffGit.isPrefixOf l, l)

theorem isPrefixOf_line {p l : Text} (hp : '\n' ∉ p) (t : Text) :
    p.isPrefixOf (l ++ '\n' :: t) = p.isPrefixOf l := by
  induction p generalizing l with
  | nil => rfl
  | cons c p ih =>
      cases l with
      | nil =>
          have hc : (c == '\n') = false := by
            rw [beq_eq_false_iff_ne]
            rintro rfl
            simp at hp
          rw [List.nil_append, List.isPrefixOf_cons_cons, hc]
          rfl
      | cons d l =>
          rw [List.cons_append, List.isPrefixOf_cons_cons, List.isPrefixOf_cons_cons,
            ih fun hmem => hp (List.mem_cons_of_mem _ hmem)]

theorem headerOffsets_unlines {lines : List Text} (h : ∀ l ∈ lines, '\n' ∉ l) (pos : Nat) :
    (if diffGit.isPrefixOf (unlines '\n' lines) then [pos] else []) ++
      headerOffsets pos (unlines '\n' lines) = offsets pos (headerMarks lines) := by
  induction lines generalizing pos with
  | nil => rfl
  | cons l ls ih =>
      have hrest := ih (fun l hl => h l (List.mem_cons_of_mem _ hl)) (pos + (l.length + 1))
      have hmarks : headerMarks (l :: ls) = (diffGit.isPrefixOf l, l) :: headerMarks ls := rfl
      rw [unlines_cons, isPrefixOf_line (by decide), headerOffsets_line (h l List.mem_cons_self), hrest,
        hmarks, offsets]
      split_ifs <;> rfl

def Paths (l l' : Text) : Prop := oldPath <+: l ∧ newPath <+: l'

instance (l l' : Text) : Decidable (Paths l l') := inferInstanceAs (Decidable (_ ∧ _))

/-- Lines marked where they are the first of two paths. -/
def pathMarks : List Text → Marked Char
  | [] => []
  | l :: ls => (ls.head?.any fun l' => decide (Paths l l'), l) :: pathMarks ls

theorem pairOffsets_eq (start : Nat) (prev : Text) (lines : List Text) :
    pairOffsets start prev (start + (prev.length + 1)) (lines ++ [[]]) =
      offsets start (pathMarks (prev :: lines)) := by
  induction lines generalizing start prev with
  | nil => simp [pairOffsets, pathMarks, offsets, newPath]
  | cons l ls ih =>
      have hmarks : pathMarks (prev :: l :: ls) = (decide (Paths prev l), prev) :: pathMarks (l :: ls) := rfl
      rw [List.cons_append, pairOffsets, ih, hmarks, offsets]
      have hpaths : (oldPath.isPrefixOf prev && newPath.isPrefixOf l) = decide (Paths prev l) := by
        rw [Bool.eq_iff_iff, Bool.and_eq_true, List.isPrefixOf_iff_prefix, List.isPrefixOf_iff_prefix,
          decide_eq_true_iff, Paths]
      rw [hpaths]

theorem pairOffsets_lines (lines : List Text) :
    pairOffsets 0 [] 0 (lines ++ [[]]) = offsets 0 (pathMarks lines) := by
  cases lines with
  | nil => rfl
  | cons l ls =>
      have hnext := pairOffsets_eq 0 l ls
      rw [Nat.zero_add] at hnext
      rw [List.cons_append, pairOffsets, Nat.zero_add, hnext]
      rfl

/-- The lines that `collectBoundaryOffsets` starts a file at. -/
def marks (lines : List Text) : Marked Char :=
  if ∃ l ∈ lines, diffGit <+: l then headerMarks lines else pathMarks lines

theorem map_snd_pathMarks (lines : List Text) : (pathMarks lines).map Prod.snd = lines := by
  induction lines with
  | nil => rfl
  | cons l ls ih => rw [pathMarks, List.map_cons, ih]

theorem map_snd_marks (lines : List Text) : (marks lines).map Prod.snd = lines := by
  rw [marks]
  split_ifs
  · rw [headerMarks, List.map_map]
    exact List.map_id lines
  · exact map_snd_pathMarks lines

theorem offsets_eq_nil {ms : Marked Char} {pos : Nat} : offsets pos ms = [] ↔ ∀ m ∈ ms, m.1 = false := by
  induction ms generalizing pos with
  | nil => simp [offsets]
  | cons m ms ih =>
      obtain ⟨marked, line⟩ := m
      cases marked <;> simp [offsets, ih]

theorem collectBoundaryOffsets_unlines {lines : List Text} (h : ∀ l ∈ lines, '\n' ∉ l) :
    collectBoundaryOffsets (unlines '\n' lines) = offsets 0 (marks lines) := by
  have hgit : offsets 0 (headerMarks lines) ≠ [] ↔ ∃ l ∈ lines, diffGit <+: l := by
    rw [ne_eq, offsets_eq_nil]
    simp [headerMarks, List.isPrefixOf_iff_prefix]
  rw [collectBoundaryOffsets, headerOffsets_unlines h, splitOn_unlines h, pairOffsets_lines, marks]
  by_cases hany : ∃ l ∈ lines, diffGit <+: l
  · rw [if_pos (hgit.mpr hany), if_pos hany]
  · rw [if_neg (mt hgit.mp hany), if_neg hany]

def Visible (l : Text) : Prop := ∃ c t, l = c :: t ∧ isBlank c = false

theorem visible_of_isPrefix {p l : Text} (h : p <+: l) (hp : Visible p) : Visible l := by
  obtain ⟨rest, rfl⟩ := h
  obtain ⟨c, t, rfl, hc⟩ := hp
  exact ⟨c, t ++ rest, rfl, hc⟩

theorem visible_of_mem_marks {lines : List Text} {l : Text} (h : (true, l) ∈ marks lines) : Visible l := by
  rw [marks] at h
  split_ifs at h
  · obtain ⟨l', -, heq⟩ := List.mem_map.mp h
    obtain ⟨hstarts, rfl⟩ := Prod.mk.inj heq
    exact visible_of_isPrefix (List.isPrefixOf_iff_prefix.mp hstarts) ⟨'d', _, rfl, by decide⟩
  · clear * - h
    induction lines with
    | nil => cases h
    | cons l' ls ih =>
        rcases List.mem_cons.mp h with heq | h
        · obtain ⟨hany, rfl⟩ := Prod.mk.inj heq
          obtain ⟨next, hpaths⟩ := (Option.any_eq_true_iff_get _ _).mp hany.symm
          exact visible_of_isPrefix (of_decide_eq_true hpaths).1 ⟨'-', _, rfl, by decide⟩
        · exact ih h

theorem splitUnifiedDiffByFile_unlines {lines : List Text} (h : ∀ l ∈ lines, '\n' ∉ l)
    (hmarked : ∃ l, (true, l) ∈ marks (lines.map dropReturn)) :
    splitUnifiedDiffByFile (unlines '\n' lines) =
      (MarkedLines.blocks (marks (lines.map dropReturn))).map fun b => trimEnd isBlank (unlines '\n' b) := by
  have hlines : ∀ l ∈ lines.map dropReturn, '\n' ∉ l := by
    intro l hl
    obtain ⟨l', hl', rfl⟩ := List.mem_map.mp hl
    exact fun hmem => h l' hl' ((dropReturn_isPrefix l').subset hmem)
  have hvisible : trim isBlank (unlines '\n' (lines.map dropReturn)) ≠ [] := by
    obtain ⟨l, hl⟩ := hmarked
    have hmem : l ∈ lines.map dropReturn := by
      rw [← map_snd_marks (lines.map dropReturn)]
      exact List.mem_map_of_mem hl
    obtain ⟨c, t, rfl, hc⟩ := visible_of_mem_marks hl
    refine trim_ne_nil_of_mem (List.mem_flatMap.mpr ⟨_, hmem, ?_⟩) hc
    exact List.mem_append_left _ List.mem_cons_self
  have hsome : offsets 0 (marks (lines.map dropReturn)) ≠ [] := by
    rw [ne_eq, offsets_eq_nil]
    obtain ⟨l, hl⟩ := hmarked
    exact fun hnone => Bool.noConfusion (hnone _ hl)
  have hcuts := @cuts_offsets _ '\n' [] (marks (lines.map dropReturn))
  rw [map_snd_marks, List.nil_append, List.length_nil] at hcuts
  rw [splitUnifiedDiffByFile, normalizeNewlines_unlines h, if_neg hvisible,
    collectBoundaryOffsets_unlines hlines, if_neg hsome, hcuts, List.map_map]
  refine List.filter_eq_self.mpr fun t ht => ?_
  obtain ⟨block, hblock, rfl⟩ := List.mem_map.mp ht
  obtain ⟨line, rest, rfl, hmark⟩ := head_of_mem_blocks hblock
  obtain ⟨c, t, rfl, hc⟩ := visible_of_mem_marks hmark
  rw [decide_eq_true_iff, Function.comp_apply, unlines_cons, List.cons_append]
  exact trimEnd_ne_nil hc

theorem pathMarks_append {lines lines' : List Text} (h : ∀ l ∈ lines'.head?, ¬newPath <+: l) :
    pathMarks (lines ++ lines') = pathMarks lines ++ pathMarks lines' := by
  induction lines with
  | nil => rfl
  | cons l ls ih =>
      rw [List.cons_append, pathMarks, pathMarks, ih, List.cons_append]
      cases ls with
      | cons => rfl
      | nil =>
          have hnone : (lines'.head?.any fun l' => decide (Paths l l')) = false := by
            rw [Option.any_eq_false]
            intro l' hl'
            exact decide_eq_false fun hpaths => h l' hl' hpaths.2
          rw [List.nil_append, hnone]
          rfl

theorem pathMarks_eq_iff {lines : List Text} :
    pathMarks lines = lines.map (false, ·) ↔ lines.IsChain fun l l' => ¬Paths l l' := by
  induction lines with
  | nil => simp [pathMarks]
  | cons l ls ih =>
      rw [pathMarks, List.map_cons, List.cons_eq_cons, List.isChain_cons, ih, Prod.mk.injEq,
        and_iff_left rfl, Option.any_eq_false]
      simp

theorem exists_mark_of_ne {lines : List Text} (h : pathMarks lines ≠ lines.map (false, ·)) :
    0 < (pathMarks lines).countP Prod.fst := by
  rw [List.countP_pos_iff]
  by_contra hnone
  refine h ?_
  have hfst : ∀ m ∈ pathMarks lines, m.1 = false := fun m hm =>
    Bool.eq_false_iff.mpr fun hmark => hnone ⟨m, hm, hmark⟩
  conv_rhs => rw [← map_snd_pathMarks lines, List.map_map]
  refine (List.map_id _).symm.trans (List.map_congr_left fun m hm => ?_)
  exact Prod.ext (hfst m hm) rfl

theorem oldPath_render (a : Row) :
    oldPath <+: a.render ↔ ∃ removed, a = .line .delete removed ∧ "-- ".toList <+: removed := by
  rcases a with ⟨kind, removed⟩ | _
  · have hold : oldPath = '-' :: "-- ".toList := by decide
    rw [Row.render, hold, List.cons_prefix_cons]
    cases kind <;> simp [prefixOf]
  · exact iff_of_false (by decide) (by simp)

theorem newPath_render (b : Row) :
    newPath <+: b.render ↔ ∃ added, b = .line .add added ∧ "++ ".toList <+: added := by
  rcases b with ⟨kind, added⟩ | _
  · have hnew : newPath = '+' :: "++ ".toList := by decide
    rw [Row.render, hnew, List.cons_prefix_cons]
    cases kind <;> simp [prefixOf]
  · exact iff_of_false (by decide) (by simp)

theorem paths_render (a b : Row) : Paths a.render b.render ↔ LikePaths a b := by
  rw [Paths, oldPath_render, newPath_render]
  constructor
  · rintro ⟨⟨removed, rfl, hremoved⟩, added, rfl, hadded⟩
    exact ⟨hremoved, hadded⟩
  · intro h
    rcases a with ⟨_ | _ | _, removed⟩ | _ <;> try exact h.elim
    rcases b with ⟨_ | _ | _, added⟩ | _ <;> try exact h.elim
    exact ⟨⟨removed, rfl, h.1⟩, added, rfl, h.2⟩

theorem paths_dropReturn (l l' : Text) : Paths (dropReturn l) (dropReturn l') ↔ Paths l l' := by
  rw [Paths, isPrefix_dropReturn (by decide), isPrefix_dropReturn (by decide), Paths]

theorem isChain_hunks {hunks : List FileHunk} :
    (hunks.flatMap FileHunk.lines).IsChain (fun l l' => ¬Paths l l') ↔
      ∀ h ∈ hunks, h.body.IsChain fun a b => ¬LikePaths a b := by
  induction hunks with
  | nil => simp
  | cons h hunks ih =>
      have hbody : h.lines.IsChain (fun l l' => ¬Paths l l') ↔ h.body.IsChain fun a b => ¬LikePaths a b := by
        have hstart : ∀ l ∈ (h.body.map Row.render).head?, ¬Paths ('@' :: '@' :: h.ranges) l :=
          fun l _ hpaths => by simpa [oldPath] using hpaths.1
        rw [FileHunk.lines, List.isChain_cons, and_iff_right hstart, List.isChain_map]
        simp only [paths_render]
      have hnext : ∀ l ∈ h.lines.getLast?, ∀ l' ∈ (hunks.flatMap FileHunk.lines).head?, ¬Paths l l' := by
        intro l _ l' hl' hpaths
        cases hunks with
        | nil => cases hl'
        | cons h' hunks =>
            obtain rfl := Option.some.inj hl'
            simpa [newPath] using hpaths.2
      rw [List.flatMap_cons, List.isChain_append, hbody, ih, List.forall_mem_cons]
      exact ⟨fun hall => ⟨hall.1, hall.2.1⟩, fun hall => ⟨hall.1, hall.2, hnext⟩⟩

theorem not_diffGit_change (change : FileChange) : ∀ l ∈ change.lines, ¬diffGit <+: l := by
  have hhead : ∀ l ∈ change.lines, l.head? ≠ some 'd' := by
    intro l hl
    rw [FileChange.lines, List.mem_cons, List.mem_cons, List.mem_flatMap] at hl
    rcases hl with rfl | rfl | ⟨h, -, hl⟩
    · change some '-' ≠ some 'd'
      decide
    · change some '+' ≠ some 'd'
      decide
    · rcases List.mem_cons.mp hl with rfl | hl
      · change some '@' ≠ some 'd'
        decide
      · obtain ⟨row, -, rfl⟩ := List.mem_map.mp hl
        rcases row with ⟨kind, text⟩ | _
        · cases kind <;> simp [Row.render, prefixOf]
        · decide
  rintro l hl ⟨rest, rfl⟩
  exact hhead _ hl rfl

namespace SingleFileDiff

def seen (d : SingleFileDiff) : List Text := d.diff.lines.map dropReturn

theorem headerMarks_seen {d : SingleFileDiff} (h : d.diff.IsGit) : headerMarks d.seen = markFirst d.seen := by
  cases hdiff : d.diff with
  | plain change =>
      rw [hdiff] at h
      exact h.elim
  | git paths extended change =>
      have hfirst : diffGit <+: dropReturn (diffGit ++ paths) :=
        (isPrefix_dropReturn (by decide)).mpr (List.prefix_append ..)
      have hchange : ∀ l ∈ (change.map FileChange.lines).getD [], ¬diffGit <+: l := by
        cases change with
        | none => simp
        | some change => exact not_diffGit_change change
      rw [seen, hdiff, FileDiff.lines, List.cons_append, List.map_cons, markFirst, headerMarks,
        List.map_cons, List.isPrefixOf_iff_prefix.mpr hfirst]
      refine congrArg _ (List.map_congr_left fun l hl => Prod.ext ?_ rfl)
      obtain ⟨l', hl', rfl⟩ := List.mem_map.mp hl
      rw [Bool.eq_false_iff, ne_eq, List.isPrefixOf_iff_prefix, isPrefix_dropReturn (by decide)]
      rcases List.mem_append.mp hl' with hl' | hl'
      · exact d.extended_plain paths extended change hdiff l' hl'
      · exact hchange l' hl'

theorem not_diffGit {d : SingleFileDiff} (h : ¬d.diff.IsGit) : ∀ l ∈ d.seen, ¬diffGit <+: l := by
  cases hdiff : d.diff with
  | git =>
      rw [hdiff] at h
      exact absurd trivial h
  | plain change =>
      intro l hl
      rw [seen, hdiff] at hl
      obtain ⟨l', hl', rfl⟩ := List.mem_map.mp hl
      rw [isPrefix_dropReturn (by decide)]
      exact not_diffGit_change change l' hl'

theorem seen_plain {d : SingleFileDiff} (h : ¬d.diff.IsGit) :
    ∃ o n rest, d.seen = o :: n :: rest ∧ Paths o n ∧
      ((n :: rest).IsChain (fun l l' => ¬Paths l l') ↔ d.diff.Plain) := by
  cases hdiff : d.diff with
  | git =>
      rw [hdiff] at h
      exact absurd trivial h
  | plain change =>
      have hpaths : Paths (dropReturn (oldPath ++ change.old)) (dropReturn (newPath ++ change.new)) :=
        (paths_dropReturn _ _).mpr ⟨List.prefix_append .., List.prefix_append ..⟩
      have hstart : ∀ l ∈ ((change.hunks.flatMap FileHunk.lines).map dropReturn).head?,
          ¬Paths (dropReturn (newPath ++ change.new)) l := by
        intro l _ hpaths
        obtain ⟨rest, hrest⟩ := (isPrefix_dropReturn (by decide)).mp hpaths.1
        have hheads : some '-' = some '+' := congrArg List.head? hrest
        cases hheads
      refine ⟨_, _, _, by rw [seen, hdiff]; rfl, hpaths, ?_⟩
      rw [List.isChain_cons, and_iff_right hstart, List.isChain_map]
      simp only [paths_dropReturn]
      exact isChain_hunks

theorem pathMarks_seen_iff {d : SingleFileDiff} (h : ¬d.diff.IsGit) :
    pathMarks d.seen = markFirst d.seen ↔ d.diff.Plain := by
  obtain ⟨o, n, rest, hseen, hpaths, hplain⟩ := seen_plain h
  have hfirst : pathMarks (o :: n :: rest) = (true, o) :: pathMarks (n :: rest) := by
    rw [pathMarks, List.head?_cons, Option.any_some, decide_eq_true hpaths]
  rw [hseen, hfirst, markFirst, List.cons_inj_right, pathMarks_eq_iff, hplain]

theorem countP_pathMarks {d : SingleFileDiff} (h : ¬d.diff.IsGit) :
    0 < (pathMarks d.seen).countP Prod.fst ∧ (¬d.diff.Plain → 1 < (pathMarks d.seen).countP Prod.fst) := by
  obtain ⟨o, n, rest, hseen, hpaths, hplain⟩ := seen_plain h
  have hcount : (pathMarks d.seen).countP Prod.fst = (pathMarks (n :: rest)).countP Prod.fst + 1 := by
    rw [hseen, pathMarks, List.head?_cons, Option.any_some, decide_eq_true hpaths]
    exact List.countP_cons_of_pos rfl
  rw [hcount]
  refine ⟨Nat.succ_pos _, fun hnot => Nat.succ_lt_succ (exists_mark_of_ne ?_)⟩
  exact fun hnone => hnot (hplain.mp (pathMarks_eq_iff.mp hnone))

theorem seen_ne_nil (d : SingleFileDiff) : d.seen ≠ [] := by
  rw [seen, ne_eq, List.map_eq_nil_iff]
  cases d.diff <;> simp [FileDiff.lines, FileChange.lines]

theorem head_seen {d : SingleFileDiff} (h : ¬d.diff.IsGit) : ∀ l ∈ d.seen.head?, ¬newPath <+: l := by
  obtain ⟨o, n, rest, hseen, ⟨⟨t, rfl⟩, -⟩, -⟩ := seen_plain h
  rintro l hl ⟨t', rfl⟩
  rw [hseen] at hl
  have hheads : some '-' = some '+' := congrArg (·.bind List.head?) hl
  cases hheads

theorem normalizeNewlines_text (d : SingleFileDiff) :
    normalizeNewlines d.diff.text = unlines '\n' d.seen :=
  normalizeNewlines_unlines d.newline_notMem

end SingleFileDiff

open SingleFileDiff

theorem marks_of_git {ds : List SingleFileDiff} (h : ∃ d ∈ ds, d.diff.IsGit) :
    marks (ds.flatMap seen) = ds.flatMap fun d => headerMarks d.seen := by
  have hany : ∃ l ∈ ds.flatMap seen, diffGit <+: l := by
    obtain ⟨d, hd, hgit⟩ := h
    obtain ⟨l, rest, hseen⟩ := List.exists_cons_of_ne_nil d.seen_ne_nil
    refine ⟨l, List.mem_flatMap.mpr ⟨d, hd, hseen ▸ List.mem_cons_self⟩, ?_⟩
    have hmarks := headerMarks_seen hgit
    rw [hseen, headerMarks, List.map_cons, markFirst, List.cons.injEq, Prod.mk.injEq] at hmarks
    exact List.isPrefixOf_iff_prefix.mp hmarks.1.1
  rw [marks, if_pos hany, headerMarks, List.map_flatMap]
  rfl

theorem marks_of_plain {ds : List SingleFileDiff} (h : ∀ d ∈ ds, ¬d.diff.IsGit) :
    marks (ds.flatMap seen) = ds.flatMap fun d => pathMarks d.seen := by
  have hnone : ¬∃ l ∈ ds.flatMap seen, diffGit <+: l := by
    rintro ⟨l, hl, hgit⟩
    obtain ⟨d, hd, hl⟩ := List.mem_flatMap.mp hl
    exact not_diffGit (h d hd) l hl hgit
  rw [marks, if_neg hnone]
  clear hnone
  induction ds with
  | nil => rfl
  | cons d ds ih =>
      have hrest := ih fun d hd => h d (List.mem_cons_of_mem _ hd)
      rw [List.flatMap_cons, List.flatMap_cons, pathMarks_append, hrest]
      intro l hl
      cases ds with
      | nil => cases hl
      | cons d' ds =>
          obtain ⟨l', rest, hseen⟩ := List.exists_cons_of_ne_nil d'.seen_ne_nil
          refine head_seen (h d' (by simp)) l ?_
          rw [List.flatMap_cons, hseen] at hl
          rwa [hseen]

theorem countP_headerMarks (d : SingleFileDiff) :
    (headerMarks d.seen).countP Prod.fst ≤ 1 ∧
      (¬d.diff.IsGit → (headerMarks d.seen).countP Prod.fst < 1) := by
  have hplain : ¬d.diff.IsGit → (headerMarks d.seen).countP Prod.fst = 0 := by
    intro h
    rw [List.countP_eq_zero]
    intro m hm hmark
    obtain ⟨l, hl, rfl⟩ := List.mem_map.mp hm
    exact not_diffGit h l hl (List.isPrefixOf_iff_prefix.mp hmark)
  refine ⟨?_, fun h => (hplain h).trans_lt Nat.one_pos⟩
  by_cases h : d.diff.IsGit
  · obtain ⟨l, rest, hseen⟩ := List.exists_cons_of_ne_nil d.seen_ne_nil
    rw [headerMarks_seen h, hseen, markFirst, List.countP_cons_of_pos rfl, List.countP_map]
    simp
  · exact (hplain h).trans_le (Nat.zero_le 1)

theorem length_blocks_of_git {ds : List SingleFileDiff} (h : ∃ d ∈ ds, d.diff.IsGit)
    (h' : ∃ d ∈ ds, ¬d.diff.IsGit) : (MarkedLines.blocks (marks (ds.flatMap seen))).length < ds.length := by
  rw [length_blocks, marks_of_git h, List.countP_flatMap]
  obtain ⟨d, hd, hplain⟩ := h'
  have hlt := List.sum_lt_sum (l := ds) (fun d => (headerMarks d.seen).countP Prod.fst) (fun _ => 1)
    (fun d _ => (countP_headerMarks d).1) ⟨d, hd, (countP_headerMarks d).2 hplain⟩
  simpa [Function.comp_def] using hlt

theorem length_blocks_of_plain {ds : List SingleFileDiff} (h : ∀ d ∈ ds, ¬d.diff.IsGit)
    (h' : ∃ d ∈ ds, ¬d.diff.Plain) : ds.length < (MarkedLines.blocks (marks (ds.flatMap seen))).length := by
  rw [length_blocks, marks_of_plain h, List.countP_flatMap]
  obtain ⟨d, hd, hlike⟩ := h'
  have hlt := List.sum_lt_sum (l := ds) (fun _ => 1) (fun d => (pathMarks d.seen).countP Prod.fst)
    (fun d hd => (countP_pathMarks (h d hd)).1) ⟨d, hd, (countP_pathMarks (h d hd)).2 hlike⟩
  simpa [Function.comp_def] using hlt

theorem blocks_eq {ds : List SingleFileDiff} (h : marks (ds.flatMap seen) = ds.flatMap fun d => markFirst d.seen) :
    MarkedLines.blocks (marks (ds.flatMap seen)) = ds.map seen := by
  have hpieces := @blocks_markFirst _ (ds.map seen) fun p hp => by
    obtain ⟨d, -, rfl⟩ := List.mem_map.mp hp
    exact d.seen_ne_nil
  rw [h, ← hpieces, List.flatMap_map]

theorem map_blocks_iff (f : List Text → Text) (ds : List SingleFileDiff) :
    (MarkedLines.blocks (marks (ds.flatMap seen))).map f = (ds.map seen).map f ↔
      (∀ d ∈ ds, d.diff.IsGit) ∨ ∀ d ∈ ds, d.diff.Plain := by
  have hexclusive : ∀ d : SingleFileDiff, d.diff.Plain → ¬d.diff.IsGit := by
    rintro ⟨diff, -, -⟩
    cases diff
    · exact fun h => h.elim
    · exact fun _ h => h
  by_cases hgit : ∃ d ∈ ds, d.diff.IsGit
  · have hplain : ¬∀ d ∈ ds, d.diff.Plain := fun hall => by
      obtain ⟨d, hd, hg⟩ := hgit
      exact hexclusive d (hall d hd) hg
    rw [or_iff_left hplain]
    constructor
    · intro heq
      by_contra hnot
      have hlt := length_blocks_of_git hgit (by push Not at hnot; exact hnot)
      have hlength := congrArg List.length heq
      simp only [List.length_map] at hlength
      exact hlt.ne hlength
    · intro hall
      refine congrArg _ (blocks_eq ?_)
      rw [marks_of_git hgit]
      exact List.flatMap_congr fun d hd => headerMarks_seen (hall d hd)
  · have hnone : ∀ d ∈ ds, ¬d.diff.IsGit := fun d hd hg => hgit ⟨d, hd, hg⟩
    constructor
    · intro heq
      refine .inr ?_
      by_contra hnot
      have hlt := length_blocks_of_plain hnone (by push Not at hnot; exact hnot)
      have hlength := congrArg List.length heq
      simp only [List.length_map] at hlength
      exact hlt.ne' hlength
    · intro hall
      refine congrArg _ (blocks_eq ?_)
      rw [marks_of_plain hnone]
      refine List.flatMap_congr fun d hd => (pathMarks_seen_iff (hnone d hd)).mpr ?_
      exact hall.resolve_left (fun hg => hnone d hd (hg d hd)) d hd

theorem exists_mark {ds : List SingleFileDiff} (h : ds ≠ []) : ∃ l, (true, l) ∈ marks (ds.flatMap seen) := by
  by_cases hgit : ∃ d ∈ ds, d.diff.IsGit
  · rw [marks_of_git hgit]
    obtain ⟨d, hd, hg⟩ := hgit
    obtain ⟨l, rest, hseen⟩ := List.exists_cons_of_ne_nil d.seen_ne_nil
    refine ⟨l, List.mem_flatMap.mpr ⟨d, hd, ?_⟩⟩
    rw [headerMarks_seen hg, hseen]
    exact List.mem_cons_self
  · have hnone : ∀ d ∈ ds, ¬d.diff.IsGit := fun d hd hg => hgit ⟨d, hd, hg⟩
    rw [marks_of_plain hnone]
    obtain ⟨d, hd⟩ := List.exists_mem_of_ne_nil ds h
    obtain ⟨⟨marked, l⟩, hmem, hmark⟩ := List.countP_pos_iff.mp (countP_pathMarks (hnone d hd)).1
    obtain rfl : marked = true := hmark
    exact ⟨l, List.mem_flatMap.mpr ⟨d, hd, hmem⟩⟩

theorem splitUnifiedDiffByFile_diffs (ds : List SingleFileDiff) :
    splitUnifiedDiffByFile (ds.flatMap (·.diff.text)) =
      (MarkedLines.blocks (marks (ds.flatMap seen))).map fun b => trimEnd isBlank (unlines '\n' b) := by
  by_cases hds : ds = []
  · subst hds
    rfl
  have htext : ds.flatMap (·.diff.text) = unlines '\n' (ds.flatMap (·.diff.lines)) :=
    List.flatMap_assoc.symm
  have hseen : (ds.flatMap (·.diff.lines)).map dropReturn = ds.flatMap seen := List.map_flatMap
  have hlines : ∀ l ∈ ds.flatMap (·.diff.lines), '\n' ∉ l := by
    intro l hl
    obtain ⟨d, -, hl⟩ := List.mem_flatMap.mp hl
    exact d.newline_notMem l hl
  rw [htext, splitUnifiedDiffByFile_unlines hlines (hseen ▸ exists_mark hds), hseen]

/-- A concatenation of diffs comes apart into them exactly if all of them have a header, or
none has one and no hunk has two lines that look like paths. -/
theorem splitsBack_iff (ds : List SingleFileDiff) :
    SplitsBack ds ↔ (∀ d ∈ ds, d.diff.IsGit) ∨ ∀ d ∈ ds, d.diff.Plain := by
  rw [SplitsBack, splitUnifiedDiffByFile_diffs,
    ← map_blocks_iff (fun b => trimEnd isBlank (unlines '\n' b)), List.map_map]
  simp only [normalizeNewlines_text, Function.comp_def]

/-- The diff of a file in which a comment `-- x` becomes `++ y`. -/
def commentDiff : SingleFileDiff where
  diff := .plain
    { old := "a/q.sql".toList
      new := "b/q.sql".toList
      hunks := [{ ranges := " -1 +1 @@".toList
                  body := [.line .delete "-- x".toList, .line .add "++ y".toList] }] }
  newline_notMem := by decide
  extended_plain := nofun

theorem commentDiff_split : ¬SplitsBack [commentDiff] := by
  intro h
  rw [SplitsBack, splitUnifiedDiffByFile_diffs] at h
  have hmore := @length_blocks_of_plain [commentDiff] (by simp [commentDiff, FileDiff.IsGit])
    ⟨commentDiff, by simp, fun hplain => by
      have hpair := hplain _ (List.mem_singleton_self _)
      rw [List.isChain_pair] at hpair
      exact hpair ⟨List.prefix_append .., List.prefix_append ..⟩⟩
  have hlength := congrArg List.length h
  simp only [List.length_map] at hlength
  exact hmore.ne' hlength

end DevPilot.Diffs.SplitByFile
