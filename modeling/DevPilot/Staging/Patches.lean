import DevPilot.Staging.EmittedHunks

/-!
The patch of a well-formed diff: its header lines, one hunk for each hunk with a selected
change, and a last line end.
-/

namespace DevPilot.Staging

open UnifiedDiff DevPilot.Diffs

variable {keys : Finset SelectedDiffLineKey} {mode : PatchSelectionMode}

namespace Placed

def isSelected (keys : Finset SelectedDiffLineKey) (p : Placed) : Bool :=
  (p.marked keys).any Prod.snd

def text (keys : Finset SelectedDiffLineKey) (mode : PatchSelectionMode) (p : Placed) : List Text :=
  if p.isSelected keys then
    renderHeader false (firstRefs mode p.oldStart p.newStart (p.marked keys)).1
      ((selectedBody mode (p.marked keys)).countP BodyLine.isOld)
      (firstRefs mode p.oldStart p.newStart (p.marked keys)).2
      ((selectedBody mode (p.marked keys)).countP BodyLine.isNew)
      (headingSuffix (trim p.hunk.heading)) ::
      (emittedBody mode false p.oldStart p.newStart (p.marked keys)).map EmittedHunkLine.text
  else []

end Placed

theorem counted_startOf (o n : Nat) (h : Hunk) :
    Counted (startOf o h.oldCount) (startOf n h.newCount) h.body where
  old := by
    rw [startOf]
    split_ifs with hcount
    · refine .inr fun l hl hkind => ?_
      exact List.countP_eq_zero.mp hcount l hl (by simp [BodyLine.isOld, hkind])
    · exact .inl (Nat.succ_pos o)
  new := by
    rw [startOf]
    split_ifs with hcount
    · refine .inr fun l hl hkind => ?_
      exact List.countP_eq_zero.mp hcount l hl (by simp [BodyLine.isNew, hkind])
    · exact .inl (Nat.succ_pos n)

theorem counted_placed {parts : List Part} {o n : Nat} :
    ∀ p ∈ placed o n parts, Counted p.oldStart p.newStart p.hunk.body := by
  induction parts generalizing o n with
  | nil => simp [placed]
  | cons part parts ih =>
      intro p hp
      rcases List.mem_cons.mp hp with rfl | hp
      · exact counted_startOf _ _ _
      · exact ih p hp

def tailOf (keys : Finset SelectedDiffLineKey) (trailing : Bool) (hunks : List Placed) : List Text :=
  if hunks.getLast?.any (Placed.isSelected keys) then tailText trailing else []

/-- The lines of the hunk are read as they are when one of them is selected, and none of them is
taken for a selected one otherwise. -/
structure Placed.Read (keys : Finset SelectedDiffLineKey) (p : Placed) : Prop where
  counted : Counted p.oldStart p.newStart p.hunk.body
  plain : p.isSelected keys = true → ∀ l ∈ p.hunk.body, Plain l
  unselected : p.isSelected keys = false →
    ∀ l ∈ parsedBody p.oldStart p.newStart p.hunk.body, Staging.isSelected keys l = false

theorem renderedHunk_placed {p : Placed} (h : p.Read keys) (trailing : Bool) (o' n' : Nat) :
    renderedHunk keys mode ⟨trim p.hunk.heading,
        parsedBody p.oldStart p.newStart p.hunk.body ++ parsedTail trailing o' n'⟩ =
      p.text keys mode ++ if p.isSelected keys then tailText trailing else [] := by
  cases hselected : p.isSelected keys with
  | true =>
      rw [renderedHunk_eq (h.plain hselected) h.counted, Placed.text, hselected]
      exact if_pos hselected
  | false =>
      have htail : ∀ l ∈ parsedTail trailing o' n', Staging.isSelected keys l = false := by
        cases trailing <;> simp [parsedTail, Staging.isSelected]
      rw [renderedHunk_unselected fun l hl => (List.mem_append.mp hl).elim
        (h.unselected hselected l) (htail l), Placed.text, hselected]
      rfl

theorem flatMap_renderedHunk {hunks : List Placed} (trailing : Bool)
    (h : ∀ p ∈ hunks, p.Read keys) :
    (parsedHunks trailing hunks).flatMap (renderedHunk keys mode) =
      hunks.flatMap (Placed.text keys mode) ++ tailOf keys trailing hunks := by
  induction hunks with
  | nil => rfl
  | cons p ps ih =>
      have hp := h p List.mem_cons_self
      cases ps with
      | nil =>
          rw [parsedHunks, List.flatMap_singleton, renderedHunk_placed hp, List.flatMap_singleton]
          rfl
      | cons q qs =>
          have hfirst := @renderedHunk_placed keys mode p hp false 0 0
          have hnone : parsedTail false 0 0 = [] := rfl
          rw [hnone, List.append_nil] at hfirst
          rw [parsedHunks, List.flatMap_cons, hfirst,
            ih fun p' hp' => h p' (List.mem_cons_of_mem _ hp'), List.flatMap_cons]
          · simp [tailText, tailOf]
          · simp

def headerLinesOf (d : Diff) : List Text :=
  normalizedHeaderLines d.header ((d.header.find? (startsWith "--- ")).getD [])
    ((d.header.find? (startsWith "+++ ")).getD [])

def patchLines (keys : Finset SelectedDiffLineKey) (mode : PatchSelectionMode) (d : Diff) : List Text :=
  headerLinesOf d ++ (placed 0 0 d.parts).flatMap (Placed.text keys mode) ++ [[]]

theorem isHunkHeader_of_header {t : Text} (h : IsHeaderLine t) : isHunkHeader t = false := by
  have hnone : parseHunkHeader t = none := parseHunkHeader_eq_none fun hstarts => by
    obtain ⟨rest, rfl⟩ := hstarts
    exact h.2.1 ⟨rest, rfl⟩
  rw [isHunkHeader, hnone]
  rfl

theorem mem_emittedBody {carry : Bool} {o n : Nat} {lines : Marked} {line : EmittedHunkLine}
    (h : line ∈ emittedBody mode carry o n lines) :
    line.text = marker ∨ ∃ kind, ∃ l ∈ lines, line.text = prefixOf kind :: l.1.line.text := by
  have hmarker : ∀ l b, line ∈ markerAfter l b → line.text = marker := by
    intro l b hline
    rw [markerAfter] at hline
    split_ifs at hline
    · cases hline
    · exact List.mem_singleton.mp hline ▸ rfl
  induction lines generalizing carry o n with
  | nil => cases h
  | cons entry rest ih =>
      obtain ⟨l, selected⟩ := entry
      have hrest : ∀ carry o n, line ∈ emittedBody mode carry o n rest →
          line.text = marker ∨ ∃ kind, ∃ l' ∈ (l, selected) :: rest,
            line.text = prefixOf kind :: l'.1.line.text := by
        intro carry o n hline
        rcases ih hline with hline | ⟨kind, l', hl', hline⟩
        · exact .inl hline
        · exact .inr ⟨kind, l', List.mem_cons_of_mem _ hl', hline⟩
      rw [emittedBody] at h
      cases hout : outcome mode l.kind selected with
      | none =>
          rw [hout] at h
          rcases List.mem_append.mp h with h | h
          · exact .inl (hmarker _ _ h)
          · exact hrest _ _ _ h
      | some out =>
          rw [hout] at h
          rcases List.mem_cons.mp h with rfl | h
          · exact .inr ⟨out.1, _, List.mem_cons_self, rfl⟩
          · rcases List.mem_append.mp h with h | h
            · exact .inl (hmarker _ _ h)
            · exact hrest _ _ _ h

theorem mem_marked {o n : Nat} {body : List BodyLine} {l : BodyLine × Bool}
    (h : l ∈ marked keys o n body) : l.1 ∈ body := by
  induction body generalizing o n with
  | nil => cases h
  | cons l' rest ih =>
      rcases List.mem_cons.mp h with rfl | h
      · exact List.mem_cons_self
      · exact List.mem_cons_of_mem _ (ih h)

theorem text_ne_nil {p : Placed} {t : Text} (ht : t ∈ p.text keys mode) : t ≠ [] := by
  rw [Placed.text] at ht
  split_ifs at ht
  · rcases List.mem_cons.mp ht with rfl | ht
    · simp [renderHeader]
    · obtain ⟨line, hline, rfl⟩ := List.mem_map.mp ht
      rcases mem_emittedBody hline with h | ⟨kind, l, -, h⟩
      · rw [h]
        decide
      · simp [h]
  · cases ht

theorem text_eq_nil {p : Placed} : p.text keys mode = [] ↔ p.isSelected keys = false := by
  rw [Placed.text]
  split_ifs with h <;> simp [h]

theorem isSelected_empty (p : Placed) : p.isSelected ∅ = false := by
  have hnone : ∀ (body : List BodyLine) (o n : Nat), (marked ∅ o n body).any Prod.snd = false := by
    intro body
    induction body with
    | nil => exact fun _ _ => rfl
    | cons l rest ih =>
        intro o n
        simp [marked, ih]
  exact hnone _ _ _

theorem closed_lines {headerLines renderedHunks : List Text} (trailing selected : Bool)
    (hne : renderedHunks ≠ []) (hlines : ∀ t ∈ renderedHunks, t ≠ []) :
    (let lines := headerLines ++ (renderedHunks ++ if selected then tailText trailing else [])
      if lines.getLast? = some [] then lines else lines ++ [[]]) =
      headerLines ++ renderedHunks ++ [[]] := by
  have hlast : (headerLines ++ renderedHunks).getLast? ≠ some [] := by
    rw [List.getLast?_append_of_ne_nil _ hne]
    intro h
    exact hlines [] (List.mem_of_getLast? h) rfl
  cases selected with
  | false => simp only [Bool.false_eq_true, if_false, List.append_nil, if_neg hlast]
  | true =>
      cases trailing with
      | false => simp only [tailText, Bool.false_eq_true, if_false, if_true, List.append_nil, if_neg hlast]
      | true => simp [tailText, ← List.append_assoc]

theorem build_eq {d : Diff} (h : d.WellFormed) (hread : ∀ p ∈ placed 0 0 d.parts, p.Read keys) :
    buildPatchFromSelectedDiffLines d.text keys mode =
      if (placed 0 0 d.parts).any (Placed.isSelected keys) then
        some (['\n'].intercalate (patchLines keys mode d))
      else none := by
  obtain ⟨old, hold, holdPrefix⟩ := h.oldHeader
  obtain ⟨new, hnew, hnewPrefix⟩ := h.newHeader
  have htext : d.text ≠ [] := by
    intro hnil
    have hlines := h.splitOn_text
    rw [hnil, List.splitOn_nil] at hlines
    have hmem : old ∈ d.lines := List.mem_append_left _ (List.mem_append_left _ hold)
    rw [← hlines] at hmem
    obtain rfl := List.mem_singleton.mp hmem
    exact absurd holdPrefix (by decide)
  have hheader : ∀ t ∈ d.header, (!isHunkHeader t) = true := fun t ht => by
    simp [isHunkHeader_of_header (h.header t ht)]
  obtain ⟨p, ps, hparts⟩ := List.exists_cons_of_ne_nil h.parts
  have hbody : renderParts 0 0 d.parts ++ (if d.trailing then [[]] else []) ≠ [] ∧
      ∀ t ∈ (renderParts 0 0 d.parts ++ if d.trailing then [[]] else []).head?,
        isHunkHeader t = true := by
    rw [hparts, renderParts, Hunk.render]
    refine ⟨by simp, fun t ht => ?_⟩
    obtain rfl := Option.some.inj ht
    rw [isHunkHeader, parseHunkHeader_render _ _ _ _ _ (h.heading p (by simp [hparts]))]
    rfl
  have hsplit : d.lines = d.header ++ (renderParts 0 0 d.parts ++ if d.trailing then [[]] else []) := by
    rw [Diff.lines, List.append_assoc]
  obtain ⟨first, body, hfirst⟩ := List.exists_cons_of_ne_nil hbody.1
  have hfirstHeader : isHunkHeader first = true := hbody.2 first (by rw [hfirst]; rfl)
  have hany : d.lines.any isHunkHeader = true := by
    rw [hsplit, hfirst]
    simp [hfirstHeader]
  have htake : d.lines.takeWhile (fun line => !isHunkHeader line) = d.header := by
    rw [hsplit, List.takeWhile_append_of_pos hheader, hfirst,
      List.takeWhile_cons_of_neg (by simp [hfirstHeader]), List.append_nil]
  have hdrop : d.lines.dropWhile (fun line => !isHunkHeader line) =
      renderParts 0 0 d.parts ++ if d.trailing then [[]] else [] := by
    rw [hsplit, List.dropWhile_append_of_pos hheader, hfirst,
      List.dropWhile_cons_of_neg (by simp [hfirstHeader])]
  obtain ⟨oldHeader, holdHeader⟩ : ∃ t, d.header.find? (startsWith "--- ") = some t :=
    Option.isSome_iff_exists.mp (List.find?_isSome.mpr
      ⟨old, hold, List.isPrefixOf_iff_prefix.mpr holdPrefix⟩)
  obtain ⟨newHeader, hnewHeader⟩ : ∃ t, d.header.find? (startsWith "+++ ") = some t :=
    Option.isSome_iff_exists.mp (List.find?_isSome.mpr
      ⟨new, hnew, List.isPrefixOf_iff_prefix.mpr hnewPrefix⟩)
  have hhunks := @flatMap_renderedHunk keys mode (placed 0 0 d.parts) d.trailing hread
  rw [buildPatchFromSelectedDiffLines]
  by_cases hkeys : keys = ∅
  · subst hkeys
    simp [isSelected_empty]
  rw [if_neg (by simp [htext, hkeys]), h.splitOn_text]
  dsimp only
  rw [if_pos hany, htake, hdrop, holdHeader, hnewHeader]
  dsimp only
  rw [parseHunks_renderParts d.trailing 0 0 h.heading h.parts none, Option.map_none,
    Option.toList_none, List.nil_append, hhunks]
  cases hselected : (placed 0 0 d.parts).any (Placed.isSelected keys) with
  | false =>
      have hnone : ∀ p ∈ placed 0 0 d.parts, p.isSelected keys = false := by
        simpa using hselected
      have hnil : (placed 0 0 d.parts).flatMap (Placed.text keys mode) = [] :=
        List.flatMap_eq_nil_iff.mpr fun p hp => text_eq_nil.mpr (hnone p hp)
      have htail : tailOf keys d.trailing (placed 0 0 d.parts) = [] := by
        rw [tailOf]
        cases hlast : (placed 0 0 d.parts).getLast? with
        | none => rfl
        | some p => simp [hnone p (List.mem_of_getLast? hlast)]
      simp [hnil, htail]
  | true =>
      obtain ⟨q, hq, hqselected⟩ := List.any_eq_true.mp hselected
      have hne : (placed 0 0 d.parts).flatMap (Placed.text keys mode) ≠ [] := by
        intro hnil
        have := text_eq_nil.mp (List.flatMap_eq_nil_iff.mp hnil q hq)
        simp [hqselected] at this
      have hlines : ∀ t ∈ (placed 0 0 d.parts).flatMap (Placed.text keys mode), t ≠ [] := by
        intro t ht
        obtain ⟨q, -, ht⟩ := List.mem_flatMap.mp ht
        exact text_ne_nil ht
      rw [if_neg (by simp [hne]), if_pos rfl]
      have hclosed := @closed_lines (normalizedHeaderLines d.header oldHeader newHeader) _
        d.trailing ((placed 0 0 d.parts).getLast?.any (Placed.isSelected keys)) hne hlines
      rw [tailOf]
      rw [patchLines, headerLinesOf, holdHeader, hnewHeader]
      exact congrArg (fun lines => some (['\n'].intercalate lines)) hclosed

end DevPilot.Staging
