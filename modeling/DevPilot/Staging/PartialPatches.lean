import DevPilot.Staging.ReadBack

/-!
A patch of some changed lines applies to the text it is for and changes just these lines: to
the old text when it is staged, in reverse to the new text when it is unstaged.
-/

namespace DevPilot.Staging

open UnifiedDiff DevPilot.Diffs

structure PatchHunk where
  oldStart : Nat
  oldCount : Nat
  newStart : Nat
  newCount : Nat
  heading : Text
  body : List BodyLine

def oldSide (body : List BodyLine) : List FileLine := (body.filter BodyLine.isOld).map (·.line)

def newSide (body : List BodyLine) : List FileLine := (body.filter BodyLine.isNew).map (·.line)

namespace PatchHunk

def lines (h : PatchHunk) : List Text :=
  renderHeader false h.oldStart h.oldCount h.newStart h.newCount h.heading ::
    h.body.flatMap BodyLine.render

def start (mode : PatchSelectionMode) (h : PatchHunk) : Nat :=
  match mode with
  | .stage => h.oldStart
  | .unstage => h.newStart

def source (mode : PatchSelectionMode) (h : PatchHunk) : List FileLine :=
  match mode with
  | .stage => oldSide h.body
  | .unstage => newSide h.body

def target (mode : PatchSelectionMode) (h : PatchHunk) : List FileLine :=
  match mode with
  | .stage => newSide h.body
  | .unstage => oldSide h.body

end PatchHunk

/-- The hunks turn the lines behind the first `before` ones of a text into others: forwards to
stage them, in reverse to unstage them. -/
def Applies (mode : PatchSelectionMode) : Nat → List PatchHunk → List FileLine → List FileLine → Prop
  | _, [], text, result => text = result
  | before, h :: hs, text, result => ∃ gap textRest resultRest,
      text = gap ++ h.source mode ++ textRest ∧ result = gap ++ h.target mode ++ resultRest ∧
      h.oldCount = (oldSide h.body).length ∧ h.newCount = (newSide h.body).length ∧
      h.start mode = startOf (before + gap.length) (h.source mode).length ∧
      Applies mode (before + gap.length + (h.source mode).length) hs textRest resultRest

structure IsPatch (patch : Text) (header : List Text) (hunks : List PatchHunk) : Prop where
  text : patch = ['\n'].intercalate (header ++ hunks.flatMap PatchHunk.lines ++ [[]])
  headerLines : ∀ t ∈ header, '\n' ∉ t ∧ isHunkHeader t = false
  hunkLines : ∀ h ∈ hunks, ∀ t ∈ h.lines, '\n' ∉ t
  oldHeader : ∃ t ∈ header, "--- ".toList <+: t
  newHeader : ∃ t ∈ header, "+++ ".toList <+: t

/-- A line that is in the result: staging adds the selected additions to the old text and
takes the selected deletions out; unstaging undoes them in the new text. -/
def inResult (mode : PatchSelectionMode) (l : BodyLine × Bool) : Bool :=
  match l.1.kind, mode with
  | .context, _ => true
  | .add, .stage | .delete, .unstage => l.2
  | .delete, .stage | .add, .unstage => !l.2

def resultBody (mode : PatchSelectionMode) (lines : Marked) : List FileLine :=
  (lines.filter (inResult mode)).map (·.1.line)

def resultParts (keys : Finset SelectedDiffLineKey) (mode : PatchSelectionMode) :
    Nat → Nat → List Part → List FileLine
  | _, _, [] => []
  | o, n, p :: ps =>
      p.gap ++ resultBody mode (marked keys (startOf (o + p.gap.length) p.hunk.oldCount)
        (startOf (n + p.gap.length) p.hunk.newCount) p.hunk.body) ++
        resultParts keys mode (o + p.gap.length + p.hunk.oldCount)
          (n + p.gap.length + p.hunk.newCount) ps

/-- The text that staging or unstaging the selected changes asks for. -/
def resultLines (keys : Finset SelectedDiffLineKey) (mode : PatchSelectionMode) (d : Diff) :
    List FileLine :=
  resultParts keys mode 0 0 d.parts ++ d.rest

def textLines (mode : PatchSelectionMode) (d : Diff) : List FileLine :=
  match mode with
  | .stage => d.oldLines
  | .unstage => d.newLines

/-- Each line without line end is a selected change, or a line that is left out behind one that
carries no change. `carry` says whether the last line in the patch carries one. -/
def markersKept (mode : PatchSelectionMode) : Bool → Marked → Bool
  | _, [] => true
  | carry, (l, selected) :: rest =>
      match outcome mode l.kind selected with
      | none => (l.line.ended || !carry) && markersKept mode carry rest
      | some (_, change) => (l.line.ended || change) && markersKept mode change rest

variable {keys : Finset SelectedDiffLineKey} {mode : PatchSelectionMode}

theorem source_selectedBody (lines : Marked) :
    oldSide (selectedBody .stage lines) = oldSide (lines.map Prod.fst) ∧
      newSide (selectedBody .unstage lines) = newSide (lines.map Prod.fst) := by
  induction lines with
  | nil => exact ⟨rfl, rfl⟩
  | cons entry rest ih =>
      obtain ⟨l, selected⟩ := entry
      obtain ⟨hold, hnew⟩ := ih
      rw [selectedBody_cons, selectedBody_cons]
      simp only [oldSide, newSide] at hold hnew ⊢
      cases hkind : l.kind <;> cases selected <;>
        simp [outcome, BodyLine.isOld, BodyLine.isNew, hkind, hold, hnew]

theorem target_selectedBody (lines : Marked) :
    newSide (selectedBody .stage lines) = resultBody .stage lines ∧
      oldSide (selectedBody .unstage lines) = resultBody .unstage lines := by
  induction lines with
  | nil => exact ⟨rfl, rfl⟩
  | cons entry rest ih =>
      obtain ⟨l, selected⟩ := entry
      obtain ⟨hnew, hold⟩ := ih
      rw [selectedBody_cons, selectedBody_cons]
      simp only [oldSide, newSide, resultBody] at hold hnew ⊢
      cases hkind : l.kind <;> cases selected <;>
        simp [outcome, BodyLine.isOld, BodyLine.isNew, inResult, hkind, hold, hnew]

theorem resultBody_unselected {lines : Marked} (h : lines.any Prod.snd = false) :
    resultBody .stage lines = oldSide (lines.map Prod.fst) ∧
      resultBody .unstage lines = newSide (lines.map Prod.fst) := by
  induction lines with
  | nil => exact ⟨rfl, rfl⟩
  | cons entry rest ih =>
      obtain ⟨l, selected⟩ := entry
      rw [List.any_cons, Bool.or_eq_false_iff] at h
      obtain rfl : selected = false := h.1
      obtain ⟨hold, hnew⟩ := ih h.2
      simp only [oldSide, newSide, resultBody] at hold hnew ⊢
      cases hkind : l.kind <;> simp [BodyLine.isOld, BodyLine.isNew, inResult, hkind, hold, hnew]

theorem firstRefs_start (o n : Nat) (lines : Marked) :
    (firstRefs .stage o n lines).1 = o ∧ (firstRefs .unstage o n lines).2 = n := by
  induction lines generalizing o n with
  | nil => exact ⟨rfl, rfl⟩
  | cons entry rest ih =>
      obtain ⟨l, selected⟩ := entry
      obtain ⟨hold, hnew⟩ := ih (o + oldStep l) (n + newStep l)
      rw [firstRefs, firstRefs]
      cases hkind : l.kind <;> cases selected <;>
        simp_all [outcome, oldStep, newStep, BodyLine.isOld, BodyLine.isNew]

theorem map_text_emittedBody {carry : Bool} {o n : Nat} {lines : Marked}
    (h : markersKept mode carry lines = true) :
    (emittedBody mode carry o n lines).map EmittedHunkLine.text =
      (selectedBody mode lines).flatMap BodyLine.render := by
  induction lines generalizing carry o n with
  | nil => rfl
  | cons entry rest ih =>
      obtain ⟨l, selected⟩ := entry
      rw [markersKept] at h
      rw [emittedBody, selectedBody_cons]
      cases hout : outcome mode l.kind selected with
      | none =>
          rw [hout] at h
          obtain ⟨hended, hrest⟩ := Bool.and_eq_true_iff.mp h
          dsimp only
          rw [List.map_append, ih hrest, markerAfter, if_pos (by simpa using hended)]
          rfl
      | some out =>
          obtain ⟨kind, change⟩ := out
          rw [hout] at h
          obtain ⟨hended, hrest⟩ := Bool.and_eq_true_iff.mp h
          dsimp only
          rw [List.map_cons, List.map_append, ih hrest, markerAfter]
          cases hline : l.line.ended <;> cases change <;> simp_all [BodyLine.render]

def Placed.patchHunk (keys : Finset SelectedDiffLineKey) (mode : PatchSelectionMode) (p : Placed) :
    PatchHunk where
  oldStart := (firstRefs mode p.oldStart p.newStart (p.marked keys)).1
  oldCount := (selectedBody mode (p.marked keys)).countP BodyLine.isOld
  newStart := (firstRefs mode p.oldStart p.newStart (p.marked keys)).2
  newCount := (selectedBody mode (p.marked keys)).countP BodyLine.isNew
  heading := headingSuffix (trim p.hunk.heading)
  body := selectedBody mode (p.marked keys)

def patchHunks (keys : Finset SelectedDiffLineKey) (mode : PatchSelectionMode) (hunks : List Placed) :
    List PatchHunk :=
  (hunks.filter (Placed.isSelected keys)).map (Placed.patchHunk keys mode)

theorem flatMap_text {hunks : List Placed}
    (h : ∀ p ∈ hunks, p.isSelected keys = true → markersKept mode false (p.marked keys) = true) :
    hunks.flatMap (Placed.text keys mode) = (patchHunks keys mode hunks).flatMap PatchHunk.lines := by
  induction hunks with
  | nil => rfl
  | cons p ps ih =>
      have hrest := ih fun q hq => h q (List.mem_cons_of_mem _ hq)
      rw [List.flatMap_cons, hrest, patchHunks, Placed.text]
      cases hselected : p.isSelected keys with
      | false => simp [hselected, patchHunks]
      | true =>
          rw [map_text_emittedBody (h p List.mem_cons_self hselected)]
          simp [hselected, patchHunks, PatchHunk.lines, Placed.patchHunk]

theorem Applies.prepend {before : Nat} {hs : List PatchHunk} {text result : List FileLine}
    (lines : List FileLine) (h : Applies mode (before + lines.length) hs text result) :
    Applies mode before hs (lines ++ text) (lines ++ result) := by
  cases hs with
  | nil => exact congrArg (lines ++ ·) h
  | cons hunk hs =>
      obtain ⟨gap, textRest, resultRest, rfl, rfl, hold, hnew, hstart, hrest⟩ := h
      refine ⟨lines ++ gap, textRest, resultRest, by simp, by simp, hold, hnew, ?_, ?_⟩
      · rw [List.length_append, ← Nat.add_assoc]
        exact hstart
      · rw [List.length_append, ← Nat.add_assoc]
        exact hrest

def partLines (mode : PatchSelectionMode) (p : Part) : List FileLine :=
  match mode with
  | .stage => p.oldLines
  | .unstage => p.newLines

def linesBefore (mode : PatchSelectionMode) (o n : Nat) : Nat :=
  match mode with
  | .stage => o
  | .unstage => n

theorem length_oldSide (body : List BodyLine) : (oldSide body).length = body.countP BodyLine.isOld := by
  rw [oldSide, List.length_map, List.countP_eq_length_filter]

theorem length_newSide (body : List BodyLine) : (newSide body).length = body.countP BodyLine.isNew := by
  rw [newSide, List.length_map, List.countP_eq_length_filter]

theorem patchHunk_fits (p : Part) (o n : Nat) :
    let q : Placed := ⟨startOf (o + p.gap.length) p.hunk.oldCount,
      startOf (n + p.gap.length) p.hunk.newCount, p.hunk⟩
    partLines mode p = p.gap ++ (q.patchHunk keys mode).source mode ∧
      (q.patchHunk keys mode).target mode = resultBody mode (q.marked keys) ∧
      (q.patchHunk keys mode).start mode =
        startOf (linesBefore mode o n + p.gap.length) ((q.patchHunk keys mode).source mode).length ∧
      linesBefore mode o n + p.gap.length + ((q.patchHunk keys mode).source mode).length =
        linesBefore mode (o + p.gap.length + p.hunk.oldCount) (n + p.gap.length + p.hunk.newCount) := by
  intro q
  have hbody : (q.marked keys).map Prod.fst = p.hunk.body := marked_fst _ _ _
  obtain ⟨hold, hnew⟩ := source_selectedBody (q.marked keys)
  obtain ⟨htold, htnew⟩ := target_selectedBody (q.marked keys)
  obtain ⟨hfirst, hfirst'⟩ := firstRefs_start q.oldStart q.newStart (q.marked keys)
  rw [hbody] at hold hnew
  cases mode with
  | stage =>
      have hsource : (q.patchHunk keys .stage).source .stage = oldSide p.hunk.body := hold
      have hlength : (oldSide p.hunk.body).length = p.hunk.oldCount := length_oldSide _
      refine ⟨by rw [hsource]; rfl, htold, ?_, ?_⟩
      · rw [hsource, hlength]
        exact hfirst
      · rw [hsource, hlength]
        rfl
  | unstage =>
      have hsource : (q.patchHunk keys .unstage).source .unstage = newSide p.hunk.body := hnew
      have hlength : (newSide p.hunk.body).length = p.hunk.newCount := length_newSide _
      refine ⟨by rw [hsource]; rfl, htnew, ?_, ?_⟩
      · rw [hsource, hlength]
        exact hfirst'
      · rw [hsource, hlength]
        rfl

theorem applies_parts (parts : List Part) (rest : List FileLine) (o n : Nat) :
    Applies mode (linesBefore mode o n) (patchHunks keys mode (placed o n parts))
      (parts.flatMap (partLines mode) ++ rest) (resultParts keys mode o n parts ++ rest) := by
  induction parts generalizing o n with
  | nil => rfl
  | cons p ps ih =>
      have hrest := ih (o + p.gap.length + p.hunk.oldCount) (n + p.gap.length + p.hunk.newCount)
      obtain ⟨hlines, htarget, hstart, hbefore⟩ := @patchHunk_fits keys mode p o n
      set q : Placed := ⟨startOf (o + p.gap.length) p.hunk.oldCount,
        startOf (n + p.gap.length) p.hunk.newCount, p.hunk⟩ with hq
      have hresult : resultParts keys mode o n (p :: ps) =
          p.gap ++ resultBody mode (q.marked keys) ++
            resultParts keys mode (o + p.gap.length + p.hunk.oldCount)
              (n + p.gap.length + p.hunk.newCount) ps := rfl
      rw [← hbefore] at hrest
      rw [hresult, List.flatMap_cons, hlines, placed, patchHunks, ← hq]
      cases hselected : q.isSelected keys with
      | true =>
          rw [List.filter_cons_of_pos hselected, List.map_cons]
          refine ⟨p.gap, ps.flatMap (partLines mode) ++ rest, _, by simp, ?_, ?_, ?_, hstart, hrest⟩
          · rw [htarget]
            simp
          · exact (length_oldSide _).symm
          · exact (length_newSide _).symm
      | false =>
          rw [List.filter_cons_of_neg (by simp [hselected])]
          have hsame : resultBody mode (q.marked keys) = (q.patchHunk keys mode).source mode := by
            have hnone : (q.marked keys).any Prod.snd = false := hselected
            obtain ⟨hold, hnew⟩ := resultBody_unselected hnone
            obtain ⟨hsold, hsnew⟩ := source_selectedBody (q.marked keys)
            cases mode with
            | stage => exact hold.trans hsold.symm
            | unstage => exact hnew.trans hsnew.symm
          rw [hsame]
          have hall := @Applies.prepend mode (linesBefore mode o n) _ _ _
            (p.gap ++ (q.patchHunk keys mode).source mode) (by
              rw [List.length_append, ← Nat.add_assoc]
              exact hrest)
          simpa [patchHunks] using hall

theorem mem_headerLinesOf_of_mem {d : Diff} {t : Text} (h : t ∈ d.header) : t ∈ headerLinesOf d := by
  rw [headerLinesOf, normalizedHeaderLines]
  split_ifs
  · exact h
  · exact List.mem_cons_of_mem _ h

theorem isPatch_patchHunks {d : Diff} (h : d.WellFormed)
    (hmarkers : ∀ p ∈ placed 0 0 d.parts, p.isSelected keys = true →
      markersKept mode false (p.marked keys) = true) :
    IsPatch (['\n'].intercalate (patchLines keys mode d)) (headerLinesOf d)
      (patchHunks keys mode (placed 0 0 d.parts)) where
  text := by rw [patchLines, flatMap_text hmarkers]
  headerLines t ht := by
    rcases mem_headerLinesOf (fun t ht => (h.header t ht).1) ht with ht | ⟨hd, hnewline⟩
    · exact ⟨(h.header t ht).1, isHunkHeader_of_header (h.header t ht)⟩
    · refine ⟨hnewline, ?_⟩
      have hnone : parseHunkHeader t = none := parseHunkHeader_eq_none fun hstarts => by
        obtain ⟨rest, rfl⟩ := hstarts
        exact absurd hd (by simp)
      rw [isHunkHeader, hnone]
      rfl
  hunkLines hunk hhunk t ht := by
    have hmem : t ∈ (patchHunks keys mode (placed 0 0 d.parts)).flatMap PatchHunk.lines :=
      List.mem_flatMap.mpr ⟨hunk, hhunk, ht⟩
    rw [← flatMap_text hmarkers] at hmem
    obtain ⟨p, hp, ht⟩ := List.mem_flatMap.mp hmem
    obtain ⟨part, hpart, heq⟩ := mem_placed hp
    exact newline_notMem_text (heq ▸ h.heading part hpart) (heq ▸ h.lines part hpart) t ht
  oldHeader := by
    obtain ⟨t, ht, hstarts⟩ := h.oldHeader
    exact ⟨t, mem_headerLinesOf_of_mem ht, hstarts⟩
  newHeader := by
    obtain ⟨t, ht, hstarts⟩ := h.newHeader
    exact ⟨t, mem_headerLinesOf_of_mem ht, hstarts⟩

/-- The patch of a choice of changed lines applies to the text it is for and changes exactly
these lines, when the hunks it is made of have no changed line that is taken for a file header
and no marker that is lost or misplaced. -/
theorem partial_patch {d : Diff} (h : d.WellFormed) {keys : Finset SelectedDiffLineKey}
    (hkeys : ∀ key ∈ keys, key ∈ changedKeys d) (hne : keys.Nonempty) (mode : PatchSelectionMode)
    (hplain : ∀ p ∈ placed 0 0 d.parts, p.isSelected keys = true → ∀ l ∈ p.hunk.body, Plain l)
    (hmarkers : ∀ p ∈ placed 0 0 d.parts, p.isSelected keys = true →
      markersKept mode false (p.marked keys) = true) :
    ∃ patch header hunks, buildPatchFromSelectedDiffLines d.text keys mode = some patch ∧
      IsPatch patch header hunks ∧
      Applies mode 0 hunks (textLines mode d) (resultLines keys mode d) := by
  have hselected : (placed 0 0 d.parts).any (Placed.isSelected keys) = true := by
    obtain ⟨key, hkey⟩ := hne
    obtain ⟨p, hp, hmem⟩ := List.mem_flatMap.mp (hkeys key hkey)
    exact List.any_eq_true.mpr ⟨p, hp, isSelected_of_key hmem hkey⟩
  have hread : ∀ p ∈ placed 0 0 d.parts, p.Read keys := fun p hp =>
    read_of_keys hkeys hp (hplain p hp)
  refine ⟨_, headerLinesOf d, patchHunks keys mode (placed 0 0 d.parts), ?_,
    isPatch_patchHunks h hmarkers, ?_⟩
  · rw [build_eq h hread, if_pos hselected]
  · have happlies := @applies_parts keys mode d.parts d.rest 0 0
    have htext : textLines mode d = d.parts.flatMap (partLines mode) ++ d.rest := by
      cases mode <;> rfl
    have hbefore : linesBefore mode 0 0 = 0 := by cases mode <;> rfl
    rw [hbefore, ← htext] at happlies
    exact happlies

def changeLine (kind : Kind) (text : String) (ended : Bool) : BodyLine := ⟨kind, ⟨text.toList, ended⟩⟩

def diffOf (body : List BodyLine) : Diff where
  header := ["--- a/f".toList, "+++ b/f".toList]
  parts := [⟨[], ⟨[], false, body⟩⟩]
  rest := []
  trailing := true

def replacedLast : Diff :=
  diffOf [changeLine .context "a" true, changeLine .delete "b" false, changeLine .add "c" true]

theorem partial_patch_replacedLast :
    ∃ patch header hunks,
      buildPatchFromSelectedDiffLines replacedLast.text {⟨.deletions, 2⟩} .stage = some patch ∧
      IsPatch patch header hunks ∧
      Applies .stage 0 hunks (textLines .stage replacedLast)
        (resultLines {⟨.deletions, 2⟩} .stage replacedLast) :=
  partial_patch
    ⟨by decide, by decide, by decide, by decide, by simp [replacedLast, diffOf], by decide, by decide, by decide, by decide⟩
    (by decide) (by decide) .stage (by decide) (by decide)

def deletedComment : Diff :=
  diffOf [changeLine .delete "-- note" true, changeLine .delete "b" true]

theorem deletion_behind_comment_not_staged :
    deletedComment.WellFormed ∧
      (∀ key ∈ ({⟨.deletions, 2⟩} : Finset SelectedDiffLineKey), key ∈ changedKeys deletedComment) ∧
      ¬∃ patch header hunks,
        buildPatchFromSelectedDiffLines deletedComment.text {⟨.deletions, 2⟩} .stage = some patch ∧
        IsPatch patch header hunks ∧
        Applies .stage 0 hunks (textLines .stage deletedComment)
          (resultLines {⟨.deletions, 2⟩} .stage deletedComment) := by
  refine ⟨⟨by decide, by decide, by decide, by decide, by simp [deletedComment, diffOf], by decide, by decide, by decide,
    by decide⟩, by decide, ?_⟩
  rintro ⟨patch, header, hunks, hbuild, -⟩
  have hnone : buildPatchFromSelectedDiffLines deletedComment.text {⟨.deletions, 2⟩} .stage = none := by
    decide
  rw [hnone] at hbuild
  cases hbuild

end DevPilot.Staging
