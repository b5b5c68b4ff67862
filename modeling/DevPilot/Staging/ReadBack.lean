import DevPilot.Staging.ChangedNumbers

/-!
The keys that are read back from a patch are those of the changed lines of its own hunks.
-/

namespace DevPilot.Staging

open UnifiedDiff DevPilot.Diffs

variable {keys : Finset SelectedDiffLineKey} {mode : PatchSelectionMode}

theorem extractLine_marker (s : ExtractState) : extractLine s marker = s := by
  have hheader : parseHunkHeader marker = none := parseHunkHeader_eq_none (by decide)
  have hplain : startsWith " " marker = false ∧ startsWith "+" marker = false ∧
      startsWith "-" marker = false := by decide
  simp [extractLine, hheader, hplain]

theorem extractLine_header {t : Text} (h : IsHeaderLine t) (s : ExtractState) : extractLine s t = s := by
  have hheader : parseHunkHeader t = none := by
    have := isHunkHeader_of_header h
    simpa [isHunkHeader] using this
  obtain ⟨-, -, hspace, hminus, hplus⟩ := h
  have hsign : ∀ (sign : String) (c : Char), sign.toList = [c] → startsWith sign t = true →
      t.head? = some c := by
    intro sign c hsign hstart
    obtain ⟨rest, rfl⟩ := List.isPrefixOf_iff_prefix.mp hstart
    simp [hsign]
  have h1 : startsWith " " t = false := Bool.eq_false_iff.mpr fun hs => hspace (hsign " " ' ' rfl hs)
  have h2 : (startsWith "+" t && !startsWith "+++" t) = false := by
    cases hs : startsWith "+" t with
    | false => rfl
    | true =>
        have hthree : startsWith "+++" t = true :=
          List.isPrefixOf_iff_prefix.mpr (hplus (hsign "+" '+' rfl hs))
        rw [hthree]
        rfl
  have h3 : (startsWith "-" t && !startsWith "---" t) = false := by
    cases hs : startsWith "-" t with
    | false => rfl
    | true =>
        have hthree : startsWith "---" t = true :=
          List.isPrefixOf_iff_prefix.mpr (hminus (hsign "-" '-' rfl hs))
        rw [hthree]
        rfl
  simp only [extractLine, hheader, h1, h2, h3, Bool.false_eq_true, if_false]

theorem extractLine_render (s : ExtractState) (short : Bool) (o oc n nc : Nat) {heading : Text}
    (h : ∀ c ∈ heading, isLineTerminator c = false) :
    extractLine s (renderHeader short o oc n nc heading) =
      { s with oldCursor := o, newCursor := n } := by
  rw [extractLine, parseHunkHeader_render _ _ _ _ _ h]

theorem extractLine_plain {l : BodyLine} {rest : List BodyLine} (h : Plain l) (s : ExtractState)
    (hcounted : Counted s.oldCursor s.newCursor (l :: rest)) :
    extractLine s (prefixOf l.kind :: l.line.text) =
      { oldCursor := s.oldCursor + oldStep l
        newCursor := s.newCursor + newStep l
        selectedLineKeys := s.selectedLineKeys ∪
          (keyOf s.oldCursor s.newCursor l).toList.toFinset } := by
  have hheader : parseHunkHeader (prefixOf l.kind :: l.line.text) = none :=
    parseHunkHeader_eq_none fun hstarts => by
      obtain ⟨rest, hrest⟩ := hstarts
      have hhead := (List.cons.inj hrest).1
      revert hhead
      cases l.kind <;> decide
  rw [extractLine, hheader]
  obtain ⟨kind, line⟩ := l
  cases kind with
  | context =>
      simp [startsWith, prefixOf, oldStep, newStep, BodyLine.isOld, BodyLine.isNew, keyOf]
  | delete =>
      have ho : 0 < s.oldCursor := hcounted.old.resolve_right fun hnone =>
        hnone _ List.mem_cons_self rfl
      have hdash := startsWith_dashes (h.1 rfl)
      simp only [prefixOf, hdash]
      simp [startsWith, oldStep, newStep, BodyLine.isOld, BodyLine.isNew, keyOf, addKey,
        buildSelectedDiffLineKey, Nat.ne_of_gt ho]
  | add =>
      have hn : 0 < s.newCursor := hcounted.new.resolve_right fun hnone =>
        hnone _ List.mem_cons_self rfl
      have hplus := startsWith_pluses (h.2 rfl)
      simp only [prefixOf, hplus]
      simp [startsWith, oldStep, newStep, BodyLine.isOld, BodyLine.isNew, keyOf, addKey,
        buildSelectedDiffLineKey, Nat.ne_of_gt hn]

theorem Counted.mono {o n o' n' : Nat} {body : List BodyLine} (h : Counted o n body) (ho : o ≤ o')
    (hn : n ≤ n') : Counted o' n' body where
  old := h.old.imp (fun hold => by omega) id
  new := h.new.imp (fun hnew => by omega) id

theorem plain_outcome {l : BodyLine} (h : Plain l) {selected : Bool} {kind : Kind} {change : Bool}
    (hout : outcome mode l.kind selected = some (kind, change)) : Plain ⟨kind, l.line⟩ := by
  obtain ⟨lkind, line⟩ := l
  constructor
  · rintro rfl
    cases lkind <;> cases selected <;> cases mode <;> simp [outcome] at hout
    · exact h.1 rfl
    · exact h.1 rfl
  · rintro rfl
    cases lkind <;> cases selected <;> cases mode <;> simp [outcome] at hout
    · exact h.2 rfl
    · exact h.2 rfl

theorem selectedBody_cons (l : BodyLine) (selected : Bool) (rest : Marked) :
    selectedBody mode ((l, selected) :: rest) =
      ((outcome mode l.kind selected).map fun out => (⟨out.1, l.line⟩ : BodyLine)).toList ++
        selectedBody mode rest := by
  rw [selectedBody, List.filterMap_cons]
  cases outcome mode l.kind selected <;> rfl

theorem foldl_emittedBody {carry : Bool} {o n : Nat} {lines : Marked} (h : ∀ l ∈ lines, Plain l.1)
    (s : ExtractState)
    (hcounted : Counted s.oldCursor s.newCursor (selectedBody mode lines)) :
    (((emittedBody mode carry o n lines).map EmittedHunkLine.text).foldl extractLine
        s).selectedLineKeys =
      s.selectedLineKeys ∪
        (bodyKeys s.oldCursor s.newCursor (selectedBody mode lines)).toFinset := by
  have hmarker : ∀ (l : BodyLine) (b : Bool) (s : ExtractState),
      ((markerAfter l b).map EmittedHunkLine.text).foldl extractLine s = s := by
    intro l b s
    rw [markerAfter]
    split_ifs
    · rfl
    · exact extractLine_marker s
  induction lines generalizing carry o n s with
  | nil => simp [emittedBody, selectedBody, bodyKeys]
  | cons entry rest ih =>
      obtain ⟨l, selected⟩ := entry
      have hrest := fun l' hl' => h l' (List.mem_cons_of_mem _ hl')
      rw [selectedBody_cons] at hcounted ⊢
      rw [emittedBody]
      cases hout : outcome mode l.kind selected with
      | none =>
          rw [hout] at hcounted
          dsimp only
          rw [List.map_append, List.foldl_append, hmarker]
          exact ih hrest s hcounted
      | some out =>
          obtain ⟨kind, change⟩ := out
          rw [hout] at hcounted
          have hplain : Plain ⟨kind, l.line⟩ := plain_outcome (h _ List.mem_cons_self) hout
          have hline := @extractLine_plain ⟨kind, l.line⟩ _ hplain s hcounted
          dsimp only at hline ⊢
          rw [List.map_cons, List.foldl_cons, List.map_append, List.foldl_append, hmarker, hline,
            ih hrest _ hcounted.tail]
          simp [bodyKeys, Finset.union_assoc]

/-- The changed lines of the hunk of the patch, as its header counts them. -/
def Placed.patchKeys (keys : Finset SelectedDiffLineKey) (mode : PatchSelectionMode) (p : Placed) :
    List SelectedDiffLineKey :=
  if p.isSelected keys then
    bodyKeys (firstRefs mode p.oldStart p.newStart (p.marked keys)).1
      (firstRefs mode p.oldStart p.newStart (p.marked keys)).2 (selectedBody mode (p.marked keys))
  else []

theorem mem_trim {c : Char} {t : Text} (h : c ∈ trim t) : c ∈ t := by
  have h := (List.dropWhile_sublist isBlank).mem (List.mem_reverse.mp h)
  exact (List.dropWhile_sublist isBlank).mem (List.mem_reverse.mp h)

theorem headingSuffix_line {heading : Text} (h : ∀ c ∈ heading, isLineTerminator c = false) :
    ∀ c ∈ headingSuffix (trim heading), isLineTerminator c = false := by
  intro c hc
  rw [headingSuffix] at hc
  split_ifs at hc
  · cases hc
  · rcases List.mem_cons.mp hc with rfl | hc
    · decide
    · exact h c (mem_trim hc)

theorem kind_outcome {kind out : Kind} {selected change : Bool}
    (h : outcome mode kind selected = some (out, change)) (hout : out ≠ .context) : kind = out := by
  cases kind <;> cases selected <;> cases mode <;> simp [outcome] at h <;> simp_all

theorem counted_selectedBody {o n : Nat} {lines : Marked} (h : Counted o n (lines.map Prod.fst)) :
    Counted o n (selectedBody mode lines) := by
  have hkind : ∀ kind : Kind, kind ≠ .context → (∀ l ∈ lines.map Prod.fst, l.kind ≠ kind) →
      ∀ l ∈ selectedBody mode lines, l.kind ≠ kind := by
    rintro kind hcontext hnone l hl rfl
    obtain ⟨entry, hentry, hout⟩ := List.mem_filterMap.mp hl
    obtain ⟨out, hkind, rfl⟩ := Option.map_eq_some_iff.mp hout
    exact hnone entry.1 (List.mem_map_of_mem hentry) (kind_outcome hkind hcontext)
  exact ⟨h.old.imp id (hkind .delete (by decide)), h.new.imp id (hkind .add (by decide))⟩

theorem counted_firstRefs {o n : Nat} {lines : Marked} (h : Counted o n (lines.map Prod.fst)) :
    Counted (firstRefs mode o n lines).1 (firstRefs mode o n lines).2 (selectedBody mode lines) := by
  induction lines generalizing o n with
  | nil => exact ⟨.inr (by simp [selectedBody]), .inr (by simp [selectedBody])⟩
  | cons entry rest ih =>
      obtain ⟨l, selected⟩ := entry
      rw [firstRefs]
      cases hout : outcome mode l.kind selected with
      | none =>
          rw [selectedBody_cons, hout]
          exact ih h.tail
      | some out => exact counted_selectedBody h

theorem marked_fst (o n : Nat) (body : List BodyLine) : (marked keys o n body).map Prod.fst = body := by
  induction body generalizing o n with
  | nil => rfl
  | cons l rest ih => rw [marked, List.map_cons, ih]

theorem foldl_text {p : Placed} (hplain : ∀ l ∈ p.hunk.body, Plain l)
    (hheading : ∀ c ∈ p.hunk.heading, isLineTerminator c = false)
    (hcounted : Counted p.oldStart p.newStart p.hunk.body) (s : ExtractState) :
    ((p.text keys mode).foldl extractLine s).selectedLineKeys =
      s.selectedLineKeys ∪ (p.patchKeys keys mode).toFinset := by
  rw [Placed.text, Placed.patchKeys]
  split_ifs
  · have hmarked : (p.marked keys).map Prod.fst = p.hunk.body := marked_fst _ _ _
    have hlines : ∀ l ∈ p.marked keys, Plain l.1 := fun l hl => hplain l.1 (mem_marked hl)
    rw [List.foldl_cons, extractLine_render _ _ _ _ _ _ (headingSuffix_line hheading)]
    exact foldl_emittedBody hlines _ (counted_firstRefs (hmarked.symm ▸ hcounted))
  · simp

theorem foldl_texts {hunks : List Placed} (hplain : ∀ p ∈ hunks, ∀ l ∈ p.hunk.body, Plain l)
    (hheading : ∀ p ∈ hunks, ∀ c ∈ p.hunk.heading, isLineTerminator c = false)
    (hcounted : ∀ p ∈ hunks, Counted p.oldStart p.newStart p.hunk.body) (s : ExtractState) :
    ((hunks.flatMap (Placed.text keys mode)).foldl extractLine s).selectedLineKeys =
      s.selectedLineKeys ∪ (hunks.flatMap (Placed.patchKeys keys mode)).toFinset := by
  induction hunks generalizing s with
  | nil => simp
  | cons p ps ih =>
      rw [List.flatMap_cons, List.foldl_append,
        ih (fun q hq => hplain q (List.mem_cons_of_mem _ hq))
          (fun q hq => hheading q (List.mem_cons_of_mem _ hq))
          (fun q hq => hcounted q (List.mem_cons_of_mem _ hq)),
        foldl_text (hplain p List.mem_cons_self) (hheading p List.mem_cons_self)
          (hcounted p List.mem_cons_self),
        List.flatMap_cons, List.toFinset_append, Finset.union_assoc]

theorem mem_placed {parts : List Part} {o n : Nat} {p : Placed} (h : p ∈ placed o n parts) :
    ∃ part ∈ parts, p.hunk = part.hunk := by
  induction parts generalizing o n with
  | nil => cases h
  | cons part parts ih =>
      rcases List.mem_cons.mp h with rfl | h
      · exact ⟨part, List.mem_cons_self, rfl⟩
      · obtain ⟨part', hpart', heq⟩ := ih h
        exact ⟨part', List.mem_cons_of_mem _ hpart', heq⟩

theorem mem_headerPath {side c : Char} {t : Text} (h : c ∈ headerPath side t) : c ∈ t := by
  have hdrop : ∀ {t' : Text}, c ∈ t'.dropWhile isBlank → c ∈ t' := fun h =>
    (List.dropWhile_sublist isBlank).mem h
  rw [headerPath] at h
  split_ifs at h
  · exact List.mem_of_mem_drop (hdrop (List.mem_of_mem_drop h))
  · exact List.mem_of_mem_drop (hdrop h)

theorem newline_notMem_find {header : List Text} (h : ∀ t ∈ header, '\n' ∉ t) (start : String) :
    '\n' ∉ (header.find? (startsWith start)).getD [] := by
  cases hfind : header.find? (startsWith start) with
  | none => simp
  | some t => exact h t (List.mem_of_find?_eq_some hfind)

theorem mem_headerLinesOf {d : Diff} {t : Text} (hheader : ∀ t ∈ d.header, '\n' ∉ t)
    (h : t ∈ headerLinesOf d) : t ∈ d.header ∨ (t.head? = some 'd' ∧ '\n' ∉ t) := by
  rw [headerLinesOf, normalizedHeaderLines] at h
  split_ifs at h
  · exact .inl h
  · rcases List.mem_cons.mp h with rfl | h
    · refine .inr ⟨rfl, fun hmem => ?_⟩
      have ha : '\n' ∉ "diff --git a/".toList := by decide
      have hb : '\n' ∉ " b/".toList := by decide
      rcases List.mem_append.mp hmem with hmem | hmem
      · rcases List.mem_append.mp hmem with hmem | hmem
        · rcases List.mem_append.mp hmem with hmem | hmem
          · exact ha hmem
          · exact newline_notMem_find hheader "--- " (mem_headerPath hmem)
        · exact hb hmem
      · exact newline_notMem_find hheader "+++ " (mem_headerPath hmem)
    · exact .inl h

theorem extractLine_d {t : Text} (h : t.head? = some 'd') (s : ExtractState) : extractLine s t = s := by
  obtain ⟨rest, rfl⟩ : ∃ rest, t = 'd' :: rest := by
    cases t with
    | nil => cases h
    | cons c rest => exact ⟨rest, by rw [Option.some.inj h]⟩
  have hheader : parseHunkHeader ('d' :: rest) = none :=
    parseHunkHeader_eq_none fun hstarts => by
      obtain ⟨tail, htail⟩ := hstarts
      exact absurd (List.cons.inj htail).1 (by decide)
  simp [extractLine, hheader, startsWith]

theorem foldl_headerLines {d : Diff} (h : ∀ t ∈ d.header, IsHeaderLine t) (s : ExtractState) :
    (headerLinesOf d).foldl extractLine s = s := by
  have hline : ∀ t ∈ headerLinesOf d, ∀ s, extractLine s t = s := by
    intro t ht s
    rcases mem_headerLinesOf (fun t ht => (h t ht).1) ht with ht | ⟨ht, -⟩
    · exact extractLine_header (h t ht) s
    · exact extractLine_d ht s
  generalize headerLinesOf d = lines at hline
  induction lines with
  | nil => rfl
  | cons t lines ih =>
      rw [List.foldl_cons, hline t List.mem_cons_self]
      exact ih fun t' ht' => hline t' (List.mem_cons_of_mem _ ht')

theorem newline_notMem_text {p : Placed} (hheading : ∀ c ∈ p.hunk.heading, isLineTerminator c = false)
    (hlines : ∀ l ∈ p.hunk.body, '\n' ∉ l.line.text) : ∀ t ∈ p.text keys mode, '\n' ∉ t := by
  intro t ht
  rw [Placed.text] at ht
  split_ifs at ht
  · rcases List.mem_cons.mp ht with rfl | ht
    · refine newline_notMem_renderHeader _ _ _ _ _ fun hmem => ?_
      exact absurd (headingSuffix_line hheading '\n' hmem) (by decide)
    · obtain ⟨line, hline, rfl⟩ := List.mem_map.mp ht
      rcases mem_emittedBody hline with h | ⟨kind, l, hl, h⟩
      · rw [h]
        decide
      · have hsign : '\n' ≠ prefixOf kind := by cases kind <;> decide
        rw [h]
        exact List.not_mem_cons_of_ne_of_not_mem hsign (hlines l.1 (mem_marked hl))
  · cases ht

theorem splitOn_patch {d : Diff} (h : d.WellFormed) :
    (['\n'].intercalate (patchLines keys mode d)).splitOn '\n' = patchLines keys mode d := by
  refine List.splitOn_intercalate '\n' (fun t ht => ?_) (by simp [patchLines])
  rcases List.mem_append.mp ht with ht | ht
  · rcases List.mem_append.mp ht with ht | ht
    · rcases mem_headerLinesOf (fun t ht => (h.header t ht).1) ht with ht | ⟨-, ht⟩
      · exact (h.header t ht).1
      · exact ht
    · obtain ⟨p, hp, ht⟩ := List.mem_flatMap.mp ht
      obtain ⟨part, hpart, heq⟩ := mem_placed hp
      exact newline_notMem_text (heq ▸ h.heading part hpart) (heq ▸ h.lines part hpart) t ht
  · obtain rfl := List.mem_singleton.mp ht
    simp

theorem extract_patch {d : Diff} (h : d.WellFormed)
    (hplain : ∀ p ∈ d.parts, ∀ l ∈ p.hunk.body, Plain l) :
    extractSelectedDiffLineKeysFromPatch (['\n'].intercalate (patchLines keys mode d)) =
      ((placed 0 0 d.parts).flatMap (Placed.patchKeys keys mode)).toFinset := by
  have hempty : ∀ s, extractLine s [] = s := by
    intro s
    have hheader : parseHunkHeader [] = none := rfl
    simp [extractLine, hheader, startsWith]
  have hhunks := @foldl_texts keys mode (placed 0 0 d.parts)
    (fun p hp => by
      obtain ⟨part, hpart, heq⟩ := mem_placed hp
      exact heq ▸ hplain part hpart)
    (fun p hp => by
      obtain ⟨part, hpart, heq⟩ := mem_placed hp
      exact heq ▸ h.heading part hpart)
    counted_placed ⟨0, 0, ∅⟩
  rw [extractSelectedDiffLineKeysFromPatch, splitOn_patch h, patchLines, List.foldl_append,
    List.foldl_append, foldl_headerLines h.header, List.foldl_cons, List.foldl_nil, hempty, hhunks]
  simp

end DevPilot.Staging
