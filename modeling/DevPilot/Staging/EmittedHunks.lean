import DevPilot.Staging.SelectedBody

/-!
The lines that are emitted for a hunk, and the hunks of the patch.
-/

namespace DevPilot.Staging

open UnifiedDiff DevPilot.Diffs

def markerAfter (l : BodyLine) (carry : Bool) : List EmittedHunkLine :=
  if l.line.ended || !carry then [] else [⟨marker, none, none, carry⟩]

/-- What is emitted, where `carry` says whether the line emitted last carries a change. -/
def emittedBody (mode : PatchSelectionMode) : Bool → Nat → Nat → Marked → List EmittedHunkLine
  | _, _, _, [] => []
  | carry, o, n, (l, selected) :: rest =>
      match outcome mode l.kind selected with
      | none =>
          markerAfter l carry ++ emittedBody mode carry (o + oldStep l) (n + newStep l) rest
      | some (kind, change) =>
          ⟨prefixOf kind :: l.line.text, some o, some n, change⟩ ::
            (markerAfter l change ++ emittedBody mode change (o + oldStep l) (n + newStep l) rest)

def carryAfter (carry : Bool) (lines : List EmittedHunkLine) : Bool :=
  match lines.getLast? with
  | none => carry
  | some line => line.carriesChange

theorem carryAfter_append (carry : Bool) (a b : List EmittedHunkLine) :
    carryAfter carry (a ++ b) = carryAfter (carryAfter carry a) b := by
  cases b using List.reverseRecOn with
  | nil => simp [carryAfter]
  | append_singleton b line => simp [carryAfter, ← List.append_assoc]

theorem dropMarkers_append (carry : Bool) (a b : List EmittedHunkLine) :
    dropMarkers carry (a ++ b) = dropMarkers carry a ++ dropMarkers (carryAfter carry a) b := by
  induction a generalizing carry with
  | nil => rfl
  | cons line a ih =>
      have hcarry : carryAfter carry (line :: a) = carryAfter line.carriesChange a := by
        rw [← List.singleton_append, carryAfter_append]
        rfl
      rw [List.cons_append, dropMarkers, dropMarkers, hcarry, ih]
      split_ifs <;> rfl

variable {keys : Finset SelectedDiffLineKey} {mode : PatchSelectionMode}

theorem isSelectedRef_pos (side : Side) {number : Nat} (h : 0 < number) :
    isSelectedRef keys side (some number) = decide (⟨side, number⟩ ∈ keys) := by
  simp [isSelectedRef, buildSelectedDiffLineKey, Nat.ne_of_gt h]

structure Counted (o n : Nat) (body : List BodyLine) : Prop where
  old : 0 < o ∨ ∀ l ∈ body, l.kind ≠ .delete
  new : 0 < n ∨ ∀ l ∈ body, l.kind ≠ .add

theorem Counted.tail {o n : Nat} {l : BodyLine} {rest : List BodyLine} (h : Counted o n (l :: rest)) :
    Counted (o + oldStep l) (n + newStep l) rest where
  old := by
    rcases h.old with hold | hold
    · exact .inl (by omega)
    · exact .inr fun l' hl' => hold l' (List.mem_cons_of_mem _ hl')
  new := by
    rcases h.new with hnew | hnew
    · exact .inl (by omega)
    · exact .inr fun l' hl' => hnew l' (List.mem_cons_of_mem _ hl')

theorem isSelected_parsed {o n : Nat} {l : BodyLine} {rest : List BodyLine}
    (h : Counted o n (l :: rest)) (text : Text) :
    isSelected keys ⟨text, parsedKind l.kind, some o, some n⟩ =
      (keyOf o n l).any fun key => decide (key ∈ keys) := by
  obtain ⟨kind, line⟩ := l
  cases kind with
  | context => rfl
  | delete =>
      have ho : 0 < o := h.old.resolve_right fun hnone => hnone _ List.mem_cons_self rfl
      exact isSelectedRef_pos .deletions ho
  | add =>
      have hn : 0 < n := h.new.resolve_right fun hnone => hnone _ List.mem_cons_self rfl
      exact isSelectedRef_pos .additions hn

structure Extends (s s' : EmitState) (selected : Bool) (emitted : List EmittedHunkLine) : Prop where
  selected_eq : s'.hasSelectedChange = (s.hasSelectedChange || selected)
  exists_lines : ∃ lines, s'.emitted = s.emitted ++ lines ∧
    dropMarkers (carryAfter false s.emitted) lines = emitted

theorem Extends.trans {s s' s'' : EmitState} {b b' : Bool} {e e' : List EmittedHunkLine}
    (h : Extends s s' b e) (h' : Extends s' s'' b' e') : Extends s s'' (b || b') (e ++ e') where
  selected_eq := by rw [h'.selected_eq, h.selected_eq, Bool.or_assoc]
  exists_lines := by
    obtain ⟨lines, hlines, hdrop⟩ := h.exists_lines
    obtain ⟨lines', hlines', hdrop'⟩ := h'.exists_lines
    refine ⟨lines ++ lines', by rw [hlines', hlines, List.append_assoc], ?_⟩
    rw [dropMarkers_append, hdrop, ← carryAfter_append, ← hlines, hdrop']

theorem extends_push (s : EmitState) (line : EmittedHunkLine) (h : line.text ≠ marker) :
    Extends s (s.push line) false [line] where
  selected_eq := by simp [EmitState.push]
  exists_lines := ⟨[line], rfl, by simp [dropMarkers, h]⟩

theorem extends_marker (s : EmitState) (l : BodyLine) :
    Extends s ((parsedMarker l).foldl (EmitState.line keys mode) s) false
        (markerAfter l (carryAfter false s.emitted)) ∧
      carryAfter false ((parsedMarker l).foldl (EmitState.line keys mode) s).emitted =
        carryAfter false s.emitted := by
  rw [parsedMarker, markerAfter]
  cases hended : l.line.ended with
  | true => exact ⟨⟨by simp, [], by simp [dropMarkers]⟩, rfl⟩
  | false =>
      cases hlast : s.emitted.getLast? with
      | none =>
          have hnil := List.getLast?_eq_none_iff.mp hlast
          refine ⟨⟨by simp [EmitState.line, hlast], [], ?_⟩, by simp [EmitState.line, hlast]⟩
          simp [EmitState.line, hlast, hnil, carryAfter, dropMarkers]
      | some previous =>
          have hcarry : carryAfter false s.emitted = previous.carriesChange := by
            simp [carryAfter, hlast]
          rw [hcarry]
          constructor
          · refine ⟨by simp [EmitState.line, hlast, EmitState.push],
              [⟨marker, none, none, previous.carriesChange⟩], ?_, ?_⟩
            · simp [EmitState.line, hlast, EmitState.push]
            · cases hchange : previous.carriesChange <;> simp [dropMarkers, hcarry, hchange]
          · simp [EmitState.line, hlast, EmitState.push, carryAfter]

theorem line_selected {p : ParsedHunkLine} (s : EmitState) (hkind : p.kind = .add ∨ p.kind = .delete)
    (h : isSelected keys p = true) : s.line keys mode p = s.pushChange p := by
  rcases hkind with hkind | hkind <;> simp only [EmitState.line, hkind, h, if_true]

theorem line_add {p : ParsedHunkLine} (s : EmitState) (hkind : p.kind = .add)
    (h : isSelected keys p = false) :
    s.line keys mode p = if mode = .unstage then s.pushContext p else s := by
  simp only [EmitState.line, hkind, h, Bool.false_eq_true, if_false]

theorem line_delete {p : ParsedHunkLine} (s : EmitState) (hkind : p.kind = .delete)
    (h : isSelected keys p = false) :
    s.line keys mode p = if mode = .stage then s.pushContext p else s := by
  simp only [EmitState.line, hkind, h, Bool.false_eq_true, if_false]

theorem emit_line {o n : Nat} {l : BodyLine} {selected : Bool} (s : EmitState)
    (hselected : isSelected keys ⟨prefixOf l.kind :: l.line.text, parsedKind l.kind, some o, some n⟩ =
      selected) (hcontext : l.kind = .context → selected = false) :
    match outcome mode l.kind selected with
    | none => selected = false ∧ s.line keys mode
        ⟨prefixOf l.kind :: l.line.text, parsedKind l.kind, some o, some n⟩ = s
    | some (kind, change) => selected = change ∧ s.line keys mode
        ⟨prefixOf l.kind :: l.line.text, parsedKind l.kind, some o, some n⟩ =
          { s with
            emitted := s.emitted ++ [⟨prefixOf kind :: l.line.text, some o, some n, change⟩]
            hasSelectedChange := s.hasSelectedChange || change } := by
  obtain ⟨kind, line⟩ := l
  cases kind with
  | context => simp [outcome, EmitState.line, parsedKind, EmitState.push, hcontext rfl]
  | delete =>
      cases selected with
      | true => simp [outcome, line_selected s (.inr rfl) hselected, EmitState.pushChange]
      | false =>
          cases mode with
          | stage =>
              refine ⟨rfl, (line_delete s rfl hselected).trans ?_⟩
              simp [EmitState.pushContext, EmitState.push, prefixOf]
          | unstage => simp [outcome, line_delete s rfl hselected]
  | add =>
      cases selected with
      | true => simp [outcome, line_selected s (.inl rfl) hselected, EmitState.pushChange]
      | false =>
          cases mode with
          | stage => simp [outcome, line_add s rfl hselected]
          | unstage =>
              refine ⟨rfl, (line_add s rfl hselected).trans ?_⟩
              simp [EmitState.pushContext, EmitState.push, prefixOf]

theorem extends_body {o n : Nat} {body : List BodyLine} (hplain : ∀ l ∈ body, Plain l)
    (h : Counted o n body) (s : EmitState) :
    Extends s ((parsedBody o n body).foldl (EmitState.line keys mode) s)
      ((marked keys o n body).any Prod.snd)
      (emittedBody mode (carryAfter false s.emitted) o n (marked keys o n body)) := by
  induction body generalizing o n s with
  | nil => exact ⟨by simp [parsedBody, marked], [], by simp [parsedBody], rfl⟩
  | cons l rest ih =>
      have hselected := @isSelected_parsed keys o n l rest h (prefixOf l.kind :: l.line.text)
      have hcontext : l.kind = .context →
          ((keyOf o n l).any fun key => decide (key ∈ keys)) = false := fun hkind => by
        simp [keyOf, hkind]
      have hline := @emit_line keys mode o n l _ s hselected hcontext
      have hread := hplain l List.mem_cons_self
      have hrest := fun l' hl' => hplain l' (List.mem_cons_of_mem _ hl')
      rw [parsedBody, readKind, readOld, readNew, if_pos hread, if_pos hread, if_pos hread,
        List.foldl_cons, List.foldl_append, marked, List.any_cons, emittedBody]
      generalize (keyOf o n l).any (fun key => decide (key ∈ keys)) = selected at hline
      cases hout : outcome mode l.kind selected with
      | none =>
          rw [hout] at hline
          obtain ⟨rfl, hstate⟩ := hline
          rw [hstate]
          obtain ⟨hmarker, hcarry⟩ := @extends_marker keys mode s l
          have hall := hmarker.trans (ih hrest h.tail _)
          rwa [hcarry] at hall
      | some out =>
          obtain ⟨kind, change⟩ := out
          rw [hout] at hline
          obtain ⟨rfl, hstate⟩ := hline
          rw [hstate]
          set s' : EmitState := { s with
            emitted := s.emitted ++ [⟨prefixOf kind :: l.line.text, some o, some n, selected⟩]
            hasSelectedChange := s.hasSelectedChange || selected } with hs'
          have hpush : Extends s s' selected
              [⟨prefixOf kind :: l.line.text, some o, some n, selected⟩] :=
            ⟨rfl, _, rfl, by simp [dropMarkers, ne_marker]⟩
          have hcarry' : carryAfter false s'.emitted = selected := by simp [hs', carryAfter]
          obtain ⟨hmarker, hcarry⟩ := @extends_marker keys mode s' l
          have hall := hpush.trans (hmarker.trans (ih hrest h.tail _))
          rw [hcarry, hcarry', Bool.false_or] at hall
          exact hall

theorem hasSelectedChange_foldl (lines : List ParsedHunkLine) (s : EmitState) :
    (lines.foldl (EmitState.line keys mode) s).hasSelectedChange =
      (s.hasSelectedChange || lines.any (isSelected keys)) := by
  have hline : ∀ (s : EmitState) (p : ParsedHunkLine),
      (s.line keys mode p).hasSelectedChange = (s.hasSelectedChange || isSelected keys p) := by
    intro s p
    cases hkind : p.kind with
    | context => simp [EmitState.line, hkind, EmitState.push, isSelected]
    | other => simp [EmitState.line, hkind, EmitState.push, isSelected]
    | marker =>
        cases hlast : s.emitted.getLast? <;>
          simp [EmitState.line, hkind, hlast, EmitState.push, isSelected]
    | add =>
        cases h : isSelected keys p with
        | true => simp [line_selected s (.inl hkind) h, EmitState.pushChange]
        | false =>
            rw [line_add s hkind h]
            split_ifs <;> simp [EmitState.pushContext, EmitState.push]
    | delete =>
        cases h : isSelected keys p with
        | true => simp [line_selected s (.inr hkind) h, EmitState.pushChange]
        | false =>
            rw [line_delete s hkind h]
            split_ifs <;> simp [EmitState.pushContext, EmitState.push]
  induction lines generalizing s with
  | nil => simp
  | cons p lines ih => rw [List.foldl_cons, ih, hline, List.any_cons, Bool.or_assoc]

theorem renderedHunk_unselected {p : ParsedHunk} (h : ∀ l ∈ p.lines, isSelected keys l = false) :
    renderedHunk keys mode p = [] := by
  have hnone : p.lines.any (isSelected keys) = false := by simpa using h
  have hstate := @hasSelectedChange_foldl keys mode p.lines ⟨[], false⟩
  rw [hnone] at hstate
  rw [renderedHunk, emitHunk, hstate]
  rfl

def tailText (trailing : Bool) : List Text := if trailing then [[]] else []

def tailLines (trailing : Bool) (o n : Nat) : List EmittedHunkLine :=
  if trailing then [⟨[], some o, some n, false⟩] else []

theorem emitHunk_eq {o n o' n' : Nat} {body : List BodyLine} (hplain : ∀ l ∈ body, Plain l)
    (h : Counted o n body) (trailing : Bool) :
    emitHunk (parsedBody o n body ++ parsedTail trailing o' n') keys mode =
      if (marked keys o n body).any Prod.snd then
        some (emittedBody mode false o n (marked keys o n body) ++ tailLines trailing o' n')
      else none := by
  have hbody := @extends_body keys mode o n body hplain h ⟨[], false⟩
  have htail : ∀ s : EmitState, Extends s
      ((parsedTail trailing o' n').foldl (EmitState.line keys mode) s) false
      (tailLines trailing o' n') := by
    intro s
    cases trailing with
    | false => exact ⟨by simp [parsedTail], [], by simp [parsedTail], rfl⟩
    | true =>
        have hmarker : ([] : Text) ≠ marker := by decide
        exact extends_push s ⟨[], some o', some n', false⟩ hmarker
  have hall := hbody.trans (htail _)
  obtain ⟨lines, hlines, hdrop⟩ := hall.exists_lines
  rw [emitHunk, List.foldl_append, hall.selected_eq, hlines, List.nil_append]
  simp only [Bool.false_or, Bool.or_false]
  split_ifs
  · exact congrArg some hdrop
  · rfl

theorem contentLines_emittedBody (carry : Bool) (o n : Nat) (lines : Marked) :
    ((emittedBody mode carry o n lines).filter fun line => line.text ≠ marker).map
        EmittedHunkLine.text =
      (selectedBody mode lines).map fun l => prefixOf l.kind :: l.line.text := by
  induction lines generalizing carry o n with
  | nil => rfl
  | cons entry rest ih =>
      obtain ⟨l, selected⟩ := entry
      have hmarker : ∀ b, (markerAfter l b).filter (fun line => line.text ≠ marker) = [] := by
        intro b
        rw [markerAfter]
        split_ifs <;> simp
      rw [emittedBody, selectedBody, List.filterMap_cons]
      cases hout : outcome mode l.kind selected with
      | none =>
          dsimp only [Option.map_none]
          rw [List.filter_append, hmarker, List.nil_append]
          exact ih _ _ _
      | some out =>
          dsimp only [Option.map_some]
          rw [List.filter_cons_of_pos (by simpa using ne_marker _ _), List.filter_append, hmarker,
            List.nil_append, List.map_cons, List.map_cons, ih]
          rfl

def firstRefs (mode : PatchSelectionMode) : Nat → Nat → Marked → Nat × Nat
  | o, n, [] => (o, n)
  | o, n, (l, selected) :: rest =>
      if (outcome mode l.kind selected).isNone then
        firstRefs mode (o + oldStep l) (n + newStep l) rest
      else (o, n)

theorem markerAfter_filter (l : BodyLine) (b : Bool) :
    (markerAfter l b).filter (fun line => line.text ≠ marker) = [] := by
  rw [markerAfter]
  split_ifs <;> simp

theorem head_contentLines {carry : Bool} {o n : Nat} {lines : Marked} {first : EmittedHunkLine}
    (h : first ∈ ((emittedBody mode carry o n lines).filter fun line => line.text ≠ marker).head?) :
    first.oldRef = some (firstRefs mode o n lines).1 ∧
      first.newRef = some (firstRefs mode o n lines).2 := by
  induction lines generalizing carry o n with
  | nil => simp [emittedBody] at h
  | cons entry rest ih =>
      obtain ⟨l, selected⟩ := entry
      rw [emittedBody] at h
      rw [firstRefs]
      cases hout : outcome mode l.kind selected with
      | none =>
          rw [hout] at h
          dsimp only at h
          rw [List.filter_append, markerAfter_filter, List.nil_append] at h
          exact ih h
      | some out =>
          rw [hout] at h
          dsimp only at h
          rw [List.filter_cons_of_pos (by simpa using ne_marker _ _)] at h
          obtain rfl := Option.some.inj h
          exact ⟨rfl, rfl⟩

theorem selectedBody_ne_nil {lines : Marked} (h : lines.any Prod.snd = true)
    (hcontext : ∀ l ∈ lines, l.1.kind = .context → l.2 = false) : selectedBody mode lines ≠ [] := by
  obtain ⟨⟨l, selected⟩, hmem, hselected⟩ := List.any_eq_true.mp h
  obtain rfl : selected = true := hselected
  have hout : ∃ out, outcome mode l.kind true = some out := by
    cases hkind : l.kind with
    | context => exact absurd (hcontext _ hmem hkind) (by simp)
    | delete => exact ⟨_, rfl⟩
    | add => exact ⟨_, rfl⟩
  obtain ⟨out, hout⟩ := hout
  exact List.ne_nil_of_mem (List.mem_filterMap.mpr ⟨_, hmem, by rw [hout]; rfl⟩)

theorem marked_context {o n : Nat} {body : List BodyLine} :
    ∀ l ∈ marked keys o n body, l.1.kind = .context → l.2 = false := by
  induction body generalizing o n with
  | nil => simp [marked]
  | cons l rest ih =>
      intro entry hentry hkind
      rcases List.mem_cons.mp hentry with rfl | hentry
      · dsimp only at hkind
        simp [keyOf, hkind]
      · exact ih entry hentry hkind

theorem startsWith_cons {a : Char} {s : String} (hs : s.toList = [a]) (b : Char) (t : Text) :
    startsWith s (b :: t) = decide (a = b) := by
  simp [startsWith, hs, List.isPrefixOf, beq_eq_decide]

theorem countP_content {content : List EmittedHunkLine} {body : List BodyLine} {f : Text → Bool}
    {side : BodyLine → Bool} (hcontent : content.map EmittedHunkLine.text =
      body.map fun l => prefixOf l.kind :: l.line.text)
    (hside : ∀ l : BodyLine, f (prefixOf l.kind :: l.line.text) = side l) :
    content.countP (fun line => f line.text) = body.countP side := by
  have hmap : (content.map EmittedHunkLine.text).countP f =
      (body.map fun l => prefixOf l.kind :: l.line.text).countP f := by rw [hcontent]
  rw [List.countP_map, List.countP_map] at hmap
  exact hmap.trans (List.countP_congr fun l _ => by simp [hside])

theorem oldSign (l : BodyLine) :
    (startsWith " " (prefixOf l.kind :: l.line.text) ||
      startsWith "-" (prefixOf l.kind :: l.line.text)) = l.isOld := by
  rw [@startsWith_cons ' ' " " rfl, @startsWith_cons '-' "-" rfl, BodyLine.isOld]
  cases l.kind <;> decide

theorem newSign (l : BodyLine) :
    (startsWith " " (prefixOf l.kind :: l.line.text) ||
      startsWith "+" (prefixOf l.kind :: l.line.text)) = l.isNew := by
  rw [@startsWith_cons ' ' " " rfl, @startsWith_cons '+' "+" rfl, BodyLine.isNew]
  cases l.kind <;> decide

theorem renderedHunk_eq {o n o' n' : Nat} {body : List BodyLine} (hplain : ∀ l ∈ body, Plain l)
    (h : Counted o n body) (heading : Text) (trailing : Bool) :
    renderedHunk keys mode ⟨heading, parsedBody o n body ++ parsedTail trailing o' n'⟩ =
      if (marked keys o n body).any Prod.snd then
        renderHeader false (firstRefs mode o n (marked keys o n body)).1
          ((selectedBody mode (marked keys o n body)).countP BodyLine.isOld)
          (firstRefs mode o n (marked keys o n body)).2
          ((selectedBody mode (marked keys o n body)).countP BodyLine.isNew)
          (headingSuffix heading) ::
          ((emittedBody mode false o n (marked keys o n body)).map EmittedHunkLine.text ++
            tailText trailing)
      else [] := by
  rw [renderedHunk, emitHunk_eq hplain h]
  cases hany : (marked keys o n body).any Prod.snd with
  | false => rfl
  | true =>
      set lines := marked keys o n body with hlines
      have hcontent := @contentLines_emittedBody mode false o n lines
      have hhead := @head_contentLines mode false o n lines
      have hne : selectedBody mode lines ≠ [] := selectedBody_ne_nil hany marked_context
      have htail : (tailLines trailing o' n').filter (fun line => line.text ≠ marker) =
          tailLines trailing o' n' := by
        have hmarker : ([] : Text) ≠ marker := by decide
        cases trailing <;> simp [tailLines, hmarker]
      have hcount : ∀ (sign : String) (a : Char), sign.toList = [a] →
          (tailLines trailing o' n').countP (fun line => startsWith " " line.text ||
            startsWith sign line.text) = 0 := by
        intro sign a hsign
        cases trailing <;> simp [tailLines, startsWith, hsign, List.isPrefixOf]
      have htails : (tailLines trailing o' n').map EmittedHunkLine.text = tailText trailing := by
        cases trailing <;> rfl
      rw [if_pos rfl, if_pos rfl]
      dsimp only
      rw [computeHunkHeaderLines]
      dsimp only
      rw [List.filter_append, htail]
      cases hfilter : (emittedBody mode false o n lines).filter fun line => line.text ≠ marker with
      | nil =>
          rw [hfilter, List.map_nil] at hcontent
          exact absurd (List.map_eq_nil_iff.mp hcontent.symm) hne
      | cons first content =>
          rw [hfilter] at hcontent hhead
          obtain ⟨hold, hnew⟩ := hhead rfl
          rw [List.cons_append]
          dsimp only
          rw [← List.cons_append, List.countP_append, List.countP_append,
            hcount "-" '-' rfl, hcount "+" '+' rfl,
            @countP_content _ _ (fun t => startsWith " " t || startsWith "-" t) _ hcontent oldSign,
            @countP_content _ _ (fun t => startsWith " " t || startsWith "+" t) _ hcontent newSign,
            hold, hnew, List.map_append, htails]
          rfl

end DevPilot.Staging
