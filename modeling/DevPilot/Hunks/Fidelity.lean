import DevPilot.Hunks.AlignedLines

/-!
The hunks stand on the aligned line sequence as its changed lines do: every hunk is the window
around its changes when no two changes next to each other lie at a distance at which the
windows fall apart and the hunk is not cut.
-/

namespace DevPilot.Hunks

open UnifiedDiff DevPilot.Diffs ContextWindows

/-- The numbers of the sequence are those of the lines in both texts. -/
structure Aligned (oldText newText : Text) (full : List DiffLine) : Prop where
  old : full.filterMap (fun l => l.oldLineNumber.map (l.content, ·)) = (linesOf oldText).zipIdx 1
  new : full.filterMap (fun l => l.newLineNumber.map (l.content, ·)) = (linesOf newText).zipIdx 1

/-- `part` runs from `c` lines before a change to `c` lines behind one, or to the edge of the
sequence. -/
structure Window (c : Nat) (full part : List DiffLine) : Prop where
  split : ∃ pre before inner after post, full = pre ++ (before ++ inner ++ after) ++ post ∧
    part = before ++ inner ++ after ∧ (∀ l ∈ before ++ after, isChange l = false) ∧
    (∃ l ∈ inner.head?, isChange l) ∧ (∃ l ∈ inner.getLast?, isChange l) ∧
    before.length ≤ c ∧ (before.length = c ∨ pre = []) ∧
    after.length ≤ c ∧ (after.length = c ∨ post = [])

/-- The hunks against the aligned line sequence `full`. -/
structure Faithful (c : Nat) (full : List DiffLine) (hunks : List DiffHunk) : Prop where
  ordered : (hunks.flatMap fun h => h.lines.map bare).Sublist full
  changes : (hunks.flatMap fun h => h.lines.map bare).filter isChange = full.filter isChange
  window : ∀ h ∈ hunks, Window c full (h.lines.map bare)
  oldStart : ∀ h ∈ hunks, ∀ n ∈ h.lines.findSome? DiffLine.oldLineNumber, h.oldStart = n
  newStart : ∀ h ∈ hunks, ∀ n ∈ h.lines.findSome? DiffLine.newLineNumber, h.newStart = n
  oldLines : ∀ h ∈ hunks, h.oldLines = h.lines.countP fun l => l.oldLineNumber.isSome
  newLines : ∀ h ∈ hunks, h.newLines = h.lines.countP fun l => l.newLineNumber.isSome
  tokens : ∀ h ∈ hunks, ∀ l ∈ h.lines, ∀ tokens ∈ l.tokens,
    tokens.flatMap DiffToken.value = l.content

section Places

variable {lines : List DiffLine} {places : List Nat} {c m : Nat}

@[simp] theorem linesAt_append (p q : List Nat) :
    linesAt lines (p ++ q) = linesAt lines p ++ linesAt lines q := List.filterMap_append

theorem linesAt_flatten (groups : List (List Nat)) :
    linesAt lines groups.flatten = groups.flatMap (linesAt lines) := by
  induction groups with
  | nil => rfl
  | cons group groups ih => rw [List.flatten_cons, linesAt_append, ih, List.flatMap_cons]

theorem map_bare_linesAt (lines : List DiffLine) (places : List Nat) :
    (linesAt lines places).map bare = linesAt (lines.map bare) places := by
  rw [linesAt, linesAt, List.map_filterMap]
  congr 1
  funext i
  rw [List.getElem?_map]

theorem mem_linesAt {l : DiffLine} : l ∈ linesAt lines places ↔ ∃ m ∈ places, lines[m]? = some l :=
  List.mem_filterMap

theorem length_linesAt (h : ∀ m ∈ places, m < lines.length) :
    (linesAt lines places).length = places.length := by
  induction places with
  | nil => rfl
  | cons m places ih =>
      have hm := List.getElem?_eq_getElem (h m List.mem_cons_self)
      have hrest := ih fun m hm => h m (List.mem_cons_of_mem _ hm)
      rw [linesAt, List.filterMap_cons_some hm, List.length_cons, List.length_cons]
      exact congrArg (· + 1) hrest

theorem linesAt_range (lines : List DiffLine) :
    linesAt lines (List.range' 0 lines.length) = lines := by
  induction lines using List.reverseRecOn with
  | nil => rfl
  | append_singleton lines l ih =>
      have hinit : linesAt (lines ++ [l]) (List.range' 0 lines.length) =
          linesAt lines (List.range' 0 lines.length) := by
        refine List.filterMap_congr fun m hm => ?_
        have hm : m < lines.length := by simpa using hm
        rw [List.getElem?_append_left hm]
      rw [List.length_append, List.length_singleton, List.range'_concat, linesAt_append, hinit, ih]
      simp [linesAt]

theorem sublist_range (hsorted : places.Pairwise (· < ·)) (hbound : ∀ m ∈ places, m < c) :
    places.Sublist (List.range' 0 c) :=
  List.sublist_of_subperm_of_pairwise
    (List.subperm_of_subset (hsorted.imp fun h => Nat.ne_of_lt h) fun m hm => by
      simpa using hbound m hm)
    hsorted List.pairwise_lt_range'

theorem linesAt_sublist (hsorted : places.Pairwise (· < ·))
    (hbound : ∀ m ∈ places, m < lines.length) : (linesAt lines places).Sublist lines := by
  have h : (linesAt lines places).Sublist (linesAt lines (List.range' 0 lines.length)) :=
    (sublist_range hsorted hbound).filterMap (lines[·]?)
  rwa [linesAt_range] at h

theorem linesAt_split {a b : Nat} (hab : a ≤ b) (hb : b ≤ lines.length) :
    lines = linesAt lines (List.range' 0 a) ++ linesAt lines (List.range' a (b - a)) ++
      linesAt lines (List.range' b (lines.length - b)) := by
  have hfirst : List.range' 0 a ++ List.range' a (b - a) = List.range' 0 b := by
    have h := @List.range'_append_1 0 a (b - a)
    rw [Nat.zero_add, Nat.add_sub_cancel' hab] at h
    exact h
  have hall : List.range' 0 b ++ List.range' b (lines.length - b) = List.range' 0 lines.length := by
    have h := @List.range'_append_1 0 b (lines.length - b)
    rw [Nat.zero_add, Nat.add_sub_cancel' hb] at h
    exact h
  rw [← linesAt_append, hfirst, ← linesAt_append, hall, linesAt_range]

theorem span_eq_cons {a stop : Nat} (h : a ≤ stop) : span a stop = a :: span (a + 1) stop := by
  rw [span, span, show stop + 1 - a = (stop + 1 - (a + 1)) + 1 by omega, List.range'_succ]

theorem getElem?_of_linesAt {a stop : Nat} {l : DiffLine} {rest : List DiffLine} (h : a ≤ stop)
    (hstop : stop < lines.length) (hpart : linesAt lines (span a stop) = l :: rest) :
    lines[a]? = some l := by
  have ha := List.getElem?_eq_getElem (h.trans_lt hstop)
  rw [span_eq_cons h, linesAt, List.filterMap_cons_some ha] at hpart
  rw [ha, (List.cons.inj hpart).1]

end Places

theorem flatMap_lines_finishHunk (part : List DiffLine) :
    (finishHunk part).flatMap DiffHunk.lines = part := by
  cases part with
  | nil => rfl
  | cons l part => simp [finishHunk, hunkOf]

theorem flatMap_finishHunk (lines : List DiffLine) (current : List Nat) :
    ((if current = [] then [] else [current]).flatMap fun w => finishHunk (linesAt lines w)) =
      finishHunk (linesAt lines current) := by
  by_cases h : current = []
  · simp [h, linesAt, finishHunk]
  · simp [h]

theorem hunksFrom_eq (lines : List DiffLine) (c : Nat) (current : List Nat) (next : Nat)
    (marks : List Nat) :
    hunksFrom lines c (linesAt lines current) next marks =
      (windows c lines.length current next marks).flatMap fun w => finishHunk (linesAt lines w) := by
  fun_induction windows c lines.length current next marks with
  | case1 => simp [hunksFrom, linesAt, finishHunk]
  | case2 current next hne => simp [hunksFrom]
  | case3 current next k current' hnil =>
      have h : finishHunk (linesAt lines current') = [] := by simp [hnil, linesAt, finishHunk]
      simp only [hunksFrom, List.head?_nil, Option.any_none, List.flatMap_nil, ← linesAt_append]
      exact h
  | case4 current next k current' hne =>
      simp only [hunksFrom, List.head?_nil, Option.any_none, List.flatMap_singleton, ← linesAt_append]
      rfl
  | case5 current next k k' rest stop current' hcut ih =>
      have htest : c * 2 < k' - min (lines.length - 1) (k + c) := by
        simp only [stop, windowEnd] at hcut
        omega
      rw [List.flatMap_append, flatMap_finishHunk, ← ih, hunksFrom]
      simp only [List.head?_cons, Option.any_some, htest, decide_true, if_true, ← linesAt_append]
      rfl
  | case6 current next k k' rest stop current' hcut ih =>
      have htest : ¬ c * 2 < k' - min (lines.length - 1) (k + c) := by
        simp only [stop, windowEnd] at hcut
        omega
      rw [← ih, hunksFrom]
      simp only [List.head?_cons, Option.any_some, htest, decide_false, ← linesAt_append]
      rfl

section Changes

variable {lines : List DiffLine} {k : Nat}

theorem mem_changesOf : k ∈ changesOf lines ↔ ∃ l, lines[k]? = some l ∧ isChange l = true := by
  rw [changesOf, List.mem_map]
  constructor
  · rintro ⟨⟨l, k'⟩, hmem, rfl⟩
    obtain ⟨hl, hchange⟩ := List.mem_filter.mp hmem
    exact ⟨l, List.mem_zipIdx_iff_getElem?.mp hl, hchange⟩
  · rintro ⟨l, hl, hchange⟩
    exact ⟨(l, k), List.mem_filter.mpr ⟨List.mem_zipIdx_iff_getElem?.mpr hl, hchange⟩, rfl⟩

theorem lt_of_mem_changesOf (h : k ∈ changesOf lines) : k < lines.length := by
  obtain ⟨l, hl, -⟩ := mem_changesOf.mp h
  exact (List.getElem?_eq_some_iff.mp hl).1

theorem pairwise_changesOf : (changesOf lines).Pairwise (· < ·) := by
  have hplaces : lines.zipIdx.map Prod.snd = List.range' 0 lines.length := by simp
  have hsub : (changesOf lines).Sublist (List.range' 0 lines.length) := by
    rw [← hplaces]
    exact List.filter_sublist.map Prod.snd
  exact List.Pairwise.sublist hsub List.pairwise_lt_range'

theorem changesOf_map_bare (lines : List DiffLine) : changesOf (lines.map bare) = changesOf lines := by
  simp only [changesOf, List.zipIdx_map, List.filter_map, List.map_map]
  rfl

theorem changesOf_numbered (changes : List Change) :
    changesOf (numbered 1 1 (aligned changes)) = changedPlaces changes := by
  have h := numbered_shape (aligned changes) 1 1
  rw [changedPlaces]
  conv_rhs => rw [← h]
  simp only [changesOf, List.zipIdx_map, List.filter_map, List.map_map]
  rfl

theorem filter_linesAt {places : List Nat} (hsorted : places.Pairwise (· < ·))
    (hcovered : ∀ k ∈ changesOf lines, k ∈ places) :
    (linesAt lines places).filter isChange = linesAt lines (changesOf lines) := by
  have hfilter : (linesAt lines places).filter isChange =
      linesAt lines (places.filter fun m => lines[m]?.any isChange) := by
    clear hsorted hcovered
    induction places with
    | nil => rfl
    | cons m places ih =>
        simp only [linesAt] at ih ⊢
        cases h : lines[m]? with
        | none => simp [h, ih]
        | some l => cases hl : isChange l <;> simp [h, hl, ih]
  have hplaces : places.filter (fun m => lines[m]?.any isChange) = changesOf lines := by
    refine List.Subset.antisymm_of_pairwise (hsorted.filter _) pairwise_changesOf ?_ ?_
    · intro m hm
      obtain ⟨l, hl, hchange⟩ := Option.any_eq_true _ _ |>.mp (List.mem_filter.mp hm).2
      exact mem_changesOf.mpr ⟨l, hl, hchange⟩
    · intro m hm
      obtain ⟨l, hl, hchange⟩ := mem_changesOf.mp hm
      exact List.mem_filter.mpr ⟨hcovered m hm, by simp [hl, hchange]⟩
  rw [hfilter, hplaces]

theorem isChange_of_between {places : List Nat} {l : DiffLine}
    (h : ∀ m ∈ places, m ∉ changesOf lines) (hl : l ∈ linesAt lines places) :
    isChange l = false := by
  obtain ⟨m, hm, heq⟩ := mem_linesAt.mp hl
  exact Bool.eq_false_iff.mpr fun hchange => h m hm (mem_changesOf.mpr ⟨l, heq, hchange⟩)

theorem window_linesAt {c first last : Nat} (hfirst : first ∈ changesOf lines)
    (hlast : last ∈ changesOf lines) (hle : first ≤ last)
    (hbetween : ∀ k ∈ changesOf lines, k ∈ span (first - c) (windowEnd c lines.length last) →
      first ≤ k ∧ k ≤ last) :
    Window c lines (linesAt lines (span (first - c) (windowEnd c lines.length last))) := by
  have hlt := lt_of_mem_changesOf hlast
  have hend := windowEnd_lt (c := c) hlt
  have hreach := le_windowEnd (c := c) hlt
  have hinner : linesAt lines (span first last) ++
      linesAt lines (span (last + 1) (windowEnd c lines.length last)) =
        linesAt lines (span first (windowEnd c lines.length last)) := by
    rw [← linesAt_append, span_append (by omega) hreach]
  have hbefore : linesAt lines (List.range' (first - c) (first - (first - c))) ++
      linesAt lines (span first (windowEnd c lines.length last)) =
        linesAt lines (span (first - c) (windowEnd c lines.length last)) := by
    rw [← linesAt_append]
    congr 1
    have h := @List.range'_append_1 (first - c) (first - (first - c))
      (windowEnd c lines.length last + 1 - first)
    rw [show first - c + (first - (first - c)) = first by omega] at h
    rw [span, span, h]
    congr 1
    omega
  have hnormal : ∀ m, first - c ≤ m → m ≤ windowEnd c lines.length last →
      m < first ∨ last < m → m ∉ changesOf lines := by
    intro m hlow hhigh hout hm
    have := hbetween m hm (mem_span.mpr ⟨hlow, hhigh⟩)
    omega
  refine ⟨linesAt lines (List.range' 0 (first - c)),
    linesAt lines (List.range' (first - c) (first - (first - c))), linesAt lines (span first last),
    linesAt lines (span (last + 1) (windowEnd c lines.length last)),
    linesAt lines (List.range' (windowEnd c lines.length last + 1)
      (lines.length - (windowEnd c lines.length last + 1))), ?_, ?_, ?_, ?_, ?_, ?_, ?_, ?_, ?_⟩
  · rw [List.append_assoc (linesAt lines _) (linesAt lines _) (linesAt lines _), hinner, hbefore]
    exact linesAt_split (by omega) (by omega)
  · rw [List.append_assoc, hinner, hbefore]
  · intro l hl
    rcases List.mem_append.mp hl with hl | hl
    · refine isChange_of_between (fun m hm => ?_) hl
      have hm := List.mem_range'_1.mp hm
      exact hnormal m hm.1 (by omega) (.inl (by omega))
    · refine isChange_of_between (fun m hm => ?_) hl
      have hm := mem_span.mp hm
      exact hnormal m (by omega) hm.2 (.inr (by omega))
  · obtain ⟨l, hl, hchange⟩ := mem_changesOf.mp hfirst
    refine ⟨l, ?_, hchange⟩
    rw [span_eq_cons hle, linesAt, List.filterMap_cons_some hl]
    rfl
  · obtain ⟨l, hl, hchange⟩ := mem_changesOf.mp hlast
    refine ⟨l, ?_, hchange⟩
    have hspan : span first last = List.range' first (last - first) ++ [last] := by
      rw [span, show last + 1 - first = (last - first) + 1 by omega, List.range'_concat]
      congr 2
      omega
    rw [hspan, linesAt_append]
    simp [linesAt, hl]
  · rw [length_linesAt fun m hm => by have := List.mem_range'_1.mp hm; omega, List.length_range']
    omega
  · by_cases h : c ≤ first
    · left
      rw [length_linesAt fun m hm => by have := List.mem_range'_1.mp hm; omega, List.length_range']
      omega
    · right
      have hzero : first - c = 0 := by omega
      rw [hzero]
      rfl
  · rw [length_linesAt fun m hm => by have := mem_span.mp hm; omega, span, List.length_range']
    have : windowEnd c lines.length last ≤ last + c := Nat.min_le_right _ _
    omega
  · by_cases h : last + c ≤ lines.length - 1
    · left
      have hmin : windowEnd c lines.length last = last + c := min_eq_right h
      rw [length_linesAt fun m hm => by have := mem_span.mp hm; omega, span, List.length_range', hmin]
      omega
    · right
      have hmin : windowEnd c lines.length last = lines.length - 1 := min_eq_left (by omega)
      have hnone : lines.length - (windowEnd c lines.length last + 1) = 0 := by omega
      rw [hnone]
      rfl

end Changes

theorem map_snd_filterMap (num : DiffLine → Option Nat) (lines : List DiffLine) :
    (lines.filterMap fun l => (num l).map (l.content, ·)).map Prod.snd = lines.filterMap num := by
  rw [List.map_filterMap]
  congr 1
  funext l
  cases num l <;> rfl

theorem oldNumbers (entries : List Entry) : ∃ n,
    (numbered 1 1 entries).filterMap DiffLine.oldLineNumber = List.range' 1 n := by
  refine ⟨(oldTexts entries).length, ?_⟩
  rw [← map_snd_filterMap, numbered_old, List.zipIdx_map_snd]

theorem newNumbers (entries : List Entry) : ∃ n,
    (numbered 1 1 entries).filterMap DiffLine.newLineNumber = List.range' 1 n := by
  refine ⟨(newTexts entries).length, ?_⟩
  rw [← map_snd_filterMap, numbered_new, List.zipIdx_map_snd]

theorem notMem_of_number {num : DiffLine → Option Nat} {l : DiffLine} {rest : List DiffLine}
    (hnodup : ((l :: rest).filterMap num).Nodup) (hnum : (num l).isSome) : l ∉ rest := by
  intro hmem
  obtain ⟨n, hn⟩ := Option.isSome_iff_exists.mp hnum
  rw [List.filterMap_cons_some hn] at hnodup
  exact (List.nodup_cons.mp hnodup).1 (List.mem_filterMap.mpr ⟨l, hmem, hn⟩)

theorem nodup_numbered (entries : List Entry) : (numbered 1 1 entries).Nodup := by
  obtain ⟨o, hold⟩ := oldNumbers entries
  obtain ⟨n, hnew⟩ := newNumbers entries
  have hold : ((numbered 1 1 entries).filterMap DiffLine.oldLineNumber).Nodup :=
    hold ▸ List.nodup_range'
  have hnew : ((numbered 1 1 entries).filterMap DiffLine.newLineNumber).Nodup :=
    hnew ▸ List.nodup_range'
  have hsided : ∀ l ∈ numbered 1 1 entries, Sided l := sided_numbered Nat.one_pos Nat.one_pos
  generalize numbered 1 1 entries = lines at hold hnew hsided
  induction lines with
  | nil => exact List.nodup_nil
  | cons l lines ih =>
      have hrest : ∀ (num : DiffLine → Option Nat), ((l :: lines).filterMap num).Nodup →
          (lines.filterMap num).Nodup := fun num h =>
        List.Nodup.sublist ((List.sublist_cons_self l lines).filterMap num) h
      refine List.nodup_cons.mpr ⟨?_, ih (hrest _ hold) (hrest _ hnew)
        fun l' hl' => hsided l' (List.mem_cons_of_mem _ hl')⟩
      have hl := hsided l List.mem_cons_self
      by_cases hadd : l.type = .add
      · exact notMem_of_number hnew (hl.new.mpr (by simp [hadd]))
      · exact notMem_of_number hold (hl.old.mpr hadd)

theorem orOne_first {num : DiffLine → Option Nat} {full rest : List DiffLine} {l : DiffLine}
    {c first stop : Nat} (hstop : stop < full.length)
    (hcounted : ∃ n, full.filterMap num = List.range' 1 n)
    (hnormal : ∀ l ∈ full, isChange l = false → (num l).isSome)
    (hpart : linesAt full (span (first - c) stop) = l :: rest) (hsingle : c = 0 → rest = [])
    (hstart : full[first - c]? = some l)
    (hbefore : first - c < first → isChange l = false) :
    ∀ n ∈ (l :: rest).findSome? num, orOne (num l) = n := by
  intro n hn
  obtain ⟨count, hcounted⟩ := hcounted
  cases hnum : num l with
  | some m =>
      obtain rfl : m = n := by simpa [hnum] using hn
      have hm : m ∈ full.filterMap num :=
        List.mem_filterMap.mpr ⟨l, List.mem_of_getElem? hstart, hnum⟩
      rw [hcounted] at hm
      obtain ⟨k, rfl⟩ : ∃ k, m = k + 1 := ⟨m - 1, by have := List.mem_range'_1.mp hm; omega⟩
      rfl
  | none =>
      have hchange : isChange l ≠ false := fun h => by
        have := hnormal l (List.mem_of_getElem? hstart) h
        simp [hnum] at this
      have hfirst : ¬ first - c < first := fun h => hchange (hbefore h)
      have hzero : first - c = 0 := by
        by_cases hc : c = 0
        · rw [hsingle hc] at hn
          simp [hnum] at hn
        · omega
      have hstarts : (l :: rest) <+: full := by
        have hsplit := @linesAt_split full 0 (stop + 1) (Nat.zero_le _) hstop
        rw [← hpart, hzero]
        exact ⟨_, hsplit.symm⟩
      obtain ⟨behind, hbehind⟩ := hstarts.filterMap num
      rw [hcounted] at hbehind
      have hhead : (List.range' 1 count).head? = some n := by
        rw [← hbehind, List.head?_append, List.head?_filterMap, Option.mem_def.mp hn]
        rfl
      cases count with
      | zero => cases hhead
      | succ count => exact Option.some.inj hhead

section Pass

variable {s : PassState} {entries : List Entry} {c : Nat}

def groupsOf (c : Nat) (lines : List DiffLine) : List (List Nat) :=
  windows c lines.length [] 0 (changesOf lines)

theorem createHunks_eq {lines : List DiffLine} (h : changesOf lines ≠ []) (c : Nat) :
    createHunks lines c = (groupsOf c lines).flatMap fun w => finishHunk (linesAt lines w) := by
  rw [createHunks, if_neg h]
  exact hunksFrom_eq lines c [] 0 (changesOf lines)

theorem mem_hunks {lines : List DiffLine} {h : DiffHunk} :
    (h ∈ (groupsOf c lines).flatMap fun w => finishHunk (linesAt lines w)) ↔
      ∃ w ∈ groupsOf c lines, ∃ l rest, linesAt lines w = l :: rest ∧
        h = hunkOf (orOne l.oldLineNumber) (orOne l.newLineNumber) (l :: rest) := by
  rw [List.mem_flatMap]
  refine exists_congr fun w => and_congr_right fun _ => ?_
  cases linesAt lines w with
  | nil => simp [finishHunk]
  | cons l rest => simp [finishHunk, and_assoc]

theorem Passed.map_bare_linesAt (h : Passed s entries) (w : List Nat) :
    (linesAt s.allLines w).map bare = linesAt (numbered 1 1 entries) w := by
  rw [Hunks.map_bare_linesAt, h.lines]

theorem Passed.groupsOf_eq (h : Passed s entries) (c : Nat) :
    groupsOf c s.allLines = groupsOf c (numbered 1 1 entries) := by
  rw [groupsOf, groupsOf, ← h.lines, changesOf_map_bare, List.length_map]

theorem Passed.flatMap_lines (h : Passed s entries) (c : Nat) :
    (((groupsOf c s.allLines).flatMap fun w => finishHunk (linesAt s.allLines w)).flatMap
      fun hunk => hunk.lines.map bare) =
        linesAt (numbered 1 1 entries) (groupsOf c (numbered 1 1 entries)).flatten := by
  rw [linesAt_flatten, ← h.groupsOf_eq c, List.flatMap_assoc]
  congr 1
  funext w
  rw [← h.map_bare_linesAt, ← List.map_flatMap, flatMap_lines_finishHunk]

theorem countP_isTruthy {lines : List DiffLine} (hlines : ∀ l ∈ lines, Sided l) :
    lines.countP (fun l => isTruthy l.oldLineNumber) =
        lines.countP (fun l => l.oldLineNumber.isSome) ∧
      lines.countP (fun l => isTruthy l.newLineNumber) =
        lines.countP (fun l => l.newLineNumber.isSome) := by
  have htruthy : ∀ number : Option Nat, (∀ n ∈ number, 0 < n) →
      isTruthy number = number.isSome := by
    rintro (_ | _ | n) h
    · rfl
    · exact absurd (h 0 rfl) (lt_irrefl 0)
    · rfl
  constructor
  · refine List.countP_congr fun l hl => ?_
    rw [htruthy _ (hlines l hl).oldPos]
  · refine List.countP_congr fun l hl => ?_
    rw [htruthy _ (hlines l hl).newPos]

theorem Sided.of_bare {l : DiffLine} (h : Sided (bare l)) : Sided l := ⟨h.old, h.new, h.oldPos, h.newPos⟩

theorem Passed.sided (h : Passed s entries) : ∀ l ∈ s.allLines, Sided l := fun l hl =>
  .of_bare (sided_numbered Nat.one_pos Nat.one_pos (bare l) (h.lines ▸ List.mem_map_of_mem hl))

theorem isSome_of_normal {entries : List Entry} : ∀ l ∈ numbered 1 1 entries, isChange l = false →
    l.oldLineNumber.isSome = true ∧ l.newLineNumber.isSome = true := by
  intro l hl hnormal
  have hsided := sided_numbered Nat.one_pos Nat.one_pos l hl
  have htype : l.type = .normal := by simpa [isChange] using hnormal
  exact ⟨hsided.old.mpr (by simp [htype]), hsided.new.mpr (by simp [htype])⟩

theorem faithful_of_separated (h : Passed s entries)
    (hne : changesOf (numbered 1 1 entries) ≠ [])
    (hseparated : Separated c (changesOf (numbered 1 1 entries))) :
    Faithful c (numbered 1 1 entries) (createHunks s.allLines c) := by
  have hmarks : ∀ k ∈ changesOf (numbered 1 1 entries), k < (numbered 1 1 entries).length :=
    fun k hk => lt_of_mem_changesOf hk
  have hgrouped : Grouped c _ _ (groupsOf c (numbered 1 1 entries)) :=
    grouped_windows hmarks pairwise_changesOf hseparated
  have hchanges : changesOf s.allLines ≠ [] := by rwa [← changesOf_map_bare, h.lines]
  -- the first line of a hunk, seen in the sequence without tokens
  have hstart : ∀ (num : DiffLine → Option Nat), (∀ l, num (bare l) = num l) →
      (∃ n, (numbered 1 1 entries).filterMap num = List.range' 1 n) →
      (∀ l ∈ numbered 1 1 entries, isChange l = false → (num l).isSome = true) →
      ∀ w ∈ groupsOf c s.allLines, ∀ l rest, linesAt s.allLines w = l :: rest →
        ∀ n ∈ (l :: rest).findSome? num, orOne (num l) = n := by
    intro num hnum hcounted hnormal w hw l rest hpart n hn
    rw [h.groupsOf_eq] at hw
    obtain ⟨first, hfirst, last, hlast, heq, hle, hbetween⟩ := hgrouped.window w hw
    have hbare : linesAt (numbered 1 1 entries) w = bare l :: rest.map bare := by
      rw [← h.map_bare_linesAt, hpart, List.map_cons]
    have hend := windowEnd_lt (c := c) (hmarks last hlast)
    have hreach := le_windowEnd (c := c) (hmarks last hlast)
    have hplace : (numbered 1 1 entries)[first - c]? = some (bare l) :=
      getElem?_of_linesAt (by omega) hend (heq ▸ hbare)
    have hsome : ∀ n ∈ (bare l :: rest.map bare).findSome? num, orOne (num (bare l)) = n := by
      refine orOne_first hend hcounted hnormal (heq ▸ hbare) ?_ hplace ?_
      · rintro rfl
        rw [groupsOf, windows_zero hmarks pairwise_changesOf fun _ _ => Nat.zero_le _] at hw
        obtain ⟨k, -, rfl⟩ := List.mem_map.mp hw
        have hlength := List.length_filterMap_le ((numbered 1 1 entries)[·]?) [k]
        rw [← linesAt, hbare] at hlength
        exact List.eq_nil_of_length_eq_zero (by simpa using hlength)
      · intro hlt
        refine Bool.eq_false_iff.mpr fun hchange => ?_
        have hmem : first - c ∈ changesOf (numbered 1 1 entries) :=
          mem_changesOf.mpr ⟨_, hplace, hchange⟩
        have := hbetween _ hmem (heq ▸ mem_span.mpr ⟨le_rfl, by omega⟩)
        omega
    rw [hnum] at hsome
    refine hsome n ?_
    rw [← List.map_cons, List.findSome?_map]
    exact (funext hnum : num ∘ bare = num) ▸ hn
  have hmem : ∀ w, ∀ l ∈ linesAt s.allLines w, l ∈ s.allLines := by
    intro w l hl
    obtain ⟨m, -, hm⟩ := mem_linesAt.mp hl
    exact List.mem_of_getElem? hm
  have hsided : ∀ w, ∀ l ∈ linesAt s.allLines w, Sided l := fun w l hl => h.sided l (hmem w l hl)
  have hflat := h.flatMap_lines c
  rw [createHunks_eq hchanges c]
  constructor
  · rw [hflat]
    exact linesAt_sublist hgrouped.ordered hgrouped.bounded
  · rw [hflat, filter_linesAt hgrouped.ordered hgrouped.covered]
    have hall := @filter_linesAt (numbered 1 1 entries)
      (List.range' 0 (numbered 1 1 entries).length) List.pairwise_lt_range'
      fun k hk => by simpa using hmarks k hk
    rw [linesAt_range] at hall
    exact hall.symm
  · intro hunk hhunk
    obtain ⟨w, hw, l, rest, hpart, rfl⟩ := mem_hunks.mp hhunk
    rw [h.groupsOf_eq] at hw
    obtain ⟨first, hfirst, last, hlast, rfl, hle, hbetween⟩ := hgrouped.window w hw
    rw [hunkOf, ← hpart, h.map_bare_linesAt]
    exact window_linesAt hfirst hlast hle hbetween
  · intro hunk hhunk
    obtain ⟨w, hw, l, rest, hpart, rfl⟩ := mem_hunks.mp hhunk
    exact hstart DiffLine.oldLineNumber (fun _ => rfl) (oldNumbers entries)
      (fun l hl hnormal => (isSome_of_normal l hl hnormal).1) w hw l rest hpart
  · intro hunk hhunk
    obtain ⟨w, hw, l, rest, hpart, rfl⟩ := mem_hunks.mp hhunk
    exact hstart DiffLine.newLineNumber (fun _ => rfl) (newNumbers entries)
      (fun l hl hnormal => (isSome_of_normal l hl hnormal).2) w hw l rest hpart
  · intro hunk hhunk
    obtain ⟨w, -, l, rest, hpart, rfl⟩ := mem_hunks.mp hhunk
    exact (countP_isTruthy (hpart ▸ hsided w)).1
  · intro hunk hhunk
    obtain ⟨w, -, l, rest, hpart, rfl⟩ := mem_hunks.mp hhunk
    exact (countP_isTruthy (hpart ▸ hsided w)).2
  · intro hunk hhunk l' hl'
    obtain ⟨w, -, l, rest, hpart, rfl⟩ := mem_hunks.mp hhunk
    exact h.spelled l' (hmem w l' (hpart ▸ hl'))

theorem mem_part_iff {full pre part post : List DiffLine} {m : Nat} {l : DiffLine}
    (hnodup : full.Nodup) (hsplit : full = pre ++ part ++ post) (hl : full[m]? = some l) :
    l ∈ part ↔ pre.length ≤ m ∧ m < pre.length + part.length := by
  subst hsplit
  constructor
  · intro hmem
    obtain ⟨i, hi, rfl⟩ := List.getElem_of_mem hmem
    have hplace : (pre ++ part ++ post)[pre.length + i]? = some part[i] := by
      rw [List.append_assoc, List.getElem?_append_right (Nat.le_add_right _ _),
        Nat.add_sub_cancel_left, List.getElem?_append_left hi, List.getElem?_eq_getElem hi]
    have hm := (List.getElem?_eq_some_iff.mp hl).1
    obtain rfl := (List.getElem?_inj hm hnodup).mp (hl.trans hplace.symm)
    omega
  · rintro ⟨hlow, hhigh⟩
    rw [List.append_assoc, List.getElem?_append_right hlow,
      List.getElem?_append_left (by omega)] at hl
    exact List.mem_of_getElem? hl

theorem separated_of_faithful (h : Passed s entries)
    (hne : changesOf (numbered 1 1 entries) ≠ [])
    (hfaithful : Faithful c (numbered 1 1 entries) (createHunks s.allLines c)) :
    Separated c (changesOf (numbered 1 1 entries)) := by
  have hmarks : ∀ k ∈ changesOf (numbered 1 1 entries), k < (numbered 1 1 entries).length :=
    fun k hk => lt_of_mem_changesOf hk
  have hchanges : changesOf s.allLines ≠ [] := by rwa [← changesOf_map_bare, h.lines]
  have hnodup := nodup_numbered entries
  refine (contiguous_iff hmarks pairwise_changesOf).mp fun w hw i hi j hj m him hmj => ?_
  have hlt : ∀ m ∈ w, m < (numbered 1 1 entries).length := fun m hm =>
    lt_of_mem_windows hmarks (List.mem_flatten.mpr ⟨w, hw, hm⟩)
  have hat : ∀ m (hm : m < (numbered 1 1 entries).length), m ∈ w →
      (numbered 1 1 entries)[m] ∈ linesAt (numbered 1 1 entries) w := fun m hm hmem =>
    mem_linesAt.mpr ⟨m, hmem, List.getElem?_eq_getElem hm⟩
  have hpart : linesAt s.allLines w ≠ [] := by
    intro hnil
    have hmem := hat i (hlt i hi) hi
    rw [← h.map_bare_linesAt, hnil] at hmem
    cases hmem
  obtain ⟨l, rest, hpart⟩ := List.exists_cons_of_ne_nil hpart
  have hgroup : w ∈ groupsOf c s.allLines := by
    rw [h.groupsOf_eq]
    exact hw
  have hhunk := mem_hunks.mpr ⟨w, hgroup, l, rest, hpart, rfl⟩
  obtain ⟨pre, before, inner, after, post, hsplit, heq, -⟩ :=
    (hfaithful.window _ (createHunks_eq hchanges c ▸ hhunk)).split
  rw [hunkOf, ← hpart, h.map_bare_linesAt] at heq
  rw [← heq] at hsplit
  have hm : m < (numbered 1 1 entries).length := hmj.trans_lt (hlt j hj)
  have hin := (mem_part_iff hnodup hsplit (List.getElem?_eq_getElem (hlt i hi))).mp
    (hat i (hlt i hi) hi)
  have hjn := (mem_part_iff hnodup hsplit (List.getElem?_eq_getElem (hlt j hj))).mp
    (hat j (hlt j hj) hj)
  have hmem := (mem_part_iff hnodup hsplit (List.getElem?_eq_getElem hm)).mpr (by omega)
  obtain ⟨m', hm', heqm⟩ := mem_linesAt.mp hmem
  obtain rfl := (List.getElem?_inj (hlt m' hm') hnodup).mp
    (heqm.trans (List.getElem?_eq_getElem hm).symm)
  exact hm'

end Pass

variable (F : Type) [NatCast F] [Add F] [Div F] [LT F] [DecidableLT F]
variable (lineDiff : LineDiff) (words : WordDiff)

theorem aligned_numbered (oldText newText : Text) :
    Aligned oldText newText (numbered 1 1 (aligned (lineDiff.diffLines oldText newText))) where
  old := by rw [numbered_old, oldTexts_aligned]
  new := by rw [numbered_new, newTexts_aligned]

theorem exists_changed_place {oldText newText : Text} (hne : oldText ≠ newText) :
    changesOf (numbered 1 1 (aligned (lineDiff.diffLines oldText newText))) ≠ [] := by
  obtain ⟨e, he, hkind⟩ := exists_change lineDiff oldText newText hne
  obtain ⟨i, hi⟩ := List.getElem?_of_mem he
  rw [changesOf_numbered]
  refine List.ne_nil_of_mem (a := i) (List.mem_map.mpr ⟨(e, i), List.mem_filter.mpr ⟨?_, ?_⟩, rfl⟩)
  · exact List.mem_zipIdx_iff_getElem?.mpr hi
  · simpa using hkind

/-- The hunks of two texts that differ stand faithfully on their aligned line sequence exactly
when no two changes next to each other lie more than `2 * c + 1` and at most `3 * c` lines
apart. -/
theorem hunks_faithful {oldText newText : Text} (hne : oldText ≠ newText) (c : Nat) :
    (Aligned oldText newText (numbered 1 1 (aligned (lineDiff.diffLines oldText newText))) ∧
      Faithful c (numbered 1 1 (aligned (lineDiff.diffLines oldText newText)))
        (calculateUnifiedDiff F lineDiff words oldText newText c).hunks) ↔
      Separated c (changedPlaces (lineDiff.diffLines oldText newText)) := by
  have hpassed := passed_firstPass lineDiff oldText newText F words
  have hchanged := exists_changed_place lineDiff hne
  rw [← changesOf_numbered]
  constructor
  · rintro ⟨-, hfaithful⟩
    exact separated_of_faithful hpassed hchanged hfaithful
  · intro hseparated
    exact ⟨aligned_numbered lineDiff oldText newText,
      faithful_of_separated hpassed hchanged hseparated⟩

def sampleOld : Text := "x\n1\n2\n3\n4\n5\n6\n7\ny\n".toList

def sampleNew : Text := "1\n2\n3\n4\n5\n6\n7\n".toList

def sampleLineDiff : LineDiff where
  diffLines a b :=
    if a = sampleOld ∧ b = sampleNew then
      [⟨"x\n".toList, false, true⟩, ⟨sampleNew, false, false⟩, ⟨"y\n".toList, false, true⟩]
    else [⟨a, false, true⟩, ⟨b, true, false⟩]
  exclusive a b := by
    split_ifs <;> simp
  old a b := by
    split_ifs with h
    · rw [h.1]
      decide
    · simp
  new a b := by
    split_ifs with h
    · rw [h.2]
      decide
    · simp

theorem old_replaced (a b : Text) : [.removed a, .added b].flatMap WordPart.old = a := by
  simp [WordPart.old]

theorem new_replaced (a b : Text) : [.removed a, .added b].flatMap WordPart.new = b := by
  simp [WordPart.new]

def sampleWords : WordDiff where
  diffWordsWithSpace a b := [.removed a, .added b]
  old := old_replaced
  new := new_replaced

theorem hunks_faithful_sample :
    Aligned sampleOld sampleNew
        (numbered 1 1 (aligned (sampleLineDiff.diffLines sampleOld sampleNew))) ∧
      Faithful 1 (numbered 1 1 (aligned (sampleLineDiff.diffLines sampleOld sampleNew)))
        (calculateUnifiedDiff Rat sampleLineDiff sampleWords sampleOld sampleNew 1).hunks :=
  (hunks_faithful Rat sampleLineDiff sampleWords (by decide) 1).mpr (by decide)

/-- With three lines of context the fifth line is in neither window, and there is one hunk. -/
theorem hunk_with_gap : ¬ Faithful 3
    (numbered 1 1 (aligned (sampleLineDiff.diffLines sampleOld sampleNew)))
    (calculateUnifiedDiff Rat sampleLineDiff sampleWords sampleOld sampleNew 3).hunks := by
  intro hfaithful
  have hpassed := passed_firstPass sampleLineDiff sampleOld sampleNew Rat sampleWords
  have hchanged := exists_changed_place sampleLineDiff (show sampleOld ≠ sampleNew by decide)
  have hseparated := separated_of_faithful hpassed hchanged hfaithful
  rw [changesOf_numbered] at hseparated
  exact absurd hseparated (by decide)

end DevPilot.Hunks
