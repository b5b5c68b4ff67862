import DevPilot.Streaming.Commits

/-!
The runs of the writer: what holds of its segments and of what its flushes report.
-/

namespace DevPilot.Streaming

open OrderedMaps Runs

variable {Value : Type}

def Segment.LastPersisted (s : Segment Value) : Prop :=
  s.outcomes.length = s.commits.length ∧ s.outcomes.getLast? = some .persisted

instance (s : Segment Value) : Decidable s.LastPersisted :=
  inferInstanceAs (Decidable (_ ∧ _))

namespace Writer

variable {config : Config} {w : Writer Value}

/-- Segment `i` is in the map. -/
def InMap (w : Writer Value) (i : ℕ) : Prop := ∃ key, (key, i) ∈ w.segments.entries

/-- What a flush that has resolved has done with a segment, and reports of it. -/
structure Reported (w : Writer Value) (f : Flush) (e : ℕ × Text) (r : SegmentFlushSummary) (s : Segment Value) :
    Prop where
  created : w.created[e.1]? = some s
  last : ∃ k ∈ s.commits.getLast?, k.snapshot.body.text = e.2 ∧ k.state = f.state ∧ s.Carries k
  exact : r.didDurablyFlush = true ↔ e.2 ≠ [] ∧ s.LastPersisted

structure Kept (w : Writer Value) : Prop where
  oneInFlight : ∀ s ∈ w.created, s.commits.length ≤ s.outcomes.length + 1
  versions : ∀ s ∈ w.created, (s.commits.map (·.version)).Pairwise (· ≤ ·)
  finalLast : ∀ s ∈ w.created, s.commits.Pairwise fun c c' => c.state ≠ .streaming → c'.state ≠ .streaming
  reported : ∀ f ∈ w.flushes, ∀ summary ∈ f.summary,
    f.segments.Forall₂ (fun e r => ∃ s, w.Reported f e r s) summary.segments
  frozen : ∀ f ∈ w.flushes, ∀ e ∈ f.segments, ¬ w.InMap e.1 ∧
    (w.created[e.1]?).map (·.accumulatedText) = some e.2
  localIds : (w.created.map (·.segmentLocalId)).Nodup

/-- The text has gone to a segment of the map, and no other one has changed. -/
def Appended (w w' : Writer Value) (deltaText : Text) : Prop :=
  ∃ i s, w'.InMap i ∧ w'.created[i]? = some s ∧
    s.accumulatedText = ((w.created[i]?).map (·.accumulatedText)).getD [] ++ deltaText ∧
    ∀ j : ℕ, j ≠ i → w'.created[j]? = w.created[j]?

structure Inv (w : Writer Value) : Prop where
  localIds : w.localIds = w.created.length
  created : ∀ (i : ℕ) (s : Segment Value), w.created[i]? = some s → s.segmentLocalId = i ∧ s.Sound
  inMap : ∀ key i, (key, i) ∈ w.segments.entries → ∃ s, w.created[i]? = some s ∧ s.key = key ∧ s.Open
  closed : ∀ (i : ℕ) (s : Segment Value), w.created[i]? = some s → ¬ w.InMap i → s.Closed
  flushed : ∀ (n : ℕ) (f : Flush), w.flushes[n]? = some f → ∀ e ∈ f.segments, ¬ w.InMap e.1 ∧
    ∃ s, w.created[e.1]? = some s ∧ s.Flushed f.state e.2 n
  resolved : ∀ f ∈ w.flushes, ∀ summary ∈ f.summary,
    summary = buildFlushSummary (w.flushedSegments f) f.state ∧
      ∀ s ∈ w.flushedSegments f, s.committing = none

theorem inv_create (b : Bool) : (create b : Writer Value).Inv where
  localIds := rfl
  created := by simp [create]
  inMap := by simp [create, OrderedMap.empty]
  closed := by simp [create]
  flushed := by simp [create]
  resolved := by simp [create]

theorem Inv.lt_length (h : w.Inv) {i : ℕ} (hi : w.InMap i) : i < w.created.length := by
  obtain ⟨key, hmem⟩ := hi
  obtain ⟨s, hs, -⟩ := h.inMap key i hmem
  exact (List.getElem?_eq_some_iff.mp hs).1

theorem Inv.openOfInMap (h : w.Inv) {i : ℕ} {s : Segment Value} (hs : w.created[i]? = some s)
    (hi : w.InMap i) : s.Open := by
  obtain ⟨key, hmem⟩ := hi
  obtain ⟨s₁, hs₁, -, hopen⟩ := h.inMap key i hmem
  rw [hs] at hs₁
  obtain rfl := Option.some.inj hs₁
  exact hopen

theorem mem_map_snd (w : Writer Value) (i : ℕ) : i ∈ w.segments.entries.map Prod.snd ↔ w.InMap i := by
  rw [List.mem_map]
  constructor
  · rintro ⟨⟨key, j⟩, hmem, rfl⟩
    exact ⟨key, hmem⟩
  · rintro ⟨key, hmem⟩
    exact ⟨(key, i), hmem, rfl⟩

theorem created_modifyLive_of_inMap {f : Segment Value → Segment Value} {i : ℕ} (hi : w.InMap i) :
    (w.modifyLive f).created[i]? = (w.created[i]?).map f := by
  rw [modifyLive, List.getElem?_mapIdx]
  simp only [(mem_map_snd w i).mpr hi, if_true]

theorem created_modifyLive_of_not (f : Segment Value → Segment Value) {i : ℕ} (hi : ¬ w.InMap i) :
    (w.modifyLive f).created[i]? = w.created[i]? := by
  rw [modifyLive, List.getElem?_mapIdx]
  simp only [mem_map_snd w i, hi, if_false, Option.map_id']

theorem Inv.evolve (h : w.Inv) {w' : Writer Value} {f : ℕ → Segment Value → Segment Value}
    (hcreated : ∀ i, w'.created[i]? = (w.created[i]?).map (f i)) (hlength : w'.created.length = w.created.length)
    (hsegments : w'.segments = w.segments) (hids : w'.localIds = w.localIds) (hflushes : w'.flushes = w.flushes)
    (hevolves : ∀ (i : ℕ) (s : Segment Value), w.created[i]? = some s → s.Sound → (¬ w.InMap i → s.Closed) →
      Segment.Evolves (w.InMap i) s (f i s)) : w'.Inv := by
  have hmap : ∀ i, w'.InMap i ↔ w.InMap i := fun i => by rw [InMap, hsegments, InMap]
  have hsome : ∀ i s, w.created[i]? = some s → w'.created[i]? = some (f i s) := fun i s hs => by
    rw [hcreated, hs]
    rfl
  have hback : ∀ i s', w'.created[i]? = some s' → ∃ s, w.created[i]? = some s ∧ s' = f i s ∧
      Segment.Evolves (w.InMap i) s s' := by
    intro i s' hs'
    rw [hcreated, Option.map_eq_some_iff] at hs'
    obtain ⟨s, hs, rfl⟩ := hs'
    exact ⟨s, hs, rfl, hevolves i s hs (h.created i s hs).2 (h.closed i s hs)⟩
  refine ⟨?_, ?_, ?_, ?_, ?_, ?_⟩
  · rw [hids, hlength, h.localIds]
  · intro i s' hs'
    obtain ⟨s, hs, -, hstep⟩ := hback i s' hs'
    obtain ⟨hid, hsound⟩ := h.created i s hs
    exact ⟨hstep.segmentLocalId.trans hid, hstep.sound (h.openOfInMap hs) hsound⟩
  · rw [hsegments]
    intro key i hmem
    obtain ⟨s, hs, hkey, hopen⟩ := h.inMap key i hmem
    have hstep := hevolves i s hs (h.created i s hs).2 (h.closed i s hs)
    exact ⟨f i s, hsome i s hs, hstep.key.trans hkey, hstep.opened ⟨key, hmem⟩ hopen⟩
  · intro i s' hs' hi
    obtain ⟨s, hs, -, hstep⟩ := hback i s' hs'
    rw [hmap] at hi
    exact hstep.closed hi (h.closed i s hs hi)
  · rw [hflushes]
    intro n fl hfl e he
    obtain ⟨hi, s, hs, hflushed⟩ := h.flushed n fl hfl e he
    have hstep := hevolves e.1 s hs (h.created e.1 s hs).2 (h.closed e.1 s hs)
    exact ⟨fun hi' => hi ((hmap e.1).mp hi'), f e.1 s, hsome e.1 s hs,
      hstep.flushed hi _ _ _ (h.created e.1 s hs).2 hflushed⟩
  · rw [hflushes]
    intro fl hfl summary hsummary
    obtain ⟨heq, hidle⟩ := h.resolved fl hfl summary hsummary
    obtain ⟨n, hn⟩ := List.mem_iff_getElem?.mp hfl
    -- the segments of the flush are idle, and nothing changes an idle segment out of the map
    have hsame : w'.flushedSegments fl = w.flushedSegments fl := by
      refine List.filterMap_congr fun e he => ?_
      obtain ⟨hi, s, hs, -⟩ := h.flushed n fl hn e he
      have hstep := hevolves e.1 s hs (h.created e.1 s hs).2 (h.closed e.1 s hs)
      have hnone : s.committing = none := hidle s (List.mem_filterMap.mpr ⟨e, he, hs⟩)
      rw [hsome e.1 s hs, hstep.idle hi (h.closed e.1 s hs hi) hnone, hs]
    rw [hsame]
    exact ⟨heq, hidle⟩

theorem Inv.modify (h : w.Inv) {i : ℕ} {f : Segment Value → Segment Value}
    (hevolves : ∀ s, w.created[i]? = some s → s.Sound → (¬ w.InMap i → s.Closed) →
      Segment.Evolves (w.InMap i) s (f s)) : (w.modify i f).Inv := by
  refine h.evolve (f := fun j s => if i = j then f s else s) (fun j => ?_) (by simp [Writer.modify]) rfl rfl rfl ?_
  · rw [Writer.modify, List.getElem?_modify]
    rfl
  · intro j s hs hsound hclosed
    by_cases hj : i = j
    · subst hj
      simpa using hevolves s hs hsound hclosed
    · simp only [hj, if_false]
      exact .refl _ s

theorem Inv.leave (h : w.Inv) {f : Segment Value → Segment Value}
    (hf : ∀ s, s.Sound → s.Open → (f s).Sound ∧ (f s).Closed ∧ (f s).segmentLocalId = s.segmentLocalId) :
    Inv { (w.modifyLive f : Writer Value) with segments := .empty } := by
  refine ⟨?_, ?_, ?_, ?_, ?_, ?_⟩
  · simp [modifyLive, h.localIds]
  · intro i s' hs'
    by_cases hi : w.InMap i
    · rw [created_modifyLive_of_inMap hi, Option.map_eq_some_iff] at hs'
      obtain ⟨s, hs, rfl⟩ := hs'
      obtain ⟨hid, hsound⟩ := h.created i s hs
      obtain ⟨hnext, -, hsame⟩ := hf s hsound (h.openOfInMap hs hi)
      exact ⟨hsame.trans hid, hnext⟩
    · exact h.created i s' ((created_modifyLive_of_not f hi).symm.trans hs')
  · exact fun key i hmem => by cases hmem
  · intro i s' hs' _
    by_cases hi : w.InMap i
    · rw [created_modifyLive_of_inMap hi, Option.map_eq_some_iff] at hs'
      obtain ⟨s, hs, rfl⟩ := hs'
      exact (hf s (h.created i s hs).2 (h.openOfInMap hs hi)).2.1
    · exact h.closed i s' ((created_modifyLive_of_not f hi).symm.trans hs') hi
  · intro n fl hfl e he
    obtain ⟨hi, s, hs, hflushed⟩ := h.flushed n fl hfl e he
    exact ⟨nofun, s, (created_modifyLive_of_not f hi).trans hs, hflushed⟩
  · intro fl hfl summary hsummary
    obtain ⟨heq, hidle⟩ := h.resolved fl hfl summary hsummary
    obtain ⟨n, hn⟩ := List.mem_iff_getElem?.mp hfl
    have hsame : flushedSegments { (w.modifyLive f : Writer Value) with segments := .empty } fl = w.flushedSegments fl :=
      List.filterMap_congr fun e he => created_modifyLive_of_not f (h.flushed n fl hn e he).1
    rw [hsame]
    exact ⟨heq, hidle⟩

theorem Inv.modifyLive (h : w.Inv) {f : Segment Value → Segment Value}
    (hevolves : ∀ s, w.InMap s.segmentLocalId → Segment.Evolves (w.InMap s.segmentLocalId) s (f s)) :
    (w.modifyLive f).Inv := by
  refine h.evolve (f := fun j s => if j ∈ w.segments.entries.map Prod.snd then f s else s)
    (fun j => List.getElem?_mapIdx) (by simp [Writer.modifyLive]) rfl rfl rfl fun j s hs _ _ => ?_
  have hid := (h.created j s hs).1
  split_ifs with hj
  · rw [mem_map_snd, ← hid] at hj
    rw [← hid]
    exact hevolves s hj
  · exact .refl _ s

theorem Inv.addFlush (h : w.Inv) (f : Flush) (hsummary : f.summary = none)
    (hflushed : ∀ e ∈ f.segments, ¬ w.InMap e.1 ∧
      ∃ s, w.created[e.1]? = some s ∧ s.Flushed f.state e.2 w.flushes.length) :
    Inv { w with flushes := w.flushes ++ [f] } where
  localIds := h.localIds
  created := h.created
  inMap := h.inMap
  closed := h.closed
  flushed := by
    intro n fl hfl e he
    rw [List.getElem?_append] at hfl
    split_ifs at hfl with hn
    · exact h.flushed n fl hfl e he
    · rw [List.getElem?_singleton] at hfl
      split_ifs at hfl with hn'
      obtain rfl := Option.some.inj hfl
      obtain rfl : n = w.flushes.length := by omega
      exact hflushed e he
  resolved := by
    intro fl hfl summary hs
    rcases List.mem_append.mp hfl with hfl | hfl
    · exact h.resolved fl hfl summary hs
    · rw [List.mem_singleton] at hfl
      subst hfl
      rw [hsummary] at hs
      cases hs

theorem Inv.flushResolves (h : w.Inv) (n : ℕ) : (w.flushResolves n).Inv := by
  rw [Writer.flushResolves]
  split
  · exact h
  next f hf =>
    split_ifs with hready
    · obtain ⟨-, hdrained⟩ := hready
      have hidle : ∀ s ∈ w.flushedSegments f, s.committing = none := by
        intro s hs
        obtain ⟨e, he, hse⟩ := List.mem_filterMap.mp hs
        obtain ⟨-, s₁, hs₁, hflushed⟩ := h.flushed n f hf e he
        rw [hse] at hs₁
        obtain rfl := Option.some.inj hs₁
        refine hflushed.waits.resolve_left fun hwaits => ?_
        have hnot := List.all_eq_true.mp hdrained s hs
        simp [hwaits] at hnot
      refine ⟨h.localIds, h.created, h.inMap, h.closed, ?_, ?_⟩
      · intro m fl hfl e he
        rw [List.getElem?_set] at hfl
        split_ifs at hfl with hm
        · obtain rfl := Option.some.inj hfl
          subst hm
          exact h.flushed n f hf e he
        · exact h.flushed m fl hfl e he
      · intro fl hfl summary hs
        rcases List.mem_or_eq_of_mem_set hfl with hfl | rfl
        · exact h.resolved fl hfl summary hs
        · obtain rfl := Option.some.inj hs
          exact ⟨rfl, hidle⟩
    · exact h

structure Ready (w w' : Writer Value) (i : ℕ) : Prop where
  inv : w'.Inv
  inMap : w'.InMap i
  text : ((w'.created[i]?).map (·.accumulatedText)) = some (((w.created[i]?).map (·.accumulatedText)).getD [])
  others : ∀ j : ℕ, j ≠ i → w'.created[j]? = w.created[j]?

theorem Inv.ready (h : w.Inv) {i : ℕ} (hi : w.InMap i) : w.Ready w i := by
  refine ⟨h, hi, ?_, fun _ _ => rfl⟩
  rw [List.getElem?_eq_getElem (h.lt_length hi)]
  rfl

def withNew (w : Writer Value) (s : Segment Value) : Writer Value :=
  { w with
    segments := w.segments.set s.key w.created.length
    created := w.created ++ [s]
    localIds := w.localIds + 1 }

theorem Inv.withNew (h : w.Inv) {s : Segment Value} (hkey : w.segments.get s.key = none)
    (hid : s.segmentLocalId = w.localIds) (hsound : s.Sound) (hopen : s.Open) (htext : s.accumulatedText = []) :
    w.Ready (w.withNew s) w.created.length := by
  have hmem : ∀ key j, (key, j) ∈ (w.withNew s).segments.entries ↔
      (key = s.key ∧ j = w.created.length) ∨ (key, j) ∈ w.segments.entries := by
    intro key j
    rw [Writer.withNew, OrderedMap.mem_set]
    refine or_congr_right (and_iff_right_of_imp fun hj heq => ?_)
    subst heq
    rw [OrderedMap.get_eq_some.mpr hj] at hkey
    cases hkey
  have hold : ∀ j : ℕ, j < w.created.length → (w.withNew s).created[j]? = w.created[j]? := fun j hj =>
    List.getElem?_append_left hj
  have hnew : (w.withNew s).created[w.created.length]? = some s := List.getElem?_concat_length
  have hback : ∀ (j : ℕ) (s' : Segment Value), (w.withNew s).created[j]? = some s' →
      (j < w.created.length ∧ w.created[j]? = some s') ∨ (j = w.created.length ∧ s' = s) := by
    intro j s' hs'
    by_cases hj : j < w.created.length
    · exact .inl ⟨hj, (hold j hj).symm.trans hs'⟩
    · have hlt := (List.getElem?_eq_some_iff.mp hs').1
      have hlength : (w.withNew s).created.length = w.created.length + 1 := List.length_append
      obtain rfl : j = w.created.length := by omega
      exact .inr ⟨rfl, Option.some.inj (hs'.symm.trans hnew)⟩
  have hinMap : ∀ j, j < w.created.length → ((w.withNew s).InMap j ↔ w.InMap j) := by
    intro j hj
    constructor
    · rintro ⟨key, hm⟩
      rcases (hmem key j).mp hm with ⟨-, heq⟩ | hm
      · exact absurd heq hj.ne
      · exact ⟨key, hm⟩
    · rintro ⟨key, hm⟩
      exact ⟨key, (hmem key j).mpr (.inr hm)⟩
  have hlt : ∀ (n : ℕ) (f : Flush), w.flushes[n]? = some f → ∀ e ∈ f.segments, e.1 < w.created.length := by
    intro n f hf e he
    obtain ⟨-, s', hs', -⟩ := h.flushed n f hf e he
    exact (List.getElem?_eq_some_iff.mp hs').1
  refine ⟨⟨?_, ?_, ?_, ?_, ?_, ?_⟩, ⟨s.key, (hmem s.key _).mpr (.inl ⟨rfl, rfl⟩)⟩, ?_, ?_⟩
  · simp [Writer.withNew, h.localIds]
  · intro j s' hs'
    rcases hback j s' hs' with ⟨-, hs'⟩ | ⟨rfl, rfl⟩
    · exact h.created j s' hs'
    · exact ⟨hid.trans h.localIds, hsound⟩
  · intro key j hm
    rcases (hmem key j).mp hm with ⟨rfl, rfl⟩ | hm
    · exact ⟨s, hnew, rfl, hopen⟩
    · obtain ⟨s', hs', hkey', hopen'⟩ := h.inMap key j hm
      exact ⟨s', (hold j (h.lt_length ⟨key, hm⟩)).trans hs', hkey', hopen'⟩
  · intro j s' hs' hj
    rcases hback j s' hs' with ⟨hlt, hs'⟩ | ⟨rfl, rfl⟩
    · rw [hinMap j hlt] at hj
      exact h.closed j s' hs' hj
    · exact absurd ⟨s'.key, (hmem s'.key _).mpr (.inl ⟨rfl, rfl⟩)⟩ hj
  · intro n f hf e he
    obtain ⟨hi, s', hs', hflushed⟩ := h.flushed n f hf e he
    have hlt' := hlt n f hf e he
    exact ⟨fun hi' => hi ((hinMap e.1 hlt').mp hi'), s', (hold e.1 hlt').trans hs', hflushed⟩
  · intro f hf summary hs
    obtain ⟨n, hn⟩ := List.mem_iff_getElem?.mp hf
    have hsame : (w.withNew s).flushedSegments f = w.flushedSegments f :=
      List.filterMap_congr fun e he => hold e.1 (hlt n f hn e he)
    rw [hsame]
    exact h.resolved f hf summary hs
  · rw [hnew, List.getElem?_eq_none le_rfl, Option.map_some, htext]
    rfl
  · intro j hj
    by_cases hj' : j < w.created.length
    · exact hold j hj'
    · rw [List.getElem?_eq_none (not_lt.mp hj')]
      refine List.getElem?_eq_none ?_
      have hlength : (w.withNew s).created.length = w.created.length + 1 := List.length_append
      omega

theorem Inv.getOrCreateSegment (h : w.Inv) (kind : SegmentKind) (sidechainId : Option String) (now : ℤ) :
    w.Ready (w.getOrCreateSegment kind sidechainId now).1 (w.getOrCreateSegment kind sidechainId now).2 := by
  simp only [Writer.getOrCreateSegment]
  split
  next i hi => exact h.ready ⟨_, OrderedMap.get_eq_some.mp hi⟩
  next hnone =>
    refine h.withNew
      (s := { key := buildStreamedTranscriptSegmentKey kind sidechainId
              kind := kind
              sidechainId := sidechainId
              segmentLocalId := w.localIds
              startedAtMs := now }) hnone rfl ?_ ?_ rfl
    · refine ⟨rfl, ?_, List.Pairwise.nil, ?_, List.Pairwise.nil, ?_, ?_⟩ <;> intros <;> contradiction
    · refine ⟨fun c hc => absurd hc List.not_mem_nil, ?_, rfl⟩
      intros
      contradiction

theorem Inv.appendDelta (h : w.Inv) (kind : SegmentKind) (deltaText : Text) (sidechainId : Option String)
    (now : ℤ) : (w.appendDelta config kind deltaText sidechainId now).Inv := by
  rw [Writer.appendDelta]
  split_ifs
  · exact h
  · obtain ⟨hinv, hi, -, -⟩ := h.getOrCreateSegment kind sidechainId now
    exact hinv.modify fun s _ _ _ => Segment.append_evolves config _ s now deltaText hi

theorem Inv.overrideSegmentText (h : w.Inv) (kind : SegmentKind) (text : Text) (sidechainId : Option String)
    (now : ℤ) : (w.overrideSegmentText config kind text sidechainId now).Inv := by
  rw [Writer.overrideSegmentText]
  split
  · exact h
  next i hi =>
    exact h.modify fun s _ _ _ =>
      Segment.overrideText_evolves config _ s now text ⟨_, OrderedMap.get_eq_some.mp hi⟩

theorem Inv.mergeSegmentMeta (h : w.Inv) (kind : SegmentKind) (fields : List (String × Value))
    (sidechainId : Option String) : (w.mergeSegmentMeta kind fields sidechainId).Inv := by
  rw [Writer.mergeSegmentMeta]
  split
  · exact h
  next i hi =>
    exact h.modify fun s _ _ _ => Segment.mergeMeta_evolves s fields ⟨_, OrderedMap.get_eq_some.mp hi⟩

theorem Inv.enableDurableCommits (h : w.Inv) (now : ℤ) : (w.enableDurableCommits config now).Inv := by
  rw [Writer.enableDurableCommits]
  split_ifs
  · exact h
  · have henabled : Inv { w with durableCommitsEnabled := true } :=
      ⟨h.localIds, h.created, h.inMap, h.closed, h.flushed, h.resolved⟩
    exact henabled.modifyLive fun s hs =>
      (Segment.checkpointStep_maybeCommitDurableStreamingSnapshot config true s now true).evolves hs

theorem Inv.discard (h : w.Inv) : w.discard.Inv := by
  refine h.leave fun s hsound hopen => ⟨?_, ⟨rfl, rfl⟩, rfl⟩
  exact ⟨hsound.counted, hsound.current, hsound.versions, hsound.newest, hsound.states, nofun, hsound.committed⟩

theorem FlushReason.state_ne (reason : FlushReason) : reason.state ≠ .streaming := by
  cases reason <;> nofun

theorem Inv.flushAll (h : w.Inv) (reason : FlushReason) (interruptedReason : Option String) (now : ℤ) :
    (w.flushAll config reason interruptedReason now).Inv := by
  have hspec := fun (s : Segment Value) (hsound : s.Sound) (hopen : s.Open) =>
    Segment.flush_spec hsound hopen (FlushReason.state_ne reason) config w.durableCommitsEnabled now
      w.flushes.length interruptedReason
  have hleft := h.leave (f := fun s => s.flush config w.durableCommitsEnabled now w.flushes.length reason.state
    interruptedReason) fun s hsound hopen =>
      ⟨(hspec s hsound hopen).1, (hspec s hsound hopen).2.2.1, (hspec s hsound hopen).2.2.2.segmentLocalId⟩
  refine hleft.addFlush _ rfl fun e he => ⟨nofun, ?_⟩
  obtain ⟨⟨key, i⟩, hmem, hmap⟩ := List.mem_filterMap.mp he
  obtain ⟨s, hs, rfl⟩ := Option.map_eq_some_iff.mp hmap
  have hi : w.InMap i := ⟨key, hmem⟩
  refine ⟨_, ?_, (hspec s (h.created i s hs).2 (h.openOfInMap hs hi)).2.1⟩
  exact (created_modifyLive_of_inMap hi).trans (by rw [hs]; rfl)

theorem inv_step (h : w.Inv) (e : Event Value) : (step config w e).Inv := by
  cases e with
  | appendDelta kind deltaText sidechainId now => exact h.appendDelta kind deltaText _ now
  | overrideText kind text sidechainId now => exact h.overrideSegmentText kind text _ now
  | mergeMeta kind fields sidechainId => exact h.mergeSegmentMeta kind fields _
  | enableDurableCommits now => exact h.enableDurableCommits now
  | discard => exact h.discard
  | flushAll reason interruptedReason now => exact h.flushAll reason interruptedReason now
  | flushResolves n => exact h.flushResolves n
  | checkpointTimer i now =>
      exact h.modify fun s _ _ hclosed => Segment.checkpointTimerFired_evolves _ s now _ _ hclosed
  | liveTimer i now => exact h.modify fun s _ _ hclosed => Segment.liveTimerFired_evolves config s now _ _ hclosed
  | commitEnded i outcome now => exact h.modify fun s _ _ _ => Segment.commitEnded_evolves s now outcome _
  | commitFinally i now => exact h.modify fun s _ _ _ => Segment.commitFinally_evolves s now _

theorem didSegmentDurablyFlush_iff (s : Segment Value) (state : SegmentState) :
    s.didSegmentDurablyFlush state = true ↔ s.accumulatedText ≠ [] ∧
      s.lastCommittedTextVersion = s.textVersion ∧ s.lastCommittedState = some state := by
  rw [Segment.didSegmentDurablyFlush]
  by_cases h : s.accumulatedText = []
  · simp [h]
  · have hlength : s.accumulatedText.length ≠ 0 := fun h' => h (List.length_eq_zero_iff.mp h')
    simp [h, hlength]

theorem reported_of_flushed {f : Flush} {e : ℕ × Text} {n : ℕ} {s : Segment Value} {r : SegmentFlushSummary}
    (hs : w.created[e.1]? = some s) (hsound : s.Sound) (hflushed : s.Flushed f.state e.2 n)
    (hidle : s.committing = none) (hr : r.didDurablyFlush = s.didSegmentDurablyFlush f.state) :
    w.Reported f e r s := by
  have hfinal : s.Final f.state := by
    refine hflushed.stage.resolve_left fun hqueued => ?_
    obtain ⟨p, hp, -⟩ := hqueued.pending
    have hsome := (hsound.pending (Option.isSome_iff_exists.mpr ⟨p, hp⟩)).1
    rw [hidle] at hsome
    cases hsome
  obtain ⟨old, k, hcommits, -, hks, -, hkt, hcarries⟩ := hfinal.last
  refine ⟨hs, ⟨k, by rw [hcommits, List.getLast?_concat]; rfl, hkt.trans hflushed.text, hks, hcarries⟩, ?_⟩
  obtain ⟨outcome, hlast, hiff⟩ := hfinal.finished (by rw [hidle]; nofun)
  have hcounted : s.commits.length = s.outcomes.length := by
    have hcounted := hsound.counted
    rwa [Segment.inFlight, hidle] at hcounted
  rw [hr, didSegmentDurablyFlush_iff, hflushed.text, Segment.LastPersisted, ← hiff, hlast]
  simp [hcounted]

theorem kept_of_inv (h : w.Inv) : w.Kept where
  oneInFlight := by
    intro s hs
    obtain ⟨i, hi⟩ := List.mem_iff_getElem?.mp hs
    have hcounted := (h.created i s hi).2.counted
    have hle : s.inFlight ≤ 1 := by rw [Segment.inFlight]; split_ifs <;> decide
    omega
  versions := by
    intro s hs
    obtain ⟨i, hi⟩ := List.mem_iff_getElem?.mp hs
    exact (h.created i s hi).2.versions
  finalLast := by
    intro s hs
    obtain ⟨i, hi⟩ := List.mem_iff_getElem?.mp hs
    exact (h.created i s hi).2.states
  reported := by
    intro f hf summary hsummary
    obtain ⟨heq, hidle⟩ := h.resolved f hf summary hsummary
    obtain ⟨n, hn⟩ := List.mem_iff_getElem?.mp hf
    subst heq
    have hall := h.flushed n f hn
    simp only [buildFlushSummary, flushedSegments] at hidle ⊢
    generalize f.segments = entries at hall hidle
    induction entries with
    | nil => exact .nil
    | cons e entries ih =>
        obtain ⟨⟨-, s, hs, hflushed⟩, hall⟩ := List.forall_mem_cons.mp hall
        rw [List.filterMap_cons_some (f := fun e : ℕ × Text => w.created[e.1]?) hs] at hidle ⊢
        obtain ⟨hnone, hidle⟩ := List.forall_mem_cons.mp hidle
        exact .cons ⟨s, reported_of_flushed hs (h.created e.1 s hs).2 hflushed hnone rfl⟩ (ih hall hidle)
  frozen := by
    intro f hf e he
    obtain ⟨n, hn⟩ := List.mem_iff_getElem?.mp hf
    obtain ⟨hi, s, hs, hflushed⟩ := h.flushed n f hn e he
    refine ⟨hi, ?_⟩
    rw [hs, Option.map_some, hflushed.text]
  localIds := by
    rw [List.nodup_iff_injective_get]
    intro i j hij
    have hid : ∀ i : Fin (w.created.map (·.segmentLocalId)).length,
        (w.created.map (·.segmentLocalId)).get i = i := by
      intro i
      have hi : (i : ℕ) < w.created.length := by simpa using i.2
      simpa using (h.created i _ (List.getElem?_eq_getElem hi)).1
    rw [hid, hid] at hij
    exact Fin.ext hij

theorem appended_of_inv (h : w.Inv) (kind : SegmentKind) {deltaText : Text} (hdelta : deltaText ≠ [])
    (sidechainId : Option String) (now : ℤ) :
    Appended w (step config w (.appendDelta kind deltaText sidechainId now)) deltaText := by
  obtain ⟨hinv, hi, htext, hothers⟩ := h.getOrCreateSegment kind (normalizeSidechainId sidechainId) now
  simp only [step, Writer.appendDelta, hdelta, if_false]
  generalize w.getOrCreateSegment kind (normalizeSidechainId sidechainId) now = ready at hinv hi htext hothers
  obtain ⟨w₁, i⟩ := ready
  obtain ⟨s, hs, hst⟩ := Option.map_eq_some_iff.mp htext
  refine ⟨i, s.append config w₁.durableCommitsEnabled now deltaText, hi, ?_, ?_, fun j hj => ?_⟩
  · simp only [Writer.modify, List.getElem?_modify, if_true]
    rw [hs]
    rfl
  · rw [Segment.append, Segment.textChanged_text, ← hst]
  · simp only [Writer.modify, List.getElem?_modify, Ne.symm hj, if_false]
    rw [← hothers j hj]
    exact Option.map_id'

/-- The commits of a segment go out one at a time, with texts that never get older and no
streaming one after the final one. A flush that has resolved has committed the full texts of its
segments with its state, and reports exactly that; later texts go to other segments. -/
theorem commits_kept (config : Config) (requireExplicitEnable : Bool) (events : List (Event Value)) :
    Kept (run (step config) (create requireExplicitEnable) events) ∧
      ∀ kind (deltaText : Text) sidechainId now, deltaText ≠ [] →
        Appended (run (step config) (create requireExplicitEnable) events)
          (step config (run (step config) (create requireExplicitEnable) events)
            (.appendDelta kind deltaText sidechainId now)) deltaText := by
  have hinv : (run (step config) (create requireExplicitEnable) events).Inv :=
    run_invariant (I := Inv) (fun _ e h => inv_step h e) (inv_create requireExplicitEnable) events
  exact ⟨kept_of_inv hinv, fun kind deltaText sidechainId now hdelta =>
    appended_of_inv hinv kind hdelta sidechainId now⟩

def emptiedText : List (Event Unit) :=
  [.appendDelta .assistant [72] none 0, .commitEnded 0 .persisted 0, .commitFinally 0 0,
    .overrideText .assistant [] none 0, .flushAll .turnEnd none 0, .commitEnded 0 .persisted 0,
    .commitFinally 0 0, .flushResolves 0]

def durableOnly : Config := ⟨false, 500, 10000, 999, 40, 1⟩

theorem empty_text_not_reported :
    ¬ ∀ f ∈ (run (step durableOnly) (create false) emptiedText).flushes, ∀ summary ∈ f.summary,
      f.segments.Forall₂ (fun e r => ∀ s ∈ (run (step durableOnly) (create false) emptiedText).created[e.1]?,
        (r.didDurablyFlush = true ↔ s.LastPersisted)) summary.segments := by
  intro h
  generalize hw : run (step durableOnly) (create false) emptiedText = w at h
  have hflushes : w.flushes.map (fun f => (f.segments, f.summary.map (·.segments.map (·.didDurablyFlush)))) =
      [([(0, [])], some [false])] := by rw [← hw]; decide
  have hpersisted : ∀ s ∈ w.created[0]?, s.LastPersisted := by rw [← hw]; decide
  have hcreated : (w.created[0]?).isSome := by rw [← hw]; decide
  obtain ⟨s, hs⟩ := Option.isSome_iff_exists.mp hcreated
  obtain ⟨f, fs, hf⟩ := List.exists_cons_of_ne_nil (l := w.flushes) (by rintro heq; rw [heq] at hflushes; cases hflushes)
  rw [hf, List.map_cons, List.cons.injEq, Prod.mk.injEq, Option.map_eq_some_iff] at hflushes
  obtain ⟨⟨hsegments, summary, hsummary, hreports⟩, -⟩ := hflushes
  have hall := h f (by rw [hf]; exact List.mem_cons_self) summary hsummary
  obtain ⟨r, rs, hrs⟩ := List.exists_cons_of_ne_nil (l := summary.segments)
    (by rintro heq; rw [heq] at hreports; cases hreports)
  rw [hrs, List.map_cons, List.cons.injEq] at hreports
  rw [hsegments, hrs, List.forall₂_cons] at hall
  have hreported := (hall.1 s hs).mpr (hpersisted s hs)
  rw [hreports.1] at hreported
  cases hreported

end Writer

end DevPilot.Streaming
