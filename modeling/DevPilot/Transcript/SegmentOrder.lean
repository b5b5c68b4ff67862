import DevPilot.Lib.Latest
import DevPilot.Transcript.FinalResults

/-!
What a stream segment shows when its snapshots arrive in one order or another.
-/

namespace DevPilot.Transcript

open PyJson Tables

variable {F : Type}

abbrev Update (F : Type) := NormalizedMessage F × SegmentSnapshot F

def deliver (s : ReducerState F) (updates : List (Update F)) : ReducerState F :=
  updates.foldl (fun s u => (upsertStreamSegmentSnapshotMessage u.1 u.2 s).1) s

def segmentMessage? (s : ReducerState F) (localId : String) : Option (ReducerMessage F) :=
  (s.localIds.get localId).bind s.message?

def segmentText (s : ReducerState F) (localId : String) : Option String :=
  (segmentMessage? s localId).bind (·.text)

def Update.stale (next prev : Update F) : Bool :=
  isOlder next.2.seq prev.2.seq ||
    isOlder (updatedAtMs? next.2.metadata) (updatedAtMs? prev.2.metadata)

/-- Both carry a seq or neither does, and the same for `updatedAtMs`. -/
def Update.SameClocks (u v : Update F) : Prop :=
  u.2.seq.isSome = v.2.seq.isSome ∧
    (updatedAtMs? u.2.metadata).isSome = (updatedAtMs? v.2.metadata).isSome

/-- Updates of the segment `localId`. -/
def OfSegment (localId : String) (isThinking : Bool) (updates : List (Update F)) : Prop :=
  ∀ u ∈ updates, u.2.localId = localId ∧ u.2.isThinking = isThinking

variable {updates : List (Update F)} {localId : String} {isThinking : Bool} {s : ReducerState F}

theorem isOlder_trans {x y z : Option Int} (hxy : x.isSome = y.isSome) (hyz : y.isSome = z.isSome)
    (hyx : isOlder y x = false) (hzy : isOlder z y = false) : isOlder z x = false := by
  cases x <;> cases y <;> cases z <;> simp_all [isOlder]
  omega

theorem ranked_of_sameClocks (h : ∀ u ∈ updates, ∀ v ∈ updates, u.SameClocks v) :
    Latest.Ranked Update.stale updates := by
  have hself : ∀ x : Option Int, isOlder x x = false := fun x => by cases x <;> simp [isOlder]
  refine ⟨fun u _ => by simp [Update.stale, hself], fun u hu v hv w hw hvu hwv => ?_⟩
  obtain ⟨hseq, htime⟩ := h u hu v hv
  obtain ⟨hseq', htime'⟩ := h v hv w hw
  rw [Update.stale, Bool.or_eq_false_iff] at hvu hwv ⊢
  exact ⟨isOlder_trans hseq hseq' hvu.1 hwv.1, isOlder_trans htime htime' hvu.2 hwv.2⟩

/-- The message of the segment stands as the update `held` left it. -/
structure Shows (localId : String) (isThinking : Bool) (held : Update F) (m : ReducerMessage F) :
    Prop where
  role : m.role = .agent
  isThinking : m.isThinking = isThinking
  text : m.text = some held.2.text
  seq : m.seq = held.2.seq
  updatedAtMs : updatedAtMs? m.metadata = updatedAtMs? held.2.metadata

def Holds (localId : String) (isThinking : Bool) (held : Option (Update F)) (s : ReducerState F) :
    Prop :=
  match held with
  | none => s.localIds.get localId = none
  | some u => ∃ m, segmentMessage? s localId = some m ∧ Shows localId isThinking u m

theorem laterSeq_of_taken {prev next : Option Int} (hsome : next.isSome = prev.isSome)
    (h : isOlder next prev = false) : laterSeq prev next = next := by
  cases prev <;> cases next <;> simp_all [isOlder, laterSeq]
  omega

theorem segmentText_of_holds {held : Update F} (h : Holds localId isThinking (some held) s) :
    segmentText s localId = some held.2.text := by
  obtain ⟨m, hm, hshows⟩ := h
  rw [segmentText, hm, Option.bind_some, hshows.text]

theorem holds_upsert {held : Option (Update F)} {u : Update F} (h : Holds localId isThinking held s)
    (hid : u.2.localId = localId) (hthinking : u.2.isThinking = isThinking)
    (hclocks : ∀ v ∈ held, u.SameClocks v) :
    Holds localId isThinking (Latest.take Update.stale held u)
      (upsertStreamSegmentSnapshotMessage u.1 u.2 s).1 := by
  subst hid
  unfold upsertStreamSegmentSnapshotMessage
  cases held with
  | none =>
      have hnone : s.localIds.get u.2.localId = none := h
      rw [hnone]
      refine ⟨u.2.message, ?_, rfl, hthinking, rfl, rfl, rfl⟩
      simp [segmentMessage?, ReducerState.message?, ReducerState.addText, ReducerState.addMessage,
        ReducerState.noteWriter, ReducerState.newId]
  | some v =>
      obtain ⟨m, hm, hshows⟩ := h
      obtain ⟨mid, hmid, hget⟩ := Option.bind_eq_some_iff.mp hm
      obtain ⟨hseq, htime⟩ := hclocks v rfl
      have hrole : ¬(m.role ≠ .agent ∨ m.isThinking ≠ u.2.isThinking) := by
        simp [hshows.role, hshows.isThinking, hthinking]
      have happly : shouldApplyStreamSegmentSnapshotUpdate m u.2 = !u.stale v := by
        rw [shouldApplyStreamSegmentSnapshotUpdate, hshows.seq, hshows.updatedAtMs, Update.stale,
          Bool.not_or]
      simp only [hmid, hget, if_neg hrole, happly]
      cases hstale : u.stale v with
      | true =>
          rw [show Latest.take Update.stale (some v) u = some v from if_pos hstale]
          exact ⟨m, hm, hshows⟩
      | false =>
          rw [show Latest.take Update.stale (some v) u = some u from if_neg (by simp [hstale])]
          rw [Update.stale, Bool.or_eq_false_iff] at hstale
          refine ⟨u.2.update m, ?_, hshows.role, hshows.isThinking, rfl, ?_, rfl⟩
          · have hmodify := ReducerState.message?_modifyMessage mid mid u.2.update s
            rw [if_pos rfl, hget] at hmodify
            simp only [Bool.not_false, if_true]
            rw [segmentMessage?, show (s.writeText mid u.2.update u.1).localIds.get u.2.localId = some mid
              from hmid]
            exact hmodify
          · rw [SegmentSnapshot.update, hshows.seq]
            exact laterSeq_of_taken hseq hstale.1

theorem mem_take {held : Option (Update F)} {u v : Update F}
    (h : v ∈ Latest.take Update.stale held u) : v ∈ held ∨ v = u := by
  cases held with
  | none => exact .inr (Option.some.inj h).symm
  | some w =>
      simp only [Latest.take] at h
      split_ifs at h
      · exact .inl h
      · exact .inr (Option.some.inj h).symm

theorem holds_deliver {held : Option (Update F)} (h : Holds localId isThinking held s)
    (hsegment : OfSegment localId isThinking updates)
    (hclocks : ∀ u ∈ updates, ∀ v, v ∈ updates ∨ v ∈ held → u.SameClocks v) :
    Holds localId isThinking (Latest.hold Update.stale held updates) (deliver s updates) := by
  induction updates generalizing held s with
  | nil => exact h
  | cons u updates ih =>
      obtain ⟨hid, hthinking⟩ := hsegment u (by simp)
      have hstep := holds_upsert h hid hthinking fun v hv => hclocks u (by simp) v (.inr hv)
      refine ih hstep (fun v hv => hsegment v (List.mem_cons_of_mem _ hv)) fun v hv w hw => ?_
      apply hclocks v (List.mem_cons_of_mem _ hv)
      rcases hw with hw | hw
      · exact .inl (List.mem_cons_of_mem _ hw)
      · rcases mem_take hw with hw | rfl
        · exact .inr hw
        · exact .inl (by simp)

/-- A snapshot of the segment `"segment"`. -/
def snapshotUpdate (seq : Option Int) (updatedAt : Option Int) (text : String) : Update Unit :=
  (.ofAgent text 0 (.text text), {
    localId := "segment"
    realID := text
    createdAt := 0
    seq
    transcriptBlockIndex := none
    isThinking := false
    text
    metadata := some [("happierStreamSegmentV1", .obj ([("v", .int 1), ("segmentKind", .str "assistant")] ++
      (updatedAt.map fun t => ("updatedAtMs", Json.int t)).toList))] })

def firstUpdate : Update Unit := snapshotUpdate (some 1) (some 1) "a"
def secondUpdate : Update Unit := snapshotUpdate (some 2) (some 1) "ab"
def thirdUpdate : Update Unit := snapshotUpdate (some 3) (some 2) "abc"

end DevPilot.Transcript
