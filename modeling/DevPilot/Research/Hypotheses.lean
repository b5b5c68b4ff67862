import DevPilot.Research.Reducer

/-!
What the events of the runtime tell the desktop UI of the hypotheses.
-/

namespace DevPilot

open PyJson

variable {F : Type}

def IsTrimmed (s : String) : Prop := readString (F := Empty) (some (.str s)) = some s

instance (s : String) : Decidable (IsTrimmed s) := inferInstanceAs (Decidable (_ = _))

theorem readString_of_isTrimmed {s : String} (h : IsTrimmed s) :
    readString (F := F) (some (.str s)) = some s := h

theorem IsTrimmed.ne_empty {s : String} (h : IsTrimmed s) : s ≠ "" := by
  rintro rfl
  revert h
  decide

theorem isTrimmed_of_forall {s : String} (hne : s ≠ "") (h : ∀ c ∈ s.toList, isJsSpace c = false) :
    IsTrimmed s := by
  have hdrop : ∀ l : List Char, (∀ c ∈ l, isJsSpace c = false) → l.dropWhile isJsSpace = l := by
    intro l hl
    cases l with
    | nil => rfl
    | cons c l => rw [List.dropWhile_cons_of_neg (by simp [hl c List.mem_cons_self])]
  have htrim : jsTrim s = s := by
    rw [jsTrim, hdrop s.toList h, hdrop _ fun c hc => h c (List.mem_reverse.mp hc),
      List.reverse_reverse, String.ofList_toList]
  rw [IsTrimmed, readString, Option.bind_some, Json.str?, Option.bind_some, htrim, if_neg]
  simpa using hne

theorem isJsSpace_of_isDigit {c : Char} (h : c.isDigit = true) : isJsSpace c = false := by
  obtain ⟨hlow, hhigh⟩ : 48 ≤ c.toNat ∧ c.toNat ≤ 57 := Char.isDigit_iff_toNat.mp h
  rw [isJsSpace, Bool.or_eq_false_iff]
  constructor
  · simp only [decide_eq_false_iff_not, List.mem_cons, List.not_mem_nil, or_false]
    omega
  · simp only [Bool.and_eq_false_iff, decide_eq_false_iff_not]
    omega

def HypothesisStatus.name : HypothesisStatus → String
  | .pending => "pending"
  | .queued => "queued"
  | .running => "running"
  | .done => "done"
  | .merged => "merged"
  | .failed => "failed"
  | .pruned => "pruned"
  | .awaitingInput => "awaiting-input"
  | .cancelled => "cancelled"

namespace ResearchRunState

variable {host : ResearchHost F} {state : ResearchRunState F} {e : DevPilotEvent F}

def hypothesisStatus (state : ResearchRunState F) (x : String) : Option HypothesisStatus :=
  (state.hypotheses.lookup x).map (·.status)

theorem hypotheses_reduce (hcreated : e.type ≠ .hypothesisCreated)
    (hupdated : e.type ≠ .hypothesisUpdated) :
    (reduceResearchRun host state e).hypotheses = state.hypotheses ∧
      (reduceResearchRun host state e).hypothesisOrder = state.hypothesisOrder := by
  rw [reduceResearchRun]
  cases htype : e.type
  case hypothesisCreated => exact absurd htype hcreated
  case hypothesisUpdated => exact absurd htype hupdated
  case executorStarted | executorProgress | executorCompleted | executorFailed =>
    dsimp only
    rw [updateExecutor.eq_def]
    split <;> exact ⟨rfl, rfl⟩
  case toolCalled | toolCompleted | toolFailed =>
    dsimp only
    rw [useTool.eq_def]
    split <;> exact ⟨rfl, rfl⟩
  case permissionResolved =>
    dsimp only
    rw [resolvePermission.eq_def]
    split <;> exact ⟨rfl, rfl⟩
  case permissionRequested =>
    dsimp only [requestPermission]
    split_ifs <;> exact ⟨rfl, rfl⟩
  case evidenceCreated =>
    dsimp only [addEvidence]
    split_ifs <;> exact ⟨rfl, rfl⟩
  case reportGenerated | artifactCreated | memoryCreated | auditCompleted =>
    dsimp only [addArtifact]
    split_ifs <;> exact ⟨rfl, rfl⟩
  all_goals exact ⟨rfl, rfl⟩

theorem reduce_hypothesis (h : e.type = .hypothesisCreated ∨ e.type = .hypothesisUpdated) :
    reduceResearchRun host state e = state.updateHypothesis host e := by
  rw [reduceResearchRun]
  rcases h with h | h <;> rw [h]

theorem hypothesisStatus_updateHypothesis {id : String} (hkey : e.hypothesisKey host = some id)
    (hid : id ≠ "") (x : String) : (state.updateHypothesis host e).hypothesisStatus x =
      if x = id then some (e.hypothesisStatus host ((state.hypothesisStatus id).getD .pending))
      else state.hypothesisStatus x := by
  rw [updateHypothesis.eq_def, hkey]
  split
  · next h => cases h
  · next h => exact absurd (Option.some.inj h) hid
  · next id' h =>
      obtain rfl := Option.some.inj h
      rw [hypothesisStatus]
      dsimp only
      split_ifs with hx
      · rw [hx, Members.lookup_insert_self]
        rfl
      · rw [Members.lookup_insert_ne hx]
        rfl

end ResearchRunState

def envelope (timestamp : Json F) (type : String) (data : Members F) : Json F :=
  .obj [("type", .str type), ("data", .obj data), ("timestamp", timestamp)]

theorem readText_str (host : ResearchHost F) {s : String} (h : IsTrimmed s) :
    readText host (some (.str s)) = some s := by
  rw [readText, readString_of_isTrimmed h]
  rfl

def enveloped (host : ResearchHost F) (timestamp : Json F) (type : String) (data : Members F)
    (t : DevPilotEventType) : DevPilotEvent F :=
  let ids (keys : List String) : Option String := stringValue host (keys.map (data.lookup ·))
  { type := t
    originalType := type
    timestamp := readText host (some timestamp)
    runId := ids ["run_id", "runId"]
    sessionId := ids ["session_id", "sessionId"]
    cycleId := ids ["cycle_id", "cycleId", "cycle_num"]
    hypothesisId := ids ["hypothesis_id", "hypothesisId", "node_id"]
    executorId := ids ["executor_id", "executorId"]
    toolName := ids ["tool_name", "toolName", "name"]
    status := ids ["status"]
    summary := ids ["summary", "message"]
    data }

theorem normalize_envelope (host : ResearchHost F) (timestamp : Json F) {type : String}
    (htype : IsTrimmed type) (data : Members F) :
    normalizeDevPilotEvent host (envelope timestamp type data) =
      (DevPilotEventType.ofName type).map (enveloped host timestamp type data) := by
  have hname : stringValue host [some (.str type), some (.str type)] = some type := by
    rw [stringValue, List.findSome?_cons, readText_str host htype]
  have htime : stringValue host [some timestamp, none, some timestamp, none] =
      readText host (some timestamp) := by
    simp only [stringValue, List.findSome?_cons]
    cases readText host (some timestamp) <;> rfl
  simp only [normalizeDevPilotEvent, envelope, record, Option.bind_eq_bind, Option.bind_some,
    Members.lookup_cons, List.lookup_nil, String.reduceEq, reduceIte, Option.getD_none,
    Option.getD_some, Option.orElse_some, List.map_cons, List.map_nil, hname, htime]
  cases DevPilotEventType.ofName type <;> rfl

@[simp] theorem stringValue_singleton (host : ResearchHost F) (v : Option (Json F)) :
    stringValue host [v] = readText host v := by
  rw [stringValue, List.findSome?_cons]
  cases readText host v <;> rfl

theorem hypothesisStatus_proposed (host : ResearchHost F) (timestamp : Json F) {data : Members F}
    (h : data.lookup "status" = none) (t : DevPilotEventType) (st : HypothesisStatus) :
    (enveloped host timestamp "idea.proposed" data t).hypothesisStatus host st = st := by
  have hstatus : (enveloped host timestamp "idea.proposed" data t).status = none := by
    simp [enveloped, h, readText, readString, finite]
  have htext : (enveloped host timestamp "idea.proposed" data t).text host ["status"] = none := by
    simp [enveloped, DevPilotEvent.text, h, readText, readString, finite]
  have hraw : "".toLower = "" := by unfold String.toLower; simp
  rw [DevPilotEvent.hypothesisStatus, hstatus, htext]
  simp [enveloped, hraw]

theorem hypothesisStatus_completed (host : ResearchHost F) (timestamp : Json F) {data : Members F}
    (h : data.lookup "status" = some (.str "done")) (t : DevPilotEventType)
    (st : HypothesisStatus) :
    (enveloped host timestamp "idea.completed" data t).hypothesisStatus host st = .done := by
  have hstatus : (enveloped host timestamp "idea.completed" data t).status = some "done" := by
    simp only [enveloped, List.map_cons, List.map_nil, h, stringValue_singleton]
    exact readText_str host (by decide)
  have hraw : "done".toLower ≠ "failed" := by
    unfold String.toLower
    rw [ne_eq, ← String.toList_inj, String.toList_map]
    decide
  rw [DevPilotEvent.hypothesisStatus, hstatus]
  simp [enveloped, hraw]

def tellsHypothesis (type : String) : Bool :=
  (DevPilotEventType.ofName type).any fun t => t = .hypothesisCreated ∨ t = .hypothesisUpdated

namespace ResearchRunState

variable {host : ResearchHost F} {state : ResearchRunState F}

def hear (host : ResearchHost F) (timestamp : Json F) (state : ResearchRunState F)
    (e : String × Members F) : ResearchRunState F :=
  (normalizeDevPilotEvents host [envelope timestamp e.1 e.2]).foldl (reduceResearchRun host) state

theorem hear_eq (timestamp : Json F) {type : String} (h : IsTrimmed type) (data : Members F) :
    state.hear host timestamp (type, data) = ((DevPilotEventType.ofName type).map fun t =>
      reduceResearchRun host state (enveloped host timestamp type data t)).getD state := by
  rw [hear, normalizeDevPilotEvents, List.filterMap_cons, normalize_envelope host timestamp h]
  cases DevPilotEventType.ofName type <;> rfl

theorem hypothesisStatus_hear_other (timestamp : Json F) {type : String} (h : IsTrimmed type)
    (hother : tellsHypothesis type = false) (data : Members F) (x : String) :
    (state.hear host timestamp (type, data)).hypothesisStatus x = state.hypothesisStatus x := by
  rw [hear_eq timestamp h]
  cases htype : DevPilotEventType.ofName type with
  | none => rfl
  | some t =>
      obtain ⟨hcreated, hupdated⟩ : t ≠ .hypothesisCreated ∧ t ≠ .hypothesisUpdated := by
        simpa [tellsHypothesis, htype] using hother
      rw [Option.map_some, Option.getD_some, hypothesisStatus,
        (hypotheses_reduce hcreated hupdated).1]
      rfl

theorem hypothesisStatus_foldl_hear (timestamp : Json F) {events : List (String × Members F)}
    (h : ∀ e ∈ events, IsTrimmed e.1 ∧ tellsHypothesis e.1 = false) (x : String) :
    (events.foldl (hear host timestamp) state).hypothesisStatus x = state.hypothesisStatus x := by
  induction events generalizing state with
  | nil => rfl
  | cons e events ih =>
      obtain ⟨htrimmed, hother⟩ := h e List.mem_cons_self
      rw [List.foldl_cons, ih fun e he => h e (List.mem_cons_of_mem _ he)]
      exact hypothesisStatus_hear_other timestamp htrimmed hother e.2 x

theorem hypothesisStatus_hear (timestamp : Json F) {type : String} {data : Members F}
    (h : IsTrimmed type) (htells : tellsHypothesis type = true) {id : String} (hid : IsTrimmed id)
    (hkeys : data.lookup "hypothesis_id" = none ∧ data.lookup "hypothesisId" = none)
    (hnode : data.lookup "node_id" = some (.str id)) (x : String) :
    (state.hear host timestamp (type, data)).hypothesisStatus x = if x = id then
        some ((enveloped host timestamp type data .hypothesisUpdated).hypothesisStatus host
          ((state.hypothesisStatus id).getD .pending))
      else state.hypothesisStatus x := by
  have hne := hid.ne_empty
  have hname (t : DevPilotEventType) :
      (enveloped host timestamp type data t).hypothesisId = some id := by
    rw [enveloped]
    simp only [List.map_cons, List.map_nil, hkeys.1, hkeys.2, hnode, stringValue,
      List.findSome?_cons, readText_str host hid]
    rfl
  have hkey (t : DevPilotEventType) :
      (enveloped host timestamp type data t).hypothesisKey host = some id := by
    rw [DevPilotEvent.hypothesisKey, hname]
    rfl
  have hupdate (t : DevPilotEventType) :
      (state.updateHypothesis host (enveloped host timestamp type data t)).hypothesisStatus x =
        if x = id then some ((enveloped host timestamp type data .hypothesisUpdated).hypothesisStatus
          host ((state.hypothesisStatus id).getD .pending))
        else state.hypothesisStatus x := by
    rw [hypothesisStatus_updateHypothesis (hkey t) hne]
    rfl
  rw [hear_eq timestamp h]
  obtain ⟨t, htype, ht⟩ := (Option.any_eq_true _ _).mp htells
  rw [htype, Option.map_some, Option.getD_some, reduce_hypothesis (of_decide_eq_true ht)]
  exact hupdate t

end ResearchRunState

end DevPilot
