import DevPilot.Coordinator.Executors

/-!
The idea ledger of the run dashboard: what the events of a run make of its
records and counters.
-/

namespace DevPilot

open PyJson

variable {F : Type}

structure IdeaRecord where
  hypothesis : String
  status : String := "proposed"
  branch : Option String := none
  parentId : Option String := none
  prunedReason : Option String := none

structure RunState where
  ideas : List (String × IdeaRecord) := []
  ideasProposed : Nat := 0
  ideasRunning : Nat := 0
  ideasDone : Nat := 0
  ideasPruned : Nat := 0
  ideasMerged : Nat := 0
  ideasNeedsRetry : Nat := 0

/-- The events of a run that concern its ideas. -/
inductive RunEvent (F : Type)
  | ideaProposed (nodeId : String) (hypothesis : Json F) (parentId : Option String)
  | ideaCompleted (nodeId status : String)
  | ideaPruned (nodeId : String) (reason : Json F)
  | ideaMerged (nodeId : String)
  | executorStart (nodeId branch : String)
  | executorEnd (nodeId status : String)

/-- `v or ""`, where that has the methods of a string. -/
def textOrEmpty (rt : Runtime F) (v : Json F) : Option String :=
  if rt.isTrue v then v.str? else some ""

namespace RunState

/-- `_upsert`, with what is then done to the record. -/
def upsert (s : RunState) (nodeId : String) (f : IdeaRecord → IdeaRecord) : RunState :=
  let record := (s.ideas.lookup nodeId).getD { hypothesis := "" }
  { s with ideas := Members.insert nodeId (f record) s.ideas }

def count (s : RunState) (status : String) : Nat := s.ideas.countP (·.2.status == status)

def recount (s : RunState) : RunState :=
  { s with
    ideasProposed := s.ideas.length
    ideasRunning := s.count "running"
    ideasDone := s.count "done" + s.count "merged"
    ideasPruned := s.count "pruned" + s.count "failed"
    ideasMerged := s.count "merged"
    ideasNeedsRetry := s.count "needs_retry" }

def branchBudgetUsed (s : RunState) : Nat := s.ideasDone + s.ideasPruned + s.ideasNeedsRetry

def oneLine (text : String) : String :=
  String.ofList ((stripText text).toList.map fun c => if c = '\n' then ' ' else c)

def onIdeaProposed (rt : Runtime F) (s : RunState) (nodeId : String) (hypothesis : Json F)
    (parentId : Option String) : RunState :=
  match textOrEmpty rt hypothesis with
  | none => s
  | some text =>
      let s := s.upsert nodeId fun record =>
        { record with
          hypothesis := oneLine text
          status := "proposed"
          parentId := (parentId.filter (!·.isEmpty)).orElse fun _ => record.parentId }
      { s with ideasProposed := s.ideas.length }

def onIdeaCompleted (s : RunState) (nodeId status : String) : RunState :=
  let status := String.ofList (lower (if status.isEmpty then "done" else status))
  (s.upsert nodeId fun record =>
    { record with
      status := if status ∈ ["done", "failed", "needs_retry"] then status else "done" }).recount

/-- A reason that is no text raises before the counters are renewed. -/
def onIdeaPruned (rt : Runtime F) (s : RunState) (nodeId : String) (reason : Json F) : RunState :=
  match textOrEmpty rt reason with
  | none => s.upsert nodeId fun record => { record with status := "pruned" }
  | some text =>
      (s.upsert nodeId fun record =>
        { record with
          status := "pruned"
          prunedReason := if (stripText text).isEmpty then none else some (stripText text) }).recount

def onIdeaMerged (s : RunState) (nodeId : String) : RunState :=
  (s.upsert nodeId fun record => { record with status := "merged" }).recount

def onExecutorStart (s : RunState) (nodeId branch : String) : RunState :=
  (s.upsert nodeId fun record =>
    { record with
      status := "running"
      branch := if branch.isEmpty then record.branch else some branch }).recount

def onExecutorEnd (s : RunState) (nodeId status : String) : RunState :=
  let status := String.ofList (lower status)
  (s.upsert nodeId fun record =>
    if record.status = "running" then
      { record with
        status := if status ∈ ["done", "needs_retry", "failed"] then status else "done" }
    else record).recount

def handle (rt : Runtime F) (s : RunState) : RunEvent F → RunState
  | .ideaProposed nodeId hypothesis parentId => s.onIdeaProposed rt nodeId hypothesis parentId
  | .ideaCompleted nodeId status => s.onIdeaCompleted nodeId status
  | .ideaPruned nodeId reason => s.onIdeaPruned rt nodeId reason
  | .ideaMerged nodeId => s.onIdeaMerged nodeId
  | .executorStart nodeId branch => s.onExecutorStart nodeId branch
  | .executorEnd nodeId status => s.onExecutorEnd nodeId status

def status (s : RunState) (x : String) : Option String := (s.ideas.lookup x).map (·.status)

def keys (s : RunState) : List String := Members.keys s.ideas

theorem status_upsert (s : RunState) (nodeId : String) (f : IdeaRecord → IdeaRecord) (x : String) :
    (s.upsert nodeId f).status x = if x = nodeId then
      some (f ((s.ideas.lookup nodeId).getD { hypothesis := "" })).status else s.status x := by
  rw [status, upsert]
  by_cases hx : x = nodeId
  · rw [if_pos hx, hx, Members.lookup_insert_self]
    rfl
  · rw [if_neg hx, Members.lookup_insert_ne hx]
    rfl

theorem keys_upsert (s : RunState) (nodeId : String) (f : IdeaRecord → IdeaRecord) :
    (s.upsert nodeId f).keys = if nodeId ∈ s.keys then s.keys else s.keys ++ [nodeId] :=
  Members.keys_insert nodeId _ s.ideas

def Counted (s : RunState) : Prop := s.recount = s

theorem counted_recount (s : RunState) : s.recount.Counted := rfl

theorem budget_recount (s : RunState) :
    s.recount.branchBudgetUsed = s.ideas.countP fun p => cycleStatuses.contains p.2.status := by
  simp only [branchBudgetUsed, recount, count]
  induction s.ideas with
  | nil => rfl
  | cons p ideas ih =>
      have hone : ∀ status : String,
          ((if (status == "done") = true then 1 else 0) + (if (status == "merged") = true then 1 else 0)) +
            ((if (status == "pruned") = true then 1 else 0) +
              (if (status == "failed") = true then 1 else 0)) +
            (if (status == "needs_retry") = true then 1 else 0) =
          if cycleStatuses.contains status = true then 1 else 0 := by
        intro status
        by_cases h : status ∈ cycleStatuses
        · simp only [cycleStatuses, List.mem_cons, List.not_mem_nil, or_false] at h
          rcases h with rfl | rfl | rfl | rfl | rfl <;> rfl
        · simp only [cycleStatuses, List.mem_cons, List.not_mem_nil, or_false, not_or] at h
          simp [cycleStatuses, h]
      have := hone p.2.status
      simp only [List.countP_cons]
      omega

theorem Counted.budget {s : RunState} (h : s.Counted) (hkeys : s.keys.Nodup) :
    s.branchBudgetUsed = s.keys.countP fun x => (s.status x).any cycleStatuses.contains := by
  rw [← congrArg branchBudgetUsed h, budget_recount, keys, Members.keys, List.countP_map]
  apply List.countP_congr
  intro p hp
  simp [status, Members.lookup_of_mem hkeys hp]

theorem Counted.onIdeaProposed {s : RunState} (h : s.Counted) (rt : Runtime F) {nodeId : String}
    (hnew : nodeId ∉ s.keys) (hypothesis : Json F) (parentId : Option String) :
    (s.onIdeaProposed rt nodeId hypothesis parentId).Counted := by
  rw [RunState.onIdeaProposed]
  cases textOrEmpty rt hypothesis with
  | none => exact h
  | some text =>
      rw [Counted, recount, RunState.mk.injEq] at h
      obtain ⟨-, -, hrunning, hdone, hpruned, hmerged, hretry⟩ := h
      simp only [Counted, recount, upsert, count, Members.insert_append_fresh _ hnew,
        List.countP_append] at *
      simpa using ⟨hrunning, hdone, hpruned, hmerged, hretry⟩

structure Gives (s s' : RunState) (nodeId status : String) : Prop where
  counted : s'.Counted
  keys : nodeId ∈ s.keys → s'.keys = s.keys
  status : ∀ x, s'.status x = if x = nodeId then some status else s.status x

variable {rt : Runtime F} {s : RunState} {nodeId : String}

theorem gives_recount {f : IdeaRecord → IdeaRecord} {status : String}
    (hf : (f ((s.ideas.lookup nodeId).getD { hypothesis := "" })).status = status) :
    s.Gives (s.upsert nodeId f).recount nodeId status where
  counted := counted_recount _
  keys h := (keys_upsert s nodeId f).trans (if_pos h)
  status x := by
    rw [← hf]
    exact status_upsert s nodeId f x

theorem ideas_onIdeaProposed (s : RunState) (nodeId : String) {hypothesis : Json F}
    (h : (textOrEmpty rt hypothesis).isSome = true) (parentId : Option String) :
    ∃ f : IdeaRecord → IdeaRecord, (s.onIdeaProposed rt nodeId hypothesis parentId).ideas = (s.upsert nodeId f).ideas ∧
      ∀ record, (f record).status = "proposed" := by
  obtain ⟨text, htext⟩ := Option.isSome_iff_exists.mp h
  rw [onIdeaProposed, htext]
  exact ⟨fun record =>
    { record with
      hypothesis := oneLine text
      status := "proposed"
      parentId := (parentId.filter (!·.isEmpty)).orElse fun _ => record.parentId }, rfl, fun _ => rfl⟩

theorem keys_onIdeaProposed {hypothesis : Json F} (h : (textOrEmpty rt hypothesis).isSome = true)
    (hnew : nodeId ∉ s.keys) (parentId : Option String) :
    (s.onIdeaProposed rt nodeId hypothesis parentId).keys = s.keys ++ [nodeId] := by
  obtain ⟨f, hf, -⟩ := ideas_onIdeaProposed s nodeId h parentId
  rw [keys, hf]
  exact (keys_upsert s nodeId f).trans (if_neg hnew)

theorem status_onIdeaProposed {hypothesis : Json F}
    (h : (textOrEmpty rt hypothesis).isSome = true) (parentId : Option String) (x : String) :
    (s.onIdeaProposed rt nodeId hypothesis parentId).status x =
      if x = nodeId then some "proposed" else s.status x := by
  obtain ⟨f, hf, hstatus⟩ := ideas_onIdeaProposed s nodeId h parentId
  rw [status, hf, ← hstatus]
  exact status_upsert s nodeId f x

theorem gives_onIdeaCompleted (s : RunState) (nodeId : String) :
    s.Gives (s.onIdeaCompleted nodeId "done") nodeId "done" :=
  gives_recount rfl

theorem gives_onIdeaMerged (s : RunState) (nodeId : String) :
    s.Gives (s.onIdeaMerged nodeId) nodeId "merged" :=
  gives_recount rfl

theorem gives_onIdeaPruned {reason : Json F} (h : (textOrEmpty rt reason).isSome = true) :
    s.Gives (s.onIdeaPruned rt nodeId reason) nodeId "pruned" := by
  obtain ⟨text, htext⟩ := Option.isSome_iff_exists.mp h
  rw [onIdeaPruned, htext]
  exact gives_recount rfl

theorem gives_onExecutorStart (s : RunState) (nodeId branch : String) :
    s.Gives (s.onExecutorStart nodeId branch) nodeId "running" :=
  gives_recount rfl

theorem frame_onExecutorEnd (s : RunState) {nodeId : String} (hid : nodeId ∈ s.keys)
    (status : String) : (s.onExecutorEnd nodeId status).Counted ∧
      (s.onExecutorEnd nodeId status).keys = s.keys ∧
      ∀ x, x ≠ nodeId → (s.onExecutorEnd nodeId status).status x = s.status x := by
  refine ⟨counted_recount _, (keys_upsert s nodeId _).trans (if_pos hid), fun x hx => ?_⟩
  exact (status_upsert s nodeId _ x).trans (if_neg hx)

theorem gives_onExecutorEnd {status : String} (hst : status = "done" ∨ status = "needs_retry")
    (h : s.status nodeId = some "running" ∨ s.status nodeId = some status) :
    s.Gives (s.onExecutorEnd nodeId status) nodeId status := by
  have hlower : String.ofList (lower status) = status := by
    rcases hst with rfl | rfl <;> rfl
  have hrunning : status ≠ "running" := by
    rcases hst with rfl | rfl <;> decide
  apply gives_recount
  rw [RunState.status] at h
  cases hr : s.ideas.lookup nodeId with
  | none => simp [hr] at h
  | some record =>
      rw [hr, Option.map_some, Option.some.injEq, Option.some.injEq] at h
      rw [Option.getD_some, hlower]
      rcases h with h | h
      · rw [if_pos h]
        rcases hst with rfl | rfl <;> rfl
      · rw [if_neg (h.symm ▸ hrunning)]
        exact h

end RunState

end DevPilot
