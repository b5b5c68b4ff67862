import DevPilot.Coordinator.Budget
import DevPilot.Coordinator.Pruning
import DevPilot.Coordinator.RunState

/-!
The dashboard of a run follows its idea tree by the events that the operations
on the tree emit: when the two agree.
-/

namespace DevPilot

open PyJson LinkedTree Runs

variable {F : Type}

abbrev Arguments (F : Type) := { us : List (String × Value F) // (us.map Prod.fst).Nodup }

def Arguments.given (updates : Arguments F) : List (String × Json F) :=
  (updates.1.map fun u => (u.1, u.2.1)).filter fun u => !Node.isNull u.2

inductive LedgerOp (F : Type)
  | add (parentId : String) (hypothesis : Value F) (reply : Option String)
  | update (nodeId : String) (updates : Arguments F)
  | prune (nodeId : String) (reason : Value F)
  | dispatch (nodeId : String) (resume : Bool)
  | started (i : Nat) (branch : String)
  | worktreeFailed (i : Nat) (error : String)
  | ended (i : Nat) (outcome : Outcome F)

structure LedgerRun (F : Type) where
  tree : IdeaTree F
  starting : List (Dispatch F)
  running : List (Dispatch F)
  dashboard : RunState

/-- What `update_node` emits. -/
def told (nodeId : String) (updates : List (String × Json F)) : Option (RunEvent F) :=
  ((updates.lookup "status").bind Json.str?).bind fun status =>
    if status = "done" then some (.ideaCompleted nodeId status)
    else if status = "merged" then some (.ideaMerged nodeId)
    else none

namespace LedgerRun

def fresh (config : CoordinatorConfig F) : LedgerRun F := ⟨(Coordinator.fresh config).tree, [], [], {}⟩

def treeOp (config : CoordinatorConfig F) (s : LedgerRun F) : LedgerOp F → TreeOp F
  | .add parentId hypothesis reply =>
      ((proposedNode config s.tree parentId hypothesis.1 reply).map .add).getD .keep
  | .update nodeId updates => if updates.given.isEmpty then .keep else .write nodeId updates.given
  | .prune nodeId reason => .prune nodeId reason.1
  | .dispatch nodeId resume => ((validateDispatch config.runtime s.tree nodeId resume).map fun _ =>
      .write nodeId [("status", .str "running")]).getD .keep
  | .started _ _ => .keep
  | .worktreeFailed i error => ((s.starting[i]?).map fun d => .write d.nodeId
      [("status", .str "pending"),
        ("result", .str ("Worktree creation failed: " ++ error))]).getD .keep
  | .ended i outcome => ((s.running[i]?).bind fun d =>
      (outcomeUpdates config.runtime outcome d.attempt).map (.write d.nodeId)).getD .keep

/-- The event that an operation emits; a mutation that raises emits none. -/
def emitted (config : CoordinatorConfig F) (s : LedgerRun F) : LedgerOp F → Option (RunEvent F)
  | .add parentId hypothesis reply =>
      (proposedNode config s.tree parentId hypothesis.1 reply).bind fun node =>
        if (s.tree.addNode node).2 then some (.ideaProposed node.id node.hypothesis node.parentId)
        else none
  | .update nodeId updates =>
      if (s.tree.updateNode nodeId updates.given).2 then told nodeId updates.given else none
  | .prune nodeId reason =>
      if (s.tree.pruneNode config.runtime nodeId reason.1).2 then some (.ideaPruned nodeId reason.1)
      else none
  | .dispatch _ _ => none
  | .started i branch => (s.starting[i]?).map fun d => .executorStart d.nodeId branch
  | .worktreeFailed _ _ => none
  | .ended i outcome => (s.running[i]?).bind fun d =>
      (outcomeUpdates config.runtime outcome d.attempt).bind fun updates =>
        ((updates.lookup "status").bind Json.str?).map (.executorEnd d.nodeId)

def startingAfter (config : CoordinatorConfig F) (s : LedgerRun F) : LedgerOp F → List (Dispatch F)
  | .dispatch nodeId resume => s.starting ++
      ((validateDispatch config.runtime s.tree nodeId resume).map (Dispatch.mk nodeId)).toList
  | .started i _ => s.starting.eraseIdx i
  | .worktreeFailed i _ => s.starting.eraseIdx i
  | _ => s.starting

def runningAfter (s : LedgerRun F) : LedgerOp F → List (Dispatch F)
  | .started i _ => s.running ++ (s.starting[i]?).toList
  | .ended i _ => s.running.eraseIdx i
  | _ => s.running

def step (config : CoordinatorConfig F) (s : LedgerRun F) (op : LedgerOp F) : LedgerRun F where
  tree := ((s.treeOp config op).apply config.runtime s.tree).1
  starting := s.startingAfter config op
  running := s.runningAfter op
  dashboard := (s.emitted config op).elim s.dashboard (s.dashboard.handle config.runtime)

end LedgerRun

def dashboardStatus (v : Json F) : Option String :=
  v.str?.map fun status => if status = "pending" then "proposed" else status

namespace IdeaTree

def shown (t : IdeaTree F) (x : String) : Option String := (t.status x).bind dashboardStatus

end IdeaTree

namespace LedgerRun

def settingUp (s : LedgerRun F) : List String := s.starting.map (·.nodeId)

/-- The dashboard shows every idea as the tree has it, and counts the cycles
that are used. -/
def Lockstep (s : LedgerRun F) : Prop :=
  (∀ x ∈ s.tree.ids, x ≠ s.tree.rootId → x ∉ s.settingUp → s.dashboard.status x = s.tree.shown x) ∧
    (s.starting = [] → s.dashboard.branchBudgetUsed = completedCycles s.tree)

def FitsAt (config : CoordinatorConfig F) (s : LedgerRun F) : LedgerOp F → Prop
  | .add parentId hypothesis reply =>
      ∀ node, proposedNode config s.tree parentId hypothesis.1 reply = some node →
        (textOrEmpty config.runtime node.hypothesis).isSome
  | .update nodeId updates =>
      if (s.tree.updateNode nodeId updates.given).2 ∧ (told nodeId updates.given).isSome then
        nodeId ≠ "ROOT"
      else ∀ n, s.tree.getNode nodeId = some n → (n.setFields updates.given).1.status = n.status
  | .prune nodeId reason => ∀ n, s.tree.getNode nodeId = some n →
      if IdeaTree.pruneRaises config.runtime reason.1 n then s.tree.isPruned nodeId
      else nodeId ≠ "ROOT" ∧ (textOrEmpty config.runtime reason.1).isSome ∧
        ∀ x ∈ s.tree.ids, s.tree.links.Below x nodeId → s.tree.isPruned x
  | .dispatch _ _ => True
  | .started i _ => ∀ d, s.starting[i]? = some d → s.tree.hasStatus d.nodeId "running"
  | .worktreeFailed i _ => ∀ d, s.starting[i]? = some d →
      s.dashboard.status d.nodeId = some "proposed"
  | .ended i outcome => ∀ d, s.running[i]? = some d → s.tree.hasStatus d.nodeId "running" ∨
      ∀ updates, outcomeUpdates config.runtime outcome d.attempt = some updates →
        ∀ n, s.tree.getNode d.nodeId = some n → (n.setFields updates).1.status = n.status

/-- The dashboard has a record for every node but the root. -/
structure Inv (config : CoordinatorConfig F) (s : LedgerRun F) : Prop where
  tree : s.tree.Inv config
  flights : ∀ d ∈ s.starting ++ s.running, d.attempt.wf = true ∧ d.nodeId ∈ s.dashboard.keys
  ids : s.tree.ids = "ROOT" :: s.dashboard.keys
  root : s.tree.status "ROOT" = some (.str "done")
  counted : s.dashboard.Counted
  shown : ∀ x ∈ s.dashboard.keys, x ∉ s.settingUp → s.dashboard.status x = s.tree.shown x

end LedgerRun

namespace IdeaTree

variable {config : CoordinatorConfig F} {t : IdeaTree F}

theorem Proposed.status {node parent : Node F} {parentId : String}
    (h : Proposed t node parentId parent) (x : String) : (t.addNode node).1.status x =
      if x = node.id then some (.str "pending") else t.status x := by
  rw [IdeaTree.status, getNode_addNode h.fresh h.under h.found h.unlisted]
  split_ifs with hx hx'
  · rw [Option.map_some, h.pending]
  · rw [IdeaTree.status, hx', h.found]
    rfl
  · rfl

theorem Inv.propose (h : t.Inv config) {parentId : String} {hypothesis : Json F}
    (hv : hypothesis.wf = true) {reply : Option String} {node : Node F}
    (hnode : proposedNode config t parentId hypothesis reply = some node) :
    (t.addNode node).1.Inv config := by
  obtain ⟨parent, hparent, hnode⟩ := Option.bind_eq_some_iff.mp hnode
  split_ifs at hnode with hdepth
  obtain ⟨revised, -, hnode⟩ := Option.bind_eq_some_iff.mp hnode
  obtain ⟨id, hid, rfl⟩ := Option.map_eq_some_iff.mp hnode
  exact h.addNode hparent hid hdepth (wf_revised revised hv)

theorem counted_shown (t : IdeaTree F) {x : String} (hx : x ≠ t.rootId) :
    t.counted x = (t.shown x).any cycleStatuses.contains := by
  have hany : ∀ v : Option (Json F), (cycleStatuses.any fun st => v.any (·.str? == some st)) =
      (v.bind dashboardStatus).any cycleStatuses.contains := by
    intro v
    cases v with
    | none => rfl
    | some v =>
        cases v with
        | str st =>
            by_cases hst : st = "pending"
            · subst hst
              rfl
            · rw [Bool.eq_iff_iff]
              simp [cycleStatuses, dashboardStatus, Json.str?, hst]
        | _ => rfl
  have hstatus : t.hasStatus x = fun st => (t.status x).any (·.str? == some st) :=
    funext (hasStatus_eq t x)
  rw [counted, hstatus, hany, shown]
  simp [hx]

theorem Inv.completedCycles_eq (h : t.Inv config) {ids : List String} (hids : t.ids = "ROOT" :: ids) :
    completedCycles t = ids.countP fun x => (t.shown x).any cycleStatuses.contains := by
  have hnodup : ("ROOT" :: ids).Nodup := hids ▸ h.storable.nodup
  rw [completedCycles_eq_countP h.storable, hids, List.countP_cons_of_neg (by simp [counted, h.root])]
  apply List.countP_congr
  intro x hx
  rw [counted_shown]
  rw [h.root]
  exact fun he => (List.nodup_cons.mp hnodup).1 (he ▸ hx)

theorem hasStatus_iff {t : IdeaTree F} {x st : String} :
    t.hasStatus x st = true ↔ t.status x = some (.str st) := by
  rw [hasStatus_eq]
  cases t.status x with
  | none => simp
  | some v => cases v <;> simp [Json.str?]

theorem shown_of_status {t : IdeaTree F} {x st : String} (h : t.status x = some (.str st))
    (hst : st ≠ "pending") : t.shown x = some st := by
  rw [shown, h, Option.bind_some, dashboardStatus, Json.str?, Option.map_some, if_neg hst]

theorem status_keep {updates : List (String × Json F)} {id : String}
    (h : ∀ n, t.getNode id = some n → (n.setFields updates).1.status = n.status) (x : String) :
    (t.updateNode id updates).1.status x = t.status x := by
  rw [status_updateNode]
  split_ifs with hx
  · rw [status, hx]
    cases hn : t.getNode id with
    | none => rfl
    | some n => exact congrArg some (h n hn)
  · rfl

theorem status_write {updates : List (String × Json F)} {id st : String} (hid : id ∈ t.ids)
    (h : ∀ n, t.getNode id = some n → (n.setFields updates).1.status = .str st) (x : String) :
    (t.updateNode id updates).1.status x = if x = id then some (.str st) else t.status x := by
  rw [status_updateNode]
  split_ifs with hx
  · obtain ⟨n, hn⟩ := mem_ids_iff.mp hid
    rw [hx, hn, Option.map_some, h n hn]
  · rfl

theorem mem_pruned_iff (h : t.Inv config) {id x : String} (hid : id ∈ t.ids) (hx : x ∈ t.ids) :
    x ∈ t.links.subtree t.nodes.length id ↔ x = id ∨ t.links.Below x id := by
  have hmem := h.linked.mem_subtree_iff hid hx
  have hlen : t.links.ids.length = t.nodes.length := List.length_map _
  rwa [hlen] at hmem

theorem status_pruned (h : t.Inv config) {id x : String} (hid : id ∈ t.ids) (hx : x ∈ t.ids)
    (hb : x = id ∨ t.links.Below x id) (note : Option String) :
    (pruneFrom id note t.nodes.length t id).status x = some (.str "pruned") := by
  obtain ⟨n, hn⟩ := mem_ids_iff.mp hx
  rw [status_pruneFrom, if_pos ((mem_pruned_iff h hid hx).mpr hb), status, hn]
  rfl

theorem status_prune (h : t.Inv config) {id : String} (hid : id ∈ t.ids)
    (hbelow : ∀ x ∈ t.ids, t.links.Below x id → t.isPruned x = true) (note : Option String)
    (x : String) : (pruneFrom id note t.nodes.length t id).status x =
      if x = id then some (.str "pruned") else t.status x := by
  by_cases hx : x ∈ t.ids
  · by_cases hxid : x = id
    · rw [status_pruned h hid hx (.inl hxid), if_pos hxid]
    · rw [if_neg hxid]
      by_cases hb : t.links.Below x id
      · rw [status_pruned h hid hx (.inr hb), hasStatus_iff.mp (hbelow x hx hb)]
      · rw [status_pruneFrom, if_neg fun hs => ((mem_pruned_iff h hid hx).mp hs).elim hxid hb]
  · have hnone : t.status x = none := by
      rw [status, Option.map_eq_none_iff]
      by_contra hn
      exact hx (mem_ids_iff.mpr (Option.ne_none_iff_exists'.mp hn))
    have hne : x ≠ id := fun he => hx (he ▸ hid)
    rw [status_pruneFrom, hnone, if_neg hne]
    split_ifs <;> rfl

end IdeaTree

theorem status_setFields_of_lookup {updates : List (String × Json F)}
    (hnodup : (updates.map Prod.fst).Nodup) {n : Node F} (hset : (n.setFields updates).2 = true)
    {v : Json F} (hv : updates.lookup "status" = some v) : (n.setFields updates).1.status = v := by
  induction updates generalizing n with
  | nil => simp at hv
  | cons u updates ih =>
      rw [List.map_cons, List.nodup_cons] at hnodup
      rw [Members.lookup_cons] at hv
      rw [Node.setFields] at hset ⊢
      cases hs : n.setField u.1 u.2 with
      | none => simp [hs] at hset
      | some n' =>
          simp only [hs] at hset
          dsimp only
          split_ifs at hv with hu
          · rw [IdeaTree.status_setFields]
            · rw [(Node.setField_eq_some hs).status, if_pos hu.symm]
              exact Option.some.inj hv
            · intro w hw he
              exact hnodup.1 (hu ▸ he ▸ List.mem_map_of_mem hw)
          · exact ih hnodup.2 hset hv

theorem Arguments.wf (updates : Arguments F) : ∀ u ∈ updates.given, u.2.wf = true := by
  intro u hu
  obtain ⟨v, -, rfl⟩ := List.mem_map.mp (List.mem_filter.mp hu).1
  exact v.2.2

theorem Arguments.nodup (updates : Arguments F) : (updates.given.map Prod.fst).Nodup := by
  have hsub : (updates.given.map Prod.fst).Sublist (updates.1.map Prod.fst) := by
    have := (List.filter_sublist (p := fun u : String × Json F => !Node.isNull u.2)
      (l := updates.1.map fun u => (u.1, u.2.1))).map Prod.fst
    rwa [List.map_map] at this
  exact updates.2.sublist hsub

theorem IdeaTree.mem_ids_of_updateNode {t : IdeaTree F} {nodeId : String}
    {updates : List (String × Json F)} (h : (t.updateNode nodeId updates).2 = true) :
    nodeId ∈ t.ids := by
  rw [IdeaTree.updateNode] at h
  cases hn : t.getNode nodeId with
  | none => simp [hn] at h
  | some n => exact IdeaTree.mem_ids_iff.mpr ⟨n, hn⟩

theorem IdeaTree.status_saved {t : IdeaTree F} {nodeId st : String} (updates : Arguments F)
    (h : (t.updateNode nodeId updates.given).2 = true)
    (hst : updates.given.lookup "status" = some (.str st)) (x : String) :
    (t.updateNode nodeId updates.given).1.status x =
      if x = nodeId then some (.str st) else t.status x := by
  refine IdeaTree.status_write (IdeaTree.mem_ids_of_updateNode h) (fun n hn => ?_) x
  apply status_setFields_of_lookup updates.nodup _ hst
  simpa [IdeaTree.updateNode, hn] using h

theorem lookup_outcomeUpdates {rt : Runtime F} {o : Outcome F} {attempt : Json F}
    {updates : List (String × Json F)} (h : outcomeUpdates rt o attempt = some updates) :
    ∃ st, (st = "done" ∨ st = "needs_retry") ∧ updates.lookup "status" = some (.str st) ∧
      ∀ n : Node F, (n.setFields updates).1.status = .str st := by
  obtain ⟨parsed, -, rfl⟩ := Option.map_eq_some_iff.mp h
  exact ⟨_, Coordinator.classifyExecutorOutcome_cases _ _ o.stopReason o.rawReport, rfl, fun n => rfl⟩

namespace LedgerRun

variable {config : CoordinatorConfig F} {s s' : LedgerRun F}

theorem Inv.ne_root (h : s.Inv config) {x : String} (hx : x ∈ s.dashboard.keys) : x ≠ "ROOT" := by
  have hnodup : ("ROOT" :: s.dashboard.keys).Nodup := h.ids ▸ h.tree.storable.nodup
  exact fun he => (List.nodup_cons.mp hnodup).1 (he ▸ hx)

theorem Inv.mem_keys (h : s.Inv config) {x : String} (hx : x ∈ s.tree.ids) (hne : x ≠ "ROOT") :
    x ∈ s.dashboard.keys := by
  rw [h.ids] at hx
  exact (List.mem_cons.mp hx).resolve_left hne

theorem Inv.mem_ids (h : s.Inv config) {x : String} (hx : x ∈ s.dashboard.keys) : x ∈ s.tree.ids := by
  rw [h.ids]
  exact List.mem_cons_of_mem _ hx

theorem Inv.lockstep (h : s.Inv config) : s.Lockstep := by
  have hkeys : s.dashboard.keys.Nodup := by
    have hnodup := h.tree.storable.nodup
    rw [h.ids] at hnodup
    exact (List.nodup_cons.mp hnodup).2
  constructor
  · intro x hx hne
    exact h.shown x (h.mem_keys hx (h.tree.root ▸ hne))
  · intro hstarting
    rw [h.counted.budget hkeys, h.tree.completedCycles_eq h.ids]
    apply List.countP_congr
    intro x hx
    have hset : x ∉ s.settingUp := by simp [settingUp, hstarting]
    rw [h.shown x hx hset]

theorem Inv.refill (h : s.Inv config) (hr : IdeaTree.Refills s.tree s'.tree)
    (hflights : ∀ d ∈ s'.starting ++ s'.running, d.attempt.wf = true ∧ d.nodeId ∈ s.dashboard.keys)
    (hroot : s'.tree.status "ROOT" = s.tree.status "ROOT")
    (hkeys : s'.dashboard.keys = s.dashboard.keys) (hcounted : s'.dashboard.Counted)
    (hshown : ∀ x ∈ s.dashboard.keys, x ∉ s'.settingUp →
      s'.dashboard.status x = s'.tree.shown x) : s'.Inv config := by
  constructor
  · exact h.tree.refill hr
  · rw [hkeys]
    exact hflights
  · rw [hr.ids, hkeys, h.ids]
  · rw [hroot, h.root]
  · exact hcounted
  · rw [hkeys]
    exact hshown

theorem Inv.gives (h : s.Inv config) {id st : String} (hid : id ∈ s.dashboard.keys)
    (hst : st ≠ "pending") (hr : IdeaTree.Refills s.tree s'.tree)
    (hstatus : ∀ x, s'.tree.status x = if x = id then some (.str st) else s.tree.status x)
    (hgives : s.dashboard.Gives s'.dashboard id st)
    (hflights : ∀ d ∈ s'.starting ++ s'.running, d.attempt.wf = true ∧ d.nodeId ∈ s.dashboard.keys)
    (hsettled : ∀ x, x ≠ id → x ∉ s'.settingUp → x ∉ s.settingUp) : s'.Inv config := by
  apply h.refill hr hflights
  · rw [hstatus, if_neg (h.ne_root hid).symm]
  · exact hgives.keys hid
  · exact hgives.counted
  · intro x hx hset
    rw [hgives.status]
    have hx' := hstatus x
    split_ifs with hxid
    · rw [if_pos hxid] at hx'
      exact (IdeaTree.shown_of_status hx' hst).symm
    · rw [if_neg hxid] at hx'
      rw [h.shown x hx (hsettled x hxid hset), IdeaTree.shown, IdeaTree.shown, hx']

theorem Inv.silent (h : s.Inv config) (hr : IdeaTree.Refills s.tree s'.tree)
    (hdashboard : s'.dashboard = s.dashboard)
    (hroot : s'.tree.status "ROOT" = s.tree.status "ROOT")
    (hflights : ∀ d ∈ s'.starting ++ s'.running, d.attempt.wf = true ∧ d.nodeId ∈ s.dashboard.keys)
    (hshown : ∀ x ∈ s.dashboard.keys, x ∉ s'.settingUp →
      s.dashboard.status x = s'.tree.shown x) : s'.Inv config := by
  apply h.refill hr hflights hroot
  · rw [hdashboard]
  · rw [hdashboard]
    exact h.counted
  · rw [hdashboard]
    exact hshown

theorem Inv.add (h : s.Inv config) {parentId : String} {hypothesis : Value F}
    {reply : Option String} (hfits : s.FitsAt config (.add parentId hypothesis reply)) :
    (s.step config (.add parentId hypothesis reply)).Inv config := by
  cases hnode : proposedNode config s.tree parentId hypothesis.1 reply with
  | none =>
      have hstep : s.step config (.add parentId hypothesis reply) = s := by
        simp [step, treeOp, emitted, startingAfter, runningAfter, hnode, TreeOp.apply]
      rw [hstep]
      exact h
  | some node =>
      obtain ⟨parent, hproposed⟩ := h.tree.proposed hnode
      have htext := hfits node hnode
      have hnew : node.id ∉ s.dashboard.keys := fun hk => hproposed.fresh (h.mem_ids hk)
      have hsaved : (s.tree.addNode node).2 = true := by
        rw [IdeaTree.addNode, if_neg hproposed.fresh, hproposed.under]
        simp [IdeaTree.mem_ids_iff.mpr ⟨parent, hproposed.found⟩]
      have hstep : s.step config (.add parentId hypothesis reply) =
          { s with
            tree := (s.tree.addNode node).1
            dashboard := s.dashboard.onIdeaProposed config.runtime node.id node.hypothesis
              node.parentId } := by
        simp [step, treeOp, emitted, startingAfter, runningAfter, hnode, TreeOp.apply, hsaved,
          RunState.handle]
      have hkeys := RunState.keys_onIdeaProposed htext hnew node.parentId
      rw [hstep]
      constructor
      · exact h.tree.propose hypothesis.2 hnode
      · intro d hd
        dsimp only
        rw [hkeys]
        exact ⟨(h.flights d hd).1, List.mem_append_left _ (h.flights d hd).2⟩
      · dsimp only
        rw [hproposed.ids, hkeys, h.ids]
        rfl
      · have hroot : "ROOT" ≠ node.id := by
          rintro he
          apply hproposed.fresh
          rw [← he, h.ids]
          exact List.mem_cons_self
        dsimp only
        rw [hproposed.status, if_neg hroot, h.root]
      · exact h.counted.onIdeaProposed config.runtime hnew node.hypothesis node.parentId
      · intro x hx hset
        dsimp only at hx hset ⊢
        rw [hkeys] at hx
        rw [RunState.status_onIdeaProposed htext, IdeaTree.shown, hproposed.status]
        split_ifs with hxid
        · rfl
        · have hx : x ∈ s.dashboard.keys := by simpa [hxid] using hx
          exact h.shown x hx hset

theorem told_eq_some {nodeId : String} {updates : List (String × Json F)} {e : RunEvent F}
    (h : told nodeId updates = some e) : ∃ st, updates.lookup "status" = some (.str st) ∧
      (st = "done" ∧ e = .ideaCompleted nodeId st ∨ st = "merged" ∧ e = .ideaMerged nodeId) := by
  obtain ⟨st, hst, h⟩ := Option.bind_eq_some_iff.mp h
  obtain ⟨v, hv, hst⟩ := Option.bind_eq_some_iff.mp hst
  have hvst : v = .str st := by cases v <;> simp_all [Json.str?]
  refine ⟨st, hvst ▸ hv, ?_⟩
  split_ifs at h with hd hm
  · exact .inl ⟨hd, (Option.some.inj h).symm⟩
  · exact .inr ⟨hm, (Option.some.inj h).symm⟩

theorem Inv.update (h : s.Inv config) {nodeId : String} {updates : Arguments F}
    (hfits : s.FitsAt config (.update nodeId updates)) :
    (s.step config (.update nodeId updates)).Inv config := by
  have hwf := updates.wf
  by_cases hempty : updates.given.isEmpty = true
  · have hnone : updates.given = [] := List.isEmpty_iff.mp hempty
    have hstep : s.step config (.update nodeId updates) = s := by
      simp [step, treeOp, emitted, startingAfter, runningAfter, hnone, TreeOp.apply, told]
    rw [hstep]
    exact h
  · have htree : (s.step config (.update nodeId updates)).tree =
        (s.tree.updateNode nodeId updates.given).1 := by
      simp [step, treeOp, hempty, TreeOp.apply]
    have hr : IdeaTree.Refills s.tree (s.step config (.update nodeId updates)).tree := by
      rw [htree]
      exact IdeaTree.refills_updateNode s.tree nodeId hwf
    rw [FitsAt] at hfits
    split_ifs at hfits with htold
    · obtain ⟨hsaved, htold⟩ := htold
      obtain ⟨e, he⟩ := Option.isSome_iff_exists.mp htold
      obtain ⟨st, hlookup, hst⟩ := told_eq_some he
      have hdashboard : (s.step config (.update nodeId updates)).dashboard =
          s.dashboard.handle config.runtime e := by
        simp [step, emitted, hsaved, he]
      have hid := IdeaTree.mem_ids_of_updateNode hsaved
      have hne : st ≠ "pending" := by
        rcases hst with ⟨rfl, -⟩ | ⟨rfl, -⟩ <;> decide
      refine h.gives (h.mem_keys hid hfits) hne hr ?_ ?_ h.flights fun x _ hx => hx
      · intro x
        rw [htree]
        exact IdeaTree.status_saved updates hsaved hlookup x
      · rw [hdashboard]
        rcases hst with ⟨rfl, rfl⟩ | ⟨rfl, rfl⟩
        · exact RunState.gives_onIdeaCompleted s.dashboard nodeId
        · exact RunState.gives_onIdeaMerged s.dashboard nodeId
    · have hdashboard : (s.step config (.update nodeId updates)).dashboard = s.dashboard := by
        rw [not_and] at htold
        simp only [step, emitted]
        split_ifs with hsaved
        · rw [Option.not_isSome_iff_eq_none.mp (htold hsaved)]
          rfl
        · rfl
      have hstatus := IdeaTree.status_keep hfits
      refine h.silent hr hdashboard ?_ h.flights fun x hx hset => ?_
      · rw [htree, hstatus]
      · rw [htree, IdeaTree.shown, hstatus]
        exact h.shown x hx hset

theorem Inv.prune (h : s.Inv config) {nodeId : String} {reason : Value F}
    (hfits : s.FitsAt config (.prune nodeId reason)) :
    (s.step config (.prune nodeId reason)).Inv config := by
  have hr : IdeaTree.Refills s.tree (s.step config (.prune nodeId reason)).tree :=
    IdeaTree.refills_pruneNode config.runtime s.tree nodeId reason.1
  cases hn : s.tree.getNode nodeId with
  | none =>
      have hstep : s.step config (.prune nodeId reason) = s := by
        simp [step, treeOp, emitted, startingAfter, runningAfter, TreeOp.apply, IdeaTree.pruneNode, hn]
      rw [hstep]
      exact h
  | some n =>
      have hid : nodeId ∈ s.tree.ids := IdeaTree.mem_ids_iff.mpr ⟨n, hn⟩
      have hfits := hfits n hn
      have hprune := IdeaTree.pruneNode_of_some hn config.runtime reason.1
      by_cases hraises : IdeaTree.pruneRaises config.runtime reason.1 n = true
      · rw [if_pos hraises] at hfits hprune
        have hstatus : ∀ x, (s.step config (.prune nodeId reason)).tree.status x =
            s.tree.status x := by
          intro x
          simp only [step, treeOp, TreeOp.apply, hprune]
          rw [IdeaTree.status_modifyNode]
          split_ifs with hx
          · rw [hx, IdeaTree.hasStatus_iff.mp hfits, hn]
            rfl
          · rfl
        have hdashboard : (s.step config (.prune nodeId reason)).dashboard = s.dashboard := by
          simp [step, emitted, hprune]
        refine h.silent hr hdashboard (hstatus _) h.flights fun x hx hset => ?_
        rw [IdeaTree.shown, hstatus]
        exact h.shown x hx hset
      · rw [if_neg hraises] at hfits hprune
        obtain ⟨hroot, htext, hbelow⟩ := hfits
        have hst : "pruned" ≠ "pending" := by decide
        refine h.gives (h.mem_keys hid hroot) hst hr ?_ ?_ h.flights fun x _ hx => hx
        · intro x
          simp only [step, treeOp, TreeOp.apply, hprune]
          exact IdeaTree.status_prune h.tree hid hbelow _ x
        · simp only [step, emitted, hprune]
          exact RunState.gives_onIdeaPruned htext

theorem Inv.dispatch (h : s.Inv config) (nodeId : String) (resume : Bool) :
    (s.step config (.dispatch nodeId resume)).Inv config := by
  cases hvalid : validateDispatch config.runtime s.tree nodeId resume with
  | none =>
      have hstep : s.step config (.dispatch nodeId resume) = s := by
        simp [step, treeOp, emitted, startingAfter, runningAfter, TreeOp.apply, hvalid]
      rw [hstep]
      exact h
  | some attempt =>
      obtain ⟨node, hnode, hstatus, hattempt⟩ := validateDispatch_eq_some hvalid
      have hid : nodeId ∈ s.tree.ids := IdeaTree.mem_ids_iff.mpr ⟨node, hnode⟩
      have hroot : nodeId ≠ "ROOT" := by
        rintro rfl
        obtain ⟨st, hst, hhas⟩ := List.any_eq_true.mp hstatus
        have hdone := h.root
        rw [IdeaTree.status, hnode, Option.map_some, Option.some.injEq] at hdone
        rw [Node.hasStatus, hdone, Json.str?, beq_iff_eq, Option.some.injEq] at hhas
        simp [← hhas] at hst
      have htree : (s.step config (.dispatch nodeId resume)).tree =
          (s.tree.updateNode nodeId [("status", .str "running")]).1 := by
        simp [step, treeOp, TreeOp.apply, hvalid]
      have hwrite : ∀ x, (s.step config (.dispatch nodeId resume)).tree.status x =
          if x = nodeId then some (.str "running") else s.tree.status x := by
        rw [htree]
        exact IdeaTree.status_write hid fun n _ => rfl
      have hstarting : (s.step config (.dispatch nodeId resume)).starting =
          s.starting ++ [⟨nodeId, attempt⟩] := by
        simp [step, startingAfter, hvalid]
      apply h.silent
      · rw [htree]
        exact IdeaTree.refills_updateNode s.tree nodeId (by simp [Json.wf])
      · rfl
      · rw [hwrite, if_neg hroot.symm]
      · intro d hd
        rw [hstarting] at hd
        have hmem : d = ⟨nodeId, attempt⟩ ∨ d ∈ s.starting ++ s.running := by
          simp only [List.mem_append, List.mem_singleton] at hd ⊢
          tauto
        rcases hmem with rfl | hmem
        · have hstorable := h.tree.storable.values _ (Members.mem_of_lookup hnode)
          exact ⟨wf_dispatchAttempt (hstorable _ (by simp [Node.values])) hattempt,
            h.mem_keys hid hroot⟩
        · exact h.flights d hmem
      · intro x hx hset
        rw [settingUp, hstarting, List.map_append, List.mem_append, not_or] at hset
        rw [IdeaTree.shown, hwrite, if_neg (by simpa using hset.2)]
        exact h.shown x hx hset.1

theorem settingUp_eraseIdx {i : Nat} {d : Dispatch F} (hd : s.starting[i]? = some d) {x : String}
    (hne : x ≠ d.nodeId) (hx : x ∉ (s.starting.eraseIdx i).map (·.nodeId)) : x ∉ s.settingUp := by
  intro hmem
  obtain ⟨d', hd', rfl⟩ := List.mem_map.mp hmem
  rcases Slices.mem_eraseIdx_or hd' i with hd' | hd'
  · exact hx (List.mem_map_of_mem hd')
  · rw [hd, Option.some.injEq] at hd'
    exact hne (hd' ▸ rfl)

theorem Inv.started (h : s.Inv config) {i : Nat} {branch : String}
    (hfits : s.FitsAt config (.started i branch)) :
    (s.step config (.started i branch)).Inv config := by
  cases hd : s.starting[i]? with
  | none =>
      have hstep : s.step config (.started i branch) = s := by
        simp [step, treeOp, emitted, startingAfter, runningAfter, TreeOp.apply, hd,
          List.eraseIdx_of_length_le (List.getElem?_eq_none_iff.mp hd)]
      rw [hstep]
      exact h
  | some d =>
      have hmem : d ∈ s.starting := List.mem_of_getElem? hd
      have hkey := (h.flights d (List.mem_append_left _ hmem)).2
      have hst : "running" ≠ "pending" := by decide
      refine h.gives hkey hst (.refl _) ?_ ?_ ?_ fun x hne hx => settingUp_eraseIdx hd hne hx
      · intro x
        split_ifs with hx
        · rw [hx]
          exact IdeaTree.hasStatus_iff.mp (hfits d hd)
        · rfl
      · simp only [step, emitted, hd]
        exact RunState.gives_onExecutorStart s.dashboard d.nodeId branch
      · intro d' hd'
        simp only [step, startingAfter, runningAfter, hd, Option.toList_some, List.mem_append,
          List.mem_singleton] at hd'
        apply h.flights
        rcases hd' with hd' | hd' | rfl
        · exact List.mem_append_left _ (List.mem_of_mem_eraseIdx hd')
        · exact List.mem_append_right _ hd'
        · exact List.mem_append_left _ hmem

theorem Inv.worktreeFailed (h : s.Inv config) {i : Nat} {error : String}
    (hfits : s.FitsAt config (.worktreeFailed i error)) :
    (s.step config (.worktreeFailed i error)).Inv config := by
  cases hd : s.starting[i]? with
  | none =>
      have hstep : s.step config (.worktreeFailed i error) = s := by
        simp [step, treeOp, emitted, startingAfter, runningAfter, TreeOp.apply, hd,
          List.eraseIdx_of_length_le (List.getElem?_eq_none_iff.mp hd)]
      rw [hstep]
      exact h
  | some d =>
      have hmem : d ∈ s.starting := List.mem_of_getElem? hd
      have hkey := (h.flights d (List.mem_append_left _ hmem)).2
      have htree : (s.step config (.worktreeFailed i error)).tree = (s.tree.updateNode d.nodeId
          [("status", .str "pending"),
            ("result", .str ("Worktree creation failed: " ++ error))]).1 := by
        simp [step, treeOp, TreeOp.apply, hd]
      have hwrite : ∀ x, (s.step config (.worktreeFailed i error)).tree.status x =
          if x = d.nodeId then some (.str "pending") else s.tree.status x := by
        rw [htree]
        exact IdeaTree.status_write (h.mem_ids hkey) fun n _ => rfl
      apply h.silent
      · rw [htree]
        exact IdeaTree.refills_updateNode s.tree d.nodeId (by simp [Json.wf])
      · rfl
      · rw [hwrite, if_neg (h.ne_root hkey).symm]
      · intro d' hd'
        apply h.flights
        rcases List.mem_append.mp hd' with hd' | hd'
        · exact List.mem_append_left _ (List.mem_of_mem_eraseIdx hd')
        · exact List.mem_append_right _ hd'
      · intro x hx hset
        rw [IdeaTree.shown, hwrite]
        split_ifs with hxd
        · rw [hxd, hfits d hd]
          rfl
        · exact h.shown x hx (settingUp_eraseIdx hd hxd hset)

theorem Inv.ended (h : s.Inv config) {i : Nat} {outcome : Outcome F}
    (hfits : s.FitsAt config (.ended i outcome)) :
    (s.step config (.ended i outcome)).Inv config := by
  have hflights : ∀ d ∈ (s.step config (.ended i outcome)).starting ++
      (s.step config (.ended i outcome)).running,
      d.attempt.wf = true ∧ d.nodeId ∈ s.dashboard.keys := by
    intro d hd
    apply h.flights
    rcases List.mem_append.mp hd with hd | hd
    · exact List.mem_append_left _ hd
    · exact List.mem_append_right _ (List.mem_of_mem_eraseIdx hd)
  cases hd : s.running[i]? with
  | none =>
      have htree : (s.step config (.ended i outcome)).tree = s.tree := by
        simp [step, treeOp, TreeOp.apply, hd]
      have hdashboard : (s.step config (.ended i outcome)).dashboard = s.dashboard := by
        simp [step, emitted, hd]
      refine h.silent (htree ▸ .refl _) hdashboard (by rw [htree]) hflights fun x hx hset => ?_
      rw [htree]
      exact h.shown x hx hset
  | some d =>
      have hkey := (h.flights d (List.mem_append_right _ (List.mem_of_getElem? hd))).2
      cases hupdates : outcomeUpdates config.runtime outcome d.attempt with
      | none =>
          have htree : (s.step config (.ended i outcome)).tree = s.tree := by
            simp [step, treeOp, TreeOp.apply, hd, hupdates]
          have hdashboard : (s.step config (.ended i outcome)).dashboard = s.dashboard := by
            simp [step, emitted, hd, hupdates]
          refine h.silent (htree ▸ .refl _) hdashboard (by rw [htree]) hflights fun x hx hset => ?_
          rw [htree]
          exact h.shown x hx hset
      | some updates =>
          obtain ⟨st, hst, hlookup, hwrites⟩ := lookup_outcomeUpdates hupdates
          have htree : (s.step config (.ended i outcome)).tree =
              (s.tree.updateNode d.nodeId updates).1 := by
            simp [step, treeOp, TreeOp.apply, hd, hupdates]
          have hdashboard : (s.step config (.ended i outcome)).dashboard =
              s.dashboard.onExecutorEnd d.nodeId st := by
            simp [step, emitted, hd, hupdates, hlookup, Json.str?, RunState.handle]
          have hr : IdeaTree.Refills s.tree (s.step config (.ended i outcome)).tree := by
            rw [htree]
            apply IdeaTree.refills_updateNode
            apply wf_outcomeUpdates _ hupdates
            exact (h.flights d (List.mem_append_right _ (List.mem_of_getElem? hd))).1
          have hstatus : ∀ x, (s.step config (.ended i outcome)).tree.status x =
              if x = d.nodeId then some (.str st) else s.tree.status x := by
            rw [htree]
            exact IdeaTree.status_write (h.mem_ids hkey) fun n _ => hwrites n
          by_cases hup : d.nodeId ∈ s.settingUp
          · obtain ⟨hcounted, hkeys, hothers⟩ := s.dashboard.frame_onExecutorEnd hkey st
            apply h.refill hr hflights
            · rw [hstatus, if_neg (h.ne_root hkey).symm]
            · rw [hdashboard, hkeys]
            · rw [hdashboard]
              exact hcounted
            · intro x hx hset
              have hne : x ≠ d.nodeId := fun he => hset (he ▸ hup)
              rw [hdashboard, hothers x hne, IdeaTree.shown, hstatus, if_neg hne]
              exact h.shown x hx hset
          · have hne : st ≠ "pending" := by
              rcases hst with rfl | rfl <;> decide
            refine h.gives hkey hne hr hstatus ?_ hflights fun x _ hx => hx
            rw [hdashboard]
            apply RunState.gives_onExecutorEnd hst
            rw [h.shown _ hkey hup]
            apply (hfits d hd).imp
            · intro hrunning
              exact IdeaTree.shown_of_status (IdeaTree.hasStatus_iff.mp hrunning) (by decide)
            · intro hsame
              obtain ⟨n, hn⟩ := IdeaTree.mem_ids_iff.mp (h.mem_ids hkey)
              apply IdeaTree.shown_of_status _ hne
              rw [IdeaTree.status, hn, Option.map_some, ← hsame updates hupdates n hn, hwrites]

theorem Inv.step (h : s.Inv config) (op : LedgerOp F) (hfits : s.FitsAt config op) :
    (s.step config op).Inv config := by
  cases op with
  | add parentId hypothesis reply => exact h.add hfits
  | update nodeId updates => exact h.update hfits
  | prune nodeId reason => exact h.prune hfits
  | dispatch nodeId resume => exact h.dispatch nodeId resume
  | started i branch => exact h.started hfits
  | worktreeFailed i error => exact h.worktreeFailed hfits
  | ended i outcome => exact h.ended hfits

theorem inv_fresh (config : CoordinatorConfig F) : (fresh config).Inv config where
  tree := (Coordinator.inv_fresh config).tree
  flights := by simp [fresh]
  ids := rfl
  root := rfl
  counted := rfl
  shown := by simp [fresh, RunState.keys, Members.keys]

end LedgerRun

end DevPilot
