import DevPilot.Coordinator.Ledger
import DevPilot.Research.Hypotheses

/-!
The research view of the desktop UI follows the idea tree by the events of the bus:
when the statuses of its hypotheses are those of the ideas.
-/

namespace DevPilot

open PyJson LinkedTree DottedIds Runs

variable {F : Type}

/-- What the coordinator measures or remembers for its events. -/
structure Readings (F : Type) where
  timestamp : Json F
  cycleNum : Json F
  duration : Json F
  tokens : Json F
  turns : Json F

inductive ProjectionOp (F : Type)
  | ledger (op : LedgerOp F) (readings : Readings F)
  /-- `async_update_node`, outside of the lifecycle of an executor. -/
  | asyncUpdate (nodeId : String) (updates : Arguments F)

structure Projection (F : Type) where
  ledger : LedgerRun F
  research : ResearchRunState F

namespace RunEvent

def field (t : IdeaTree F) (nodeId : String) (f : Node F → Json F) : Json F :=
  ((t.getNode nodeId).map f).getD .null

/-- The event as it is emitted when the tree is `t`. -/
def payload (t : IdeaTree F) (r : Readings F) : RunEvent F → String × Members F
  | .ideaProposed nodeId hypothesis parentId => ("idea.proposed",
      [("node_id", .str nodeId), ("hypothesis", hypothesis),
        ("parent_id", (parentId.map Json.str).getD .null)])
  | .ideaCompleted nodeId status => ("idea.completed",
      [("node_id", .str nodeId), ("status", .str status), ("score", field t nodeId (·.score))])
  | .ideaPruned nodeId reason => ("idea.pruned", [("node_id", .str nodeId), ("reason", reason)])
  | .ideaMerged nodeId => ("idea.merged",
      [("node_id", .str nodeId), ("from_score", (t.metadata.lookup "trunk_score").getD .null),
        ("to_score", field t nodeId (·.score)), ("branch", field t nodeId (·.codeRef))])
  | .executorStart nodeId branch => ("executor.start",
      [("node_id", .str nodeId), ("idea", field t nodeId (·.hypothesis)), ("branch", .str branch),
        ("cycle_num", r.cycleNum)])
  | .executorEnd nodeId status => ("executor.end",
      [("node_id", .str nodeId), ("score", field t nodeId (·.score)), ("duration", r.duration),
        ("tokens", r.tokens), ("turns", r.turns), ("branch", field t nodeId (·.codeRef)),
        ("status", .str status)])

def closing (config : CoordinatorConfig F) (t : IdeaTree F) (r : Readings F) :
    RunEvent F → List (String × Members F)
  | .executorEnd nodeId _ =>
      [("eval.end", [("node_id", .str nodeId), ("score", field t nodeId (·.score)),
        ("duration", r.duration),
        ("error", .bool ((field t nodeId (·.evalStatus)).str? == some "failed_to_run"))]),
      ("cycle.end", [("cycle_num", r.cycleNum), ("total_cycles", .int config.maxCycles),
        ("node_id", .str nodeId), ("duration", r.duration)])]
  | _ => []

def tells : RunEvent F → Option (String × HypothesisStatus)
  | .ideaProposed nodeId _ _ => some (nodeId, .pending)
  | .ideaCompleted nodeId _ => some (nodeId, .done)
  | .ideaPruned nodeId _ => some (nodeId, .pruned)
  | .ideaMerged nodeId => some (nodeId, .merged)
  | _ => none

end RunEvent

def LedgerOp.adds : LedgerOp F → Bool
  | .add _ _ _ => true
  | _ => false

namespace LedgerRun

def announced (config : CoordinatorConfig F) (s : LedgerRun F) (op : LedgerOp F) (r : Readings F) :
    List (String × Members F) :=
  let t := (s.step config op).tree
  (match op with
    | .dispatch nodeId resume =>
        if (validateDispatch config.runtime s.tree nodeId resume).isSome then
          [("cycle.start", [("cycle_num", .int (completedCycles t + 1)),
            ("total_cycles", .int config.maxCycles), ("node_id", .str nodeId)])]
        else []
    | _ => []) ++
  (s.emitted config op).elim [] fun e => e.payload t r :: e.closing config t r

end LedgerRun

/-- The arguments, those that are `None` too. -/
def Arguments.all (updates : Arguments F) : List (String × Json F) :=
  updates.1.map fun u => (u.1, u.2.1)

namespace Projection

def fresh (config : CoordinatorConfig F) (sessionId : String) : Projection F :=
  ⟨.fresh config, createInitialResearchRunState sessionId⟩

def step (config : CoordinatorConfig F) (host : ResearchHost F) (s : Projection F) :
    ProjectionOp F → Projection F
  | .ledger op r =>
      { ledger := s.ledger.step config op
        research := (s.ledger.announced config op r).foldl (ResearchRunState.hear host r.timestamp)
          s.research }
  | .asyncUpdate nodeId updates => { s with ledger := { s.ledger with
      tree := (s.ledger.tree.updateNode nodeId updates.all).1 } }

def Faithful (s : Projection F) : Prop :=
  ∀ x ∈ s.ledger.tree.ids, x ≠ s.ledger.tree.rootId →
    (s.research.hypothesisStatus x).map (fun st => Json.str st.name) = s.ledger.tree.status x

def KeepsStatus (t : IdeaTree F) (nodeId : String) (updates : List (String × Json F)) : Prop :=
  nodeId = t.rootId ∨
    ∀ n, t.getNode nodeId = some n → (n.setFields updates).1.status = n.status

def FitsAt (config : CoordinatorConfig F) (s : Projection F) : ProjectionOp F → Prop
  | .asyncUpdate nodeId updates => KeepsStatus s.ledger.tree nodeId updates.all
  | .ledger (.add _ _ _) _ | .ledger (.started _ _) _ => True
  | .ledger (.update nodeId updates) _ =>
      ((s.ledger.tree.updateNode nodeId updates.given).2 = true ∧
        (told nodeId updates.given).isSome) ∨
      KeepsStatus s.ledger.tree nodeId updates.given
  | .ledger (.prune nodeId reason) _ => ∀ n, s.ledger.tree.getNode nodeId = some n →
      if IdeaTree.pruneRaises config.runtime reason.1 n then
        nodeId = s.ledger.tree.rootId ∨ s.ledger.tree.isPruned nodeId
      else ∀ x ∈ s.ledger.tree.ids, s.ledger.tree.links.Below x nodeId → s.ledger.tree.isPruned x
  | .ledger (.dispatch nodeId resume) _ =>
      validateDispatch config.runtime s.ledger.tree nodeId resume = none ∨
        nodeId = s.ledger.tree.rootId ∨ s.ledger.tree.hasStatus nodeId "running"
  | .ledger (.worktreeFailed i error) _ => ∀ d, s.ledger.starting[i]? = some d →
      KeepsStatus s.ledger.tree d.nodeId [("status", .str "pending"),
        ("result", .str ("Worktree creation failed: " ++ error))]
  | .ledger (.ended i outcome) _ => ∀ d, s.ledger.running[i]? = some d → ∀ updates,
      outcomeUpdates config.runtime outcome d.attempt = some updates →
        KeepsStatus s.ledger.tree d.nodeId updates

end Projection

namespace RunEvent

/-- The event names a node as it is, and proposes only a new one. -/
def Proper (state : ResearchRunState F) : RunEvent F → Prop
  | .ideaProposed nodeId _ _ => IsTrimmed nodeId ∧ state.hypothesisStatus nodeId = none
  | .ideaCompleted nodeId status => IsTrimmed nodeId ∧ status = "done"
  | .ideaPruned nodeId _ | .ideaMerged nodeId => IsTrimmed nodeId
  | _ => True

def shownAfter (state : ResearchRunState F) (e : RunEvent F) (x : String) :
    Option HypothesisStatus :=
  match e.tells with
  | none => state.hypothesisStatus x
  | some (nodeId, st) => if x = nodeId then some st else state.hypothesisStatus x

theorem hypothesisStatus_hear_payload {state : ResearchRunState F} (host : ResearchHost F)
    (t : IdeaTree F) (r : Readings F) {e : RunEvent F} (h : e.Proper state) (x : String) :
    (state.hear host r.timestamp (e.payload t r)).hypothesisStatus x = e.shownAfter state x := by
  cases e with
  | ideaProposed nodeId hypothesis parentId =>
      rw [payload, ResearchRunState.hypothesisStatus_hear r.timestamp (by decide)
        (by decide) h.1 ⟨rfl, rfl⟩ rfl, hypothesisStatus_proposed _ _ rfl, h.2]
      rfl
  | ideaCompleted nodeId status =>
      obtain ⟨hid, rfl⟩ := h
      rw [payload, ResearchRunState.hypothesisStatus_hear r.timestamp (by decide)
        (by decide) hid ⟨rfl, rfl⟩ rfl, hypothesisStatus_completed _ _ rfl]
      rfl
  | ideaPruned nodeId reason =>
      rw [payload, ResearchRunState.hypothesisStatus_hear r.timestamp (by decide)
        (by decide) h ⟨rfl, rfl⟩ rfl]
      rfl
  | ideaMerged nodeId =>
      rw [payload, ResearchRunState.hypothesisStatus_hear r.timestamp (by decide)
        (by decide) h ⟨rfl, rfl⟩ rfl]
      rfl
  | executorStart nodeId branch =>
      rw [payload, ResearchRunState.hypothesisStatus_hear_other r.timestamp (by decide)
        (by decide)]
      rfl
  | executorEnd nodeId status =>
      rw [payload, ResearchRunState.hypothesisStatus_hear_other r.timestamp (by decide)
        (by decide)]
      rfl

end RunEvent

theorem hypothesisStatus_announced {config : CoordinatorConfig F} {s : LedgerRun F}
    {op : LedgerOp F} {state : ResearchRunState F} (host : ResearchHost F) (r : Readings F)
    (h : ∀ e, s.emitted config op = some e → e.Proper state) (x : String) :
    ((s.announced config op r).foldl (ResearchRunState.hear host r.timestamp)
      state).hypothesisStatus x =
        (s.emitted config op).elim (state.hypothesisStatus x) (·.shownAfter state x) := by
  have hclosing (e : RunEvent F) (state : ResearchRunState F) :
      ((e.closing config (s.step config op).tree r).foldl
        (ResearchRunState.hear host r.timestamp) state).hypothesisStatus x =
          state.hypothesisStatus x := by
    apply ResearchRunState.hypothesisStatus_foldl_hear
    cases e with
    | executorEnd nodeId status =>
        rw [RunEvent.closing, List.forall_mem_cons, List.forall_mem_singleton]
        dsimp only
        exact ⟨⟨by decide, by decide⟩, ⟨by decide, by decide⟩⟩
    | _ => exact fun e he => absurd he List.not_mem_nil
  have htold : (((s.emitted config op).elim [] fun e =>
      e.payload (s.step config op).tree r :: e.closing config (s.step config op).tree r).foldl
        (ResearchRunState.hear host r.timestamp) state).hypothesisStatus x =
          (s.emitted config op).elim (state.hypothesisStatus x) (·.shownAfter state x) := by
    cases he : s.emitted config op with
    | none => rfl
    | some e =>
        rw [Option.elim, List.foldl_cons, hclosing]
        exact RunEvent.hypothesisStatus_hear_payload host _ r (h e he) x
  cases op with
  | dispatch nodeId resume =>
      rw [LedgerRun.announced, LedgerRun.emitted, Option.elim, List.append_nil]
      split_ifs
      · rw [List.foldl_cons, List.foldl_nil, ResearchRunState.hypothesisStatus_hear_other r.timestamp
          (by decide) (by decide)]
        rfl
      · rfl
  | _ => exact htold

namespace IdeaTree

variable {config : CoordinatorConfig F} {t : IdeaTree F}

theorem Inv.isTrimmed (h : t.Inv config) {x : String} (hx : x ∈ t.ids) : IsTrimmed x := by
  have hroot : "ROOT".toList.all (fun c => !isJsSpace c) = true := by decide
  have hplain : x ≠ "" ∧ ∀ c ∈ x.toList, isJsSpace c = false := by
    refine h.linked.induction (P := fun x => x ≠ "" ∧ ∀ c ∈ x.toList, isJsSpace c = false)
      ⟨by decide, fun c hc => by simpa using List.all_eq_true.mp hroot c hc⟩ ?_ x hx
    intro p hp ⟨_, hspaces⟩ y hy hparent
    obtain ⟨n, rfl⟩ := h.named y hy p hparent
    constructor
    · intro he
      have hempty := congrArg String.toList he
      rw [child, String.toList_ofList] at hempty
      exact Nat.toDigits_ne_nil (List.append_eq_nil_iff.mp hempty).2
    · intro c hc
      rw [child, String.toList_ofList, List.mem_append] at hc
      rcases hc with hc | hc
      · rw [stem] at hc
        split_ifs at hc
        · cases hc
        · rcases List.mem_append.mp hc with hc | hc
          · exact hspaces c hc
          · rw [List.mem_singleton.mp hc]
            decide
      · exact isJsSpace_of_isDigit (isDigit_toDigits hc)
  exact isTrimmed_of_forall hplain.1 hplain.2

end IdeaTree

namespace Projection

variable {config : CoordinatorConfig F} {s s' : Projection F}

structure Inv (config : CoordinatorConfig F) (s : Projection F) : Prop where
  tree : s.ledger.tree.Inv config
  attempts : ∀ d ∈ s.ledger.starting ++ s.ledger.running, d.attempt.wf = true
  known : ∀ x, s.research.hypothesisStatus x ≠ none → x ∈ s.ledger.tree.ids

theorem faithful_iff_of_silent (h : s.Faithful)
    (hids : s'.ledger.tree.ids = s.ledger.tree.ids)
    (hroot : s'.ledger.tree.rootId = s.ledger.tree.rootId)
    (hview : ∀ x, s'.research.hypothesisStatus x = s.research.hypothesisStatus x) :
    s'.Faithful ↔ ∀ x ∈ s.ledger.tree.ids, x ≠ s.ledger.tree.rootId →
      s'.ledger.tree.status x = s.ledger.tree.status x := by
  rw [Faithful, hids, hroot]
  refine forall₃_congr fun x hx hne => ?_
  rw [hview, h x hx hne]
  exact eq_comm

theorem keepsStatus_iff {t : IdeaTree F} {nodeId : String} {updates : List (String × Json F)} :
    (∀ x ∈ t.ids, x ≠ t.rootId → (t.updateNode nodeId updates).1.status x = t.status x) ↔
      KeepsStatus t nodeId updates := by
  constructor
  · intro h
    by_cases hroot : nodeId = t.rootId
    · exact .inl hroot
    · refine .inr fun n hn => ?_
      have hsame := h nodeId (IdeaTree.mem_ids_iff.mpr ⟨n, hn⟩) hroot
      rw [IdeaTree.status_updateNode, if_pos rfl, IdeaTree.status, hn] at hsame
      exact Option.some.inj hsame
  · rintro h x hx hne
    rcases h with rfl | h
    · rw [IdeaTree.status_updateNode, if_neg hne]
    · exact IdeaTree.status_keep h x

theorem faithful_of_told (h : s.Faithful) {nodeId : String} (st : HypothesisStatus)
    (hids : s'.ledger.tree.ids = s.ledger.tree.ids)
    (hroot : s'.ledger.tree.rootId = s.ledger.tree.rootId)
    (hview : ∀ x, s'.research.hypothesisStatus x =
      if x = nodeId then some st else s.research.hypothesisStatus x)
    (hstatus : ∀ x, s'.ledger.tree.status x =
      if x = nodeId then some (.str st.name) else s.ledger.tree.status x) : s'.Faithful := by
  intro x hx hne
  rw [hids] at hx
  rw [hroot] at hne
  rw [hview, hstatus]
  split_ifs
  · rfl
  · exact h x hx hne

variable {host : ResearchHost F} {op : LedgerOp F} {r : Readings F}

theorem view_silent (h : ∀ e, s.ledger.emitted config op = some e → e.tells = none) (x : String) :
    (s.step config host (.ledger op r)).research.hypothesisStatus x =
      s.research.hypothesisStatus x := by
  have hproper : ∀ e, s.ledger.emitted config op = some e → e.Proper s.research := by
    intro e he
    have htells := h e he
    cases e <;> trivial
  refine (hypothesisStatus_announced host r hproper x).trans ?_
  cases he : s.ledger.emitted config op with
  | none => rfl
  | some e =>
      rw [Option.elim, RunEvent.shownAfter, h e he]

theorem view_told (host : ResearchHost F) (r : Readings F) {e : RunEvent F}
    (he : s.ledger.emitted config op = some e)
    (hproper : e.Proper s.research) (x : String) :
    (s.step config host (.ledger op r)).research.hypothesisStatus x =
      e.shownAfter s.research x := by
  refine (hypothesisStatus_announced host r (fun e' he' => ?_) x).trans ?_
  · rw [he, Option.some.injEq] at he'
    exact he' ▸ hproper
  · rw [he]
    rfl

theorem wf_all (updates : Arguments F) : ∀ u ∈ updates.all, u.2.wf = true := by
  intro u hu
  obtain ⟨v, -, rfl⟩ := List.mem_map.mp hu
  exact v.2.2

theorem refills_ledger (h : s.Inv config) (op : LedgerOp F) (hop : op.adds = false) :
    IdeaTree.Refills s.ledger.tree (s.ledger.step config op).tree := by
  have hwrite {nodeId : String} {updates : List (String × Json F)}
      (hwf : ∀ u ∈ updates, u.2.wf = true) : IdeaTree.Refills s.ledger.tree
        ((TreeOp.write nodeId updates).apply config.runtime s.ledger.tree).1 :=
    IdeaTree.refills_updateNode s.ledger.tree nodeId hwf
  rw [LedgerRun.step]
  cases op with
  | add parentId hypothesis reply => cases hop
  | update nodeId updates =>
      dsimp only [LedgerRun.treeOp]
      split_ifs
      · exact .refl _
      · exact hwrite updates.wf
  | prune nodeId reason =>
      exact IdeaTree.refills_pruneNode config.runtime s.ledger.tree nodeId reason.1
  | dispatch nodeId resume =>
      dsimp only [LedgerRun.treeOp]
      cases validateDispatch config.runtime s.ledger.tree nodeId resume with
      | none => exact .refl _
      | some attempt => exact hwrite (by simp [Json.wf])
  | started i branch => exact .refl _
  | worktreeFailed i error =>
      dsimp only [LedgerRun.treeOp]
      cases s.ledger.starting[i]? with
      | none => exact .refl _
      | some d => exact hwrite (by simp [Json.wf])
  | ended i outcome =>
      dsimp only [LedgerRun.treeOp]
      cases hd : s.ledger.running[i]? with
      | none => exact .refl _
      | some d =>
          rw [Option.bind_some]
          cases hupdates : outcomeUpdates config.runtime outcome d.attempt with
          | none => exact .refl _
          | some updates =>
              have hattempt := h.attempts d (List.mem_append_right _ (List.mem_of_getElem? hd))
              exact hwrite (wf_outcomeUpdates hattempt hupdates)

theorem added (h : s.Inv config) {parentId : String} {hypothesis : Value F} {reply : Option String}
    {node : Node F}
    (hnode : proposedNode config s.ledger.tree parentId hypothesis.1 reply = some node) :
    (s.ledger.step config (.add parentId hypothesis reply)).tree = (s.ledger.tree.addNode node).1 ∧
      s.ledger.emitted config (.add parentId hypothesis reply) =
        some (.ideaProposed node.id node.hypothesis node.parentId) := by
  obtain ⟨parent, hproposed⟩ := h.tree.proposed hnode
  have hsaved : (s.ledger.tree.addNode node).2 = true := by
    rw [IdeaTree.addNode, if_neg hproposed.fresh, hproposed.under]
    simp [IdeaTree.mem_ids_iff.mpr ⟨parent, hproposed.found⟩]
  constructor
  · simp [LedgerRun.step, LedgerRun.treeOp, hnode, TreeOp.apply]
  · simp [LedgerRun.emitted, hnode, hsaved]

theorem refills_or_added (h : s.Inv config) (op : LedgerOp F) :
    IdeaTree.Refills s.ledger.tree (s.ledger.step config op).tree ∨
      ∃ parentId hypothesis reply node, op = .add parentId hypothesis reply ∧
        proposedNode config s.ledger.tree parentId hypothesis.1 reply = some node := by
  cases op with
  | add parentId hypothesis reply =>
      cases hnode : proposedNode config s.ledger.tree parentId hypothesis.1 reply with
      | none =>
          left
          simp only [LedgerRun.step, LedgerRun.treeOp, hnode, TreeOp.apply, Option.map_none,
            Option.getD_none]
          exact .refl _
      | some node => exact .inr ⟨parentId, hypothesis, reply, node, rfl, hnode⟩
  | _ => exact .inl (refills_ledger h _ rfl)

theorem Inv.tree_step (h : s.Inv config) (op : LedgerOp F) :
    (s.ledger.step config op).tree.Inv config := by
  obtain hr | ⟨parentId, hypothesis, reply, node, rfl, hnode⟩ := refills_or_added h op
  · exact h.tree.refill hr
  · rw [(added h hnode).1]
    exact h.tree.propose hypothesis.2 hnode

theorem Inv.ids_step (h : s.Inv config) {x : String} (hx : x ∈ s.ledger.tree.ids)
    (op : LedgerOp F) : x ∈ (s.ledger.step config op).tree.ids := by
  obtain hr | ⟨parentId, hypothesis, reply, node, rfl, hnode⟩ := refills_or_added h op
  · exact hr.ids ▸ hx
  · obtain ⟨parent, hproposed⟩ := h.tree.proposed hnode
    rw [(added h hnode).1, hproposed.ids]
    exact List.mem_append_left _ hx

theorem Inv.attempts_step (h : s.Inv config) (op : LedgerOp F) :
    ∀ d ∈ (s.ledger.step config op).starting ++ (s.ledger.step config op).running,
      d.attempt.wf = true := by
  intro d hd
  rw [List.mem_append] at hd
  have hstarting := fun hd => h.attempts d (List.mem_append_left _ hd)
  have hrunning := fun hd => h.attempts d (List.mem_append_right _ hd)
  cases op with
  | dispatch nodeId resume =>
      rcases hd with hd | hd
      · rcases List.mem_append.mp hd with hd | hd
        · exact hstarting hd
        · obtain ⟨attempt, hattempt, rfl⟩ := Option.map_eq_some_iff.mp (Option.mem_toList.mp hd)
          obtain ⟨node, hnode, -, hattempt⟩ := validateDispatch_eq_some hattempt
          have hstorable := h.tree.storable.values _ (Members.mem_of_lookup hnode)
          exact wf_dispatchAttempt (hstorable _ (by simp [Node.values])) hattempt
      · exact hrunning hd
  | started i branch =>
      rcases hd with hd | hd
      · exact hstarting (List.mem_of_mem_eraseIdx hd)
      · rcases List.mem_append.mp hd with hd | hd
        · exact hrunning hd
        · exact hstarting (List.mem_of_getElem? (Option.mem_toList.mp hd))
  | worktreeFailed i error => exact hd.elim (hstarting ∘ List.mem_of_mem_eraseIdx) hrunning
  | ended i outcome => exact hd.elim hstarting (hrunning ∘ List.mem_of_mem_eraseIdx)
  | _ => exact hd.elim hstarting hrunning

theorem Inv.emitted (h : s.Inv config) {op : LedgerOp F} {e : RunEvent F}
    (he : s.ledger.emitted config op = some e) : e.Proper s.research ∧
      ∀ nodeId st, e.tells = some (nodeId, st) → nodeId ∈ (s.ledger.step config op).tree.ids := by
  have hnamed (nodeId : String) (st : HypothesisStatus)
      (hmem : nodeId ∈ (s.ledger.step config op).tree.ids) :
      IsTrimmed nodeId ∧ ∀ nodeId' st', some (nodeId, st) = some (nodeId', st') →
        nodeId' ∈ (s.ledger.step config op).tree.ids := by
    refine ⟨(h.tree_step op).isTrimmed hmem, fun nodeId' st' heq => ?_⟩
    obtain ⟨rfl, -⟩ := Prod.ext_iff.mp (Option.some.inj heq)
    exact hmem
  cases op with
  | add parentId hypothesis reply =>
      obtain ⟨node, hnode, -⟩ := Option.bind_eq_some_iff.mp he
      obtain ⟨parent, hproposed⟩ := h.tree.proposed hnode
      obtain ⟨htree, hemitted⟩ := added h hnode
      obtain rfl := Option.some.inj (he.symm.trans hemitted)
      obtain ⟨htrimmed, htells⟩ := hnamed node.id .pending (by
        rw [htree, hproposed.ids]
        exact List.mem_append_right _ (List.mem_singleton_self _))
      refine ⟨⟨htrimmed, ?_⟩, htells⟩
      by_contra hknown
      exact hproposed.fresh (h.known _ hknown)
  | update nodeId updates =>
      rw [LedgerRun.emitted] at he
      split_ifs at he with hsaved
      have hids := (refills_ledger h (.update nodeId updates) rfl).ids
      have hmem := hids ▸ IdeaTree.mem_ids_of_updateNode hsaved
      obtain ⟨st, -, ⟨rfl, rfl⟩ | ⟨rfl, rfl⟩⟩ := LedgerRun.told_eq_some he
      · obtain ⟨htrimmed, htells⟩ := hnamed nodeId .done hmem
        exact ⟨⟨htrimmed, rfl⟩, htells⟩
      · exact hnamed nodeId .merged hmem
  | prune nodeId reason =>
      rw [LedgerRun.emitted] at he
      split_ifs at he with hsaved
      obtain rfl := Option.some.inj he
      have hids := (refills_ledger h (.prune nodeId reason) rfl).ids
      apply hnamed nodeId .pruned
      rw [hids]
      rw [IdeaTree.pruneNode] at hsaved
      cases hn : s.ledger.tree.getNode nodeId with
      | none => simp [hn] at hsaved
      | some n => exact IdeaTree.mem_ids_iff.mpr ⟨n, hn⟩
  | started i branch =>
      obtain ⟨d, -, rfl⟩ := Option.map_eq_some_iff.mp he
      exact ⟨trivial, fun _ _ htells => absurd htells (by simp [RunEvent.tells])⟩
  | ended i outcome =>
      obtain ⟨d, -, he⟩ := Option.bind_eq_some_iff.mp he
      obtain ⟨updates, -, he⟩ := Option.bind_eq_some_iff.mp he
      obtain ⟨status, -, rfl⟩ := Option.map_eq_some_iff.mp he
      exact ⟨trivial, fun _ _ htells => absurd htells (by simp [RunEvent.tells])⟩
  | dispatch nodeId resume => cases he
  | worktreeFailed i error => cases he

theorem Inv.known_step (h : s.Inv config) (x : String)
    (hx : (s.step config host (.ledger op r)).research.hypothesisStatus x ≠ none) :
    x ∈ (s.ledger.step config op).tree.ids := by
  cases he : s.ledger.emitted config op with
  | none =>
      rw [view_silent (by simp [he])] at hx
      exact h.ids_step (h.known x hx) op
  | some e =>
      obtain ⟨hproper, htells⟩ := h.emitted he
      rw [view_told _ _ he hproper, RunEvent.shownAfter] at hx
      split at hx
      · exact h.ids_step (h.known x hx) op
      · next nodeId st hst =>
          split_ifs at hx with hxid
          · exact hxid ▸ htells nodeId st hst
          · exact h.ids_step (h.known x hx) op

theorem Inv.step (h : s.Inv config) (host : ResearchHost F) (op : ProjectionOp F) :
    (s.step config host op).Inv config := by
  cases op with
  | ledger op r => exact ⟨h.tree_step op, h.attempts_step op, h.known_step⟩
  | asyncUpdate nodeId updates =>
      have hr := IdeaTree.refills_updateNode s.ledger.tree nodeId (wf_all updates)
      refine ⟨h.tree.refill hr, h.attempts, fun x hx => ?_⟩
      exact hr.ids ▸ h.known x hx

theorem faithful_add (h : s.Inv config) (hf : s.Faithful) {parentId : String}
    {hypothesis : Value F} {reply : Option String} {node : Node F}
    (hnode : proposedNode config s.ledger.tree parentId hypothesis.1 reply = some node) :
    (s.step config host (.ledger (.add parentId hypothesis reply) r)).Faithful := by
  obtain ⟨parent, hproposed⟩ := h.tree.proposed hnode
  obtain ⟨htree, hemitted⟩ := added h hnode
  have hroot := (h.tree_step (.add parentId hypothesis reply)).root
  have hview := view_told host r hemitted (h.emitted hemitted).1
  intro x hx hne
  rw [Projection.step] at hx hne ⊢
  rw [hroot] at hne
  rw [htree, hproposed.ids] at hx
  rw [htree, hproposed.status]
  refine (congrArg _ (hview x)).trans ?_
  rw [RunEvent.shownAfter, RunEvent.tells]
  dsimp only
  split_ifs with hxid
  · rfl
  · have hmem := (List.mem_append.mp hx).resolve_right (by simpa using hxid)
    exact hf x hmem (h.tree.root ▸ hne)

theorem faithful_write_iff (h : s.Inv config) (hf : s.Faithful) {nodeId : String}
    {updates : List (String × Json F)} (hadd : op.adds = false)
    (hop : (s.ledger.step config op).tree = (s.ledger.tree.updateNode nodeId updates).1)
    (hsilent : ∀ e, s.ledger.emitted config op = some e → e.tells = none) :
    (s.step config host (.ledger op r)).Faithful ↔ KeepsStatus s.ledger.tree nodeId updates := by
  have hr := refills_ledger h _ hadd
  rw [faithful_iff_of_silent hf hr.ids hr.rootId (view_silent hsilent), ← keepsStatus_iff]
  simp only [Projection.step, hop]

theorem faithful_of_idle (h : s.Inv config) (hf : s.Faithful) (hadd : op.adds = false)
    (hop : (s.ledger.step config op).tree = s.ledger.tree)
    (hsilent : ∀ e, s.ledger.emitted config op = some e → e.tells = none) :
    (s.step config host (.ledger op r)).Faithful := by
  have hr := refills_ledger h _ hadd
  rw [faithful_iff_of_silent hf hr.ids hr.rootId (view_silent hsilent)]
  intro x _ _
  simp only [Projection.step, hop]

theorem faithful_update_iff (h : s.Inv config) (hf : s.Faithful) {nodeId : String}
    {updates : Arguments F} :
    (s.step config host (.ledger (.update nodeId updates) r)).Faithful ↔
      s.FitsAt config (.ledger (.update nodeId updates) r) := by
  have hadd : (LedgerOp.update nodeId updates : LedgerOp F).adds = false := rfl
  by_cases hempty : updates.given.isEmpty = true
  · have hnone : updates.given = [] := List.isEmpty_iff.mp hempty
    have hidle : (s.step config host (.ledger (.update nodeId updates) r)).Faithful := by
      apply faithful_of_idle h hf hadd
      · simp [LedgerRun.step, LedgerRun.treeOp, hnone, TreeOp.apply]
      · simp [LedgerRun.emitted, told, hnone]
    refine iff_of_true hidle (.inr (.inr fun n _ => ?_))
    rw [hnone]
    rfl
  · have htree : (s.ledger.step config (.update nodeId updates)).tree =
        (s.ledger.tree.updateNode nodeId updates.given).1 := by
      simp [LedgerRun.step, LedgerRun.treeOp, hempty, TreeOp.apply]
    rw [FitsAt]
    by_cases hsaved : (s.ledger.tree.updateNode nodeId updates.given).2 = true
    · cases htold : told nodeId updates.given with
      | none =>
          have hsilent : ∀ e, s.ledger.emitted config (.update nodeId updates) = some e →
              e.tells = none := by simp [LedgerRun.emitted, hsaved, htold]
          rw [faithful_write_iff h hf hadd htree hsilent]
          simp
      | some e =>
          refine iff_of_true ?_ (.inl ⟨hsaved, rfl⟩)
          have hemitted : s.ledger.emitted config (.update nodeId updates) = some e := by
            rw [LedgerRun.emitted, if_pos hsaved, htold]
          have hr := refills_ledger h _ hadd
          have hview := view_told host r hemitted (h.emitted hemitted).1
          obtain ⟨st, hst, ⟨rfl, rfl⟩ | ⟨rfl, rfl⟩⟩ := LedgerRun.told_eq_some htold
          · refine faithful_of_told hf .done hr.ids hr.rootId hview fun x => ?_
            simp only [Projection.step, htree]
            exact IdeaTree.status_saved updates hsaved hst x
          · refine faithful_of_told hf .merged hr.ids hr.rootId hview fun x => ?_
            simp only [Projection.step, htree]
            exact IdeaTree.status_saved updates hsaved hst x
    · have hsilent : ∀ e, s.ledger.emitted config (.update nodeId updates) = some e →
          e.tells = none := by simp [LedgerRun.emitted, hsaved]
      rw [faithful_write_iff h hf hadd htree hsilent]
      simp [hsaved]

theorem faithful_prune_iff (h : s.Inv config) (hf : s.Faithful) {nodeId : String}
    {reason : Value F} :
    (s.step config host (.ledger (.prune nodeId reason) r)).Faithful ↔
      s.FitsAt config (.ledger (.prune nodeId reason) r) := by
  have hadd : (LedgerOp.prune nodeId reason : LedgerOp F).adds = false := rfl
  have hr := refills_ledger h _ hadd
  rw [FitsAt]
  cases hn : s.ledger.tree.getNode nodeId with
  | none =>
      have hidle : (s.step config host (.ledger (.prune nodeId reason) r)).Faithful := by
        apply faithful_of_idle h hf hadd
        · simp [LedgerRun.step, LedgerRun.treeOp, TreeOp.apply, IdeaTree.pruneNode, hn]
        · simp [LedgerRun.emitted, IdeaTree.pruneNode, hn]
      simpa using hidle
  | some n =>
      have hid : nodeId ∈ s.ledger.tree.ids := IdeaTree.mem_ids_iff.mpr ⟨n, hn⟩
      have hprune := IdeaTree.pruneNode_of_some hn config.runtime reason.1
      simp only [Option.some.injEq, forall_eq']
      by_cases hraises : IdeaTree.pruneRaises config.runtime reason.1 n = true
      · rw [if_pos hraises] at hprune ⊢
        have hsilent : ∀ e, s.ledger.emitted config (.prune nodeId reason) = some e →
            e.tells = none := by simp [LedgerRun.emitted, hprune]
        have hstatus (x : String) : (s.ledger.step config (.prune nodeId reason)).tree.status x =
            if x = nodeId then some (.str "pruned") else s.ledger.tree.status x := by
          simp only [LedgerRun.step, LedgerRun.treeOp, TreeOp.apply, hprune]
          rw [IdeaTree.status_modifyNode]
          split_ifs with hx
          · rw [hx, hn]
            rfl
          · rfl
        rw [faithful_iff_of_silent hf hr.ids hr.rootId (view_silent hsilent)]
        simp only [Projection.step, hstatus]
        constructor
        · intro hsame
          refine or_iff_not_imp_left.mpr fun hroot => IdeaTree.hasStatus_iff.mpr ?_
          rw [← hsame nodeId hid hroot, if_pos rfl]
        · rintro (rfl | hpruned) x hx hne
          · rw [if_neg hne]
          · split_ifs with hxid
            · rw [hxid, IdeaTree.hasStatus_iff.mp hpruned]
            · rfl
      · rw [if_neg hraises] at hprune ⊢
        have hemitted : s.ledger.emitted config (.prune nodeId reason) =
            some (.ideaPruned nodeId reason.1) := by simp [LedgerRun.emitted, hprune]
        have hview := view_told host r hemitted (h.emitted hemitted).1
        have htree : (s.ledger.step config (.prune nodeId reason)).tree =
            IdeaTree.pruneFrom nodeId (IdeaTree.pruneNote config.runtime reason.1)
              s.ledger.tree.nodes.length s.ledger.tree nodeId := by
          simp only [LedgerRun.step, LedgerRun.treeOp, TreeOp.apply, hprune]
        constructor
        · intro hf' x hx hbelow
          -- what lies below is pruned with its node, and the view still shows what it was
          have hxid : x ≠ nodeId := by
            rintro rfl
            exact h.tree.linked.acyclic hx hbelow
          have hroot : x ≠ s.ledger.tree.rootId := by
            rw [h.tree.root]
            rintro rfl
            have hdepth := (h.tree.linked.of_below hx hbelow).2
            have hzero := h.tree.linked.root_depth
            have hnonneg := h.tree.linked.depth_nonneg hid
            omega
          have hshown := hf' x (hr.ids ▸ hx) (hr.rootId ▸ hroot)
          rw [hview, RunEvent.shownAfter, RunEvent.tells] at hshown
          dsimp only at hshown
          rw [if_neg hxid, hf x hx hroot, Projection.step] at hshown
          rw [htree, IdeaTree.status_pruned h.tree hid hx (.inr hbelow)] at hshown
          exact IdeaTree.hasStatus_iff.mpr hshown
        · intro hbelow
          refine faithful_of_told hf .pruned hr.ids hr.rootId hview fun x => ?_
          simp only [Projection.step, htree]
          exact IdeaTree.status_prune h.tree hid hbelow _ x

theorem faithful_dispatch_iff (h : s.Inv config) (hf : s.Faithful) {nodeId : String}
    {resume : Bool} : (s.step config host (.ledger (.dispatch nodeId resume) r)).Faithful ↔
      s.FitsAt config (.ledger (.dispatch nodeId resume) r) := by
  have hadd : (LedgerOp.dispatch nodeId resume : LedgerOp F).adds = false := rfl
  have hsilent : ∀ e, s.ledger.emitted config (.dispatch nodeId resume) = some e →
      e.tells = none := by simp [LedgerRun.emitted]
  rw [FitsAt]
  cases hvalid : validateDispatch config.runtime s.ledger.tree nodeId resume with
  | none =>
      refine iff_of_true (faithful_of_idle h hf hadd ?_ hsilent) (.inl rfl)
      simp [LedgerRun.step, LedgerRun.treeOp, hvalid, TreeOp.apply]
  | some attempt =>
      obtain ⟨n, hn, -, -⟩ := validateDispatch_eq_some hvalid
      have htree : (s.ledger.step config (.dispatch nodeId resume)).tree =
          (s.ledger.tree.updateNode nodeId [("status", .str "running")]).1 := by
        simp [LedgerRun.step, LedgerRun.treeOp, hvalid, TreeOp.apply]
      rw [faithful_write_iff h hf hadd htree hsilent, KeepsStatus, IdeaTree.hasStatus_iff,
        IdeaTree.status, hn]
      simp [Node.setFields, Node.setField, eq_comm]

theorem faithful_worktreeFailed_iff (h : s.Inv config) (hf : s.Faithful) {i : Nat}
    {error : String} : (s.step config host (.ledger (.worktreeFailed i error) r)).Faithful ↔
      s.FitsAt config (.ledger (.worktreeFailed i error) r) := by
  have hadd : (LedgerOp.worktreeFailed i error : LedgerOp F).adds = false := rfl
  have hsilent : ∀ e, s.ledger.emitted config (.worktreeFailed i error) = some e →
      e.tells = none := by simp [LedgerRun.emitted]
  rw [FitsAt]
  cases hd : s.ledger.starting[i]? with
  | none =>
      refine iff_of_true (faithful_of_idle h hf hadd ?_ hsilent) (by simp)
      simp [LedgerRun.step, LedgerRun.treeOp, hd, TreeOp.apply]
  | some d =>
      have htree : (s.ledger.step config (.worktreeFailed i error)).tree =
          (s.ledger.tree.updateNode d.nodeId [("status", .str "pending"),
            ("result", .str ("Worktree creation failed: " ++ error))]).1 := by
        simp [LedgerRun.step, LedgerRun.treeOp, hd, TreeOp.apply]
      rw [faithful_write_iff h hf hadd htree hsilent]
      simp

theorem faithful_ended_iff (h : s.Inv config) (hf : s.Faithful) {i : Nat} {outcome : Outcome F} :
    (s.step config host (.ledger (.ended i outcome) r)).Faithful ↔
      s.FitsAt config (.ledger (.ended i outcome) r) := by
  have hadd : (LedgerOp.ended i outcome : LedgerOp F).adds = false := rfl
  have hsilent : ∀ e, s.ledger.emitted config (.ended i outcome) = some e → e.tells = none := by
    intro e he
    obtain ⟨d, -, he⟩ := Option.bind_eq_some_iff.mp he
    obtain ⟨updates, -, he⟩ := Option.bind_eq_some_iff.mp he
    obtain ⟨status, -, rfl⟩ := Option.map_eq_some_iff.mp he
    rfl
  rw [FitsAt]
  cases hd : s.ledger.running[i]? with
  | none =>
      refine iff_of_true (faithful_of_idle h hf hadd ?_ hsilent) (by simp)
      simp [LedgerRun.step, LedgerRun.treeOp, hd, TreeOp.apply]
  | some d =>
      cases hupdates : outcomeUpdates config.runtime outcome d.attempt with
      | none =>
          refine iff_of_true (faithful_of_idle h hf hadd ?_ hsilent) (by simp [hupdates])
          simp [LedgerRun.step, LedgerRun.treeOp, hd, hupdates, TreeOp.apply]
      | some updates =>
          have htree : (s.ledger.step config (.ended i outcome)).tree =
              (s.ledger.tree.updateNode d.nodeId updates).1 := by
            simp [LedgerRun.step, LedgerRun.treeOp, hd, hupdates, TreeOp.apply]
          rw [faithful_write_iff h hf hadd htree hsilent]
          simp [hupdates]

theorem faithful_step_iff (h : s.Inv config) (hf : s.Faithful) (host : ResearchHost F)
    (op : ProjectionOp F) : (s.step config host op).Faithful ↔ s.FitsAt config op := by
  cases op with
  | asyncUpdate nodeId updates =>
      have hr := IdeaTree.refills_updateNode s.ledger.tree nodeId (wf_all updates)
      have hsilent : (s.step config host (.asyncUpdate nodeId updates)).Faithful ↔ _ :=
        faithful_iff_of_silent hf hr.ids hr.rootId fun _ => rfl
      rw [hsilent]
      exact keepsStatus_iff
  | ledger op r =>
      cases op with
      | add parentId hypothesis reply =>
          refine iff_of_true ?_ trivial
          cases hnode : proposedNode config s.ledger.tree parentId hypothesis.1 reply with
          | some node => exact faithful_add h hf hnode
          | none =>
              have hsilent : ∀ e,
                  s.ledger.emitted config (.add parentId hypothesis reply) = some e →
                    e.tells = none := by simp [LedgerRun.emitted, hnode]
              have htree : (s.ledger.step config (.add parentId hypothesis reply)).tree =
                  s.ledger.tree := by
                simp [LedgerRun.step, LedgerRun.treeOp, hnode, TreeOp.apply]
              rw [faithful_iff_of_silent hf (congrArg _ htree) (congrArg _ htree)
                (view_silent hsilent)]
              intro x _ _
              simp only [Projection.step, htree]
      | update nodeId updates => exact faithful_update_iff h hf
      | prune nodeId reason => exact faithful_prune_iff h hf
      | dispatch nodeId resume => exact faithful_dispatch_iff h hf
      | started i branch =>
          refine iff_of_true (faithful_of_idle h hf rfl rfl fun e he => ?_) trivial
          obtain ⟨d, -, rfl⟩ := Option.map_eq_some_iff.mp he
          rfl
      | worktreeFailed i error => exact faithful_worktreeFailed_iff h hf
      | ended i outcome => exact faithful_ended_iff h hf

theorem inv_fresh (config : CoordinatorConfig F) (sessionId : String) :
    (fresh config sessionId).Inv config where
  tree := (Coordinator.inv_fresh config).tree
  attempts := by simp [fresh, LedgerRun.fresh]
  known x hx := absurd rfl hx

theorem faithful_fresh (config : CoordinatorConfig F) (sessionId : String) :
    (fresh config sessionId).Faithful := by
  intro x hx hne
  exact absurd (List.mem_singleton.mp hx) hne

end Projection

def noReadings : Readings FloatText := ⟨.int 0, .int 1, .int 0, .null, .int 0⟩

end DevPilot
