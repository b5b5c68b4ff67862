import DevPilot.Coordinator.TreeShape

/-!
What one step of the coordinator does: the one mutation it makes to the tree,
and the dispatches it starts and ends.
-/

namespace DevPilot

open PyJson

variable {F : Type}

inductive TreeOp (F : Type)
  | keep
  | add (node : Node F)
  | write (nodeId : String) (updates : List (String × Json F))
  | prune (nodeId : String) (reason : Json F)
  | setMeta (metadata : Members F) (saved : Bool)

def TreeOp.apply (rt : Runtime F) (t : IdeaTree F) : TreeOp F → IdeaTree F × Bool
  | .keep => (t, false)
  | .add node => t.addNode node
  | .write nodeId updates => t.updateNode nodeId updates
  | .prune nodeId reason => t.pruneNode rt nodeId reason
  | .setMeta metadata saved => ({ t with metadata }, saved)

def proposedNode (config : CoordinatorConfig F) (t : IdeaTree F) (parentId : String)
    (hypothesis : Json F) (reply : Option String) : Option (Node F) :=
  (t.getNode parentId).bind fun parent =>
    if t.maxDepth.any (parent.depth + 1 > ·) then none
    else (reviewIdea config reply).bind fun revised => (t.nextChildId parentId).map fun id =>
      { id, parentId := some parentId, depth := parent.depth + 1
        hypothesis := (revised.map Json.str).getD hypothesis }

def CoordinatorEvent.keepsStatuses : CoordinatorEvent F → Bool
  | .updateNode _ updates => updates.all (·.1 != "status")
  | _ => true

namespace Coordinator

def dispatchOf (config : CoordinatorConfig F) (s : Coordinator F) :
    CoordinatorEvent F → Option (Dispatch F)
  | .start i => (s.queued[i]?).bind fun nodeId =>
      (validateDispatch config.runtime s.tree nodeId false).map (⟨nodeId, ·⟩)
  | .resumeExecutor nodeId =>
      if canResume config s.tree nodeId && completedCycles s.tree < config.maxCycles then
        (validateDispatch config.runtime s.tree nodeId true).map (⟨nodeId, ·⟩)
      else none
  | _ => none

def landingOf : CoordinatorEvent F → Option Nat
  | .worktreeFailed i _ => some i
  | .finished i _ => some i
  | .crashed i => some i
  | _ => none

def treeOp (config : CoordinatorConfig F) (s : Coordinator F) : CoordinatorEvent F → TreeOp F
  | .addNode parentId hypothesis reply =>
      ((proposedNode config s.tree parentId hypothesis.1 reply).map .add).getD .keep
  | .updateNode nodeId updates =>
      let updates := (updates.map fun u => (u.1, u.2.1)).filter fun u => !Node.isNull u.2
      if updates.isEmpty then .keep else .write nodeId updates
  | .prune nodeId reason => .prune nodeId reason.1
  | .setMeta updates =>
      let updates := updates.filter (·.1 ∈ metaKeys)
      if updates.isEmpty then .keep
      else .setMeta (updates.foldl (fun ms u => Members.insert u.1 u.2.1 ms) s.tree.metadata) true
  | .setMedal medal => .setMeta (Members.insert "achieved_medal" (.str medal) s.tree.metadata) false
  | .noteInsight nodeId insight => .write nodeId [("insight", .str insight)]
  | .noteRelatedWork nodeId relatedWork => .write nodeId [("related_work", .str relatedWork)]
  | .skip i => ((s.queued[i]?).bind fun nodeId =>
      if config.reviews then some (.prune nodeId (.str "skipped by user in review")) else none).getD
        .keep
  | .worktreeFailed i error => ((s.inFlight[i]?).map fun d => .write d.nodeId
      [("status", .str "pending"),
        ("result", .str ("Worktree creation failed: " ++ error))]).getD .keep
  | .finished i outcome => ((s.inFlight[i]?).bind fun d =>
      (outcomeUpdates config.runtime outcome d.attempt).map (.write d.nodeId)).getD .keep
  | e => ((dispatchOf config s e).map fun d => .write d.nodeId [("status", .str "running")]).getD
      .keep

def queueAfter (config : CoordinatorConfig F) (s : Coordinator F) :
    CoordinatorEvent F → List String
  | .runExecutor nodeId =>
      if config.maxCycles ≤ completedCycles s.tree then s.queued else s.queued ++ [nodeId]
  | .runExecutorParallel nodeIds => s.queued ++ admittedParallel config s.tree nodeIds
  | .skip i => if config.reviews then s.queued.eraseIdx i else s.queued
  | .start i => s.queued.eraseIdx i
  | _ => s.queued

variable {config : CoordinatorConfig F} {s : Coordinator F} {e : CoordinatorEvent F}

def restarts : CoordinatorEvent F → Bool
  | .restart => true
  | _ => false

theorem startExecutor_eq (config : CoordinatorConfig F) (s : Coordinator F) (nodeId : String)
    (resume : Bool) : s.startExecutor config nodeId resume =
      match (validateDispatch config.runtime s.tree nodeId resume).map (Dispatch.mk nodeId) with
      | none => s
      | some d => { s.commit ((TreeOp.write d.nodeId [("status", .str "running")]).apply
          config.runtime s.tree) with inFlight := s.inFlight ++ [d] } := by
  rw [startExecutor]
  cases validateDispatch config.runtime s.tree nodeId resume <;> rfl

theorem addNode_eq (config : CoordinatorConfig F) (s : Coordinator F) (parentId : String)
    (hypothesis : Json F) (reply : Option String) : s.addNode config parentId hypothesis reply =
      s.commit ((((proposedNode config s.tree parentId hypothesis reply).map TreeOp.add).getD
        .keep).apply config.runtime s.tree) := by
  rw [addNode, proposedNode]
  cases s.tree.getNode parentId with
  | none => rfl
  | some parent =>
      dsimp only [Option.bind_some]
      split_ifs
      · rfl
      · cases reviewIdea config reply with
        | none => rfl
        | some revised => cases s.tree.nextChildId parentId <;> rfl

theorem step_eq (h : restarts e = false) : s.step config e =
    { s.commit ((s.treeOp config e).apply config.runtime s.tree) with
      queued := s.queueAfter config e
      inFlight := (landingOf e).elim s.inFlight s.inFlight.eraseIdx ++
        (s.dispatchOf config e).toList } := by
  have hplain : ∀ (queued : List String) (inFlight : List (Dispatch F)) (op : TreeOp F),
      ({ s with queued, inFlight } : Coordinator F).commit (op.apply config.runtime s.tree) =
        { s.commit (op.apply config.runtime s.tree) with
          queued
          inFlight := inFlight ++ (none : Option (Dispatch F)).toList } := by
    intro queued inFlight op
    rw [Option.toList_none, List.append_nil]
    rfl
  cases e with
  | addNode parentId hypothesis reply =>
      exact (addNode_eq config s parentId hypothesis.1 reply).trans (hplain s.queued s.inFlight _)
  | updateNode nodeId updates =>
      simp only [step, treeOp]
      split_ifs
      · exact hplain s.queued s.inFlight .keep
      · exact hplain s.queued s.inFlight (.write _ _)
  | prune nodeId reason => exact hplain s.queued s.inFlight (.prune nodeId reason.1)
  | setMeta updates =>
      simp only [step, treeOp]
      split_ifs
      · exact hplain s.queued s.inFlight .keep
      · exact hplain s.queued s.inFlight (.setMeta _ true)
  | setMedal medal => exact hplain s.queued s.inFlight (.setMeta _ false)
  | noteInsight nodeId insight => exact hplain s.queued s.inFlight (.write _ _)
  | noteRelatedWork nodeId relatedWork => exact hplain s.queued s.inFlight (.write _ _)
  | runExecutor nodeId =>
      simp only [step, queueAfter]
      split_ifs
      · exact hplain s.queued s.inFlight .keep
      · exact hplain (s.queued ++ [nodeId]) s.inFlight .keep
  | runExecutorParallel nodeIds => exact hplain (s.queued ++ admittedParallel config s.tree nodeIds) s.inFlight .keep
  | resumeExecutor nodeId =>
      simp only [step, treeOp, dispatchOf]
      split_ifs
      · rw [startExecutor_eq]
        cases (validateDispatch config.runtime s.tree nodeId true).map (Dispatch.mk nodeId) with
        | none => exact hplain s.queued s.inFlight .keep
        | some d => rfl
      · exact hplain s.queued s.inFlight .keep
  | skip i =>
      simp only [step, treeOp, queueAfter]
      cases hi : s.queued[i]? with
      | none =>
          rw [List.eraseIdx_of_length_le (List.getElem?_eq_none_iff.mp hi), ite_self]
          exact hplain s.queued s.inFlight .keep
      | some nodeId =>
          dsimp only [Option.bind_some]
          split_ifs
          · exact hplain (s.queued.eraseIdx i) s.inFlight (.prune _ _)
          · exact hplain s.queued s.inFlight .keep
  | start i =>
      simp only [step, treeOp, queueAfter, dispatchOf]
      cases hi : s.queued[i]? with
      | none =>
          rw [List.eraseIdx_of_length_le (List.getElem?_eq_none_iff.mp hi)]
          exact hplain s.queued s.inFlight .keep
      | some nodeId =>
          dsimp only [Option.bind_some]
          rw [startExecutor_eq]
          dsimp only
          cases (validateDispatch config.runtime s.tree nodeId false).map (Dispatch.mk nodeId) with
          | none => exact hplain (s.queued.eraseIdx i) s.inFlight .keep
          | some d => rfl
  | worktreeFailed i error =>
      simp only [step, treeOp]
      cases hi : s.inFlight[i]? with
      | none =>
          rw [landingOf, Option.elim, List.eraseIdx_of_length_le (List.getElem?_eq_none_iff.mp hi)]
          exact hplain s.queued s.inFlight .keep
      | some d => exact hplain s.queued (s.inFlight.eraseIdx i) (.write _ _)
  | finished i outcome =>
      simp only [step, treeOp]
      cases hi : s.inFlight[i]? with
      | none =>
          rw [landingOf, Option.elim, List.eraseIdx_of_length_le (List.getElem?_eq_none_iff.mp hi)]
          exact hplain s.queued s.inFlight .keep
      | some d =>
          dsimp only [Option.bind_some]
          cases outcomeUpdates config.runtime outcome d.attempt with
          | none => exact hplain s.queued (s.inFlight.eraseIdx i) .keep
          | some updates => exact hplain s.queued (s.inFlight.eraseIdx i) (.write _ _)
  | crashed i => exact hplain s.queued (s.inFlight.eraseIdx i) .keep
  | restart => simp [restarts] at h

end Coordinator

theorem Node.hasStatus_inj {n : Node F} {a b : String} (ha : n.hasStatus a = true)
    (hb : n.hasStatus b = true) : a = b := by
  rw [hasStatus, beq_iff_eq] at ha hb
  exact Option.some.inj (ha.symm.trans hb)

namespace IdeaTree

def status (t : IdeaTree F) (x : String) : Option (Json F) := (t.getNode x).map (·.status)

def hasStatus (t : IdeaTree F) (x status : String) : Bool := (t.getNode x).any (·.hasStatus status)

variable {t : IdeaTree F}

theorem hasStatus_eq (t : IdeaTree F) (x status : String) :
    t.hasStatus x status = (t.status x).any (·.str? == some status) := by
  rw [hasStatus, IdeaTree.status]
  cases t.getNode x <;> rfl

theorem mem_ids_of_hasStatus {x status : String} (h : t.hasStatus x status = true) : x ∈ t.ids := by
  rw [hasStatus, Option.any_eq_true] at h
  obtain ⟨n, hn, -⟩ := h
  exact mem_ids_iff.mpr ⟨n, hn⟩

theorem getNode_updateNode (t : IdeaTree F) (id : String) (updates : List (String × Json F))
    (x : String) : (t.updateNode id updates).1.getNode x =
      if x = id then (t.getNode x).map fun n => (n.setFields updates).1 else t.getNode x := by
  rw [updateNode]
  cases hn : t.getNode id with
  | none =>
      dsimp only
      split_ifs with hx
      · rw [hx, hn]
        rfl
      · rfl
  | some n => exact getNode_modifyNode t id _ x

theorem status_modifyNode (t : IdeaTree F) (id : String) (f : Node F → Node F) (x : String) :
    (t.modifyNode id f).status x =
      if x = id then (t.getNode x).map fun n => (f n).status else t.status x := by
  rw [status, getNode_modifyNode]
  split_ifs
  · rw [Option.map_map]
    rfl
  · rfl

theorem status_pruneFrom (target : String) (note : Option String) (fuel : Nat) (t : IdeaTree F)
    (id x : String) : (pruneFrom target note fuel t id).status x =
      if x ∈ t.links.subtree fuel id then (t.status x).map fun _ => .str "pruned"
      else t.status x := by
  induction fuel generalizing t id with
  | zero => simp [pruneFrom, LinkedTree.Links.subtree]
  | succ fuel ih =>
      rw [pruneFrom, LinkedTree.Links.subtree]
      cases hn : t.getNode id with
      | none =>
          have hchildren : t.links.children id = [] := by simp [links, hn]
          simp only [hchildren, List.flatMap_nil, List.mem_singleton]
          split_ifs with hx
          · rw [hx, status, hn]
            rfl
          · rfl
      | some n =>
          have hchildren : t.links.children id = n.childrenIds := by simp [links, hn]
          have hfold : ∀ (cs : List String) (t' : IdeaTree F), t'.links = t.links →
              (cs.foldl (pruneFrom target note fuel) t').status x =
                if x ∈ cs.flatMap (t.links.subtree fuel) then (t'.status x).map fun _ => .str "pruned"
                else t'.status x := by
            intro cs
            induction cs with
            | nil => simp
            | cons c cs ihc =>
                intro t' ht'
                rw [List.foldl_cons, ihc _ ((refills_pruneFrom target note fuel t' c).links.trans ht'),
                  ih t' c, ht']
                simp only [List.flatMap_cons, List.mem_append]
                by_cases h₁ : x ∈ t.links.subtree fuel c <;>
                  by_cases h₂ : x ∈ cs.flatMap (t.links.subtree fuel) <;>
                  simp [h₁, h₂, Option.map_map, Function.comp_def]
          dsimp only
          rw [hfold _ _ (links_modifyNode t id (keepsLinks_markPruned _)), hchildren,
            status_modifyNode]
          simp only [List.mem_cons]
          by_cases hx : x = id
          · simp [hx, status, hn, markPruned]
          · simp [hx]

theorem status_updateNode (t : IdeaTree F) (id : String) (updates : List (String × Json F))
    (x : String) : (t.updateNode id updates).1.status x =
      if x = id then (t.getNode x).map fun n => (n.setFields updates).1.status else t.status x := by
  rw [status, getNode_updateNode]
  split_ifs
  · rw [Option.map_map]
    rfl
  · rfl

theorem hasStatus_inj {x a b : String} (ha : t.hasStatus x a = true) (hb : t.hasStatus x b = true) :
    a = b := by
  rw [hasStatus] at ha hb
  cases hn : t.getNode x with
  | none => simp [hn] at ha
  | some n =>
      rw [hn] at ha hb
      exact Node.hasStatus_inj ha hb

theorem hasStatus_write {updates : List (String × Json F)} {v : String}
    (hv : ∀ n : Node F, (n.setFields updates).1.status = .str v) (t : IdeaTree F) (id x st : String) :
    (t.updateNode id updates).1.hasStatus x st =
      if x = id then decide (x ∈ t.ids) && v == st else t.hasStatus x st := by
  rw [hasStatus, getNode_updateNode]
  split_ifs
  · cases hn : t.getNode x with
    | none =>
        have hx : x ∉ t.ids := by simp [mem_ids_iff, hn]
        simp [hx]
    | some n =>
        have hx : x ∈ t.ids := mem_ids_iff.mpr ⟨n, hn⟩
        simp only [Option.map_some, Option.any_some, Node.hasStatus, hv, hx]
        simp [Json.str?]
  · rfl

structure Proposed (t : IdeaTree F) (node : Node F) (parentId : String) (parent : Node F) : Prop where
  under : node.parentId = some parentId
  found : t.getNode parentId = some parent
  fresh : node.id ∉ t.ids
  unlisted : node.id ∉ parent.childrenIds
  childless : node.childrenIds = []
  depth : node.depth = parent.depth + 1
  pending : node.status = .str "pending"

theorem Inv.proposed {config : CoordinatorConfig F} (h : t.Inv config) {parentId : String}
    {hypothesis : Json F} {reply : Option String} {node : Node F}
    (hnode : proposedNode config t parentId hypothesis reply = some node) :
    ∃ parent, Proposed t node parentId parent := by
  obtain ⟨parent, hparent, hnode⟩ := Option.bind_eq_some_iff.mp hnode
  split_ifs at hnode
  obtain ⟨revised, -, hnode⟩ := Option.bind_eq_some_iff.mp hnode
  obtain ⟨id, hid, rfl⟩ := Option.map_eq_some_iff.mp hnode
  have hfresh := h.nextChildId_notMem hid
  refine ⟨parent, rfl, hparent, hfresh, fun hc => hfresh ?_, rfl, rfl, rfl⟩
  exact (h.linked.child parentId (mem_ids_iff.mpr ⟨parent, hparent⟩) id
    (by simpa [links, hparent] using hc)).1

end IdeaTree

def TreeOp.Legal (t : IdeaTree F) : TreeOp F → Prop
  | .add node => ∃ parentId parent, t.Proposed node parentId parent
  | .write _ updates => ∀ u ∈ updates, u.2.wf = true
  | _ => True

namespace IdeaTree

variable {t : IdeaTree F}

theorem Proposed.links {node parent : Node F} {parentId : String}
    (h : Proposed t node parentId parent) :
    (t.addNode node).1.links = t.links.addLeaf node.id parentId :=
  links_addNode h.fresh h.under (mem_ids_iff.mpr ⟨parent, h.found⟩) h.childless
    (by simp [IdeaTree.links, h.found, h.depth]) (by simpa [IdeaTree.links, h.found] using h.unlisted)

theorem Proposed.ids {node parent : Node F} {parentId : String}
    (h : Proposed t node parentId parent) : (t.addNode node).1.ids = t.ids ++ [node.id] :=
  ids_addNode h.fresh h.under (mem_ids_iff.mpr ⟨parent, h.found⟩)

theorem Proposed.hasStatus {node parent : Node F} {parentId : String}
    (h : Proposed t node parentId parent) (x st : String) : (t.addNode node).1.hasStatus x st =
      if x = node.id then "pending" == st else t.hasStatus x st := by
  rw [IdeaTree.hasStatus, getNode_addNode h.fresh h.under h.found h.unlisted]
  split_ifs with hx hx'
  · simp [Node.hasStatus, h.pending, Json.str?]
  · simp [IdeaTree.hasStatus, hx', h.found, Node.hasStatus]
  · rfl

theorem status_setFields {updates : List (String × Json F)} (h : ∀ u ∈ updates, u.1 ≠ "status")
    (n : Node F) : (n.setFields updates).1.status = n.status := by
  induction updates generalizing n with
  | nil => rfl
  | cons u updates ih =>
      obtain ⟨hu, h⟩ := List.forall_mem_cons.mp h
      rw [Node.setFields]
      cases hs : n.setField u.1 u.2 with
      | none => rfl
      | some n' =>
          have hn' := (Node.setField_eq_some hs).status
          rw [if_neg hu] at hn'
          exact (ih h n').trans hn'

theorem hasStatus_note {updates : List (String × Json F)} (h : ∀ u ∈ updates, u.1 ≠ "status")
    (t : IdeaTree F) (id x st : String) :
    (t.updateNode id updates).1.hasStatus x st = t.hasStatus x st := by
  rw [hasStatus, getNode_updateNode]
  split_ifs
  · rw [hasStatus, Option.any_map]
    congr 1
    funext n
    exact congrArg (·.str? == some st) (status_setFields h n)
  · rfl

theorem hasStatus_pruneNode (rt : Runtime F) (t : IdeaTree F) (id : String) (reason : Json F)
    (x : String) : (t.pruneNode rt id reason).1.hasStatus x "pruned" = true ∨
      ∀ st, (t.pruneNode rt id reason).1.hasStatus x st = t.hasStatus x st := by
  rw [pruneNode]
  split
  · exact .inr fun _ => rfl
  · split_ifs
    · by_cases hx : x = id
      · subst hx
        cases hn : t.getNode x with
        | none => exact .inr fun st => by simp [hasStatus, getNode_modifyNode, hn]
        | some n =>
            exact .inl (by simp [hasStatus, getNode_modifyNode, hn, markPruned, Node.hasStatus,
              Json.str?])
      · exact .inr fun st => by simp [hasStatus, getNode_modifyNode, hx]
    · simp only [hasStatus_eq, status_pruneFrom]
      split_ifs
      · cases hs : t.status x with
        | none => simp
        | some v => simp [Json.str?]
      · exact .inr fun _ => rfl

theorem updateNode_saved {updates : List (String × Json F)}
    (hv : ∀ n : Node F, (n.setFields updates).2 = true) {id : String} (hid : id ∈ t.ids) :
    (t.updateNode id updates).2 = true := by
  obtain ⟨n, hn⟩ := mem_ids_iff.mp hid
  rw [updateNode, hn]
  exact hv n

theorem hasStatus_of_mem (h : t.Storable) {p : String × Node F} (hp : p ∈ t.nodes) (st : String) :
    t.hasStatus p.2.id st = p.2.hasStatus st := by
  rw [hasStatus, h.keyed p hp, getNode_of_mem h.nodup hp]
  rfl

theorem hasStatus_normalize (rt : Runtime F) (t : IdeaTree F) (x st : String) :
    (t.normalize rt).hasStatus x st = t.hasStatus x st := by
  rw [hasStatus, getNode_normalize, Option.any_map]
  rfl

end IdeaTree

namespace Coordinator

variable {config : CoordinatorConfig F} {s : Coordinator F} {P : IdeaTree F → Prop}

theorem dispatchOf_eq_some {s : Coordinator F} {e : CoordinatorEvent F} {d : Dispatch F}
    (h : s.dispatchOf config e = some d) :
    ∃ resume, validateDispatch config.runtime s.tree d.nodeId resume = some d.attempt := by
  cases e with
  | start i =>
      obtain ⟨nodeId, -, h⟩ := Option.bind_eq_some_iff.mp h
      obtain ⟨attempt, hattempt, rfl⟩ := Option.map_eq_some_iff.mp h
      exact ⟨false, hattempt⟩
  | resumeExecutor nodeId =>
      rw [dispatchOf] at h
      split_ifs at h
      obtain ⟨attempt, hattempt, rfl⟩ := Option.map_eq_some_iff.mp h
      exact ⟨true, hattempt⟩
  | _ => simp [dispatchOf] at h

theorem restarts_iff {e : CoordinatorEvent F} : restarts e = true ↔ e = .restart := by
  cases e <;> simp [restarts]

theorem step_tree {e : CoordinatorEvent F} (he : restarts e = false) :
    (s.step config e).tree = ((s.treeOp config e).apply config.runtime s.tree).1 := by
  rw [step_eq he]
  rfl

theorem step_saved (config : CoordinatorConfig F) (s : Coordinator F) {e : CoordinatorEvent F}
    (he : restarts e = false) : (s.step config e).saved = (s.step config e).tree ∨
      (s.step config e).saved = s.saved := by
  rw [step_eq he, commit]
  dsimp only
  split_ifs
  · exact .inl rfl
  · exact .inr rfl

theorem saved_of_apply {e : CoordinatorEvent F} (he : restarts e = false)
    (h : ((s.treeOp config e).apply config.runtime s.tree).2 = true) :
    (s.step config e).saved = (s.step config e).tree := by
  rw [step_eq he, commit]
  dsimp only
  rw [if_pos h]

theorem Inv.legal (h : s.Inv config) (e : CoordinatorEvent F) :
    (s.treeOp config e).Legal s.tree := by
  have hrun : ((s.dispatchOf config e).map fun d =>
      TreeOp.write d.nodeId [("status", .str "running")]).getD .keep |>.Legal s.tree := by
    cases s.dispatchOf config e <;> simp [TreeOp.Legal, Json.wf]
  cases e with
  | addNode parentId hypothesis reply =>
      rw [treeOp]
      cases hnode : proposedNode config s.tree parentId hypothesis.1 reply with
      | none => trivial
      | some node => exact ⟨parentId, h.tree.proposed hnode⟩
  | updateNode nodeId updates =>
      simp only [treeOp]
      split_ifs
      · trivial
      · intro u hu
        obtain ⟨v, -, rfl⟩ := List.mem_map.mp (List.mem_filter.mp hu).1
        exact v.2.2
  | setMeta updates =>
      simp only [treeOp]
      split_ifs <;> trivial
  | noteInsight nodeId insight => simp [treeOp, TreeOp.Legal, Json.wf]
  | noteRelatedWork nodeId relatedWork => simp [treeOp, TreeOp.Legal, Json.wf]
  | skip i =>
      rw [treeOp]
      cases s.queued[i]? with
      | none => trivial
      | some nodeId =>
          dsimp only [Option.bind_some]
          split_ifs <;> trivial
  | worktreeFailed i error =>
      rw [treeOp]
      cases s.inFlight[i]? <;> simp [TreeOp.Legal, Json.wf]
  | finished i outcome =>
      rw [treeOp]
      cases hd : s.inFlight[i]? with
      | none => trivial
      | some d =>
          dsimp only [Option.bind_some]
          cases hupdates : outcomeUpdates config.runtime outcome d.attempt with
          | none => trivial
          | some updates =>
              exact wf_outcomeUpdates (h.attempts d (List.mem_of_getElem? hd)) hupdates
  | prune nodeId reason => trivial
  | setMedal medal => trivial
  | _ => exact hrun

theorem Inv.apply_frame (h : s.Inv config) (e : CoordinatorEvent F) :
    ((s.treeOp config e).apply config.runtime s.tree).1.rootId = s.tree.rootId ∧
      s.tree.ids ⊆ ((s.treeOp config e).apply config.runtime s.tree).1.ids := by
  have hlegal := h.legal e
  cases hop : s.treeOp config e with
  | keep => exact ⟨rfl, List.Subset.refl _⟩
  | add node =>
      rw [hop] at hlegal
      obtain ⟨parentId, parent, hnode⟩ := hlegal
      refine ⟨(IdeaTree.addNode_frame s.tree node).1, ?_⟩
      rw [TreeOp.apply, hnode.ids]
      exact List.subset_append_left _ _
  | write nodeId updates =>
      rw [hop] at hlegal
      have hr := IdeaTree.refills_updateNode s.tree nodeId hlegal
      exact ⟨hr.rootId, fun x hx => hr.ids.symm ▸ hx⟩
  | prune nodeId reason =>
      have hr := IdeaTree.refills_pruneNode config.runtime s.tree nodeId reason
      exact ⟨hr.rootId, fun x hx => hr.ids.symm ▸ hx⟩
  | setMeta metadata saved => exact ⟨rfl, List.Subset.refl _⟩

/-- Where a write to a node comes from. -/
inductive Writes (config : CoordinatorConfig F) (s : Coordinator F) (e : CoordinatorEvent F)
    (nodeId : String) (updates : List (String × Json F)) : Prop
  | tool (us : List (String × Value F)) (he : e = .updateNode nodeId us)
      (hu : ∀ u ∈ updates, ∃ v ∈ us, u.1 = v.1)
  | note (h : ∀ u ∈ updates, u.1 ≠ "status")
  | start (d : Dispatch F) (hd : s.dispatchOf config e = some d) (hid : d.nodeId = nodeId)
      (hu : updates = [("status", .str "running")])
  | failed (i : Nat) (error : String) (he : e = .worktreeFailed i error) (d : Dispatch F)
      (hd : s.inFlight[i]? = some d) (hid : d.nodeId = nodeId)
      (hv : ∀ n : Node F, (n.setFields updates).1.status = .str "pending")
  | finished (i : Nat) (outcome : Outcome F) (he : e = .finished i outcome) (d : Dispatch F)
      (hd : s.inFlight[i]? = some d) (hid : d.nodeId = nodeId) (status : String)
      (hst : status = "done" ∨ status = "needs_retry")
      (hv : ∀ n : Node F, (n.setFields updates).1.status = .str status)

theorem classifyExecutorOutcome_cases (score evalStatus : Json F) (stopReason : Option String)
    (rawReport : String) : classifyExecutorOutcome score evalStatus stopReason rawReport = "done" ∨
      classifyExecutorOutcome score evalStatus stopReason rawReport = "needs_retry" := by
  rw [classifyExecutorOutcome]
  split_ifs <;> simp

theorem outcomeUpdates_status {rt : Runtime F} {o : Outcome F} {attempt : Json F}
    {updates : List (String × Json F)} (h : outcomeUpdates rt o attempt = some updates) :
    ∃ status, (status = "done" ∨ status = "needs_retry") ∧
      ∀ n : Node F, (n.setFields updates).1.status = .str status ∧ (n.setFields updates).2 = true := by
  obtain ⟨parsed, -, rfl⟩ := Option.map_eq_some_iff.mp h
  exact ⟨_, classifyExecutorOutcome_cases _ _ o.stopReason o.rawReport, fun n => ⟨rfl, rfl⟩⟩

theorem writes_of_treeOp {e : CoordinatorEvent F} {nodeId : String}
    {updates : List (String × Json F)} (h : s.treeOp config e = .write nodeId updates) :
    s.Writes config e nodeId updates := by
  have hrun : ((s.dispatchOf config e).map fun d =>
      TreeOp.write d.nodeId [("status", .str "running")]).getD .keep = .write nodeId updates →
      s.Writes config e nodeId updates := by
    intro h
    cases hd : s.dispatchOf config e with
    | none => simp [hd] at h
    | some d =>
        rw [hd] at h
        obtain ⟨rfl, rfl⟩ := TreeOp.write.inj h
        exact .start d hd rfl rfl
  cases e with
  | addNode parentId hypothesis reply =>
      rw [treeOp] at h
      cases hnode : proposedNode config s.tree parentId hypothesis.1 reply <;> simp [hnode] at h
  | updateNode id us =>
      simp only [treeOp] at h
      split_ifs at h
      obtain ⟨rfl, rfl⟩ := TreeOp.write.inj h
      refine .tool us rfl fun u hu => ?_
      obtain ⟨v, hv, rfl⟩ := List.mem_map.mp (List.mem_filter.mp hu).1
      exact ⟨v, hv, rfl⟩
  | setMeta us =>
      simp only [treeOp] at h
      split_ifs at h
  | noteInsight id insight =>
      obtain ⟨rfl, rfl⟩ := TreeOp.write.inj h
      exact .note (by simp)
  | noteRelatedWork id relatedWork =>
      obtain ⟨rfl, rfl⟩ := TreeOp.write.inj h
      exact .note (by simp)
  | skip i =>
      rw [treeOp] at h
      cases hq : s.queued[i]? with
      | none => simp [hq] at h
      | some id =>
          simp only [hq, Option.bind_some] at h
          split_ifs at h <;> simp at h
  | worktreeFailed i error =>
      rw [treeOp] at h
      cases hd : s.inFlight[i]? with
      | none => simp [hd] at h
      | some d =>
          rw [hd] at h
          obtain ⟨rfl, rfl⟩ := TreeOp.write.inj h
          exact .failed i error rfl d hd rfl fun n => rfl
  | finished i outcome =>
      rw [treeOp] at h
      cases hd : s.inFlight[i]? with
      | none => simp [hd] at h
      | some d =>
          rw [hd, Option.bind_some] at h
          cases hu : outcomeUpdates config.runtime outcome d.attempt with
          | none => simp [hu] at h
          | some us =>
              rw [hu] at h
              obtain ⟨rfl, rfl⟩ := TreeOp.write.inj h
              obtain ⟨status, hst, hv⟩ := outcomeUpdates_status hu
              exact .finished i outcome rfl d hd rfl status hst fun n => (hv n).1
  | prune id reason => simp [treeOp] at h
  | setMedal medal => simp [treeOp] at h
  | _ => exact hrun h

theorem setMeta_of_treeOp {e : CoordinatorEvent F} {ms : Members F} {saved : Bool}
    (h : s.treeOp config e = .setMeta ms saved) :
    (∃ us, e = .setMeta us) ∨ ∃ medal, e = .setMedal medal := by
  have hgetD : ∀ o : Option (TreeOp F), (∀ op ∈ o, op ≠ .setMeta ms saved) →
      o.getD .keep ≠ .setMeta ms saved := by
    intro o ho
    cases o with
    | none => simp
    | some op => exact ho op rfl
  have hrun : ((s.dispatchOf config e).map fun d =>
      TreeOp.write d.nodeId [("status", .str "running")]).getD .keep ≠ .setMeta ms saved := by
    refine hgetD _ fun op hop => ?_
    obtain ⟨d, -, rfl⟩ := Option.map_eq_some_iff.mp hop
    simp
  cases e with
  | setMeta us => exact .inl ⟨us, rfl⟩
  | setMedal medal => exact .inr ⟨medal, rfl⟩
  | updateNode id us =>
      simp only [treeOp] at h
      split_ifs at h
  | prune id reason => simp [treeOp] at h
  | noteInsight id insight => simp [treeOp] at h
  | noteRelatedWork id relatedWork => simp [treeOp] at h
  | addNode parentId hypothesis reply =>
      refine absurd h (hgetD _ fun op hop => ?_)
      obtain ⟨node, -, rfl⟩ := Option.map_eq_some_iff.mp hop
      simp
  | skip i =>
      refine absurd h (hgetD _ fun op hop => ?_)
      obtain ⟨id, -, hop⟩ := Option.bind_eq_some_iff.mp hop
      split_ifs at hop
      obtain rfl := Option.some.inj hop
      simp
  | worktreeFailed i error =>
      refine absurd h (hgetD _ fun op hop => ?_)
      obtain ⟨d, -, rfl⟩ := Option.map_eq_some_iff.mp hop
      simp
  | finished i outcome =>
      refine absurd h (hgetD _ fun op hop => ?_)
      obtain ⟨d, -, hop⟩ := Option.bind_eq_some_iff.mp hop
      obtain ⟨updates, -, rfl⟩ := Option.map_eq_some_iff.mp hop
      simp
  | _ => exact absurd h hrun

theorem metadata_apply (h : s.Inv config) (e : CoordinatorEvent F)
    (hop : ∀ ms saved, s.treeOp config e ≠ .setMeta ms saved) :
    ((s.treeOp config e).apply config.runtime s.tree).1.metadata = s.tree.metadata := by
  have hlegal := h.legal e
  cases hop' : s.treeOp config e with
  | keep => rfl
  | add node => exact (IdeaTree.addNode_frame _ node).2.2
  | write nodeId updates =>
      rw [hop'] at hlegal
      exact (IdeaTree.refills_updateNode _ nodeId hlegal).metadata
  | prune nodeId reason => exact (IdeaTree.refills_pruneNode config.runtime _ nodeId reason).metadata
  | setMeta metadata saved => exact absurd hop' (hop metadata saved)

theorem lookup_foldl_insert {key : String} {updates : List (String × Value F)}
    (h : ∀ u ∈ updates, u.1 ≠ key) (ms : Members F) :
    (updates.foldl (fun ms u => Members.insert u.1 u.2.1 ms) ms).lookup key = ms.lookup key := by
  induction updates generalizing ms with
  | nil => rfl
  | cons u updates ih =>
      obtain ⟨hu, h⟩ := List.forall_mem_cons.mp h
      rw [List.foldl_cons, ih h, Members.lookup_insert_ne hu.symm]

theorem lookup_metadata_step (h : s.Inv config) {e : CoordinatorEvent F} (he : restarts e = false)
    {key : String}
    (hmeta : ∀ us, e = .setMeta us → ∀ u ∈ us, u.1 ∈ metaKeys → u.1 ≠ key)
    (hmedal : ∀ medal, e = .setMedal medal → key ≠ "achieved_medal") :
    (s.step config e).tree.metadata.lookup key = s.tree.metadata.lookup key := by
  cases e with
  | setMeta us =>
      simp only [step]
      split_ifs
      · rfl
      · apply lookup_foldl_insert
        intro u hu
        obtain ⟨hmem, hkey⟩ := List.mem_filter.mp hu
        exact hmeta us rfl u hmem (of_decide_eq_true hkey)
  | setMedal medal => exact Members.lookup_insert_ne (hmedal medal rfl) _ _
  | _ =>
      rw [step_tree he, metadata_apply h]
      intro ms saved hop
      rcases setMeta_of_treeOp hop with ⟨us, heq⟩ | ⟨medal, heq⟩ <;> cases heq

def Requeues (t : IdeaTree F) (id : String) : Prop :=
  t.hasStatus id "running" = true ∨ t.hasStatus id "pending" = true

theorem Requeues.write {t : IdeaTree F} {x : String} (h : Requeues t x) (id : String) :
    Requeues (t.updateNode id [("status", .str "pending")]).1 x := by
  have hids : x ∈ t.ids := h.elim IdeaTree.mem_ids_of_hasStatus IdeaTree.mem_ids_of_hasStatus
  have hwrite : ∀ st, (t.updateNode id [("status", .str "pending")]).1.hasStatus x st =
      if x = id then decide (x ∈ t.ids) && "pending" == st else t.hasStatus x st :=
    IdeaTree.hasStatus_write (fun n => rfl) t id x
  by_cases hx : x = id
  · refine .inr ((hwrite "pending").trans ?_)
    simp [hx, hx ▸ hids]
  · simpa [Requeues, hwrite, hx] using h

theorem Requeues.hasStatus_write {t : IdeaTree F} {id : String} (h : Requeues t id) (x : String)
    {st : String} (hr : st ≠ "running") (hp : st ≠ "pending") :
    (t.updateNode id [("status", .str "pending")]).1.hasStatus x st = t.hasStatus x st := by
  rw [IdeaTree.hasStatus_write (v := "pending") fun n => rfl]
  split_ifs with hx
  · have hnot : t.hasStatus x st = false := by
      rw [← hx] at h
      by_contra hst
      rcases h with h | h
      · exact hr (IdeaTree.hasStatus_inj (by simpa using hst) h)
      · exact hp (IdeaTree.hasStatus_inj (by simpa using hst) h)
    simp [hnot, hp.symm]
  · rfl

theorem requeue_invariant (hwrite : ∀ t id, P t → Requeues t id →
      P (t.updateNode id [("status", .str "pending")]).1) {ids : List String}
    (htree : P s.tree) (hsaved : P s.saved) (hids : ∀ id ∈ ids, Requeues s.tree id) :
    P (s.requeue ids).tree ∧ P (s.requeue ids).saved := by
  induction ids generalizing s with
  | nil => exact ⟨htree, hsaved⟩
  | cons id ids ih =>
      have ht := hwrite s.tree id htree (hids id List.mem_cons_self)
      apply ih (s := s.commit (s.tree.updateNode id [("status", .str "pending")])) ht
      · rw [commit]
        dsimp only
        split_ifs
        · exact ht
        · exact hsaved
      · exact fun x hx => (hids x (List.mem_cons_of_mem _ hx)).write id

theorem restart_invariant (h : s.Inv config)
    (hload : ∀ t maxDepth, P t → P { t.normalize config.runtime with maxDepth })
    (hwrite : ∀ t id, P t → Requeues t id → P (t.updateNode id [("status", .str "pending")]).1)
    (hsaved : P s.saved) :
    P (s.step config .restart).tree ∧ P (s.step config .restart).saved := by
  rw [step, h.loadJson_saved]
  refine requeue_invariant (s := ⟨_, s.saved, [], []⟩) hwrite (hload _ _ hsaved) hsaved ?_
  intro id hid
  obtain ⟨p, hp, rfl⟩ := List.mem_map.mp hid
  obtain ⟨hmem, hrunning⟩ := List.mem_filter.mp hp
  have hloaded := h.saved.refill (IdeaTree.refills_normalize config.runtime s.saved)
  have hstatus := IdeaTree.hasStatus_of_mem hloaded.storable hmem "running"
  exact .inl (hstatus.trans hrunning)

theorem requeue_flight (s : Coordinator F) (ids : List String) :
    (s.requeue ids).queued = s.queued ∧ (s.requeue ids).inFlight = s.inFlight := by
  rw [requeue]
  induction ids generalizing s with
  | nil => exact ⟨rfl, rfl⟩
  | cons id ids ih => exact ih _

theorem restart_flight (h : s.Inv config) : (s.step config .restart).queued = [] ∧
    (s.step config .restart).inFlight = [] := by
  rw [step, h.loadJson_saved]
  exact requeue_flight _ _

end Coordinator

end DevPilot
