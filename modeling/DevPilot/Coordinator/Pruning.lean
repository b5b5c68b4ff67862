import DevPilot.Coordinator.Effects

/-!
Nothing below a pruned node is anything but pruned: which steps of the
coordinator keep this, and what it means for the nodes that are dispatched.
-/

namespace DevPilot

open PyJson LinkedTree Runs

variable {F : Type}

namespace IdeaTree

def isPruned (t : IdeaTree F) (x : String) : Bool := t.hasStatus x "pruned"

def PrunedBelow (t : IdeaTree F) : Prop :=
  ∀ x ∈ t.ids, ∀ a, t.links.Below x a → t.isPruned a = true → t.isPruned x = true

/-- Whether a node may be pruned, with what lies below it left alone, or may
not be. -/
def FitsPruned (t : IdeaTree F) (id : String) (pruned : Bool) : Prop :=
  if pruned then ∀ x ∈ t.ids, t.links.parent x = some id → t.isPruned x = true
  else ∀ p, t.links.parent id = some p → t.isPruned p = false

/-- Pruning with a reason raises where the insight is no text. -/
def pruneRaises (rt : Runtime F) (reason : Json F) (n : Node F) : Bool :=
  (pruneNote rt reason).isSome && n.insight.str?.isNone

variable {t t' : IdeaTree F} {config : CoordinatorConfig F}

theorem mem_ids_of_parent {x p : String} (h : t.links.parent x = some p) : x ∈ t.ids := by
  obtain ⟨n, hn, -⟩ := Option.bind_eq_some_iff.mp h
  exact mem_ids_iff.mpr ⟨n, hn⟩

theorem prunedBelow_iff (h : t.links.WellFormed "ROOT") : t.PrunedBelow ↔
    ∀ x ∈ t.ids, ∀ p, t.links.parent x = some p → t.isPruned p = true → t.isPruned x = true :=
  (h.closed_iff (t.isPruned · = true)).symm

theorem PrunedBelow.congr (h : t.PrunedBelow) (hlinks : t'.links = t.links)
    (hpruned : ∀ x, t'.isPruned x = t.isPruned x) : t'.PrunedBelow := by
  have hids : t'.ids = t.ids := congrArg Links.ids hlinks
  intro x hx a hb ha
  rw [hpruned] at ha ⊢
  rw [hids] at hx
  rw [hlinks] at hb
  exact h x hx a hb ha

theorem prunedBelow_write_iff (h : t.links.WellFormed "ROOT") (hclosed : t.PrunedBelow)
    (hlinks : t'.links = t.links) {id : String} {pruned : Bool} (hid : t'.isPruned id = pruned)
    (hother : ∀ x, x ≠ id → t'.isPruned x = t.isPruned x) :
    t'.PrunedBelow ↔ t.FitsPruned id pruned := by
  have hids : t'.ids = t.ids := congrArg Links.ids hlinks
  have hne : ∀ {x p}, x ∈ t.ids → t.links.parent x = some p → x ≠ p := by
    rintro x p hx hp rfl
    exact h.acyclic hx (.single hp)
  rw [prunedBelow_iff h] at hclosed
  rw [prunedBelow_iff (hlinks ▸ h), hids, hlinks]
  constructor
  · intro hclosed'
    cases hp : pruned with
    | true =>
        simp only [FitsPruned, if_true]
        intro x hx hpar
        rw [← hother x (hne hx hpar)]
        exact hclosed' x hx id hpar (hid.trans hp)
    | false =>
        simp only [FitsPruned, Bool.false_eq_true, if_false]
        intro p hpar
        have hx : id ∈ t.ids := mem_ids_of_parent hpar
        by_contra hpruned
        have hp' : t'.isPruned p = true := by
          rw [hother p (hne hx hpar).symm]
          simpa using hpruned
        have := hclosed' id hx p hpar hp'
        simp [hid, hp] at this
  · intro hfits x hx p hpar hp
    by_cases hpid : p = id
    · subst hpid
      rw [hid] at hp
      simp only [FitsPruned, hp, if_true] at hfits
      rw [hother x (hne hx hpar)]
      exact hfits x hx hpar
    · rw [hother p hpid] at hp
      by_cases hxid : x = id
      · subst hxid
        rw [hid]
        by_contra hnot
        simp only [FitsPruned, hnot, if_false] at hfits
        simp [hfits p hpar] at hp
      · rw [hother x hxid]
        exact hclosed x hx p hpar hp

theorem updateNode_prunedBelow_iff (h : t.Inv config) (hclosed : t.PrunedBelow) (id : String)
    {updates : List (String × Json F)} (hu : ∀ u ∈ updates, u.2.wf = true) :
    (t.updateNode id updates).1.PrunedBelow ↔ ∀ n, t.getNode id = some n →
      t.FitsPruned id ((n.setFields updates).1.hasStatus "pruned") := by
  cases hn : t.getNode id with
  | none => simpa [updateNode, hn] using hclosed
  | some n =>
      simp only [Option.some.injEq, forall_eq']
      apply prunedBelow_write_iff h.linked hclosed (refills_updateNode t id hu).links
      · simp [isPruned, hasStatus, getNode_updateNode, hn]
      · intro x hx
        rw [isPruned, isPruned, hasStatus, hasStatus, getNode_updateNode, if_neg hx]

theorem pruneFrom_prunedBelow (h : t.Inv config) (hclosed : t.PrunedBelow) {id : String}
    (hid : id ∈ t.ids) (note : Option String) :
    (pruneFrom id note t.nodes.length t id).PrunedBelow := by
  have hlinks := (refills_pruneFrom id note t.nodes.length t id).links
  have hids : (pruneFrom id note t.nodes.length t id).ids = t.ids := congrArg Links.ids hlinks
  have hlen : t.links.ids.length = t.nodes.length := List.length_map _
  have hpruned : ∀ x ∈ t.ids, (pruneFrom id note t.nodes.length t id).isPruned x = true ↔
      (x = id ∨ t.links.Below x id) ∨ t.isPruned x = true := by
    intro x hx
    have hmem := h.linked.mem_subtree_iff hid hx
    rw [hlen] at hmem
    rw [isPruned, hasStatus_eq, status_pruneFrom, ← hmem]
    obtain ⟨n, hn⟩ := mem_ids_iff.mp hx
    split_ifs with hsub
    · simp [hsub, status, hn, Json.str?]
    · simp [hsub, isPruned, hasStatus_eq]
  intro x hx a hb ha
  rw [hids] at hx
  rw [hlinks] at hb
  rw [hpruned x hx]
  rcases (hpruned a (h.linked.of_below hx hb).1).mp ha with (rfl | habove) | ha
  · exact .inl (.inr hb)
  · exact .inl (.inr (hb.trans habove))
  · exact .inr (hclosed x hx a hb ha)

theorem pruneNode_of_some {id : String} {n : Node F} (hn : t.getNode id = some n) (rt : Runtime F)
    (reason : Json F) : t.pruneNode rt id reason =
      if pruneRaises rt reason n then (t.modifyNode id (markPruned none), false)
      else (pruneFrom id (pruneNote rt reason) t.nodes.length t id, true) := by
  rw [pruneNode, hn]
  rfl

theorem pruneNode_prunedBelow_iff (h : t.Inv config) (hclosed : t.PrunedBelow) (id : String)
    (rt : Runtime F) (reason : Json F) :
    (t.pruneNode rt id reason).1.PrunedBelow ↔ ∀ n, t.getNode id = some n →
      pruneRaises rt reason n = true → t.FitsPruned id true := by
  cases hn : t.getNode id with
  | none => simpa [pruneNode, hn] using hclosed
  | some n =>
      rw [pruneNode_of_some hn]
      simp only [Option.some.injEq, forall_eq']
      by_cases hr : pruneRaises rt reason n = true
      · rw [if_pos hr]
        simp only [hr, forall_const]
        apply prunedBelow_write_iff h.linked hclosed (links_modifyNode t id (keepsLinks_markPruned _))
        · simp [isPruned, hasStatus, getNode_modifyNode, hn, markPruned, Node.hasStatus, Json.str?]
        · intro x hx
          rw [isPruned, isPruned, hasStatus, hasStatus, getNode_modifyNode, if_neg hx]
      · rw [if_neg hr]
        have hgood := pruneFrom_prunedBelow h hclosed (mem_ids_iff.mpr ⟨n, hn⟩) (pruneNote rt reason)
        simpa [hr] using hgood

theorem addNode_prunedBelow_iff (h : t.Inv config) (hclosed : t.PrunedBelow) {parentId : String}
    {node parent : Node F} (hnode : Proposed t node parentId parent) :
    (t.addNode node).1.PrunedBelow ↔ t.isPruned parentId = false := by
  have hparent : parentId ∈ t.ids := mem_ids_iff.mpr ⟨parent, hnode.found⟩
  have hne : ∀ {x}, x ∈ t.ids → x ≠ node.id := fun hx he => hnode.fresh (he ▸ hx)
  have hlinked := h.linked.addLeaf hnode.fresh hparent
  have hpruned : ∀ x, (t.addNode node).1.isPruned x =
      if x = node.id then false else t.isPruned x := fun x => hnode.hasStatus x "pruned"
  have hids : (t.addNode node).1.ids = t.ids ++ [node.id] := congrArg Links.ids hnode.links
  have hpar : ∀ x, (t.addNode node).1.links.parent x =
      if x = node.id then some parentId else t.links.parent x := by
    intro x
    rw [hnode.links]
    exact Function.update_apply t.links.parent node.id (some parentId) x
  rw [prunedBelow_iff h.linked] at hclosed
  rw [prunedBelow_iff (hnode.links ▸ hlinked)]
  constructor
  · intro hclosed'
    have := hclosed' node.id (by simp [hids]) parentId (by simp [hpar])
    simpa [hpruned, hne hparent] using this
  · intro hp x hx p hpx
    rw [hpar] at hpx
    rw [hpruned, hpruned]
    split_ifs at hpx with hxid
    · obtain rfl := Option.some.inj hpx
      simp [hne hparent, hp]
    · have hxt : x ∈ t.ids := mem_ids_of_parent hpx
      rw [if_neg hxid, if_neg (hne (h.linked.of_parent hxt hpx).1)]
      exact hclosed x hxt p hpx

end IdeaTree

def TreeOp.FitsPruned (rt : Runtime F) (t : IdeaTree F) : TreeOp F → Prop
  | .keep => True
  | .add node => ∀ p, node.parentId = some p → t.isPruned p = false
  | .write id updates => ∀ n, t.getNode id = some n →
      t.FitsPruned id ((n.setFields updates).1.hasStatus "pruned")
  | .prune id reason => ∀ n, t.getNode id = some n →
      IdeaTree.pruneRaises rt reason n = true → t.FitsPruned id true
  | .setMeta _ _ => True

namespace Coordinator

variable {config : CoordinatorConfig F}

/-- What lies below a pruned node is pruned after the step, and an executor is
started for no node that is pruned or lies below a pruned one. -/
def PrunesAt (config : CoordinatorConfig F) (s : Coordinator F) (e : CoordinatorEvent F) : Prop :=
  (s.step config e).tree.PrunedBelow ∧
    ∀ d, s.dispatchOf config e = some d → s.tree.isPruned d.nodeId = false ∧
      ∀ a, s.tree.links.Below d.nodeId a → s.tree.isPruned a = false

def FitsPrunedAt (config : CoordinatorConfig F) (s : Coordinator F) (e : CoordinatorEvent F) : Prop :=
  (s.treeOp config e).FitsPruned config.runtime s.tree

structure PrunedInv (config : CoordinatorConfig F) (s : Coordinator F) : Prop where
  inv : s.Inv config
  tree : s.tree.PrunedBelow
  saved : s.saved.PrunedBelow

variable {s : Coordinator F}

theorem PrunedInv.dispatch (h : s.PrunedInv config) {e : CoordinatorEvent F} {d : Dispatch F}
    (hd : s.dispatchOf config e = some d) : s.tree.isPruned d.nodeId = false ∧
      ∀ a, s.tree.links.Below d.nodeId a → s.tree.isPruned a = false := by
  obtain ⟨resume, hvalid⟩ := dispatchOf_eq_some hd
  obtain ⟨node, hnode, hstatus, -⟩ := validateDispatch_eq_some hvalid
  have hid : d.nodeId ∈ s.tree.ids := IdeaTree.mem_ids_iff.mpr ⟨node, hnode⟩
  have hnot : s.tree.isPruned d.nodeId = false := by
    obtain ⟨st, hst, hnode'⟩ := List.any_eq_true.mp hstatus
    by_contra hpruned
    rw [IdeaTree.isPruned, IdeaTree.hasStatus, hnode] at hpruned
    obtain rfl := Node.hasStatus_inj hnode' (by simpa using hpruned)
    simp at hst
  refine ⟨hnot, fun a ha => ?_⟩
  by_contra hp
  simp [h.tree d.nodeId hid a ha (by simpa using hp)] at hnot

theorem PrunedInv.restart (h : s.PrunedInv config) :
    (s.step config .restart).tree.PrunedBelow ∧ (s.step config .restart).saved.PrunedBelow := by
  apply restart_invariant h.inv
  · intro t maxDepth ht
    exact ht.congr (IdeaTree.links_normalize config.runtime t)
      (IdeaTree.hasStatus_normalize config.runtime t · "pruned")
  · intro t id ht hid
    exact ht.congr (IdeaTree.refills_updateNode t id (by simp [Json.wf])).links
      fun x => hid.hasStatus_write x (by simp) (by simp)
  · exact h.saved

theorem PrunedInv.prunesAt_iff (h : s.PrunedInv config) (e : CoordinatorEvent F) :
    s.PrunesAt config e ↔ s.FitsPrunedAt config e := by
  rw [PrunesAt, and_iff_left fun d hd => h.dispatch hd]
  by_cases he : restarts e = true
  · rw [restarts_iff.mp he]
    exact iff_of_true h.restart.1 trivial
  · rw [step_tree (by simpa using he), FitsPrunedAt]
    have hlegal := h.inv.legal e
    cases hop : s.treeOp config e with
    | keep => exact iff_of_true h.tree trivial
    | add node =>
        rw [hop] at hlegal
        obtain ⟨parentId, parent, hnode⟩ := hlegal
        apply (IdeaTree.addNode_prunedBelow_iff h.inv.tree h.tree hnode).trans
        simp [TreeOp.FitsPruned, hnode.under]
    | write id updates =>
        rw [hop] at hlegal
        exact IdeaTree.updateNode_prunedBelow_iff h.inv.tree h.tree id hlegal
    | prune id reason =>
        exact IdeaTree.pruneNode_prunedBelow_iff h.inv.tree h.tree id config.runtime reason
    | setMeta metadata saved => exact iff_of_true h.tree trivial

theorem PrunedInv.step (h : s.PrunedInv config) (e : CoordinatorEvent F)
    (hfits : s.FitsPrunedAt config e) : (s.step config e).PrunedInv config := by
  have htree := ((h.prunesAt_iff e).mpr hfits).1
  refine ⟨h.inv.step e, htree, ?_⟩
  by_cases he : restarts e = true
  · rw [restarts_iff.mp he]
    exact h.restart.2
  · rcases step_saved config s (by simpa using he) with hs | hs
    · rw [hs]
      exact htree
    · rw [hs]
      exact h.saved

theorem prunedInv_fresh (config : CoordinatorConfig F) : (fresh config).PrunedInv config := by
  have hclosed : (fresh config).tree.PrunedBelow := by
    intro x hx a hb ha
    obtain ⟨hmem, hdepth⟩ := (inv_fresh config).tree.linked.of_below hx hb
    obtain rfl := List.mem_singleton.mp hx
    obtain rfl := List.mem_singleton.mp hmem
    exact absurd hdepth (lt_irrefl _)
  exact ⟨inv_fresh config, hclosed, hclosed⟩

end Coordinator

/-- Along a run what lies below a pruned node stays pruned, and no executor is
started there, if and only if nodes are added under unpruned nodes only and no
status is written against its surroundings. -/
theorem pruning_iff (config : CoordinatorConfig F) (events : List (CoordinatorEvent F)) :
    Along (Coordinator.step config) (Coordinator.PrunesAt config) (.fresh config) events ↔
      Along (Coordinator.step config) (Coordinator.FitsPrunedAt config) (.fresh config) events := by
  apply along_iff (I := Coordinator.PrunedInv config)
  · exact fun s e h => h.prunesAt_iff e
  · exact fun s e h hfits => h.step e hfits
  · exact Coordinator.prunedInv_fresh config

theorem pruning_misses_newChild :
    ¬ ∀ (config : CoordinatorConfig FloatText) (events : List (CoordinatorEvent FloatText)),
      events.all (·.keepsStatuses) →
        Along (Coordinator.step config) (Coordinator.PrunesAt config) (.fresh config) events := by
  intro h
  obtain ⟨-, -, ⟨hbelow, -⟩, -⟩ := h threeCycles
    [.addNode "ROOT" ⟨.str "idea", rfl⟩ none, .prune "1" ⟨.str "weak", rfl⟩,
      .addNode "1" ⟨.str "variant", rfl⟩ none] rfl
  have hchild := hbelow "1.1" (by decide) "1" (.single (by decide)) (by decide)
  revert hchild
  decide

end DevPilot
