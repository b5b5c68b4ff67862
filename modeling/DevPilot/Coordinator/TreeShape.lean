import DevPilot.Coordinator.Executors
import DevPilot.Coordinator.TreeLinks

/-!
The idea tree stays well formed along every run of the coordinator, and which
trees its file gives back.
-/

namespace DevPilot

open PyJson LinkedTree DottedIds Runs

variable {F : Type}

namespace IdeaTree

/-- A well-formed tree: unique ids, links that agree with each other, no
cycles, depths within the maximum, and fresh ids for new children. -/
structure Sound (config : CoordinatorConfig F) (t : IdeaTree F) : Prop where
  unique : (t.nodes.map (·.2.id)).Nodup
  linked : t.links.WellFormed t.rootId
  acyclic : ∀ x ∈ t.ids, ¬ t.links.Below x x
  bounded : ∀ m ∈ config.maxTreeDepth, ∀ x ∈ t.ids, t.links.depth x ≤ max m 0
  fresh : ∀ parentId id, t.nextChildId parentId = some id → id ∉ t.ids

structure Inv (config : CoordinatorConfig F) (t : IdeaTree F) : Prop where
  storable : t.Storable
  linked : t.links.WellFormed "ROOT"
  root : t.rootId = "ROOT"
  maxDepth : t.maxDepth = config.maxTreeDepth
  bounded : ∀ m ∈ config.maxTreeDepth, ∀ x ∈ t.ids, t.links.depth x ≤ max m 0
  named : ∀ x ∈ t.ids, ∀ p, t.links.parent x = some p → ∃ n, x = child "ROOT" p n

variable {config : CoordinatorConfig F} {t : IdeaTree F}

theorem getNode_of_mem (h : t.ids.Nodup) {p : String × Node F} (hp : p ∈ t.nodes) :
    t.getNode p.1 = some p.2 := Members.lookup_of_mem h hp

theorem Inv.nextChildId_notMem (h : t.Inv config) {parentId id : String}
    (hn : t.nextChildId parentId = some id) : id ∉ t.ids := by
  obtain ⟨parent, hget, rfl⟩ := Option.map_eq_some_iff.mp hn
  rw [h.root]
  intro hmem
  have hroot : child "ROOT" parentId (nextNumber "ROOT" parentId parent.childrenIds) ≠ "ROOT" :=
    child_ne_root (by simp) _ _
  obtain ⟨q, hq, hpar, hcount, -⟩ := h.linked.parent _ hmem hroot
  obtain ⟨n, hid⟩ := h.named _ hmem q hpar
  obtain ⟨rfl, -⟩ := child_injective hid
  apply child_nextNumber_notMem "ROOT" parentId parent.childrenIds
  have hlisted := List.count_pos_iff.mp (Nat.lt_of_lt_of_eq Nat.one_pos hcount.symm)
  simpa [links, hget] using hlisted

theorem Inv.sound (h : t.Inv config) : t.Sound config where
  unique := by
    have hids : t.nodes.map (·.2.id) = t.ids := List.map_congr_left h.storable.keyed
    exact hids ▸ h.storable.nodup
  linked := h.root.symm ▸ h.linked
  acyclic _ hx := h.linked.acyclic hx
  bounded := h.bounded
  fresh _ _ hn := h.nextChildId_notMem hn

theorem Inv.refill (h : t.Inv config) {t' : IdeaTree F} (hr : Refills t t') : t'.Inv config := by
  have hids : t'.ids = t.ids := congrArg Links.ids hr.links
  constructor
  · constructor
    · exact hr.keyed h.storable.keyed
    · rw [hids]
      exact h.storable.nodup
    · rw [hids, hr.rootId]
      exact h.storable.first
    · exact hr.values h.storable.values
    · rw [hr.metadata]
      exact h.storable.metadata
    · rw [hr.metadata]
      exact h.storable.defaults
  · rw [hr.links]
    exact h.linked
  · rw [hr.rootId, h.root]
  · rw [hr.maxDepth, h.maxDepth]
  · rw [hids, hr.links]
    exact h.bounded
  · rw [hids, hr.links]
    exact h.named

theorem forall_addNode {P : String → Node F → Prop} (h : ∀ p ∈ t.nodes, P p.1 p.2) {node : Node F}
    (hid : node.id ∉ t.ids) (hnode : P node.id node)
    (hf : ∀ id n ids, P id n → P id { n with childrenIds := ids }) :
    ∀ p ∈ (t.addNode node).1.nodes, P p.1 p.2 := by
  have hput : ∀ p ∈ Members.insert node.id node t.nodes, P p.1 p.2 := by
    intro p hp
    rw [Members.insert_append_fresh node hid] at hp
    rcases List.mem_append.mp hp with hp | hp
    · exact h p hp
    · exact List.mem_singleton.mp hp ▸ hnode
  rw [addNode, if_neg hid]
  split
  · exact hput
  · split_ifs
    · refine forall_modifyNode (t := { t with nodes := Members.insert node.id node t.nodes }) hput ?_
      intro n hn
      split_ifs
      · exact hn
      · exact hf _ n _ hn
    · exact h

theorem addNode_frame (t : IdeaTree F) (node : Node F) :
    (t.addNode node).1.rootId = t.rootId ∧ (t.addNode node).1.maxDepth = t.maxDepth ∧
      (t.addNode node).1.metadata = t.metadata := by
  rw [addNode]
  split_ifs
  · exact ⟨rfl, rfl, rfl⟩
  · split
    · exact ⟨rfl, rfl, rfl⟩
    · split_ifs
      · exact ⟨rfl, rfl, rfl⟩
      · exact ⟨rfl, rfl, rfl⟩

theorem Inv.addNode (h : t.Inv config) {parentId id : String} {parent : Node F}
    (hp : t.getNode parentId = some parent) (hn : t.nextChildId parentId = some id)
    (hd : ¬ t.maxDepth.any (parent.depth + 1 > ·) = true) {hypothesis : Json F}
    (hv : hypothesis.wf = true) :
    (t.addNode { id, parentId := some parentId, depth := parent.depth + 1, hypothesis }).1.Inv
      config := by
  have hd : ∀ m ∈ config.maxTreeDepth, parent.depth + 1 ≤ m := by
    intro m hm
    rw [h.maxDepth, Option.mem_def.mp hm] at hd
    simpa using hd
  have hid := h.nextChildId_notMem hn
  have hparent : parentId ∈ t.ids := mem_ids_iff.mpr ⟨parent, hp⟩
  have hdepth : parent.depth = t.links.depth parentId := by simp [links, hp]
  have hlinks : (t.addNode
      { id, parentId := some parentId, depth := parent.depth + 1, hypothesis }).1.links =
      t.links.addLeaf id parentId :=
    links_addNode hid rfl hparent rfl (by rw [hdepth]) fun hc =>
      hid (h.linked.child parentId hparent id hc).1
  have hids : (t.addNode { id, parentId := some parentId, depth := parent.depth + 1, hypothesis }).1.ids =
      t.ids ++ [id] := congrArg Links.ids hlinks
  obtain ⟨hroot, hmax, hmeta⟩ := addNode_frame t
    { id, parentId := some parentId, depth := parent.depth + 1, hypothesis }
  have hlinked := h.linked.addLeaf hid hparent
  constructor
  · constructor
    · exact forall_addNode (P := fun id n => n.id = id) h.storable.keyed hid rfl fun _ _ _ hn => hn
    · rw [hids]
      exact hlinked.nodup
    · have hfirst := h.storable.first
      rw [hids, hroot]
      cases ht : t.ids with
      | nil => simp [ht] at hfirst
      | cons x xs => simpa [ht] using hfirst
    · apply forall_addNode (P := fun _ n => n.Storable) h.storable.values hid ?_ fun _ _ _ hn => hn
      simp [Node.Storable, Node.values, hv, Json.wf]
    · rw [hmeta]
      exact h.storable.metadata
    · rw [hmeta]
      exact h.storable.defaults
  · rw [hlinks]
    exact hlinked
  · rw [hroot, h.root]
  · rw [hmax, h.maxDepth]
  · intro m hm x hx
    rw [hids] at hx
    rw [hlinks]
    simp only [Links.addLeaf, Function.update_apply]
    split_ifs with he
    · have := hd m hm
      omega
    · exact h.bounded m hm x ((List.mem_append.mp hx).resolve_right (by simpa using he))
  · intro x hx p hpar
    rw [hids] at hx
    rw [hlinks] at hpar
    simp only [Links.addLeaf, Function.update_apply] at hpar
    split_ifs at hpar with he
    · obtain rfl := Option.some.inj hpar
      obtain ⟨q, hq, hname⟩ := Option.map_eq_some_iff.mp hn
      rw [he, ← hname, h.root]
      exact ⟨_, rfl⟩
    · exact h.named x ((List.mem_append.mp hx).resolve_right (by simpa using he)) p hpar

theorem wf_insert {ms : Members F} {key : String} {v : Json F} (h : (Json.obj ms).wf = true)
    (hv : v.wf = true) : (Json.obj (Members.insert key v ms)).wf = true := by
  rw [Json.wf, Bool.and_eq_true, decide_eq_true_eq] at h ⊢
  refine ⟨Members.nodup_keys_insert h.1, ?_⟩
  have hms := h.2
  clear h
  induction ms with
  | nil => simp [Members.insert, Json.wfMembers, hv]
  | cons p ms ih =>
      obtain ⟨k, w⟩ := p
      rw [Json.wfMembers, Bool.and_eq_true] at hms
      rw [Members.insert]
      split_ifs
      · rw [Json.wfMembers, hv, hms.2]
        rfl
      · rw [Json.wfMembers, hms.1, ih hms.2]
        rfl

theorem Inv.setMeta (h : t.Inv config) {key : String} {v : Json F} (hv : v.wf = true) :
    ({ t with metadata := Members.insert key v t.metadata } : IdeaTree F).Inv config := by
  refine ⟨⟨h.storable.keyed, h.storable.nodup, h.storable.first, h.storable.values, ?_, ?_⟩,
    h.linked, h.root, h.maxDepth, h.bounded, h.named⟩
  · exact wf_insert h.storable.metadata hv
  · simp only [Members.keys_insert]
    split_ifs
    · exact h.storable.defaults
    · exact h.storable.defaults.trans (List.prefix_append _ _)

theorem Inv.setMetas (h : t.Inv config) (updates : List (String × Value F)) :
    ({ t with metadata := updates.foldl (fun ms u => Members.insert u.1 u.2.1 ms) t.metadata } :
      IdeaTree F).Inv config := by
  induction updates generalizing t with
  | nil => exact h
  | cons u updates ih => exact ih (h.setMeta u.2.2)

end IdeaTree

structure Coordinator.Inv (config : CoordinatorConfig F) (s : Coordinator F) : Prop where
  tree : s.tree.Inv config
  saved : s.saved.Inv config
  attempts : ∀ d ∈ s.inFlight, d.attempt.wf = true

variable {config : CoordinatorConfig F} {s : Coordinator F}

theorem wf_of_lookup {ms : Members F} (h : (Json.obj ms).wf = true) {key : String} {v : Json F}
    (hv : ms.lookup key = some v) : v.wf = true := by
  rw [Json.wf, Bool.and_eq_true, Json.wfMembers_eq_all] at h
  exact List.all_eq_true.mp h.2 _ (Members.mem_of_lookup hv)

theorem wf_revised (revised : Option String) {hypothesis : Json F} (hv : hypothesis.wf = true) :
    ((revised.map Json.str).getD hypothesis).wf = true := by
  cases revised with
  | none => exact hv
  | some text => rfl

theorem wf_outcomeUpdates {rt : Runtime F} {o : Outcome F} {attempt : Json F}
    (ha : attempt.wf = true) {updates : List (String × Json F)}
    (h : outcomeUpdates rt o attempt = some updates) : ∀ u ∈ updates, u.2.wf = true := by
  obtain ⟨parsed, hparsed, rfl⟩ := Option.map_eq_some_iff.mp h
  have hobj : (Json.obj parsed).wf = true := by
    have hwf := o.parsed.2
    cases ho : o.parsed.1 with
    | obj ms =>
        rw [ho] at hparsed hwf
        obtain rfl := Option.some.inj hparsed
        exact hwf
    | _ => simp [ho, IdeaTree.members?] at hparsed
  have hfield : ∀ (key : String) {default : Json F}, default.wf = true →
      ((parsed.lookup key).getD default).wf = true := by
    intro key default hd
    cases hv : parsed.lookup key with
    | none => exact hd
    | some v => exact wf_of_lookup hobj hv
  have hstop : ((o.stopReason.map Json.str).getD .null : Json F).wf = true := by
    cases o.stopReason <;> rfl
  simp only [List.forall_mem_cons]
  exact ⟨rfl, hfield _ rfl, Json.wf_ite (hfield _ rfl) rfl, Json.wf_ite (hfield _ rfl) rfl,
    Json.wf_ite (hfield _ rfl) rfl, hfield _ rfl, hstop, ha, by simp⟩

theorem wf_dispatchAttempt {rt : Runtime F} {node : Node F} (hn : node.attempt.wf = true)
    {resume : Bool} {attempt : Json F} (h : dispatchAttempt rt node resume = some attempt) :
    attempt.wf = true := by
  rw [dispatchAttempt] at h
  split_ifs at h
  · unfold nextAttempt at h
    split at h <;> cases h
    all_goals rfl
  · obtain rfl := Option.some.inj h
    exact hn

theorem validateDispatch_eq_some {rt : Runtime F} {t : IdeaTree F} {nodeId : String} {resume : Bool}
    {attempt : Json F} (h : validateDispatch rt t nodeId resume = some attempt) :
    ∃ node, t.getNode nodeId = some node ∧
      ["pending", "running", "needs_retry"].any node.hasStatus = true ∧
      dispatchAttempt rt node resume = some attempt := by
  rw [validateDispatch] at h
  split_ifs at h
  obtain ⟨node, hnode, h⟩ := Option.bind_eq_some_iff.mp h
  split_ifs at h with hstatus
  exact ⟨node, hnode, hstatus, h⟩

namespace Coordinator

theorem Inv.commit (h : s.Inv config) {r : IdeaTree F × Bool} (hr : r.1.Inv config) :
    (s.commit r).Inv config := by
  refine ⟨hr, ?_, h.attempts⟩
  rw [Coordinator.commit]
  dsimp only
  split_ifs
  · exact hr
  · exact h.saved

theorem Inv.update (h : s.Inv config) (id : String) {updates : List (String × Json F)}
    (hu : ∀ u ∈ updates, u.2.wf = true) : (s.commit (s.tree.updateNode id updates)).Inv config :=
  h.commit (h.tree.refill (IdeaTree.refills_updateNode s.tree id hu))

theorem Inv.prune (h : s.Inv config) (id : String) (reason : Json F) :
    (s.commit (s.tree.pruneNode config.runtime id reason)).Inv config :=
  h.commit (h.tree.refill (IdeaTree.refills_pruneNode config.runtime s.tree id reason))

theorem Inv.dequeue (h : s.Inv config) (queued : List String) :
    Inv config { s with queued := queued } :=
  ⟨h.tree, h.saved, h.attempts⟩

theorem Inv.land (h : s.Inv config) (i : Nat) :
    Inv config { s with inFlight := s.inFlight.eraseIdx i } :=
  ⟨h.tree, h.saved, fun d hd => h.attempts d (List.mem_of_mem_eraseIdx hd)⟩

theorem Inv.startExecutor (h : s.Inv config) (nodeId : String) (resume : Bool) :
    (s.startExecutor config nodeId resume).Inv config := by
  rw [Coordinator.startExecutor]
  split
  · exact h
  · rename_i attempt hattempt
    have hs : (s.commit (s.tree.updateNode nodeId [("status", .str "running")])).Inv config :=
      h.update nodeId (by simp [Json.wf])
    refine ⟨hs.tree, hs.saved, ?_⟩
    intro d hd
    rcases List.mem_append.mp hd with hd | hd
    · exact h.attempts d hd
    · rw [List.mem_singleton.mp hd]
      obtain ⟨node, hnode, -, hattempt⟩ := validateDispatch_eq_some hattempt
      have hstorable := h.tree.storable.values _ (Members.mem_of_lookup hnode)
      exact wf_dispatchAttempt (hstorable _ (by simp [Node.values])) hattempt

theorem Inv.addNode (h : s.Inv config) (parentId : String) {hypothesis : Json F}
    (hv : hypothesis.wf = true) (reply : Option String) :
    (s.addNode config parentId hypothesis reply).Inv config := by
  rw [Coordinator.addNode]
  split
  · exact h
  · rename_i parent hparent
    dsimp only
    split_ifs with hdepth
    · exact h
    · split
      · exact h
      · rename_i revised _
        split
        · exact h
        · rename_i id hid
          exact h.commit (h.tree.addNode hparent hid hdepth (wf_revised revised hv))

theorem Inv.requeue (h : s.Inv config) (ids : List String) : (s.requeue ids).Inv config := by
  rw [Coordinator.requeue]
  induction ids generalizing s with
  | nil => exact h
  | cons id ids ih => exact ih (h.update id (by simp [Json.wf]))

theorem Inv.loadJson_saved (h : s.Inv config) :
    IdeaTree.loadJson config.runtime (s.saved.saveJson config.runtime) =
      some (s.saved.normalize config.runtime) :=
  IdeaTree.loadJson_saveJson config.runtime h.saved.storable

theorem Inv.resume (h : s.Inv config) :
    (Coordinator.resume config s.saved (s.saved.normalize config.runtime)).Inv config := by
  have hloaded := h.saved.refill (IdeaTree.refills_normalize config.runtime s.saved)
  have hmax : (config.maxTreeDepth.orElse fun _ => (s.saved.normalize config.runtime).maxDepth) =
      config.maxTreeDepth := by
    rw [hloaded.maxDepth]
    cases config.maxTreeDepth <;> rfl
  rw [Coordinator.resume]
  apply Inv.requeue
  refine ⟨?_, h.saved, by simp⟩
  rw [hmax]
  exact ⟨⟨hloaded.storable.keyed, hloaded.storable.nodup, hloaded.storable.first,
    hloaded.storable.values, hloaded.storable.metadata, hloaded.storable.defaults⟩,
    hloaded.linked, hloaded.root, rfl, hloaded.bounded, hloaded.named⟩

theorem links_fresh (config : CoordinatorConfig F) :
    (fresh config).tree.links = ⟨["ROOT"], fun _ => none, fun _ => [], fun _ => 0⟩ := by
  have hget : ∀ id, (fresh config).tree.getNode id =
      if id = "ROOT" then ((fresh config).tree.nodes.head?).map Prod.snd else none := by
    intro id
    exact Members.lookup_cons _ [] id
  rw [IdeaTree.links]
  congr 1
  · funext id
    rw [hget]
    split_ifs <;> rfl
  · funext id
    rw [hget]
    split_ifs <;> rfl
  · funext id
    rw [hget]
    split_ifs <;> rfl

theorem inv_fresh (config : CoordinatorConfig F) : (fresh config).Inv config := by
  have htree : (fresh config).tree.Inv config := by
    refine ⟨⟨?_, List.nodup_singleton _, rfl, ?_, rfl, List.prefix_rfl⟩, ?_, rfl, rfl, ?_, ?_⟩
    · exact fun p hp => List.mem_singleton.mp hp ▸ rfl
    · intro p hp
      rw [List.mem_singleton.mp hp]
      simp [Node.Storable, Node.values, Json.wf]
    · rw [links_fresh]
      exact Links.wellFormed_single "ROOT"
    · rw [links_fresh]
      exact fun m _ _ _ => le_max_right m 0
    · rw [links_fresh]
      simp
  exact ⟨htree, htree, by simp [fresh]⟩

theorem Inv.step (h : s.Inv config) (e : CoordinatorEvent F) : (s.step config e).Inv config := by
  cases e with
  | addNode parentId hypothesis reply => exact h.addNode parentId hypothesis.2 reply
  | updateNode nodeId updates =>
      rw [Coordinator.step]
      split_ifs
      · exact h
      · apply h.update
        intro u hu
        obtain ⟨v, -, rfl⟩ := List.mem_map.mp (List.mem_filter.mp hu).1
        exact v.2.2
  | prune nodeId reason => exact h.prune nodeId reason.1
  | setMeta updates =>
      rw [Coordinator.step]
      split_ifs
      · exact h
      · exact h.commit (h.tree.setMetas _)
  | setMedal medal => exact h.commit (h.tree.setMeta rfl)
  | noteInsight nodeId insight => exact h.update nodeId (by simp [Json.wf])
  | noteRelatedWork nodeId relatedWork => exact h.update nodeId (by simp [Json.wf])
  | runExecutor nodeId =>
      rw [Coordinator.step]
      split_ifs
      · exact h
      · exact h.dequeue _
  | runExecutorParallel nodeIds => exact h.dequeue _
  | resumeExecutor nodeId =>
      rw [Coordinator.step]
      split_ifs
      · exact h.startExecutor nodeId true
      · exact h
  | skip i =>
      rw [Coordinator.step]
      split
      · exact h
      · split_ifs
        · exact (h.dequeue _).prune _ _
        · exact h
  | start i =>
      rw [Coordinator.step]
      split
      · exact h
      · exact (h.dequeue _).startExecutor _ false
  | worktreeFailed i error =>
      rw [Coordinator.step]
      split
      · exact h
      · exact (h.land i).update _ (by simp [Json.wf])
  | finished i outcome =>
      rw [Coordinator.step]
      split
      · exact h
      · rename_i d hd
        dsimp only
        split
        · exact h.land i
        · rename_i updates hupdates
          exact (h.land i).update _
            (wf_outcomeUpdates (h.attempts d (List.mem_of_getElem? hd)) hupdates)
  | crashed i => exact h.land i
  | restart =>
      rw [Coordinator.step, h.loadJson_saved]
      exact h.resume

end Coordinator

/-- Along every run of the coordinator the idea tree stays well formed, and so
does the one a resumed run would start from. -/
theorem ideaTree_sound (config : CoordinatorConfig F) (events : List (CoordinatorEvent F)) :
    (run (Coordinator.step config) (.fresh config) events).tree.Sound config ∧
      ∃ t, IdeaTree.loadJson config.runtime
        ((run (Coordinator.step config) (.fresh config) events).tree.saveJson config.runtime) =
          some t ∧ t.Sound config := by
  have h : (run (Coordinator.step config) (.fresh config) events).Inv config :=
    run_invariant (I := Coordinator.Inv config) (fun s e hs => hs.step e)
      (Coordinator.inv_fresh config) events
  refine ⟨h.tree.sound, _, IdeaTree.loadJson_saveJson config.runtime h.tree.storable, ?_⟩
  exact (h.tree.refill (IdeaTree.refills_normalize config.runtime _)).sound

/-- The file of a tree of any run gives back the same tree if and only if no
node holds a value that the encoder drops and the decoder fills differently. -/
theorem ideaTree_roundTrip_iff (config : CoordinatorConfig F) (events : List (CoordinatorEvent F)) :
    let t := (run (Coordinator.step config) (.fresh config) events).tree
    IdeaTree.loadJson config.runtime (t.saveJson config.runtime) = some t ↔
      ∀ p ∈ t.nodes, p.2.Tidy config.runtime := by
  have h : (run (Coordinator.step config) (.fresh config) events).Inv config :=
    run_invariant (I := Coordinator.Inv config) (fun s e hs => hs.step e)
      (Coordinator.inv_fresh config) events
  intro t
  rw [IdeaTree.loadJson_saveJson config.runtime h.tree.storable, Option.some.injEq]
  exact IdeaTree.normalize_eq_self_iff config.runtime t

def literalRuntime : Runtime FloatText where
  fmt := literalFormat
  pyStr _ := ""
  makeToolUseId _ := ""
  isZero _ := false
  isOne _ := false
  addOne := id
  exceeds _ _ := false

def threeCycles : CoordinatorConfig FloatText where
  runtime := literalRuntime
  task := "task"
  maxTreeDepth := none
  maxCycles := 3
  maxRetries := 3
  maxParallelExecutors := none
  reviews := false

theorem ideaTree_roundTrip_drops_evalStatus :
    ¬ ∀ (config : CoordinatorConfig FloatText) (events : List (CoordinatorEvent FloatText)),
      let t := (run (Coordinator.step config) (.fresh config) events).tree
      IdeaTree.loadJson config.runtime (t.saveJson config.runtime) = some t := by
  intro h
  have hbad := h threeCycles
    [.addNode "ROOT" ⟨.str "idea", rfl⟩ none, .runExecutor "1", .start 0,
      .finished 0 ⟨⟨.obj [("eval_status", .str "")], rfl⟩, "report", none, "branch"⟩]
  have hstatus := congrArg (Option.map fun t => t.nodes.map (·.2.evalStatus.str?)) hbad
  revert hstatus
  set_option maxRecDepth 20000 in with_unfolding_all decide

end DevPilot
