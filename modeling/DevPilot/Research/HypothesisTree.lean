import DevPilot.Lib.ParentChains
import DevPilot.Research.Hypotheses

/-!
The tree of hypotheses the desktop UI shows, and which hypotheses of a run stand in it.
-/

namespace DevPilot

open PyJson ParentChains

variable {F : Type}

inductive HypothesisTreeNode (F : Type)
  | mk (node : HypothesisNode F) (children : List (HypothesisTreeNode F))

mutual

def HypothesisTreeNode.nodes : HypothesisTreeNode F → List (HypothesisNode F)
  | .mk node children => node :: forestNodes children

def forestNodes : List (HypothesisTreeNode F) → List (HypothesisNode F)
  | [] => []
  | tree :: trees => tree.nodes ++ forestNodes trees

end

namespace ResearchRunState

/-- The id of the parent a node is put under, `none` at the top. -/
def parentKey (state : ResearchRunState F) (node : HypothesisNode F) : Option String :=
  node.parentId.filter fun id => !id.isEmpty && (state.hypotheses.lookup id).isSome

def childrenOf (state : ResearchRunState F) (parentId : Option String) : List (HypothesisNode F) :=
  (state.hypothesisOrder.filterMap (state.hypotheses.lookup ·)).filter fun node =>
    state.parentKey node = parentId

/-- `none` where the recursion goes deeper than `fuel`. -/
def build (state : ResearchRunState F) : ℕ → Option String → Option (List (HypothesisTreeNode F))
  | 0, _ => none
  | fuel + 1, parentId => (state.childrenOf parentId).mapM fun node =>
      (state.build fuel (some node.id)).map (.mk node)

/-- The order lists the keys, each of them once, and a node has the id it is stored under. -/
structure ListsHypotheses (state : ResearchRunState F) : Prop where
  order : Members.keys state.hypotheses = state.hypothesisOrder
  nodup : state.hypothesisOrder.Nodup
  ids : ∀ p ∈ state.hypotheses, p.2.id = p.1

variable {host : ResearchHost F} {state : ResearchRunState F} {e : DevPilotEvent F}

theorem ListsHypotheses.insert (h : state.ListsHypotheses) (id : String) (node : HypothesisNode F)
    (hid : node.id = id) {next : ResearchRunState F}
    (hhypotheses : next.hypotheses = Members.insert id node state.hypotheses)
    (horder : next.hypothesisOrder = if (state.hypotheses.lookup id).isSome then
      state.hypothesisOrder
      else state.hypothesisOrder ++ [id]) : next.ListsHypotheses := by
  have hmem : id ∈ Members.keys state.hypotheses ↔ (state.hypotheses.lookup id).isSome := by
    constructor
    · intro hkey
      obtain ⟨p, hp, rfl⟩ := List.mem_map.mp hkey
      rw [Members.lookup_of_mem (h.order ▸ h.nodup) hp]
      rfl
    · intro hsome
      obtain ⟨w, hw⟩ := Option.isSome_iff_exists.mp hsome
      exact List.mem_map.mpr ⟨(id, w), Members.mem_of_lookup hw, rfl⟩
  have hkeys : Members.keys next.hypotheses = next.hypothesisOrder := by
    rw [hhypotheses, horder, Members.keys_insert, h.order]
    simp only [← h.order, hmem]
  refine ⟨hkeys, ?_, ?_⟩
  · rw [← hkeys, hhypotheses]
    exact Members.nodup_keys_insert (h.order ▸ h.nodup)
  · intro p hp
    rw [hhypotheses] at hp
    rcases Members.eq_or_mem_of_mem_insert hp with rfl | hp
    · exact hid
    · exact h.ids p hp

theorem ListsHypotheses.reduce (h : state.ListsHypotheses) (host : ResearchHost F)
    (e : DevPilotEvent F) :
    (reduceResearchRun host state e).ListsHypotheses := by
  by_cases htells : e.type = .hypothesisCreated ∨ e.type = .hypothesisUpdated
  · rw [reduce_hypothesis htells, updateHypothesis.eq_def]
    split
    · exact h
    · exact h
    · exact h.insert _ (e.toHypothesis host _ _) rfl rfl rfl
  · obtain ⟨hcreated, hupdated⟩ := not_or.mp htells
    obtain ⟨hhypotheses, horder⟩ := @hypotheses_reduce F host state e hcreated hupdated
    exact ⟨by rw [hhypotheses, horder, h.order], horder ▸ h.nodup, hhypotheses ▸ h.ids⟩

theorem listsHypotheses_events (host : ResearchHost F) (sessionId : String)
    (events : List (DevPilotEvent F)) :
    (reduceResearchRunEvents host sessionId events).ListsHypotheses := by
  have hfold : ∀ (events : List (DevPilotEvent F)) (state : ResearchRunState F),
    state.ListsHypotheses →
      (events.foldl (reduceResearchRun host) state).ListsHypotheses := by
    intro events
    induction events with
    | nil => exact fun _ h => h
    | cons e events ih => exact fun state h => ih _ (h.reduce host e)
  exact hfold events _ ⟨rfl, List.nodup_nil, by simp [createInitialResearchRunState]⟩

def listed (state : ResearchRunState F) : List (HypothesisNode F) :=
  state.hypothesisOrder.filterMap (state.hypotheses.lookup ·)

theorem ListsHypotheses.listed_eq (h : state.ListsHypotheses) : state.listed =
    state.hypotheses.map Prod.snd := by
  rw [listed, ← h.order, Members.keys, List.filterMap_map, ← List.filterMap_eq_map]
  exact List.filterMap_congr fun p hp => Members.lookup_of_mem (h.order ▸ h.nodup) hp

def parentOf (state : ResearchRunState F) (id : String) : Option String :=
  (state.hypotheses.lookup id).bind state.parentKey

theorem ListsHypotheses.lookup (h : state.ListsHypotheses) {node : HypothesisNode F}
    (hnode : node ∈ state.listed) :
    state.hypotheses.lookup node.id = some node := by
  rw [h.listed_eq] at hnode
  obtain ⟨p, hp, rfl⟩ := List.mem_map.mp hnode
  rw [h.ids p hp]
  exact Members.lookup_of_mem (h.order ▸ h.nodup) hp

theorem ListsHypotheses.parentOf (h : state.ListsHypotheses) {node : HypothesisNode F}
    (hnode : node ∈ state.listed) :
    state.parentOf node.id = state.parentKey node := by
  rw [ResearchRunState.parentOf, h.lookup hnode]
  rfl

theorem ListsHypotheses.nodup_ids (h : state.ListsHypotheses) :
    (state.listed.map (·.id)).Nodup := by
  have hids : state.listed.map (·.id) = state.hypothesisOrder := by
    rw [h.listed_eq, List.map_map, ← h.order, Members.keys]
    exact List.map_congr_left fun p hp => h.ids p hp
  exact hids ▸ h.nodup

theorem lookup_of_parentKey {node : HypothesisNode F} {id : String}
    (h : state.parentKey node = some id) :
    (state.hypotheses.lookup id).isSome := by
  have hkept := (Option.filter_eq_some_iff.mp h).2
  exact (Bool.and_eq_true _ _ ▸ hkept).2

def Grown (state : ResearchRunState F) (fuel : ℕ) (node : HypothesisNode F)
    (tree : HypothesisTreeNode F) : Prop :=
  ∃ below, state.build fuel (some node.id) = some below ∧ tree = .mk node below

theorem build_succ_eq_some_iff {fuel : ℕ} {parentId : Option String}
    {trees : List (HypothesisTreeNode F)} :
    state.build (fuel + 1) parentId = some trees ↔
      List.Forall₂ (state.Grown fuel) (state.childrenOf parentId) trees := by
  rw [build]
  generalize state.childrenOf parentId = children
  induction children generalizing trees with
  | nil =>
      rw [List.mapM_nil, List.forall₂_nil_left_iff]
      exact ⟨fun h => (Option.some.inj h).symm, fun h => h ▸ rfl⟩
  | cons node children ih =>
      rw [List.mapM_cons, List.forall₂_cons_left_iff]
      simp only [Option.bind_eq_bind, Option.bind_eq_some_iff, Option.map_eq_some_iff, ih,
        Option.pure_def, Option.some.injEq, Grown]
      constructor
      · rintro ⟨_, ⟨below, hbelow, rfl⟩, rest, hrest, rfl⟩
        exact ⟨_, rest, ⟨below, hbelow, rfl⟩, hrest, rfl⟩
      · rintro ⟨_, rest, ⟨below, hbelow, rfl⟩, hrest, rfl⟩
        exact ⟨_, ⟨below, hbelow, rfl⟩, rest, hrest, rfl⟩

theorem mem_childrenOf {parentId : Option String} {node : HypothesisNode F} :
    node ∈ state.childrenOf parentId ↔ node ∈ state.listed ∧ state.parentKey node = parentId := by
  rw [childrenOf, List.mem_filter, decide_eq_true_iff]
  rfl

theorem ListsHypotheses.chain_child (h : state.ListsHypotheses) {parentId : Option String}
    {lp : List String} (hchain : ParentChains.Chain state.parentOf parentId lp)
    {child : HypothesisNode F}
    (hchild : child ∈ state.childrenOf parentId) :
    ParentChains.Chain state.parentOf (some child.id) (child.id :: lp) := by
  obtain ⟨hlisted, hkey⟩ := mem_childrenOf.mp hchild
  exact .step (by rwa [h.parentOf hlisted, hkey])

theorem mem_forestNodes {fuel : ℕ} {children : List (HypothesisNode F)}
    {trees : List (HypothesisTreeNode F)}
    (h : List.Forall₂ (state.Grown fuel) children trees) (node : HypothesisNode F) :
    node ∈ forestNodes trees ↔ ∃ child ∈ children, ∃ below,
      state.build fuel (some child.id) = some below ∧ (node = child ∨ node ∈ forestNodes below) := by
  induction h with
  | nil => simp [forestNodes]
  | @cons child tree children trees hgrown h ih =>
      obtain ⟨below, hbelow, rfl⟩ := hgrown
      rw [forestNodes, HypothesisTreeNode.nodes, List.mem_append, List.mem_cons, ih]
      simp only [List.exists_mem_cons_iff, hbelow, Option.some.injEq, exists_eq_left']

theorem exists_build_of_mem {fuel : ℕ} {children : List (HypothesisNode F)}
    {trees : List (HypothesisTreeNode F)} (h : List.Forall₂ (state.Grown fuel) children trees)
    {child : HypothesisNode F} (hchild : child ∈ children) :
    ∃ below, state.build fuel (some child.id) = some below := by
  induction h with
  | nil => cases hchild
  | @cons child' tree children trees hgrown _ ih =>
      rcases List.mem_cons.mp hchild with rfl | hchild
      · exact ⟨_, hgrown.choose_spec.1⟩
      · exact ih hchild

theorem ListsHypotheses.exists_listed (h : state.ListsHypotheses) {id : String}
    (hid : (state.hypotheses.lookup id).isSome) :
    ∃ node ∈ state.listed, node.id = id := by
  obtain ⟨node, hnode⟩ := Option.isSome_iff_exists.mp hid
  have hmem := Members.mem_of_lookup hnode
  refine ⟨node, ?_, h.ids _ hmem⟩
  rw [h.listed_eq]
  exact List.mem_map.mpr ⟨(id, node), hmem, rfl⟩

theorem isSome_lookup_of_chain {o : Option String} {l : List String}
    (hchain : ParentChains.Chain state.parentOf o l)
    (hstart : ∀ id ∈ o, (state.hypotheses.lookup id).isSome) :
    ∀ id ∈ l, (state.hypotheses.lookup id).isSome := by
  induction hchain with
  | stop => simp
  | @step a l _ ih =>
      intro id hid
      rcases List.mem_cons.mp hid with rfl | hid
      · exact hstart id rfl
      · refine ih (fun b hb => ?_) id hid
        obtain ⟨node, -, hkey⟩ := Option.bind_eq_some_iff.mp hb
        exact lookup_of_parentKey hkey

theorem ListsHypotheses.mem_build (h : state.ListsHypotheses) {lp : List String} (fuel : ℕ)
    {parentId : Option String}
    (hchain : ParentChains.Chain state.parentOf parentId lp) {trees : List (HypothesisTreeNode F)}
    (hbuild : state.build fuel parentId = some trees) (node : HypothesisNode F) :
    node ∈ forestNodes trees ↔ node ∈ state.listed ∧
      ∃ pre, pre ≠ [] ∧ ParentChains.Chain state.parentOf (some node.id) (pre ++ lp) := by
  induction fuel generalizing lp parentId trees with
  | zero => cases hbuild
  | succ fuel ih =>
      have hforall := build_succ_eq_some_iff.mp hbuild
      rw [mem_forestNodes hforall]
      constructor
      · rintro ⟨child, hchild, below, hbelow, hnode⟩
        have hlisted := (mem_childrenOf.mp hchild).1
        have hstep := h.chain_child hchain hchild
        rcases hnode with rfl | hnode
        · exact ⟨hlisted, [node.id], List.cons_ne_nil _ _, hstep⟩
        · obtain ⟨hlisted', pre, -, hpre⟩ := (ih hstep hbelow).mp hnode
          exact ⟨hlisted', pre ++ [child.id], by simp, by simpa using hpre⟩
      · rintro ⟨hlisted, pre, hne, hpre⟩
        obtain ⟨pre, c, rfl⟩ := (List.eq_nil_or_concat' pre).resolve_left hne
        rw [List.append_assoc, List.singleton_append] at hpre
        obtain ⟨child, hlisted', rfl⟩ := h.exists_listed (isSome_lookup_of_chain hpre
          (fun id hid => by rw [← Option.some.inj hid, h.lookup hlisted]; rfl) c (by simp))
        have hkey : state.parentKey child = parentId := by
          cases hpre.from_append with
          | step hrest =>
              rw [h.parentOf hlisted'] at hrest
              exact hrest.start_unique hchain
        have hchild := mem_childrenOf.mpr ⟨hlisted', hkey⟩
        obtain ⟨below, hbelow⟩ := exists_build_of_mem hforall hchild
        refine ⟨child, hchild, below, hbelow, ?_⟩
        cases pre with
        | nil =>
            left
            obtain ⟨_, hcons, -⟩ := hpre.cons_inv
            have hids : child.id = node.id := (List.cons.inj hcons).1
            exact Option.some.inj ((h.lookup hlisted).symm.trans (hids ▸ h.lookup hlisted'))
        | cons a pre =>
            exact .inr ((ih hpre.from_append hbelow).mpr ⟨hlisted, a :: pre, List.cons_ne_nil _ _,
              hpre⟩)

theorem ListsHypotheses.nodup_build (h : state.ListsHypotheses) {lp : List String} (fuel : ℕ)
    {parentId : Option String}
    (hchain : ParentChains.Chain state.parentOf parentId lp) {trees : List (HypothesisTreeNode F)}
    (hbuild : state.build fuel parentId = some trees) : ((forestNodes trees).map (·.id)).Nodup := by
  induction fuel generalizing lp parentId trees with
  | zero => cases hbuild
  | succ fuel ih =>
      have hforall := build_succ_eq_some_iff.mp hbuild
      have hnodup : ((state.childrenOf parentId).map (·.id)).Nodup :=
        (List.filter_sublist.map _).nodup h.nodup_ids
      have hstep : ∀ child ∈ state.childrenOf parentId,
          ParentChains.Chain state.parentOf (some child.id) (child.id :: lp) :=
        fun child hchild => h.chain_child hchain hchild
      have hhung : ∀ child ∈ state.childrenOf parentId, ∀ below,
          state.build fuel (some child.id) = some below → ∀ node,
            node = child ∨ node ∈ forestNodes below →
              ∃ pre, ParentChains.Chain state.parentOf (some node.id) (pre ++ child.id :: lp) := by
        rintro child hchild below hbelow node (rfl | hnode)
        · exact ⟨[], hstep node hchild⟩
        · obtain ⟨-, pre, -, hpre⟩ := (h.mem_build fuel (hstep child hchild) hbelow node).mp hnode
          exact ⟨pre, hpre⟩
      clear hbuild
      generalize state.childrenOf parentId = children at hforall hnodup hstep hhung
      induction hforall with
      | nil => exact List.nodup_nil
      | @cons child tree children trees hgrown hforall ihforall =>
          obtain ⟨below, hbelow, rfl⟩ := hgrown
          rw [List.map_cons, List.nodup_cons] at hnodup
          have hbelowChain := hstep child List.mem_cons_self
          have htrees := ihforall hnodup.2 (fun c hc => hstep c (List.mem_cons_of_mem _ hc))
            fun c hc => hhung c (List.mem_cons_of_mem _ hc)
          rw [forestNodes, HypothesisTreeNode.nodes, List.map_append, List.map_cons,
            List.nodup_append, List.nodup_cons]
          refine ⟨⟨?_, ih hbelowChain hbelow⟩, htrees, ?_⟩
          · intro hmem
            obtain ⟨node, hnode, hid⟩ := List.mem_map.mp hmem
            obtain ⟨-, pre, hne, hpre⟩ := (h.mem_build fuel hbelowChain hbelow node).mp hnode
            have hsame := (hid ▸ hpre).unique hbelowChain
            exact hne (List.self_eq_append_left.mp hsame.symm)
          · intro id hid id' hid' heq
            have hnode : ∃ node, (node = child ∨ node ∈ forestNodes below) ∧ node.id = id := by
              rcases List.mem_cons.mp hid with rfl | hid
              · exact ⟨child, .inl rfl, rfl⟩
              · obtain ⟨node, hnode, rfl⟩ := List.mem_map.mp hid
                exact ⟨node, .inr hnode, rfl⟩
            obtain ⟨node, hnode, rfl⟩ := hnode
            obtain ⟨node', hnode', rfl⟩ := List.mem_map.mp hid'
            obtain ⟨child', hchild', below', hbelow', hnode'⟩ := (mem_forestNodes hforall node').mp
              hnode'
            obtain ⟨pre, hpre⟩ := hhung child List.mem_cons_self below hbelow node hnode
            obtain ⟨pre', hpre'⟩ := hhung child' (List.mem_cons_of_mem _ hchild') below' hbelow'
              node' hnode'
            have hsame := hpre.unique (heq ▸ hpre')
            have hheads := (List.append_inj' hsame rfl).2
            exact hnodup.1 (List.mem_map.mpr ⟨child', hchild', (List.cons.inj hheads).1.symm⟩)

theorem exists_forall₂ {α β : Type} {r : α → β → Prop} {xs : List α} (h : ∀ x ∈ xs, ∃ y, r x y) :
    ∃ ys, List.Forall₂ r xs ys := by
  induction xs with
  | nil => exact ⟨[], .nil⟩
  | cons x xs ih =>
      obtain ⟨y, hy⟩ := h x List.mem_cons_self
      obtain ⟨ys, hys⟩ := ih fun x hx => h x (List.mem_cons_of_mem _ hx)
      exact ⟨y :: ys, .cons hy hys⟩

theorem ListsHypotheses.exists_build (h : state.ListsHypotheses) {lp : List String} (fuel : ℕ)
    {parentId : Option String}
    (hchain : ParentChains.Chain state.parentOf parentId lp)
    (hlp : ∀ id ∈ lp, id ∈ state.hypothesisOrder)
    (hfuel : state.hypothesisOrder.length < fuel + lp.length) : ∃ trees, state.build fuel parentId =
      some trees := by
  induction fuel generalizing lp parentId with
  | zero =>
      have := (hchain.nodup.subperm hlp).length_le
      omega
  | succ fuel ih =>
      have hgrown : ∀ child ∈ state.childrenOf parentId, ∃ tree, state.Grown fuel child tree := by
        intro child hchild
        have hlisted := (mem_childrenOf.mp hchild).1
        have hstep := h.chain_child hchain hchild
        have hids : ∀ id ∈ child.id :: lp, id ∈ state.hypothesisOrder := by
          intro id hid
          rcases List.mem_cons.mp hid with rfl | hid
          · rw [← h.order]
            exact List.mem_map.mpr ⟨_, Members.mem_of_lookup (h.lookup hlisted), rfl⟩
          · exact hlp id hid
        obtain ⟨below, hbelow⟩ := ih hstep hids (by rw [List.length_cons]; omega)
        exact ⟨_, below, hbelow, rfl⟩
      obtain ⟨trees, htrees⟩ := exists_forall₂ hgrown
      exact ⟨trees, build_succ_eq_some_iff.mpr htrees⟩

theorem build_mono {fuel : ℕ} {parentId : Option String} {trees : List (HypothesisTreeNode F)}
    (hbuild : state.build fuel parentId = some trees) : state.build (fuel + 1) parentId =
      some trees := by
  induction fuel generalizing parentId trees with
  | zero => cases hbuild
  | succ fuel ih =>
      rw [build_succ_eq_some_iff] at hbuild ⊢
      refine hbuild.imp ?_
      rintro child tree ⟨below, hbelow, rfl⟩
      exact ⟨below, ih hbelow, rfl⟩

end ResearchRunState

open ResearchRunState

def selectHypothesisTree (state : ResearchRunState F) : Option (List (HypothesisTreeNode F)) :=
  state.build (state.hypothesisOrder.length + 1) none

def parentEvent (type : DevPilotEventType) (id parentId : String) : DevPilotEvent FloatText where
  type
  originalType := ""
  timestamp := none
  runId := none
  sessionId := none
  cycleId := none
  hypothesisId := some id
  executorId := none
  toolName := none
  status := none
  summary := none
  data := [("parent_id", .str parentId)]

def swappedParents : List (DevPilotEvent FloatText) :=
  [parentEvent .hypothesisCreated "a" "root", parentEvent .hypothesisCreated "b" "a",
    parentEvent .hypothesisUpdated "a" "b"]

namespace ResearchRunState

variable {state : ResearchRunState F}

/-- The loop of `selectBestScoringPath`, at most `fuel` rounds; the ids of the path are the
visited ones. -/
def climb (state : ResearchRunState F) : ℕ → List String → Option (HypothesisNode F) → List String
  | fuel + 1, path, some node =>
      if node.id ∈ path then path
      else state.climb fuel (node.id :: path) ((state.parentKey node).bind (state.hypotheses.lookup ·))
  | _, path, _ => path

/-- The scored ones, the greatest score first, and the earlier one among equals. -/
def byScore (less : JsNumber F → JsNumber F → Bool) (nodes : List (HypothesisNode F)) :
    List (HypothesisNode F) :=
  (nodes.filter (·.score.isSome)).insertionSort fun a b =>
    !(a.score.any fun x => b.score.any fun y => less x y)

def selectBestScoringPath (less : JsNumber F → JsNumber F → Bool) (state : ResearchRunState F) :
    List String :=
  state.climb (state.hypotheses.length + 1) [] (byScore less state.listed).head?

/-- A path of parents without repetition, which `current` continues. -/
structure Climbing (state : ResearchRunState F) (path : List String)
    (current : Option (HypothesisNode F)) : Prop where
  nodup : path.Nodup
  known : path ⊆ Members.keys state.hypotheses
  linked : path.IsChain fun parent id => state.parentOf id = some parent
  next : ∀ top ∈ path.head?, state.parentOf top = current.map (·.id)
  listed : ∀ node ∈ current, node ∈ state.listed

theorem ListsHypotheses.climb (h : state.ListsHypotheses) {fuel : ℕ} {path : List String}
    {current : Option (HypothesisNode F)} (hc : Climbing state path current)
    (hfuel : state.hypotheses.length < fuel + path.length) :
    (state.climb fuel path current).getLast? = path.getLast?.or (current.map (·.id)) ∧
      ∃ rest, Climbing state (state.climb fuel path current) rest ∧
        ∀ node ∈ rest, node.id ∈ state.climb fuel path current := by
  induction fuel generalizing path current with
  | zero =>
      have hlength := (hc.nodup.subperm hc.known).length_le
      rw [Members.keys, List.length_map] at hlength
      omega
  | succ fuel ih =>
      cases current with
      | none => exact ⟨by simp [ResearchRunState.climb], none, hc, by simp⟩
      | some node =>
          rw [ResearchRunState.climb]
          split_ifs with hvisited
          · refine ⟨?_, some node, hc, fun n hn => Option.mem_some.mp hn ▸ hvisited⟩
            rw [List.getLast?_eq_some_getLast (List.ne_nil_of_mem hvisited), Option.some_or]
          · have hnode := hc.listed node rfl
            have hparent : ∀ n ∈ (state.parentKey node).bind (state.hypotheses.lookup ·),
                n ∈ state.listed ∧ state.parentKey node = some n.id := by
              intro n hn
              obtain ⟨p, hp, hlookup⟩ := Option.bind_eq_some_iff.mp hn
              have hmem := Members.mem_of_lookup hlookup
              exact ⟨h.listed_eq ▸ List.mem_map_of_mem hmem, (h.ids _ hmem).symm ▸ hp⟩
            have hnext : state.parentOf node.id =
                ((state.parentKey node).bind (state.hypotheses.lookup ·)).map (·.id) := by
              rw [h.parentOf hnode]
              cases hp : state.parentKey node with
              | none => rfl
              | some p =>
                  obtain ⟨n, hn⟩ := Option.isSome_iff_exists.mp (lookup_of_parentKey hp)
                  rw [Option.bind_some, hn, Option.map_some, h.ids _ (Members.mem_of_lookup hn)]
            have hclimbed : Climbing state (node.id :: path)
                ((state.parentKey node).bind (state.hypotheses.lookup ·)) := {
              nodup := List.nodup_cons.mpr ⟨hvisited, hc.nodup⟩
              known := List.cons_subset.mpr
                ⟨List.mem_map_of_mem (Members.mem_of_lookup (h.lookup hnode)), hc.known⟩
              linked := List.isChain_cons.mpr ⟨hc.next, hc.linked⟩
              next := fun top htop => Option.mem_some.mp htop ▸ hnext
              listed := fun n hn => (hparent n hn).1 }
            obtain ⟨hlast, hrest⟩ := ih hclimbed (by rw [List.length_cons]; omega)
            refine ⟨?_, hrest⟩
            rw [hlast, List.getLast?_cons]
            cases path.getLast? <;> rfl

structure ClimbsFrom (state : ResearchRunState F) (best : Option (HypothesisNode F))
    (path : List String) : Prop where
  last : path.getLast? = best.map (·.id)
  nodup : path.Nodup
  linked : path.IsChain fun parent id => state.parentOf id = some parent
  top : ∀ top ∈ path.head?, ∀ parent ∈ state.parentOf top, parent ∈ path

end ResearchRunState

end DevPilot
