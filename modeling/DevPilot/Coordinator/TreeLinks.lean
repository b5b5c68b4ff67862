import DevPilot.Coordinator.TreeFile
import DevPilot.Lib.LinkedTree

/-!
The links of an idea tree, and what each mutation does to them.
-/

namespace DevPilot

open PyJson LinkedTree

variable {F : Type}

namespace IdeaTree

def links (t : IdeaTree F) : Links String where
  ids := t.ids
  parent id := (t.getNode id).bind (·.parentId)
  children id := ((t.getNode id).map (·.childrenIds)).getD []
  depth id := ((t.getNode id).map (·.depth)).getD 0

theorem mem_ids_iff {t : IdeaTree F} {id : String} : id ∈ t.ids ↔ ∃ n, t.getNode id = some n := by
  rw [ids, getNode]
  induction t.nodes with
  | nil => simp
  | cons p ps ih =>
      rw [List.map_cons, List.mem_cons, Members.lookup_cons, ih]
      by_cases hid : id = p.1 <;> simp [hid]

theorem getNode_modifyNode (t : IdeaTree F) (id : String) (f : Node F → Node F) (x : String) :
    (t.modifyNode id f).getNode x = if x = id then (t.getNode x).map f else t.getNode x := by
  simp only [getNode, modifyNode]
  induction t.nodes with
  | nil => simp
  | cons p ps ih =>
      rw [List.map_cons, Members.lookup_cons, Members.lookup_cons, ih]
      by_cases hx : x = p.1
      · rw [if_pos hx, if_pos hx, ← hx]
        split_ifs <;> rfl
      · rw [if_neg hx, if_neg hx]

theorem ids_modifyNode (t : IdeaTree F) (id : String) (f : Node F → Node F) :
    (t.modifyNode id f).ids = t.ids := by
  rw [ids, modifyNode, ids, List.map_map]
  rfl

theorem forall_modifyNode {t : IdeaTree F} {P : String → Node F → Prop}
    (h : ∀ p ∈ t.nodes, P p.1 p.2) {id : String} {f : Node F → Node F}
    (hf : ∀ n, P id n → P id (f n)) : ∀ p ∈ (t.modifyNode id f).nodes, P p.1 p.2 := by
  intro p hp
  obtain ⟨q, hq, rfl⟩ := List.mem_map.mp hp
  by_cases hid : q.1 = id
  · simp only [if_pos hid]
    exact hid ▸ hf q.2 (hid ▸ h q hq)
  · simp only [if_neg hid]
    exact h q hq

structure KeepsLinks (f : Node F → Node F) : Prop where
  id : ∀ n, (f n).id = n.id
  parentId : ∀ n, (f n).parentId = n.parentId
  childrenIds : ∀ n, (f n).childrenIds = n.childrenIds
  depth : ∀ n, (f n).depth = n.depth

theorem links_modifyNode (t : IdeaTree F) (id : String) {f : Node F → Node F} (hf : KeepsLinks f) :
    (t.modifyNode id f).links = t.links := by
  have hget : ∀ {β : Type} (g : Node F → β) (x : String), (∀ n, g (f n) = g n) →
      ((t.modifyNode id f).getNode x).map g = (t.getNode x).map g := by
    intro β g x hg
    rw [getNode_modifyNode]
    split_ifs
    · rw [Option.map_map]
      exact congrArg (Option.map · _) (funext hg)
    · rfl
  have hparent : ∀ x, ((t.modifyNode id f).getNode x).bind (·.parentId) =
      (t.getNode x).bind (·.parentId) := by
    intro x
    have := hget (·.parentId) x hf.parentId
    cases h : (t.modifyNode id f).getNode x <;> cases h' : t.getNode x <;> simp_all
  rw [links, links, ids_modifyNode]
  congr 1
  · funext x
    exact hparent x
  · funext x
    rw [hget _ x hf.childrenIds]
  · funext x
    rw [hget _ x hf.depth]

theorem keepsLinks_setFields (updates : List (String × Json F)) :
    KeepsLinks fun n : Node F => (n.setFields updates).1 := by
  have hall : ∀ n : Node F, (n.setFields updates).1.id = n.id ∧
      (n.setFields updates).1.parentId = n.parentId ∧
      (n.setFields updates).1.childrenIds = n.childrenIds ∧
      (n.setFields updates).1.depth = n.depth := by
    intro n
    induction updates generalizing n with
    | nil => exact ⟨rfl, rfl, rfl, rfl⟩
    | cons u updates ih =>
        rw [Node.setFields]
        cases hs : n.setField u.1 u.2 with
        | none => exact ⟨rfl, rfl, rfl, rfl⟩
        | some n' =>
            have hset := Node.setField_eq_some hs
            obtain ⟨hid, hparent, hchildren, hdepth⟩ := ih n'
            exact ⟨hid.trans hset.id, hparent.trans hset.parentId,
              hchildren.trans hset.childrenIds, hdepth.trans hset.depth⟩
  exact ⟨fun n => (hall n).1, fun n => (hall n).2.1, fun n => (hall n).2.2.1,
    fun n => (hall n).2.2.2⟩

theorem keepsLinks_markPruned (note : Option String) : KeepsLinks (F := F) (markPruned note) :=
  ⟨fun _ => rfl, fun _ => rfl, fun _ => rfl, fun _ => rfl⟩

theorem storable_markPruned {n : Node F} (h : n.Storable) (note : Option String) :
    (markPruned note n).Storable := by
  simp only [Node.Storable, Node.values, List.forall_mem_cons] at h ⊢
  obtain ⟨hhyp, -, hins, hrest⟩ := h
  refine ⟨hhyp, rfl, ?_, hrest⟩
  unfold markPruned
  dsimp only
  split
  · rfl
  · exact hins

structure Refills (t t' : IdeaTree F) : Prop where
  links : t'.links = t.links
  rootId : t'.rootId = t.rootId
  maxDepth : t'.maxDepth = t.maxDepth
  metadata : t'.metadata = t.metadata
  keyed : (∀ p ∈ t.nodes, p.2.id = p.1) → ∀ p ∈ t'.nodes, p.2.id = p.1
  values : (∀ p ∈ t.nodes, p.2.Storable) → ∀ p ∈ t'.nodes, p.2.Storable

theorem Refills.ids {t t' : IdeaTree F} (h : Refills t t') : t'.ids = t.ids :=
  congrArg Links.ids h.links

theorem Refills.refl (t : IdeaTree F) : Refills t t := ⟨rfl, rfl, rfl, rfl, fun h => h, fun h => h⟩

theorem Refills.trans {t t' t'' : IdeaTree F} (h : Refills t t') (h' : Refills t' t'') :
    Refills t t'' where
  links := h'.links.trans h.links
  rootId := h'.rootId.trans h.rootId
  maxDepth := h'.maxDepth.trans h.maxDepth
  metadata := h'.metadata.trans h.metadata
  keyed := h'.keyed ∘ h.keyed
  values := h'.values ∘ h.values

theorem refills_modifyNode (t : IdeaTree F) (id : String) {f : Node F → Node F} (hf : KeepsLinks f)
    (hv : ∀ n, n.Storable → (f n).Storable) : Refills t (t.modifyNode id f) where
  links := links_modifyNode t id hf
  rootId := rfl
  maxDepth := rfl
  metadata := rfl
  keyed h := forall_modifyNode (P := fun id n => n.id = id) h fun n hn => (hf.id n).trans hn
  values h := forall_modifyNode (P := fun _ n => n.Storable) h fun n hn => hv n hn

theorem refills_updateNode (t : IdeaTree F) (id : String) {updates : List (String × Json F)}
    (hu : ∀ u ∈ updates, u.2.wf = true) : Refills t (t.updateNode id updates).1 := by
  rw [updateNode]
  split
  · exact .refl t
  · exact refills_modifyNode t id (keepsLinks_setFields updates) fun n hn => hn.setFields hu

theorem getNode_normalize (rt : Runtime F) (t : IdeaTree F) (x : String) :
    (t.normalize rt).getNode x = (t.getNode x).map (·.normalize rt) :=
  Members.lookup_map (fun _ => Node.normalize rt) t.nodes x

theorem links_normalize (rt : Runtime F) (t : IdeaTree F) : (t.normalize rt).links = t.links := by
  rw [links, links]
  congr 1
  · exact keys_map _ t.nodes
  · funext x
    rw [getNode_normalize, Option.bind_map]
    rfl
  · funext x
    rw [getNode_normalize, Option.map_map]
    rfl
  · funext x
    rw [getNode_normalize, Option.map_map]
    rfl

theorem storable_normalize (rt : Runtime F) {n : Node F} (h : n.Storable) :
    (n.normalize rt).Storable := by
  simp only [Node.Storable, Node.values, List.forall_mem_cons] at h ⊢
  obtain ⟨hhyp, hstatus, hins, hres, hscore, hcode, hrel, heval, hstop, hatt, hnil⟩ := h
  exact ⟨hhyp, hstatus, Json.wf_ite hins rfl, Json.wf_ite hres rfl, hscore, hcode,
    Json.wf_ite hrel rfl, Json.wf_ite heval rfl, Json.wf_ite hstop rfl, Json.wf_ite hatt rfl, hnil⟩

theorem refills_normalize (rt : Runtime F) (t : IdeaTree F) : Refills t (t.normalize rt) where
  links := links_normalize rt t
  rootId := rfl
  maxDepth := rfl
  metadata := rfl
  keyed h p hp := by
    obtain ⟨q, hq, rfl⟩ := List.mem_map.mp hp
    exact h q hq
  values h p hp := by
    obtain ⟨q, hq, rfl⟩ := List.mem_map.mp hp
    exact storable_normalize rt (h q hq)

theorem refills_pruneFrom (target : String) (note : Option String) (fuel : Nat) (t : IdeaTree F)
    (id : String) : Refills t (pruneFrom target note fuel t id) := by
  induction fuel generalizing t id with
  | zero => exact .refl t
  | succ fuel ih =>
      rw [pruneFrom]
      cases t.getNode id with
      | none => exact .refl t
      | some n =>
          have hfold : ∀ (cs : List String) (t : IdeaTree F),
              Refills t (cs.foldl (pruneFrom target note fuel) t) := by
            intro cs
            induction cs with
            | nil => exact .refl
            | cons c cs ihc => exact fun t => (ih t c).trans (ihc _)
          exact (refills_modifyNode t id (keepsLinks_markPruned _) fun n hn =>
            storable_markPruned hn _).trans (hfold _ _)

theorem refills_pruneNode (rt : Runtime F) (t : IdeaTree F) (id : String) (reason : Json F) :
    Refills t (t.pruneNode rt id reason).1 := by
  rw [pruneNode]
  split
  · exact .refl t
  · split_ifs
    · exact refills_modifyNode t id (keepsLinks_markPruned _) fun n hn => storable_markPruned hn _
    · exact refills_pruneFrom id _ _ t id

theorem getNode_insert {t : IdeaTree F} (node : Node F) (x : String) :
    ({ t with nodes := Members.insert node.id node t.nodes } : IdeaTree F).getNode x =
      if x = node.id then some node else t.getNode x := by
  by_cases h : x = node.id
  · rw [if_pos h, h]
    exact Members.lookup_insert_self node.id node t.nodes
  · rw [if_neg h]
    exact Members.lookup_insert_ne h node t.nodes

theorem getNode_addNode {t : IdeaTree F} {node parent : Node F} {parentId : String}
    (hid : node.id ∉ t.ids) (hp : node.parentId = some parentId)
    (hget : t.getNode parentId = some parent) (hlisted : node.id ∉ parent.childrenIds) (x : String) :
    (t.addNode node).1.getNode x =
      if x = node.id then some node
      else if x = parentId then some { parent with childrenIds := parent.childrenIds ++ [node.id] }
      else t.getNode x := by
  have hparent : parentId ∈ t.ids := mem_ids_iff.mpr ⟨parent, hget⟩
  have hne : parentId ≠ node.id := fun he => hid (he ▸ hparent)
  rw [addNode, if_neg hid, hp]
  simp only [if_pos hparent]
  rw [getNode_modifyNode, getNode_insert]
  by_cases hx : x = parentId
  · rw [if_pos hx, hx, if_neg hne, if_neg hne, if_pos rfl, hget]
    simp [hlisted]
  · rw [if_neg hx, if_neg hx]

theorem ids_addNode {t : IdeaTree F} {node : Node F} {parentId : String} (hid : node.id ∉ t.ids)
    (hp : node.parentId = some parentId) (hparent : parentId ∈ t.ids) :
    (t.addNode node).1.ids = t.ids ++ [node.id] := by
  rw [addNode, if_neg hid, hp]
  simp only [if_pos hparent]
  rw [ids_modifyNode, ids, Members.insert_append_fresh node hid, List.map_append]
  rfl

theorem links_addNode {t : IdeaTree F} {node : Node F} {parentId : String}
    (hid : node.id ∉ t.ids) (hp : node.parentId = some parentId) (hparent : parentId ∈ t.ids)
    (hc : node.childrenIds = []) (hd : node.depth = t.links.depth parentId + 1)
    (hlisted : node.id ∉ t.links.children parentId) :
    (t.addNode node).1.links = t.links.addLeaf node.id parentId := by
  obtain ⟨parent, hget⟩ := mem_ids_iff.mp hparent
  have hget' := getNode_addNode hid hp hget (by simpa [links, hget] using hlisted)
  rw [links, Links.addLeaf, ids_addNode hid hp hparent]
  congr 1
  · funext x
    rw [hget', Function.update_apply]
    split_ifs with hx hx'
    · exact hp
    · simp [links, hx', hget]
    · rfl
  · funext x
    rw [hget', Function.update_apply, Function.update_apply]
    split_ifs with hx hx'
    · exact hc
    · simp [links, hget]
    · rfl
  · funext x
    rw [hget', Function.update_apply]
    split_ifs with hx hx'
    · exact hd
    · simp [links, hx', hget]
    · rfl

end IdeaTree

end DevPilot
