import DevPilot.Coordinator.IdeaTree
import DevPilot.Lib.JsonRoundTrip

/-!
Reading back the file of an idea tree. The encoder drops fields by their
truth value, and the decoder fills in its own defaults.
-/

namespace DevPilot

open PyJson

variable {F : Type}

namespace Node

def normalize (rt : Runtime F) (n : Node F) : Node F :=
  { n with
    insight := if rt.isTrue n.insight then n.insight else .str ""
    result := if rt.isTrue n.result then n.result else .str ""
    relatedWork := if rt.isTrue n.relatedWork then n.relatedWork else .str ""
    evalStatus := if rt.isTrue n.evalStatus then n.evalStatus else .null
    stopReason := if rt.isTrue n.stopReason then n.stopReason else .null
    attempt := if rt.isTrue n.attempt && isNotOne rt n.attempt then n.attempt else .int 1 }

/-- The encoder drops only fields that hold the decoder's default. -/
structure Tidy (rt : Runtime F) (n : Node F) : Prop where
  insight : rt.isTrue n.insight = false → n.insight = .str ""
  result : rt.isTrue n.result = false → n.result = .str ""
  relatedWork : rt.isTrue n.relatedWork = false → n.relatedWork = .str ""
  evalStatus : rt.isTrue n.evalStatus = false → n.evalStatus = .null
  stopReason : rt.isTrue n.stopReason = false → n.stopReason = .null
  attempt : (rt.isTrue n.attempt && isNotOne rt n.attempt) = false → n.attempt = .int 1

theorem ite_eq_self_iff {v default : Json F} {keep : Bool} :
    (if keep then v else default) = v ↔ (keep = false → v = default) := by
  cases keep <;> simp [eq_comm]

theorem normalize_eq_self_iff (rt : Runtime F) (n : Node F) : n.normalize rt = n ↔ n.Tidy rt := by
  constructor
  · intro h
    constructor <;> apply ite_eq_self_iff.mp
    · exact congrArg Node.insight h
    · exact congrArg Node.result h
    · exact congrArg Node.relatedWork h
    · exact congrArg Node.evalStatus h
    · exact congrArg Node.stopReason h
    · exact congrArg Node.attempt h
  · intro h
    simp only [normalize, ite_eq_self_iff.mpr h.insight, ite_eq_self_iff.mpr h.result,
      ite_eq_self_iff.mpr h.relatedWork, ite_eq_self_iff.mpr h.evalStatus,
      ite_eq_self_iff.mpr h.stopReason, ite_eq_self_iff.mpr h.attempt]

theorem lookup_kept_nil (key : String) : (kept [] : Members F).lookup key = none := rfl

theorem lookup_kept_cons (keep : Bool) (key key' : String) (v : Json F)
    (fields : List (Bool × String × Json F)) : (kept ((keep, key, v) :: fields)).lookup key' =
      if keep && key' == key then some v else (kept fields).lookup key' := by
  cases keep with
  | false => rfl
  | true =>
      rw [kept, if_pos rfl, List.lookup_cons]
      cases key' == key <;> rfl

theorem getD_keep (keep : Bool) (v default : Json F) :
    (if keep then some v else none).getD default = if keep then v else default := by
  cases keep <;> rfl

theorem getD_notNull (v : Json F) : (if isNull v = false then some v else none).getD .null = v := by
  cases v <;> rfl

theorem strings?_map (ids : List String) : strings? (.arr (ids.map .str) : Json F) = some ids := by
  rw [strings?]
  induction ids with
  | nil => rfl
  | cons id ids ih => simp [List.mapM_cons, ih]

theorem optionalStr?_map (id : Option String) :
    optionalStr? ((id.map Json.str).getD .null : Json F) = some id := by
  cases id <;> rfl

theorem fromDict_toDict (rt : Runtime F) (n : Node F) :
    fromDict (n.toDict rt) = some (n.normalize rt) := by
  have hattempt := getD_keep (rt.isTrue n.attempt && isNotOne rt n.attempt) n.attempt (.int 1)
  simp only [Bool.and_eq_true] at hattempt
  simp [fromDict, toDict, Json.getStr?, List.lookup_cons, lookup_kept_cons, lookup_kept_nil, strings?_map,
    optionalStr?_map, int?, normalize, getD_keep, getD_notNull, hattempt]

def values (n : Node F) : List (Json F) :=
  [n.hypothesis, n.status, n.insight, n.result, n.score, n.codeRef, n.relatedWork, n.evalStatus,
    n.stopReason, n.attempt]

def Storable (n : Node F) : Prop := ∀ v ∈ n.values, v.wf = true

structure SetsField (n n' : Node F) (key : String) (v : Json F) : Prop where
  id : n'.id = n.id
  parentId : n'.parentId = n.parentId
  childrenIds : n'.childrenIds = n.childrenIds
  depth : n'.depth = n.depth
  status : n'.status = if key = "status" then v else n.status
  values : ∀ w ∈ n'.values, w = v ∨ w ∈ n.values

theorem setField_eq_some {n n' : Node F} {key : String} {v : Json F}
    (h : n.setField key v = some n') : SetsField n n' key v := by
  rw [setField.eq_def] at h
  split at h <;> cases h
  all_goals
    refine ⟨rfl, rfl, rfl, rfl, rfl, ?_⟩
    intro w hw
    simp only [values, List.mem_cons, List.not_mem_nil, or_false] at hw ⊢
    grind

theorem Storable.setFields {n : Node F} (h : n.Storable) {updates : List (String × Json F)}
    (hu : ∀ u ∈ updates, u.2.wf = true) : (n.setFields updates).1.Storable := by
  induction updates generalizing n with
  | nil => exact h
  | cons u updates ih =>
      obtain ⟨hv, hrest⟩ := List.forall_mem_cons.mp hu
      rw [Node.setFields]
      cases hs : n.setField u.1 u.2 with
      | none => exact h
      | some n' =>
          refine ih ?_ hrest
          intro w hw
          rcases (setField_eq_some hs).values w hw with rfl | hw
          · exact hv
          · exact h w hw

theorem keys_kept_sublist (fields : List (Bool × String × Json F)) :
    (Members.keys (kept fields)).Sublist (fields.map (·.2.1)) := by
  induction fields with
  | nil => exact .slnil
  | cons f fields ih =>
      obtain ⟨keep, key, v⟩ := f
      cases keep with
      | false => exact ih.cons _
      | true => exact ih.cons_cons _

theorem wfMembers_kept {fields : List (Bool × String × Json F)}
    (h : ∀ f ∈ fields, f.2.2.wf = true) : Json.wfMembers (kept fields) = true := by
  induction fields with
  | nil => rfl
  | cons f fields ih =>
      obtain ⟨hf, hrest⟩ := List.forall_mem_cons.mp h
      obtain ⟨keep, key, v⟩ := f
      cases keep with
      | false => exact ih hrest
      | true =>
          rw [kept, if_pos rfl, Json.wfMembers, ih hrest, Bool.and_true]
          exact hf

theorem wfMembers_append (ms ms' : Members F) :
    Json.wfMembers (ms ++ ms') = (Json.wfMembers ms && Json.wfMembers ms') := by
  simp [Json.wfMembers_eq_all, List.all_append]

theorem Storable.wf_toDict (rt : Runtime F) {n : Node F} (h : n.Storable) :
    (n.toDict rt).wf = true := by
  have hstrings : Json.wfItems (n.childrenIds.map Json.str : List (Json F)) = true := by
    simp [Json.wfItems_eq_all, List.all_map, Function.comp_def, Json.wf]
  have hparent : ((n.parentId.map Json.str).getD .null : Json F).wf = true := by
    cases n.parentId <;> rfl
  simp only [Storable, values, List.forall_mem_cons] at h
  obtain ⟨hhyp, hstatus, hins, hres, hscore, hcode, hrel, heval, hstop, hatt, -⟩ := h
  rw [toDict, Json.wf, Bool.and_eq_true, decide_eq_true_eq]
  constructor
  · rw [Members.keys, List.map_append]
    refine ((List.Sublist.refl _).append (keys_kept_sublist _)).nodup ?_
    simp only [List.map_cons, List.map_nil]
    decide
  · rw [wfMembers_append, wfMembers_kept]
    · simp [Json.wfMembers, Json.wf, hhyp, hstatus, hstrings, hparent]
    · simp [hins, hres, hscore, hcode, hrel, heval, hstop, hatt]

end Node

namespace IdeaTree

def normalize (rt : Runtime F) (t : IdeaTree F) : IdeaTree F :=
  { t with nodes := t.nodes.map fun p => (p.1, p.2.normalize rt) }

/-- What a tree needs to be written and found again. -/
structure Storable (t : IdeaTree F) : Prop where
  keyed : ∀ p ∈ t.nodes, p.2.id = p.1
  nodup : t.ids.Nodup
  first : t.ids.head? = some t.rootId
  values : ∀ p ∈ t.nodes, p.2.Storable
  metadata : (Json.obj t.metadata).wf = true
  defaults : Members.keys (defaultMeta : Members F) <+: Members.keys t.metadata

theorem keys_map {β γ : Type} (f : β → γ) (ps : List (String × β)) :
    Members.keys (ps.map fun p => (p.1, f p.2)) = Members.keys ps := by
  rw [Members.keys, List.map_map]
  rfl

theorem Storable.wf_toJson (rt : Runtime F) {t : IdeaTree F} (h : t.Storable) :
    (t.toJson rt).wf = true := by
  have hdepth : ((t.maxDepth.map Json.int).getD .null : Json F).wf = true := by
    cases t.maxDepth <;> rfl
  have hnodes : (Json.obj (t.nodes.map fun p => (p.1, p.2.toDict rt))).wf = true := by
    rw [Json.wf, Bool.and_eq_true, decide_eq_true_eq, keys_map, Json.wfMembers_eq_all]
    refine ⟨h.nodup, List.all_eq_true.mpr fun p hp => ?_⟩
    obtain ⟨q, hq, rfl⟩ := List.mem_map.mp hp
    exact (h.values q hq).wf_toDict rt
  rw [toJson, Json.wf, Bool.and_eq_true, decide_eq_true_eq]
  constructor
  · simp only [Members.keys, List.map_cons, List.map_nil]
    decide
  · simp [Json.wfMembers, hdepth, hnodes, h.metadata, show (Json.int 3 : Json F).wf = true from rfl,
      show (Json.str t.rootId : Json F).wf = true from rfl]

theorem optionalInt?_map (n : Option Int) :
    optionalInt? ((n.map Json.int).getD .null : Json F) = some n := by
  cases n <;> rfl

theorem mapM_fromDict (rt : Runtime F) (ps : List (String × Node F)) :
    (ps.map fun p => (p.1, p.2.toDict rt)).mapM (fun p => (Node.fromDict p.2).map (p.1, ·)) =
      some (ps.map fun p => (p.1, p.2.normalize rt)) := by
  induction ps with
  | nil => rfl
  | cons p ps ih => simp [List.mapM_cons, Node.fromDict_toDict, ih]

theorem ofJson_toJson (rt : Runtime F) {t : IdeaTree F} (h : t.Storable) :
    ofJson (t.toJson rt) = some (t.normalize rt) := by
  obtain ⟨root, rest, hnodes⟩ : ∃ root rest, t.nodes = (t.rootId, root) :: rest := by
    have hfirst := h.first
    rw [ids] at hfirst
    cases ht : t.nodes with
    | nil => simp [ht] at hfirst
    | cons p rest =>
        obtain ⟨key, root⟩ := p
        simp only [ht, List.map_cons, List.head?_cons, Option.some.injEq] at hfirst
        exact ⟨root, rest, by rw [hfirst]⟩
  have hid : root.id = t.rootId := h.keyed (t.rootId, root) (hnodes ▸ List.mem_cons_self)
  have hnodup : (Members.keys t.nodes).Nodup := h.nodup
  have hothers : (t.nodes.map fun p => (p.1, p.2.toDict rt)).filter (fun p => !decide (p.1 = t.rootId)) =
      rest.map fun p => (p.1, p.2.toDict rt) := by
    rw [hnodes, Members.keys, List.map_cons, List.nodup_cons] at hnodup
    rw [hnodes, List.map_cons, List.filter_cons, if_neg (by simp)]
    apply List.filter_eq_self.mpr
    intro p hp
    obtain ⟨q, hq, rfl⟩ := List.mem_map.mp hp
    have hne : q.1 ≠ t.rootId := by
      intro he
      apply hnodup.1
      exact List.mem_map.mpr ⟨q, hq, he⟩
    simpa using hne
  have hroot : (t.nodes.map fun p => (p.1, p.2.toDict rt)).lookup t.rootId =
      some (root.toDict rt) := by
    rw [hnodes, List.map_cons, List.lookup_cons]
    simp
  have hput : (rest.map fun p => (p.1, p.2.normalize rt)).foldl
      (fun ns p => Members.insert p.1 p.2 ns) [(t.rootId, root.normalize rt)] =
        (t.normalize rt).nodes := by
    rw [Members.foldl_insert_fresh]
    · rw [normalize, hnodes]
      rfl
    · rw [hnodes] at hnodup
      rw [Members.keys, List.map_append, List.map_map]
      exact hnodup
  have hmeta : t.metadata.foldl (fun ms p => Members.insert p.1 p.2 ms) defaultMeta = t.metadata := by
    have hwf := h.metadata
    rw [Json.wf, Bool.and_eq_true, decide_eq_true_eq] at hwf
    exact Members.foldl_insert_extends h.defaults hwf.1
  have hrootId : (root.normalize rt).id = t.rootId := hid
  rw [ofJson]
  simp only [toJson, Json.getStr?, Json.get?_obj, List.lookup_cons]
  simp [-List.mapM_map, members?, optionalInt?_map, hothers, hroot, Node.fromDict_toDict,
    mapM_fromDict, hmeta]
  rw [hrootId, hput]
  rfl

theorem loadJson_saveJson (rt : Runtime F) {t : IdeaTree F} (h : t.Storable) :
    loadJson rt (t.saveJson rt) = some (t.normalize rt) := by
  rw [loadJson, saveJson, loads_dumps rt.fmt _ (h.wf_toJson rt), Option.bind_some, ofJson_toJson rt h]

theorem normalize_eq_self_iff (rt : Runtime F) (t : IdeaTree F) :
    t.normalize rt = t ↔ ∀ p ∈ t.nodes, p.2.Tidy rt := by
  have hnodes : t.normalize rt = t ↔ (t.nodes.map fun p => (p.1, p.2.normalize rt)) = t.nodes := by
    constructor
    · exact fun h => congrArg IdeaTree.nodes h
    · exact fun h => by rw [normalize, h]
  have hmap := List.map_inj_left (l := t.nodes) (f := fun p => (p.1, p.2.normalize rt)) (g := id)
  rw [List.map_id] at hmap
  rw [hnodes, hmap]
  apply forall₂_congr
  intro p _
  rw [← Node.normalize_eq_self_iff]
  exact ⟨fun h => congrArg Prod.snd h, fun h => by rw [h]; rfl⟩

end IdeaTree

end DevPilot
