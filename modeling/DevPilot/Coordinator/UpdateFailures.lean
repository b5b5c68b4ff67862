import DevPilot.Coordinator.TreeShape

/-!
What an update of a node that raises leaves behind in the tree and in its two files.
-/

namespace DevPilot

open PyJson

variable {F : Type}

namespace Node

def mutableFields : List String :=
  ["hypothesis", "status", "insight", "result", "score", "code_ref", "related_work", "eval_status",
    "stop_reason", "attempt"]

/-- `getattr` for the `MUTABLE_FIELDS`. -/
def field? (n : Node F) (key : String) : Option (Json F) :=
  match key with
  | "hypothesis" => some n.hypothesis
  | "status" => some n.status
  | "insight" => some n.insight
  | "result" => some n.result
  | "score" => some n.score
  | "code_ref" => some n.codeRef
  | "related_work" => some n.relatedWork
  | "eval_status" => some n.evalStatus
  | "stop_reason" => some n.stopReason
  | "attempt" => some n.attempt
  | _ => none

theorem setField_eq_none_iff (n : Node F) (key : String) (v : Json F) :
    n.setField key v = none ↔ key ∉ mutableFields := by
  rw [setField.eq_def]
  split <;> simp_all [mutableFields]

theorem mem_mutableFields_of_setField {n n' : Node F} {key : String} {v : Json F}
    (h : n.setField key v = some n') : key ∈ mutableFields := by
  by_contra hnot
  rw [(setField_eq_none_iff n key v).mpr hnot] at h
  cases h

theorem field?_setField_self {n n' : Node F} {key : String} {v : Json F}
    (h : n.setField key v = some n') :
    n'.field? key = some v := by
  rw [setField.eq_def] at h
  split at h <;> cases h <;> rfl

theorem field?_setField_ne {n n' : Node F} {key k : String} {v : Json F}
    (h : n.setField key v = some n')
    (hk : k ≠ key) : n'.field? k = n.field? k := by
  rw [setField.eq_def] at h
  rw [field?.eq_def, field?.eq_def]
  split at h <;> cases h <;> split <;> first | rfl | exact absurd rfl hk

theorem setField_eq_self {n n' : Node F} {key : String} {v : Json F}
    (h : n.setField key v = some n')
    (hv : n.field? key = some v) : n' = n := by
  rw [setField.eq_def] at h
  split at h <;> cases h <;> cases hv <;> rfl

theorem field?_setFields_of_not_mem {updates : List (String × Json F)} {k : String}
    (hk : k ∉ Members.keys updates)
    (n : Node F) : (n.setFields updates).1.field? k = n.field? k := by
  induction updates generalizing n with
  | nil => rfl
  | cons u updates ih =>
      rw [Members.keys, List.map_cons, List.mem_cons, not_or] at hk
      rw [setFields]
      cases hset : n.setField u.1 u.2 with
      | none => rfl
      | some n' =>
          dsimp only
          rw [ih hk.2, field?_setField_ne hset hk.1]

theorem setFields_ok (n : Node F) (updates : List (String × Json F)) :
    (n.setFields updates).2 = updates.all (·.1 ∈ mutableFields) := by
  induction updates generalizing n with
  | nil => rfl
  | cons u updates ih =>
      rw [setFields, List.all_cons]
      cases hset : n.setField u.1 u.2 with
      | none => simp [(setField_eq_none_iff n u.1 u.2).mp hset]
      | some n' =>
          have hmem := mem_mutableFields_of_setField hset
          simp [hmem, ih]

/-- The updates before the first invalid key say what the node holds already. -/
def Holds (n : Node F) (updates : List (String × Json F)) : Prop :=
  ∀ u ∈ updates.takeWhile (·.1 ∈ mutableFields), n.field? u.1 = some u.2

theorem setFields_eq_self_iff {updates : List (String × Json F)}
    (hkeys : (Members.keys updates).Nodup) (n : Node F) :
    (n.setFields updates).1 = n ↔ n.Holds updates := by
  rw [Holds]
  induction updates generalizing n with
  | nil => simp [setFields]
  | cons u updates ih =>
      rw [Members.keys, List.map_cons, List.nodup_cons] at hkeys
      rw [setFields, List.takeWhile_cons]
      cases hset : n.setField u.1 u.2 with
      | none => simp [(setField_eq_none_iff n u.1 u.2).mp hset]
      | some n' =>
          have hmem := mem_mutableFields_of_setField hset
          dsimp only
          rw [if_pos (decide_eq_true hmem), List.forall_mem_cons]
          by_cases hv : n.field? u.1 = some u.2
          · rw [setField_eq_self hset hv, ih hkeys.2, and_iff_right hv]
          · refine iff_of_false (fun heq => hv ?_) fun h => hv h.1
            rw [← heq, field?_setFields_of_not_mem hkeys.1, field?_setField_self hset]

end Node

/-- The tree and the texts in its two files, for those that have a path. -/
structure SavedTree (F : Type) where
  tree : IdeaTree F
  json : Option (List Char)
  markdown : Option String

/-- Which of the two files cannot be written. -/
structure WriteFailures where
  json : Bool
  markdown : Bool

section

/-! `fixed v` is the text of `v` with one decimal, `none` where formatting raises. -/
variable (rt : Runtime F) (fixed : Json F → Option String)

/-- `_render_md`, at most `fuel` levels deep; the status has to be a text. -/
def renderNode (t : IdeaTree F) : ℕ → Node F → ℕ → Option (List String)
  | 0, _, _ => none
  | fuel + 1, node, level => do
      let score ← if Node.isNull node.score then some "" else
        (fixed node.score).map fun text => " (score: " ++ text ++ "%)"
      let status ← node.status.str?
      let heading := String.ofList (List.replicate (min level 6) '#') ++ " " ++ node.id ++ ": " ++
        textOf rt.toHost node.hypothesis ++ " [" ++ status.map Char.toUpper ++ "]" ++ score ++ "\n"
      let part (before after : String) (v : Json F) : List String :=
        if rt.isTrue v then [before ++ textOf rt.toHost v ++ after] else []
      let below ← (node.childrenIds.filterMap t.getNode).mapM fun child => renderNode t fuel child
        (level + 1)
      return heading :: part "**Insight**: " "\n" node.insight ++
        part "**Related work**:\n\n" "\n" node.relatedWork ++ part "**Result**: " "\n"
          node.result ++
        part "**Branch**: `" "`\n" node.codeRef ++ below.flatten

/-- `_fmt`. -/
def formatScore : Json F → Option String
  | .null => some "N/A"
  | .float x => (fixed (.float x)).map (· ++ "%")
  | v => some (textOf rt.toHost v)

def toMarkdown (t : IdeaTree F) : Option String := do
  let baseline ← formatScore rt fixed ((t.metadata.lookup "baseline_score").getD .null)
  let trunk ← formatScore rt fixed ((t.metadata.lookup "trunk_score").getD .null)
  let root ← t.getNode t.rootId
  let body ← renderNode rt fixed t (t.nodes.length + 1) root 2
  return "\n".intercalate ("# Idea Tree\n" ::
    ("**Baseline**: " ++ baseline ++ " | **Trunk**: " ++ trunk ++ "\n") :: body)

namespace SavedTree

/-- What is stored after writing the JSON file, and whether that raised nothing. -/
def saveJson (fails : WriteFailures) (s : SavedTree F) : SavedTree F × Bool :=
  match s.json with
  | none => (s, true)
  | some _ => if fails.json then (s, false) else ({ s with json := some (s.tree.saveJson rt) },
      true)

def saveMarkdown (fails : WriteFailures) (s : SavedTree F) : SavedTree F × Bool :=
  match s.markdown with
  | none => (s, true)
  | some _ => match toMarkdown rt fixed s.tree with
    | none => (s, false)
    | some text => if fails.markdown then (s, false) else ({ s with markdown := some text }, true)

def save (fails : WriteFailures) (s : SavedTree F) : SavedTree F × Bool :=
  match s.saveJson rt fails with
  | (s, true) => s.saveMarkdown rt fixed fails
  | (s, false) => (s, false)

/-- `update_node` and `async_update_node` with their save; events are sent behind it. -/
def updateNode (fails : WriteFailures) (s : SavedTree F) (id : String)
    (updates : List (String × Json F)) :
    SavedTree F × Bool :=
  match s.tree.updateNode id updates with
  | (tree, true) => ({ s with tree } : SavedTree F).save rt fixed fails
  | (tree, false) => ({ s with tree }, false)

end SavedTree

end

def forwardedUpdates (arguments : Members F) : List (String × Json F) :=
  arguments.filter fun p => p.1 ≠ "node_id" && !Node.isNull p.2

variable {rt : Runtime F} {fixed : Json F → Option String}

namespace SavedTree

def SavesMarkdown (rt : Runtime F) (fixed : Json F → Option String) (fails : WriteFailures)
    (s : SavedTree F)
    (tree : IdeaTree F) : Prop :=
  s.markdown = none ∨ (toMarkdown rt fixed tree).isSome ∧ fails.markdown = false

def JsonCurrent (rt : Runtime F) (s : SavedTree F) : Prop := ∀ text ∈ s.json, text =
    s.tree.saveJson rt

def JsonFails (fails : WriteFailures) (s : SavedTree F) : Prop := s.json ≠ none ∧ fails.json = true

theorem save_cases (fails : WriteFailures) (s : SavedTree F) :
    s.JsonFails fails ∧ s.save rt fixed fails = (s, false) ∨
      (¬s.JsonFails fails ∧ s.SavesMarkdown rt fixed fails s.tree) ∧ (s.save rt fixed fails).2 =
        true ∨
        (¬s.JsonFails fails ∧ ¬s.SavesMarkdown rt fixed fails s.tree) ∧
          s.save rt fixed fails = ({ s with json := s.json.map fun _ => s.tree.saveJson rt },
            false) := by
  have hmarkdown : ∀ s : SavedTree F, s.SavesMarkdown rt fixed fails s.tree ∧
    (s.saveMarkdown rt fixed fails).2 = true ∨
      ¬s.SavesMarkdown rt fixed fails s.tree ∧ s.saveMarkdown rt fixed fails = (s, false) := by
    intro s
    rw [SavesMarkdown, saveMarkdown]
    cases s.markdown with
    | none => exact .inl ⟨.inl rfl, rfl⟩
    | some old => cases toMarkdown rt fixed s.tree <;> cases fails.markdown <;> simp
  by_cases hfails : s.JsonFails fails
  · left
    refine ⟨hfails, ?_⟩
    obtain ⟨old, hold⟩ := Option.ne_none_iff_exists'.mp hfails.1
    rw [save, saveJson, hold]
    dsimp only
    rw [if_pos hfails.2]
  · right
    have hjson : s.saveJson rt fails = ({ s with json := s.json.map fun _ => s.tree.saveJson rt },
      true) := by
      rw [saveJson]
      cases hold : s.json with
      | none =>
          dsimp only
          rw [Option.map_none, ← hold]
      | some old =>
          have hwrites : ¬fails.json = true := fun h => hfails ⟨by simp [hold], h⟩
          dsimp only
          rw [if_neg hwrites]
          rfl
    have hsave : s.save rt fixed fails =
        ({ s with json := s.json.map fun _ => s.tree.saveJson rt } : SavedTree F).saveMarkdown rt
          fixed fails := by
      rw [save, hjson]
    rw [hsave]
    rcases hmarkdown { s with json := s.json.map fun _ => s.tree.saveJson rt } with ⟨h, hok⟩ |
      ⟨h, hraise⟩
    · exact .inl ⟨⟨hfails, h⟩, hok⟩
    · exact .inr ⟨⟨hfails, h⟩, hraise⟩

theorem modifyNode_eq_self_iff (t : IdeaTree F) (id : String) (f : Node F → Node F) :
    t.modifyNode id f = t ↔ ∀ p ∈ t.nodes, p.1 = id → f p.2 = p.2 := by
  have hnodes : t.modifyNode id f = t ↔
      t.nodes.map (fun p => (p.1, if p.1 = id then f p.2 else p.2)) = t.nodes.map fun p => p := by
    rw [List.map_id']
    exact ⟨congrArg IdeaTree.nodes, fun h => by rw [IdeaTree.modifyNode, h]⟩
  rw [hnodes, List.map_inj_left]
  refine forall₂_congr fun p _ => ?_
  by_cases hp : p.1 = id
  · rw [if_pos hp, forall_prop_of_true hp, Prod.ext_iff]
    exact and_iff_right rfl
  · rw [if_neg hp]
    exact iff_of_true rfl fun h => absurd h hp

def Holds (s : SavedTree F) (id : String) (updates : List (String × Json F)) : Prop :=
  ∀ p ∈ s.tree.nodes, p.1 = id → p.2.Holds updates

def updated (s : SavedTree F) (id : String) (updates : List (String × Json F)) : IdeaTree F :=
  s.tree.modifyNode id fun n => (n.setFields updates).1

end SavedTree

def pendingTree : SavedTree FloatText where
  tree :=
    { nodes := [("ROOT", { id := "ROOT", parentId := none })]
      rootId := "ROOT"
      maxDepth := none
      metadata := [] }
  json := none
  markdown := none

def writesAll : WriteFailures := { json := false, markdown := false }

def misnamedArguments : Members FloatText :=
  [("node_id", .str "ROOT"), ("status", .str "done"), ("note", .str "x")]

end DevPilot
