import DevPilot.Core.GeminiProvider
import DevPilot.Lib.DottedIds

/-!
The idea tree of the coordinator: its nodes, the ways they are changed, the
allocation of node ids, and the JSON file it is kept in.
-/

namespace DevPilot

open PyJson DottedIds

variable {F : Type}

/-- The host with what the coordinator asks of floats. -/
structure Runtime (F : Type) extends Host F where
  isZero : F → Bool
  isOne : F → Bool
  addOne : F → F
  exceeds : F → Int → Bool

def Runtime.isTrue (rt : Runtime F) : Json F → Bool
  | .float x => !rt.isZero x
  | v => truthy v

/-- The fields that tools may change hold whatever JSON value they are given. -/
structure Node (F : Type) where
  id : String
  parentId : Option String
  childrenIds : List String := []
  depth : Int := 0
  hypothesis : Json F := .str ""
  status : Json F := .str "pending"
  insight : Json F := .str ""
  result : Json F := .str ""
  score : Json F := .null
  codeRef : Json F := .null
  relatedWork : Json F := .str ""
  evalStatus : Json F := .null
  stopReason : Json F := .null
  attempt : Json F := .int 1

namespace Node

def hasStatus (n : Node F) (status : String) : Bool := n.status.str? == some status

/-- `setattr` for the `MUTABLE_FIELDS`. -/
def setField (n : Node F) (key : String) (value : Json F) : Option (Node F) :=
  match key with
  | "hypothesis" => some { n with hypothesis := value }
  | "status" => some { n with status := value }
  | "insight" => some { n with insight := value }
  | "result" => some { n with result := value }
  | "score" => some { n with score := value }
  | "code_ref" => some { n with codeRef := value }
  | "related_work" => some { n with relatedWork := value }
  | "eval_status" => some { n with evalStatus := value }
  | "stop_reason" => some { n with stopReason := value }
  | "attempt" => some { n with attempt := value }
  | _ => none

/-- The updates up to the first invalid field, and whether all were made. -/
def setFields (n : Node F) : List (String × Json F) → Node F × Bool
  | [] => (n, true)
  | (key, value) :: updates => match n.setField key value with
    | some n => n.setFields updates
    | none => (n, false)

def isNotOne (rt : Runtime F) : Json F → Bool
  | .int n => n != 1
  | .bool b => !b
  | .float x => !rt.isOne x
  | _ => true

def isNull : Json F → Bool
  | .null => true
  | _ => false

def kept : List (Bool × String × Json F) → Members F
  | [] => []
  | (keep, key, value) :: fields => if keep then (key, value) :: kept fields else kept fields

def toDict (rt : Runtime F) (n : Node F) : Json F := .obj <|
  [("id", .str n.id),
    ("parent_id", (n.parentId.map Json.str).getD .null),
    ("children_ids", .arr (n.childrenIds.map .str)),
    ("depth", .int n.depth),
    ("hypothesis", n.hypothesis),
    ("status", n.status)] ++
  kept
    [(rt.isTrue n.insight, "insight", n.insight),
      (rt.isTrue n.result, "result", n.result),
      (!isNull n.score, "score", n.score),
      (!isNull n.codeRef, "code_ref", n.codeRef),
      (rt.isTrue n.relatedWork, "related_work", n.relatedWork),
      (rt.isTrue n.evalStatus, "eval_status", n.evalStatus),
      (rt.isTrue n.stopReason, "stop_reason", n.stopReason),
      (rt.isTrue n.attempt && isNotOne rt n.attempt, "attempt", n.attempt)]

def optionalStr? : Json F → Option (Option String)
  | .null => some none
  | .str s => some (some s)
  | _ => none

def int? : Json F → Option Int
  | .int n => some n
  | _ => none

def strings? : Json F → Option (List String)
  | .arr items => items.mapM Json.str?
  | _ => none

/-- `from_dict`; `none` where a link is missing or ill-typed. -/
def fromDict (data : Json F) : Option (Node F) := do
  let field (key : String) (default : Json F) := (data.get? key).getD default
  let id ← data.getStr? "id"
  let parentId ← optionalStr? (field "parent_id" .null)
  let childrenIds ← strings? (field "children_ids" (.arr []))
  let depth ← int? (field "depth" (.int 0))
  return {
    id, parentId, childrenIds, depth
    hypothesis := field "hypothesis" (.str "")
    status := field "status" (.str "pending")
    insight := field "insight" (.str "")
    result := field "result" (.str "")
    score := field "score" (field "score_delta" .null)
    codeRef := field "code_ref" .null
    relatedWork := field "related_work" (.str "")
    evalStatus := field "eval_status" .null
    stopReason := field "stop_reason" .null
    attempt := field "attempt" (.int 1) }

end Node

structure IdeaTree (F : Type) where
  nodes : List (String × Node F)
  rootId : String
  maxDepth : Option Int
  metadata : Members F

namespace IdeaTree

def defaultMeta : Members F :=
  [("baseline_score", .null), ("trunk_score", .null), ("test_baseline_score", .null),
    ("test_trunk_score", .null), ("eval_cmd", .null), ("eval_cmd_test", .null),
    ("eval_timeout", .null), ("eval_retries", .null), ("eval_retry_base_delay", .null),
    ("eval_retry_max_delay", .null), ("dataset_info", .null), ("metric_direction", .str "maximize"),
    ("submission_path", .null), ("sample_submission_path", .null)]

def ids (t : IdeaTree F) : List String := t.nodes.map Prod.fst

def getNode (t : IdeaTree F) (id : String) : Option (Node F) := t.nodes.lookup id

def modifyNode (t : IdeaTree F) (id : String) (f : Node F → Node F) : IdeaTree F :=
  { t with nodes := t.nodes.map fun p => (p.1, if p.1 = id then f p.2 else p.2) }

/-! Mutations give the new tree and whether it is saved; one that raises may
leave a changed tree behind, but does not save it. -/

def addNode (t : IdeaTree F) (node : Node F) : IdeaTree F × Bool :=
  if node.id ∈ t.ids then (t, false)
  else match node.parentId with
    | none => ({ t with nodes := Members.insert node.id node t.nodes }, true)
    | some parentId =>
        if parentId ∈ t.ids then
          let t := { t with nodes := Members.insert node.id node t.nodes }
          (t.modifyNode parentId fun parent =>
            if node.id ∈ parent.childrenIds then parent
            else { parent with childrenIds := parent.childrenIds ++ [node.id] }, true)
        else (t, false)

/-- `update_node` and `async_update_node`. -/
def updateNode (t : IdeaTree F) (id : String) (updates : List (String × Json F)) :
    IdeaTree F × Bool :=
  match t.getNode id with
  | none => (t, false)
  | some node => (t.modifyNode id fun n => (n.setFields updates).1, (node.setFields updates).2)

/-- What pruning does to a node; the reason is noted on the node it starts from. -/
def markPruned (note : Option String) (n : Node F) : Node F :=
  { n with
    status := .str "pruned"
    insight := match note, n.insight with
      | some reason, .str insight => .str (stripText (insight ++ "\n[Pruned: " ++ reason ++ "]"))
      | _, insight => insight }

/-- `_prune`, at most `fuel` levels deep. -/
def pruneFrom (target : String) (note : Option String) : Nat → IdeaTree F → String → IdeaTree F
  | 0, t, _ => t
  | fuel + 1, t, id => match t.getNode id with
    | none => t
    | some n => n.childrenIds.foldl (pruneFrom target note fuel)
        (t.modifyNode id (markPruned (if id = target then note else none)))

def pruneNote (rt : Runtime F) (reason : Json F) : Option String :=
  if rt.isTrue reason then some (textOf rt.toHost reason) else none

/-- `prune_node`. Adding a reason to an insight that is no text raises, with
only the node itself marked. -/
def pruneNode (rt : Runtime F) (t : IdeaTree F) (id : String) (reason : Json F) : IdeaTree F × Bool :=
  match t.getNode id with
  | none => (t, false)
  | some node =>
      if (pruneNote rt reason).isSome && node.insight.str?.isNone then
        (t.modifyNode id (markPruned none), false)
      else (pruneFrom id (pruneNote rt reason) t.nodes.length t id, true)

def nextChildId (t : IdeaTree F) (parentId : String) : Option String :=
  (t.getNode parentId).map fun parent =>
    child t.rootId parentId (nextNumber t.rootId parentId parent.childrenIds)

def toJson (rt : Runtime F) (t : IdeaTree F) : Json F := .obj
  [("version", .int 3),
    ("meta", .obj t.metadata),
    ("root_id", .str t.rootId),
    ("max_depth", (t.maxDepth.map Json.int).getD .null),
    ("nodes", .obj (t.nodes.map fun p => (p.1, p.2.toDict rt)))]

def saveJson (rt : Runtime F) (t : IdeaTree F) : List Char :=
  dumps rt.fmt (.indented 2) (t.toJson rt)

def members? : Json F → Option (Members F)
  | .obj members => some members
  | _ => none

def optionalInt? : Json F → Option (Option Int)
  | .null => some none
  | .int n => some (some n)
  | _ => none

def ofJson (data : Json F) : Option (IdeaTree F) := do
  let rootId ← data.getStr? "root_id"
  let nodes ← (data.get? "nodes").bind members?
  let root ← (nodes.lookup rootId).bind Node.fromDict
  let maxDepth ← optionalInt? ((data.get? "max_depth").getD .null)
  let loadedMeta ← members? ((data.get? "meta").getD (.obj []))
  let others ← (nodes.filter (·.1 ≠ rootId)).mapM fun p => (Node.fromDict p.2).map (p.1, ·)
  return {
    nodes := others.foldl (fun ns p => Members.insert p.1 p.2 ns) [(root.id, root)]
    rootId := root.id
    maxDepth
    metadata := loadedMeta.foldl (fun ms p => Members.insert p.1 p.2 ms) defaultMeta }

def loadJson (rt : Runtime F) (text : List Char) : Option (IdeaTree F) :=
  (loads rt.fmt text).bind ofJson

end IdeaTree

end DevPilot
