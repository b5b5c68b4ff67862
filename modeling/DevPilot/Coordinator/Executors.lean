import DevPilot.Coordinator.IdeaTree
import DevPilot.Core.AgentLoop
import DevPilot.Lib.Runs

/-!
The coordinator over its idea tree: the tree tools, the dispatch of executors
and what they report, and resuming from the saved tree.
-/

namespace DevPilot

open PyJson

variable {F : Type}

/-- A value of the host, whose dictionaries have distinct keys. -/
abbrev Value (F : Type) := { v : Json F // v.wf = true }

structure CoordinatorConfig (F : Type) where
  runtime : Runtime F
  task : String
  maxTreeDepth : Option Int
  maxCycles : Int
  maxRetries : Int
  maxParallelExecutors : Option Int
  /-- `interaction_mode` is `review` or `collaborative`. -/
  reviews : Bool

structure Dispatch (F : Type) where
  nodeId : String
  attempt : Json F

structure Coordinator (F : Type) where
  tree : IdeaTree F
  saved : IdeaTree F
  /-- The nodes whose dispatch was let through and has not started. -/
  queued : List String
  inFlight : List (Dispatch F)

structure Outcome (F : Type) where
  parsed : Value F
  rawReport : String
  stopReason : Option String
  actualBranch : String

inductive CoordinatorEvent (F : Type)
  | addNode (parentId : String) (hypothesis : Value F) (reply : Option String)
  | updateNode (nodeId : String) (updates : List (String × Value F))
  | prune (nodeId : String) (reason : Value F)
  /-- TreeSetMeta, a cached baseline or an evaluation contract. -/
  | setMeta (updates : List (String × Value F))
  | setMedal (medal : String)
  | noteInsight (nodeId insight : String)
  | noteRelatedWork (nodeId relatedWork : String)
  | runExecutor (nodeId : String)
  | runExecutorParallel (nodeIds : List String)
  | resumeExecutor (nodeId : String)
  | skip (i : Nat)
  /-- `_run_single_executor` runs up to the creation of the worktree. -/
  | start (i : Nat)
  | worktreeFailed (i : Nat) (error : String)
  | finished (i : Nat) (outcome : Outcome F)
  | crashed (i : Nat)
  | restart

/-- The reply of a user: `none` to skip, else the text to use, if any. -/
def readReview (reply : Option String) : Option (Option String) :=
  match reply with
  | none => some none
  | some reply =>
      let text := stripText reply
      if String.ofList (lower text) ∈ ["", "approve", "approved", "yes", "y", "ok", "go"] then some none
      else if String.ofList (lower text) ∈ ["skip", "no", "n", "reject"] then none
      else
        let text := if "edit ".toList.isPrefixOf (lower text) then
          stripText (Slices.textStartingAt text 5) else text
        some (if text.isEmpty then none else some text)

/-- `_review_proposed_idea`. -/
def reviewIdea (config : CoordinatorConfig F) (reply : Option String) : Option (Option String) :=
  if config.reviews then readReview reply else some none

def cycleStatuses : List String := ["done", "merged", "pruned", "failed", "needs_retry"]

def completedCycles (t : IdeaTree F) : Nat :=
  (t.nodes.filter fun p => p.2.id != t.rootId && cycleStatuses.any p.2.hasStatus).length

def achievedGold (t : IdeaTree F) : Bool :=
  ((t.metadata.lookup "achieved_medal").bind Json.str?) == some "gold"

/-- `max_depth` is set and the node lies above it. -/
def isShallow (t : IdeaTree F) (node : Node F) : Bool := t.maxDepth.any (node.depth < ·)

/-- `attempt + 1`, for numbers. -/
def nextAttempt (rt : Runtime F) : Json F → Option (Json F)
  | .int n => some (.int (n + 1))
  | .bool b => some (.int (b.toNat + 1))
  | .float x => some (.float (rt.addOne x))
  | _ => none

/-- `attempt > limit`, for numbers. -/
def exceedsLimit (rt : Runtime F) (limit : Int) : Json F → Option Bool
  | .int n => some (limit < n)
  | .bool b => some (limit < b.toNat)
  | .float x => some (rt.exceeds x limit)
  | _ => none

def dispatchAttempt (rt : Runtime F) (node : Node F) (resume : Bool) : Option (Json F) :=
  if resume then nextAttempt rt node.attempt else some node.attempt

/-- `_validate_dispatch`: the attempt of the dispatch, if it is let through. -/
def validateDispatch (rt : Runtime F) (t : IdeaTree F) (nodeId : String) (resume : Bool) :
    Option (Json F) :=
  if achievedGold t then none
  else (t.getNode nodeId).bind fun node =>
    if ["pending", "running", "needs_retry"].any node.hasStatus then
      if isShallow t node then none else dispatchAttempt rt node resume
    else none

def validatesParallel (t : IdeaTree F) (nodeId : String) : Bool :=
  (t.getNode nodeId).any fun node =>
    ["pending", "needs_retry"].any node.hasStatus && !isShallow t node

def canResume (config : CoordinatorConfig F) (t : IdeaTree F) (nodeId : String) : Bool :=
  (t.getNode nodeId).any fun node =>
    node.hasStatus "needs_retry" && config.runtime.isTrue node.codeRef &&
      exceedsLimit config.runtime config.maxRetries node.attempt == some false

def isNumber : Json F → Bool
  | .int _ | .float _ => true
  | _ => false

def classifyExecutorOutcome (score evalStatus : Json F) (stopReason : Option String)
    (rawReport : String) : String :=
  if isNumber score then "done"
  else if "[Timed out".toList.isPrefixOf rawReport.toList ||
      "[Error:".toList.isPrefixOf rawReport.toList then "needs_retry"
  else if stopReason = some "max_turns" then "needs_retry"
  else if evalStatus.str? = some "skipped" then "done"
  else "needs_retry"

/-- The update an outcome makes to its node; `none` where the parsed report is
no dictionary, and reading it raises. -/
def outcomeUpdates (rt : Runtime F) (o : Outcome F) (attempt : Json F) :
    Option (List (String × Json F)) :=
  (IdeaTree.members? o.parsed.1).map fun parsed =>
    let field (key : String) (default : Json F) := (parsed.lookup key).getD default
    let score := field "score" .null
    let insight := field "insight" (.str "")
    let result := field "result" (.str "")
    let codeRef := field "code_ref" .null
    let evalStatus := field "eval_status" (.str "failed_to_run")
    [("status", .str (classifyExecutorOutcome score evalStatus o.stopReason o.rawReport)),
      ("score", score),
      ("insight", if rt.isTrue insight then insight
        else .str (if "[Timed out".toList.isPrefixOf o.rawReport.toList then "Timed out" else "")),
      ("result", if rt.isTrue result then result
        else .str (Slices.textUpTo o.rawReport 300)),
      ("code_ref", if rt.isTrue codeRef then codeRef else .str o.actualBranch),
      ("eval_status", evalStatus),
      ("stop_reason", (o.stopReason.map Json.str).getD .null),
      ("attempt", attempt)]

namespace Coordinator

/-- A mutation of the tree, which reaches the file if it is saved. -/
def commit (s : Coordinator F) (r : IdeaTree F × Bool) : Coordinator F :=
  { s with tree := r.1, saved := if r.2 then r.1 else s.saved }

def fresh (config : CoordinatorConfig F) : Coordinator F :=
  let root : Node F :=
    { id := "ROOT", parentId := none
      hypothesis := .str (if config.task.isEmpty then "Research optimization" else config.task)
      status := .str "done" }
  let tree : IdeaTree F :=
    { nodes := [("ROOT", root)], rootId := "ROOT", maxDepth := config.maxTreeDepth
      metadata := IdeaTree.defaultMeta }
  ⟨tree, tree, [], []⟩

def addNode (config : CoordinatorConfig F) (s : Coordinator F) (parentId : String)
    (hypothesis : Json F) (reply : Option String) : Coordinator F :=
  match s.tree.getNode parentId with
  | none => s
  | some parent =>
      let newDepth := parent.depth + 1
      if s.tree.maxDepth.any (newDepth > ·) then s
      else match reviewIdea config reply with
        | none => s
        | some revised => match s.tree.nextChildId parentId with
          | none => s
          | some id => s.commit (s.tree.addNode
              { id, parentId := some parentId, depth := newDepth
                hypothesis := (revised.map Json.str).getD hypothesis })

def startExecutor (config : CoordinatorConfig F) (s : Coordinator F) (nodeId : String)
    (resume : Bool) : Coordinator F :=
  match validateDispatch config.runtime s.tree nodeId resume with
  | none => s
  | some attempt =>
      let s := s.commit (s.tree.updateNode nodeId [("status", .str "running")])
      { s with inFlight := s.inFlight ++ [⟨nodeId, attempt⟩] }

def admittedParallel (config : CoordinatorConfig F) (t : IdeaTree F) (nodeIds : List String) :
    List String :=
  let remaining := config.maxCycles - completedCycles t
  let bounded := match config.maxParallelExecutors with
    | some m => if m ≤ 1 then [] else nodeIds.take m.toNat
    | none => nodeIds
  let tasks := bounded.take remaining.toNat
  if achievedGold t || remaining ≤ 0 || !tasks.all (validatesParallel t) then [] else tasks

def metaKeys : List String := (IdeaTree.defaultMeta : Members Unit).map Prod.fst

def requeue (s : Coordinator F) (nodeIds : List String) : Coordinator F :=
  nodeIds.foldl (fun s id => s.commit (s.tree.updateNode id [("status", .str "pending")])) s

def resume (config : CoordinatorConfig F) (saved loaded : IdeaTree F) : Coordinator F :=
  let tree := { loaded with maxDepth := config.maxTreeDepth.orElse fun _ => loaded.maxDepth }
  requeue ⟨tree, saved, [], []⟩ ((tree.nodes.filter (·.2.hasStatus "running")).map (·.2.id))

def step (config : CoordinatorConfig F) (s : Coordinator F) :
    CoordinatorEvent F → Coordinator F
  | .addNode parentId hypothesis reply => s.addNode config parentId hypothesis.1 reply
  | .updateNode nodeId updates =>
      let updates := (updates.map fun u => (u.1, u.2.1)).filter fun u => !Node.isNull u.2
      if updates.isEmpty then s else s.commit (s.tree.updateNode nodeId updates)
  | .prune nodeId reason => s.commit (s.tree.pruneNode config.runtime nodeId reason.1)
  | .setMeta updates =>
      let updates := updates.filter (·.1 ∈ metaKeys)
      if updates.isEmpty then s
      else s.commit ({ s.tree with
        metadata := updates.foldl (fun ms u => Members.insert u.1 u.2.1 ms) s.tree.metadata }, true)
  | .setMedal medal => s.commit ({ s.tree with
      metadata := Members.insert "achieved_medal" (.str medal) s.tree.metadata }, false)
  | .noteInsight nodeId insight => s.commit (s.tree.updateNode nodeId [("insight", .str insight)])
  | .noteRelatedWork nodeId relatedWork =>
      s.commit (s.tree.updateNode nodeId [("related_work", .str relatedWork)])
  | .runExecutor nodeId =>
      if config.maxCycles ≤ completedCycles s.tree then s
      else { s with queued := s.queued ++ [nodeId] }
  | .runExecutorParallel nodeIds =>
      { s with queued := s.queued ++ admittedParallel config s.tree nodeIds }
  | .resumeExecutor nodeId =>
      if canResume config s.tree nodeId && completedCycles s.tree < config.maxCycles then
        s.startExecutor config nodeId true
      else s
  | .skip i => match s.queued[i]? with
      | none => s
      | some nodeId =>
          if config.reviews then
            { s with queued := s.queued.eraseIdx i }.commit
              (s.tree.pruneNode config.runtime nodeId (.str "skipped by user in review"))
          else s
  | .start i => match s.queued[i]? with
      | none => s
      | some nodeId => { s with queued := s.queued.eraseIdx i }.startExecutor config nodeId false
  | .worktreeFailed i error => match s.inFlight[i]? with
      | none => s
      | some d => { s with inFlight := s.inFlight.eraseIdx i }.commit
          (s.tree.updateNode d.nodeId [("status", .str "pending"),
            ("result", .str ("Worktree creation failed: " ++ error))])
  | .finished i outcome => match s.inFlight[i]? with
      | none => s
      | some d =>
          let s := { s with inFlight := s.inFlight.eraseIdx i }
          match outcomeUpdates config.runtime outcome d.attempt with
          | none => s
          | some updates => s.commit (s.tree.updateNode d.nodeId updates)
  | .crashed i => { s with inFlight := s.inFlight.eraseIdx i }
  | .restart => match IdeaTree.loadJson config.runtime (s.saved.saveJson config.runtime) with
      | none => s
      | some loaded => resume config s.saved loaded

end Coordinator

end DevPilot
