import DevPilot.Coordinator.Scores
import DevPilot.Lib.RankSort
import DevPilot.Lib.Slices

/-!
The detector of plateaus: which experiments have not improved on the trunk, in
the order of their completion.
-/

namespace DevPilot

open PyJson RankSort

variable {F N : Type} {rt : Runtime F}

structure ConvergenceConfig (N : Type) where
  enabled : Bool
  minExperiments : Int
  windowSize : Int
  improvementThreshold : N
  parentExhaustionCount : Int
  warnAfter : Int
  forceAfter : Int
  stopAfter : Int

inductive ConvergenceLevel
  | warn
  | paradigmShift
  | stop
deriving DecidableEq

structure ConvergenceSignal (N : Type) where
  level : ConvergenceLevel
  reason : String
  velocity : N
  consecutiveNonImproving : Nat
  exhaustedParents : List String
  suggestedActions : List String

structure ConvergenceState where
  totalDone : Nat
  consecutiveNonImproving : Nat
deriving DecidableEq

namespace IdeaTree

def getChildren (t : IdeaTree F) (id : String) : List (Node F) :=
  match t.getNode id with
  | none => []
  | some node => node.childrenIds.filterMap t.getNode

def doneNodes (nums : Numbers rt N) (t : IdeaTree F) : List (Node F × N) :=
  (t.scoredNodes nums).filter (·.1.id != t.rootId)

end IdeaTree

namespace Detector

variable (nums : Numbers rt N) (config : ConvergenceConfig N) (t : IdeaTree F)

def completionRank (order : List String) (id : String) : Nat :=
  if id ∈ order then order.idxOf id else 999999

def inOrder (order : List String) (nodes : List (Node F × N)) : List (Node F × N) :=
  if order.isEmpty then nodes.insertionSort fun a b => a.1.id ≤ b.1.id
  else byRank (fun p => completionRank order p.1.id) nodes

def delta (score trunk : N) : N := if t.minimizes then nums.sub trunk score else nums.sub score trunk

def isMeaningfulImprovement (score trunk : N) : Bool :=
  if t.isImprovement nums score trunk then
    let threshold := nums.mul (nums.abs trunk) config.improvementThreshold
    nums.less (if nums.isZero threshold then config.improvementThreshold else threshold)
      (delta nums t score trunk)
  else false

def rebuildState (order : List String) (trunk : N) : ConvergenceState :=
  let done := t.doneNodes nums
  ⟨done.length, ((inOrder order done).reverse.takeWhile fun p =>
    !isMeaningfulImprovement nums config t p.2 trunk).length⟩

def computeVelocity (order : List String) (trunk : N) : N :=
  let done := t.doneNodes nums
  let window := Slices.startingAt (inOrder order done) (-config.windowSize)
  if done.length < 2 || window.isEmpty then nums.zero
  else
    let improvements := window.map fun p =>
      if nums.less nums.zero (delta nums t p.2 trunk) then delta nums t p.2 trunk else nums.zero
    nums.share ((IdeaTree.firstBest (fun a b => nums.less b a) improvements).getD nums.zero)
      window.length

def findExhaustedParents (trunk : N) : List String :=
  (t.nodes.map Prod.snd).filterMap fun node =>
    if node.childrenIds.isEmpty || node.id == t.rootId then none
    else
      let done := IdeaTree.scored nums (t.getChildren node.id)
      let recent := Slices.startingAt done (-config.parentExhaustionCount)
      if (done.length : Int) < config.parentExhaustionCount then none
      else if recent.all fun p => !isMeaningfulImprovement nums config t p.2 trunk then some node.id
      else none

def buildReason (consecutive : Nat) (trunk velocity : N) : String :=
  let maximizes := ((t.metadata.lookup "metric_direction").getD (.str "maximize")).str? ==
    some "maximize"
  toString consecutive ++ " consecutive experiments have not meaningfully improved " ++
    "the trunk score (" ++ nums.fixed 5 trunk ++ ", " ++
    (if maximizes then "higher is better" else "lower is better") ++ "). " ++
    "Score velocity: " ++ nums.fixed 6 velocity ++ " per experiment."

def getSuggestions (rt : Runtime F) (exhausted : List String) : ConvergenceLevel → List String
  | .warn =>
      ["Switch to a fundamentally different approach family (Leap)",
        "Ensemble/blend existing diverse results (Combine)",
        "Review if current approach has hit its ceiling"]
  | .paradigmShift =>
      ["MANDATORY: Next idea must use a different approach family",
        "Do NOT expand these exhausted parents: " ++ textOf rt.toHost (.arr (exhausted.map .str)),
        "Try: different model architecture, different methodology, or ensemble",
        "If no promising new directions exist, proceed to finalization"]
  | .stop =>
      ["Ensemble the best diverse candidates if not already done",
        "Run B_test evaluation on current trunk",
        "Finalize and report results",
        "Override ONLY with genuinely novel direction not yet explored"]

def escalation (n : Nat) : Option ConvergenceLevel :=
  if config.stopAfter ≤ n then some .stop
  else if config.forceAfter ≤ n then some .paradigmShift
  else if config.warnAfter ≤ n then some .warn
  else none

def signal (order : List String) (trunk : N) : Option (ConvergenceSignal N) :=
  let state := rebuildState nums config t order trunk
  if (state.totalDone : Int) < config.minExperiments then none
  else (escalation config state.consecutiveNonImproving).map fun level =>
    let velocity := computeVelocity nums config t order trunk
    let exhausted := findExhaustedParents nums config t trunk
    { level
      reason := buildReason nums t state.consecutiveNonImproving trunk velocity
      velocity
      consecutiveNonImproving := state.consecutiveNonImproving
      exhaustedParents := exhausted
      suggestedActions := getSuggestions rt exhausted level }

def record (order : List String) (nodeId : String) : List String :=
  if nodeId ∈ order then order else order ++ [nodeId]

def trunkScore : Option N := if config.enabled then t.metaScore nums "trunk_score" else none

/-- `on_experiment_complete`: the order of completion after it, and the signal. -/
def onExperimentComplete (order : List String) (nodeId : String) :
    List String × Option (ConvergenceSignal N) :=
  match trunkScore nums config t with
  | none => (order, none)
  | some trunk => (record order nodeId, signal nums config t (record order nodeId) trunk)

end Detector

end DevPilot
