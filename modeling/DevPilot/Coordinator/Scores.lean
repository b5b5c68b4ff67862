import DevPilot.Coordinator.TreeShape

/-!
What the coordinator makes of scores: which of two is better under the metric's
direction, the best node, the gate of the related-work search, and the best
score of the run statistics.
-/

namespace DevPilot

open PyJson

variable {F N : Type} {rt : Runtime F}

/-- The numbers of the host, ints and floats, with the rounding they have.
Negation is exact and reverses them. -/
structure Numbers (rt : Runtime F) (N : Type) where
  number? : Json F → Option N
  ofNumber : N → Json F
  zero : N
  isZero : N → Bool
  less : N → N → Bool
  atMost : N → N → Bool
  neg : N → N
  abs : N → N
  sub : N → N → N
  mul : N → N → N
  share : N → Nat → N
  fixed : Nat → N → String
  number?_null : number? .null = none
  number?_ofNumber : ∀ n, number? (ofNumber n) = some n
  isTrue_number : ∀ v n, number? v = some n → rt.isTrue v = !isZero n
  isZero_neg : ∀ a, isZero (neg a) = isZero a
  neg_neg : ∀ a, neg (neg a) = a
  less_neg : ∀ a b, less (neg a) (neg b) = less b a
  atMost_neg : ∀ a b, atMost (neg a) (neg b) = atMost b a
  atMost_neg_zero : ∀ a, atMost (neg a) zero = atMost zero a
  abs_neg : ∀ a, abs (neg a) = abs a
  sub_neg : ∀ a b, sub (neg a) (neg b) = sub b a

/-- The status is `done` or `merged`. -/
def Node.isCompleted (n : Node F) : Bool := ["done", "merged"].any n.hasStatus

namespace IdeaTree

variable (nums : Numbers rt N)

def metaScore (t : IdeaTree F) (key : String) : Option N := (t.metadata.lookup key).bind nums.number?

/-- `metric_direction` is `minimize`. -/
def minimizes (t : IdeaTree F) : Bool :=
  ((t.metadata.lookup "metric_direction").bind Json.str?) == some "minimize"

def isImprovement (t : IdeaTree F) (newScore oldScore : N) : Bool :=
  if t.minimizes then nums.less newScore oldScore else nums.less oldScore newScore

/-- The first of the best, as `min` and `max` find it. -/
def firstBest {α : Type} (beats : α → α → Bool) : List α → Option α
  | [] => none
  | x :: xs => some (xs.foldl (fun best x => if beats x best then x else best) x)

def scored (nodes : List (Node F)) : List (Node F × N) :=
  nodes.filterMap fun n => if n.isCompleted then (nums.number? n.score).map (n, ·) else none

def scoredNodes (t : IdeaTree F) : List (Node F × N) := scored nums (t.nodes.map Prod.snd)

def getBestDoneNode (t : IdeaTree F) : Option (Node F) :=
  (firstBest (fun a b => if t.minimizes then nums.less a.2 b.2 else nums.less b.2 a.2)
    (t.scoredNodes nums)).map Prod.fst

end IdeaTree

inductive Skipped (N : Type)
  | status
  | unscored
  | score (score : N) (reference : String) (threshold : N)

def searchThreshold (nums : Numbers rt N) (t : IdeaTree F) : N :=
  ((t.metaScore nums "trunk_score").orElse fun _ => t.metaScore nums "baseline_score").getD nums.zero

/-- `_validation_gate`: why a node is not searched for, if it is not. -/
def validationGate (nums : Numbers rt N) (t : IdeaTree F) (node : Node F) (requireValidated : Bool) :
    Option (Skipped N) :=
  if !requireValidated then none
  else if !node.isCompleted then some .status
  else match nums.number? node.score with
    | none => some .unscored
    | some score =>
        let reference := if (t.metaScore nums "trunk_score").isSome then "trunk"
          else if (t.metaScore nums "baseline_score").isSome then "baseline" else "0"
        if nums.atMost score (searchThreshold nums t) then
          some (.score score reference (searchThreshold nums t))
        else none

def statsScores (nums : Numbers rt N) (t : IdeaTree F) : List N :=
  t.nodes.filterMap fun p => if p.2.depth == 0 then none else nums.number? p.2.score

/-- The best score of `_write_run_stats`. -/
def statsBestScore (nums : Numbers rt N) (t : IdeaTree F) : Option N :=
  IdeaTree.firstBest (fun a b => nums.less b a) (statsScores nums t)

def integerNumbers : Numbers literalRuntime Int where
  number? v := match v with
    | .int n => some n
    | _ => none
  ofNumber := .int
  zero := 0
  isZero n := n == 0
  less a b := a < b
  atMost a b := a ≤ b
  neg a := -a
  abs a := a.natAbs
  sub a b := a - b
  mul a b := a * b
  share a n := a / n
  fixed _ a := toString a
  number?_null := rfl
  number?_ofNumber _ := rfl
  isTrue_number v n h := by
    cases v with
    | int m =>
        obtain rfl := Option.some.inj h
        rfl
    | _ => cases h
  isZero_neg a := by simp
  neg_neg a := by simp
  less_neg a b := by simp
  atMost_neg a b := by simp
  atMost_neg_zero a := by simp
  abs_neg a := by simp
  sub_neg a b := neg_sub_neg a b

end DevPilot
