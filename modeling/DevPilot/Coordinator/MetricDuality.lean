import DevPilot.Coordinator.Convergence
import DevPilot.Coordinator.MergeGate

/-!
Negating every score and turning the direction of the metric: which decisions
of the coordinator do not notice.
-/

namespace DevPilot

open PyJson RankSort

variable {F N : Type} {rt : Runtime F} (nums : Numbers rt N)

def Numbers.negate (v : Json F) : Json F :=
  match nums.number? v with
  | some n => nums.ofNumber (nums.neg n)
  | none => v

def Node.negated (n : Node F) : Node F := { n with score := nums.negate n.score }

def scoreKeys : List String :=
  ["baseline_score", "trunk_score", "test_baseline_score", "test_trunk_score"]

namespace IdeaTree

def negateMeta (key : String) (v : Json F) : Json F := if key ∈ scoreKeys then nums.negate v else v

def negated (t : IdeaTree F) : IdeaTree F :=
  { t with
    nodes := t.nodes.map fun p => (p.1, p.2.negated nums)
    metadata := Members.insert "metric_direction"
      (.str (if t.minimizes then "maximize" else "minimize"))
      (t.metadata.map fun p => (p.1, negateMeta nums p.1 p.2)) }

end IdeaTree

theorem Numbers.number?_negate (v : Json F) :
    nums.number? (nums.negate v) = (nums.number? v).map nums.neg := by
  rw [negate]
  cases h : nums.number? v with
  | none => exact h
  | some n => exact nums.number?_ofNumber _

theorem Numbers.isTrue_negate (v : Json F) : rt.isTrue (nums.negate v) = rt.isTrue v := by
  rw [negate]
  cases h : nums.number? v with
  | none => rfl
  | some n =>
      rw [nums.isTrue_number v n h, nums.isTrue_number _ _ (nums.number?_ofNumber _), nums.isZero_neg]

theorem Numbers.isNull_of_number? {v : Json F} {n : N} (h : nums.number? v = some n) :
    Node.isNull v = false := by
  cases v with
  | null =>
      rw [nums.number?_null] at h
      cases h
  | _ => rfl

theorem Numbers.isNull_negate (v : Json F) : Node.isNull (nums.negate v) = Node.isNull v := by
  rw [negate]
  cases h : nums.number? v with
  | none => rfl
  | some n => rw [nums.isNull_of_number? h, nums.isNull_of_number? (nums.number?_ofNumber _)]

theorem Numbers.neg_injective : Function.Injective nums.neg :=
  Function.LeftInverse.injective nums.neg_neg

namespace IdeaTree

variable (t : IdeaTree F)

theorem lookup_negated {key : String} (h : key ≠ "metric_direction") :
    (t.negated nums).metadata.lookup key = (t.metadata.lookup key).map (negateMeta nums key) :=
  (Members.lookup_insert_ne h _ _).trans (Members.lookup_map _ _ _)

theorem lookup_negated_other {key : String} (h : key ≠ "metric_direction") (hkey : key ∉ scoreKeys) :
    (t.negated nums).metadata.lookup key = t.metadata.lookup key := by
  have hsame : negateMeta nums key = id := by
    funext v
    exact if_neg hkey
  rw [lookup_negated nums t h, hsame, Option.map_id, id]

theorem metaScore_negated {key : String} (h : key ∈ scoreKeys) :
    (t.negated nums).metaScore nums key = (t.metaScore nums key).map nums.neg := by
  have hne : key ≠ "metric_direction" := by
    rintro rfl
    revert h
    decide
  rw [metaScore, metaScore, lookup_negated nums t hne]
  cases t.metadata.lookup key with
  | none => rfl
  | some v =>
      rw [Option.map_some, Option.bind_some, Option.bind_some, negateMeta, if_pos h]
      exact nums.number?_negate v

theorem minimizes_negated : (t.negated nums).minimizes = !t.minimizes := by
  rw [minimizes, negated]
  dsimp only
  rw [Members.lookup_insert_self]
  cases t.minimizes <;> rfl

theorem isImprovement_negated (a b : N) :
    (t.negated nums).isImprovement nums (nums.neg a) (nums.neg b) = t.isImprovement nums a b := by
  rw [isImprovement, isImprovement, minimizes_negated, nums.less_neg, nums.less_neg]
  cases t.minimizes <;> rfl

theorem firstBest_map {α β : Type} {beats : α → α → Bool} {beats' : β → β → Bool} (f : α → β)
    (h : ∀ a b, beats' (f a) (f b) = beats a b) (l : List α) :
    firstBest beats' (l.map f) = (firstBest beats l).map f := by
  cases l with
  | nil => rfl
  | cons x xs =>
      rw [List.map_cons, firstBest, firstBest, Option.map_some]
      congr 1
      induction xs generalizing x with
      | nil => rfl
      | cons y ys ih =>
          rw [List.map_cons, List.foldl_cons, List.foldl_cons, h]
          cases beats y x
          · exact ih x
          · exact ih y

theorem scored_negated (nodes : List (Node F)) : scored nums (nodes.map (Node.negated nums)) =
    (scored nums nodes).map (Prod.map (Node.negated nums) nums.neg) := by
  rw [scored, scored, List.filterMap_map, List.map_filterMap]
  apply List.filterMap_congr
  intro n _
  have hcompleted : (n.negated nums).isCompleted = n.isCompleted := rfl
  have hscore : nums.number? (n.negated nums).score = (nums.number? n.score).map nums.neg :=
    nums.number?_negate n.score
  rw [Function.comp_apply, hcompleted, hscore]
  cases n.isCompleted with
  | false => rfl
  | true => cases nums.number? n.score <;> rfl

theorem nodes_negated : (t.negated nums).nodes.map Prod.snd =
    (t.nodes.map Prod.snd).map (Node.negated nums) := by
  rw [negated, List.map_map, List.map_map]
  rfl

theorem scoredNodes_negated : (t.negated nums).scoredNodes nums =
    (t.scoredNodes nums).map (Prod.map (Node.negated nums) nums.neg) := by
  rw [scoredNodes, nodes_negated, scored_negated]
  rfl

theorem getBestDoneNode_negated : (t.negated nums).getBestDoneNode nums =
    (t.getBestDoneNode nums).map (Node.negated nums) := by
  rw [getBestDoneNode, getBestDoneNode, scoredNodes_negated, firstBest_map, Option.map_map,
    Option.map_map]
  · rfl
  · intro a b
    rw [minimizes_negated, Prod.map_snd, Prod.map_snd, nums.less_neg, nums.less_neg]
    cases t.minimizes <;> rfl

theorem doneNodes_negated : (t.negated nums).doneNodes nums =
    (t.doneNodes nums).map (Prod.map (Node.negated nums) nums.neg) := by
  rw [doneNodes, doneNodes, scoredNodes_negated, List.filter_map]
  rfl

theorem getNode_negated (id : String) :
    (t.negated nums).getNode id = (t.getNode id).map (Node.negated nums) :=
  Members.lookup_map (fun _ => Node.negated nums) t.nodes id

theorem getChildren_negated (id : String) :
    (t.negated nums).getChildren id = (t.getChildren id).map (Node.negated nums) := by
  rw [getChildren, getChildren, getNode_negated]
  cases t.getNode id with
  | none => rfl
  | some node =>
      dsimp only [Option.map_some]
      rw [List.map_filterMap]
      apply List.filterMap_congr
      exact fun x _ => getNode_negated nums t x

end IdeaTree

namespace Detector

variable (config : ConvergenceConfig N) (t : IdeaTree F)

theorem delta_negated (score trunk : N) :
    delta nums (t.negated nums) (nums.neg score) (nums.neg trunk) = delta nums t score trunk := by
  rw [delta, delta, IdeaTree.minimizes_negated, nums.sub_neg, nums.sub_neg]
  cases t.minimizes <;> rfl

theorem isMeaningfulImprovement_negated (score trunk : N) :
    isMeaningfulImprovement nums config (t.negated nums) (nums.neg score) (nums.neg trunk) =
      isMeaningfulImprovement nums config t score trunk := by
  rw [isMeaningfulImprovement, isMeaningfulImprovement, IdeaTree.isImprovement_negated, nums.abs_neg,
    delta_negated]

theorem inOrder_negated (order : List String) (nodes : List (Node F × N)) :
    inOrder order (nodes.map (Prod.map (Node.negated nums) nums.neg)) =
      (inOrder order nodes).map (Prod.map (Node.negated nums) nums.neg) := by
  rw [inOrder, inOrder]
  split_ifs
  · exact (List.map_insertionSort (fun a b : Node F × N => a.1.id ≤ b.1.id)
      (fun a b : Node F × N => a.1.id ≤ b.1.id) (Prod.map (Node.negated nums) nums.neg) nodes
      fun _ _ _ _ => Iff.rfl).symm
  · exact (map_byRank (Prod.map (Node.negated nums) nums.neg) _ fun _ _ _ _ => Iff.rfl).symm

theorem rebuildState_negated (order : List String) (trunk : N) :
    rebuildState nums config (t.negated nums) order (nums.neg trunk) =
      rebuildState nums config t order trunk := by
  simp only [rebuildState]
  rw [IdeaTree.doneNodes_negated, inOrder_negated, List.length_map, ← List.map_reverse,
    List.takeWhile_map, List.length_map]
  congr 3
  funext p
  exact congrArg Bool.not (isMeaningfulImprovement_negated nums config t p.2 trunk)

theorem computeVelocity_negated (order : List String) (trunk : N) :
    computeVelocity nums config (t.negated nums) order (nums.neg trunk) =
      computeVelocity nums config t order trunk := by
  simp only [computeVelocity]
  rw [IdeaTree.doneNodes_negated, inOrder_negated, ← Slices.map_startingAt, List.length_map,
    List.length_map, List.map_map, List.isEmpty_map]
  congr 5
  funext p
  rw [Function.comp_apply, Prod.map_snd, delta_negated]

theorem findExhaustedParents_negated (trunk : N) :
    findExhaustedParents nums config (t.negated nums) (nums.neg trunk) =
      findExhaustedParents nums config t trunk := by
  rw [findExhaustedParents, findExhaustedParents, IdeaTree.nodes_negated, List.filterMap_map]
  apply List.filterMap_congr
  intro node _
  have hchildren : (node.negated nums).childrenIds = node.childrenIds := rfl
  have hid : (node.negated nums).id = node.id := rfl
  have hroot : (t.negated nums).rootId = t.rootId := rfl
  have hall : ∀ l : List (Node F × N), ((l.map (Prod.map (Node.negated nums) nums.neg)).all fun p =>
      !isMeaningfulImprovement nums config (t.negated nums) p.2 (nums.neg trunk)) =
      l.all fun p => !isMeaningfulImprovement nums config t p.2 trunk := by
    intro l
    rw [List.all_map]
    congr 1
    funext p
    exact congrArg Bool.not (isMeaningfulImprovement_negated nums config t p.2 trunk)
  rw [Function.comp_apply, hchildren, hid, hroot, IdeaTree.getChildren_negated,
    IdeaTree.scored_negated]
  dsimp only
  rw [← Slices.map_startingAt, hall, List.length_map]

theorem signal_negated (order : List String) (trunk : N) :
    (signal nums config (t.negated nums) order (nums.neg trunk)).map ({ · with reason := "" }) =
      (signal nums config t order trunk).map ({ · with reason := "" }) := by
  simp only [signal]
  rw [rebuildState_negated, computeVelocity_negated, findExhaustedParents_negated]
  split_ifs
  · rfl
  · rw [Option.map_map, Option.map_map]
    rfl

theorem trunkScore_negated :
    trunkScore nums config (t.negated nums) = (trunkScore nums config t).map nums.neg := by
  rw [trunkScore, trunkScore]
  split_ifs
  · exact IdeaTree.metaScore_negated nums t (by decide)
  · rfl

theorem onExperimentComplete_negated (order : List String) (nodeId : String) :
    (onExperimentComplete nums config (t.negated nums) order nodeId).map id
        (Option.map ({ · with reason := "" })) =
      (onExperimentComplete nums config t order nodeId).map id
        (Option.map ({ · with reason := "" })) := by
  rw [onExperimentComplete, onExperimentComplete, trunkScore_negated]
  cases trunkScore nums config t with
  | none => rfl
  | some trunk => exact congrArg (Prod.mk _) (signal_negated nums config t _ trunk)

end Detector

def MergeCall.negated (call : MergeCall N) : MergeCall N :=
  { call with testScore := call.testScore.map nums.neg }

def MergeWorld.negated (world : MergeWorld F N) : MergeWorld F N :=
  { world with evaluation := world.evaluation.map fun e => (nums.neg e.1, e.2) }

def Merged.negated (m : Merged N) : Merged N := { m with testScore := nums.neg m.testScore }

theorem filter_map_negate {p : Json F → Bool} (h : ∀ v, p (nums.negate v) = p v)
    (o : Option (Json F)) : (o.map nums.negate).filter p = (o.filter p).map nums.negate := by
  cases o with
  | none => rfl
  | some v =>
      rw [Option.map_some, Option.filter_some, Option.filter_some, h]
      split_ifs <;> rfl

theorem testTrunkScore_negated (t : IdeaTree F) :
    testTrunkScore rt (t.negated nums) = (testTrunkScore rt t).map nums.negate := by
  have hlookup : ∀ key ∈ scoreKeys, key ≠ "metric_direction" →
      (t.negated nums).metadata.lookup key = (t.metadata.lookup key).map nums.negate := by
    intro key hkey hne
    rw [IdeaTree.lookup_negated nums t hne]
    congr 1
    funext v
    exact if_pos hkey
  rw [testTrunkScore, testTrunkScore, hlookup _ (by decide) (by decide),
    hlookup _ (by decide) (by decide), filter_map_negate nums nums.isTrue_negate]
  have hnull : ∀ v, (!Node.isNull (nums.negate v)) = !Node.isNull v :=
    fun v => congrArg Bool.not (nums.isNull_negate v)
  cases (t.metadata.lookup "test_trunk_score").filter rt.isTrue with
  | none => exact filter_map_negate nums hnull _
  | some v => exact filter_map_negate nums hnull (some v)

theorem refuses_negated (t : IdeaTree F) (score : N) :
    (refuses nums (t.negated nums) (nums.neg score)).isSome = (refuses nums t score).isSome := by
  rw [refuses, refuses, testTrunkScore_negated]
  cases testTrunkScore rt t with
  | none => rfl
  | some reference =>
      rw [Option.map_some, Option.bind_some, Option.bind_some, nums.number?_negate]
      cases nums.number? reference with
      | none => rfl
      | some trunk =>
          dsimp only [Option.map_some]
          rw [IdeaTree.isImprovement_negated]
          split_ifs <;> rfl

theorem verifies_negated (t : IdeaTree F) : verifies rt (t.negated nums) = verifies rt t := by
  rw [verifies, verifies, IdeaTree.lookup_negated_other nums t (by decide) (by decide)]

theorem mergeScore_negated (t : IdeaTree F) (call : MergeCall N) (world : MergeWorld F N) :
    mergeScore rt (t.negated nums) (call.negated nums) (world.negated nums) =
      (mergeScore rt t call world).map fun s => (nums.neg s.1, s.2) := by
  rw [mergeScore, mergeScore, verifies_negated]
  split_ifs
  · rw [MergeWorld.negated]
    cases world.evaluation <;> rfl
  · rw [MergeCall.negated]
    cases call.testScore <;> rfl

theorem gitMergeBranch_negated (t : IdeaTree F) (call : MergeCall N) (world : MergeWorld F N) :
    (gitMergeBranch nums (t.negated nums) (call.negated nums) (world.negated nums)).toOption =
      (gitMergeBranch nums t call world).toOption.map (Merged.negated nums) := by
  have htarget : targetBranch (call.negated nums) (world.negated nums) = targetBranch call world := rfl
  have hguards : ∀ target, mergeGuards (call.negated nums) (world.negated nums) target =
      mergeGuards call world target := fun _ => rfl
  rw [gitMergeBranch, gitMergeBranch, htarget]
  cases targetBranch call world with
  | none => rfl
  | some target =>
      dsimp only
      split_ifs
      · rfl
      · rw [mergeScore_negated]
        cases mergeScore rt t call world with
        | error refusal => rfl
        | ok s =>
            obtain ⟨score, medal⟩ := s
            dsimp only [Except.map]
            have hrefuses := refuses_negated nums t score
            cases hr : refuses nums t score with
            | some refusal =>
                rw [hr] at hrefuses
                obtain ⟨refusal', hr'⟩ := Option.isSome_iff_exists.mp hrefuses
                rw [hr']
                rfl
            | none =>
                rw [hr] at hrefuses
                have hnone : refuses nums (t.negated nums) (nums.neg score) = none := by
                  simpa using hrefuses
                rw [hnone, hguards]
                cases mergeGuards call world target with
                | some refusal => rfl
                | none =>
                    simp only [Option.orElse, verifies_negated]
                    rfl

theorem searchThreshold_negated (t : IdeaTree F) (score : N) :
    nums.atMost (nums.neg score) (searchThreshold nums (t.negated nums)) =
      nums.atMost (searchThreshold nums t) score := by
  rw [searchThreshold, searchThreshold, IdeaTree.metaScore_negated nums t (by decide),
    IdeaTree.metaScore_negated nums t (by decide)]
  cases t.metaScore nums "trunk_score" with
  | some trunk => exact nums.atMost_neg _ _
  | none => cases t.metaScore nums "baseline_score" with
    | some baseline => exact nums.atMost_neg _ _
    | none => exact nums.atMost_neg_zero _

/-- The gate does not look at the score, or the score is what it is held against. -/
def GateIndifferent (t : IdeaTree F) (node : Node F) (requireValidated : Bool) : Prop :=
  requireValidated = true → node.isCompleted = true → ∀ score, nums.number? node.score = some score →
    nums.atMost score (searchThreshold nums t) = nums.atMost (searchThreshold nums t) score

theorem validationGate_negated_iff (t : IdeaTree F) (node : Node F) (requireValidated : Bool) :
    (validationGate nums (t.negated nums) (node.negated nums) requireValidated).isSome =
        (validationGate nums t node requireValidated).isSome ↔
      GateIndifferent nums t node requireValidated := by
  have hcompleted : (node.negated nums).isCompleted = node.isCompleted := rfl
  have hscore : nums.number? (node.negated nums).score = (nums.number? node.score).map nums.neg :=
    nums.number?_negate node.score
  rw [validationGate, validationGate, GateIndifferent, hcompleted, hscore]
  cases requireValidated with
  | false => simp
  | true => cases node.isCompleted with
    | false => simp
    | true => cases nums.number? node.score with
      | none => simp
      | some score =>
          simp only [Bool.not_true, Bool.false_eq_true, if_false, Option.map_some, forall_const,
            Option.some.injEq, forall_eq', searchThreshold_negated]
          cases nums.atMost score (searchThreshold nums t) <;>
            cases nums.atMost (searchThreshold nums t) score <;> simp

theorem statsScores_negated (t : IdeaTree F) :
    statsScores nums (t.negated nums) = (statsScores nums t).map nums.neg := by
  rw [statsScores, statsScores, IdeaTree.negated, List.filterMap_map, List.map_filterMap]
  apply List.filterMap_congr
  intro p _
  rw [Function.comp_apply, Node.negated]
  dsimp only
  split_ifs
  · rfl
  · exact nums.number?_negate _

def StatsIndifferent (t : IdeaTree F) : Prop :=
  IdeaTree.firstBest nums.less (statsScores nums t) =
    IdeaTree.firstBest (fun a b => nums.less b a) (statsScores nums t)

theorem statsBestScore_negated_iff (t : IdeaTree F) :
    statsBestScore nums (t.negated nums) = (statsBestScore nums t).map nums.neg ↔
      StatsIndifferent nums t := by
  rw [statsBestScore, statsScores_negated,
    IdeaTree.firstBest_map nums.neg (fun a b => nums.less_neg b a), statsBestScore, StatsIndifferent]
  exact (Option.map_injective nums.neg_injective).eq_iff

structure DecidesAlike (config : ConvergenceConfig N) (t : IdeaTree F) (order : List String)
    (nodeId : String) (node : Node F) (requireValidated : Bool) (call : MergeCall N)
    (world : MergeWorld F N) : Prop where
  best : (t.negated nums).getBestDoneNode nums = (t.getBestDoneNode nums).map (Node.negated nums)
  merge : (gitMergeBranch nums (t.negated nums) (call.negated nums) (world.negated nums)).toOption =
    (gitMergeBranch nums t call world).toOption.map (Merged.negated nums)
  convergence : (Detector.onExperimentComplete nums config (t.negated nums) order nodeId).map id
      (Option.map ({ · with reason := "" })) =
    (Detector.onExperimentComplete nums config t order nodeId).map id
      (Option.map ({ · with reason := "" }))
  gate : (validationGate nums (t.negated nums) (node.negated nums) requireValidated).isSome =
    (validationGate nums t node requireValidated).isSome
  stats : statsBestScore nums (t.negated nums) = (statsBestScore nums t).map nums.neg

/-- The best node, merges and the detector always decide alike; the gate of the
search does where the score is what it is held against, and the statistics do
where all scores agree. -/
theorem negated_decidesAlike_iff (config : ConvergenceConfig N) (t : IdeaTree F)
    (order : List String) (nodeId : String) (node : Node F) (requireValidated : Bool)
    (call : MergeCall N) (world : MergeWorld F N) :
    DecidesAlike nums config t order nodeId node requireValidated call world ↔
      GateIndifferent nums t node requireValidated ∧ StatsIndifferent nums t := by
  constructor
  · intro h
    exact ⟨(validationGate_negated_iff nums t node requireValidated).mp h.gate,
      (statsBestScore_negated_iff nums t).mp h.stats⟩
  · rintro ⟨hgate, hstats⟩
    exact ⟨t.getBestDoneNode_negated nums, gitMergeBranch_negated nums t call world,
      Detector.onExperimentComplete_negated nums config t order nodeId,
      (validationGate_negated_iff nums t node requireValidated).mpr hgate,
      (statsBestScore_negated_iff nums t).mpr hstats⟩

def betterIdea : Node FloatText :=
  { id := "1", parentId := some "ROOT", depth := 1, status := .str "done", score := .int 7 }

def treeOfBetterIdea : IdeaTree FloatText :=
  let t := ((Coordinator.fresh threeCycles).tree.addNode betterIdea).1
  { t with metadata := Members.insert "trunk_score" (.int 5) t.metadata }

/-- An idea that has beaten the trunk, which the gate lets through only while
higher is better. -/
theorem negated_gate_refuses :
    ¬ ∀ (nums : Numbers literalRuntime Int) (config : ConvergenceConfig Int)
      (t : IdeaTree FloatText) (order : List String) (nodeId : String) (node : Node FloatText)
      (requireValidated : Bool) (call : MergeCall Int) (world : MergeWorld FloatText Int),
      DecidesAlike nums config t order nodeId node requireValidated call world := by
  intro h
  have hgate := (h integerNumbers ⟨true, 4, 5, 0, 3, 3, 5, 8⟩ treeOfBetterIdea ["1"] "1" betterIdea
    true ⟨"idea", "1", none, none⟩ ⟨none, none, none, none, true, true, true⟩).gate
  revert hgate
  decide

end DevPilot
