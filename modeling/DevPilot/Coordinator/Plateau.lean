import DevPilot.Coordinator.Convergence
import DevPilot.Coordinator.Effects

/-!
The count of the experiments that have not improved: what the detector finds
in the tree, and what happened.
-/

namespace DevPilot

open PyJson RankSort Runs

variable {F N : Type} {rt : Runtime F}

/-- The elements up to the first that satisfies `p`, with it. -/
def upToFirst {α : Type} (p : α → Bool) : List α → List α
  | [] => []
  | x :: xs => if p x then [x] else x :: upToFirst p xs

theorem takeWhile_eq_of_upToFirst {α : Type} {p q : α → Bool} {l : List α}
    (h : ∀ x ∈ upToFirst p l, q x = p x) : l.takeWhile (!q ·) = l.takeWhile (!p ·) := by
  induction l with
  | nil => rfl
  | cons x xs ih =>
      rw [upToFirst] at h
      cases hp : p x with
      | true =>
          rw [hp, if_pos rfl] at h
          simp [h x List.mem_cons_self, hp]
      | false =>
          rw [hp, if_neg (by simp)] at h
          have hq := h x List.mem_cons_self
          rw [hp] at hq
          simp only [List.takeWhile_cons, hp, hq, Bool.not_false, if_true]
          rw [ih fun y hy => h y (List.mem_cons_of_mem _ hy)]

theorem mem_upToFirst_append {α : Type} {p : α → Bool} {xs ys : List α} {x : α}
    (h : x ∈ upToFirst p (xs ++ ys)) : x ∈ xs ∨ x ∈ upToFirst p ys := by
  induction xs with
  | nil => exact .inr h
  | cons y xs ih =>
      rw [List.cons_append, upToFirst] at h
      split_ifs at h
      · exact .inl (List.mem_cons.mpr (.inl (List.mem_singleton.mp h)))
      · rcases List.mem_cons.mp h with rfl | h
        · exact .inl List.mem_cons_self
        · exact (ih h).imp (List.mem_cons_of_mem _) id

namespace Detector

variable (nums : Numbers rt N) (config : ConvergenceConfig N) (t : IdeaTree F)

def doneScores : List (String × N) := (t.doneNodes nums).map fun p => (p.1.id, p.2)

def improvesNow (score : N) : Bool :=
  (t.metaScore nums "trunk_score").any (isMeaningfulImprovement nums config t score)

/-- The detector has the experiments in the order of their completion: first
those it was told of, in that order, then the others, as the tree has them. -/
def Ordered (ids order completed : List String) : Prop :=
  (completed.filter (· ∈ order)).Sublist order ∧
    completed = completed.filter (· ∈ order) ++ completed.filter (· ∉ order) ∧
    (completed.filter (· ∉ order)).Sublist ids ∧ order.length ≤ 999999

end Detector

instance (ids order completed : List String) : Decidable (Detector.Ordered ids order completed) :=
  inferInstanceAs (Decidable (_ ∧ _ ∧ _ ∧ _))

inductive PlateauEvent (F : Type)
  | tool (e : CoordinatorEvent F)
  | check (nodeId : String)

/-- An experiment that has completed, and whether it improved on the trunk as
it stood then. -/
structure Completion (N : Type) where
  nodeId : String
  score : N
  improved : Bool

structure PlateauRun (F N : Type) where
  coordinator : Coordinator F
  order : List String
  history : List (Completion N)

namespace PlateauRun

variable (settings : CoordinatorConfig F) (nums : Numbers rt N) (config : ConvergenceConfig N)

def setsMeta : CoordinatorEvent F → Bool
  | .setMeta _ => true
  | _ => false

def start : PlateauRun F N := ⟨.fresh settings, [], []⟩

def completions (history : List (Completion N)) (t : IdeaTree F) : List (Completion N) :=
  ((Detector.doneScores nums t).filter (·.1 ∉ history.map Completion.nodeId)).map fun p =>
    ⟨p.1, p.2, Detector.improvesNow nums config t p.2⟩

def step (r : PlateauRun F N) : PlateauEvent F → PlateauRun F N
  | .tool e =>
      let after := r.coordinator.step settings e
      ⟨after, if Coordinator.restarts e then [] else r.order,
        r.history ++ completions nums config r.history after.tree⟩
  | .check nodeId =>
      { r with
        order := (Detector.onExperimentComplete nums config r.coordinator.tree r.order nodeId).1 }

/-- The experiments that completed after the last one that improved. -/
def sinceImprovement (history : List (Completion N)) : Nat :=
  (history.reverse.takeWhile (!·.improved)).length

def recent (history : List (Completion N)) : List (Completion N) :=
  upToFirst Completion.improved history.reverse

/-- A check counts the experiments since the last that improved, and recording
a merge does not raise the count. -/
def CountsAt (r : PlateauRun F N) : PlateauEvent F → Prop
  | .check nodeId => ∀ trunk, Detector.trunkScore nums config r.coordinator.tree = some trunk →
      (Detector.rebuildState nums config r.coordinator.tree (Detector.record r.order nodeId)
        trunk).consecutiveNonImproving = sinceImprovement r.history
  | .tool e => setsMeta e = true → r.order ≠ [] → ∀ before after,
      r.coordinator.tree.metaScore nums "trunk_score" = some before →
        (r.coordinator.step settings e).tree.metaScore nums "trunk_score" = some after →
          (Detector.rebuildState nums config (r.coordinator.step settings e).tree
              r.order after).consecutiveNonImproving ≤
            (Detector.rebuildState nums config r.coordinator.tree r.order
              before).consecutiveNonImproving

/-- The detector is told of the experiments in the order of their completion;
no completed experiment is taken back or scored anew; and the verdict on the
last experiment that improved, and on those after it, does not change. -/
def FitsAt (r : PlateauRun F N) : PlateauEvent F → Prop
  | .check nodeId => (Detector.trunkScore nums config r.coordinator.tree).isSome = true →
      Detector.Ordered r.coordinator.tree.ids (Detector.record r.order nodeId)
        (r.history.map Completion.nodeId)
  | .tool e =>
      (∀ p ∈ Detector.doneScores nums r.coordinator.tree,
        p ∈ Detector.doneScores nums (r.coordinator.step settings e).tree) ∧
      (∀ c ∈ recent r.history,
        Detector.improvesNow nums config (r.coordinator.step settings e).tree c.score =
          Detector.improvesNow nums config r.coordinator.tree c.score) ∧
      (setsMeta e = true → r.order ≠ [] →
        Detector.Ordered r.coordinator.tree.ids r.order (r.history.map Completion.nodeId))

instance [DecidableEq N] (r : PlateauRun F N) :
    ∀ e, Decidable (r.FitsAt settings nums config e)
  | .check _ => inferInstanceAs (Decidable (_ → _))
  | .tool _ => inferInstanceAs (Decidable (_ ∧ _ ∧ _))

end PlateauRun

namespace Detector

variable {nums : Numbers rt N} {config : ConvergenceConfig N} {t : IdeaTree F}
  {order completed : List String}

theorem ids_scored_sublist (nums : Numbers rt N) (nodes : List (Node F)) :
    ((IdeaTree.scored nums nodes).map (·.1.id)).Sublist (nodes.map Node.id) := by
  induction nodes with
  | nil => exact List.Sublist.refl _
  | cons n nodes ih =>
      rw [IdeaTree.scored, List.filterMap_cons]
      split
      · exact ih.cons _
      · rename_i p hp
        have hid : p.1 = n := by
          split_ifs at hp
          obtain ⟨score, -, rfl⟩ := Option.map_eq_some_iff.mp hp
          rfl
        rw [List.map_cons, List.map_cons, hid]
        exact ih.cons_cons _

theorem ids_doneScores_sublist (nums : Numbers rt N) (h : t.Storable) :
    ((doneScores nums t).map Prod.fst).Sublist t.ids := by
  have hids : t.nodes.map (·.2.id) = t.ids := List.map_congr_left h.keyed
  have hsub : ((t.doneNodes nums).map (·.1.id)).Sublist ((t.nodes.map Prod.snd).map Node.id) :=
    (List.filter_sublist.map _).trans (ids_scored_sublist nums _)
  rw [List.map_map] at hsub
  rw [doneScores, List.map_map, ← hids]
  exact hsub

theorem completionRank_of_mem {id : String} (h : id ∈ order) :
    completionRank order id = order.idxOf id := if_pos h

theorem completionRank_of_notMem {id : String} (h : id ∉ order) :
    completionRank order id = 999999 := if_neg h

theorem pairwise_idxOf {ids : List String} (h : ids.Nodup) :
    ids.Pairwise fun a b => ids.idxOf a < ids.idxOf b := by
  apply List.pairwise_iff_getElem.mpr
  intro i j hi hj hij
  rw [h.idxOf_getElem, h.idxOf_getElem]
  exact hij

theorem Ordered.precedes {ids : List String} (h : Ordered ids order completed)
    (hnodup : order.Nodup) : completed.Pairwise
      (Precedes (completionRank order) fun a b => [a, b].Sublist ids) := by
  obtain ⟨hchecked, heq, hunchecked, hfew⟩ := h
  rw [heq]
  apply List.pairwise_append.mpr
  refine ⟨?_, ?_, ?_⟩
  · refine ((pairwise_idxOf hnodup).sublist hchecked).imp_of_mem fun ha hb h => .inl ?_
    have hmem : ∀ x ∈ completed.filter (· ∈ order), x ∈ order :=
      fun x hx => of_decide_eq_true (List.mem_filter.mp hx).2
    rw [completionRank_of_mem (hmem _ ha), completionRank_of_mem (hmem _ hb)]
    exact h
  · apply List.pairwise_iff_forall_sublist.mpr
    intro a b hab
    have hmem : ∀ x ∈ [a, b], x ∉ order := fun x hx =>
      of_decide_eq_true (List.mem_filter.mp (hab.subset hx)).2
    refine .inr ⟨?_, hab.trans hunchecked⟩
    rw [completionRank_of_notMem (hmem a (by simp)), completionRank_of_notMem (hmem b (by simp))]
  · intro a ha b hb
    have ha' : a ∈ order := of_decide_eq_true (List.mem_filter.mp ha).2
    have hb' : b ∉ order := of_decide_eq_true (List.mem_filter.mp hb).2
    refine .inl ?_
    rw [completionRank_of_mem ha', completionRank_of_notMem hb']
    exact (List.idxOf_lt_length_of_mem ha').trans_le hfew

theorem Ordered.inOrder_eq (h : Ordered t.ids order completed) (ht : t.Storable)
    (hnodup : order.Nodup) (hne : order ≠ []) {scores : List (String × N)}
    (hperm : scores.Perm (doneScores nums t)) (hscores : scores.map Prod.fst = completed) :
    (inOrder order (t.doneNodes nums)).map (fun p => (p.1.id, p.2)) = scores := by
  have hempty : order.isEmpty = false := by simpa using hne
  rw [inOrder, hempty, if_neg (by simp), map_byRank (fun p : Node F × N => (p.1.id, p.2))
    (fun p => completionRank order p.1) fun _ _ _ _ => Iff.rfl]
  apply byRank_eq (fun a b => [a.1, b.1].Sublist t.ids) _ _ hperm
  · rw [← hscores] at h
    exact (List.pairwise_map (f := Prod.fst)).mp (h.precedes hnodup)
  · intro a b hab hba
    have hlt := pairwise_idxOf ht.nodup
    rw [List.pairwise_iff_forall_sublist] at hlt
    exact Nat.lt_asymm (hlt hab) (hlt hba)
  · apply List.pairwise_iff_forall_sublist.mpr
    intro a b hab
    exact (hab.map Prod.fst).trans (ids_doneScores_sublist nums ht)

end Detector

namespace PlateauRun

variable {settings : CoordinatorConfig F} {nums : Numbers rt N} {config : ConvergenceConfig N}
  {r : PlateauRun F N}

def scores (history : List (Completion N)) : List (String × N) :=
  history.map fun c => (c.nodeId, c.score)

structure Inv (settings : CoordinatorConfig F) (nums : Numbers rt N) (config : ConvergenceConfig N)
    (r : PlateauRun F N) : Prop where
  inv : r.coordinator.Inv settings
  order : r.order.Nodup
  done : (scores r.history).Perm (Detector.doneScores nums r.coordinator.tree)
  verdicts : ∀ c ∈ recent r.history,
    Detector.improvesNow nums config r.coordinator.tree c.score = c.improved

theorem consecutive_eq {t : IdeaTree F} {order : List String} {history : List (Completion N)}
    {trunk : N} (ht : t.Storable) (hnodup : order.Nodup) (hne : order ≠ [])
    (hscores : (scores history).Perm (Detector.doneScores nums t))
    (hordered : Detector.Ordered t.ids order (history.map Completion.nodeId))
    (hverdicts : ∀ c ∈ recent history, Detector.improvesNow nums config t c.score = c.improved)
    (htrunk : t.metaScore nums "trunk_score" = some trunk) :
    (Detector.rebuildState nums config t order trunk).consecutiveNonImproving =
      sinceImprovement history := by
  have hids : (scores history).map Prod.fst = history.map Completion.nodeId := List.map_map
  have hsorted := hordered.inOrder_eq ht hnodup hne hscores hids
  have hnow : ∀ score, Detector.isMeaningfulImprovement nums config t score trunk =
      Detector.improvesNow nums config t score := by
    intro score
    rw [Detector.improvesNow, htrunk, Option.any_some]
  have hcount : ((Detector.inOrder order (t.doneNodes nums)).reverse.takeWhile fun p =>
      !Detector.isMeaningfulImprovement nums config t p.2 trunk).length =
      (history.reverse.takeWhile fun c =>
        !Detector.improvesNow nums config t c.score).length := by
    have hmap := congrArg (fun l : List (String × N) => (l.reverse.takeWhile fun p =>
      !Detector.improvesNow nums config t p.2).length) hsorted
    simp only [scores, ← List.map_reverse, List.takeWhile_map, List.length_map] at hmap
    simp only [hnow]
    exact hmap
  rw [Detector.rebuildState, hcount, sinceImprovement, takeWhile_eq_of_upToFirst hverdicts]

theorem nodeIds_completions (history : List (Completion N)) (t : IdeaTree F) :
    scores (completions nums config history t) =
      (Detector.doneScores nums t).filter (·.1 ∉ history.map Completion.nodeId) := by
  rw [scores, completions, List.map_map]
  exact List.map_id _

theorem nodup_doneScores {t : IdeaTree F} (h : t.Storable) :
    (Detector.doneScores nums t).Nodup :=
  ((Detector.ids_doneScores_sublist nums h).nodup h.nodup).of_map _

theorem eq_of_doneScores {t : IdeaTree F} (h : t.Storable) {p q : String × N}
    (hp : p ∈ Detector.doneScores nums t) (hq : q ∈ Detector.doneScores nums t)
    (hid : p.1 = q.1) : p = q :=
  List.inj_on_of_nodup_map ((Detector.ids_doneScores_sublist nums h).nodup h.nodup) hp hq hid

theorem Inv.scores_append (h : r.Inv settings nums config) {t : IdeaTree F} (ht : t.Storable)
    (hkeep : ∀ p ∈ Detector.doneScores nums r.coordinator.tree, p ∈ Detector.doneScores nums t) :
    (scores (r.history ++ completions nums config r.history t)).Perm
      (Detector.doneScores nums t) := by
  have hids : ∀ p ∈ Detector.doneScores nums r.coordinator.tree,
      p.1 ∈ r.history.map Completion.nodeId := by
    intro p hp
    have hmem := List.mem_map_of_mem (f := Prod.fst) (h.done.symm.mem_iff.mp hp)
    rwa [scores, List.map_map] at hmem
  rw [scores, List.map_append, ← scores, ← scores, nodeIds_completions]
  apply (List.perm_ext_iff_of_nodup _ (nodup_doneScores ht)).mpr
  · intro p
    rw [List.mem_append, List.mem_filter, h.done.mem_iff]
    constructor
    · rintro (hp | ⟨hp, -⟩)
      · exact hkeep p hp
      · exact hp
    · intro hp
      by_cases hid : p.1 ∈ r.history.map Completion.nodeId
      · obtain ⟨c, hc, hcid⟩ := List.mem_map.mp hid
        have hmem : (c.nodeId, c.score) ∈ Detector.doneScores nums r.coordinator.tree :=
          h.done.mem_iff.mp (List.mem_map_of_mem hc)
        have heq := eq_of_doneScores ht hp (hkeep _ hmem) hcid.symm
        exact .inl (heq ▸ hmem)
      · exact .inr ⟨hp, decide_eq_true hid⟩
  · apply List.nodup_append.mpr
    refine ⟨h.done.nodup_iff.mpr (nodup_doneScores h.inv.tree.storable),
      (nodup_doneScores ht).filter _, ?_⟩
    rintro p hp q hq rfl
    exact of_decide_eq_true (List.mem_filter.mp hq).2 (hids p (h.done.mem_iff.mp hp))

theorem nodup_record {order : List String} (h : order.Nodup) (nodeId : String) :
    (Detector.record order nodeId).Nodup := by
  rw [Detector.record]
  split_ifs with hmem
  · exact h
  · apply List.nodup_append.mpr
    refine ⟨h, List.nodup_singleton _, ?_⟩
    rintro a ha b hb rfl
    exact hmem (List.mem_singleton.mp hb ▸ ha)

theorem record_ne_nil (order : List String) (nodeId : String) :
    Detector.record order nodeId ≠ [] := by
  rw [Detector.record]
  split_ifs with hmem
  · exact List.ne_nil_of_mem hmem
  · simp

theorem nodup_onExperimentComplete {t : IdeaTree F} {order : List String} (h : order.Nodup)
    (nodeId : String) : (Detector.onExperimentComplete nums config t order nodeId).1.Nodup := by
  rw [Detector.onExperimentComplete]
  split
  · exact h
  · exact nodup_record h nodeId

theorem Inv.tool (h : r.Inv settings nums config) {e : CoordinatorEvent F}
    (hfits : r.FitsAt settings nums config (.tool e)) :
    (r.step settings nums config (.tool e)).Inv settings nums config := by
  have hinv := h.inv.step e
  refine ⟨hinv, ?_, h.scores_append hinv.tree.storable hfits.1, ?_⟩
  · rw [step]
    dsimp only
    split_ifs
    · exact List.nodup_nil
    · exact h.order
  · intro c hc
    rw [recent, step, List.reverse_append] at hc
    rcases mem_upToFirst_append hc with hnew | hold
    · obtain ⟨p, -, rfl⟩ := List.mem_map.mp (List.mem_reverse.mp hnew)
      rfl
    · exact (hfits.2.1 c hold).trans (h.verdicts c hold)

theorem Inv.check (h : r.Inv settings nums config) (nodeId : String) :
    (r.step settings nums config (.check nodeId)).Inv settings nums config :=
  ⟨h.inv, nodup_onExperimentComplete h.order nodeId, h.done, h.verdicts⟩

theorem nodes_setMeta (settings : CoordinatorConfig F) (s : Coordinator F)
    {e : CoordinatorEvent F} (he : setsMeta e = true) :
    (s.step settings e).tree.nodes = s.tree.nodes ∧
      (s.step settings e).tree.rootId = s.tree.rootId := by
  cases e with
  | setMeta updates =>
      simp only [Coordinator.step]
      split_ifs
      · exact ⟨rfl, rfl⟩
      · exact ⟨rfl, rfl⟩
  | _ => cases he

theorem doneScores_congr {t t' : IdeaTree F} (hnodes : t'.nodes = t.nodes)
    (hroot : t'.rootId = t.rootId) : Detector.doneScores nums t' = Detector.doneScores nums t := by
  rw [Detector.doneScores, Detector.doneScores, IdeaTree.doneNodes, IdeaTree.doneNodes,
    IdeaTree.scoredNodes, IdeaTree.scoredNodes, hnodes, hroot]

theorem Inv.countsAt (h : r.Inv settings nums config) {e : PlateauEvent F}
    (hfits : r.FitsAt settings nums config e) : r.CountsAt settings nums config e := by
  cases e with
  | check nodeId =>
      intro trunk htrunk
      have hordered := hfits (Option.isSome_iff_exists.mpr ⟨trunk, htrunk⟩)
      rw [Detector.trunkScore] at htrunk
      split_ifs at htrunk
      exact consecutive_eq h.inv.tree.storable (nodup_record h.order nodeId)
        (record_ne_nil r.order nodeId) h.done hordered h.verdicts htrunk
  | tool e =>
      intro hset hne before after hbefore hafter
      obtain ⟨-, hverdicts, hordered⟩ := hfits
      obtain ⟨hnodes, hroot⟩ := nodes_setMeta settings r.coordinator hset
      have hids : (r.coordinator.step settings e).tree.ids = r.coordinator.tree.ids :=
        congrArg (List.map Prod.fst) hnodes
      apply le_of_eq
      trans sinceImprovement r.history
      · apply consecutive_eq (h.inv.step e).tree.storable h.order hne _ _ _ hafter
        · rw [doneScores_congr hnodes hroot]
          exact h.done
        · rw [hids]
          exact hordered hset hne
        · exact fun c hc => (hverdicts c hc).trans (h.verdicts c hc)
      · exact (consecutive_eq h.inv.tree.storable h.order hne h.done (hordered hset hne) h.verdicts
          hbefore).symm

theorem inv_start (settings : CoordinatorConfig F) (nums : Numbers rt N)
    (config : ConvergenceConfig N) : (start settings).Inv settings nums config := by
  refine ⟨Coordinator.inv_fresh settings, List.nodup_nil, ?_, ?_⟩
  · have hroot : ((Coordinator.fresh settings).tree.doneNodes nums) = [] := by
      simp [IdeaTree.doneNodes, IdeaTree.scoredNodes, IdeaTree.scored, Coordinator.fresh,
        nums.number?_null]
    rw [start, Detector.doneScores, hroot]
    exact List.Perm.refl _
  · intro c hc
    simp [start, recent, upToFirst] at hc

end PlateauRun

/-- Along a run that tells the detector of the experiments in the order of their
completion, and records nothing that changes a recent verdict, the detector
counts the experiments since the last one that improved. -/
theorem plateau_counts (settings : CoordinatorConfig F) (nums : Numbers rt N)
    (config : ConvergenceConfig N) (events : List (PlateauEvent F))
    (h : Along (PlateauRun.step settings nums config) (PlateauRun.FitsAt settings nums config)
      (.start settings) events) :
    Along (PlateauRun.step settings nums config) (PlateauRun.CountsAt settings nums config)
      (.start settings) events := by
  apply along_of_along (I := PlateauRun.Inv settings nums config) _ _
    (PlateauRun.inv_start settings nums config) h
  · exact fun r e hr => hr.countsAt
  · intro r e hr hfits
    cases e with
    | check nodeId => exact hr.check nodeId
    | tool e => exact hr.tool hfits

def eager : ConvergenceConfig Int := ⟨true, 4, 5, 0, 3, 3, 5, 8⟩

def recordTrunk (score : Int) : PlateauEvent FloatText :=
  .tool (.setMeta [("trunk_score", ⟨.int score, rfl⟩)])

def experiment (nodeId : String) (score : Int) : List (PlateauEvent FloatText) :=
  [.tool (.addNode "ROOT" ⟨.str "idea", rfl⟩ none), .tool (.runExecutor nodeId), .tool (.start 0),
    .tool (.finished 0 ⟨⟨.obj [("score", .int score)], by simp [Json.wf, Json.wfMembers, Members.keys]⟩, "report",
      none, "branch"⟩),
    .check nodeId]

theorem plateau_countRaised :
    ¬ ∀ (settings : CoordinatorConfig FloatText) (nums : Numbers literalRuntime Int)
      (config : ConvergenceConfig Int) (events : List (PlateauEvent FloatText)),
      Along (PlateauRun.step settings nums config) (PlateauRun.CountsAt settings nums config)
        (.start settings) events := by
  intro h
  obtain ⟨-, -, -, -, -, -, hcounts, -⟩ := h threeCycles integerNumbers eager
    ([recordTrunk 0] ++ experiment "1" 5 ++ [recordTrunk 5])
  have hle := hcounts rfl (by decide) 0 5 (by decide) (by decide)
  revert hle
  decide

theorem plateau_counts_two :
    Along (PlateauRun.step threeCycles integerNumbers eager)
      (PlateauRun.CountsAt threeCycles integerNumbers eager) (.start threeCycles)
      ([recordTrunk 0] ++ experiment "1" 5 ++ experiment "2" (-1) ++ [recordTrunk 2]) := by
  apply plateau_counts threeCycles integerNumbers eager
  decide

end DevPilot
