import DevPilot.Coordinator.Scores
import DevPilot.Coordinator.Effects

/-!
Merging an experiment into the trunk: the score it is admitted on, and the trunk
scores that are recorded after it.
-/

namespace DevPilot

open PyJson Runs

variable {F N : Type} {rt : Runtime F}

structure MergeCall (N : Type) where
  sourceBranch : String
  nodeId : String
  targetBranch : Option String
  testScore : Option N

structure MergeWorld (F N : Type) where
  trunkBranch : Option String
  /-- The score that `eval_cmd_test` gives, and its result block, if any. -/
  evaluation : Option (N × Members F)
  protectedChange : Option (String × String)
  missingOutput : Option String
  sourceExists : Bool
  checksOut : Bool
  mergesCleanly : Bool

inductive MergeRefusal (N : Type)
  | noTarget
  | protectedBranch (target : String)
  | evaluationFailed (source : String)
  | unverifiable
  /-- The trunk's score is no number, and comparing with it raises. -/
  | incomparable
  | noImprovement (testScore testTrunkScore : N)
  | protectedPath (file pattern : String)
  | outputMissing (output source : String)
  | noSource (source : String)
  | noCheckout (target : String)
  | conflict (source target : String)

structure Merged (N : Type) where
  target : String
  testScore : N
  verified : Bool
  medal : Option String

def protectedBranches : List String := ["main", "master"]

def medalOf (rt : Runtime F) (info : Members F) : Option String :=
  let wins (key : String) := ((info.lookup key).map rt.isTrue).getD false
  if wins "gold_medal" then some "gold"
  else if wins "silver_medal" then some "silver"
  else if wins "bronze_medal" then some "bronze"
  else none

/-- An `eval_cmd_test` is configured. -/
def verifies (rt : Runtime F) (t : IdeaTree F) : Bool :=
  ((t.metadata.lookup "eval_cmd_test").map rt.isTrue).getD false

def mergeScore (rt : Runtime F) (t : IdeaTree F) (call : MergeCall N) (world : MergeWorld F N) :
    Except (MergeRefusal N) (N × Option String) :=
  if verifies rt t then
    match world.evaluation with
    | none => .error (.evaluationFailed call.sourceBranch)
    | some (score, info) => .ok (score, medalOf rt info)
  else match call.testScore with
    | some score => .ok (score, none)
    | none => .error .unverifiable

/-- `meta.get("test_trunk_score") or meta.get("test_baseline_score")`. -/
def testTrunkScore (rt : Runtime F) (t : IdeaTree F) : Option (Json F) :=
  (((t.metadata.lookup "test_trunk_score").filter rt.isTrue).orElse fun _ =>
    t.metadata.lookup "test_baseline_score").filter (!Node.isNull ·)

def refuses (nums : Numbers rt N) (t : IdeaTree F) (score : N) : Option (MergeRefusal N) :=
  (testTrunkScore rt t).bind fun reference =>
    match nums.number? reference with
    | none => some .incomparable
    | some trunk =>
        if t.isImprovement nums score trunk then none else some (.noImprovement score trunk)

def targetBranch (call : MergeCall N) (world : MergeWorld F N) : Option String :=
  (call.targetBranch.filter (· ≠ "")).orElse fun _ => world.trunkBranch.filter (· ≠ "")

def mergeGuards (call : MergeCall N) (world : MergeWorld F N) (target : String) :
    Option (MergeRefusal N) :=
  match world.protectedChange, world.missingOutput with
  | some (file, pattern), _ => some (.protectedPath file pattern)
  | none, some output => some (.outputMissing output call.sourceBranch)
  | none, none =>
      if !world.sourceExists then some (.noSource call.sourceBranch)
      else if !world.checksOut then some (.noCheckout target)
      else if !world.mergesCleanly then some (.conflict call.sourceBranch target)
      else none

def gitMergeBranch (nums : Numbers rt N) (t : IdeaTree F) (call : MergeCall N)
    (world : MergeWorld F N) : Except (MergeRefusal N) (Merged N) :=
  match targetBranch call world with
  | none => .error .noTarget
  | some target =>
      if target ∈ protectedBranches then .error (.protectedBranch target)
      else match mergeScore rt t call world with
        | .error refusal => .error refusal
        | .ok (score, medal) =>
            match (refuses nums t score).orElse fun _ => mergeGuards call world target with
            | some refusal => .error refusal
            | none => .ok ⟨target, score, verifies rt t, medal⟩

theorem gitMergeBranch_eq_ok {nums : Numbers rt N} {t : IdeaTree F} {call : MergeCall N}
    {world : MergeWorld F N} {m : Merged N} (h : gitMergeBranch nums t call world = .ok m) :
    mergeScore rt t call world = .ok (m.testScore, m.medal) ∧
      refuses nums t m.testScore = none := by
  rw [gitMergeBranch] at h
  split at h
  · cases h
  · split_ifs at h
    split at h
    · cases h
    · rename_i score medal hscore
      split at h
      · cases h
      · rename_i hnone
        obtain rfl := Except.ok.inj h
        refine ⟨hscore, ?_⟩
        cases hr : refuses nums t score with
        | none => rfl
        | some refusal => simp [hr] at hnone

theorem evaluation_of_mergeScore {t : IdeaTree F} {call : MergeCall N} {world : MergeWorld F N}
    {score : N} {medal : Option String} (h : mergeScore rt t call world = .ok (score, medal))
    (hv : verifies rt t = true) : ∃ info, world.evaluation = some (score, info) := by
  rw [mergeScore, if_pos hv] at h
  split at h
  · cases h
  · rename_i score' info heval
    obtain ⟨rfl, -⟩ := Prod.mk.inj (Except.ok.inj h)
    exact ⟨info, heval⟩

theorem isImprovement_of_refuses {nums : Numbers rt N} {t : IdeaTree F} {score trunk : N}
    {reference : Json F} (h : refuses nums t score = none)
    (href : testTrunkScore rt t = some reference) (hnum : nums.number? reference = some trunk) :
    t.isImprovement nums score trunk = true := by
  rw [refuses, href, Option.bind_some, hnum] at h
  by_contra hno
  simp [hno] at h

inductive GateEvent (F N : Type)
  | merge (call : MergeCall N) (world : MergeWorld F N)
  | tool (e : CoordinatorEvent F)

/-- A run, and the score of its last merge while no trunk score has been
recorded after it. -/
structure GateRun (F N : Type) where
  coordinator : Coordinator F
  merged : Option N

def trunkReference (nums : Numbers rt N) (t : IdeaTree F) : Option N :=
  (t.metaScore nums "test_trunk_score").orElse fun _ => t.metaScore nums "test_baseline_score"

/-- A recorded trunk score is not zero, or the evaluated score improves on it
anyhow, or does not improve on the baseline. -/
def ZeroHarmless (nums : Numbers rt N) (t : IdeaTree F) (world : MergeWorld F N) : Prop :=
  ∀ trunk, t.metaScore nums "test_trunk_score" = some trunk → nums.isZero trunk = true →
    ∀ score info, world.evaluation = some (score, info) →
      t.isImprovement nums score trunk = true ∨
        ∃ baseline, t.metaScore nums "test_baseline_score" = some baseline ∧
          t.isImprovement nums score baseline = false

theorem number?_of_metaScore {nums : Numbers rt N} {t : IdeaTree F} {key : String} {score : N}
    (h : t.metaScore nums key = some score) :
    ∃ v, t.metadata.lookup key = some v ∧ nums.number? v = some score ∧ Node.isNull v = false := by
  obtain ⟨v, hv, hnum⟩ := Option.bind_eq_some_iff.mp h
  refine ⟨v, hv, hnum, ?_⟩
  cases v with
  | null =>
      rw [nums.number?_null] at hnum
      cases hnum
  | _ => rfl

theorem testTrunkScore_recorded {nums : Numbers rt N} {t : IdeaTree F} {trunk : N}
    (h : t.metaScore nums "test_trunk_score" = some trunk) (hzero : nums.isZero trunk = false) :
    ∃ v, testTrunkScore rt t = some v ∧ nums.number? v = some trunk := by
  obtain ⟨v, hv, hnum, hnull⟩ := number?_of_metaScore h
  have htrue := nums.isTrue_number v trunk hnum
  exact ⟨v, by simp [testTrunkScore, hv, htrue, hzero, hnull], hnum⟩

theorem testTrunkScore_baseline {nums : Numbers rt N} {t : IdeaTree F} {baseline : N}
    (h : t.metaScore nums "test_baseline_score" = some baseline)
    (hfalse : ∀ v, t.metadata.lookup "test_trunk_score" = some v → rt.isTrue v = false) :
    ∃ v, testTrunkScore rt t = some v ∧ nums.number? v = some baseline := by
  obtain ⟨v, hv, hnum, hnull⟩ := number?_of_metaScore h
  have hnone : (t.metadata.lookup "test_trunk_score").filter rt.isTrue = none := by
    cases hl : t.metadata.lookup "test_trunk_score" with
    | none => rfl
    | some trunk => simp [hfalse trunk hl]
  exact ⟨v, by simp [testTrunkScore, hnone, hv, hnull], hnum⟩

namespace GateRun

def setsMeta (key : String) : CoordinatorEvent F → Bool
  | .setMeta updates => updates.any (·.1 == key)
  | _ => false

def start (config : CoordinatorConfig F) : GateRun F N := ⟨.fresh config, none⟩

def step (config : CoordinatorConfig F) (nums : Numbers config.runtime N) (r : GateRun F N) :
    GateEvent F N → GateRun F N
  | .merge call world => match gitMergeBranch nums r.coordinator.tree call world with
    | .error _ => r
    | .ok m =>
        ⟨m.medal.elim r.coordinator fun medal => r.coordinator.step config (.setMedal medal),
          some m.testScore⟩
  | .tool e =>
      let after := r.coordinator.step config e
      let turned := after.tree.minimizes != r.coordinator.tree.minimizes
      ⟨after, if setsMeta "test_trunk_score" e || turned then none else r.merged⟩

/-- A merge is made on a verified score that improves on the trunk's, and a
trunk score that is recorded improves on the one before it. -/
def ImprovesAt (config : CoordinatorConfig F) (nums : Numbers config.runtime N) (r : GateRun F N) :
    GateEvent F N → Prop
  | .merge call world => ∀ m, gitMergeBranch nums r.coordinator.tree call world = .ok m →
      (∃ info, world.evaluation = some (m.testScore, info)) ∧
        ∀ trunk, trunkReference nums r.coordinator.tree = some trunk →
          r.coordinator.tree.isImprovement nums m.testScore trunk = true
  | .tool e => setsMeta "test_trunk_score" e = true → ∀ old new,
      r.coordinator.tree.metaScore nums "test_trunk_score" = some old →
        (r.coordinator.step config e).tree.metaScore nums "test_trunk_score" = some new →
          r.coordinator.tree.isImprovement nums new old = true

/-- Scores are verified, a recorded zero is harmless, and what is recorded is
the score of the merge just made. -/
def FitsGateAt (config : CoordinatorConfig F) (nums : Numbers config.runtime N) (r : GateRun F N) :
    GateEvent F N → Prop
  | .merge _ world => verifies config.runtime r.coordinator.tree = true ∧
      ZeroHarmless nums r.coordinator.tree world
  | .tool e => setsMeta "test_trunk_score" e = true → ∀ old new,
      r.coordinator.tree.metaScore nums "test_trunk_score" = some old →
        (r.coordinator.step config e).tree.metaScore nums "test_trunk_score" = some new →
          r.merged = some new

structure Inv (config : CoordinatorConfig F) (nums : Numbers config.runtime N) (r : GateRun F N) :
    Prop where
  inv : r.coordinator.Inv config
  saved : ∀ key ≠ "achieved_medal", r.coordinator.saved.metadata.lookup key =
    r.coordinator.tree.metadata.lookup key
  improves : ∀ new old, r.merged = some new →
    r.coordinator.tree.metaScore nums "test_trunk_score" = some old →
      r.coordinator.tree.isImprovement nums new old = true

variable {config : CoordinatorConfig F} {nums : Numbers config.runtime N} {r : GateRun F N}

theorem metaScore_congr {t t' : IdeaTree F} {key : String}
    (h : t'.metadata.lookup key = t.metadata.lookup key) :
    t'.metaScore nums key = t.metaScore nums key := by
  rw [IdeaTree.metaScore, IdeaTree.metaScore, h]

theorem isImprovement_congr {t t' : IdeaTree F} (h : t'.minimizes = t.minimizes) :
    t'.isImprovement nums = t.isImprovement nums := by
  funext new old
  rw [IdeaTree.isImprovement, IdeaTree.isImprovement, h]

theorem merge_improves {t : IdeaTree F} {call : MergeCall N} {world : MergeWorld F N}
    {m : Merged N} (hm : gitMergeBranch nums t call world = .ok m)
    (hv : verifies config.runtime t = true) (hz : ZeroHarmless nums t world) {trunk : N}
    (ht : trunkReference nums t = some trunk) : t.isImprovement nums m.testScore trunk = true := by
  obtain ⟨hscore, hrefuses⟩ := gitMergeBranch_eq_ok hm
  obtain ⟨info, heval⟩ := evaluation_of_mergeScore hscore hv
  rw [trunkReference] at ht
  cases hrecorded : t.metaScore nums "test_trunk_score" with
  | none =>
      rw [hrecorded] at ht
      have hfalse : ∀ v, t.metadata.lookup "test_trunk_score" = some v →
          config.runtime.isTrue v = false := by
        intro v hv
        by_contra htrue
        have hnum : nums.number? v = none := by
          rw [IdeaTree.metaScore, hv] at hrecorded
          exact hrecorded
        have hnull : Node.isNull v = false := by
          cases v with
          | null => simp [Runtime.isTrue, truthy] at htrue
          | _ => rfl
        simp [refuses, testTrunkScore, hv, htrue, hnull, hnum] at hrefuses
      obtain ⟨v, href, hnum⟩ := testTrunkScore_baseline ht hfalse
      exact isImprovement_of_refuses hrefuses href hnum
  | some recorded =>
      rw [hrecorded] at ht
      obtain rfl : recorded = trunk := Option.some.inj ht
      cases hzero : nums.isZero recorded with
      | false =>
          obtain ⟨v, href, hnum⟩ := testTrunkScore_recorded hrecorded hzero
          exact isImprovement_of_refuses hrefuses href hnum
      | true =>
          rcases hz recorded hrecorded hzero _ info heval with himp | ⟨baseline, hbase, hno⟩
          · exact himp
          · obtain ⟨v, href, hnum⟩ := testTrunkScore_baseline hbase fun v hv => by
              obtain ⟨v', hv', hnum', -⟩ := number?_of_metaScore hrecorded
              rw [hv] at hv'
              obtain rfl := Option.some.inj hv'
              rw [nums.isTrue_number _ _ hnum', hzero]
              rfl
            rw [isImprovement_of_refuses hrefuses href hnum] at hno
            cases hno

theorem Inv.merge (h : r.Inv config nums) (call : MergeCall N) (world : MergeWorld F N)
    (hfits : r.FitsGateAt config nums (.merge call world)) :
    (r.step config nums (.merge call world)).Inv config nums := by
  rw [step]
  cases hm : gitMergeBranch nums r.coordinator.tree call world with
  | error refusal => exact h
  | ok m =>
      have hnew : ∀ t : IdeaTree F,
          (∀ key ≠ "achieved_medal", t.metadata.lookup key =
            r.coordinator.tree.metadata.lookup key) →
          ∀ new old, some m.testScore = some new → t.metaScore nums "test_trunk_score" = some old →
            t.isImprovement nums new old = true := by
        intro t hsame new old hnew hold
        obtain rfl := Option.some.inj hnew
        have hdirection : t.minimizes = r.coordinator.tree.minimizes := by
          rw [IdeaTree.minimizes, IdeaTree.minimizes, hsame _ (by decide)]
        rw [metaScore_congr (hsame _ (by decide))] at hold
        rw [isImprovement_congr hdirection]
        exact merge_improves hm hfits.1 hfits.2 (by rw [trunkReference, hold]; rfl)
      dsimp only
      cases hmedal : m.medal with
      | none => exact ⟨h.inv, h.saved, hnew _ fun key _ => rfl⟩
      | some medal =>
          have hsame : ∀ key ≠ "achieved_medal",
              (r.coordinator.step config (.setMedal medal)).tree.metadata.lookup key =
                r.coordinator.tree.metadata.lookup key :=
            fun key hkey => Members.lookup_insert_ne hkey _ _
          refine ⟨h.inv.step (.setMedal medal), ?_, hnew _ hsame⟩
          intro key hkey
          exact (h.saved key hkey).trans (hsame key hkey).symm

theorem lookup_restart (h : r.Inv config nums) {key : String} (hkey : key ≠ "achieved_medal") :
    (r.coordinator.step config .restart).tree.metadata.lookup key =
        r.coordinator.tree.metadata.lookup key ∧
      (r.coordinator.step config .restart).saved.metadata.lookup key =
        r.coordinator.tree.metadata.lookup key := by
  refine Coordinator.restart_invariant
    (P := fun t => t.metadata.lookup key = r.coordinator.tree.metadata.lookup key) h.inv ?_ ?_
    (h.saved key hkey)
  · exact fun t maxDepth ht => ht
  · intro t id ht _
    have hr : IdeaTree.Refills t (t.updateNode id [("status", .str "pending")]).1 :=
      IdeaTree.refills_updateNode t id (by simp [Json.wf])
    rw [hr.metadata]
    exact ht

theorem Inv.saved_step (h : r.Inv config nums) (e : CoordinatorEvent F) {key : String}
    (hkey : key ≠ "achieved_medal") : (r.coordinator.step config e).saved.metadata.lookup key =
      (r.coordinator.step config e).tree.metadata.lookup key := by
  cases he : Coordinator.restarts e with
  | true =>
      obtain rfl := Coordinator.restarts_iff.mp he
      exact (lookup_restart h hkey).2.trans (lookup_restart h hkey).1.symm
  | false =>
      by_cases hset : ∃ us, e = .setMeta us
      · obtain ⟨us, rfl⟩ := hset
        simp only [Coordinator.step, Coordinator.commit]
        split_ifs
        · exact h.saved key hkey
        · rfl
      · rcases Coordinator.step_saved config r.coordinator he with hsaved | hsaved
        · rw [hsaved]
        · rw [hsaved, h.saved key hkey, Coordinator.lookup_metadata_step h.inv he]
          · exact fun us hus => absurd ⟨us, hus⟩ hset
          · exact fun _ _ => hkey

theorem Inv.metaScore_step (h : r.Inv config nums) {e : CoordinatorEvent F}
    (hset : setsMeta "test_trunk_score" e = false) :
    (r.coordinator.step config e).tree.metaScore nums "test_trunk_score" =
      r.coordinator.tree.metaScore nums "test_trunk_score" := by
  apply metaScore_congr
  cases he : Coordinator.restarts e with
  | true =>
      obtain rfl := Coordinator.restarts_iff.mp he
      exact (lookup_restart h (by decide)).1
  | false =>
      apply Coordinator.lookup_metadata_step h.inv he
      · rintro us rfl u hu -
        simpa using (List.any_eq_false.mp hset) u hu
      · exact fun _ _ => by decide

theorem Inv.tool (h : r.Inv config nums) (e : CoordinatorEvent F) :
    (r.step config nums (.tool e)).Inv config nums := by
  refine ⟨h.inv.step e, fun key => h.saved_step e, ?_⟩
  intro new old hnew hold
  simp only [step] at hnew hold ⊢
  split_ifs at hnew with hreset
  simp only [Bool.or_eq_true, bne_iff_ne, not_or, not_not, Bool.not_eq_true] at hreset
  rw [h.metaScore_step hreset.1] at hold
  rw [isImprovement_congr hreset.2]
  exact h.improves new old hnew hold

theorem Inv.improvesAt (h : r.Inv config nums) {e : GateEvent F N}
    (hfits : r.FitsGateAt config nums e) : r.ImprovesAt config nums e := by
  cases e with
  | merge call world =>
      intro m hm
      exact ⟨evaluation_of_mergeScore (gitMergeBranch_eq_ok hm).1 hfits.1,
        fun trunk => merge_improves hm hfits.1 hfits.2⟩
  | tool e => exact fun hset old new hold hnew => h.improves new old (hfits hset old new hold hnew) hold

theorem inv_start (config : CoordinatorConfig F) (nums : Numbers config.runtime N) :
    (start config : GateRun F N).Inv config nums :=
  ⟨Coordinator.inv_fresh config, fun _ _ => rfl, fun _ _ h => by simp [start] at h⟩

end GateRun

/-- Along a run whose merges are verified, with no recorded zero that lets one
through, and which records the scores of its merges, every merge improves on
the trunk and so does every trunk score that is recorded. -/
theorem mergeGate_improves (config : CoordinatorConfig F) (nums : Numbers config.runtime N)
    (events : List (GateEvent F N))
    (h : Along (GateRun.step config nums) (GateRun.FitsGateAt config nums) (.start config) events) :
    Along (GateRun.step config nums) (GateRun.ImprovesAt config nums) (.start config) events := by
  apply along_of_along (I := GateRun.Inv config nums) _ _ (GateRun.inv_start config nums) h
  · exact fun r e hr => hr.improvesAt
  · intro r e hr hfits
    cases e with
    | merge call world => exact hr.merge call world hfits
    | tool e => exact hr.tool e

def mergeScoring (score : Int) : GateEvent FloatText Int :=
  .merge ⟨"idea", "1", some "trunk", none⟩ ⟨none, some (score, []), none, none, true, true, true⟩

def recordScores (updates : List (String × Value FloatText)) : GateEvent FloatText Int :=
  .tool (.setMeta updates)

theorem mergeGate_ignores_zero :
    ¬ ∀ (config : CoordinatorConfig FloatText) (nums : Numbers config.runtime Int)
      (events : List (GateEvent FloatText Int)),
      Along (GateRun.step config nums) (GateRun.ImprovesAt config nums) (.start config) events := by
  intro h
  obtain ⟨-, himproves, -⟩ := h threeCycles integerNumbers
    [recordScores [("eval_cmd_test", ⟨.str "evaluate", rfl⟩), ("test_baseline_score", ⟨.int (-10), rfl⟩),
      ("test_trunk_score", ⟨.int 0, rfl⟩)], mergeScoring (-5)]
  have hbad := (himproves ⟨"trunk", -5, true, none⟩ (by rfl)).2 0 (by decide)
  revert hbad
  decide

theorem mergeGate_improves_twice :
    Along (GateRun.step threeCycles integerNumbers) (GateRun.ImprovesAt threeCycles integerNumbers)
      (.start threeCycles)
      [recordScores [("eval_cmd_test", ⟨.str "evaluate", rfl⟩), ("test_trunk_score", ⟨.int 3, rfl⟩)],
        mergeScoring 5, recordScores [("test_trunk_score", ⟨.int 5, rfl⟩)]] := by
  refine mergeGate_improves threeCycles integerNumbers _ ⟨?_, ⟨?_, ?_⟩, ?_, trivial⟩
  · intro _ old new hold
    have hnone : (GateRun.start threeCycles : GateRun FloatText Int).coordinator.tree.metaScore
        integerNumbers "test_trunk_score" = none := by decide
    exact absurd (hnone.symm.trans hold) (by simp)
  · decide
  · intro trunk htrunk hzero
    obtain rfl : 3 = trunk := Option.some.inj (htrunk.symm.trans (by decide)).symm
    cases hzero
  · intro _ old new _ hnew
    have hfive : some new = some 5 := hnew.symm.trans (by decide)
    rw [hfive]
    rfl

end DevPilot
