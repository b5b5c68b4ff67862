import DevPilot.Coordinator.Effects

/-!
The gold medal that ends the dispatch of executors: how long it is remembered.
-/

namespace DevPilot

open PyJson Runs

variable {F : Type}

structure MedalRun (F : Type) where
  coordinator : Coordinator F
  gold : Bool

namespace MedalRun

def winsGold : CoordinatorEvent F → Bool
  | .setMedal medal => medal == "gold"
  | _ => false

def start (config : CoordinatorConfig F) : MedalRun F := ⟨.fresh config, false⟩

def step (config : CoordinatorConfig F) (r : MedalRun F) (e : CoordinatorEvent F) : MedalRun F :=
  ⟨r.coordinator.step config e, r.gold || winsGold e⟩

def StopsAt (config : CoordinatorConfig F) (r : MedalRun F) (e : CoordinatorEvent F) : Prop :=
  r.gold = true → r.coordinator.dispatchOf config e = none

/-- After a gold medal no other medal is recorded, and the run is resumed only
from a file that has the gold. -/
def KeepsGoldAt (r : MedalRun F) (e : CoordinatorEvent F) : Prop :=
  r.gold = true → match e with
    | .setMedal medal => medal = "gold"
    | .restart => achievedGold r.coordinator.saved = true
    | _ => True

structure Inv (config : CoordinatorConfig F) (r : MedalRun F) : Prop where
  inv : r.coordinator.Inv config
  latched : r.gold = true → achievedGold r.coordinator.tree = true

variable {config : CoordinatorConfig F} {r : MedalRun F} {e : CoordinatorEvent F}

theorem achievedGold_congr {t t' : IdeaTree F} (h : t'.metadata = t.metadata) :
    achievedGold t' = achievedGold t := by
  rw [achievedGold, achievedGold, h]

theorem achievedGold_restart (h : r.coordinator.Inv config) :
    achievedGold (r.coordinator.step config .restart).tree =
      achievedGold r.coordinator.saved := by
  refine (Coordinator.restart_invariant
    (P := fun t => achievedGold t = achievedGold r.coordinator.saved) h ?_ ?_ rfl).1
  · exact fun t maxDepth ht => ht
  · intro t id ht _
    have hr : IdeaTree.Refills t (t.updateNode id [("status", .str "pending")]).1 :=
      IdeaTree.refills_updateNode t id (by simp [Json.wf])
    exact (achievedGold_congr hr.metadata).trans ht

theorem Inv.latched_step_iff (h : r.Inv config) : ((r.step config e).gold = true →
    achievedGold (r.step config e).coordinator.tree = true) ↔ r.KeepsGoldAt e := by
  have hkeep : winsGold e = false → achievedGold (r.coordinator.step config e).tree =
      achievedGold r.coordinator.tree → ((r.step config e).gold = true →
        achievedGold (r.step config e).coordinator.tree = true) := by
    intro hwins hsame
    rw [step, hwins, Bool.or_false]
    exact fun hgold => hsame.trans (h.latched hgold)
  cases e with
  | setMedal medal =>
      have hmedal : achievedGold (r.coordinator.step config (.setMedal medal)).tree =
          (medal == "gold") := by
        simp only [Coordinator.step, Coordinator.commit, achievedGold, Members.lookup_insert_self]
        rfl
      rw [step, hmedal, KeepsGoldAt, winsGold]
      cases r.gold <;> simp
  | restart =>
      rw [step, achievedGold_restart h.inv, KeepsGoldAt]
      simp only [winsGold, Bool.or_false]
  | _ =>
      refine iff_of_true (hkeep rfl ?_) fun _ => trivial
      rw [achievedGold, achievedGold, Coordinator.lookup_metadata_step h.inv rfl]
      · intro us _ u _ hu heq
        rw [heq] at hu
        revert hu
        decide
      · simp

theorem Inv.stops (h : r.Inv config) (e : CoordinatorEvent F) : r.StopsAt config e := by
  intro hgold
  cases hd : r.coordinator.dispatchOf config e with
  | none => rfl
  | some d =>
      obtain ⟨resume, hvalid⟩ := Coordinator.dispatchOf_eq_some hd
      rw [validateDispatch, if_pos (h.latched hgold)] at hvalid
      cases hvalid

end MedalRun

/-- Along a run in which no other medal follows a gold one, and which is not
resumed before the gold is in its file, gold ends the dispatch of executors. -/
theorem gold_stops_dispatch (config : CoordinatorConfig F) (events : List (CoordinatorEvent F))
    (h : Along (MedalRun.step config) MedalRun.KeepsGoldAt (.start config) events) :
    Along (MedalRun.step config) (MedalRun.StopsAt config) (.start config) events := by
  apply along_of_along (I := MedalRun.Inv config) (p := MedalRun.StopsAt config) _ _ _ h
  · exact fun r e hr _ => hr.stops e
  · exact fun r e hr hk => ⟨hr.inv.step e, hr.latched_step_iff.mpr hk⟩
  · exact ⟨Coordinator.inv_fresh config, by simp [MedalRun.start]⟩

theorem gold_overwritten :
    ¬ ∀ (config : CoordinatorConfig FloatText) (events : List (CoordinatorEvent FloatText)),
      Along (MedalRun.step config) (MedalRun.StopsAt config) (.start config) events := by
  intro h
  obtain ⟨-, -, -, -, hstops, -⟩ := h threeCycles
    [.addNode "ROOT" ⟨.str "idea", rfl⟩ none, .setMedal "gold", .setMedal "bronze",
      .runExecutor "1", .start 0]
  have hnone := Option.isNone_iff_eq_none.mpr (hstops rfl)
  revert hnone
  decide

theorem gold_stops_dispatch_saved :
    Along (MedalRun.step threeCycles) (MedalRun.StopsAt threeCycles) (.start threeCycles)
      [.addNode "ROOT" ⟨.str "idea", rfl⟩ none, .setMedal "gold", .noteInsight "1" "best", .restart,
        .runExecutor "1", .start 0] := by
  refine gold_stops_dispatch threeCycles _ ⟨?_, ?_, ?_, ?_, ?_, ?_, trivial⟩
  · exact fun _ => trivial
  · exact fun _ => rfl
  · exact fun _ => trivial
  · exact fun _ => by decide
  · exact fun _ => trivial
  · exact fun _ => trivial

end DevPilot
