import DevPilot.Coordinator.Plateau

/-!
A restart of the process: the detector that is built anew knows nothing of the
order in which the experiments completed.
-/

namespace DevPilot

open PyJson RankSort Runs

variable {F N : Type} {rt : Runtime F}

/-- A run with the order of a detector that outlives the restarts, and that of
the one that each restart builds anew. -/
structure RestartedRun (F : Type) where
  coordinator : Coordinator F
  kept : List String
  rebuilt : List String

namespace Detector

variable {nums : Numbers rt N} {config : ConvergenceConfig N} {t : IdeaTree F}
  {order order' : List String}

def RanksAlike (nums : Numbers rt N) (t : IdeaTree F) (order order' : List String) : Prop :=
  ∀ p ∈ t.doneNodes nums, ∀ q ∈ t.doneNodes nums,
    completionRank order p.1.id ≤ completionRank order q.1.id ↔
      completionRank order' p.1.id ≤ completionRank order' q.1.id

theorem RanksAlike.inOrder_eq (h : RanksAlike nums t order order') (hne : order ≠ [])
    (hne' : order' ≠ []) :
    inOrder order (t.doneNodes nums) = inOrder order' (t.doneNodes nums) := by
  have hempty : order.isEmpty = false := by simpa using hne
  have hempty' : order'.isEmpty = false := by simpa using hne'
  rw [inOrder, inOrder, hempty, hempty', if_neg (by simp), if_neg (by simp)]
  exact byRank_congr h

theorem signal_congr
    (h : inOrder order (t.doneNodes nums) = inOrder order' (t.doneNodes nums)) (trunk : N) :
    signal nums config t order trunk = signal nums config t order' trunk := by
  have hstate : rebuildState nums config t order trunk = rebuildState nums config t order' trunk := by
    simp only [rebuildState, h]
  have hvelocity : computeVelocity nums config t order trunk =
      computeVelocity nums config t order' trunk := by
    simp only [computeVelocity, h]
  simp only [signal, hstate, hvelocity]

end Detector

namespace RestartedRun

variable (settings : CoordinatorConfig F) (nums : Numbers rt N) (config : ConvergenceConfig N)

def start : RestartedRun F := ⟨.fresh settings, [], []⟩

def step (r : RestartedRun F) : PlateauEvent F → RestartedRun F
  | .tool e =>
      ⟨r.coordinator.step settings e, r.kept, if Coordinator.restarts e then [] else r.rebuilt⟩
  | .check nodeId =>
      let check order := (Detector.onExperimentComplete nums config r.coordinator.tree order nodeId).1
      ⟨r.coordinator, check r.kept, check r.rebuilt⟩

def SameSignalAt (r : RestartedRun F) : PlateauEvent F → Prop
  | .check nodeId =>
      (Detector.onExperimentComplete nums config r.coordinator.tree r.rebuilt nodeId).2 =
        (Detector.onExperimentComplete nums config r.coordinator.tree r.kept nodeId).2
  | .tool _ => True

/-- At a check the completed experiments stand in the same order for both. -/
def FitsAt (r : RestartedRun F) : PlateauEvent F → Prop
  | .check nodeId => (Detector.trunkScore nums config r.coordinator.tree).isSome = true →
      Detector.RanksAlike nums r.coordinator.tree (Detector.record r.rebuilt nodeId)
        (Detector.record r.kept nodeId)
  | .tool _ => True

instance (r : RestartedRun F) : ∀ e, Decidable (r.FitsAt nums config e)
  | .check _ => inferInstanceAs (Decidable (_ → ∀ p ∈ _, ∀ q ∈ _, _))
  | .tool _ => inferInstanceAs (Decidable True)

variable {settings nums config} {r : RestartedRun F}

theorem FitsAt.sameSignalAt {e : PlateauEvent F} (h : r.FitsAt nums config e) :
    r.SameSignalAt nums config e := by
  cases e with
  | tool e => trivial
  | check nodeId =>
      rw [SameSignalAt, Detector.onExperimentComplete, Detector.onExperimentComplete]
      rw [FitsAt] at h
      cases htrunk : Detector.trunkScore nums config r.coordinator.tree with
      | none => rfl
      | some trunk =>
          rw [htrunk] at h
          exact Detector.signal_congr ((h rfl).inOrder_eq (PlateauRun.record_ne_nil _ _)
            (PlateauRun.record_ne_nil _ _)) trunk

/-! Where no node that a lost order held is told of again, and none of them has
completed, the two orders agree on what has. -/

def TellsAnewAt (nums : Numbers rt N) (r : RestartedRun F) : PlateauEvent F → Prop
  | .check nodeId => (nodeId ∈ r.kept → nodeId ∈ r.rebuilt) ∧
      (∀ p ∈ r.coordinator.tree.doneNodes nums, p.1.id ∈ r.kept → p.1.id ∈ r.rebuilt) ∧
      r.kept.length < 999999
  | .tool _ => True

instance (r : RestartedRun F) : ∀ e, Decidable (r.TellsAnewAt nums e)
  | .check _ => inferInstanceAs (Decidable (_ ∧ _ ∧ _))
  | .tool _ => inferInstanceAs (Decidable True)

structure Inv (r : RestartedRun F) : Prop where
  sublist : r.rebuilt.Sublist r.kept
  nodup : r.kept.Nodup

theorem idxOf_le_iff {l m : List String} (hsub : l.Sublist m) (hm : m.Nodup) {a b : String}
    (ha : a ∈ l) (hb : b ∈ l) : l.idxOf a ≤ l.idxOf b ↔ m.idxOf a ≤ m.idxOf b := by
  have hpair := (Detector.pairwise_idxOf hm).sublist hsub
  have hlt : ∀ x ∈ l, ∀ y ∈ l, l.idxOf x < l.idxOf y → m.idxOf x < m.idxOf y := by
    intro x hx y hy hxy
    have h := List.pairwise_iff_getElem.mp hpair _ _ (List.idxOf_lt_length_of_mem hx)
      (List.idxOf_lt_length_of_mem hy) hxy
    rwa [List.getElem_idxOf, List.getElem_idxOf] at h
  constructor
  · intro hle
    rcases Nat.lt_or_eq_of_le hle with h | h
    · exact (hlt a ha b hb h).le
    · rw [(List.idxOf_inj ha).mp h]
  · intro hle
    by_contra hnot
    exact absurd hle (Nat.not_le_of_lt (hlt b hb a ha (Nat.lt_of_not_le hnot)))

theorem sublist_record {l m : List String} (h : l.Sublist m) {nodeId : String}
    (hid : nodeId ∈ m → nodeId ∈ l) :
    (Detector.record l nodeId).Sublist (Detector.record m nodeId) := by
  rw [Detector.record, Detector.record]
  by_cases hm : nodeId ∈ m
  · rw [if_pos hm, if_pos (hid hm)]
    exact h
  · rw [if_neg hm, if_neg fun hl => hm (h.subset hl)]
    exact h.append (List.Sublist.refl _)

theorem mem_record {order : List String} {nodeId x : String} :
    x ∈ Detector.record order nodeId ↔ x ∈ order ∨ x = nodeId := by
  rw [Detector.record]
  split_ifs with hmem
  · exact ⟨.inl, fun h => h.elim id fun hx => hx ▸ hmem⟩
  · simp

theorem length_record_le (order : List String) (nodeId : String) :
    (Detector.record order nodeId).length ≤ order.length + 1 := by
  rw [Detector.record]
  split_ifs <;> simp

theorem completionRank_le_iff {l m : List String} (hsub : l.Sublist m) (hm : m.Nodup)
    (hfew : m.length ≤ 999999) {a b : String} (ha : a ∈ m → a ∈ l) (hb : b ∈ m → b ∈ l) :
    Detector.completionRank l a ≤ Detector.completionRank l b ↔
      Detector.completionRank m a ≤ Detector.completionRank m b := by
  have hlow : ∀ order : List String, order.length ≤ 999999 → ∀ x ∈ order,
      Detector.completionRank order x < 999999 := by
    intro order hlen x hx
    rw [Detector.completionRank_of_mem hx]
    exact (List.idxOf_lt_length_of_mem hx).trans_le hlen
  have hlen : l.length ≤ 999999 := hsub.length_le.trans hfew
  by_cases ham : a ∈ m
  · by_cases hbm : b ∈ m
    · rw [Detector.completionRank_of_mem (ha ham), Detector.completionRank_of_mem (hb hbm),
        Detector.completionRank_of_mem ham, Detector.completionRank_of_mem hbm]
      exact idxOf_le_iff hsub hm (ha ham) (hb hbm)
    · rw [Detector.completionRank_of_notMem hbm,
        Detector.completionRank_of_notMem fun hbl => hbm (hsub.subset hbl)]
      exact iff_of_true (hlow l hlen a (ha ham)).le (hlow m hfew a ham).le
  · rw [Detector.completionRank_of_notMem ham,
      Detector.completionRank_of_notMem fun hal => ham (hsub.subset hal)]
    by_cases hbm : b ∈ m
    · exact iff_of_false (hlow l hlen b (hb hbm)).not_ge (hlow m hfew b hbm).not_ge
    · rw [Detector.completionRank_of_notMem hbm,
        Detector.completionRank_of_notMem fun hbl => hbm (hsub.subset hbl)]

theorem Inv.fitsAt (h : r.Inv) {e : PlateauEvent F} (htells : r.TellsAnewAt nums e) :
    r.FitsAt nums config e := by
  cases e with
  | tool e => trivial
  | check nodeId =>
      obtain ⟨hid, hdone, hfew⟩ := htells
      have hknown : ∀ p ∈ r.coordinator.tree.doneNodes nums,
          p.1.id ∈ Detector.record r.kept nodeId → p.1.id ∈ Detector.record r.rebuilt nodeId := by
        intro p hp hmem
        rw [mem_record] at hmem ⊢
        exact hmem.imp (hdone p hp) id
      intro _ p hp q hq
      apply completionRank_le_iff (sublist_record h.sublist hid)
        (PlateauRun.nodup_record h.nodup nodeId) ((length_record_le r.kept nodeId).trans hfew)
      · exact hknown p hp
      · exact hknown q hq

theorem Inv.step (h : r.Inv) {e : PlateauEvent F} (htells : r.TellsAnewAt nums e) :
    (r.step settings nums config e).Inv := by
  cases e with
  | tool e =>
      refine ⟨?_, h.nodup⟩
      rw [RestartedRun.step]
      dsimp only
      split_ifs
      · exact List.nil_sublist _
      · exact h.sublist
  | check nodeId =>
      refine ⟨?_, PlateauRun.nodup_onExperimentComplete h.nodup nodeId⟩
      simp only [RestartedRun.step, Detector.onExperimentComplete]
      split
      · exact h.sublist
      · exact sublist_record h.sublist htells.1

theorem fits_of_tellsAnew {events : List (PlateauEvent F)}
    (h : Along (step settings nums config) (TellsAnewAt nums) (start settings) events) :
    Along (step settings nums config) (FitsAt nums config) (start settings) events :=
  along_of_along (I := Inv) (fun _ _ hr htells => hr.fitsAt htells)
    (fun _ _ hr htells => hr.step htells) ⟨List.Sublist.refl _, List.nodup_nil⟩ h

end RestartedRun

/-- Along a run whose checks find the completed experiments ranked alike by
both, a detector built anew gives the signals of one that outlives the restarts. -/
theorem restarted_sameSignal (settings : CoordinatorConfig F) (nums : Numbers rt N)
    (config : ConvergenceConfig N) (events : List (PlateauEvent F))
    (h : Along (RestartedRun.step settings nums config) (RestartedRun.FitsAt nums config)
      (.start settings) events) :
    Along (RestartedRun.step settings nums config) (RestartedRun.SameSignalAt nums config)
      (.start settings) events := by
  apply along_of_along (I := fun _ => True) _ _ trivial h
  · exact fun r e _ hfits => hfits.sameSignalAt
  · exact fun r e _ _ => trivial

def anxious : ConvergenceConfig Int := ⟨true, 1, 5, 0, 3, 1, 5, 8⟩

theorem restarted_reorders :
    ¬ ∀ (settings : CoordinatorConfig FloatText) (nums : Numbers literalRuntime Int)
      (config : ConvergenceConfig Int) (events : List (PlateauEvent FloatText)),
      Along (RestartedRun.step settings nums config) (RestartedRun.SameSignalAt nums config)
        (.start settings) events := by
  intro h
  have hall := h threeCycles integerNumbers anxious
    ([recordTrunk 0] ++ experiment "1" (-1) ++ [.tool .restart] ++ experiment "2" 5)
  obtain ⟨-, -, -, -, -, -, -, -, -, -, -, hsame, -⟩ := hall
  have hlevel := congrArg (Option.map ConvergenceSignal.level) hsame
  revert hlevel
  set_option maxRecDepth 20000 in with_unfolding_all decide

theorem restarted_sameSignal_early :
    Along (RestartedRun.step threeCycles integerNumbers anxious)
      (RestartedRun.SameSignalAt integerNumbers anxious) (.start threeCycles)
      ([recordTrunk 0, .tool .restart] ++ experiment "1" 5 ++ experiment "2" (-1)) := by
  apply restarted_sameSignal threeCycles integerNumbers anxious
  apply RestartedRun.fits_of_tellsAnew
  set_option maxRecDepth 20000 in with_unfolding_all decide

end DevPilot
