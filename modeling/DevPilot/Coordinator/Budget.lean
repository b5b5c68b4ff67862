import DevPilot.Coordinator.Dispatch

/-!
The cycle budget: the fresh dispatches of a run against the nodes that count as
completed cycles.
-/

namespace DevPilot

open PyJson Runs

variable {F : Type}

namespace IdeaTree

def counted (t : IdeaTree F) (x : String) : Bool :=
  x != t.rootId && cycleStatuses.any (t.hasStatus x)

def spent (t : IdeaTree F) (flying : List String) : Finset String :=
  t.ids.toFinset.filter fun x => t.counted x = true ∨ x ≠ t.rootId ∧ x ∈ flying

variable {t t' : IdeaTree F} {flying flying' : List String}

theorem counted_congr (hroot : t'.rootId = t.rootId) {x : String}
    (h : ∀ st ∈ cycleStatuses, t'.hasStatus x st = t.hasStatus x st) : t'.counted x = t.counted x := by
  rw [counted, counted, hroot, Bool.eq_iff_iff, Bool.and_eq_true, Bool.and_eq_true,
    List.any_eq_true, List.any_eq_true]
  refine and_congr_right fun _ => exists_congr fun st => and_congr_right fun hst => ?_
  rw [h st hst]

theorem mem_spent {x : String} : x ∈ t.spent flying ↔
    x ∈ t.ids ∧ (t.counted x = true ∨ x ≠ t.rootId ∧ x ∈ flying) := by
  rw [spent, Finset.mem_filter, List.mem_toFinset]

theorem completedCycles_eq_countP (h : t.Storable) : completedCycles t = t.ids.countP t.counted := by
  rw [completedCycles, ← List.countP_eq_length_filter, ids, List.countP_map]
  apply List.countP_congr
  intro p hp
  have hstatus : p.2.hasStatus = t.hasStatus p.1 := by
    funext st
    rw [← hasStatus_of_mem h hp, h.keyed p hp]
  rw [Function.comp, counted, h.keyed p hp, hstatus]

theorem completedCycles_eq (h : t.Storable) : completedCycles t = (t.spent []).card := by
  have hspent : t.spent [] = (t.ids.filter t.counted).toFinset := by
    ext x
    simp [mem_spent]
  rw [completedCycles_eq_countP h, hspent, List.toFinset_card_of_nodup (h.nodup.filter _),
    List.countP_eq_length_filter]

theorem counted_iff {x : String} : t.counted x = true ↔
    x ≠ t.rootId ∧ ∃ st ∈ cycleStatuses, t.hasStatus x st = true := by
  simp [counted]

theorem spent_subset (hids : t.ids ⊆ t'.ids) (hroot : t'.rootId = t.rootId)
    (hcounted : ∀ x ∈ t.ids, t.counted x = true → t'.counted x = true ∨ x ∈ flying')
    (hflying : ∀ x ∈ flying, x ≠ t.rootId → t'.counted x = true ∨ x ∈ flying') :
    t.spent flying ⊆ t'.spent flying' := by
  intro x hx
  rw [mem_spent] at hx ⊢
  refine ⟨hids hx.1, ?_⟩
  rw [hroot]
  rcases hx.2 with hc | ⟨hr, hf⟩
  · exact (hcounted x hx.1 hc).imp_right fun hf => ⟨(counted_iff.mp hc).1, hf⟩
  · exact (hflying x hf hr).imp_right fun hf => ⟨hr, hf⟩

end IdeaTree

/-- A run of the coordinator, with the fresh dispatches counted that have been
started and found a worktree. -/
structure BudgetedRun (F : Type) where
  coordinator : Coordinator F
  fresh : List Bool
  dispatched : Nat

namespace BudgetedRun

def isStart : CoordinatorEvent F → Bool
  | .start _ => true
  | _ => false

def isRefund (r : BudgetedRun F) : CoordinatorEvent F → Bool
  | .worktreeFailed i _ => r.fresh[i]? == some true
  | _ => false

def start (config : CoordinatorConfig F) : BudgetedRun F := ⟨.fresh config, [], 0⟩

def step (config : CoordinatorConfig F) (r : BudgetedRun F) (e : CoordinatorEvent F) :
    BudgetedRun F where
  coordinator := r.coordinator.step config e
  fresh := if Coordinator.restarts e then []
    else (Coordinator.landingOf e).elim r.fresh r.fresh.eraseIdx ++
      ((r.coordinator.dispatchOf config e).map fun _ => isStart e).toList
  dispatched := r.dispatched + (if isStart e && (r.coordinator.dispatchOf config e).isSome then 1 else 0) -
    (if r.isRefund e then 1 else 0)

/-- Calls are made one after the other, fresh dispatches are of new ideas, none
ends by an exception, none is lost by a restart, and what counts as a cycle goes
on counting. -/
def FitsBudget (config : CoordinatorConfig F) (r : BudgetedRun F) (e : CoordinatorEvent F) : Prop :=
  let s := r.coordinator
  match e with
  | .runExecutor _ | .runExecutorParallel _ => s.queued = [] ∧ s.inFlight = []
  | .start _ => ∀ d, s.dispatchOf config e = some d →
      s.tree.hasStatus d.nodeId "pending" = true ∧ d.nodeId ∉ s.flying ∧ d.nodeId ≠ s.tree.rootId
  | .updateNode id _ => s.tree.counted id = true → (s.step config e).tree.counted id = true
  | .worktreeFailed i _ => r.fresh[i]? ≠ some false
  | .finished i outcome => ∀ d, s.inFlight[i]? = some d →
      (outcomeUpdates config.runtime outcome d.attempt).isSome = true
  | .crashed i => s.inFlight[i]? = none
  | .restart => s.inFlight = []
  | _ => True

structure Inv (config : CoordinatorConfig F) (r : BudgetedRun F) : Prop where
  inv : r.coordinator.Inv config
  aligned : r.fresh.length = r.coordinator.inFlight.length
  known : ∀ x ∈ r.coordinator.flying, x ∈ r.coordinator.tree.ids
  tree : r.dispatched ≤ (r.coordinator.tree.spent r.coordinator.flying).card
  saved : r.dispatched ≤ (r.coordinator.saved.spent r.coordinator.flying).card
  bounded : (r.dispatched + r.coordinator.queued.length : Int) ≤ max config.maxCycles 0

variable {config : CoordinatorConfig F} {r : BudgetedRun F} {e : CoordinatorEvent F}

theorem Inv.counted_step (h : r.Inv config) (hfits : r.FitsBudget config e)
    (he : Coordinator.restarts e = false) {x : String} (hx : x ∈ r.coordinator.tree.ids)
    (hcounted : r.coordinator.tree.counted x = true) :
    (r.coordinator.step config e).tree.counted x = true ∨
      (∃ d, r.coordinator.dispatchOf config e = some d ∧ d.nodeId = x) ∨
      ∃ i error, e = .worktreeFailed i error ∧ r.coordinator.flying[i]? = some x := by
  have hlegal := h.inv.legal e
  have hroot := (h.inv.apply_frame e).1
  obtain ⟨hne, st, hst, hstatus⟩ := IdeaTree.counted_iff.mp hcounted
  cases hop : r.coordinator.treeOp config e with
  | keep =>
      rw [Coordinator.step_tree he, hop]
      exact .inl hcounted
  | add node =>
      rw [hop] at hlegal hroot
      obtain ⟨parentId, parent, hnode⟩ := hlegal
      have hfresh : x ≠ node.id := fun hid => hnode.fresh (hid ▸ hx)
      left
      rw [Coordinator.step_tree he, hop]
      refine IdeaTree.counted_iff.mpr ⟨hroot ▸ hne, st, hst, ?_⟩
      rw [TreeOp.apply, hnode.hasStatus, if_neg hfresh]
      exact hstatus
  | write nodeId updates =>
      rw [hop] at hroot
      by_cases hid : x = nodeId
      · subst hid
        cases Coordinator.writes_of_treeOp hop with
        | tool us heq hu =>
            subst heq
            exact .inl (hfits hcounted)
        | note hkeep =>
            left
            rw [Coordinator.step_tree he, hop]
            refine IdeaTree.counted_iff.mpr ⟨hroot ▸ hne, st, hst, ?_⟩
            rw [TreeOp.apply, IdeaTree.hasStatus_note hkeep]
            exact hstatus
        | start d hd hdid hu => exact .inr (.inl ⟨d, hd, hdid⟩)
        | failed i error heq d hd hdid hv =>
            refine .inr (.inr ⟨i, error, heq, ?_⟩)
            rw [Coordinator.flying, List.getElem?_map, hd, Option.map_some, hdid]
        | finished i outcome heq d hd hdid status hdone hv =>
            left
            rw [Coordinator.step_tree he, hop]
            refine IdeaTree.counted_iff.mpr ⟨hroot ▸ hne, status, ?_, ?_⟩
            · rcases hdone with rfl | rfl <;> simp [cycleStatuses]
            · rw [TreeOp.apply, IdeaTree.hasStatus_write hv]
              simp [hx]
      · left
        rw [Coordinator.step_tree he, hop]
        refine IdeaTree.counted_iff.mpr ⟨hroot ▸ hne, st, hst, ?_⟩
        rw [TreeOp.apply, IdeaTree.hasStatus, IdeaTree.getNode_updateNode, if_neg hid]
        exact hstatus
  | prune nodeId reason =>
      rw [hop] at hroot
      left
      rw [Coordinator.step_tree he, hop]
      rcases IdeaTree.hasStatus_pruneNode config.runtime r.coordinator.tree nodeId reason x with
        hp | hsame
      · exact IdeaTree.counted_iff.mpr ⟨hroot ▸ hne, "pruned", by simp [cycleStatuses], hp⟩
      · exact IdeaTree.counted_iff.mpr ⟨hroot ▸ hne, st, hst, (hsame st).trans hstatus⟩
  | setMeta metadata saved =>
      rw [Coordinator.step_tree he, hop]
      exact .inl hcounted

theorem flying_getElem? {s : Coordinator F} {i : Nat} {x : String} (h : s.flying[i]? = some x) :
    ∃ d, s.inFlight[i]? = some d ∧ d.nodeId = x := by
  rw [Coordinator.flying, List.getElem?_map] at h
  exact Option.map_eq_some_iff.mp h

theorem treeOp_finished {s : Coordinator F} {i : Nat} {outcome : Outcome F} {d : Dispatch F}
    {updates : List (String × Json F)} (hd : s.inFlight[i]? = some d)
    (hu : outcomeUpdates config.runtime outcome d.attempt = some updates) :
    s.treeOp config (.finished i outcome) = .write d.nodeId updates := by
  rw [Coordinator.treeOp, hd, Option.bind_some, hu]
  rfl

theorem Inv.flying_step (h : r.Inv config) (hfits : r.FitsBudget config e)
    (he : Coordinator.restarts e = false) {x : String} (hx : x ∈ r.coordinator.flying)
    (hroot : x ≠ r.coordinator.tree.rootId) :
    (r.coordinator.step config e).tree.counted x = true ∨ x ∈ (r.coordinator.step config e).flying ∨
      ∃ i error, e = .worktreeFailed i error ∧ r.coordinator.flying[i]? = some x := by
  cases hd : r.coordinator.dispatchOf config e with
  | some d =>
      right; left
      rw [Coordinator.flying_dispatch hd]
      exact List.mem_append_left _ hx
  | none =>
      rw [Coordinator.flying_land he hd]
      cases hl : Coordinator.landingOf e with
      | none => exact .inr (.inl hx)
      | some i =>
          rcases Slices.mem_eraseIdx_or hx i with hmem | hget
          · exact .inr (.inl hmem)
          · obtain ⟨d, hget', hdx⟩ := flying_getElem? hget
            cases e with
            | worktreeFailed j error =>
                obtain rfl := Option.some.inj hl
                exact .inr (.inr ⟨j, error, rfl, hget⟩)
            | finished j outcome =>
                obtain rfl := Option.some.inj hl
                left
                obtain ⟨updates, hupdates⟩ := Option.isSome_iff_exists.mp (hfits d hget')
                obtain ⟨status, hdone, hv⟩ := Coordinator.outcomeUpdates_status hupdates
                have hr := (h.inv.apply_frame (.finished j outcome)).1
                rw [treeOp_finished hget' hupdates, hdx] at hr
                rw [Coordinator.step_tree he, treeOp_finished hget' hupdates, hdx]
                refine IdeaTree.counted_iff.mpr ⟨hr ▸ hroot, status, ?_, ?_⟩
                · rcases hdone with rfl | rfl <;> simp [cycleStatuses]
                · rw [TreeOp.apply, IdeaTree.hasStatus_write fun n => (hv n).1]
                  simp [h.known x hx]
            | crashed j =>
                obtain rfl := Option.some.inj hl
                have := hfits
                simp [FitsBudget, hget'] at this
            | _ => simp [Coordinator.landingOf] at hl

def refunded (s : Coordinator F) : CoordinatorEvent F → Finset String
  | .worktreeFailed i _ => s.flying[i]?.toFinset
  | _ => ∅

theorem card_refunded (s : Coordinator F) (e : CoordinatorEvent F) : (refunded s e).card ≤ 1 := by
  cases e with
  | worktreeFailed i error =>
      rw [refunded]
      cases s.flying[i]? <;> simp
  | _ => simp [refunded]

theorem Inv.spent_step (h : r.Inv config) (hfits : r.FitsBudget config e)
    (he : Coordinator.restarts e = false) :
    r.coordinator.tree.spent r.coordinator.flying ⊆
      (r.coordinator.step config e).tree.spent (r.coordinator.step config e).flying ∪
        refunded r.coordinator e := by
  obtain ⟨hroot, hids⟩ := h.inv.apply_frame e
  rw [← Coordinator.step_tree he] at hroot hids
  intro x hx
  obtain ⟨hmem, hx⟩ := IdeaTree.mem_spent.mp hx
  rw [Finset.mem_union, IdeaTree.mem_spent, hroot]
  have hne : x ≠ r.coordinator.tree.rootId := hx.elim (fun hc => (IdeaTree.counted_iff.mp hc).1) (·.1)
  have hrefund : ∀ i error, e = .worktreeFailed i error → r.coordinator.flying[i]? = some x →
      x ∈ refunded r.coordinator e := by
    rintro i error rfl hget
    simp [refunded, hget]
  rcases hx with hc | ⟨-, hf⟩
  · rcases h.counted_step hfits he hmem hc with hc | ⟨d, hd, rfl⟩ | ⟨i, error, heq, hget⟩
    · exact .inl ⟨hids hmem, .inl hc⟩
    · refine .inl ⟨hids hmem, .inr ⟨hne, ?_⟩⟩
      rw [Coordinator.flying_dispatch hd]
      exact List.mem_append_right _ (List.mem_singleton_self _)
    · exact .inr (hrefund i error heq hget)
  · rcases h.flying_step hfits he hf hne with hc | hf | ⟨i, error, heq, hget⟩
    · exact .inl ⟨hids hmem, .inl hc⟩
    · exact .inl ⟨hids hmem, .inr ⟨hne, hf⟩⟩
    · exact .inr (hrefund i error heq hget)

theorem Inv.start_fresh (h : r.Inv config) {i : Nat} (hfits : r.FitsBudget config (.start i))
    {d : Dispatch F} (hd : r.coordinator.dispatchOf config (.start i) = some d) :
    d.nodeId ∉ r.coordinator.tree.spent r.coordinator.flying ∧ d.nodeId ∈
      (r.coordinator.step config (.start i)).tree.spent (r.coordinator.step config (.start i)).flying := by
  obtain ⟨hpending, hfly, hroot⟩ := hfits d hd
  obtain ⟨hroot', hids⟩ := h.inv.apply_frame (.start i)
  rw [IdeaTree.mem_spent, IdeaTree.mem_spent, Coordinator.flying_dispatch hd,
    Coordinator.step_tree rfl, hroot']
  constructor
  · rintro ⟨-, hc | ⟨-, hf⟩⟩
    · obtain ⟨-, st, hst, hstatus⟩ := IdeaTree.counted_iff.mp hc
      obtain rfl := IdeaTree.hasStatus_inj hpending hstatus
      simp [cycleStatuses] at hst
    · exact hfly hf
  · exact ⟨hids (IdeaTree.mem_ids_of_hasStatus hpending),
      .inr ⟨hroot, List.mem_append_right _ (List.mem_singleton_self _)⟩⟩

theorem Inv.card_step (h : r.Inv config) (hfits : r.FitsBudget config e)
    (he : Coordinator.restarts e = false) : (r.step config e).dispatched ≤
      ((r.coordinator.step config e).tree.spent (r.coordinator.step config e).flying).card := by
  have hle := (Finset.card_le_card (h.spent_step hfits he)).trans (Finset.card_union_le _ _)
  have htree := h.tree
  rw [step]
  dsimp only
  cases e with
  | start i =>
      cases hd : r.coordinator.dispatchOf config (.start i) with
      | none =>
          simp only [refunded, Finset.card_empty] at hle
          simp [isStart, isRefund]
          omega
      | some d =>
          obtain ⟨hnot, hmem⟩ := h.start_fresh hfits hd
          have hsub := h.spent_step hfits he
          simp only [refunded, Finset.union_empty] at hsub
          have hlt := Finset.card_lt_card (Finset.ssubset_iff_of_subset hsub |>.mpr ⟨_, hmem, hnot⟩)
          simp [isStart, isRefund]
          omega
  | worktreeFailed i error =>
      simp only [isStart, isRefund, Bool.false_and, Bool.false_eq_true, if_false, Nat.add_zero]
      cases hget : r.coordinator.flying[i]? with
      | none =>
          simp only [refunded, hget, Option.toFinset_none, Finset.card_empty] at hle
          omega
      | some x =>
          have hfresh : r.fresh[i]? = some true := by
            obtain ⟨d, hd, -⟩ := flying_getElem? hget
            have hi : i < r.fresh.length := by
              rw [h.aligned]
              exact (List.getElem?_eq_some_iff.mp hd).1
            have hnot : r.fresh[i]? ≠ some false := hfits
            rw [List.getElem?_eq_getElem hi] at hnot ⊢
            simpa using hnot
          have hone := card_refunded r.coordinator (.worktreeFailed i error)
          simp only [hfresh, beq_self_eq_true, if_true]
          omega
  | _ =>
      simp only [refunded, Finset.card_empty] at hle
      simp [isStart, isRefund]
      omega

theorem Inv.saved_step (h : r.Inv config) (hfits : r.FitsBudget config e)
    (he : Coordinator.restarts e = false) :
    (r.coordinator.step config e).saved = (r.coordinator.step config e).tree ∨
      (r.coordinator.step config e).saved = r.coordinator.saved ∧
        (r.coordinator.step config e).flying = r.coordinator.flying ∧
        (r.step config e).dispatched = r.dispatched := by
  have hknown : ∀ {i : Nat} {x : String}, r.coordinator.flying[i]? = some x →
      x ∈ r.coordinator.tree.ids := fun hget => h.known _ (List.mem_of_getElem? hget)
  cases hd : r.coordinator.dispatchOf config e with
  | some d =>
      left
      obtain ⟨resume, hvalid⟩ := Coordinator.dispatchOf_eq_some hd
      obtain ⟨node, hnode, -, -⟩ := validateDispatch_eq_some hvalid
      apply Coordinator.saved_of_apply he
      rw [Coordinator.treeOp_dispatch hd]
      exact IdeaTree.updateNode_saved (fun n => rfl) (IdeaTree.mem_ids_iff.mpr ⟨node, hnode⟩)
  | none =>
      have hidle : (r.coordinator.step config e).flying = r.coordinator.flying →
          r.isRefund e = false → (r.coordinator.step config e).saved = r.coordinator.saved →
          (r.coordinator.step config e).saved = r.coordinator.saved ∧
            (r.coordinator.step config e).flying = r.coordinator.flying ∧
            (r.step config e).dispatched = r.dispatched := by
        intro hflying hrefund hsaved
        refine ⟨hsaved, hflying, ?_⟩
        simp [step, hd, hrefund]
      have hsaved := Coordinator.step_saved config r.coordinator he
      cases hl : Coordinator.landingOf e with
      | none =>
          refine hsaved.imp_right (hidle ?_ ?_)
          · rw [Coordinator.flying_land he hd, hl]
            rfl
          · cases e <;> first | rfl | simp [Coordinator.landingOf] at hl
      | some i =>
          cases hget : r.coordinator.flying[i]? with
          | none =>
              have hlen := List.getElem?_eq_none_iff.mp hget
              refine hsaved.imp_right (hidle ?_ ?_)
              · rw [Coordinator.flying_land he hd, hl, Option.elim, List.eraseIdx_of_length_le hlen]
              · cases e with
                | worktreeFailed j error =>
                    obtain rfl := Option.some.inj hl
                    have : r.fresh[j]? = none := by
                      rw [List.getElem?_eq_none_iff, h.aligned]
                      simpa [Coordinator.flying] using hlen
                    simp [isRefund, this]
                | _ => rfl
          | some x =>
              obtain ⟨d, hget', hdx⟩ := flying_getElem? hget
              left
              apply Coordinator.saved_of_apply he
              cases e with
              | worktreeFailed j error =>
                  obtain rfl := Option.some.inj hl
                  rw [Coordinator.treeOp, hget']
                  exact IdeaTree.updateNode_saved (fun n => rfl) (hdx ▸ hknown hget)
              | finished j outcome =>
                  obtain rfl := Option.some.inj hl
                  obtain ⟨updates, hupdates⟩ := Option.isSome_iff_exists.mp (hfits d hget')
                  obtain ⟨status, -, hv⟩ := Coordinator.outcomeUpdates_status hupdates
                  rw [treeOp_finished hget' hupdates]
                  exact IdeaTree.updateNode_saved (fun n => (hv n).2) (hdx ▸ hknown hget)
              | crashed j =>
                  obtain rfl := Option.some.inj hl
                  have := hfits
                  simp [FitsBudget, hget'] at this
              | _ => simp [Coordinator.landingOf] at hl

theorem dispatched_step_le (config : CoordinatorConfig F) (r : BudgetedRun F)
    (e : CoordinatorEvent F) (h : isStart e = false) :
    (r.step config e).dispatched ≤ r.dispatched := by
  simp [step, h]

theorem queued_step (he : Coordinator.restarts e = false) :
    (r.coordinator.step config e).queued = r.coordinator.queueAfter config e := by
  rw [Coordinator.step_eq he]

theorem Inv.dispatched_le_completed (h : r.Inv config) (hidle : r.coordinator.inFlight = []) :
    r.dispatched ≤ completedCycles r.coordinator.tree := by
  rw [IdeaTree.completedCycles_eq h.inv.tree.storable]
  have htree := h.tree
  rwa [Coordinator.flying, hidle, List.map_nil] at htree

theorem admittedParallel_length (config : CoordinatorConfig F) (t : IdeaTree F)
    (nodeIds : List String) : (Coordinator.admittedParallel config t nodeIds).length ≤
      (config.maxCycles - completedCycles t).toNat := by
  simp only [Coordinator.admittedParallel]
  split_ifs
  · exact Nat.zero_le _
  · exact List.length_take_le _ _

theorem Inv.bounded_step (h : r.Inv config) (hfits : r.FitsBudget config e) :
    ((r.step config e).dispatched + (r.coordinator.step config e).queued.length : Int) ≤
      max config.maxCycles 0 := by
  have hbounded := h.bounded
  have hle := dispatched_step_le config r e
  by_cases he : Coordinator.restarts e = true
  · rw [Coordinator.restarts_iff.mp he, (Coordinator.restart_flight h.inv).1]
    have hle := hle (Coordinator.restarts_iff.mp he ▸ rfl)
    rw [Coordinator.restarts_iff.mp he] at hle
    simp only [List.length_nil]
    omega
  · have he : Coordinator.restarts e = false := by simpa using he
    rw [queued_step he]
    cases e with
    | runExecutor nodeId =>
        obtain ⟨hqueued, hidle⟩ := hfits
        have hle := hle rfl
        have hcompleted := h.dispatched_le_completed hidle
        rw [Coordinator.queueAfter]
        split_ifs with hcap
        · omega
        · rw [hqueued]
          simp only [List.nil_append, List.length_singleton]
          omega
    | runExecutorParallel nodeIds =>
        obtain ⟨hqueued, hidle⟩ := hfits
        have hle := hle rfl
        have hcompleted := h.dispatched_le_completed hidle
        have hlen := admittedParallel_length config r.coordinator.tree nodeIds
        rw [Coordinator.queueAfter, hqueued, List.nil_append]
        omega
    | skip i =>
        have hle := hle rfl
        have hlen := List.length_eraseIdx_le r.coordinator.queued i
        rw [Coordinator.queueAfter]
        split_ifs <;> omega
    | start i =>
        rw [Coordinator.queueAfter, step]
        dsimp only
        cases hd : r.coordinator.dispatchOf config (.start i) with
        | none =>
            have hlen := List.length_eraseIdx_le r.coordinator.queued i
            simp [isRefund]
            omega
        | some d =>
            obtain ⟨nodeId, hq, -⟩ := Option.bind_eq_some_iff.mp hd
            have hi : i < r.coordinator.queued.length := (List.getElem?_eq_some_iff.mp hq).1
            rw [List.length_eraseIdx_of_lt hi]
            simp [isStart, isRefund]
            omega
    | _ =>
        have hle := hle rfl
        simp only [Coordinator.queueAfter]
        omega

theorem Inv.known_step (h : r.Inv config) (he : Coordinator.restarts e = false) :
    ∀ x ∈ (r.coordinator.step config e).flying, x ∈ (r.coordinator.step config e).tree.ids := by
  have hids := (h.inv.apply_frame e).2
  rw [← Coordinator.step_tree he] at hids
  intro x hx
  apply hids
  cases hd : r.coordinator.dispatchOf config e with
  | none =>
      rw [Coordinator.flying_land he hd] at hx
      cases hl : Coordinator.landingOf e with
      | none => exact h.known x (by simpa [hl] using hx)
      | some i => exact h.known x (List.mem_of_mem_eraseIdx (i := i) (by simpa [hl] using hx))
  | some d =>
      rw [Coordinator.flying_dispatch hd] at hx
      rcases List.mem_append.mp hx with hx | hx
      · exact h.known x hx
      · obtain rfl := List.mem_singleton.mp hx
        obtain ⟨resume, hvalid⟩ := Coordinator.dispatchOf_eq_some hd
        obtain ⟨node, hnode, -, -⟩ := validateDispatch_eq_some hvalid
        exact IdeaTree.mem_ids_iff.mpr ⟨node, hnode⟩

theorem Inv.step (h : r.Inv config) (hfits : r.FitsBudget config e) :
    (r.step config e).Inv config := by
  by_cases he : Coordinator.restarts e = true
  · obtain rfl := Coordinator.restarts_iff.mp he
    have hbounded := h.bounded_step hfits
    have hidle : r.coordinator.inFlight = [] := hfits
    obtain ⟨hqueued, hflight⟩ := Coordinator.restart_flight h.inv
    have hflying : (r.coordinator.step config .restart).flying = [] := by
      rw [Coordinator.flying, hflight]
      rfl
    have hsaved := h.saved
    rw [Coordinator.flying, hidle, List.map_nil] at hsaved
    have hrestart := Coordinator.restart_invariant (P := fun t => r.dispatched ≤ (t.spent []).card) h.inv
      ?_ ?_ hsaved
    · refine ⟨h.inv.step .restart, ?_, ?_, ?_, ?_, hbounded⟩
      · simp [step, Coordinator.restarts, hflight]
      · simp [step, hflying]
      · simpa [step, hflying, isStart, isRefund] using hrestart.1
      · simpa [step, hflying, isStart, isRefund] using hrestart.2
    · intro t maxDepth ht
      refine ht.trans (Finset.card_le_card (IdeaTree.spent_subset ?_ rfl ?_ (by simp)))
      · exact (IdeaTree.refills_normalize config.runtime t).ids.symm ▸ List.Subset.refl _
      · intro x _ hc
        left
        have hsame : ({ t.normalize config.runtime with maxDepth } : IdeaTree F).counted x =
            t.counted x :=
          IdeaTree.counted_congr (by rfl) fun st _ => IdeaTree.hasStatus_normalize config.runtime t x st
        exact hsame.trans hc
    · intro t id ht hid
      have hr : IdeaTree.Refills t (t.updateNode id [("status", .str "pending")]).1 :=
        IdeaTree.refills_updateNode t id (by simp [Json.wf])
      refine ht.trans (Finset.card_le_card (IdeaTree.spent_subset ?_ hr.rootId ?_ (by simp)))
      · exact hr.ids.symm ▸ List.Subset.refl _
      · intro x _ hc
        left
        rwa [IdeaTree.counted_congr hr.rootId fun st hst => hid.hasStatus_write x ?_ ?_]
        all_goals
          rintro rfl
          simp [cycleStatuses] at hst
  · have he : Coordinator.restarts e = false := by simpa using he
    have hcard := h.card_step hfits he
    refine ⟨h.inv.step e, ?_, ?_, hcard, ?_, h.bounded_step hfits⟩
    · have haligned := h.aligned
      rw [BudgetedRun.step, Coordinator.step_eq he]
      simp only [he, Bool.false_eq_true, if_false, List.length_append]
      congr 1
      · cases Coordinator.landingOf e with
        | none => exact haligned
        | some i => simp [List.length_eraseIdx, haligned]
      · cases r.coordinator.dispatchOf config e <;> rfl
    · exact h.known_step he
    · rcases h.saved_step hfits he with hs | ⟨hs, hflying, hsame⟩
      · rw [BudgetedRun.step, hs]
        exact hcard
      · rw [hsame, BudgetedRun.step, hs, hflying]
        exact h.saved

theorem inv_start (config : CoordinatorConfig F) : (start config).Inv config := by
  refine ⟨Coordinator.inv_fresh config, rfl, by simp [start, Coordinator.fresh, Coordinator.flying],
    Nat.zero_le _, Nat.zero_le _, ?_⟩
  simp [start, Coordinator.fresh]

end BudgetedRun

/-- Along a run whose steps all fit the budget, no more fresh dispatches are
started than there are cycles. -/
theorem dispatched_le_maxCycles (config : CoordinatorConfig F) (events : List (CoordinatorEvent F))
    (h : Along (BudgetedRun.step config) (BudgetedRun.FitsBudget config) (.start config) events) :
    ((run (BudgetedRun.step config) (.start config) events).dispatched : Int) ≤
      max config.maxCycles 0 := by
  have hinv : (run (BudgetedRun.step config) (.start config) events).Inv config :=
    run_invariant_along (fun r e hr hf => hr.step hf) (BudgetedRun.inv_start config) h
  have hbounded := hinv.bounded
  omega

def timedOut : Outcome FloatText := ⟨⟨.obj [], rfl⟩, "[Timed out after 60s]", none, "branch"⟩

theorem dispatched_exceeds_maxCycles :
    ¬ ∀ (config : CoordinatorConfig FloatText) (events : List (CoordinatorEvent FloatText)),
      ((run (BudgetedRun.step config) (.start config) events).dispatched : Int) ≤
        max config.maxCycles 0 := by
  intro h
  have hbad := h { threeCycles with maxCycles := 2 }
    [.addNode "ROOT" ⟨.str "idea", rfl⟩ none,
      .runExecutor "1", .start 0, .finished 0 timedOut,
      .runExecutor "1", .start 0, .finished 0 timedOut,
      .runExecutor "1", .start 0]
  revert hbad
  decide

theorem dispatched_le_maxCycles_single :
    ((run (BudgetedRun.step threeCycles) (.start threeCycles)
      [.addNode "ROOT" ⟨.str "idea", rfl⟩ none, .runExecutor "1", .start 0]).dispatched : Int) ≤ 3 := by
  refine dispatched_le_maxCycles threeCycles _ ⟨trivial, ⟨rfl, rfl⟩, fun d hd => ?_, trivial⟩
  obtain rfl : ⟨"1", .int 1⟩ = d := Option.some.inj hd
  decide

end DevPilot
