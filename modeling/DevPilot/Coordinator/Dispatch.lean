import DevPilot.Coordinator.Effects

/-!
No idea has two executors in flight: which dispatches put a second one there.
-/

namespace DevPilot

open PyJson Runs

variable {F : Type}

namespace Coordinator

def flying (s : Coordinator F) : List String := s.inFlight.map (·.nodeId)

/-- After the step each idea has at most one executor in flight. -/
def FliesOnceAt (config : CoordinatorConfig F) (s : Coordinator F) (e : CoordinatorEvent F) : Prop :=
  (s.step config e).flying.Nodup

/-- A node is dispatched that waits for it, or one left running by a dispatch
that has ended. -/
def WaitsAt (config : CoordinatorConfig F) (s : Coordinator F) (e : CoordinatorEvent F) : Prop :=
  ∀ d, s.dispatchOf config e = some d → s.tree.hasStatus d.nodeId "running" = true →
    d.nodeId ∉ s.flying

def LeavesFlying (s : Coordinator F) : CoordinatorEvent F → Prop
  | .updateNode id updates => id ∈ s.flying → ∀ u ∈ updates, u.1 ≠ "status"
  | _ => True

structure FlightInv (config : CoordinatorConfig F) (s : Coordinator F) : Prop where
  inv : s.Inv config
  once : s.flying.Nodup
  status : ∀ id ∈ s.flying, s.tree.hasStatus id "running" = true ∨ s.tree.hasStatus id "pruned" = true

variable {config : CoordinatorConfig F} {s : Coordinator F} {e : CoordinatorEvent F}

theorem landingOf_of_dispatchOf {d : Dispatch F} (hd : s.dispatchOf config e = some d) :
    landingOf e = none := by
  cases e <;> first | rfl | simp [dispatchOf] at hd

theorem flying_dispatch {d : Dispatch F} (hd : s.dispatchOf config e = some d) :
    (s.step config e).flying = s.flying ++ [d.nodeId] := by
  have he : restarts e = false := by
    cases e <;> first | rfl | simp [dispatchOf] at hd
  rw [flying, step_eq he, landingOf_of_dispatchOf hd, hd]
  exact List.map_append

theorem flying_land (he : restarts e = false) (hd : s.dispatchOf config e = none) :
    (s.step config e).flying = (landingOf e).elim s.flying s.flying.eraseIdx := by
  rw [flying, step_eq he, hd, Option.toList_none]
  cases landingOf e with
  | none => simp [flying]
  | some i => simp [flying, List.eraseIdx_map]

theorem FlightInv.dispatched (h : s.FlightInv config) {d : Dispatch F}
    (hd : s.dispatchOf config e = some d) (hfly : d.nodeId ∈ s.flying) :
    s.tree.hasStatus d.nodeId "running" = true := by
  obtain ⟨resume, hvalid⟩ := dispatchOf_eq_some hd
  obtain ⟨node, hnode, hstatus, -⟩ := validateDispatch_eq_some hvalid
  obtain ⟨st, hst, hnode'⟩ := List.any_eq_true.mp hstatus
  refine (h.status d.nodeId hfly).resolve_right fun hpruned => ?_
  rw [IdeaTree.hasStatus, hnode] at hpruned
  obtain rfl := Node.hasStatus_inj hnode' hpruned
  simp at hst

theorem FlightInv.fliesOnceAt_iff (h : s.FlightInv config) (e : CoordinatorEvent F) :
    s.FliesOnceAt config e ↔ s.WaitsAt config e := by
  rw [FliesOnceAt, WaitsAt]
  cases hd : s.dispatchOf config e with
  | none =>
      refine iff_of_true ?_ (by simp)
      by_cases he : restarts e = true
      · rw [restarts_iff.mp he, flying, (restart_flight h.inv).2]
        exact List.nodup_nil
      · rw [flying_land (by simpa using he) hd]
        cases landingOf e with
        | none => exact h.once
        | some i => exact h.once.sublist (List.eraseIdx_sublist ..)
  | some d =>
      rw [flying_dispatch hd, ← List.concat_eq_append, List.nodup_concat]
      constructor
      · rintro ⟨hnot, -⟩ d' hd' -
        exact Option.some.inj hd' ▸ hnot
      · intro hwaits
        refine ⟨fun hfly => ?_, h.once⟩
        exact hwaits d rfl (h.dispatched hd hfly) hfly

theorem treeOp_dispatch {d : Dispatch F} (hd : s.dispatchOf config e = some d) :
    s.treeOp config e = .write d.nodeId [("status", .str "running")] := by
  cases e with
  | start i => simp [treeOp, hd]
  | resumeExecutor nodeId => simp [treeOp, hd]
  | _ => simp [dispatchOf] at hd

theorem FlightInv.status_step (h : s.FlightInv config) (hleaves : s.LeavesFlying e)
    (he : restarts e = false) {id : String} (hid : id ∈ s.flying)
    (hland : ∀ i d, landingOf e = some i → s.inFlight[i]? = some d → id ≠ d.nodeId) :
    (s.step config e).tree.hasStatus id "running" = true ∨
      (s.step config e).tree.hasStatus id "pruned" = true := by
  have hstatus := h.status id hid
  have hmem : id ∈ s.tree.ids :=
    hstatus.elim IdeaTree.mem_ids_of_hasStatus IdeaTree.mem_ids_of_hasStatus
  have hlegal := h.inv.legal e
  rw [step_tree he]
  cases hop : s.treeOp config e with
  | keep => exact hstatus
  | add node =>
      rw [hop] at hlegal
      obtain ⟨parentId, parent, hnode⟩ := hlegal
      have hne : id ≠ node.id := fun hid => hnode.fresh (hid ▸ hmem)
      simpa [TreeOp.apply, hnode.hasStatus, hne] using hstatus
  | write nodeId updates =>
      rw [TreeOp.apply]
      by_cases hx : id = nodeId
      · subst hx
        cases writes_of_treeOp hop with
        | tool us heq hu =>
            rw [heq, LeavesFlying] at hleaves
            have hkeep : ∀ u ∈ updates, u.1 ≠ "status" := by
              intro u hmem
              obtain ⟨v, hv, huv⟩ := hu u hmem
              exact huv ▸ hleaves hid v hv
            simpa [IdeaTree.hasStatus_note hkeep] using hstatus
        | note hkeep => simpa [IdeaTree.hasStatus_note hkeep] using hstatus
        | start d hd hdid hu =>
            subst hu
            left
            rw [IdeaTree.hasStatus_write (v := "running") fun n => rfl]
            simp [hmem]
        | failed i error heq d hd hdid hv =>
            exact absurd hdid.symm (hland i d (heq ▸ rfl) hd)
        | finished i outcome heq d hd hdid status hst hv =>
            exact absurd hdid.symm (hland i d (heq ▸ rfl) hd)
      · simpa only [IdeaTree.hasStatus, IdeaTree.getNode_updateNode, if_neg hx] using hstatus
  | prune nodeId reason =>
      rcases IdeaTree.hasStatus_pruneNode config.runtime s.tree nodeId reason id with hp | hsame
      · exact .inr hp
      · simpa only [TreeOp.apply, hsame] using hstatus
  | setMeta metadata saved => exact hstatus

theorem FlightInv.step (h : s.FlightInv config) (hleaves : s.LeavesFlying e)
    (hwaits : s.WaitsAt config e) : (s.step config e).FlightInv config := by
  refine ⟨h.inv.step e, (h.fliesOnceAt_iff e).mpr hwaits, fun id hid => ?_⟩
  by_cases he : restarts e = true
  · rw [restarts_iff.mp he, flying, (restart_flight h.inv).2] at hid
    simp at hid
  · have he : restarts e = false := by simpa using he
    cases hd : s.dispatchOf config e with
    | none =>
        rw [flying_land he hd] at hid
        cases hl : landingOf e with
        | none =>
            rw [hl] at hid
            exact h.status_step hleaves he hid (by simp [hl])
        | some i =>
            rw [hl, Option.elim] at hid
            apply h.status_step hleaves he (List.mem_of_mem_eraseIdx hid)
            intro i' d hi' hd' heq
            obtain rfl := Option.some.inj (hl.symm.trans hi')
            obtain ⟨j, hj, hne, hjd⟩ := List.mem_eraseIdx_iff_getElem.mp hid
            obtain ⟨hi, rfl⟩ := List.getElem?_eq_some_iff.mp hd'
            apply hne
            have hi' : i < s.flying.length := by simpa [flying] using hi
            have hij : s.flying[j] = s.flying[i] := by
              rw [hjd, heq]
              simp [flying]
            exact h.once.getElem_inj_iff.mp hij
    | some d =>
        rw [flying_dispatch hd] at hid
        rcases List.mem_append.mp hid with hid | hid
        · exact h.status_step hleaves he hid (by simp [landingOf_of_dispatchOf hd])
        · obtain rfl := List.mem_singleton.mp hid
          obtain ⟨resume, hvalid⟩ := dispatchOf_eq_some hd
          obtain ⟨node, hnode, -, -⟩ := validateDispatch_eq_some hvalid
          left
          rw [step_tree he, treeOp_dispatch hd, TreeOp.apply,
            IdeaTree.hasStatus_write (v := "running") fun n => rfl]
          simp [IdeaTree.mem_ids_iff.mpr ⟨node, hnode⟩]

theorem flightInv_fresh (config : CoordinatorConfig F) : (fresh config).FlightInv config :=
  ⟨inv_fresh config, List.nodup_nil, by simp [fresh, flying]⟩

end Coordinator

end DevPilot
