import Mathlib.Tactic

/-!
Runs of a system that takes one step for each event, and what holds along them.
-/

namespace Runs

variable {σ ε : Type}

def run (step : σ → ε → σ) (s : σ) (events : List ε) : σ := events.foldl step s

/-- `p` holds of every event of a run and of the state the event meets. -/
def Along (step : σ → ε → σ) (p : σ → ε → Prop) : σ → List ε → Prop
  | _, [] => True
  | s, e :: events => p s e ∧ Along step p (step s e) events

instance (step : σ → ε → σ) (p : σ → ε → Prop) [∀ s e, Decidable (p s e)] :
    ∀ s events, Decidable (Along step p s events)
  | _, [] => inferInstanceAs (Decidable True)
  | s, e :: events =>
      have := instDecidableAlong step p (step s e) events
      inferInstanceAs (Decidable (_ ∧ _))

variable {step : σ → ε → σ} {p q : σ → ε → Prop} {I : σ → Prop} {s : σ}

theorem run_cons (e : ε) (events : List ε) : run step s (e :: events) = run step (step s e) events :=
  rfl

theorem run_invariant_along (hstep : ∀ s e, I s → p s e → I (step s e)) {events : List ε}
    (hs : I s) (h : Along step p s events) : I (run step s events) := by
  induction events generalizing s with
  | nil => exact hs
  | cons e events ih => exact ih (hstep s e hs h.1) h.2

theorem run_invariant_along_of_mem {q : ε → Prop} (hstep : ∀ s e, I s → q e → p s e → I (step s e))
    {events : List ε} (hq : ∀ e ∈ events, q e) (hs : I s) (h : Along step p s events) :
    I (run step s events) := by
  induction events generalizing s with
  | nil => exact hs
  | cons e events ih =>
      obtain ⟨hqe, hq⟩ := List.forall_mem_cons.mp hq
      exact ih hq (hstep s e hs hqe h.1) h.2

theorem run_invariant (hstep : ∀ s e, I s → I (step s e)) (hs : I s) (events : List ε) :
    I (run step s events) := by
  induction events generalizing s with
  | nil => exact hs
  | cons e events ih => exact ih (hstep s e hs)

theorem along_of_along (hp : ∀ s e, I s → q s e → p s e) (hstep : ∀ s e, I s → q s e → I (step s e))
    (hs : I s) {events : List ε} (h : Along step q s events) : Along step p s events := by
  induction events generalizing s with
  | nil => trivial
  | cons e events ih => exact ⟨hp s e hs h.1, ih (hstep s e hs h.1) h.2⟩

theorem along_iff_along {r : σ → ε → Prop} (hiff : ∀ s e, I s → (p s e ↔ q s e))
    (hstep : ∀ s e, I s → r s e → q s e → I (step s e)) (hs : I s) {events : List ε}
    (hr : Along step r s events) : Along step p s events ↔ Along step q s events := by
  induction events generalizing s with
  | nil => exact Iff.rfl
  | cons e events ih =>
      obtain ⟨hre, hr⟩ := hr
      constructor
      · intro h
        have hq := (hiff s e hs).mp h.1
        exact ⟨hq, (ih (hstep s e hs hre hq) hr).mp h.2⟩
      · intro h
        exact ⟨(hiff s e hs).mpr h.1, (ih (hstep s e hs hre h.1) hr).mpr h.2⟩

theorem along_trivial (step : σ → ε → σ) (s : σ) (events : List ε) :
    Along step (fun _ _ => True) s events := by
  induction events generalizing s with
  | nil => trivial
  | cons e events ih => exact ⟨trivial, ih _⟩

theorem run_append (events events' : List ε) :
    run step s (events ++ events') = run step (run step s events) events' := List.foldl_append ..

theorem along_append_iff {events events' : List ε} :
    Along step p s (events ++ events') ↔
      Along step p s events ∧ Along step p (run step s events) events' := by
  induction events generalizing s with
  | nil => simp [Along, run]
  | cons e events ih => rw [List.cons_append, Along, Along, ih, and_assoc, run_cons]

theorem along_append_singleton {events : List ε} {e : ε} (h : Along step p s (events ++ [e])) :
    p (run step s events) e := by
  induction events generalizing s with
  | nil => exact h.1
  | cons e events ih => exact ih h.2

theorem along_iff_forall_mem {q : ε → Prop} {events : List ε} :
    Along step (fun _ => q) s events ↔ ∀ e ∈ events, q e := by
  induction events generalizing s with
  | nil => exact ⟨fun _ _ h => absurd h List.not_mem_nil, fun _ => trivial⟩
  | cons e events ih => rw [Along, ih, List.forall_mem_cons]

theorem along_iff (hiff : ∀ s e, I s → (p s e ↔ q s e))
    (hstep : ∀ s e, I s → q s e → I (step s e)) (hs : I s) (events : List ε) :
    Along step p s events ↔ Along step q s events :=
  along_iff_along hiff (fun s e h _ => hstep s e h) hs (along_trivial step s events)

end Runs
