import DevPilot.Lib.Runs

/-!
Calls for a key that share one run of an asynchronous function, between the start of the
run and its settlement.
-/

namespace DevPilot.Dedupe

open Runs

inductive Outcome (ρ : Type)
  | resolved (value : ρ)
  | rejected (message : String)
deriving DecidableEq

inductive RunStatus (ρ : Type)
  | starting
  | pending
  | settled (outcome : Outcome ρ)
deriving DecidableEq

/-- One call of `run`. -/
structure Attempt (κ ρ : Type) where
  key : κ
  status : RunStatus ρ
deriving DecidableEq

inductive CallStatus (ρ : Type)
  | waiting
  | done (outcome : Outcome ρ)
deriving DecidableEq

/-- A call of `runDedupe`, with the run it awaits. -/
structure Call (κ ρ : Type) where
  key : κ
  attempt : Nat
  /-- How often the key had been deleted or cleared before the call. -/
  generation : Nat
  status : CallStatus ρ
deriving DecidableEq

structure State (κ ρ : Type) where
  inflight : κ → Option Nat
  attempts : List (Attempt κ ρ)
  calls : List (Call κ ρ)
  /-- The runs whose function is being called, the innermost first. -/
  stack : List Nat
  generation : κ → Nat

inductive Event (κ ρ : Type)
  | runDedupe (key : κ)
  /-- The innermost `run()` returns its promise. -/
  | returned
  /-- The innermost `run()` throws. -/
  | threw (message : String)
  /-- The promise of a run settles, and its `finally` is executed. -/
  | settle (attempt : Nat) (outcome : Outcome ρ)
  | resume (call : Nat)
  | delete (key : κ)
  | clear

namespace State

variable {κ ρ : Type}

def init : State κ ρ := ⟨fun _ => none, [], [], [], fun _ => 0⟩

variable [DecidableEq κ] (s : State κ ρ)

def setStatus (attempt : Nat) (status : RunStatus ρ) : State κ ρ :=
  { s with attempts := s.attempts.modify attempt fun a => { a with status } }

def runDedupe (key : κ) : State κ ρ :=
  match s.inflight key with
  | some existing => { s with calls := s.calls ++ [⟨key, existing, s.generation key, .waiting⟩] }
  | none =>
      { s with
        attempts := s.attempts ++ [⟨key, .starting⟩]
        calls := s.calls ++ [⟨key, s.attempts.length, s.generation key, .waiting⟩]
        stack := s.attempts.length :: s.stack }

/-- The promise of the run is put into the map once the run has been started, also where
it has failed by then and its `finally` is over. -/
def started (status : RunStatus ρ) : State κ ρ :=
  match s.stack with
  | [] => s
  | attempt :: stack =>
      match s.attempts[attempt]? with
      | none => s
      | some a =>
          { s.setStatus attempt status with
            inflight := Function.update s.inflight a.key (some attempt)
            stack }

/-- `this.#inflight.delete(key)`, whatever run the map holds for the key. -/
def settle (attempt : Nat) (outcome : Outcome ρ) : State κ ρ :=
  match s.attempts[attempt]? with
  | some ⟨key, .pending⟩ =>
      if s.stack = [] then
        { s.setStatus attempt (.settled outcome) with inflight := Function.update s.inflight key none }
      else s
  | _ => s

def resume (call : Nat) : State κ ρ :=
  match s.calls[call]? with
  | some ⟨_, attempt, _, .waiting⟩ =>
      match s.attempts[attempt]? with
      | some ⟨_, .settled outcome⟩ =>
          if s.stack = [] then
            { s with calls := s.calls.modify call fun c => { c with status := .done outcome } }
          else s
      | _ => s
  | _ => s

def delete (key : κ) : State κ ρ :=
  { s with
    inflight := Function.update s.inflight key none
    generation := Function.update s.generation key (s.generation key + 1) }

def clear : State κ ρ :=
  { s with inflight := fun _ => none, generation := fun key => s.generation key + 1 }

def step : Event κ ρ → State κ ρ
  | .runDedupe key => s.runDedupe key
  | .returned => s.started .pending
  | .threw message => s.started (.settled (.rejected message))
  | .settle attempt outcome => s.settle attempt outcome
  | .resume call => s.resume call
  | .delete key => s.delete key
  | .clear => s.clear

def InFlight (attempt : Nat) : Prop :=
  ∃ a ∈ s.attempts[attempt]?, a.status = .starting ∨ a.status = .pending

/-- The call has been made since the last deletion of its key. -/
def Current (call : Call κ ρ) : Prop := call.generation = s.generation call.key

structure Coalesces : Prop where
  /-- The calls since the last deletion of their key have one run in flight. -/
  one : ∀ call ∈ s.calls, ∀ other ∈ s.calls, call.key = other.key → s.Current call → s.Current other →
    s.InFlight call.attempt → s.InFlight other.attempt → call.attempt = other.attempt
  /-- A call awaits a run of its key and ends with the outcome of the run. -/
  outcome : ∀ call ∈ s.calls, ∃ a ∈ s.attempts[call.attempt]?, a.key = call.key ∧
    ∀ outcome, call.status = .done outcome → a.status = .settled outcome
  /-- A call that is still waiting once its run has settled goes on with the outcome. -/
  resumes : ∀ i call, s.calls[i]? = some call → call.status = .waiting → s.stack = [] →
    ∀ a ∈ s.attempts[call.attempt]?, ∀ outcome, a.status = .settled outcome →
      (s.resume i).calls[i]? = some { call with status := .done outcome }
  next : ∀ key, ∀ call ∈ (s.runDedupe key).calls[s.calls.length]?, (s.runDedupe key).InFlight call.attempt

/-- What an event must not do: no run throws before it returns its promise, or asks for its own key in
the meantime; and no run settles after its key was deleted while another run of the key
is in the map. -/
def Orderly : Event κ ρ → Prop
  | .runDedupe key => ∀ attempt ∈ s.stack, ∀ a ∈ s.attempts[attempt]?, a.key ≠ key
  | .threw _ => s.stack = []
  | .settle attempt _ => ∀ a ∈ s.attempts[attempt]?, ∀ other ∈ s.inflight a.key, other = attempt
  | _ => True

/-- What the map, the stack and the calls say of the runs while all events are orderly. -/
structure Inv : Prop where
  starting : ∀ i ∈ s.stack, ∃ a, s.attempts[i]? = some a ∧ a.status = .starting
  stacked : ∀ i a, s.attempts[i]? = some a → a.status = .starting → i ∈ s.stack
  nodup : s.stack.Nodup
  apart : ∀ i ∈ s.stack, ∀ j ∈ s.stack, ∀ a b, s.attempts[i]? = some a → s.attempts[j]? = some b →
    a.key = b.key → i = j
  mapped : ∀ key i, s.inflight key = some i → s.attempts[i]? = some ⟨key, .pending⟩
  /-- Nothing is in the map for a key whose run is being started. -/
  unmapped : ∀ i ∈ s.stack, ∀ a, s.attempts[i]? = some a → s.inflight a.key = none
  /-- The run that a current call awaits is the one in the map. -/
  pending : ∀ call ∈ s.calls, s.Current call → ∀ a, s.attempts[call.attempt]? = some a →
    a.status = .pending → s.inflight call.key = some call.attempt
  known : ∀ call ∈ s.calls, ∃ a, s.attempts[call.attempt]? = some a ∧ a.key = call.key ∧
    ∀ outcome, call.status = .done outcome → a.status = .settled outcome
  earlier : ∀ call ∈ s.calls, call.generation ≤ s.generation call.key

variable {s}

theorem inv_init : Inv (init : State κ ρ) where
  starting _ h := absurd h List.not_mem_nil
  stacked _ _ h := by simp [init] at h
  nodup := List.nodup_nil
  apart _ h := absurd h List.not_mem_nil
  mapped _ _ h := by simp [init] at h
  unmapped _ h := absurd h List.not_mem_nil
  pending _ h := absurd h List.not_mem_nil
  known _ h := absurd h List.not_mem_nil
  earlier _ h := absurd h List.not_mem_nil

omit [DecidableEq κ] in
theorem attempts_setStatus (n : Nat) (status : RunStatus ρ) (i : Nat) :
    (s.setStatus n status).attempts[i]? =
      if n = i then s.attempts[i]?.map (fun a => { a with status }) else s.attempts[i]? := by
  rw [setStatus, List.getElem?_modify]
  split_ifs <;> simp

omit [DecidableEq κ] in
theorem attempts_setStatus_ne {n i : Nat} (h : n ≠ i) (status : RunStatus ρ) :
    (s.setStatus n status).attempts[i]? = s.attempts[i]? := by
  rw [attempts_setStatus, if_neg h]

omit [DecidableEq κ] in
theorem attempts_setStatus_self {n : Nat} {a : Attempt κ ρ} (h : s.attempts[n]? = some a)
    (status : RunStatus ρ) : (s.setStatus n status).attempts[n]? = some { a with status } := by
  rw [attempts_setStatus, if_pos rfl, h, Option.map_some]

theorem Inv.join (h : Inv s) {key : κ} {existing : Nat} (hexisting : s.inflight key = some existing) :
    Inv { s with calls := s.calls ++ [⟨key, existing, s.generation key, .waiting⟩] } := by
  refine ⟨h.starting, h.stacked, h.nodup, h.apart, h.mapped, h.unmapped, ?_, ?_, ?_⟩
  · intro call hcall hcurrent a ha hpending
    rcases List.mem_append.mp hcall with hcall | hcall
    · exact h.pending call hcall hcurrent a ha hpending
    · obtain rfl := List.mem_singleton.mp hcall
      exact hexisting
  · intro call hcall
    rcases List.mem_append.mp hcall with hcall | hcall
    · exact h.known call hcall
    · obtain rfl := List.mem_singleton.mp hcall
      exact ⟨_, h.mapped key existing hexisting, rfl, nofun⟩
  · intro call hcall
    rcases List.mem_append.mp hcall with hcall | hcall
    · exact h.earlier call hcall
    · obtain rfl := List.mem_singleton.mp hcall
      exact le_rfl

theorem Inv.begin (h : Inv s) {key : κ} (hnone : s.inflight key = none)
    (hstack : ∀ i ∈ s.stack, ∀ a ∈ s.attempts[i]?, a.key ≠ key) :
    Inv { s with
      attempts := s.attempts ++ [⟨key, .starting⟩]
      calls := s.calls ++ [⟨key, s.attempts.length, s.generation key, .waiting⟩]
      stack := s.attempts.length :: s.stack } := by
  have hlt : ∀ {i a}, s.attempts[i]? = some a → i < s.attempts.length := fun ha =>
    (List.getElem?_eq_some_iff.mp ha).1
  have hold : ∀ {i a}, s.attempts[i]? = some a → (s.attempts ++ [⟨key, .starting⟩])[i]? = some a :=
    fun ha => by rw [List.getElem?_append_left (hlt ha), ha]
  have hnew : (s.attempts ++ [(⟨key, .starting⟩ : Attempt κ ρ)])[s.attempts.length]? =
      some ⟨key, .starting⟩ := by simp
  -- a run that is there afterwards was there or is the new one
  have hcases : ∀ {i a}, (s.attempts ++ [⟨key, .starting⟩])[i]? = some a →
      s.attempts[i]? = some a ∨ i = s.attempts.length ∧ a = ⟨key, .starting⟩ := by
    intro i a ha
    rw [List.getElem?_append] at ha
    split_ifs at ha with hi
    · exact .inl ha
    · rw [List.getElem?_singleton] at ha
      split_ifs at ha with hzero
      exact .inr ⟨by omega, (Option.some.inj ha).symm⟩
  have hstarting : ∀ i ∈ s.stack, i < s.attempts.length := fun i hi => by
    obtain ⟨a, ha, -⟩ := h.starting i hi
    exact hlt ha
  refine ⟨?_, ?_, ?_, ?_, fun k i hk => hold (h.mapped k i hk), ?_, ?_, ?_, ?_⟩
  · intro i hi
    rcases List.mem_cons.mp hi with rfl | hi
    · exact ⟨_, hnew, rfl⟩
    · obtain ⟨a, ha, hstatus⟩ := h.starting i hi
      exact ⟨a, hold ha, hstatus⟩
  · intro i a ha hstatus
    rcases hcases ha with ha | ⟨rfl, -⟩
    · exact List.mem_cons_of_mem _ (h.stacked i a ha hstatus)
    · exact List.mem_cons_self
  · exact List.nodup_cons.mpr ⟨fun hmem => lt_irrefl _ (hstarting _ hmem), h.nodup⟩
  · intro i hi j hj a b ha hb hkey
    rcases hcases ha with ha | ⟨rfl, rfl⟩ <;> rcases hcases hb with hb | ⟨rfl, rfl⟩
    · refine h.apart i ?_ j ?_ a b ha hb hkey
      · exact (List.mem_cons.mp hi).resolve_left (hlt ha).ne
      · exact (List.mem_cons.mp hj).resolve_left (hlt hb).ne
    · exact absurd hkey (hstack i ((List.mem_cons.mp hi).resolve_left (hlt ha).ne) a ha)
    · exact absurd hkey.symm (hstack j ((List.mem_cons.mp hj).resolve_left (hlt hb).ne) b hb)
    · rfl
  · intro i hi a ha
    rcases hcases ha with ha | ⟨-, rfl⟩
    · exact h.unmapped i ((List.mem_cons.mp hi).resolve_left (hlt ha).ne) a ha
    · exact hnone
  · intro call hcall hcurrent a ha hpending
    rcases hcases ha with ha | ⟨-, rfl⟩
    · rcases List.mem_append.mp hcall with hcall | hcall
      · exact h.pending call hcall hcurrent a ha hpending
      · obtain rfl := List.mem_singleton.mp hcall
        exact absurd (hlt ha) (lt_irrefl _)
    · cases hpending
  · intro call hcall
    rcases List.mem_append.mp hcall with hcall | hcall
    · obtain ⟨a, ha, hknown⟩ := h.known call hcall
      exact ⟨a, hold ha, hknown⟩
    · obtain rfl := List.mem_singleton.mp hcall
      exact ⟨_, hnew, rfl, nofun⟩
  · intro call hcall
    rcases List.mem_append.mp hcall with hcall | hcall
    · exact h.earlier call hcall
    · obtain rfl := List.mem_singleton.mp hcall
      exact le_rfl

theorem Inv.runDedupe (h : Inv s) {key : κ} (horderly : s.Orderly (.runDedupe key)) :
    Inv (s.runDedupe key) := by
  unfold State.runDedupe
  cases hkey : s.inflight key with
  | some existing => exact h.join hkey
  | none => exact h.begin hkey horderly

theorem Inv.returned (h : Inv s) : Inv (s.started .pending) := by
  unfold started
  cases hs : s.stack with
  | nil => exact h
  | cons n stack =>
      have hn : n ∈ s.stack := hs ▸ List.mem_cons_self
      obtain ⟨⟨key, status⟩, ha, rfl⟩ := h.starting n hn
      have hnodup := hs ▸ h.nodup
      obtain ⟨hnot, hrest⟩ := List.nodup_cons.mp hnodup
      have hsub : ∀ i ∈ stack, i ∈ s.stack := fun i hi => hs ▸ List.mem_cons_of_mem n hi
      have hne : ∀ i ∈ stack, n ≠ i := fun i hi heq => hnot (heq ▸ hi)
      have hself := attempts_setStatus_self ha .pending
      have hnone : s.inflight key = none := h.unmapped n hn _ ha
      simp only [ha]
      refine ⟨?_, ?_, hrest, ?_, ?_, ?_, ?_, ?_, h.earlier⟩
      · intro i hi
        obtain ⟨a, hi', hstatus⟩ := h.starting i (hsub i hi)
        exact ⟨a, by rw [attempts_setStatus_ne (hne i hi), hi'], hstatus⟩
      · intro i a hi hstatus
        by_cases heq : n = i
        · subst heq
          rw [hself] at hi
          obtain rfl := Option.some.inj hi
          cases hstatus
        · rw [attempts_setStatus_ne heq] at hi
          have hmem := h.stacked i a hi hstatus
          rw [hs] at hmem
          exact (List.mem_cons.mp hmem).resolve_left (Ne.symm heq)
      · intro i hi j hj a b hi' hj' hkey
        rw [attempts_setStatus_ne (hne i hi)] at hi'
        rw [attempts_setStatus_ne (hne j hj)] at hj'
        exact h.apart i (hsub i hi) j (hsub j hj) a b hi' hj' hkey
      · intro k i hk
        dsimp only at hk ⊢
        by_cases hkey : k = key
        · subst hkey
          rw [Function.update_self] at hk
          obtain rfl := Option.some.inj hk
          exact hself
        · rw [Function.update_of_ne hkey] at hk
          have hi := h.mapped k i hk
          have heq : n ≠ i := by
            rintro rfl
            rw [ha] at hi
            cases hi
          rw [attempts_setStatus_ne heq, hi]
      · intro i hi a hi'
        rw [attempts_setStatus_ne (hne i hi)] at hi'
        have hkey : a.key ≠ key := fun hkey =>
          hne i hi (h.apart n hn i (hsub i hi) _ a ha hi' hkey.symm)
        dsimp only
        rw [Function.update_of_ne hkey]
        exact h.unmapped i (hsub i hi) a hi'
      · intro call hcall hcurrent a hattempt hpending
        obtain ⟨b, hb, hbkey, -⟩ := h.known call hcall
        by_cases heq : n = call.attempt
        · rw [← heq, ha] at hb
          obtain rfl := Option.some.inj hb
          dsimp only at hbkey ⊢
          rw [← hbkey, Function.update_self, heq]
        · rw [attempts_setStatus_ne heq] at hattempt
          have hmapped := h.pending call hcall hcurrent a hattempt hpending
          have hkey : call.key ≠ key := by
            intro hkey
            rw [hkey, hnone] at hmapped
            cases hmapped
          dsimp only
          rw [Function.update_of_ne hkey, hmapped]
      · intro call hcall
        obtain ⟨b, hb, hbkey, hdone⟩ := h.known call hcall
        by_cases heq : n = call.attempt
        · rw [← heq] at hb ⊢
          rw [ha] at hb
          obtain rfl := Option.some.inj hb
          exact ⟨_, hself, hbkey, fun outcome hcallDone => absurd (hdone outcome hcallDone) nofun⟩
        · exact ⟨b, by rw [attempts_setStatus_ne heq, hb], hbkey, hdone⟩

theorem Inv.settle (h : Inv s) {n : Nat} {outcome : Outcome ρ}
    (horderly : s.Orderly (.settle n outcome)) : Inv (s.settle n outcome) := by
  unfold State.settle
  split
  · next key ha =>
    split_ifs with hstack
    · have hself := attempts_setStatus_self ha (.settled outcome)
      have hother : ∀ other, s.inflight key = some other → other = n := horderly _ ha
      have hempty : ∀ i, i ∉ s.stack := fun i => by simp [hstack]
      refine ⟨fun i hi => absurd hi (hempty i), ?_, h.nodup, fun i hi => absurd hi (hempty i), ?_,
        fun i hi => absurd hi (hempty i), ?_, ?_, h.earlier⟩
      · intro i a hi hstatus
        by_cases heq : n = i
        · subst heq
          rw [hself] at hi
          obtain rfl := Option.some.inj hi
          cases hstatus
        · rw [attempts_setStatus_ne heq] at hi
          exact h.stacked i a hi hstatus
      · intro k i hk
        dsimp only at hk ⊢
        by_cases hkey : k = key
        · subst hkey
          rw [Function.update_self] at hk
          cases hk
        · rw [Function.update_of_ne hkey] at hk
          have hi := h.mapped k i hk
          have heq : n ≠ i := by
            rintro rfl
            rw [ha] at hi
            exact hkey (congrArg Attempt.key (Option.some.inj hi)).symm
          rw [attempts_setStatus_ne heq, hi]
      · intro call hcall hcurrent a hattempt hpending
        by_cases heq : n = call.attempt
        · rw [← heq, hself] at hattempt
          obtain rfl := Option.some.inj hattempt
          cases hpending
        · rw [attempts_setStatus_ne heq] at hattempt
          have hmapped := h.pending call hcall hcurrent a hattempt hpending
          have hkey : call.key ≠ key := by
            intro hkey
            rw [hkey] at hmapped
            exact heq (hother _ hmapped).symm
          dsimp only
          rw [Function.update_of_ne hkey, hmapped]
      · intro call hcall
        obtain ⟨b, hb, hbkey, hdone⟩ := h.known call hcall
        by_cases heq : n = call.attempt
        · rw [← heq] at hb ⊢
          rw [ha] at hb
          obtain rfl := Option.some.inj hb
          exact ⟨_, hself, hbkey, fun outcome hcallDone => absurd (hdone outcome hcallDone) nofun⟩
        · exact ⟨b, by rw [attempts_setStatus_ne heq, hb], hbkey, hdone⟩
    · exact h
  · exact h

theorem Inv.resume (h : Inv s) (i : Nat) : Inv (s.resume i) := by
  unfold State.resume
  split
  · next key n generation hcall =>
    split
    · next outcome ha =>
      split_ifs
      · have hcases : ∀ call ∈ s.calls.modify i fun c => { c with status := .done outcome },
            call ∈ s.calls ∨ call = ⟨key, n, generation, .done outcome⟩ := by
          intro call hmem
          obtain ⟨j, hj⟩ := List.mem_iff_getElem?.mp hmem
          rw [List.getElem?_modify] at hj
          by_cases hij : i = j
          · subst hij
            rw [hcall] at hj
            exact .inr (by simpa using hj.symm)
          · simp only [hij, if_false, Option.map_eq_map, Option.map_id'] at hj
            exact .inl (List.mem_of_getElem? hj)
        have hold : (⟨key, n, generation, .waiting⟩ : Call κ ρ) ∈ s.calls := List.mem_of_getElem? hcall
        refine ⟨h.starting, h.stacked, h.nodup, h.apart, h.mapped, h.unmapped, ?_, ?_, ?_⟩
        · intro call hmem hcurrent a hattempt hpending
          rcases hcases call hmem with hmem | rfl
          · exact h.pending call hmem hcurrent a hattempt hpending
          · exact h.pending ⟨key, n, generation, .waiting⟩ hold hcurrent a hattempt hpending
        · intro call hmem
          rcases hcases call hmem with hmem | rfl
          · exact h.known call hmem
          · obtain ⟨b, hb, hbkey, -⟩ := h.known _ hold
            refine ⟨b, hb, hbkey, fun other hother => ?_⟩
            dsimp only at hb hother
            rw [ha] at hb
            obtain rfl := Option.some.inj hb
            cases hother
            rfl
        · intro call hmem
          rcases hcases call hmem with hmem | rfl
          · exact h.earlier call hmem
          · exact h.earlier ⟨key, n, generation, .waiting⟩ hold
      · exact h
    · exact h
  · exact h

omit [DecidableEq κ] in
theorem Inv.dropKeys (h : Inv s) (dropped : κ → Prop) [DecidablePred dropped] :
    Inv { s with
      inflight := fun key => if dropped key then none else s.inflight key
      generation := fun key => if dropped key then s.generation key + 1 else s.generation key } := by
  refine ⟨h.starting, h.stacked, h.nodup, h.apart, ?_, ?_, ?_, h.known, ?_⟩
  · intro key i hi
    dsimp only at hi
    split_ifs at hi
    exact h.mapped key i hi
  · intro i hi a ha
    dsimp only
    split_ifs
    · rfl
    · exact h.unmapped i hi a ha
  · intro call hcall hcurrent a ha hpending
    have hearlier := h.earlier call hcall
    simp only [Current] at hcurrent ⊢
    split_ifs at hcurrent ⊢
    · omega
    · exact h.pending call hcall hcurrent a ha hpending
  · intro call hcall
    have hearlier := h.earlier call hcall
    dsimp only
    split_ifs
    · omega
    · exact hearlier

theorem Inv.delete (h : Inv s) (key : κ) : Inv (s.delete key) := by
  have hdrop := h.dropKeys (· = key)
  have heq : s.delete key = { s with
      inflight := fun k => if k = key then none else s.inflight k
      generation := fun k => if k = key then s.generation k + 1 else s.generation k } := by
    unfold State.delete
    congr 1
    · funext k
      exact Function.update_apply ..
    · funext k
      rw [Function.update_apply]
      split_ifs with hk
      · rw [hk]
      · rfl
  rw [heq]
  exact hdrop

theorem Inv.clear (h : Inv s) : Inv s.clear := by
  have hdrop := h.dropKeys fun _ => True
  simp only [if_true] at hdrop
  exact hdrop

theorem Inv.step (h : Inv s) (e : Event κ ρ) (he : s.Orderly e) : Inv (s.step e) := by
  cases e with
  | runDedupe key => exact h.runDedupe he
  | returned => exact h.returned
  | threw message =>
      have hidle : s.started (.settled (.rejected message)) = s := by
        rw [started, show s.stack = [] from he]
      exact (congrArg Inv hidle).mpr h
  | settle n outcome => exact h.settle he
  | resume i => exact h.resume i
  | delete key => exact h.delete key
  | clear => exact h.clear

omit [DecidableEq κ] in
theorem Inv.one (h : Inv s) {call other : Call κ ρ} (hcall : call ∈ s.calls) (hother : other ∈ s.calls)
    (hkey : call.key = other.key) (hcurrent : s.Current call) (hcurrent' : s.Current other)
    (hflight : s.InFlight call.attempt) (hflight' : s.InFlight other.attempt) :
    call.attempt = other.attempt := by
  obtain ⟨a, ha, hakey, -⟩ := h.known call hcall
  obtain ⟨b, hb, hbkey, -⟩ := h.known other hother
  obtain ⟨_, ha', hstatus⟩ := hflight
  obtain rfl := Option.some.inj (ha.symm.trans ha')
  obtain ⟨_, hb', hstatus'⟩ := hflight'
  obtain rfl := Option.some.inj (hb.symm.trans hb')
  rcases hstatus with hstarting | hpending <;> rcases hstatus' with hstarting' | hpending'
  · exact h.apart _ (h.stacked _ a ha hstarting) _ (h.stacked _ b hb hstarting') a b ha hb
      (hakey.trans (hkey.trans hbkey.symm))
  · have hmapped := h.pending other hother hcurrent' b hb hpending'
    rw [← hkey, ← hakey, h.unmapped _ (h.stacked _ a ha hstarting) a ha] at hmapped
    cases hmapped
  · have hmapped := h.pending call hcall hcurrent a ha hpending
    rw [hkey, ← hbkey, h.unmapped _ (h.stacked _ b hb hstarting') b hb] at hmapped
    cases hmapped
  · have hmapped := h.pending call hcall hcurrent a ha hpending
    have hmapped' := h.pending other hother hcurrent' b hb hpending'
    rw [hkey, hmapped'] at hmapped
    exact (Option.some.inj hmapped).symm

theorem Inv.coalesces (h : Inv s) : Coalesces s where
  one _ hcall _ hother hkey hcurrent hcurrent' hflight hflight' :=
    h.one hcall hother hkey hcurrent hcurrent' hflight hflight'
  outcome := h.known
  resumes i call hcall hwaiting hstack a ha outcome hsettled := by
    obtain ⟨key, n, generation, status⟩ := call
    obtain ⟨akey, astatus⟩ := a
    obtain rfl : status = .waiting := hwaiting
    obtain rfl : astatus = .settled outcome := hsettled
    have ha : s.attempts[n]? = some ⟨akey, .settled outcome⟩ := ha
    simp [State.resume, hcall, ha, hstack]
  next key call hcall := by
    unfold State.runDedupe at hcall ⊢
    cases hkey : s.inflight key with
    | some existing =>
        rw [hkey] at hcall
        obtain rfl : call = _ := by simpa using hcall.symm
        exact ⟨_, h.mapped key existing hkey, .inr rfl⟩
    | none =>
        rw [hkey] at hcall
        obtain rfl : call = _ := by simpa using hcall.symm
        exact ⟨⟨key, .starting⟩, by simp, .inl rfl⟩

end State

/-- In every run of orderly events the calls share one run for each key, and start a new
one after it. -/
theorem coalesces_run {κ ρ : Type} [DecidableEq κ] {events : List (Event κ ρ)}
    (h : Along State.step State.Orderly State.init events) :
    (run State.step State.init events).Coalesces := by
  have hinv : (run State.step State.init events).Inv :=
    run_invariant_along (I := State.Inv) (fun _ e hs he => hs.step e he) State.inv_init h
  exact hinv.coalesces

/-- A deletion while the run is in flight, which then settles before the key is asked
for again. -/
theorem coalesces_deleted :
    (run State.step State.init [.runDedupe "k", .returned, .delete "k", .settle 0 (.resolved 1),
      .runDedupe "k", .returned, .resume 0]).Coalesces :=
  coalesces_run (κ := String) (ρ := Nat) (by
    refine ⟨?_, trivial, trivial, ?_, ?_, trivial, trivial, trivial⟩
    · intro attempt hattempt
      cases hattempt
    · intro a ha other hother
      cases ha
      cases hother
    · intro attempt hattempt
      cases hattempt)

/-- The run of a deleted key settles while a second one is in flight and takes it out of
the map; the next call starts a third. -/
theorem late_settlement_splits :
    ¬(run (State.step (κ := String) (ρ := Nat)) State.init
      [.runDedupe "k", .returned, .delete "k", .runDedupe "k", .returned, .settle 0 (.resolved 1),
        .runDedupe "k", .returned]).Coalesces := by
  intro h
  have hone := h.one ⟨"k", 1, 1, .waiting⟩ (by decide) ⟨"k", 2, 1, .waiting⟩ (by decide) rfl rfl rfl
    ⟨⟨"k", .pending⟩, by decide, .inr rfl⟩ ⟨⟨"k", .pending⟩, by decide, .inr rfl⟩
  cases hone

end DevPilot.Dedupe
