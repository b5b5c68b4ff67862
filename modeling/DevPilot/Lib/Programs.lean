import DevPilot.Lib.Runs

/-!
Programs that ask their environment to carry out operations, return or throw,
and rules for what holds along all of their executions.
-/

namespace Programs

open Runs

inductive Program (Op : Type) (Answer : Op → Type) (ε α : Type) : Type
  | ret (a : α)
  | raise (e : ε)
  | call (o : Op) (next : Answer o → Program Op Answer ε α)

abbrev Event (Op : Type) (Answer : Op → Type) : Type := (o : Op) × Answer o

variable {Op : Type} {Answer : Op → Type} {ε α β σ S : Type}

namespace Program

protected def bind : Program Op Answer ε α → (α → Program Op Answer ε β) → Program Op Answer ε β
  | .ret a, f => f a
  | .raise e, _ => .raise e
  | .call o next, f => .call o fun r => (next r).bind f

protected def tryCatch :
    Program Op Answer ε α → (ε → Program Op Answer ε α) → Program Op Answer ε α
  | .ret a, _ => .ret a
  | .raise e, handle => handle e
  | .call o next, handle => .call o fun r => (next r).tryCatch handle

def ensuring : Program Op Answer ε α → Program Op Answer ε Unit → Program Op Answer ε α
  | .ret a, cleanup => cleanup.bind fun _ => .ret a
  | .raise e, cleanup => cleanup.bind fun _ => .raise e
  | .call o next, cleanup => .call o fun r => (next r).ensuring cleanup

instance : Monad (Program Op Answer ε) where
  pure := .ret
  bind := Program.bind

instance : MonadExceptOf ε (Program Op Answer ε) where
  throw := .raise
  tryCatch := Program.tryCatch

def ignoring (p : Program Op Answer ε Unit) : Program Op Answer ε Unit :=
  tryCatch p fun _ => pure ()

def ofExcept : Except ε α → Program Op Answer ε α
  | .ok a => .ret a
  | .error e => .raise e

def Uses (A : Op → Prop) : Program Op Answer ε α → Prop
  | .ret _ | .raise _ => True
  | .call o next => A o ∧ ∀ r, Uses A (next r)

section uses

variable {A : Op → Prop}

theorem uses_pure (a : α) : (pure a : Program Op Answer ε α).Uses A := trivial

theorem uses_throw (e : ε) : (throw e : Program Op Answer ε α).Uses A := trivial

theorem uses_ofExcept (x : Except ε α) : (ofExcept x : Program Op Answer ε α).Uses A := by
  cases x <;> trivial

theorem uses_call {o : Op} {next : Answer o → Program Op Answer ε α} (ho : A o)
    (hnext : ∀ r, (next r).Uses A) : (call o next).Uses A := ⟨ho, hnext⟩

theorem uses_ite {b : Prop} [Decidable b] {p q : Program Op Answer ε α} (hp : p.Uses A)
    (hq : q.Uses A) : (if b then p else q).Uses A := by
  split <;> assumption

theorem uses_bind {p : Program Op Answer ε α} {f : α → Program Op Answer ε β} (hp : p.Uses A)
    (hf : ∀ a, (f a).Uses A) : (p >>= f).Uses A := by
  induction p with
  | ret a => exact hf a
  | raise e => trivial
  | call o next ih => exact ⟨hp.1, fun r => ih r (hp.2 r)⟩

theorem uses_tryCatch {p : Program Op Answer ε α} {handle : ε → Program Op Answer ε α}
    (hp : p.Uses A) (hhandle : ∀ e, (handle e).Uses A) : (tryCatch p handle).Uses A := by
  induction p with
  | ret a => trivial
  | raise e => exact hhandle e
  | call o next ih => exact ⟨hp.1, fun r => ih r (hp.2 r)⟩

theorem uses_ensuring {p : Program Op Answer ε α} {cleanup : Program Op Answer ε Unit}
    (hp : p.Uses A) (hcleanup : cleanup.Uses A) : (p.ensuring cleanup).Uses A := by
  induction p with
  | ret a => exact uses_bind hcleanup fun _ => trivial
  | raise e => exact uses_bind hcleanup fun _ => trivial
  | call o next ih => exact ⟨hp.1, fun r => ih r (hp.2 r)⟩

end uses

def exec (env : σ → (o : Op) → Answer o × σ) :
    σ → Program Op Answer ε α → List (Event Op Answer) × Except ε α
  | _, .ret a => ([], .ok a)
  | _, .raise e => ([], .error e)
  | s, .call o next =>
      let (r, s') := env s o
      let (events, outcome) := exec env s' (next r)
      (⟨o, r⟩ :: events, outcome)

end Program

/-- An observer of events, what it expects of the environment and what it
allows the program. -/
structure Contract (Op : Type) (Answer : Op → Type) (S : Type) where
  observe : S → Event Op Answer → S
  Expected : S → Event Op Answer → Prop := fun _ _ => True
  Allowed : S → Event Op Answer → Prop := fun _ _ => True

namespace Contract

variable (c : Contract Op Answer S)

/-- As long as the environment does what is expected, `p` does what is allowed;
it returns in a state with `Q` and throws in a state with `E`. -/
def Safe : S → Program Op Answer ε α → (S → α → Prop) → (S → ε → Prop) → Prop
  | s, .ret a, Q, _ => Q s a
  | s, .raise e, _, E => E s e
  | s, .call o next, Q, E =>
      ∀ r, c.Expected s ⟨o, r⟩ → c.Allowed s ⟨o, r⟩ ∧ Safe (c.observe s ⟨o, r⟩) (next r) Q E

variable {c}

theorem Safe.mono {p : Program Op Answer ε α} {Q Q' : S → α → Prop} {E E' : S → ε → Prop} {s : S}
    (h : c.Safe s p Q E) (hQ : ∀ s a, Q s a → Q' s a) (hE : ∀ s e, E s e → E' s e) :
    c.Safe s p Q' E' := by
  induction p generalizing s with
  | ret a => exact hQ s a h
  | raise e => exact hE s e h
  | call o next ih =>
      intro r hr
      obtain ⟨hallowed, hnext⟩ := h r hr
      exact ⟨hallowed, ih r hnext⟩

section rules

variable {Q : S → α → Prop} {E : S → ε → Prop} {s : S}

@[simp]
theorem safe_pure (a : α) :
    c.Safe s (pure a : Program Op Answer ε α) Q E ↔ Q s a := Iff.rfl

@[simp]
theorem safe_throw (e : ε) :
    c.Safe s (throw e : Program Op Answer ε α) Q E ↔ E s e := Iff.rfl

theorem safe_ite {b : Prop} [Decidable b] {p q : Program Op Answer ε α} (hp : c.Safe s p Q E)
    (hq : c.Safe s q Q E) : c.Safe s (if b then p else q) Q E := by
  split <;> assumption

@[simp]
theorem safe_ofExcept (x : Except ε α) :
    c.Safe s (.ofExcept x) Q E ↔ (∀ a, x = .ok a → Q s a) ∧ ∀ e, x = .error e → E s e := by
  cases x <;> simp [Program.ofExcept, Safe]

@[simp]
theorem safe_bind (p : Program Op Answer ε β) (f : β → Program Op Answer ε α) :
    c.Safe s (p >>= f) Q E ↔ c.Safe s p (fun s b => c.Safe s (f b) Q E) E := by
  induction p generalizing s with
  | ret b => exact Iff.rfl
  | raise e => exact Iff.rfl
  | call o next ih => exact forall₂_congr fun r _ => and_congr_right fun _ => ih r

@[simp]
theorem safe_tryCatch (p : Program Op Answer ε α) (handle : ε → Program Op Answer ε α) :
    c.Safe s (tryCatch p handle) Q E ↔ c.Safe s p Q fun s e => c.Safe s (handle e) Q E := by
  induction p generalizing s with
  | ret a => exact Iff.rfl
  | raise e => exact Iff.rfl
  | call o next ih => exact forall₂_congr fun r _ => and_congr_right fun _ => ih r

@[simp]
theorem safe_ensuring (p : Program Op Answer ε α) (cleanup : Program Op Answer ε Unit) :
    c.Safe s (p.ensuring cleanup) Q E ↔
      c.Safe s p (fun s a => c.Safe s cleanup (fun s _ => Q s a) E)
        fun s e => c.Safe s cleanup (fun s _ => E s e) E := by
  induction p generalizing s with
  | ret a => exact safe_bind cleanup fun _ => .ret a
  | raise e => exact safe_bind cleanup fun _ => .raise e
  | call o next ih => exact forall₂_congr fun r _ => and_congr_right fun _ => ih r

end rules

theorem safe_of_uses {p : Program Op Answer ε α} {A : Op → Prop} {I : S → Prop} {s : S}
    (hA : ∀ s e, I s → A e.1 → c.Allowed s e ∧ I (c.observe s e)) (hp : p.Uses A) (hs : I s) :
    c.Safe s p (fun s _ => I s) fun s _ => I s := by
  induction p generalizing s with
  | ret a => exact hs
  | raise e => exact hs
  | call o next ih =>
      intro r _
      obtain ⟨hallowed, hI⟩ := hA s ⟨o, r⟩ hs hp.1
      exact ⟨hallowed, ih r (hp.2 r) hI⟩

theorem Safe.along {p : Program Op Answer ε α} {Q : S → α → Prop} {E : S → ε → Prop} {s : S}
    (h : c.Safe s p Q E) (env : σ → (o : Op) → Answer o × σ) (w : σ)
    (henv : Along c.observe c.Expected s (p.exec env w).1) :
    Along c.observe c.Allowed s (p.exec env w).1 ∧
      match (p.exec env w).2 with
      | .ok a => Q (run c.observe s (p.exec env w).1) a
      | .error e => E (run c.observe s (p.exec env w).1) e := by
  induction p generalizing s w with
  | ret a => exact ⟨trivial, h⟩
  | raise e => exact ⟨trivial, h⟩
  | call o next ih =>
      obtain ⟨hexpected, henv⟩ := henv
      obtain ⟨hallowed, hnext⟩ := h _ hexpected
      obtain ⟨halong, hout⟩ := ih _ hnext _ henv
      exact ⟨⟨hallowed, halong⟩, hout⟩

end Contract

end Programs
