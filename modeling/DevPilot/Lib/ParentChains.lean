import Mathlib.Tactic

/-!
Following a partial function from a starting point until it stops: the chain it runs
through.
-/

namespace ParentChains

variable {α : Type}

/-- `l` lists what `next` runs through from `o` until it stops. -/
inductive Chain (next : α → Option α) : Option α → List α → Prop
  | stop : Chain next none []
  | step {a : α} {l : List α} (h : Chain next (next a) l) : Chain next (some a) (a :: l)

variable {next next' : α → Option α} {o : Option α} {a : α} {l l' : List α}

theorem Chain.cons_inv (h : Chain next (some a) l) : ∃ l', l = a :: l' ∧ Chain next (next a) l' := by
  cases h with
  | step h => exact ⟨_, rfl, h⟩

theorem Chain.unique (h : Chain next o l) (h' : Chain next o l') : l = l' := by
  induction h generalizing l' with
  | stop => cases h'; rfl
  | step _ ih =>
      obtain ⟨tail, rfl, htail⟩ := h'.cons_inv
      rw [ih htail]

theorem Chain.from_append {before : List α} (h : Chain next o (before ++ a :: l)) : Chain next (some a) (a :: l) := by
  induction before generalizing o with
  | nil =>
      cases h with
      | step h => exact .step h
  | cons b before ih =>
      cases h with
      | step h => exact ih h

theorem Chain.start_unique {o' : Option α} (h : Chain next o l) (h' : Chain next o' l) : o = o' := by
  cases h with
  | stop => cases h'; rfl
  | step _ => cases h'; rfl

theorem Chain.from_mem (h : Chain next o l) (ha : a ∈ l) :
    ∃ tail, Chain next (some a) (a :: tail) ∧ a :: tail <:+ l := by
  induction h with
  | stop => simp at ha
  | @step b l hb ih =>
      rcases List.mem_cons.mp ha with rfl | ha
      · exact ⟨l, .step hb, List.suffix_refl _⟩
      · obtain ⟨tail, htail, hsuffix⟩ := ih ha
        exact ⟨tail, htail, hsuffix.trans (List.suffix_cons b l)⟩

theorem Chain.not_mem_next (h : Chain next (next a) l) : a ∉ l := by
  intro ha
  obtain ⟨tail, htail, hsuffix⟩ := h.from_mem ha
  have heq : a :: l = a :: tail := (Chain.step h).unique htail
  have hlen := hsuffix.length_le
  rw [← heq, List.length_cons] at hlen
  omega

theorem Chain.nodup (h : Chain next o l) : l.Nodup := by
  induction h with
  | stop => exact List.nodup_nil
  | step h ih => exact List.nodup_cons.mpr ⟨h.not_mem_next, ih⟩

end ParentChains
