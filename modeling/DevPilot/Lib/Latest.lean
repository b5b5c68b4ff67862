import Mathlib.Tactic

/-!
A register that takes an update unless the update is stale against the one it holds: what
it ends with over the orders in which updates arrive.
-/

namespace Latest

variable {α : Type} (stale : α → α → Bool)

/-- `stale next prev` says that `next` is not taken when `prev` is held. -/
def take (held : Option α) (next : α) : Option α :=
  match held with
  | none => some next
  | some prev => if stale next prev then some prev else some next

def hold (held : Option α) (updates : List α) : Option α := updates.foldl (take stale) held

/-- `newer` is taken after `a`, and `a` is not taken after `newer`. -/
def Supersedes (newer a : α) : Prop := stale newer a = false ∧ stale a newer = true

def Unsuperseded (updates : List α) (a : α) : Prop :=
  a ∈ updates ∧ ∀ newer ∈ updates, ¬Supersedes stale newer a

structure Ranked (updates : List α) : Prop where
  refl : ∀ a ∈ updates, stale a a = false
  trans : ∀ a ∈ updates, ∀ b ∈ updates, ∀ c ∈ updates,
    stale b a = false → stale c b = false → stale c a = false

variable {stale} {updates order : List α} {a b : α}

theorem hold_of_all_stale (h : ∀ b ∈ order, stale b a = true) : hold stale (some a) order = some a := by
  induction order with
  | nil => rfl
  | cons b order ih =>
      have htake : take stale (some a) b = some a := if_pos (h b (by simp))
      rw [hold, List.foldl_cons, htake]
      exact ih fun c hc => h c (List.mem_cons_of_mem _ hc)

theorem hold_spec (h : Ranked stale updates) (hsub : order ⊆ updates) (ha : a ∈ updates) :
    ∃ held ∈ a :: order, hold stale (some a) order = some held ∧ stale held a = false ∧
      ∀ b ∈ a :: order, ¬Supersedes stale b held := by
  induction order generalizing a with
  | nil =>
      refine ⟨a, by simp, rfl, h.refl a ha, fun b hb hsup => ?_⟩
      obtain rfl := List.mem_singleton.mp hb
      have := hsup.1.symm.trans hsup.2
      exact absurd this (by decide)
  | cons b order ih =>
      obtain ⟨hb, hrest⟩ := List.cons_subset.mp hsub
      rw [hold, List.foldl_cons]
      cases hstale : stale b a with
      | true =>
          obtain ⟨held, hmem, hhold, hnot, hmax⟩ := ih hrest ha
          have hheld : held ∈ updates := List.cons_subset.mpr ⟨ha, hrest⟩ hmem
          rw [show take stale (some a) b = some a from if_pos hstale]
          refine ⟨held, ?_, hhold, hnot, fun c hc hsup => ?_⟩
          · rcases List.mem_cons.mp hmem with rfl | hmem
            · simp
            · simp [hmem]
          · rcases List.mem_cons.mp hc with rfl | hc
            · exact hmax c (by simp) hsup
            · rcases List.mem_cons.mp hc with rfl | hc
              · -- what was refused at `a` would be taken after it by way of `held`
                have := h.trans a ha held hheld c hb hnot hsup.1
                rw [hstale] at this
                exact absurd this (by decide)
              · exact hmax c (List.mem_cons_of_mem _ hc) hsup
      | false =>
          obtain ⟨held, hmem, hhold, hnot, hmax⟩ := ih hrest hb
          have hheld : held ∈ updates := hsub hmem
          rw [show take stale (some a) b = some b from if_neg (by simp [hstale])]
          refine ⟨held, List.mem_cons_of_mem _ hmem, hhold, h.trans a ha b hb held hheld hstale hnot,
            fun c hc hsup => ?_⟩
          rcases List.mem_cons.mp hc with rfl | hc
          · have := h.trans c ha b hb held hheld hstale hnot
            rw [hsup.2] at this
            exact absurd this (by decide)
          · exact hmax c hc hsup

theorem hold_unsuperseded (h : Ranked stale updates) (hperm : updates.Perm order)
    (hne : updates ≠ []) : ∃ held, hold stale none order = some held ∧ Unsuperseded stale updates held := by
  obtain ⟨a, order, rfl⟩ : ∃ a rest, order = a :: rest :=
    List.exists_cons_of_ne_nil fun hnil => hne (List.perm_nil.mp (hnil ▸ hperm))
  obtain ⟨ha, hsub⟩ := List.cons_subset.mp hperm.symm.subset
  obtain ⟨held, hmem, hhold, -, hmax⟩ := hold_spec h hsub ha
  exact ⟨held, hhold, hperm.mem_iff.mpr hmem, fun b hb => hmax b (hperm.mem_iff.mp hb)⟩

theorem exists_order (h : Unsuperseded stale updates a) :
    ∃ order, updates.Perm order ∧ hold stale none order = some a := by
  obtain ⟨hmem, hmax⟩ := h
  obtain ⟨before, after, rfl⟩ := List.append_of_mem hmem
  set rest := before ++ after with hrest
  refine ⟨(rest.filter fun b => !stale b a) ++ a :: rest.filter fun b => stale b a, ?_, ?_⟩
  · have hsplit := List.filter_append_perm (fun b => stale b a) rest
    refine List.perm_middle.trans (List.Perm.trans ?_ List.perm_middle.symm)
    exact ((List.perm_append_comm.trans hsplit).symm).cons a
  · have hstep : ∀ held : Option α, (∀ b ∈ held, b ∈ rest ∧ stale b a = false) →
        take stale held a = some a := by
      intro held hheld
      cases held with
      | none => rfl
      | some b =>
          obtain ⟨hb, hfresh⟩ := hheld b rfl
          refine if_neg fun hstale => hmax b ?_ ⟨hfresh, hstale⟩
          rcases List.mem_append.mp hb with hb | hb
          · exact List.mem_append_left _ hb
          · exact List.mem_append_right _ (List.mem_cons_of_mem _ hb)
    have hfirst : ∀ (l : List α) (held : Option α), (∀ b ∈ l, b ∈ rest ∧ stale b a = false) →
        (∀ b ∈ held, b ∈ rest ∧ stale b a = false) →
          ∀ b ∈ hold stale held l, b ∈ rest ∧ stale b a = false := by
      intro l
      induction l with
      | nil => exact fun held _ hheld => hheld
      | cons c l ih =>
          intro held hl hheld
          refine ih (take stale held c) (fun b hb => hl b (List.mem_cons_of_mem _ hb)) ?_
          intro b hb
          cases held with
          | none =>
              obtain rfl := Option.some.inj hb
              exact hl c (by simp)
          | some d =>
              simp only [take] at hb
              split_ifs at hb
              · exact hheld b hb
              · obtain rfl := Option.some.inj hb
                exact hl c (by simp)
    rw [hold, List.foldl_append, List.foldl_cons]
    have hheld := hfirst (rest.filter fun b => !stale b a) none
      (fun b hb => by simpa using hb) (by simp)
    rw [hold] at hheld
    rw [hstep _ hheld]
    exact hold_of_all_stale fun b hb => (List.mem_filter.mp hb).2

end Latest
