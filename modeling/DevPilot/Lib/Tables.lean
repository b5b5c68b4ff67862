import DevPilot.Lib.JsonValue

/-!
Tables with text keys, in the order in which the keys were first set.
-/

namespace Tables

open PyJson

structure Table (β : Type) where
  entries : List (String × β)
deriving DecidableEq, Repr

namespace Table

variable {β : Type}

def empty : Table β := ⟨[]⟩

def get (t : Table β) (k : String) : Option β := t.entries.lookup k

def has (t : Table β) (k : String) : Bool := (t.get k).isSome

def set (t : Table β) (k : String) (v : β) : Table β := ⟨Members.insert k v t.entries⟩

def delete (t : Table β) (k : String) : Table β := ⟨t.entries.filter fun p => p.1 ≠ k⟩

def values (t : Table β) : List β := t.entries.map Prod.snd

variable {t : Table β} {k k' : String} {v w : β}

@[simp] theorem get_empty (k : String) : (empty : Table β).get k = none := rfl

theorem get_set (t : Table β) (k : String) (v : β) (k' : String) :
    (t.set k v).get k' = if k' = k then some v else t.get k' := by
  split_ifs with h
  · subst h
    exact Members.lookup_insert_self k' v t.entries
  · exact Members.lookup_insert_ne h v t.entries

@[simp] theorem get_set_self (t : Table β) (k : String) (v : β) : (t.set k v).get k = some v := by
  rw [get_set, if_pos rfl]

theorem get_delete (t : Table β) (k k' : String) :
    (t.delete k).get k' = if k' = k then none else t.get k' := by
  rw [get, delete, get]
  induction t.entries with
  | nil => simp
  | cons p ps ih =>
      by_cases hp : p.1 = k
      · rw [List.filter_cons_of_neg (by simpa using hp), ih, Members.lookup_cons]
        split_ifs with h h' <;> simp_all
      · rw [List.filter_cons_of_pos (by simpa using hp), Members.lookup_cons, Members.lookup_cons, ih]
        split_ifs with h h' <;> simp_all

theorem mem_values_of_get (h : t.get k = some v) : v ∈ t.values :=
  List.mem_map_of_mem (f := Prod.snd) (Members.mem_of_lookup h)

theorem mem_flatten_values_set {α : Type} {t : Table (List α)} {k : String} {v : List α} {a : α}
    (h : ∀ w, t.get k = some w → w ⊆ v) :
    a ∈ (t.set k v).values.flatten ↔ a ∈ t.values.flatten ∨ a ∈ v := by
  obtain ⟨entries⟩ := t
  simp only [get, values, set] at *
  induction entries with
  | nil => simp [Members.insert]
  | cons p ps ih =>
      rw [Members.lookup_cons] at h
      by_cases hp : p.1 = k
      · have hv : p.2 ⊆ v := h p.2 (if_pos hp.symm)
        simp only [Members.insert, hp, if_true, List.map_cons, List.flatten_cons, List.mem_append]
        constructor
        · rintro (ha | ha)
          · exact .inr ha
          · exact .inl (.inr ha)
        · rintro ((ha | ha) | ha)
          · exact .inl (hv ha)
          · exact .inr ha
          · exact .inl ha
      · rw [if_neg (Ne.symm hp)] at h
        simp only [Members.insert, hp, if_false, List.map_cons, List.flatten_cons, List.mem_append,
          ih h, or_assoc]

variable {γ : Type} {R : β → γ → Prop} {t' : Table γ}

/-- The tables have the same keys, in the same order, and related values. -/
def Related (R : β → γ → Prop) (t : Table β) (t' : Table γ) : Prop :=
  List.Forall₂ (fun e e' => e'.1 = e.1 ∧ R e.2 e'.2) t.entries t'.entries

theorem Related.refl {R : β → β → Prop} (hR : ∀ v, R v v) (t : Table β) : Related R t t :=
  List.forall₂_same.mpr fun _ _ => ⟨rfl, hR _⟩

theorem Related.get (h : Related R t t') (k : String) : Option.Rel R (t.get k) (t'.get k) := by
  obtain ⟨entries⟩ := t
  obtain ⟨entries'⟩ := t'
  simp only [Related, Table.get] at *
  induction h with
  | nil => exact .none
  | @cons e e' _ _ hcons _ ih =>
      rw [Members.lookup_cons, Members.lookup_cons, hcons.1]
      split_ifs
      · exact .some hcons.2
      · exact ih

theorem Related.set (h : Related R t t') (k : String) {v : β} {w : γ} (hv : R v w) :
    Related R (t.set k v) (t'.set k w) := by
  obtain ⟨entries⟩ := t
  obtain ⟨entries'⟩ := t'
  simp only [Related, Table.set] at *
  induction h with
  | nil => exact .cons ⟨rfl, hv⟩ .nil
  | @cons e e' _ _ hcons htail ih =>
      simp only [Members.insert, hcons.1]
      split_ifs
      · exact .cons ⟨rfl, hv⟩ htail
      · exact .cons ⟨rfl, hcons.2⟩ ih

theorem Related.delete (h : Related R t t') (k : String) : Related R (t.delete k) (t'.delete k) := by
  obtain ⟨entries⟩ := t
  obtain ⟨entries'⟩ := t'
  simp only [Related, Table.delete] at *
  induction h with
  | nil => exact .nil
  | @cons e e' _ _ hcons _ ih =>
      simp only [List.filter_cons, hcons.1]
      split_ifs
      · exact .cons hcons ih
      · exact ih

theorem Related.length_eq (h : Related R t t') : t'.entries.length = t.entries.length :=
  (List.Forall₂.length_eq h).symm

end Table

end Tables
