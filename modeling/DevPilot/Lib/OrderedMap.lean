import Mathlib.Tactic

/-!
Maps in the order in which their keys were first set.
-/

namespace OrderedMaps

structure OrderedMap (κ β : Type) where
  entries : List (κ × β)
  nodup : (entries.map Prod.fst).Nodup

def setEntry {κ β : Type} [DecidableEq κ] (k : κ) (v : β) : List (κ × β) → List (κ × β)
  | [] => [(k, v)]
  | e :: entries => if e.1 = k then (k, v) :: entries else e :: setEntry k v entries

section Entries

variable {κ β : Type} [DecidableEq κ] {k k' : κ} {v v' : β} {entries : List (κ × β)}

theorem map_fst_setEntry (k : κ) (v : β) (entries : List (κ × β)) :
    (setEntry k v entries).map Prod.fst =
      if k ∈ entries.map Prod.fst then entries.map Prod.fst else entries.map Prod.fst ++ [k] := by
  induction entries with
  | nil => simp [setEntry]
  | cons e entries ih =>
      by_cases h : e.1 = k
      · simp [setEntry, h]
      · rw [setEntry, if_neg h, List.map_cons, ih]
        by_cases hk : k ∈ entries.map Prod.fst
        · simp [hk]
        · simp [hk, Ne.symm h]

theorem nodup_setEntry (h : (entries.map Prod.fst).Nodup) (k : κ) (v : β) :
    ((setEntry k v entries).map Prod.fst).Nodup := by
  rw [map_fst_setEntry]
  split_ifs with hk
  · exact h
  · simpa using h.concat hk

theorem mem_setEntry (h : (entries.map Prod.fst).Nodup) :
    (k', v') ∈ setEntry k v entries ↔ (k' = k ∧ v' = v) ∨ (k' ≠ k ∧ (k', v') ∈ entries) := by
  induction entries with
  | nil => simp [setEntry]
  | cons e entries ih =>
      rw [List.map_cons, List.nodup_cons] at h
      by_cases he : e.1 = k
      · have hnot : ∀ w, (k, w) ∉ entries := fun w hw =>
          h.1 (he ▸ List.mem_map_of_mem (f := Prod.fst) hw)
        rw [setEntry, if_pos he, List.mem_cons, List.mem_cons]
        constructor
        · rintro (heq | hmem)
          · exact .inl (Prod.mk.inj heq)
          · refine .inr ⟨?_, .inr hmem⟩
            rintro rfl
            exact hnot _ hmem
        · rintro (⟨rfl, rfl⟩ | ⟨hne, rfl | hmem⟩)
          · exact .inl rfl
          · exact absurd he hne
          · exact .inr hmem
      · rw [setEntry, if_neg he, List.mem_cons, List.mem_cons, ih h.2]
        constructor
        · rintro (rfl | heq | ⟨hne, hmem⟩)
          · exact .inr ⟨he, .inl rfl⟩
          · exact .inl heq
          · exact .inr ⟨hne, .inr hmem⟩
        · rintro (heq | ⟨hne, rfl | hmem⟩)
          · exact .inr (.inl heq)
          · exact .inl rfl
          · exact .inr (.inr ⟨hne, hmem⟩)

end Entries

namespace OrderedMap

variable {κ β : Type}

def empty : OrderedMap κ β := ⟨[], List.nodup_nil⟩

def size (m : OrderedMap κ β) : ℕ := m.entries.length

def filter (m : OrderedMap κ β) (p : κ × β → Bool) : OrderedMap κ β :=
  ⟨m.entries.filter p, m.nodup.sublist ((m.entries.filter_sublist).map _)⟩

def dropFirst (m : OrderedMap κ β) (n : ℕ) : OrderedMap κ β :=
  ⟨m.entries.drop n, m.nodup.sublist ((List.drop_sublist n m.entries).map _)⟩

variable [DecidableEq κ]

def get (m : OrderedMap κ β) (k : κ) : Option β := m.entries.lookup k

def set (m : OrderedMap κ β) (k : κ) (v : β) : OrderedMap κ β :=
  ⟨setEntry k v m.entries, nodup_setEntry m.nodup k v⟩

def delete (m : OrderedMap κ β) (k : κ) : OrderedMap κ β := m.filter fun e => e.1 ≠ k

variable {m : OrderedMap κ β} {k k' : κ} {v v' : β}

theorem get_eq_some : m.get k = some v ↔ (k, v) ∈ m.entries := by
  obtain ⟨entries, hnodup⟩ := m
  rw [get]
  induction entries with
  | nil => simp
  | cons e entries ih =>
      rw [List.map_cons, List.nodup_cons] at hnodup
      rw [List.lookup_cons, List.mem_cons]
      by_cases h : k = e.1
      · subst h
        have hnot : (e.1, v) ∉ entries := fun hmem =>
          hnodup.1 (List.mem_map.mpr ⟨(e.1, v), hmem, rfl⟩)
        simp only [BEq.rfl, Option.some.injEq, hnot, or_false]
        exact ⟨fun h => by rw [← h], fun h => (Prod.mk.inj h).2.symm⟩
      · have hne : (k, v) ≠ e := fun heq => h (congrArg Prod.fst heq)
        rw [show (k == e.1) = false by simpa using h]
        simp only [hne, false_or]
        exact ih hnodup.2

theorem mem_set : (k', v') ∈ (m.set k v).entries ↔
    (k' = k ∧ v' = v) ∨ (k' ≠ k ∧ (k', v') ∈ m.entries) :=
  mem_setEntry m.nodup

theorem mem_delete : (k', v') ∈ (m.delete k).entries ↔ k' ≠ k ∧ (k', v') ∈ m.entries := by
  simp [delete, filter, and_comm]

omit [DecidableEq κ] in
theorem mem_filter {p : κ × β → Bool} {e : κ × β} :
    e ∈ (m.filter p).entries ↔ e ∈ m.entries ∧ p e = true := List.mem_filter

omit [DecidableEq κ] in
theorem mem_of_mem_dropFirst {n : ℕ} {e : κ × β} (h : e ∈ (m.dropFirst n).entries) :
    e ∈ m.entries := List.mem_of_mem_drop h

theorem size_set_of_mem (h : (k, v') ∈ m.entries) : (m.set k v).size = m.size := by
  have hlength := congrArg List.length (map_fst_setEntry k v m.entries)
  rw [if_pos (List.mem_map_of_mem (f := Prod.fst) h)] at hlength
  simpa [size, set] using hlength

omit [DecidableEq κ] in
theorem size_filter_le (m : OrderedMap κ β) (p : κ × β → Bool) : (m.filter p).size ≤ m.size :=
  List.length_filter_le ..

omit [DecidableEq κ] in
@[simp] theorem size_dropFirst (m : OrderedMap κ β) (n : ℕ) : (m.dropFirst n).size = m.size - n :=
  List.length_drop

theorem get_set (m : OrderedMap κ β) (k k' : κ) (v : β) :
    (m.set k v).get k' = if k' = k then some v else m.get k' := by
  split_ifs with h
  · exact get_eq_some.mpr (mem_set.mpr (.inl ⟨h, rfl⟩))
  · ext w
    rw [get_eq_some, get_eq_some, mem_set]
    simp [h]

theorem get_foldl_set {α : Type} (f : α → β) {fields : List (κ × α)} (hnodup : (fields.map Prod.fst).Nodup)
    (m : OrderedMap κ β) (k : κ) :
    (fields.foldl (fun m e => m.set e.1 (f e.2)) m).get k = ((fields.lookup k).map f).or (m.get k) := by
  induction fields generalizing m with
  | nil => rfl
  | cons e fields ih =>
      rw [List.map_cons, List.nodup_cons] at hnodup
      rw [List.foldl_cons, ih hnodup.2, List.lookup_cons]
      by_cases hk : k = e.1
      · subst hk
        have hnone : fields.lookup e.1 = none := by
          rw [List.lookup_eq_none_iff]
          rintro ⟨k', v⟩ hmem
          have hne : e.1 ≠ k' := fun heq => hnodup.1 (heq ▸ List.mem_map_of_mem (f := Prod.fst) hmem)
          simpa using hne
        rw [hnone, get_set]
        simp
      · rw [show (k == e.1) = false by simpa using hk, get_set, if_neg hk]

theorem eq_of_mem (h : (k, v) ∈ m.entries) (h' : (k, v') ∈ m.entries) : v = v' :=
  Option.some.inj ((get_eq_some.mpr h).symm.trans (get_eq_some.mpr h'))

end OrderedMap

end OrderedMaps
