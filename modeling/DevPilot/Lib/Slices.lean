import Mathlib.Tactic

/-!
Python slices of lists and texts, with their negative indices, and what stays of
a list without one of its places.
-/

namespace Slices

variable {α β : Type}

def bound (n : Nat) (i : Int) : Nat := if i < 0 then (n + i).toNat else min i.toNat n

def upTo (xs : List α) (i : Int) : List α := xs.take (bound xs.length i)

def startingAt (xs : List α) (i : Int) : List α := xs.drop (bound xs.length i)

theorem map_upTo (f : α → β) (xs : List α) (i : Int) : (upTo xs i).map f = upTo (xs.map f) i := by
  rw [upTo, upTo, List.map_take, List.length_map]

theorem map_startingAt (f : α → β) (xs : List α) (i : Int) :
    (startingAt xs i).map f = startingAt (xs.map f) i := by
  rw [startingAt, startingAt, List.map_drop, List.length_map]

theorem mem_eraseIdx_or {l : List α} {x : α} (h : x ∈ l) (i : Nat) :
    x ∈ l.eraseIdx i ∨ l[i]? = some x := by
  obtain ⟨j, hj, rfl⟩ := List.mem_iff_getElem.mp h
  by_cases hij : j = i
  · exact .inr (hij ▸ List.getElem?_eq_getElem hj)
  · exact .inl (List.mem_eraseIdx_iff_getElem.mpr ⟨j, hj, hij, rfl⟩)

theorem exists_append_of_getElem? {l : List α} {i : Nat} {x : α} (h : l[i]? = some x) :
    ∃ before behind, l = before ++ x :: behind ∧ l.eraseIdx i = before ++ behind := by
  obtain ⟨hi, rfl⟩ := List.getElem?_eq_some_iff.mp h
  exact ⟨l.take i, l.drop (i + 1), by simp, List.eraseIdx_eq_take_drop_succ l i⟩

def textUpTo (s : String) (i : Int) : String := String.ofList (upTo s.toList i)

def textStartingAt (s : String) (i : Int) : String := String.ofList (startingAt s.toList i)

def contains (s needle : List Char) : Bool := s.tails.any (needle.isPrefixOf ·)

theorem contains_iff (s needle : List Char) : contains s needle = true ↔ needle <:+: s := by
  rw [contains, List.any_eq_true]
  simp only [List.mem_tails, List.isPrefixOf_iff_prefix]
  rw [List.infix_iff_prefix_suffix]
  exact exists_congr fun t => and_comm

end Slices
