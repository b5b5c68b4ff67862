import Mathlib.Data.List.TakeWhile
import Mathlib.Tactic

/-!
Texts over any alphabet with blank characters, and trimming the blanks at both ends.
-/

namespace BlankText

variable {α : Type} (blank : α → Bool)

def trimStart (t : List α) : List α := t.dropWhile blank

def trimEnd (t : List α) : List α := (t.reverse.dropWhile blank).reverse

def trim (t : List α) : List α := trimEnd blank (trimStart blank t)

structure Trimmed (t : List α) : Prop where
  head : ∀ c ∈ t.head?, blank c = false
  last : ∀ c ∈ t.getLast?, blank c = false

variable {blank} {t : List α}

theorem head_dropWhile : ∀ c ∈ (t.dropWhile blank).head?, blank c = false := by
  intro c hc
  have := List.head?_dropWhile_not blank t
  rw [Option.mem_def.mp hc] at this
  simpa using this

theorem dropWhile_eq_self (h : ∀ c ∈ t.head?, blank c = false) : t.dropWhile blank = t := by
  cases t with
  | nil => rfl
  | cons c t => exact List.dropWhile_cons_of_neg (by simp [h c rfl])

theorem trimEnd_isPrefix (t : List α) : trimEnd blank t <+: t := by
  rw [trimEnd, ← List.reverse_suffix, List.reverse_reverse]
  exact List.dropWhile_suffix blank

theorem trim_isInfix (t : List α) : trim blank t <:+: t :=
  (trimEnd_isPrefix _).isInfix.trans (List.dropWhile_suffix blank).isInfix

theorem trimmed_trim (t : List α) : Trimmed blank (trim blank t) := by
  constructor
  · intro c hc
    obtain ⟨tail, htail⟩ := @trimEnd_isPrefix _ blank (trimStart blank t)
    refine head_dropWhile (t := t) c ?_
    rw [trim] at hc
    rw [show t.dropWhile blank = trimEnd blank (trimStart blank t) ++ tail from htail.symm]
    simp only [List.head?_append, Option.mem_def, Option.mem_def.mp hc, Option.some_or]
  · intro c hc
    rw [trim, trimEnd, List.getLast?_reverse] at hc
    exact head_dropWhile c hc

theorem Trimmed.trim_eq (h : Trimmed blank t) : trim blank t = t := by
  have hstart : trimStart blank t = t := dropWhile_eq_self h.head
  have hend : t.reverse.dropWhile blank = t.reverse :=
    dropWhile_eq_self (by simpa [List.head?_reverse] using h.last)
  rw [trim, hstart, trimEnd, hend, List.reverse_reverse]

theorem trim_trim (t : List α) : trim blank (trim blank t) = trim blank t :=
  (trimmed_trim t).trim_eq

theorem trimmed_iff : Trimmed blank t ↔ trim blank t = t :=
  ⟨Trimmed.trim_eq, fun h => h ▸ trimmed_trim t⟩

theorem trimEnd_ne_nil {c : α} (hc : blank c = false) : trimEnd blank (c :: t) ≠ [] := by
  intro h
  rw [trimEnd, List.reverse_eq_nil_iff] at h
  simpa [hc] using List.dropWhile_eq_nil_iff.mp h c (by simp)

theorem trim_ne_nil {c : α} (hc : blank c = false) : trim blank (c :: t) ≠ [] := by
  have hstart : trimStart blank (c :: t) = c :: t := dropWhile_eq_self (by simpa using hc)
  rw [trim, hstart]
  exact trimEnd_ne_nil hc

theorem trim_ne_nil_of_mem {c : α} (hmem : c ∈ t) (hc : blank c = false) : trim blank t ≠ [] := by
  induction t with
  | nil => cases hmem
  | cons d t ih =>
      cases hd : blank d with
      | false => exact trim_ne_nil hd
      | true =>
          have hskip : trim blank (d :: t) = trim blank t := by
            rw [trim, trimStart, List.dropWhile_cons_of_pos hd]
            rfl
          rw [hskip]
          rcases List.mem_cons.mp hmem with rfl | hmem
          · rw [hd] at hc
            cases hc
          · exact ih hmem

theorem trim_cons {c : α} (hc : blank c = true) : trim blank (c :: t) = trim blank t := by
  rw [trim, trimStart, List.dropWhile_cons_of_pos hc]
  rfl

theorem trim_concat {c : α} (hc : blank c = true) : trim blank (t ++ [c]) = trim blank t := by
  have hend : ∀ u : List α, trimEnd blank (u ++ [c]) = trimEnd blank u := fun u => by
    rw [trimEnd, List.reverse_append, List.reverse_singleton, List.singleton_append,
      List.dropWhile_cons_of_pos hc]
    rfl
  rw [trim, trim, trimStart, trimStart, List.dropWhile_append]
  split_ifs with hempty
  · rw [List.isEmpty_iff] at hempty
    rw [hempty, List.dropWhile_cons_of_pos hc, List.dropWhile_nil]
  · exact hend _

end BlankText
