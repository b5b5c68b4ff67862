import Mathlib.Tactic
import Mathlib.Data.List.AList

/-!
Files by path, the directories they lie in, and a walk that finds all of them.
-/

namespace FileTree

variable {ν α : Type} [DecidableEq ν]

abbrev Files (ν α : Type) : Type := AList fun _ : List ν => α

/-- The entry of the directory `p` on the way to `q`, and whether it is a file. -/
def entryTowards (p q : List ν) : Option (ν × Bool) :=
  if p <+: q then
    match q.drop p.length with
    | [] => none
    | c :: rest => some (c, rest.isEmpty)
  else none

def readdir (files : Files ν α) (p : List ν) : List (ν × Bool) :=
  (files.keys.filterMap (entryTowards p)).dedup

inductive Pending (ν : Type)
  | directory (p : List ν)
  | file (p : List ν)
deriving DecidableEq, Repr

namespace Pending

/-- A visit of `e` leads to the file at `q`. -/
def Covers (q : List ν) : Pending ν → Prop
  | .directory p => p <+: q ∧ p ≠ q
  | .file p => p = q

instance (q : List ν) : (e : Pending ν) → Decidable (e.Covers q)
  | .directory _ => inferInstanceAs (Decidable (_ ∧ _))
  | .file _ => inferInstanceAs (Decidable (_ = _))

end Pending

def visits (files : Files ν α) (p : List ν) : List (Pending ν) :=
  (readdir files p).map fun entry =>
    if entry.2 then .file (p ++ [entry.1]) else .directory (p ++ [entry.1])

theorem covers_visits {files : Files ν α} {p q : List ν} (hq : q ∈ files)
    (h : (Pending.directory p).Covers q) : ∃ e ∈ visits files p, e.Covers q := by
  obtain ⟨⟨rest, rfl⟩, hne⟩ := h
  cases rest with
  | nil => exact absurd (List.append_nil p).symm hne
  | cons c rest =>
      have hentry : entryTowards p (p ++ c :: rest) = some (c, rest.isEmpty) := by
        rw [entryTowards, if_pos (List.prefix_append ..), List.drop_left]
      have hmem : (c, rest.isEmpty) ∈ readdir files p :=
        List.mem_dedup.mpr (List.mem_filterMap.mpr ⟨_, AList.mem_keys.mp hq, hentry⟩)
      refine ⟨_, List.mem_map_of_mem hmem, ?_⟩
      cases rest with
      | nil => rfl
      | cons c' rest => exact ⟨⟨c' :: rest, by simp⟩, by simp⟩

end FileTree
