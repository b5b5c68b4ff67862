import Mathlib.Data.List.SplitOn
import Mathlib.Tactic

/-!
Lines of a text some of which are marked: the offsets of the marked ones, and the text cut
at these offsets.
-/

namespace MarkedLines

variable {α : Type} (sep : α)

abbrev Marked (α : Type) := List (Bool × List α)

def unlines (lines : List (List α)) : List α := lines.flatMap (· ++ [sep])

/-- Where the marked lines of a text start, the first line at `pos`. -/
def offsets : Nat → Marked α → List Nat
  | _, [] => []
  | pos, (marked, line) :: ms =>
      if marked then pos :: offsets (pos + (line.length + 1)) ms
      else offsets (pos + (line.length + 1)) ms

def untilMark (ms : Marked α) : List (List α) := (ms.takeWhile fun m => !m.1).map Prod.snd

def blocks : Marked α → List (List (List α))
  | [] => []
  | (marked, line) :: ms => if marked then (line :: untilMark ms) :: blocks ms else blocks ms

def cuts (text : List α) : List Nat → List (List α)
  | [] => []
  | start :: rest => (text.take (rest.head?.getD text.length)).drop start :: cuts text rest

variable {sep} {ms ms' : Marked α}

@[simp] theorem unlines_nil : unlines sep [] = [] := rfl

@[simp] theorem unlines_cons (line : List α) (lines : List (List α)) :
    unlines sep (line :: lines) = line ++ sep :: unlines sep lines := by
  simp [unlines]

theorem unlines_append (lines lines' : List (List α)) :
    unlines sep (lines ++ lines') = unlines sep lines ++ unlines sep lines' :=
  List.flatMap_append

theorem splitOn_unlines [BEq α] [LawfulBEq α] {lines : List (List α)} (h : ∀ l ∈ lines, sep ∉ l) :
    (unlines sep lines).splitOn sep = lines ++ [[]] := by
  have hjoin : unlines sep lines = [sep].intercalate (lines ++ [[]]) := by
    induction lines with
    | nil => rfl
    | cons l ls ih =>
        rw [unlines_cons, ih fun l hl => h l (List.mem_cons_of_mem _ hl)]
        cases ls <;> simp [List.intercalate]
  rw [hjoin, List.splitOn_intercalate]
  · intro l hl
    rcases List.mem_append.mp hl with hl | hl
    · exact h l hl
    · simp [List.mem_singleton.mp hl]
  · simp

theorem head_offsets (pos : Nat) (ms : Marked α) :
    (offsets pos ms).head?.getD (pos + (unlines sep (ms.map Prod.snd)).length) =
      pos + (unlines sep (untilMark ms)).length := by
  induction ms generalizing pos with
  | nil => rfl
  | cons m ms ih =>
      obtain ⟨marked, line⟩ := m
      cases marked with
      | true => simp [offsets, untilMark]
      | false =>
          have hmore : ∀ lines : List (List α), pos + (unlines sep (line :: lines)).length =
              pos + (line.length + 1) + (unlines sep lines).length := fun lines => by
            simp only [unlines_cons, List.length_append, List.length_cons]
            omega
          have huntil : untilMark ((false, line) :: ms) = line :: untilMark ms := rfl
          rw [List.map_cons, hmore, huntil, hmore, ← ih (pos + (line.length + 1))]
          rfl

theorem untilMark_isPrefix (ms : Marked α) :
    unlines sep (untilMark ms) <+: unlines sep (ms.map Prod.snd) := by
  obtain ⟨rest, hrest⟩ := List.takeWhile_prefix (l := ms) fun m => !m.1
  refine ⟨unlines sep (rest.map Prod.snd), ?_⟩
  rw [untilMark, ← unlines_append, ← List.map_append, hrest]

theorem cuts_offsets (before : List α) (ms : Marked α) :
    cuts (before ++ unlines sep (ms.map Prod.snd)) (offsets before.length ms) =
      (blocks ms).map (unlines sep) := by
  induction ms generalizing before with
  | nil => rfl
  | cons m ms ih =>
      obtain ⟨marked, line⟩ := m
      have hnext := ih (before ++ (line ++ [sep]))
      have htext : before ++ (line ++ [sep]) ++ unlines sep (ms.map Prod.snd) =
          before ++ unlines sep (((marked, line) :: ms).map Prod.snd) := by simp
      rw [htext, List.length_append, List.length_append, List.length_singleton] at hnext
      cases marked with
      | false => exact hnext
      | true =>
          rw [offsets, if_pos rfl, cuts, hnext, blocks, if_pos rfl, List.map_cons]
          congr 1
          have hend := @head_offsets _ sep (before.length + (line.length + 1)) ms
          have hlength : (before ++ unlines sep (line :: ms.map Prod.snd)).length =
              before.length + (line.length + 1) + (unlines sep (ms.map Prod.snd)).length := by
            simp only [unlines_cons, List.length_append, List.length_cons]
            omega
          obtain ⟨rest, hrest⟩ := @untilMark_isPrefix _ sep ms
          dsimp only
          rw [hlength, hend, unlines_cons, ← hrest]
          have hsplit : before ++ (line ++ sep :: (unlines sep (untilMark ms) ++ rest)) =
              (before ++ (line ++ sep :: unlines sep (untilMark ms))) ++ rest := by simp
          have hcount : before.length + (line.length + 1) + (unlines sep (untilMark ms)).length =
              (before ++ (line ++ sep :: unlines sep (untilMark ms))).length := by
            simp only [List.length_append, List.length_cons]
            omega
          rw [hsplit, hcount, List.take_left, List.drop_left, unlines_cons]

theorem length_blocks (ms : Marked α) : (blocks ms).length = ms.countP Prod.fst := by
  induction ms with
  | nil => rfl
  | cons m ms ih =>
      obtain ⟨marked, line⟩ := m
      cases marked <;> simp [blocks, ih]

theorem head_of_mem_blocks {block : List (List α)} (h : block ∈ blocks ms) :
    ∃ line rest, block = line :: rest ∧ (true, line) ∈ ms := by
  induction ms with
  | nil => cases h
  | cons m ms ih =>
      obtain ⟨marked, line⟩ := m
      cases marked with
      | false =>
          obtain ⟨line', rest, rfl, hmem⟩ := ih h
          exact ⟨line', rest, rfl, List.mem_cons_of_mem _ hmem⟩
      | true =>
          rcases List.mem_cons.mp h with rfl | h
          · exact ⟨line, _, rfl, List.mem_cons_self⟩
          · obtain ⟨line', rest, rfl, hmem⟩ := ih h
            exact ⟨line', rest, rfl, List.mem_cons_of_mem _ hmem⟩

def markFirst : List (List α) → Marked α
  | [] => []
  | line :: lines => (true, line) :: lines.map (false, ·)

theorem blocks_unmarked (lines : List (List α)) : blocks (lines.map (false, ·) ++ ms) = blocks ms := by
  induction lines with
  | nil => rfl
  | cons line lines ih => simpa [blocks] using ih

theorem untilMark_unmarked (lines : List (List α)) :
    untilMark (lines.map (false, ·) ++ ms) = lines ++ untilMark ms := by
  induction lines with
  | nil => rfl
  | cons line lines ih => simpa [untilMark] using ih

theorem blocks_markFirst {pieces : List (List (List α))} (h : ∀ p ∈ pieces, p ≠ []) :
    blocks (pieces.flatMap markFirst) = pieces := by
  induction pieces with
  | nil => rfl
  | cons p pieces ih =>
      have hrest := ih fun p hp => h p (List.mem_cons_of_mem _ hp)
      obtain ⟨line, lines, rfl⟩ := List.exists_cons_of_ne_nil (h p List.mem_cons_self)
      have hnext : untilMark (pieces.flatMap markFirst) = [] := by
        cases pieces with
        | nil => rfl
        | cons p' pieces =>
            obtain ⟨line', lines', rfl⟩ := List.exists_cons_of_ne_nil (h p' (by simp))
            rfl
      rw [List.flatMap_cons, markFirst, List.cons_append, blocks, if_pos rfl, untilMark_unmarked,
        hnext, List.append_nil, blocks_unmarked, hrest]

end MarkedLines
