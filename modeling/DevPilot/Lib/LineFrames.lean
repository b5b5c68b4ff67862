import Mathlib.Tactic

/-!
A text is cut into frames, each of which a delimiter ends. What stands behind the
last delimiter is held until more text arrives, so that it does not matter in which
chunks a text arrives.
-/

namespace LineFrames

variable {α : Type} [DecidableEq α]

def frames (delim : α) : List α → List (List α) × List α
  | [] => ([], [])
  | c :: cs =>
      if c = delim then ([] :: (frames delim cs).1, (frames delim cs).2)
      else match (frames delim cs).1 with
        | [] => ([], c :: (frames delim cs).2)
        | frame :: behind => ((c :: frame) :: behind, (frames delim cs).2)

theorem frames_append (delim : α) (s t : List α) : frames delim (s ++ t) =
    ((frames delim s).1 ++ (frames delim ((frames delim s).2 ++ t)).1,
      (frames delim ((frames delim s).2 ++ t)).2) := by
  induction s with
  | nil => rfl
  | cons c cs ih =>
      by_cases hc : c = delim
      · simp [frames, hc, ih]
      · cases hframes : (frames delim cs).1 with
        | nil => simp [frames, hc, ih, hframes]
        | cons frame behind => simp [frames, hc, ih, hframes]

theorem frames_isPrefix (delim : α) (s t : List α) :
    (frames delim s).1 <+: (frames delim (s ++ t)).1 := by
  rw [frames_append]
  exact List.prefix_append _ _

theorem frames_cons_line {delim : α} {l : List α} (h : delim ∉ l) (t : List α) :
    frames delim (l ++ delim :: t) = (l :: (frames delim t).1, (frames delim t).2) := by
  induction l with
  | nil => simp [frames]
  | cons c l ih =>
      obtain ⟨hc, hl⟩ := List.ne_and_not_mem_of_not_mem_cons h
      rw [List.cons_append, frames, if_neg hc.symm, ih hl]

theorem frames_lines {delim : α} {ls : List (List α)} (h : ∀ l ∈ ls, delim ∉ l) :
    frames delim (ls.flatMap (· ++ [delim])) = (ls, []) := by
  induction ls with
  | nil => rfl
  | cons l ls ih =>
      obtain ⟨hl, hls⟩ := List.forall_mem_cons.mp h
      rw [List.flatMap_cons, List.append_assoc, List.singleton_append, frames_cons_line hl, ih hls]

end LineFrames
