import Mathlib.Tactic

/-!
Grouping marked positions of a line with some positions of context around them, where a
group ends when the next mark is far from the end of the window before it.
-/

namespace ContextWindows

/-- The positions from `a` to `stop`, both included. -/
def span (a stop : Nat) : List Nat := List.range' a (stop + 1 - a)

/-- The last position of the window around `k` on a line of `len` positions. -/
def windowEnd (c len k : Nat) : Nat := min (len - 1) (k + c)

/-- `current` is the group being built and `next` the first position not looked at yet. -/
def windows (c len : Nat) : List Nat → Nat → List Nat → List (List Nat)
  | current, _, [] => if current = [] then [] else [current]
  | current, next, [k] =>
      let current := current ++ span (max next (k - c)) (windowEnd c len k)
      if current = [] then [] else [current]
  | current, next, k :: k' :: rest =>
      let stop := windowEnd c len k
      let current := current ++ span (max next (k - c)) stop
      if stop + 2 * c < k' then
        (if current = [] then [] else [current]) ++ windows c len [] (stop + 1) (k' :: rest)
      else windows c len current (stop + 1) (k' :: rest)

/-- Consecutive marks are near enough for their windows to meet or far enough for a new
group. -/
def Separated (c : Nat) (marks : List Nat) : Prop :=
  marks.IsChain fun k k' => k' ≤ k + 2 * c + 1 ∨ k + 3 * c < k'

instance (c : Nat) (marks : List Nat) : Decidable (Separated c marks) :=
  inferInstanceAs (Decidable (marks.IsChain _))

structure Grouped (c len : Nat) (marks : List Nat) (groups : List (List Nat)) : Prop where
  ordered : groups.flatten.Pairwise (· < ·)
  bounded : ∀ m ∈ groups.flatten, m < len
  covered : ∀ k ∈ marks, k ∈ groups.flatten
  window : ∀ w ∈ groups, ∃ first ∈ marks, ∃ last ∈ marks,
    w = span (first - c) (windowEnd c len last) ∧ first ≤ last ∧
      ∀ k ∈ marks, k ∈ w → first ≤ k ∧ k ≤ last

variable {c len next k k' m : Nat} {current marks : List Nat}

theorem mem_span {a stop : Nat} : m ∈ span a stop ↔ a ≤ m ∧ m ≤ stop := by
  simp only [span, List.mem_range'_1]
  omega

theorem span_ne_nil {a stop : Nat} (h : a ≤ stop) : span a stop ≠ [] :=
  List.ne_nil_of_mem (mem_span.mpr ⟨le_rfl, h⟩)

theorem span_append {a b stop : Nat} (h : a ≤ b + 1) (h' : b ≤ stop) :
    span a b ++ span (b + 1) stop = span a stop := by
  have hnext : b + 1 = a + (b + 1 - a) := by omega
  have hlength : stop + 1 - a = (b + 1 - a) + (stop + 1 - (b + 1)) := by omega
  rw [span, span, span, hlength, ← List.range'_append_1, ← hnext]

theorem pairwise_span {a stop : Nat} : (span a stop).Pairwise (· < ·) :=
  List.pairwise_lt_range'

theorem le_windowEnd (hk : k < len) : k ≤ windowEnd c len k := by
  simp only [windowEnd]
  omega

theorem windowEnd_lt (hk : k < len) : windowEnd c len k < len := by
  simp only [windowEnd]
  omega

theorem windowEnd_mono (h : k ≤ k') : windowEnd c len k ≤ windowEnd c len k' := by
  simp only [windowEnd]
  omega

structure Growing (c len low next : Nat) (seen current : List Nat) (first last : Nat) : Prop where
  eq_span : current = span (first - c) (windowEnd c len last)
  next_eq : next = windowEnd c len last + 1
  first_mem : first ∈ seen
  last_mem : last ∈ seen
  between : ∀ k ∈ seen, first ≤ k ∧ k ≤ last
  low_le : low ≤ first - c
  last_lt : last < len

variable {low first last : Nat} {seen : List Nat} {groups : List (List Nat)}

theorem Growing.start (hk : k < len) (hlow : low ≤ next) (hnext : next ≤ k - c) :
    Growing c len low (windowEnd c len k + 1) [k]
      (span (max next (k - c)) (windowEnd c len k)) k k where
  eq_span := by rw [max_eq_right hnext]
  next_eq := rfl
  first_mem := List.mem_singleton_self k
  last_mem := List.mem_singleton_self k
  between j hj := by
    obtain rfl := List.mem_singleton.mp hj
    exact ⟨le_rfl, le_rfl⟩
  low_le := by omega
  last_lt := hk

namespace Growing

theorem first_le_last (h : Growing c len low next seen current first last) : first ≤ last :=
  (h.between first h.first_mem).2

theorem start_le_windowEnd (h : Growing c len low next seen current first last) :
    first - c ≤ windowEnd c len last := by
  have hlast := le_windowEnd (c := c) h.last_lt
  have := h.first_le_last
  omega

theorem ne_nil (h : Growing c len low next seen current first last) : current ≠ [] := by
  rw [h.eq_span]
  exact span_ne_nil h.start_le_windowEnd

theorem mem_current (h : Growing c len low next seen current first last) (hk : k ∈ seen) :
    k ∈ current := by
  have hbetween := h.between k hk
  have hlast := le_windowEnd (c := c) h.last_lt
  rw [h.eq_span]
  exact mem_span.mpr ⟨by omega, by omega⟩

theorem lt_next (h : Growing c len low next seen current first last) (hm : m ∈ current) :
    m < next := by
  have hm := (mem_span.mp (h.eq_span ▸ hm)).2
  have := h.next_eq
  omega

theorem add (h : Growing c len low next seen current first last) (hk : k < len)
    (hlast : last < k) (hnear : k ≤ next + c) :
    Growing c len low (windowEnd c len k + 1) (seen ++ [k])
      (current ++ span (max next (k - c)) (windowEnd c len k)) first k where
  eq_span := by
    have hstart := h.start_le_windowEnd
    have hnext : max next (k - c) = windowEnd c len last + 1 := by
      have := h.next_eq
      omega
    rw [h.eq_span, hnext]
    exact span_append (by omega) (windowEnd_mono hlast.le)
  next_eq := rfl
  first_mem := List.mem_append_left _ h.first_mem
  last_mem := by simp
  between j hj := by
    rcases List.mem_append.mp hj with hj | hj
    · exact ⟨(h.between j hj).1, (h.between j hj).2.trans hlast.le⟩
    · obtain rfl := List.mem_singleton.mp hj
      exact ⟨h.first_le_last.trans hlast.le, le_rfl⟩
  low_le := h.low_le
  last_lt := hk

theorem cons (h : Growing c len low next seen current first last)
    (hgroups : Grouped c len marks groups) (hlater : ∀ m ∈ groups.flatten, next ≤ m)
    (hmarks : ∀ k ∈ marks, next ≤ k) :
    Grouped c len (seen ++ marks) (current :: groups) where
  ordered := by
    rw [List.flatten_cons, List.pairwise_append]
    refine ⟨h.eq_span ▸ pairwise_span, hgroups.ordered, fun m hm m' hm' => ?_⟩
    exact (h.lt_next hm).trans_le (hlater m' hm')
  bounded m hm := by
    rw [List.flatten_cons] at hm
    rcases List.mem_append.mp hm with hm | hm
    · exact (mem_span.mp (h.eq_span ▸ hm)).2.trans_lt (windowEnd_lt h.last_lt)
    · exact hgroups.bounded m hm
  covered k hk := by
    rw [List.flatten_cons]
    rcases List.mem_append.mp hk with hk | hk
    · exact List.mem_append_left _ (h.mem_current hk)
    · exact List.mem_append_right _ (hgroups.covered k hk)
  window w hw := by
    rcases List.mem_cons.mp hw with rfl | hw
    · refine ⟨first, List.mem_append_left _ h.first_mem, last, List.mem_append_left _ h.last_mem,
        h.eq_span, h.first_le_last, fun k hk hkw => ?_⟩
      rcases List.mem_append.mp hk with hk | hk
      · exact h.between k hk
      · exact absurd (h.lt_next hkw) (not_lt.mpr (hmarks k hk))
    · obtain ⟨first', hfirst, last', hlast, heq, hle, hbetween⟩ := hgroups.window w hw
      refine ⟨first', List.mem_append_right _ hfirst, last', List.mem_append_right _ hlast, heq,
        hle, fun k hk hkw => ?_⟩
      rcases List.mem_append.mp hk with hk | hk
      · have hge := hlater k (List.mem_flatten.mpr ⟨w, hw, hkw⟩)
        exact absurd (h.lt_next (h.mem_current hk)) (not_lt.mpr hge)
      · exact hbetween k hk hkw

end Growing

theorem grouped_nil : Grouped c len [] [] where
  ordered := List.Pairwise.nil
  bounded := by simp
  covered := by simp
  window := by simp

theorem Growing.grouped (h : Growing c len low next seen current first last) :
    Grouped c len seen [current] ∧ ∀ m ∈ [current].flatten, low ≤ m := by
  have hgrouped := h.cons grouped_nil (by simp) (by simp)
  rw [List.append_nil] at hgrouped
  refine ⟨hgrouped, fun m hm => ?_⟩
  rw [List.flatten_singleton, h.eq_span] at hm
  exact h.low_le.trans (mem_span.mp hm).1

def Ready (c len low next : Nat) (seen current marks : List Nat) : Prop :=
  (seen = [] ∧ current = [] ∧ low ≤ next ∧ ∀ k ∈ marks, next ≤ k - c) ∨
    ∃ first last, Growing c len low next seen current first last ∧
      (∀ k ∈ marks, last < k) ∧ ∀ k ∈ marks.head?, k ≤ next + c

theorem Ready.add {rest : List Nat} (h : Ready c len low next seen current (k :: rest))
    (hk : k < len) : ∃ first, Growing c len low (windowEnd c len k + 1) (seen ++ [k])
      (current ++ span (max next (k - c)) (windowEnd c len k)) first k := by
  rcases h with ⟨rfl, rfl, hlow, hnext⟩ | ⟨first, last, hgrowing, hlast, hnear⟩
  · exact ⟨_, .start hk hlow (hnext k List.mem_cons_self)⟩
  · exact ⟨first, hgrowing.add hk (hlast k List.mem_cons_self) (hnear k rfl)⟩

theorem near_of_not_cut (hk' : k' < len) (hcut : ¬ windowEnd c len k + 2 * c < k')
    (hpair : k' ≤ k + 2 * c + 1 ∨ k + 3 * c < k') : k' ≤ windowEnd c len k + 1 + c := by
  simp only [windowEnd] at hcut ⊢
  omega

theorem windows_grouped (hready : Ready c len low next seen current marks)
    (hmarks : ∀ k ∈ marks, k < len) (hsorted : marks.Pairwise (· < ·))
    (hseparated : Separated c marks) :
    Grouped c len (seen ++ marks) (windows c len current next marks) ∧
      ∀ m ∈ (windows c len current next marks).flatten, low ≤ m := by
  fun_induction windows c len current next marks generalizing low seen with
  | case1 =>
      rcases hready with ⟨rfl, -⟩ | ⟨first, last, hgrowing, -⟩
      · exact ⟨grouped_nil, by simp⟩
      · exact absurd rfl hgrowing.ne_nil
  | case2 current next hne =>
      rcases hready with ⟨-, hnil, -⟩ | ⟨first, last, hgrowing, -⟩
      · exact absurd hnil hne
      · rw [List.append_nil]
        exact hgrowing.grouped
  | case3 current next k current' =>
      rename_i hnil
      obtain ⟨first, hgrowing⟩ := hready.add (hmarks k List.mem_cons_self)
      exact absurd hnil hgrowing.ne_nil
  | case4 current next k current' =>
      obtain ⟨first, hgrowing⟩ := hready.add (hmarks k List.mem_cons_self)
      exact hgrowing.grouped
  | case5 current next k k' rest stop current' =>
      rename_i hcut ih
      obtain ⟨first, hgrowing⟩ := hready.add (hmarks k List.mem_cons_self)
      have hahead : ∀ j ∈ k' :: rest, stop + 1 ≤ j - c := by
        have hrest := (List.pairwise_cons.mp (List.pairwise_cons.mp hsorted).2).1
        intro j hj
        rcases List.mem_cons.mp hj with rfl | hj
        · omega
        · have := hrest j hj
          omega
      obtain ⟨hgroups, hlater⟩ := @ih (stop + 1) []
        (.inl ⟨rfl, rfl, le_rfl, hahead⟩) (fun j hj => hmarks j (List.mem_cons_of_mem _ hj))
        (List.pairwise_cons.mp hsorted).2 hseparated.tail
      have hfirst := hgrowing.grouped
      rw [if_neg hgrowing.ne_nil]
      refine ⟨?_, fun m hm => ?_⟩
      · have hall := hgrowing.cons hgroups hlater fun j hj => (hahead j hj).trans (Nat.sub_le j c)
        simpa using hall
      · rw [List.flatten_append] at hm
        rcases List.mem_append.mp hm with hm | hm
        · exact hfirst.2 m hm
        · have hle := hfirst.2 k (hfirst.1.covered k (by simp))
          have hend := le_windowEnd (c := c) (hmarks k List.mem_cons_self)
          have := hlater m hm
          omega
  | case6 current next k k' rest stop current' =>
      rename_i hcut ih
      obtain ⟨first, hgrowing⟩ := hready.add (hmarks k List.mem_cons_self)
      have hk' : k' < len := hmarks k' (by simp)
      have hnear := near_of_not_cut hk' hcut (List.isChain_cons_cons.mp hseparated).1
      have hready' : Ready c len low (stop + 1) (seen ++ [k]) current' (k' :: rest) := by
        refine .inr ⟨first, k, hgrowing, (List.pairwise_cons.mp hsorted).1, fun j hj => ?_⟩
        obtain rfl : k' = j := by simpa using hj
        exact hnear
      have hall := ih hready' (fun j hj => hmarks j (List.mem_cons_of_mem _ hj))
        (List.pairwise_cons.mp hsorted).2 hseparated.tail
      simpa using hall

structure Gap (c : Nat) (marks : List Nat) (k k' : Nat) : Prop where
  left_mem : k ∈ marks
  right_mem : k' ∈ marks
  apart : k + 2 * c + 1 < k'
  next_to : ∀ j ∈ marks, j ≤ k ∨ k' ≤ j

theorem mem_windows (hm : m ∈ (windows c len current next marks).flatten) :
    m ∈ current ∨ ∃ k ∈ marks, k ≤ m + c ∧ m ≤ windowEnd c len k := by
  have hwindow : ∀ {next k : Nat}, m ∈ span (max next (k - c)) (windowEnd c len k) →
      k ≤ m + c ∧ m ≤ windowEnd c len k := by
    intro next k h
    have h := mem_span.mp h
    exact ⟨by omega, h.2⟩
  fun_induction windows c len current next marks with
  | case1 => simp at hm
  | case2 => exact .inl (by simpa using hm)
  | case3 => simp at hm
  | case4 current next k current' hne =>
      have hm : m ∈ current' := by simpa using hm
      rcases List.mem_append.mp hm with h | h
      · exact .inl h
      · exact .inr ⟨k, by simp, hwindow h⟩
  | case5 current next k k' rest stop current' hcut ih =>
      rw [List.flatten_append] at hm
      rcases List.mem_append.mp hm with hm | hm
      · have hm : m ∈ current' := by
          split_ifs at hm
          · simp at hm
          · simpa using hm
        rcases List.mem_append.mp hm with h | h
        · exact .inl h
        · exact .inr ⟨k, by simp, hwindow h⟩
      · rcases ih hm with h | ⟨j, hj, hjm⟩
        · cases h
        · exact .inr ⟨j, List.mem_cons_of_mem _ hj, hjm⟩
  | case6 current next k k' rest stop current' hcut ih =>
      rcases ih hm with h | ⟨j, hj, hjm⟩
      · rcases List.mem_append.mp h with h | h
        · exact .inl h
        · exact .inr ⟨k, by simp, hwindow h⟩
      · exact .inr ⟨j, List.mem_cons_of_mem _ hj, hjm⟩

theorem exists_of_current (hcurrent : current ≠ []) :
    ∃ w ∈ windows c len current next marks, current ⊆ w := by
  fun_induction windows c len current next marks with
  | case1 => exact absurd rfl hcurrent
  | case2 current => exact ⟨current, by simp, List.Subset.refl _⟩
  | case3 current next k current' hnil =>
      exact absurd (List.append_eq_nil_iff.mp hnil).1 hcurrent
  | case4 current next k current' hne =>
      exact ⟨current', by simp, List.subset_append_left current _⟩
  | case5 current next k k' rest stop current' hcut ih =>
      have hne : current' ≠ [] := fun hnil => hcurrent (List.append_eq_nil_iff.mp hnil).1
      refine ⟨current', ?_, List.subset_append_left current _⟩
      rw [if_neg hne]
      simp
  | case6 current next k k' rest stop current' hcut ih =>
      have hne : current' ≠ [] := fun hnil => hcurrent (List.append_eq_nil_iff.mp hnil).1
      obtain ⟨w, hw, hsub⟩ := ih hne
      exact ⟨w, hw, List.Subset.trans (List.subset_append_left current _) hsub⟩

theorem mem_append_span (hk : k < len) (hseen : k < next → k ∈ current) :
    k ∈ current ++ span (max next (k - c)) (windowEnd c len k) := by
  rcases lt_or_ge k next with h | h
  · exact List.mem_append_left _ (hseen h)
  · exact List.mem_append_right _ (mem_span.mpr ⟨by omega, le_windowEnd hk⟩)

theorem exists_of_head {rest : List Nat} (hk : k < len) (hseen : k < next → k ∈ current) :
    ∃ w ∈ windows c len current next (k :: rest), current ⊆ w ∧ k ∈ w := by
  have hmem := mem_append_span (c := c) hk hseen
  have hne := List.ne_nil_of_mem hmem
  have hsub := List.subset_append_left current (span (max next (k - c)) (windowEnd c len k))
  cases rest with
  | nil => exact ⟨_, by simp [windows, hne], hsub, hmem⟩
  | cons k' rest =>
      rw [windows]
      by_cases hcut : windowEnd c len k + 2 * c < k'
      · rw [if_pos hcut, if_neg hne]
        exact ⟨_, List.mem_append_left _ (List.mem_singleton_self _), hsub, hmem⟩
      · rw [if_neg hcut]
        obtain ⟨w, hw, hall⟩ := @exists_of_current c len
          (windowEnd c len k + 1) _ (k' :: rest) hne
        exact ⟨w, hw, List.Subset.trans hsub hall, hall hmem⟩

theorem Gap.cons {k₀ : Nat} (h : Gap c marks k k') (hk₀ : ∀ j ∈ marks, k₀ < j) :
    Gap c (k₀ :: marks) k k' where
  left_mem := List.mem_cons_of_mem _ h.left_mem
  right_mem := List.mem_cons_of_mem _ h.right_mem
  apart := h.apart
  next_to j hj := by
    rcases List.mem_cons.mp hj with rfl | hj
    · exact .inl (hk₀ k h.left_mem).le
    · exact h.next_to j hj

theorem exists_gap (hmarks : ∀ k ∈ marks, k < len) (hsorted : marks.Pairwise (· < ·))
    (hseen : ∀ k ∈ marks, k < next → k ∈ current) (hseparated : ¬ Separated c marks) :
    ∃ k k', Gap c marks k k' ∧ ∃ w ∈ windows c len current next marks, k ∈ w ∧ k' ∈ w := by
  fun_induction windows c len current next marks with
  | case1 | case2 => exact absurd .nil hseparated
  | case3 | case4 => exact absurd (.singleton _) hseparated
  | case5 current next k k' rest stop current' hcut ih =>
      have hk' : k' < len := hmarks k' (by simp)
      have hrest := List.pairwise_cons.mp (List.pairwise_cons.mp hsorted).2
      have hfar : k' ≤ k + 2 * c + 1 ∨ k + 3 * c < k' := by
        simp only [stop, windowEnd] at hcut
        omega
      have hahead : ∀ j ∈ k' :: rest, j < stop + 1 → j ∈ ([] : List Nat) := by
        intro j hj hlt
        rcases List.mem_cons.mp hj with rfl | hj
        · omega
        · have := hrest.1 j hj
          omega
      obtain ⟨j, j', hgap, w, hw, hmem⟩ := ih
        (fun j hj => hmarks j (List.mem_cons_of_mem _ hj)) (List.pairwise_cons.mp hsorted).2
        hahead (fun h => hseparated (List.isChain_cons_cons.mpr ⟨hfar, h⟩))
      exact ⟨j, j', hgap.cons (List.pairwise_cons.mp hsorted).1, w, List.mem_append_right _ hw, hmem⟩
  | case6 current next k k' rest stop current' hcut ih =>
      have hk : k < len := hmarks k List.mem_cons_self
      have hk' : k' < len := hmarks k' (by simp)
      have hbehind := (List.pairwise_cons.mp hsorted).1
      have hrest := List.pairwise_cons.mp (List.pairwise_cons.mp hsorted).2
      have hseen' : ∀ j ∈ k' :: rest, j < stop + 1 → j ∈ current' := by
        intro j hj hlt
        rcases lt_or_ge j next with h | h
        · exact List.mem_append_left _ (hseen j (List.mem_cons_of_mem _ hj) h)
        · have := hbehind j hj
          exact List.mem_append_right _ (mem_span.mpr ⟨by omega, by omega⟩)
      by_cases hpair : k' ≤ k + 2 * c + 1 ∨ k + 3 * c < k'
      · obtain ⟨j, j', hgap, hgroup⟩ := ih
          (fun j hj => hmarks j (List.mem_cons_of_mem _ hj)) (List.pairwise_cons.mp hsorted).2
          hseen' (fun h => hseparated (List.isChain_cons_cons.mpr ⟨hpair, h⟩))
        exact ⟨j, j', hgap.cons hbehind, hgroup⟩
      · obtain ⟨w, hw, hsub, hmem⟩ := @exists_of_head c len (stop + 1) k' current' rest hk'
          (hseen' k' List.mem_cons_self)
        refine ⟨k, k', ⟨by simp, by simp, by omega, fun j hj => ?_⟩, w, hw,
          hsub (mem_append_span hk (hseen k List.mem_cons_self)), hmem⟩
        rcases List.mem_cons.mp hj with rfl | hj
        · exact .inl le_rfl
        · rcases List.mem_cons.mp hj with rfl | hj
          · exact .inr le_rfl
          · exact .inr (hrest.1 j hj).le

theorem contiguous_iff (hmarks : ∀ k ∈ marks, k < len) (hsorted : marks.Pairwise (· < ·)) :
    (∀ w ∈ windows c len [] 0 marks, ∀ i ∈ w, ∀ j ∈ w, ∀ m, i ≤ m → m ≤ j → m ∈ w) ↔
      Separated c marks := by
  constructor
  · intro hcontiguous
    by_contra hseparated
    obtain ⟨k, k', hgap, w, hw, hk, hk'⟩ :=
      @exists_gap c len 0 [] marks hmarks hsorted (by simp) hseparated
    have := hgap.apart
    have hm := hcontiguous w hw k hk k' hk' (k + c + 1) (by omega) (by omega)
    rcases mem_windows (List.mem_flatten.mpr ⟨w, hw, hm⟩) with h | ⟨j, hj, hlow, hhigh⟩
    · cases h
    · have hend : windowEnd c len j ≤ j + c := Nat.min_le_right _ _
      rcases hgap.next_to j hj with h | h <;> omega
  · intro hseparated w hw i hi j hj m him hmj
    have hready : Ready c len 0 0 [] [] marks := .inl ⟨rfl, rfl, le_rfl, fun _ _ => Nat.zero_le _⟩
    obtain ⟨first, -, last, -, rfl, -⟩ :=
      (windows_grouped hready hmarks hsorted hseparated).1.window w hw
    have hi := mem_span.mp hi
    have hj := mem_span.mp hj
    exact mem_span.mpr ⟨by omega, by omega⟩

theorem lt_of_mem_windows (hmarks : ∀ k ∈ marks, k < len)
    (hm : m ∈ (windows c len [] next marks).flatten) : m < len := by
  rcases mem_windows hm with h | ⟨k, hk, -, hle⟩
  · cases h
  · exact hle.trans_lt (windowEnd_lt (hmarks k hk))

theorem windows_zero (hmarks : ∀ k ∈ marks, k < len) (hsorted : marks.Pairwise (· < ·))
    (hnext : ∀ k ∈ marks, next ≤ k) : windows 0 len [] next marks = marks.map fun k => [k] := by
  have hspan : ∀ {next k : Nat}, k < len → next ≤ k →
      span (max next (k - 0)) (windowEnd 0 len k) = [k] := by
    intro next k hk hle
    have hend : windowEnd 0 len k = k := by
      simp only [windowEnd]
      omega
    rw [hend, Nat.sub_zero, max_eq_right hle, span, Nat.add_sub_cancel_left]
    rfl
  induction marks generalizing next with
  | nil => rfl
  | cons k rest ih =>
      have hk := hmarks k List.mem_cons_self
      have hgroup := hspan hk (hnext k List.mem_cons_self)
      cases rest with
      | nil =>
          rw [windows, hgroup]
          simp
      | cons k' rest =>
          have hlt := (List.pairwise_cons.mp hsorted).1
          have hend : windowEnd 0 len k ≤ k := Nat.min_le_right _ _
          have hcut : windowEnd 0 len k + 2 * 0 < k' := by
            have := hlt k' List.mem_cons_self
            omega
          rw [windows, if_pos hcut, ih (fun j hj => hmarks j (List.mem_cons_of_mem _ hj))
            (List.pairwise_cons.mp hsorted).2 fun j hj => hend.trans_lt (hlt j hj), hgroup]
          simp

theorem grouped_windows (hmarks : ∀ k ∈ marks, k < len) (hsorted : marks.Pairwise (· < ·))
    (hseparated : Separated c marks) : Grouped c len marks (windows c len [] 0 marks) :=
  (windows_grouped (.inl ⟨rfl, rfl, le_rfl, fun _ _ => Nat.zero_le _⟩) hmarks hsorted
    hseparated).1

end ContextWindows
