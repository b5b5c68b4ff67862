import DevPilot.Lib.PathText

/-!
Paths as texts and the names between their separators.
-/

namespace PathText

/-- Windows separators as `/`. -/
def slashes (t : Text) : Text := t.map fun c => if c = '\\' then '/' else c

theorem backslash_notMem_slashes (t : Text) : '\\' ∉ slashes t := by
  intro hmem
  obtain ⟨c, -, hc⟩ := List.mem_map.mp hmem
  split_ifs at hc with heq
  · cases hc
  · exact heq hc

theorem slashes_eq_self {t : Text} (h : '\\' ∉ t) : slashes t = t := by
  conv_rhs => rw [← List.map_id t]
  refine List.map_congr_left fun c hc => if_neg ?_
  rintro rfl
  exact h hc

theorem mem_of_mem_split {t name : Text} (h : name ∈ split t) : ∀ c ∈ name, c ∈ t ∧ c ≠ '/' := by
  induction t generalizing name with
  | nil =>
      obtain rfl := List.mem_singleton.mp h
      simp
  | cons d t ih =>
      rw [split, List.splitOn_eq_splitOnP, List.splitOnP_cons_eq_if_modifyHead] at h
      by_cases hd : d = '/'
      · rw [if_pos (by simp [hd])] at h
        rcases List.mem_cons.mp h with rfl | h
        · simp
        · exact fun c hc => ⟨List.mem_cons_of_mem _ (ih h c hc).1, (ih h c hc).2⟩
      · rw [if_neg (by simp [hd])] at h
        have hmore : ∀ n ∈ split t, ∀ c ∈ n, c ∈ d :: t ∧ c ≠ '/' := fun n hn c hc =>
          ⟨List.mem_cons_of_mem _ (ih hn c hc).1, (ih hn c hc).2⟩
        cases hsplit : split t with
        | nil =>
            rw [split, List.splitOn_eq_splitOnP] at hsplit
            rw [hsplit] at h
            cases h
        | cons n ns =>
            rw [hsplit] at hmore
            rw [split, List.splitOn_eq_splitOnP] at hsplit
            rw [hsplit, List.modifyHead_cons, List.mem_cons] at h
            rcases h with rfl | h
            · intro c hc
              rcases List.mem_cons.mp hc with rfl | hc
              · exact ⟨List.mem_cons_self, hd⟩
              · exact hmore n List.mem_cons_self c hc
            · exact hmore name (List.mem_cons_of_mem _ h)

theorem slash_notMem_split {t name : Text} (h : name ∈ split t) : '/' ∉ name :=
  fun hmem => (mem_of_mem_split h '/' hmem).2 rfl

theorem split_joinNames {names : List Text} (hne : names ≠ []) (h : ∀ n ∈ names, '/' ∉ n) :
    split (joinNames names) = names :=
  List.splitOn_intercalate '/' h hne

theorem joinNames_cons (n : Text) {names : List Text} (h : names ≠ []) :
    joinNames (n :: names) = n ++ '/' :: joinNames names := by
  cases names with
  | nil => exact absurd rfl h
  | cons n' names => simp [joinNames, List.intercalate, List.intersperse]

theorem joinNames_singleton (n : Text) : joinNames [n] = n := by
  simp [joinNames, List.intercalate]

theorem joinNames_append {names names' : List Text} (h : names ≠ []) (h' : names' ≠ []) :
    joinNames (names ++ names') = joinNames names ++ '/' :: joinNames names' := by
  induction names with
  | nil => exact absurd rfl h
  | cons n names ih =>
      cases hnames : names with
      | nil =>
          rw [List.singleton_append, joinNames_cons n h', joinNames_singleton]
      | cons n' rest =>
          rw [← hnames, List.cons_append, joinNames_cons n (by simp [h']), ih (by simp [hnames]),
            joinNames_cons n (by simp [hnames])]
          simp

theorem joinNames_split (t : Text) : joinNames (split t) = t := List.intercalate_splitOn '/'

theorem length_joinNames_le {names names' : List Text} (h : List.Sublist names names') :
    (joinNames names).length ≤ (joinNames names').length := by
  induction h with
  | slnil => exact le_rfl
  | @cons names names' n hsub ih =>
      cases hnames : names' with
      | nil =>
          rw [hnames] at hsub ih
          rw [List.sublist_nil.mp hsub]
          exact Nat.zero_le _
      | cons n' rest =>
          rw [← hnames, joinNames_cons n (by simp [hnames])]
          simp only [List.length_append, List.length_cons]
          omega
  | @cons_cons names names' n hsub ih =>
      cases hnames : names with
      | nil =>
          cases hnames' : names' with
          | nil => exact le_rfl
          | cons n' rest =>
              rw [joinNames_singleton, ← hnames', joinNames_cons n (by simp [hnames'])]
              simp
      | cons n' rest =>
          have hne : names' ≠ [] := by
            rintro rfl
            rw [hnames] at hsub
            cases hsub
          rw [← hnames, joinNames_cons n (by simp [hnames]), joinNames_cons n hne]
          simp only [List.length_append, List.length_cons]
          omega

theorem exists_joinNames_last {names : List Text} {n : Text} (h : names.getLast? = some n) :
    ∃ before, joinNames names = before ++ n := by
  obtain ⟨front, rfl⟩ := List.getLast?_eq_some_iff.mp h
  by_cases hfront : front = []
  · exact ⟨[], by rw [hfront, List.nil_append, joinNames_singleton, List.nil_append]⟩
  · refine ⟨joinNames front ++ ['/'], ?_⟩
    rw [joinNames_append hfront (List.cons_ne_nil _ _), joinNames_singleton]
    simp

theorem exists_joinNames_first (n : Text) (names : List Text) : ∃ after, joinNames (n :: names) = n ++ after := by
  by_cases hnames : names = []
  · exact ⟨[], by rw [hnames, joinNames_singleton, List.append_nil]⟩
  · exact ⟨_, joinNames_cons n hnames⟩

theorem getLast?_append_of_ne_nil {t u : Text} (h : u ≠ []) : (t ++ u).getLast? = u.getLast? := by
  rw [List.getLast?_append]
  cases hu : u.getLast? with
  | none => exact absurd (List.getLast?_eq_none_iff.mp hu) h
  | some c => rfl

theorem mem_joinNames {c : Char} {names : List Text} (h : c ∈ joinNames names) :
    c = '/' ∨ ∃ n ∈ names, c ∈ n := by
  induction names with
  | nil => simp [joinNames, List.intercalate] at h
  | cons n names ih =>
      by_cases hnames : names = []
      · rw [hnames, joinNames_singleton] at h
        exact .inr ⟨n, by simp, h⟩
      · rw [joinNames_cons n hnames, List.mem_append, List.mem_cons] at h
        rcases h with h | h | h
        · exact .inr ⟨n, by simp, h⟩
        · exact .inl h
        · rcases ih h with h | ⟨m, hm, hc⟩
          · exact .inl h
          · exact .inr ⟨m, by simp [hm], hc⟩

theorem split_append_slash (t u : Text) : split (t ++ '/' :: u) = split t ++ split u := by
  simp only [split, List.splitOn_eq_splitOnP]
  exact List.splitOnP_append_cons t u (by decide)

end PathText
