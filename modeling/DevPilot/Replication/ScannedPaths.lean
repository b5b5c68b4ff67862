import DevPilot.Lib.BlankText
import DevPilot.Lib.PathNames
import DevPilot.Replication.WorkspacePaths

/-!
The relative path that a manifest gives a file of the workspace, and when it leads back to
the file.
-/

namespace DevPilot.Replication

open PathText

/-- What a directory entry of a POSIX file system can be called. -/
structure IsName (name : Text) : Prop where
  ne_nil : name ≠ []
  slash_notMem : '/' ∉ name
  ne_dot : name ≠ dot
  ne_dotdot : name ≠ dotdot

/-- The path of an entry: `resolveWorkspaceRelativePath` and then the normalization of
`buildWorkspaceManifestEntry`. -/
def manifestPath (path : Text) : Text := normalizeWorkspacePath (normalizeWorkspacePath path)

def Portable (path : Text) : Prop := '\\' ∉ path ∧ trim path = path

instance (path : Text) : Decidable (Portable path) := inferInstanceAs (Decidable (_ ∧ _))

theorem commonLength_append (root names : List Text) : commonLength root (root ++ names) = root.length := by
  induction root with
  | nil => rfl
  | cons n root ih => rw [List.cons_append, commonLength, if_pos rfl, ih, List.length_cons]

theorem relative_append (root names : List Text) : relative root (root ++ names) = joinNames names := by
  simp [relative, commonLength_append]

theorem foldl_pushName_eq {above : Bool} {names : List Text} (h : dotdot ∉ names) (stack : List Text) :
    names.foldl (pushName above) stack = stack ++ names.filter fun n => decide (n ≠ [] ∧ n ≠ dot) := by
  induction names generalizing stack with
  | nil => simp
  | cons n names ih =>
      rw [List.mem_cons, not_or] at h
      rw [List.foldl_cons, ih h.2, pushName]
      by_cases hempty : n = [] ∨ n = dot
      · rw [if_pos hempty, List.filter_cons_of_neg (by simpa [or_iff_not_imp_left] using hempty)]
      · rw [if_neg hempty, if_neg (Ne.symm h.1), List.filter_cons_of_pos (by simpa [not_or] using hempty),
          List.append_assoc, List.singleton_append]

theorem normalizeString_joinNames {above : Bool} {names : List Text} (hnames : ∀ n ∈ names, IsName n)
    (stack : List Text) : normalizeString above stack (joinNames names) = stack ++ names := by
  by_cases hnil : names = []
  · subst hnil
    rw [normalizeString, foldl_pushName_eq (by decide)]
    rfl
  · have hup : dotdot ∉ names := fun hmem => (hnames _ hmem).ne_dotdot rfl
    rw [normalizeString, split_joinNames hnil fun n hn => (hnames n hn).slash_notMem, foldl_pushName_eq hup,
      List.filter_eq_self.mpr fun n hn => decide_eq_true ⟨(hnames n hn).ne_nil, (hnames n hn).ne_dot⟩]

def letters (t : Text) : Nat := t.countP (· ≠ '/')

theorem letters_append (t u : Text) : letters (t ++ u) = letters t + letters u := List.countP_append

theorem letters_joinNames (names : List Text) : letters (joinNames names) = (names.map letters).sum := by
  induction names with
  | nil => rfl
  | cons n names ih =>
      by_cases hnames : names = []
      · rw [hnames, joinNames_singleton]
        simp
      · rw [joinNames_cons n hnames, letters_append, List.map_cons, List.sum_cons, ← ih]
        congr 1

theorem letters_sublist {names names' : List Text} (h : List.Sublist names names') :
    letters (joinNames names) ≤ letters (joinNames names') := by
  rw [letters_joinNames, letters_joinNames]
  exact List.Sublist.sum_le_sum (h.map letters) fun _ _ => Nat.zero_le _

theorem normalizeString_sublist (above : Bool) (t : Text) : List.Sublist (normalizeString above [] t) (split t) := by
  have hfold : ∀ (done rest : List Text), List.Sublist (rest.foldl (pushName above) done) (done ++ rest) := by
    intro done rest
    induction rest generalizing done with
    | nil => simp
    | cons n rest ih =>
        have hpush : List.Sublist (pushName above done n) (done ++ [n]) := by
          rw [pushName]
          split_ifs with _ hup
          · exact List.sublist_append_left ..
          · rw [hup]
          · exact (List.dropLast_sublist _).trans (List.sublist_append_left ..)
          · exact List.Sublist.refl _
        refine (ih _).trans ?_
        rw [List.append_cons]
        exact hpush.append_right rest
  exact hfold [] (split t)

theorem letters_stripDotSlash_le (t : Text) : letters (stripDotSlash t) ≤ letters t := by
  rw [stripDotSlash.eq_def]
  split
  · next rest => exact List.Sublist.countP_le ((List.sublist_cons_self _ _).trans (List.sublist_cons_self _ _))
  · exact le_rfl

theorem normalizeWorkspacePath_eq (t : Text) : normalizeWorkspacePath t =
    if stripDotSlash (PathText.normalize (trim (slashes t))) = dot then []
    else stripDotSlash (PathText.normalize (trim (slashes t))) := rfl

theorem normalize_cases (t : Text) : PathText.normalize t = dot ∨ PathText.normalize t = dot ++ ['/'] ∨
    letters (PathText.normalize t) ≤ letters t ∧ ∀ c ∈ PathText.normalize t, c = '/' ∨ c ∈ t := by
  have hletters : letters (joinNames (normalizeString (!isAbsolute t) [] t)) ≤ letters t :=
    (letters_sublist (normalizeString_sublist _ t)).trans_eq (by rw [joinNames_split])
  have hchars : ∀ c ∈ joinNames (normalizeString (!isAbsolute t) [] t), c = '/' ∨ c ∈ t := fun c hc =>
    (mem_joinNames hc).imp_right fun ⟨n, hn, hcn⟩ =>
      (mem_of_mem_split ((normalizeString_sublist _ t).subset hn) c hcn).1
  rw [PathText.normalize.eq_def]
  by_cases hnil : t = []
  · rw [if_pos hnil]
    exact .inl rfl
  rw [if_neg hnil]
  generalize joinNames (normalizeString (!isAbsolute t) [] t) = path at *
  obtain ⟨slash, hslash, heq⟩ : ∃ slash : Text, (slash = [] ∨ slash = ['/']) ∧
      (if t.getLast? = some '/' then ['/'] else []) = slash := by
    split_ifs
    · exact ⟨_, .inr rfl, rfl⟩
    · exact ⟨_, .inl rfl, rfl⟩
  have hend : letters slash = 0 ∧ ∀ c ∈ slash, c = '/' := by
    rcases hslash with rfl | rfl
    · exact ⟨rfl, by simp⟩
    · exact ⟨rfl, by simp⟩
  have hwhole : letters (path ++ slash) ≤ letters t ∧ ∀ c ∈ path ++ slash, c = '/' ∨ c ∈ t := by
    rw [letters_append, hend.1]
    refine ⟨hletters, fun c hc => ?_⟩
    rcases List.mem_append.mp hc with hc | hc
    · exact hchars c hc
    · exact .inl (hend.2 c hc)
  dsimp only
  rw [heq]
  by_cases hpath : path = []
  · rw [if_pos hpath]
    by_cases habs : isAbsolute t = true
    · rw [if_pos habs]
      exact .inr (.inr ⟨Nat.zero_le _, by simp⟩)
    · rw [if_neg habs]
      rcases hslash with rfl | rfl
      · exact .inl rfl
      · exact .inr (.inl rfl)
  · rw [if_neg hpath]
    by_cases habs : isAbsolute t = true
    · rw [if_pos habs]
      refine .inr (.inr ⟨?_, fun c hc => ?_⟩)
      · exact hwhole.1
      · rcases List.mem_cons.mp hc with hc | hc
        · exact .inl hc
        · exact hwhole.2 c hc
    · rw [if_neg habs]
      exact .inr (.inr hwhole)

theorem letters_normalizeWorkspacePath (t : Text) :
    letters (normalizeWorkspacePath t) ≤ letters (trim (slashes t)) := by
  rw [normalizeWorkspacePath_eq]
  rcases normalize_cases (trim (slashes t)) with h | h | ⟨h, -⟩
  · rw [h]
    exact Nat.zero_le _
  · rw [h]
    exact Nat.zero_le _
  · split_ifs
    · exact Nat.zero_le _
    · exact (letters_stripDotSlash_le _).trans h

theorem subset_stripDotSlash (t : Text) : stripDotSlash t ⊆ t := by
  rw [stripDotSlash.eq_def]
  split
  · exact fun c hc => List.mem_cons_of_mem _ (List.mem_cons_of_mem _ hc)
  · exact List.Subset.refl t

theorem backslash_notMem_normalizeWorkspacePath (t : Text) : '\\' ∉ normalizeWorkspacePath t := by
  rw [normalizeWorkspacePath_eq]
  rcases normalize_cases (trim (slashes t)) with h | h | ⟨-, h⟩
  · rw [h]
    decide
  · rw [h]
    decide
  · split_ifs
    · exact List.not_mem_nil
    · intro hmem
      rcases h _ (subset_stripDotSlash _ hmem) with heq | hmem
      · cases heq
      · exact backslash_notMem_slashes t ((BlankText.trim_isInfix _).subset hmem)

theorem letters_trim_le (t : Text) : letters (trim t) ≤ letters t :=
  (BlankText.trim_isInfix t).sublist.countP_le

theorem trim_eq_of_letters {t : Text} (h : letters t ≤ letters (trim t)) : trim t = t := by
  have hblank : ∀ c, isBlank c = true → c ≠ '/' := by
    rintro c hc rfl
    exact absurd hc (by decide)
  refine BlankText.trimmed_iff.mp ⟨fun c hc => ?_, fun c hc => ?_⟩
  · by_contra hc'
    rw [Bool.not_eq_false] at hc'
    obtain ⟨t', rfl⟩ := List.head?_eq_some_iff.mp hc
    have htrim : trim (c :: t') = trim t' := BlankText.trim_cons hc'
    have hless := letters_trim_le t'
    have hcount : letters (c :: t') = letters t' + 1 := List.countP_cons_of_pos (by simpa using hblank c hc')
    rw [htrim] at h
    omega
  · by_contra hc'
    rw [Bool.not_eq_false] at hc'
    obtain ⟨t', rfl⟩ := List.getLast?_eq_some_iff.mp hc
    have htrim : trim (t' ++ [c]) = trim t' := BlankText.trim_concat hc'
    have hless := letters_trim_le t'
    have hcount : letters [c] = 1 := List.countP_cons_of_pos (by simpa using hblank c hc')
    rw [htrim, letters_append] at h
    omega

variable {names : List Text}

theorem isAbsolute_joinNames (hne : names ≠ []) (hnames : ∀ n ∈ names, IsName n) :
    isAbsolute (joinNames names) = false := by
  obtain ⟨first, rest, rfl⟩ := List.exists_cons_of_ne_nil hne
  have hfirst := hnames first List.mem_cons_self
  obtain ⟨after, hafter⟩ := exists_joinNames_first first rest
  rw [isAbsolute, hafter, List.head?_append_of_ne_nil _ hfirst.ne_nil]
  exact decide_eq_false fun hslash => hfirst.slash_notMem (List.mem_of_mem_head? hslash)

theorem normalizeWorkspacePath_of_portable (hne : names ≠ []) (hnames : ∀ n ∈ names, IsName n)
    (h : Portable (joinNames names)) : normalizeWorkspacePath (joinNames names) = joinNames names := by
  obtain ⟨first, rest, hcons⟩ := List.exists_cons_of_ne_nil hne
  have hfirst := hnames first (by simp [hcons])
  obtain ⟨last, hlast⟩ : ∃ last, names.getLast? = some last :=
    Option.ne_none_iff_exists'.mp (mt List.getLast?_eq_none_iff.mp hne)
  obtain ⟨after, hafter⟩ : ∃ after, joinNames names = first ++ after ∧ (after = [] ∨ after.head? = some '/') := by
    by_cases hrest : rest = []
    · exact ⟨[], by rw [hcons, hrest, joinNames_singleton, List.append_nil], .inl rfl⟩
    · exact ⟨_, by rw [hcons, joinNames_cons first hrest], .inr rfl⟩
  have hpath : joinNames names ≠ [] := by
    rw [hafter.1]
    simp [hfirst.ne_nil]
  have habs := isAbsolute_joinNames hne hnames
  have hend : (joinNames names).getLast? ≠ some '/' := by
    obtain ⟨before, hbefore⟩ := exists_joinNames_last hlast
    have hlastName := hnames last (List.mem_of_getLast? hlast)
    rw [hbefore, getLast?_append_of_ne_nil hlastName.ne_nil]
    exact fun hslash => hlastName.slash_notMem (List.mem_of_getLast? hslash)
  have hnormal : PathText.normalize (joinNames names) = joinNames names := by
    rw [PathText.normalize.eq_def, if_neg hpath]
    simp only [habs, Bool.not_false, normalizeString_joinNames hnames, List.nil_append, if_neg hpath,
      if_neg hend, List.append_nil, Bool.false_eq_true, if_false]
  have hdot : joinNames names ≠ dot ∧ stripDotSlash (joinNames names) = joinNames names := by
    rw [hafter.1]
    constructor
    · intro heq
      rcases List.append_eq_singleton_iff.mp heq with ⟨hnil, -⟩ | ⟨hdot, -⟩
      · exact hfirst.ne_nil hnil
      · exact hfirst.ne_dot hdot
    · rw [stripDotSlash.eq_def]
      split
      · next heq =>
          obtain ⟨c, t, rfl⟩ := List.exists_cons_of_ne_nil hfirst.ne_nil
          obtain ⟨rfl, htail⟩ := List.cons.inj heq
          cases t with
          | nil => exact absurd rfl hfirst.ne_dot
          | cons d t =>
              obtain ⟨rfl, -⟩ := List.cons.inj htail
              exact absurd (by simp) hfirst.slash_notMem
      · rfl
  rw [normalizeWorkspacePath_eq, slashes_eq_self h.1, h.2, hnormal, hdot.2, if_neg hdot.1]

theorem manifestPath_leads_iff (root : List Text) (hne : names ≠ []) (hnames : ∀ n ∈ names, IsName n) :
    isAbsolute (manifestPath (joinNames names)) = false ∧ dotdot ∉ split (manifestPath (joinNames names)) ∧
      resolve root (manifestPath (joinNames names)) = root ++ names ↔ Portable (joinNames names) := by
  constructor
  · rintro ⟨habs, hup, hleads⟩
    rw [resolve, habs, if_neg Bool.false_ne_true, normalizeString, foldl_pushName_eq hup] at hleads
    have hkept := List.append_cancel_left hleads
    have hsub := List.filter_sublist (p := fun n => decide (n ≠ [] ∧ n ≠ dot))
      (l := split (manifestPath (joinNames names)))
    rw [hkept] at hsub
    have hletters : letters (joinNames names) ≤ letters (manifestPath (joinNames names)) :=
      (letters_sublist hsub).trans_eq (by rw [joinNames_split])
    have hslash : '\\' ∉ joinNames names := by
      intro hmem
      rcases mem_joinNames hmem with heq | ⟨n, hn, hc⟩
      · cases heq
      · exact backslash_notMem_normalizeWorkspacePath _ (mem_of_mem_split (hsub.subset hn) _ hc).1
    have hall : letters (joinNames names) ≤ letters (trim (joinNames names)) := by
      refine hletters.trans ((letters_normalizeWorkspacePath _).trans ((letters_trim_le _).trans ?_))
      rw [slashes_eq_self (backslash_notMem_normalizeWorkspacePath _)]
      refine (letters_normalizeWorkspacePath _).trans_eq ?_
      rw [slashes_eq_self hslash]
    exact ⟨hslash, trim_eq_of_letters hall⟩
  · intro h
    have hpath : manifestPath (joinNames names) = joinNames names := by
      rw [manifestPath, normalizeWorkspacePath_of_portable hne hnames h,
        normalizeWorkspacePath_of_portable hne hnames h]
    have habs := isAbsolute_joinNames hne hnames
    rw [hpath, resolve, habs, if_neg Bool.false_ne_true, normalizeString_joinNames hnames,
      split_joinNames hne fun n hn => (hnames n hn).slash_notMem]
    exact ⟨rfl, fun hmem => (hnames _ hmem).ne_dotdot rfl, rfl⟩

end DevPilot.Replication
