import DevPilot.SessionChanges.PathFamilies

/-!
Canonical paths of the three families: which of them a second pass leaves as they are, and
which roots give the paths below them back.
-/

namespace DevPilot.SessionChanges

open PathText
open UnifiedDiff (isLineTerminator)

theorem backslash_notMem_prepare (value : Text) : '\\' ∉ prepare value := by
  have hslashes := backslash_notMem_slashes (trim value)
  rw [prepare]
  split_ifs with hupper
  · generalize slashes (trim value) = t at *
    cases t with
    | nil => simp [lowerFirst]
    | cons c t =>
        rw [lowerFirst, List.mem_cons, not_or]
        refine ⟨fun heq => ?_, fun hmem => hslashes (List.mem_cons_of_mem _ hmem)⟩
        have hc : c.isUpper = true := by
          cases t with
          | nil => simp [hasUpperDrive] at hupper
          | cons d t =>
              rw [hasUpperDrive.eq_def] at hupper
              split at hupper
              · next heq' =>
                  obtain ⟨rfl, -⟩ := List.cons.inj heq'
                  exact hupper
              · cases hupper
        have hlower : c.toLower.isAlpha = true := isAlpha_toLower (isAlpha_of_isUpper hc)
        rw [← heq] at hlower
        exact absurd hlower (by decide)
  · exact hslashes

theorem hasUpperDrive_eq {c : Char} {t : Text} (h : hasUpperDrive (c :: t) = true) :
    c.isUpper = true ∧ t.head? = some ':' := by
  rw [hasUpperDrive.eq_def] at h
  split at h
  · next heq =>
      obtain ⟨rfl, rfl⟩ := List.cons.inj heq
      exact ⟨h, rfl⟩
  · cases h

theorem hasUpperDrive_lowerFirst (t : Text) : hasUpperDrive (lowerFirst t) = false := by
  cases t with
  | nil => rfl
  | cons c t =>
      rw [lowerFirst, Bool.eq_false_iff]
      intro h
      have hupper := (hasUpperDrive_eq h).1
      rw [not_isUpper_toLower] at hupper
      cases hupper

theorem hasUpperDrive_prepare (value : Text) : hasUpperDrive (prepare value) = false := by
  rw [prepare]
  split_ifs with hupper
  · exact hasUpperDrive_lowerFirst _
  · exact Bool.eq_false_iff.mpr hupper

theorem prepare_eq {t : Text} (htrim : trim t = t) (hslash : '\\' ∉ t) :
    prepare t = if hasUpperDrive t then lowerFirst t else t := by
  rw [prepare, htrim, slashes_eq_self hslash]

theorem letter_of_family {path root rest : Text} (h : family path = .drive root rest)
    (hupper : hasUpperDrive path = false) :
    ∃ letter, root = [letter, ':', '/'] ∧ isDriveLetter letter = true ∧ letter.isUpper = false ∧
      rest.any isLineTerminator = false := by
  obtain ⟨letter, rfl, hletter, rfl, hrest⟩ := driveMatch_eq_some (driveMatch_of_family h)
  exact ⟨letter, rfl, hletter, hupper, hrest⟩

theorem subset_text (path : Text) (hupper : hasUpperDrive path = false) :
    ∀ c ∈ (family path).text, c = '/' ∨ c ∈ path := by
  intro c hc
  rw [Family.text, List.mem_append] at hc
  cases hfamily : family path with
  | share root rest =>
      rw [hfamily] at hc
      obtain ⟨-, tail, rfl, htail, -⟩ := uncMatch_eq_some (uncMatch_of_family hfamily)
      have hsub : ∀ d ∈ rest, d ∈ tail := by
        rcases remainder?_eq_some htail with ⟨-, rfl⟩ | ⟨rfl, -⟩
        · simp
        · exact fun d hd => List.mem_cons_of_mem _ hd
      rcases hc with hc | hc
      · exact .inr (List.mem_append_left _ hc)
      · exact (mem_foldNames hc).imp_right fun hmem => List.mem_append_right _ (hsub c hmem)
  | drive root rest =>
      rw [hfamily] at hc
      obtain ⟨letter, rfl, -, hlower, -⟩ := letter_of_family hfamily hupper
      obtain ⟨-, -, -, rfl, -⟩ := driveMatch_eq_some (driveMatch_of_family hfamily)
      rw [Family.root, lowerFirst, toLower_eq_self hlower] at hc
      rcases hc with hc | hc
      · exact .inr (List.mem_append_left _ hc)
      · exact (mem_foldNames hc).imp_right fun hmem => List.mem_append_right _ hmem
  | absolute rest =>
      rw [hfamily] at hc
      rw [eq_of_family_absolute hfamily]
      rcases hc with hc | hc
      · exact .inl (List.mem_singleton.mp hc)
      · exact (mem_foldNames hc).imp_right fun hmem => List.mem_cons_of_mem _ hmem
  | relative rest =>
      rw [hfamily] at hc
      rw [(eq_of_family_relative hfamily).1]
      rcases hc with hc | hc
      · cases hc
      · exact mem_foldNames hc

theorem text_text_share {path root rest n : Text} {names : List Text} (h : family path = .share root rest)
    (hnames : (family path).names = n :: names) :
    (family (family path).text).text = root ++ n ++ joinNames names := by
  have hfolded := folded_names path
  rw [hnames] at hfolded
  simp only [h] at hfolded
  have hn := hfolded.kept n List.mem_cons_self
  have hup : n ≠ dotdot := fun heq => hfolded.rooted rfl (heq ▸ List.mem_cons_self)
  obtain ⟨⟨server, share, hserver, hshare, hroot⟩, tail, -, htail, -⟩ :=
    uncMatch_eq_some (uncMatch_of_family h)
  have hlines : (joinNames names).any isLineTerminator = false := by
    have hall : (joinNames (n :: names)).any isLineTerminator = false := by
      rw [← hnames, h]
      refine any_joinNames ?_
      rcases remainder?_eq_some htail with ⟨-, rfl⟩ | ⟨-, hrest⟩
      · rfl
      · exact hrest
    by_cases hnil : names = []
    · rw [hnil]
      rfl
    · rw [joinNames_cons n hnil, List.any_append, List.any_cons] at hall
      simp only [Bool.or_eq_false_iff] at hall
      exact hall.2.2
  have hlonger : IsShare (root ++ n) := by
    refine ⟨server, share ++ n, hserver, ⟨by simp [hshare.ne_nil], fun hmem => ?_⟩, by rw [hroot]; simp⟩
    rcases List.mem_append.mp hmem with hmem | hmem
    · exact hshare.slash_notMem hmem
    · exact hn.slash_notMem hmem
  have hfamily : family (family path).text = .share (root ++ n) (joinNames names) := by
    have htext : (family path).text = root ++ joinNames (n :: names) := by
      rw [Family.text, hnames, h]
      rfl
    by_cases hnil : names = []
    · have := @family_share (root ++ n) [] [] hlonger rfl (by simp)
      rw [htext, hnil, joinNames_singleton]
      rw [List.append_nil] at this
      exact this
    · have := @family_share (root ++ n) ('/' :: joinNames names) (joinNames names) hlonger
        (by rw [remainder?, hlines]; rfl) (by simp)
      rw [htext, joinNames_cons n hnil, ← List.append_assoc]
      exact this
  rw [hfamily, Family.text, Family.root, Family.names, foldNames_joinNames (hfolded.tail hup)]

theorem text_text_share_iff {path root rest : Text} (h : family path = .share root rest) :
    (family (family path).text).text = (family path).text ↔ (family path).names.length ≤ 1 := by
  have htext : (family path).text = root ++ joinNames (family path).names := by
    rw [Family.text, h]
    rfl
  cases hnames : (family path).names with
  | nil =>
      have hshare := (uncMatch_eq_some (uncMatch_of_family h)).1
      have hfamily := @family_share root [] [] hshare rfl (by simp)
      rw [htext, hnames]
      simp only [List.append_nil] at hfamily
      have hnil : joinNames [] = [] := rfl
      rw [hnil, List.append_nil, hfamily]
      exact iff_of_true (List.append_nil root) (Nat.zero_le 1)
  | cons n names =>
      rw [text_text_share h hnames, htext, hnames]
      cases hrest : names with
      | nil => exact iff_of_true (by rw [joinNames_singleton]; exact List.append_nil _) le_rfl
      | cons n' names' =>
          refine iff_of_false (fun heq => ?_) (by simp)
          rw [joinNames_cons n (List.cons_ne_nil _ _), ← List.append_assoc] at heq
          have hlength := congrArg List.length heq
          simp at hlength

theorem text_text_drive {path root rest : Text} (h : family path = .drive root rest)
    (hupper : hasUpperDrive path = false) : (family (family path).text).text = (family path).text := by
  obtain ⟨letter, hroot, hletter, hlower, hrest⟩ := letter_of_family h hupper
  have hfolded := folded_names path
  simp only [h] at hfolded
  have hlowered : lowerFirst root = [letter, ':', '/'] := by
    rw [hroot, lowerFirst, toLower_eq_self hlower]
  have htext : (family path).text = [letter, ':', '/'] ++ joinNames (family path).names := by
    rw [Family.text, h, Family.root, hlowered]
  have hfamily := @family_drive letter (joinNames (family path).names) hletter
    (by rw [h]; exact any_joinNames hrest)
  rw [htext, hfamily, Family.text, Family.root, Family.names, h, foldNames_joinNames hfolded, lowerFirst,
    toLower_eq_self hlower]

theorem text_text_absolute {path rest : Text} (h : family path = .absolute rest) :
    (family (family path).text).text = (family path).text := by
  have hfolded := folded_names path
  have hkept : ∀ n ∈ (family path).names, Kept n := kept_names
  simp only [h] at hfolded
  have htext : (family path).text = '/' :: joinNames (family path).names := by
    rw [Family.text, h]
    rfl
  rw [htext, family_absolute (head?_joinNames_ne hkept), Family.text, Family.root, Family.names, h,
    foldNames_joinNames hfolded]
  rfl

theorem text_joinNames {names : List Text} (h : Folded false names)
    (hupper : hasUpperDrive (joinNames names) = false) : (family (joinNames names)).text = joinNames names := by
  have hhead := head?_joinNames_ne h.kept
  cases hfamily : family (joinNames names) with
  | share root rest =>
      obtain ⟨⟨server, share, -, -, hroot⟩, tail, htext, -⟩ := uncMatch_eq_some (uncMatch_of_family hfamily)
      rw [htext, hroot] at hhead
      exact absurd rfl hhead
  | absolute rest =>
      rw [eq_of_family_absolute hfamily] at hhead
      exact absurd rfl hhead
  | relative rest =>
      rw [Family.text, Family.root, Family.names, ← (eq_of_family_relative hfamily).1, foldNames_joinNames h]
      rfl
  | drive root rest =>
      obtain ⟨letter, hroot, hletter, hlower, -⟩ := letter_of_family hfamily hupper
      obtain ⟨-, -, -, htext, -⟩ := driveMatch_eq_some (driveMatch_of_family hfamily)
      have hne : names ≠ [] := by
        rintro rfl
        rw [hroot] at htext
        cases htext
      have hsplit := split_joinNames hne fun n hn => (h.kept n hn).slash_notMem
      have hfirst : split (joinNames names) = [letter, ':'] :: split rest := by
        rw [htext, hroot, split, split, List.splitOn_eq_splitOnP]
        have hnone : ∀ c ∈ [letter, ':'], (c == '/') = false := by
          intro c hc
          rcases List.mem_cons.mp hc with rfl | hc
          · rw [beq_eq_false_iff_ne]
            rintro rfl
            exact absurd hletter (by decide)
          · rw [List.mem_singleton.mp hc]
            decide
        exact List.splitOnP_append_cons_of_forall_mem hnone '/' (by decide) rest
      rw [hfirst] at hsplit
      rw [← hsplit] at h
      have hrest := h.tail (by simp [dotdot])
      have hfold := foldNames_joinNames hrest
      rw [joinNames_split] at hfold
      rw [Family.text, Family.root, Family.names, hfold, joinNames_split, htext, hroot, lowerFirst,
        toLower_eq_self hlower]

theorem length_text_le (path : Text) : (family path).text.length ≤ path.length := by
  cases hfamily : family path with
  | share root rest =>
      obtain ⟨-, tail, rfl, htail, -⟩ := uncMatch_eq_some (uncMatch_of_family hfamily)
      have hfold := length_foldNames_le true rest
      have hrest : rest.length ≤ tail.length := by
        rcases remainder?_eq_some htail with ⟨-, rfl⟩ | ⟨rfl, -⟩ <;> simp
      simp only [Family.text, Family.root, Family.names, List.length_append]
      omega
  | drive root rest =>
      obtain ⟨letter, rfl, -, rfl, -⟩ := driveMatch_eq_some (driveMatch_of_family hfamily)
      have hfold := length_foldNames_le true rest
      simp only [Family.text, Family.root, Family.names, List.length_append, lowerFirst, List.length_cons]
      omega
  | absolute rest =>
      have hfold := length_foldNames_le true rest
      rw [eq_of_family_absolute hfamily]
      simp only [Family.text, Family.root, Family.names, List.length_append, List.length_cons,
        List.length_nil]
      omega
  | relative rest =>
      rw [(eq_of_family_relative hfamily).1]
      exact length_foldNames_le false rest

theorem length_prepare (value : Text) : (prepare value).length = (trim value).length := by
  have hlower : ∀ t : Text, (lowerFirst t).length = t.length := fun t => by cases t <;> rfl
  rw [prepare]
  split_ifs
  · rw [hlower, slashes, List.length_map]
  · rw [slashes, List.length_map]

theorem hasUpperDrive_joinNames {n : Text} {names : List Text} (h : ∀ m ∈ n :: names, Kept m) :
    hasUpperDrive (joinNames (n :: names)) = hasUpperDrive n := by
  by_cases hnames : names = []
  · rw [hnames, joinNames_singleton]
  · rw [joinNames_cons n hnames]
    have hn := (h n List.mem_cons_self).ne_nil
    match n, hn with
    | [c], _ => rfl
    | c :: d :: n, _ =>
        by_cases hd : d = ':'
        · rw [hd]
          rfl
        · have hfalse : ∀ t : Text, hasUpperDrive (c :: d :: t) = false := fun t =>
            Bool.eq_false_iff.mpr fun htrue => hd (Option.some.inj (hasUpperDrive_eq htrue).2)
          rw [List.cons_append, List.cons_append, hfalse, hfalse]

theorem text_lowerFirst {n : Text} {names : List Text} (h : Folded false (n :: names))
    (hupper : hasUpperDrive n = true) :
    (family (lowerFirst (joinNames (n :: names)))).text ≠ joinNames (n :: names) := by
  obtain ⟨c, t, rfl⟩ := List.exists_cons_of_ne_nil (h.kept n List.mem_cons_self).ne_nil
  obtain ⟨hc, hcolon⟩ := hasUpperDrive_eq hupper
  obtain ⟨t, rfl⟩ : ∃ t', t = ':' :: t' := by
    cases t with
    | nil => cases hcolon
    | cons d t' => exact ⟨t', by rw [Option.some.inj hcolon]⟩
  have hkept := h.kept _ List.mem_cons_self
  have halpha : c.toLower.isAlpha = true := isAlpha_toLower (isAlpha_of_isUpper hc)
  have hslash : '/' ≠ c.toLower := fun heq => absurd (heq ▸ halpha) (by decide)
  have hlowered : Kept (c.toLower :: ':' :: t) := by
    refine ⟨List.cons_ne_nil _ _, fun hmem => ?_, by simp [dot]⟩
    rcases List.mem_cons.mp hmem with heq | hmem
    · exact hslash heq
    · exact hkept.slash_notMem (List.mem_cons_of_mem c hmem)
  obtain ⟨hnext, hrest⟩ := List.isChain_cons.mp h.up
  have hfolded : Folded false ((c.toLower :: ':' :: t) :: names) := by
    refine ⟨fun m hm => ?_, by simp, List.isChain_cons.mpr ⟨fun m hm heq => ?_, hrest⟩⟩
    · rcases List.mem_cons.mp hm with rfl | hm
      · exact hlowered
      · exact h.kept m (List.mem_cons_of_mem _ hm)
    · exact absurd (hnext m hm heq) (by simp [dotdot])
  have hjoin : lowerFirst (joinNames ((c :: ':' :: t) :: names)) = joinNames ((c.toLower :: ':' :: t) :: names) := by
    by_cases hnames : names = []
    · rw [hnames, joinNames_singleton, joinNames_singleton]
      rfl
    · rw [joinNames_cons _ hnames, joinNames_cons _ hnames]
      rfl
  have hagain := text_joinNames hfolded (hjoin ▸ hasUpperDrive_lowerFirst _)
  rw [hjoin, hagain]
  intro heq
  have hheads := congrArg List.head? heq
  obtain ⟨after, hafter⟩ := exists_joinNames_first (c.toLower :: ':' :: t) names
  obtain ⟨after', hafter'⟩ := exists_joinNames_first (c :: ':' :: t) names
  rw [hafter, hafter'] at hheads
  have hlower := not_isUpper_toLower c
  rw [Option.some.inj hheads, hc] at hlower
  cases hlower

theorem idempotent_iff (value : Text) :
    normalizePathToken (normalizePathToken value) = normalizePathToken value ↔
      (family (prepare value)).Stable := by
  have hupper := hasUpperDrive_prepare value
  have hslash : '\\' ∉ (family (prepare value)).text := fun hmem => by
    rcases subset_text _ hupper _ hmem with heq | hmem
    · cases heq
    · exact backslash_notMem_prepare value hmem
  rw [normalizePathToken_eq value]
  generalize prepare value = q at *
  rw [normalizePathToken_eq]
  have hkept : ∀ n ∈ (family q).names, Kept n := kept_names
  have hfirst : ∀ c t, (family q).text = c :: t → c = '/' → hasUpperDrive (family q).text = false := by
    rintro c t htext rfl
    rw [htext, Bool.eq_false_iff]
    exact fun htrue => absurd (hasUpperDrive_eq htrue).1 (by decide)
  constructor
  · intro hidem
    have htrim : trim (family q).text = (family q).text := by
      have hinfix : trim (family q).text <:+: (family q).text := BlankText.trim_isInfix _
      have hle := length_text_le (prepare (family q).text)
      rw [hidem, length_prepare] at hle
      exact hinfix.eq_of_length_le hle
    obtain ⟨hstarts, hends⟩ := (trim_text_iff hkept).mp htrim
    rw [prepare_eq htrim hslash] at hidem
    refine ⟨hstarts, hends, fun root rest hfamily => ?_, fun rest hfamily => ?_⟩
    · have hnot : hasUpperDrive (family q).text = false := by
        obtain ⟨server, share, -, -, hroot⟩ := (uncMatch_eq_some (uncMatch_of_family hfamily)).1.named
        refine hfirst '/' ('/' :: (server ++ '/' :: share) ++ joinNames (family q).names) ?_ rfl
        rw [Family.text, hfamily, Family.root, hroot]
        rfl
      rw [hnot, if_neg Bool.false_ne_true] at hidem
      exact (text_text_share_iff hfamily).mp hidem
    · have hfolded := folded_names q
      simp only [hfamily] at hfolded
      have htext : (family q).text = joinNames (family q).names := by
        rw [Family.text, hfamily]
        rfl
      have hname : (family q).firstName = (family q).names.headD [] := by
        rw [Family.firstName, hfamily]
        rfl
      rw [htext] at hidem
      rw [hname, hfamily]
      cases hnames : (Family.relative rest).names with
      | nil => rfl
      | cons n names =>
          rw [hfamily, hnames] at hidem hkept
          rw [hnames] at hfolded
          rw [hasUpperDrive_joinNames hkept] at hidem
          rw [List.headD_cons, Bool.eq_false_iff]
          intro htrue
          rw [if_pos htrue] at hidem
          exact text_lowerFirst hfolded htrue hidem
  · intro hstable
    have htrim := (trim_text_iff hkept).mpr ⟨hstable.starts, hstable.ends⟩
    rw [prepare_eq htrim hslash]
    cases hfamily : family q with
    | share root rest =>
        have hagain := (text_text_share_iff hfamily).mpr (hstable.share root rest hfamily)
        obtain ⟨server, share, -, -, hroot⟩ := (uncMatch_eq_some (uncMatch_of_family hfamily)).1.named
        have hnot := hfirst '/' ('/' :: (server ++ '/' :: share) ++ joinNames (family q).names)
          (by rw [Family.text, hfamily, Family.root, hroot]; rfl) rfl
        rw [hfamily] at hnot hagain
        rw [hnot, if_neg Bool.false_ne_true, hagain]
    | drive root rest =>
        have hagain := text_text_drive hfamily hupper
        obtain ⟨letter, hroot, -, hlower, -⟩ := letter_of_family hfamily hupper
        have hnot : hasUpperDrive (Family.drive root rest).text = false := by
          rw [hroot]
          exact hasUpperDrive_lowerFirst ([letter, ':', '/'] ++ joinNames (foldNames true rest))
        rw [hfamily] at hagain
        rw [hnot, if_neg Bool.false_ne_true, hagain]
    | absolute rest =>
        have hagain := text_text_absolute hfamily
        have hnot := hfirst '/' (joinNames (family q).names) (by rw [Family.text, hfamily]; rfl) rfl
        rw [hfamily] at hnot hagain
        rw [hnot, if_neg Bool.false_ne_true, hagain]
    | relative rest =>
        have hfolded := folded_names q
        simp only [hfamily] at hfolded
        have hnot : hasUpperDrive (joinNames (Family.relative rest).names) = false := by
          have hname := hstable.relative rest hfamily
          have hroot : (Family.relative rest).root = [] := rfl
          rw [Family.firstName, hfamily, if_pos hroot] at hname
          cases hnames : (Family.relative rest).names with
          | nil => rfl
          | cons n names =>
              rw [hnames] at hname hfolded
              rwa [hasUpperDrive_joinNames hfolded.kept]
        have htext : (Family.relative rest).text = joinNames (Family.relative rest).names := rfl
        rw [htext, hnot, if_neg Bool.false_ne_true, text_joinNames hfolded hnot]

def endsOpen (t : Text) : Bool := t.getLast?.all fun c => c = '/' || c = '\\'

def joinPath (root r : Text) : Text := if endsOpen root then root ++ r else root ++ '/' :: r

/-- What `toLowerCase` does to paths: names are lowered one by one, and no character is lost. -/
structure Lowering where
  toLowerCase : Text → Text
  slash : ∀ t u, toLowerCase (t ++ '/' :: u) = toLowerCase t ++ '/' :: toLowerCase u
  names : ∀ t, '/' ∉ t → '/' ∉ toLowerCase t
  longer : ∀ t n, n ≠ [] → '/' ∉ t ++ n → (toLowerCase t).length < (toLowerCase (t ++ n)).length

/-- A path of one of the three families; one that starts like a share has one. -/
structure RepositoryRoot (root : Text) : Prop where
  trimmed : trim root = root
  rooted : ∀ rest, family (prepare root) ≠ .relative rest
  share : ['/', '/'] <+: prepare root → ∃ root' rest, family (prepare root) = .share root' rest

/-- A relative path without `..` that a second pass leaves as it is. -/
structure RelativePath (r : Text) : Prop where
  trimmed : trim r = r
  lines : (slashes r).any isLineTerminator = false
  relative : family (slashes r) = .relative (slashes r)
  lower : hasUpperDrive (slashes r) = false
  below : dotdot ∉ split (slashes r)
  stable : (family (slashes r)).Stable

theorem foldl_pushSegment (absolute : Bool) {segments : List Text} (h : dotdot ∉ segments) (done : List Text) :
    segments.foldl (pushSegment absolute) done =
      done ++ segments.filter fun n => decide (n ≠ [] ∧ n ≠ dot) := by
  induction segments generalizing done with
  | nil => simp
  | cons n segments ih =>
      rw [List.mem_cons, not_or] at h
      rw [List.foldl_cons, ih h.2, pushSegment]
      by_cases hempty : n = [] ∨ n = dot
      · rw [if_pos hempty, List.filter_cons_of_neg (by simpa [or_iff_not_imp_left] using hempty)]
      · rw [if_neg hempty, if_neg (Ne.symm h.1), List.filter_cons_of_pos (by simpa [not_or] using hempty),
          List.append_assoc, List.singleton_append]

theorem foldNames_append_slash {absolute : Bool} {t u : Text} (h : dotdot ∉ split u) :
    foldNames absolute (t ++ '/' :: u) = foldNames absolute t ++ foldNames false u := by
  rw [foldNames, split_append_slash, List.foldl_append, foldl_pushSegment absolute h, foldNames, foldNames,
    foldl_pushSegment false h, List.nil_append]

theorem foldNames_joinPath {rest s : Text} (hrest : '\\' ∉ rest) (h : dotdot ∉ split s) :
    foldNames true (joinPath rest s) = foldNames true rest ++ foldNames false s := by
  rw [joinPath]
  split_ifs with hopen
  · cases hlast : rest.getLast? with
    | none =>
        rw [List.getLast?_eq_none_iff.mp hlast]
        have hnil : foldNames true [] = [] := rfl
        rw [hnil, List.nil_append, List.nil_append, foldNames, foldNames, foldl_pushSegment true h,
          foldl_pushSegment false h]
    | some c =>
        obtain ⟨front, rfl⟩ := List.getLast?_eq_some_iff.mp hlast
        rw [endsOpen, hlast] at hopen
        obtain rfl : c = '/' := by
          rcases (by simpa using hopen : c = '/' ∨ c = '\\') with hc | rfl
          · exact hc
          · exact absurd (by simp) hrest
        have hfront := @foldNames_append_slash true front [] (by decide)
        have hnil : foldNames false [] = [] := rfl
        rw [hnil, List.append_nil] at hfront
        rw [List.append_assoc, List.singleton_append, foldNames_append_slash h, hfront]
  · exact foldNames_append_slash h

theorem joinPath_cons (c : Char) {t s : Text} (h : c = '/' ∨ t ≠ []) : joinPath (c :: t) s = c :: joinPath t s := by
  have hopen : endsOpen (c :: t) = endsOpen t := by
    rw [endsOpen, endsOpen]
    cases t with
    | nil =>
        obtain rfl := h.resolve_right (by simp)
        rfl
    | cons d t => rw [List.getLast?_cons_cons]
  rw [joinPath, joinPath, hopen]
  split_ifs <;> rfl

theorem joinPath_append (t : Text) {rest s : Text} (h : rest ≠ []) :
    joinPath (t ++ rest) s = t ++ joinPath rest s := by
  rw [joinPath, joinPath, endsOpen, getLast?_append_of_ne_nil h, endsOpen]
  split_ifs <;> simp

theorem endsOpen_share {root : Text} (h : IsShare root) (hslash : '\\' ∉ root) : ¬endsOpen root = true := by
  obtain ⟨server, share, -, hname, rfl⟩ := h.named
  have hlast : ('/' :: '/' :: (server ++ '/' :: share)).getLast? = share.getLast? := by
    have htext : '/' :: '/' :: (server ++ '/' :: share) = ('/' :: '/' :: (server ++ ['/'])) ++ share := by simp
    rw [htext, getLast?_append_of_ne_nil hname.ne_nil]
  rw [endsOpen, hlast]
  cases hshare : share.getLast? with
  | none => exact absurd (List.getLast?_eq_none_iff.mp hshare) hname.ne_nil
  | some c =>
      have hmem := List.mem_of_getLast? hshare
      intro hopen
      rcases (by simpa using hopen : c = '/' ∨ c = '\\') with rfl | rfl
      · exact hname.slash_notMem hmem
      · exact hslash (by simp [hmem])

theorem slashes_joinPath (root r : Text) : slashes (joinPath root r) = joinPath (slashes root) (slashes r) := by
  have hopen : endsOpen (slashes root) = endsOpen root := by
    rw [endsOpen, endsOpen, slashes, List.getLast?_map]
    cases root.getLast? with
    | none => rfl
    | some c => by_cases hc : c = '\\' <;> simp [hc]
  rw [joinPath, joinPath, hopen]
  split_ifs <;> simp [slashes]

theorem RepositoryRoot.ne_nil {root : Text} (h : RepositoryRoot root) : root ≠ [] := by
  rintro rfl
  exact h.rooted [] rfl

theorem trim_joinPath {root r : Text} (hroot : root ≠ []) (ht : trim root = root) (hr : trim r = r) :
    trim (joinPath root r) = joinPath root r := by
  have hroot' : BlankText.Trimmed isBlank root := BlankText.trimmed_iff.mpr ht
  have hr' : BlankText.Trimmed isBlank r := BlankText.trimmed_iff.mpr hr
  refine BlankText.trimmed_iff.mp ⟨fun c hc => hroot'.head c ?_, fun c hc => ?_⟩
  · rw [joinPath] at hc
    split_ifs at hc <;> rwa [List.head?_append_of_ne_nil _ hroot] at hc
  · by_cases hempty : r = []
    · rw [joinPath, hempty] at hc
      split_ifs at hc
      · rw [List.append_nil] at hc
        exact hroot'.last c hc
      · rw [List.getLast?_concat] at hc
        rw [← Option.some.inj hc]
        decide
    · have hlast : (joinPath root r).getLast? = r.getLast? := by
        rw [joinPath]
        split_ifs
        · exact getLast?_append_of_ne_nil hempty
        · rw [List.append_cons]
          exact getLast?_append_of_ne_nil hempty
      rw [hlast] at hc
      exact hr'.last c hc

theorem prepare_joinPath {root r : Text} (hroot : root ≠ []) (ht : trim root = root) (hr : trim r = r) :
    prepare (joinPath root r) = joinPath (prepare root) (slashes r) := by
  rw [prepare, prepare, trim_joinPath hroot ht hr, ht, slashes_joinPath]
  have hne : slashes root ≠ [] := by
    rw [slashes, ne_eq, List.map_eq_nil_iff]
    exact hroot
  generalize slashes root = w at *
  generalize slashes r = u
  cases w with
  | nil => exact absurd rfl hne
  | cons c w =>
    cases w with
    | nil =>
      have hsingle : hasUpperDrive [c] = false := rfl
      have hjoined : hasUpperDrive (joinPath [c] u) = false := by
        rw [joinPath]
        split_ifs with hopen
        · have hc : c.isUpper = false := by
            rcases (by simpa [endsOpen] using hopen : c = '/' ∨ c = '\\') with rfl | rfl <;> decide
          refine Bool.eq_false_iff.mpr fun htrue => ?_
          rw [(hasUpperDrive_eq htrue).1] at hc
          cases hc
        · exact Bool.eq_false_iff.mpr fun htrue => absurd (hasUpperDrive_eq htrue).2 (by simp)
      rw [hjoined, hsingle]
      rfl
    | cons d w =>
      rw [joinPath_cons c (.inr (List.cons_ne_nil d w))]
      have hsame : hasUpperDrive (c :: joinPath (d :: w) u) = hasUpperDrive (c :: d :: w) := by
        obtain ⟨tail, htail⟩ : ∃ tail, joinPath (d :: w) u = d :: tail := by
          rw [joinPath]
          split_ifs <;> exact ⟨_, rfl⟩
        rw [htail]
        by_cases hd : d = ':'
        · rw [hd]
          rfl
        · have hfalse : ∀ t : Text, hasUpperDrive (c :: d :: t) = false := fun t =>
            Bool.eq_false_iff.mpr fun htrue => hd (Option.some.inj (hasUpperDrive_eq htrue).2)
          rw [hfalse, hfalse]
      rw [hsame]
      split_ifs
      · rw [lowerFirst, lowerFirst, joinPath_cons _ (.inr (List.cons_ne_nil d w))]
      · rw [joinPath_cons c (.inr (List.cons_ne_nil d w))]

theorem text_joinPath {q s : Text} (hslash : '\\' ∉ q) (hrooted : ∀ rest, family q ≠ .relative rest)
    (hshare : ['/', '/'] <+: q → ∃ root rest, family q = .share root rest)
    (hlines : s.any isLineTerminator = false) (hhead : s.head? ≠ some '/') (hbelow : dotdot ∉ split s) :
    (family (joinPath q s)).text = (family q).root ++ joinNames ((family q).names ++ foldNames false s) := by
  have hjoined : ∀ rest : Text, rest.any isLineTerminator = false →
      (joinPath rest s).any isLineTerminator = false := by
    intro rest hrest
    rw [joinPath]
    split_ifs
    · rw [List.any_append, hrest, hlines]
      rfl
    · rw [List.any_append, hrest, List.any_cons, hlines]
      decide
  cases hfamily : family q with
  | relative rest => exact absurd hfamily (hrooted rest)
  | absolute rest =>
      have hq := eq_of_family_absolute hfamily
      have hrest : rest.head? ≠ some '/' := by
        intro hfirst
        obtain ⟨rest', hrest'⟩ : ∃ rest', rest = '/' :: rest' := by
          cases rest with
          | nil => cases hfirst
          | cons c rest' => exact ⟨rest', by rw [Option.some.inj hfirst]⟩
        obtain ⟨root, rest'', hno⟩ := hshare ⟨rest', by rw [hq, hrest']; rfl⟩
        rw [hfamily] at hno
        cases hno
      have hjoin : joinPath q s = '/' :: joinPath rest s := by rw [hq, joinPath_cons '/' (.inl rfl)]
      have hnext : (joinPath rest s).head? ≠ some '/' := by
        rw [joinPath]
        cases rest with
        | nil => exact hhead
        | cons c rest => split_ifs <;> exact hrest
      rw [hq] at hslash
      rw [hjoin, family_absolute hnext, Family.text, Family.root, Family.names, Family.root, Family.names,
        foldNames_joinPath (fun hmem => hslash (List.mem_cons_of_mem _ hmem)) hbelow]
  | drive root rest =>
      obtain ⟨letter, hroot, hletter, hq, hrest⟩ := driveMatch_eq_some (driveMatch_of_family hfamily)
      have hjoin : joinPath q s = [letter, ':', '/'] ++ joinPath rest s := by
        rw [hq, hroot]
        change joinPath (letter :: ':' :: '/' :: rest) s = _
        rw [joinPath_cons _ (.inr (by simp)), joinPath_cons _ (.inr (by simp)), joinPath_cons _ (.inl rfl)]
        rfl
      rw [hq] at hslash
      rw [hjoin, family_drive hletter (hjoined rest hrest), hroot, Family.text, Family.root, Family.names,
        Family.root, Family.names,
        foldNames_joinPath (fun hmem => hslash (List.mem_append_right _ hmem)) hbelow]
  | share root rest =>
      obtain ⟨hroot, tail, hq, htail, -⟩ := uncMatch_eq_some (uncMatch_of_family hfamily)
      have hrestMem : '\\' ∉ rest := by
        rcases remainder?_eq_some htail with ⟨-, rfl⟩ | ⟨rfl, -⟩
        · simp
        · exact fun hmem => hslash (by rw [hq]; simp [hmem])
      have hrestLines : rest.any isLineTerminator = false := by
        rcases remainder?_eq_some htail with ⟨-, rfl⟩ | ⟨-, hrest⟩
        · rfl
        · exact hrest
      have hjoin : joinPath q s = root ++ '/' :: joinPath rest s := by
        rcases remainder?_eq_some htail with ⟨rfl, rfl⟩ | ⟨rfl, -⟩
        · rw [List.append_nil] at hq
          rw [joinPath, if_neg]
          · rw [hq]
            rfl
          · rw [hq]
            rw [hq] at hslash
            exact endsOpen_share hroot hslash
        · rw [hq, joinPath_append root (List.cons_ne_nil _ _), joinPath_cons '/' (.inl rfl)]
      have hremainder : remainder? ('/' :: joinPath rest s) = some (joinPath rest s) := by
        rw [remainder?, hjoined rest hrestLines]
        rfl
      rw [hjoin, family_share hroot hremainder (by simp), Family.text, Family.root, Family.names, Family.root,
        Family.names, foldNames_joinPath hrestMem hbelow]

theorem Lowering.apart (lowering : Lowering) {base share n after : Text} (hshare : '/' ∉ share) (hn : Kept n)
    (hafter : after = [] ∨ ∃ rest, after = '/' :: rest) :
    lowering.toLowerCase (base ++ '/' :: (share ++ n ++ after)) ≠ lowering.toLowerCase (base ++ '/' :: share) ∧
      ¬lowering.toLowerCase (base ++ '/' :: share) ++ ['/'] <+:
        lowering.toLowerCase (base ++ '/' :: (share ++ n ++ after)) := by
  have hname : '/' ∉ share ++ n := by simp [hshare, hn.slash_notMem]
  have hlonger := lowering.longer share n hn.ne_nil hname
  have hplain := lowering.names _ hname
  obtain ⟨rest, hrest⟩ : ∃ rest, lowering.toLowerCase (share ++ n ++ after) =
      lowering.toLowerCase (share ++ n) ++ rest := by
    rcases hafter with rfl | ⟨rest, rfl⟩
    · exact ⟨[], by simp⟩
    · exact ⟨_, lowering.slash _ _⟩
  rw [lowering.slash, lowering.slash, hrest]
  constructor
  · intro heq
    have htails := (List.cons.inj (List.append_cancel_left heq)).2
    have hlength := congrArg List.length htails
    rw [List.length_append] at hlength
    omega
  · intro hbelow
    rw [List.append_assoc, List.prefix_append_right_inj, List.cons_append, List.cons_prefix_cons] at hbelow
    have hshorter := List.prefix_of_prefix_length_le hbelow.2 (List.prefix_append _ rest)
      (by rw [List.length_append]; exact hlonger)
    exact hplain (hshorter.subset (by simp))

theorem root_cases {q : Text} (hupper : hasUpperDrive q = false) (hrooted : ∀ rest, family q ≠ .relative rest) :
    (∃ base share, (family q).root = base ++ '/' :: share ∧ '/' ∉ share ∧
      ∀ t, usesWindowsPathSemantics ((family q).root ++ t) = true) ∨ (family q).root = ['/'] := by
  cases hfamily : family q with
  | relative rest => exact absurd hfamily (hrooted rest)
  | absolute rest => exact .inr rfl
  | share root rest =>
      obtain ⟨server, share, -, hname, hroot⟩ := (uncMatch_eq_some (uncMatch_of_family hfamily)).1.named
      refine .inl ⟨'/' :: '/' :: server, share, hroot, hname.slash_notMem, fun t => ?_⟩
      rw [Family.root, hroot]
      rfl
  | drive root rest =>
      obtain ⟨letter, rfl, hletter, hlower, -⟩ := letter_of_family hfamily hupper
      refine .inl ⟨[letter, ':'], [], ?_, by simp, fun t => ?_⟩
      · rw [Family.root, lowerFirst, toLower_eq_self hlower]
        rfl
      · rw [Family.root, lowerFirst, toLower_eq_self hlower]
        have hne : letter ≠ '/' := by
          rintro rfl
          exact absurd hletter (by decide)
        change usesWindowsPathSemantics (letter :: ':' :: '/' :: t) = true
        rw [usesWindowsPathSemantics.eq_def]
        split
        · next heq => exact absurd (List.cons.inj heq).1 hne
        · next heq =>
            obtain ⟨rfl, -⟩ := List.cons.inj heq
            exact hletter
        · next hno => exact absurd rfl (hno letter t)

theorem comparablePath_joinNames {names : List Text} (h : ∀ n ∈ names, Kept n) (toLowerCase : Text → Text) :
    comparablePath toLowerCase ('/' :: joinNames names) = '/' :: joinNames names := by
  have hhead := head?_joinNames_ne h
  rw [comparablePath, if_neg]
  rw [usesWindowsPathSemantics.eq_def]
  split
  · next heq =>
      rw [(List.cons.inj heq).2] at hhead
      exact absurd rfl hhead
  · next heq =>
      obtain ⟨rfl, -⟩ := List.cons.inj heq
      decide
  · exact Bool.false_ne_true

section Compare

variable (lowering : Lowering) {base : Text} {names below : List Text} (hbelow : ∀ n ∈ below, Kept n)
  (hempty : below ≠ [])
  (hcases : (∃ front share, base = front ++ '/' :: share ∧ '/' ∉ share ∧
    ∀ t, usesWindowsPathSemantics (base ++ t) = true) ∨ base = ['/'])

include hbelow hempty hcases

theorem compare_apart :
    comparablePath lowering.toLowerCase (base ++ joinNames below) ≠ comparablePath lowering.toLowerCase base ∧
      ¬(comparablePath lowering.toLowerCase base ++ ['/']).isPrefixOf
        (comparablePath lowering.toLowerCase (base ++ joinNames below)) = true := by
  rw [List.isPrefixOf_iff_prefix]
  obtain ⟨n, rest, rfl⟩ := List.exists_cons_of_ne_nil hempty
  rcases hcases with ⟨front, share, hbase, hshare, hwindows⟩ | rfl
  · obtain ⟨after, hafter, hshape⟩ : ∃ after, joinNames (n :: rest) = n ++ after ∧
        (after = [] ∨ ∃ rest, after = '/' :: rest) := by
      by_cases hrest : rest = []
      · exact ⟨[], by rw [hrest, joinNames_singleton, List.append_nil], .inl rfl⟩
      · exact ⟨_, joinNames_cons n hrest, .inr ⟨_, rfl⟩⟩
    have hroot := hwindows []
    rw [List.append_nil] at hroot
    have hapart := @Lowering.apart lowering front share n after hshare (hbelow n List.mem_cons_self) hshape
    have htext : base ++ joinNames (n :: rest) = front ++ '/' :: (share ++ n ++ after) := by
      rw [hafter, hbase]
      simp
    rw [comparablePath, if_pos (hwindows _), comparablePath, if_pos hroot, htext, hbase]
    exact hapart
  · have hhead := head?_joinNames_ne hbelow
    have hnil := @comparablePath_joinNames [] (by simp) lowering.toLowerCase
    have hroot : comparablePath lowering.toLowerCase ['/'] = ['/'] := hnil
    rw [List.singleton_append, comparablePath_joinNames hbelow, hroot]
    obtain ⟨after, hafter⟩ := exists_joinNames_first n rest
    have hn := (hbelow n List.mem_cons_self).ne_nil
    constructor
    · rw [hafter]
      simp [hn]
    · rintro ⟨t, ht⟩
      rw [← (List.cons.inj ht).2] at hhead
      exact hhead rfl

theorem compare_below (hnames : ∀ n ∈ names, Kept n) (hnone : names ≠ []) :
    ∃ tail, comparablePath lowering.toLowerCase (base ++ joinNames names ++ '/' :: joinNames below) =
      comparablePath lowering.toLowerCase (base ++ joinNames names) ++ '/' :: tail := by
  rcases hcases with ⟨front, share, -, -, hwindows⟩ | rfl
  · refine ⟨lowering.toLowerCase (joinNames below), ?_⟩
    have hfile := hwindows (joinNames names ++ '/' :: joinNames below)
    rw [← List.append_assoc] at hfile
    rw [comparablePath, if_pos hfile, comparablePath, if_pos (hwindows _), lowering.slash]
  · refine ⟨joinNames below, ?_⟩
    have hall : ∀ n ∈ names ++ below, Kept n := fun n hn =>
      (List.mem_append.mp hn).elim (hnames n) (hbelow n)
    have hfile := comparablePath_joinNames hall lowering.toLowerCase
    rw [joinNames_append hnone hempty] at hfile
    rw [List.singleton_append, comparablePath_joinNames hnames]
    exact hfile

end Compare

variable {root r : Text}

theorem normalizePathToken_relative (hr : RelativePath r) :
    normalizePathToken r = joinNames (foldNames false (slashes r)) := by
  have hprepare : prepare r = slashes r := by
    rw [prepare, hr.trimmed, hr.lower]
    rfl
  rw [normalizePathToken_eq, hprepare, hr.relative]
  rfl

theorem normalizeRepositoryPathToken_again (hr : RelativePath r) :
    normalizeRepositoryPathToken (joinNames (foldNames false (slashes r))) = normalizeRepositoryPathToken r := by
  have hprepare : prepare r = slashes r := by
    rw [prepare, hr.trimmed, hr.lower]
    rfl
  have hidem := (idempotent_iff r).mpr (by rw [hprepare]; exact hr.stable)
  rw [normalizePathToken_relative hr] at hidem
  rw [normalizeRepositoryPathToken, normalizeRepositoryPathToken, hidem, normalizePathToken_relative hr]

theorem below_iff (lowering : Lowering) (hroot : RepositoryRoot root) (hr : RelativePath r) :
    deriveRepositoryRelativePath lowering.toLowerCase (joinPath root r) (some root) =
        some (normalizeRepositoryPathToken r) ↔
      (family (prepare root)).names ≠ [] ∨ foldNames false (slashes r) = [] := by
  have hupper := hasUpperDrive_prepare root
  have hhead : (slashes r).head? ≠ some '/' := (eq_of_family_relative hr.relative).2
  have hfile : normalizePathToken (joinPath root r) = (family (prepare root)).root ++
      joinNames ((family (prepare root)).names ++ foldNames false (slashes r)) := by
    rw [normalizePathToken_eq, prepare_joinPath hroot.ne_nil hroot.trimmed hr.trimmed,
      text_joinPath (backslash_notMem_prepare root) hroot.rooted hroot.share hr.lines hhead hr.below]
  have hrootPath : normalizePathToken root = (family (prepare root)).root ++
      joinNames (family (prepare root)).names := normalizePathToken_eq root
  have hagain := normalizeRepositoryPathToken_again hr
  have hbelow := (folded_foldNames false (slashes r)).kept
  have hnames : ∀ n ∈ (family (prepare root)).names, Kept n := kept_names
  have hrootNe : (family (prepare root)).root ≠ [] := by
    rcases root_cases hupper hroot.rooted with ⟨base, share, heq, -⟩ | heq <;> rw [heq] <;> simp
  have hcases := root_cases hupper hroot.rooted
  have hderive : ∀ {R F : Text}, normalizePathToken root = R → normalizePathToken (joinPath root r) = F →
      R ≠ [] → F ≠ [] → deriveRepositoryRelativePath lowering.toLowerCase (joinPath root r) (some root) =
        if comparablePath lowering.toLowerCase F = comparablePath lowering.toLowerCase R then some []
        else if (comparablePath lowering.toLowerCase R ++ ['/']).isPrefixOf
          (comparablePath lowering.toLowerCase F) then
          some (normalizeRepositoryPathToken (F.drop (R.length + 1)))
        else none := by
    rintro R F rfl rfl hR hF
    rw [deriveRepositoryRelativePath]
    simp only [Option.map_some, Option.getD_some]
    rw [if_neg (not_or.mpr ⟨hR, hF⟩)]
  rw [hderive hrootPath hfile (by simp [hrootNe]) (by simp [hrootNe])]
  generalize foldNames false (slashes r) = below at *
  generalize (family (prepare root)).names = names at *
  generalize (family (prepare root)).root = base at *
  clear hderive hfile hrootPath hrootNe
  by_cases hempty : below = []
  · rw [hempty, List.append_nil, if_pos rfl, ← hagain, hempty]
    exact iff_of_true rfl (.inr rfl)
  by_cases hnone : names = []
  · rw [hnone, List.nil_append]
    refine iff_of_false ?_ (by simp [hempty])
    have hnil : joinNames [] = [] := rfl
    obtain ⟨hdiffer, hout⟩ := compare_apart lowering hbelow hempty hcases
    rw [hnil, List.append_nil, if_neg hdiffer, if_neg hout]
    exact (Option.some_ne_none _).symm
  · rw [joinNames_append hnone hempty, ← List.append_assoc]
    obtain ⟨tail, htail⟩ := compare_below lowering hbelow hempty hcases hnames hnone
    have hne : comparablePath lowering.toLowerCase (base ++ joinNames names) ++ '/' :: tail ≠
        comparablePath lowering.toLowerCase (base ++ joinNames names) := by simp
    have hstarts : (comparablePath lowering.toLowerCase (base ++ joinNames names) ++ ['/']).isPrefixOf
        (comparablePath lowering.toLowerCase (base ++ joinNames names) ++ '/' :: tail) = true :=
      List.isPrefixOf_iff_prefix.mpr ⟨tail, by simp⟩
    have hdrop : (base ++ joinNames names ++ '/' :: joinNames below).drop ((base ++ joinNames names).length + 1) =
        joinNames below := by
      rw [List.append_cons, ← List.length_singleton (a := '/'), ← List.length_append]
      exact List.drop_left
    rw [htail, if_neg hne, if_pos hstarts, hdrop, hagain]
    exact iff_of_true rfl (.inl hnone)

/-- A second pass leaves a path as it is and a root gives the path below it back exactly if
the folded path is stable, and the root has a name of its own or the path below has none. -/
theorem canonical_iff (lowering : Lowering) (value : Text) (hroot : RepositoryRoot root) (hr : RelativePath r) :
    (normalizePathToken (normalizePathToken value) = normalizePathToken value ∧
      deriveRepositoryRelativePath lowering.toLowerCase (joinPath root r) (some root) =
        some (normalizeRepositoryPathToken r)) ↔
    (family (prepare value)).Stable ∧
      ((family (prepare root)).names ≠ [] ∨ foldNames false (slashes r) = []) :=
  and_congr (idempotent_iff value) (below_iff lowering hroot hr)

def asciiLowering : Lowering where
  toLowerCase t := t.map Char.toLower
  slash t u := by simp
  names t h hmem := by
    obtain ⟨c, hc, hlower⟩ := List.mem_map.mp hmem
    cases hupper : c.isUpper with
    | true =>
        have halpha := isAlpha_toLower (isAlpha_of_isUpper hupper)
        rw [hlower] at halpha
        exact absurd halpha (by decide)
    | false =>
        rw [toLower_eq_self hupper] at hlower
        exact h (hlower ▸ hc)
  longer t n hn _ := by
    have := List.length_pos_iff.mpr hn
    simp only [List.length_map, List.length_append]
    omega

theorem canonical_repository :
    (normalizePathToken (normalizePathToken ['/', 'b']) = normalizePathToken ['/', 'b'] ∧
      deriveRepositoryRelativePath asciiLowering.toLowerCase (joinPath ['/', 'r'] ['a']) (some ['/', 'r']) =
        some (normalizeRepositoryPathToken ['a'])) ↔
    (family (prepare ['/', 'b'])).Stable ∧
      ((family (prepare ['/', 'r'])).names ≠ [] ∨ foldNames false (slashes ['a']) = []) := by
  have hroot : family (prepare ['/', 'r']) = .absolute ['r'] := rfl
  have hbelow : family (slashes ['a']) = .relative (slashes ['a']) := rfl
  have hnames : (Family.relative (slashes ['a'])).names = [['a']] := by decide
  refine canonical_iff asciiLowering ['/', 'b'] ⟨by decide, fun rest h => ?_, fun h => absurd h (by decide)⟩
    ⟨by decide, by decide, hbelow, by decide, by decide, ?_⟩
  · rw [hroot] at h
    cases h
  · rw [hbelow]
    have hfirst : (Family.relative (slashes ['a'])).firstName = ['a'] := by
      rw [Family.firstName, hnames]
      rfl
    have hlast : (Family.relative (slashes ['a'])).lastName = ['a'] := by
      rw [Family.lastName, hnames]
      rfl
    refine ⟨fun c hc => ?_, fun c hc => ?_, (by intros; contradiction), fun rest _ => ?_⟩
    · rw [hfirst] at hc
      obtain rfl := Option.some.inj hc
      decide
    · rw [hlast] at hc
      obtain rfl := Option.some.inj hc
      decide
    · rw [hfirst]
      rfl

theorem nothing_below_root :
    deriveRepositoryRelativePath asciiLowering.toLowerCase (joinPath ['/'] ['a']) (some ['/']) ≠
      some (normalizeRepositoryPathToken ['a']) := by
  decide

end DevPilot.SessionChanges
