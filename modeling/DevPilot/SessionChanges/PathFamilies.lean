import DevPilot.Lib.BlankText
import DevPilot.Lib.PathNames
import DevPilot.SessionChanges.RepositoryPaths

/-!
The families of paths that are canonicalized in their own ways: their roots, the names that
folding leaves, and the text of the two.
-/

namespace DevPilot.SessionChanges

open PathText
open UnifiedDiff (isLineTerminator)

/-- A name that folding a path leaves: not empty, no separator, not `.`. -/
structure Kept (name : Text) : Prop where
  ne_nil : name ≠ []
  slash_notMem : '/' ∉ name
  ne_dot : name ≠ dot

structure Folded (absolute : Bool) (names : List Text) : Prop where
  kept : ∀ n ∈ names, Kept n
  rooted : absolute = true → dotdot ∉ names
  up : names.IsChain fun n n' => n' = dotdot → n = dotdot

def foldNames (absolute : Bool) (remainder : Text) : List Text :=
  (split remainder).foldl (pushSegment absolute) []

theorem joinCanonicalPath_eq (root remainder : Text) (absolute : Bool) :
    joinCanonicalPath root remainder absolute =
      if foldNames absolute remainder = [] then root
      else if root = [] then joinNames (foldNames absolute remainder)
      else if root = ['/'] then '/' :: joinNames (foldNames absolute remainder)
      else root ++ joinNames (foldNames absolute remainder) := rfl

theorem Folded.pushSegment {absolute : Bool} {names : List Text} {name : Text} (h : Folded absolute names)
    (hname : '/' ∉ name) : Folded absolute (pushSegment absolute names name) := by
  rw [SessionChanges.pushSegment]
  by_cases hempty : name = [] ∨ name = dot
  · rw [if_pos hempty]
    exact h
  rw [if_neg hempty]
  rw [not_or] at hempty
  by_cases hup : name = dotdot
  · rw [if_pos hup]
    by_cases hback : names ≠ [] ∧ names.getLast? ≠ some dotdot
    · rw [if_pos hback]
      have hfront := List.dropLast_prefix names
      exact ⟨fun n hn => h.kept n (hfront.subset hn), fun habs hmem => h.rooted habs (hfront.subset hmem),
        h.up.prefix hfront⟩
    · rw [if_neg hback]
      cases absolute with
      | true => exact h
      | false =>
          refine ⟨fun n hn => ?_, by simp, List.isChain_append.mpr ⟨h.up, by simp, ?_⟩⟩
          · rcases List.mem_append.mp hn with hn | hn
            · exact h.kept n hn
            · obtain rfl := List.mem_singleton.mp hn
              exact ⟨by decide, by decide, by decide⟩
          · intro n hn n' _ _
            rw [not_and_or, not_not, not_not] at hback
            rcases hback with rfl | hlast
            · cases hn
            · rw [hlast] at hn
              exact (Option.some.inj hn).symm
  · rw [if_neg hup]
    refine ⟨fun n hn => ?_, fun habs hmem => ?_, List.isChain_append.mpr ⟨h.up, by simp, ?_⟩⟩
    · rcases List.mem_append.mp hn with hn | hn
      · exact h.kept n hn
      · obtain rfl := List.mem_singleton.mp hn
        exact ⟨hempty.1, hname, hempty.2⟩
    · rcases List.mem_append.mp hmem with hmem | hmem
      · exact h.rooted habs hmem
      · exact hup (List.mem_singleton.mp hmem).symm
    · intro n _ n' hn' heq
      obtain rfl := Option.some.inj hn'
      exact absurd heq hup

theorem folded_foldNames (absolute : Bool) (remainder : Text) :
    Folded absolute (foldNames absolute remainder) := by
  have hstep : ∀ (names : List Text) (segments : List Text), (∀ n ∈ segments, '/' ∉ n) →
      Folded absolute names → Folded absolute (segments.foldl (SessionChanges.pushSegment absolute) names) := by
    intro names segments hsegments h
    induction segments generalizing names with
    | nil => exact h
    | cons name segments ih =>
        exact ih _ (fun n hn => hsegments n (List.mem_cons_of_mem _ hn))
          (h.pushSegment (hsegments name List.mem_cons_self))
  exact hstep [] _ (fun n hn => slash_notMem_split hn) ⟨by simp, by simp, List.isChain_nil⟩

theorem foldNames_joinNames {absolute : Bool} {names : List Text} (h : Folded absolute names) :
    foldNames absolute (joinNames names) = names := by
  have hfold : ∀ (done rest : List Text), Folded absolute (done ++ rest) →
      rest.foldl (SessionChanges.pushSegment absolute) done = done ++ rest := by
    intro done rest hdone
    induction rest generalizing done with
    | nil => simp
    | cons n rest ih =>
        have hkept := hdone.kept n (by simp)
        have hpush : SessionChanges.pushSegment absolute done n = done ++ [n] := by
          rw [SessionChanges.pushSegment, if_neg (not_or.mpr ⟨hkept.ne_nil, hkept.ne_dot⟩)]
          by_cases hup : n = dotdot
          · subst hup
            have habs : absolute = false := Bool.eq_false_iff.mpr fun habs => hdone.rooted habs (by simp)
            have hback : ¬(done ≠ [] ∧ done.getLast? ≠ some dotdot) := by
              rintro ⟨hne, hlast⟩
              have hchain := (List.isChain_append.mp hdone.up).2.2
              refine hlast ?_
              rw [List.getLast?_eq_getLast_of_ne_nil hne] at hchain ⊢
              rw [hchain _ rfl dotdot rfl rfl]
            rw [if_pos rfl, if_neg hback, habs, if_neg Bool.false_ne_true]
          · rw [if_neg hup]
        rw [List.foldl_cons, hpush, ih _ (by rwa [List.append_assoc]), List.append_assoc]
        rfl
  by_cases hne : names = []
  · subst hne
    rfl
  rw [foldNames, split_joinNames hne fun n hn => (h.kept n hn).slash_notMem, hfold [] names h]
  rfl

theorem foldNames_sublist (absolute : Bool) (t : Text) : List.Sublist (foldNames absolute t) (split t) := by
  have hfold : ∀ (done rest : List Text),
      List.Sublist (rest.foldl (SessionChanges.pushSegment absolute) done) (done ++ rest) := by
    intro done rest
    induction rest generalizing done with
    | nil => simp
    | cons n rest ih =>
        have hpush : List.Sublist (SessionChanges.pushSegment absolute done n) (done ++ [n]) := by
          rw [SessionChanges.pushSegment]
          split_ifs with _ hup
          · exact List.sublist_append_left ..
          · exact (List.dropLast_sublist _).trans (List.sublist_append_left ..)
          · exact List.sublist_append_left ..
          · rw [hup]
          · exact List.Sublist.refl _
        refine (ih _).trans ?_
        rw [List.append_cons]
        exact hpush.append_right rest
  exact hfold [] (split t)

theorem length_foldNames_le (absolute : Bool) (t : Text) :
    (joinNames (foldNames absolute t)).length ≤ t.length :=
  (length_joinNames_le (foldNames_sublist absolute t)).trans_eq (by rw [joinNames_split])

/-- What `canonicalizePath` takes a path for, and what is left to fold. -/
inductive Family
  | share (root rest : Text)
  | drive (root rest : Text)
  | absolute (rest : Text)
  | relative (rest : Text)

namespace Family

def root : Family → Text
  | share root _ => root
  | drive root _ => lowerFirst root
  | absolute _ => ['/']
  | relative _ => []

def names : Family → List Text
  | share _ rest | drive _ rest | absolute rest => foldNames true rest
  | relative rest => foldNames false rest

end Family

def family (path : Text) : Family :=
  match uncMatch path with
  | some (root, rest) => .share root rest
  | none =>
      match driveMatch path with
      | some (root, rest) => .drive root rest
      | none => if isAbsolute path then .absolute (path.drop 1) else .relative path

/-- A name as a regular expression takes it: up to the next separator. -/
structure IsSegment (name : Text) : Prop where
  ne_nil : name ≠ []
  slash_notMem : '/' ∉ name

theorem name?_append {name rest : Text} (h : IsSegment name) (hrest : ∀ c ∈ rest.head?, c = '/') :
    name? (name ++ rest) = some (name, rest) := by
  have htake : (name ++ rest).takeWhile (· ≠ '/') = name := by
    rw [List.takeWhile_append_of_pos fun c hc => by
      rw [decide_eq_true_iff]
      rintro rfl
      exact h.slash_notMem hc]
    cases rest with
    | nil => simp
    | cons c rest => rw [List.takeWhile_cons_of_neg (by simp [hrest c rfl]), List.append_nil]
  simp only [name?, htake, if_neg h.ne_nil, List.drop_left]

theorem name?_eq_some {t name rest : Text} (h : name? t = some (name, rest)) :
    IsSegment name ∧ t = name ++ rest ∧ ∀ c ∈ rest.head?, c = '/' := by
  have hsplit := @List.takeWhile_append_dropWhile _ (fun c => decide (c ≠ '/')) t
  have hdrop : t.drop (t.takeWhile (· ≠ '/')).length = t.dropWhile (· ≠ '/') := by
    have hleft := congrArg (List.drop (t.takeWhile (· ≠ '/')).length) hsplit
    rw [List.drop_left] at hleft
    exact hleft.symm
  rw [name?] at h
  simp only [hdrop] at h
  split_ifs at h with hne
  obtain ⟨rfl, rfl⟩ := Prod.mk.inj (Option.some.inj h)
  refine ⟨⟨hne, fun hmem => ?_⟩, hsplit.symm, fun c hc => ?_⟩
  · simpa using List.all_eq_true.mp List.all_takeWhile _ hmem
  · have := List.head?_dropWhile_not (· ≠ '/') t
    rw [Option.mem_def.mp hc] at this
    simpa using this

structure IsShare (root : Text) : Prop where
  named : ∃ server share, IsSegment server ∧ IsSegment share ∧ root = '/' :: '/' :: (server ++ '/' :: share)

theorem uncMatch_of_isShare {root : Text} (h : IsShare root) {tail rest : Text}
    (htail : remainder? tail = some rest) (hhead : ∀ c ∈ tail.head?, c = '/') :
    uncMatch (root ++ tail) = some (root, rest) := by
  obtain ⟨server, share, hserver, hshare, rfl⟩ := h.named
  have hfirst := @name?_append server ('/' :: (share ++ tail)) hserver (by simp)
  have hsecond := name?_append hshare hhead
  have htext : '/' :: '/' :: (server ++ '/' :: share) ++ tail =
      '/' :: '/' :: (server ++ '/' :: (share ++ tail)) := by simp
  rw [htext, uncMatch]
  simp [hfirst, hsecond, htail]

theorem uncMatch_eq_some {path root rest : Text} (h : uncMatch path = some (root, rest)) :
    IsShare root ∧ ∃ tail, path = root ++ tail ∧ remainder? tail = some rest ∧ ∀ c ∈ tail.head?, c = '/' := by
  rw [uncMatch.eq_def] at h
  split at h
  · next t =>
      obtain ⟨⟨server, t₁⟩, hserver, hshared⟩ := Option.bind_eq_some_iff.mp h
      obtain ⟨hserverName, ht, -⟩ := name?_eq_some hserver
      dsimp only at hshared
      split at hshared
      · next t₂ =>
          obtain ⟨⟨share, t₃⟩, hshare, hrest⟩ := Option.bind_eq_some_iff.mp hshared
          obtain ⟨hshareName, ht₂, hhead⟩ := name?_eq_some hshare
          obtain ⟨rest', hrest', heq⟩ := Option.bind_eq_some_iff.mp hrest
          obtain ⟨rfl, rfl⟩ := Prod.mk.inj (Option.some.inj heq)
          refine ⟨⟨server, share, hserverName, hshareName, rfl⟩, t₃, ?_, hrest', hhead⟩
          rw [ht, ht₂]
          simp
      · cases hshared
  · cases h

theorem remainder?_eq_some {tail rest : Text} (h : remainder? tail = some rest) :
    (tail = [] ∧ rest = []) ∨ (tail = '/' :: rest ∧ rest.any isLineTerminator = false) := by
  rw [remainder?.eq_def] at h
  split at h
  · exact .inl ⟨rfl, (Option.some.inj h).symm⟩
  · split_ifs at h with hline
    obtain rfl := Option.some.inj h
    exact .inr ⟨rfl, by simpa using hline⟩
  · cases h

theorem driveMatch_eq_some {path root rest : Text} (h : driveMatch path = some (root, rest)) :
    ∃ letter, root = [letter, ':', '/'] ∧ isDriveLetter letter = true ∧
      path = root ++ rest ∧ rest.any isLineTerminator = false := by
  rw [driveMatch.eq_def] at h
  split at h
  · next letter rest' =>
      split_ifs at h with hletter
      obtain ⟨rfl, rfl⟩ := Prod.mk.inj (Option.some.inj h)
      rw [Bool.and_eq_true, Bool.not_eq_true'] at hletter
      exact ⟨letter, rfl, hletter.1, rfl, hletter.2⟩
  · cases h

theorem driveMatch_append {letter : Char} {rest : Text} (hletter : isDriveLetter letter = true)
    (hrest : rest.any isLineTerminator = false) :
    driveMatch ([letter, ':', '/'] ++ rest) = some ([letter, ':', '/'], rest) := by
  simp [driveMatch, hletter, hrest]

theorem canonicalizePath_eq (path : Text) :
    canonicalizePath path = (family path).root ++ joinNames (family path).names := by
  have hnil : joinNames [] = [] := rfl
  rw [canonicalizePath, family]
  cases hunc : uncMatch path with
  | some m =>
      obtain ⟨root, rest⟩ := m
      obtain ⟨server, share, -, -, rfl⟩ := (uncMatch_eq_some hunc).1.named
      simp only [joinCanonicalPath_eq, Family.root, Family.names]
      split_ifs with h₁ h₂ h₃
      · rw [h₁, hnil, List.append_nil]
      · cases h₂
      · cases h₃
      · rfl
  | none =>
      cases hdrive : driveMatch path with
      | some m =>
          obtain ⟨root, rest⟩ := m
          obtain ⟨letter, rfl, -⟩ := driveMatch_eq_some hdrive
          simp only [joinCanonicalPath_eq, Family.root, Family.names, lowerFirst]
          split_ifs with h₁ h₂ h₃
          · rw [h₁, hnil, List.append_nil]
          · cases h₂
          · exact absurd (congrArg List.length h₃) (by simp)
          · rfl
      | none =>
          dsimp only
          split_ifs with habs
          · simp only [joinCanonicalPath_eq, Family.root, Family.names]
            by_cases h₁ : foldNames true (path.drop 1) = []
            · rw [if_pos h₁, h₁, hnil, List.append_nil]
            · rw [if_neg h₁, if_neg (List.cons_ne_nil _ _), if_pos trivial, List.singleton_append]
          · simp only [joinCanonicalPath_eq, Family.root, Family.names]
            by_cases h₁ : foldNames false path = []
            · rw [if_pos h₁, h₁, hnil, List.append_nil]
            · rw [if_neg h₁, if_pos trivial, List.nil_append]

theorem not_isUpper_toLower (c : Char) : c.toLower.isUpper = false := by
  unfold Char.toLower Char.isUpper
  split_ifs with h
  · simp only [ge_iff_le, Bool.decide_and, Bool.and_eq_false_iff, decide_eq_false_iff_not]
    obtain ⟨h₁, h₂⟩ := h
    simp only [UInt32.le_iff_toNat_le, UInt32.toNat_add] at *
    right
    have h₁' : 65 ≤ c.val.toNat := h₁
    have h₂' : c.val.toNat ≤ 90 := h₂
    show ¬ (c.val.toNat + 32) % 2 ^ 32 ≤ 90
    omega
  · simpa using h

theorem toLower_eq_self {c : Char} (h : c.isUpper = false) : c.toLower = c := by
  unfold Char.toLower
  unfold Char.isUpper at h
  split_ifs with hc
  · simp at h
    exact absurd (h hc.1) (by simpa using hc.2)
  · rfl

theorem isAlpha_of_isUpper {c : Char} (h : c.isUpper = true) : c.isAlpha = true := by
  unfold Char.isAlpha
  simp [h]

theorem isAlpha_toLower {c : Char} (h : c.isAlpha = true) : c.toLower.isAlpha = true := by
  unfold Char.toLower
  split_ifs with hc
  · unfold Char.isAlpha Char.isLower
    simp only [Bool.or_eq_true, Bool.and_eq_true, decide_eq_true_eq]
    right
    obtain ⟨h₁, h₂⟩ := hc
    simp only [ge_iff_le, UInt32.le_iff_toNat_le, UInt32.toNat_add] at *
    have h₁' : 65 ≤ c.val.toNat := h₁
    have h₂' : c.val.toNat ≤ 90 := h₂
    change 97 ≤ (c.val.toNat + 32) % 2 ^ 32 ∧ (c.val.toNat + 32) % 2 ^ 32 ≤ 122
    omega
  · exact h

theorem folded_names (path : Text) :
    Folded (match family path with | .relative _ => false | _ => true) (family path).names := by
  cases family path <;> exact folded_foldNames _ _

theorem kept_names {path : Text} : ∀ n ∈ (family path).names, Kept n := (folded_names path).kept

namespace Family

def text (f : Family) : Text := f.root ++ joinNames f.names

/-- The last name, or the root where there is none. -/
def lastName (f : Family) : Text := f.names.getLast?.getD f.root

/-- The root, or the first name where there is none. -/
def firstName (f : Family) : Text := if f.root = [] then f.names.headD [] else f.root

/-- The folded path starts and ends with what `trim` keeps; a share has one name at most, and
the first name of a relative path does not look like a drive in capitals. -/
structure Stable (f : Family) : Prop where
  starts : ∀ c ∈ f.firstName.head?, isBlank c = false
  ends : ∀ c ∈ f.lastName.getLast?, isBlank c = false
  share : ∀ root rest, f = share root rest → f.names.length ≤ 1
  relative : ∀ rest, f = relative rest → hasUpperDrive f.firstName = false

end Family

theorem head?_text {f : Family} (h : ∀ n ∈ f.names, Kept n) : f.text.head? = f.firstName.head? := by
  rw [Family.text, Family.firstName]
  by_cases hroot : f.root = []
  · rw [if_pos hroot, hroot, List.nil_append]
    cases hnames : f.names with
    | nil => rfl
    | cons n names =>
        obtain ⟨after, hafter⟩ := exists_joinNames_first n names
        have hn := (h n (by simp [hnames])).ne_nil
        rw [hafter, List.head?_append_of_ne_nil _ hn]
        rfl
  · rw [if_neg hroot, List.head?_append_of_ne_nil _ hroot]

theorem getLast?_text {f : Family} (h : ∀ n ∈ f.names, Kept n) : f.text.getLast? = f.lastName.getLast? := by
  rw [Family.text, Family.lastName]
  cases hlast : f.names.getLast? with
  | none =>
      rw [List.getLast?_eq_none_iff.mp hlast]
      simp [joinNames, List.intercalate]
  | some n =>
      obtain ⟨before, hbefore⟩ := exists_joinNames_last hlast
      have hn := (h n (List.mem_of_getLast? hlast)).ne_nil
      rw [hbefore, ← List.append_assoc, getLast?_append_of_ne_nil hn]
      rfl

theorem trim_text_iff {f : Family} (h : ∀ n ∈ f.names, Kept n) :
    trim f.text = f.text ↔
      (∀ c ∈ f.firstName.head?, isBlank c = false) ∧ ∀ c ∈ f.lastName.getLast?, isBlank c = false := by
  have htrim : trim f.text = f.text ↔ BlankText.Trimmed isBlank f.text := BlankText.trimmed_iff.symm
  rw [htrim, ← head?_text h, ← getLast?_text h]
  exact ⟨fun ht => ⟨ht.head, ht.last⟩, fun ht => ⟨ht.1, ht.2⟩⟩

theorem uncMatch_eq_none {path : Text} (h : ¬['/', '/'] <+: path) : uncMatch path = none := by
  cases hunc : uncMatch path with
  | none => rfl
  | some m =>
      obtain ⟨⟨server, share, -, -, hroot⟩, tail, rfl, -⟩ := uncMatch_eq_some hunc
      exact absurd ⟨server ++ '/' :: share ++ tail, by rw [hroot]; simp⟩ h

theorem driveMatch_eq_none {path : Text} (h : path.head? = some '/') : driveMatch path = none := by
  cases hdrive : driveMatch path with
  | none => rfl
  | some m =>
      obtain ⟨letter, hroot, hletter, hpath, -⟩ := driveMatch_eq_some hdrive
      rw [hpath, hroot] at h
      obtain rfl := Option.some.inj h
      exact absurd hletter (by decide)

theorem family_share {root tail rest : Text} (h : IsShare root) (htail : remainder? tail = some rest)
    (hhead : ∀ c ∈ tail.head?, c = '/') : family (root ++ tail) = .share root rest := by
  rw [family, uncMatch_of_isShare h htail hhead]

theorem family_drive {letter : Char} {rest : Text} (hletter : isDriveLetter letter = true)
    (hrest : rest.any isLineTerminator = false) :
    family ([letter, ':', '/'] ++ rest) = .drive [letter, ':', '/'] rest := by
  have hunc : uncMatch ([letter, ':', '/'] ++ rest) = none := uncMatch_eq_none fun hslash => by
    obtain ⟨rfl, -⟩ := List.cons_prefix_cons.mp hslash
    exact absurd hletter (by decide)
  rw [family, hunc, driveMatch_append hletter hrest]

theorem family_absolute {t : Text} (h : t.head? ≠ some '/') : family ('/' :: t) = .absolute t := by
  have hunc : uncMatch ('/' :: t) = none := uncMatch_eq_none fun hslash => by
    obtain ⟨rest, hrest⟩ := (List.cons_prefix_cons.mp hslash).2
    exact h (by rw [← hrest]; rfl)
  rw [family, hunc, driveMatch_eq_none rfl]
  rfl

theorem Folded.tail {absolute : Bool} {n : Text} {names : List Text} (h : Folded absolute (n :: names))
    (hn : n ≠ dotdot) : Folded true names := by
  have hnone : ∀ {n : Text} {names : List Text}, (n :: names).IsChain (fun n n' => n' = dotdot → n = dotdot) →
      n ≠ dotdot → dotdot ∉ names := by
    intro n names hchain hn
    induction names generalizing n with
    | nil => simp
    | cons n' names ih =>
        obtain ⟨hnext, hrest⟩ := List.isChain_cons_cons.mp hchain
        have hn' : n' ≠ dotdot := fun heq => hn (hnext heq)
        rw [List.mem_cons, not_or]
        exact ⟨fun heq => hn' heq.symm, ih hrest hn'⟩
  exact ⟨fun m hm => h.kept m (List.mem_cons_of_mem n hm), fun _ => hnone h.up hn, h.up.tail⟩

theorem head?_joinNames_ne {names : List Text} (h : ∀ n ∈ names, Kept n) : (joinNames names).head? ≠ some '/' := by
  cases names with
  | nil => simp [joinNames, List.intercalate]
  | cons n names =>
      obtain ⟨after, hafter⟩ := exists_joinNames_first n names
      have hn := h n List.mem_cons_self
      rw [hafter, List.head?_append_of_ne_nil _ hn.ne_nil]
      exact fun hhead => hn.slash_notMem (List.mem_of_mem_head? hhead)

theorem mem_foldNames {c : Char} {absolute : Bool} {t : Text} (h : c ∈ joinNames (foldNames absolute t)) :
    c = '/' ∨ c ∈ t := by
  rcases mem_joinNames h with h | ⟨n, hn, hc⟩
  · exact .inl h
  · exact .inr (mem_of_mem_split ((foldNames_sublist absolute t).subset hn) c hc).1

theorem any_joinNames {absolute : Bool} {t : Text} (h : t.any isLineTerminator = false) :
    (joinNames (foldNames absolute t)).any isLineTerminator = false := by
  rw [List.any_eq_false] at h ⊢
  intro c hc
  rcases mem_foldNames hc with rfl | hc
  · decide
  · exact h c hc

theorem stripTrailingPathSeparator_eq {t : Text} (h : ∀ c ∈ t.getLast?, c ≠ '/') :
    stripTrailingPathSeparator t = t := by
  have hkeep : t.reverse.dropWhile (· = '/') = t.reverse := by
    cases hrev : t.reverse with
    | nil => rfl
    | cons c rest =>
        refine List.dropWhile_cons_of_neg ?_
        have hlast : t.getLast? = some c := by rw [← List.head?_reverse, hrev]; rfl
        simpa using h c hlast
  rw [stripTrailingPathSeparator, hkeep, List.reverse_reverse, ite_self]

theorem uncMatch_of_family {path root rest : Text} (h : family path = .share root rest) :
    uncMatch path = some (root, rest) := by
  rw [family] at h
  cases hunc : uncMatch path with
  | some m =>
      rw [hunc] at h
      obtain ⟨rfl, rfl⟩ := Family.share.inj h
      rfl
  | none =>
      rw [hunc] at h
      dsimp only at h
      split at h
      · cases h
      · split_ifs at h

theorem driveMatch_of_family {path root rest : Text} (h : family path = .drive root rest) :
    driveMatch path = some (root, rest) := by
  rw [family] at h
  split at h
  · cases h
  · split at h
    · next hdrive =>
        obtain ⟨rfl, rfl⟩ := Family.drive.inj h
        exact hdrive
    · split_ifs at h

theorem eq_of_family_absolute {path rest : Text} (h : family path = .absolute rest) : path = '/' :: rest := by
  rw [family] at h
  split at h
  · cases h
  · split at h
    · cases h
    · split_ifs at h with habs
      obtain rfl := Family.absolute.inj h
      cases path with
      | nil => simp [isAbsolute] at habs
      | cons c t =>
          simp only [isAbsolute, List.head?_cons, Option.some.injEq, decide_eq_true_eq] at habs
          rw [habs]
          rfl

theorem eq_of_family_relative {path rest : Text} (h : family path = .relative rest) :
    path = rest ∧ path.head? ≠ some '/' := by
  rw [family] at h
  split at h
  · cases h
  · split at h
    · cases h
    · split_ifs at h with habs
      obtain rfl := Family.relative.inj h
      simp only [isAbsolute, decide_eq_true_eq] at habs
      exact ⟨rfl, habs⟩

theorem stripTrailingPathSeparator_text (path : Text) :
    stripTrailingPathSeparator (family path).text = (family path).text := by
  cases hlast : (family path).names.getLast? with
  | some n =>
      refine stripTrailingPathSeparator_eq fun c hc => ?_
      have hn := kept_names n (List.mem_of_getLast? hlast)
      rw [getLast?_text kept_names, Family.lastName, hlast] at hc
      rintro rfl
      exact hn.slash_notMem (List.mem_of_getLast? hc)
  | none =>
      have hnames := List.getLast?_eq_none_iff.mp hlast
      have htext : (family path).text = (family path).root := by
        rw [Family.text, hnames]
        exact List.append_nil _
      rw [htext]
      cases hfamily : family path with
      | share root rest =>
          have hshare := (uncMatch_eq_some (uncMatch_of_family hfamily)).1
          have hunc := @uncMatch_of_isShare root hshare [] [] rfl (by simp)
          rw [List.append_nil] at hunc
          have hroot : isShareRoot root = true := by simp [isShareRoot, hunc]
          rw [Family.root, stripTrailingPathSeparator, if_pos (.inr (.inr hroot))]
      | drive root rest =>
          obtain ⟨letter, rfl, hletter, -⟩ := driveMatch_eq_some (driveMatch_of_family hfamily)
          have hroot : isDriveRoot (lowerFirst [letter, ':', '/']) = true := isAlpha_toLower hletter
          rw [Family.root, stripTrailingPathSeparator, if_pos (.inr (.inl hroot))]
      | absolute rest => rfl
      | relative rest => rfl

/-- What `normalizePathToken` hands on to `canonicalizePath`. -/
def prepare (value : Text) : Text :=
  let withForwardSlashes := slashes (trim value)
  if hasUpperDrive withForwardSlashes then lowerFirst withForwardSlashes else withForwardSlashes

theorem normalizePathToken_eq (value : Text) : normalizePathToken value = (family (prepare value)).text := by
  rw [normalizePathToken]
  by_cases hempty : trim value = []
  · rw [if_pos hempty, prepare, hempty]
    rfl
  · rw [if_neg hempty]
    change stripTrailingPathSeparator (canonicalizePath (prepare value)) = _
    rw [canonicalizePath_eq]
    exact stripTrailingPathSeparator_text _

end DevPilot.SessionChanges
