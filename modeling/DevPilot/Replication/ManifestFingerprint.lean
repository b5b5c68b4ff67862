import DevPilot.Lib.MarkedLines
import DevPilot.Lib.Ties
import DevPilot.Replication.ManifestStream

/-!
Fingerprints of workspace manifests, and which manifests they tell apart.
-/

namespace DevPilot.Replication

open PathText Comparisons MarkedLines

/-- No line end in a text of the entry, and no tab in a path that another text follows. -/
def WorkspaceManifestEntry.Unambiguous : WorkspaceManifestEntry → Prop
  | directory path => '\n' ∉ path
  | file path digest _ _ => '\n' ∉ path ∧ '\n' ∉ digest ∧ '\t' ∉ path
  | symlink path target => '\n' ∉ path ∧ '\n' ∉ target ∧ '\t' ∉ path

namespace ManifestFingerprint

/-- The collation of paths, and a hash without collisions. -/
structure Host where
  localeCompare : Text → Text → Ordering
  collation : Collation localeCompare
  sha256 : Text → Text
  injective : Function.Injective sha256

variable (host : Host)

def compareByRelativePath (left right : WorkspaceManifestEntry) : Ordering :=
  host.localeCompare left.relativePath right.relativePath

def manifestVersion : Text := "workspace-manifest-v1\n".toList

def fingerprintWorkspaceManifest (entries : List WorkspaceManifestEntry) : Text :=
  let canonicalEntries := sort (compareByRelativePath host) entries
  fingerprintPrefix ++ host.sha256
    (manifestVersion ++ unlines '\n' (canonicalEntries.map serializeWorkspaceManifestEntry))

def SameEntries (left right : List WorkspaceManifestEntry) : Prop := ∀ e, e ∈ left ↔ e ∈ right

/-- The fingerprints of two manifests agree exactly if their entries do. -/
def Identifies (left right : List WorkspaceManifestEntry) : Prop :=
  fingerprintWorkspaceManifest host left = fingerprintWorkspaceManifest host right ↔
    SameEntries left right

/-- The entries come the same number of times, and those whose paths collate alike in the
same order. -/
def SameArrangement (left right : List WorkspaceManifestEntry) : Prop :=
  left.Perm right ∧ ∀ e ∈ left, left.filter (Collation.tied (compareByRelativePath host) e) =
    right.filter (Collation.tied (compareByRelativePath host) e)

variable {host}

theorem append_tab_injective {path path' rest rest' : Text} (h : '\t' ∉ path) (h' : '\t' ∉ path')
    (heq : path ++ '\t' :: rest = path' ++ '\t' :: rest') : path = path' := by
  have htake : ∀ {p r : Text}, '\t' ∉ p → (p ++ '\t' :: r).takeWhile (· ≠ '\t') = p := by
    intro p r hp
    rw [List.takeWhile_append_of_pos]
    · simp
    · intro c hc
      rw [decide_eq_true_iff]
      rintro rfl
      exact hp hc
  rw [← @htake path rest h, heq, htake h']

theorem serialize_injective {a b : WorkspaceManifestEntry} (ha : a.Unambiguous) (hb : b.Unambiguous)
    (h : serializeWorkspaceManifestEntry a = serializeWorkspaceManifestEntry b) : a = b := by
  refine eq_of_areEntriesEquivalent ?_ (decide_eq_true h)
  have hkind := congrArg List.head? h
  rw [head?_serializeWorkspaceManifestEntry, head?_serializeWorkspaceManifestEntry] at hkind
  cases a with
  | directory p =>
      cases b with
      | directory q => exact List.append_cancel_left h
      | symlink q u => simp at hkind
      | file q d n x => simp at hkind
  | symlink p t =>
      cases b with
      | directory q => simp at hkind
      | symlink q u => exact append_tab_injective ha.2.2 hb.2.2 (List.append_cancel_left h)
      | file q d n x => simp at hkind
  | file p d n x =>
      cases b with
      | directory q => simp at hkind
      | symlink q u => simp at hkind
      | file q d' n' x' => exact append_tab_injective ha.2.2 hb.2.2 (List.append_cancel_left h)

theorem newline_notMem_serialize {e : WorkspaceManifestEntry} (h : e.Unambiguous) :
    '\n' ∉ serializeWorkspaceManifestEntry e := by
  have hdigits (n : Nat) : '\n' ∉ Nat.toDigits 10 n := fun hmem =>
    absurd (DottedIds.isDigit_toDigits hmem) (by decide)
  have hflag (x : Bool) : '\n' ≠ if x then '1' else '0' := by cases x <;> decide
  cases e with
  | directory p =>
      rw [serializeWorkspaceManifestEntry, List.mem_append, not_or]
      exact ⟨by decide, h⟩
  | symlink p t =>
      rw [serializeWorkspaceManifestEntry]
      simp only [List.mem_append, List.mem_cons, not_or]
      exact ⟨by decide, h.1, by decide, h.2.1⟩
  | file p d n x =>
      rw [serializeWorkspaceManifestEntry]
      simp only [List.mem_append, List.mem_cons, List.not_mem_nil, or_false, not_or]
      exact ⟨by decide, h.1, by decide, h.2.1, by decide, hdigits n, by decide, hflag x⟩

theorem map_serialize_injective {l m : List WorkspaceManifestEntry} (hl : ∀ e ∈ l, e.Unambiguous)
    (hm : ∀ e ∈ m, e.Unambiguous)
    (h : l.map serializeWorkspaceManifestEntry = m.map serializeWorkspaceManifestEntry) : l = m := by
  induction l generalizing m with
  | nil => exact (List.map_eq_nil_iff.mp h.symm).symm
  | cons a l ih =>
      cases m with
      | nil => cases h
      | cons b m =>
          obtain ⟨hfirst, hrest⟩ := List.cons.inj h
          rw [serialize_injective (hl a List.mem_cons_self) (hm b List.mem_cons_self) hfirst,
            ih (fun e he => hl e (List.mem_cons_of_mem a he))
              (fun e he => hm e (List.mem_cons_of_mem b he)) hrest]

theorem sort_eq_of_fingerprint {left right : List WorkspaceManifestEntry}
    (hleft : ∀ e ∈ left, e.Unambiguous) (hright : ∀ e ∈ right, e.Unambiguous)
    (h : fingerprintWorkspaceManifest host left = fingerprintWorkspaceManifest host right) :
    sort (compareByRelativePath host) left = sort (compareByRelativePath host) right := by
  have hplain : ∀ {entries : List WorkspaceManifestEntry}, (∀ e ∈ entries, e.Unambiguous) →
      ∀ e ∈ sort (compareByRelativePath host) entries, e.Unambiguous :=
    fun hentries e he => hentries e ((perm_sort _).mem_iff.mp he)
  have hlines : ∀ {entries : List WorkspaceManifestEntry}, (∀ e ∈ entries, e.Unambiguous) →
      ∀ l ∈ (sort (compareByRelativePath host) entries).map serializeWorkspaceManifestEntry, '\n' ∉ l := by
    intro entries hentries l hl
    obtain ⟨e, he, rfl⟩ := List.mem_map.mp hl
    exact newline_notMem_serialize (hplain hentries e he)
  have htexts := List.append_cancel_left (host.injective (List.append_cancel_left h))
  have hsplit := congrArg (List.splitOn '\n') htexts
  rw [splitOn_unlines (hlines hleft), splitOn_unlines (hlines hright)] at hsplit
  exact map_serialize_injective (hplain hleft) (hplain hright) (List.append_cancel_right hsplit)

theorem collation_relativePath : Collation (compareByRelativePath host) :=
  ⟨fun a b => host.collation.swap a.relativePath b.relativePath,
    fun a b c => host.collation.trans a.relativePath b.relativePath c.relativePath⟩

/-- The fingerprints of two manifests without ambiguous entries tell whether these are the
same exactly if same entries come in the same arrangement. -/
theorem identifies_iff {left right : List WorkspaceManifestEntry}
    (hleft : ∀ e ∈ left, e.Unambiguous) (hright : ∀ e ∈ right, e.Unambiguous) :
    Identifies host left right ↔ (SameEntries left right → SameArrangement host left right) := by
  constructor
  · intro hidentifies hsame
    have hsorted := sort_eq_of_fingerprint hleft hright (hidentifies.mpr hsame)
    have hperm : left.Perm right := (perm_sort left).symm.trans (hsorted ▸ perm_sort right)
    exact ⟨hperm, (collation_relativePath.sort_eq_iff hperm).mp hsorted⟩
  · intro harranged
    constructor
    · intro hfingerprint e
      have hsorted := sort_eq_of_fingerprint hleft hright hfingerprint
      rw [← (perm_sort left).mem_iff, hsorted, (perm_sort right).mem_iff]
    · intro hsame
      obtain ⟨hperm, htied⟩ := harranged hsame
      have hsorted := (collation_relativePath.sort_eq_iff hperm).mpr htied
      rw [fingerprintWorkspaceManifest, hsorted]
      rfl

/-- Paths in the order of their characters, and a hash that shows what it is of. -/
def plainHost : Host where
  localeCompare := compare
  collation := ⟨fun _ _ => Std.OrientedCmp.eq_swap, fun _ _ _ => Std.TransCmp.isLE_trans⟩
  sha256 := id
  injective := Function.injective_id

theorem identifies_reordered :
    Identifies plainHost [.directory ['b'], .symlink ['a'] ['b']] [.symlink ['a'] ['b'], .directory ['b']] ↔
      (SameEntries [.directory ['b'], .symlink ['a'] ['b']] [.symlink ['a'] ['b'], .directory ['b']] →
        SameArrangement plainHost [.directory ['b'], .symlink ['a'] ['b']]
          [.symlink ['a'] ['b'], .directory ['b']]) :=
  identifies_iff (by simp [WorkspaceManifestEntry.Unambiguous]) (by simp [WorkspaceManifestEntry.Unambiguous])

/-- A tab may belong to the path of a link or to its target, and a repeated entry counts. -/
theorem ambiguous_fingerprint :
    ¬∀ left right : List WorkspaceManifestEntry, left.all (·.accepted) → right.all (·.accepted) →
      Identifies plainHost left right := by
  intro h
  have hsame := (h [.symlink ['a'] ['b', '\t', 'c']] [.symlink ['a', '\t', 'b'] ['c']] (by decide)
    (by decide)).mp rfl
  have hmem := (hsame (.symlink ['a'] ['b', '\t', 'c'])).mp (List.mem_singleton_self _)
  simp at hmem

end ManifestFingerprint

end DevPilot.Replication
