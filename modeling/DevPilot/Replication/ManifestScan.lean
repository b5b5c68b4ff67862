import DevPilot.Replication.ScannedPaths

/-!
The scan of a workspace: directory after directory, in the order in which they were found.
-/

namespace DevPilot.Replication

open PathText

mutual

inductive Node
  | directory (entries : Entries)
  | symlink (target : Text)
  | file (digest : Text) (sizeBytes : ℕ) (executable : Bool)
  | other

inductive Entries
  | nil
  | cons (name : Text) (node : Node) (rest : Entries)

end

namespace Entries

def toList : Entries → List (Text × Node)
  | nil => []
  | cons name node rest => (name, node) :: rest.toList

def directories : Entries → ℕ
  | nil => 0
  | cons _ (.directory entries) rest => entries.directories + 1 + rest.directories
  | cons _ _ rest => rest.directories

/-- What POSIX asks of a directory tree: names, and no name twice in a directory. -/
def WellFormed : Entries → Prop
  | nil => True
  | cons name (.directory entries) rest =>
      IsName name ∧ name ∉ rest.toList.map Prod.fst ∧ entries.WellFormed ∧ rest.WellFormed
  | cons name _ rest => IsName name ∧ name ∉ rest.toList.map Prod.fst ∧ rest.WellFormed

end Entries

abbrev Candidate := List Text × Node

structure ScanParams where
  workspaceRoot : List Text
  /-- `shouldFilterWorkspaceManifestPath` under the policy of the scan. -/
  shouldFilter : Text → Bool
  localeCompare : Text → Text → Ordering

def buildWorkspaceManifestEntry (relativePath : Text) (node : Node) : Except Text WorkspaceManifestEntry :=
  let traits := detectWorkspacePathTraits relativePath
  if traits.isRoot || traits.isAbsolute || traits.hasParentTraversal then
    .error "Workspace manifest path must stay within the workspace root".toList
  else match node with
    | .directory _ => .ok (.directory traits.normalizedPath)
    | .symlink target =>
        if trim target = [] then .error "Workspace manifest symlink entries require a target".toList
        else .ok (.symlink traits.normalizedPath target)
    | .file digest sizeBytes executable =>
        if trim digest = [] then .error "Workspace manifest file entries require a digest".toList
        else .ok (.file traits.normalizedPath digest sizeBytes executable)
    | .other => .error ("Unsupported workspace manifest entry kind for ".toList ++ traits.normalizedPath)

section scan

variable (p : ScanParams)

/-- One turn of the inner loop, which may add an entry. The path of what is scanned is kept
beside its entry. -/
def scanEntry (candidate : Candidate) : Except Text (Option (List Text × WorkspaceManifestEntry)) :=
  match resolveWorkspaceRelativePath p.workspaceRoot candidate.1 with
  | none => .error ("Scanned workspace path escaped root: ".toList ++ ['/'] ++ joinNames candidate.1)
  | some relativePath =>
      if p.shouldFilter relativePath then .ok none
      else match candidate.2 with
        | .other => .ok none
        | node => (buildWorkspaceManifestEntry relativePath node).map fun entry => some (candidate.1, entry)

/-- `shouldFilterWorkspaceManifestPath`, of a path that stays below the root. -/
def isFiltered (path : List Text) : Bool :=
  (resolveWorkspaceRelativePath p.workspaceRoot path).any p.shouldFilter

def candidates (directoryPath : List Text) (entries : Entries) : List Candidate :=
  (entries.toList.mergeSort fun left right => p.localeCompare left.1 right.1 != .gt).map fun entry =>
    (directoryPath ++ [entry.1], entry.2)

def pendingOf : Candidate → Option (List Text × Entries)
  | (path, .directory entries) => if isFiltered p path then none else some (path, entries)
  | _ => none

def scanEntries : List Candidate → Except Text (List (List Text × WorkspaceManifestEntry))
  | [] => .ok []
  | candidate :: rest => do
      let entry ← scanEntry p candidate
      let entries ← scanEntries rest
      return entry.toList ++ entries

/-- The loop over the pending directories. The first argument bounds the number of its turns. -/
def scanDirectories : ℕ → List (List Text × Entries) → Except Text (List (List Text × WorkspaceManifestEntry))
  | _, [] => .ok []
  | 0, _ :: _ => .error []
  | turns + 1, (directoryPath, entries) :: pending => do
      let found ← scanEntries p (candidates p directoryPath entries)
      let others ← scanDirectories turns (pending ++ (candidates p directoryPath entries).filterMap (pendingOf p))
      return found ++ others

def scanWorkspaceManifest (entries : Entries) : Except Text (List (List Text × WorkspaceManifestEntry)) := do
  let scanned ← scanDirectories p (entries.directories + 1) [(p.workspaceRoot, entries)]
  return scanned.mergeSort fun left right =>
    p.localeCompare left.2.relativePath right.2.relativePath != .gt

/-- Every entry leads back to what was scanned, and no two have one path. -/
def Faithful (entries : Entries) : Prop :=
  ∃ scanned, scanWorkspaceManifest p entries = .ok scanned ∧
    (scanned.map fun found => found.2.relativePath).Nodup ∧
    ∀ found ∈ scanned, resolve p.workspaceRoot found.2.relativePath = found.1

/-- The entries of a directory and of the directories below that are not filtered out. -/
def Entries.reached (directoryPath : List Text) : Entries → List Candidate
  | nil => []
  | cons name (.directory entries) rest =>
      (directoryPath ++ [name], .directory entries) ::
        ((if isFiltered p (directoryPath ++ [name]) then [] else entries.reached (directoryPath ++ [name])) ++
          rest.reached directoryPath)
  | cons name node rest => (directoryPath ++ [name], node) :: rest.reached directoryPath

def Node.HasContent : Node → Prop
  | .directory _ | .other => True
  | .symlink target => trim target ≠ []
  | .file digest _ _ => trim digest ≠ []

/-- What can be told in a manifest: filtered out, of a kind that is left out, or with a portable path. -/
def Tellable (candidate : Candidate) : Prop :=
  ∃ relativePath, resolveWorkspaceRelativePath p.workspaceRoot candidate.1 = some relativePath ∧
    (p.shouldFilter relativePath = true ∨ candidate.2 = .other ∨
      Portable (relative p.workspaceRoot candidate.1) ∧ candidate.2.HasContent)

end scan

variable {p : ScanParams}

def recorded (p : ScanParams) (candidate : Candidate) : Option (List Text × WorkspaceManifestEntry) :=
  (scanEntry p candidate).toOption.join

theorem scanEntries_ok {candidates : List Candidate}
    (h : ∀ candidate ∈ candidates, ∃ entry, scanEntry p candidate = .ok entry) :
    scanEntries p candidates = .ok (candidates.filterMap (recorded p)) := by
  induction candidates with
  | nil => rfl
  | cons candidate rest ih =>
      obtain ⟨⟨entry, hentry⟩, hrest⟩ := List.forall_mem_cons.mp h
      have hrecorded : recorded p candidate = entry := by rw [recorded, hentry]; rfl
      rw [scanEntries, hentry, ih hrest, List.filterMap_cons, hrecorded]
      cases entry <;> rfl

theorem of_scanEntries {candidates : List Candidate} {found : List (List Text × WorkspaceManifestEntry)}
    (h : scanEntries p candidates = .ok found) :
    ∀ candidate ∈ candidates, ∃ entry, scanEntry p candidate = .ok entry := by
  induction candidates generalizing found with
  | nil => simp
  | cons candidate rest ih =>
      rw [scanEntries] at h
      cases hentry : scanEntry p candidate with
      | error e => rw [hentry] at h; cases h
      | ok entry =>
          cases hrest : scanEntries p rest with
          | error e => rw [hentry, hrest] at h; cases h
          | ok others => exact List.forall_mem_cons.mpr ⟨⟨entry, hentry⟩, ih hrest⟩

/-- The entries of a directory as candidates, in the order of the tree. -/
def placed (directoryPath : List Text) (entries : Entries) : List Candidate :=
  entries.toList.map fun entry => (directoryPath ++ [entry.1], entry.2)

theorem candidates_perm (directoryPath : List Text) (entries : Entries) :
    (candidates p directoryPath entries).Perm (placed directoryPath entries) :=
  (List.mergeSort_perm _ _).map _

def reachedFrom (p : ScanParams) (pending : List (List Text × Entries)) : List Candidate :=
  pending.flatMap fun directory => directory.2.reached p directory.1

theorem reached_perm (directoryPath : List Text) (entries : Entries) :
    (entries.reached p directoryPath).Perm
      (placed directoryPath entries ++ reachedFrom p ((placed directoryPath entries).filterMap (pendingOf p))) := by
  rw [placed]
  fun_induction Entries.toList entries with
  | case1 => exact .nil
  | case2 name node rest ih =>
      rw [List.map_cons]
      cases node with
      | directory below =>
          rw [Entries.reached, List.cons_append]
          refine .cons _ ?_
          by_cases hfiltered : isFiltered p (directoryPath ++ [name]) = true
          · rw [if_pos hfiltered, List.nil_append, List.filterMap_cons_none (by simp [pendingOf, hfiltered])]
            exact ih
          · rw [if_neg hfiltered, List.filterMap_cons_some
              (b := (directoryPath ++ [name], below)) (by simp [pendingOf, hfiltered])]
            rw [reachedFrom, List.flatMap_cons]
            refine (ih.append_left _).trans ?_
            rw [← List.append_assoc, ← List.append_assoc]
            exact List.perm_append_comm.append_right _
      | _ =>
          rw [Entries.reached, List.cons_append, List.filterMap_cons_none rfl]
          · exact .cons _ ih
          · simp

theorem reachedFrom_append (pending pending' : List (List Text × Entries)) :
    reachedFrom p (pending ++ pending') = reachedFrom p pending ++ reachedFrom p pending' := List.flatMap_append

theorem reachedFrom_cons_perm (directoryPath : List Text) (entries : Entries) (pending : List (List Text × Entries)) :
    (reachedFrom p ((directoryPath, entries) :: pending)).Perm (candidates p directoryPath entries ++
      reachedFrom p (pending ++ (candidates p directoryPath entries).filterMap (pendingOf p))) := by
  have hcandidates := candidates_perm (p := p) directoryPath entries
  have hplaced := (hcandidates.filterMap (pendingOf p)).flatMap_right fun d => d.2.reached p d.1
  rw [reachedFrom_append]
  refine ((reached_perm directoryPath entries).append_right _).trans ?_
  rw [List.append_assoc]
  refine (hcandidates.symm.append ?_)
  exact List.perm_append_comm.trans (hplaced.symm.append_left _)

def turnsLeft (pending : List (List Text × Entries)) : ℕ := (pending.map fun d => d.2.directories + 1).sum

theorem turnsLeft_pending_le (directoryPath : List Text) (entries : Entries) :
    turnsLeft ((placed directoryPath entries).filterMap (pendingOf p)) ≤ entries.directories := by
  rw [placed]
  fun_induction Entries.toList entries with
  | case1 => exact le_rfl
  | case2 name node rest ih =>
      rw [List.map_cons]
      cases node with
      | directory below =>
          rw [Entries.directories]
          by_cases hfiltered : isFiltered p (directoryPath ++ [name]) = true
          · rw [List.filterMap_cons_none (by simp [pendingOf, hfiltered])]
            exact ih.trans (Nat.le_add_left _ _)
          · rw [List.filterMap_cons_some (b := (directoryPath ++ [name], below)) (by simp [pendingOf, hfiltered])]
            rw [turnsLeft, List.map_cons, List.sum_cons]
            exact Nat.add_le_add_left ih _
      | _ =>
          rw [Entries.directories, List.filterMap_cons_none rfl]
          · exact ih
          · simp

theorem turnsLeft_append (pending pending' : List (List Text × Entries)) :
    turnsLeft (pending ++ pending') = turnsLeft pending + turnsLeft pending' := by
  rw [turnsLeft, List.map_append, List.sum_append]
  rfl

theorem turnsLeft_next {directoryPath : List Text} {entries : Entries} {pending : List (List Text × Entries)}
    {turns : ℕ} (h : turnsLeft ((directoryPath, entries) :: pending) ≤ turns + 1) :
    turnsLeft (pending ++ (candidates p directoryPath entries).filterMap (pendingOf p)) ≤ turns := by
  have hperm : turnsLeft ((candidates p directoryPath entries).filterMap (pendingOf p)) =
      turnsLeft ((placed directoryPath entries).filterMap (pendingOf p)) :=
    (((candidates_perm directoryPath entries).filterMap _).map _).sum_eq
  have hadded := turnsLeft_pending_le (p := p) directoryPath entries
  rw [turnsLeft_append, hperm]
  rw [turnsLeft, List.map_cons, List.sum_cons] at h
  change entries.directories + 1 + turnsLeft pending ≤ turns + 1 at h
  omega

theorem scanDirectories_ok {turns : ℕ} {pending : List (List Text × Entries)} (hturns : turnsLeft pending ≤ turns)
    (h : ∀ candidate ∈ reachedFrom p pending, ∃ entry, scanEntry p candidate = .ok entry) :
    ∃ found, scanDirectories p turns pending = .ok found ∧
      found.Perm ((reachedFrom p pending).filterMap (recorded p)) := by
  induction turns generalizing pending with
  | zero =>
      cases pending with
      | nil => exact ⟨[], rfl, .nil⟩
      | cons directory pending =>
          rw [turnsLeft, List.map_cons, List.sum_cons] at hturns
          omega
  | succ turns ih =>
      cases pending with
      | nil => exact ⟨[], rfl, .nil⟩
      | cons directory pending =>
          obtain ⟨directoryPath, entries⟩ := directory
          have hperm := reachedFrom_cons_perm (p := p) directoryPath entries pending
          have hall := fun candidate hmem => h candidate (hperm.mem_iff.mpr hmem)
          obtain ⟨others, hothers, hfound⟩ := ih (turnsLeft_next hturns) fun candidate hmem =>
            hall candidate (List.mem_append_right _ hmem)
          refine ⟨(candidates p directoryPath entries).filterMap (recorded p) ++ others, ?_,
            (hfound.append_left _).trans ?_⟩
          · rw [scanDirectories, scanEntries_ok fun candidate hmem => hall candidate (List.mem_append_left _ hmem),
              hothers]
            rfl
          · rw [← List.filterMap_append]
            exact (hperm.filterMap _).symm

theorem of_scanDirectories {turns : ℕ} {pending : List (List Text × Entries)}
    {found : List (List Text × WorkspaceManifestEntry)} (h : scanDirectories p turns pending = .ok found) :
    ∀ candidate ∈ reachedFrom p pending, ∃ entry, scanEntry p candidate = .ok entry := by
  induction turns generalizing pending found with
  | zero =>
      cases pending with
      | nil => simp [reachedFrom]
      | cons directory pending => cases h
  | succ turns ih =>
      cases pending with
      | nil => simp [reachedFrom]
      | cons directory pending =>
          obtain ⟨directoryPath, entries⟩ := directory
          rw [scanDirectories] at h
          cases hfirst : scanEntries p (candidates p directoryPath entries) with
          | error e => rw [hfirst] at h; cases h
          | ok first =>
              cases hothers : scanDirectories p turns
                  (pending ++ (candidates p directoryPath entries).filterMap (pendingOf p)) with
              | error e => rw [hfirst, hothers] at h; cases h
              | ok others =>
                  intro candidate hmem
                  rcases List.mem_append.mp ((reachedFrom_cons_perm directoryPath entries pending).mem_iff.mp hmem)
                    with hmem | hmem
                  · exact of_scanEntries hfirst candidate hmem
                  · exact ih hothers candidate hmem

theorem Entries.WellFormed.of_cons {name : Text} {node : Node} {rest : Entries}
    (h : (Entries.cons name node rest).WellFormed) :
    IsName name ∧ name ∉ rest.toList.map Prod.fst ∧ rest.WellFormed := by
  cases node with
  | directory below => exact ⟨h.1, h.2.1, h.2.2.2⟩
  | _ => exact h

theorem path_of_reached {entries : Entries} {directoryPath : List Text} (hentries : entries.WellFormed)
    {candidate : Candidate} (hmem : candidate ∈ entries.reached p directoryPath) :
    ∃ name names, name ∈ entries.toList.map Prod.fst ∧ (∀ n ∈ name :: names, IsName n) ∧
      candidate.1 = directoryPath ++ name :: names := by
  fun_induction Entries.reached p directoryPath entries with
  | case1 => simp at hmem
  | case2 directoryPath name entries rest ihbelow ihrest =>
      obtain ⟨hname, -, hbelow, hrest⟩ := hentries
      rcases List.mem_cons.mp hmem with rfl | hmem
      · exact ⟨name, [], by simp [Entries.toList], by simpa using hname, rfl⟩
      rcases List.mem_append.mp hmem with hmem | hmem
      · split_ifs at hmem with hfiltered
        · cases hmem
        · obtain ⟨name', names, -, hnames, hpath⟩ := ihbelow hbelow hmem
          refine ⟨name, name' :: names, by simp [Entries.toList], List.forall_mem_cons.mpr ⟨hname, hnames⟩, ?_⟩
          rw [hpath, List.append_assoc]
          rfl
      · obtain ⟨name', names, hmem', hnames, hpath⟩ := ihrest hrest hmem
        exact ⟨name', names, List.mem_cons_of_mem _ hmem', hnames, hpath⟩
  | case3 directoryPath name node rest hnode ih =>
      obtain ⟨hname, -, hrest⟩ := hentries.of_cons
      rcases List.mem_cons.mp hmem with rfl | hmem
      · exact ⟨name, [], by simp [Entries.toList], by simpa using hname, rfl⟩
      · obtain ⟨name', names, hmem', hnames, hpath⟩ := ih hrest hmem
        exact ⟨name', names, List.mem_cons_of_mem _ hmem', hnames, hpath⟩

theorem path_ne_of_reached {directoryPath names : List Text} {name : Text} {rest : Entries} (hrest : rest.WellFormed)
    (hname : name ∉ rest.toList.map Prod.fst) :
    directoryPath ++ name :: names ∉ (rest.reached p directoryPath).map Prod.fst := by
  rintro hmem
  obtain ⟨candidate, hcandidate, hpath⟩ := List.mem_map.mp hmem
  obtain ⟨name', names', hmem', -, hpath'⟩ := path_of_reached hrest hcandidate
  obtain ⟨rfl, -⟩ := List.cons.inj (List.append_cancel_left (hpath.symm.trans hpath'))
  exact hname hmem'

theorem nodup_reached {entries : Entries} {directoryPath : List Text} (hentries : entries.WellFormed) :
    ((entries.reached p directoryPath).map Prod.fst).Nodup := by
  fun_induction Entries.reached p directoryPath entries with
  | case1 => exact .nil
  | case2 directoryPath name entries rest ihbelow ihrest =>
      obtain ⟨-, hname, hbelow, hrest⟩ := hentries
      have hpath : ∀ path ∈ ((if isFiltered p (directoryPath ++ [name]) then []
          else entries.reached p (directoryPath ++ [name])).map Prod.fst),
          ∃ name' names, path = directoryPath ++ name :: name' :: names := by
        intro path hmem
        split_ifs at hmem
        · cases hmem
        · obtain ⟨candidate, hcandidate, rfl⟩ := List.mem_map.mp hmem
          obtain ⟨name', names, -, -, hpath⟩ := path_of_reached hbelow hcandidate
          exact ⟨name', names, by rw [hpath, List.append_assoc]; rfl⟩
      rw [List.map_cons, List.map_append, List.nodup_cons, List.mem_append, not_or]
      refine ⟨⟨fun hmem => ?_, path_ne_of_reached hrest hname⟩, ?_⟩
      · obtain ⟨name', names, heq⟩ := hpath _ hmem
        exact absurd (congrArg List.length heq) (by simp)
      · refine List.Nodup.append ?_ (ihrest hrest) fun path hmem hmem' => ?_
        · split_ifs
          · exact .nil
          · exact ihbelow hbelow
        · obtain ⟨name', names, rfl⟩ := hpath _ hmem
          exact path_ne_of_reached hrest hname hmem'
  | case3 directoryPath name node rest hnode ih =>
      obtain ⟨-, hname, hrest⟩ := hentries.of_cons
      rw [List.map_cons, List.nodup_cons]
      exact ⟨path_ne_of_reached hrest hname, ih hrest⟩

theorem traits_inside_iff (value : Text) :
    ((detectWorkspacePathTraits value).isRoot || (detectWorkspacePathTraits value).isAbsolute ||
      (detectWorkspacePathTraits value).hasParentTraversal) = false ↔
    normalizeWorkspacePath value ≠ [] ∧ isAbsolute (normalizeWorkspacePath value) = false ∧
      dotdot ∉ split (normalizeWorkspacePath value) := by
  by_cases hnil : normalizeWorkspacePath value = []
  · simp [detectWorkspacePathTraits, hnil]
  · have hsplit : split (normalizeWorkspacePath value) ≠ [] := List.splitOnP_ne_nil _ _
    simp [detectWorkspacePathTraits, hnil, hsplit]

theorem buildWorkspaceManifestEntry_ok {relativePath : Text} {node : Node} {entry : WorkspaceManifestEntry}
    (h : buildWorkspaceManifestEntry relativePath node = .ok entry) :
    entry.relativePath = normalizeWorkspacePath relativePath ∧
      isAbsolute (normalizeWorkspacePath relativePath) = false ∧
      dotdot ∉ split (normalizeWorkspacePath relativePath) ∧ node.HasContent := by
  rw [buildWorkspaceManifestEntry.eq_def] at h
  dsimp only at h
  split_ifs at h with houtside
  obtain ⟨-, habs, hup⟩ := (traits_inside_iff relativePath).mp (Bool.not_eq_true _ ▸ houtside)
  cases node with
  | directory below =>
      cases h
      exact ⟨rfl, habs, hup, trivial⟩
  | symlink target =>
      dsimp only at h
      split_ifs at h with hblank
      cases h
      exact ⟨rfl, habs, hup, hblank⟩
  | file digest sizeBytes executable =>
      dsimp only at h
      split_ifs at h with hblank
      cases h
      exact ⟨rfl, habs, hup, hblank⟩
  | other => cases h

theorem exists_buildWorkspaceManifestEntry {relativePath : Text} {node : Node} (hnode : node ≠ .other)
    (hne : normalizeWorkspacePath relativePath ≠ []) (habs : isAbsolute (normalizeWorkspacePath relativePath) = false)
    (hup : dotdot ∉ split (normalizeWorkspacePath relativePath)) (hcontent : node.HasContent) :
    ∃ entry, buildWorkspaceManifestEntry relativePath node = .ok entry := by
  have hinside := (traits_inside_iff relativePath).mpr ⟨hne, habs, hup⟩
  rw [buildWorkspaceManifestEntry.eq_def]
  dsimp only
  rw [if_neg (by simp [hinside])]
  cases node with
  | directory below => exact ⟨_, rfl⟩
  | symlink target => exact ⟨_, if_neg hcontent⟩
  | file digest sizeBytes executable => exact ⟨_, if_neg hcontent⟩
  | other => exact absurd rfl hnode

theorem scanEntry_of_not_other {candidate : Candidate} (hnode : candidate.2 ≠ .other) {relativePath : Text}
    (hpath : resolveWorkspaceRelativePath p.workspaceRoot candidate.1 = some relativePath)
    (hkept : ¬ p.shouldFilter relativePath = true) :
    scanEntry p candidate =
      (buildWorkspaceManifestEntry relativePath candidate.2).map fun entry => some (candidate.1, entry) := by
  obtain ⟨path, node⟩ := candidate
  rw [scanEntry]
  dsimp only at hpath
  rw [hpath]
  dsimp only
  rw [if_neg hkept]
  cases node with
  | other => exact absurd rfl hnode
  | _ => rfl

variable {names : List Text}

theorem of_resolveWorkspaceRelativePath {relativePath : Text}
    (h : resolveWorkspaceRelativePath p.workspaceRoot (p.workspaceRoot ++ names) = some relativePath) :
    relativePath = normalizeWorkspacePath (joinNames names) := by
  rw [resolveWorkspaceRelativePath, relative_append] at h
  split_ifs at h
  exact (Option.some.inj h).symm

theorem tellable_iff (hne : names ≠ []) (hnames : ∀ n ∈ names, IsName n) (node : Node) :
    Tellable p (p.workspaceRoot ++ names, node) ↔
      (∃ entry, scanEntry p (p.workspaceRoot ++ names, node) = .ok entry) ∧
        ∀ found ∈ recorded p (p.workspaceRoot ++ names, node),
          resolve p.workspaceRoot found.2.relativePath = p.workspaceRoot ++ names := by
  cases hpath : resolveWorkspaceRelativePath p.workspaceRoot (p.workspaceRoot ++ names) with
  | none => simp [Tellable, hpath, scanEntry]
  | some relativePath =>
      have hrelative := of_resolveWorkspaceRelativePath hpath
      have hleads := manifestPath_leads_iff p.workspaceRoot hne hnames
      rw [manifestPath, ← hrelative] at hleads
      by_cases hfiltered : p.shouldFilter relativePath = true
      · have hscan : scanEntry p (p.workspaceRoot ++ names, node) = .ok none := by
          rw [scanEntry, hpath]
          exact if_pos hfiltered
        exact iff_of_true ⟨_, hpath, .inl hfiltered⟩ ⟨⟨_, hscan⟩, by simp [recorded, hscan, Except.toOption]⟩
      by_cases hnode : node = .other
      · have hscan : scanEntry p (p.workspaceRoot ++ names, node) = .ok none := by
          rw [scanEntry, hpath, hnode]
          exact if_neg hfiltered
        exact iff_of_true ⟨_, hpath, .inr (.inl hnode)⟩ ⟨⟨_, hscan⟩, by simp [recorded, hscan, Except.toOption]⟩
      have hscan := @scanEntry_of_not_other p (p.workspaceRoot ++ names, node) hnode _ hpath hfiltered
      constructor
      · rintro ⟨relativePath', hpath', hfiltered' | hnode' | ⟨hportable, hcontent⟩⟩
        · exact absurd (Option.some.inj (hpath.symm.trans hpath') ▸ hfiltered') hfiltered
        · exact absurd hnode' hnode
        · rw [relative_append] at hportable
          obtain ⟨habs, hup, hleads⟩ := hleads.mpr hportable
          have hne' : normalizeWorkspacePath relativePath ≠ [] := by
            intro hnil
            rw [hnil] at hleads
            exact hne (List.append_right_eq_self.mp hleads.symm)
          obtain ⟨entry, hentry⟩ := exists_buildWorkspaceManifestEntry hnode hne' habs hup hcontent
          rw [hentry] at hscan
          refine ⟨⟨_, hscan⟩, fun found hfound => ?_⟩
          rw [recorded, hscan] at hfound
          cases hfound
          rw [(buildWorkspaceManifestEntry_ok hentry).1]
          exact hleads
      · rintro ⟨⟨entry, hentry⟩, hback⟩
        cases hbuild : buildWorkspaceManifestEntry relativePath node with
        | error e =>
            rw [hscan, hbuild] at hentry
            cases hentry
        | ok built =>
            rw [hbuild] at hscan
            obtain ⟨hpath', habs, hup, hcontent⟩ := buildWorkspaceManifestEntry_ok hbuild
            have hback := hback (p.workspaceRoot ++ names, built) (by rw [recorded, hscan]; rfl)
            rw [hpath'] at hback
            refine ⟨_, hpath, .inr (.inr ⟨?_, hcontent⟩)⟩
            rw [relative_append]
            exact hleads.mp ⟨habs, hup, hback⟩

theorem reachedFrom_root (entries : Entries) :
    reachedFrom p [(p.workspaceRoot, entries)] = entries.reached p p.workspaceRoot := by
  rw [reachedFrom, List.flatMap_singleton]

theorem exists_names {entries : Entries} (hentries : entries.WellFormed) {candidate : Candidate}
    (hmem : candidate ∈ entries.reached p p.workspaceRoot) :
    ∃ names, names ≠ [] ∧ (∀ n ∈ names, IsName n) ∧ candidate = (p.workspaceRoot ++ names, candidate.2) := by
  obtain ⟨name, names, -, hnames, hpath⟩ := path_of_reached hentries hmem
  exact ⟨name :: names, List.cons_ne_nil _ _, hnames, Prod.ext hpath rfl⟩

theorem recorded_fst {candidate : Candidate} {found : List Text × WorkspaceManifestEntry}
    (h : found ∈ recorded p candidate) : found.1 = candidate.1 := by
  cases hpath : resolveWorkspaceRelativePath p.workspaceRoot candidate.1 with
  | none =>
      rw [recorded, scanEntry, hpath] at h
      cases h
  | some relativePath =>
      by_cases hfiltered : p.shouldFilter relativePath = true
      · rw [recorded, scanEntry, hpath] at h
        dsimp only at h
        rw [if_pos hfiltered] at h
        cases h
      by_cases hnode : candidate.2 = .other
      · rw [recorded, scanEntry, hpath] at h
        dsimp only at h
        rw [if_neg hfiltered, hnode] at h
        cases h
      rw [recorded, scanEntry_of_not_other hnode hpath hfiltered] at h
      cases hbuild : buildWorkspaceManifestEntry relativePath candidate.2 with
      | error e =>
          rw [hbuild] at h
          cases h
      | ok entry =>
          rw [hbuild] at h
          cases h
          rfl

theorem recorded_sublist (candidates : List Candidate) :
    List.Sublist ((candidates.filterMap (recorded p)).map Prod.fst) (candidates.map Prod.fst) := by
  induction candidates with
  | nil => exact .slnil
  | cons candidate rest ih =>
      rw [List.map_cons]
      cases hrecorded : recorded p candidate with
      | none =>
          rw [List.filterMap_cons_none hrecorded]
          exact ih.cons _
      | some found =>
          rw [List.filterMap_cons_some hrecorded, List.map_cons, recorded_fst hrecorded]
          exact ih.cons_cons _

theorem scanWorkspaceManifest_ok {entries : Entries} {scanned : List (List Text × WorkspaceManifestEntry)}
    (h : scanWorkspaceManifest p entries = .ok scanned) :
    (∀ candidate ∈ entries.reached p p.workspaceRoot, ∃ entry, scanEntry p candidate = .ok entry) ∧
      scanned.Perm ((entries.reached p p.workspaceRoot).filterMap (recorded p)) := by
  rw [scanWorkspaceManifest] at h
  cases hscan : scanDirectories p (entries.directories + 1) [(p.workspaceRoot, entries)] with
  | error e =>
      rw [hscan] at h
      cases h
  | ok found =>
      rw [hscan] at h
      have hok := of_scanDirectories hscan
      have hturns : turnsLeft [(p.workspaceRoot, entries)] ≤ entries.directories + 1 := le_rfl
      obtain ⟨found', hfound', hperm⟩ := scanDirectories_ok hturns hok
      obtain rfl : found = found' := Except.ok.inj (hscan.symm.trans hfound')
      obtain rfl := Except.ok.inj h
      rw [reachedFrom_root] at hok hperm
      exact ⟨hok, (List.mergeSort_perm _ _).trans hperm⟩

theorem exists_scanWorkspaceManifest {entries : Entries}
    (h : ∀ candidate ∈ entries.reached p p.workspaceRoot, ∃ entry, scanEntry p candidate = .ok entry) :
    ∃ scanned, scanWorkspaceManifest p entries = .ok scanned := by
  rw [← reachedFrom_root] at h
  have hturns : turnsLeft [(p.workspaceRoot, entries)] ≤ entries.directories + 1 := le_rfl
  obtain ⟨found, hfound, -⟩ := scanDirectories_ok hturns h
  exact ⟨_, by rw [scanWorkspaceManifest, hfound]; rfl⟩

theorem tellable_of_faithful {entries : Entries} (hentries : entries.WellFormed) (h : Faithful p entries) :
    ∀ candidate ∈ entries.reached p p.workspaceRoot, Tellable p candidate := by
  intro candidate hmem
  obtain ⟨scanned, hscan, -, hleads⟩ := h
  obtain ⟨hok, hperm⟩ := scanWorkspaceManifest_ok hscan
  obtain ⟨names, hne, hnames, hcandidate⟩ := exists_names hentries hmem
  rw [hcandidate, tellable_iff hne hnames, ← hcandidate]
  refine ⟨hok candidate hmem, fun found hfound => ?_⟩
  have hpath := recorded_fst hfound
  rw [hleads found (hperm.mem_iff.mpr (List.mem_filterMap.mpr ⟨candidate, hmem, hfound⟩)), hpath, hcandidate]

theorem faithful_of_tellable {entries : Entries} (hentries : entries.WellFormed)
    (h : ∀ candidate ∈ entries.reached p p.workspaceRoot, Tellable p candidate) : Faithful p entries := by
  have hboth : ∀ candidate ∈ entries.reached p p.workspaceRoot, (∃ entry, scanEntry p candidate = .ok entry) ∧
      ∀ found ∈ recorded p candidate, resolve p.workspaceRoot found.2.relativePath = found.1 := by
    intro candidate hmem
    obtain ⟨names, hne, hnames, hcandidate⟩ := exists_names hentries hmem
    have htellable := h candidate hmem
    rw [hcandidate, tellable_iff hne hnames, ← hcandidate] at htellable
    refine ⟨htellable.1, fun found hfound => ?_⟩
    have hpath := recorded_fst hfound
    rw [htellable.2 found hfound, hpath, hcandidate]
  obtain ⟨scanned, hscan⟩ := exists_scanWorkspaceManifest fun candidate hmem => (hboth candidate hmem).1
  obtain ⟨-, hperm⟩ := scanWorkspaceManifest_ok hscan
  have hleads : ∀ found ∈ scanned, resolve p.workspaceRoot found.2.relativePath = found.1 := by
    intro found hfound
    obtain ⟨candidate, hmem, hrecorded⟩ := List.mem_filterMap.mp (hperm.mem_iff.mp hfound)
    exact (hboth candidate hmem).2 found hrecorded
  have hpaths : (scanned.map Prod.fst).Nodup := by
    rw [(hperm.map Prod.fst).nodup_iff]
    exact (recorded_sublist _).nodup (nodup_reached hentries)
  refine ⟨scanned, hscan, ?_, hleads⟩
  refine List.Nodup.of_map (resolve p.workspaceRoot) ?_
  have hback : (scanned.map fun found => found.2.relativePath).map (resolve p.workspaceRoot) =
      scanned.map Prod.fst := by
    rw [List.map_map]
    exact List.map_congr_left hleads
  rwa [hback]

theorem faithful_iff {entries : Entries} (hentries : entries.WellFormed) :
    Faithful p entries ↔ ∀ candidate ∈ entries.reached p p.workspaceRoot, Tellable p candidate :=
  ⟨tellable_of_faithful hentries, faithful_of_tellable hentries⟩

/-- A scan of the workspace `/w` that filters nothing and compares names as numbers of their characters. -/
def plainScan : ScanParams where
  workspaceRoot := [['w']]
  shouldFilter _ := false
  localeCompare left right := compareOfLessAndEq (left.map Char.toNat) (right.map Char.toNat)

def oneFile (name : Text) : Entries := .cons name (.file ['d'] 0 false) .nil

theorem wellFormed_oneFile {name : Text} (hname : IsName name) : (oneFile name).WellFormed :=
  ⟨hname, List.not_mem_nil, trivial⟩

theorem faithful_plain : Faithful plainScan (oneFile ['a']) ↔
    ∀ candidate ∈ (oneFile ['a']).reached plainScan plainScan.workspaceRoot, Tellable plainScan candidate :=
  faithful_iff (wellFormed_oneFile ⟨by decide, by decide, by decide, by decide⟩)

theorem backslash_lost : ¬ Faithful plainScan (oneFile ['a', '\\', 'b']) := by
  intro h
  have hall := tellable_of_faithful (wellFormed_oneFile ⟨by decide, by decide, by decide, by decide⟩) h
  have htellable : Tellable plainScan ([['w'], ['a', '\\', 'b']], .file ['d'] 0 false) := hall _ List.mem_cons_self
  obtain ⟨_, -, hfiltered | hother | ⟨⟨hslash, -⟩, -⟩⟩ := htellable
  · cases hfiltered
  · cases hother
  · exact hslash (by decide)

end DevPilot.Replication
