import DevPilot.SessionChanges.MergeTurns
import DevPilot.SessionChanges.RepositoryPaths

/-!
Matching the files that a session changed with the entries of the working tree.
-/

namespace DevPilot.SessionChanges

open PathText

attribute [local instance] lawfulBEq_text

structure SnapshotEntry where
  position : Nat
  path : Text
  previousPath : Option Text
  kind : String
deriving DecidableEq, Repr

structure ScmWorkingSnapshot where
  rootPath : Option Text
  entries : List SnapshotEntry
  placed : entries.map SnapshotEntry.position = List.range entries.length

structure MatchedFile where
  filePath : String
  repositoryPath : Text
  sessionChange : SessionChangeSetFile
  repositoryEntry : SnapshotEntry
deriving DecidableEq, Repr

structure SessionWorkingTreeProjection where
  sessionId : String
  matchedFiles : List MatchedFile
  unmatchedSessionFiles : List SessionChangeSetFile
  repositoryOnlyFiles : List SnapshotEntry
  projectionReliability : ChangeConfidence
deriving DecidableEq, Repr

structure Reconciling where
  consumedPaths : List Text := []
  matchedFiles : List MatchedFile := []
  unmatchedSessionFiles : List SessionChangeSetFile := []

variable (toLowerCase : Text → Text) (rootPath : Option Text) (entries : List SnapshotEntry)

def candidatesOf (sessionFile : SessionChangeSetFile) : List Text :=
  buildRepositoryPathCandidates toLowerCase sessionFile.filePath.toList
    (sessionFile.previousFilePath.map String.toList) rootPath

def touches? (sessionFile : SessionChangeSetFile) (entry : SnapshotEntry) : Bool :=
  entry.path ∈ candidatesOf toLowerCase rootPath sessionFile ||
    entry.previousPath.any fun path =>
      path ≠ [] ∧ path ∈ candidatesOf toLowerCase rootPath sessionFile

def findMatch (sessionFile : SessionChangeSetFile) : Option SnapshotEntry :=
  entries.find? (touches? toLowerCase rootPath sessionFile)

def Reconciling.addFile (r : Reconciling) (sessionFile : SessionChangeSetFile) : Reconciling :=
  match findMatch toLowerCase rootPath entries sessionFile with
  | none => { r with unmatchedSessionFiles := r.unmatchedSessionFiles ++ [sessionFile] }
  | some found =>
      { r with
        consumedPaths := found.path :: r.consumedPaths
        matchedFiles := r.matchedFiles ++
          [⟨sessionFile.filePath, found.path, sessionFile, found⟩] }

def reconcileWithEntries (sessionChangeSet : SessionChangeSet) : SessionWorkingTreeProjection :=
  let r := sessionChangeSet.files.foldl (Reconciling.addFile toLowerCase rootPath entries) {}
  { sessionId := sessionChangeSet.sessionId
    matchedFiles := r.matchedFiles
    unmatchedSessionFiles := r.unmatchedSessionFiles
    repositoryOnlyFiles := entries.filter fun entry => entry.path ∉ r.consumedPaths
    projectionReliability := sessionChangeSet.confidenceSummary.confidence }

def entriesOf (snapshot : Option ScmWorkingSnapshot) : List SnapshotEntry :=
  (snapshot.map ScmWorkingSnapshot.entries).getD []

def rootPathOf (snapshot : Option ScmWorkingSnapshot) : Option Text :=
  snapshot.bind ScmWorkingSnapshot.rootPath

def reconcileWithScmSnapshot (sessionChangeSet : SessionChangeSet)
    (snapshot : Option ScmWorkingSnapshot) : SessionWorkingTreeProjection :=
  reconcileWithEntries toLowerCase (rootPathOf snapshot) (entriesOf snapshot) sessionChangeSet

/-- The path of a session's file in the repository: what stands below the root, and for
other paths their canonical form. -/
def repositoryPath (sessionFile : SessionChangeSetFile) : Option Text :=
  let filePath := sessionFile.filePath.toList
  let path := (deriveRepositoryRelativePath toLowerCase filePath rootPath).getD
    (normalizeRepositoryPathToken filePath)
  if path = [] then none else some path

structure Projects (files : List SessionChangeSetFile) (projection : SessionWorkingTreeProjection) :
    Prop where
  current : ∀ file ∈ files, ∀ entry ∈ entries, repositoryPath toLowerCase rootPath file = some entry.path →
    ∃ found ∈ projection.matchedFiles, found.sessionChange = file ∧ found.repositoryEntry = entry
  files : (projection.matchedFiles.map MatchedFile.sessionChange ++
    projection.unmatchedSessionFiles).Perm files
  entries : (projection.matchedFiles.map MatchedFile.repositoryEntry ++
    projection.repositoryOnlyFiles).Perm entries

def FirstFor (file : SessionChangeSetFile) (entry : SnapshotEntry) : Prop :=
  entry ∈ entries ∧ touches? toLowerCase rootPath file entry ∧
    ∀ other ∈ entries, other.position < entry.position → touches? toLowerCase rootPath file other = false

structure Unrivalled (files : List SessionChangeSetFile) : Prop where
  /-- Nothing before the entry at a file's own path touches the file. -/
  current : ∀ file ∈ files, ∀ entry ∈ entries, repositoryPath toLowerCase rootPath file = some entry.path →
    ∀ other ∈ entries, other.position < entry.position → touches? toLowerCase rootPath file other = false
  /-- No entry is the first for two files. -/
  single : files.Pairwise fun file other => ∀ entry, FirstFor toLowerCase rootPath entries file entry →
    ¬FirstFor toLowerCase rootPath entries other entry
  /-- Two entries at one path are the first for some file, or none of them is. -/
  paths : ∀ entry ∈ entries, ∀ other ∈ entries, entry.path = other.path →
    (∃ file ∈ files, FirstFor toLowerCase rootPath entries file entry) →
      ∃ file ∈ files, FirstFor toLowerCase rootPath entries file other

def matchedFile (sessionFile : SessionChangeSetFile) (entry : SnapshotEntry) : MatchedFile :=
  ⟨sessionFile.filePath, entry.path, sessionFile, entry⟩

variable {toLowerCase rootPath entries}

theorem matchedFiles_foldl (files : List SessionChangeSetFile) (r : Reconciling) :
    (files.foldl (Reconciling.addFile toLowerCase rootPath entries) r).matchedFiles =
      r.matchedFiles ++ files.filterMap fun file =>
        (findMatch toLowerCase rootPath entries file).map (matchedFile file) := by
  induction files generalizing r with
  | nil => simp
  | cons file files ih =>
      rw [List.foldl_cons, ih, Reconciling.addFile, List.filterMap_cons]
      cases findMatch toLowerCase rootPath entries file <;> simp [matchedFile]

theorem unmatchedSessionFiles_foldl (files : List SessionChangeSetFile) (r : Reconciling) :
    (files.foldl (Reconciling.addFile toLowerCase rootPath entries) r).unmatchedSessionFiles =
      r.unmatchedSessionFiles ++ files.filter fun file =>
        !(findMatch toLowerCase rootPath entries file).isSome := by
  induction files generalizing r with
  | nil => simp
  | cons file files ih =>
      rw [List.foldl_cons, ih, Reconciling.addFile, List.filter_cons]
      cases findMatch toLowerCase rootPath entries file <;> simp

theorem mem_consumedPaths_foldl (files : List SessionChangeSetFile) (r : Reconciling) (path : Text) :
    path ∈ (files.foldl (Reconciling.addFile toLowerCase rootPath entries) r).consumedPaths ↔
      path ∈ r.consumedPaths ∨
        ∃ entry ∈ files.filterMap (findMatch toLowerCase rootPath entries), entry.path = path := by
  induction files generalizing r with
  | nil => simp
  | cons file files ih =>
      rw [List.foldl_cons, ih, Reconciling.addFile, List.filterMap_cons]
      cases hfound : findMatch toLowerCase rootPath entries file with
      | none => simp
      | some found =>
          dsimp only
          rw [List.mem_cons, List.exists_mem_cons_iff, or_assoc, or_left_comm, eq_comm]

theorem findMatch_eq_some_iff (hplaced : entries.Pairwise fun e e' => e.position < e'.position)
    {file : SessionChangeSetFile} {entry : SnapshotEntry} :
    findMatch toLowerCase rootPath entries file = some entry ↔
      FirstFor toLowerCase rootPath entries file entry := by
  rw [findMatch, List.find?_eq_some_iff_append]
  constructor
  · rintro ⟨htouches, before, after, hentries, hbefore⟩
    rw [hentries, List.pairwise_append, List.pairwise_cons] at hplaced
    refine ⟨by simp [hentries], htouches, fun other hother hlt => ?_⟩
    rw [hentries, List.mem_append, List.mem_cons] at hother
    rcases hother with hother | rfl | hother
    · simpa using hbefore other hother
    · exact absurd hlt (lt_irrefl _)
    · exact absurd hlt (hplaced.2.1.1 other hother).asymm
  · rintro ⟨hmem, htouches, hearlier⟩
    obtain ⟨before, after, hentries⟩ := List.append_of_mem hmem
    refine ⟨htouches, before, after, hentries, fun other hother => ?_⟩
    rw [hentries, List.pairwise_append] at hplaced
    have hlt := hplaced.2.2 other hother entry List.mem_cons_self
    simp [hearlier other (by simp [hentries, hother]) hlt]

theorem mem_candidatesOf {file : SessionChangeSetFile} {path : Text}
    (h : repositoryPath toLowerCase rootPath file = some path) :
    path ∈ candidatesOf toLowerCase rootPath file := by
  obtain ⟨hpath, hne⟩ : (deriveRepositoryRelativePath toLowerCase file.filePath.toList rootPath).getD
      (normalizeRepositoryPathToken file.filePath.toList) = path ∧ path ≠ [] := by
    unfold repositoryPath at h
    dsimp only at h
    split_ifs at h with hempty
    obtain rfl := Option.some.inj h
    exact ⟨rfl, hempty⟩
  have htrim : trim file.filePath.toList ≠ [] := by
    intro hblank
    have htoken : normalizePathToken file.filePath.toList = [] := by simp [normalizePathToken, hblank]
    refine hne (hpath.symm.trans ?_)
    simp [deriveRepositoryRelativePath, htoken, normalizeRepositoryPathToken, dropDotSlash]
  rw [candidatesOf, buildRepositoryPathCandidates, List.mem_eraseDups, List.mem_flatMap]
  refine ⟨file.filePath.toList, by simp [htrim], List.mem_filter.mpr ⟨?_, by simpa using hne⟩⟩
  cases hderive : deriveRepositoryRelativePath toLowerCase file.filePath.toList rootPath with
  | none =>
      rw [hderive, Option.getD_none] at hpath
      simp [hpath]
  | some relative =>
      rw [hderive, Option.getD_some] at hpath
      simp [hpath]

theorem touches_of_repositoryPath {file : SessionChangeSetFile} {entry : SnapshotEntry}
    (h : repositoryPath toLowerCase rootPath file = some entry.path) :
    touches? toLowerCase rootPath file entry = true := by
  simp [touches?, mem_candidatesOf h]

theorem files_perm (files : List SessionChangeSetFile) :
    ((files.filterMap fun file =>
        (findMatch toLowerCase rootPath entries file).map (matchedFile file)).map MatchedFile.sessionChange ++
      files.filter fun file => !(findMatch toLowerCase rootPath entries file).isSome).Perm files := by
  have hmap : ((files.filterMap fun file => (findMatch toLowerCase rootPath entries file).map
      (matchedFile file)).map MatchedFile.sessionChange) =
        files.filter fun file => (findMatch toLowerCase rootPath entries file).isSome := by
    induction files with
    | nil => rfl
    | cons file files ih =>
        rw [List.filterMap_cons, List.filter_cons]
        cases findMatch toLowerCase rootPath entries file <;> simp [ih, matchedFile]
  rw [hmap]
  exact List.filter_append_perm _ files

theorem entries_perm_iff (hplaced : entries.Pairwise fun e e' => e.position < e'.position)
    {matched : List SnapshotEntry} (hsub : matched ⊆ entries) {consumed : List Text}
    (hconsumed : ∀ path, path ∈ consumed ↔ ∃ entry ∈ matched, entry.path = path) :
    (matched ++ entries.filter fun entry => entry.path ∉ consumed).Perm entries ↔
      matched.Nodup ∧ ∀ entry ∈ entries, entry.path ∈ consumed → entry ∈ matched := by
  have hnodup : entries.Nodup := hplaced.imp fun hlt heq => by simp [heq] at hlt
  constructor
  · intro hperm
    refine ⟨(List.nodup_append.mp (hperm.nodup_iff.mpr hnodup)).1, fun entry hentry hpath => ?_⟩
    rcases List.mem_append.mp (hperm.mem_iff.mpr hentry) with hmem | hmem
    · exact hmem
    · simp [hpath] at hmem
  · rintro ⟨hmatched, hall⟩
    rw [List.perm_ext_iff_of_nodup ?_ hnodup]
    · intro entry
      simp only [List.mem_append, List.mem_filter, decide_not, Bool.not_eq_true', decide_eq_false_iff_not]
      constructor
      · rintro (hmem | ⟨hmem, -⟩)
        · exact hsub hmem
        · exact hmem
      · intro hmem
        by_cases hpath : entry.path ∈ consumed
        · exact .inl (hall entry hmem hpath)
        · exact .inr ⟨hmem, hpath⟩
    · refine List.nodup_append.mpr ⟨hmatched, hnodup.filter _, ?_⟩
      rintro entry hentry other hother rfl
      have hpath := (hconsumed entry.path).mpr ⟨entry, hentry, rfl⟩
      simp [hpath] at hother

theorem map_repositoryEntry (files : List SessionChangeSetFile) :
    (files.filterMap fun file => (findMatch toLowerCase rootPath entries file).map
      (matchedFile file)).map MatchedFile.repositoryEntry =
        files.filterMap (findMatch toLowerCase rootPath entries) := by
  rw [List.map_filterMap]
  refine List.filterMap_congr fun file _ => ?_
  cases findMatch toLowerCase rootPath entries file <;> rfl

theorem placed_entriesOf (snapshot : Option ScmWorkingSnapshot) :
    (entriesOf snapshot).Pairwise fun e e' => e.position < e'.position := by
  cases snapshot with
  | none => exact List.Pairwise.nil
  | some snapshot =>
      have hrange := List.pairwise_lt_range (n := snapshot.entries.length)
      rw [← snapshot.placed, List.pairwise_map] at hrange
      exact hrange

theorem mem_matched_iff (files : List SessionChangeSetFile) {file : SessionChangeSetFile}
    (hfile : file ∈ files) (entry : SnapshotEntry) :
    (∃ found ∈ files.filterMap (fun file =>
        (findMatch toLowerCase rootPath entries file).map (matchedFile file)),
      found.sessionChange = file ∧ found.repositoryEntry = entry) ↔
    findMatch toLowerCase rootPath entries file = some entry := by
  constructor
  · rintro ⟨found, hfound, rfl, rfl⟩
    obtain ⟨other, -, hother⟩ := List.mem_filterMap.mp hfound
    obtain ⟨matched, hmatched, rfl⟩ := Option.map_eq_some_iff.mp hother
    exact hmatched
  · intro hfound
    exact ⟨matchedFile file entry, List.mem_filterMap.mpr ⟨file, hfile, by rw [hfound]; rfl⟩, rfl, rfl⟩

/-- The session's files and the working tree are matched as they should be exactly if no
entry gets in the way of another. -/
theorem projects_iff (toLowerCase : Text → Text) (sessionChangeSet : SessionChangeSet)
    (snapshot : Option ScmWorkingSnapshot) :
    Projects toLowerCase (rootPathOf snapshot) (entriesOf snapshot) sessionChangeSet.files
        (reconcileWithScmSnapshot toLowerCase sessionChangeSet snapshot) ↔
      Unrivalled toLowerCase (rootPathOf snapshot) (entriesOf snapshot) sessionChangeSet.files := by
  have hplaced := placed_entriesOf snapshot
  unfold reconcileWithScmSnapshot reconcileWithEntries
  dsimp only
  generalize rootPathOf snapshot = rootPath
  generalize entriesOf snapshot = entries at hplaced
  generalize sessionChangeSet.files = files
  have hfirst : ∀ file entry, findMatch toLowerCase rootPath entries file = some entry ↔
      FirstFor toLowerCase rootPath entries file entry := fun _ _ => findMatch_eq_some_iff hplaced
  have hmatched : ∀ entry, entry ∈ files.filterMap (findMatch toLowerCase rootPath entries) ↔
      ∃ file ∈ files, FirstFor toLowerCase rootPath entries file entry := by
    simp only [List.mem_filterMap, hfirst, implies_true]
  have hsub : files.filterMap (findMatch toLowerCase rootPath entries) ⊆ entries := fun entry hentry => by
    obtain ⟨file, -, hfile⟩ := (hmatched entry).mp hentry
    exact hfile.1
  have hconsumed := fun path => (@mem_consumedPaths_foldl toLowerCase rootPath entries files {} path).trans
    (or_iff_right List.not_mem_nil)
  have hfiles := @matchedFiles_foldl toLowerCase rootPath entries files {}
  have hunmatched := @unmatchedSessionFiles_foldl toLowerCase rootPath entries files {}
  generalize files.foldl (Reconciling.addFile toLowerCase rootPath entries) {} = r
    at hconsumed hfiles hunmatched
  rw [List.nil_append] at hfiles hunmatched
  have hperm := entries_perm_iff hplaced hsub hconsumed
  have hcurrent : ∀ file ∈ files, ∀ entry ∈ entries, repositoryPath toLowerCase rootPath file = some entry.path →
      ((∃ found ∈ r.matchedFiles, found.sessionChange = file ∧ found.repositoryEntry = entry) ↔
        ∀ other ∈ entries, other.position < entry.position →
          touches? toLowerCase rootPath file other = false) := by
    intro file hfile entry hentry hpath
    rw [hfiles, mem_matched_iff files hfile, hfirst]
    exact ⟨fun h => h.2.2, fun h => ⟨hentry, touches_of_repositoryPath hpath, h⟩⟩
  have hsingle : (files.filterMap (findMatch toLowerCase rootPath entries)).Nodup ↔
      files.Pairwise fun file other => ∀ entry, FirstFor toLowerCase rootPath entries file entry →
        ¬FirstFor toLowerCase rootPath entries other entry := by
    rw [List.Nodup, List.pairwise_filterMap]
    simp only [hfirst]
    refine List.Pairwise.iff fun file other => ⟨fun h entry hentry hother => ?_, ?_⟩
    · exact h entry hentry entry hother rfl
    · rintro h entry hentry _ hother rfl
      exact h entry hentry hother
  constructor
  · rintro ⟨hmatches, -, hentries⟩
    dsimp only at hmatches hentries
    rw [hfiles, map_repositoryEntry, hperm] at hentries
    refine ⟨fun file hfile entry hentry hpath => ?_, hsingle.mp hentries.1, ?_⟩
    · exact (hcurrent file hfile entry hentry hpath).mp (hmatches file hfile entry hentry hpath)
    · intro entry hentry other hother hpath hfound
      refine (hmatched other).mp (hentries.2 other hother ((hconsumed _).mpr ⟨entry, ?_, hpath⟩))
      exact (hmatched entry).mpr hfound
  · rintro ⟨hmatches, hone, hpaths⟩
    refine ⟨fun file hfile entry hentry hpath => ?_, ?_, ?_⟩
    · exact (hcurrent file hfile entry hentry hpath).mpr (hmatches file hfile entry hentry hpath)
    · dsimp only
      rw [hfiles, hunmatched]
      exact files_perm files
    · dsimp only
      rw [hfiles, map_repositoryEntry, hperm]
      refine ⟨hsingle.mpr hone, fun entry hentry hpath => ?_⟩
      obtain ⟨found, hfound, heq⟩ := (hconsumed _).mp hpath
      exact (hmatched entry).mpr (hpaths found (hsub hfound) entry hentry heq ((hmatched found).mp hfound))

/-- A file that was renamed to `b.ts`, and a new file at its former path. -/
def renamedSnapshot : ScmWorkingSnapshot where
  rootPath := some "/repo".toList
  entries := [⟨0, "b.ts".toList, some "a.ts".toList, "renamed"⟩, ⟨1, "a.ts".toList, none, "untracked"⟩]
  placed := rfl

def recreatedFile : SessionChangeSetFile :=
  { editedFile with filePath := "/repo/a.ts", turns := ["turn-1"] }

theorem recreatedFile_not_projected :
    ¬Projects id (rootPathOf (some renamedSnapshot)) (entriesOf (some renamedSnapshot)) [recreatedFile]
      (reconcileWithScmSnapshot id ⟨"session-1", [], [recreatedFile], [], ⟨.providerTool, .strong⟩⟩
        (some renamedSnapshot)) := by
  intro h
  obtain ⟨found, hfound, -, hentry⟩ := h.current recreatedFile (List.mem_singleton_self _)
    ⟨1, "a.ts".toList, none, "untracked"⟩ (by decide) (by decide)
  rw [List.mem_singleton.mp (show found ∈ [_] from hfound)] at hentry
  cases hentry

end DevPilot.SessionChanges
