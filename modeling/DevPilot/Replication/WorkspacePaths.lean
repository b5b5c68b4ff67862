import DevPilot.Lib.PathText

/-!
The paths of a workspace manifest and the checks made on them before anything
is materialised.
-/

namespace DevPilot.Replication

open PathText

def stripDotSlash : Text → Text
  | '.' :: '/' :: rest => rest
  | t => t

def normalizeWorkspacePath (value : Text) : Text :=
  let normalized :=
    stripDotSlash (normalize (trim (value.map fun c => if c = '\\' then '/' else c)))
  if normalized = dot then [] else normalized

structure WorkspacePathTraits where
  normalizedPath : Text
  segments : List Text
  isRoot : Bool
  isAbsolute : Bool
  hasParentTraversal : Bool
deriving DecidableEq, Repr

def detectWorkspacePathTraits (value : Text) : WorkspacePathTraits :=
  let normalizedPath := normalizeWorkspacePath value
  let segments := if normalizedPath = [] then [] else split normalizedPath
  { normalizedPath
    segments
    isRoot := segments.isEmpty
    isAbsolute := PathText.isAbsolute normalizedPath
    hasParentTraversal := dotdot ∈ segments }

/-- `resolveWorkspaceRelativePath`, of a candidate that has been resolved. -/
def resolveWorkspaceRelativePath (workspaceRoot absoluteCandidate : List Text) : Option Text :=
  let traits := detectWorkspacePathTraits (relative workspaceRoot absoluteCandidate)
  if traits.isAbsolute || traits.hasParentTraversal then none else some traits.normalizedPath

def resolveContainedWorkspaceMaterializationPath (workspaceRoot absoluteCandidate : List Text)
    (errorMessage : Text) : Except Text (List Text) :=
  match resolveWorkspaceRelativePath workspaceRoot absoluteCandidate with
  | none => .error errorMessage
  | some relativePath => .ok (normalizeString false workspaceRoot relativePath)

def resolveTargetWorkspacePath (workspaceRoot : List Text) (relativePath : Text) :
    Except Text (List Text) :=
  resolveContainedWorkspaceMaterializationPath workspaceRoot (resolve workspaceRoot relativePath)
    ("Workspace transfer path escapes target: ".toList ++ relativePath)

def assertWorkspaceMaterializationSymlinkTarget (workspaceRoot linkPath : List Text)
    (target : Text) : Except Text Unit :=
  let errorMessage := "Workspace transfer symlink target escapes target: ".toList ++ target
  if target.isEmpty || isAbsolute target then .error errorMessage
  else do
    let _ ← resolveContainedWorkspaceMaterializationPath workspaceRoot
      (resolve linkPath.dropLast target) errorMessage

inductive WorkspaceManifestEntry
  | directory (relativePath : Text)
  | file (relativePath digest : Text) (sizeBytes : Nat) (executable : Bool)
  | symlink (relativePath target : Text)
deriving DecidableEq, Repr

namespace WorkspaceManifestEntry

def relativePath : WorkspaceManifestEntry → Text
  | directory p | file p _ _ _ | symlink p _ => p

end WorkspaceManifestEntry

/-- One entry of `assertSyncArtifactsStayWithinTarget`. -/
def assertEntryStaysWithinTarget (targetPath : List Text) (entry : WorkspaceManifestEntry) :
    Except Text Unit := do
  let targetEntryPath ← resolveTargetWorkspacePath targetPath entry.relativePath
  match entry with
  | .symlink _ target =>
      assertWorkspaceMaterializationSymlinkTarget targetPath targetEntryPath target
  | _ => pure ()

def assertSyncArtifactsStayWithinTarget (targetPath : List Text)
    (removedRelativePaths : List Text) (entries : List WorkspaceManifestEntry) :
    Except Text Unit := do
  removedRelativePaths.forM fun relativePath => do
    let _ ← resolveTargetWorkspacePath targetPath relativePath
  entries.forM (assertEntryStaysWithinTarget targetPath)

theorem up_of_map {t : Text} (h : Up t) : Up (t.map fun c => if c = '\\' then '/' else c) := by
  obtain rfl | ⟨s, rfl⟩ := h
  · exact .inl (by decide)
  · exact .inr ⟨s.map fun c => if c = '\\' then '/' else c, by simp [dotdot]⟩

theorem up_normalizeWorkspacePath {t : Text} (h : Up t) : Up (normalizeWorkspacePath t) := by
  have hup := (up_of_map h).trim.normalize
  rw [normalizeWorkspacePath]
  obtain he | ⟨s, he⟩ := hup
  · exact .inl (by simp only [he]; decide)
  · exact .inr ⟨s, by simp [he, dotdot, dot, stripDotSlash]⟩

theorem prefix_of_resolveWorkspaceRelativePath {workspaceRoot candidate : List Text} {t : Text}
    (h : resolveWorkspaceRelativePath workspaceRoot candidate = some t) :
    workspaceRoot <+: candidate := by
  by_contra hout
  have hup := up_normalizeWorkspacePath (up_relative hout)
  have hne : normalizeWorkspacePath (relative workspaceRoot candidate) ≠ [] := fun he => by
    rw [he] at hup
    obtain h | ⟨s, h⟩ := hup <;> simp [dotdot] at h
  simp [resolveWorkspaceRelativePath, detectWorkspacePathTraits, hne, hup.mem_split] at h

theorem assertWorkspaceMaterializationSymlinkTarget_ok {workspaceRoot linkPath : List Text}
    {target : Text}
    (h : assertWorkspaceMaterializationSymlinkTarget workspaceRoot linkPath target = .ok ()) :
    isAbsolute target = false ∧ workspaceRoot <+: resolve linkPath.dropLast target := by
  rw [assertWorkspaceMaterializationSymlinkTarget] at h
  split_ifs at h with hbad
  rw [Bool.or_eq_true, not_or] at hbad
  rw [resolveContainedWorkspaceMaterializationPath] at h
  split at h
  · cases h
  · next hres =>
      exact ⟨by simpa using hbad.2, prefix_of_resolveWorkspaceRelativePath hres⟩

theorem forM_ok {α : Type} {f : α → Except Text Unit} {as : List α} (h : as.forM f = .ok ())
    {a : α} (ha : a ∈ as) : f a = .ok () := by
  induction as with
  | nil => cases ha
  | cons a' as ih =>
      change (f a' >>= fun _ => as.forM f) = .ok () at h
      cases hf : f a' with
      | error e => rw [hf] at h; cases h
      | ok u =>
          rw [hf] at h
          rcases List.mem_cons.mp ha with rfl | ha
          · exact hf
          · exact ih h ha

theorem assertEntryStaysWithinTarget_ok {targetPath removed entries}
    (h : assertSyncArtifactsStayWithinTarget targetPath removed entries = .ok ())
    {e : WorkspaceManifestEntry} (he : e ∈ entries) :
    assertEntryStaysWithinTarget targetPath e = .ok () := by
  rw [assertSyncArtifactsStayWithinTarget] at h
  generalize (removed.forM _ : Except Text Unit) = first at h
  cases first with
  | error e => cases h
  | ok u => exact forM_ok h he

end DevPilot.Replication
