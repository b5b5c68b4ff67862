import DevPilot.Lib.DottedIds
import DevPilot.Replication.WorkspacePaths

/-!
Comparisons of workspace manifests, and the plan of a one-way safe replication
made from them.
-/

namespace DevPilot.Replication

open PathText

attribute [local instance] lawfulBEq_text

structure WorkspaceManifest where
  entries : List WorkspaceManifestEntry
  fingerprint : Option Text := none
deriving DecidableEq, Repr

namespace WorkspaceManifest

def at? (entries : List WorkspaceManifestEntry) (path : Text) : Option WorkspaceManifestEntry :=
  entries.find? fun entry => entry.relativePath = path

/-- `WorkspaceManifestSchema` does not ask for this, the comparison does. -/
def UniquePaths (m : WorkspaceManifest) : Prop :=
  (m.entries.map (·.relativePath)).Nodup

end WorkspaceManifest

open WorkspaceManifest

def directoryTag : Text := "directory\t".toList

def symlinkTag : Text := "symlink\t".toList

def fileTag : Text := "file\t".toList

def serializeWorkspaceManifestEntry : WorkspaceManifestEntry → Text
  | .directory path => directoryTag ++ path
  | .symlink path target => symlinkTag ++ (path ++ '\t' :: target)
  | .file path digest sizeBytes executable =>
      fileTag ++ (path ++ '\t' :: (digest ++ '\t' :: (Nat.toDigits 10 sizeBytes ++
        '\t' :: [if executable then '1' else '0'])))

def areEntriesEquivalent (previous next : WorkspaceManifestEntry) : Bool :=
  serializeWorkspaceManifestEntry previous = serializeWorkspaceManifestEntry next

def duplicateEntryError (relativePath : Text) : Text :=
  "Workspace manifest contains duplicate entry: ".toList ++ relativePath

def insertManifestEntry (map : List WorkspaceManifestEntry) (entry : WorkspaceManifestEntry) :
    Except Text (List WorkspaceManifestEntry) :=
  if (at? map entry.relativePath).isSome then .error (duplicateEntryError entry.relativePath)
  else .ok (map ++ [entry])

def createManifestEntryMap (entries : List WorkspaceManifestEntry) :
    Except Text (List WorkspaceManifestEntry) := entries.foldlM insertManifestEntry []

structure WorkspaceManifestEntryChange where
  previous : WorkspaceManifestEntry
  next : WorkspaceManifestEntry
deriving DecidableEq, Repr

structure WorkspaceManifestComparison where
  added : List WorkspaceManifestEntry := []
  removed : List WorkspaceManifestEntry := []
  changed : List WorkspaceManifestEntryChange := []
  unchanged : List WorkspaceManifestEntry := []
deriving DecidableEq, Repr

namespace WorkspaceManifestComparison

def hasChanges (c : WorkspaceManifestComparison) : Bool :=
  !c.added.isEmpty || !c.removed.isEmpty || !c.changed.isEmpty

/-- The loop over `allPaths` at one path. -/
def classify (previous next : List WorkspaceManifestEntry) (c : WorkspaceManifestComparison)
    (path : Text) : WorkspaceManifestComparison :=
  match at? previous path, at? next path with
  | none, some nextEntry => { c with added := c.added ++ [nextEntry] }
  | some previousEntry, none => { c with removed := c.removed ++ [previousEntry] }
  | none, none => c
  | some previousEntry, some nextEntry =>
      if areEntriesEquivalent previousEntry nextEntry then
        { c with unchanged := c.unchanged ++ [nextEntry] }
      else { c with changed := c.changed ++ [⟨previousEntry, nextEntry⟩] }

def paths (c : WorkspaceManifestComparison) : List Text :=
  c.added.map (·.relativePath) ++ c.removed.map (·.relativePath) ++
    c.changed.map (·.next.relativePath)

end WorkspaceManifestComparison

section

/- `collate a b` stands for `a.localeCompare(b) <= 0`. -/
variable (collate : Text → Text → Bool)

def sortPaths (paths : List Text) : List Text := paths.insertionSort fun a b => collate a b

def compareWorkspaceManifests (previousManifest nextManifest : WorkspaceManifest) :
    Except Text WorkspaceManifestComparison := do
  let previous ← createManifestEntryMap previousManifest.entries
  let next ← createManifestEntryMap nextManifest.entries
  let previousPaths := previous.map (·.relativePath)
  let nextPaths := next.map (·.relativePath)
  let allPaths := sortPaths collate (previousPaths ++ nextPaths.filter (· ∉ previousPaths))
  .ok (allPaths.foldl (WorkspaceManifestComparison.classify previous next) {})

structure WorkspaceReplicationBaselineRecord where
  manifestFingerprint : Text
  manifest : WorkspaceManifest
  savedAtMs : Nat
deriving DecidableEq, Repr

structure WorkspaceBaselineManifestComparison where
  baseline : WorkspaceReplicationBaselineRecord
  baselineManifest : WorkspaceManifest
  currentManifest : WorkspaceManifest
  comparison : WorkspaceManifestComparison
  hasChangesSinceBaseline : Bool
deriving DecidableEq, Repr

def buildBaselineManifestComparison (baseline : WorkspaceReplicationBaselineRecord)
    (currentManifest : WorkspaceManifest) : Except Text WorkspaceBaselineManifestComparison := do
  let comparison ← compareWorkspaceManifests collate baseline.manifest currentManifest
  .ok { baseline, baselineManifest := baseline.manifest, currentManifest, comparison,
        hasChangesSinceBaseline := comparison.hasChanges }

structure OneWaySafeReplicationPlan where
  baseline : WorkspaceReplicationBaselineRecord
  sourceManifest : WorkspaceManifest
  targetManifest : WorkspaceManifest
  sourceComparison : WorkspaceBaselineManifestComparison
  targetComparison : WorkspaceBaselineManifestComparison
  targetDivergencePaths : List Text
  blockingTargetDivergencePaths : List Text
  hasTargetDivergence : Bool
  canApplySafely : Bool
deriving DecidableEq, Repr

def collectComparisonPaths (comparison : WorkspaceBaselineManifestComparison) : List Text :=
  sortPaths collate comparison.comparison.paths

def collectTransferPaths (comparison : WorkspaceManifestComparison) : List Text :=
  comparison.paths

def buildOneWaySafeReplicationPlan (baseline : WorkspaceReplicationBaselineRecord)
    (sourceManifest targetManifest : WorkspaceManifest) : Except Text OneWaySafeReplicationPlan := do
  let sourceComparison ← buildBaselineManifestComparison collate baseline sourceManifest
  let targetComparison ← buildBaselineManifestComparison collate baseline targetManifest
  let sourceTransferComparison ← compareWorkspaceManifests collate targetManifest sourceManifest
  let targetDivergencePaths := collectComparisonPaths collate targetComparison
  let transferPaths := collectTransferPaths sourceTransferComparison
  let blockingTargetDivergencePaths := targetDivergencePaths.filter (· ∈ transferPaths)
  .ok { baseline, sourceManifest, targetManifest, sourceComparison, targetComparison,
        targetDivergencePaths, blockingTargetDivergencePaths,
        hasTargetDivergence := targetComparison.hasChangesSinceBaseline,
        canApplySafely := blockingTargetDivergencePaths.isEmpty }

end

theorem head?_serializeWorkspaceManifestEntry (e : WorkspaceManifestEntry) :
    (serializeWorkspaceManifestEntry e).head? =
      some (match e with | .directory _ => 'd' | .symlink .. => 's' | .file .. => 'f') := by
  cases e <;> rfl

theorem serialize_file_injective {p d d' : Text} {n n' : Nat} {x x' : Bool}
    (h : serializeWorkspaceManifestEntry (.file p d n x) =
      serializeWorkspaceManifestEntry (.file p d' n' x')) : d = d' ∧ n = n' ∧ x = x' := by
  have hflag (x : Bool) : '\t' ∉ [if x then '1' else '0'] := by cases x <;> decide
  have hdigits (n : Nat) : '\t' ∉ Nat.toDigits 10 n := fun hmem =>
    absurd (DottedIds.isDigit_toDigits hmem) (by decide)
  simp only [serializeWorkspaceManifestEntry, List.append_cancel_left_eq, List.cons.injEq,
    true_and] at h
  -- the flag and the size hold no tab, so the text is read from its end
  rw [← List.cons_append, ← List.cons_append, ← List.append_assoc, ← List.append_assoc] at h
  obtain ⟨hfront, hx⟩ := DottedIds.append_cons_injective (hflag x) (hflag x') h
  obtain ⟨hdigest, hn⟩ := DottedIds.append_cons_injective (hdigits n) (hdigits n') hfront
  refine ⟨hdigest, DottedIds.toDigits_injective hn, ?_⟩
  cases x <;> cases x' <;> simp_all

theorem eq_of_areEntriesEquivalent {a b : WorkspaceManifestEntry}
    (hpath : a.relativePath = b.relativePath) (h : areEntriesEquivalent a b = true) : a = b := by
  have hser : serializeWorkspaceManifestEntry a = serializeWorkspaceManifestEntry b :=
    of_decide_eq_true h
  have hkind := congrArg List.head? hser
  rw [head?_serializeWorkspaceManifestEntry, head?_serializeWorkspaceManifestEntry] at hkind
  cases a with
  | directory p =>
      cases b with
      | directory q => exact congrArg _ hpath
      | symlink q t => simp at hkind
      | file q d n x => simp at hkind
  | symlink p t =>
      cases b with
      | directory q => simp at hkind
      | file q d n x => simp at hkind
      | symlink q u =>
          obtain rfl : p = q := hpath
          simp only [serializeWorkspaceManifestEntry, List.append_cancel_left_eq, List.cons.injEq,
            true_and] at hser
          rw [hser]
  | file p d n x =>
      cases b with
      | directory q => simp at hkind
      | symlink q u => simp at hkind
      | file q d' n' x' =>
          obtain rfl : p = q := hpath
          obtain ⟨rfl, rfl, rfl⟩ := serialize_file_injective hser
          rfl

theorem relativePath_of_at? {entries : List WorkspaceManifestEntry} {path : Text}
    {e : WorkspaceManifestEntry} (h : at? entries path = some e) : e.relativePath = path := by
  simpa using List.find?_some h

theorem at?_isSome_iff {entries : List WorkspaceManifestEntry} {path : Text} :
    (at? entries path).isSome ↔ path ∈ entries.map (·.relativePath) := by
  simp [at?]

theorem createManifestEntryMap_of_nodup {entries : List WorkspaceManifestEntry}
    (h : (entries.map (·.relativePath)).Nodup) : createManifestEntryMap entries = .ok entries := by
  have hfold (es map : List WorkspaceManifestEntry)
      (hn : ((map ++ es).map (·.relativePath)).Nodup) :
      es.foldlM insertManifestEntry map = .ok (map ++ es) := by
    induction es generalizing map with
    | nil => simp [pure, Except.pure]
    | cons e es ih =>
        have hnew : ¬(at? map e.relativePath).isSome := by
          rw [at?_isSome_iff]
          rw [List.map_append, List.map_cons] at hn
          exact fun hmem => List.disjoint_of_nodup_append hn hmem List.mem_cons_self
        have happend : map ++ e :: es = map ++ [e] ++ es := by simp
        rw [List.foldlM_cons, insertManifestEntry, if_neg hnew, happend]
        rw [happend] at hn
        exact ih (map ++ [e]) hn
  exact hfold entries [] h

namespace WorkspaceManifestComparison

theorem paths_classify (previous next : List WorkspaceManifestEntry)
    (c : WorkspaceManifestComparison) (path : Text) :
    (classify previous next c path).paths.Perm
      (c.paths ++ if at? previous path = at? next path then [] else [path]) := by
  rw [classify]
  cases hp : at? previous path with
  | none =>
      cases hn : at? next path with
      | none => simp
      | some e =>
          simp only [paths, List.map_append, List.map_cons, List.map_nil,
            relativePath_of_at? hn, reduceCtorEq, if_false, List.append_assoc]
          exact (List.perm_append_comm.append_left _).trans (by simp)
  | some e =>
      cases hn : at? next path with
      | none =>
          simp only [paths, List.map_append, List.map_cons, List.map_nil,
            relativePath_of_at? hp, reduceCtorEq, if_false, List.append_assoc]
          exact (List.perm_append_comm.append_left _).append_left _ |>.trans (by simp)
      | some e' =>
          have hpath : e.relativePath = e'.relativePath :=
            (relativePath_of_at? hp).trans (relativePath_of_at? hn).symm
          by_cases he : e = e'
          · subst he
            simp [areEntriesEquivalent, paths]
          · have hne : areEntriesEquivalent e e' = false :=
              Bool.eq_false_iff.mpr fun h => he (eq_of_areEntriesEquivalent hpath h)
            simp [hne, he, paths, relativePath_of_at? hn]

theorem paths_foldl_classify (previous next : List WorkspaceManifestEntry) (ps : List Text)
    (c : WorkspaceManifestComparison) :
    (ps.foldl (classify previous next) c).paths.Perm
      (c.paths ++ ps.filter fun path => at? previous path ≠ at? next path) := by
  induction ps generalizing c with
  | nil => simp
  | cons path ps ih =>
      refine (ih _).trans (((paths_classify previous next c path).append_right _).trans ?_)
      by_cases h : at? previous path = at? next path <;> simp [h]

end WorkspaceManifestComparison

section

variable {collate : Text → Text → Bool} {previous next : WorkspaceManifest}

theorem compareWorkspaceManifests_spec (hp : previous.UniquePaths) (hn : next.UniquePaths) :
    ∃ c, compareWorkspaceManifests collate previous next = .ok c ∧ c.paths.Nodup ∧
      ∀ path, path ∈ c.paths ↔ at? previous.entries path ≠ at? next.entries path := by
  rw [compareWorkspaceManifests, createManifestEntryMap_of_nodup hp,
    createManifestEntryMap_of_nodup hn]
  refine ⟨_, rfl, ?_, ?_⟩
  · have hkeys : (previous.entries.map (·.relativePath) ++
        (next.entries.map (·.relativePath)).filter
          (· ∉ previous.entries.map (·.relativePath))).Nodup := by
      refine List.Nodup.append hp (hn.filter _) fun path hl hr => ?_
      simpa using (List.mem_filter.mp hr).2 |> of_decide_eq_true |> absurd hl
    refine (WorkspaceManifestComparison.paths_foldl_classify ..).nodup_iff.mpr ?_
    exact ((List.perm_insertionSort _ _).nodup_iff.mpr hkeys).filter _
  · intro path
    rw [(WorkspaceManifestComparison.paths_foldl_classify ..).mem_iff]
    simp only [WorkspaceManifestComparison.paths, List.map_nil, List.append_nil, List.nil_append,
      List.mem_filter, sortPaths, List.mem_insertionSort, List.mem_append, decide_eq_true_eq,
      and_iff_right_iff_imp]
    intro hne
    by_contra hnot
    rw [not_or] at hnot
    have hprev : at? previous.entries path = none :=
      Option.not_isSome_iff_eq_none.mp (mt at?_isSome_iff.mp hnot.1)
    have hnext : at? next.entries path = none :=
      Option.not_isSome_iff_eq_none.mp (mt at?_isSome_iff.mp fun h => hnot.2 ⟨h, hnot.1⟩)
    exact hne (hprev.trans hnext.symm)

end

/-- A plan blocks exactly the paths at which the target has an entry of its
own, neither that of the source nor that of the baseline. -/
theorem buildOneWaySafeReplicationPlan_blocks (collate : Text → Text → Bool)
    {baseline : WorkspaceReplicationBaselineRecord} {source target : WorkspaceManifest}
    (hb : baseline.manifest.UniquePaths) (hs : source.UniquePaths) (ht : target.UniquePaths) :
    ∃ plan, buildOneWaySafeReplicationPlan collate baseline source target = .ok plan ∧
      plan.blockingTargetDivergencePaths.Nodup ∧
      (∀ path, path ∈ plan.blockingTargetDivergencePaths ↔
        at? target.entries path ≠ at? source.entries path ∧
          at? target.entries path ≠ at? baseline.manifest.entries path) ∧
      (plan.canApplySafely = true ↔ ∀ path,
        at? target.entries path = at? source.entries path ∨
          at? target.entries path = at? baseline.manifest.entries path) := by
  obtain ⟨sc, hsc, -, -⟩ := @compareWorkspaceManifests_spec collate _ _ hb hs
  obtain ⟨tc, htc, htcNodup, htcMem⟩ := @compareWorkspaceManifests_spec collate _ _ hb ht
  obtain ⟨xc, hxc, -, hxcMem⟩ := @compareWorkspaceManifests_spec collate _ _ ht hs
  have hmem (path : Text) :
      path ∈ (sortPaths collate tc.paths).filter (· ∈ xc.paths) ↔
        at? target.entries path ≠ at? source.entries path ∧
          at? target.entries path ≠ at? baseline.manifest.entries path := by
    rw [List.mem_filter, sortPaths, List.mem_insertionSort, htcMem, decide_eq_true_eq, hxcMem,
      and_comm, ne_comm (a := at? baseline.manifest.entries path)]
  rw [buildOneWaySafeReplicationPlan, buildBaselineManifestComparison,
    buildBaselineManifestComparison, hsc, htc, hxc]
  refine ⟨_, rfl, ?_, hmem, ?_⟩
  · exact ((List.perm_insertionSort _ _).nodup_iff.mpr htcNodup).filter _
  · change ((sortPaths collate tc.paths).filter (· ∈ xc.paths)).isEmpty = true ↔ _
    rw [List.isEmpty_iff, List.eq_nil_iff_forall_not_mem]
    refine forall_congr' fun path => ?_
    rw [hmem, not_and_or, not_not, not_not]

/-- A `README.md` of the given size. -/
def readmeManifest (sizeBytes : Nat) : WorkspaceManifest :=
  { entries := [.file "README.md".toList "sha256:1".toList sizeBytes false] }

def readmeBaseline : WorkspaceReplicationBaselineRecord := ⟨[], readmeManifest 1, 0⟩

theorem edited_on_both_sides_blocks :
    ∃ plan, buildOneWaySafeReplicationPlan (fun _ _ => true) readmeBaseline (readmeManifest 2)
        (readmeManifest 3) = .ok plan ∧ plan.canApplySafely = false := by
  have hb : readmeBaseline.manifest.UniquePaths := List.nodup_singleton _
  have hs : (readmeManifest 2).UniquePaths := List.nodup_singleton _
  have ht : (readmeManifest 3).UniquePaths := List.nodup_singleton _
  obtain ⟨plan, hplan, -, -, hsafe⟩ := buildOneWaySafeReplicationPlan_blocks (fun _ _ => true) hb hs ht
  refine ⟨plan, hplan, Bool.eq_false_iff.mpr fun h => ?_⟩
  exact absurd (hsafe.mp h "README.md".toList) (by decide)

end DevPilot.Replication
