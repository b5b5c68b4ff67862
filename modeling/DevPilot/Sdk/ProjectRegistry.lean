import DevPilot.Core.Responses
import DevPilot.Lib.BlankText
import DevPilot.Lib.Runs

/-!
The registry of projects the desktop knows: opening, removing and listing them, and what
becomes of the entries of other projects.
-/

namespace DevPilot

open PyJson Runs

variable {F : Type}

structure ProjectRecord (F : Type) where
  id : String
  path : String
  name : String
  createdAt : F
  lastOpenedAt : F

def ProjectRecord.asProtocol (r : ProjectRecord F) : Json F :=
  .obj [("projectId", .str r.id), ("path", .str r.path), ("name", .str r.name),
    ("createdAt", .float r.createdAt),
    ("lastOpenedAt", .float r.lastOpenedAt)]

structure RegistryHost (F : Type) where
  pyText : Json F → String
  number : Json F → Option F
  notOlder : F → F → Bool
  stableProjectId : String → String
  baseName : String → String

/-- The file system and the clock at an operation. A resolved path is not blank. -/
structure RegistryEnv (F : Type) where
  now : F
  isDir : String → Bool
  resolve : String → String
  openPath : String → String
  metadataCreatedAt : Option (Json F)
  metadataFails : Bool
  writeFails : Bool
  resolve_ne (path : String) : stripText (resolve path) ≠ ""

namespace ProjectRegistry

/-- The content of the registry file, `none` where it cannot be read. -/
abbrev File (F : Type) := Option (Json F)

def entries (file : File F) : List (Json F) :=
  match file.bind (·.get? "projects") with
  | some (.arr es) => es
  | _ => []

variable (host : RegistryHost F)

def textField (entry : Json F) (key : String) : String :=
  match entry.get? key with
  | none => ""
  | some (.str s) => s
  | some v => host.pyText v

def pathOf (entry : Json F) : String := stripText (textField host entry "path")

def idOf (entry : Json F) : String := stripText (textField host entry "projectId")

def numberOr (v : Option (Json F)) (fallback : F) : F := (v.bind host.number).getD fallback

def nameOf (entry : Json F) : String :=
  let path := pathOf host entry
  if textField host entry "name" ≠ "" then textField host entry "name"
  else if host.baseName path ≠ "" then host.baseName path else path

def recordOf (env : RegistryEnv F) (entry : Json F) : ProjectRecord F where
  id := idOf host entry
  path := env.resolve (pathOf host entry)
  name := nameOf host entry
  createdAt := numberOr host (entry.get? "createdAt") env.now
  lastOpenedAt := numberOr host (entry.get? "lastOpenedAt") env.now

def isRegistered (entry : Json F) : Bool :=
  entry.isObj && pathOf host entry != "" && idOf host entry != ""

def list (env : RegistryEnv F) (file : File F) : List (ProjectRecord F) :=
  (((entries file).filter fun e => isRegistered host e && env.isDir (pathOf host e)).map
    (recordOf host env)).mergeSort
    fun a b => host.notOlder a.lastOpenedAt b.lastOpenedAt

def write (env : RegistryEnv F) (file : File F) (records : List (ProjectRecord F)) : File F :=
  if env.writeFails then file
  else some (.obj [("schemaVersion", .int 1),
    ("projects", .arr (records.map ProjectRecord.asProtocol))])

def openedRecord (env : RegistryEnv F) (rawPath : String) : ProjectRecord F :=
  let resolved := env.openPath rawPath
  { id := host.stableProjectId resolved
    path := resolved
    name := if host.baseName resolved ≠ "" then host.baseName resolved else resolved
    createdAt := numberOr host env.metadataCreatedAt env.now
    lastOpenedAt := env.now }

def openProject (env : RegistryEnv F) (file : File F) (rawPath : String) : File F :=
  if !env.isDir (env.openPath rawPath) || env.metadataFails then file
  else
    let record := openedRecord host env rawPath
    let projects := Members.ofPairs ((list host env file).map fun r => (r.id, r))
    write env file ((Members.insert record.id record projects).map Prod.snd)

def remove (env : RegistryEnv F) (file : File F) (projectId : String) : File F :=
  let records := list host env file
  let retained := records.filter (·.id ≠ projectId)
  if retained.length = records.length then file else write env file retained

inductive Op
  | open (rawPath : String)
  | remove (projectId : String)
  | list

def step (file : File F) (e : RegistryEnv F × Op) : File F :=
  match e.2 with
  | .open rawPath => openProject host e.1 file rawPath
  | .remove projectId => remove host e.1 file projectId
  | .list => file

def target (e : RegistryEnv F × Op) : Option String :=
  match e.2 with
  | .open rawPath => some (host.stableProjectId (e.1.openPath rawPath))
  | .remove projectId => some projectId
  | .list => none

/-- Every entry of another project is still there, as it was or as it is listed. -/
def KeepsOthers (file : File F) (e : RegistryEnv F × Op) : Prop :=
  ∀ entry ∈ entries file, isRegistered host entry = true → target host e ≠ some (idOf host entry) →
    entry ∈ entries (step host file e) ∨ (recordOf host e.1 entry).asProtocol ∈ entries
      (step host file e)

/-- The directories of all other projects are there, and entries with the id of one of them
say the same. -/
def OthersAvailable (file : File F) (e : RegistryEnv F × Op) : Prop :=
  ∀ entry ∈ entries file, isRegistered host entry = true → target host e ≠ some (idOf host entry) →
    e.1.isDir (pathOf host entry) = true ∧
      ∀ entry' ∈ entries file, isRegistered host entry' = true → idOf host entry' =
        idOf host entry →
        recordOf host e.1 entry' = recordOf host e.1 entry

def Writes (file : File F) (e : RegistryEnv F × Op) : Prop :=
  e.1.writeFails = false ∧ match e.2 with
    | .open rawPath => e.1.isDir (e.1.openPath rawPath) = true ∧ e.1.metadataFails = false
    | .remove projectId => ∃ r ∈ list host e.1 file, r.id = projectId
    | .list => False

variable {host} {file : File F}

theorem mem_list_iff {env : RegistryEnv F} {r : ProjectRecord F} : r ∈ list host env file ↔
    ∃ entry ∈ entries file, (isRegistered host entry = true ∧ env.isDir (pathOf host entry) =
      true) ∧
      recordOf host env entry = r := by
  rw [list, (List.mergeSort_perm _ _).mem_iff, List.mem_map]
  simp only [List.mem_filter, Bool.and_eq_true, and_assoc]

theorem entries_write {env : RegistryEnv F} (h : env.writeFails = false)
    (records : List (ProjectRecord F)) :
    entries (write env file records) = records.map ProjectRecord.asProtocol := by
  rw [write, if_neg (by simp [h])]
  rfl

theorem remove_eq_self {env : RegistryEnv F} {projectId : String}
    (h : ∀ r ∈ list host env file, r.id ≠ projectId) :
    remove host env file projectId = file := by
  have hretained : (list host env file).filter (·.id ≠ projectId) = list host env file :=
    List.filter_eq_self.mpr fun r hr => decide_eq_true (h r hr)
  rw [remove]
  simp only [hretained, if_true]

theorem remove_eq_write {env : RegistryEnv F} {projectId : String}
    (h : ∃ r ∈ list host env file, r.id = projectId) :
    remove host env file projectId =
      write env file ((list host env file).filter (·.id ≠ projectId)) := by
  rw [remove, if_neg]
  intro hlength
  obtain ⟨r, hr, hid⟩ := h
  have hall := List.filter_eq_self.mp (List.filter_sublist.eq_of_length hlength) r hr
  exact of_decide_eq_true hall hid

theorem step_eq_self_of_not_writes {e : RegistryEnv F × Op} (h : ¬Writes host file e) :
    step host file e = file := by
  obtain ⟨env, op⟩ := e
  have hwrite : ∀ records, env.writeFails = true → write env file records = file := by
    intro records hfails
    rw [write, if_pos hfails]
  cases op with
  | list => rfl
  | remove projectId =>
      by_cases hfound : ∃ r ∈ list host env file, r.id = projectId
      · have hfails : env.writeFails = true := by
          by_contra hnot
          exact h ⟨Bool.eq_false_iff.mpr hnot, hfound⟩
        exact (remove_eq_write hfound).trans (hwrite _ hfails)
      · exact remove_eq_self fun r hr hid => hfound ⟨r, hr, hid⟩
  | «open» rawPath =>
      change openProject host env file rawPath = file
      rw [openProject]
      split_ifs with hno
      · rfl
      · rw [Bool.or_eq_true, not_or] at hno
        refine hwrite _ ?_
        by_contra hnot
        refine h ⟨Bool.eq_false_iff.mpr hnot, ?_, Bool.eq_false_iff.mpr hno.2⟩
        simpa using hno.1

theorem exists_lookup_ofPairs {β : Type} {pairs : List (String × β)} {k : String} {v : β}
    (h : (k, v) ∈ pairs) :
    ∃ w, (k, w) ∈ pairs ∧ (Members.ofPairs pairs).lookup k = some w := by
  induction pairs using List.reverseRecOn with
  | nil => cases h
  | append_singleton pairs p ih =>
      rw [Members.ofPairs, List.foldl_append, List.foldl_cons, List.foldl_nil,
        ← Members.ofPairs.eq_1]
      by_cases hp : k = p.1
      · subst hp
        exact ⟨p.2, by simp, Members.lookup_insert_self _ _ _⟩
      · rw [Members.lookup_insert_ne hp]
        have hmem : (k, v) ∈ pairs := by
          rcases List.mem_append.mp h with h | h
          · exact h
          · exact absurd (congrArg Prod.fst (List.mem_singleton.mp h)) hp
        obtain ⟨w, hw, hlookup⟩ := ih hmem
        exact ⟨w, List.mem_append_left _ hw, hlookup⟩

theorem step_keepsOthers {e : RegistryEnv F × Op}
    (h : Writes host file e → OthersAvailable host file e) :
    KeepsOthers host file e := by
  intro entry hentry hregistered hother
  by_cases hwrites : Writes host file e
  · right
    obtain ⟨hdir, hsame⟩ := h hwrites entry hentry hregistered hother
    obtain ⟨env, op⟩ := e
    have hlisted : recordOf host env entry ∈ list host env file :=
      mem_list_iff.mpr ⟨entry, hentry, ⟨hregistered, hdir⟩, rfl⟩
    cases op with
    | list => exact absurd hwrites.2 id
    | remove projectId =>
        change _ ∈ entries (remove host env file projectId)
        rw [remove_eq_write hwrites.2, entries_write hwrites.1]
        refine List.mem_map_of_mem (List.mem_filter.mpr ⟨hlisted, decide_eq_true ?_⟩)
        exact fun hid => hother (congrArg some hid.symm)
    | «open» rawPath =>
        obtain ⟨hopens, hmetadata⟩ : env.isDir (env.openPath rawPath) = true ∧ env.metadataFails =
          false := hwrites.2
        change _ ∈ entries (openProject host env file rawPath)
        rw [openProject, if_neg (by simp [hopens, hmetadata]), entries_write hwrites.1]
        refine List.mem_map_of_mem
          (List.mem_map.mpr ⟨(idOf host entry, recordOf host env entry), ?_, rfl⟩)
        apply Members.mem_of_lookup
        have hne : idOf host entry ≠ (openedRecord host env rawPath).id := fun hid =>
          hother (congrArg some hid.symm)
        rw [Members.lookup_insert_ne hne]
        have hpairs : (idOf host entry, recordOf host env entry) ∈ (list host env file).map fun r =>
          (r.id, r) :=
          List.mem_map.mpr ⟨_, hlisted, rfl⟩
        obtain ⟨w, hw, hlookup⟩ := exists_lookup_ofPairs hpairs
        rw [hlookup]
        obtain ⟨r, hr, hpair⟩ := List.mem_map.mp hw
        obtain ⟨entry', hentry', ⟨hregistered', -⟩, rfl⟩ := mem_list_iff.mp hr
        obtain ⟨hid, rfl⟩ := Prod.mk.inj hpair
        rw [hsame entry' hentry' hregistered' hid]
  · left
    rw [step_eq_self_of_not_writes hwrites]
    exact hentry

def Knows (host : RegistryHost F) (file : File F) (id : String) : Prop :=
  ∃ entry ∈ entries file, isRegistered host entry = true ∧ idOf host entry = id

theorem stripText_stripText (s : String) : stripText (stripText s) = stripText s := by
  rw [stripText, stripText, String.toList_ofList]
  exact congrArg String.ofList (BlankText.trim_trim _)

theorem Knows.step {id : String} (h : Knows host file id) {e : RegistryEnv F × Op}
    (hkeeps : KeepsOthers host file e)
    (hother : target host e ≠ some id) : Knows host (step host file e) id := by
  obtain ⟨entry, hentry, hregistered, rfl⟩ := h
  rcases hkeeps entry hentry hregistered hother with hmem | hmem
  · exact ⟨entry, hmem, hregistered, rfl⟩
  · have hid : idOf host (recordOf host e.1 entry).asProtocol = idOf host entry :=
      stripText_stripText _
    refine ⟨_, hmem, ?_, hid⟩
    rw [isRegistered, Bool.and_eq_true, Bool.and_eq_true] at hregistered ⊢
    rw [hid]
    exact ⟨⟨rfl, bne_iff_ne.mpr (e.1.resolve_ne _)⟩, hregistered.2⟩

def unitHost : RegistryHost Unit where
  pyText _ := ""
  number _ := some ()
  notOlder _ _ := true
  stableProjectId := id
  baseName := id

/-- Only the directory `/a` is there. -/
def onlyA : RegistryEnv Unit where
  now := ()
  isDir path := path == "/a"
  resolve _ := "/a"
  openPath := id
  metadataCreatedAt := none
  metadataFails := false
  writeFails := false
  resolve_ne _ := by decide

def projectB : Json Unit := .obj [("projectId", .str "/b"), ("path", .str "/b")]

def registryOfB : File Unit := some (.obj [("projects", .arr [projectB])])

end ProjectRegistry

end DevPilot
