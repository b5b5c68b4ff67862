import DevPilot.Lib.Comparisons
import DevPilot.Lib.Firsts
import DevPilot.Lib.OrderedMap

/-!
Merging what the turns of a session changed into one list of files.
-/

namespace DevPilot.SessionChanges

open Comparisons Firsts OrderedMaps

inductive ChangeEvidenceSource
  | providerNative
  | providerTool
  | canonicalDiffTool
  | canonicalPatchTool
  | scmReconciled
  | inferred
deriving DecidableEq, Repr

inductive ChangeConfidence
  | exact
  | strong
  | bestEffort
deriving DecidableEq, Repr

inductive FileChangeKind
  | added
  | modified
  | deleted
  | renamed
  | copied
  | unknown
deriving DecidableEq, Repr

def ChangeEvidenceSource.precedence : ChangeEvidenceSource → Nat
  | .providerNative => 0
  | .providerTool => 1
  | .canonicalDiffTool => 2
  | .canonicalPatchTool => 3
  | .scmReconciled => 4
  | .inferred => 5

def ChangeConfidence.precedence : ChangeConfidence → Nat
  | .exact => 0
  | .strong => 1
  | .bestEffort => 2

def pickMoreSpecificSource (left right : ChangeEvidenceSource) : ChangeEvidenceSource :=
  if left.precedence ≤ right.precedence then left else right

def pickWeakerConfidence (left right : ChangeConfidence) : ChangeConfidence :=
  if right.precedence ≤ left.precedence then left else right

structure FileChangeEvidence where
  filePath : String
  previousFilePath : Option String := none
  changeKind : FileChangeKind
  unifiedDiff : Option String := none
  oldText : Option String := none
  newText : Option String := none
  binary : Option Bool := none
  source : ChangeEvidenceSource
  confidence : ChangeConfidence
  provider : String
  providerTurnId : Option String := none
  providerMessageId : Option String := none
  description : Option String := none
deriving DecidableEq, Repr

structure TurnChangeSet where
  turnId : String
  files : List FileChangeEvidence
deriving DecidableEq, Repr

structure SessionChangeSetFile extends FileChangeEvidence where
  turns : List String
deriving DecidableEq, Repr

structure ConfidenceSummary where
  source : ChangeEvidenceSource
  confidence : ChangeConfidence
deriving DecidableEq, Repr

structure SessionChangeSet where
  sessionId : String
  turns : List TurnChangeSet
  files : List SessionChangeSetFile
  rolledBackTurnIds : List String
  confidenceSummary : ConfidenceSummary
deriving DecidableEq, Repr

def mergeFileEvidence (current : Option SessionChangeSetFile) (next : FileChangeEvidence)
    (turnId : String) : SessionChangeSetFile :=
  match current with
  | none => { next with turns := [turnId] }
  | some current =>
      { current with
        previousFilePath := current.previousFilePath <|> next.previousFilePath
        changeKind := next.changeKind
        unifiedDiff := next.unifiedDiff <|> current.unifiedDiff
        oldText := current.oldText <|> next.oldText
        newText := next.newText <|> current.newText
        binary := current.binary <|> next.binary
        source := pickMoreSpecificSource current.source next.source
        confidence := pickWeakerConfidence current.confidence next.confidence
        provider := if next.provider = "" then current.provider else next.provider
        providerTurnId := next.providerTurnId <|> current.providerTurnId
        providerMessageId := next.providerMessageId <|> current.providerMessageId
        description := next.description <|> current.description
        turns := if turnId ∈ current.turns then current.turns else current.turns ++ [turnId] }

/-- What the loops of `mergeTurnChangeSets` carry. -/
structure Merging where
  byFilePath : OrderedMap String SessionChangeSetFile := .empty
  summarySource : ChangeEvidenceSource := .providerNative
  summaryConfidence : ChangeConfidence := .exact

namespace Merging

def addFile (turnId : String) (m : Merging) (file : FileChangeEvidence) : Merging where
  byFilePath := m.byFilePath.set file.filePath
    (mergeFileEvidence (m.byFilePath.get file.filePath) file turnId)
  summarySource := pickMoreSpecificSource m.summarySource file.source
  summaryConfidence := pickWeakerConfidence m.summaryConfidence file.confidence

def addTurn (m : Merging) (turn : TurnChangeSet) : Merging :=
  turn.files.foldl (addFile turn.turnId) m

end Merging

def mergeTurnChangeSets (localeCompare : String → String → Ordering) (sessionId : String)
    (turns : List TurnChangeSet) (rolledBackTurnIds : Option (List String)) : SessionChangeSet :=
  let merged := turns.foldl Merging.addTurn {}
  { sessionId
    turns
    files := sort (fun left right => localeCompare left.filePath right.filePath)
      (merged.byFilePath.entries.map Prod.snd)
    rolledBackTurnIds := rolledBackTurnIds.getD []
    confidenceSummary := ⟨merged.summarySource, merged.summaryConfidence⟩ }

def touches (turns : List TurnChangeSet) : List (String × FileChangeEvidence) :=
  turns.flatMap fun turn => turn.files.map fun file => (turn.turnId, file)

def turnsOf (touched : List (String × FileChangeEvidence)) (filePath : String) : List String :=
  (touched.filter fun touch => touch.2.filePath = filePath).map Prod.fst

def LeastOf {α : Type} (rank : α → Nat) (value : α) (occurring : List α) : Prop :=
  value ∈ occurring ∧ ∀ other ∈ occurring, rank value ≤ rank other

def GreatestOf {α : Type} (rank : α → Nat) (value : α) (occurring : List α) : Prop :=
  value ∈ occurring ∧ ∀ other ∈ occurring, rank other ≤ rank value

structure Summarises (touched : List (String × FileChangeEvidence)) (merged : SessionChangeSet) :
    Prop where
  source : LeastOf ChangeEvidenceSource.precedence merged.confidenceSummary.source
    (touched.map (·.2.source))
  confidence : GreatestOf ChangeConfidence.precedence merged.confidenceSummary.confidence
    (touched.map (·.2.confidence))
  once : (merged.files.map (·.filePath)).Nodup
  paths : ∀ filePath, filePath ∈ merged.files.map (·.filePath) ↔
    filePath ∈ touched.map (·.2.filePath)
  turns : ∀ file ∈ merged.files, file.turns = (turnsOf touched file.filePath).eraseDups

theorem foldl_addTurn (turns : List TurnChangeSet) (m : Merging) :
    turns.foldl Merging.addTurn m =
      (touches turns).foldl (fun m touch => m.addFile touch.1 touch.2) m := by
  rw [touches, List.foldl_flatMap]
  congr 1
  funext m turn
  rw [List.foldl_map, Merging.addTurn]

theorem pickMoreSpecificSource_native (source : ChangeEvidenceSource) :
    pickMoreSpecificSource .providerNative source = .providerNative := if_pos (Nat.zero_le _)

theorem rank_pickWeakerConfidence (left right : ChangeConfidence) :
    left.precedence ≤ (pickWeakerConfidence left right).precedence ∧
      right.precedence ≤ (pickWeakerConfidence left right).precedence := by
  rw [pickWeakerConfidence]
  split_ifs with h
  · exact ⟨le_rfl, h⟩
  · exact ⟨(not_le.mp h).le, le_rfl⟩

theorem pickWeakerConfidence_eq (left right : ChangeConfidence) :
    pickWeakerConfidence left right = left ∨ pickWeakerConfidence left right = right := by
  rw [pickWeakerConfidence]
  split_ifs
  · exact .inl rfl
  · exact .inr rfl

@[simp] theorem filePath_mergeFileEvidence {current : Option SessionChangeSetFile}
    {next : FileChangeEvidence} (h : ∀ file ∈ current, file.filePath = next.filePath)
    (turnId : String) : (mergeFileEvidence current next turnId).filePath = next.filePath := by
  cases current with
  | none => rfl
  | some current => exact h current rfl

structure Merges (touched : List (String × FileChangeEvidence)) (m : Merging) : Prop where
  source : m.summarySource = .providerNative
  confidence : m.summaryConfidence = .exact ∨ m.summaryConfidence ∈ touched.map (·.2.confidence)
  weakest : ∀ c ∈ touched.map (·.2.confidence), c.precedence ≤ m.summaryConfidence.precedence
  path : ∀ filePath file, m.byFilePath.get filePath = some file → file.filePath = filePath
  get : ∀ filePath, (m.byFilePath.get filePath).map (·.turns) =
    if filePath ∈ touched.map (·.2.filePath) then some (turnsOf touched filePath).eraseDups else none

theorem merges_empty : Merges [] {} where
  source := rfl
  confidence := .inl rfl
  weakest c hc := absurd hc List.not_mem_nil
  path filePath file hget := by simp [OrderedMap.get, OrderedMap.empty] at hget
  get filePath := by simp [OrderedMap.get, OrderedMap.empty]

theorem turnsOf_concat (touched : List (String × FileChangeEvidence)) (turnId : String)
    (file : FileChangeEvidence) (filePath : String) :
    turnsOf (touched ++ [(turnId, file)]) filePath =
      turnsOf touched filePath ++ if file.filePath = filePath then [turnId] else [] := by
  rw [turnsOf, List.filter_append, List.map_append, ← turnsOf]
  by_cases h : file.filePath = filePath <;> simp [h]

theorem turns_mergeFileEvidence (current : Option SessionChangeSetFile) (next : FileChangeEvidence)
    (turnId : String) (turned : List String) (hnone : current = none → turned = [])
    (hsome : ∀ file ∈ current, file.turns = turned.eraseDups) :
    (mergeFileEvidence current next turnId).turns = (turned ++ [turnId]).eraseDups := by
  cases current with
  | none =>
      rw [hnone rfl]
      rfl
  | some current =>
      have hturns : current.turns = turned.eraseDups := hsome current rfl
      by_cases hin : turnId ∈ turned
      · have hmem : turnId ∈ current.turns := by rwa [hturns, List.mem_eraseDups]
        rw [mergeFileEvidence, if_pos hmem, hturns, eraseDups_append_of_subset]
        simpa using hin
      · have hmem : turnId ∉ current.turns := by rwa [hturns, List.mem_eraseDups]
        rw [mergeFileEvidence, if_neg hmem, hturns, eraseDups_append_singleton hin]

theorem Merges.addFile {touched : List (String × FileChangeEvidence)} {m : Merging}
    (h : Merges touched m) (turnId : String) (file : FileChangeEvidence) :
    Merges (touched ++ [(turnId, file)]) (m.addFile turnId file) := by
  have hpath : ∀ current ∈ m.byFilePath.get file.filePath, current.filePath = file.filePath :=
    fun current hcurrent => h.path _ current hcurrent
  obtain ⟨hleft, hright⟩ := rank_pickWeakerConfidence m.summaryConfidence file.confidence
  refine ⟨?_, ?_, fun c hc => ?_, fun filePath current hget => ?_, fun filePath => ?_⟩
  · rw [Merging.addFile, h.source, pickMoreSpecificSource_native]
  · rcases pickWeakerConfidence_eq m.summaryConfidence file.confidence with heq | heq
    · rcases h.confidence with hexact | hmem
      · exact .inl (heq.trans hexact)
      · refine .inr ?_
        rw [Merging.addFile, heq, List.map_append]
        exact List.mem_append_left _ hmem
    · refine .inr ?_
      rw [Merging.addFile, heq]
      simp
  · rw [List.map_append, List.mem_append] at hc
    rcases hc with hc | hc
    · exact (h.weakest c hc).trans hleft
    · obtain rfl : c = file.confidence := by simpa using hc
      exact hright
  · rw [Merging.addFile, OrderedMap.get_set] at hget
    split_ifs at hget with heq
    · obtain rfl := Option.some.inj hget
      rw [filePath_mergeFileEvidence hpath, heq]
    · exact h.path filePath current hget
  · rw [Merging.addFile, OrderedMap.get_set, turnsOf_concat]
    have hget := h.get filePath
    by_cases heq : filePath = file.filePath
    · subst heq
      have hnone : m.byFilePath.get file.filePath = none → turnsOf touched file.filePath = [] := by
        intro hnone
        rw [hnone, Option.map_none] at hget
        split_ifs at hget with hmem
        rw [turnsOf, List.map_eq_nil_iff, List.filter_eq_nil_iff]
        intro touch htouch htouched
        exact hmem (List.mem_map.mpr ⟨touch, htouch, by simpa using htouched⟩)
      have hsome : ∀ current ∈ m.byFilePath.get file.filePath,
          current.turns = (turnsOf touched file.filePath).eraseDups := by
        intro current hcurrent
        rw [Option.mem_def.mp hcurrent, Option.map_some] at hget
        split_ifs at hget
        exact Option.some.inj hget
      rw [if_pos rfl, if_pos rfl, if_pos (by simp), Option.map_some,
        turns_mergeFileEvidence _ _ _ _ hnone hsome]
    · rw [if_neg heq, if_neg (Ne.symm heq), List.append_nil, hget]
      have hiff : filePath ∈ (touched ++ [(turnId, file)]).map (·.2.filePath) ↔
          filePath ∈ touched.map (·.2.filePath) := by simp [heq]
      simp only [hiff]

theorem Merges.mem_keys_iff {touched : List (String × FileChangeEvidence)} {m : Merging}
    (h : Merges touched m) {filePath : String} :
    filePath ∈ m.byFilePath.entries.map Prod.fst ↔ filePath ∈ touched.map (·.2.filePath) := by
  have hget := h.get filePath
  constructor
  · intro hkey
    obtain ⟨⟨_, file⟩, hmem, rfl⟩ := List.mem_map.mp hkey
    rw [OrderedMap.get_eq_some.mpr hmem, Option.map_some] at hget
    split_ifs at hget with htouched
    exact htouched
  · intro htouched
    rw [if_pos htouched] at hget
    obtain ⟨file, hfile, -⟩ := Option.map_eq_some_iff.mp hget
    exact List.mem_map_of_mem (f := Prod.fst) (OrderedMap.get_eq_some.mp hfile)

theorem merges_foldl (touched : List (String × FileChangeEvidence)) :
    Merges touched (touched.foldl (fun m touch => m.addFile touch.1 touch.2) {}) := by
  induction touched using List.reverseRecOn with
  | nil => exact merges_empty
  | append_singleton touched touch ih =>
      rw [List.foldl_append]
      exact ih.addFile touch.1 touch.2

variable (localeCompare : String → String → Ordering) (sessionId : String) (turns : List TurnChangeSet)
  (rolledBackTurnIds : Option (List String))

theorem mem_files_iff (file : SessionChangeSetFile) :
    file ∈ (mergeTurnChangeSets localeCompare sessionId turns rolledBackTurnIds).files ↔
      (turns.foldl Merging.addTurn {}).byFilePath.get file.filePath = some file := by
  have hmerges := merges_foldl (touches turns)
  rw [← foldl_addTurn] at hmerges
  rw [mergeTurnChangeSets, (perm_sort _).mem_iff, List.mem_map]
  constructor
  · rintro ⟨⟨filePath, file'⟩, hmem, rfl⟩
    have hget := OrderedMap.get_eq_some.mpr hmem
    rwa [hmerges.path filePath file' hget]
  · intro hget
    exact ⟨(file.filePath, file), OrderedMap.get_eq_some.mp hget, rfl⟩

theorem filePaths_perm :
    ((mergeTurnChangeSets localeCompare sessionId turns rolledBackTurnIds).files.map (·.filePath)).Perm
      ((turns.foldl Merging.addTurn {}).byFilePath.entries.map Prod.fst) := by
  have hmerges := merges_foldl (touches turns)
  rw [← foldl_addTurn] at hmerges
  refine ((perm_sort _).map _).trans ?_
  rw [List.map_map]
  refine List.Perm.of_eq (List.map_congr_left fun e he => ?_)
  exact hmerges.path e.1 e.2 (OrderedMap.get_eq_some.mpr he)

/-- The merge summarises the turns where a file comes from the provider itself; the
summary names that source at any rate. -/
theorem summarises_iff :
    Summarises (touches turns) (mergeTurnChangeSets localeCompare sessionId turns rolledBackTurnIds) ↔
      ∃ turn ∈ turns, ∃ file ∈ turn.files, file.source = .providerNative := by
  have hmerges := merges_foldl (touches turns)
  rw [← foldl_addTurn] at hmerges
  have hsource : (mergeTurnChangeSets localeCompare sessionId turns
      rolledBackTurnIds).confidenceSummary.source = .providerNative := hmerges.source
  have hnative : .providerNative ∈ (touches turns).map (·.2.source) ↔
      ∃ turn ∈ turns, ∃ file ∈ turn.files, file.source = .providerNative := by
    simp only [touches, List.mem_map, List.mem_flatMap]
    constructor
    · rintro ⟨_, ⟨turn, hturn, file, hfile, rfl⟩, hsource⟩
      exact ⟨turn, hturn, file, hfile, hsource⟩
    · rintro ⟨turn, hturn, file, hfile, hsource⟩
      exact ⟨(turn.turnId, file), ⟨turn, hturn, file, hfile, rfl⟩, hsource⟩
  constructor
  · intro h
    rw [← hnative, ← hsource]
    exact h.source.1
  · intro h
    have hoccurs := hnative.mpr h
    refine ⟨⟨hsource ▸ hoccurs, fun other _ => by rw [hsource]; exact Nat.zero_le _⟩, ⟨?_, hmerges.weakest⟩,
      (filePaths_perm ..).nodup_iff.mpr (OrderedMap.nodup _), fun filePath => ?_, fun file hfile => ?_⟩
    · rcases hmerges.confidence with hexact | hmem
      · -- then every file is exact, and there is one
        obtain ⟨touch, htouch, -⟩ := List.mem_map.mp hoccurs
        have hmem := List.mem_map_of_mem (f := fun t : String × FileChangeEvidence => t.2.confidence) htouch
        have hrank := hmerges.weakest _ hmem
        rw [hexact] at hrank
        have hconf : touch.2.confidence = .exact := by
          cases hc : touch.2.confidence with
          | exact => rfl
          | _ => simp [hc, ChangeConfidence.precedence] at hrank
        rw [hconf] at hmem
        exact (congrArg (· ∈ _) hexact).mpr hmem
      · exact hmem
    · rw [(filePaths_perm ..).mem_iff]
      exact hmerges.mem_keys_iff
    · rw [mem_files_iff] at hfile
      have hget := hmerges.get file.filePath
      rw [hfile, Option.map_some] at hget
      split_ifs at hget
      exact Option.some.inj hget

def editedFile : FileChangeEvidence where
  filePath := "src/a.ts"
  changeKind := .modified
  source := .providerTool
  confidence := .strong
  provider := "codex"

theorem editedFile_not_summarised :
    ¬Summarises (touches [⟨"turn-1", [editedFile]⟩])
      (mergeTurnChangeSets compare "session-1" [⟨"turn-1", [editedFile]⟩] none) := by
  intro h
  obtain ⟨hmem, -⟩ := h.source
  cases List.mem_singleton.mp hmem

end DevPilot.SessionChanges
