import DevPilot.Sdk.ConversationRun
import DevPilot.Sdk.ImportRetry

/-!
Which failures a conversation survives with its handle, its file and its run task in
agreement.
-/

namespace DevPilot.Sdk

open PyJson TextLines Runs

variable {F : Type}

structure RecordUpdate.Storable (u : RecordUpdate) : Prop where
  title : u.title ≠ some ""
  activeRunId : u.activeRunId ≠ some (some "")
  lastError : u.lastError ≠ some (some "")

theorem ConversationRecord.Storable.apply {r : ConversationRecord F} (h : r.Storable)
    {u : RecordUpdate} (hu : u.Storable) (now : F) : (u.apply now r).Storable where
  id := h.id
  projectId := h.projectId
  title := by
    cases ht : u.title with
    | none => simpa [RecordUpdate.apply, ht] using h.title
    | some title => simpa [RecordUpdate.apply, ht] using hu.title
  createdAt := h.createdAt
  updatedAt := isNumber_float now
  provider := h.provider
  reasoningEffort := h.reasoningEffort
  activeRunId := by
    cases ha : u.activeRunId with
    | none => simpa [RecordUpdate.apply, ha] using h.activeRunId
    | some runId => simpa [RecordUpdate.apply, ha] using hu.activeRunId
  lastError := by
    cases he : u.lastError with
    | none => simpa [RecordUpdate.apply, he] using h.lastError
    | some error => simpa [RecordUpdate.apply, he] using hu.lastError

theorem titleFromPrompt_ne_empty {text : String} (h : (stripText text).isEmpty = false) :
    titleFromPrompt (stripText text) ≠ "" := by
  have hstrip : strip text.toList ≠ [] := by
    intro hnil
    simp [stripText, hnil] at h
  obtain ⟨c, w, ws, hwords⟩ := words_head (exists_not_isSpace_of_strip hstrip)
  rw [titleFromPrompt, stripText, String.toList_ofList, hwords]
  cases ws <;> simp [List.intercalate]

theorem safeError_ne_empty (error : String) : safeError error ≠ "" := by
  rw [safeError]
  split_ifs with hempty
  · decide
  · simpa using hempty

namespace DevPilotConversation

theorem storable_startUpdate (uuid : String) (resume : Bool) :
    (startUpdate ("run-" ++ uuid) resume).Storable :=
  ⟨nofun, by simp [startUpdate], nofun⟩

theorem storable_titleUpdate {title : String} (h : title ≠ "") : (titleUpdate title).Storable :=
  ⟨by simpa [titleUpdate] using h, nofun, nofun⟩

theorem storable_pinUpdate (pinned : Bool) : (pinUpdate pinned).Storable := ⟨nofun, nofun, nofun⟩

theorem storable_archiveUpdate (archived : Bool) : (archiveUpdate archived).Storable :=
  ⟨nofun, nofun, nofun⟩

theorem storable_cancelUpdate : cancelUpdate.Storable := ⟨nofun, nofun, nofun⟩

theorem storable_workUpdate : workUpdate.Storable := ⟨nofun, nofun, nofun⟩

theorem storable_completeUpdate : completeUpdate.Storable := ⟨nofun, nofun, nofun⟩

theorem storable_cancelledUpdate : cancelledUpdate.Storable := ⟨nofun, nofun, nofun⟩

theorem storable_failUpdate (error : String) : (failUpdate error).Storable :=
  ⟨nofun, nofun, by simpa [failUpdate] using safeError_ne_empty error⟩

def Effect.isQuiet : Effect F → Bool
  | .assign _ _ | .write => false
  | _ => true

def assigned (c : DevPilotConversation F) (u : RecordUpdate) (now : F) : DevPilotConversation F :=
  { c with record := u.apply now c.record }

def saved (c : DevPilotConversation F) (u : RecordUpdate) (now : F) : DevPilotConversation F :=
  { c with record := u.apply now c.record, file := recordPayload (u.apply now c.record) }

theorem applyAll_append (c : DevPilotConversation F) (es es' : List (Effect F)) :
    c.applyAll (es ++ es') = (c.applyAll es).applyAll es' := List.foldl_append

theorem applyAll_quiet {es : List (Effect F)} (h : es.all Effect.isQuiet = true)
    (c : DevPilotConversation F) : c.applyAll es = c := by
  induction es with
  | nil => rfl
  | cons e es ih =>
      rw [List.all_cons, Bool.and_eq_true] at h
      have he : c.apply e = c := by
        cases e with
        | assign u now => cases h.1
        | write => cases h.1
        | _ => rfl
      exact (congrArg (applyAll · es) he).trans (ih h.2)

theorem all_take {es : List (Effect F)} (h : es.all Effect.isQuiet = true) (k : Nat) :
    (es.take k).all Effect.isQuiet = true := by
  rw [List.all_eq_true] at h ⊢
  exact fun e he => h e (List.mem_of_mem_take he)

theorem task_applyAll (c : DevPilotConversation F) (es : List (Effect F)) :
    (c.applyAll es).task = c.task := by
  induction es generalizing c with
  | nil => rfl
  | cons e es ih =>
      refine (ih (c.apply e)).trans ?_
      cases e <;> rfl

theorem upTo_with_task (c : DevPilotConversation F) (es : List (Effect F)) (k : Nat) :
    { c.upTo es k with task := c.task } = c.upTo es k := by
  have h := task_applyAll c (es.take k)
  rw [upTo, ← h]

theorem upTo_update (before after : List (Effect F)) (hbefore : before.all Effect.isQuiet = true)
    (hafter : after.all Effect.isQuiet = true) (c : DevPilotConversation F) (u : RecordUpdate)
    (now : F) (k : Nat) :
    c.upTo (before ++ updateRecord u now ++ after) k =
      if k ≤ before.length then c
      else if k = before.length + 1 then c.assigned u now else c.saved u now := by
  rw [upTo, List.append_assoc, List.take_append, applyAll_append, applyAll_quiet (all_take hbefore k)]
  split_ifs with hle heq
  · rw [Nat.sub_eq_zero_of_le hle]
    rfl
  · rw [heq, Nat.add_sub_cancel_left]
    rfl
  · obtain ⟨m, hm⟩ : ∃ m, k - before.length = m + 2 := ⟨k - before.length - 2, by omega⟩
    rw [hm]
    refine applyAll_quiet (all_take ?_ m) (c.saved u now)
    simpa [Effect.isQuiet] using hafter

theorem applyAll_update (before after : List (Effect F)) (hbefore : before.all Effect.isQuiet = true)
    (hafter : after.all Effect.isQuiet = true) (c : DevPilotConversation F) (u : RecordUpdate)
    (now : F) : c.applyAll (before ++ updateRecord u now ++ after) = c.saved u now := by
  have h := upTo_update before after hbefore hafter c u now (before ++ updateRecord u now ++ after).length
  rw [upTo, List.take_length] at h
  rw [h, if_neg, if_neg]
  · simp [updateRecord]
  · simp [updateRecord]

end DevPilotConversation

namespace Conversation

open DevPilotConversation

variable {host : SdkHost F} {projectId : String} {h : DevPilotConversation F} {u : RecordUpdate}
  {now : F}

structure Sound (projectId : String) (r : ConversationRecord F) : Prop where
  storable : r.Storable
  projectId : r.projectId = projectId
  paired : Paired r

/-- A handle whose file holds its record, and whose run is alive in the active states. -/
structure Held (projectId : String) (h : DevPilotConversation F) : Prop where
  file : h.file = recordPayload h.record
  sound : Sound projectId h.record
  running : h.running = h.record.state.isActive

def Inv (projectId : String) : Conversation F → Prop
  | .closed file => ∃ r, file = recordPayload r ∧ Sound projectId r
  | .live h => Held projectId h

theorem load_of_file {c : Conversation F} {r : ConversationRecord F} (hr : Sound projectId r)
    (hfile : c.file = recordPayload r) (now : F) : c.load host projectId now = some r := by
  rw [load, hfile, loadRecord_recordPayload hr.storable, Option.filter_some,
    if_pos (by simpa using hr.projectId)]

theorem sound_interruptedRecord {r : ConversationRecord F} (hr : Sound projectId r) (now : F) :
    Sound projectId (interruptedRecord now r) where
  storable := { hr.storable with updatedAt := isNumber_float now, activeRunId := nofun }
  projectId := hr.projectId
  paired := rfl

theorem reports_of_file {c : Conversation F} {r : ConversationRecord F} (hr : Sound projectId r)
    (hfile : c.file = recordPayload r) (hidle : c.running = false)
    (hlive : ∀ h, c = .live h → h.record = r ∧ r.state.isActive = false) (now now' : F) :
    ∃ state : ConversationState, state.isActive = false ∧
      (c.list host projectId now true).2.map (·.state) = some state ∧
      (c.openConversation host projectId now' true).2.map (·.state) = some state := by
  rw [list, load_of_file hr hfile]
  cases c with
  | closed file =>
      rw [openConversation, load_of_file hr hfile]
      cases hactive : r.state.isActive with
      | false => exact ⟨r.state, hactive, by simp [hactive], by simp [hactive]⟩
      | true => exact ⟨.interrupted, rfl, by simp [hactive, interruptedRecord],
          by simp [hactive, interruptedRecord]⟩
  | live h =>
      obtain ⟨rfl, hactive⟩ := hlive h rfl
      exact ⟨h.record.state, hactive, by simp [hactive], rfl⟩

theorem Inv.coherent {c : Conversation F} (hc : c.Inv projectId) : c.Coherent host projectId := by
  obtain ⟨r, hfile, hr, hlive⟩ : ∃ r, c.file = recordPayload r ∧ Sound projectId r ∧
      ∀ h, c = .live h → h.record = r ∧ Held projectId h := by
    cases c with
    | closed file =>
        obtain ⟨r, hfile, hr⟩ := hc
        exact ⟨r, hfile, hr, fun _ heq => by cases heq⟩
    | live h => exact ⟨h.record, hc.file, hc.sound, fun _ heq => by cases heq; exact ⟨rfl, hc⟩⟩
  constructor
  · intro now r' hload
    rw [load_of_file hr hfile] at hload
    exact Option.some.inj hload ▸ hr.paired
  · rintro h rfl
    exact (hlive h rfl).2.sound.paired
  · rintro h rfl now
    rw [load_of_file hr hfile, (hlive h rfl).1]
  · intro hidle
    refine reports_of_file hr hfile hidle fun h heq => ?_
    subst heq
    obtain ⟨rfl, hheld⟩ := hlive h rfl
    exact ⟨rfl, hheld.running.symm.trans hidle⟩

theorem Coherent.inactive (hc : (live h).Coherent host projectId) (now : F)
    (hidle : h.running = false) : h.record.state.isActive = false := by
  obtain ⟨state, hstate, -, hopen⟩ := hc.reports hidle now now
  have heq : h.record.state = state := Option.some.inj hopen
  rw [heq]
  exact hstate

theorem Coherent.record_eq (hc : (live h).Coherent host projectId) {r : ConversationRecord F}
    (hr : Sound projectId r) (hfile : h.file = recordPayload r) (now : F) : h.record = r := by
  have hload := hc.persisted h rfl now
  rw [load_of_file (c := live h) hr hfile] at hload
  exact (Option.some.inj hload).symm

theorem Sound.apply {r : ConversationRecord F} (hr : Sound projectId r) (hu : u.Storable)
    (hpaired : Paired (u.apply now r)) : Sound projectId (u.apply now r) :=
  ⟨hr.storable.apply hu now, hr.projectId, hpaired⟩

theorem Held.saved {t : RunTask} (hsound : Sound projectId (u.apply now h.record))
    (ht : (t ≠ .idle : Bool) = (u.apply now h.record).state.isActive) :
    Held projectId { h.saved u now with task := t } :=
  ⟨rfl, hsound, ht⟩

theorem Held.upTo (host : SdkHost F) (after : List (Effect F)) (hheld : Held projectId h) (hu : u.Storable)
    (hpaired : Paired (u.apply now h.record))
    (hactive : (u.apply now h.record).state.isActive = h.record.state.isActive)
    (hafter : after.all Effect.isQuiet = true) (k : Nat) :
    ((k = 1 → u.apply now h.record = h.record) →
      Held projectId (h.upTo (updateRecord u now ++ after) k)) ∧
    ((live (h.upTo (updateRecord u now ++ after) k)).Coherent host projectId →
      k = 1 → u.apply now h.record = h.record) := by
  have hupTo := upTo_update [] after rfl hafter h u now k
  rw [List.nil_append, List.length_nil] at hupTo
  rw [hupTo]
  constructor
  · intro hsame
    split_ifs with hle heq
    · exact hheld
    · rw [assigned, hsame heq]
      exact hheld
    · exact Held.saved (t := h.task) (hheld.sound.apply hu hpaired) (hheld.running.trans hactive.symm)
  · rintro hc rfl
    exact hc.record_eq hheld.sound hheld.file now

theorem Held.edit (host : SdkHost F) (after : List (Effect F)) (hheld : Held projectId h) (hu : u.Storable)
    (hstate : u.state = none) (hrun : u.activeRunId = none)
    (hafter : after.all Effect.isQuiet = true) (k : Nat) :
    ((k = 1 → u.apply now h.record = h.record) →
      Held projectId (h.upTo (updateRecord u now ++ after) k)) ∧
    ((live (h.upTo (updateRecord u now ++ after) k)).Coherent host projectId →
      k = 1 → u.apply now h.record = h.record) := by
  have hkept : (u.apply now h.record).state = h.record.state := by
    rw [RecordUpdate.apply, hstate, Option.getD_none]
  have hrunKept : (u.apply now h.record).activeRunId = h.record.activeRunId := by
    rw [RecordUpdate.apply, hrun, Option.getD_none]
  refine hheld.upTo host after hu ?_ (by rw [hkept]) hafter k
  rw [Paired, hkept, hrunKept]
  exact hheld.sound.paired

theorem upTo_handler (host : SdkHost F) (projectId : String) (after : List (Effect F))
    (c : DevPilotConversation F) (now : F) {s : ConversationState}
    (hu : u.Storable) (hstate : u.state = some s) (hs : s.isActive = false)
    (hrun : u.activeRunId = some none) (hafter : after.all Effect.isQuiet = true) (k : Nat) :
    (Sound projectId c.record → 2 ≤ k →
      Held projectId { c.upTo (updateRecord u now ++ after) k with task := .idle }) ∧
    ((live { c.upTo (updateRecord u now ++ after) k with task := .idle }).Coherent host projectId →
      ∀ r, Sound projectId r → c.file = recordPayload r → r.state ≠ s →
      2 ≤ k ∨ (k = 0 ∧ c.record.state.isActive = false ∧ c.record = r)) := by
  have hupTo := upTo_update [] after rfl hafter c u now k
  rw [List.nil_append, List.length_nil] at hupTo
  rw [hupTo]
  have happly : (u.apply now c.record).state = s := by simp [RecordUpdate.apply, hstate]
  constructor
  · intro hsound hk
    rw [if_neg (by omega), if_neg (by omega)]
    apply Held.saved
    · refine hsound.apply hu ?_
      rw [Paired, happly, hs]
      simp [RecordUpdate.apply, hrun]
    · rw [happly, hs]
      rfl
  · intro hc r hr hfile hne
    rcases k with _ | _ | k
    · have hsame := hc.record_eq hr hfile now
      exact .inr ⟨rfl, hc.inactive now rfl, hsame⟩
    · have hsame := hc.record_eq hr hfile now
      exact absurd ((congrArg (·.state) hsame).symm.trans happly) hne
    · exact .inl (by omega)

theorem Held.titled (hheld : Held projectId h) (now : F) {title : String} (htitle : title ≠ "") :
    Held projectId (h.saved (titleUpdate title) now) :=
  Held.saved (t := h.task) (hheld.sound.apply (storable_titleUpdate htitle) hheld.sound.paired)
    hheld.running

theorem paired_startUpdate (now : F) (runId : String) (resume : Bool) (r : ConversationRecord F) :
    Paired ((startUpdate runId resume).apply now r) ∧
      ((startUpdate runId resume).apply now r).state.isActive = true := by
  cases resume <;> exact ⟨rfl, rfl⟩

theorem Held.start (host : SdkHost F) (before : List (Effect F)) (now : F) (hheld : Held projectId h) (hidle : h.running = false)
    (hbefore : before.all Effect.isQuiet = true) (uuid : String) (resume : Bool) (k : Nat)
    {t : RunTask} (ht : t = if k < before.length + 4 then h.task else .created ("run-" ++ uuid) resume) :
    (k ≤ before.length ∨ before.length + 4 ≤ k →
      Held projectId { h.upTo (before ++ startEffects ("run-" ++ uuid) resume now) k with task := t }) ∧
    ((live { h.upTo (before ++ startEffects ("run-" ++ uuid) resume now) k with task := t }).Coherent
      host projectId → k ≤ before.length ∨ before.length + 4 ≤ k) := by
  obtain ⟨hpaired, hactive⟩ := paired_startUpdate now ("run-" ++ uuid) resume h.record
  rw [startEffects, ← List.append_assoc, upTo_update before _ hbefore rfl]
  subst ht
  constructor
  · rintro (hk | hk)
    · rw [if_pos hk, if_pos (by omega)]
      exact hheld
    · rw [if_neg (by omega), if_neg (by omega), if_neg (by omega)]
      apply Held.saved
      · exact hheld.sound.apply (storable_startUpdate uuid resume) hpaired
      · rw [hactive]
        rfl
  · intro hc
    by_contra hk
    rw [if_neg (by omega), if_pos (show k < before.length + 4 by omega)] at hc
    have hinactive := hc.inactive now hidle
    split_ifs at hinactive
    · exact Bool.false_ne_true (hinactive.symm.trans hactive)
    · exact Bool.false_ne_true (hinactive.symm.trans hactive)

theorem upTo_append_of_le {es es' : List (Effect F)} {k : Nat} (hk : es.length ≤ k) :
    h.upTo (es ++ es') k = (h.applyAll es).upTo es' (k - es.length) := by
  rw [DevPilotConversation.upTo, List.take_append, List.take_of_length_le hk, applyAll_append,
    DevPilotConversation.upTo]

theorem upTo_append_of_ge {es es' : List (Effect F)} {k : Nat} (hk : k ≤ es.length) :
    h.upTo (es ++ es') k = h.upTo es k := by
  rw [DevPilotConversation.upTo, List.take_append_of_le_length hk, DevPilotConversation.upTo]

/-- No write of a record fails, unless the update changes nothing; nothing fails between
the active state of a new run and its task; and what handles the end of a run writes its
record, unless the record of a completed run is written and the handler does nothing. -/
def Careful : Conversation F → Operation F → Prop
  | .live h, .send text uuid hasContext now k =>
      (stripText text).isEmpty = false → h.running = false →
        (h.record.title = "New conversation" → k = 1 →
          (titleUpdate (titleFromPrompt (stripText text))).apply (now 0) h.record = h.record) ∧
        (k ≤ (titleEffects h.record (stripText text) (now 0) ++ appendMessage).length ∨
          (sendEffects h.record (stripText text) ("run-" ++ uuid) hasContext now).length ≤ k)
  | .live h, .cancel now k => match h.task with
    | .working _ => k = 1 → cancelUpdate.apply now h.record = h.record
    | _ => True
  | .live h, .rename title now k => (stripText title).isEmpty = false →
      k = 1 → (titleUpdate (stripText title)).apply now h.record = h.record
  | .live h, .pin pinned now k => k = 1 → (pinUpdate pinned).apply now h.record = h.record
  | .live h, .archive archived now k => k = 1 → (archiveUpdate archived).apply now h.record = h.record
  | .live h, .begin _ now j k => match h.task with
    | .created _ resume => j < (beginEffects resume (now 0)).length → 2 ≤ k
    | _ => True
  | .live h, .finish outcome _ now j k => match h.task, outcome with
    | .working _, .returned => j < (completeEffects (now 0)).length → 2 ≤ k ∨ (k = 0 ∧ 4 ≤ j)
    | .working _, _ => 2 ≤ k
    | _, _ => True
  | _, _ => True

def Characterised (host : SdkHost F) (projectId : String) (c : Conversation F) (op : Operation F) :
    Prop :=
  (c.Careful op → (c.step host projectId op).Inv projectId) ∧
    ((c.step host projectId op).Coherent host projectId → c.Careful op)

theorem characterised_send (hheld : Held projectId h) (text uuid : String) (hasContext : Bool)
    (clock : Nat → F) (k : Nat) :
    Characterised host projectId (.live h) (.send text uuid hasContext clock k) := by
  unfold Characterised Careful step onHandle
  simp only [Inv, send]
  by_cases hraises : (stripText text).isEmpty = true ∨ h.running = true
  · rw [if_pos (by simpa using hraises)]
    refine ⟨fun _ => hheld, fun _ hempty hidle => ?_⟩
    rcases hraises with h' | h'
    · exact absurd (h'.symm.trans hempty) (by simp)
    · exact absurd (h'.symm.trans hidle) (by simp)
  · simp only [not_or, Bool.not_eq_true] at hraises
    obtain ⟨hempty, hidle⟩ := hraises
    rw [if_neg (by simp [hempty, hidle])]
    simp only [hempty, hidle, true_implies]
    have hlength : ∀ es : List (Effect F), (es ++ startEffects ("run-" ++ uuid) hasContext
        (clock 1)).length = es.length + 4 := fun es => List.length_append
    rw [sendEffects, hlength]
    by_cases htitle : h.record.title = "New conversation"
    · have htitled : titleEffects h.record (stripText text) (clock 0) = updateRecord
          (titleUpdate (titleFromPrompt (stripText text))) (clock 0) := if_pos htitle
      have hfive : (titleEffects h.record (stripText text) (clock 0) ++ appendMessage).length = 5 := by
        rw [htitled]
        rfl
      rw [hfive]
      simp only [htitle, true_implies]
      by_cases hk : k ≤ 5
      · obtain ⟨hsafe, honly⟩ := hheld.edit host appendMessage
          (storable_titleUpdate (titleFromPrompt_ne_empty hempty)) rfl rfl rfl k
        rw [upTo_append_of_ge (by rw [hfive]; exact hk), htitled, if_pos (by omega), upTo_with_task]
        exact ⟨fun hcareful => hsafe hcareful.1, fun hc => ⟨honly hc, .inl hk⟩⟩
      · have hsaved : h.applyAll (titleEffects h.record (stripText text) (clock 0) ++ appendMessage) =
            h.saved (titleUpdate (titleFromPrompt (stripText text))) (clock 0) := by
          rw [htitled]
          exact applyAll_update [] appendMessage rfl rfl _ _ _
        rw [upTo_append_of_le (by omega), hfive, hsaved]
        have hne := titleFromPrompt_ne_empty hempty
        have htask : (if k < 5 + 4 then h.task else .created ("run-" ++ uuid) hasContext) =
            if k - 5 < 4 then h.task else .created ("run-" ++ uuid) hasContext :=
          if_congr (by omega) rfl rfl
        generalize titleFromPrompt (stripText text) = title at hne ⊢
        have hstart := Held.start host [] (clock 1)
          (hheld.titled (clock 0) hne) hidle rfl uuid hasContext (k - 5) htask
        rw [List.nil_append, List.length_nil] at hstart
        obtain ⟨hsafe, honly⟩ := hstart
        refine ⟨fun hcareful => hsafe (by omega), fun hc => ⟨fun _ => by omega, ?_⟩⟩
        have := honly hc
        omega
    · have htitled : titleEffects h.record (stripText text) (clock 0) = [] := if_neg htitle
      rw [htitled, List.nil_append]
      obtain ⟨hsafe, honly⟩ := hheld.start host appendMessage _ hidle rfl uuid hasContext k rfl
      exact ⟨fun hcareful => hsafe hcareful.2, fun hc => ⟨fun h' => absurd h' htitle, honly hc⟩⟩

theorem characterised_edit (hheld : Held projectId h) {op : Operation F} (now : F) (name : String)
    (k : Nat) (hu : u.Storable) (hstate : u.state = none) (hrun : u.activeRunId = none)
    (hstep : (live h).step host projectId op =
      .live (h.upTo (updateRecord u now ++ [Effect.emit name]) k))
    (hcareful : (live h).Careful op ↔ (k = 1 → u.apply now h.record = h.record)) :
    Characterised host projectId (.live h) op := by
  rw [Characterised, hstep, hcareful]
  exact hheld.edit host _ hu hstate hrun rfl k

theorem characterised_rename (hheld : Held projectId h) (title : String) (now : F) (k : Nat) :
    Characterised host projectId (.live h) (.rename title now k) := by
  cases hempty : (stripText title).isEmpty with
  | true =>
      unfold Characterised Careful step onHandle
      simpa [rename, hempty, Inv] using hheld
  | false =>
      apply characterised_edit hheld now "conversation.renamed" k (storable_titleUpdate (by simpa using hempty)) rfl rfl
      · unfold step onHandle
        simp [rename, hempty]
      · unfold Careful
        simp [hempty]

theorem characterised_cancel (hheld : Held projectId h) (now : F) (k : Nat) :
    Characterised host projectId (.live h) (.cancel now k) := by
  unfold Characterised Careful step onHandle
  simp only [Inv, cancel]
  cases htask : h.task with
  | working runId =>
      have hactive : h.record.state.isActive = true := by
        rw [← hheld.running, DevPilotConversation.running, htask]
        rfl
      apply hheld.upTo host _ storable_cancelUpdate
      · exact hheld.sound.paired.trans hactive
      · exact hactive.symm
      · rfl
  | _ => exact ⟨fun _ => hheld, fun _ => trivial⟩

theorem upTo_cases (before after : List (Effect F)) (hbefore : before.all Effect.isQuiet = true)
    (hafter : after.all Effect.isQuiet = true) (c : DevPilotConversation F) (u : RecordUpdate)
    (now : F) (j : Nat) :
    let c' := c.upTo (before ++ updateRecord u now ++ after) j
    (j ≤ before.length ∧ c' = c) ∨ (j = before.length + 1 ∧ c' = c.assigned u now) ∨
      (before.length + 2 ≤ j ∧ c' = c.saved u now) := by
  intro c'
  have h : c' = _ := upTo_update before after hbefore hafter c u now j
  split_ifs at h with hle heq
  · exact .inl ⟨hle, h⟩
  · exact .inr (.inl ⟨heq, h⟩)
  · exact .inr (.inr ⟨by omega, h⟩)

theorem characterised_begin (hheld : Held projectId h) (error : String) (clock : Nat → F)
    (j k : Nat) : Characterised host projectId (.live h) (.begin error clock j k) := by
  unfold Characterised Careful step onHandle
  simp only [Inv, begin]
  cases htask : h.task with
  | created runId resume =>
      have hactive : h.record.state.isActive = true := by
        rw [← hheld.running, DevPilotConversation.running, htask]
        rfl
      have hworking : Sound projectId (workUpdate.apply (clock 0) h.record) :=
        hheld.sound.apply storable_workUpdate (hheld.sound.paired.trans hactive)
      have hquiet : (if resume then [.call, .call] else [.call] : List (Effect F)).all
          Effect.isQuiet = true := by
        cases resume <;> rfl
      dsimp only [guarded]
      split_ifs with hj
      · obtain ⟨hsafe, honly⟩ := upTo_handler host projectId [.emit "run.failed"]
          (h.upTo (beginEffects resume (clock 0)) j) (clock 1) (storable_failUpdate error) rfl rfl rfl
          rfl k
        obtain ⟨hsound, hrecord, r, hr, hfile, hne⟩ : Sound projectId
              (h.upTo (beginEffects resume (clock 0)) j).record ∧
            (h.upTo (beginEffects resume (clock 0)) j).record.state.isActive = true ∧
            ∃ r, Sound projectId r ∧ (h.upTo (beginEffects resume (clock 0)) j).file = recordPayload r ∧
              r.state.isActive = true := by
          obtain ⟨-, hc⟩ | ⟨-, hc⟩ | ⟨-, hc⟩ := upTo_cases _
            [.emit "coordinator.started", .call] hquiet rfl h workUpdate (clock 0) j
          · rw [beginEffects, hc]
            exact ⟨hheld.sound, hactive, _, hheld.sound, hheld.file, hactive⟩
          · rw [beginEffects, hc]
            exact ⟨hworking, rfl, _, hheld.sound, hheld.file, hactive⟩
          · rw [beginEffects, hc]
            exact ⟨hworking, rfl, _, hworking, rfl, rfl⟩
        refine ⟨fun hcareful => hsafe hsound (hcareful hj), fun hc _ => ?_⟩
        refine (honly hc r hr hfile ?_).resolve_right fun hzero => ?_
        · rintro hfailed
          rw [hfailed] at hne
          cases hne
        · exact Bool.false_ne_true (hzero.2.1.symm.trans hrecord)
      · refine ⟨fun _ => ?_, fun _ hj' => absurd hj' hj⟩
        rw [beginEffects, applyAll_update _ _ hquiet rfl]
        exact Held.saved hworking rfl
  | _ => exact ⟨fun _ => hheld, fun _ => trivial⟩

theorem characterised_finish (hheld : Held projectId h) (outcome : DevPilotConversation.Outcome) (error : String)
    (clock : Nat → F) (j k : Nat) :
    Characterised host projectId (.live h) (.finish outcome error clock j k) := by
  unfold Characterised Careful step onHandle
  simp only [Inv, finish]
  cases htask : h.task with
  | working runId =>
      have hactive : h.record.state.isActive = true := by
        rw [← hheld.running, DevPilotConversation.running, htask]
        rfl
      have hne : ∀ s : ConversationState, s.isActive = false → h.record.state ≠ s := by
        rintro s hs rfl
        exact Bool.false_ne_true (hs.symm.trans hactive)
      cases outcome with
      | raised error =>
          obtain ⟨hsafe, honly⟩ := upTo_handler host projectId [.emit "run.failed"] h (clock 0)
            (storable_failUpdate error) rfl rfl rfl rfl k
          refine ⟨hsafe hheld.sound, fun hc => ?_⟩
          refine (honly hc _ hheld.sound hheld.file (hne _ rfl)).resolve_right fun hzero => ?_
          exact Bool.false_ne_true (hzero.2.1.symm.trans hactive)
      | cancelled =>
          obtain ⟨hsafe, honly⟩ := upTo_handler host projectId [.emit "run.cancelled"] h (clock 0)
            storable_cancelledUpdate rfl rfl rfl rfl k
          refine ⟨hsafe hheld.sound, fun hc => ?_⟩
          refine (honly hc _ hheld.sound hheld.file (hne _ rfl)).resolve_right fun hzero => ?_
          exact Bool.false_ne_true (hzero.2.1.symm.trans hactive)
      | returned =>
          have hcompleted : Sound projectId (completeUpdate.apply (clock 0) h.record) :=
            hheld.sound.apply storable_completeUpdate rfl
          dsimp only [guarded]
          split_ifs with hj
          · obtain ⟨hsafe, honly⟩ := upTo_handler host projectId [.emit "run.failed"]
              (h.upTo (completeEffects (clock 0)) j) (clock 1) (storable_failUpdate error) rfl rfl rfl
              rfl k
            obtain ⟨hj', hc⟩ | ⟨hj', hc⟩ | ⟨hj', hc⟩ := upTo_cases appendMessage
              [.emit "assistant.message", .emit "run.completed"] rfl rfl h completeUpdate
              (clock 0) j <;> rw [appendMessage, List.length_cons, List.length_singleton] at hj' <;>
              rw [completeEffects, hc] at hsafe honly ⊢
            · refine ⟨fun hcareful => hsafe hheld.sound ((hcareful hj).resolve_right (by omega)),
                fun hc _ => ?_⟩
              obtain hk | ⟨-, hinactive, -⟩ := honly hc _ hheld.sound hheld.file (hne _ rfl)
              · exact .inl hk
              · exact absurd (hinactive.symm.trans hactive) Bool.false_ne_true
            · refine ⟨fun hcareful => hsafe hcompleted ((hcareful hj).resolve_right (by omega)),
                fun hc _ => ?_⟩
              obtain hk | ⟨-, -, hsame⟩ := honly hc _ hheld.sound hheld.file (hne _ rfl)
              · exact .inl hk
              · exact absurd (congrArg (·.state) hsame).symm (hne _ rfl)
            · constructor
              · intro hcareful
                obtain hk | ⟨rfl, -⟩ := hcareful hj
                · exact hsafe hcompleted hk
                · exact Held.saved hcompleted rfl
              · intro hc _
                obtain hk | ⟨hk, -⟩ := honly hc _ hcompleted rfl (by
                  show ConversationState.completed ≠ .failed
                  decide)
                · exact .inl hk
                · exact .inr ⟨hk, by omega⟩
          · refine ⟨fun _ => ?_, fun _ hj' => absurd hj' hj⟩
            rw [completeEffects, applyAll_update _ _ rfl rfl]
            exact Held.saved hcompleted rfl
  | _ => exact ⟨fun _ => hheld, fun _ => trivial⟩

theorem inv_live_idle {r : ConversationRecord F} (hr : Sound projectId r)
    (hinactive : r.state.isActive = false) : (created r).Inv projectId :=
  ⟨rfl, hr, hinactive.symm⟩

theorem Inv.list {c : Conversation F} (hc : c.Inv projectId) (now : F) (written : Bool) :
    (c.list host projectId now written).1.Inv projectId := by
  cases c with
  | closed file =>
      obtain ⟨r, rfl, hr⟩ := hc
      rw [Conversation.list, load_of_file hr rfl]
      dsimp only
      split_ifs
      · exact ⟨_, rfl, sound_interruptedRecord hr now⟩
      · exact ⟨r, rfl, hr⟩
      · exact ⟨r, rfl, hr⟩
  | live h =>
      rw [Conversation.list, load_of_file (c := live h) hc.sound hc.file]
      dsimp only
      split_ifs with hactive hrunning
      · exact hc
      · exact absurd (hc.running.trans hactive) hrunning
      · exact absurd (hc.running.trans hactive) hrunning
      · exact hc

theorem Inv.openConversation {c : Conversation F} (hc : c.Inv projectId) (now : F)
    (written : Bool) : (c.openConversation host projectId now written).1.Inv projectId := by
  cases c with
  | closed file =>
      obtain ⟨r, rfl, hr⟩ := hc
      rw [Conversation.openConversation, load_of_file hr rfl]
      cases written with
      | false => exact ⟨r, rfl, hr⟩
      | true =>
          dsimp only
          rw [if_pos rfl]
          cases hactive : r.state.isActive with
          | false => exact inv_live_idle hr hactive
          | true => exact inv_live_idle (sound_interruptedRecord hr now) rfl
  | live h => exact hc

theorem Inv.characterised {c : Conversation F} (hc : c.Inv projectId) (op : Operation F) :
    Characterised host projectId c op := by
  cases c with
  | closed file =>
      cases op with
      | list now written => exact ⟨fun _ => hc.list now written, fun _ => trivial⟩
      | openConversation now written =>
          exact ⟨fun _ => hc.openConversation now written, fun _ => trivial⟩
      | _ => exact ⟨fun _ => hc, fun _ => trivial⟩
  | live h => cases op with
    | send text uuid hasContext clock k => exact characterised_send hc text uuid hasContext clock k
    | cancel now k => exact characterised_cancel hc now k
    | rename title now k => exact characterised_rename hc title now k
    | pin pinned now k =>
        exact characterised_edit hc now _ k (storable_pinUpdate pinned) rfl rfl rfl Iff.rfl
    | archive archived now k =>
        exact characterised_edit hc now _ k (storable_archiveUpdate archived) rfl rfl rfl Iff.rfl
    | begin error clock j k => exact characterised_begin hc error clock j k
    | finish outcome error clock j k => exact characterised_finish hc outcome error clock j k
    | list now written => exact ⟨fun _ => hc.list now written, fun _ => trivial⟩
    | openConversation now written =>
        exact ⟨fun _ => hc.openConversation now written, fun _ => trivial⟩
    | restart => exact ⟨fun _ => ⟨h.record, hc.file, hc.sound⟩, fun _ => trivial⟩

theorem inv_created {r : ConversationRecord F} (hr : r.Fresh) : (created r).Inv r.projectId := by
  apply inv_live_idle _ hr.inactive
  refine ⟨hr.toStorable, rfl, ?_⟩
  rw [Paired, hr.noRun, hr.inactive]
  rfl

end Conversation

/-- In every state of a run from a new conversation, the run id is set exactly in the active
states, the file holds the record of the handle, and what the store reports agrees, if and
only if every operation is careful where it fails. -/
theorem conversation_coherent_iff (host : SdkHost F) (record : ConversationRecord F)
    (h : record.Fresh) (ops : List (Conversation.Operation F)) :
    Along (Conversation.step host record.projectId)
      (fun c op => (c.step host record.projectId op).Coherent host record.projectId)
      (.created record) ops ↔
    Along (Conversation.step host record.projectId) Conversation.Careful (.created record) ops := by
  apply along_iff (I := Conversation.Inv record.projectId)
  · intro c op hc
    exact ⟨(hc.characterised op).2, fun hcareful => ((hc.characterised op).1 hcareful).coherent⟩
  · exact fun c op hc => (hc.characterised op).1
  · exact Conversation.inv_created h

def clockTime : FloatText := .literal ⟨false, 1, .fraction ⟨['5'], by decide, by decide⟩ none⟩

def newRecord : ConversationRecord FloatText where
  id := "conversation-1"
  projectId := "project-1"
  title := "New conversation"
  state := .idle
  createdAt := .float clockTime
  updatedAt := .float clockTime
  provider := "codex"
  model := "gpt"
  reasoningEffort := "high"
  sandbox := .workspaceWrite

theorem fresh_newRecord : newRecord.Fresh where
  id := ⟨by decide, by decide⟩
  projectId := ⟨by decide, by decide⟩
  title := by decide
  createdAt := isNumber_float clockTime
  updatedAt := isNumber_float clockTime
  provider := by decide
  reasoningEffort := by decide
  activeRunId := nofun
  lastError := nofun
  inactive := rfl
  noRun := rfl

theorem conversation_coherent_unsent :
    Along (Conversation.step literalSdk "project-1")
      (fun c op => (c.step literalSdk "project-1" op).Coherent literalSdk "project-1")
      (.created newRecord) [.send "go" "1" false (fun _ => clockTime) 3] :=
  (conversation_coherent_iff literalSdk newRecord fresh_newRecord _).mpr
    ⟨fun _ _ => ⟨fun _ hk => absurd hk (by decide), .inl (by decide)⟩, trivial⟩

/-- Where the active state of a run cannot be written, the conversation has no run and
stays active. -/
theorem conversation_starts_without_run : ¬ ∀ (host : SdkHost FloatText)
    (record : ConversationRecord FloatText), record.Fresh →
    ∀ ops : List (Conversation.Operation FloatText),
      (run (Conversation.step host record.projectId) (.created record) ops).Coherent host
        record.projectId := by
  intro h
  have hbad := h literalSdk newRecord fresh_newRecord
    [.send "go" "1" false (fun _ => clockTime) 6]
  have hinactive := hbad.inactive clockTime rfl
  revert hinactive
  decide

end DevPilot.Sdk
