import DevPilot.Core.Messages
import DevPilot.Lib.JsonLines
import DevPilot.Coordinator.SealTail

/-!
The message history on disk: `write_messages` and `read_messages` of the
coordinator's checkpoints.
-/

namespace DevPilot

open PyJson TextLines

variable {F : Type}

/-- The text `write_messages` puts into the file, one message to a line. -/
def writeMessages (fmt : FloatFormat F) (messages : List (Json F)) : List Char :=
  messages.flatMap fun m => dumps fmt .spaced m ++ ['\n']

def readMessage (fmt : FloatFormat F) (line : List Char) : Option (Json F) :=
  if strip line = [] then none else loads fmt (strip line)

/-- `read_messages` on an existing file. -/
def readMessages (fmt : FloatFormat F) (file : List Char) : List (Json F) :=
  (splitlines (universalNewlines file)).filterMap (readMessage fmt)

def IsMessage (m : Json F) : Prop := m.isObj = true ∧ m.wf = true

/-- The characters `str.splitlines` splits at and `json.dumps` writes raw. -/
def isSeparator (c : Char) : Bool := c == '\u0085' || c == '\u2028' || c == '\u2029'

theorem isSeparator_ascii (c : Char) (h : c.toNat < 128) : isSeparator c = false := by
  have hne : ∀ d : Char, 128 ≤ d.toNat → (c == d) = false := by
    intro d hd
    rw [beq_eq_false_iff_ne]
    rintro rfl
    omega
  simp only [isSeparator, hne _ (show 128 ≤ ('\u0085' : Char).toNat by decide),
    hne _ (show 128 ≤ ('\u2028' : Char).toNat by decide),
    hne _ (show 128 ≤ ('\u2029' : Char).toNat by decide), Bool.or_false]

theorem isLineBreak_of_isSeparator {c : Char} (h : isSeparator c = true) : isLineBreak c = true := by
  simp only [isSeparator, Bool.or_eq_true, beq_iff_eq] at h
  rcases h with (rfl | rfl) | rfl <;> decide

theorem isLineBreak_eq_isSeparator {c : Char} (h : 32 ≤ c.toNat) : isLineBreak c = isSeparator c := by
  have hne : ∀ d : Char, d.toNat < 32 → (c == d) = false := by
    intro d hd
    rw [beq_eq_false_iff_ne]
    rintro rfl
    omega
  simp only [isLineBreak, isSeparator, hne '\n' (by decide), hne '\r' (by decide),
    hne '\x0b' (by decide), hne '\x0c' (by decide), hne '\x1c' (by decide), hne '\x1d' (by decide),
    hne '\x1e' (by decide), Bool.false_or]

theorem writeMessages_cons (fmt : FloatFormat F) (m : Json F) (ms : List (Json F)) :
    writeMessages fmt (m :: ms) = dumps fmt .spaced m ++ '\n' :: writeMessages fmt ms := by
  simp [writeMessages]

theorem universalNewlines_writeMessages (fmt : FloatFormat F) (ms : List (Json F)) :
    universalNewlines (writeMessages fmt ms) = writeMessages fmt ms := by
  refine universalNewlines_eq_self fun hr => ?_
  obtain ⟨m, -, hm⟩ := List.mem_flatMap.mp hr
  rcases List.mem_append.mp hm with hm | hm
  · exact absurd (printable_dumps rfl fmt m _ hm) (by decide)
  · revert hm; decide

theorem aligned_writeMessages (fmt : FloatFormat F) (ms : List (Json F)) :
    Aligned (writeMessages fmt ms) := by
  induction ms with
  | nil => exact .nil
  | cons m ms ih =>
      rw [writeMessages_cons]
      exact (aligned_dumps rfl fmt m).append (.raw (by decide) ih)

theorem clean_line {fmt : FloatFormat F} {ms : List (Json F)} {l : List Char}
    (hl : l ∈ splitlines (writeMessages fmt ms)) : Clean isSeparator l := by
  obtain ⟨ha, hb⟩ := splitlines_induction
    (fun a c b hc h => h.cut a b c (isSpace_of_isLineBreak hc) rfl) _
    (aligned_writeMessages fmt ms) l hl
  refine ⟨ha, List.all_eq_true.mpr fun c hc => ?_⟩
  have hbreak := List.all_eq_true.mp hb c hc
  cases hs : isSeparator c with
  | false => rfl
  | true => simp [isLineBreak_of_isSeparator hs] at hbreak

theorem readMessages_separatorFree {fmt : FloatFormat F} {ms : List (Json F)} {m : Json F}
    (hm : m ∈ readMessages fmt (writeMessages fmt ms)) : m.anyChar isSeparator = false := by
  rw [readMessages, universalNewlines_writeMessages] at hm
  obtain ⟨l, hl, hr⟩ := List.mem_filterMap.mp hm
  have hclean := clean_line hl
  rw [readMessage] at hr
  split_ifs at hr
  obtain ⟨pre, post, hdec, -, -⟩ := strip_decomposition l
  have hall := hclean.2
  rw [hdec, List.all_append, List.all_append, Bool.and_eq_true, Bool.and_eq_true] at hall
  exact anyChar_of_loads isSeparator_ascii ⟨aligned_strip hclean.1, hall.2.1⟩ hr

theorem readMessage_dumps (fmt : FloatFormat F) {m : Json F} (h : IsMessage m) :
    readMessage fmt (dumps fmt .spaced m) = some m := by
  have hstrip : strip (dumps fmt .spaced m) = dumps fmt .spaced m := by
    obtain ⟨hobj, -⟩ := h
    have hbrace : isSpace '{' = false ∧ isSpace '}' = false := by decide
    cases m with
    | obj members =>
        cases members with
        | nil => rfl
        | cons p members =>
            refine strip_eq_self ?_ ?_
            · simp [dumps, dump, hbrace.1]
            · simp [dumps, dump, hbrace.2, Layout.brk, List.getLast?_cons, List.getLast?_append]
    | _ => simp [Json.isObj] at hobj
  have hne : dumps fmt .spaced m ≠ [] := by
    intro he
    have := startsValue_dump fmt .spaced 0 m
    rw [show dump fmt .spaced 0 m = [] from he] at this
    simp [startsValue] at this
  rw [readMessage, hstrip, if_neg hne, loads_dumps fmt .spaced h.2]

theorem noBreak_dumps (fmt : FloatFormat F) {m : Json F} (h : m.anyChar isSeparator = false) :
    (dumps fmt .spaced m).all (fun c => !isLineBreak c) = true := by
  refine List.all_eq_true.mpr fun c hc => ?_
  have hno : (dumps fmt .spaced m).any isSeparator = false :=
    noChar_dumps rfl isSeparator_ascii fmt h
  rw [isLineBreak_eq_isSeparator (printable_dumps rfl fmt m c hc)]
  simpa using List.any_eq_false.mp hno c hc

theorem splitlines_writeMessages (fmt : FloatFormat F) {ms : List (Json F)}
    (h : ∀ m ∈ ms, m.anyChar isSeparator = false) :
    splitlines (writeMessages fmt ms) = ms.map (dumps fmt .spaced) := by
  induction ms with
  | nil => rfl
  | cons m ms ih =>
      simp only [List.mem_cons, forall_eq_or_imp] at h
      rw [writeMessages_cons, splitlines_line (noBreak_dumps fmt h.1), ih h.2, List.map_cons]

theorem readMessages_writeMessages (fmt : FloatFormat F) {ms : List (Json F)}
    (hms : ∀ m ∈ ms, IsMessage m) (h : ∀ m ∈ ms, m.anyChar isSeparator = false) :
    readMessages fmt (writeMessages fmt ms) = ms := by
  rw [readMessages, universalNewlines_writeMessages, splitlines_writeMessages fmt h,
    List.filterMap_map]
  have hread : ∀ m ∈ ms, (readMessage fmt ∘ dumps fmt .spaced) m = some m := fun m hm =>
    readMessage_dumps fmt (hms m hm)
  rw [List.filterMap_congr hread, List.filterMap_some]

/-- The history file gives back what was written exactly when no string of a
message contains one of the Unicode line separators. -/
theorem messageFile_roundTrip_iff (fmt : FloatFormat F) {ms : List (Json F)}
    (hms : ∀ m ∈ ms, IsMessage m) :
    readMessages fmt (writeMessages fmt ms) = ms ↔ ∀ m ∈ ms, m.anyChar isSeparator = false := by
  refine ⟨fun h m hm => ?_, readMessages_writeMessages fmt hms⟩
  rw [← h] at hm
  exact readMessages_separatorFree hm

theorem isMessage_userText (text : String) : IsMessage (userText text : Json F) :=
  ⟨rfl, rfl⟩

theorem messageFile_roundTrip_iff_two :
    readMessages literalFormat (writeMessages literalFormat
        [userText "caf\u00e9\n\x1c\r\x7f", userText "[\"\\\":\t1e5]"]) =
      [userText "caf\u00e9\n\x1c\r\x7f", userText "[\"\\\":\t1e5]"] ↔
    ∀ m ∈ [(userText "caf\u00e9\n\x1c\r\x7f" : Json FloatText), userText "[\"\\\":\t1e5]"],
      m.anyChar isSeparator = false :=
  messageFile_roundTrip_iff literalFormat fun m hm => by
    rcases List.mem_pair.mp hm with rfl | rfl <;> exact isMessage_userText _

theorem messageFile_roundTrip_fails :
    ¬ ∀ ms : List (Json FloatText), (∀ m ∈ ms, IsMessage m) →
      readMessages literalFormat (writeMessages literalFormat ms) = ms := by
  intro h
  have hback := h [userText "first line\u2028second line"] fun m hm =>
    List.mem_singleton.mp hm ▸ isMessage_userText _
  have hfree := readMessages_separatorFree (hback.symm ▸ List.mem_singleton_self _)
  revert hfree
  decide

end DevPilot

/-!
Resuming an interrupted run: the persisted history gets the user's follow-up,
is read back and sealed, and ends in the resume nudge.
-/

namespace DevPilot

open PyJson CallPairing

variable {F : Type}

def appendFollowUpToCheckpoint (fmt : FloatFormat F) (file : List Char) (prompt : String) :
    List Char :=
  writeMessages fmt (readMessages fmt file ++ [userText prompt])

/-- `_append_resume_nudge`: the nudge is folded into a trailing user message. -/
def appendResumeNudge (nudge : String) (messages : List (Json F)) : List (Json F) :=
  match messages.getLast? with
  | none => messages ++ [userText nudge]
  | some last =>
      if last.getStr? "role" = some "user" then
        match last.get? "content" with
        | some (.str content) =>
            messages.dropLast ++ [last.set "content" (.str (content ++ "\n\n" ++ nudge))]
        | some (.arr content) =>
            messages.dropLast ++ [last.set "content"
              (.arr (content ++ [Json.obj [("type", .str "text"), ("text", .str nudge)]]))]
        | _ => messages ++ [userText nudge]
      else messages ++ [userText nudge]

/-- The history a resumed coordinator starts from; without a saved history it
starts from none. -/
def resumeHistory (fmt : FloatFormat F) (file : List Char) (nudge : String) : List (Json F) :=
  let replayed := readMessages fmt file
  if replayed.isEmpty then [] else appendResumeNudge nudge (sealInterruptedTail replayed)

/-- The whole path from the history persisted at an interruption to the one
the resumed run starts from. -/
def resumePath (fmt : FloatFormat F) (persisted : List (Json F)) (followUp : Option String)
    (nudge : String) : List (Json F) :=
  let file := writeMessages fmt persisted
  let file := match followUp with
    | some prompt => appendFollowUpToCheckpoint fmt file prompt
    | none => file
  resumeHistory fmt file nudge

theorem turns_set_text {last : Json F} (hr : last.getStr? "role" = some "user") {content : String}
    (hc : last.get? "content" = some (.str content)) (b : Bool) (text : String) :
    turns b (last.set "content" (.str text)) = turns b last := by
  have ha : isAssistant last = false := by simp [isAssistant, hr]
  unfold turns
  rw [isAssistant_set_content, ha, Json.get?_set_eq hc, hc]
  rfl

theorem turns_set_appended {last : Json F} (hr : last.getStr? "role" = some "user")
    {content : List (Json F)} (hc : last.get? "content" = some (.arr content)) (b : Bool)
    (nudge : String) :
    turns b (last.set "content" (.arr (content ++ [Json.obj [("type", .str "text"), ("text", .str nudge)]]))) =
      turns b last ++ note b := by
  have ha : isAssistant last = false := by simp [isAssistant, hr]
  have hn : blockTurns b (.obj [("type", .str "text"), ("text", .str nudge)] : Json F) = note b := rfl
  unfold turns
  rw [isAssistant_set_content, ha, Json.get?_set_eq hc, hc]
  simp [hn]

theorem turns_appendResumeNudge (b : Bool) (nudge : String) (messages : List (Json F)) :
    (appendResumeNudge nudge messages).flatMap (turns b) = messages.flatMap (turns b) ∨
      (appendResumeNudge nudge messages).flatMap (turns b) = messages.flatMap (turns b) ++ note b := by
  have hpush : (messages ++ [userText nudge]).flatMap (turns b) =
      messages.flatMap (turns b) ++ note b := by
    rw [List.flatMap_append, List.flatMap_singleton, turns_userText]
  rw [appendResumeNudge]
  split
  · exact .inr hpush
  · rename_i last hlast
    obtain ⟨earlier, rfl⟩ := List.getLast?_eq_some_iff.mp hlast
    split_ifs with hr
    · split
      · rename_i content hc
        left
        rw [List.dropLast_concat, List.flatMap_append, List.flatMap_append, List.flatMap_singleton,
          List.flatMap_singleton, turns_set_text hr hc]
      · rename_i content hc
        right
        rw [List.dropLast_concat, List.flatMap_append, List.flatMap_append, List.flatMap_singleton,
          List.flatMap_singleton, turns_set_appended hr hc, List.append_assoc]
      · exact .inr hpush
    · exact .inr hpush

theorem wellFormed_appendResumeNudge {b : Bool} {messages : List (Json F)}
    (h : WellFormed b messages) (nudge : String) : WellFormed b (appendResumeNudge nudge messages) := by
  rcases turns_appendResumeNudge b nudge messages with he | he
  · rwa [WellFormed, he]
  · rw [WellFormed, he]
    exact wellFormed_append_note h

/-- A history that can be resumed with the given follow-up: the file gives it
back, its tail has no native call items, and a follow-up is not put behind
calls that still wait for their results. -/
structure Resumable (history : List (Json F)) (followUp : Option String) : Prop where
  messages : ∀ m ∈ history, IsMessage m ∧ m.anyChar isSeparator = false
  prompt : ∀ prompt ∈ followUp, prompt.toList.any isSeparator = false
  noNativeCalls : ∀ last ∈ history.getLast?, isAssistant last = true → NoNativeCalls last
  followUpLast : followUp.isSome → ∀ last ∈ history.getLast?, isAssistant last = true →
    callIds last = []

theorem readMessages_persisted (fmt : FloatFormat F) {history : List (Json F)}
    (h : ∀ m ∈ history, IsMessage m ∧ m.anyChar isSeparator = false) :
    readMessages fmt (writeMessages fmt history) = history :=
  readMessages_writeMessages fmt (fun m hm => (h m hm).1) fun m hm => (h m hm).2

theorem separatorFree_userText {prompt : String} (h : prompt.toList.any isSeparator = false) :
    (userText prompt : Json F).anyChar isSeparator = false := by
  have hrole : "user".toList.any isSeparator = false := by decide
  have hkeys : "role".toList.any isSeparator = false ∧ "content".toList.any isSeparator = false := by
    decide
  simp only [userText, message, Json.anyChar, Json.anyString, Json.anyStringMembers, hkeys.1, hkeys.2,
    hrole, h, Bool.or_false]

theorem sealInterruptedTail_wellFormed {b : Bool} {history : List (Json F)}
    (h : Interruptible b history)
    (hn : ∀ last ∈ history.getLast?, isAssistant last = true → NoNativeCalls last) :
    WellFormed b (sealInterruptedTail history) := by
  cases hlast : history.getLast?.any isAssistant with
  | false =>
      rw [sealInterruptedTail_of_not_isAssistant hlast]
      rcases h with h | ⟨earlier, last, rfl, hd⟩
      · exact h
      · rw [List.getLast?_concat, Option.any_some, hd.assistant] at hlast
        exact absurd hlast (by simp)
  | true =>
      obtain ⟨last, hl, ha⟩ := (Option.any_eq_true _ _).mp hlast
      obtain ⟨earlier, rfl⟩ := List.getLast?_eq_some_iff.mp hl
      have hids := callIds_of_noNativeCalls (hn last hl ha)
      rw [WellFormed, turns_sealInterruptedTail b earlier ha, ← hids]
      rcases h with h | ⟨earlier', last', he, hd⟩
      · rw [WellFormed, List.flatMap_append, List.flatMap_singleton, turns_of_isAssistant ha] at h
        have hnil := calls_eq_nil_of_pairWF h
        rw [hnil] at h ⊢
        exact h
      · obtain ⟨rfl, hlast'⟩ := List.append_inj' he rfl
        obtain rfl := List.singleton_inj.mp hlast'
        refine pairWF_exchange hd.wellFormed ?_ (paired_singletons _)
        rw [answersTo_singletons]
        exact answered_self hd.distinct

theorem turns_sealInterruptedTail_extends (b : Bool) (history : List (Json F)) :
    history.flatMap (turns b) <+: (sealInterruptedTail history).flatMap (turns b) := by
  obtain ⟨rest, h⟩ := prefix_sealInterruptedTail history
  exact ⟨rest.flatMap (turns b), by rw [← h, List.flatMap_append]⟩

theorem turns_appendResumeNudge_extends (b : Bool) (nudge : String) (messages : List (Json F)) :
    messages.flatMap (turns b) <+: (appendResumeNudge nudge messages).flatMap (turns b) := by
  rcases turns_appendResumeNudge b nudge messages with he | he
  · rw [he]
  · rw [he]
    exact List.prefix_append _ _

theorem wellFormed_of_followUp {b : Bool} {history : List (Json F)} (h : Interruptible b history)
    (hlast : ∀ last ∈ history.getLast?, isAssistant last = true → callIds last = []) :
    WellFormed b history := by
  rcases h with h | ⟨earlier, last, rfl, hd⟩
  · exact h
  · exact (dangling_wellFormed_iff hd).mpr (hlast last (List.getLast?_concat ..) hd.assistant)

theorem resumePath_none (fmt : FloatFormat F) {history : List (Json F)}
    (h : ∀ m ∈ history, IsMessage m ∧ m.anyChar isSeparator = false) (nudge : String) :
    resumePath fmt history none nudge =
      if history.isEmpty then [] else appendResumeNudge nudge (sealInterruptedTail history) := by
  simp only [resumePath, resumeHistory, readMessages_persisted fmt h]

theorem resumePath_some (fmt : FloatFormat F) {history : List (Json F)}
    (h : ∀ m ∈ history, IsMessage m ∧ m.anyChar isSeparator = false) {prompt : String}
    (hp : prompt.toList.any isSeparator = false) (nudge : String) :
    resumePath fmt history (some prompt) nudge =
      appendResumeNudge nudge (history ++ [userText prompt]) := by
  have hmessages : ∀ m ∈ history ++ [userText prompt],
      IsMessage m ∧ m.anyChar isSeparator = false := by
    intro m hm
    rcases List.mem_append.mp hm with hm | hm
    · exact h m hm
    · rw [List.mem_singleton.mp hm]
      exact ⟨isMessage_userText prompt, separatorFree_userText hp⟩
  have hsealed : sealInterruptedTail (history ++ [userText prompt]) = history ++ [userText prompt] := by
    refine sealInterruptedTail_of_not_isAssistant ?_
    rw [List.getLast?_concat]
    rfl
  simp only [resumePath, resumeHistory, appendFollowUpToCheckpoint, readMessages_persisted fmt h,
    readMessages_persisted fmt hmessages, hsealed]
  rw [if_neg (by simp)]

theorem resumePath_wellFormed (fmt : FloatFormat F) {b : Bool} {history : List (Json F)}
    (h : Interruptible b history) {followUp : Option String} (hr : Resumable history followUp)
    (nudge : String) :
    WellFormed b (resumePath fmt history followUp nudge) ∧
      history.flatMap (turns b) <+: (resumePath fmt history followUp nudge).flatMap (turns b) := by
  cases followUp with
  | none =>
      rw [resumePath_none fmt hr.messages]
      split_ifs with hempty
      · rw [List.isEmpty_iff.mp hempty]
        exact ⟨pairWF_nil, List.prefix_rfl⟩
      · exact ⟨wellFormed_appendResumeNudge (sealInterruptedTail_wellFormed h hr.noNativeCalls) nudge,
          (turns_sealInterruptedTail_extends b history).trans
            (turns_appendResumeNudge_extends b nudge _)⟩
  | some prompt =>
      rw [resumePath_some fmt hr.messages (hr.prompt prompt rfl)]
      have hwf := wellFormed_userText (wellFormed_of_followUp h (hr.followUpLast rfl)) prompt
      refine ⟨wellFormed_appendResumeNudge hwf nudge,
        List.IsPrefix.trans ?_ (turns_appendResumeNudge_extends b nudge _)⟩
      rw [List.flatMap_append]
      exact List.prefix_append _ _

/-- Wherever a run is interrupted whose turns meet their conditions, a
resumable history is resumed with all its calls answered before any later
user text. -/
theorem interruptedRun_resumes (fmt : FloatFormat F) (agent : Agent) (worlds : Nat → World F)
    (userMessage : String) {s : LoopState F} (hs : AnsweredBeforeText s.messages)
    (h : RunMeets true agent worlds userMessage s) {history : List (Json F)}
    (hh : history ∈ (runLoop agent worlds userMessage s).held) {followUp : Option String}
    (hr : Resumable history followUp) (nudge : String) :
    PairWellFormed (resumePath fmt history followUp nudge) ∧
      AnsweredBeforeText (resumePath fmt history followUp nudge) ∧
      history.flatMap (turns true) <+: (resumePath fmt history followUp nudge).flatMap (turns true) := by
  obtain ⟨hwf, hkept⟩ := resumePath_wellFormed fmt
    ((runLoop_sound agent worlds userMessage hs h).held history hh) hr nudge
  exact ⟨pairWellFormed_of_answeredBeforeText hwf, hwf, hkept⟩

def readInterrupted : List (Json FloatText) :=
  [userText "go", message "assistant" (.arr (readReply .toolUse).rawContent)]

theorem readInterrupted_held : readInterrupted ∈
    (runLoop (reader 1) (fun _ => replies (readReply .toolUse)) "go" freshState).held :=
  List.mem_append_left _ (repliedHistory_mem_held (reader 1) (replies (readReply .toolUse)) 1
    (by decide) rfl)

theorem readInterrupted_messages :
    ∀ m ∈ readInterrupted, IsMessage m ∧ m.anyChar isSeparator = false := by
  intro m hm
  rcases List.mem_pair.mp hm with rfl | rfl
  · exact ⟨isMessage_userText _, by decide⟩
  · exact ⟨⟨rfl, by decide⟩, by decide⟩

theorem interruptedRun_resumes_reader :
    PairWellFormed (resumePath literalFormat readInterrupted none "resume") ∧
      AnsweredBeforeText (resumePath literalFormat readInterrupted none "resume") ∧
      readInterrupted.flatMap (turns true) <+:
        (resumePath literalFormat readInterrupted none "resume").flatMap (turns true) :=
  interruptedRun_resumes literalFormat (reader 1) (fun _ => replies (readReply .toolUse)) "go"
    (by decide) readRun_meets readInterrupted_held
    { messages := readInterrupted_messages
      prompt := by simp
      noNativeCalls := by
        intro last hl _ b hb
        obtain rfl := Option.some.inj hl
        obtain rfl := List.mem_singleton.mp hb
        decide
      followUpLast := by simp } "resume"

theorem resumePath_hides_call :
    ¬ ∀ (agent : Agent) (worlds : Nat → World FloatText) (userMessage : String),
      ∀ history ∈ (runLoop agent worlds userMessage freshState).held,
        ∀ (followUp : Option String) (nudge : String),
          PairWellFormed (resumePath literalFormat history followUp nudge) := by
  intro h
  have hbad := h _ _ _ readInterrupted readInterrupted_held (some "more") "resume"
  rw [resumePath_some literalFormat readInterrupted_messages (by decide)] at hbad
  revert hbad
  decide

end DevPilot
