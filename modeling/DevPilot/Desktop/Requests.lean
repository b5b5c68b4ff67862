import DevPilot.Desktop.Store

/-!
The requests of the desktop store: what each does between the points at which it
waits for the runtime.
-/

namespace DevPilot

open PyJson

variable {F : Type}

/-- What the runtime answers to `conversation.open`. -/
structure Snapshot (F : Type) where
  conversation : Conversation F
  messages : List (ConversationMessage F)
  takenAt : Nat

inductive Request (F : Type)
  /-- `selectDevPilotConversation` waits for `conversation.open`. -/
  | opening (conversation : Conversation F) (answer : Option (Snapshot F))
  | savingSelection (conversation : Conversation F) (opened : Snapshot F)
  /-- `sendDevPilotConversationMessage` waits for `conversation.create`. -/
  | creating (prompt : String)
  | savingCreated (prompt : String) (conversation : Conversation F)
  | sending (conversation : Conversation F)
  | reopening (conversation : Conversation F) (answer : Option (Snapshot F))

structure Desktop (F : Type) where
  store : Store F
  transientMessageSeq : Nat
  requests : List (Request F)
  clock : Nat

inductive DesktopEvent (F : Type)
  | runtime (frame : RuntimeEvent F)
  | select (conversationId : String)
  | send (text : String)
  /-- The runtime takes the snapshot that answers a `conversation.open`. -/
  | answered (i : Nat) (conversation : Conversation F) (messages : List (ConversationMessage F))
  | created (i : Nat) (conversation : Conversation F)
  | resolved (i : Nat)
  | rejected (i : Nat)

namespace Store

def optimisticUserMessage (now : Int) (seq : Nat) (text : String) : ConversationMessage F where
  messageId := "local-pending-" ++ toString now ++ "-" ++ toString seq
  turnId := "local-turn-" ++ toString now ++ "-" ++ toString seq
  role := .user
  text := text
  kind := .message
  createdAt := .int now

def showPrompt (host : DesktopHost F) (now : Int) (s : Store F) (seq : Nat) (prompt : String)
    (conversation : Conversation F) : Store F :=
  { s with
    messagesByConversation := s.mergeConversationMessages host now conversation.conversationId
      [optimisticUserMessage now seq prompt]
    conversations := s.patchConversationState now conversation.conversationId fun c =>
      { c with state := .starting, activeRunId := conversation.activeRunId, lastError := none } }

def overwrite (host : DesktopHost F) (now : Int) (s : Store F) (conversationId : String)
    (opened : Snapshot F) : Store F :=
  { s with
    conversations := s.mergeConversations [opened.conversation]
    messagesByConversation := s.setConversationMessages host now conversationId opened.messages
    selectedProjectId := some opened.conversation.projectId
    selectedConversationId := some opened.conversation.conversationId }

end Store

namespace Desktop

def start (store : Store F) : Desktop F := ⟨store, 0, [], 0⟩

def select (d : Desktop F) (conversationId : String) : Desktop F :=
  match d.store.conversations.lookup conversationId with
  | none => d
  | some conversation =>
      { d with
        store := { d.store with
          selectedProjectId := some conversation.projectId
          selectedConversationId := some conversation.conversationId }
        requests := d.requests ++ [Request.opening conversation none] }

def showPrompt (host : DesktopHost F) (now : Int) (d : Desktop F) (prompt : String)
    (conversation : Conversation F) : Desktop F :=
  { d with
    store := d.store.showPrompt host now (d.transientMessageSeq + 1) prompt conversation
    transientMessageSeq := d.transientMessageSeq + 1 }

def send (host : DesktopHost F) (now : Int) (d : Desktop F) (text : String) : Desktop F :=
  let model := readString (d.store.selectedModel.map (Json.str : String → Json F))
  if (jsTrim text).isEmpty || d.store.selectedProjectId.isNone || !model.any (· ∈ d.store.models) then d
  else match d.store.selectedConversationId.bind fun x => d.store.conversations.lookup x with
    | none => { d with requests := d.requests ++ [Request.creating (jsTrim text)] }
    | some conversation =>
        { d.showPrompt host now (jsTrim text) conversation with
          requests := d.requests ++ [Request.sending conversation] }

def answer (d : Desktop F) (i : Nat) (opened : Snapshot F) : Desktop F :=
  match d.requests[i]? with
  | some (.opening conversation none) =>
      { d with requests := d.requests.set i (.opening conversation (some opened)) }
  | some (.reopening conversation none) =>
      { d with requests := d.requests.set i (.reopening conversation (some opened)) }
  | _ => d

def create (d : Desktop F) (i : Nat) (conversation : Conversation F) : Desktop F :=
  match d.requests[i]? with
  | some (.creating prompt) =>
      { d with
        store := { d.store with
          conversations := d.store.mergeConversations [conversation]
          selectedProjectId := some conversation.projectId
          selectedConversationId := some conversation.conversationId }
        requests := d.requests.set i (.savingCreated prompt conversation) }
  | _ => d

def resolve (host : DesktopHost F) (now : Int) (d : Desktop F) (i : Nat) : Desktop F :=
  match d.requests[i]? with
  | some (.opening conversation (some opened)) =>
      { d with requests := d.requests.set i (.savingSelection conversation opened) }
  | some (.savingSelection conversation opened) =>
      { d with
        store := d.store.overwrite host now conversation.conversationId opened
        requests := d.requests.eraseIdx i }
  | some (.savingCreated prompt conversation) =>
      { d.showPrompt host now prompt conversation with
        requests := d.requests.set i (.sending conversation) }
  | some (.sending conversation) =>
      { d with requests := d.requests.set i (.reopening conversation none) }
  | some (.reopening _ (some opened)) =>
      { d with
        store := d.store.overwrite host now opened.conversation.conversationId opened
        requests := d.requests.eraseIdx i }
  | _ => d

/-- A failed `saveUiState` does not end the sending of a message. -/
def reject (host : DesktopHost F) (now : Int) (d : Desktop F) (i : Nat) : Desktop F :=
  match d.requests[i]? with
  | some (.savingCreated _ _) => d.resolve host now i
  | _ => { d with requests := d.requests.eraseIdx i }

def step (host : DesktopHost F) (d : Desktop F) (e : Int × DesktopEvent F) : Desktop F :=
  let d' := match e.2 with
    | .runtime frame => { d with store := d.store.onRuntimeEvent host e.1 frame }
    | .select conversationId => d.select conversationId
    | .send text => d.send host e.1 text
    | .answered i conversation messages => d.answer i ⟨conversation, messages, d.clock⟩
    | .created i conversation => d.create i conversation
    | .resolved i => d.resolve host e.1 i
    | .rejected i => d.reject host e.1 i
  { d' with clock := d.clock + 1 }

/-- The snapshot with which a resolved request replaces the messages of a
conversation. -/
def overwriting (d : Desktop F) : DesktopEvent F → Option (String × Snapshot F)
  | .resolved i => match d.requests[i]? with
      | some (.savingSelection conversation opened) => some (conversation.conversationId, opened)
      | some (.reopening _ (some opened)) => some (opened.conversation.conversationId, opened)
      | _ => none
  | _ => none

end Desktop

namespace DesktopHost

theorem mem_keys_foldl_setById (messages : List (ConversationMessage F))
    (byId : List (String × ConversationMessage F)) (x : String) :
    x ∈ Members.keys (messages.foldl setById byId) ↔
      x ∈ Members.keys byId ∨ x ≠ "" ∧ x ∈ messages.map (·.messageId) := by
  induction messages generalizing byId with
  | nil => simp
  | cons message messages ih =>
      rw [List.foldl_cons, ih, setById]
      by_cases hid : message.messageId = ""
      · rw [if_pos hid, List.map_cons, List.mem_cons, hid]
        tauto
      · rw [if_neg hid, Members.keys_insert, List.map_cons, List.mem_cons]
        by_cases hx : x = message.messageId
        · subst hx
          split_ifs <;> simp_all
        · split_ifs <;> simp [hx]

theorem keyed_foldl_setById (messages : List (ConversationMessage F))
    {byId : List (String × ConversationMessage F)} (h : ∀ p ∈ byId, p.2.messageId = p.1) :
    ∀ p ∈ messages.foldl setById byId, p.2.messageId = p.1 := by
  induction messages generalizing byId with
  | nil => exact h
  | cons message messages ih =>
      apply ih
      intro p hp
      rw [setById] at hp
      split_ifs at hp
      · exact h p hp
      · rcases Members.eq_or_mem_of_mem_insert hp with rfl | hp
        · rfl
        · exact h p hp

theorem mem_ids_normalizeMessages (host : DesktopHost F) (now : Int)
    (messages : List (ConversationMessage F)) (x : String) :
    x ∈ (host.normalizeMessages now messages).map (·.messageId) ↔
      x ≠ "" ∧ x ∈ messages.map (·.messageId) := by
  have hids : ((messages.foldl setById []).map Prod.snd).map (·.messageId) =
      Members.keys (messages.foldl setById []) := by
    rw [List.map_map]
    exact List.map_congr_left (keyed_foldl_setById messages (by simp))
  have hkeys := mem_keys_foldl_setById messages [] x
  rw [← hids] at hkeys
  rw [normalizeMessages, ((List.mergeSort_perm _ _).map _).mem_iff, hkeys]
  simp [Members.keys]

end DesktopHost

end DevPilot
