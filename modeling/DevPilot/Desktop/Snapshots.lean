import DevPilot.Desktop.RecordFrame

/-!
No message of the open conversation is lost to a snapshot that was taken before
it came: which runs keep this.
-/

namespace DevPilot

open PyJson Runs

variable {F : Type}

namespace Store

variable {host : DesktopHost F} {now : Int} {s s' : Store F}

def messageIds (s : Store F) (conversationId : String) : List String :=
  (s.messagesOf conversationId).map (·.messageId)

theorem messageIds_congr (h : s'.messagesByConversation = s.messagesByConversation) (c : String) :
    s'.messageIds c = s.messageIds c := by
  rw [messageIds, messagesOf, h]
  rfl

theorem mem_messageIds_set {c' : String} {messages : List (ConversationMessage F)}
    (h : s'.messagesByConversation = s.setConversationMessages host now c' messages)
    (x c : String) : x ∈ s'.messageIds c ↔
      if c = c' then x ≠ "" ∧ x ∈ messages.map (·.messageId) else x ∈ s.messageIds c := by
  rw [messageIds, messagesOf, h, setConversationMessages]
  split_ifs with hc
  · rw [hc, Members.lookup_insert_self, Option.getD_some, DesktopHost.mem_ids_normalizeMessages]
  · rw [Members.lookup_insert_ne hc]
    rfl

theorem mem_messageIds_merge {c' : String} {messages : List (ConversationMessage F)}
    (h : s'.messagesByConversation = s.mergeConversationMessages host now c' messages)
    {x : String} (hx : x ≠ "") (c : String) : x ∈ s'.messageIds c ↔
      x ∈ s.messageIds c ∨ c = c' ∧ x ∈ messages.map (·.messageId) := by
  rw [mem_messageIds_set h, List.map_append, List.mem_append]
  split_ifs with hc
  · rw [hc, messageIds]
    simp [hx]
  · simp [hc]

theorem readMessage_ne_empty {frame : RuntimeEvent F} {message : ConversationMessage F}
    (h : readMessage now frame = some message) : message.messageId ≠ "" := by
  obtain ⟨candidate, -, h⟩ := Option.bind_eq_some_iff.mp h
  obtain ⟨messageId, hid, h⟩ := Option.bind_eq_some_iff.mp h
  obtain ⟨turnId, -, h⟩ := Option.bind_eq_some_iff.mp h
  obtain ⟨text, -, h⟩ := Option.bind_eq_some_iff.mp h
  obtain rfl := Option.some.inj h
  exact readString_ne_empty hid

end Store

namespace Desktop

variable {host : DesktopHost F} {d : Desktop F}

inductive Relists (host : DesktopHost F) (d : Desktop F) (e : Int × DesktopEvent F) : Prop
  | keep (hnone : d.overwriting e.2 = none)
      (h : (d.step host e).store.messagesByConversation = d.store.messagesByConversation)
  | merge (hnone : d.overwriting e.2 = none) (conversationId : String)
      (messages : List (ConversationMessage F))
      (h : (d.step host e).store.messagesByConversation =
        d.store.mergeConversationMessages host e.1 conversationId messages)
  | set (conversationId : String) (opened : Snapshot F)
      (hsome : d.overwriting e.2 = some (conversationId, opened))
      (h : (d.step host e).store.messagesByConversation =
        d.store.setConversationMessages host e.1 conversationId opened.messages)

theorem relists (host : DesktopHost F) (d : Desktop F) (e : Int × DesktopEvent F) :
    d.Relists host e := by
  obtain ⟨now, e⟩ := e
  cases e with
  | runtime frame =>
      cases hc : d.store.eventConversationId now frame with
      | none => exact .keep rfl (by simp [step, Store.onRuntimeEvent, hc])
      | some c =>
          cases hm : Store.readMessage now frame with
          | none => exact .keep rfl (by simp [step, Store.onRuntimeEvent, hc, hm])
          | some message => exact .merge rfl c [message] (by simp [step, Store.onRuntimeEvent, hc, hm])
  | select conversationId =>
      apply Relists.keep rfl
      simp only [step, select]
      split <;> rfl
  | send text =>
      by_cases hready : ((jsTrim text).isEmpty || d.store.selectedProjectId.isNone ||
          !(readString (d.store.selectedModel.map (Json.str : String → Json F))).any
            (· ∈ d.store.models)) = true
      · exact .keep rfl (by simp only [step, send, if_pos hready])
      · cases hc : d.store.selectedConversationId.bind fun x => d.store.conversations.lookup x with
        | none => exact .keep rfl (by simp only [step, send, if_neg hready, hc])
        | some conversation =>
            refine .merge rfl conversation.conversationId
              [Store.optimisticUserMessage now (d.transientMessageSeq + 1) (jsTrim text)] ?_
            simp only [step, send, if_neg hready, hc]
            rfl
  | answered i conversation messages =>
      apply Relists.keep rfl
      simp only [step, answer]
      split <;> rfl
  | created i conversation =>
      apply Relists.keep rfl
      simp only [step, create]
      split <;> rfl
  | resolved i =>
      cases hr : d.requests[i]? with
      | none => exact .keep (by simp [overwriting, hr]) (by simp [step, resolve, hr])
      | some request => cases request with
        | opening conversation answer => cases answer with
          | none => exact .keep (by simp [overwriting, hr]) (by simp [step, resolve, hr])
          | some opened => exact .keep (by simp [overwriting, hr]) (by simp [step, resolve, hr])
        | savingSelection conversation opened =>
            apply Relists.set conversation.conversationId opened (by simp [overwriting, hr])
            simp only [step, resolve, hr]
            rfl
        | creating prompt => exact .keep (by simp [overwriting, hr]) (by simp [step, resolve, hr])
        | savingCreated prompt conversation =>
            apply Relists.merge (by simp [overwriting, hr]) conversation.conversationId
              [Store.optimisticUserMessage now (d.transientMessageSeq + 1) prompt]
            simp only [step, resolve, hr]
            rfl
        | sending conversation => exact .keep (by simp [overwriting, hr]) (by simp [step, resolve, hr])
        | reopening conversation answer => cases answer with
          | none => exact .keep (by simp [overwriting, hr]) (by simp [step, resolve, hr])
          | some opened =>
              apply Relists.set opened.conversation.conversationId opened (by simp [overwriting, hr])
              simp only [step, resolve, hr]
              rfl
  | rejected i =>
      cases hr : d.requests[i]? with
      | none => exact .keep rfl (by simp [step, reject, hr])
      | some request => cases request with
        | savingCreated prompt conversation =>
            apply Relists.merge rfl conversation.conversationId
              [Store.optimisticUserMessage now (d.transientMessageSeq + 1) prompt]
            simp only [step, reject, resolve, hr]
            rfl
        | _ => exact .keep rfl (by simp [step, reject, hr])

theorem shown_step {e : Int × DesktopEvent F} (hnone : d.overwriting e.2 = none) {x c : String}
    (hx : x ≠ "") (h : x ∈ d.store.messageIds c) : x ∈ (d.step host e).store.messageIds c := by
  cases d.relists host e with
  | keep _ hlists =>
      rw [Store.messageIds_congr hlists]
      exact h
  | merge _ conversationId messages hlists => exact (Store.mem_messageIds_merge hlists hx c).mpr (.inl h)
  | set conversationId opened hsome => simp [hnone] at hsome

theorem shown_set {e : Int × DesktopEvent F} {conversationId : String} {opened : Snapshot F}
    (hsome : d.overwriting e.2 = some (conversationId, opened)) {x : String} (hx : x ≠ "")
    (c : String) : x ∈ (d.step host e).store.messageIds c ↔
      if c = conversationId then x ∈ opened.messages.map (·.messageId)
      else x ∈ d.store.messageIds c := by
  cases d.relists host e with
  | keep hnone => simp [hsome] at hnone
  | merge hnone => simp [hsome] at hnone
  | set conversationId' opened' hsome' hlists =>
      obtain ⟨rfl, rfl⟩ := Prod.mk.inj (Option.some.inj (hsome.symm.trans hsome'))
      rw [Store.mem_messageIds_set hlists]
      simp [hx]

end Desktop

structure Delivery where
  conversationId : String
  messageId : String
  time : Nat

/-- The desktop with the deliveries that no later snapshot has taken over. -/
structure WatchedDesktop (F : Type) where
  desktop : Desktop F
  owed : List Delivery

namespace WatchedDesktop

def delivered (d : Desktop F) (now : Int) (frame : RuntimeEvent F) : Option Delivery :=
  (d.store.eventConversationId now frame).bind fun conversationId =>
    if d.store.selectedConversationId = some conversationId then
      (Store.readMessage now frame).map fun message => ⟨conversationId, message.messageId, d.clock⟩
    else none

/-- A snapshot taken after a delivery, which contains it, replaces the list it
came to. -/
def takesOver (conversationId : String) (opened : Snapshot F) (o : Delivery) : Bool :=
  o.conversationId = conversationId ∧ o.time < opened.takenAt ∧
    o.messageId ∈ opened.messages.map (·.messageId)

def owedAfter (w : WatchedDesktop F) (e : Int × DesktopEvent F) : List Delivery :=
  match w.desktop.overwriting e.2, e.2 with
  | some (conversationId, opened), _ => w.owed.filter (!takesOver conversationId opened ·)
  | none, .runtime frame => w.owed ++ (delivered w.desktop e.1 frame).toList
  | none, _ => w.owed

def step (host : DesktopHost F) (w : WatchedDesktop F) (e : Int × DesktopEvent F) :
    WatchedDesktop F where
  desktop := w.desktop.step host e
  owed := w.owedAfter e

/-- After the step the list of each conversation has the messages delivered to
it. -/
def KeptAt (host : DesktopHost F) (w : WatchedDesktop F) (e : Int × DesktopEvent F) : Prop :=
  ∀ o ∈ (w.step host e).owed,
    o.messageId ∈ (w.step host e).desktop.store.messageIds o.conversationId

/-- A snapshot that replaces a list has what was delivered to it before the
snapshot was taken, and what has been delivered since. -/
def FitsAt (w : WatchedDesktop F) (e : Int × DesktopEvent F) : Prop :=
  ∀ conversationId opened, w.desktop.overwriting e.2 = some (conversationId, opened) →
    ∀ o ∈ w.owed, o.conversationId = conversationId →
      o.messageId ∈ opened.messages.map (·.messageId)

def Inv (w : WatchedDesktop F) : Prop :=
  ∀ o ∈ w.owed, o.messageId ≠ "" ∧ o.messageId ∈ w.desktop.store.messageIds o.conversationId

variable {host : DesktopHost F} {w : WatchedDesktop F} {e : Int × DesktopEvent F}

theorem owed_ne_empty (h : w.Inv) {o : Delivery} (ho : o ∈ (w.step host e).owed) :
    o.messageId ≠ "" := by
  simp only [step, owedAfter] at ho
  split at ho
  · exact (h o (List.mem_of_mem_filter ho)).1
  · rcases List.mem_append.mp ho with ho | ho
    · exact (h o ho).1
    · rename_i frame _ _
      rw [Option.mem_toList] at ho
      obtain ⟨c, -, ho⟩ := Option.bind_eq_some_iff.mp ho
      split_ifs at ho
      obtain ⟨message, hmessage, rfl⟩ := Option.map_eq_some_iff.mp ho
      exact Store.readMessage_ne_empty hmessage
  · exact (h o ho).1

theorem shown_delivered (host : DesktopHost F) {d : Desktop F} {now : Int} {frame : RuntimeEvent F} {o : Delivery}
    (ho : delivered d now frame = some o) :
    o.messageId ∈ (d.step host (now, .runtime frame)).store.messageIds o.conversationId := by
  obtain ⟨c, hc, ho⟩ := Option.bind_eq_some_iff.mp ho
  split_ifs at ho
  obtain ⟨message, hmessage, rfl⟩ := Option.map_eq_some_iff.mp ho
  have hlists : (d.step host (now, .runtime frame)).store.messagesByConversation =
      d.store.mergeConversationMessages host now c [message] := by
    simp [Desktop.step, Store.onRuntimeEvent, hc, hmessage]
  rw [Store.mem_messageIds_merge hlists (Store.readMessage_ne_empty hmessage)]
  exact .inr ⟨rfl, by simp⟩

theorem Inv.keptAt_iff (h : w.Inv) : w.KeptAt host e ↔ w.FitsAt e := by
  cases hover : w.desktop.overwriting e.2 with
  | none =>
      refine iff_of_true (fun o ho => ?_) (by simp [FitsAt, hover])
      have hold : o ∈ w.owed →
          o.messageId ∈ (w.step host e).desktop.store.messageIds o.conversationId :=
        fun ho => Desktop.shown_step hover (h o ho).1 (h o ho).2
      simp only [step, owedAfter, hover] at ho
      split at ho
      · contradiction
      · rename_i frame _ hframe
        rcases List.mem_append.mp ho with ho | ho
        · exact hold ho
        · have hshown := shown_delivered host (Option.mem_toList.mp ho)
          rwa [← hframe] at hshown
      · exact hold ho
  | some snapshot =>
      obtain ⟨c, opened⟩ := snapshot
      have howed : (w.step host e).owed = w.owed.filter (!takesOver c opened ·) := by
        simp only [step, owedAfter, hover]
      have hshown : ∀ o ∈ w.owed,
          (o.messageId ∈ (w.step host e).desktop.store.messageIds o.conversationId ↔
            (o.conversationId = c → o.messageId ∈ opened.messages.map (·.messageId))) := by
        intro o ho
        refine (Desktop.shown_set hover (h o ho).1 o.conversationId).trans ?_
        split_ifs with hc
        · simp [hc]
        · simp [hc, (h o ho).2]
      constructor
      · intro hkept c' opened' hsome o ho hc
        obtain ⟨rfl, rfl⟩ := Prod.mk.inj (Option.some.inj (hover.symm.trans hsome))
        by_contra hmissing
        have howes : o ∈ (w.step host e).owed := by
          rw [howed, List.mem_filter]
          simp only [takesOver, hmissing, and_false, decide_false, Bool.not_false, and_true]
          exact ho
        exact hmissing ((hshown o ho).mp (hkept o howes) hc)
      · intro hfits o ho
        rw [howed] at ho
        have ho := List.mem_of_mem_filter ho
        exact (hshown o ho).mpr (hfits c opened hover o ho)

end WatchedDesktop

/-- Along a run no message that an event has brought to the open conversation is
lost if and only if no snapshot replaces a list without the messages delivered to
it, as one does that was taken before a message came. -/
theorem deliveries_kept_iff (host : DesktopHost F) (store : Store F)
    (events : List (Int × DesktopEvent F)) :
    Along (WatchedDesktop.step host) (WatchedDesktop.KeptAt host) ⟨.start store, []⟩ events ↔
      Along (WatchedDesktop.step host) WatchedDesktop.FitsAt ⟨.start store, []⟩ events := by
  apply along_iff (I := WatchedDesktop.Inv)
  · exact fun w e h => h.keptAt_iff
  · intro w e h hfits o ho
    exact ⟨WatchedDesktop.owed_ne_empty h ho, h.keptAt_iff.mpr hfits o ho⟩
  · simp [WatchedDesktop.Inv]

theorem delivery_lost :
    ¬ ∀ (host : DesktopHost FloatText) (store : Store FloatText)
      (events : List (Int × DesktopEvent FloatText)),
      Along (WatchedDesktop.step host) (WatchedDesktop.KeptAt host) ⟨.start store, []⟩ events := by
  intro h
  obtain ⟨-, -, -, -, hlost, -⟩ := h literalDesktop oneConversation
    [(1, .select "conversation"), (2, .answered 0 namedConversation []), (3, .resolved 0),
      (4, .runtime ⟨"conversation.updated", .obj [("projectId", .str "project"),
        ("conversationId", .str "conversation"), ("message", .obj [("messageId", .str "message"),
          ("turnId", .str "turn"), ("text", .str "report")])]⟩),
      (5, .resolved 0)]
  revert hlost
  rw [WatchedDesktop.KeptAt]
  with_unfolding_all decide

end DevPilot
