import DevPilot.Desktop.Requests

/-!
What an event without a conversation record changes of the conversations in the
store.
-/

namespace DevPilot

open PyJson Runs

variable {F : Type}

def Conversation.fixed (c : Conversation F) : Conversation F :=
  { c with state := .idle, updatedAt := .int 0, activeRunId := none, lastError := none }

namespace RuntimeEvent

variable (frame : RuntimeEvent F)

def isFlat : Bool := (readObject (frame.data.get? "conversation")).isNone

def conversationId? : Option String := readString (frame.data.get? "conversationId")

def projectId? : Option String := readString (frame.data.get? "projectId")

def isRun : Bool := "run.".toList.isPrefixOf frame.event.toList

end RuntimeEvent

/-- The fixed fields of a conversation are those that the flat data reads as. -/
structure ReadsAs (now : Int) (s : Store F) (frame : RuntimeEvent F) (id projectId : String)
    (c : Conversation F) : Prop where
  conversationId : c.conversationId = id
  projectId : c.projectId = projectId
  title : c.title = (readString (frame.data.get? "title")).getD "New conversation"
  createdAt : c.createdAt = (readNumber (frame.data.get? "createdAt")).getD (.int now)
  provider : c.provider = "codex"
  model : c.model = (readString (frame.data.get? "model")).getD (s.selectedModel.getD "codex")
  reasoningEffort : c.reasoningEffort =
    (readString (frame.data.get? "reasoningEffort")).getD s.reasoningEffort
  sandbox : c.sandbox = normalizeSandboxMode (frame.data.get? "sandbox")
  pinned : c.pinned = readTrue (frame.data.get? "pinned")
  archived : c.archived = readTrue (frame.data.get? "archived")

namespace Desktop

/-- An event without a conversation record leaves the other conversations and
the fixed fields of its own alone, and a `run.*` event sets the state that its
branch says. -/
def FramedAt (host : DesktopHost F) (d : Desktop F) (e : Int × DesktopEvent F) : Prop :=
  match e.2 with
  | .runtime frame =>
      let before := d.store.conversations
      let after := (d.step host e).store.conversations
      frame.isFlat = true →
        (∀ id, frame.conversationId? ≠ some id → after.lookup id = before.lookup id) ∧
        ∀ id, frame.conversationId? = some id →
          (after.lookup id).map (·.fixed) = (before.lookup id).map (·.fixed) ∧
          (frame.isRun = true → ∀ patch, Store.eventPatch frame = some patch →
            (after.lookup id).map (·.state) = (before.lookup id).map fun c => (patch c).state)
  | _ => True

/-- The store has the record as the flat data of the event reads, whose state is
the one that the branch of a `run.*` event sets. -/
def RecordFitsAt (d : Desktop F) (e : Int × DesktopEvent F) : Prop :=
  match e.2 with
  | .runtime frame => frame.isFlat = true → ∀ id projectId, frame.conversationId? = some id →
      frame.projectId? = some projectId →
        ∃ c, d.store.conversations.lookup id = some c ∧ ReadsAs e.1 d.store frame id projectId c ∧
          (frame.isRun = true → ∀ patch, Store.eventPatch frame = some patch →
            (patch c).state = normalizeConversationState (frame.data.get? "state"))
  | _ => True

end Desktop

namespace Store

variable {host : DesktopHost F} {now : Int} {s : Store F} {frame : RuntimeEvent F}

theorem readString_ne_empty {v : Option (Json F)} {x : String} (h : readString v = some x) :
    x ≠ "" := by
  obtain ⟨s, -, h⟩ := Option.bind_eq_some_iff.mp h
  split_ifs at h with hempty
  obtain rfl := Option.some.inj h
  rintro he
  exact hempty (by rw [he]; rfl)

theorem readConversation_flat (now : Int) (s : Store F) (hflat : frame.isFlat = true) :
    (∃ id projectId c, frame.conversationId? = some id ∧ frame.projectId? = some projectId ∧
      s.readConversation now frame = some c ∧ ReadsAs now s frame id projectId c ∧
      c.state = normalizeConversationState (frame.data.get? "state")) ∨
    s.readConversation now frame = none ∧
      (frame.conversationId? = none ∨ frame.projectId? = none) := by
  have hnone : readObject (frame.data.get? "conversation") = none := Option.isNone_iff_eq_none.mp hflat
  cases hid : frame.conversationId? with
  | none =>
      right
      rw [RuntimeEvent.conversationId?] at hid
      simp [readConversation, hnone, hid]
  | some id => cases hp : frame.projectId? with
    | none =>
        right
        rw [RuntimeEvent.conversationId?] at hid
        rw [RuntimeEvent.projectId?] at hp
        simp [readConversation, hnone, hid, hp]
    | some projectId =>
        left
        rw [RuntimeEvent.conversationId?] at hid
        rw [RuntimeEvent.projectId?] at hp
        simp only [readConversation, hnone, Option.getD_none, hid, hp, Option.bind_eq_bind,
          Option.bind_some]
        exact ⟨id, projectId, _, rfl, rfl, rfl, ⟨rfl, rfl, rfl, rfl, rfl, rfl, rfl, rfl, rfl, rfl⟩, rfl⟩

theorem fixed_eq_iff {id projectId : String} {c : Conversation F}
    (h : ReadsAs now s frame id projectId c) (c' : Conversation F) :
    c'.fixed = c.fixed ↔ ReadsAs now s frame id projectId c' := by
  simp only [Conversation.fixed, Conversation.mk.injEq, h.conversationId, h.projectId, h.title,
    h.createdAt, h.provider, h.model, h.reasoningEffort, h.sandbox, h.pinned, h.archived]
  constructor
  · rintro ⟨h₁, h₂, h₃, -, h₄, -, h₅, h₆, h₇, h₈, h₉, h₁₀, -⟩
    exact ⟨h₁, h₂, h₃, h₄, h₅, h₆, h₇, h₈, h₉, h₁₀⟩
  · intro h'
    simp [h'.conversationId, h'.projectId, h'.title, h'.createdAt, h'.provider, h'.model,
      h'.reasoningEffort, h'.sandbox, h'.pinned, h'.archived]

theorem fixed_eventPatch {patch : Conversation F → Conversation F}
    (h : eventPatch frame = some patch) (c : Conversation F) :
    ({ patch c with updatedAt := .int now } : Conversation F).fixed = c.fixed := by
  rw [eventPatch] at h
  split at h
  all_goals cases h
  all_goals rfl

theorem lookup_patchConversationState (now : Int) (s : Store F) (id : String)
    (patch : Conversation F → Conversation F) (x : String) :
    (s.patchConversationState now id patch).lookup x = if x = id then
      (s.conversations.lookup id).map fun c => { patch c with updatedAt := .int now }
      else s.conversations.lookup x := by
  rw [patchConversationState]
  cases hc : s.conversations.lookup id with
  | none =>
      split_ifs with hx
      · rw [hx, hc]
        rfl
      · rfl
  | some c =>
      split_ifs with hx
      · rw [hx, Members.lookup_insert_self]
        rfl
      · rw [Members.lookup_insert_ne hx]

end Store

namespace Desktop

variable {host : DesktopHost F} {now : Int} {d : Desktop F} {frame : RuntimeEvent F}

theorem framedAt_of_none (hread : d.store.readConversation now frame = none) :
    d.FramedAt host (now, .runtime frame) := by
  intro hflat
  have hid : d.store.eventConversationId now frame = frame.conversationId? := by
    rw [Store.eventConversationId, hread]
    rfl
  cases hc : frame.conversationId? with
  | none => simp [step, Store.onRuntimeEvent, hread, hid, hc]
  | some id =>
      cases hp : Store.eventPatch frame with
      | none => simp [step, Store.onRuntimeEvent, hread, hid, hc, hp]
      | some patch =>
          have hafter : (d.step host (now, .runtime frame)).store.conversations =
              d.store.patchConversationState now id patch := by
            simp only [step, Store.onRuntimeEvent, hread, hid, hc, hp]
          rw [hafter]
          constructor
          · intro x hx
            rw [Store.lookup_patchConversationState, if_neg]
            rintro rfl
            exact hx rfl
          · rintro x hx
            obtain rfl := Option.some.inj hx
            rw [Store.lookup_patchConversationState, if_pos rfl, Option.map_map, Option.map_map]
            constructor
            · congr 1
              funext c
              exact Store.fixed_eventPatch hp c
            · intro _ patch' hpatch
              obtain rfl := Option.some.inj hpatch
              rfl

theorem framedAt_of_some {id projectId : String} {c : Conversation F}
    (hid : frame.conversationId? = some id) (hflat : frame.isFlat = true)
    (hread : d.store.readConversation now frame = some c)
    (hreads : ReadsAs now d.store frame id projectId c)
    (hstate : c.state = normalizeConversationState (frame.data.get? "state")) :
    d.FramedAt host (now, .runtime frame) ↔
      ∃ c', d.store.conversations.lookup id = some c' ∧ ReadsAs now d.store frame id projectId c' ∧
        (frame.isRun = true → ∀ patch, Store.eventPatch frame = some patch →
          (patch c').state = normalizeConversationState (frame.data.get? "state")) := by
  have hne : c.conversationId ≠ "" := hreads.conversationId ▸ Store.readString_ne_empty hid
  have hafter : (d.step host (now, .runtime frame)).store.conversations =
      Members.insert id c d.store.conversations := by
    simp only [step, Store.onRuntimeEvent, hread]
    rw [← hreads.conversationId]
    exact if_neg hne
  have hself : (Members.insert id c d.store.conversations).lookup id = some c :=
    Members.lookup_insert_self id c _
  constructor
  · intro hframed
    obtain ⟨-, hown⟩ := hframed hflat
    obtain ⟨hfixed, hbranch⟩ := hown id hid
    rw [hafter, hself] at hfixed hbranch
    obtain ⟨c', hc', hfixed⟩ := Option.map_eq_some_iff.mp hfixed.symm
    refine ⟨c', hc', (Store.fixed_eq_iff hreads c').mp hfixed, fun hrun patch hpatch => ?_⟩
    have hset := hbranch hrun patch hpatch
    rw [hc', Option.map_some, Option.map_some, Option.some.injEq] at hset
    rw [← hset, hstate]
  · rintro ⟨c', hc', hreads', hbranch⟩ -
    rw [hafter]
    constructor
    · intro x hx
      apply Members.lookup_insert_ne
      rintro rfl
      exact hx hid
    · intro x hx
      obtain rfl := Option.some.inj (hid.symm.trans hx)
      rw [hself, hc', Option.map_some, Option.map_some, Option.map_some]
      constructor
      · rw [(Store.fixed_eq_iff hreads c').mpr hreads']
      · intro hrun patch hpatch
        rw [Option.map_some, hstate, hbranch hrun patch hpatch]

theorem framedAt_iff (host : DesktopHost F) (d : Desktop F) (e : Int × DesktopEvent F) :
    d.FramedAt host e ↔ d.RecordFitsAt e := by
  obtain ⟨now, e⟩ := e
  cases e with
  | runtime frame =>
      by_cases hflat : frame.isFlat = true
      · rcases Store.readConversation_flat now d.store hflat with
          ⟨id, projectId, c, hid, hp, hread, hreads, hstate⟩ | ⟨hread, hnone⟩
        · rw [framedAt_of_some hid hflat hread hreads hstate]
          constructor
          · intro h _ id' projectId' hid' hp'
            obtain rfl := Option.some.inj (hid.symm.trans hid')
            obtain rfl := Option.some.inj (hp.symm.trans hp')
            exact h
          · exact fun h => h hflat id projectId hid hp
        · refine iff_of_true (framedAt_of_none hread) fun _ id projectId hid hp => ?_
          rcases hnone with hnone | hnone
          · simp [hnone] at hid
          · simp [hnone] at hp
      · exact iff_of_true (fun h => absurd h hflat) fun h => absurd h hflat
  | _ => exact Iff.rfl

end Desktop

/-- In a run the events without a conversation record keep to their conversation
and to the state that their branch sets if and only if those that name a project
find the record that their flat data reads as. -/
theorem flatEvents_framed_iff (host : DesktopHost F) (d : Desktop F)
    (events : List (Int × DesktopEvent F)) :
    Along (Desktop.step host) (Desktop.FramedAt host) d events ↔
      Along (Desktop.step host) Desktop.RecordFitsAt d events := by
  apply along_iff (I := fun _ => True)
  · exact fun d e _ => d.framedAt_iff host e
  · exact fun _ _ _ _ => trivial
  · trivial

def literalDesktop : DesktopHost FloatText where
  isFinite _ := true
  inSeconds _ := false
  thousandfold := id
  atMost
    | .int a, .int b => a ≤ b
    | _, _ => true

def namedConversation : Conversation FloatText where
  conversationId := "conversation"
  projectId := "project"
  title := "Faster training"
  state := .working
  createdAt := .int 1
  updatedAt := .int 1
  provider := "codex"
  model := "model"
  reasoningEffort := "high"
  sandbox := .readOnly
  pinned := true
  archived := false
  activeRunId := some "run"
  lastError := none

def oneConversation : Store FloatText where
  conversations := [("conversation", namedConversation)]
  messagesByConversation := []
  selectedProjectId := none
  selectedConversationId := none
  models := ["model"]
  selectedModel := some "model"
  reasoningEffort := "high"


theorem flatEvent_resets_record :
    ¬ ∀ (host : DesktopHost FloatText) (d : Desktop FloatText)
      (events : List (Int × DesktopEvent FloatText)),
      Along (Desktop.step host) (Desktop.FramedAt host) d events := by
  intro h
  obtain ⟨hframed, -⟩ := h literalDesktop (.start oneConversation) [(2, .runtime ⟨"run.completed",
    .obj [("projectId", .str "project"), ("conversationId", .str "conversation")]⟩)]
  have htitle := congrArg (Option.map (·.title)) ((hframed rfl).2 "conversation" (by decide)).1
  revert htitle
  decide

end DevPilot
