import DevPilot.Core.AgentPairing
import DevPilot.Core.GeminiProvider
import DevPilot.Lib.DeltaLog
import DevPilot.Lib.Runs
import Mathlib.Data.List.ReduceOption

/-!
Sessions of an agent with a Gemini provider that it shares with sub-agents,
summarisers and other agents: which user messages the server's interaction
chain holds, as the history grows, is rewritten, compacted and resumed.
-/

namespace DevPilot

open PyJson DeltaLog Runs

variable {F : Type}

/-- What the server holds of the agent's history on a chain, if it keeps exactly
what is sent: the user messages sent on the chain, and those the history had
when the agent was last answered there. -/
structure Chain where
  held : List Nat
  seen : List Nat

/-- The message a request of the agent sends, and whether nothing of it is dropped. -/
structure Sent where
  tag : Nat
  whole : Bool

/-- A request the server has not answered yet; `sent` is `none` if it is not
the agent's own. -/
structure Waiting where
  chain : Chain
  count : Nat
  sent : Option Sent

/-- Every message of the history has a tag of its own, which it keeps. -/
structure Session (F : Type) where
  provider : GeminiProvider
  chain : Chain
  history : List (Nat × Json F)
  nextTag : Nat
  waiting : List Waiting

inductive Slot (F : Type)
  | keep (position : Nat)
  | fresh (message : Json F)

/-- Rewritings of the messages in place, which leave their roles alone. -/
abbrev RoleKeeping (F : Type) := { f : Nat → Json F → Json F // ∀ i msg, isUser (f i msg) = isUser msg }

inductive SessionEvent (F : Type)
  | append (messages : List (Json F))
  | rebuild (plan : List (Slot F))
  | rewrite (f : RoleKeeping F)
  | restart
  | send
  | sendOther (messages : List (Json F))
  /-- A waiting request fails or is answered with an interaction id. -/
  | receive (i : Nat) (answer : Except String (Option String))

def userTags (history : List (Nat × Json F)) : List Nat :=
  (history.filter (isUser ·.2)).map Prod.fst

def tagged (nextTag : Nat) (messages : List (Json F)) : List (Nat × Json F) :=
  messages.mapIdx fun i msg => (nextTag + i, msg)

def place (history : List (Nat × Json F)) (nextTag : Nat) (plan : List (Slot F)) :
    List (Nat × Json F) :=
  (plan.mapIdx fun i slot => match slot with
    | .keep position => history[position]?
    | .fresh msg => some (nextTag + i, msg)).reduceOption

def isInteractionId (id : Option String) : Bool := id.any (!·.isEmpty)

def Waiting.next (w : Waiting) (current : Chain) (id : Option String) : Chain :=
  if isInteractionId id then w.chain else current

namespace Session

def start (history : List (Json F)) : Session F :=
  ⟨.fresh, ⟨[], []⟩, tagged 0 history, history.length, []⟩

def users (s : Session F) : List Nat := userTags s.history

def blocked (s : Session F) : Bool := s.waiting.any (·.sent.isSome)

/-- A request is built and sent, up to where `create` waits. -/
def begin (host : Host F) (system : String) (s : Session F) (messages : List (Json F))
    (sent : Bool → Option Sent) : Session F :=
  let (provider, request) := s.provider.buildRequestParams host system messages
  let chain := if provider.useChain then s.chain else ⟨[], []⟩
  match request with
  | .error _ => { s with provider, chain }
  | .ok _ => { s with
      provider, chain
      waiting := s.waiting ++ [⟨chain, messages.length, sent provider.useChain⟩] }

def toSend (host : Host F) (s : Session F) (useChain : Bool) : Option Sent :=
  (sentMessage useChain s.history).map fun p => ⟨p.1, !useChain || decide (ResultsNamed host p.2)⟩

/-- The rest of `create`, once the answer is there. -/
def answered (s : Session F) (w : Waiting) (id : Option String) : Session F :=
  { s with
    provider := s.provider.noteAnswer w.count id
    chain := match w.sent with
      | none => w.next s.chain id
      | some sent => ⟨(w.next s.chain id).held ++
          (if isInteractionId id && sent.whole then [sent.tag] else []), s.users⟩ }

def step (host : Host F) (system : String) (s : Session F) : SessionEvent F → Session F
  | .append messages => if s.blocked then s else
      { s with
        history := s.history ++ tagged s.nextTag messages
        nextTag := s.nextTag + messages.length }
  | .rebuild plan => if s.blocked then s else
      { s with history := place s.history s.nextTag plan, nextTag := s.nextTag + plan.length }
  | .rewrite f => { s with history := s.history.mapIdx fun i p => (p.1, f.1 i p.2) }
  | .restart => { s with provider := .fresh, chain := ⟨[], []⟩, waiting := [] }
  | .send => if s.blocked then s else
      s.begin host system (s.history.map Prod.snd) (s.toSend host)
  | .sendOther messages => s.begin host system messages fun _ => none
  | .receive i answer => match s.waiting[i]? with
      | none => s
      | some w =>
          let s := match answer with
            | .error _ => s
            | .ok id => s.answered w id
          { s with waiting := s.waiting.eraseIdx i }

end Session

def agentAnswer? (s : Session F) : SessionEvent F → Option (Waiting × Sent × Option String)
  | .receive i (.ok id) => (s.waiting[i]?).bind fun w => w.sent.map fun sent => (w, sent, id)
  | _ => none

/-- Once the agent is answered, every user message of its history is on the
chain exactly once, in the order of the history. -/
def DeliversAt (host : Host F) (system : String) (s : Session F) (e : SessionEvent F) : Prop :=
  (agentAnswer? s e).isSome → Delivered (s.step host system e).users (s.step host system e).chain.held

/-- Since the agent was last answered on the chain its history got exactly one
new user message, the one that the request sends; none, if the request adds
nothing to the chain. -/
def MeetsAt (s : Session F) (e : SessionEvent F) : Prop :=
  ∀ a ∈ agentAnswer? s e,
    let seen := (a.1.next s.chain a.2.2).seen
    if isInteractionId a.2.2 && a.2.1.whole then OneNew seen s.users a.2.1.tag
    else s.users.Sublist seen

/-- What the chain holds of the history, among tags already given out. -/
structure Fits (users : List Nat) (nextTag : Nat) (c : Chain) : Prop where
  tracks : Tracks c.seen users c.held
  old : ∀ u ∈ c.held, u < nextTag

structure Session.Inv (s : Session F) : Prop where
  chain : Fits s.users s.nextTag s.chain
  waiting : ∀ w ∈ s.waiting, Fits s.users s.nextTag w.chain
  tags : ∀ p ∈ s.history, p.1 < s.nextTag
  sent : ∀ w ∈ s.waiting, ∀ sent ∈ w.sent, sent.tag ∈ s.users

theorem fits_empty (users : List Nat) (nextTag : Nat) : Fits users nextTag ⟨[], []⟩ :=
  ⟨.empty users, by simp⟩

theorem Fits.change {users users' : List Nat} {nextTag nextTag' : Nat} {c : Chain}
    (h : Fits users nextTag c) (hn : nextTag ≤ nextTag')
    (hu : ∀ u ∈ users', u ∈ users ∨ nextTag ≤ u) : Fits users' nextTag' c := by
  constructor
  · apply h.tracks.change
    intro u hm
    exact (hu u hm).imp_right fun hle hheld => absurd (h.old u hheld) (by omega)
  · exact fun u hm => (h.old u hm).trans_le hn

theorem mem_userTags {history : List (Nat × Json F)} {u : Nat} (h : u ∈ userTags history) :
    ∃ p ∈ history, isUser p.2 = true ∧ p.1 = u := by
  obtain ⟨p, hp, rfl⟩ := List.mem_map.mp h
  exact ⟨p, (List.mem_filter.mp hp).1, (List.mem_filter.mp hp).2, rfl⟩

theorem mem_userTags_of_mem {history : List (Nat × Json F)} {p : Nat × Json F} (h : p ∈ history)
    (hu : isUser p.2 = true) : p.1 ∈ userTags history :=
  List.mem_map_of_mem (List.mem_filter.mpr ⟨h, hu⟩)

theorem userTags_rewrite (f : RoleKeeping F) (history : List (Nat × Json F)) :
    userTags (history.mapIdx fun i p => (p.1, f.1 i p.2)) = userTags history := by
  induction history using List.reverseRecOn with
  | nil => rfl
  | append_singleton history p ih =>
      simp only [userTags, List.mapIdx_append, List.filter_append, List.map_append] at ih ⊢
      rw [ih]
      simp [List.filter_cons, f.2]
      split_ifs <;> rfl

theorem Session.Inv.edit {s : Session F} (h : s.Inv) (hb : s.blocked = false)
    {history : List (Nat × Json F)} {count : Nat}
    (hh : ∀ p ∈ history, p ∈ s.history ∨ s.nextTag ≤ p.1 ∧ p.1 < s.nextTag + count) :
    Session.Inv { s with history, nextTag := s.nextTag + count } := by
  have husers : ∀ u ∈ userTags history, u ∈ s.users ∨ s.nextTag ≤ u := by
    intro u hu
    obtain ⟨p, hp, hrole, rfl⟩ := mem_userTags hu
    exact (hh p hp).imp (mem_userTags_of_mem · hrole) And.left
  constructor
  · exact h.chain.change (Nat.le_add_right _ _) husers
  · exact fun w hw => (h.waiting w hw).change (Nat.le_add_right _ _) husers
  · intro p hp
    rcases hh p hp with hp | hp
    · exact (h.tags p hp).trans_le (Nat.le_add_right _ _)
    · exact hp.2
  · intro w hw sent hs
    have := List.any_eq_false.mp hb w hw
    rw [Option.mem_def.mp hs] at this
    simp at this

theorem Session.Inv.begin {s : Session F} (h : s.Inv) (host : Host F) (system : String)
    (messages : List (Json F)) {sent : Bool → Option Sent}
    (hsent : ∀ useChain input, resolveInput host messages useChain = .ok input →
      ∀ m ∈ sent useChain, m.tag ∈ s.users) : (s.begin host system messages sent).Inv := by
  have hchain : ∀ useChain : Bool, Fits s.users s.nextTag (if useChain then s.chain else ⟨[], []⟩) := by
    intro useChain
    split_ifs
    · exact h.chain
    · exact fits_empty _ _
  simp only [Session.begin, GeminiProvider.buildRequestParams]
  cases hr : resolveInput host messages (s.provider.keepChain messages.length).useChain with
  | error e => exact ⟨hchain _, h.waiting, h.tags, h.sent⟩
  | ok input =>
      refine ⟨hchain _, ?_, h.tags, ?_⟩
      · intro w hw
        rcases List.mem_append.mp hw with hw | hw
        · exact h.waiting w hw
        · rw [List.mem_singleton.mp hw]
          exact hchain _
      · intro w hw m hm
        rcases List.mem_append.mp hw with hw | hw
        · exact h.sent w hw m hm
        · obtain rfl := List.mem_singleton.mp hw
          exact hsent _ input hr m hm

theorem toSend_mem_users {host : Host F} {s : Session F} {useChain : Bool} {input : GeminiInput F}
    (hr : resolveInput host (s.history.map Prod.snd) useChain = .ok input) :
    ∀ m ∈ s.toSend host useChain, m.tag ∈ s.users := by
  intro m hm
  obtain ⟨p, hp, rfl⟩ := Option.map_eq_some_iff.mp hm
  obtain ⟨msg, hmsg, huser⟩ := sentMessage_of_resolveInput host hr
  have hsnd : msg = p.2 := by
    cases useChain with
    | false => simpa [sentMessage, List.head?_map, show s.history.head? = some p from hp] using hmsg.symm
    | true => simpa [sentMessage, List.getLast?_map, show s.history.getLast? = some p from hp] using
        hmsg.symm
  apply mem_userTags_of_mem _ (hsnd ▸ huser)
  cases useChain with
  | false => exact List.mem_of_mem_head? hp
  | true => exact List.mem_of_getLast? hp

theorem fits_next {s : Session F} (h : s.Inv) {w : Waiting} (hw : w ∈ s.waiting)
    (id : Option String) : Fits s.users s.nextTag (w.next s.chain id) := by
  rw [Waiting.next]
  split_ifs
  · exact h.waiting w hw
  · exact h.chain

theorem answered_delivers_iff {s : Session F} (h : s.Inv) {w : Waiting} (hw : w ∈ s.waiting)
    {sent : Sent} (hs : w.sent = some sent) (id : Option String) :
    Delivered s.users (s.answered w id).chain.held ↔
      if isInteractionId id && sent.whole then OneNew (w.next s.chain id).seen s.users sent.tag
      else s.users.Sublist (w.next s.chain id).seen := by
  have hfits := fits_next h hw id
  simp only [Session.answered, hs]
  split_ifs
  · exact hfits.tracks.delivered_append_iff (h.sent w hw sent hs)
  · rw [List.append_nil]
    exact hfits.tracks.delivered_iff

theorem Session.Inv.answered {s : Session F} (h : s.Inv) {w : Waiting} (hw : w ∈ s.waiting)
    (id : Option String) (hd : w.sent.isSome → Delivered s.users (s.answered w id).chain.held) :
    (s.answered w id).Inv := by
  refine ⟨?_, h.waiting, h.tags, h.sent⟩
  have hfits := fits_next h hw id
  cases hs : w.sent with
  | none =>
      simp only [Session.answered, hs]
      exact hfits
  | some sent =>
      have hdel := hd (hs ▸ rfl)
      have hiff := (answered_delivers_iff h hw hs id).mp hdel
      have hmem := h.sent w hw sent hs
      simp only [Session.answered, hs] at hdel ⊢
      by_cases hadds : (isInteractionId id && sent.whole) = true
      · rw [if_pos hadds] at hiff hdel ⊢
        refine ⟨.of_sublist (hfits.tracks.nodup_append hmem hiff.2.2) hdel.2, ?_⟩
        intro u hu
        rcases List.mem_append.mp hu with hu | hu
        · exact hfits.old u hu
        · obtain ⟨p, hp, -, rfl⟩ := mem_userTags (List.mem_singleton.mp hu ▸ hmem)
          exact h.tags p hp
      · rw [if_neg hadds, List.append_nil] at hdel ⊢
        exact ⟨.of_sublist hfits.tracks.nodup hdel.2, hfits.old⟩

theorem Session.Inv.receive {s : Session F} (h : s.Inv) (i : Nat) :
    Session.Inv { s with waiting := s.waiting.eraseIdx i } :=
  ⟨h.chain, fun w hw => h.waiting w (List.mem_of_mem_eraseIdx hw), h.tags,
    fun w hw => h.sent w (List.mem_of_mem_eraseIdx hw)⟩

theorem agentAnswer?_eq_some {s : Session F} {e : SessionEvent F} {a : Waiting × Sent × Option String}
    (h : agentAnswer? s e = some a) : ∃ i, e = .receive i (.ok a.2.2) ∧ s.waiting[i]? = some a.1 ∧
      a.1.sent = some a.2.1 := by
  unfold agentAnswer? at h
  split at h
  · rename_i i id
    obtain ⟨w, hw, h⟩ := Option.bind_eq_some_iff.mp h
    obtain ⟨sent, hs, rfl⟩ := Option.map_eq_some_iff.mp h
    exact ⟨i, rfl, hw, hs⟩
  · simp at h

theorem deliversAt_iff (host : Host F) (system : String) {s : Session F} (h : s.Inv)
    (e : SessionEvent F) : DeliversAt host system s e ↔ MeetsAt s e := by
  rw [DeliversAt, MeetsAt]
  cases ha : agentAnswer? s e with
  | none => simp
  | some a =>
      obtain ⟨i, rfl, hw, hs⟩ := agentAnswer?_eq_some ha
      have hiff := answered_delivers_iff h (List.mem_of_getElem? hw) hs a.2.2
      simp only [Session.step, hw, Option.isSome_some, forall_const, Option.mem_some_iff,
        forall_eq']
      exact hiff

theorem mem_tagged {n : Nat} {messages : List (Json F)} {p : Nat × Json F}
    (h : p ∈ tagged n messages) : n ≤ p.1 ∧ p.1 < n + messages.length := by
  obtain ⟨i, hi, rfl⟩ := List.mem_mapIdx.mp h
  exact ⟨Nat.le_add_right _ _, Nat.add_lt_add_left hi _⟩

theorem mem_place {history : List (Nat × Json F)} {n : Nat} {plan : List (Slot F)}
    {p : Nat × Json F} (h : p ∈ place history n plan) :
    p ∈ history ∨ n ≤ p.1 ∧ p.1 < n + plan.length := by
  obtain ⟨i, hi, hp⟩ := List.mem_mapIdx.mp (List.reduceOption_mem_iff.mp h)
  split at hp
  · exact .inl (List.mem_of_getElem? hp)
  · obtain rfl := Option.some.inj hp
    exact .inr ⟨Nat.le_add_right _ _, Nat.add_lt_add_left hi _⟩

theorem Session.Inv.step (host : Host F) (system : String) {s : Session F} (h : s.Inv)
    (e : SessionEvent F) (hm : MeetsAt s e) : (s.step host system e).Inv := by
  cases e with
  | append messages =>
      rw [Session.step]
      split_ifs with hb
      · exact h
      · apply h.edit (Bool.eq_false_iff.mpr hb)
        exact fun p hp => (List.mem_append.mp hp).imp_right mem_tagged
  | rebuild plan =>
      rw [Session.step]
      split_ifs with hb
      · exact h
      · exact h.edit (Bool.eq_false_iff.mpr hb) fun p hp => mem_place hp
  | rewrite f =>
      have husers : (s.step host system (.rewrite f)).users = s.users := userTags_rewrite f s.history
      constructor
      · rw [husers]
        exact h.chain
      · rw [husers]
        exact h.waiting
      · intro p hp
        obtain ⟨i, hi, rfl⟩ := List.mem_mapIdx.mp hp
        exact h.tags s.history[i] (List.getElem_mem hi)
      · rw [husers]
        exact h.sent
  | restart => exact ⟨fits_empty _ _, by simp [Session.step], h.tags, by simp [Session.step]⟩
  | send =>
      rw [Session.step]
      split_ifs with hb
      · exact h
      · exact h.begin host system _ fun useChain input hr => toSend_mem_users hr
  | sendOther messages =>
      rw [Session.step]
      apply h.begin
      intro _ _ _ _ hsent
      simp at hsent
  | receive i answer =>
      rw [Session.step]
      cases hw : s.waiting[i]? with
      | none => exact h
      | some w =>
          cases answer with
          | error _ => exact h.receive i
          | ok id =>
              have hd := (deliversAt_iff host system h _).mpr hm
              apply Session.Inv.receive
              apply h.answered (List.mem_of_getElem? hw)
              intro hs
              simp only [DeliversAt, Session.step, hw] at hd
              apply hd
              simpa [agentAnswer?, hw] using hs

theorem Session.inv_start (history : List (Json F)) : (Session.start history).Inv :=
  ⟨fits_empty _ _, by simp [Session.start],
    fun p hp => by simpa [Session.start] using (mem_tagged hp).2, by simp [Session.start]⟩

/-- Along a session the agent's user messages are delivered exactly once and in
order if and only if each of its requests has exactly one new user message to
deliver, the one it sends. -/
theorem session_delivers_iff (host : Host F) (system : String) (history : List (Json F))
    (events : List (SessionEvent F)) :
    Along (Session.step host system) (DeliversAt host system) (Session.start history) events ↔
      Along (Session.step host system) MeetsAt (Session.start history) events := by
  apply along_iff (I := Session.Inv)
  · exact fun s e h => deliversAt_iff host system h e
  · exact fun s e h hm => h.step host system e hm
  · exact Session.inv_start history

instance (host : Host F) (system : String) (s : Session F) (e : SessionEvent F) :
    Decidable (DeliversAt host system s e) :=
  inferInstanceAs (Decidable (_ → _))

theorem noteAfterResults_missing :
    ¬ ∀ (host : Host FloatText) (system : String) (history : List (Json FloatText))
      (events : List (SessionEvent FloatText)),
      Along (Session.step host system) (DeliversAt host system) (Session.start history) events := by
  intro h
  have hbad := h ⟨literalFormat, fun _ => "", fun _ => ""⟩ "system" [userText "go"]
    [.send, .receive 0 (.ok (some "i1")),
      .append [message "assistant" (.arr (readReply .toolUse).rawContent)],
      .append [message "user" (.arr [(ToolResultBlock.mk "c1" "text" false "Read").toContentBlock])],
      .append [userText "[user note] stop"], .send, .receive 0 (.ok (some "i2"))]
  revert hbad
  decide

end DevPilot
