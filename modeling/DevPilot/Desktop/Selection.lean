import DevPilot.Desktop.RecordFrame
import DevPilot.Lib.Slices

/-!
The open conversation is the one that was selected last, once no request is
under way: which runs keep this.
-/

namespace DevPilot

open PyJson Runs

variable {F : Type}

namespace Request

def target : Request F → Option String
  | .opening conversation answer =>
      some ((answer.map (·.conversation)).getD conversation).conversationId
  | .savingSelection _ opened => some opened.conversation.conversationId
  | .creating _ => none
  | .savingCreated _ conversation => some conversation.conversationId
  | .sending conversation => some conversation.conversationId
  | .reopening conversation answer =>
      some ((answer.map (·.conversation)).getD conversation).conversationId

/-- The conversation of an unanswered `conversation.open`. -/
def asked : Request F → Option String
  | .opening conversation none => some conversation.conversationId
  | .reopening conversation none => some conversation.conversationId
  | _ => none

def survivesFailure : Request F → Bool
  | .savingCreated _ _ => true
  | _ => false

end Request

namespace Desktop

def selecting (d : Desktop F) : DesktopEvent F → Option String
  | .created i conversation => match d.requests[i]? with
      | some (.creating _) => some conversation.conversationId
      | _ => none
  | e => (d.overwriting e).map (·.2.conversation.conversationId)

/-- A request other than the `i`-th is going to select `x`. -/
def Awaits (d : Desktop F) (i : Nat) (x : String) : Prop :=
  ∃ r ∈ d.requests.eraseIdx i, r.target = some x

instance (d : Desktop F) (i : Nat) (x : String) : Decidable (d.Awaits i x) :=
  inferInstanceAs (Decidable (∃ r ∈ d.requests.eraseIdx i, r.target = some x))

end Desktop

structure SelectingDesktop (F : Type) where
  desktop : Desktop F
  chosen : Option String

namespace SelectingDesktop

def step (host : DesktopHost F) (w : SelectingDesktop F) (e : Int × DesktopEvent F) :
    SelectingDesktop F where
  desktop := w.desktop.step host e
  chosen := match e.2 with
    | .select conversationId =>
        ((w.desktop.store.conversations.lookup conversationId).map (·.conversationId)).orElse
          fun _ => w.chosen
    | _ => w.chosen

/-- Where a response selects another conversation, or fails, a request for the
one selected last is under way. The runtime opens what it is asked to open. -/
def FitsAt (w : SelectingDesktop F) (e : Int × DesktopEvent F) : Prop := match e.2 with
  | .answered i conversation _ =>
      ∀ x ∈ (w.desktop.requests[i]?).bind (·.asked), conversation.conversationId = x
  | .created i _ | .resolved i => ∀ x ∈ w.chosen, ∀ y ∈ w.desktop.selecting e.2,
      y = x ∨ w.desktop.Awaits i x
  | .rejected i => ∀ x ∈ w.chosen, ∀ r ∈ w.desktop.requests[i]?, r.target = some x →
      r.survivesFailure ∨ w.desktop.store.selectedConversationId = some x ∨ w.desktop.Awaits i x
  | _ => True

instance (w : SelectingDesktop F) : ∀ e : Int × DesktopEvent F, Decidable (w.FitsAt e)
  | (_, .answered _ _ _) => Option.decidableForallMem _
  | (_, .created _ _) => Option.decidableForallMem _
  | (_, .resolved _) => Option.decidableForallMem _
  | (_, .rejected _) => Option.decidableForallMem _
  | (_, .runtime _) => .isTrue trivial
  | (_, .select _) => .isTrue trivial
  | (_, .send _) => .isTrue trivial

def Inv (w : SelectingDesktop F) : Prop := ∀ x ∈ w.chosen,
  w.desktop.store.selectedConversationId = some x ∨ ∃ r ∈ w.desktop.requests, r.target = some x

end SelectingDesktop

namespace Desktop

variable {d : Desktop F} {i : Nat} {x : String}

theorem exists_target_set {r r' : Request F} (hr : d.requests[i]? = some r)
    (htarget : r.target = some x → r'.target = some x)
    (h : ∃ q ∈ d.requests, q.target = some x) : ∃ q ∈ d.requests.set i r', q.target = some x := by
  obtain ⟨q, hq, hx⟩ := h
  obtain ⟨j, hj⟩ := List.mem_iff_getElem?.mp hq
  by_cases hij : i = j
  · subst hij
    obtain rfl := Option.some.inj (hr.symm.trans hj)
    have hlt := (List.getElem?_eq_some_iff.mp hr).1
    exact ⟨r', List.mem_of_getElem? (List.getElem?_set_self hlt), htarget hx⟩
  · exact ⟨q, List.mem_of_getElem? ((List.getElem?_set_ne hij).trans hj), hx⟩

theorem Awaits.exists_set (h : d.Awaits i x) (r : Request F) :
    ∃ q ∈ d.requests.set i r, q.target = some x := by
  obtain ⟨q, hq, hx⟩ := h
  obtain ⟨j, hij, hj⟩ := List.mem_eraseIdx_iff_getElem?.mp hq
  exact ⟨q, List.mem_of_getElem? ((List.getElem?_set_ne hij.symm).trans hj), hx⟩

theorem awaits_of_ne {r : Request F} (hr : d.requests[i]? = some r) (hne : r.target ≠ some x)
    (h : ∃ q ∈ d.requests, q.target = some x) : d.Awaits i x := by
  obtain ⟨q, hq, hx⟩ := h
  refine ⟨q, (Slices.mem_eraseIdx_or hq i).resolve_right ?_, hx⟩
  intro hi
  obtain rfl := Option.some.inj (hr.symm.trans hi)
  exact hne hx

theorem frame_send (host : DesktopHost F) (now : Int) (d : Desktop F) (text : String) :
    (d.send host now text).store.selectedConversationId = d.store.selectedConversationId ∧
      ∀ r ∈ d.requests, r ∈ (d.send host now text).requests := by
  rw [send]
  dsimp only
  split_ifs
  · exact ⟨rfl, fun r hr => hr⟩
  · split
    · exact ⟨rfl, fun r hr => List.mem_append_left _ hr⟩
    · exact ⟨rfl, fun r hr => List.mem_append_left _ hr⟩

end Desktop

namespace SelectingDesktop

variable {host : DesktopHost F} {w : SelectingDesktop F}

theorem Inv.resolved (h : w.Inv) {now : Int} {i : Nat} (hfits : w.FitsAt (now, .resolved i)) :
    (w.step host (now, .resolved i)).Inv := by
  simp only [Inv, step, Desktop.step]
  intro x hx
  have hfits := hfits x hx
  have hold := h x hx
  rw [Desktop.resolve]
  cases hr : w.desktop.requests[i]? with
  | none => exact hold
  | some r =>
      have hset : ∀ {r' : Request F}, r'.target = r.target →
          w.desktop.store.selectedConversationId = some x ∨
            ∃ q ∈ w.desktop.requests.set i r', q.target = some x := by
        intro r' htarget
        exact hold.imp_right (Desktop.exists_target_set hr (htarget.trans ·))
      have hover : ∀ {opened : Snapshot F},
          w.desktop.selecting (.resolved i) = some opened.conversation.conversationId →
          some opened.conversation.conversationId = some x ∨
            ∃ q ∈ w.desktop.requests.eraseIdx i, q.target = some x :=
        fun hselects => (hfits _ hselects).imp_left (congrArg some)
      cases r with
      | opening conversation answer => cases answer with
        | none => exact hold
        | some opened => exact hset rfl
      | savingSelection conversation opened =>
          exact hover (by simp [Desktop.selecting, Desktop.overwriting, hr])
      | creating prompt => exact hold
      | savingCreated prompt conversation => exact hset rfl
      | sending conversation => exact hset rfl
      | reopening conversation answer => cases answer with
        | none => exact hold
        | some opened => exact hover (by simp [Desktop.selecting, Desktop.overwriting, hr])

theorem Inv.rejected (h : w.Inv) {now : Int} {i : Nat} (hfits : w.FitsAt (now, .rejected i)) :
    (w.step host (now, .rejected i)).Inv := by
  simp only [Inv, step, Desktop.step]
  intro x hx
  have hold := h x hx
  rw [Desktop.reject]
  cases hr : w.desktop.requests[i]? with
  | none =>
      have hlen := List.getElem?_eq_none_iff.mp hr
      dsimp only
      rwa [List.eraseIdx_of_length_le hlen]
  | some r =>
      have hfits := hfits x hx r hr
      have herase : r.survivesFailure = false → w.desktop.store.selectedConversationId = some x ∨
          w.desktop.Awaits i x := by
        intro hends
        by_cases htarget : r.target = some x
        · exact (hfits htarget).resolve_left (by simp [hends])
        · exact hold.imp_right (Desktop.awaits_of_ne hr htarget)
      cases r with
      | savingCreated prompt conversation =>
          dsimp only
          rw [Desktop.resolve, hr]
          exact hold.imp_right (Desktop.exists_target_set hr fun h => h)
      | _ => exact herase rfl

theorem Inv.answered (h : w.Inv) {now : Int} {i : Nat} {conversation : Conversation F}
    {messages : List (ConversationMessage F)}
    (hfits : w.FitsAt (now, .answered i conversation messages)) :
    (w.step host (now, .answered i conversation messages)).Inv := by
  simp only [Inv, step, Desktop.step]
  intro x hx
  have hold := h x hx
  rw [Desktop.answer]
  have hsame : ∀ (asked : Conversation F), (w.desktop.requests[i]?).bind Request.asked =
      some asked.conversationId → conversation.conversationId = asked.conversationId :=
    fun asked => hfits asked.conversationId
  split
  · rename_i asked hr
    have hsame := hsame asked (by simp [hr, Request.asked])
    exact hold.imp_right (Desktop.exists_target_set hr ((congrArg some hsame).trans ·))
  · rename_i asked hr
    have hsame := hsame asked (by simp [hr, Request.asked])
    exact hold.imp_right (Desktop.exists_target_set hr ((congrArg some hsame).trans ·))
  · exact hold

theorem Inv.step (h : w.Inv) {e : Int × DesktopEvent F} (hfits : w.FitsAt e) :
    (w.step host e).Inv := by
  obtain ⟨now, e⟩ := e
  cases e with
  | runtime frame => exact h
  | select conversationId =>
      simp only [Inv, SelectingDesktop.step, Desktop.step]
      intro x hx
      rw [Desktop.select]
      cases hc : w.desktop.store.conversations.lookup conversationId with
      | none =>
          rw [hc] at hx
          exact h x hx
      | some conversation =>
          rw [hc] at hx
          exact .inl hx
  | send text =>
      simp only [Inv, SelectingDesktop.step, Desktop.step]
      intro x hx
      obtain ⟨hselected, hrequests⟩ := w.desktop.frame_send host now text
      rw [hselected]
      refine (h x hx).imp_right fun hexists => ?_
      obtain ⟨r, hr, htarget⟩ := hexists
      exact ⟨r, hrequests r hr, htarget⟩
  | answered i conversation messages => exact h.answered hfits
  | created i conversation =>
      simp only [Inv, SelectingDesktop.step, Desktop.step]
      intro x hx
      rw [Desktop.create]
      split
      · rename_i prompt hr
        have hfits := hfits x hx conversation.conversationId (by simp [Desktop.selecting, hr])
        exact hfits.imp (congrArg some) (·.exists_set _)
      · exact h x hx
  | resolved i => exact h.resolved hfits
  | rejected i => exact h.rejected hfits

end SelectingDesktop

/-- Once no request is under way the open conversation is the one selected last,
in a run in which every response that selects another one, and every failure,
leaves a request for that one under way. -/
theorem selection_settles (host : DesktopHost F) (store : Store F)
    (events : List (Int × DesktopEvent F))
    (hfits : Along (SelectingDesktop.step host) SelectingDesktop.FitsAt ⟨.start store, none⟩ events) :
    let w := run (SelectingDesktop.step host) ⟨.start store, none⟩ events
    w.desktop.requests = [] → ∀ x ∈ w.chosen, w.desktop.store.selectedConversationId = some x := by
  intro w hsettled x hx
  have h : w.Inv :=
    run_invariant_along (fun w e hw hfits => hw.step hfits) (by simp [SelectingDesktop.Inv]) hfits
  refine (h x hx).resolve_right ?_
  rintro ⟨r, hr, -⟩
  rw [hsettled] at hr
  contradiction

def otherConversation : Conversation FloatText :=
  { namedConversation with conversationId := "other", title := "Smaller model" }

def twoConversations : Store FloatText :=
  { oneConversation with
    conversations := [("conversation", namedConversation), ("other", otherConversation)] }

def selectBoth : List (Int × DesktopEvent FloatText) :=
  [(1, .select "conversation"), (2, .select "other"), (3, .answered 0 namedConversation []),
    (4, .answered 1 otherConversation [])]

theorem selection_overwritten :
    ¬ ∀ (host : DesktopHost FloatText) (store : Store FloatText)
      (events : List (Int × DesktopEvent FloatText)),
      let w := run (SelectingDesktop.step host) ⟨.start store, none⟩ events
      w.desktop.requests = [] →
        ∀ x ∈ w.chosen, w.desktop.store.selectedConversationId = some x := by
  intro h
  have hselected := h literalDesktop twoConversations
    (selectBoth ++ [(5, .resolved 1), (6, .resolved 1), (7, .resolved 0), (8, .resolved 0)])
    (List.length_eq_zero_iff.mp (by decide)) "other" (by decide)
  revert hselected
  decide

theorem selection_settles_inOrder :
    (run (SelectingDesktop.step literalDesktop) ⟨.start twoConversations, none⟩
      (selectBoth ++ [(5, .resolved 0), (6, .resolved 0), (7, .resolved 0),
        (8, .resolved 0)])).desktop.store.selectedConversationId = some "other" := by
  have h := selection_settles literalDesktop twoConversations
    (selectBoth ++ [(5, .resolved 0), (6, .resolved 0), (7, .resolved 0), (8, .resolved 0)])
    (by decide)
  exact h (List.length_eq_zero_iff.mp (by decide)) "other" (by decide)

end DevPilot
