import DevPilot.Core.CompactionPairing

/-!
Where the messages of a compacted history come from, and when compaction keeps the messages
of the history in their order and none of them twice.
-/

namespace DevPilot

open PyJson Slices

variable {F : Type}

inductive Origin
  | summary
  | reply
  | original (i : ℕ)
deriving DecidableEq, Repr

def Origin.index? : Origin → Option ℕ
  | .original i => some i
  | _ => none

def originals (n : ℕ) : List Origin := (List.range n).map .original

/-- The origins of what `_summarize_old_messages` returns of `n` messages. -/
def summarizedOrigins (keepRecent : Int) (failed : Bool) (n : ℕ) : List Origin :=
  if (n : Int) ≤ keepRecent then originals n
  else if failed then (originals n).drop (n / 2)
  else .summary :: .reply :: startingAt (originals n) (-keepRecent)

def truncatedOrigins (keepRecent : Int) (failed : Bool) (n : ℕ) : List Origin :=
  upTo (summarizedOrigins keepRecent failed n) 2 ++
    startingAt (summarizedOrigins keepRecent failed n) (-(keepRecent / 2))

def fitsAfterSummary (cm : ContextManager F) (summarise : String → Option String)
    (fits : List (Json F) → Bool) (messages : List (Json F)) : Bool :=
  (summarizeOldMessages cm summarise messages).all fun c => fits c.messages

/-- The origins of what `maybe_compact` returns. -/
def compactedOrigins (cm : ContextManager F) (summarise : String → Option String)
    (messages : List (Json F)) (systemPrompt : String) : List Origin :=
  let fits := fun messages => decide (cm.currentTokens systemPrompt messages < cm.threshold)
  let shortened := shortenResults cm fits messages
  if fits shortened then originals messages.length
  else if fitsAfterSummary cm summarise fits shortened then
    summarizedOrigins cm.keepRecent (summaryFails cm summarise shortened) messages.length
  else truncatedOrigins cm.keepRecent (summaryFails cm summarise shortened) messages.length

def summaryText (cm : ContextManager F) (summarise : String → Option String)
    (messages : List (Json F)) :
    String :=
  ((formatMessagesForSummary cm (upTo messages (-cm.keepRecent))).bind
    (summarise <| fitTranscript cm ·)).getD ""

/-- The message of an origin, in a history whose results are shortened already. -/
def Origin.message (cm : ContextManager F) (summary : String) (messages : List (Json F)) : Origin →
    Json F
  | .summary => summaryMessage cm summary
  | .reply => summaryReply
  | .original i => messages.getD i .null

/-- No message of the history stands twice, they stand in their order, and there are no more
messages than those of the history and of a summary. -/
def KeepsOrder (n : ℕ) (origins : List Origin) : Prop :=
  (origins.filterMap Origin.index?).Pairwise (· < ·) ∧ origins.length ≤ n + 2

/-- The two slices of the emergency truncation do not overlap, or only in the summary and so
that it adds no more than two messages. -/
def TruncatesInOrder (keepRecent : Int) (failed : Bool) (n : ℕ) : Prop :=
  let kept := (summarizedOrigins keepRecent failed n).length
  let start := bound kept (-(keepRecent / 2))
  if (n : Int) ≤ keepRecent ∨ failed = true then min 2 kept ≤ start else kept ≤ n + start

instance (keepRecent : Int) (failed : Bool) (n : ℕ) :
    Decidable (TruncatesInOrder keepRecent failed n) :=
  inferInstanceAs (Decidable (ite _ _ _))

theorem pairwise_take_drop_iff {xs : List ℕ} (hxs : xs.Pairwise (· < ·)) {a d : ℕ}
    (ha : a ≤ xs.length) :
    (xs.take a ++ xs.drop d).Pairwise (· < ·) ↔ a ≤ d := by
  constructor
  · intro h
    by_contra hd
    have hlt : d < xs.length := by omega
    have hfirst : xs[d] ∈ xs.take a := List.mem_take_iff_getElem.mpr ⟨d, by omega, rfl⟩
    have hlast : xs[d] ∈ xs.drop d := List.mem_drop_iff_getElem.mpr ⟨0, by omega, by simp⟩
    exact lt_irrefl _ ((List.pairwise_append.mp h).2.2 _ hfirst _ hlast)
  · intro h
    have hsub : List.Sublist (xs.take a ++ xs.drop d) (xs.take a ++ xs.drop a) :=
      (List.drop_sublist_drop_left xs h).append_left _
    rw [List.take_append_drop] at hsub
    exact hxs.sublist hsub

theorem bound_two (n : ℕ) : bound n 2 = min 2 n := rfl

theorem bound_le (n : ℕ) (i : Int) : bound n i ≤ n := by
  rw [bound]
  split_ifs <;> omega

theorem keepsOrder_drop (n k : ℕ) : KeepsOrder n ((originals n).drop k) := by
  constructor
  · have hmap : ((originals n).drop k).filterMap Origin.index? = (List.range n).drop k := by
      rw [originals, ← List.map_drop, List.filterMap_map]
      exact List.filterMap_some
    rw [hmap]
    exact List.pairwise_lt_range.drop
  · simp only [originals, List.length_drop, List.length_map, List.length_range]
    omega

theorem keepsOrder_originals (n : ℕ) : KeepsOrder n (originals n) := keepsOrder_drop n 0

theorem keepsOrder_summarizedOrigins (keepRecent : Int) (failed : Bool) (n : ℕ) :
    KeepsOrder n (summarizedOrigins keepRecent failed n) := by
  rw [summarizedOrigins]
  split_ifs
  · exact keepsOrder_originals n
  · exact keepsOrder_drop n _
  · obtain ⟨horder, hlength⟩ := keepsOrder_drop n (bound (originals n).length (-keepRecent))
    refine ⟨horder, ?_⟩
    simp only [List.length_cons, startingAt, originals, List.length_drop, List.length_map,
      List.length_range] at hlength ⊢
    omega

theorem keepsOrder_slices_iff {n k : ℕ} (i : Int) :
    KeepsOrder n (upTo ((originals n).drop k) 2 ++ startingAt ((originals n).drop k) i) ↔
      min 2 ((originals n).drop k).length ≤ bound ((originals n).drop k).length i := by
  have hindices : ((originals n).drop k) = ((List.range n).drop k).map .original := by
    rw [originals, List.map_drop]
  have hmap : ∀ xs : List ℕ, (xs.map Origin.original).filterMap Origin.index? = xs := fun xs => by
    rw [List.filterMap_map]
    exact List.filterMap_some
  have horder : ((List.range n).drop k).Pairwise (· < ·) := List.pairwise_lt_range.drop
  rw [KeepsOrder, upTo, startingAt, bound_two, hindices, ← List.map_take, ← List.map_drop,
    ← List.map_append, hmap,
    List.length_map, List.length_map, pairwise_take_drop_iff horder (Nat.min_le_right _ _),
      and_iff_left_iff_imp]
  intro h
  simp only [List.length_append, List.length_take, List.length_drop, List.length_range] at h ⊢
  omega

theorem keepsOrder_truncatedOrigins_iff (keepRecent : Int) (failed : Bool) (n : ℕ) :
    KeepsOrder n (truncatedOrigins keepRecent failed n) ↔ TruncatesInOrder keepRecent failed n := by
  rw [truncatedOrigins, TruncatesInOrder, summarizedOrigins]
  by_cases hlen : (n : Int) ≤ keepRecent
  · rw [if_pos hlen, if_pos (.inl hlen)]
    exact keepsOrder_slices_iff (k := 0) _
  rw [if_neg hlen]
  cases failed with
  | true =>
      rw [if_pos rfl, if_pos (.inr rfl)]
      exact keepsOrder_slices_iff _
  | false =>
      rw [if_neg Bool.false_ne_true, if_neg (by simp [hlen])]
      have hrecent := (keepsOrder_drop n (bound (originals n).length (-keepRecent))).1
      have hindices : (Origin.summary :: .reply :: startingAt (originals n) (-keepRecent)).filterMap
        Origin.index? =
          (startingAt (originals n) (-keepRecent)).filterMap Origin.index? := rfl
      have hhead : (upTo (.summary :: .reply :: startingAt (originals n) (-keepRecent)) 2).filterMap
          Origin.index? = [] := by
        rw [upTo, List.length_cons, List.length_cons, bound_two,
          Nat.min_eq_left (Nat.le_add_left 2 _)]
        rfl
      have htwo : 2 ≤ (Origin.summary :: .reply :: startingAt (originals n) (-keepRecent)).length :=
        Nat.le_add_left 2 _
      rw [← startingAt, ← hindices] at hrecent
      generalize Origin.summary :: .reply :: startingAt (originals n) (-keepRecent) = kept at *
      have hbound := bound_le kept.length (-(keepRecent / 2))
      rw [KeepsOrder, and_iff_right]
      · simp only [List.length_append, upTo, startingAt, List.length_take, List.length_drop,
          bound_two]
        omega
      · rw [List.filterMap_append, hhead, List.nil_append]
        exact hrecent.sublist ((List.drop_sublist _ _).filterMap _)

theorem length_shortenResults (cm : ContextManager F) (fits : List (Json F) → Bool)
    (messages : List (Json F)) :
    (shortenResults cm fits messages).length = messages.length := by
  have hturns := congrArg List.length (turns_shortenResults false cm fits messages)
  simpa only [List.length_map] using hturns

theorem map_originals (cm : ContextManager F) (summary : String) (messages : List (Json F)) :
    (originals messages.length).map (Origin.message cm summary messages) = messages := by
  rw [originals, List.map_map]
  refine List.ext_getElem (by simp) fun i h₁ h₂ => ?_
  simp [Origin.message, List.getElem?_eq_getElem h₂]

theorem map_summarizedOrigins {cm : ContextManager F} {summarise : String → Option String}
    {messages : List (Json F)}
    {c : Compacted F} (h : summarizeOldMessages cm summarise messages = some c) :
    (summarizedOrigins cm.keepRecent (summaryFails cm summarise messages) messages.length).map
      (Origin.message cm (summaryText cm summarise messages) messages) = c.messages := by
  have hall := map_originals cm (summaryText cm summarise messages) messages
  rw [summarizeOldMessages] at h
  rw [summarizedOrigins]
  split_ifs at h ⊢ with hlen hfail
  · exact Option.some.inj h ▸ hall
  · obtain ⟨transcript, ht, rfl⟩ := Option.map_eq_some_iff.mp h
    simp only [summaryFails, ht, Option.bind_some, Option.isNone_iff_eq_none] at hfail
    simp only [hfail, List.map_drop, hall]
  · obtain ⟨transcript, ht, rfl⟩ := Option.map_eq_some_iff.mp h
    simp only [summaryFails, ht, Option.bind_some, Option.isNone_iff_eq_none] at hfail
    obtain ⟨summary, hs⟩ := Option.ne_none_iff_exists'.mp hfail
    have htext : summaryText cm summarise messages = summary := by
      rw [summaryText, ht, Option.bind_some, hs]
      rfl
    rw [htext] at hall ⊢
    simp only [hs, List.map_cons, map_startingAt, hall, Origin.message]

def oneNote : List (Json FloatText) := [userText "a note"]

end DevPilot
