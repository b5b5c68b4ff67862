import DevPilot.Core.Context
import DevPilot.Lib.DottedIds

/-!
What the first three layers of compaction make of the results in a history: which contents
they change, whether a content gets longer, and what a second pass does.
-/

namespace DevPilot

open PyJson Slices

variable {F : Type}

/-- `len(content)` of a block, 0 where it has none. -/
def contentLength (block : Json F) : ℕ :=
  match block.get? "content" with
  | some (.str text) => text.length
  | some (.arr items) => items.length
  | some (.obj members) => members.length
  | _ => 0

/-- At most the content of a `tool_result` block changes. -/
def ChangesContent (block block' : Json F) : Prop :=
  block' = block ∨
    block.getStr? "type" = some "tool_result" ∧ ∃ content, block' = block.set "content" content

def ShrinksBlock (block block' : Json F) : Prop :=
  ChangesContent block block' ∧ contentLength block' ≤ contentLength block

/-- At most the blocks of a message change, each of them as `r` says. -/
def ChangesBlocks (r : Json F → Json F → Prop) (msg msg' : Json F) : Prop :=
  match blocks? msg with
  | some bs => ∃ bs', msg' = msg.set "content" (.arr bs') ∧ List.Forall₂ r bs bs'
  | none => msg' = msg

/-- A pass over a history that shrinks contents of results, and does nothing when repeated. -/
structure IsShrinker (layer : List (Json F) → List (Json F)) (messages : List (Json F)) : Prop where
  shrinks : List.Forall₂ (ChangesBlocks ShrinksBlock) messages (layer messages)
  idempotent : layer (layer messages) = layer messages

theorem set_eq_self {j v : Json F} {k : String} (h : j.get? k = some v) : j.set k v = j := by
  cases j with
  | obj members =>
      rw [Json.get?_obj] at h
      rw [Json.set]
      congr 1
      induction members with
      | nil => cases h
      | cons p members ih =>
          rw [Members.lookup_cons] at h
          rw [Members.insert]
          by_cases hp : p.1 = k
          · subst hp
            rw [if_pos rfl] at h ⊢
            rw [← Option.some.inj h]
          · rw [if_neg (Ne.symm hp)] at h
            rw [if_neg hp, ih h]
  | _ => rfl

theorem mapBlocks_eq_iff (f g : Json F → Json F) (msg : Json F) :
    mapBlocks f msg = mapBlocks g msg ↔ ∀ b ∈ blocks msg, f b = g b := by
  rw [mapBlocks, mapBlocks, blocks]
  cases hbs : blocks? msg with
  | none => simp
  | some bs =>
      dsimp only [Option.getD_some]
      constructor
      · intro h
        have hcontent := congrArg (·.get? "content") h
        simp only [get?_set_content hbs, Option.some.injEq, Json.arr.injEq] at hcontent
        exact List.map_inj_left.mp hcontent
      · intro h
        rw [List.map_inj_left.mpr h]

theorem blocks?_mapBlocks (f : Json F → Json F) (msg : Json F) :
    blocks? (mapBlocks f msg) = (blocks? msg).map (List.map f) := by
  rw [mapBlocks]
  cases hbs : blocks? msg with
  | none => exact hbs
  | some bs =>
      dsimp only
      rw [blocks?, get?_set_content hbs]
      rfl

theorem mapBlocks_mapBlocks (f g : Json F → Json F) (msg : Json F) :
    mapBlocks f (mapBlocks g msg) = mapBlocks (f ∘ g) msg := by
  rw [mapBlocks, blocks?_mapBlocks, mapBlocks, mapBlocks]
  cases blocks? msg with
  | none => rfl
  | some bs =>
      dsimp only [Option.map_some]
      rw [Json.set_set, List.map_map]

theorem mapBlocks_id (msg : Json F) : mapBlocks id msg = msg := by
  rw [mapBlocks]
  cases hbs : blocks? msg with
  | none => rfl
  | some bs =>
      dsimp only
      rw [List.map_id]
      exact set_eq_self (get?_content_of_blocks? hbs)

theorem changesBlocks_mapBlocks_iff {r : Json F → Json F → Prop} {f : Json F → Json F}
    (msg : Json F) :
    ChangesBlocks r msg (mapBlocks f msg) ↔ ∀ b ∈ blocks msg, r b (f b) := by
  rw [ChangesBlocks, mapBlocks, blocks]
  cases hbs : blocks? msg with
  | none => simp
  | some bs =>
      dsimp only [Option.getD_some]
      constructor
      · rintro ⟨bs', heq, hall⟩
        have hcontent := congrArg (·.get? "content") heq
        simp only [get?_set_content hbs, Option.some.injEq, Json.arr.injEq] at hcontent
        rw [← hcontent, List.forall₂_map_right_iff, List.forall₂_same] at hall
        exact hall
      · intro h
        refine ⟨bs.map f, rfl, ?_⟩
        rw [List.forall₂_map_right_iff, List.forall₂_same]
        exact h

theorem changesBlocks_refl {r : Json F → Json F → Prop} (hr : ∀ b, r b b) (msg : Json F) :
    ChangesBlocks r msg msg := by
  have h := (changesBlocks_mapBlocks_iff (r := r) (f := id) msg).mpr fun b _ => hr b
  rwa [mapBlocks_id] at h

theorem changesBlocks_map_iff {r : Json F → Json F → Prop} {f : Json F → Json F}
    (messages : List (Json F)) :
    List.Forall₂ (ChangesBlocks r) messages (messages.map (mapBlocks f)) ↔
      ∀ b ∈ messages.flatMap blocks, r b (f b) := by
  rw [List.forall₂_map_right_iff, List.forall₂_same]
  simp only [changesBlocks_mapBlocks_iff, List.mem_flatMap]
  exact ⟨fun h b ⟨msg, hmsg, hb⟩ => h msg hmsg b hb, fun h msg hmsg b hb => h b ⟨msg, hmsg, hb⟩⟩

theorem isShrinker_mapBlocks_iff {f : Json F → Json F} (messages : List (Json F)) :
    IsShrinker (List.map (mapBlocks f)) messages ↔
      ∀ b ∈ messages.flatMap blocks, ShrinksBlock b (f b) ∧ f (f b) = f b := by
  have hshrinks := changesBlocks_map_iff (r := ShrinksBlock) (f := f) messages
  have hidempotent : (messages.map (mapBlocks f)).map (mapBlocks f) = messages.map (mapBlocks f) ↔
      ∀ b ∈ messages.flatMap blocks, f (f b) = f b := by
    rw [List.map_map, List.map_inj_left]
    simp only [Function.comp_apply, mapBlocks_mapBlocks, mapBlocks_eq_iff, List.mem_flatMap]
    exact ⟨fun h b ⟨msg, hmsg, hb⟩ => h msg hmsg b hb, fun h msg hmsg b hb => h b ⟨msg, hmsg, hb⟩⟩
  constructor
  · rintro ⟨h, h'⟩ b hb
    exact ⟨hshrinks.mp h b hb, hidempotent.mp h' b hb⟩
  · intro h
    exact ⟨hshrinks.mpr fun b hb => (h b hb).1, hidempotent.mpr fun b hb => (h b hb).2⟩

/-- The text of a `tool_result` block. -/
def resultText? (block : Json F) : Option String :=
  if block.getStr? "type" = some "tool_result" then block.getStr? "content" else none

theorem get?_of_getStr? {block : Json F} {k text : String} (h : block.getStr? k = some text) :
    block.get? k = some (.str text) := by
  obtain ⟨v, hv, hstr⟩ := Option.bind_eq_some_iff.mp h
  cases v with
  | str s =>
      obtain rfl : s = text := Option.some.inj hstr
      exact hv
  | _ => cases hstr

theorem rewriteResult_of_text {f : String → Option String} {block : Json F} {text : String}
    (h : resultText? block = some text) :
    rewriteResult f block = block.set "content" (.str ((f text).getD text)) ∧
      resultText? (rewriteResult f block) = some ((f text).getD text) := by
  rw [resultText?] at h
  split_ifs at h with htype
  have hget := get?_of_getStr? h
  have hrewrite : rewriteResult f block = block.set "content" (.str ((f text).getD text)) := by
    rw [rewriteResult, if_pos htype, h]
    dsimp only [Option.bind_some]
    cases hf : f text with
    | none => exact (set_eq_self hget).symm
    | some t => rfl
  refine ⟨hrewrite, ?_⟩
  rw [hrewrite, resultText?, Json.getStr?_set_ne (by decide), if_pos htype, Json.getStr?,
    Json.get?_set_eq hget]
  rfl

theorem rewriteResult_of_no_text {f : String → Option String} {block : Json F}
    (h : resultText? block = none) :
    rewriteResult f block = block := by
  rw [resultText?] at h
  rw [rewriteResult]
  split_ifs at h ⊢
  · rw [h]
    rfl
  · rfl

theorem contentLength_of_text {block : Json F} {text : String} (h : resultText? block = some text) :
    contentLength block = text.length := by
  rw [resultText?] at h
  split_ifs at h
  rw [contentLength, get?_of_getStr? h]

theorem shrinks_rewriteResult_iff (f : String → Option String) (block : Json F) :
    (ShrinksBlock block (rewriteResult f block) ∧
      rewriteResult f (rewriteResult f block) = rewriteResult f block) ↔
    ∀ text ∈ resultText? block, ((f text).getD text).length ≤ text.length ∧
      (f ((f text).getD text)).getD ((f text).getD text) = (f text).getD text := by
  cases htext : resultText? block with
  | none =>
      rw [rewriteResult_of_no_text htext, rewriteResult_of_no_text htext]
      exact iff_of_true ⟨⟨.inl rfl, le_rfl⟩, rfl⟩ (by simp)
  | some text =>
      obtain ⟨hrewrite, htext'⟩ := rewriteResult_of_text (f := f) htext
      have htype : block.getStr? "type" = some "tool_result" := by
        rw [resultText?] at htext
        split_ifs at htext with htype
        exact htype
      obtain ⟨hrewrite', htext''⟩ := rewriteResult_of_text (f := f) htext'
      have hrepeat : rewriteResult f (rewriteResult f block) = rewriteResult f block ↔
          (f ((f text).getD text)).getD ((f text).getD text) = (f text).getD text := by
        constructor
        · intro h
          rw [h, htext'] at htext''
          exact (Option.some.inj htext'').symm
        · intro h
          rw [hrewrite', h, hrewrite, Json.set_set]
      rw [hrepeat, ShrinksBlock, contentLength_of_text htext, contentLength_of_text htext']
      simp only [Option.mem_def, Option.some.injEq, forall_eq']
      exact and_congr_left' (and_iff_right (.inr ⟨htype, _, hrewrite⟩))

theorem length_repr_eq_iff (n : ℕ) : 28 + n.repr.length = n ↔ n = 30 := by
  constructor
  · intro h
    have hpos := Nat.length_repr_pos (n := n)
    by_contra hne
    have hlt : n < 10 ^ (n - 28) := (Nat.length_repr_le_iff (by omega)).mp (by omega)
    rcases Nat.lt_or_ge n 31 with hn | hn
    · obtain rfl : n = 29 := by omega
      exact absurd hlt (by decide)
    · have hge : ¬n < 10 ^ (n - 29) := fun hlt' =>
        absurd ((Nat.length_repr_le_iff (by omega)).mpr hlt') (by omega)
      obtain ⟨k, rfl⟩ : ∃ k, n = k + 31 := ⟨n - 31, by omega⟩
      have hk : k < 10 ^ k := Nat.lt_pow_self (by decide)
      have hpow : 10 ^ (k + 31 - 29) = 100 * 10 ^ k := by
        rw [show k + 31 - 29 = 2 + k by omega, pow_add]
        rfl
      omega
  · rintro rfl
    rfl

def truncationMark (dropped : ℕ) : String :=
  "\n\n...[truncated " ++ (dropped.repr ++ " chars]...\n\n")

theorem length_truncationMark (dropped : ℕ) : (truncationMark dropped).length =
    28 + dropped.repr.length := by
  have hbefore : "\n\n...[truncated ".length = 16 := rfl
  have hbehind : " chars]...\n\n".length = 12 := rfl
  unfold truncationMark
  rw [String.length_append, String.length_append, hbefore, hbehind]
  omega

theorem truncationMark_inj {m n : ℕ} : truncationMark m = truncationMark n ↔ m = n := by
  constructor
  · intro h
    unfold truncationMark at h
    have hlist := congrArg String.toList h
    simp only [String.toList_append] at hlist
    have hdigits := String.toList_inj.mp (List.append_cancel_right (List.append_cancel_left hlist))
    rw [Nat.repr_eq_ofList_toDigits, Nat.repr_eq_ofList_toDigits, String.ofList_inj] at hdigits
    exact DottedIds.toDigits_injective hdigits
  · rintro rfl
    rfl

theorem toList_truncateText_of_lt {n : ℕ} {text : String} (hn : 0 < n / 3) (h : n < text.length) :
    (truncateText n text).toList = text.toList.take (n * 2 / 3) ++
      ((truncationMark (text.length - n * 2 / 3 - n / 3)).toList ++ text.toList.drop
        (text.length - n / 3)) := by
  have hhead : bound text.toList.length (n * 2 / 3 : ℕ) = n * 2 / 3 := by
    rw [bound, String.length_toList, if_neg (by omega)]
    omega
  have htail : bound text.toList.length (-(n / 3 : ℕ)) = text.length - n / 3 := by
    rw [bound, String.length_toList, if_pos (by omega)]
    omega
  have htext : truncateText n text = textUpTo text (n * 2 / 3 : ℕ) ++
      truncationMark (text.length - n * 2 / 3 - n / 3) ++ textStartingAt text (-(n / 3 : ℕ)) := by
    unfold truncateText truncationMark
    simp only [Nat.toString_eq_repr, String.append_assoc]
  rw [htext, String.toList_append, String.toList_append, textUpTo, textStartingAt,
    String.toList_ofList, String.toList_ofList, upTo, startingAt, hhead, htail, List.append_assoc]

theorem toList_truncateText {text : String} (h : maxCharsPerResult < text.length) :
    ∃ head tail, head.length = 10000 ∧ tail.length = 5000 ∧
      text.toList.take 10000 = head ∧ text.toList.drop (text.length - 5000) = tail ∧
      (truncateText maxCharsPerResult text).toList =
        head ++ ((truncationMark (text.length - 15000)).toList ++ tail) := by
  have hlist := toList_truncateText_of_lt (by decide) h
  rw [maxCharsPerResult] at h
  have hcount : text.length - maxCharsPerResult * 2 / 3 - maxCharsPerResult / 3 =
    text.length - 15000 := by
    rw [maxCharsPerResult]
    omega
  rw [hcount] at hlist
  refine ⟨_, _, ?_, ?_, rfl, rfl, hlist⟩
  · rw [List.length_take, String.length_toList]
    omega
  · rw [List.length_drop, String.length_toList]
    omega

theorem length_truncateText {text : String} (h : maxCharsPerResult < text.length) :
    (truncateText maxCharsPerResult text).length = 15028 + (text.length - 15000).repr.length := by
  obtain ⟨head, tail, hhead, htail, -, -, hlist⟩ := toList_truncateText h
  rw [← String.length_toList, hlist, List.length_append, List.length_append,
    String.length_toList, length_truncationMark, hhead, htail]
  omega

theorem truncateText_truncateText_eq_iff {text : String} (h : maxCharsPerResult < text.length) :
    truncateText maxCharsPerResult (truncateText maxCharsPerResult text) =
      truncateText maxCharsPerResult text ↔
      (truncateText maxCharsPerResult text).length = text.length := by
  have hlength := length_truncateText h
  have hlong : maxCharsPerResult < (truncateText maxCharsPerResult text).length := by
    rw [hlength, maxCharsPerResult]
    omega
  obtain ⟨head, tail, hhead, htail, -, -, hlist⟩ := toList_truncateText h
  obtain ⟨head', tail', -, -, hhead', htail', hlist'⟩ := toList_truncateText hlong
  have hheads : head' = head := by
    rw [← hhead', hlist, List.take_left' hhead]
  have htails : tail' = tail := by
    rw [← htail', ← String.length_toList, hlist, ← List.append_assoc, List.drop_left']
    rw [@List.length_append _ _ tail, htail]
    omega
  rw [← String.toList_inj, hlist', hlist, hheads, htails, List.append_right_inj,
    List.append_left_inj,
    String.toList_inj, truncationMark_inj]
  rw [maxCharsPerResult] at h hlong
  omega

theorem truncateText_settles_iff {text : String} (h : maxCharsPerResult < text.length) :
    (truncateText maxCharsPerResult text).length ≤ text.length ∧
      truncateText maxCharsPerResult (truncateText maxCharsPerResult text) =
        truncateText maxCharsPerResult text ↔
    text.length = 15030 := by
  have hlength := length_truncateText h
  have hcount := length_repr_eq_iff (text.length - 15000)
  rw [truncateText_truncateText_eq_iff h]
  rw [maxCharsPerResult] at h
  constructor
  · rintro ⟨-, heq⟩
    have := hcount.mp (by omega)
    omega
  · intro heq
    have := hcount.mpr (by omega)
    omega

theorem isShrinker_truncateLongToolResults_iff (messages : List (Json F)) :
    IsShrinker (truncateLongToolResults maxCharsPerResult) messages ↔
      ∀ block ∈ messages.flatMap blocks, ∀ text ∈ resultText? block,
        text.length ≤ maxCharsPerResult ∨ text.length = 15030 := by
  refine (isShrinker_mapBlocks_iff messages).trans (forall₂_congr fun block _ => ?_)
  rw [shrinks_rewriteResult_iff]
  refine forall₂_congr fun text _ => ?_
  by_cases h : text.length > maxCharsPerResult
  · have hlong : (truncateText maxCharsPerResult text).length > maxCharsPerResult := by
      rw [length_truncateText h, maxCharsPerResult]
      omega
    simp only [if_pos h, Option.getD_some, if_pos hlong]
    rw [truncateText_settles_iff h, or_iff_right (by omega)]
  · simp only [if_neg h, Option.getD_none]
    exact iff_of_true ⟨le_rfl, trivial⟩ (.inl (by omega))

theorem isShrinker_snipOldToolResults (keepRecentN : Int) (messages : List (Json F)) :
    IsShrinker (snipOldToolResults keepRecentN) messages := by
  set f : Json F → Json F := rewriteResult fun text =>
    if text.length > 500 then some (textUpTo text 200 ++ "\n...[snipped — old tool result]") else
      none with hf
  have hblock : ∀ b : Json F, ShrinksBlock b (f b) ∧ f (f b) = f b := by
    intro b
    rw [hf, shrinks_rewriteResult_iff]
    intro text _
    by_cases h : text.length > 500
    · have hshort : (textUpTo text 200 ++ "\n...[snipped — old tool result]").length ≤ 231 := by
        have hnote : "\n...[snipped — old tool result]".length = 31 := rfl
        rw [String.length_append, hnote, textUpTo, String.length_ofList, upTo, List.length_take]
        simp [bound]
      have hdone : ¬(textUpTo text 200 ++ "\n...[snipped — old tool result]").length >
        500 := by omega
      simp only [if_pos h, Option.getD_some, if_neg hdone, Option.getD_none]
      exact ⟨by omega, trivial⟩
    · simp only [if_neg h, Option.getD_none]
      exact ⟨le_rfl, trivial⟩
  have hlayer : ∀ messages : List (Json F), snipOldToolResults keepRecentN messages =
      messages.mapIdx fun i msg => if i ≥ boundary keepRecentN messages then msg else mapBlocks
        f msg :=
    fun _ => rfl
  constructor
  · rw [hlayer, List.forall₂_iff_get]
    refine ⟨by simp, fun i h₁ h₂ => ?_⟩
    simp only [List.get_eq_getElem, List.getElem_mapIdx]
    split_ifs
    · exact changesBlocks_refl (fun b => ⟨.inl rfl, le_rfl⟩) _
    · exact (changesBlocks_mapBlocks_iff _).mpr fun b _ => (hblock b).1
  · have hboundary : boundary keepRecentN (snipOldToolResults keepRecentN messages) =
      boundary keepRecentN messages := by
      rw [boundary, boundary, snipOldToolResults, List.length_mapIdx]
    rw [hlayer (snipOldToolResults keepRecentN messages), hboundary, hlayer, List.mapIdx_mapIdx]
    refine List.ext_getElem (by simp) fun i h₁ h₂ => ?_
    simp only [List.getElem_mapIdx, Function.comp_apply]
    split_ifs
    · rfl
    · rw [mapBlocks_mapBlocks, mapBlocks_eq_iff]
      exact fun b _ => (hblock b).2

/-- Every number `i` as often as the `i`-th count says. -/
def places (counts : List ℕ) : List ℕ := (counts.mapIdx fun i n => List.replicate n i).flatten

theorem places_append_singleton (counts : List ℕ) (n : ℕ) :
    places (counts ++ [n]) = places counts ++ List.replicate n counts.length := by
  rw [places, List.mapIdx_concat, List.flatten_append, List.flatten_singleton, places]

theorem mem_places_iff (counts : List ℕ) (i : ℕ) :
    i ∈ places counts ↔ ∃ n, counts[i]? = some n ∧ 0 < n := by
  simp only [places, List.mem_flatten, List.mem_mapIdx, List.getElem?_eq_some_iff]
  constructor
  · rintro ⟨_, ⟨j, hj, rfl⟩, hi⟩
    obtain ⟨hn, rfl⟩ := List.mem_replicate.mp hi
    exact ⟨_, ⟨hj, rfl⟩, Nat.pos_of_ne_zero hn⟩
  · rintro ⟨n, ⟨hi, rfl⟩, hn⟩
    exact ⟨_, ⟨i, hi, rfl⟩, List.mem_replicate.mpr ⟨hn.ne', rfl⟩⟩

theorem getElem?_concat_eq_some_iff (counts : List ℕ) (m i n : ℕ) :
    (counts ++ [m])[i]? = some n ↔ counts[i]? = some n ∨ i = counts.length ∧ n = m := by
  rcases lt_trichotomy i counts.length with h | rfl | h
  · rw [List.getElem?_append_left h]
    exact ⟨.inl, fun h' => h'.resolve_right fun heq => absurd heq.1 h.ne⟩
  · simp [eq_comm]
  · rw [List.getElem?_append_right h.le, List.getElem?_eq_none h.le, List.getElem?_eq_none
      (by simp; omega)]
    simp [h.ne']

theorem mem_dropLast_places_iff (counts : List ℕ) (i : ℕ) :
    i ∈ (places counts).dropLast ↔ ∃ n, counts[i]? = some n ∧ 0 < n ∧
      (1 < n ∨ ∃ j n', i < j ∧ counts[j]? = some n' ∧ 0 < n') := by
  induction counts using List.reverseRecOn with
  | nil => simp [places]
  | append_singleton counts n ih =>
      rw [places_append_singleton]
      simp only [getElem?_concat_eq_some_iff]
      cases n with
      | zero =>
          rw [List.replicate_zero, List.append_nil, ih]
          constructor
          · rintro ⟨n, hi, hn, hagain⟩
            refine ⟨n, .inl hi, hn, hagain.imp_right ?_⟩
            rintro ⟨j, n', hij, hj, hn'⟩
            exact ⟨j, n', hij, .inl hj, hn'⟩
          · rintro ⟨n, hi | ⟨-, rfl⟩, hn, hagain⟩
            · refine ⟨n, hi, hn, hagain.imp_right ?_⟩
              rintro ⟨j, n', hij, hj | ⟨-, rfl⟩, hn'⟩
              · exact ⟨j, n', hij, hj, hn'⟩
              · exact absurd hn' (lt_irrefl 0)
            · exact absurd hn (lt_irrefl 0)
      | succ m =>
          rw [List.replicate_succ', ← List.append_assoc, List.dropLast_concat, List.mem_append,
            mem_places_iff,
            List.mem_replicate]
          constructor
          · rintro (⟨n, hi, hn⟩ | ⟨hm, rfl⟩)
            · have hlt : i < counts.length := (List.getElem?_eq_some_iff.mp hi).1
              exact ⟨n, .inl hi, hn, .inr ⟨_, m + 1, hlt, .inr ⟨rfl, rfl⟩, Nat.succ_pos m⟩⟩
            · exact ⟨m + 1, .inr ⟨rfl, rfl⟩, Nat.succ_pos m, .inl (by omega)⟩
          · rintro ⟨n, hi | ⟨rfl, rfl⟩, hn, hagain⟩
            · exact .inl ⟨n, hi, hn⟩
            · refine .inr ⟨?_, rfl⟩
              rcases hagain with hm | ⟨j, n', hij, hj | ⟨rfl, -⟩, -⟩
              · omega
              · exact absurd (List.getElem?_eq_some_iff.mp hj).1 (by omega)
              · exact absurd hij (lt_irrefl _)

/-- The id of an old Read whose file is read once more, in the same message or in a later old
one. -/
def Overtaken (keepRecentN : Int) (messages : List (Json F)) (id : String) : Prop :=
  ∃ i path ids, i < boundary keepRecentN messages ∧ (messages[i]?).map (readIds path) = some ids ∧
    id ∈ ids ∧
    (1 < ids.length ∨ ∃ j ids', i < j ∧ j < boundary keepRecentN messages ∧
      (messages[j]?).map (readIds path) = some ids' ∧ ids' ≠ [])

theorem length_readIds (path : String) (msg : Json F) :
    (readIds path msg).length = ((blocks msg).filterMap readPath?).count path := by
  rw [readIds, List.length_map]
  induction blocks msg with
  | nil => rfl
  | cons b bs ih =>
      rw [List.filter_cons, List.filterMap_cons]
      cases hb : readPath? b with
      | none => simpa using ih
      | some p =>
          rw [List.count_cons]
          by_cases hp : p = path
          · simpa [hp] using ih
          · simpa [hp] using ih

theorem filter_paths (paths : List String) (path : String) (i : ℕ) :
    (((paths.map (·, i)).filter (·.1 = path)).map Prod.snd) = List.replicate (paths.count path)
      i := by
  induction paths with
  | nil => rfl
  | cons p paths ih =>
      rw [List.map_cons, List.filter_cons, List.count_cons]
      by_cases hp : p = path
      · simp [hp, ih, List.replicate_succ]
      · simp [hp, ih]

theorem readPositions_of_path (keepRecentN : Int) (messages : List (Json F)) (path : String) :
    ((readPositions keepRecentN messages).filter (·.1 = path)).map Prod.snd =
      places ((messages.take (boundary keepRecentN messages)).map fun msg =>
        (readIds path msg).length) := by
  rw [readPositions, List.filter_flatten, List.map_flatten, places]
  refine congrArg List.flatten (List.ext_getElem (by simp) fun i h₁ h₂ => ?_)
  simp only [List.getElem_map, List.getElem_mapIdx]
  rw [filter_paths, length_readIds]

theorem mem_snipIds_iff (keepRecentN : Int) (messages : List (Json F)) (id : String) :
    id ∈ snipIds keepRecentN messages ↔ Overtaken keepRecentN messages id := by
  have hcounts : ∀ path i n, ((messages.take (boundary keepRecentN messages)).map
      fun msg => (readIds path msg).length)[i]? = some n ↔ i < boundary keepRecentN messages ∧
        ∃ ids, (messages[i]?).map (readIds path) = some ids ∧ ids.length = n := by
    intro path i n
    rw [List.getElem?_map, List.getElem?_take]
    split_ifs with hi
    · simp [hi, Option.map_eq_some_iff]
    · simp [hi]
  have hids : id ∈ snipIds keepRecentN messages ↔ ∃ path i, i ∈ (places ((messages.take
      (boundary keepRecentN messages)).map fun msg => (readIds path msg).length)).dropLast ∧
      ∃ ids, (messages[i]?).map (readIds path) = some ids ∧ id ∈ ids := by
    rw [snipIds]
    simp only [List.mem_flatMap, List.mem_dedup, readPositions_of_path]
    constructor
    · rintro ⟨path, -, i, hi, hid⟩
      refine ⟨path, i, hi, ?_⟩
      cases hids : (messages[i]?).map (readIds path) with
      | none =>
          rw [hids] at hid
          cases hid
      | some ids =>
          rw [hids] at hid
          exact ⟨ids, rfl, hid⟩
    · rintro ⟨path, i, hi, ids, hids, hid⟩
      have hpath := List.mem_of_mem_dropLast hi
      rw [← readPositions_of_path, List.mem_map] at hpath
      obtain ⟨p, hp, -⟩ := hpath
      obtain ⟨hmem, hfst⟩ := List.mem_filter.mp hp
      refine ⟨path, List.mem_map.mpr ⟨p, hmem, of_decide_eq_true hfst⟩, i, hi, ?_⟩
      rw [hids]
      exact hid
  rw [hids]
  simp only [mem_dropLast_places_iff, hcounts]
  constructor
  · rintro ⟨path, i, ⟨n, ⟨hi, ids, hread, rfl⟩, -, hagain⟩, ids', hread', hid⟩
    obtain rfl : ids = ids' := Option.some.inj (hread.symm.trans hread')
    refine ⟨i, path, ids, hi, hread, hid, hagain.imp_right ?_⟩
    rintro ⟨j, n', hij, ⟨hj, ids', hread', rfl⟩, hpos⟩
    exact ⟨j, ids', hij, hj, hread', List.ne_nil_of_length_pos hpos⟩
  · rintro ⟨i, path, ids, hi, hread, hid, hagain⟩
    refine ⟨path, i, ⟨_, ⟨hi, ids, hread, rfl⟩, List.length_pos_of_mem hid, hagain.imp_right ?_⟩,
      ids, hread, hid⟩
    rintro ⟨j, ids', hij, hj, hread', hne⟩
    exact ⟨j, _, hij, ⟨hj, ids', hread', rfl⟩, List.length_pos_of_ne_nil hne⟩

def rereadNote : String := "[snipped — file was re-read later]"

def IsRereadResult (keepRecentN : Int) (messages : List (Json F)) (block : Json F) : Prop :=
  block.getStr? "type" = some "tool_result" ∧ ∃ id ∈ block.getStr? "tool_use_id",
    Overtaken keepRecentN messages id

theorem snipReread_snipReread (ids : List String) (block : Json F) :
    snipReread ids (snipReread ids block) = snipReread ids block := by
  rw [snipReread.eq_def ids block]
  split_ifs with h
  · rw [snipReread, Json.set_set, ite_self]
  · rw [snipReread, if_neg h]

theorem readPath?_snipReread (ids : List String) (block : Json F) :
    readPath? (snipReread ids block) = readPath? block := by
  rw [snipReread]
  split_ifs
  · rw [readPath?, readPath?, Json.getStr?_set_ne (by decide), Json.getStr?_set_ne (by decide),
      Json.get?_set_ne (by decide)]
  · rfl

theorem blocks_mapBlocks (f : Json F → Json F) (msg : Json F) : blocks (mapBlocks f msg) =
    (blocks msg).map f := by
  rw [blocks, blocks?_mapBlocks, blocks]
  cases blocks? msg <;> rfl

theorem getStr?_id_snipReread (ids : List String) (block : Json F) :
    (snipReread ids block).getStr? "id" = block.getStr? "id" := by
  rw [snipReread]
  split_ifs
  · exact Json.getStr?_set_ne (by decide) _ _
  · rfl

theorem readIds_mapBlocks_snipReread (ids : List String) (path : String) (msg : Json F) :
    readIds path (mapBlocks (snipReread ids) msg) = readIds path msg := by
  rw [readIds, readIds, blocks_mapBlocks, List.filter_map, List.map_map]
  simp only [Function.comp_def, readPath?_snipReread, getStr?_id_snipReread]

theorem dropRedundantReads_eq_map (keepRecentN : Int) (messages : List (Json F)) :
    dropRedundantReads keepRecentN messages =
      messages.map (mapBlocks (snipReread (snipIds keepRecentN messages))) := by
  unfold dropRedundantReads
  simp only
  split_ifs with h
  · rw [List.isEmpty_iff.mp h]
    have hid : (snipReread [] : Json F → Json F) = id := by
      funext block
      rw [snipReread, if_neg]
      · rfl
      · simp
    rw [hid]
    exact (List.map_id'' mapBlocks_id messages).symm
  · rfl

theorem overtaken_map_iff (keepRecentN : Int) (messages : List (Json F)) (ids : List String)
    (id : String) :
    Overtaken keepRecentN (messages.map (mapBlocks (snipReread ids))) id ↔
      Overtaken keepRecentN messages id := by
  have hreads : ∀ path (i : ℕ), ((messages.map (mapBlocks (snipReread ids)))[i]?).map
    (readIds path) =
      (messages[i]?).map (readIds path) := by
    intro path i
    rw [List.getElem?_map, Option.map_map]
    simp only [Function.comp_def, readIds_mapBlocks_snipReread]
  simp only [Overtaken, hreads, boundary, List.length_map]

theorem snipReread_congr {ids ids' : List String} (h : ∀ id, id ∈ ids ↔ id ∈ ids') :
    (snipReread ids : Json F → Json F) = snipReread ids' := by
  funext block
  simp only [snipReread, h]

theorem snipReread_of_overtaken (keepRecentN : Int) (messages : List (Json F)) (block : Json F) :
    IsRereadResult keepRecentN messages block ∧
        snipReread (snipIds keepRecentN messages) block = block.set "content" (.str rereadNote) ∨
      ¬IsRereadResult keepRecentN messages block ∧ snipReread (snipIds keepRecentN messages) block =
        block := by
  have hiff : IsRereadResult keepRecentN messages block ↔ block.getStr? "type" =
    some "tool_result" ∧
      (block.getStr? "tool_use_id").any (· ∈ snipIds keepRecentN messages) := by
    rw [IsRereadResult, Option.any_eq_true]
    simp only [decide_eq_true_eq, mem_snipIds_iff, Option.mem_def]
  rw [hiff, snipReread]
  split_ifs with h
  · exact .inl ⟨h, rfl⟩
  · exact .inr ⟨h, rfl⟩

theorem contentLength_set_content {block : Json F} (h : block.isObj = true) (text : String) :
    contentLength (block.set "content" (.str text)) = text.length := by
  rw [contentLength, Json.get?_set_self h]

theorem isObj_of_getStr? {block : Json F} {k text : String} (h : block.getStr? k = some text) :
    block.isObj = true := by
  have hget := get?_of_getStr? h
  cases block with
  | obj members => rfl
  | _ => cases hget

theorem isShrinker_dropRedundantReads_iff (keepRecentN : Int) (messages : List (Json F)) :
    IsShrinker (dropRedundantReads keepRecentN) messages ↔
      ∀ block ∈ messages.flatMap blocks, IsRereadResult keepRecentN messages block →
        rereadNote.length ≤ contentLength block := by
  set ids := snipIds keepRecentN messages with hids
  have hlayer : dropRedundantReads keepRecentN messages =
    messages.map (mapBlocks (snipReread ids)) :=
    dropRedundantReads_eq_map keepRecentN messages
  have hagain : dropRedundantReads keepRecentN (dropRedundantReads keepRecentN messages) =
      (messages.map (mapBlocks (snipReread ids))).map (mapBlocks (snipReread ids)) := by
    rw [dropRedundantReads_eq_map _ (dropRedundantReads _ _), hlayer]
    refine congrArg (fun f => List.map (mapBlocks f) _) (snipReread_congr fun id => ?_)
    rw [mem_snipIds_iff, overtaken_map_iff, hids, mem_snipIds_iff]
  have hiff : IsShrinker (dropRedundantReads keepRecentN) messages ↔
      IsShrinker (List.map (mapBlocks (snipReread ids))) messages := by
    constructor
    · rintro ⟨h, h'⟩
      exact ⟨hlayer ▸ h, by rw [← hagain, h', hlayer]⟩
    · rintro ⟨h, h'⟩
      exact ⟨hlayer.symm ▸ h, by rw [hagain, h', hlayer]⟩
  rw [hiff, isShrinker_mapBlocks_iff]
  refine forall₂_congr fun block _ => ?_
  rw [and_iff_left (snipReread_snipReread ids block)]
  rcases snipReread_of_overtaken keepRecentN messages block with ⟨hreread, hset⟩ | ⟨hreread, hset⟩
  · rw [hset, ShrinksBlock, contentLength_set_content (isObj_of_getStr? hreread.1),
      forall_prop_of_true hreread]
    exact and_iff_right (.inr ⟨hreread.1, _, rfl⟩)
  · rw [hset]
    exact iff_of_true ⟨.inl rfl, le_rfl⟩ fun h => absurd h hreread

def resultMessage (text : String) : Json Empty :=
  .obj [("role", .str "user"), ("content", .arr [.obj
    [("type", .str "tool_result"), ("tool_use_id", .str "call_1"), ("content", .str text)]])]

/-- The files a history reads, in order, each with the id of the call. -/
def reads (messages : List (Json F)) : List (String × String) :=
  messages.flatMap fun msg => (blocks msg).filterMap fun b =>
    (readPath? b).map (·, (b.getStr? "id").getD "")

/-- The id of a Read behind which its file is not read any more. -/
def IsLatestRead (messages : List (Json F)) (id : String) : Prop :=
  ∃ before path behind, reads messages = before ++ (path, id) :: behind ∧ path ∉ behind.map Prod.fst

def IsStaleRead (messages : List (Json F)) (id : String) : Prop :=
  ∃ before path behind, reads messages = before ++ (path, id) :: behind ∧ path ∈ behind.map Prod.fst

/-- A block changes only if it is the result of a stale read and of no latest one. -/
def SnipsStale (messages : List (Json F)) (block block' : Json F) : Prop :=
  block' = block ∨ ChangesContent block block' ∧
    ∃ id ∈ block.getStr? "tool_use_id", IsStaleRead messages id ∧ ¬IsLatestRead messages id

theorem mem_reads_of_overtaken {keepRecentN : Int} {messages : List (Json F)} {id : String}
    (h : Overtaken keepRecentN messages id) : ∃ path, (path, id) ∈ reads messages := by
  obtain ⟨i, path, ids, -, hread, hid, -⟩ := h
  obtain ⟨msg, hmsg, rfl⟩ := Option.map_eq_some_iff.mp hread
  obtain ⟨b, hb, rfl⟩ := List.mem_map.mp hid
  obtain ⟨hmem, hpath⟩ := List.mem_filter.mp hb
  refine ⟨path, List.mem_flatMap.mpr ⟨msg, List.mem_of_getElem? hmsg, List.mem_filterMap.mpr
    ⟨b, hmem, ?_⟩⟩⟩
  rw [of_decide_eq_true hpath]
  rfl

theorem isStaleRead_of_overtaken {keepRecentN : Int} {messages : List (Json F)} {id : String}
    (h : Overtaken keepRecentN messages id) (hlatest : ¬IsLatestRead messages id) :
      IsStaleRead messages id := by
  obtain ⟨path, hmem⟩ := mem_reads_of_overtaken h
  obtain ⟨before, behind, hreads⟩ := List.append_of_mem hmem
  by_cases hpath : path ∈ behind.map Prod.fst
  · exact ⟨before, path, behind, hreads, hpath⟩
  · exact absurd ⟨before, path, behind, hreads, hpath⟩ hlatest

theorem snipsStale_snipReread_iff (keepRecentN : Int) (messages : List (Json F)) (block : Json F) :
    SnipsStale messages block (snipReread (snipIds keepRecentN messages) block) ↔
      (IsRereadResult keepRecentN messages block →
        (∃ id ∈ block.getStr? "tool_use_id", IsLatestRead messages id) →
        block.getStr? "content" = some rereadNote) := by
  rcases snipReread_of_overtaken keepRecentN messages block with ⟨hreread, hset⟩ | ⟨hreread, hset⟩
  · obtain ⟨htype, id, hid, hovertaken⟩ := hreread
    rw [hset, SnipsStale]
    constructor
    · rintro (hsame | ⟨-, id', hid', -, hlatest'⟩) - ⟨id'', hid'', hlatest⟩
      · rw [← hsame, Json.getStr?, Json.get?_set_self (isObj_of_getStr? htype)]
        rfl
      · obtain rfl : id' = id'' := Option.some.inj (hid'.symm.trans hid'')
        exact absurd hlatest hlatest'
    · intro h
      by_cases hlatest : IsLatestRead messages id
      · exact .inl (set_eq_self
          (get?_of_getStr? (h ⟨htype, id, hid, hovertaken⟩ ⟨id, hid, hlatest⟩)))
      · exact .inr ⟨.inr ⟨htype, _, rfl⟩, id, hid, isStaleRead_of_overtaken hovertaken hlatest,
          hlatest⟩
  · rw [hset]
    exact iff_of_true (.inl rfl) fun h => absurd h hreread

def readCall (id path : String) : Json Empty :=
  .obj [("type", .str "tool_use"), ("id", .str id), ("name", .str "Read"),
    ("input", .obj [("file_path", .str path)])]

def readResult (id text : String) : Json Empty :=
  .obj [("type", .str "tool_result"), ("tool_use_id", .str id), ("content", .str text)]

def doubleRead : List (Json Empty) :=
  [.obj [("role", .str "assistant"),
    ("content", .arr [readCall "r1" "a.py", readCall "r2" "a.py"])],
    .obj [("role", .str "user"),
      ("content", .arr [readResult "r1" "x = 1", readResult "r2" "x = 1"])]]

end DevPilot
