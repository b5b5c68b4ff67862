import DevPilot.Lib.Comparisons

/-!
The comparison that orders a transcript: by seq where both messages have one, by block
index, by creation time and by id.
-/

namespace DevPilot.Transcript.Ordering

open Comparisons

/-- Truncation of finite numbers, `none` for the others, and the collation of ids. -/
structure Host (Number : Type) where
  trunc : Number → Option Int
  localeCompare : String → String → Ordering
  localeCompare_swap : ∀ a b, localeCompare b a = (localeCompare a b).swap
  localeCompare_trans : ∀ a b c, (localeCompare a b).isLE → (localeCompare b c).isLE →
    (localeCompare a c).isLE

/-- The fields of a message that its place in the transcript depends on. -/
structure TranscriptOrderFields (Number : Type) where
  id : String
  seq : Option Number
  createdAt : Number
  transcriptBlockIndex : Option Number

variable {Number : Type} [LinearOrder Number] (host : Host Number)

def normalizeTranscriptSeq (seq : Option Number) : Option Int := seq.bind host.trunc

def normalizeTranscriptBlockIndex (index : Option Number) : Option Int :=
  (index.bind host.trunc).filter (0 ≤ ·)

abbrev seqOf (m : TranscriptOrderFields Number) : Option Int := normalizeTranscriptSeq host m.seq

abbrev blockOf (m : TranscriptOrderFields Number) : Option Int :=
  normalizeTranscriptBlockIndex host m.transcriptBlockIndex

/-- What is left to compare where the seqs do not decide. -/
def compareByTime (a b : TranscriptOrderFields Number) : Ordering :=
  if a.createdAt ≠ b.createdAt then compare a.createdAt b.createdAt
  else match blockOf host a, blockOf host b with
    | some aBlock, some bBlock =>
        if aBlock ≠ bBlock then compare aBlock bBlock else host.localeCompare a.id b.id
    | _, _ => host.localeCompare a.id b.id

def compareTranscriptMessagesOldestFirst (a b : TranscriptOrderFields Number) : Ordering :=
  match seqOf host a, seqOf host b with
  | some aSeq, some bSeq =>
      if aSeq ≠ bSeq then compare aSeq bSeq
      else match blockOf host a, blockOf host b with
        | some aBlock, some bBlock =>
            if aBlock ≠ bBlock then compare aBlock bBlock else compareByTime host a b
        | _, _ => compareByTime host a b
  | _, _ => compareByTime host a b

def compareByIds (a b : TranscriptOrderFields Number) : Ordering :=
  if a.createdAt ≠ b.createdAt then compare a.createdAt b.createdAt
  else host.localeCompare a.id b.id

/-- Both have a seq, and the seqs, or the block indices of one seq, put `a` first. -/
def NumbersBefore (a b : TranscriptOrderFields Number) : Prop :=
  ∃ s ∈ seqOf host a, ∃ t ∈ seqOf host b, s < t ∨
    s = t ∧ ∃ p ∈ blockOf host a, ∃ q ∈ blockOf host b, p < q

def SeqsTied (a b : TranscriptOrderFields Number) : Prop :=
  ∀ s ∈ seqOf host a, ∀ t ∈ seqOf host b, s = t

/-- The block indices put `a` first, of one seq or of one creation time. -/
def BlocksBefore (a b : TranscriptOrderFields Number) : Prop :=
  SeqsTied host a b ∧ ((seqOf host a).isSome ∧ (seqOf host b).isSome ∨ a.createdAt = b.createdAt) ∧
    ∃ p ∈ blockOf host a, ∃ q ∈ blockOf host b, p < q

/-- No message without a seq lies, by time, the wrong way round between two messages that
their seqs or the block indices of one seq put in order, and no message without a block
index lies the wrong way round between two messages that their block indices put in order. -/
structure Unmixed (messages : List (TranscriptOrderFields Number)) : Prop where
  seqs : ∀ a ∈ messages, ∀ b ∈ messages, ∀ m ∈ messages, seqOf host m = none →
    NumbersBefore host a b → ¬((compareByTime host b m).isLE ∧ (compareByTime host m a).isLE)
  blocks : ∀ a ∈ messages, ∀ b ∈ messages, ∀ m ∈ messages, blockOf host m = none →
    BlocksBefore host a b → SeqsTied host a m → SeqsTied host b m →
      ¬((compareByIds host b m).isLE ∧ (compareByIds host m a).isLE)

variable {host} {messages : List (TranscriptOrderFields Number)}
  {a b c : TranscriptOrderFields Number}

theorem isLE_compare_iff {α : Type} [LinearOrder α] {x y : α} : (compare x y).isLE ↔ x ≤ y :=
  Ordering.isLE_iff_ne_gt.trans compare_le_iff_le

theorem ite_compare_swap {α : Type} [LinearOrder α] (x y : α) (o : Ordering) :
    (if y ≠ x then compare y x else o.swap) = (if x ≠ y then compare x y else o).swap := by
  by_cases h : x = y
  · simp [h]
  · simp only [ne_eq, h, Ne.symm h, not_false_eq_true, if_true]
    exact Std.OrientedCmp.eq_swap

theorem ite_compare_isLE {α : Type} [LinearOrder α] {x y : α} {o : Ordering} :
    (if x ≠ y then compare x y else o).isLE ↔ x < y ∨ x = y ∧ o.isLE := by
  by_cases h : x = y
  · simp [h]
  · simp only [ne_eq, h, not_false_eq_true, if_true, isLE_compare_iff, false_and, or_false]
    exact ⟨fun hle => lt_of_le_of_ne hle h, le_of_lt⟩

theorem compareByTime_swap (host : Host Number) (a b : TranscriptOrderFields Number) :
    compareByTime host b a = (compareByTime host a b).swap := by
  unfold compareByTime
  rw [host.localeCompare_swap a.id b.id]
  cases blockOf host a <;> cases blockOf host b <;> simp only [ite_compare_swap]

theorem compareTranscriptMessages_swap (host : Host Number) (a b : TranscriptOrderFields Number) :
    compareTranscriptMessagesOldestFirst host b a =
      (compareTranscriptMessagesOldestFirst host a b).swap := by
  unfold compareTranscriptMessagesOldestFirst
  rw [compareByTime_swap host a b]
  cases seqOf host a <;> cases seqOf host b <;> cases blockOf host a <;> cases blockOf host b <;>
    simp only [ite_compare_swap]

def IdLE (host : Host Number) (a b : TranscriptOrderFields Number) : Prop :=
  (host.localeCompare a.id b.id).isLE

def IndicesBefore (host : Host Number) (a b : TranscriptOrderFields Number) : Prop :=
  ∃ p ∈ blockOf host a, ∃ q ∈ blockOf host b, p < q

theorem compareByTime_isLE : (compareByTime host a b).isLE ↔
    a.createdAt < b.createdAt ∨
      a.createdAt = b.createdAt ∧ ThenBy (IndicesBefore host) (IdLE host) a b := by
  unfold compareByTime ThenBy IndicesBefore
  rw [ite_compare_isLE]
  cases hp : blockOf host a with
  | none => simp [IdLE]
  | some p =>
      cases hq : blockOf host b with
      | none => simp [IdLE]
      | some q =>
          simp only [ite_compare_isLE, Option.mem_some_iff, exists_eq_left']
          refine or_congr_right (and_congr_right fun _ => ?_)
          rw [IdLE]
          grind

theorem compareTranscriptMessages_isLE : (compareTranscriptMessagesOldestFirst host a b).isLE ↔
    ThenBy (NumbersBefore host) (fun a b => (compareByTime host a b).isLE) a b := by
  unfold compareTranscriptMessagesOldestFirst ThenBy NumbersBefore
  cases hs : seqOf host a with
  | none => simp
  | some s =>
      cases ht : seqOf host b with
      | none => simp
      | some t =>
          cases hp : blockOf host a <;> cases hq : blockOf host b <;>
            simp only [ite_compare_isLE, Option.mem_some_iff, exists_eq_left'] <;> grind

instance : IsStrictOrder (TranscriptOrderFields Number) (IndicesBefore host) where
  irrefl := by
    rintro a ⟨p, hp, q, hq, hpq⟩
    obtain rfl := Option.mem_unique hp hq
    exact lt_irrefl p hpq
  trans := by
    rintro a b c ⟨p, hp, q, hq, hpq⟩ ⟨q', hq', r, hr, hqr⟩
    obtain rfl := Option.mem_unique hq hq'
    exact ⟨p, hp, r, hr, hpq.trans hqr⟩

instance : IsStrictOrder (TranscriptOrderFields Number) (NumbersBefore host) where
  irrefl := by
    rintro a ⟨s, hs, t, ht, hlt⟩
    obtain rfl := Option.mem_unique hs ht
    rcases hlt with hlt | ⟨-, hindices⟩
    · exact lt_irrefl s hlt
    · exact irrefl_of (IndicesBefore host) a hindices
  trans := by
    rintro a b c ⟨s, hs, t, ht, hab⟩ ⟨t', ht', u, hu, hbc⟩
    obtain rfl := Option.mem_unique ht ht'
    refine ⟨s, hs, u, hu, ?_⟩
    rcases hab with hab | ⟨rfl, hab⟩
    · rcases hbc with hbc | ⟨rfl, -⟩
      · exact .inl (hab.trans hbc)
      · exact .inl hab
    · rcases hbc with hbc | ⟨rfl, hbc⟩
      · exact .inl hbc
      · exact .inr ⟨rfl, trans_of (IndicesBefore host) hab hbc⟩

def Mixed (host : Host Number) (a b m : TranscriptOrderFields Number) : Prop :=
  (seqOf host m = none ∧ NumbersBefore host a b ∧
    (compareByTime host b m).isLE ∧ (compareByTime host m a).isLE) ∨
  (blockOf host m = none ∧ BlocksBefore host a b ∧ SeqsTied host a m ∧ SeqsTied host b m ∧
    (compareByIds host b m).isLE ∧ (compareByIds host m a).isLE)

omit [LinearOrder Number] in
theorem IdLE.trans (hab : IdLE host a b) (hbc : IdLE host b c) : IdLE host a c :=
  host.localeCompare_trans _ _ _ hab hbc

theorem compareByTime_of_block_none (h : blockOf host a = none ∨ blockOf host b = none) :
    compareByTime host a b = compareByIds host a b := by
  unfold compareByTime compareByIds
  rcases h with h | h <;> rw [h]
  cases blockOf host a <;> rfl

omit [LinearOrder Number] in
theorem SeqsTied.symm (h : SeqsTied host a b) : SeqsTied host b a :=
  fun t ht s hs => (h s hs t ht).symm

omit [LinearOrder Number] in
theorem seqsTied_of_not_numbersBefore (hab : ¬NumbersBefore host a b)
    (hba : ¬NumbersBefore host b a) : SeqsTied host a b := by
  intro s hs t ht
  have hst : ¬s < t := fun hlt => hab ⟨s, hs, t, ht, .inl hlt⟩
  have hts : ¬t < s := fun hlt => hba ⟨t, ht, s, hs, .inl hlt⟩
  omega

omit [LinearOrder Number] in
theorem IndicesBefore.block_none (hab : IndicesBefore host a b) (hcb : ¬IndicesBefore host c b)
    (hac : ¬IndicesBefore host a c) : blockOf host c = none := by
  obtain ⟨p, hp, q, hq, hpq⟩ := hab
  cases hr : blockOf host c with
  | none => rfl
  | some r =>
      have hrq : ¬r < q := fun hlt => hcb ⟨r, hr, q, hq, hlt⟩
      have hpr : ¬p < r := fun hlt => hac ⟨p, hp, r, hr, hlt⟩
      omega

theorem NumbersBefore.mixed (hab : NumbersBefore host a b)
    (hbc : (compareTranscriptMessagesOldestFirst host b c).isLE)
    (hca : (compareTranscriptMessagesOldestFirst host c a).isLE) : Mixed host a b c := by
  rw [compareTranscriptMessages_isLE] at hbc hca
  obtain ⟨⟨hcb, hbc⟩, hac, hca⟩ := ThenBy.aside hab hbc hca
  cases hu : seqOf host c with
  | none => exact .inl ⟨hu, hab, hbc, hca⟩
  | some u =>
      obtain ⟨s, hs, t, ht, hst⟩ := hab
      have hut : ¬u < t := fun hlt => hcb ⟨u, hu, t, ht, .inl hlt⟩
      have hsu : ¬s < u := fun hlt => hac ⟨s, hs, u, hu, .inl hlt⟩
      obtain ⟨rfl, hindices⟩ : s = t ∧ IndicesBefore host a b :=
        hst.resolve_left (by omega)
      obtain rfl : s = u := by omega
      have hblock : blockOf host c = none := hindices.block_none
        (fun h => hcb ⟨s, hu, s, ht, .inr ⟨rfl, h⟩⟩) (fun h => hac ⟨s, hs, s, hu, .inr ⟨rfl, h⟩⟩)
      have htied : ∀ {x y}, seqOf host x = some s → seqOf host y = some s → SeqsTied host x y :=
        fun hx hy _ hs' _ ht' => (Option.mem_unique hs' hx).trans (Option.mem_unique ht' hy).symm
      rw [compareByTime_of_block_none (.inr hblock)] at hbc
      rw [compareByTime_of_block_none (.inl hblock)] at hca
      have hsome : (seqOf host a).isSome ∧ (seqOf host b).isSome :=
        ⟨Option.isSome_of_mem hs, Option.isSome_of_mem ht⟩
      exact .inr ⟨hblock, ⟨htied hs ht, .inl hsome, hindices⟩, htied hs hu, htied ht hu, hbc, hca⟩

theorem created_eq_of_cycle (hab : (compareByTime host a b).isLE)
    (hbc : (compareByTime host b c).isLE) (hca : (compareByTime host c a).isLE) :
    a.createdAt = b.createdAt ∧ ThenBy (IndicesBefore host) (IdLE host) a b := by
  have hle : ∀ {x y}, (compareByTime host x y).isLE → x.createdAt ≤ y.createdAt := by
    intro x y hxy
    rcases compareByTime_isLE.mp hxy with hlt | ⟨heq, -⟩
    · exact hlt.le
    · exact heq.le
  rcases compareByTime_isLE.mp hab with hlt | heq
  · exact absurd ((hle hbc).trans (hle hca)) hlt.not_ge
  · exact heq

theorem IndicesBefore.mixed (hab : IndicesBefore host a b) (hcreated : a.createdAt = b.createdAt)
    (hbc : ThenBy (IndicesBefore host) (IdLE host) b c)
    (hca : ThenBy (IndicesBefore host) (IdLE host) c a)
    (hbetween : (compareByTime host b c).isLE ∧ (compareByTime host c a).isLE)
    (htied : SeqsTied host a b ∧ SeqsTied host a c ∧ SeqsTied host b c) : Mixed host a b c := by
  obtain ⟨⟨hcb, -⟩, hac, -⟩ := ThenBy.aside hab hbc hca
  have hblock := hab.block_none hcb hac
  rw [compareByTime_of_block_none (.inr hblock), compareByTime_of_block_none (.inl hblock)]
    at hbetween
  exact .inr ⟨hblock, ⟨htied.1, .inr hcreated, hab⟩, htied.2.1, htied.2.2, hbetween⟩

theorem mixed_or_le (hab : (compareTranscriptMessagesOldestFirst host a b).isLE)
    (hbc : (compareTranscriptMessagesOldestFirst host b c).isLE)
    (hca : (compareTranscriptMessagesOldestFirst host c a).isLE) :
    Mixed host a b c ∨ Mixed host b c a ∨ Mixed host c a b ∨
      (compareTranscriptMessagesOldestFirst host a c).isLE := by
  by_cases hnab : NumbersBefore host a b
  · exact .inl (hnab.mixed hbc hca)
  by_cases hnbc : NumbersBefore host b c
  · exact .inr (.inl (hnbc.mixed hca hab))
  by_cases hnca : NumbersBefore host c a
  · exact .inr (.inr (.inl (hnca.mixed hab hbc)))
  -- no step is decided by the numbers: all three are of one time
  rw [compareTranscriptMessages_isLE] at hab hbc hca ⊢
  obtain ⟨hnba, hab⟩ := hab.resolve_left hnab
  obtain ⟨hncb, hbc⟩ := hbc.resolve_left hnbc
  obtain ⟨hnac, hca⟩ := hca.resolve_left hnca
  have htab := seqsTied_of_not_numbersBefore hnab hnba
  have htbc := seqsTied_of_not_numbersBefore hnbc hncb
  have htac := seqsTied_of_not_numbersBefore hnac hnca
  obtain ⟨heqab, hiab⟩ := created_eq_of_cycle hab hbc hca
  obtain ⟨heqbc, hibc⟩ := created_eq_of_cycle hbc hca hab
  obtain ⟨heqca, hica⟩ := created_eq_of_cycle hca hab hbc
  by_cases hbab : IndicesBefore host a b
  · exact .inl (hbab.mixed heqab hibc hica ⟨hbc, hca⟩ ⟨htab, htac, htbc⟩)
  by_cases hbbc : IndicesBefore host b c
  · exact .inr (.inl (hbbc.mixed heqbc hica hiab ⟨hca, hab⟩ ⟨htbc, htab.symm, htac.symm⟩))
  by_cases hbca : IndicesBefore host c a
  · exact .inr (.inr (.inl (hbca.mixed heqca hiab hibc ⟨hab, hbc⟩
      ⟨htac.symm, htbc.symm, htab⟩)))
  -- nor by the block indices: the ids decide every step
  have hids : IdLE host a c :=
    (hiab.resolve_left hbab).2.trans (hibc.resolve_left hbbc).2
  have htime : (compareByTime host a c).isLE :=
    compareByTime_isLE.mpr (.inr ⟨heqca.symm, .inr ⟨hbca, hids⟩⟩)
  exact .inr (.inr (.inr (.inr ⟨hnca, htime⟩)))

theorem isLE_of_seq_none (h : seqOf host a = none ∨ seqOf host b = none) :
    compareTranscriptMessagesOldestFirst host a b = compareByTime host a b := by
  unfold compareTranscriptMessagesOldestFirst
  rcases h with h | h <;> rw [h]
  cases seqOf host a <;> rfl

theorem compare_of_block_none (htied : SeqsTied host a b)
    (h : blockOf host a = none ∨ blockOf host b = none) :
    compareTranscriptMessagesOldestFirst host a b = compareByIds host a b := by
  have htime := compareByTime_of_block_none h
  unfold compareTranscriptMessagesOldestFirst
  cases hs : seqOf host a with
  | none => exact htime
  | some s =>
      cases ht : seqOf host b with
      | none => exact htime
      | some t =>
          obtain rfl : s = t := htied s hs t ht
          simp only [ne_eq, not_true_eq_false, if_false]
          rcases h with h | h <;> rw [h]
          · exact htime
          · cases blockOf host a <;> exact htime

theorem NumbersBefore.not_isLE (h : NumbersBefore host a b) :
    ¬(compareTranscriptMessagesOldestFirst host b a).isLE := by
  rw [compareTranscriptMessages_isLE]
  rintro (hba | ⟨hnot, -⟩)
  · exact asymm_of (NumbersBefore host) h hba
  · exact hnot h

theorem BlocksBefore.not_isLE (h : BlocksBefore host a b) :
    ¬(compareTranscriptMessagesOldestFirst host b a).isLE := by
  obtain ⟨htied, hdecides, hindices⟩ := h
  rcases hdecides with ⟨hs, ht⟩ | hcreated
  · obtain ⟨s, hs⟩ := Option.isSome_iff_exists.mp hs
    obtain ⟨t, ht⟩ := Option.isSome_iff_exists.mp ht
    exact NumbersBefore.not_isLE ⟨s, hs, t, ht, .inr ⟨htied s hs t ht, hindices⟩⟩
  · rw [compareTranscriptMessages_isLE]
    rintro (⟨t, ht, s, hs, hlt | ⟨-, hba⟩⟩ | ⟨-, htime⟩)
    · exact hlt.ne (htied s hs t ht).symm
    · exact asymm_of (IndicesBefore host) hindices hba
    · rcases compareByTime_isLE.mp htime with hlt | ⟨-, hba | ⟨hnot, -⟩⟩
      · exact hlt.ne hcreated.symm
      · exact asymm_of (IndicesBefore host) hindices hba
      · exact hnot hindices

theorem orderOn_iff_unmixed : OrderOn (compareTranscriptMessagesOldestFirst host) messages ↔
    Unmixed host messages := by
  constructor
  · intro h
    refine ⟨fun a ha b hb m hm hseq hbefore ⟨hbm, hma⟩ => ?_,
      fun a ha b hb m hm hblock hbefore ham hbm' ⟨hbm, hma⟩ => ?_⟩
    · apply hbefore.not_isLE
      apply h.trans b hb m hm a ha
      · rwa [isLE_of_seq_none (.inr hseq)]
      · rwa [isLE_of_seq_none (.inl hseq)]
    · apply hbefore.not_isLE
      apply h.trans b hb m hm a ha
      · rwa [compare_of_block_none hbm' (.inr hblock)]
      · rwa [compare_of_block_none (fun s hs t ht => (ham t ht s hs).symm) (.inl hblock)]
  · intro h
    have hnot : ∀ a ∈ messages, ∀ b ∈ messages, ∀ m ∈ messages, ¬Mixed host a b m := by
      rintro a ha b hb m hm (⟨hseq, hbefore, hbetween⟩ | ⟨hblock, hbefore, ham, hbm, hbetween⟩)
      · exact h.seqs a ha b hb m hm hseq hbefore hbetween
      · exact h.blocks a ha b hb m hm hblock hbefore ham hbm hbetween
    refine ⟨fun a _ b _ => compareTranscriptMessages_swap host a b,
      fun a ha b hb c hc hab hbc => ?_⟩
    by_contra hac
    have hca : (compareTranscriptMessagesOldestFirst host c a).isLE := by
      rw [compareTranscriptMessages_swap host a c]
      cases hcmp : compareTranscriptMessagesOldestFirst host a c <;> simp_all
    obtain hmixed | hmixed | hmixed | hle := mixed_or_le hab hbc hca
    · exact hnot a ha b hb c hc hmixed
    · exact hnot b hb c hc a ha hmixed
    · exact hnot c hc a ha b hb hmixed
    · exact hac hle

theorem localeCompare_of_eq (h : compareTranscriptMessagesOldestFirst host a b = .eq) :
    host.localeCompare a.id b.id = .eq := by
  have hdiffer : ∀ {α : Type} [LinearOrder α] {x y : α} {o : Ordering},
      (if x ≠ y then compare x y else o) = .eq → o = .eq := by
    intro α _ x y o ho
    by_cases hxy : x = y
    · simpa [hxy] using ho
    · rw [if_pos hxy] at ho
      exact absurd (compare_eq_iff_eq.mp ho) hxy
  have htime : compareByTime host a b = .eq → host.localeCompare a.id b.id = .eq := by
    intro ht
    have ht := hdiffer ht
    split at ht
    · exact hdiffer ht
    · exact ht
  unfold compareTranscriptMessagesOldestFirst at h
  split at h
  · have h := hdiffer h
    split at h
    · exact htime (hdiffer h)
    · exact htime h
  · exact htime h

/-- The comparison is an order on exactly the unmixed transcripts. There every permutation
sorts to one list, and inserting by binary search agrees with sorting. -/
theorem transcript_order (host : Host Number) (messages : List (TranscriptOrderFields Number)) :
    (OrderOn (compareTranscriptMessagesOldestFirst host) messages ↔ Unmixed host messages) ∧
    (Unmixed host messages →
      (∀ a ∈ messages, ∀ b ∈ messages, host.localeCompare a.id b.id = .eq → a = b) →
      (∀ permuted, messages.Perm permuted →
        sort (compareTranscriptMessagesOldestFirst host) messages =
          sort (compareTranscriptMessagesOldestFirst host) permuted) ∧
      ∀ m rest, messages = m :: rest →
        insertSorted (compareTranscriptMessagesOldestFirst host)
          (sort (compareTranscriptMessagesOldestFirst host) rest) m =
        sort (compareTranscriptMessagesOldestFirst host) messages) := by
  refine ⟨orderOn_iff_unmixed, fun hunmixed hids => ?_⟩
  have horder := orderOn_iff_unmixed.mpr hunmixed
  have hapart : Apart (compareTranscriptMessagesOldestFirst host) messages :=
    fun a ha b hb hab => hids a ha b hb (localeCompare_of_eq hab)
  refine ⟨fun permuted hperm => sort_eq_of_perm horder hapart hperm, ?_⟩
  rintro m rest rfl
  have hsub : m :: sort (compareTranscriptMessagesOldestFirst host) rest ⊆ m :: rest :=
    List.cons_subset_cons m (perm_sort rest).subset
  have hsorted := ascending_sort (horder.subset (List.subset_cons_self m rest))
  rw [insertSorted_eq_sort (horder.subset hsub)
    (fun a ha b hb => hapart a (hsub ha) b (hsub hb)) hsorted]
  exact sort_eq_of_perm (horder.subset hsub)
    (fun a ha b hb => hapart a (hsub ha) b (hsub hb)) ((perm_sort rest).cons m)

def plainHost : Host Int where
  trunc := some
  localeCompare := compare
  localeCompare_swap _ _ := Std.OrientedCmp.eq_swap
  localeCompare_trans _ _ _ := Std.TransCmp.isLE_trans

def lateRow : TranscriptOrderFields Int := ⟨"late", some 2, 10, none⟩
def placeholder : TranscriptOrderFields Int := ⟨"permission", none, 20, none⟩
def earlyRow : TranscriptOrderFields Int := ⟨"early", some 1, 30, none⟩

/-- By time the placeholder follows the late row and precedes the early one, while by seq
the early row comes first. -/
theorem placeholder_cycle :
    ¬OrderOn (compareTranscriptMessagesOldestFirst plainHost) [lateRow, placeholder, earlyRow] := by
  intro h
  have hle := h.trans lateRow (by simp) placeholder (by simp) earlyRow (by simp)
    (by decide) (by decide)
  revert hle
  decide

end DevPilot.Transcript.Ordering
