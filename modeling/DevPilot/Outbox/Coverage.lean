import DevPilot.Outbox.Moves

/-!
What a queue still stands for: a mutation is covered by a queue that holds it,
or a snapshot that has taken its place.
-/

namespace DevPilot.Outbox

open QueuedSessionMutation

/-- `m` stands for `x`: the same turn mutation, or the same or a later snapshot. -/
def Covers (m x : QueuedSessionMutation) : Prop :=
  if x.isTurn then m.isTurn ∧ m.mutationId = x.mutationId
  else m.coalesceKey = x.coalesceKey ∧ x.observedAt ≤ m.observedAt

def CoveredBy (q : Queue) (x : QueuedSessionMutation) : Prop := ∃ m ∈ q, Covers m x

def Superseded (q : Queue) (x : QueuedSessionMutation) : Prop :=
  x.isSessionEnd ∧ ∃ m ∈ q, m.isTurnBegin ∧ x.observedAt < m.observedAt

/-- Among the mutations with `p`, none shares its id with a turn mutation unless it is one. -/
def IdsApart (p : QueuedSessionMutation → Bool) (q : Queue) : Prop :=
  ∀ x ∈ q, p x → ∀ m ∈ q, m.mutationId = x.mutationId → m.isTurn = x.isTurn

def RespectsCovers (p : QueuedSessionMutation → Bool) : Prop := ∀ m x, Covers m x → p x → p m

instance (m x : QueuedSessionMutation) : Decidable (Covers m x) := by unfold Covers; infer_instance

instance (q : Queue) (x : QueuedSessionMutation) : Decidable (CoveredBy q x) := by
  unfold CoveredBy; infer_instance

instance (q : Queue) (x : QueuedSessionMutation) : Decidable (Superseded q x) := by
  unfold Superseded; infer_instance

theorem QueuedSessionMutation.kinds (m : QueuedSessionMutation) :
    m.isTurn = true ∧ m.isTranscript = false ∧ m.isSessionEnd = false ∨
      m.isTurn = false ∧ m.isTranscript = true ∧ m.isSessionEnd = false ∨
      m.isTurn = false ∧ m.isTranscript = false ∧ m.isSessionEnd = true := by
  cases hm : m.payload <;> simp [isTurn, isTranscript, isSessionEnd, hm]

theorem coalesceKey_eq_none {m : QueuedSessionMutation} : m.coalesceKey = none ↔ m.isTurn := by
  cases hm : m.payload <;> simp [coalesceKey, isTurn, hm]

theorem transcriptMutationId_ne (sessionId localId other : String) :
    transcriptMutationId sessionId localId ≠ "session_end:" ++ other := by
  intro h
  have h := congrArg String.toList h
  simp [transcriptMutationId, String.toList_append] at h

theorem kind_of_coalesceKey {m x : QueuedSessionMutation} (h : m.coalesceKey = x.coalesceKey) :
    m.isTranscript = x.isTranscript ∧ m.isSessionEnd = x.isSessionEnd ∧ m.isTurn = x.isTurn := by
  cases hm : m.payload <;> cases hx : x.payload <;> simp only [coalesceKey, hm, hx, reduceCtorEq] at h <;>
    simp only [isTranscript, isSessionEnd, isTurn, hm, hx, and_self]
  · exact absurd (Option.some.inj h).symm (transcriptMutationId_ne _ _ _)
  · exact absurd (Option.some.inj h) (transcriptMutationId_ne _ _ _)

namespace Covers

theorem isTurn_eq {m x : QueuedSessionMutation} (h : Covers m x) : m.isTurn = x.isTurn := by
  unfold Covers at h
  split at h
  · simp_all
  · exact (kind_of_coalesceKey h.1).2.2

theorem refl (x : QueuedSessionMutation) : Covers x x := by
  unfold Covers
  split
  · exact ⟨‹_›, rfl⟩
  · exact ⟨rfl, le_refl _⟩

theorem trans {m n x : QueuedSessionMutation} (h : Covers m n) (h' : Covers n x) : Covers m x := by
  have hn := h'.isTurn_eq
  unfold Covers at h h' ⊢
  rw [hn] at h
  split at h
  · rename_i hx
    rw [if_pos hx] at h' ⊢
    exact ⟨h.1, h.2.trans h'.2⟩
  · rename_i hx
    rw [if_neg hx] at h' ⊢
    exact ⟨h.1.trans h'.1, h'.2.trans h.2⟩

@[simp] theorem retried_left (m x : QueuedSessionMutation) (attempts : Nat) (nextAttemptAt : Int) :
    Covers (m.retried attempts nextAttemptAt) x ↔ Covers m x :=
  Iff.rfl

@[simp] theorem retried_right (m x : QueuedSessionMutation) (attempts : Nat) (nextAttemptAt : Int) :
    Covers m (x.retried attempts nextAttemptAt) ↔ Covers m x :=
  Iff.rfl

theorem superseded {q : Queue} {m x : QueuedSessionMutation} (h : Covers m x) (hm : Superseded q m) :
    Superseded q x := by
  obtain ⟨hend, begin', hbegin, hturn, hlt⟩ := hm
  have hm : m.isTurn = false := by rcases m.kinds with hk | hk | hk <;> simp_all
  have hx : ¬ x.isTurn := by rw [← h.isTurn_eq, hm]; simp
  unfold Covers at h
  rw [if_neg hx] at h
  exact ⟨(kind_of_coalesceKey h.1).2.1 ▸ hend, begin', hbegin, hturn, lt_of_le_of_lt h.2 hlt⟩

end Covers

namespace CoveredBy

theorem of_mem {q : Queue} {x : QueuedSessionMutation} (h : x ∈ q) : CoveredBy q x := ⟨x, h, .refl x⟩

theorem mono {q q' : Queue} {x : QueuedSessionMutation} (h : CoveredBy q x) (hsub : q ⊆ q') : CoveredBy q' x :=
  let ⟨m, hm, hcovers⟩ := h
  ⟨m, hsub hm, hcovers⟩

theorem trans {q q' : Queue} {x : QueuedSessionMutation} (h : CoveredBy q x)
    (hall : ∀ m ∈ q, Covers m x → CoveredBy q' m) : CoveredBy q' x := by
  obtain ⟨m, hm, hcovers⟩ := h
  obtain ⟨n, hn, hcovers'⟩ := hall m hm hcovers
  exact ⟨n, hn, hcovers'.trans hcovers⟩

theorem append {q q' : Queue} {x : QueuedSessionMutation} :
    CoveredBy (q ++ q') x ↔ CoveredBy q x ∨ CoveredBy q' x := by
  unfold CoveredBy
  simp only [List.mem_append, or_and_right, exists_or]

end CoveredBy

theorem Superseded.mono {q q' : Queue} {x : QueuedSessionMutation} (h : Superseded q x) (hsub : q ⊆ q') :
    Superseded q' x :=
  let ⟨hend, m, hm, hlater⟩ := h
  ⟨hend, m, hsub hm, hlater⟩

theorem putMutation_subset (next : QueuedSessionMutation) (q : Queue) : putMutation next q ⊆ next :: q := by
  induction q with
  | nil => simp [putMutation]
  | cons queued rest ih =>
      unfold putMutation
      split
      · split
        · exact List.cons_subset_cons _ (List.subset_cons_self _ _)
        · exact List.subset_cons_self _ _
      · intro m hm
        rcases List.mem_cons.mp hm with rfl | hm
        · simp
        · rcases List.mem_cons.mp (ih hm) with rfl | hm <;> simp_all

theorem putMutation_append_subset (next : QueuedSessionMutation) (q later : Queue) :
    putMutation next q ++ later ⊆ q ++ next :: later := by
  intro m hm
  rcases List.mem_append.mp hm with hm | hm
  · rcases List.mem_cons.mp (putMutation_subset next q hm) with rfl | hm <;> simp_all
  · simp [hm]

theorem cons_subset_append_cons (next : QueuedSessionMutation) (q later : Queue) :
    next :: q ⊆ q ++ next :: later := by
  intro m hm
  rcases List.mem_cons.mp hm with rfl | hm <;> simp_all

theorem mergeQueuedSessionMutations_subset (earlier later : Queue) :
    mergeQueuedSessionMutations earlier later ⊆ earlier ++ later := by
  induction later generalizing earlier with
  | nil => simp [mergeQueuedSessionMutations]
  | cons next later ih =>
      intro m hm
      have hm := ih (putMutation next earlier) hm
      rcases List.mem_append.mp hm with hm | hm
      · rcases List.mem_cons.mp (putMutation_subset next earlier hm) with rfl | hm <;> simp_all
      · simp [hm]

theorem prune_subset (q : Queue) : pruneSessionEndsSupersededByLaterTurnBegins q ⊆ q := by
  unfold pruneSessionEndsSupersededByLaterTurnBegins
  split
  · exact List.Subset.refl _
  · exact List.filter_subset_self _

section

variable {p : QueuedSessionMutation → Bool}

theorem IdsApart.mono {q q' : Queue} (h : IdsApart p q') (hsub : q ⊆ q') : IdsApart p q :=
  fun x hx hp m hm => h x (hsub hx) hp m (hsub hm)

theorem covers_of_coalescesWith {next queued : QueuedSessionMutation} (h : next.coalescesWith queued)
    (hapart : p queued → next.mutationId = queued.mutationId → next.isTurn = queued.isTurn) :
    (p queued → Covers (if shouldReplaceCoalescedMutation queued next then next else queued) queued) ∧
      Covers (if shouldReplaceCoalescedMutation queued next then next else queued) next := by
  unfold coalescesWith at h
  split at h
  case h_1 key hkey =>
    have heq : queued.coalesceKey = next.coalesceKey := by simpa [hkey] using h
    obtain ⟨htranscript, hend, hturn⟩ := kind_of_coalesceKey heq
    have hnext : ¬ next.isTurn := by rw [← coalesceKey_eq_none, hkey]; simp
    have hqueued : ¬ queued.isTurn := by rwa [hturn]
    have hkind : (queued.isTranscript && next.isTranscript || queued.isSessionEnd && next.isSessionEnd) = true := by
      rcases next.kinds with h | h | h <;> simp_all
    by_cases hle : queued.observedAt ≤ next.observedAt
    · have hreplace : shouldReplaceCoalescedMutation queued next = true := by
        simp [shouldReplaceCoalescedMutation, hkind, hle]
      rw [hreplace, if_pos rfl]
      exact ⟨fun _ => by simp only [Covers, if_neg hqueued]; exact ⟨heq.symm, hle⟩, .refl next⟩
    · have hreplace : shouldReplaceCoalescedMutation queued next = false := by
        simp [shouldReplaceCoalescedMutation, hkind, hle]
      rw [hreplace, if_neg (by simp)]
      exact ⟨fun _ => .refl queued, by
        simp only [Covers, if_neg hnext]; exact ⟨heq, le_of_lt (not_le.mp hle)⟩⟩
  case h_2 hkey =>
    have hid : queued.mutationId = next.mutationId := by simpa using h
    have hnext : next.isTurn := coalesceKey_eq_none.mp hkey
    have hreplace : shouldReplaceCoalescedMutation queued next = true := by
      rcases next.kinds with h | h | h <;> simp_all [shouldReplaceCoalescedMutation]
    rw [hreplace, if_pos rfl]
    refine ⟨fun hp => ?_, .refl next⟩
    have hqueued : queued.isTurn := by rw [← hapart hp hid.symm]; exact hnext
    simp only [Covers, if_pos hqueued]
    exact ⟨hnext, hid.symm⟩

theorem putMutation_covers {next : QueuedSessionMutation} {q : Queue} (hapart : IdsApart p (next :: q))
    {x : QueuedSessionMutation} (hp : p x) (hx : x ∈ next :: q) : CoveredBy (putMutation next q) x := by
  induction q with
  | nil => exact .of_mem (by simpa [putMutation] using hx)
  | cons queued rest ih =>
      have hrest : IdsApart p (next :: rest) :=
        hapart.mono (List.cons_subset_cons _ (List.subset_cons_self _ _))
      unfold putMutation
      split
      case isTrue hcoalesces =>
        obtain ⟨hqueued, hnext⟩ := covers_of_coalescesWith hcoalesces
          fun hp => hapart queued (by simp) hp next (by simp)
        rcases List.mem_cons.mp hx with rfl | hx
        · exact ⟨_, List.mem_cons_self, hnext⟩
        rcases List.mem_cons.mp hx with rfl | hx
        · exact ⟨_, List.mem_cons_self, hqueued hp⟩
        · exact .of_mem (List.mem_cons_of_mem _ hx)
      case isFalse =>
        rcases List.mem_cons.mp hx with rfl | hx
        · exact (ih hrest List.mem_cons_self).mono (List.subset_cons_self _ _)
        rcases List.mem_cons.mp hx with rfl | hx
        · exact .of_mem List.mem_cons_self
        · exact (ih hrest (List.mem_cons_of_mem _ hx)).mono (List.subset_cons_self _ _)

theorem merge_covers {earlier later : Queue} (hrespects : RespectsCovers p)
    (hapart : IdsApart p (earlier ++ later)) {x : QueuedSessionMutation} (hp : p x) (hx : x ∈ earlier ++ later) :
    CoveredBy (mergeQueuedSessionMutations earlier later) x := by
  induction later generalizing earlier x with
  | nil => exact .of_mem (by simpa [mergeQueuedSessionMutations] using hx)
  | cons next later ih =>
      have hput := putMutation_append_subset next earlier later
      have hfirst := hapart.mono (cons_subset_append_cons next earlier later)
      have hmerge := fun x => @ih (putMutation next earlier) (hapart.mono hput) x
      have hx : x ∈ next :: earlier ∨ x ∈ later := by
        rcases List.mem_append.mp hx with hx | hx
        · exact .inl (List.mem_cons_of_mem _ hx)
        · rcases List.mem_cons.mp hx with rfl | hx
          · exact .inl List.mem_cons_self
          · exact .inr hx
      rcases hx with hx | hx
      · exact (putMutation_covers hfirst hp hx).trans fun m hm hcovers =>
          hmerge m (hrespects m x hcovers hp) (List.mem_append_left _ hm)
      · exact hmerge x hp (List.mem_append_right _ hx)

end

theorem prune_covers {q : Queue} {x : QueuedSessionMutation} (hx : x ∈ q) :
    CoveredBy (pruneSessionEndsSupersededByLaterTurnBegins q) x ∨ Superseded q x := by
  unfold pruneSessionEndsSupersededByLaterTurnBegins
  split
  case h_1 => exact .inl (.of_mem hx)
  case h_2 latest hlatest =>
    by_cases hkept : (!x.isSessionEnd || decide (latest ≤ x.observedAt)) = true
    · exact .inl (.of_mem (List.mem_filter.mpr ⟨hx, hkept⟩))
    · right
      simp only [Bool.or_eq_true, Bool.not_eq_eq_eq_not, Bool.not_true, decide_eq_true_eq, not_or,
        Bool.not_eq_false, not_le] at hkept
      have hmem := List.max?_mem hlatest
      obtain ⟨m, hm, rfl⟩ := List.mem_map.mp hmem
      exact ⟨hkept.1, m, (List.mem_filter.mp hm).1, (List.mem_filter.mp hm).2, hkept.2⟩

end DevPilot.Outbox
