import DevPilot.CatchUp.CursorSafety
import DevPilot.CatchUp.Reconnect

/-!
What holds of the cursors of a catch-up, in every run of it.
-/

namespace DevPilot.CatchUp

open CatchUpState

/-- Up to the cursor every change was applied or may be skipped, behind a base that is
where the run began, or was current when a complete snapshot began. -/
def Ledger.SafeCursor (start : ℕ) (l : Ledger) (cursor : ℕ) : Prop :=
  ∃ base, (base = start ∨ ∃ begun ∈ l.snapshots, base ≤ begun) ∧ cursor ≤ max base l.current ∧
    ∀ change ∈ l.log, base < change.cursor → change.cursor ≤ cursor → change.cursor ∈ l.broughtIn

namespace Ledger

variable {start : ℕ} {l l' : Ledger} {cursor : ℕ}

theorem safeCursor_start (start : ℕ) (l : Ledger) : l.SafeCursor start start :=
  ⟨start, Or.inl rfl, le_max_left _ _, fun _ _ hlt hle => absurd hle (by omega)⟩

/-- The log grows behind the current cursor, and nothing that was done is lost. -/
structure Grows (l l' : Ledger) : Prop where
  log : ∀ change ∈ l'.log, change ∈ l.log ∨ l.current < change.cursor
  current : l.current ≤ l'.current
  broughtIn : l.broughtIn ⊆ l'.broughtIn
  snapshots : l.snapshots ⊆ l'.snapshots

theorem SafeCursor.grows (h : l.SafeCursor start cursor) (hgrows : l.Grows l') :
    l'.SafeCursor start cursor := by
  obtain ⟨base, hbase, hmax, hall⟩ := h
  refine ⟨base, hbase.imp_right fun ⟨begun, hmem, hle⟩ => ⟨begun, hgrows.snapshots hmem, hle⟩, ?_, ?_⟩
  · exact hmax.trans (max_le_max le_rfl hgrows.current)
  · intro change hmem hlt hle
    rcases hgrows.log change hmem with hold | hnew
    · exact hgrows.broughtIn (hall change hold hlt hle)
    · omega

theorem grows_append {change : ChangeEntry} (h : l.current < change.cursor) :
    l.Grows { l with log := l.log ++ [change], current := change.cursor } := by
  refine ⟨fun c hc => ?_, h.le, fun _ => id, fun _ => id⟩
  rcases List.mem_append.mp hc with hold | hnew
  · exact Or.inl hold
  · rw [List.mem_singleton.mp hnew]
    exact Or.inr h

theorem safeCursor_of_snapshot {begun : ℕ} (hmem : begun ∈ l.snapshots) (hbegun : cursor ≤ begun) :
    l.SafeCursor start cursor :=
  ⟨cursor, Or.inr ⟨begun, hmem, hbegun⟩, le_max_left _ _, fun _ _ hlt hle => absurd hle (by omega)⟩

theorem SafeCursor.extend (h : l.SafeCursor start cursor) {next : ℕ} (hnext : next ≤ l.current)
    (hpage : ∀ change ∈ l.log, cursor < change.cursor → change.cursor ≤ next → change.cursor ∈ l.broughtIn) :
    l.SafeCursor start next := by
  obtain ⟨base, hbase, hmax, hall⟩ := h
  refine ⟨base, hbase, hnext.trans (le_max_right _ _), fun change hmem hlt hle => ?_⟩
  rcases Nat.lt_or_ge cursor change.cursor with hbehind | hbefore
  · exact hpage change hmem hbehind hle
  · exact hall change hmem hlt hbefore

end Ledger

namespace CatchUpState

variable {params : CatchUpParams} {s : CatchUpState}

def PhaseSound (start : ℕ) (s : CatchUpState) : Phase → Prop
  | .fetching => True
  | .readingCurrentCursor _ _ => True
  | .refreshing base begun _ => begun ≤ s.current ∧ (base ≤ begun ∨ s.SafeCursor start base)
  | .persistingBase base _ => s.SafeCursor start base
  | .applying changes nextCursor =>
    nextCursor ≤ s.current ∧ (∀ change ∈ changes, change.cursor ≤ nextCursor) ∧
      ∀ change ∈ s.log, s.afterCursor < change.cursor → change.cursor ≤ nextCursor → change ∈ changes
  | .persistingPart cursor => s.SafeCursor start cursor
  | .persistingLast cursor => s.SafeCursor start cursor
  | .persistingPage cursor => s.SafeCursor start cursor
  | .finished (.ok cursor _) => s.SafeCursor start cursor
  | .finished _ => True

/-- The cursors the run has given away, and the one it fetches from. -/
structure Kept (start : ℕ) (s : CatchUpState) : Prop where
  afterCursor : s.SafeCursor start s.afterCursor
  checkpoints : ∀ p ∈ s.checkpoints, s.SafeCursor start p.1

structure Sound (start : ℕ) (s : CatchUpState) : Prop extends s.Kept start where
  phase : s.PhaseSound start s.phase

variable {start : ℕ}

theorem Kept.call (h : s.Kept start) {phase : Phase} (hphase : s.PhaseSound start phase) :
    (s.call phase).Sound start :=
  ⟨⟨h.afterCursor, h.checkpoints⟩, by cases phase <;> exact hphase⟩

theorem Kept.finish (h : s.Kept start) {result : CatchUpResult}
    (hresult : s.PhaseSound start (.finished result)) : (s.finish result).Sound start :=
  ⟨⟨h.afterCursor, h.checkpoints⟩, by cases result <;> exact hresult⟩

theorem Kept.refresh (h : s.Kept start) {base : ℕ} (trigger : SnapshotTrigger)
    (hbase : base ≤ s.current ∨ s.SafeCursor start base) : (s.refresh base trigger).Sound start :=
  h.call ⟨le_rfl, hbase⟩

theorem Kept.runSnapshotRepair (h : s.Kept start) {cursor : ℕ} (trigger : SnapshotTrigger)
    (hcursor : cursor ≤ s.current ∨ s.SafeCursor start cursor) :
    (s.runSnapshotRepair params cursor trigger).Sound start := by
  unfold CatchUpState.runSnapshotRepair
  split
  · exact h.call trivial
  · exact h.refresh trigger hcursor

theorem Kept.nextPage (h : s.Kept start) : (s.nextPage params).Sound start := by
  have hnext : { s with pageIndex := s.pageIndex + 1 }.Kept start := ⟨h.afterCursor, h.checkpoints⟩
  unfold CatchUpState.nextPage
  split
  · exact ⟨⟨h.afterCursor, h.checkpoints⟩, trivial⟩
  · exact hnext.runSnapshotRepair _ (Or.inr h.afterCursor)

theorem Kept.checkpoint (h : s.Kept start) {cursor : ℕ} (hcursor : s.SafeCursor start cursor)
    (reason : CheckpointReason) {phase : Phase} (hphase : s.PhaseSound start phase) :
    (s.checkpoint cursor reason phase).Sound start := by
  refine ⟨⟨h.afterCursor, fun p hp => ?_⟩, by cases phase <;> exact hphase⟩
  rcases List.mem_append.mp hp with hold | hnew
  · exact h.checkpoints p hold
  · rw [List.mem_singleton.mp hnew]
    exact hcursor

theorem Kept.repaired (h : s.Kept start) {base : ℕ} (hbase : s.SafeCursor start base) (done : Bool)
    (trigger : SnapshotTrigger) : (s.repaired params base done trigger).Sound start := by
  have hmoved : ∀ awaiting, { s with
      afterCursor := base, forceSnapshotRefresh := false,
      snapshotCursorAwaitingFinalPersist := awaiting }.Kept start := fun _ => ⟨hbase, h.checkpoints⟩
  cases trigger with
  | pageBudget => exact h.finish hbase
  | cursorGone => exact (hmoved _).nextPage
  | forcedSnapshot => exact (hmoved _).nextPage

theorem Kept.afterFetch (h : s.Kept start) {result : FetchResult} (hanswer : s.Answers result) :
    (s.afterFetch params result).Sound start := by
  cases result with
  | cursorGone current => exact h.runSnapshotRepair _ (Or.inl hanswer)
  | error => exact h.finish trivial
  | ok changes nextCursor =>
      obtain ⟨hnext, hpage, hall⟩ := hanswer
      have hle : ∀ change ∈ changes, change.cursor ≤ nextCursor := fun change hmem => (hpage change hmem).2
      simp only [CatchUpState.afterFetch]
      split
      · exact h.runSnapshotRepair _ (Or.inl hnext)
      · split
        · next hempty =>
          refine h.finish (h.afterCursor.extend hnext fun change hmem hlt hle => ?_)
          rw [List.length_eq_zero_iff.mp hempty] at hall
          exact absurd (hall change hmem hlt hle) (List.not_mem_nil)
        · exact h.call ⟨hnext, hle, hall⟩

theorem safeCursor_of_applied (hafter : s.SafeCursor start s.afterCursor) {changes : List ChangeEntry}
    {nextCursor : ℕ} (hphase : s.PhaseSound start (.applying changes nextCursor)) {result : ApplyResult}
    {broughtIn : List ℕ} (hresult : result.Safe changes broughtIn) (hsub : broughtIn ⊆ s.broughtIn)
    {cursor : ℕ} (hcursor : normalizeApplySafeCursor result nextCursor = some cursor) :
    s.SafeCursor start cursor := by
  obtain ⟨hnext, hle, hall⟩ := hphase
  have hextend : cursor ≤ nextCursor →
      (∀ change ∈ changes, change.cursor ≤ cursor → change.cursor ∈ broughtIn) → s.SafeCursor start cursor :=
    fun hcursor hbrought => hafter.extend (hcursor.trans hnext) fun change hmem hlt hchange =>
      hsub (hbrought change (hall change hmem hlt (hchange.trans hcursor)) hchange)
  cases result with
  | void =>
      cases hcursor
      exact hextend le_rfl fun change hmem _ => hresult change hmem
  | complete safe =>
      cases safe with
      | none =>
          cases hcursor
          exact hextend le_rfl fun change hmem _ => hresult change hmem
      | some safe =>
          cases hcursor
          obtain ⟨⟨change, hmem, heq⟩, hbrought⟩ := hresult
          exact hextend (heq ▸ hle change hmem) fun change hmem _ => hbrought change hmem
  | partially safe =>
      cases hcursor
      obtain ⟨⟨change, hmem, heq⟩, hbrought⟩ := hresult
      exact hextend (heq ▸ hle change hmem) hbrought

theorem Kept.afterApply (h : s.Kept start) {changes : List ChangeEntry} {nextCursor : ℕ} {result : ApplyResult}
    (hcursors : ∀ cursor, normalizeApplySafeCursor result nextCursor = some cursor →
      s.SafeCursor start cursor) :
    (s.afterApply params changes nextCursor result).Sound start := by
  unfold CatchUpState.afterApply
  simp only
  split
  · split
    · exact h.finish h.afterCursor
    · next cursor heq =>
      have hsafe := hcursors cursor heq
      split
      · exact h.finish hsafe
      · split
        · exact h.checkpoint hsafe _ hsafe
        · exact h.finish hsafe
  · next heq =>
    have hsafe := hcursors nextCursor (not_not.mp heq)
    have hmoved : { s with afterCursor := nextCursor }.Kept start := ⟨hsafe, h.checkpoints⟩
    split
    · split
      · exact h.finish hsafe
      · split
        · exact h.checkpoint hsafe _ hsafe
        · exact h.finish hsafe
    · split
      · exact hmoved.nextPage
      · split
        · exact h.checkpoint hsafe _ hsafe
        · exact hmoved.nextPage

theorem Kept.grows (h : s.Kept start) {l : Ledger} (hgrows : s.toLedger.Grows l) :
    { s with toLedger := l }.Kept start :=
  ⟨h.afterCursor.grows hgrows, fun p hp => (h.checkpoints p hp).grows hgrows⟩

theorem PhaseSound.append {change : ChangeEntry} (hcurrent : s.current < change.cursor) {phase : Phase}
    (h : s.PhaseSound start phase) :
    PhaseSound start { s with log := s.log ++ [change], current := change.cursor } phase := by
  have hgrows := Ledger.grows_append (l := s.toLedger) hcurrent
  cases phase with
  | refreshing base begun _ =>
      exact ⟨h.1.trans hcurrent.le, h.2.imp_right fun hsafe => hsafe.grows hgrows⟩
  | applying changes nextCursor =>
      obtain ⟨hnext, hle, hall⟩ := h
      refine ⟨hnext.trans hcurrent.le, hle, fun c hmem hlt hc => ?_⟩
      rcases List.mem_append.mp hmem with hold | hnew
      · exact hall c hold hlt hc
      · rw [List.mem_singleton.mp hnew] at hc
        omega
  | finished result =>
      cases result with
      | ok cursor persist => exact Ledger.SafeCursor.grows h hgrows
      | _ => trivial
  | fetching => trivial
  | readingCurrentCursor => trivial
  | persistingBase => exact Ledger.SafeCursor.grows h hgrows
  | persistingPart => exact Ledger.SafeCursor.grows h hgrows
  | persistingLast => exact Ledger.SafeCursor.grows h hgrows
  | persistingPage => exact Ledger.SafeCursor.grows h hgrows

theorem sound_step (h : s.Sound start) {e : Event} (he : s.Admits e) : (s.step params e).Sound start := by
  have hphase := h.phase
  cases e with
  | append change =>
      exact ⟨h.toKept.grows (Ledger.grows_append he), PhaseSound.append he hphase⟩
  | fetched result =>
      cases hwaiting : s.phase <;> simp only [CatchUpState.step, hwaiting] <;> try exact h
      simp only [CatchUpState.Admits, hwaiting] at he
      exact h.toKept.afterFetch he
  | currentCursor cursor =>
      cases hwaiting : s.phase <;> simp only [CatchUpState.step, hwaiting] <;> try exact h
      next base trigger =>
      cases cursor with
      | none => exact h.toKept.finish trivial
      | some cursor =>
          simp only [CatchUpState.Admits, hwaiting] at he
          exact h.toKept.refresh trigger (Or.inl he)
  | refreshed result =>
      cases hwaiting : s.phase <;> simp only [CatchUpState.step, hwaiting] <;> try exact h
      rw [hwaiting] at hphase
      next base begun trigger =>
      split
      · exact h.toKept.finish trivial
      · -- the base was current when the snapshot began, or was safe before
        have hgrows : s.toLedger.Grows { s.toLedger with snapshots := s.snapshots ++ [begun] } :=
          ⟨fun c hc => Or.inl hc, le_rfl, fun _ => id, List.subset_append_left _ _⟩
        have hkept := h.toKept.grows hgrows
        have hbase : Ledger.SafeCursor start { s.toLedger with snapshots := s.snapshots ++ [begun] } base :=
          hphase.2.elim (fun hle => Ledger.safeCursor_of_snapshot (by simp) hle) fun hsafe => hsafe.grows hgrows
        split
        · exact hkept.checkpoint hbase _ hbase
        · exact hkept.repaired hbase _ _
  | applied result broughtIn =>
      cases hwaiting : s.phase <;> simp only [CatchUpState.step, hwaiting] <;> try exact h
      simp only [CatchUpState.Admits, hwaiting] at he
      rw [hwaiting] at hphase
      next changes nextCursor =>
      have hgrows : s.toLedger.Grows { s.toLedger with broughtIn := s.broughtIn ++ broughtIn } :=
        ⟨fun c hc => Or.inl hc, le_rfl, List.subset_append_left _ _, fun _ => id⟩
      have hkept := h.toKept.grows hgrows
      exact hkept.afterApply fun cursor hcursor =>
        safeCursor_of_applied hkept.afterCursor hphase he.2 (List.subset_append_right _ _) hcursor
  | checkpointed done =>
      cases hpersisting : s.phase <;> rw [hpersisting] at hphase <;>
        simp only [CatchUpState.step, hpersisting]
      case persistingBase base trigger =>
        split
        · exact h.toKept.repaired hphase _ _
        · exact h.toKept.finish trivial
      case persistingPart cursor => exact h.toKept.finish hphase
      case persistingLast cursor => exact h.toKept.finish hphase
      case persistingPage cursor =>
        have hmoved : { s with afterCursor := cursor }.Kept start := ⟨hphase, h.checkpoints⟩
        split
        · exact hmoved.nextPage
        · exact h.toKept.finish trivial
      all_goals exact h
  | rejected =>
      cases hwaiting : s.phase <;> simp only [CatchUpState.step, hwaiting]
      case finished => exact h
      all_goals exact h.toKept.finish trivial

def leftBehind (params : CatchUpParams) (s : CatchUpState) : ℕ := 4 * (params.maxPages - (s.pageIndex + 1)) + 3

def left (params : CatchUpParams) (s : CatchUpState) : Phase → ℕ
  | .fetching => 3 + s.leftBehind params
  | .readingCurrentCursor _ .pageBudget => 2
  | .readingCurrentCursor _ _ => 2 + s.leftBehind params
  | .refreshing _ _ .pageBudget => 1
  | .refreshing _ _ _ => 1 + s.leftBehind params
  | .persistingBase _ .pageBudget => 0
  | .persistingBase _ _ => s.leftBehind params
  | .applying _ _ => 1 + s.leftBehind params
  | .persistingPart _ => 0
  | .persistingLast _ => 0
  | .persistingPage _ => s.leftBehind params
  | .finished _ => 0

structure Bounded (params : CatchUpParams) (s : CatchUpState) : Prop where
  fetches : s.fetches ≤ s.pageIndex + 1
  maxFetches : s.fetches ≤ params.maxPages
  calls : s.calls + s.left params s.phase ≤ 4 * params.maxPages + 3

structure BoundedBy (params : CatchUpParams) (n : ℕ) (s : CatchUpState) : Prop where
  fetches : s.fetches ≤ s.pageIndex + 1
  maxFetches : s.fetches ≤ params.maxPages
  calls : s.calls + n ≤ 4 * params.maxPages + 3

variable {n : ℕ}

theorem Bounded.by (h : s.Bounded params) (hn : n ≤ s.left params s.phase) : s.BoundedBy params n :=
  ⟨h.fetches, h.maxFetches, by have := h.calls; omega⟩

theorem BoundedBy.call (h : s.BoundedBy params n) {phase : Phase} (hphase : 1 + s.left params phase ≤ n) :
    (s.call phase).Bounded params :=
  ⟨h.fetches, h.maxFetches, by
    have hleft : (s.call phase).left params phase = s.left params phase := by cases phase <;> rfl
    have := h.calls
    simp only [CatchUpState.call] at hleft ⊢
    omega⟩

theorem BoundedBy.finish (h : s.BoundedBy params n) (result : CatchUpResult) :
    (s.finish result).Bounded params :=
  ⟨h.fetches, h.maxFetches, by have := h.calls; simp only [CatchUpState.finish, left]; omega⟩

theorem BoundedBy.checkpoint (h : s.BoundedBy params n) (cursor : ℕ) (reason : CheckpointReason) {phase : Phase}
    (hphase : 1 + s.left params phase ≤ n) : (s.checkpoint cursor reason phase).Bounded params :=
  ⟨h.fetches, h.maxFetches, (h.call hphase).calls⟩

theorem BoundedBy.runSnapshotRepair (h : s.BoundedBy params n) (cursor : ℕ) {trigger : SnapshotTrigger}
    (htrigger : 1 + s.left params (.readingCurrentCursor cursor trigger) ≤ n) :
    (s.runSnapshotRepair params cursor trigger).Bounded params := by
  unfold CatchUpState.runSnapshotRepair
  split
  · exact h.call htrigger
  · refine h.call ?_
    cases trigger <;> simp only [left] at htrigger ⊢ <;> omega

theorem BoundedBy.nextPage (h : s.BoundedBy params n) (hn : s.leftBehind params ≤ n) :
    (s.nextPage params).Bounded params := by
  obtain ⟨hfetches, hmax, hcalls⟩ := h
  unfold CatchUpState.nextPage
  split
  · next hmore =>
    simp only [leftBehind] at hn
    constructor <;> simp only [CatchUpState.fetch, CatchUpState.call, left, leftBehind] <;> omega
  · next hlast =>
    have hnext : BoundedBy params 3 { s with pageIndex := s.pageIndex + 1 } :=
      ⟨by simp only; omega, hmax, by simp only [leftBehind] at hn ⊢; omega⟩
    exact hnext.runSnapshotRepair _ le_rfl

theorem BoundedBy.repaired (h : s.BoundedBy params n) (base : ℕ) (done : Bool) {trigger : SnapshotTrigger}
    (hn : s.left params (.persistingBase base trigger) ≤ n) :
    (s.repaired params base done trigger).Bounded params := by
  cases trigger with
  | pageBudget => exact h.finish _
  | cursorGone =>
      exact BoundedBy.nextPage (n := n) ⟨h.fetches, h.maxFetches, h.calls⟩ hn
  | forcedSnapshot =>
      exact BoundedBy.nextPage (n := n) ⟨h.fetches, h.maxFetches, h.calls⟩ hn

theorem BoundedBy.afterApply (h : s.BoundedBy params n) (changes : List ChangeEntry) (nextCursor : ℕ)
    (result : ApplyResult) (hn : 1 + s.leftBehind params ≤ n) :
    (s.afterApply params changes nextCursor result).Bounded params := by
  have hmoved : BoundedBy params n { s with afterCursor := nextCursor } :=
    ⟨h.fetches, h.maxFetches, h.calls⟩
  have hleft : s.leftBehind params ≤ n := by omega
  unfold CatchUpState.afterApply
  simp only
  split
  · split
    · exact h.finish _
    · split
      · exact h.finish _
      · split
        · exact h.checkpoint _ _ (by simp only [left]; omega)
        · exact h.finish _
  · split
    · split
      · exact h.finish _
      · split
        · exact h.checkpoint _ _ (by simp only [left]; omega)
        · exact h.finish _
    · split
      · exact hmoved.nextPage hleft
      · split
        · exact h.checkpoint _ _ (by simp only [left]; omega)
        · exact hmoved.nextPage hleft

theorem bounded_step (h : s.Bounded params) (e : Event) : (s.step params e).Bounded params := by
  have hby : ∀ {n}, n ≤ s.left params s.phase → s.BoundedBy params n := fun hn => h.by hn
  cases e with
  | append change =>
      have hleft : ∀ phase, (s.step params (.append change)).left params phase = s.left params phase := by
        intro phase
        cases phase <;> rfl
      exact ⟨h.fetches, h.maxFetches, (hleft s.phase).symm ▸ h.calls⟩
  | fetched result =>
      cases hwaiting : s.phase <;> simp only [CatchUpState.step, hwaiting] <;> try exact h
      rw [hwaiting] at hby
      cases result with
      | error => exact (hby le_rfl).finish _
      | cursorGone current => exact (hby le_rfl).runSnapshotRepair _ (by simp only [left]; omega)
      | ok changes nextCursor =>
          simp only [CatchUpState.afterFetch]
          split
          · exact (hby le_rfl).runSnapshotRepair _ (by simp only [left]; omega)
          · split
            · exact (hby le_rfl).finish _
            · exact (hby le_rfl).call (by simp only [left]; omega)
  | currentCursor cursor =>
      cases hwaiting : s.phase <;> simp only [CatchUpState.step, hwaiting] <;> try exact h
      rw [hwaiting] at hby
      next base trigger =>
      cases cursor with
      | none => exact (hby le_rfl).finish _
      | some cursor => exact (hby le_rfl).call (by cases trigger <;> simp only [left] <;> omega)
  | refreshed result =>
      cases hwaiting : s.phase <;> simp only [CatchUpState.step, hwaiting] <;> try exact h
      rw [hwaiting] at hby
      next base begun trigger =>
      have hbound := hby le_rfl
      split
      · exact hbound.finish _
      · have hkept : BoundedBy params _ { s with snapshots := s.snapshots ++ [begun] } :=
          ⟨hbound.fetches, hbound.maxFetches, hbound.calls⟩
        split
        · exact hkept.checkpoint _ _ (by cases trigger <;> simp only [left, leftBehind] <;> omega)
        · exact hkept.repaired _ _ (by cases trigger <;> simp only [left, leftBehind] <;> omega)
  | applied result broughtIn =>
      cases hwaiting : s.phase <;> simp only [CatchUpState.step, hwaiting] <;> try exact h
      rw [hwaiting] at hby
      next changes nextCursor =>
      have hbound := hby le_rfl
      have hkept : BoundedBy params _ { s with broughtIn := s.broughtIn ++ broughtIn } :=
        ⟨hbound.fetches, hbound.maxFetches, hbound.calls⟩
      exact hkept.afterApply _ _ _ (by simp only [left, leftBehind]; omega)
  | checkpointed done =>
      cases hwaiting : s.phase <;> simp only [CatchUpState.step, hwaiting] <;> try exact h
      all_goals rw [hwaiting] at hby
      case persistingBase base trigger =>
        split
        · exact (hby le_rfl).repaired _ _ le_rfl
        · exact (hby le_rfl).finish _
      case persistingPart => exact (hby le_rfl).finish _
      case persistingLast => exact (hby le_rfl).finish _
      case persistingPage cursor =>
        have hbound := hby le_rfl
        split
        · exact BoundedBy.nextPage (n := s.left params (.persistingPage cursor))
            ⟨hbound.fetches, hbound.maxFetches, hbound.calls⟩ le_rfl
        · exact hbound.finish _
  | rejected =>
      cases hwaiting : s.phase <;> simp only [CatchUpState.step, hwaiting]
      case finished => exact h
      all_goals exact (hby le_rfl).finish _

def IsGiven (s : CatchUpState) (cursor : ℕ) : Prop :=
  (∃ reason, (cursor, reason) ∈ s.checkpoints) ∨ ∃ persist, s.phase = .finished (.ok cursor persist)

end CatchUpState

/-- Whatever the server appends and answers and however the callbacks end, there is a
bounded number of calls, at most `maxPages` of them for pages, and each cursor that is
checkpointed or returned is safe. -/
theorem catch_up_safe (params : CatchUpParams) (log : List ChangeEntry) (current : ℕ) (events : List Event)
    (h : Runs.Along (CatchUpState.step params) CatchUpState.Admits (.begin params log current) events) :
    let s := Runs.run (CatchUpState.step params) (.begin params log current) events
    s.fetches ≤ params.maxPages ∧ s.calls ≤ 4 * params.maxPages + 3 ∧
      ∀ cursor, s.IsGiven cursor → s.SafeCursor (params.afterCursor.getD 0) cursor := by
  have hpages : 1 ≤ params.maxPages := by simp [CatchUpParams.maxPages]
  have hsound : (CatchUpState.begin params log current).Sound (params.afterCursor.getD 0) := by
    unfold CatchUpState.begin
    split <;> exact ⟨⟨Ledger.safeCursor_start _ _, by simp [CatchUpState.fetch, CatchUpState.call]⟩, trivial⟩
  have hbounded : (CatchUpState.begin params log current).Bounded params := by
    unfold CatchUpState.begin
    split <;> constructor <;>
      simp only [CatchUpState.fetch, CatchUpState.call, CatchUpState.left, CatchUpState.leftBehind] <;> omega
  have hsafe := Runs.run_invariant_along (I := fun s => s.Sound (params.afterCursor.getD 0))
    (p := CatchUpState.Admits) (fun s e hs he => CatchUpState.sound_step hs he) hsound h
  have hcount := Runs.run_invariant (I := CatchUpState.Bounded params)
    (fun s e hs => CatchUpState.bounded_step hs e) hbounded events
  refine ⟨hcount.maxFetches, by have := hcount.calls; omega, fun cursor hgiven => ?_⟩
  rcases hgiven with ⟨reason, hmem⟩ | ⟨persist, hfinished⟩
  · exact hsafe.checkpoints _ hmem
  · have hphase := hsafe.phase
    rw [hfinished] at hphase
    exact hphase

def afterLongOffline : CatchUpParams :=
  { afterCursor := some 0, changesPageLimit := 10, forceSnapshotRefresh := true }

def feedChange (cursor : ℕ) : ChangeEntry := { cursor := cursor, kind := "feed", entityId := "self" }

def snapshotThenPage : List Event :=
  [.fetched (.ok [feedChange 1] 1), .currentCursor (some 1), .refreshed none, .checkpointed true,
    .append (feedChange 2), .fetched (.ok [feedChange 2] 2), .applied (.complete (some 2)) [2],
    .checkpointed true]

theorem catch_up_safe_after_snapshot :
    (Runs.run (CatchUpState.step afterLongOffline) (.begin afterLongOffline [feedChange 1] 1)
      snapshotThenPage).SafeCursor 0 2 :=
  (catch_up_safe afterLongOffline [feedChange 1] 1 snapshotThenPage (by decide)).2.2 2
    (Or.inr ⟨false, by decide⟩)

/-- With no page allowed one is fetched, and the snapshot that covers a change can be older
than the cursor that is returned. -/
theorem catch_up_not_literally_safe :
    (∃ params : CatchUpParams, params.maxChangesPagesPerResume = some 0 ∧
      (CatchUpState.begin params [] 0).fetches = 1) ∧
    ∃ (params : CatchUpParams) (log : List ChangeEntry) (current : ℕ) (events : List Event) (cursor : ℕ),
      Runs.Along (CatchUpState.step params) CatchUpState.Admits (.begin params log current) events ∧
      let s := Runs.run (CatchUpState.step params) (.begin params log current) events
      s.phase = .finished (.ok cursor false) ∧
        ∃ change ∈ s.log, params.afterCursor.getD 0 < change.cursor ∧ change.cursor ≤ cursor ∧
          change.cursor ∉ s.broughtIn ∧ ∀ begun ∈ s.snapshots, begun < cursor :=
  ⟨⟨{ afterCursor := none, changesPageLimit := 1, maxChangesPagesPerResume := some 0 }, rfl, rfl⟩,
    afterLongOffline, [feedChange 1], 1, snapshotThenPage, 2, by decide, by decide⟩

/-- The result of `applyPlannedChangeActions` as the catch-up reads it. -/
def ApplyResult.ofApplier : PlannedChangesApplyResult → ApplyResult
  | .complete safeAdvanceCursor _ => .complete safeAdvanceCursor
  | .partially safeAdvanceCursor _ _ _ _ => .partially safeAdvanceCursor

theorem advance_complete {host : Host} {log : TaskLog} {total : ℕ} {changes : List ChangeEntry}
    {cursor safe : Option ℕ} {processed all : ℕ}
    (h : advance host log total changes cursor processed = .complete safe all) :
    all = processed + changes.length := by
  induction changes generalizing cursor processed with
  | nil =>
      cases h
      rfl
  | cons change rest ih =>
      rw [advance] at h
      split at h
      · cases h
      · rw [ih h, List.length_cons]
        omega

theorem safe_ofApplier {host : Host} {changes : List ChangeEntry} {result : PlannedChangesApplyResult}
    (h : applyPlannedChangeActions host (planSyncActionsFromChanges changes) = some result)
    (hsorted : changes.Pairwise (·.cursor < ·.cursor)) (broughtIn : ChangeEntry → Bool)
    (hsafe : CursorSafe (broughtIn ·) changes result) :
    (ApplyResult.ofApplier result).Safe changes ((changes.filter broughtIn).map (·.cursor)) := by
  obtain ⟨hcursor, hpassed⟩ := hsafe
  have hmem : ∀ change ∈ changes.take result.processedChanges,
      change.cursor ∈ (changes.filter broughtIn).map (·.cursor) := fun change hchange =>
    List.mem_map.mpr ⟨change, List.mem_filter.mpr ⟨List.mem_of_mem_take hchange, hpassed change hchange⟩, rfl⟩
  -- the reported cursor is that of a change of the page, behind which nothing was passed
  have hlast : ∀ cursor, result.safeAdvanceCursor = some cursor →
      ∃ last ∈ changes, last.cursor = cursor ∧
        ∀ change ∈ changes, change.cursor ≤ cursor → change ∈ changes.take result.processedChanges := by
    intro cursor hsome
    rw [hcursor, Option.map_eq_some_iff] at hsome
    obtain ⟨last, hlast, rfl⟩ := hsome
    have hlastMem := List.mem_of_getLast? hlast
    refine ⟨last, List.mem_of_mem_take hlastMem, rfl, fun change hchange hle => ?_⟩
    rw [← List.take_append_drop result.processedChanges changes] at hchange hsorted
    rcases List.mem_append.mp hchange with hbefore | hbehind
    · exact hbefore
    · have hlt := (List.pairwise_append.mp hsorted).2.2 last hlastMem change hbehind
      omega
  cases result with
  | complete safe processed =>
      obtain ⟨log, -, hadvance⟩ := Option.map_eq_some_iff.mp h
      have hall : changes.take processed = changes := by
        rw [advance_complete hadvance, Nat.zero_add]
        exact List.take_length
      have hbrought : ∀ change ∈ changes, change.cursor ∈ (changes.filter broughtIn).map (·.cursor) :=
        fun change hchange => hmem change (by simpa [PlannedChangesApplyResult.processedChanges, hall] using hchange)
      cases safe with
      | none => exact hbrought
      | some cursor =>
          obtain ⟨last, hlastMem, heq, -⟩ := hlast cursor rfl
          exact ⟨⟨last, hlastMem, heq⟩, hbrought⟩
  | partially safe blocked reason processed blockedChanges =>
      cases safe with
      | none => trivial
      | some cursor =>
          obtain ⟨last, hlastMem, heq, hbefore⟩ := hlast cursor rfl
          exact ⟨⟨last, hlastMem, heq⟩, fun change hchange hle => hmem change (hbefore change hchange hle)⟩

theorem safe_ofApplier_oneSession : (ApplyResult.ofApplier (.complete (some 1) 1)).Safe oneSession [1] :=
  safe_ofApplier (by decide : applyPlannedChangeActions caughtUp
    (planSyncActionsFromChanges oneSession) = some (.complete (some 1) 1)) (by decide) (fun _ => true)
    ⟨rfl, fun _ _ => rfl⟩

end DevPilot.CatchUp
