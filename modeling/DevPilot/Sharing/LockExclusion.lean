import DevPilot.Sharing.StateSharingLock

/-!
Who may be inside the lock, and the runs in which stale locks are removed with enough
care that a live holder's directory stays.
-/

namespace DevPilot.Sharing

open Runs

namespace Stage

def holding : Stage → Bool
  | writeOwner | running | release => true
  | _ => false

def past : Stage → Bool
  | writeOwner | running | release | returned _ => true
  | _ => false

def judged? : Stage → Option ℕ
  | readOwner _ judged _ | judge _ judged _ _ | removeStale _ judged => some judged
  | _ => none

end Stage

namespace World

variable {w : World} {i j : ℕ} {c : Caller}

structure Kept (w : World) : Prop where
  exclusive : ∀ i j, w.executes i = true → w.executes j = true → i = j
  untouched : ∀ r ∈ w.removals, r.held = true → r.remover = r.maker

/-- A stale lock is removed only if it is still the directory that was looked at, and a
directory in which no owner was found is judged stale only if its maker does not hold it. -/
def CarefulAt (w : World) (c : Caller) (now : ℤ) : Stage → Prop
  | .removeStale _ judged => ∀ dir, w.lockDir = some dir → dir.maker = judged
  | .judge _ judged mtimeMs none => w.isStale c mtimeMs none now = true → w.holds judged = false
  | _ => True

def Careful (w : World) : Event → Prop
  | .proceed caller now =>
    ∀ c, w.callers caller = some c → w.dead c.process = false → w.CarefulAt c now c.stage
  | _ => True

instance (w : World) (c : Caller) (now : ℤ) : ∀ stage, Decidable (w.CarefulAt c now stage)
  | .removeStale _ judged =>
    decidable_of_iff (w.lockDir.all fun dir => decide (dir.maker = judged)) <| by
      simp [CarefulAt, Option.all_eq_true]
  | .judge _ judged mtimeMs none =>
    inferInstanceAs (Decidable (w.isStale c mtimeMs none now = true → w.holds judged = false))
  | .judge _ _ _ (some _) | .queued | .mkdirHome | .mkdir _ | .writeOwner | .running | .release | .stat _
  | .readOwner .. | .refused _ | .returned _ => inferInstanceAs (Decidable True)

instance (w : World) : ∀ e, Decidable (w.Careful e)
  | .call .. | .die _ => inferInstanceAs (Decidable True)
  | .proceed caller now =>
    match hc : w.callers caller with
    | none => isTrue fun _ h => by rw [hc] at h; cases h
    | some c => decidable_of_iff (w.dead c.process = false → w.CarefulAt c now c.stage) <| by
        simp [Careful, hc]

def Past (w : World) (i : ℕ) : Prop := ∃ c, w.callers i = some c ∧ c.stage.past = true

/-- If the lock directory is the one that `i` has made, this owner is of its process. -/
def OwnerOf (w : World) (i : ℕ) (owner : LockOwner) : Prop :=
  ∀ dir, w.lockDir = some dir → dir.maker = i → ∃ c, w.callers i = some c ∧ owner.pid = c.process

/-- If the lock directory is the one that `i` has made, `i` does not hold it any more. -/
def Abandoned (w : World) (i : ℕ) : Prop :=
  ∀ dir, w.lockDir = some dir → dir.maker = i → w.holds i = false

structure Inv (w : World) : Prop where
  fresh : ∀ i, w.nextCaller ≤ i → w.callers i = none
  held : ∀ i, w.holds i = true → ∃ dir, w.lockDir = some dir ∧ dir.maker = i
  owner : ∀ dir, w.lockDir = some dir → ∀ owner, dir.owner = some owner → w.OwnerOf dir.maker owner
  made : ∀ dir, w.lockDir = some dir → w.Past dir.maker
  judged : ∀ i c judged, w.callers i = some c → c.stage.judged? = some judged → w.Past judged
  judgedOwner : ∀ i c s judged mtimeMs owner, w.callers i = some c →
    c.stage = .judge s judged mtimeMs (some owner) → w.OwnerOf judged owner
  stale : ∀ i c s judged, w.callers i = some c → c.stage = .removeStale s judged → w.Abandoned judged
  untouched : ∀ r ∈ w.removals, r.held = true → r.remover = r.maker

theorem inv_init : ({} : World).Inv where
  fresh := by simp
  held := by simp [holds]
  owner := by simp
  made := by simp
  judged := by simp
  judgedOwner := by simp
  stale := by simp
  untouched := by simp

theorem holds_iff : w.holds i = true ↔
    ∃ c, w.callers i = some c ∧ w.dead c.process = false ∧ c.stage.holding = true := by
  simp only [holds, Option.any_eq_true, Bool.and_eq_true, isProcessAlive, Bool.not_eq_true',
    decide_eq_true_eq]
  refine exists_congr fun c => and_congr_right fun _ => and_congr_right fun _ => ?_
  cases c.stage <;> simp [Stage.holding]

theorem setCaller_callers (w : World) (i j : ℕ) (c : Caller) :
    (w.setCaller i c).callers j = if j = i then some c else w.callers j := Function.update_apply ..

theorem holds_setCaller_ne (hj : j ≠ i) (c : Caller) : (w.setCaller i c).holds j = w.holds j := by
  simp [holds, setCaller_callers, hj, isProcessAlive, setCaller]

theorem holds_of_setCaller (hc : w.callers i = some c) {c' : Caller} (hprocess : c'.process = c.process)
    (hholding : c'.stage.holding = true → c.stage.holding = true)
    (h : (w.setCaller i c').holds j = true) : w.holds j = true := by
  by_cases hj : j = i
  · subst hj
    obtain ⟨c₁, hc₁, hdead, hhold⟩ := holds_iff.mp h
    rw [setCaller_callers, if_pos rfl] at hc₁
    obtain rfl := Option.some.inj hc₁
    exact holds_iff.mpr ⟨c, hc, hprocess ▸ hdead, hholding hhold⟩
  · rwa [holds_setCaller_ne hj] at h

theorem Past.setCaller (h : w.Past j) (hc : w.callers i = some c) {c' : Caller}
    (hpast : c.stage.past = true → c'.stage.past = true) : (w.setCaller i c').Past j := by
  obtain ⟨c₁, hc₁, hpast₁⟩ := h
  by_cases hj : j = i
  · subst hj
    obtain rfl := Option.some.inj (hc₁.symm.trans hc)
    exact ⟨c', by rw [setCaller_callers, if_pos rfl], hpast hpast₁⟩
  · exact ⟨c₁, by rw [setCaller_callers, if_neg hj, hc₁], hpast₁⟩

theorem OwnerOf.setCaller {owner : LockOwner} (h : w.OwnerOf j owner) (hc : w.callers i = some c)
    {c' : Caller} (hprocess : c'.process = c.process) : (w.setCaller i c').OwnerOf j owner := by
  intro dir hdir hmaker
  obtain ⟨c₁, hc₁, hpid⟩ := h dir hdir hmaker
  by_cases hj : j = i
  · subst hj
    obtain rfl := Option.some.inj (hc₁.symm.trans hc)
    exact ⟨c', by rw [setCaller_callers, if_pos rfl], hpid.trans hprocess.symm⟩
  · exact ⟨c₁, by rw [setCaller_callers, if_neg hj, hc₁], hpid⟩

theorem Abandoned.setCaller (h : w.Abandoned j) (hc : w.callers i = some c) {c' : Caller}
    (hprocess : c'.process = c.process)
    (hholding : c'.stage.holding = true → c.stage.holding = true) : (w.setCaller i c').Abandoned j := by
  intro dir hdir hmaker
  by_contra hhold
  rw [Bool.not_eq_false] at hhold
  have hfalse := h dir hdir hmaker
  rw [holds_of_setCaller hc hprocess hholding hhold] at hfalse
  cases hfalse

theorem Inv.setStage (h : w.Inv) (hc : w.callers i = some c) {c' : Caller}
    (hprocess : c'.process = c.process)
    (hholding : c'.stage.holding = true → c.stage.holding = true)
    (hpast : c.stage.past = true → c'.stage.past = true)
    (hjudged : ∀ judged, c'.stage.judged? = some judged → w.Past judged)
    (howner : ∀ s judged mtimeMs owner, c'.stage = .judge s judged mtimeMs (some owner) →
      w.OwnerOf judged owner)
    (hstale : ∀ s judged, c'.stage = .removeStale s judged → w.Abandoned judged) :
    (w.setCaller i c').Inv := by
  have hcallers : ∀ j c₁, (w.setCaller i c').callers j = some c₁ → c₁ = c' ∨ w.callers j = some c₁ := by
    intro j c₁ hc₁
    rw [setCaller_callers] at hc₁
    split_ifs at hc₁
    · exact .inl (Option.some.inj hc₁).symm
    · exact .inr hc₁
  constructor
  case fresh =>
    intro j hj
    rw [setCaller_callers, if_neg]
    · exact h.fresh j hj
    · rintro rfl
      rw [h.fresh j hj] at hc
      cases hc
  case held =>
    intro j hj
    exact h.held j (holds_of_setCaller hc hprocess hholding hj)
  case owner =>
    intro dir hdir owner ho
    exact (h.owner dir hdir owner ho).setCaller hc hprocess
  case made =>
    intro dir hdir
    exact (h.made dir hdir).setCaller hc hpast
  case judged =>
    intro j c₁ judged hc₁ hj
    rcases hcallers j c₁ hc₁ with rfl | hc₁
    · exact (hjudged judged hj).setCaller hc hpast
    · exact (h.judged j c₁ judged hc₁ hj).setCaller hc hpast
  case judgedOwner =>
    intro j c₁ s judged mtimeMs owner hc₁ hj
    rcases hcallers j c₁ hc₁ with rfl | hc₁
    · exact (howner s judged mtimeMs owner hj).setCaller hc hprocess
    · exact (h.judgedOwner j c₁ s judged mtimeMs owner hc₁ hj).setCaller hc hprocess
  case stale =>
    intro j c₁ s judged hc₁ hj
    rcases hcallers j c₁ hc₁ with rfl | hc₁
    · exact (hstale s judged hj).setCaller hc hprocess hholding
    · exact (h.stale j c₁ s judged hc₁ hj).setCaller hc hprocess hholding
  case untouched => exact h.untouched

theorem Inv.mkdir (h : w.Inv) (hc : w.callers i = some c) (hnone : w.lockDir = none)
    (hpast : c.stage.past = false) (now : ℤ) :
    (setCaller { w with lockDir := some ⟨i, now, none⟩ } i { c with stage := .writeOwner }).Inv := by
  have hother : ∀ j, w.holds j = false := by
    intro j
    by_contra hj
    obtain ⟨dir, hdir, -⟩ := h.held j (by simpa using hj)
    rw [hnone] at hdir
    cases hdir
  have hpastOf : ∀ j, w.Past j → j ≠ i ∧
      Past (setCaller { w with lockDir := some ⟨i, now, none⟩ } i { c with stage := .writeOwner }) j := by
    intro j hj
    refine ⟨?_, Past.setCaller hj hc fun _ => rfl⟩
    rintro rfl
    obtain ⟨c₁, hc₁, hpast₁⟩ := hj
    rw [Option.some.inj (hc₁.symm.trans hc), hpast] at hpast₁
    cases hpast₁
  have hcallers : ∀ j c₁, (setCaller { w with lockDir := some ⟨i, now, none⟩ } i
      { c with stage := .writeOwner }).callers j = some c₁ →
        (c₁.stage = .writeOwner ∧ j = i) ∨ w.callers j = some c₁ := by
    intro j c₁ hc₁
    rw [setCaller_callers] at hc₁
    split_ifs at hc₁ with hj
    · exact .inl ⟨by rw [← Option.some.inj hc₁], hj⟩
    · exact .inr hc₁
  constructor
  case fresh =>
    intro j hj
    rw [setCaller_callers, if_neg]
    · exact h.fresh j hj
    · rintro rfl
      rw [h.fresh j hj] at hc
      cases hc
  case held =>
    intro j hj
    by_cases hne : j = i
    · exact ⟨_, rfl, hne.symm⟩
    · rw [holds_setCaller_ne hne] at hj
      exact absurd ((hother j).symm.trans hj) (by simp)
  case owner =>
    intro dir hdir owner ho
    cases hdir
    cases ho
  case made =>
    intro dir hdir
    cases hdir
    exact ⟨{ c with stage := .writeOwner }, by rw [setCaller_callers, if_pos rfl], rfl⟩
  case judged =>
    intro j c₁ judged hc₁ hj
    rcases hcallers j c₁ hc₁ with ⟨hstage, -⟩ | hc₁
    · rw [hstage] at hj
      cases hj
    · exact (hpastOf judged (h.judged j c₁ judged hc₁ hj)).2
  case judgedOwner =>
    intro j c₁ s judged mtimeMs owner hc₁ hj dir hdir hmaker
    rcases hcallers j c₁ hc₁ with ⟨hstage, -⟩ | hc₁
    · rw [hstage] at hj
      cases hj
    · cases hdir
      exact absurd hmaker.symm (hpastOf judged (h.judged j c₁ judged hc₁ (by rw [hj]; rfl))).1
  case stale =>
    intro j c₁ s judged hc₁ hj dir hdir hmaker
    rcases hcallers j c₁ hc₁ with ⟨hstage, -⟩ | hc₁
    · rw [hstage] at hj
      cases hj
    · cases hdir
      exact absurd hmaker.symm (hpastOf judged (h.judged j c₁ judged hc₁ (by rw [hj]; rfl))).1
  case untouched => exact h.untouched

theorem Inv.writeOwner (h : w.Inv) (hc : w.callers i = some c) {dir : LockDir}
    (hdir : w.lockDir = some dir) (hmaker : dir.maker = i) (mtimeMs acquiredAt : ℤ) :
    Inv { w with lockDir := some ⟨dir.maker, mtimeMs, some ⟨c.process, acquiredAt⟩⟩ } := by
  have howner : ∀ j owner, w.OwnerOf j owner →
      OwnerOf { w with lockDir := some ⟨dir.maker, mtimeMs, some ⟨c.process, acquiredAt⟩⟩ } j owner := by
    intro j owner hj dir' hdir' hmaker'
    cases hdir'
    exact hj dir hdir hmaker'
  constructor
  case fresh => exact h.fresh
  case held =>
    intro j hj
    obtain ⟨dir', hdir', hmaker'⟩ := h.held j hj
    obtain rfl := Option.some.inj (hdir'.symm.trans hdir)
    exact ⟨_, rfl, hmaker'⟩
  case owner =>
    intro dir' hdir' owner ho dir'' hdir'' hmaker''
    cases hdir'
    cases hdir''
    cases ho
    exact ⟨c, by rw [hmaker, hc], rfl⟩
  case made =>
    intro dir' hdir'
    cases hdir'
    exact h.made dir hdir
  case judged => exact h.judged
  case judgedOwner =>
    exact fun j c₁ s judged mtime owner hc₁ hj => howner _ _ (h.judgedOwner j c₁ s judged mtime owner hc₁ hj)
  case stale =>
    intro j c₁ s judged hc₁ hj dir' hdir' hmaker'
    cases hdir'
    exact h.stale j c₁ s judged hc₁ hj dir hdir hmaker'
  case untouched => exact h.untouched

theorem Inv.remove (h : w.Inv) (hc : w.callers i = some c) {c' : Caller}
    (hprocess : c'.process = c.process) (halone : ∀ j, w.holds j = true → j = i)
    (hholding : c'.stage.holding = false) (hpast : c.stage.past = true → c'.stage.past = true)
    (hjudged : c'.stage.judged? = none) : ((w.rm i).setCaller i c').Inv := by
  have hrm : ∀ j, (w.rm i).callers j = w.callers j := by
    intro j
    rw [rm]
    split <;> rfl
  have hdir : ((w.rm i).setCaller i c').lockDir = none := by
    change (w.rm i).lockDir = none
    rw [rm]
    split
    · assumption
    · rfl
  have hcallers : ∀ j c₁, ((w.rm i).setCaller i c').callers j = some c₁ → c₁ = c' ∨ w.callers j = some c₁ := by
    intro j c₁ hc₁
    rw [setCaller_callers, hrm] at hc₁
    split_ifs at hc₁
    · exact .inl (Option.some.inj hc₁).symm
    · exact .inr hc₁
  have hnone : ∀ j, ((w.rm i).setCaller i c').holds j = false := by
    intro j
    by_contra hj
    obtain ⟨c₁, hc₁, hdead, hhold⟩ := holds_iff.mp (by simpa using hj)
    by_cases hji : j = i
    · rw [setCaller_callers, if_pos hji] at hc₁
      rw [← Option.some.inj hc₁, hholding] at hhold
      cases hhold
    · rw [setCaller_callers, if_neg hji, hrm] at hc₁
      have hdead : w.dead c₁.process = false := by
        change (w.rm i).dead _ = _ at hdead
        rw [rm] at hdead
        split at hdead <;> exact hdead
      exact hji (halone j (holds_iff.mpr ⟨c₁, hc₁, hdead, hhold⟩))
  constructor
  case fresh =>
    intro j hj
    have hle : w.nextCaller ≤ j := by
      change (w.rm i).nextCaller ≤ j at hj
      rw [rm] at hj
      split at hj <;> exact hj
    rw [setCaller_callers, if_neg, hrm]
    · exact h.fresh j hle
    · rintro rfl
      rw [h.fresh j hle] at hc
      cases hc
  case held =>
    intro j hj
    rw [hnone] at hj
    cases hj
  case owner =>
    intro dir hdir'
    rw [hdir] at hdir'
    cases hdir'
  case made =>
    intro dir hdir'
    rw [hdir] at hdir'
    cases hdir'
  case judged =>
    intro j c₁ judged hc₁ hj
    rcases hcallers j c₁ hc₁ with rfl | hc₁
    · rw [hjudged] at hj
      cases hj
    · obtain ⟨c₂, hc₂, hpast₂⟩ := h.judged j c₁ judged hc₁ hj
      exact Past.setCaller ⟨c₂, (hrm judged).trans hc₂, hpast₂⟩ ((hrm i).trans hc) hpast
  case judgedOwner =>
    intro j c₁ s judged mtimeMs owner _ _ dir hdir'
    rw [hdir] at hdir'
    cases hdir'
  case stale =>
    intro j c₁ s judged _ _ dir hdir'
    rw [hdir] at hdir'
    cases hdir'
  case untouched =>
    intro r hr hheld
    change r ∈ (w.rm i).removals at hr
    rw [rm] at hr
    split at hr
    · exact h.untouched r hr hheld
    · rcases List.mem_append.mp hr with hr | hr
      · exact h.untouched r hr hheld
      · rw [List.mem_singleton.mp hr] at hheld ⊢
        exact (halone _ hheld).symm

theorem Inv.setLocks (h : w.Inv) (locks : ℕ → Option ℕ) : Inv { w with destinationLocks := locks } :=
  ⟨h.fresh, h.held, h.owner, h.made, h.judged, h.judgedOwner, h.stale, h.untouched⟩

theorem Inv.leave {acquired : Bool}
    (h : (w.setCaller i { c with stage := .returned acquired, released := true }).Inv) :
    (w.leave i c acquired).Inv := by
  rw [World.leave]
  split_ifs
  · exact h.setLocks _
  · exact h

theorem Inv.goto (h : w.Inv) (hc : w.callers i = some c) {c' : Caller} (hprocess : c'.process = c.process)
    (hholding : c'.stage.holding = false) (hjudged : c'.stage.judged? = none)
    (hpast : c.stage.past = true → c'.stage.past = true) : (w.setCaller i c').Inv := by
  refine h.setStage hc hprocess (fun hhold => ?_) hpast (fun judged hj => ?_) (fun s judged m o hj => ?_)
    fun s judged hj => ?_
  · rw [hholding] at hhold
    cases hhold
  · rw [hjudged] at hj
    cases hj
  · rw [hj] at hjudged
    cases hjudged
  · rw [hj] at hjudged
    cases hjudged

theorem Inv.no_holder (h : w.Inv) {judged : ℕ} (habandoned : w.Abandoned judged)
    (hsame : ∀ dir, w.lockDir = some dir → dir.maker = judged) (j : ℕ) : w.holds j = false := by
  by_contra hj
  rw [Bool.not_eq_false] at hj
  obtain ⟨dir, hdir, rfl⟩ := h.held j hj
  have hfalse := habandoned dir hdir (hsame dir hdir)
  rw [← hsame dir hdir, hj] at hfalse
  cases hfalse

theorem dead_of_isStale {mtimeMs now : ℤ} {owner : LockOwner}
    (h : w.isStale c mtimeMs (some owner) now = true) : w.dead owner.pid = true := by
  unfold isStale at h
  simp only at h
  split_ifs at h
  simpa [isProcessAlive] using h

theorem holds_of_dead (hc : w.callers i = some c) (hdead : w.dead c.process = true) :
    w.holds i = false := by
  simp [holds, hc, isProcessAlive, hdead]

theorem inv_advance (h : w.Inv) (hc : w.callers i = some c) (hlive : w.dead c.process = false) {now : ℤ}
    (hcareful : w.Careful (.proceed i now)) : (w.advance i c now).Inv := by
  have hcareful := hcareful c hc hlive
  have hholds : c.stage.holding = true → w.holds i = true := fun hhold => holds_iff.mpr ⟨c, hc, hlive, hhold⟩
  cases hs : c.stage with
  | queued =>
      simp only [advance, hs]
      split_ifs
      · exact h.goto hc rfl rfl rfl (by simp [hs, Stage.past])
      · exact h
  | mkdirHome =>
      simp only [advance, hs]
      exact h.goto hc rfl rfl rfl (by simp [hs, Stage.past])
  | mkdir startedAt =>
      simp only [advance, hs]
      split
      · next hnone => exact h.mkdir hc hnone (by rw [hs]; rfl) now
      · exact h.goto hc rfl rfl rfl (by simp [hs, Stage.past])
  | writeOwner =>
      obtain ⟨dir, hdir, hmaker⟩ := h.held i (hholds (by rw [hs]; rfl))
      simp only [advance, hs, hdir]
      refine (h.writeOwner hc hdir hmaker now now).setStage hc rfl ?_ ?_ ?_ ?_ ?_
      · exact fun _ => by rw [hs]; rfl
      · exact fun _ => rfl
      · intro judged hj
        cases hj
      · intro s judged m o hj
        cases hj
      · intro s judged hj
        cases hj
  | running =>
      simp only [advance, hs]
      refine h.setStage hc rfl ?_ ?_ ?_ ?_ ?_
      · exact fun _ => by rw [hs]; rfl
      · exact fun _ => rfl
      · intro judged hj
        cases hj
      · intro s judged m o hj
        cases hj
      · intro s judged hj
        cases hj
  | release =>
      simp only [advance, hs]
      refine Inv.leave (h.remove hc rfl (fun j hj => ?_) rfl (fun _ => rfl) rfl)
      obtain ⟨dir, hdir, rfl⟩ := h.held j hj
      obtain ⟨dir', hdir', rfl⟩ := h.held i (hholds (by rw [hs]; rfl))
      rw [Option.some.inj (hdir.symm.trans hdir')]
  | stat startedAt =>
      simp only [advance, hs]
      split
      · exact h.goto hc rfl rfl rfl (by simp [hs, Stage.past])
      · next dir hdir =>
        refine h.setStage hc rfl nofun (by simp [hs, Stage.past]) ?_ nofun nofun
        intro judged hj
        cases hj
        exact h.made dir hdir
  | readOwner startedAt judged mtimeMs =>
      simp only [advance, hs]
      refine h.setStage hc rfl nofun (by simp [hs, Stage.past]) ?_ ?_ nofun
      · intro judged' hj
        cases hj
        exact h.judged i c judged hc (by rw [hs]; rfl)
      · intro s judged' m owner hj dir hdir hmaker
        have ⟨_, hjudged, _, hread⟩ := Stage.judge.inj hj
        rw [hdir, Option.bind_some] at hread
        subst hjudged
        rw [← hmaker]
        exact h.owner dir hdir owner hread dir hdir rfl
  | judge startedAt judged mtimeMs owner =>
      simp only [advance, hs]
      split_ifs with hstale
      · refine h.setStage hc rfl nofun (by simp [hs, Stage.past]) ?_ nofun ?_
        · intro judged' hj
          cases hj
          exact h.judged i c judged hc (by rw [hs]; rfl)
        · intro s judged' hj dir hdir hmaker
          cases hj
          cases owner with
          | none =>
              rw [hs] at hcareful
              exact hcareful hstale
          | some owner =>
              obtain ⟨maker, hmakerCaller, hpid⟩ := h.judgedOwner i c _ _ _ owner hc hs dir hdir hmaker
              exact holds_of_dead hmakerCaller (hpid ▸ dead_of_isStale hstale)
      · exact h.goto hc rfl rfl rfl (by simp [hs, Stage.past])
  | removeStale startedAt judged =>
      rw [hs] at hcareful
      simp only [advance, hs]
      have hnone := h.no_holder (h.stale i c startedAt judged hc hs) hcareful
      refine h.remove hc rfl (fun j hj => ?_) rfl (by simp [hs, Stage.past]) rfl
      rw [hnone j] at hj
      cases hj
  | refused startedAt =>
      simp only [advance, hs]
      split_ifs
      · exact Inv.leave (h.goto hc rfl rfl rfl fun _ => rfl)
      · exact h.goto hc rfl rfl rfl (by simp [hs, Stage.past])
  | returned ok =>
      simp only [advance, hs]
      exact h

theorem Inv.die (h : w.Inv) (process : ℕ) :
    Inv { w with dead := Function.update w.dead process true } := by
  have hholds : ∀ j, holds { w with dead := Function.update w.dead process true } j = true →
      w.holds j = true := by
    intro j hj
    obtain ⟨c, hc, hdead, hhold⟩ := holds_iff.mp hj
    refine holds_iff.mpr ⟨c, hc, ?_, hhold⟩
    change Function.update w.dead process true c.process = false at hdead
    rw [Function.update_apply] at hdead
    split_ifs at hdead
    exact hdead
  have habandoned : ∀ j, w.Abandoned j →
      Abandoned { w with dead := Function.update w.dead process true } j := by
    intro j hj dir hdir hmaker
    by_contra hhold
    have hfalse := hj dir hdir hmaker
    rw [hholds j (by simpa using hhold)] at hfalse
    cases hfalse
  exact ⟨h.fresh, fun j hj => h.held j (hholds j hj), h.owner, h.made, h.judged, h.judgedOwner,
    fun j c s judged hc hj => habandoned judged (h.stale j c s judged hc hj), h.untouched⟩

theorem Inv.add (h : w.Inv) {c : Caller} (hqueued : c.stage = .queued) (locks : ℕ → Option ℕ) :
    Inv { w.setCaller w.nextCaller c with
      destinationLocks := locks
      nextCaller := w.nextCaller + 1 } := by
  have hnone := h.fresh w.nextCaller le_rfl
  have hne : ∀ j c₁, w.callers j = some c₁ → j ≠ w.nextCaller := by
    rintro j c₁ hc₁ rfl
    rw [hnone] at hc₁
    cases hc₁
  have hold : ∀ j c₁, w.callers j = some c₁ → (w.setCaller w.nextCaller c).callers j = some c₁ := by
    intro j c₁ hc₁
    rw [setCaller_callers, if_neg (hne j c₁ hc₁), hc₁]
  have hcallers : ∀ j c₁, (w.setCaller w.nextCaller c).callers j = some c₁ →
      c₁.stage = .queued ∨ w.callers j = some c₁ := by
    intro j c₁ hc₁
    rw [setCaller_callers] at hc₁
    split_ifs at hc₁
    · exact .inl (by rw [← Option.some.inj hc₁, hqueued])
    · exact .inr hc₁
  have hholds : ∀ j, (w.setCaller w.nextCaller c).holds j = true → w.holds j = true := by
    intro j hj
    obtain ⟨c₁, hc₁, hdead, hhold⟩ := holds_iff.mp hj
    rcases hcallers j c₁ hc₁ with hstage | hc₁
    · rw [hstage] at hhold
      cases hhold
    · exact holds_iff.mpr ⟨c₁, hc₁, hdead, hhold⟩
  have hpast : ∀ j, w.Past j → (w.setCaller w.nextCaller c).Past j :=
    fun j ⟨c₁, hc₁, hp⟩ => ⟨c₁, hold j c₁ hc₁, hp⟩
  have howner : ∀ j o, w.OwnerOf j o → (w.setCaller w.nextCaller c).OwnerOf j o := by
    intro j o ho dir hdir hmaker
    obtain ⟨c₁, hc₁, hpid⟩ := ho dir hdir hmaker
    exact ⟨c₁, hold j c₁ hc₁, hpid⟩
  have habandoned : ∀ j, w.Abandoned j → (w.setCaller w.nextCaller c).Abandoned j := by
    intro j hj dir hdir hmaker
    by_contra hhold
    have hfalse := hj dir hdir hmaker
    rw [hholds j (by simpa using hhold)] at hfalse
    cases hfalse
  constructor
  case fresh =>
    intro j hj
    have hlt : w.nextCaller < j := hj
    change (w.setCaller w.nextCaller c).callers j = none
    rw [setCaller_callers, if_neg hlt.ne', h.fresh j hlt.le]
  case held => exact fun j hj => h.held j (hholds j hj)
  case owner => exact fun dir hdir o ho => howner _ o (h.owner dir hdir o ho)
  case made => exact fun dir hdir => hpast _ (h.made dir hdir)
  case judged =>
    intro j c₁ judged hc₁ hj
    rcases hcallers j c₁ hc₁ with hstage | hc₁
    · rw [hstage] at hj
      cases hj
    · exact hpast judged (h.judged j c₁ judged hc₁ hj)
  case judgedOwner =>
    intro j c₁ s judged m o hc₁ hj
    rcases hcallers j c₁ hc₁ with hstage | hc₁
    · rw [hstage] at hj
      cases hj
    · exact howner judged o (h.judgedOwner j c₁ s judged m o hc₁ hj)
  case stale =>
    intro j c₁ s judged hc₁ hj
    rcases hcallers j c₁ hc₁ with hstage | hc₁
    · rw [hstage] at hj
      cases hj
    · exact habandoned judged (h.stale j c₁ s judged hc₁ hj)
  case untouched => exact h.untouched

theorem Inv.call (h : w.Inv) (process : ℕ) (options : LockOptions) : (w.call process options).Inv := by
  rw [World.call]
  split_ifs
  · exact ⟨fun i hi => h.fresh i (Nat.le_of_succ_le hi), h.held, h.owner, h.made, h.judged, h.judgedOwner,
      h.stale, h.untouched⟩
  · exact h.add rfl _

theorem inv_step (e : Event) (h : w.Inv) (hcareful : w.Careful e) : (w.step e).Inv := by
  cases e with
  | call process options => exact h.call process options
  | proceed caller now =>
      rw [step]
      split
      · exact h
      · next c hc =>
        split_ifs with hdead
        · exact h
        · exact inv_advance h hc (by simpa using hdead) hcareful
  | die process => exact h.die process

theorem kept_of_inv (h : w.Inv) : w.Kept := by
  refine ⟨fun i j hi hj => ?_, h.untouched⟩
  have hholds : ∀ k, w.executes k = true → w.holds k = true := by
    intro k hk
    simp only [executes, holds, Option.any_eq_true, Bool.and_eq_true, decide_eq_true_eq] at hk ⊢
    obtain ⟨c, hc, hlive, hstage⟩ := hk
    exact ⟨c, hc, hlive, .inr (.inl hstage)⟩
  obtain ⟨dir, hdir, rfl⟩ := h.held i (hholds i hi)
  obtain ⟨dir', hdir', rfl⟩ := h.held j (hholds j hj)
  rw [Option.some.inj (hdir.symm.trans hdir')]

/-- The lock keeps its promises in every run whose stale removals are careful. -/
theorem lock_exclusive {events : List Event} (h : Along step Careful {} events) :
    Kept (run step {} events) :=
  kept_of_inv (run_invariant_along (I := Inv) (fun _ e hw hcareful => inv_step e hw hcareful) inv_init h)

/-- The holder dies while it runs, and the next call removes its lock when it is stale. -/
theorem lock_exclusive_recovered : Kept (run step {} ([Event.call 1 {}, Event.call 2 {}] ++
    List.replicate 4 (Event.proceed 0 0) ++ [Event.die 1] ++ List.replicate 9 (Event.proceed 1 300000))) :=
  lock_exclusive (by decide)

/-- Two calls judge the lock of a dead holder stale. One of them removes it and enters; the
other then removes the directory by its path, which is the first one's, and enters too. -/
theorem fresh_lock_removed :
    let events : List Event := [Event.call 1 {}, Event.call 2 {}, Event.call 3 {}] ++
      List.replicate 4 (Event.proceed 0 0) ++ [Event.die 1] ++
        List.replicate 6 (Event.proceed 1 300000) ++ List.replicate 9 (Event.proceed 2 300000) ++
          List.replicate 3 (Event.proceed 1 300000)
    ¬ Kept (run step {} events) := by
  intro events hkept
  have hexecutes : (run step {} events).executes 1 = true ∧ (run step {} events).executes 2 = true ∧
      ⟨1, 2, true⟩ ∈ (run step {} events).removals := by
    decide
  exact absurd (hkept.exclusive 1 2 hexecutes.1 hexecutes.2.1) (by decide)

end World

end DevPilot.Sharing
