import DevPilot.Lib.Runs

/-!
The lease directory that replication runners hold a job or a scope by, under
any interleaving of the file operations of their calls.
-/

namespace DevPilot.Replication

open Runs

variable {O : Type}

structure LeaseRecord (O : Type) where
  leaseId : Nat
  attempt : Nat
  ownerId : O
  acquiredAtMs : Nat
  renewedAtMs : Nat
  expiresAtMs : Nat
deriving DecidableEq

/-- The directory a rename put in place, and its `lease.json` where that parses. -/
structure LeaseDirectory (O : Type) where
  inode : Nat
  record : Option (LeaseRecord O)

/-- The next file operation of a call. `retries` are the passes of the
acquisition loop that are left after the current one. -/
inductive LeaseCall (O : Type)
  | acquiring (ownerId : O) (nowMs ttlMs retries : Nat)
  /-- It removes the directory of the lease it found expired or stealable. -/
  | clearing (ownerId : O) (nowMs ttlMs retries previousAttempt : Nat)
  | placing (ownerId : O) (nowMs ttlMs retries previousAttempt : Nat)
  | checking (ownerId : O) (nowMs ttlMs retries : Nat)
  | cleaning (ownerId : O) (nowMs ttlMs retries : Nat)
  | renewing (ownerId : O) (nowMs ttlMs : Nat)
  | writing (next : LeaseRecord O)
  /-- It renames that file, written into the directory `inode`, to `lease.json`. -/
  | replacing (next : LeaseRecord O) (inode : Nat)
  | releasing (ownerId : O)
  | removing (ownerId : O)
  | done

def LeaseCall.owner? : LeaseCall O → Option O
  | .acquiring o .. | .clearing o .. | .placing o .. | .checking o .. | .cleaning o .. => some o
  | .renewing o .. | .releasing o | .removing o => some o
  | .writing next | .replacing next _ => some next.ownerId
  | .done => none

structure Holding (O : Type) where
  ownerId : O
  expiresAtMs : Nat
deriving DecidableEq

structure LeaseState (O : Type) where
  now : Nat
  disk : Option (LeaseDirectory O)
  calls : List (LeaseCall O)
  /-- The acquisitions that returned `acquired: true` and are not released, by
  lease id, each until the latest `expiresAtMs` its owner was told. -/
  held : Nat → Option (Holding O)
  gone : List O
  nextId : Nat

inductive LeaseEvent (O : Type)
  | tryAcquire (ownerId : O) (ttlMs : Nat)
  | renew (ownerId : O) (ttlMs : Nat)
  | release (ownerId : O)
  /-- The call with this index makes its next file operation. -/
  | advance (i : Nat)
  | tick (ms : Nat)
  | crash (ownerId : O)

/-- The three leases of the source differ in one branch. -/
structure LeaseKind (O : Type) where
  daemon : O → Bool
  /-- The file lease looks at the owner again after a rename that failed. -/
  rechecksOwner : Bool

namespace LeaseState

def record? (s : LeaseState O) : Option (LeaseRecord O) := s.disk.bind LeaseDirectory.record

def Believed (s : LeaseState O) (leaseId : Nat) : Prop := ∃ h ∈ s.held leaseId, s.now < h.expiresAtMs

def Exclusive (s : LeaseState O) : Prop := ∀ a b, s.Believed a → s.Believed b → a = b

/-- Nobody holds the lease that is on disk: it is expired, or it was released,
or its owner is gone. -/
def Unheld (s : LeaseState O) : Prop :=
  ∀ r ∈ s.record?, s.now < r.expiresAtMs → s.held r.leaseId = none

def OnDisk (s : LeaseState O) : Prop :=
  ∀ leaseId, ∀ h ∈ s.held leaseId, s.now < h.expiresAtMs →
    ∃ r ∈ s.record?, r.leaseId = leaseId ∧ h.expiresAtMs ≤ r.expiresAtMs

theorem OnDisk.exclusive {s : LeaseState O} (hs : s.OnDisk) : s.Exclusive := by
  rintro a b ⟨ha, hheldA, hnowA⟩ ⟨hb, hheldB, hnowB⟩
  obtain ⟨r, hr, rfl, -⟩ := hs a ha hheldA hnowA
  obtain ⟨r', hr', rfl, -⟩ := hs b hb hheldB hnowB
  obtain rfl := Option.mem_unique hr hr'
  rfl

theorem OnDisk.expired_of_unheld {s : LeaseState O} (hs : s.OnDisk) (hu : s.Unheld) {leaseId : Nat}
    {h : Holding O} (hheld : h ∈ s.held leaseId) : h.expiresAtMs ≤ s.now := by
  by_contra hnow
  obtain ⟨r, hr, rfl, hend⟩ := hs leaseId h hheld (by omega)
  have hnone := hu r hr (by omega)
  rw [hnone] at hheld
  cases hheld

theorem onDisk_congr {s s' : LeaseState O} (hnow : s'.now = s.now) (hdisk : s'.disk = s.disk)
    (hheld : s'.held = s.held) : s'.OnDisk ↔ s.OnDisk := by
  rw [OnDisk, OnDisk, record?, record?, hnow, hdisk, hheld]

theorem OnDisk.clear {s : LeaseState O} (hs : s.OnDisk) (hu : s.Unheld) :
    ({ s with disk := none } : LeaseState O).OnDisk :=
  fun _ _ hheld hnow => absurd (hs.expired_of_unheld hu hheld) (Nat.not_le.mpr hnow)

theorem OnDisk.acquire {s : LeaseState O} (hs : s.OnDisk) (hdisk : s.disk = none)
    (r : LeaseRecord O) : ({ s with
      disk := some ⟨r.leaseId, some r⟩
      held := Function.update s.held r.leaseId (some ⟨r.ownerId, r.expiresAtMs⟩)
      nextId := s.nextId + 1 } : LeaseState O).OnDisk := by
  intro leaseId h hheld hnow
  refine ⟨r, rfl, ?_⟩
  by_cases hid : leaseId = r.leaseId
  · simp only [hid, Function.update_self, Option.mem_def, Option.some.injEq] at hheld
    subst hheld
    exact ⟨hid.symm, le_rfl⟩
  · simp only [Function.update_of_ne hid] at hheld
    obtain ⟨r', hr', -⟩ := hs leaseId h hheld hnow
    rw [record?, hdisk] at hr'
    cases hr'

theorem OnDisk.replace {s : LeaseState O} (hs : s.OnDisk) {next : LeaseRecord O}
    (hspares : s.Unheld ∨
      ∀ r ∈ s.record?, r.leaseId = next.leaseId ∧ r.expiresAtMs ≤ next.expiresAtMs)
    (dir : LeaseDirectory O) : ({ s with
      disk := some { dir with record := some next }
      held := Function.update s.held next.leaseId ((s.held next.leaseId).map fun h =>
        { h with expiresAtMs := max h.expiresAtMs next.expiresAtMs }) } : LeaseState O).OnDisk := by
  -- Whoever believed before believes in the lease that is rewritten.
  have hbefore : ∀ leaseId, ∀ h ∈ s.held leaseId, s.now < h.expiresAtMs →
      leaseId = next.leaseId ∧ h.expiresAtMs ≤ next.expiresAtMs := by
    intro leaseId h hheld hnow
    rcases hspares with hu | hsame
    · exact absurd (hs.expired_of_unheld hu hheld) (Nat.not_le.mpr hnow)
    · obtain ⟨r, hr, rfl, hend⟩ := hs leaseId h hheld hnow
      exact ⟨(hsame r hr).1, hend.trans (hsame r hr).2⟩
  intro leaseId h hheld hnow
  refine ⟨next, rfl, ?_⟩
  by_cases hid : leaseId = next.leaseId
  · simp only [hid, Function.update_self, Option.mem_def, Option.map_eq_some_iff] at hheld
    obtain ⟨h₀, hheld₀, rfl⟩ := hheld
    refine ⟨hid.symm, max_le ?_ le_rfl⟩
    by_cases hnow₀ : s.now < h₀.expiresAtMs
    · exact (hbefore next.leaseId h₀ hheld₀ hnow₀).2
    · simp only [lt_max_iff] at hnow
      omega
  · simp only [Function.update_of_ne hid] at hheld
    exact absurd (hbefore leaseId h hheld hnow).1 hid

variable [DecidableEq O]

/-- `isCliDaemonOwnedLeaseStealable`: the process of the owner is gone. -/
def stealable (k : LeaseKind O) (s : LeaseState O) (ownerId : O) : Bool :=
  k.daemon ownerId && decide (ownerId ∈ s.gone)

/-- One file operation of a call, with what the call does before its next. -/
def stepCall (k : LeaseKind O) (s : LeaseState O) : LeaseCall O → LeaseState O × LeaseCall O
  | .acquiring o nowMs ttlMs retries =>
      match s.record? with
      | none => (s, .placing o nowMs ttlMs retries 0)
      | some existing =>
          if nowMs < existing.expiresAtMs ∧ s.stealable k existing.ownerId = false then (s, .done)
          else (s, .clearing o nowMs ttlMs retries existing.attempt)
  | .clearing o nowMs ttlMs retries previousAttempt =>
      ({ s with disk := none }, .placing o nowMs ttlMs retries previousAttempt)
  | .placing o nowMs ttlMs retries previousAttempt =>
      match s.disk with
      | some _ => (s, .checking o nowMs ttlMs retries)
      | none =>
          ({ s with
              disk := some ⟨s.nextId, some
                ⟨s.nextId, previousAttempt + 1, o, nowMs, nowMs, nowMs + ttlMs⟩⟩
              held := Function.update s.held s.nextId (some ⟨o, nowMs + ttlMs⟩)
              nextId := s.nextId + 1 }, .done)
  | .checking o nowMs ttlMs retries =>
      match s.record? with
      | none => (s, .cleaning o nowMs ttlMs retries)
      | some locked =>
          if nowMs < locked.expiresAtMs ∧
              (k.rechecksOwner && s.stealable k locked.ownerId) = false then (s, .done)
          else (s, .cleaning o nowMs ttlMs retries)
  | .cleaning o nowMs ttlMs retries =>
      ({ s with disk := none }, match retries with
        | 0 => .done
        | retries + 1 => .acquiring o nowMs ttlMs retries)
  | .renewing o nowMs ttlMs =>
      match s.record? with
      | none => (s, .done)
      | some existing =>
          if existing.ownerId = o ∧ nowMs < existing.expiresAtMs then
            (s, .writing { existing with renewedAtMs := nowMs, expiresAtMs := nowMs + ttlMs })
          else (s, .done)
  | .writing next =>
      match s.disk with
      | none => (s, .done)
      | some dir => (s, .replacing next dir.inode)
  | .replacing next inode =>
      match s.disk with
      | none => (s, .done)
      | some dir =>
          if dir.inode = inode then
            ({ s with
                disk := some { dir with record := some next }
                held := Function.update s.held next.leaseId ((s.held next.leaseId).map fun h =>
                  { h with expiresAtMs := max h.expiresAtMs next.expiresAtMs }) }, .done)
          else (s, .done)
  | .releasing o =>
      match s.record? with
      | none => (s, .done)
      | some existing => if existing.ownerId = o then (s, .removing o) else (s, .done)
  | .removing _ => ({ s with disk := none }, .done)
  | .done => (s, .done)

def call (s : LeaseState O) (o : O) (c : LeaseCall O) : LeaseState O :=
  if o ∈ s.gone then s else { s with calls := s.calls ++ [c] }

/-- The acquisitions left when `o` no longer holds any. -/
def without (held : Nat → Option (Holding O)) (o : O) (leaseId : Nat) : Option (Holding O) :=
  (held leaseId).filter (·.ownerId ≠ o)

def step (k : LeaseKind O) (s : LeaseState O) : LeaseEvent O → LeaseState O
  | .tryAcquire o ttlMs => s.call o (.acquiring o s.now ttlMs 1)
  | .renew o ttlMs => s.call o (.renewing o s.now ttlMs)
  | .release o => { s with held := without s.held o }.call o (.releasing o)
  | .advance i =>
      match s.calls[i]? with
      | none => s
      | some c =>
          { (s.stepCall k c).1 with calls := s.calls.set i (s.stepCall k c).2 }
  | .tick ms => { s with now := s.now + ms }
  | .crash o =>
      { s with
        gone := o :: s.gone
        held := without s.held o
        calls := s.calls.map fun c => if c.owner? = some o then .done else c }

/-- The operation removes no lease that is held, and rewrites only the lease
that the call read, to a later end. -/
def Spares (s : LeaseState O) : LeaseCall O → Prop
  | .clearing .. | .cleaning .. | .removing .. => s.Unheld
  | .replacing next _ =>
      s.Unheld ∨ ∀ r ∈ s.record?, r.leaseId = next.leaseId ∧ r.expiresAtMs ≤ next.expiresAtMs
  | _ => True

def SparesHeld (s : LeaseState O) : LeaseEvent O → Prop
  | .advance i => ∀ c ∈ s.calls[i]?, s.Spares c
  | _ => True

theorem OnDisk.without {s : LeaseState O} (hs : s.OnDisk) (o : O) :
    ({ s with held := without s.held o } : LeaseState O).OnDisk :=
  fun leaseId h hheld => hs leaseId h (Option.mem_filter_iff.mp hheld).1

theorem OnDisk.stepCall (k : LeaseKind O) {s : LeaseState O} (hs : s.OnDisk) (c : LeaseCall O)
    (h : s.Spares c) : (s.stepCall k c).1.OnDisk := by
  cases c with
  | clearing | cleaning | removing => exact hs.clear h
  | placing o nowMs ttlMs retries previousAttempt =>
      rw [LeaseState.stepCall]
      split
      · exact hs
      · rename_i hdisk
        exact hs.acquire hdisk ⟨s.nextId, previousAttempt + 1, o, nowMs, nowMs, nowMs + ttlMs⟩
  | replacing next inode =>
      rw [LeaseState.stepCall]
      split
      · exact hs
      · split_ifs
        · exact hs.replace h _
        · exact hs
  | acquiring | checking | renewing | releasing =>
      rw [LeaseState.stepCall]
      split
      · exact hs
      · split_ifs <;> exact hs
  | writing next =>
      rw [LeaseState.stepCall]
      split <;> exact hs
  | done => exact hs

theorem OnDisk.call {s : LeaseState O} (hs : s.OnDisk) (o : O) (c : LeaseCall O) :
    (s.call o c).OnDisk := by
  rw [LeaseState.call]
  split_ifs
  · exact hs
  · exact (onDisk_congr rfl rfl rfl).mpr hs

theorem OnDisk.step (k : LeaseKind O) {s : LeaseState O} (hs : s.OnDisk) (e : LeaseEvent O)
    (h : s.SparesHeld e) : (s.step k e).OnDisk := by
  cases e with
  | tryAcquire o ttlMs => exact hs.call o _
  | renew o ttlMs => exact hs.call o _
  | release o => exact (hs.without o).call o _
  | advance i =>
      rw [LeaseState.step]
      split
      · exact hs
      · rename_i c hc
        exact (onDisk_congr rfl rfl rfl).mpr (hs.stepCall k c (h c hc))
  | tick ms => exact fun leaseId h hheld hnow => hs leaseId h hheld ((Nat.le_add_right _ ms).trans_lt hnow)
  | crash o => exact (onDisk_congr rfl rfl rfl).mpr (hs.without o)

/-- The lease as a run finds it: nobody in the run holds it yet. -/
def start (now : Nat) (disk : Option (LeaseDirectory O)) (nextId : Nat) : LeaseState O :=
  ⟨now, disk, [], fun _ => none, [], nextId⟩

/-- In every run in which no held lease is removed or overwritten by a call
other than its own renewal, at most one acquisition is believed at any time. -/
theorem lease_exclusive (k : LeaseKind O) (now : Nat) (disk : Option (LeaseDirectory O))
    (nextId : Nat) (events : List (LeaseEvent O))
    (h : Along (step k) SparesHeld (start now disk nextId) events)
    (before after : List (LeaseEvent O)) (hevents : events = before ++ after) :
    Exclusive (run (step k) (start now disk nextId) before) := by
  rw [hevents] at h
  have hstart : (start now disk nextId).OnDisk := fun _ _ hheld => by cases hheld
  exact (run_invariant_along (fun s e hs he => hs.step k e he) hstart
    (along_append_iff.mp h).1).exclusive

instance (s : LeaseState O) : Decidable s.Unheld :=
  inferInstanceAs (Decidable (∀ r ∈ s.record?, s.now < r.expiresAtMs → s.held r.leaseId = none))

instance (s : LeaseState O) : (c : LeaseCall O) → Decidable (s.Spares c)
  | .clearing .. | .cleaning .. | .removing _ => inferInstanceAs (Decidable s.Unheld)
  | .replacing .. => inferInstanceAs (Decidable (_ ∨ _))
  | .acquiring .. | .placing .. | .checking .. | .renewing .. | .writing _ | .releasing _ | .done =>
      inferInstanceAs (Decidable True)

instance (s : LeaseState O) : (e : LeaseEvent O) → Decidable (s.SparesHeld e)
  | .advance i => inferInstanceAs (Decidable (∀ c ∈ s.calls[i]?, s.Spares c))
  | .tryAcquire .. | .renew .. | .release _ | .tick _ | .crash _ => inferInstanceAs (Decidable True)

def jobLease : LeaseKind Nat := ⟨fun _ => true, false⟩

/-- An owner acquires, renews and lets its lease expire before another one takes it over. -/
theorem lease_exclusive_takeover :
    Exclusive (run (step jobLease) (start 0 none 0)
      [.tryAcquire 100 10, .advance 0, .advance 0, .tick 5, .renew 100 10, .advance 1, .advance 1,
        .advance 1, .tick 20, .tryAcquire 200 10, .advance 2, .advance 2, .advance 2]) :=
  lease_exclusive jobLease 0 none 0
    [.tryAcquire 100 10, .advance 0, .advance 0, .tick 5, .renew 100 10, .advance 1,
      .advance 1, .advance 1, .tick 20, .tryAcquire 200 10, .advance 2, .advance 2, .advance 2]
    (by decide) _ [] rfl

/-- Two contenders read an expired lease; the slower one then removes the lease
that the faster one has just acquired, and both hold it. -/
theorem lease_acquired_twice :
    let s := run (step jobLease) (start 0 none 0)
      [.tryAcquire 100 10, .advance 0, .advance 0, .tick 20,
        .tryAcquire 200 10, .advance 1, .tryAcquire 300 10, .advance 2, .advance 2, .advance 2,
        .advance 1, .advance 1]
    s.now = 20 ∧ s.held 1 = some ⟨300, 30⟩ ∧ s.held 2 = some ⟨200, 30⟩ ∧ ¬s.Exclusive := by
  refine ⟨rfl, rfl, rfl, fun h => ?_⟩
  exact absurd (h 1 2 ⟨⟨300, 30⟩, rfl, by decide⟩ ⟨⟨200, 30⟩, rfl, by decide⟩) (by decide)

end LeaseState

end DevPilot.Replication
