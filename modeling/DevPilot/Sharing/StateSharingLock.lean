import DevPilot.Lib.Runs

/-!
The lock of a shared-state destination: a queue of the callers of each process, and a
directory that the callers of all processes make and remove, one file operation at a time.
-/

namespace DevPilot.Sharing

structure LockOptions where
  acquireTimeoutMs : Option ℤ := none
  staleLockTimeoutMs : Option ℤ := none

structure LockOwner where
  pid : ℕ
  acquiredAt : ℤ
deriving DecidableEq, Repr

/-- The lock directory, and the number of the call that has made it. -/
structure LockDir where
  maker : ℕ
  mtimeMs : ℤ
  owner : Option LockOwner
deriving DecidableEq, Repr

inductive Stage
  | queued
  | mkdirHome
  | mkdir (startedAt : ℤ)
  | writeOwner
  | running
  | release
  | stat (startedAt : ℤ)
  | readOwner (startedAt : ℤ) (judged : ℕ) (mtimeMs : ℤ)
  | judge (startedAt : ℤ) (judged : ℕ) (mtimeMs : ℤ) (owner : Option LockOwner)
  | removeStale (startedAt : ℤ) (judged : ℕ)
  | refused (startedAt : ℤ)
  | returned (acquired : Bool)
deriving DecidableEq, Repr

/-- A call of `withConnectedServiceStateSharingDestinationLock`. `previous` is the call
it is queued behind in its process, and `released` that it has left the queue. -/
structure Caller where
  process : ℕ
  options : LockOptions
  previous : Option ℕ
  released : Bool := false
  stage : Stage := .queued

/-- A removal of a lock directory, and whether its maker was then holding it. -/
structure Removal where
  remover : ℕ
  maker : ℕ
  held : Bool
deriving DecidableEq, Repr

structure World where
  callers : ℕ → Option Caller := fun _ => none
  nextCaller : ℕ := 0
  dead : ℕ → Bool := fun _ => false
  /-- `destinationLocks` of each process, for the destination. -/
  destinationLocks : ℕ → Option ℕ := fun _ => none
  lockDir : Option LockDir := none
  removals : List Removal := []

inductive Event
  | call (process : ℕ) (options : LockOptions)
  | proceed (caller : ℕ) (now : ℤ)
  | die (process : ℕ)

namespace World

variable (w : World)

def isProcessAlive (pid : ℕ) : Bool := !w.dead pid

/-- The call has made the lock directory and not yet removed it, and its process lives. -/
def holds (caller : ℕ) : Bool :=
  (w.callers caller).any fun c =>
    w.isProcessAlive c.process && decide (c.stage = .writeOwner ∨ c.stage = .running ∨ c.stage = .release)

def executes (caller : ℕ) : Bool :=
  (w.callers caller).any fun c => w.isProcessAlive c.process && decide (c.stage = .running)

def setCaller (caller : ℕ) (c : Caller) : World :=
  { w with callers := Function.update w.callers caller (some c) }

def rm (remover : ℕ) : World :=
  match w.lockDir with
  | none => w
  | some dir =>
    { w with
      lockDir := none
      removals := w.removals ++ [⟨remover, dir.maker, w.holds dir.maker⟩] }

/-- The end of `withInProcessDestinationLock`. -/
def leave (caller : ℕ) (c : Caller) (acquired : Bool) : World :=
  let w := w.setCaller caller { c with stage := .returned acquired, released := true }
  if w.destinationLocks c.process = some caller then
    { w with destinationLocks := Function.update w.destinationLocks c.process none }
  else w

def previousResolved (c : Caller) : Bool :=
  match c.previous with
  | none => true
  | some previous => (w.callers previous).any (·.released)

def call (process : ℕ) (options : LockOptions) : World :=
  let w := if w.dead process then w else
    { w.setCaller w.nextCaller {
        process := process
        options := options
        previous := w.destinationLocks process } with
      destinationLocks := Function.update w.destinationLocks process (some w.nextCaller) }
  { w with nextCaller := w.nextCaller + 1 }

/-- The judgement of `removeStaleFileLock`. -/
def isStale (c : Caller) (mtimeMs : ℤ) (owner : Option LockOwner) (now : ℤ) : Bool :=
  let lockAgeMs := now - (owner.map (·.acquiredAt)).getD mtimeMs
  if lockAgeMs < c.options.staleLockTimeoutMs.getD (5 * 60000) then false
  else !(owner.any fun owner => w.isProcessAlive owner.pid)

def advance (caller : ℕ) (c : Caller) (now : ℤ) : World :=
  let goto (w : World) (stage : Stage) : World := w.setCaller caller { c with stage := stage }
  match c.stage with
  | .queued => if w.previousResolved c then goto w .mkdirHome else w
  | .mkdirHome => goto w (.mkdir now)
  | .mkdir startedAt =>
    match w.lockDir with
    | none => goto { w with lockDir := some ⟨caller, now, none⟩ } .writeOwner
    | some _ => goto w (.stat startedAt)
  | .writeOwner =>
    match w.lockDir with
    | none => w.leave caller c false
    | some dir => goto { w with lockDir := some ⟨dir.maker, now, some ⟨c.process, now⟩⟩ } .running
  | .running => goto w .release
  | .release => (w.rm caller).leave caller c true
  | .stat startedAt =>
    match w.lockDir with
    | none => goto w (.refused startedAt)
    | some dir => goto w (.readOwner startedAt dir.maker dir.mtimeMs)
  | .readOwner startedAt judged mtimeMs =>
    goto w (.judge startedAt judged mtimeMs (w.lockDir.bind (·.owner)))
  | .judge startedAt judged mtimeMs owner =>
    if w.isStale c mtimeMs owner now then goto w (.removeStale startedAt judged)
    else goto w (.refused startedAt)
  | .removeStale startedAt _ => goto (w.rm caller) (.mkdir startedAt)
  | .refused startedAt =>
    if c.options.acquireTimeoutMs.getD 10000 ≤ now - startedAt then w.leave caller c false
    else goto w (.mkdir startedAt)
  | .returned _ => w

def step (w : World) : Event → World
  | .call process options => w.call process options
  | .proceed caller now =>
    match w.callers caller with
    | none => w
    | some c => if w.dead c.process then w else w.advance caller c now
  | .die process => { w with dead := Function.update w.dead process true }

end World

end DevPilot.Sharing
