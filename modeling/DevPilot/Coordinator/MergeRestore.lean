import DevPilot.Lib.JsonValue

/-!
The git commands of a merge into the trunk, and where they leave the repository when some of
them fail or time out.
-/

namespace DevPilot.GitMerge

open PyJson

inductive Head
  | branch (name : String)
  | detached (commit : String)
  deriving DecidableEq

structure Repo where
  head : Head
  branches : List (String × String)
  merging : Bool

/-- What `git branch --show-current` prints. -/
def Head.shown : Head → String
  | .branch name => name
  | .detached _ => ""

/-- What a command does to the repository, and whether it is killed before it reports that. -/
structure Outcome where
  takes : Bool
  timedOut : Bool

inductive MergeEffect
  | commit (hash : String)
  | upToDate
  | conflict
  | refused

structure MergeOutcome where
  effect : MergeEffect
  timedOut : Bool

namespace Repo

/-- `git checkout name`, which takes only a branch. -/
def checkout (r : Repo) (name : String) (o : Outcome) : Repo × Bool :=
  if o.takes && (r.branches.lookup name).isSome then ({ r with head := .branch name }, !o.timedOut)
    else (r, false)

/-- `git merge --no-ff` into the branch that is checked out. -/
def merge (r : Repo) (o : MergeOutcome) : Repo × Bool :=
  match o.effect, r.head with
  | .commit hash, .branch name => ({ r with branches := Members.insert name hash r.branches },
      !o.timedOut)
  | .commit hash, .detached _ => ({ r with head := .detached hash }, !o.timedOut)
  | .upToDate, _ => (r, !o.timedOut)
  | .conflict, _ => ({ r with merging := true }, false)
  | .refused, _ => (r, false)

def abort (r : Repo) (o : Outcome) : Repo := if o.takes then { r with merging := false } else r

end Repo

structure GitAnswers where
  /-- The text that stands for the current branch where asking for it failed. -/
  showCurrentFails : Option String
  sourceVerified : Bool
  checkout : Outcome
  merge : MergeOutcome
  abort : Outcome
  restore : Outcome

def currentText (r : Repo) (git : GitAnswers) : String := git.showCurrentFails.getD r.head.shown

/-- `GitMergeBranch` from saving the current branch on: the repository, and whether the tool
returns an error. -/
def mergeBranch (r : Repo) (targetBranch : String) (git : GitAnswers) : Repo × Bool :=
  let current := currentText r git
  if !git.sourceVerified then (r, true)
  else match r.checkout targetBranch git.checkout with
    | (r, false) => (r, true)
    | (r, true) => match r.merge git.merge with
      | (r, false) => (((r.abort git.abort).checkout current git.restore).1, true)
      | (r, true) =>
          if current ≠ "" ∧ current ≠ targetBranch then ((r.checkout current git.restore).1, false)
            else (r, false)

/-- After an error the target branch points where it did and no new merge is in progress, and
on every path HEAD is back. -/
def LeavesAsFound (r : Repo) (targetBranch : String) (result : Repo × Bool) : Prop :=
  (result.2 = true → result.1.branches.lookup targetBranch = r.branches.lookup targetBranch ∧
    (result.1.merging = true → r.merging = true)) ∧ result.1.head = r.head

/-- The branch the last checkout leaves HEAD on, from the target branch. -/
def landsOn (r : Repo) (targetBranch : String) (git : GitAnswers) (onError : Bool) : String :=
  let current := currentText r git
  if git.restore.takes && (r.branches.lookup current).isSome &&
      (onError || current != "" && current != targetBranch) then current else targetBranch

/-- Whether the commands undo what they did, from what git does to the repository. -/
def Undone (r : Repo) (targetBranch : String) (git : GitAnswers) : Prop :=
  git.sourceVerified = true →
    if git.checkout.takes && (r.branches.lookup targetBranch).isSome then
      if git.checkout.timedOut then r.head = .branch targetBranch
      else match git.merge.effect, git.merge.timedOut with
        | .commit _, false | .upToDate, false => r.head = .branch (landsOn r targetBranch git false)
        | .commit hash, true => r.branches.lookup targetBranch = some hash ∧ r.head =
            .branch (landsOn r targetBranch git true)
        | .conflict, _ => (git.abort.takes = true ∨ r.merging = true) ∧ r.head =
            .branch (landsOn r targetBranch git true)
        | _, _ => r.head = .branch (landsOn r targetBranch git true)
    else True

theorem leavesAsFound_success_iff (r s : Repo) (targetBranch : String) :
    LeavesAsFound r targetBranch (s, false) ↔ r.head = s.head := by
  rw [LeavesAsFound, and_iff_right fun h => Bool.noConfusion h, eq_comm]

theorem leavesAsFound_error_iff (r s : Repo) (targetBranch : String) :
    LeavesAsFound r targetBranch (s, true) ↔
      (s.branches.lookup targetBranch = r.branches.lookup targetBranch ∧
        (s.merging = true → r.merging = true)) ∧
        r.head = s.head := by
  rw [LeavesAsFound, forall_prop_of_true rfl, eq_comm (a := s.head)]

theorem isSome_lookup_insert {name : String} (hash : String) {branches : List (String × String)}
    (h : (branches.lookup name).isSome = true) (other : String) :
    ((Members.insert name hash branches).lookup other).isSome = (branches.lookup other).isSome := by
  by_cases ho : other = name
  · rw [ho, Members.lookup_insert_self, h]
    rfl
  · rw [Members.lookup_insert_ne ho]

theorem restore_eq {r s : Repo} {targetBranch : String} {git : GitAnswers}
    (hhead : s.head = .branch targetBranch)
    (hbranches : ∀ name, (s.branches.lookup name).isSome = (r.branches.lookup name).isSome) :
    (s.checkout (currentText r git) git.restore).1 =
      { s with head := .branch (landsOn r targetBranch git true) } := by
  rw [Repo.checkout, landsOn, hbranches, Bool.true_or, Bool.and_true]
  split_ifs
  · rfl
  · rw [← hhead]

theorem restore_of_success {r s : Repo} {targetBranch : String} {git : GitAnswers}
    (hhead : s.head = .branch targetBranch)
    (hbranches : ∀ name, (s.branches.lookup name).isSome = (r.branches.lookup name).isSome) :
    (if currentText r git ≠ "" ∧ currentText r git ≠ targetBranch then
        ((s.checkout (currentText r git) git.restore).1, false) else (s, false)) =
      ({ s with head := .branch (landsOn r targetBranch git false) }, false) := by
  rw [Repo.checkout, landsOn, hbranches, Bool.false_or]
  by_cases hmoves : currentText r git ≠ "" ∧ currentText r git ≠ targetBranch
  · rw [if_pos hmoves, bne_iff_ne.mpr hmoves.1, bne_iff_ne.mpr hmoves.2, Bool.and_true,
      Bool.and_true]
    split_ifs
    · rfl
    · rw [← hhead]
  · have hstays : (currentText r git != "" && currentText r git != targetBranch) = false := by
      simpa using hmoves
    rw [if_neg hmoves, hstays, Bool.and_false, if_neg (by decide), ← hhead]

theorem abort_eq (r : Repo) (o : Outcome) : r.abort o =
    { r with merging := !o.takes && r.merging } := by
  rw [Repo.abort]
  cases o.takes <;> rfl

theorem leavesAsFound_merge_iff {r : Repo} {targetBranch : String} {git : GitAnswers}
    (htarget : (r.branches.lookup targetBranch).isSome = true) :
    LeavesAsFound r targetBranch (match ({ r with head := .branch targetBranch } : Repo).merge
      git.merge with
      | (s, false) => (((s.abort git.abort).checkout (currentText r git) git.restore).1, true)
      | (s, true) => if currentText r git ≠ "" ∧ currentText r git ≠ targetBranch then
          ((s.checkout (currentText r git) git.restore).1, false) else (s, false)) ↔
      match git.merge.effect, git.merge.timedOut with
      | .commit _, false | .upToDate, false => r.head = .branch (landsOn r targetBranch git false)
      | .commit hash, true => r.branches.lookup targetBranch = some hash ∧ r.head =
          .branch (landsOn r targetBranch git true)
      | .conflict, _ => (git.abort.takes = true ∨ r.merging = true) ∧ r.head =
          .branch (landsOn r targetBranch git true)
      | _, _ => r.head = .branch (landsOn r targetBranch git true) := by
  obtain ⟨⟨effect, timedOut⟩, hgit⟩ : ∃ m, git.merge = m := ⟨_, rfl⟩
  rw [hgit]
  cases effect with
  | commit hash =>
      have hbranches := isSome_lookup_insert hash htarget
      cases timedOut with
      | false =>
          simp only [Repo.merge, Bool.not_false]
          rw [restore_of_success (r := r) rfl hbranches, leavesAsFound_success_iff]
      | true =>
          simp only [Repo.merge, Bool.not_true, abort_eq]
          rw [restore_eq (r := r) (s := ⟨.branch targetBranch, _, !git.abort.takes && r.merging⟩)
            rfl hbranches,
            leavesAsFound_error_iff, Members.lookup_insert_self]
          refine and_congr_left fun _ => ?_
          rw [eq_comm]
          exact and_iff_left fun h => (Bool.and_eq_true _ _ ▸ h).2
  | upToDate =>
      cases timedOut with
      | false =>
          simp only [Repo.merge, Bool.not_false]
          rw [restore_of_success (r := r) (s := ⟨.branch targetBranch, r.branches, r.merging⟩) rfl
            fun _ => rfl,
            leavesAsFound_success_iff]
      | true =>
          simp only [Repo.merge, Bool.not_true, abort_eq]
          rw [restore_eq (r := r)
            (s := ⟨.branch targetBranch, r.branches, !git.abort.takes && r.merging⟩) rfl
            fun _ => rfl, leavesAsFound_error_iff]
          exact and_iff_right ⟨rfl, fun h => (Bool.and_eq_true _ _ ▸ h).2⟩
  | conflict =>
      simp only [Repo.merge, abort_eq]
      rw [restore_eq (r := r) (s := ⟨.branch targetBranch, r.branches, !git.abort.takes && true⟩)
        rfl fun _ => rfl,
        leavesAsFound_error_iff]
      refine and_congr_left fun _ => ?_
      cases git.abort.takes <;> simp
  | refused =>
      simp only [Repo.merge, abort_eq]
      rw [restore_eq (r := r)
        (s := ⟨.branch targetBranch, r.branches, !git.abort.takes && r.merging⟩) rfl
        fun _ => rfl, leavesAsFound_error_iff]
      exact and_iff_right ⟨rfl, fun h => (Bool.and_eq_true _ _ ▸ h).2⟩

def detachedRepo : Repo where
  head := .detached "c1"
  branches := [("main", "c0"), ("idea", "c2")]
  merging := false

def doneInTime : Outcome := { takes := true, timedOut := false }

def conflicting : GitAnswers where
  showCurrentFails := none
  sourceVerified := true
  checkout := doneInTime
  merge := { effect := .conflict, timedOut := false }
  abort := doneInTime
  restore := doneInTime

end DevPilot.GitMerge
