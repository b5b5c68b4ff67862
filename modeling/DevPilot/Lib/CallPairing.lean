import Mathlib.Tactic

/-!
Histories in which one party asks by issuing calls and the other answers by
naming the calls it answers. A history is paired when each call is answered
exactly once before the next asking turn, and nothing else is answered.
-/

namespace CallPairing

inductive Turn (ι : Type)
  | asks (calls : List ι)
  | answers (ids : List ι)
deriving DecidableEq

variable {ι : Type} [DecidableEq ι]

def answersTo : List (Turn ι) → List ι
  | [] => []
  | .asks _ :: _ => []
  | .answers ids :: ts => ids ++ answersTo ts

/-- Each call is answered exactly once, and only these calls are answered. -/
def Answered (calls ids : List ι) : Prop :=
  (∀ c ∈ calls, ids.count c = 1) ∧ ∀ i ∈ ids, i ∈ calls

def Paired : List (Turn ι) → Prop
  | [] => True
  | .asks calls :: ts => Answered calls (answersTo ts) ∧ Paired ts
  | .answers _ :: ts => Paired ts

/-- A paired history that answers nothing before its first asking turn. -/
def PairWF (ts : List (Turn ι)) : Prop := Answered [] (answersTo ts) ∧ Paired ts

instance (calls ids : List ι) : Decidable (Answered calls ids) :=
  inferInstanceAs (Decidable (_ ∧ _))

def decidePaired : (ts : List (Turn ι)) → Decidable (Paired ts)
  | [] => isTrue trivial
  | .asks _ :: ts => @instDecidableAnd _ _ inferInstance (decidePaired ts)
  | .answers _ :: ts => decidePaired ts

instance (ts : List (Turn ι)) : Decidable (Paired ts) := decidePaired ts

instance (ts : List (Turn ι)) : Decidable (PairWF ts) :=
  inferInstanceAs (Decidable (_ ∧ _))

theorem answered_nil_iff {ids : List ι} : Answered [] ids ↔ ids = [] := by
  constructor
  · rintro ⟨-, h⟩
    exact List.eq_nil_iff_forall_not_mem.mpr fun i hi => by simpa using h i hi
  · rintro rfl
    exact ⟨by simp, by simp⟩

theorem answered_self {calls : List ι} (h : calls.Nodup) : Answered calls calls :=
  ⟨fun _ hc => List.count_eq_one_of_mem h hc, fun _ hi => hi⟩

theorem answered_perm {calls ids ids' : List ι} (h : ids.Perm ids') :
    Answered calls ids ↔ Answered calls ids' := by
  simp only [Answered, h.count_eq, h.mem_iff]

theorem pairWF_nil : PairWF ([] : List (Turn ι)) := ⟨answered_nil_iff.mpr rfl, trivial⟩

theorem paired_of_append {as bs : List (Turn ι)} (h : Paired (as ++ bs)) : Paired bs := by
  induction as with
  | nil => exact h
  | cons t as ih =>
      cases t with
      | asks calls => exact ih h.2
      | answers ids => exact ih h

theorem pairWF_suffix_iff {as bs : List (Turn ι)} (h : PairWF (as ++ bs)) :
    PairWF bs ↔ answersTo bs = [] :=
  ⟨fun hb => answered_nil_iff.mp hb.1, fun hb => ⟨answered_nil_iff.mpr hb, paired_of_append h.2⟩⟩

def Complete : List (Turn ι) → Prop
  | [] => True
  | .asks calls :: ts => (∀ c ∈ calls, c ∈ answersTo ts) ∧ Complete ts
  | .answers _ :: ts => Complete ts

def decideComplete : (ts : List (Turn ι)) → Decidable (Complete ts)
  | [] => isTrue trivial
  | .asks _ :: ts => @instDecidableAnd _ _ inferInstance (decideComplete ts)
  | .answers _ :: ts => decideComplete ts

instance (ts : List (Turn ι)) : Decidable (Complete ts) := decideComplete ts

omit [DecidableEq ι] in
theorem complete_append_asks_iff (as : List (Turn ι)) (calls : List ι) (bs : List (Turn ι)) :
    Complete (as ++ .asks calls :: bs) ↔
      Complete as ∧ (∀ c ∈ calls, c ∈ answersTo bs) ∧ Complete bs := by
  have hcut : ∀ as : List (Turn ι), answersTo (as ++ .asks calls :: bs) = answersTo as := by
    intro as
    induction as with
    | nil => rfl
    | cons t as ih => cases t <;> simp [answersTo, ih]
  induction as with
  | nil => simp [Complete]
  | cons t as ih => cases t <;> simp [Complete, ih, hcut, and_assoc]

theorem complete_of_paired {ts : List (Turn ι)} (h : Paired ts) : Complete ts := by
  induction ts with
  | nil => trivial
  | cons t ts ih =>
      cases t with
      | asks calls =>
          refine ⟨fun c hc => ?_, ih h.2⟩
          have hcount := h.1.1 c hc
          exact List.count_pos_iff.mp (by omega)
      | answers ids => exact ih h

omit [DecidableEq ι] in
theorem complete_singletons (ids : List ι) : Complete (ids.map fun i => Turn.answers [i]) := by
  induction ids with
  | nil => trivial
  | cons i ids ih => exact ih

structure Pending (ι : Type) where
  calls : List ι
  answered : List ι
deriving DecidableEq

namespace Pending

def start : Pending ι := ⟨[], []⟩

def next (p : Pending ι) : Turn ι → Pending ι
  | .asks calls => ⟨calls, []⟩
  | .answers ids => ⟨p.calls, p.answered ++ ids⟩

def after (p : Pending ι) (ts : List (Turn ι)) : Pending ι := ts.foldl next p

def Settled (p : Pending ι) : Prop := Answered p.calls p.answered

def Orderly : Pending ι → List (Turn ι) → Prop
  | _, [] => True
  | p, .asks calls :: ts => p.Settled ∧ Orderly ⟨calls, []⟩ ts
  | p, .answers ids :: ts => Orderly ⟨p.calls, p.answered ++ ids⟩ ts

instance (p : Pending ι) : Decidable p.Settled := inferInstanceAs (Decidable (Answered _ _))

omit [DecidableEq ι] in
@[simp] theorem after_nil (p : Pending ι) : p.after [] = p := rfl

omit [DecidableEq ι] in
@[simp] theorem after_cons (p : Pending ι) (t : Turn ι) (ts : List (Turn ι)) :
    p.after (t :: ts) = (p.next t).after ts := rfl

omit [DecidableEq ι] in
theorem after_append (p : Pending ι) (as bs : List (Turn ι)) :
    p.after (as ++ bs) = (p.after as).after bs := List.foldl_append

theorem orderly_cons (p : Pending ι) (t : Turn ι) (ts : List (Turn ι)) :
    p.Orderly (t :: ts) ↔ ((∃ calls, t = .asks calls) → p.Settled) ∧ (p.next t).Orderly ts := by
  cases t <;> simp [Orderly, next]

theorem orderly_append (p : Pending ι) (as bs : List (Turn ι)) :
    p.Orderly (as ++ bs) ↔ p.Orderly as ∧ (p.after as).Orderly bs := by
  induction as generalizing p with
  | nil => simp [Orderly]
  | cons t as ih => rw [List.cons_append, orderly_cons, orderly_cons, ih, after_cons, and_assoc]

theorem paired_iff_orderly (p : Pending ι) (ts : List (Turn ι)) :
    (Answered p.calls (p.answered ++ answersTo ts) ∧ Paired ts) ↔
      p.Orderly ts ∧ (p.after ts).Settled := by
  induction ts generalizing p with
  | nil => simp [answersTo, Paired, Orderly, Settled]
  | cons t ts ih =>
      cases t with
      | asks calls =>
          have := ih ⟨calls, []⟩
          simp only [List.nil_append] at this
          simp only [answersTo, List.append_nil, Paired, Orderly, after_cons, next, this, Settled,
            and_assoc]
      | answers ids =>
          simpa [answersTo, Paired, Orderly, next] using ih ⟨p.calls, p.answered ++ ids⟩

end Pending

open Pending

def pending (ts : List (Turn ι)) : Pending ι := start.after ts

theorem pairWF_iff_orderly (ts : List (Turn ι)) :
    PairWF ts ↔ start.Orderly ts ∧ (pending ts).Settled := paired_iff_orderly start ts

theorem pairWF_append_iff (as bs : List (Turn ι)) :
    PairWF (as ++ bs) ↔ start.Orderly as ∧
      Answered (pending as).calls ((pending as).answered ++ answersTo bs) ∧ Paired bs := by
  rw [pairWF_iff_orderly, orderly_append, pending, after_append, and_assoc,
    ← paired_iff_orderly (start.after as)]
  rfl

theorem pairWF_append {as bs : List (Turn ι)} (ha : PairWF as) (hb : PairWF bs) :
    PairWF (as ++ bs) := by
  rw [pairWF_iff_orderly] at ha
  refine (pairWF_append_iff as bs).mpr ⟨ha.1, ?_, hb.2⟩
  rw [answered_nil_iff.mp hb.1, List.append_nil]
  exact ha.2

theorem pairWF_omit_iff {as as' bs bs' : List (Turn ι)} (ha : PairWF (as ++ as'))
    (hb : Paired (bs' ++ bs)) :
    PairWF (as ++ bs) ↔
      Answered (pending as).calls ((pending as).answered ++ answersTo bs) := by
  have hp := ((orderly_append _ _ _).mp ((pairWF_iff_orderly _).mp ha).1).1
  rw [pairWF_append_iff]
  exact ⟨fun ⟨_, h, _⟩ => h, fun h => ⟨hp, h, paired_of_append hb⟩⟩

inductive Erases : List (Turn ι) → List (Turn ι) → Prop
  | nil : Erases [] []
  | keep (t : Turn ι) {ts us : List (Turn ι)} (h : Erases ts us) : Erases (t :: ts) (t :: us)
  | erase {ts us : List (Turn ι)} (h : Erases ts us) : Erases (.asks [] :: ts) us

omit [DecidableEq ι] in
theorem Erases.refl (ts : List (Turn ι)) : Erases ts ts := by
  induction ts with
  | nil => exact .nil
  | cons t ts ih => exact .keep t ih

omit [DecidableEq ι] in
theorem Erases.append {ts us ts' us' : List (Turn ι)} (h : Erases ts us) (h' : Erases ts' us') :
    Erases (ts ++ ts') (us ++ us') := by
  induction h with
  | nil => exact h'
  | keep t _ ih => exact .keep t ih
  | erase _ ih => exact .erase ih

omit [DecidableEq ι] in
theorem Erases.flatMap {α : Type} {f g : α → List (Turn ι)} (h : ∀ x, Erases (f x) (g x))
    (xs : List α) : Erases (xs.flatMap f) (xs.flatMap g) := by
  induction xs with
  | nil => exact .nil
  | cons x xs ih =>
      rw [List.flatMap_cons, List.flatMap_cons]
      exact (h x).append ih

theorem pairWF_of_erases {ts us : List (Turn ι)} (h : Erases ts us) (hts : PairWF ts) : PairWF us := by
  suffices ∀ as, PairWF (as ++ ts) → PairWF (as ++ us) from this [] hts
  clear hts
  induction h with
  | nil => exact fun _ h => h
  | keep t _ ih =>
      intro as h
      have := ih (as ++ [t]) (by simpa using h)
      simpa using this
  | erase _ ih =>
      intro as h
      rw [pairWF_append_iff] at h
      obtain ⟨ho, ha, hp, hb⟩ := h
      rw [answersTo, List.append_nil] at ha
      refine ih as ((pairWF_append_iff _ _).mpr ⟨ho, ?_, hb⟩)
      rwa [answered_nil_iff.mp hp, List.append_nil]

omit [DecidableEq ι] in
theorem answersTo_singletons (ids : List ι) : answersTo (ids.map fun i => .answers [i]) = ids := by
  induction ids with
  | nil => rfl
  | cons i ids ih => exact congrArg (List.cons i) ih

theorem paired_singletons (ids : List ι) : Paired (ids.map fun i => Turn.answers [i]) := by
  induction ids with
  | nil => trivial
  | cons i ids ih => exact ih

theorem pairWF_exchange {ts answers : List (Turn ι)} (h : PairWF ts) {calls : List ι}
    (ha : Answered calls (answersTo answers)) (hp : Paired answers) :
    PairWF (ts ++ .asks calls :: answers) :=
  pairWF_append h ⟨answered_nil_iff.mpr rfl, ha, hp⟩

theorem calls_eq_nil_of_pairWF {ts : List (Turn ι)} {calls : List ι}
    (h : PairWF (ts ++ [Turn.asks calls])) : calls = [] := by
  obtain ⟨-, -, ⟨hcount, -⟩, -⟩ := (pairWF_append_iff _ _).mp h
  exact List.eq_nil_iff_forall_not_mem.mpr fun c hc => by simpa [answersTo] using hcount c hc

theorem pairWF_asks_iff {ts : List (Turn ι)} (h : PairWF ts) (calls : List ι) :
    PairWF (ts ++ [Turn.asks calls]) ↔ calls = [] := by
  refine ⟨calls_eq_nil_of_pairWF, ?_⟩
  rintro rfl
  exact pairWF_append h ⟨answered_nil_iff.mpr rfl, answered_nil_iff.mpr rfl, trivial⟩

end CallPairing
