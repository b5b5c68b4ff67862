import DevPilot.Lib.Runs

/-!
`ProbedResourceCache`: the entries of a cache by key, the fetches that have
captured an entry, and what the cache shows whatever happens in between.
-/

namespace DevPilot.Protocol

open Runs

inductive FetchPhase
  /-- The fetcher has been called and has neither returned nor thrown. -/
  | calling
  /-- It has thrown, and the promise is not assigned yet. -/
  | thrown
  | pending
  | settled
deriving DecidableEq, Repr

structure Fetch (K : Type) where
  key : K
  entry : Nat
  phase : FetchPhase
deriving DecidableEq, Repr

/-- `ProbedResourceEntry`, with the key it was made for and the fetches its
data and its error come from. -/
structure ProbedResourceEntry (K T E : Type) where
  key : K
  data : Option T := none
  dataUpdatedAt : Option Int := none
  error : Option E := none
  errorUpdatedAt : Option Int := none
  inflight : Option Nat := none
  dataFrom : Option Nat := none
  errorFrom : Option Nat := none
deriving DecidableEq, Repr

structure CacheParams where
  staleTimeMs : Int
  errorCooldownMs : Int

structure Cache (K T E : Type) where
  /-- The entries that have been made, also those that no key has any more. -/
  heap : Nat → Option (ProbedResourceEntry K T E) := fun _ => none
  nextEntry : Nat := 0
  entries : K → Option Nat := fun _ => none
  fetches : Nat → Option (Fetch K) := fun _ => none
  nextFetch : Nat := 0
  /-- The key of the fetch has been deleted or cleared since it started. -/
  outdated : Nat → Bool := fun _ => false

inductive CacheEvent (K T E : Type)
  | ensure (key : K) (force : Bool) (nowMs : Int)
  | returned (fetch : Nat)
  | threw (fetch : Nat) (error : E) (nowMs : Int)
  | resolved (fetch : Nat) (value : T) (nowMs : Int)
  | rejected (fetch : Nat) (error : E) (nowMs : Int)
  | setSuccess (key : K) (data : T) (nowMs : Int)
  | setError (key : K) (error : E) (nowMs : Int)
  | delete (key : K)
  | clear

namespace Cache

variable {K T E : Type} [DecidableEq K]

def insert (s : Cache K T E) (key : K) (e : Nat) : Cache K T E :=
  { s with entries := Function.update s.entries key (some e) }

def modify (s : Cache K T E) (e : Nat)
    (f : ProbedResourceEntry K T E → ProbedResourceEntry K T E) : Cache K T E :=
  { s with heap := Function.update s.heap e ((s.heap e).map f) }

def setFetch (s : Cache K T E) (f : Nat) (fetch : Fetch K) : Cache K T E :=
  { s with fetches := Function.update s.fetches f (some fetch) }

def existing (s : Cache K T E) (key : K) : Nat × Cache K T E :=
  match s.entries key with
  | some e => (e, s)
  | none => (s.nextEntry,
      { s with
        heap := Function.update s.heap s.nextEntry (some { key })
        nextEntry := s.nextEntry + 1 })

def shouldFetch (params : CacheParams) (entry : ProbedResourceEntry K T E) (force : Bool)
    (nowMs : Int) : Bool :=
  let isStale := entry.dataUpdatedAt.any fun at_ => 0 ≤ nowMs ∧ params.staleTimeMs < nowMs - at_
  let inErrorCooldown :=
    entry.errorUpdatedAt.any fun at_ => 0 ≤ nowMs ∧ nowMs - at_ < params.errorCooldownMs
  force || (!inErrorCooldown && (entry.dataUpdatedAt.isNone || isStale))

/-- The synchronous part of `ensure`, up to the call of the fetcher. -/
def ensure (params : CacheParams) (s : Cache K T E) (key : K) (force : Bool) (nowMs : Int) :
    Cache K T E :=
  let (e, s') := s.existing key
  match s'.heap e with
  | none => s
  | some entry =>
      if entry.inflight.isSome then s
      else if shouldFetch params entry force nowMs then
        { s' with
          fetches := Function.update s'.fetches s'.nextFetch (some ⟨key, e, .calling⟩)
          nextFetch := s'.nextFetch + 1 }
      else s'.insert key e

def returned (s : Cache K T E) (f : Nat) : Cache K T E :=
  match s.fetches f with
  | some ⟨key, e, .calling⟩ =>
      ((s.setFetch f ⟨key, e, .pending⟩).modify e fun entry =>
        { entry with inflight := some f }).insert key e
  | some ⟨key, e, .thrown⟩ =>
      ((s.setFetch f ⟨key, e, .settled⟩).modify e fun entry =>
        { entry with inflight := some f }).insert key e
  | _ => s

def failed (s : Cache K T E) (f : Nat) (phase next : FetchPhase) (error : E) (nowMs : Int) :
    Cache K T E :=
  match s.fetches f with
  | some ⟨key, e, p⟩ =>
      if p = phase then
        ((s.modify e fun entry => { entry with
          error := some error, errorUpdatedAt := some nowMs, errorFrom := some f
          inflight := none }).setFetch f ⟨key, e, next⟩).insert key e
      else s
  | none => s

def resolved (s : Cache K T E) (f : Nat) (value : T) (nowMs : Int) : Cache K T E :=
  match s.fetches f with
  | some ⟨key, e, .pending⟩ =>
      ((s.modify e fun entry => { entry with
        data := some value, dataUpdatedAt := some nowMs, dataFrom := some f
        error := none, errorUpdatedAt := none, errorFrom := none
        inflight := none }).setFetch f ⟨key, e, .settled⟩).insert key e
  | _ => s

def setSuccess (s : Cache K T E) (key : K) (data : T) (nowMs : Int) : Cache K T E :=
  let (e, s') := s.existing key
  (s'.modify e fun entry => { entry with
    data := some data, dataUpdatedAt := some nowMs, dataFrom := none
    error := none, errorUpdatedAt := none, errorFrom := none }).insert key e

def setError (s : Cache K T E) (key : K) (error : E) (nowMs : Int) : Cache K T E :=
  let (e, s') := s.existing key
  (s'.modify e fun entry => { entry with
    error := some error, errorUpdatedAt := some nowMs, errorFrom := none }).insert key e

def delete (s : Cache K T E) (key : K) : Cache K T E :=
  { s with
    entries := Function.update s.entries key none
    outdated := fun f => s.outdated f || (s.fetches f).any fun fetch => fetch.key = key }

def clear (s : Cache K T E) : Cache K T E :=
  { s with
    entries := fun _ => none
    outdated := fun f => s.outdated f || (s.fetches f).isSome }

def step (params : CacheParams) (s : Cache K T E) : CacheEvent K T E → Cache K T E
  | .ensure key force nowMs => s.ensure params key force nowMs
  | .returned f => s.returned f
  | .threw f error nowMs => s.failed f .calling .thrown error nowMs
  | .resolved f value nowMs => s.resolved f value nowMs
  | .rejected f error nowMs => s.failed f .pending .settled error nowMs
  | .setSuccess key data nowMs => s.setSuccess key data nowMs
  | .setError key error nowMs => s.setError key error nowMs
  | .delete key => s.delete key
  | .clear => s.clear

inductive ProbedResourcePhase
  | idle
  | loading
  | refreshing
deriving DecidableEq, Repr

/-- The phase of `getSnapshot`; `truthy` is how the host tests the data. -/
def phase (truthy : T → Bool) (s : Cache K T E) (key : K) : ProbedResourcePhase :=
  match (s.entries key).bind s.heap with
  | none => .idle
  | some entry =>
      if entry.inflight.isSome then if entry.data.any truthy then .refreshing else .loading
      else .idle

def Quiet (s : Cache K T E) (key : K) : Prop :=
  ∀ f fetch, s.fetches f = some fetch → fetch.key = key → fetch.phase = .settled

def Clean (s : Cache K T E) (entry : ProbedResourceEntry K T E) : Prop :=
  ∀ f, entry.dataFrom = some f ∨ entry.errorFrom = some f → s.outdated f = false

structure Coherent (params : CacheParams) (truthy : T → Bool) (s : Cache K T E) : Prop where
  clean : ∀ key e entry, s.entries key = some e → s.heap e = some entry → s.Clean entry
  idle : ∀ key, s.Quiet key → s.phase truthy key = .idle
  fetches : ∀ key nowMs, s.Quiet key →
    ∃ e, (s.ensure params key true nowMs).fetches s.nextFetch = some ⟨key, e, .calling⟩

/-- No fetcher throws, and no fetch goes on once its key has been deleted or
cleared. -/
def WellTimed (s : Cache K T E) : CacheEvent K T E → Prop
  | .threw .. => False
  | .returned f | .resolved f .. | .rejected f .. => s.outdated f = false
  | _ => True

structure Inv (s : Cache K T E) : Prop where
  freshEntry : ∀ e, s.nextEntry ≤ e → s.heap e = none
  freshFetch : ∀ f, s.nextFetch ≤ f → s.fetches f = none
  mapped : ∀ key e, s.entries key = some e →
    ∃ entry, s.heap e = some entry ∧ entry.key = key ∧ s.Clean entry
  /-- A fetch that goes on has captured an entry of its key, and as long as the
  key is not deleted a clean one. -/
  captured : ∀ f fetch, s.fetches f = some fetch →
    ∃ entry, s.heap fetch.entry = some entry ∧ entry.key = fetch.key ∧
      (fetch.phase ≠ .settled → s.outdated f = false → s.Clean entry)
  inflight : ∀ e entry f, s.heap e = some entry → entry.inflight = some f →
    s.fetches f = some ⟨entry.key, e, .pending⟩
  returns : ∀ f fetch, s.fetches f = some fetch → fetch.phase ≠ .thrown
  writers : ∀ e entry f, s.heap e = some entry →
    entry.dataFrom = some f ∨ entry.errorFrom = some f →
    ∃ fetch, s.fetches f = some fetch ∧ fetch.key = entry.key

variable {s : Cache K T E}

omit [DecidableEq K] in
theorem inv_empty : (({} : Cache K T E)).Inv where
  freshEntry _ _ := rfl
  freshFetch _ _ := rfl
  mapped _ _ h := by cases h
  captured _ _ h := by cases h
  inflight _ _ _ h := by cases h
  returns _ _ h := by cases h
  writers _ _ _ h := by cases h

theorem Inv.insert (h : s.Inv) {key : K} {e : Nat} {entry : ProbedResourceEntry K T E}
    (he : s.heap e = some entry) (hkey : entry.key = key) (hclean : s.Clean entry) :
    (s.insert key e).Inv where
  freshEntry := h.freshEntry
  freshFetch := h.freshFetch
  captured := h.captured
  inflight := h.inflight
  returns := h.returns
  writers := h.writers
  mapped key' e' hmap := by
    by_cases hk : key' = key
    · subst hk
      obtain rfl : e = e' := by simpa [Cache.insert] using hmap
      exact ⟨entry, he, hkey, hclean⟩
    · exact h.mapped key' e' (by simpa [Cache.insert, hk] using hmap)

omit [DecidableEq K] in
theorem Inv.modify (h : s.Inv) {e : Nat} {entry : ProbedResourceEntry K T E}
    {g : ProbedResourceEntry K T E → ProbedResourceEntry K T E} (he : s.heap e = some entry)
    (hkey : (g entry).key = entry.key)
    (hinflight : ∀ f, (g entry).inflight = some f → s.fetches f = some ⟨entry.key, e, .pending⟩)
    (hwriters : ∀ f, (g entry).dataFrom = some f ∨ (g entry).errorFrom = some f →
      (entry.dataFrom = some f ∨ entry.errorFrom = some f) ∨
        s.outdated f = false ∧ ∃ fetch, s.fetches f = some fetch ∧ fetch.key = entry.key) :
    (s.modify e g).Inv := by
  have hheap {e' : Nat} {entry' : ProbedResourceEntry K T E} (h' : s.heap e' = some entry') :
      ∃ entry'', (s.modify e g).heap e' = some entry'' ∧ entry''.key = entry'.key ∧
        (s.Clean entry' → s.Clean entry'') := by
    by_cases hee : e' = e
    · subst hee
      obtain rfl : entry = entry' := Option.some.inj (he.symm.trans h')
      refine ⟨g entry, by simp [Cache.modify, he], hkey, fun hclean f hf => ?_⟩
      rcases hwriters f hf with hold | ⟨hout, -⟩
      · exact hclean f hold
      · exact hout
    · exact ⟨entry', by simp [Cache.modify, hee, h'], rfl, id⟩
  refine ⟨fun e' hle => ?_, h.freshFetch, fun key e' hmap => ?_, fun f fetch hf => ?_,
    fun e' entry' f h' hf => ?_, h.returns, fun e' entry' f h' hf => ?_⟩
  · have hne : e' ≠ e := by
      rintro rfl
      rw [h.freshEntry e' hle] at he
      cases he
    simpa [Cache.modify, hne] using h.freshEntry e' hle
  · obtain ⟨entry', h', hk, hclean⟩ := h.mapped key e' hmap
    obtain ⟨entry'', h'', hk', hc⟩ := hheap h'
    exact ⟨entry'', h'', hk'.trans hk, hc hclean⟩
  · obtain ⟨entry', h', hk, hclean⟩ := h.captured f fetch hf
    obtain ⟨entry'', h'', hk', hc⟩ := hheap h'
    exact ⟨entry'', h'', hk'.trans hk, fun hp ho => hc (hclean hp ho)⟩
  · by_cases hee : e' = e
    · subst hee
      obtain rfl : g entry = entry' := by simpa [Cache.modify, he] using h'
      rw [hkey]
      exact hinflight f hf
    · exact h.inflight e' entry' f (by simpa [Cache.modify, hee] using h') hf
  · by_cases hee : e' = e
    · subst hee
      obtain rfl : g entry = entry' := by simpa [Cache.modify, he] using h'
      rw [hkey]
      rcases hwriters f hf with hold | ⟨-, hfetch⟩
      · exact h.writers e' entry f he hold
      · exact hfetch
    · exact h.writers e' entry' f (by simpa [Cache.modify, hee] using h') hf

omit [DecidableEq K] in
theorem Inv.setFetch (h : s.Inv) {f e : Nat} {key : K} {p p' : FetchPhase}
    (hf : s.fetches f = some ⟨key, e, p⟩) (hp : p ≠ .settled) (hp' : p' ≠ .thrown)
    (hwaits : ∀ e' entry, s.heap e' = some entry → entry.inflight ≠ some f) :
    (s.setFetch f ⟨key, e, p'⟩).Inv := by
  refine ⟨h.freshEntry, fun f' hle => ?_, h.mapped, fun f' fetch hf' => ?_,
    fun e' entry f' he' hf' => ?_, fun f' fetch hf' => ?_, fun e' entry f' he' hf' => ?_⟩
  · have hff : f' ≠ f := by
      rintro rfl
      rw [h.freshFetch f' hle] at hf
      cases hf
    simpa [Cache.setFetch, hff] using h.freshFetch f' hle
  · by_cases hff : f' = f
    · subst hff
      obtain rfl : ⟨key, e, p'⟩ = fetch := by simpa [Cache.setFetch] using hf'
      obtain ⟨entry, he, hk, hclean⟩ := h.captured f' _ hf
      exact ⟨entry, he, hk, fun _ ho => hclean hp ho⟩
    · exact h.captured f' fetch (by simpa [Cache.setFetch, hff] using hf')
  · have hff : f' ≠ f := fun hff => hwaits e' entry he' (hff ▸ hf')
    simpa [Cache.setFetch, hff] using h.inflight e' entry f' he' hf'
  · by_cases hff : f' = f
    · subst hff
      obtain rfl : ⟨key, e, p'⟩ = fetch := by simpa [Cache.setFetch] using hf'
      exact hp'
    · exact h.returns f' fetch (by simpa [Cache.setFetch, hff] using hf')
  · obtain ⟨fetch, hfetch, hk⟩ := h.writers e' entry f' he' hf'
    by_cases hff : f' = f
    · subst hff
      rw [hf] at hfetch
      cases hfetch
      exact ⟨⟨key, e, p'⟩, by simp [Cache.setFetch], hk⟩
    · exact ⟨fetch, by simpa [Cache.setFetch, hff] using hfetch, hk⟩

omit [DecidableEq K] in
theorem Inv.existing (h : s.Inv) (key : K) :
    (s.existing key).2.Inv ∧ (s.existing key).2.fetches = s.fetches ∧
      (s.existing key).2.nextFetch = s.nextFetch ∧
      ∃ entry, (s.existing key).2.heap (s.existing key).1 = some entry ∧ entry.key = key ∧
        (s.existing key).2.Clean entry := by
  rw [Cache.existing]
  cases hmap : s.entries key with
  | some e => exact ⟨h, rfl, rfl, h.mapped key e hmap⟩
  | none =>
      have hnone := h.freshEntry s.nextEntry le_rfl
      have hne {e : Nat} {entry : ProbedResourceEntry K T E} (he : s.heap e = some entry) :
          e ≠ s.nextEntry := by
        rintro rfl
        rw [hnone] at he
        cases he
      refine ⟨⟨fun e hle => ?_, h.freshFetch, fun key' e hm => ?_, fun f fetch hf => ?_,
        fun e entry f he hf => ?_, h.returns, fun e entry f he hf => ?_⟩, rfl, rfl,
        { key }, by simp, rfl, by simp [Clean]⟩
      · have hlt : s.nextEntry < e := hle
        simpa [hlt.ne'] using h.freshEntry e hlt.le
      · obtain ⟨entry, he, hrest⟩ := h.mapped key' e hm
        exact ⟨entry, by simpa [hne he] using he, hrest⟩
      · obtain ⟨entry, he, hrest⟩ := h.captured f fetch hf
        exact ⟨entry, by simpa [hne he] using he, hrest⟩
      · by_cases hee : e = s.nextEntry
        · subst hee
          obtain rfl : ({ key } : ProbedResourceEntry K T E) = entry := by simpa using he
          cases hf
        · exact h.inflight e entry f (by simpa [hee] using he) hf
      · by_cases hee : e = s.nextEntry
        · subst hee
          obtain rfl : ({ key } : ProbedResourceEntry K T E) = entry := by simpa using he
          rcases hf with hf | hf <;> cases hf
        · exact h.writers e entry f (by simpa [hee] using he) hf

theorem Inv.ensure (h : s.Inv) (params : CacheParams) (key : K) (force : Bool) (nowMs : Int) :
    (s.ensure params key force nowMs).Inv := by
  obtain ⟨hinv, hfetches, hnext, entry, he, hkey, hclean⟩ := h.existing key
  rw [Cache.ensure]
  simp only [he]
  split_ifs with hinflight hfetch
  · exact h
  · have hnone := hinv.freshFetch _ le_rfl
    have hne {f : Nat} {fetch : Fetch K} (hf : (s.existing key).2.fetches f = some fetch) :
        f ≠ (s.existing key).2.nextFetch := by
      rintro rfl
      rw [hnone] at hf
      cases hf
    refine ⟨hinv.freshEntry, fun f hle => ?_, hinv.mapped, fun f fetch hf => ?_,
      fun e' entry' f he' hf => ?_, fun f fetch hf => ?_, fun e' entry' f he' hf => ?_⟩
    · have hlt : (s.existing key).2.nextFetch < f := hle
      simpa [hlt.ne'] using hinv.freshFetch f hlt.le
    · by_cases hff : f = (s.existing key).2.nextFetch
      · subst hff
        obtain rfl : ⟨key, (s.existing key).1, .calling⟩ = fetch := by simpa using hf
        exact ⟨entry, he, hkey, fun _ _ => hclean⟩
      · exact hinv.captured f fetch (by simpa [hff] using hf)
    · have hpending := hinv.inflight e' entry' f he' hf
      simpa [hne hpending] using hpending
    · by_cases hff : f = (s.existing key).2.nextFetch
      · subst hff
        obtain rfl : ⟨key, (s.existing key).1, .calling⟩ = fetch := by simpa using hf
        simp
      · exact hinv.returns f fetch (by simpa [hff] using hf)
    · obtain ⟨fetch, hfetch, hk⟩ := hinv.writers e' entry' f he' hf
      exact ⟨fetch, by simpa [hne hfetch] using hfetch, hk⟩
  · exact hinv.insert he hkey hclean

theorem Inv.returned (h : s.Inv) {f : Nat} (hout : s.outdated f = false) :
    (s.returned f).Inv := by
  rw [Cache.returned]
  split
  · next key e hf =>
      obtain ⟨entry, he, hkey, hclean⟩ := h.captured f _ hf
      have hset : (s.setFetch f ⟨key, e, .pending⟩).Inv := by
        refine h.setFetch hf (by simp) (by simp) fun e' entry' he' hf' => ?_
        have := hf.symm.trans (h.inflight e' entry' f he' hf')
        simp at this
      have hmod := hset.modify (g := fun entry => { entry with inflight := some f }) he rfl
        (fun f' hf' => by
          obtain rfl : f = f' := by simpa using hf'
          simp [Cache.setFetch, hkey])
        (fun f' hf' => .inl hf')
      have he' : ((s.setFetch f ⟨key, e, .pending⟩).modify e fun entry =>
          { entry with inflight := some f }).heap e = some { entry with inflight := some f } := by
        simp [Cache.modify, Cache.setFetch, he]
      exact hmod.insert he' hkey (hclean (by simp) hout)
  · next key e hf => exact absurd rfl (h.returns f _ hf)
  · exact h

theorem Inv.settle (h : s.Inv) {f e : Nat} {key : K} (hf : s.fetches f = some ⟨key, e, .pending⟩)
    (hout : s.outdated f = false)
    {g : ProbedResourceEntry K T E → ProbedResourceEntry K T E} (hg : ∀ entry,
      (g entry).key = entry.key ∧ (g entry).inflight = none ∧
        ∀ f', (g entry).dataFrom = some f' ∨ (g entry).errorFrom = some f' →
          (entry.dataFrom = some f' ∨ entry.errorFrom = some f') ∨ f' = f) :
    (((s.modify e g).setFetch f ⟨key, e, .settled⟩).insert key e).Inv := by
  obtain ⟨entry, he, hkey, hclean⟩ := h.captured f _ hf
  obtain ⟨hgkey, hgwaits, hgwriters⟩ := hg entry
  have hmod : (s.modify e g).Inv := by
    refine h.modify he hgkey (fun f' hf' => ?_) fun f' hf' => ?_
    · rw [hgwaits] at hf'
      cases hf'
    · refine (hgwriters f' hf').imp id ?_
      rintro rfl
      exact ⟨hout, _, hf, hkey.symm⟩
  have he' : (s.modify e g).heap e = some (g entry) := by simp [Cache.modify, he]
  have hwaits (e' : Nat) (entry' : ProbedResourceEntry K T E)
      (h' : (s.modify e g).heap e' = some entry') : entry'.inflight ≠ some f := by
    intro hinflight
    have hpending := hmod.inflight e' entry' f h' hinflight
    obtain ⟨-, rfl, -⟩ : key = entry'.key ∧ e = e' ∧ True := by
      simpa using hf.symm.trans hpending
    rw [he'] at h'
    cases h'
    rw [hgwaits] at hinflight
    cases hinflight
  refine (hmod.setFetch hf (by simp) (by simp) hwaits).insert he' (hgkey.trans hkey) fun f' hf' => ?_
  rcases hgwriters f' hf' with hold | rfl
  · exact hclean (by simp) hout f' hold
  · exact hout

theorem Inv.resolved (h : s.Inv) {f : Nat} (hout : s.outdated f = false) (value : T)
    (nowMs : Int) : (s.resolved f value nowMs).Inv := by
  rw [Cache.resolved]
  split
  · next key e hf =>
      refine h.settle hf hout fun entry => ⟨rfl, rfl, fun f' hf' => .inr ?_⟩
      simpa [eq_comm] using hf'
  · exact h

theorem Inv.rejected (h : s.Inv) {f : Nat} (hout : s.outdated f = false) (error : E)
    (nowMs : Int) : (s.failed f .pending .settled error nowMs).Inv := by
  rw [Cache.failed]
  split
  · next key e p hf =>
      split_ifs with hp
      · subst hp
        refine h.settle hf hout fun entry => ⟨rfl, rfl, fun f' hf' => ?_⟩
        rcases hf' with hf' | hf'
        · exact .inl (.inl hf')
        · exact .inr (by simpa [eq_comm] using hf')
      · exact h
  · exact h

theorem Inv.set (h : s.Inv) (key : K)
    {g : ProbedResourceEntry K T E → ProbedResourceEntry K T E} (hg : ∀ entry,
      (g entry).key = entry.key ∧ (g entry).inflight = entry.inflight ∧
        ∀ f, (g entry).dataFrom = some f ∨ (g entry).errorFrom = some f →
          entry.dataFrom = some f ∨ entry.errorFrom = some f) :
    (((s.existing key).2.modify (s.existing key).1 g).insert key (s.existing key).1).Inv := by
  obtain ⟨hinv, -, -, entry, he, hkey, hclean⟩ := h.existing key
  obtain ⟨hgkey, hgwaits, hgwriters⟩ := hg entry
  have hmod := hinv.modify (g := g) he hgkey
    (fun f hf => hinv.inflight _ entry f he (hgwaits ▸ hf)) fun f hf => .inl (hgwriters f hf)
  exact hmod.insert (by simp [Cache.modify, he]) (hgkey.trans hkey) fun f hf =>
    hclean f (hgwriters f hf)

theorem Inv.delete (h : s.Inv) (key : K) : (s.delete key).Inv := by
  have hclean {e : Nat} {entry : ProbedResourceEntry K T E} (he : s.heap e = some entry)
      (hkey : entry.key ≠ key) (hc : s.Clean entry) : (s.delete key).Clean entry := by
    intro f hf
    obtain ⟨fetch, hfetch, hk⟩ := h.writers e entry f he hf
    simp [Cache.delete, hfetch, hk, hkey, hc f hf]
  refine ⟨h.freshEntry, h.freshFetch, fun key' e hmap => ?_, fun f fetch hf => ?_, h.inflight,
    h.returns, h.writers⟩
  · have hne : key' ≠ key := by
      rintro rfl
      simp [Cache.delete] at hmap
    obtain ⟨entry, he, hk, hc⟩ := h.mapped key' e (by simpa [Cache.delete, hne] using hmap)
    exact ⟨entry, he, hk, hclean he (hk ▸ hne) hc⟩
  · obtain ⟨entry, he, hk, hc⟩ := h.captured f fetch hf
    refine ⟨entry, he, hk, fun hp hout => ?_⟩
    have hf' : s.fetches f = some fetch := hf
    obtain ⟨hold, hne⟩ : s.outdated f = false ∧ fetch.key ≠ key := by
      simpa [Cache.delete, hf'] using hout
    exact hclean he (hk ▸ hne) (hc hp hold)

omit [DecidableEq K] in
theorem Inv.clear (h : s.Inv) : s.clear.Inv := by
  refine ⟨h.freshEntry, h.freshFetch, fun key e hmap => ?_, fun f fetch hf => ?_, h.inflight,
    h.returns, h.writers⟩
  · cases hmap
  · obtain ⟨entry, he, hk, -⟩ := h.captured f fetch hf
    have hf' : s.fetches f = some fetch := hf
    exact ⟨entry, he, hk, fun _ hout => by simp [Cache.clear, hf'] at hout⟩

theorem Inv.step (h : s.Inv) (params : CacheParams) {event : CacheEvent K T E}
    (hevent : s.WellTimed event) : (s.step params event).Inv := by
  cases event with
  | ensure key force nowMs => exact h.ensure params key force nowMs
  | returned f => exact h.returned hevent
  | threw f error nowMs => exact hevent.elim
  | resolved f value nowMs => exact h.resolved hevent value nowMs
  | rejected f error nowMs => exact h.rejected hevent error nowMs
  | setSuccess key data nowMs =>
      refine h.set key fun entry => ⟨rfl, rfl, fun f hf => ?_⟩
      simp at hf
  | setError key error nowMs =>
      refine h.set key fun entry => ⟨rfl, rfl, fun f hf => .inl ?_⟩
      simpa using hf
  | delete key => exact h.delete key
  | clear => exact h.clear

omit [DecidableEq K] in
theorem Inv.inflight_eq_none (h : s.Inv) {key : K} (hquiet : s.Quiet key) {e : Nat}
    {entry : ProbedResourceEntry K T E} (he : s.heap e = some entry) (hkey : entry.key = key) :
    entry.inflight = none := by
  by_contra hne
  obtain ⟨f, hf⟩ := Option.ne_none_iff_exists'.mp hne
  have := hquiet f _ (h.inflight e entry f he hf) hkey
  simp at this

theorem Inv.coherent (h : s.Inv) (params : CacheParams) (truthy : T → Bool) :
    s.Coherent params truthy where
  clean key e entry hmap he := by
    obtain ⟨entry', he', -, hclean⟩ := h.mapped key e hmap
    obtain rfl : entry' = entry := Option.some.inj (he'.symm.trans he)
    exact hclean
  idle key hquiet := by
    rw [phase]
    cases hmap : s.entries key with
    | none => rfl
    | some e =>
        obtain ⟨entry, he, hkey, -⟩ := h.mapped key e hmap
        simp [he, h.inflight_eq_none hquiet he hkey]
  fetches key nowMs hquiet := by
    obtain ⟨hinv, hfetches, hnext, entry, he, hkey, -⟩ := h.existing key
    have hquiet' : (s.existing key).2.Quiet key := by
      rw [Quiet, hfetches]
      exact hquiet
    have hwaits := hinv.inflight_eq_none hquiet' he hkey
    refine ⟨(s.existing key).1, ?_⟩
    simp [Cache.ensure, he, hwaits, shouldFetch, hnext]

/-- In every run in which no fetcher throws and no fetch outlives a deletion of
its key, nothing outdated is ever shown, and a key without a fetch is idle and
can be fetched. -/
theorem coherent_of_wellTimed (params : CacheParams) (truthy : T → Bool)
    (events : List (CacheEvent K T E)) (h : Along (step params) WellTimed {} events) :
    (run (step params) {} events).Coherent params truthy :=
  (run_invariant_along (fun _ _ hs he => hs.step params he) inv_empty h).coherent params truthy

def exampleEvents : List (CacheEvent Bool Nat Nat) :=
  [.ensure true false 0, .returned 0, .resolved 0 7 1, .ensure true true 2, .delete false,
    .returned 1, .rejected 1 5 3, .setSuccess false 9 4, .clear]

theorem exampleEvents_coherent :
    (run (step ⟨10, 10⟩) {} exampleEvents).Coherent ⟨10, 10⟩ (fun n => n ≠ 0) :=
  coherent_of_wellTimed ⟨10, 10⟩ _ exampleEvents (by simp [exampleEvents, Along, WellTimed]; decide)

def deletedCache : Cache Bool Nat Nat :=
  run (step ⟨10, 10⟩) {} [.ensure true false 0, .returned 0, .delete true, .resolved 0 7 1]

def thrownCache : Cache Bool Nat Nat :=
  run (step ⟨10, 10⟩) {} [.ensure true false 0, .threw 0 5 0, .returned 0]

/-- A fetch whose key is deleted puts its result back, and after a fetcher that
throws the key stays in phase `loading` and is not fetched again. -/
theorem not_coherent :
    (∃ entry, (deletedCache.entries true).bind deletedCache.heap = some entry ∧
      ¬deletedCache.Clean entry) ∧
    thrownCache.Quiet true ∧ thrownCache.phase (fun n => n ≠ 0) true = .loading ∧
      (thrownCache.ensure ⟨10, 10⟩ true true 20).fetches thrownCache.nextFetch = none := by
  refine ⟨⟨{ key := true, data := some 7, dataUpdatedAt := some 1, dataFrom := some 0 }, rfl,
    fun h => ?_⟩, fun f fetch hf _ => ?_, rfl, rfl⟩
  · have hout := h 0 (.inl rfl)
    exact absurd hout (by decide)
  · cases f with
    | zero =>
        obtain rfl := Option.some.inj hf
        rfl
    | succ f => cases hf

end Cache

end DevPilot.Protocol
