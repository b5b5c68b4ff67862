import DevPilot.Startup.DeferredClient

/-!
In which runs the deferred client is transparent: every call that is not dropped reaches
the target, once and in call order, and no promise of a buffered call is forgotten.
-/

namespace DevPilot.Startup

open Runs

namespace DrainStage

def rest : DrainStage → List BufferEntry
  | calling _ _ rest _ | awaiting _ _ rest _ => rest
  | _ => []

def current : DrainStage → Option BufferEntry
  | calling _ entry _ _ | awaiting _ entry _ _ => some entry
  | _ => none

def target? : DrainStage → Option ℕ
  | calling target .. | awaiting target .. => some target
  | _ => none

def busy : DrainStage → Bool
  | returned | done => false
  | _ => true

end DrainStage

def Entry.reached? : Entry → Option ℕ
  | reached call _ => some call
  | _ => none

namespace Client

variable {limits : Limits} {s : Client} {d : Drain} {e : BufferEntry} {rest : List BufferEntry}
  {current : Option BufferEntry}

def reachedCalls (s : Client) : List ℕ := s.log.filterMap Entry.reached?

def Waits (s : Client) (call : ℕ) : Prop :=
  (∃ d ∈ s.drains, call ∈ d.stage.rest.map (·.call)) ∨
    call ∈ s.buffer.map (·.call) ∧ (s.target = none ∨ ∃ d ∈ s.drains, d.stage.busy = true)

def Executes (s : Client) (call : ℕ) : Prop :=
  ∃ d ∈ s.drains, ∃ e, d.stage.current = some e ∧ e.call = call

structure Kept (s : Client) : Prop where
  ordered : s.reachedCalls.Pairwise (· < ·)
  sameTarget : ∀ call target, .reached call target ∈ s.log → s.target = some target
  dropped : ∀ call, .dropped call ∈ s.log → call ∉ s.reachedCalls
  accounted : ∀ call < s.nextCall, call ∈ s.reachedCalls ∨ .dropped call ∈ s.log ∨ s.Waits call
  settled : ∀ call, .promised call ∈ s.log →
    (∃ fulfilled, .settled call fulfilled ∈ s.log) ∨ s.Waits call ∨ s.Executes call

/-- No write comes between the last look of a drain at the buffer and the end of
`flushInFlight`, and none from inside `attach` while entries are left to flush. `attach` is
not called from inside `attach`. -/
def Calm (s : Client) : Event → Prop
  | .write _ => ∀ d ∈ s.drains, (d.stage = .returned → s.cancelled = true) ∧
      (d.inAttach = true → d.stage.rest = [] ∧ s.buffer = [])
  | .attach _ => ∀ d ∈ s.drains, d.inAttach = false
  | _ => True

instance (s : Client) : ∀ e, Decidable (s.Calm e)
  | .write _ => inferInstanceAs (Decidable (∀ d ∈ s.drains, (d.stage = .returned → s.cancelled = true) ∧
      (d.inAttach = true → d.stage.rest = [] ∧ s.buffer = [])))
  | .attach _ => inferInstanceAs (Decidable (∀ d ∈ s.drains, d.inAttach = false))
  | .cancel | .proceed .. => inferInstanceAs (Decidable True)

/-- What holds of the calls, where a drain has begun with `current` and still has `rest`. -/
structure Calls (s : Client) (rest : List BufferEntry) (current : Option BufferEntry) : Prop where
  ordered : (s.reachedCalls ++ (rest ++ s.buffer).map (·.call)).Pairwise (· < ·)
  bounded : ∀ call ∈ s.reachedCalls ++ (rest ++ s.buffer).map (·.call), call < s.nextCall
  sameTarget : ∀ call target, .reached call target ∈ s.log → s.target = some target
  dropped : ∀ call, .dropped call ∈ s.log →
    call < s.nextCall ∧ call ∉ s.reachedCalls ++ (rest ++ s.buffer).map (·.call)
  accounted : ∀ call < s.nextCall,
    .dropped call ∈ s.log ∨ call ∈ s.reachedCalls ++ (rest ++ s.buffer).map (·.call)
  promised : ∀ call, .promised call ∈ s.log → call < s.nextCall
  settled : ∀ call, .promised call ∈ s.log → (∃ fulfilled, .settled call fulfilled ∈ s.log) ∨
    call ∈ (current.toList ++ rest ++ s.buffer).map (·.call)
  deferred : ∀ e ∈ current.toList ++ rest ++ s.buffer, .promised e.call ∈ s.log → e.kind.deferred = true
  begun : ∀ e ∈ current, e.call ∈ s.reachedCalls
  emptied : s.cancelled = true → s.buffer = []

theorem calls_init : ({} : Client).Calls [] none where
  ordered := by simp [reachedCalls]
  bounded := by simp [reachedCalls]
  sameTarget := by simp
  dropped := by simp
  accounted := by simp
  promised := by simp
  settled := by simp
  deferred := by simp
  begun := by simp
  emptied := by simp

theorem Calls.congr {s' : Client} (h : s.Calls rest current) (hlog : s'.log = s.log)
    (hbuffer : s'.buffer = s.buffer) (hnext : s'.nextCall = s.nextCall) (htarget : s'.target = s.target)
    (hcancelled : s'.cancelled = s.cancelled) : s'.Calls rest current := by
  obtain ⟨h₁, h₂, h₃, h₄, h₅, h₆, h₇, h₈, h₉, h₁₀⟩ := h
  constructor <;> simpa only [reachedCalls, hlog, hbuffer, hnext, htarget, hcancelled]

theorem mem_settle {x : Entry} {fulfilled : Bool} (h : x ∈ settle e fulfilled) :
    x = .settled e.call fulfilled := by
  rw [settle] at h
  split_ifs at h
  · exact List.mem_singleton.mp h
  · cases h

theorem mem_drop {x : Entry} (h : x ∈ drop e) : x = .dropped e.call ∨ x = .settled e.call true := by
  rcases List.mem_cons.mp h with h | h
  · exact .inl h
  · exact .inr (mem_settle h)

theorem reachedCalls_record {entries : List Entry} (h : ∀ x ∈ entries, x.reached? = none) :
    (s.record entries).reachedCalls = s.reachedCalls := by
  rw [reachedCalls, record, List.filterMap_append, List.filterMap_eq_nil_iff.mpr h, List.append_nil,
    reachedCalls]

theorem Calls.settleCurrent (h : s.Calls rest (some e)) (fulfilled : Bool) :
    (s.record (settle e fulfilled)).Calls rest none := by
  have hreached : (s.record (settle e fulfilled)).reachedCalls = s.reachedCalls :=
    reachedCalls_record fun x hx => by rw [mem_settle hx]; rfl
  have hold : ∀ x ∈ s.log ++ settle e fulfilled, (∀ b, x ≠ .settled e.call b) → x ∈ s.log := by
    intro x hx hne
    rcases List.mem_append.mp hx with hx | hx
    · exact hx
    · exact absurd (mem_settle hx) (hne _)
  constructor
  case ordered => rw [hreached]; exact h.ordered
  case bounded => rw [hreached]; exact h.bounded
  case sameTarget => exact fun call target hc => h.sameTarget call target (hold _ hc (by simp))
  case dropped => rw [hreached]; exact fun call hc => h.dropped call (hold _ hc (by simp))
  case accounted =>
    rw [hreached]
    exact fun call hc => (h.accounted call hc).imp_left (List.mem_append_left _)
  case promised => exact fun call hc => h.promised call (hold _ hc (by simp))
  case settled =>
    intro call hc
    have hc := hold _ hc (by simp)
    rcases h.settled call hc with ⟨b, hb⟩ | hmem
    · exact .inl ⟨b, List.mem_append_left _ hb⟩
    · simp only [Option.toList_some, List.cons_append, List.nil_append, List.map_cons,
        List.mem_cons] at hmem
      rcases hmem with rfl | hmem
      · have hdeferred := h.deferred e (by simp) hc
        exact .inl ⟨fulfilled, List.mem_append_right _ (by simp [settle, hdeferred])⟩
      · exact .inr (by simpa [record] using hmem)
  case deferred =>
    intro x hx hc
    exact h.deferred x (by simp [record] at hx ⊢; exact .inr hx) (hold _ hc (by simp))
  case begun => nofun
  case emptied => exact h.emptied

theorem Calls.dismiss (h : s.Calls rest (some e)) (hkind : e.kind.deferred = false) :
    s.Calls rest none := by
  refine ⟨h.ordered, h.bounded, h.sameTarget, h.dropped, h.accounted, h.promised, fun call hc => ?_,
    fun x hx hc => h.deferred x (by simp at hx ⊢; exact .inr hx) hc, nofun, h.emptied⟩
  refine (h.settled call hc).imp_right fun hmem => ?_
  simp only [Option.toList_some, List.cons_append, List.nil_append, List.map_cons, List.mem_cons] at hmem
  rcases hmem with rfl | hmem
  · rw [h.deferred e (by simp) hc] at hkind
    cases hkind
  · simpa using hmem

theorem Calls.reach (h : s.Calls (e :: rest) none) {target : ℕ} (htarget : s.target = some target) :
    (s.record [.reached e.call target]).Calls rest (some e) := by
  have hreached : (s.record [.reached e.call target]).reachedCalls = s.reachedCalls ++ [e.call] := by
    rw [reachedCalls, record, List.filterMap_append, reachedCalls]
    rfl
  have hsame : (s.record [.reached e.call target]).reachedCalls ++ (rest ++ s.buffer).map (·.call) =
      s.reachedCalls ++ ((e :: rest) ++ s.buffer).map (·.call) := by
    rw [hreached]
    simp
  have hold : ∀ x ∈ s.log ++ [Entry.reached e.call target], x.reached? = none → x ∈ s.log := by
    intro x hx hnone
    rcases List.mem_append.mp hx with hx | hx
    · exact hx
    · rw [List.mem_singleton.mp hx] at hnone
      cases hnone
  constructor
  case ordered =>
    change ((s.record _).reachedCalls ++ (rest ++ s.buffer).map _).Pairwise _
    rw [hsame]
    exact h.ordered
  case bounded =>
    change ∀ call ∈ (s.record _).reachedCalls ++ (rest ++ s.buffer).map _, _
    rw [hsame]
    exact h.bounded
  case sameTarget =>
    intro call t hc
    rcases List.mem_append.mp hc with hc | hc
    · exact h.sameTarget call t hc
    · cases List.mem_singleton.mp hc
      exact htarget
  case dropped =>
    change ∀ call, _ → _ ∧ call ∉ (s.record _).reachedCalls ++ (rest ++ s.buffer).map _
    rw [hsame]
    exact fun call hc => h.dropped call (hold _ hc rfl)
  case accounted =>
    change ∀ call < _, _ ∨ call ∈ (s.record _).reachedCalls ++ (rest ++ s.buffer).map _
    rw [hsame]
    exact fun call hc => (h.accounted call hc).imp_left (List.mem_append_left _)
  case promised => exact fun call hc => h.promised call (hold _ hc rfl)
  case settled =>
    intro call hc
    refine (h.settled call (hold _ hc rfl)).imp ?_ fun hmem => ?_
    · rintro ⟨b, hb⟩
      exact ⟨b, List.mem_append_left _ hb⟩
    · simpa [record] using hmem
  case deferred =>
    intro x hx hc
    exact h.deferred x (by simpa [record] using hx) (hold _ hc rfl)
  case begun =>
    rintro _ ⟨⟩
    rw [hreached]
    exact List.mem_append_right _ (List.mem_singleton_self _)
  case emptied => exact h.emptied

theorem Calls.take (h : s.Calls [] none) :
    Calls { s with buffer := [], bufferBytes := 0 } s.buffer none := by
  have hsame : s.buffer ++ ({ s with buffer := [], bufferBytes := 0 } : Client).buffer = [] ++ s.buffer :=
    List.append_nil _
  refine ⟨?_, ?_, h.sameTarget, ?_, ?_, h.promised, ?_, ?_, nofun, fun _ => rfl⟩
  · rw [hsame]
    exact h.ordered
  · rw [hsame]
    exact h.bounded
  · rw [hsame]
    exact h.dropped
  · rw [hsame]
    exact h.accounted
  · rw [Option.toList_none, List.nil_append, hsame]
    exact h.settled
  · rw [Option.toList_none, List.nil_append, hsame]
    exact h.deferred

theorem reached?_drop {x : Entry} {entries : List BufferEntry} (h : x ∈ entries.flatMap drop) :
    x.reached? = none := by
  obtain ⟨e, -, hx⟩ := List.mem_flatMap.mp h
  rcases mem_drop hx with rfl | rfl <;> rfl

theorem Calls.dropFirst (h : s.Calls rest current) {dropped kept : List BufferEntry}
    (hbuffer : s.buffer = dropped ++ kept) {s' : Client} (hlog : s'.log = s.log ++ dropped.flatMap drop)
    (hkept : s'.buffer = kept) (hnext : s'.nextCall = s.nextCall) (htarget : s'.target = s.target)
    (hcancelled : s'.cancelled = true → kept = []) : s'.Calls rest current := by
  have hreached : s'.reachedCalls = s.reachedCalls := by
    rw [reachedCalls, hlog, List.filterMap_append,
      List.filterMap_eq_nil_iff.mpr fun x hx => reached?_drop hx, List.append_nil, reachedCalls]
  have hsub : (s'.reachedCalls ++ (rest ++ s'.buffer).map (·.call)).Sublist
      (s.reachedCalls ++ (rest ++ s.buffer).map (·.call)) := by
    rw [hreached, hkept, hbuffer]
    exact ((List.Sublist.append (List.Sublist.refl rest) (List.sublist_append_right dropped kept)).map
      _).append_left _
  have hold : ∀ x ∈ s'.log, (∀ call, x ≠ .dropped call) → (∀ call b, x ≠ .settled call b) → x ∈ s.log := by
    intro x hx hdropped hsettled
    rw [hlog] at hx
    rcases List.mem_append.mp hx with hx | hx
    · exact hx
    · obtain ⟨e, -, hx⟩ := List.mem_flatMap.mp hx
      rcases mem_drop hx with rfl | rfl
      · exact absurd rfl (hdropped _)
      · exact absurd rfl (hsettled _ _)
  have hin : ∀ e ∈ dropped, .dropped e.call ∈ s'.log := by
    intro e he
    rw [hlog]
    exact List.mem_append_right _ (List.mem_flatMap.mpr ⟨e, he, List.mem_cons_self⟩)
  constructor
  case ordered => exact h.ordered.sublist hsub
  case bounded =>
    rw [hnext]
    exact fun call hc => h.bounded call (hsub.subset hc)
  case sameTarget =>
    rw [htarget]
    exact fun call t hc => h.sameTarget call t (hold _ hc (by simp) (by simp))
  case dropped =>
    intro call hc
    rw [hlog] at hc
    rw [hnext]
    rcases List.mem_append.mp hc with hc | hc
    · exact (h.dropped call hc).imp_right fun hnot hmem => hnot (hsub.subset hmem)
    · obtain ⟨e, he, hx⟩ := List.mem_flatMap.mp hc
      rcases mem_drop hx with heq | heq
      · cases heq
        have he : e.call ∈ dropped.map (·.call) := List.mem_map_of_mem (f := BufferEntry.call) he
        refine ⟨h.bounded e.call ?_, fun hleft => ?_⟩
        · rw [hbuffer, List.map_append, List.map_append]
          exact List.mem_append_right _ (List.mem_append_right _ (List.mem_append_left _ he))
        -- the dropped calls come between those that are begun with and those that are left
        have hnodup : ((s.reachedCalls ++ rest.map (·.call)) ++
            (dropped.map (·.call) ++ kept.map (·.call))).Nodup := by
          have hnodup := h.ordered.imp fun hlt => hlt.ne
          simpa [hbuffer, List.Nodup] using hnodup
        rw [hreached, hkept, List.map_append, ← List.append_assoc] at hleft
        rcases List.mem_append.mp hleft with hleft | hleft
        · exact List.disjoint_of_nodup_append hnodup hleft (List.mem_append_left _ he)
        · exact List.disjoint_of_nodup_append hnodup.of_append_right he hleft
      · cases heq
  case accounted =>
    intro call hc
    rw [hnext] at hc
    rcases h.accounted call hc with hdropped | hmem
    · exact .inl (hlog ▸ List.mem_append_left _ hdropped)
    · rw [hreached, hkept]
      rw [hbuffer] at hmem
      simp only [List.map_append, List.mem_append] at hmem ⊢
      rcases hmem with hmem | hmem | hmem | hmem
      · exact .inr (.inl hmem)
      · exact .inr (.inr (.inl hmem))
      · obtain ⟨e, he, rfl⟩ := List.mem_map.mp hmem
        exact .inl (hin e he)
      · exact .inr (.inr (.inr hmem))
  case promised =>
    rw [hnext]
    exact fun call hc => h.promised call (hold _ hc (by simp) (by simp))
  case settled =>
    intro call hc
    have hc := hold _ hc (by simp) (by simp)
    rcases h.settled call hc with ⟨b, hb⟩ | hmem
    · exact .inl ⟨b, hlog ▸ List.mem_append_left _ hb⟩
    · rw [hbuffer] at hmem
      rw [hkept]
      simp only [List.map_append, List.mem_append] at hmem ⊢
      rcases hmem with (hmem | hmem) | hmem | hmem
      · exact .inr (.inl (.inl hmem))
      · exact .inr (.inl (.inr hmem))
      · obtain ⟨e, he, rfl⟩ := List.mem_map.mp hmem
        have hdeferred := h.deferred e (by simp [hbuffer, he]) hc
        refine .inl ⟨true, ?_⟩
        rw [hlog]
        exact List.mem_append_right _ (List.mem_flatMap.mpr ⟨e, he, by simp [drop, settle, hdeferred]⟩)
      · exact .inr (.inr hmem)
  case deferred =>
    intro x hx hc
    rw [hkept] at hx
    refine h.deferred x ?_ (hold _ hc (by simp) (by simp))
    rw [hbuffer]
    simp only [List.mem_append] at hx ⊢
    exact hx.imp_right .inr
  case begun =>
    rw [hreached]
    exact h.begun
  case emptied => exact fun hc => hkept.trans (hcancelled hc)

theorem pairwise_concat {l : List ℕ} {n : ℕ} (h : l.Pairwise (· < ·)) (hlt : ∀ m ∈ l, m < n) :
    (l ++ [n]).Pairwise (· < ·) := by
  refine List.pairwise_append.mpr ⟨h, List.pairwise_singleton .., fun m hm x hx => ?_⟩
  rw [List.mem_singleton.mp hx]
  exact hlt m hm

theorem Calls.direct (h : s.Calls [] current) (hbuffer : s.buffer = []) {target : ℕ}
    (htarget : s.target = some target) :
    Calls (record { s with nextCall := s.nextCall + 1 } [.reached s.nextCall target]) [] current := by
  have hreached : (record { s with nextCall := s.nextCall + 1 } [.reached s.nextCall target]).reachedCalls =
      s.reachedCalls ++ [s.nextCall] := by
    rw [reachedCalls, record, List.filterMap_append, reachedCalls]
    rfl
  have hpending : ([] ++ s.buffer).map BufferEntry.call = [] := by simp [hbuffer]
  obtain ⟨hordered, hbounded, hsame, hdropped, haccounted, hpromised, hsettled, hdeferred, hbegun, hemptied⟩ := h
  rw [hpending, List.append_nil] at hordered hbounded
  simp only [hpending, List.append_nil] at hdropped haccounted
  have hold : ∀ x ∈ s.log ++ [Entry.reached s.nextCall target], x.reached? = none → x ∈ s.log := by
    intro x hx hnone
    rcases List.mem_append.mp hx with hx | hx
    · exact hx
    · rw [List.mem_singleton.mp hx] at hnone
      cases hnone
  constructor
  case ordered =>
    change (reachedCalls (record ..) ++ ([] ++ s.buffer).map BufferEntry.call).Pairwise _
    rw [hpending, hreached, List.append_nil]
    exact pairwise_concat hordered hbounded
  case bounded =>
    change ∀ call ∈ reachedCalls (record ..) ++ ([] ++ s.buffer).map BufferEntry.call, call < s.nextCall + 1
    rw [hpending, hreached, List.append_nil]
    intro call hc
    rcases List.mem_append.mp hc with hc | hc
    · exact (hbounded call hc).trans (Nat.lt_succ_self _)
    · rw [List.mem_singleton.mp hc]
      exact Nat.lt_succ_self _
  case sameTarget =>
    intro call t hc
    rcases List.mem_append.mp hc with hc | hc
    · exact hsame call t hc
    · cases List.mem_singleton.mp hc
      exact htarget
  case dropped =>
    intro call hc
    obtain ⟨hlt, hnot⟩ := hdropped call (hold _ hc rfl)
    change call < s.nextCall + 1 ∧ call ∉ reachedCalls (record ..) ++ ([] ++ s.buffer).map BufferEntry.call
    rw [hpending, hreached, List.append_nil, List.mem_append, List.mem_singleton]
    exact ⟨hlt.trans (Nat.lt_succ_self _), not_or.mpr ⟨hnot, hlt.ne⟩⟩
  case accounted =>
    intro call hc
    change _ ∨ call ∈ reachedCalls (record ..) ++ ([] ++ s.buffer).map BufferEntry.call
    rw [hpending, hreached, List.append_nil, List.mem_append, List.mem_singleton]
    rcases Nat.lt_succ_iff_lt_or_eq.mp hc with hc | rfl
    · exact (haccounted call hc).imp (List.mem_append_left _) .inl
    · exact .inr (.inr rfl)
  case promised => exact fun call hc => (hpromised call (hold _ hc rfl)).trans (Nat.lt_succ_self _)
  case settled =>
    intro call hc
    refine (hsettled call (hold _ hc rfl)).imp_left ?_
    rintro ⟨b, hb⟩
    exact ⟨b, List.mem_append_left _ hb⟩
  case deferred => exact fun x hx hc => hdeferred x hx (hold _ hc rfl)
  case begun =>
    rw [hreached]
    exact fun e he => List.mem_append_left _ (hbegun e he)
  case emptied => exact hemptied

theorem Calls.dropNew (h : s.Calls rest current) (kind : WriteKind) :
    Calls (record { s with nextCall := s.nextCall + 1 } (drop ⟨s.nextCall, kind⟩)) rest current := by
  have hreached : (record { s with nextCall := s.nextCall + 1 } (drop ⟨s.nextCall, kind⟩)).reachedCalls =
      s.reachedCalls :=
    reachedCalls_record fun x hx => by rcases mem_drop hx with rfl | rfl <;> rfl
  have hold : ∀ x ∈ s.log ++ drop ⟨s.nextCall, kind⟩,
      x = .dropped s.nextCall ∨ x = .settled s.nextCall true ∨ x ∈ s.log := by
    intro x hx
    rcases List.mem_append.mp hx with hx | hx
    · exact .inr (.inr hx)
    · exact (mem_drop hx).imp_right .inl
  obtain ⟨hordered, hbounded, hsame, hdropped, haccounted, hpromised, hsettled, hdeferred, hbegun, hemptied⟩ := h
  constructor
  case ordered => rw [hreached]; exact hordered
  case bounded =>
    rw [hreached]
    exact fun call hc => (hbounded call hc).trans (Nat.lt_succ_self _)
  case sameTarget =>
    intro call t hc
    rcases hold _ hc with heq | heq | hc
    · cases heq
    · cases heq
    · exact hsame call t hc
  case dropped =>
    intro call hc
    rw [hreached]
    rcases hold _ hc with heq | heq | hc
    · cases heq
      exact ⟨Nat.lt_succ_self _, fun hmem => lt_irrefl _ (hbounded _ hmem)⟩
    · cases heq
    · exact (hdropped call hc).imp_left fun hlt => hlt.trans (Nat.lt_succ_self _)
  case accounted =>
    intro call hc
    rw [hreached]
    rcases Nat.lt_succ_iff_lt_or_eq.mp hc with hc | rfl
    · exact (haccounted call hc).imp_left (List.mem_append_left _)
    · exact .inl (List.mem_append_right _ List.mem_cons_self)
  case promised =>
    intro call hc
    rcases hold _ hc with heq | heq | hc
    · cases heq
    · cases heq
    · exact (hpromised call hc).trans (Nat.lt_succ_self _)
  case settled =>
    intro call hc
    rcases hold _ hc with heq | heq | hc
    · cases heq
    · cases heq
    · refine (hsettled call hc).imp_left ?_
      rintro ⟨b, hb⟩
      exact ⟨b, List.mem_append_left _ hb⟩
  case deferred =>
    intro x hx hc
    rcases hold _ hc with heq | heq | hc
    · cases heq
    · cases heq
    · exact hdeferred x hx hc
  case begun =>
    rw [hreached]
    exact hbegun
  case emptied => exact hemptied

theorem Calls.push (h : s.Calls rest current) (hlive : s.cancelled = false) (kind : WriteKind)
    {s' : Client} (hlog : s'.log = s.log ++ if kind.deferred then [.promised s.nextCall] else [])
    (hbuffer : s'.buffer = s.buffer ++ [⟨s.nextCall, kind⟩]) (hnext : s'.nextCall = s.nextCall + 1)
    (htarget : s'.target = s.target) (hcancelled : s'.cancelled = s.cancelled) :
    s'.Calls rest current := by
  have hreached : s'.reachedCalls = s.reachedCalls := by
    rw [reachedCalls, hlog, List.filterMap_append]
    split_ifs <;> simp [reachedCalls, Entry.reached?]
  have hold : ∀ x ∈ s'.log, x = .promised s.nextCall ∧ kind.deferred = true ∨ x ∈ s.log := by
    intro x hx
    rw [hlog] at hx
    rcases List.mem_append.mp hx with hx | hx
    · exact .inr hx
    · split_ifs at hx with hkind
      · exact .inl ⟨List.mem_singleton.mp hx, hkind⟩
      · cases hx
  have hcalls : (rest ++ s'.buffer).map (·.call) = (rest ++ s.buffer).map (·.call) ++ [s.nextCall] := by
    simp [hbuffer]
  obtain ⟨hordered, hbounded, hsame, hdropped, haccounted, hpromised, hsettled, hdeferred, hbegun, hemptied⟩ := h
  constructor
  case ordered =>
    rw [hreached, hcalls, ← List.append_assoc]
    exact pairwise_concat hordered hbounded
  case bounded =>
    rw [hreached, hcalls, ← List.append_assoc, hnext]
    intro call hc
    rcases List.mem_append.mp hc with hc | hc
    · exact (hbounded call hc).trans (Nat.lt_succ_self _)
    · rw [List.mem_singleton.mp hc]
      exact Nat.lt_succ_self _
  case sameTarget =>
    intro call t hc
    rcases hold _ hc with ⟨heq, -⟩ | hc
    · cases heq
    · exact htarget.trans (hsame call t hc)
  case dropped =>
    intro call hc
    rcases hold _ hc with ⟨heq, -⟩ | hc
    · cases heq
    · obtain ⟨hlt, hnot⟩ := hdropped call hc
      rw [hreached, hcalls, ← List.append_assoc, hnext, List.mem_append, List.mem_singleton]
      exact ⟨hlt.trans (Nat.lt_succ_self _), not_or.mpr ⟨hnot, hlt.ne⟩⟩
  case accounted =>
    intro call hc
    rw [hnext] at hc
    rw [hreached, hcalls, ← List.append_assoc, List.mem_append, List.mem_singleton]
    rcases Nat.lt_succ_iff_lt_or_eq.mp hc with hc | rfl
    · exact (haccounted call hc).imp (fun hd => hlog ▸ List.mem_append_left _ hd) .inl
    · exact .inr (.inr rfl)
  case promised =>
    intro call hc
    rw [hnext]
    rcases hold _ hc with ⟨heq, -⟩ | hc
    · cases heq
      exact Nat.lt_succ_self _
    · exact (hpromised call hc).trans (Nat.lt_succ_self _)
  case settled =>
    intro call hc
    rw [hbuffer]
    rcases hold _ hc with ⟨heq, -⟩ | hc
    · cases heq
      exact .inr (by simp)
    · refine (hsettled call hc).imp ?_ fun hmem => ?_
      · rintro ⟨b, hb⟩
        exact ⟨b, hlog ▸ List.mem_append_left _ hb⟩
      · rw [← List.append_assoc, List.map_append]
        exact List.mem_append_left _ hmem
  case deferred =>
    intro x hx hc
    rw [hbuffer, ← List.append_assoc] at hx
    rcases List.mem_append.mp hx with hx | hx
    · rcases hold _ hc with ⟨heq, hkind⟩ | hc
      · -- an older entry has another number
        have hlt : x.call < s.nextCall := by
          rcases List.mem_append.mp hx with hx | hx
          · rcases List.mem_append.mp hx with hx | hx
            · exact hbounded _ (List.mem_append_left _ (hbegun x (by simpa using hx)))
            · exact hbounded _ (List.mem_append_right _
                (List.mem_map_of_mem (f := BufferEntry.call) (List.mem_append_left _ hx)))
          · exact hbounded _ (List.mem_append_right _
              (List.mem_map_of_mem (f := BufferEntry.call) (List.mem_append_right _ hx)))
        exact absurd (Entry.promised.inj heq) hlt.ne
      · exact hdeferred x hx hc
    · rw [List.mem_singleton.mp hx] at hc ⊢
      rcases hold _ hc with ⟨-, hkind⟩ | hc
      · exact hkind
      · exact absurd (hpromised _ hc) (lt_irrefl _)
  case begun =>
    rw [hreached]
    exact hbegun
  case emptied =>
    intro hc
    rw [hcancelled, hlive] at hc
    cases hc

/-- How far the one drain has come, and who may write past the buffer. -/
structure Phase (s : Client) (d : Drain) : Prop where
  attaching : d.inAttach = true → s.flushInFlight = none ∧ s.attachPromise = false ∧
    d.stage ≠ .returned ∧ d.stage ≠ .done
  attached : d.inAttach = false → s.attachPromise = true ∧
    (d.stage ≠ .done → s.flushInFlight = some 0) ∧ (d.stage = .done → s.flushInFlight = none)
  drained : d.stage.busy = false → s.buffer = []
  target : ∀ target ∈ d.stage.target?, s.target = some target

/-- At most one drain was started, and with it there is a target. -/
inductive Inv (s : Client) : Prop
  | detached (htarget : s.target = none) (hdrains : s.drains = []) (hflush : s.flushInFlight = none)
      (hcalls : s.Calls [] none)
  | attached (d : Drain) (target : ℕ) (htarget : s.target = some target) (hdrains : s.drains = [d])
      (hphase : s.Phase d) (hcalls : s.Calls d.stage.rest d.stage.current)

structure Draining (s : Client) (d : Drain) (target : ℕ) : Prop where
  htarget : s.target = some target
  hdrains : s.drains = [d]
  flush : if d.inAttach then s.flushInFlight = none ∧ s.attachPromise = false
    else s.flushInFlight = some 0 ∧ s.attachPromise = true

theorem Draining.inv_goto (target : ℕ) (h : s.Draining d target) {stage : DrainStage} {suspends : Bool}
    (hcalls : s.Calls stage.rest stage.current) (hdone : stage ≠ .done)
    (hreturned : stage = .returned → suspends = true) (hdrained : stage.busy = false → s.buffer = [])
    (htargets : ∀ target ∈ stage.target?, s.target = some target) :
    (s.goto 0 d stage suspends).Inv := by
  obtain ⟨htarget, hdrains, hflush⟩ := h
  rw [goto]
  simp only [hdrains, List.set_cons_zero]
  cases hin : d.inAttach with
  | true =>
      rw [if_pos hin] at hflush
      cases suspends with
      | true =>
          simp only [Bool.not_true, Bool.and_false, Bool.and_self, if_true]
          exact .attached ⟨false, stage⟩ target htarget rfl
            ⟨nofun, fun _ => ⟨rfl, fun _ => rfl, fun h => absurd h hdone⟩, hdrained, htargets⟩ (hcalls.congr rfl rfl rfl rfl rfl)
      | false =>
          simp only [Bool.not_false, Bool.and_true, Bool.and_false, Bool.false_eq_true, if_false]
          refine .attached ⟨true, stage⟩ target htarget rfl
            ⟨fun _ => ⟨hflush.1, hflush.2, fun heq => ?_, hdone⟩, nofun, hdrained, htargets⟩
            (hcalls.congr rfl rfl rfl rfl rfl)
          exact absurd (hreturned heq) (by simp)
  | false =>
      rw [if_neg (by simp [hin])] at hflush
      simp only [Bool.false_and, Bool.false_eq_true, if_false]
      exact .attached ⟨false, stage⟩ target htarget rfl
        ⟨nofun, fun _ => ⟨hflush.2, fun _ => hflush.1, fun h => absurd h hdone⟩, hdrained, htargets⟩ (hcalls.congr rfl rfl rfl rfl rfl)

theorem Draining.congr {target : ℕ} {s' : Client} (h : s.Draining d target) (htarget : s'.target = s.target)
    (hdrains : s'.drains = s.drains) (hflush : s'.flushInFlight = s.flushInFlight)
    (hattach : s'.attachPromise = s.attachPromise) : s'.Draining d target := by
  obtain ⟨h₁, h₂, h₃⟩ := h
  exact ⟨htarget.trans h₁, hdrains.trans h₂, by rw [hflush, hattach]; exact h₃⟩

theorem inv_flushNext {target : ℕ} (h : s.Draining d target) (hcalls : s.Calls rest none) (hadError : Bool) :
    (s.flushNext 0 d target rest hadError).Inv := by
  cases rest with
  | nil =>
      rw [flushNext]
      refine Draining.inv_goto target ?_ ?_ (by simp) (by simp) (by simp [DrainStage.busy]) nofun
      · exact h.congr rfl rfl rfl rfl
      · exact Calls.congr hcalls rfl rfl rfl rfl rfl
  | cons e rest =>
      rw [flushNext]
      refine Draining.inv_goto target ?_ ?_ (by simp) (by simp) (by simp [DrainStage.busy]) ?_
      · exact h.congr rfl rfl rfl rfl
      · exact hcalls.reach h.htarget
      · rintro _ ⟨⟩
        exact h.htarget

theorem inv_drainBuffer {target : ℕ} (h : s.Draining d target) (hcalls : s.Calls [] none) :
    (s.drainBuffer 0 d).Inv := by
  rw [drainBuffer]
  split_ifs with hbuffer
  · exact h.inv_goto target hcalls (by simp) (by simp) (fun _ => hbuffer) nofun
  · rw [flushBufferedCalls]
    split
    next hnone =>
      rw [h.htarget] at hnone
      cases hnone
    next t ht =>
      obtain rfl := Option.some.inj (h.htarget.symm.trans ht)
      refine inv_flushNext ?_ hcalls.take false
      exact h.congr rfl rfl rfl rfl

theorem inv_warnErrors {target : ℕ} (h : s.Draining d target) (hcalls : s.Calls [] none) :
    (s.warnErrors 0 d).Inv := by
  rw [warnErrors]
  split_ifs
  · refine Draining.inv_goto target ?_ ?_ (by simp) (by simp) (by simp [DrainStage.busy]) nofun
    · exact h.congr rfl rfl rfl rfl
    · exact Calls.congr hcalls rfl rfl rfl rfl rfl
  · exact inv_drainBuffer h hcalls

theorem inv_drainLoop {target : ℕ} (h : s.Draining d target) (hcalls : s.Calls [] none) :
    (s.drainLoop 0 d).Inv := by
  rw [drainLoop]
  split_ifs with hcancelled
  · exact h.inv_goto target hcalls (by simp) (by simp) (fun _ => hcalls.emptied hcancelled) nofun
  · refine Draining.inv_goto target ?_ ?_ (by simp) (by simp) (by simp [DrainStage.busy]) nofun
    · exact h.congr rfl rfl rfl rfl
    · exact Calls.congr hcalls rfl rfl rfl rfl rfl
  · exact inv_warnErrors h hcalls

theorem Phase.draining (h : s.Phase d) {target : ℕ} (htarget : s.target = some target)
    (hdrains : s.drains = [d]) (hdone : d.stage ≠ .done) : s.Draining d target := by
  refine ⟨htarget, hdrains, ?_⟩
  cases hin : d.inAttach with
  | true => exact ⟨(h.attaching hin).1, (h.attaching hin).2.1⟩
  | false => exact ⟨(h.attached hin).2.1 hdone, (h.attached hin).1⟩

theorem inv_advance {target : ℕ} (htarget : s.target = some target) (hdrains : s.drains = [d])
    (hphase : s.Phase d) (hcalls : s.Calls d.stage.rest d.stage.current) (ok : Bool) :
    (s.advance 0 d ok).Inv := by
  have hdraining := hphase.draining htarget hdrains
  cases hstage : d.stage with
  | registering =>
      rw [hstage] at hcalls
      simp only [advance, hstage]
      exact inv_drainLoop (hdraining (by simp [hstage])) hcalls
  | warningOverflow =>
      rw [hstage] at hcalls
      simp only [advance, hstage]
      exact inv_warnErrors (hdraining (by simp [hstage])) hcalls
  | warningErrors =>
      rw [hstage] at hcalls
      simp only [advance, hstage]
      exact inv_drainBuffer (hdraining (by simp [hstage])) hcalls
  | calling t e rest hadError =>
      have hdraining := hdraining (by simp [hstage])
      have hsame := hphase.target t (by rw [hstage]; rfl)
      obtain rfl := Option.some.inj (htarget.symm.trans hsame)
      rw [hstage] at hcalls
      simp only [advance, hstage]
      split_ifs with hok
      · refine Draining.inv_goto target hdraining hcalls (by simp) (by simp) (by simp [DrainStage.busy]) ?_
        rintro _ ⟨⟩
        exact htarget
      · have hkind : e.kind.deferred = false := by
          rw [Bool.not_eq_true, Bool.or_eq_false_iff] at hok
          exact hok.2
        exact inv_flushNext hdraining (hcalls.dismiss hkind) true
  | awaiting t e rest hadError =>
      have hdraining := hdraining (by simp [hstage])
      have hsame := hphase.target t (by rw [hstage]; rfl)
      obtain rfl := Option.some.inj (htarget.symm.trans hsame)
      rw [hstage] at hcalls
      simp only [advance, hstage]
      split_ifs
      · refine inv_flushNext ?_ (hcalls.settleCurrent true) hadError
        exact hdraining.congr rfl rfl rfl rfl
      · refine inv_flushNext ?_ (hcalls.settleCurrent _) true
        exact hdraining.congr rfl rfl rfl rfl
  | resuming =>
      rw [hstage] at hcalls
      simp only [advance, hstage]
      exact inv_drainLoop (hdraining (by simp [hstage])) hcalls
  | returned =>
      have hin : d.inAttach = false := by
        by_contra hin
        exact (hphase.attaching (by simpa using hin)).2.2.1 hstage
      rw [hstage] at hcalls
      simp only [advance, hstage, hdrains, List.set_cons_zero]
      refine .attached { d with stage := .done } target htarget rfl ?_ (hcalls.congr rfl rfl rfl rfl rfl)
      refine ⟨fun h => ?_, fun _ => ⟨(hphase.attached hin).1, fun h => absurd rfl h, fun _ => rfl⟩,
        fun _ => ?_, nofun⟩
      · rw [hin] at h
        cases h
      · exact hphase.drained (by rw [hstage]; rfl)
  | done =>
      simp only [advance, hstage]
      exact .attached d target htarget hdrains hphase hcalls

theorem overLimit_append (limits : Limits) (bytes : ℤ) (entries : List BufferEntry) :
    (overLimit limits bytes entries).1 ++ (overLimit limits bytes entries).2 = entries := by
  induction entries generalizing bytes with
  | nil => rfl
  | cons e entries ih =>
      rw [overLimit]
      split_ifs
      · exact congrArg (e :: ·) (ih _)
      · rfl

theorem Calls.enforceBufferLimits (h : s.Calls rest current) (hlive : s.cancelled = false) :
    (s.enforceBufferLimits limits).Calls rest current := by
  have hbuffer := (overLimit_append limits s.bufferBytes s.buffer).symm
  rw [Client.enforceBufferLimits]
  generalize overLimit limits s.bufferBytes s.buffer = split at *
  refine Calls.dropFirst h hbuffer ?_ ?_ ?_ ?_ ?_
  · rfl
  · rfl
  · rfl
  · rfl
  · intro hc
    rw [show s.cancelled = true from hc] at hlive
    cases hlive

theorem Calls.cancel (h : s.Calls rest current) : s.cancel.Calls rest current := by
  rw [Client.cancel]
  split_ifs
  · exact h
  · exact h.dropFirst (List.append_nil _).symm rfl rfl rfl rfl fun _ => rfl

theorem Calls.write (h : s.Calls rest current) (kind : WriteKind)
    (hopen : s.target.isSome → s.flushInFlight = none → rest = [] ∧ s.buffer = []) :
    (s.write limits kind).Calls rest current := by
  rw [Client.write]
  split
  next target htarget hflush =>
    obtain ⟨rfl, hbuffer⟩ := hopen (by rw [htarget]; rfl) hflush
    exact h.direct hbuffer htarget
  next =>
    split_ifs with hcancelled
    · exact h.dropNew kind
    all_goals
      have hlive : s.cancelled = false := by simpa using hcancelled
      refine Calls.enforceBufferLimits ?_ hlive
      exact h.push hlive kind (by simp_all [record]) rfl rfl rfl rfl

theorem write_frame (limits : Limits) (s : Client) (kind : WriteKind) :
    (s.write limits kind).target = s.target ∧ (s.write limits kind).drains = s.drains ∧
      (s.write limits kind).flushInFlight = s.flushInFlight ∧
        (s.write limits kind).attachPromise = s.attachPromise := by
  rw [Client.write]
  split
  · exact ⟨rfl, rfl, rfl, rfl⟩
  · split_ifs <;> exact ⟨rfl, rfl, rfl, rfl⟩

theorem write_buffer_of_cancelled (hcancelled : s.cancelled = true) (kind : WriteKind) :
    (s.write limits kind).buffer = s.buffer := by
  rw [Client.write]
  split
  · rfl
  · rw [if_pos hcancelled]
    rfl

theorem write_buffer_of_open (htarget : s.target.isSome) (hflush : s.flushInFlight = none)
    (kind : WriteKind) : (s.write limits kind).buffer = s.buffer := by
  obtain ⟨target, htarget⟩ := Option.isSome_iff_exists.mp htarget
  simp only [Client.write, htarget, hflush]
  rfl

theorem inv_write (h : s.Inv) (kind : WriteKind) (hcalm : s.Calm (.write kind)) :
    (s.write limits kind).Inv := by
  obtain ⟨ht, hd, hf, ha⟩ := write_frame limits s kind
  cases h with
  | detached htarget hdrains hflush hcalls =>
      refine .detached (ht.trans htarget) (hd.trans hdrains) (hf.trans hflush) (hcalls.write kind ?_)
      rw [htarget]
      exact nofun
  | attached d target htarget hdrains hphase hcalls =>
      obtain ⟨hreturned, hattach⟩ := hcalm d (by rw [hdrains]; exact List.mem_singleton_self d)
      have hopen : s.flushInFlight = none → d.stage.rest = [] ∧ s.buffer = [] := by
        intro hflush
        cases hin : d.inAttach with
        | true => exact hattach hin
        | false =>
            have hdone : d.stage = .done := by
              by_contra hdone
              rw [(hphase.attached hin).2.1 hdone] at hflush
              cases hflush
            exact ⟨by rw [hdone]; rfl, hphase.drained (by rw [hdone]; rfl)⟩
      refine .attached d target (ht.trans htarget) (hd.trans hdrains)
        ⟨by rw [hf, ha]; exact hphase.attaching, by rw [hf, ha]; exact hphase.attached, fun hbusy => ?_,
          by rw [ht]; exact hphase.target⟩ (hcalls.write kind fun _ => hopen)
      -- a drain that does not look at the buffer any more has returned or is done
      have hbuffer := hphase.drained hbusy
      cases hflush : s.flushInFlight with
      | none => exact (write_buffer_of_open (by rw [htarget]; rfl) hflush kind).trans hbuffer
      | some i =>
          have hstage : d.stage = .returned := by
            cases hstage : d.stage with
            | returned => rfl
            | done =>
                cases hin : d.inAttach with
                | true => exact absurd hstage (hphase.attaching hin).2.2.2
                | false =>
                    rw [(hphase.attached hin).2.2 hstage] at hflush
                    cases hflush
            | _ => rw [hstage] at hbusy; cases hbusy
          exact (write_buffer_of_cancelled (hreturned hstage) kind).trans hbuffer

theorem inv_attach (h : s.Inv) (target : ℕ) (hcalm : s.Calm (.attach target)) : (s.attach target).Inv := by
  rw [Client.attach]
  cases h with
  | detached htarget hdrains hflush hcalls =>
      split_ifs with hattach
      · exact .detached htarget hdrains hflush hcalls
      · exact .detached htarget hdrains hflush (hcalls.congr rfl rfl rfl rfl rfl)
      · refine .attached ⟨true, .registering⟩ target rfl (by rw [hdrains]; rfl)
          ⟨fun _ => ⟨hflush, by simpa using hattach, nofun, nofun⟩, nofun, nofun, nofun⟩
          ⟨hcalls.ordered, hcalls.bounded, fun call t hc => ?_, hcalls.dropped, hcalls.accounted,
            hcalls.promised, hcalls.settled, hcalls.deferred, hcalls.begun, hcalls.emptied⟩
        have hnone := hcalls.sameTarget call t hc
        rw [htarget] at hnone
        cases hnone
  | attached d t htarget hdrains hphase hcalls =>
      have hin : d.inAttach = false := hcalm d (by rw [hdrains]; exact List.mem_singleton_self d)
      rw [if_pos (hphase.attached hin).1]
      exact .attached d t htarget hdrains hphase hcalls

theorem inv_cancel (h : s.Inv) : s.cancel.Inv := by
  have hframe : s.cancel.target = s.target ∧ s.cancel.drains = s.drains ∧
      s.cancel.flushInFlight = s.flushInFlight ∧ s.cancel.attachPromise = s.attachPromise := by
    rw [Client.cancel]
    split_ifs <;> exact ⟨rfl, rfl, rfl, rfl⟩
  have hbuffer : s.buffer = [] → s.cancel.buffer = [] := by
    intro hbuffer
    rw [Client.cancel]
    split_ifs
    · exact hbuffer
    · rfl
  obtain ⟨ht, hd, hf, ha⟩ := hframe
  cases h with
  | detached htarget hdrains hflush hcalls => 
      exact .detached (ht.trans htarget) (hd.trans hdrains) (hf.trans hflush) hcalls.cancel
  | attached d target htarget hdrains hphase hcalls =>
      exact .attached d target (ht.trans htarget) (hd.trans hdrains)
        ⟨by rw [hf, ha]; exact hphase.attaching, by rw [hf, ha]; exact hphase.attached,
          fun hbusy => hbuffer (hphase.drained hbusy), by rw [ht]; exact hphase.target⟩ hcalls.cancel

theorem inv_step (e : Event) (h : s.Inv) (hcalm : s.Calm e) : (step limits s e).Inv := by
  cases e with
  | write kind => exact inv_write h kind hcalm
  | attach target => exact inv_attach h target hcalm
  | cancel => exact inv_cancel h
  | proceed drain ok =>
      rw [step]
      split
      · exact h
      next d hd =>
        cases h with
        | detached _ hdrains _ _ =>
            rw [hdrains] at hd
            cases hd
        | attached d' target htarget hdrains hphase hcalls =>
            rw [hdrains] at hd
            obtain ⟨rfl, rfl⟩ : drain = 0 ∧ d' = d := by
              cases drain with
              | zero => exact ⟨rfl, Option.some.inj hd⟩
              | succ n => cases hd
            exact inv_advance htarget hdrains hphase hcalls ok

theorem Calls.kept (h : s.Calls rest current)
    (hwaits : ∀ call ∈ (rest ++ s.buffer).map (·.call), s.Waits call)
    (hexecutes : ∀ e ∈ current, s.Executes e.call) : s.Kept where
  ordered := (List.pairwise_append.mp h.ordered).1
  sameTarget := h.sameTarget
  dropped := fun call hc hmem => (h.dropped call hc).2 (List.mem_append_left _ hmem)
  accounted := by
    intro call hc
    rcases h.accounted call hc with hdropped | hmem
    · exact .inr (.inl hdropped)
    · rcases List.mem_append.mp hmem with hmem | hmem
      · exact .inl hmem
      · exact .inr (.inr (hwaits call hmem))
  settled := by
    intro call hc
    refine (h.settled call hc).imp_right fun hmem => ?_
    rw [List.append_assoc, List.map_append, List.mem_append] at hmem
    rcases hmem with hmem | hmem
    · obtain ⟨e, he, rfl⟩ := List.mem_map.mp hmem
      exact .inr (hexecutes e (by simpa using he))
    · exact .inl (hwaits call hmem)

theorem kept_of_inv (h : s.Inv) : s.Kept := by
  cases h with
  | detached htarget hdrains hflush hcalls =>
      refine hcalls.kept (fun call hc => ?_) nofun
      exact .inr ⟨by simpa using hc, .inl htarget⟩
  | attached d target htarget hdrains hphase hcalls =>
      have hmem : d ∈ s.drains := by rw [hdrains]; exact List.mem_singleton_self d
      refine hcalls.kept (fun call hc => ?_) fun e he => ⟨d, hmem, e, he, rfl⟩
      rw [List.map_append, List.mem_append] at hc
      rcases hc with hc | hc
      · exact .inl ⟨d, hmem, hc⟩
      · refine .inr ⟨hc, .inr ⟨d, hmem, ?_⟩⟩
        by_contra hbusy
        rw [hphase.drained (by simpa using hbusy)] at hc
        cases hc

/-- How many steps the drain still takes at most. An entry of the buffer costs its call, its
`await` and a round of the loop. -/
def DrainStage.rank (buffered : ℕ) : DrainStage → ℕ
  | .registering | .resuming => 8 * buffered + 5
  | .warningOverflow => 8 * buffered + 4
  | .warningErrors => 8 * buffered + 3
  | .calling _ _ rest _ => 8 * buffered + 2 * rest.length + 7
  | .awaiting _ _ rest _ => 8 * buffered + 2 * rest.length + 6
  | .returned => 1
  | .done => 0

def rank (s : Client) : ℕ := (s.drains.map (DrainStage.rank s.buffer.length ·.stage)).sum

theorem rank_of_single (hdrains : s.drains = [d]) : s.rank = DrainStage.rank s.buffer.length d.stage := by
  simp [rank, hdrains]

theorem rank_goto (hdrains : s.drains = [d]) (stage : DrainStage) (suspends : Bool) :
    (s.goto 0 d stage suspends).rank = DrainStage.rank s.buffer.length stage := by
  rw [goto]
  split_ifs
  all_goals exact rank_of_single (d := ⟨d.inAttach && !suspends, stage⟩) (by rw [hdrains]; rfl)

theorem rank_flushNext (hdrains : s.drains = [d]) (target : ℕ) (entries : List BufferEntry) (hadError : Bool) :
    (s.flushNext 0 d target entries hadError).rank = 8 * s.buffer.length + 2 * entries.length + 5 := by
  cases entries with
  | nil =>
      rw [flushNext, rank_goto]
      · rfl
      · exact hdrains
  | cons e rest =>
      rw [flushNext, rank_goto]
      · simp only [DrainStage.rank, record, List.length_cons]
        omega
      · exact hdrains

theorem rank_drainBuffer (hdrains : s.drains = [d]) {target : ℕ} (htarget : s.target = some target) :
    (s.drainBuffer 0 d).rank ≤ 8 * s.buffer.length + 2 := by
  rw [drainBuffer]
  split_ifs with hbuffer
  · rw [rank_goto hdrains]
    simp [DrainStage.rank]
  · have hpos : 0 < s.buffer.length := List.length_pos_iff.mpr hbuffer
    simp only [flushBufferedCalls, htarget]
    rw [rank_flushNext]
    · simp only [List.length_nil]
      omega
    · exact hdrains

theorem rank_warnErrors (hdrains : s.drains = [d]) {target : ℕ} (htarget : s.target = some target) :
    (s.warnErrors 0 d).rank ≤ 8 * s.buffer.length + 3 := by
  rw [warnErrors]
  split_ifs
  · rw [rank_goto]
    · rfl
    · exact hdrains
  · exact (rank_drainBuffer hdrains htarget).trans (by omega)

theorem rank_drainLoop (hdrains : s.drains = [d]) {target : ℕ} (htarget : s.target = some target) :
    (s.drainLoop 0 d).rank ≤ 8 * s.buffer.length + 4 := by
  rw [drainLoop]
  split_ifs
  · rw [rank_goto hdrains]
    simp [DrainStage.rank]
  · rw [rank_goto]
    · rfl
    · exact hdrains
  · exact (rank_warnErrors hdrains htarget).trans (by omega)

theorem rank_advance (hdrains : s.drains = [d]) {target : ℕ} (htarget : s.target = some target)
    (hdone : d.stage ≠ .done) (ok : Bool) : (s.advance 0 d ok).rank < s.rank := by
  rw [rank_of_single hdrains]
  cases hstage : d.stage with
  | registering | resuming =>
      simp only [advance, hstage]
      exact Nat.lt_succ_of_le (rank_drainLoop hdrains htarget)
  | warningOverflow =>
      simp only [advance, hstage]
      exact Nat.lt_succ_of_le (rank_warnErrors hdrains htarget)
  | warningErrors =>
      simp only [advance, hstage]
      exact Nat.lt_succ_of_le (rank_drainBuffer hdrains htarget)
  | calling t e rest hadError =>
      simp only [advance, hstage]
      split_ifs
      · rw [rank_goto hdrains]
        simp [DrainStage.rank]
      · rw [rank_flushNext hdrains]
        simp [DrainStage.rank]
  | awaiting t e rest hadError =>
      simp only [advance, hstage]
      split_ifs
      all_goals
        rw [rank_flushNext]
        · exact Nat.lt_succ_self _
        · exact hdrains
  | returned =>
      have hrank : (s.advance 0 d ok).rank = 0 := by
        simp only [advance, hstage]
        exact rank_of_single (d := { d with stage := .done }) (by rw [hdrains]; rfl)
      rw [hrank]
      exact Nat.one_pos
  | done => exact absurd hstage hdone

@[simp] theorem goto_target (drain : ℕ) (d : Drain) (stage : DrainStage) (suspends : Bool) :
    (s.goto drain d stage suspends).target = s.target := by
  rw [goto]
  split_ifs <;> rfl

@[simp] theorem flushNext_target (drain : ℕ) (d : Drain) (target : ℕ) (entries : List BufferEntry)
    (hadError : Bool) : (s.flushNext drain d target entries hadError).target = s.target := by
  cases entries <;> simp [flushNext, record]

@[simp] theorem drainBuffer_target (drain : ℕ) (d : Drain) : (s.drainBuffer drain d).target = s.target := by
  rw [drainBuffer, flushBufferedCalls]
  split_ifs
  · simp
  · split <;> simp [*]

@[simp] theorem warnErrors_target (drain : ℕ) (d : Drain) : (s.warnErrors drain d).target = s.target := by
  rw [warnErrors]
  split_ifs <;> simp

@[simp] theorem drainLoop_target (drain : ℕ) (d : Drain) : (s.drainLoop drain d).target = s.target := by
  rw [drainLoop]
  split_ifs <;> simp

theorem advance_target (drain : ℕ) (d : Drain) (ok : Bool) : (s.advance drain d ok).target = s.target := by
  rw [advance]
  split
  case h_4 | h_5 => split_ifs <;> simp [record]
  all_goals simp

def proceedAll (limits : Limits) (s : Client) (outcomes : List Bool) : Client :=
  run (step limits) s (outcomes.map (.proceed 0 ·))

theorem proceedAll_done (limits : Limits) (h : s.Inv) {target : ℕ} (htarget : s.target = some target) (outcomes : List Bool)
    (hrank : s.rank ≤ outcomes.length) :
    (proceedAll limits s outcomes).Inv ∧ ∃ d, (proceedAll limits s outcomes).drains = [d] ∧ d.stage = .done := by
  induction outcomes generalizing s target with
  | nil =>
      refine ⟨h, ?_⟩
      cases h with
      | detached hnone =>
          rw [htarget] at hnone
          cases hnone
      | attached d t ht hdrains hphase hcalls =>
          refine ⟨d, hdrains, ?_⟩
          rw [rank_of_single hdrains] at hrank
          cases hstage : d.stage with
          | done => rfl
          | _ =>
              rw [hstage] at hrank
              simp [DrainStage.rank] at hrank
  | cons ok outcomes ih =>
      have hstep : (step limits s (.proceed 0 ok)).Inv := inv_step (.proceed 0 ok) h trivial
      cases h with
      | detached hnone =>
          rw [htarget] at hnone
          cases hnone
      | attached d t ht hdrains hphase hcalls =>
          have hadvance : step limits s (.proceed 0 ok) = s.advance 0 d ok := by simp [step, hdrains]
          by_cases hdone : d.stage = .done
          · have hstay : step limits s (.proceed 0 ok) = s := by rw [hadvance, advance, hdone]
            refine ih (s := step limits s (.proceed 0 ok)) hstep (by rw [hstay]; exact htarget) ?_
            rw [hstay, rank_of_single hdrains, hdone]
            exact Nat.zero_le _
          · have hless := rank_advance hdrains ht hdone ok
            rw [← hadvance] at hless
            have htarget' : (step limits s (.proceed 0 ok)).target = some t := by
              rw [hadvance, advance_target, ht]
            have hlength : (step limits s (.proceed 0 ok)).rank ≤ outcomes.length := by
              rw [List.length_cons] at hrank
              omega
            exact ih hstep htarget' hlength

/-- Every call has reached the target or was dropped, and every promise has settled. -/
structure Finished (s : Client) : Prop where
  accounted : ∀ call < s.nextCall, call ∈ s.reachedCalls ∨ .dropped call ∈ s.log
  settled : ∀ call, .promised call ∈ s.log → ∃ fulfilled, .settled call fulfilled ∈ s.log

theorem Kept.finished (h : s.Kept) (hdrains : s.drains = [d]) (hdone : d.stage = .done)
    (htarget : s.target.isSome) : s.Finished := by
  have hwaits : ∀ call, ¬ s.Waits call := by
    rintro call (⟨d', hd', hmem⟩ | ⟨-, hnone | ⟨d', hd', hbusy⟩⟩)
    · rw [hdrains, List.mem_singleton] at hd'
      subst hd'
      rw [hdone] at hmem
      cases hmem
    · rw [hnone] at htarget
      cases htarget
    · rw [hdrains, List.mem_singleton] at hd'
      subst hd'
      rw [hdone] at hbusy
      cases hbusy
  have hexecutes : ∀ call, ¬ s.Executes call := by
    rintro call ⟨d', hd', e, hcurrent, -⟩
    rw [hdrains, List.mem_singleton] at hd'
    subst hd'
    rw [hdone] at hcurrent
    cases hcurrent
  refine ⟨fun call hcall => ?_, fun call hcall => ?_⟩
  · rcases h.accounted call hcall with hreached | hdropped | hwait
    · exact .inl hreached
    · exact .inr hdropped
    · exact absurd hwait (hwaits call)
  · rcases h.settled call hcall with hsettled | hwait | hexecute
    · exact hsettled
    · exact absurd hwait (hwaits call)
    · exact absurd hexecute (hexecutes call)

/-- However the calls end, the drain comes to its end, and with it every call and promise. -/
def Concludes (limits : Limits) (s : Client) : Prop :=
  ∃ n, ∀ outcomes : List Bool, n ≤ outcomes.length → (proceedAll limits s outcomes).Finished

theorem Inv.concludes (h : s.Inv) (htarget : s.target.isSome) : Concludes limits s := by
  obtain ⟨target, ht⟩ := Option.isSome_iff_exists.mp htarget
  refine ⟨s.rank, fun outcomes hlength => ?_⟩
  obtain ⟨hinv, d, hdrains, hdone⟩ := proceedAll_done limits h ht outcomes hlength
  refine (kept_of_inv hinv).finished hdrains hdone ?_
  cases hinv with
  | detached _ hnone =>
      rw [hnone] at hdrains
      cases hdrains
  | attached _ t ht => exact Option.isSome_iff_exists.mpr ⟨t, ht⟩

/-- The client is transparent in every run without writes and attaches at the wrong moment. -/
theorem deferred_transparent {events : List Event} (h : Along (step limits) Calm {} events) :
    Kept (run (step limits) {} events) ∧
      ((run (step limits) {} events).target.isSome → Concludes limits (run (step limits) {} events)) := by
  have hinv : (run (step limits) {} events).Inv :=
    run_invariant_along (I := Inv) (fun _ e hs hcalm => inv_step e hs hcalm)
      (.detached rfl rfl rfl calls_init) h
  exact ⟨kept_of_inv hinv, hinv.concludes⟩

def writesAround : List Event :=
  [.write .sendSessionEvent, .write .updateMetadata, .attach 0, .proceed 0 true, .proceed 0 true,
    .write .sendAgentMessage, .proceed 0 true, .proceed 0 true, .proceed 0 true, .proceed 0 true]

theorem deferred_transparent_around :
    Kept (run (step ⟨100, 10000⟩) {} writesAround) ∧
      ((run (step ⟨100, 10000⟩) {} writesAround).target.isSome →
        Concludes ⟨100, 10000⟩ (run (step ⟨100, 10000⟩) {} writesAround)) :=
  deferred_transparent (by decide)

/-- With an empty buffer, `attach` returns while `flushInFlight` still is the promise of a
drain that will not look at the buffer again: a write comes right after it. -/
def writeAfterAttach : List Event :=
  [.attach 0, .proceed 0 true, .write .updateMetadata, .proceed 0 true]

theorem write_after_attach_stranded :
    ¬ (Kept (run (step ⟨100, 10000⟩) {} writeAfterAttach) ∧
      ((run (step ⟨100, 10000⟩) {} writeAfterAttach).target.isSome →
        Concludes ⟨100, 10000⟩ (run (step ⟨100, 10000⟩) {} writeAfterAttach))) := by
  rintro ⟨hkept, -⟩
  generalize hs : run (step ⟨100, 10000⟩) {} writeAfterAttach = s at hkept
  have hdrains : s.drains = [⟨false, .done⟩] := by rw [← hs]; decide
  have htarget : s.target.isSome := by rw [← hs]; decide
  have hreached : 0 ∉ s.reachedCalls := by rw [← hs]; decide
  have hdropped : .dropped 0 ∉ s.log := by rw [← hs]; decide
  have hnext : 0 < s.nextCall := by rw [← hs]; decide
  rcases (hkept.finished hdrains rfl htarget).accounted 0 hnext with hmem | hmem
  · exact hreached hmem
  · exact hdropped hmem

end Client

end DevPilot.Startup
