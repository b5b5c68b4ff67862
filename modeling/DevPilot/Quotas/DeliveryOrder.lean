import DevPilot.Quotas.DeliveryOutbox

/-!
Which deliveries the quota outbox may start after which, and the runs in which it
keeps to that.
-/

namespace DevPilot.Quotas

open OrderedMaps Runs

/-- A delivery may be started after no newer one of its slot, and neither after its
snapshot was dropped nor after its session was cleared of it. -/
def MayPrecede (a b : Entry) : Prop :=
  ∀ key n, b = .started key n →
    (∀ m, a = .started key m → m ≤ n) ∧ (∀ reason, a ≠ .dropped n reason) ∧
      ∀ sessionId serials, a = .cleared sessionId serials → key.sessionId = sessionId → serials ≤ n

namespace Outbox

variable {params : Params} {o : Outbox} {sessionId : Option String}
  {todo : List (SlotKey × PendingDelivery)}

structure Kept (params : Params) (o : Outbox) : Prop where
  ordered : o.log.Pairwise MayPrecede
  bounded : o.pending.size ≤ params.entryLimit
  attempted : ∀ e ∈ o.pending.entries, o.log.count (.failed e.2.serial) < params.attemptLimit

/-- The delivery that a flush over `todo` starts next. -/
def next? (sessionId : Option String) (todo : List (SlotKey × PendingDelivery)) :
    Option (SlotKey × PendingDelivery) :=
  (todo.dropWhile fun e => !selects sessionId e).head?

/-- What a flush delivers next is still pending as the flush has copied it, and no other
flush is delivering it. -/
def UpToDate (o : Outbox) (sessionId : Option String) (todo : List (SlotKey × PendingDelivery)) : Prop :=
  ∀ key entry, next? sessionId todo = some (key, entry) →
    o.isCurrent key entry = true ∧ ∀ f ∈ o.flushes, f.entry.record ≠ entry.record

def Orderly (params : Params) (o : Outbox) : Event → Prop
  | .enqueue .. | .clearSession _ => True
  | .enqueueAndFlush input now pruneNow =>
    let o := (o.enqueue params input now).pruneExpired params pruneNow
    o.UpToDate (some input.sessionId) o.pending.entries
  | .flushPending sessionId now =>
    let o := o.pruneExpired params now
    o.UpToDate sessionId o.pending.entries
  | .retry now =>
    let pruned := o.pruneExpired params now
    o.retryTimer = true → pruned.UpToDate none pruned.pending.entries
  | .delivered flush _ =>
    ∀ f, o.flushes[flush]? = some f →
      UpToDate { o with flushes := o.flushes.eraseIdx flush } f.sessionId f.todo

instance (o : Outbox) (sessionId : Option String) (todo : List (SlotKey × PendingDelivery)) :
    Decidable (o.UpToDate sessionId todo) :=
  decidable_of_iff ((next? sessionId todo).all fun e =>
      o.isCurrent e.1 e.2 && o.flushes.all fun f => f.entry.record ≠ e.2.record) <| by
    cases h : next? sessionId todo with
    | none => simp [UpToDate, h]
    | some e =>
        obtain ⟨key, entry⟩ := e
        simp [UpToDate, h]

instance (params : Params) (o : Outbox) : ∀ e, Decidable (o.Orderly params e)
  | .enqueue .. | .clearSession _ => inferInstanceAs (Decidable True)
  | .enqueueAndFlush .. | .flushPending .. => inferInstanceAs (Decidable (UpToDate ..))
  | .retry _ => inferInstanceAs (Decidable (_ → UpToDate ..))
  | .delivered flush _ => by
    cases h : o.flushes[flush]? with
    | none => exact isTrue (by simp [Orderly, h])
    | some f =>
      exact decidable_of_iff
        (UpToDate { o with flushes := o.flushes.eraseIdx flush } f.sessionId f.todo) (by simp [Orderly, h])

structure Copied (o : Outbox) (e : SlotKey × PendingDelivery) : Prop where
  record_lt : e.2.record < o.nextRecord
  serial_lt : e.2.serial < o.nextSerial
  same : ∀ entry, (e.1, entry) ∈ o.pending.entries → entry.record = e.2.record → entry = e.2

structure Inv (params : Params) (o : Outbox) : Prop where
  ordered : o.log.Pairwise MayPrecede
  keyed : ∀ e ∈ o.pending.entries, e.1 = slotKey e.2.input
  copied : ∀ e ∈ o.pending.entries, o.Copied e
  distinct : ∀ e ∈ o.pending.entries, ∀ e' ∈ o.pending.entries, e.2.serial = e'.2.serial → e = e'
  todo : ∀ f ∈ o.flushes, ∀ e ∈ f.todo, o.Copied e
  keys : ∀ f ∈ o.flushes, (f.key :: f.todo.map Prod.fst).Nodup
  delivering : ∀ f ∈ o.flushes, ∀ e ∈ o.pending.entries, e.2.serial = f.entry.serial →
    e = (f.key, f.entry)
  deliveringCopied : ∀ f ∈ o.flushes, o.Copied (f.key, f.entry)
  once : (o.flushes.map (·.entry.serial)).Nodup
  started : ∀ key m, .started key m ∈ o.log → m < o.nextSerial ∧
    ∀ entry, (key, entry) ∈ o.pending.entries → m ≤ entry.serial
  dropped : ∀ n reason, .dropped n reason ∈ o.log → n < o.nextSerial ∧
    ∀ e ∈ o.pending.entries, e.2.serial ≠ n
  cleared : ∀ sessionId serials, .cleared sessionId serials ∈ o.log → serials ≤ o.nextSerial ∧
    ∀ e ∈ o.pending.entries, e.2.input.sessionId = sessionId → serials ≤ e.2.serial
  unfailed : ∀ n, o.nextSerial ≤ n → .failed n ∉ o.log
  attempts : ∀ e ∈ o.pending.entries,
    o.log.count (.failed e.2.serial) ≤ e.2.attempts ∧ e.2.attempts < params.attemptLimit

theorem attemptLimit_pos (params : Params) : 0 < params.attemptLimit := by
  unfold Params.attemptLimit normalizePositiveInt
  split <;> omega

theorem inv_init : Inv params {} where
  ordered := .nil
  keyed := by simp [OrderedMap.empty]
  copied := by simp [OrderedMap.empty]
  distinct := by simp [OrderedMap.empty]
  todo := by simp
  keys := by simp
  delivering := by simp
  deliveringCopied := by simp
  once := by simp
  started := by simp
  dropped := by simp
  cleared := by simp
  unfailed := by simp
  attempts := by simp [OrderedMap.empty]

theorem ordered_append {log entries : List Entry} (h : log.Pairwise MayPrecede)
    (hentries : ∀ e ∈ entries, ∀ key n, e ≠ .started key n) : (log ++ entries).Pairwise MayPrecede := by
  refine List.pairwise_append.mpr ⟨h, List.pairwise_of_forall_mem_list fun a _ b hb key n hn => ?_,
    fun a _ b hb key n hn => ?_⟩
  · exact absurd hn (hentries b hb key n)
  · exact absurd hn (hentries b hb key n)

theorem Copied.mono {o' : Outbox} {e : SlotKey × PendingDelivery} (h : o.Copied e)
    (hrecord : o.nextRecord ≤ o'.nextRecord) (hserial : o.nextSerial ≤ o'.nextSerial)
    (hnew : ∀ e ∈ o'.pending.entries, e ∈ o.pending.entries ∨ o.nextRecord ≤ e.2.record) :
    o'.Copied e := by
  refine ⟨h.record_lt.trans_le hrecord, h.serial_lt.trans_le hserial, fun entry hentry heq => ?_⟩
  rcases hnew _ hentry with hold | hle
  · exact h.same entry hold heq
  · have := h.record_lt
    simp only at hle
    omega

theorem Inv.shrink (h : Inv params o) {pending : OrderedMap SlotKey PendingDelivery} {timer : Bool}
    {entries : List Entry} (hsub : ∀ e ∈ pending.entries, e ∈ o.pending.entries)
    (hentries : ∀ x ∈ entries,
      (∃ n reason, x = .dropped n reason ∧ n < o.nextSerial ∧ ∀ e ∈ pending.entries, e.2.serial ≠ n) ∨
      (∃ sessionId, x = .cleared sessionId o.nextSerial ∧
        ∀ e ∈ pending.entries, e.2.input.sessionId ≠ sessionId) ∨
      ∃ result, x = .returned result) :
    Inv params (record { o with pending := pending, retryTimer := timer } entries) := by
  have hcopied : ∀ e, o.Copied e →
      (record { o with pending := pending, retryTimer := timer } entries).Copied e :=
    fun e he => he.mono le_rfl le_rfl fun e he => .inl (hsub e he)
  have hnone : ∀ x ∈ entries, (∀ key n, x ≠ .started key n) ∧ ∀ n, x ≠ .failed n := by
    intro x hx
    rcases hentries x hx with ⟨n, reason, rfl, -⟩ | ⟨sessionId, rfl, -⟩ | ⟨result, rfl⟩ <;> simp
  have hcount : ∀ n, (o.log ++ entries).count (.failed n) = o.log.count (.failed n) := by
    intro n
    rw [List.count_append, List.count_eq_zero_of_not_mem (l := entries), Nat.add_zero]
    exact fun hmem => (hnone _ hmem).2 n rfl
  constructor
  case ordered => exact ordered_append h.ordered fun x hx => (hnone x hx).1
  case keyed => exact fun e he => h.keyed e (hsub e he)
  case copied => exact fun e he => hcopied e (h.copied e (hsub e he))
  case distinct => exact fun e he e' he' => h.distinct e (hsub e he) e' (hsub e' he')
  case todo => exact fun f hf e he => hcopied e (h.todo f hf e he)
  case keys => exact h.keys
  case delivering => exact fun f hf e he => h.delivering f hf e (hsub e he)
  case deliveringCopied => exact fun f hf => hcopied _ (h.deliveringCopied f hf)
  case once => exact h.once
  case started =>
    intro key m hm
    rcases List.mem_append.mp hm with hm | hm
    · exact ⟨(h.started key m hm).1, fun entry he => (h.started key m hm).2 entry (hsub _ he)⟩
    · exact absurd rfl ((hnone _ hm).1 key m)
  case dropped =>
    intro n reason hn
    rcases List.mem_append.mp hn with hn | hn
    · exact ⟨(h.dropped n reason hn).1, fun e he => (h.dropped n reason hn).2 e (hsub e he)⟩
    · rcases hentries _ hn with ⟨n', reason', heq, hlt, hne⟩ | ⟨_, heq, -⟩ | ⟨_, heq⟩
      · cases heq
        exact ⟨hlt, hne⟩
      · cases heq
      · cases heq
  case cleared =>
    intro sessionId serials hs
    rcases List.mem_append.mp hs with hs | hs
    · exact ⟨(h.cleared sessionId serials hs).1,
        fun e he => (h.cleared sessionId serials hs).2 e (hsub e he)⟩
    · rcases hentries _ hs with ⟨_, _, heq, -⟩ | ⟨_, heq, hne⟩ | ⟨_, heq⟩
      · cases heq
      · cases heq
        exact ⟨le_rfl, fun e he hid => absurd hid (hne e he)⟩
      · cases heq
  case unfailed =>
    intro n hn hmem
    rcases List.mem_append.mp hmem with hmem | hmem
    · exact h.unfailed n hn hmem
    · exact (hnone _ hmem).2 n rfl
  case attempts =>
    intro e he
    change (o.log ++ entries).count _ ≤ _ ∧ _
    rw [hcount]
    exact h.attempts e (hsub e he)

theorem Inv.pruneExpired (h : Inv params o) (now : ℤ) : Inv params (o.pruneExpired params now) := by
  refine h.shrink (fun e he => (OrderedMap.mem_filter.mp he).1) fun x hx => .inl ?_
  obtain ⟨e, he, rfl⟩ := List.mem_map.mp hx
  obtain ⟨hmem, hexpired⟩ := List.mem_filter.mp he
  refine ⟨_, _, rfl, (h.copied e hmem).serial_lt, fun e' he' heq => ?_⟩
  obtain ⟨hmem', hkept⟩ := OrderedMap.mem_filter.mp he'
  rw [h.distinct e' hmem' e hmem heq, hexpired] at hkept
  cases hkept

theorem Inv.enforceMaxPendingEntries (h : Inv params o) :
    Inv params (o.enforceMaxPendingEntries params) := by
  refine h.shrink (fun e he => OrderedMap.mem_of_mem_dropFirst he) fun x hx => .inl ?_
  obtain ⟨e, he, rfl⟩ := List.mem_map.mp hx
  have hmem := List.mem_of_mem_take he
  refine ⟨_, _, rfl, (h.copied e hmem).serial_lt, fun e' he' heq => ?_⟩
  have heq := h.distinct e' (OrderedMap.mem_of_mem_dropFirst he') e hmem heq
  -- an entry is not both among the first ones and among the others
  have hdisjoint := List.disjoint_take_drop (o.pending.nodup.of_map Prod.fst)
    (le_refl (o.pending.size - params.entryLimit))
  exact hdisjoint he (heq ▸ he')

theorem Inv.clearSession (h : Inv params o) (sessionId : String) : Inv params (o.clearSession sessionId) := by
  refine h.shrink (fun e he => (OrderedMap.mem_filter.mp he).1) fun x hx => .inr (.inl ?_)
  refine ⟨sessionId, List.mem_singleton.mp hx, fun e he => ?_⟩
  simpa using (OrderedMap.mem_filter.mp he).2

theorem Inv.setTimer (h : Inv params o) (timer : Bool) : Inv params { o with retryTimer := timer } :=
  ⟨h.ordered, h.keyed, fun e he => ⟨(h.copied e he).1, (h.copied e he).2, (h.copied e he).3⟩, h.distinct,
    fun f hf e he => ⟨(h.todo f hf e he).1, (h.todo f hf e he).2, (h.todo f hf e he).3⟩, h.keys,
    h.delivering, fun f hf => ⟨(h.deliveringCopied f hf).1, (h.deliveringCopied f hf).2,
      (h.deliveringCopied f hf).3⟩, h.once, h.started, h.dropped, h.cleared, h.unfailed, h.attempts⟩

theorem Inv.put (h : Inv params o) (input : DeliveryInput) (now : ℤ) :
    Inv params { o with
      pending := o.pending.set (slotKey input) {
        input := input
        serial := o.nextSerial
        record := o.nextRecord
        firstQueuedAtMs := now
        attempts := ((o.pending.get (slotKey input)).map (·.attempts)).getD 0 }
      nextSerial := o.nextSerial + 1
      nextRecord := o.nextRecord + 1 } := by
  have hattempts : ((o.pending.get (slotKey input)).map (·.attempts)).getD 0 < params.attemptLimit := by
    cases hget : o.pending.get (slotKey input) with
    | none => exact attemptLimit_pos params
    | some entry => exact (h.attempts _ (OrderedMap.get_eq_some.mp hget)).2
  generalize ((o.pending.get (slotKey input)).map (·.attempts)).getD 0 = attempts at *
  have hmem : ∀ e : SlotKey × PendingDelivery,
      e ∈ (o.pending.set (slotKey input) ⟨input, o.nextSerial, o.nextRecord, now, attempts⟩).entries →
        e = (slotKey input, ⟨input, o.nextSerial, o.nextRecord, now, attempts⟩) ∨
          e.1 ≠ slotKey input ∧ e ∈ o.pending.entries := by
    intro e he
    exact (OrderedMap.mem_set.mp he).imp_left fun ⟨hk, hv⟩ => Prod.ext hk hv
  have hcopied : ∀ e, o.Copied e → Copied { o with
      pending := o.pending.set (slotKey input) ⟨input, o.nextSerial, o.nextRecord, now, attempts⟩
      nextSerial := o.nextSerial + 1
      nextRecord := o.nextRecord + 1 } e := by
    refine fun e he => he.mono (Nat.le_succ _) (Nat.le_succ _) fun e he => ?_
    rcases hmem e he with rfl | ⟨-, he⟩
    · exact .inr le_rfl
    · exact .inl he
  constructor
  case ordered => exact h.ordered
  case keyed =>
    intro e he
    rcases hmem e he with rfl | ⟨-, he⟩
    · rfl
    · exact h.keyed e he
  case copied =>
    intro e he
    rcases hmem e he with rfl | ⟨-, he⟩
    · refine ⟨Nat.lt_succ_self _, Nat.lt_succ_self _, fun entry hentry hrecord => ?_⟩
      rcases hmem _ hentry with heq | ⟨hne, -⟩
      · exact congrArg Prod.snd heq
      · exact absurd rfl hne
    · exact hcopied e (h.copied e he)
  case distinct =>
    intro e he e' he' heq
    rcases hmem e he with rfl | ⟨-, he⟩ <;> rcases hmem e' he' with rfl | ⟨-, he'⟩
    · rfl
    · exact absurd heq (h.copied e' he').serial_lt.ne'
    · exact absurd heq (h.copied e he).serial_lt.ne
    · exact h.distinct e he e' he' heq
  case todo => exact fun f hf e he => hcopied e (h.todo f hf e he)
  case keys => exact h.keys
  case delivering =>
    intro f hf e he heq
    rcases hmem e he with rfl | ⟨-, he⟩
    · exact absurd heq (h.deliveringCopied f hf).serial_lt.ne'
    · exact h.delivering f hf e he heq
  case deliveringCopied => exact fun f hf => hcopied _ (h.deliveringCopied f hf)
  case once => exact h.once
  case started =>
    intro key m hm
    have hlt := (h.started key m hm).1
    refine ⟨hlt.trans (Nat.lt_succ_self _), fun entry hentry => ?_⟩
    rcases hmem _ hentry with heq | ⟨-, hentry⟩
    · cases heq
      exact hlt.le
    · exact (h.started key m hm).2 entry hentry
  case dropped =>
    intro n reason hn
    have hlt := (h.dropped n reason hn).1
    refine ⟨hlt.trans (Nat.lt_succ_self _), fun e he => ?_⟩
    rcases hmem e he with rfl | ⟨-, he⟩
    · exact hlt.ne'
    · exact (h.dropped n reason hn).2 e he
  case cleared =>
    intro sessionId serials hs
    have hle := (h.cleared sessionId serials hs).1
    refine ⟨hle.trans (Nat.le_succ _), fun e he hid => ?_⟩
    rcases hmem e he with rfl | ⟨-, he⟩
    · exact hle
    · exact (h.cleared sessionId serials hs).2 e he hid
  case unfailed => exact fun n hn => h.unfailed n (Nat.le_of_succ_le hn)
  case attempts =>
    intro e he
    rcases hmem e he with rfl | ⟨-, he⟩
    · refine ⟨?_, hattempts⟩
      change o.log.count (.failed o.nextSerial) ≤ attempts
      rw [List.count_eq_zero_of_not_mem (h.unfailed _ le_rfl)]
      exact Nat.zero_le _
    · exact h.attempts e he

theorem Inv.enqueue (h : Inv params o) (input : DeliveryInput) (now : ℤ) :
    Inv params (o.enqueue params input now) :=
  (h.put input now).enforceMaxPendingEntries

theorem Inv.returned (h : Inv params o) (result : FlushResult) :
    Inv params (o.record [.returned result]) := by
  have hx : ∀ x ∈ [Entry.returned result], ∃ result, x = .returned result :=
    fun x hx => ⟨result, List.mem_singleton.mp hx⟩
  exact (h.shrink (fun _ he => he) fun x he => .inr (.inr (hx x he))).setTimer o.retryTimer

theorem sublist_of_dropWhile {p : SlotKey × PendingDelivery → Bool}
    {todo rest : List (SlotKey × PendingDelivery)} {e : SlotKey × PendingDelivery}
    (h : todo.dropWhile p = e :: rest) : (e :: rest).Sublist todo :=
  h ▸ List.dropWhile_sublist p

theorem isCurrent_iff {key : SlotKey} {entry : PendingDelivery} :
    o.isCurrent key entry = true ↔
      ∃ current, (key, current) ∈ o.pending.entries ∧ current.record = entry.record := by
  simp [isCurrent, Option.any_eq_true, OrderedMap.get_eq_some]

theorem Inv.continueFlush (h : Inv params o) {sessionId : Option String}
    {todo : List (SlotKey × PendingDelivery)} (hcopied : ∀ e ∈ todo, o.Copied e)
    (hkeys : (todo.map Prod.fst).Nodup) (hfresh : o.UpToDate sessionId todo)
    (attempted delivered dropped : ℕ) :
    Inv params (o.continueFlush params sessionId attempted delivered dropped todo) := by
  rw [Outbox.continueFlush]
  split
  next =>
    refine Inv.returned ?_ _
    split_ifs
    · rw [scheduleRetry]
      split_ifs
      · exact h
      · exact h.setTimer true
    · exact h.setTimer false
  next key entry rest hdrop =>
    have hsub := sublist_of_dropWhile hdrop
    have hmem : (key, entry) ∈ todo := hsub.subset List.mem_cons_self
    obtain ⟨hcurrent, halone⟩ := hfresh key entry (by rw [next?, hdrop]; rfl)
    obtain ⟨current, hpending, hrecord⟩ := isCurrent_iff.mp hcurrent
    obtain rfl := (hcopied _ hmem).same current hpending hrecord
    have hcopiedNew : ∀ e, o.Copied e → Copied (record { o with flushes := o.flushes ++
        [⟨sessionId, key, current, rest, attempted + 1, delivered, dropped⟩] }
          [.started key current.serial]) e :=
      fun e he => ⟨he.1, he.2, he.3⟩
    have hserial : ∀ f ∈ o.flushes, f.entry.serial ≠ current.serial := by
      intro f hf heq
      have hentry := h.delivering f hf _ hpending heq.symm
      exact halone f hf (congrArg (·.2.record) hentry).symm
    have hcount : ∀ n, (o.log ++ [Entry.started key current.serial]).count (.failed n) =
        o.log.count (.failed n) := by
      intro n
      rw [List.count_append, List.count_eq_zero_of_not_mem (l := [_]) (by simp), Nat.add_zero]
    constructor
    case ordered =>
      refine List.pairwise_append.mpr ⟨h.ordered, List.pairwise_singleton .., fun a ha b hb => ?_⟩
      rw [List.mem_singleton.mp hb]
      intro key' n heq
      cases heq
      refine ⟨?_, ?_, ?_⟩
      · rintro m rfl
        exact (h.started key m ha).2 current hpending
      · rintro reason rfl
        exact (h.dropped _ reason ha).2 _ hpending rfl
      · rintro id serials rfl hid
        exact (h.cleared id serials ha).2 _ hpending
          ((congrArg SlotKey.sessionId (h.keyed _ hpending)).symm.trans hid)
    case keyed => exact h.keyed
    case copied => exact fun e he => hcopiedNew e (h.copied e he)
    case distinct => exact h.distinct
    case todo =>
      intro f hf e he
      rcases List.mem_append.mp hf with hf | hf
      · exact hcopiedNew e (h.todo f hf e he)
      · rw [List.mem_singleton.mp hf] at he
        exact hcopiedNew e (hcopied e (hsub.subset (List.mem_cons_of_mem _ he)))
    case keys =>
      intro f hf
      rcases List.mem_append.mp hf with hf | hf
      · exact h.keys f hf
      · rw [List.mem_singleton.mp hf]
        exact hkeys.sublist (hsub.map Prod.fst)
    case delivering =>
      intro f hf e he heq
      rcases List.mem_append.mp hf with hf | hf
      · exact h.delivering f hf e he heq
      · rw [List.mem_singleton.mp hf] at heq ⊢
        exact h.distinct e he _ hpending heq
    case deliveringCopied =>
      intro f hf
      rcases List.mem_append.mp hf with hf | hf
      · exact hcopiedNew _ (h.deliveringCopied f hf)
      · rw [List.mem_singleton.mp hf]
        exact hcopiedNew _ (h.copied _ hpending)
    case once =>
      change ((o.flushes ++ [_]).map _).Nodup
      rw [List.map_append]
      have hnot : current.serial ∉ o.flushes.map (·.entry.serial) := by
        rw [List.mem_map]
        rintro ⟨f, hf, heq⟩
        exact hserial f hf heq
      simpa using h.once.concat hnot
    case started =>
      intro key' m hm
      rcases List.mem_append.mp hm with hm | hm
      · exact h.started key' m hm
      · cases List.mem_singleton.mp hm
        refine ⟨(h.copied _ hpending).serial_lt, fun entry hentry => ?_⟩
        rw [OrderedMap.eq_of_mem hentry hpending]
    case dropped =>
      intro n reason hn
      exact h.dropped n reason (by simpa [record] using hn)
    case cleared =>
      intro id serials hs
      exact h.cleared id serials (by simpa [record] using hs)
    case unfailed =>
      intro n hn hmem
      exact h.unfailed n hn (by simpa [record] using hmem)
    case attempts =>
      intro e he
      change (o.log ++ [_]).count _ ≤ _ ∧ _
      rw [hcount]
      exact h.attempts e he

theorem Inv.delete (h : Inv params o) (key : SlotKey) :
    Inv params { o with pending := o.pending.delete key } := by
  have hsub : ∀ e ∈ (o.pending.delete key).entries, e ∈ o.pending.entries :=
    fun e he => (OrderedMap.mem_delete.mp he).2
  have hnil : ∀ x ∈ ([] : List Entry), ∃ result, x = .returned result := nofun
  have hshrink : Inv params (record { o with pending := o.pending.delete key } []) :=
    h.shrink hsub fun x hx => .inr (.inr (hnil x hx))
  simpa [record] using hshrink

theorem Inv.eraseFlush (h : Inv params o) (i : ℕ) :
    Inv params { o with flushes := o.flushes.eraseIdx i } := by
  have hsub : o.flushes.eraseIdx i ⊆ o.flushes := List.eraseIdx_subset
  exact ⟨h.ordered, h.keyed, fun e he => ⟨(h.copied e he).1, (h.copied e he).2, (h.copied e he).3⟩,
    h.distinct, fun f hf e he => ⟨(h.todo f (hsub hf) e he).1, (h.todo f (hsub hf) e he).2,
      (h.todo f (hsub hf) e he).3⟩, fun f hf => h.keys f (hsub hf), fun f hf => h.delivering f (hsub hf),
    fun f hf => ⟨(h.deliveringCopied f (hsub hf)).1, (h.deliveringCopied f (hsub hf)).2,
      (h.deliveringCopied f (hsub hf)).3⟩,
    h.once.sublist ((List.eraseIdx_sublist o.flushes i).map _), h.started, h.dropped, h.cleared,
    h.unfailed, h.attempts⟩

theorem Inv.failed (h : Inv params o) {n : ℕ} (hlt : n < o.nextSerial)
    (hgone : ∀ e ∈ o.pending.entries, e.2.serial ≠ n) : Inv params (o.record [.failed n]) := by
  have hcopied : ∀ e, o.Copied e → (o.record [.failed n]).Copied e := fun e he => ⟨he.1, he.2, he.3⟩
  constructor
  case ordered => exact ordered_append h.ordered fun e he key m => by simp [List.mem_singleton.mp he]
  case keyed => exact h.keyed
  case copied => exact fun e he => hcopied e (h.copied e he)
  case distinct => exact h.distinct
  case todo => exact fun f hf e he => hcopied e (h.todo f hf e he)
  case keys => exact h.keys
  case delivering => exact h.delivering
  case deliveringCopied => exact fun f hf => hcopied _ (h.deliveringCopied f hf)
  case once => exact h.once
  case started => exact fun key m hm => h.started key m (by simpa [record] using hm)
  case dropped => exact fun m reason hm => h.dropped m reason (by simpa [record] using hm)
  case cleared => exact fun id serials hs => h.cleared id serials (by simpa [record] using hs)
  case unfailed =>
    intro m hm hmem
    rcases List.mem_append.mp hmem with hmem | hmem
    · exact h.unfailed m hm hmem
    · cases List.mem_singleton.mp hmem
      exact absurd hlt (not_lt.mpr hm)
  case attempts =>
    intro e he
    have hne := hgone e he
    change (o.log ++ [_]).count _ ≤ _ ∧ _
    rw [List.count_append, List.count_eq_zero_of_not_mem (l := [_]) (by simpa using hne), Nat.add_zero]
    exact h.attempts e he

theorem Inv.droppedAfter (h : Inv params o) {n : ℕ} (hlt : n < o.nextSerial)
    (hgone : ∀ e ∈ o.pending.entries, e.2.serial ≠ n) (reason : DropReason) :
    Inv params (o.record [.dropped n reason]) := by
  have hx : ∀ x ∈ [Entry.dropped n reason], ∃ n reason, x = .dropped n reason ∧ n < o.nextSerial ∧
      ∀ e ∈ o.pending.entries, e.2.serial ≠ n :=
    fun x hx => ⟨n, reason, List.mem_singleton.mp hx, hlt, hgone⟩
  exact (h.shrink (fun _ he => he) fun x he => .inl (hx x he)).setTimer o.retryTimer

theorem Inv.countAttempt (h : Inv params o) {key : SlotKey} {entry : PendingDelivery}
    (hmem : (key, entry) ∈ o.pending.entries) (hbelow : entry.attempts + 1 < params.attemptLimit)
    (hfree : ∀ f ∈ o.flushes, f.entry.serial ≠ entry.serial) :
    Inv params { o.record [.failed entry.serial] with
      pending := o.pending.set key { entry with attempts := entry.attempts + 1, record := o.nextRecord }
      nextRecord := o.nextRecord + 1 } := by
  have hset : ∀ e : SlotKey × PendingDelivery,
      e ∈ (o.pending.set key
        { entry with attempts := entry.attempts + 1, record := o.nextRecord }).entries →
        e = (key, { entry with attempts := entry.attempts + 1, record := o.nextRecord }) ∨
          e.1 ≠ key ∧ e ∈ o.pending.entries := by
    intro e he
    exact (OrderedMap.mem_set.mp he).imp_left fun ⟨hk, hv⟩ => Prod.ext hk hv
  have hother : ∀ e ∈ o.pending.entries, e.1 ≠ key → e.2.serial ≠ entry.serial := by
    intro e he hne heq
    exact hne (congrArg Prod.fst (h.distinct e he _ hmem heq))
  have hcopied : ∀ e, o.Copied e → Copied { o.record [.failed entry.serial] with
      pending := o.pending.set key { entry with attempts := entry.attempts + 1, record := o.nextRecord }
      nextRecord := o.nextRecord + 1 } e := by
    refine fun e he => he.mono (Nat.le_succ _) le_rfl fun e he => ?_
    rcases hset e he with rfl | ⟨-, he⟩
    · exact .inr le_rfl
    · exact .inl he
  constructor
  case ordered => exact ordered_append h.ordered fun e he key m => by simp [List.mem_singleton.mp he]
  case keyed =>
    intro e he
    rcases hset e he with rfl | ⟨-, he⟩
    · exact h.keyed (key, entry) hmem
    · exact h.keyed e he
  case copied =>
    intro e he
    rcases hset e he with rfl | ⟨-, he⟩
    · refine ⟨Nat.lt_succ_self _, (h.copied _ hmem).serial_lt, fun entry' hentry hrecord => ?_⟩
      rcases hset _ hentry with heq | ⟨hne, -⟩
      · exact congrArg Prod.snd heq
      · exact absurd rfl hne
    · exact hcopied e (h.copied e he)
  case distinct =>
    intro e he e' he' heq
    rcases hset e he with rfl | ⟨hne, he⟩ <;> rcases hset e' he' with rfl | ⟨hne', he'⟩
    · rfl
    · exact absurd heq.symm (hother e' he' hne')
    · exact absurd heq (hother e he hne)
    · exact h.distinct e he e' he' heq
  case todo => exact fun f hf e he => hcopied e (h.todo f hf e he)
  case keys => exact h.keys
  case delivering =>
    intro f hf e he heq
    rcases hset e he with rfl | ⟨-, he⟩
    · exact absurd heq.symm (hfree f hf)
    · exact h.delivering f hf e he heq
  case deliveringCopied => exact fun f hf => hcopied _ (h.deliveringCopied f hf)
  case once => exact h.once
  case started =>
    intro key' m hm
    have hm : .started key' m ∈ o.log := by simpa [record] using hm
    refine ⟨(h.started key' m hm).1, fun entry' hentry => ?_⟩
    rcases hset _ hentry with heq | ⟨-, hentry⟩
    · cases heq
      exact (h.started key m hm).2 entry hmem
    · exact (h.started key' m hm).2 entry' hentry
  case dropped =>
    intro n reason hn
    have hn : .dropped n reason ∈ o.log := by simpa [record] using hn
    refine ⟨(h.dropped n reason hn).1, fun e he => ?_⟩
    rcases hset e he with rfl | ⟨-, he⟩
    · exact (h.dropped n reason hn).2 (key, entry) hmem
    · exact (h.dropped n reason hn).2 e he
  case cleared =>
    intro sessionId serials hs
    have hs : .cleared sessionId serials ∈ o.log := by simpa [record] using hs
    refine ⟨(h.cleared sessionId serials hs).1, fun e he hid => ?_⟩
    rcases hset e he with rfl | ⟨-, he⟩
    · exact (h.cleared sessionId serials hs).2 (key, entry) hmem hid
    · exact (h.cleared sessionId serials hs).2 e he hid
  case unfailed =>
    intro m hm hfailed
    rcases List.mem_append.mp hfailed with hfailed | hfailed
    · exact h.unfailed m hm hfailed
    · cases List.mem_singleton.mp hfailed
      exact absurd (h.copied _ hmem).serial_lt (not_lt.mpr hm)
  case attempts =>
    intro e he
    change (o.log ++ [_]).count _ ≤ _ ∧ _
    rw [List.count_append]
    rcases hset e he with rfl | ⟨hne, he⟩
    · rw [List.count_singleton_self]
      exact ⟨Nat.add_le_add_right (h.attempts (key, entry) hmem).1 1, hbelow⟩
    · have hne := hother e he hne
      rw [List.count_eq_zero_of_not_mem (l := [_]) (by simpa using hne), Nat.add_zero]
      exact h.attempts e he

theorem Inv.fail (h : Inv params o) {flush : Flush} (hcopied : o.Copied (flush.key, flush.entry))
    (hdelivering : ∀ e ∈ o.pending.entries, e.2.serial = flush.entry.serial → e = (flush.key, flush.entry))
    (hfree : ∀ f ∈ o.flushes, f.entry.serial ≠ flush.entry.serial) :
    Inv params (o.fail params flush).1 := by
  rw [Outbox.fail]
  have hcurrent : (o.record [.failed flush.entry.serial]).isCurrent flush.key flush.entry = true →
      (flush.key, flush.entry) ∈ o.pending.entries := by
    intro hcurrent
    obtain ⟨current, hmem, hrecord⟩ := isCurrent_iff.mp hcurrent
    obtain rfl := hcopied.same current hmem hrecord
    exact hmem
  simp only
  split_ifs with hcur hlimit
  · have hmem := hcurrent hcur
    have hgone : ∀ e ∈ (o.pending.delete flush.key).entries, e.2.serial ≠ flush.entry.serial := by
      intro e he heq
      obtain ⟨hne, he⟩ := OrderedMap.mem_delete.mp he
      exact hne (congrArg Prod.fst (hdelivering e he heq))
    exact ((h.delete flush.key).failed hcopied.serial_lt hgone).droppedAfter hcopied.serial_lt hgone _
  · exact h.countAttempt (hcurrent hcur) (by omega) hfree
  · refine h.failed hcopied.serial_lt fun e he heq => hcur ?_
    have heq := hdelivering e he heq
    exact isCurrent_iff.mpr ⟨flush.entry, by rw [← heq]; exact he, rfl⟩

structure Touches (key : SlotKey) (o o' : Outbox) : Prop where
  flushes : o'.flushes = o.flushes
  serial : o.nextSerial ≤ o'.nextSerial
  record : o.nextRecord ≤ o'.nextRecord
  new : ∀ e ∈ o'.pending.entries, e ∈ o.pending.entries ∨ o.nextRecord ≤ e.2.record
  kept : ∀ e ∈ o.pending.entries, e.1 ≠ key → e ∈ o'.pending.entries

theorem touches_delete (o : Outbox) (key : SlotKey) :
    Touches key o { o with pending := o.pending.delete key } :=
  ⟨rfl, le_rfl, le_rfl, fun _ he => .inl (OrderedMap.mem_delete.mp he).2,
    fun _ he hne => OrderedMap.mem_delete.mpr ⟨hne, he⟩⟩

theorem touches_fail (o : Outbox) (flush : Flush) : Touches flush.key o (o.fail params flush).1 := by
  rw [Outbox.fail]
  simp only
  split_ifs
  · exact ⟨rfl, le_rfl, le_rfl, fun _ he => .inl (OrderedMap.mem_delete.mp he).2,
      fun _ he hne => OrderedMap.mem_delete.mpr ⟨hne, he⟩⟩
  · refine ⟨rfl, le_rfl, Nat.le_succ _, fun e he => ?_, fun e he hne => ?_⟩
    · rcases OrderedMap.mem_set.mp he with ⟨-, hv⟩ | ⟨-, he⟩
      · refine .inr ?_
        rw [hv]
        exact le_rfl
      · exact .inl he
    · exact OrderedMap.mem_set.mpr (.inr ⟨hne, he⟩)
  · exact ⟨rfl, le_rfl, le_rfl, fun _ he => .inl he, fun _ he _ => he⟩

theorem UpToDate.touches {key : SlotKey} {o' : Outbox} (h : o.UpToDate sessionId todo)
    (ht : Touches key o o') (hkey : key ∉ todo.map Prod.fst) :
    o'.UpToDate sessionId todo := by
  intro k entry hnext
  obtain ⟨hcurrent, halone⟩ := h k entry hnext
  have hmem : (k, entry) ∈ todo := (List.dropWhile_sublist _).subset (List.mem_of_head? hnext)
  obtain ⟨current, hin, hrecord⟩ := isCurrent_iff.mp hcurrent
  have hne : k ≠ key := by
    rintro rfl
    exact hkey (List.mem_map_of_mem (f := Prod.fst) hmem)
  exact ⟨isCurrent_iff.mpr ⟨current, ht.kept _ hin hne, hrecord⟩, ht.flushes ▸ halone⟩

theorem Inv.delivered (h : Inv params o) {i : ℕ} {outcome : DeliveryOutcome}
    (horderly : o.Orderly params (.delivered i outcome)) : Inv params (o.delivered params i outcome) := by
  rw [Outbox.delivered]
  split
  · exact h
  next f hf =>
    have hmem : f ∈ o.flushes := List.mem_of_getElem? hf
    have herase := h.eraseFlush i
    have hcopied := h.deliveringCopied f hmem
    have hkeys := List.nodup_cons.mp (h.keys f hmem)
    have hfree : ∀ g ∈ o.flushes.eraseIdx i, g.entry.serial ≠ f.entry.serial := by
      intro g hg heq
      obtain ⟨hi, rfl⟩ := List.getElem?_eq_some_iff.mp hf
      have hnodup := ((List.getElem_cons_eraseIdx_perm hi).map (·.entry.serial)).nodup_iff.mpr h.once
      exact (List.nodup_cons.mp hnodup).1 (List.mem_map.mpr ⟨g, hg, heq⟩)
    generalize hq : ({ o with flushes := o.flushes.eraseIdx i } : Outbox) = q at *
    have htodo : ∀ e ∈ f.todo, q.Copied e := fun e he => by
      subst hq
      exact ⟨(h.todo f hmem e he).1, (h.todo f hmem e he).2, (h.todo f hmem e he).3⟩
    have hfresh : q.UpToDate f.sessionId f.todo := hq ▸ horderly f hf
    -- the flush goes on from a state in which the entry of its last slot may have changed
    have hnext : ∀ (q' : Outbox) (attempted delivered dropped : ℕ), Inv params q' →
        Touches f.key q q' →
          Inv params (q'.continueFlush params f.sessionId attempted delivered dropped f.todo) := by
      intro q' attempted delivered dropped hq' ht
      exact hq'.continueFlush (fun e he => (htodo e he).mono ht.record ht.serial ht.new) hkeys.2
        (hfresh.touches ht hkeys.1) ..
    simp only
    split_ifs
    · refine hnext _ _ _ _ (herase.fail ?_ ?_ ?_) (touches_fail q f)
      · subst hq
        exact ⟨hcopied.1, hcopied.2, hcopied.3⟩
      · subst hq
        exact h.delivering f hmem
      · subst hq
        exact hfree
    · exact hnext _ _ _ _ (herase.delete f.key) (touches_delete q f.key)
    · exact hnext _ _ _ _ herase ⟨rfl, le_rfl, le_rfl, fun _ he => .inl he, fun _ he _ => he⟩

theorem Inv.flushPending (h : Inv params o) {now : ℤ}
    (hfresh : (o.pruneExpired params now).UpToDate sessionId (o.pruneExpired params now).pending.entries) :
    Inv params (o.flushPending params sessionId now) := by
  have hpruned := (h.setTimer false).pruneExpired now
  exact hpruned.continueFlush hpruned.copied (OrderedMap.nodup _) hfresh 0 0 _

theorem inv_step (e : Event) (h : Inv params o) (horderly : o.Orderly params e) :
    Inv params (step params o e) := by
  cases e with
  | enqueue input now => exact h.enqueue input now
  | enqueueAndFlush input now pruneNow => exact (h.enqueue input now).flushPending horderly
  | flushPending sessionId now => exact h.flushPending horderly
  | retry now =>
      rw [step]
      split_ifs with htimer
      · exact (h.setTimer false).flushPending (horderly htimer)
      · exact h
  | delivered flush outcome => exact h.delivered horderly
  | clearSession sessionId => exact h.clearSession sessionId

theorem bounded_enforce : (o.enforceMaxPendingEntries params).pending.size ≤ params.entryLimit := by
  change (o.pending.dropFirst _).size ≤ _
  rw [OrderedMap.size_dropFirst]
  omega

theorem continueFlush_pending (sessionId : Option String) (attempted delivered dropped : ℕ)
    (todo : List (SlotKey × PendingDelivery)) :
    (o.continueFlush params sessionId attempted delivered dropped todo).pending = o.pending := by
  rw [continueFlush]
  split
  · simp only [record]
    split_ifs
    · rw [scheduleRetry]
      split_ifs <;> rfl
    · rfl
  · rfl

theorem size_fail_le (flush : Flush) : (o.fail params flush).1.pending.size ≤ o.pending.size := by
  rw [fail]
  simp only
  split_ifs with hcurrent
  · exact OrderedMap.size_filter_le ..
  · obtain ⟨current, hmem, -⟩ := isCurrent_iff.mp hcurrent
    exact (OrderedMap.size_set_of_mem hmem).le
  · exact le_rfl

theorem size_flushPending_le (sessionId : Option String) (now : ℤ) :
    (o.flushPending params sessionId now).pending.size ≤ o.pending.size := by
  rw [flushPending, continueFlush_pending]
  exact OrderedMap.size_filter_le ..

theorem bounded_step (e : Event) (h : o.pending.size ≤ params.entryLimit) :
    (step params o e).pending.size ≤ params.entryLimit := by
  cases e with
  | enqueue input now => exact bounded_enforce
  | enqueueAndFlush input now pruneNow => exact (size_flushPending_le ..).trans bounded_enforce
  | flushPending sessionId now => exact (size_flushPending_le ..).trans h
  | retry now =>
      rw [step]
      split_ifs
      · exact (size_flushPending_le ..).trans h
      · exact h
  | delivered flush outcome =>
      rw [step, delivered]
      split
      · exact h
      · simp only
        split_ifs <;> rw [continueFlush_pending]
        · exact (size_fail_le _).trans h
        · exact (OrderedMap.size_filter_le ..).trans h
        · exact h
  | clearSession sessionId => exact (OrderedMap.size_filter_le ..).trans h

/-- The outbox keeps its promises in every run whose flushes deliver what is pending, and
what no other flush is delivering. -/
theorem deliveries_kept {events : List Event}
    (h : Along (step params) (Orderly params) {} events) : Kept params (run (step params) {} events) := by
  have hinv := run_invariant_along (I := Inv params) (fun o e ho => inv_step e ho) inv_init h
  have hempty : ({} : Outbox).pending.size ≤ params.entryLimit := Nat.zero_le _
  have hbounded := run_invariant (I := fun o : Outbox => o.pending.size ≤ params.entryLimit)
    (fun o e ho => bounded_step e ho) hempty events
  refine ⟨hinv.ordered, hbounded, fun e he => ?_⟩
  obtain ⟨hcount, hlt⟩ := hinv.attempts e he
  exact hcount.trans_lt hlt

theorem deliveries_kept_retry : Kept { maxAttempts := some 2 } (run (step { maxAttempts := some 2 }) {}
    [.enqueueAndFlush { sessionId := "s1", serviceId := "codex", profileId := "p" } 0 0,
      .delivered 0 (.thrown "offline"),
      .enqueue { sessionId := "s1", serviceId := "codex", profileId := "p" } 1,
      .flushPending none 2, .delivered 0 (.returned .other)]) :=
  deliveries_kept (by decide)

theorem not_mayPrecede_older {key : SlotKey} {m n : ℕ} (h : n < m) :
    ¬ MayPrecede (.started key m) (.started key n) := by
  intro hmay
  have hle := (hmay key n rfl).1 m rfl
  omega

theorem not_mayPrecede_cleared {key : SlotKey} {n serials : ℕ} (h : n < serials) :
    ¬ MayPrecede (.cleared key.sessionId serials) (.started key n) := by
  intro hmay
  have hle := (hmay key n rfl).2.2 key.sessionId serials rfl rfl
  omega

/-- While the first delivery of a flush is under way, its second entry is replaced and the
new one delivered, or its session is cleared: the flush delivers what it has copied. Two
flushes deliver one entry in vain, and one attempt is counted. -/
theorem copied_entries_delivered :
    let first : DeliveryInput := { sessionId := "s1", serviceId := "codex", profileId := "p" }
    let second : DeliveryInput := { sessionId := "s2", serviceId := "codex", profileId := "p" }
    ¬ Kept {} (run (step {}) {} [.enqueue first 0, .enqueue second 0, .flushPending none 1,
        .enqueueAndFlush second 2 2, .delivered 1 (.returned .other), .delivered 0 (.returned .other)]) ∧
      ¬ Kept {} (run (step {}) {} [.enqueue first 0, .enqueue second 0, .flushPending none 1,
        .clearSession "s2", .delivered 0 (.returned .other)]) ∧
      ¬ Kept { maxAttempts := some 2 } (run (step { maxAttempts := some 2 }) {} [.enqueue first 0,
        .flushPending none 1, .flushPending none 1, .delivered 0 (.thrown "offline"),
        .delivered 0 (.thrown "offline")]) := by
  intro first second
  have holder : [Entry.started (slotKey second) 2, .started (slotKey second) 1].Sublist
      (run (step {}) {} [.enqueue first 0, .enqueue second 0, .flushPending none 1,
        .enqueueAndFlush second 2 2, .delivered 1 (.returned .other),
        .delivered 0 (.returned .other)]).log := by
    decide
  have hcleared : [Entry.cleared (slotKey second).sessionId 2, .started (slotKey second) 1].Sublist
      (run (step {}) {} [.enqueue first 0, .enqueue second 0, .flushPending none 1,
        .clearSession "s2", .delivered 0 (.returned .other)]).log := by
    decide
  have hkept : ((run (step { maxAttempts := some 2 }) {} [.enqueue first 0, .flushPending none 1,
      .flushPending none 1, .delivered 0 (.thrown "offline"),
      .delivered 0 (.thrown "offline")]).pending.entries.map (·.2.serial)) = [0] ∧
      (run (step { maxAttempts := some 2 }) {} [.enqueue first 0, .flushPending none 1,
        .flushPending none 1, .delivered 0 (.thrown "offline"),
        .delivered 0 (.thrown "offline")]).log.count (.failed 0) = 2 := by
    decide
  refine ⟨fun h => ?_, fun h => ?_, fun h => ?_⟩
  · exact not_mayPrecede_older (by decide) (List.pairwise_pair.mp (h.ordered.sublist holder))
  · exact not_mayPrecede_cleared (by decide) (List.pairwise_pair.mp (h.ordered.sublist hcleared))
  · obtain ⟨e, he, hserial⟩ := List.mem_map.mp (hkept.1 ▸ List.mem_singleton_self 0)
    have hlt := h.attempted e he
    rw [hserial, hkept.2] at hlt
    exact absurd hlt (by decide)

end Outbox

end DevPilot.Quotas
