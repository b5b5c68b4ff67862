import DevPilot.Lib.JsonValue

/-!
Places in a JSON value, and the traversals that rewrite its outermost marked
objects and go on below every other value.
-/

namespace PyJson

variable {F : Type}

inductive PathStep
  | index (i : Nat)
  | key (k : String)
deriving DecidableEq, Repr

abbrev JsonPath := List PathStep

def Json.child? : Json F → PathStep → Option (Json F)
  | .arr vs, .index i => vs[i]?
  | .obj ms, .key k => ms.lookup k
  | _, _ => none

def Json.at? : Json F → JsonPath → Option (Json F)
  | v, [] => some v
  | v, step :: path => (v.child? step).bind fun w => w.at? path

@[simp] theorem Json.at?_nil (v : Json F) : v.at? [] = some v := rfl

theorem Json.at?_cons (v : Json F) (step : PathStep) (path : JsonPath) :
    v.at? (step :: path) = (v.child? step).bind fun w => w.at? path := rfl

theorem Json.at?_append (v : Json F) (path path' : JsonPath) :
    v.at? (path ++ path') = (v.at? path).bind fun w => w.at? path' := by
  induction path generalizing v with
  | nil => rfl
  | cons step path ih =>
      rw [List.cons_append, Json.at?_cons, Json.at?_cons]
      cases v.child? step with
      | none => rfl
      | some w => exact ih w

def Members.without (k : String) (ms : Members F) : Members F := ms.filter fun p => p.1 ≠ k

theorem Members.lookup_without (k : String) (ms : Members F) (k' : String) :
    (Members.without k ms).lookup k' = if k' = k then none else ms.lookup k' := by
  induction ms with
  | nil => simp [Members.without]
  | cons p ms ih =>
      rw [Members.without, List.filter_cons] at *
      by_cases hp : p.1 = k
      · rw [if_neg (by simpa using hp), ih, Members.lookup_cons]
        split_ifs with hk hkp
        · rfl
        · exact absurd (hkp.trans hp) hk
        · rfl
      · rw [if_pos (by simpa using hp), Members.lookup_cons, ih, Members.lookup_cons]
        split_ifs with hkp hk hk
        · exact absurd (hkp.symm.trans hk) hp
        · rfl
        · rfl
        · rfl

section

variable {S : Type} (marked : Members F → Bool) (f : Members F → S → Members F × S)

mutual

def mapMarked : Json F → S → Json F × S
  | .obj ms, s =>
      if marked ms then
        let r := f ms s
        (.obj r.1, r.2)
      else
        let r := mapMarkedMembers ms s
        (.obj r.1, r.2)
  | .arr vs, s =>
      let r := mapMarkedItems vs s
      (.arr r.1, r.2)
  | v, s => (v, s)

def mapMarkedItems : List (Json F) → S → List (Json F) × S
  | [], s => ([], s)
  | v :: vs, s =>
      let r := mapMarked v s
      let r' := mapMarkedItems vs r.2
      (r.1 :: r'.1, r'.2)

def mapMarkedMembers : Members F → S → Members F × S
  | [], s => ([], s)
  | (k, v) :: ms, s =>
      let r := mapMarked v s
      let r' := mapMarkedMembers ms r.2
      ((k, r.1) :: r'.1, r'.2)

end

theorem getElem?_mapMarkedItems (vs : List (Json F)) (s : S) (i : Nat) :
    (vs[i]? = none ∧ (mapMarkedItems marked f vs s).1[i]? = none) ∨
      ∃ v s', vs[i]? = some v ∧
        (mapMarkedItems marked f vs s).1[i]? = some (mapMarked marked f v s').1 := by
  induction vs generalizing s i with
  | nil => exact .inl ⟨rfl, rfl⟩
  | cons v vs ih =>
      cases i with
      | zero => exact .inr ⟨v, s, rfl, rfl⟩
      | succ i => exact ih _ i

theorem lookup_mapMarkedMembers (ms : Members F) (s : S) (k : String) :
    (ms.lookup k = none ∧ (mapMarkedMembers marked f ms s).1.lookup k = none) ∨
      ∃ v s', ms.lookup k = some v ∧
        (mapMarkedMembers marked f ms s).1.lookup k = some (mapMarked marked f v s').1 := by
  induction ms generalizing s with
  | nil => exact .inl ⟨rfl, rfl⟩
  | cons p ms ih =>
      obtain ⟨k', v⟩ := p
      rw [mapMarkedMembers, Members.lookup_cons, Members.lookup_cons]
      by_cases hk : k = k'
      · rw [if_pos hk, if_pos hk]
        exact .inr ⟨v, s, rfl, rfl⟩
      · rw [if_neg hk, if_neg hk]
        exact ih _

def Json.marked? : Json F → Option (Members F)
  | .obj ms => if marked ms then some ms else none
  | _ => none

/-- The first marked object on the way, with the rest of the way. -/
def outermost : Json F → JsonPath → Option (Members F × JsonPath)
  | v, [] => (v.marked? marked).map fun ms => (ms, [])
  | v, step :: path =>
      match v.marked? marked with
      | some ms => some (ms, step :: path)
      | none => (v.child? step).bind fun w => outermost w path

variable {marked}

theorem Json.marked?_eq_some_iff {v : Json F} {ms : Members F} :
    v.marked? marked = some ms ↔ v = .obj ms ∧ marked ms = true := by
  cases v with
  | obj ms' =>
      simp only [Json.marked?, Json.obj.injEq]
      constructor
      · intro h
        split_ifs at h with hm
        obtain rfl := Option.some.inj h
        exact ⟨rfl, hm⟩
      · rintro ⟨rfl, hm⟩
        rw [if_pos hm]
  | null | bool | int | float | str | arr => simp [Json.marked?]

theorem outermost_split {v : Json F} {path q : JsonPath} {ms : Members F}
    (h : outermost marked v path = some (ms, q)) :
    ∃ before, path = before ++ q ∧ v.at? before = some (.obj ms) ∧ marked ms = true := by
  induction path generalizing v with
  | nil =>
      rw [outermost, Option.map_eq_some_iff] at h
      obtain ⟨ms', hms, heq⟩ := h
      obtain ⟨rfl, rfl⟩ := Prod.mk.inj heq
      obtain ⟨rfl, hm⟩ := Json.marked?_eq_some_iff.mp hms
      exact ⟨[], rfl, rfl, hm⟩
  | cons step path ih =>
      rw [outermost] at h
      split at h
      · next ms' hms =>
          obtain ⟨rfl, rfl⟩ := Prod.mk.inj (Option.some.inj h)
          obtain ⟨rfl, hm⟩ := Json.marked?_eq_some_iff.mp hms
          exact ⟨[], rfl, rfl, hm⟩
      · obtain ⟨w, hw, h⟩ := Option.bind_eq_some_iff.mp h
        obtain ⟨before, rfl, hat, hm⟩ := ih h
        exact ⟨step :: before, rfl, by rw [Json.at?_cons, hw]; exact hat, hm⟩

theorem at?_of_outermost {v : Json F} {path q : JsonPath} {ms : Members F}
    (h : outermost marked v path = some (ms, q)) : v.at? path = (Json.obj ms).at? q := by
  obtain ⟨before, rfl, hat, -⟩ := outermost_split h
  rw [Json.at?_append, hat]
  rfl

theorem outermost_of_at? {v : Json F} {path : JsonPath} {ms : Members F}
    (h : v.at? path = some (.obj ms)) (hm : marked ms = true) (q : JsonPath) :
    ∃ ms' q', outermost marked v (path ++ q) = some (ms', q' ++ q) ∧
      (Json.obj ms').at? q' = some (.obj ms) := by
  induction path generalizing v with
  | nil =>
      obtain rfl := Option.some.inj h
      have hms : (Json.obj ms).marked? marked = some ms := Json.marked?_eq_some_iff.mpr ⟨rfl, hm⟩
      refine ⟨ms, [], ?_, rfl⟩
      cases q with
      | nil => rw [List.nil_append, outermost, hms]; rfl
      | cons step q => rw [List.nil_append, outermost, hms]
  | cons step path ih =>
      rw [Json.at?_cons, Option.bind_eq_some_iff] at h
      obtain ⟨w, hw, h⟩ := h
      rw [List.cons_append, outermost]
      split
      · next ms' hms =>
          obtain ⟨rfl, -⟩ := Json.marked?_eq_some_iff.mp hms
          exact ⟨ms', step :: path, rfl, by rw [Json.at?_cons, hw]; exact h⟩
      · rw [hw]
        exact ih h

variable {f}

theorem child?_mapMarked {v : Json F} (h : v.marked? marked = none) (s : S) (step : PathStep) :
    (v.child? step = none ∧ (mapMarked marked f v s).1.child? step = none) ∨
      ∃ w s', v.child? step = some w ∧
        (mapMarked marked f v s).1.child? step = some (mapMarked marked f w s').1 := by
  cases v with
  | obj ms =>
      have hm : ¬marked ms = true := fun hm => by
        rw [Json.marked?_eq_some_iff.mpr ⟨rfl, hm⟩] at h
        cases h
      rw [mapMarked, if_neg hm]
      cases step with
      | index i => exact .inl ⟨rfl, rfl⟩
      | key k => exact lookup_mapMarkedMembers marked f ms s k
  | arr vs =>
      cases step with
      | index i => exact getElem?_mapMarkedItems marked f vs s i
      | key k => exact .inl ⟨rfl, rfl⟩
  | null | bool | int | float | str => exact .inl ⟨rfl, rfl⟩

section

variable (hkeep : ∀ ms s, marked ms = true → marked (f ms s).1 = true)
  (hnew : ∀ ms s, marked ms = false → marked (mapMarkedMembers marked f ms s).1 = false)

include hkeep hnew

theorem marked?_mapMarked (v : Json F) (s : S) :
    (v.marked? marked = none ∧ (mapMarked marked f v s).1.marked? marked = none) ∨
      ∃ ms, v.marked? marked = some ms ∧
        (mapMarked marked f v s).1.marked? marked = some (f ms s).1 := by
  cases v with
  | obj ms =>
      by_cases hm : marked ms = true
      · refine .inr ⟨ms, Json.marked?_eq_some_iff.mpr ⟨rfl, hm⟩, ?_⟩
        rw [mapMarked, if_pos hm]
        exact Json.marked?_eq_some_iff.mpr ⟨rfl, hkeep ms s hm⟩
      · have hnot := hnew ms s (by simpa using hm)
        refine .inl ⟨if_neg hm, ?_⟩
        rw [mapMarked, if_neg hm]
        exact if_neg (by simp [hnot])
  | null | bool | int | float | str | arr => exact .inl ⟨rfl, rfl⟩

theorem outermost_mapMarked (v : Json F) (s : S) (path : JsonPath) :
    (outermost marked v path = none ∧ outermost marked (mapMarked marked f v s).1 path = none) ∨
      ∃ ms q s', outermost marked v path = some (ms, q) ∧
        outermost marked (mapMarked marked f v s).1 path = some ((f ms s').1, q) := by
  induction path generalizing v s with
  | nil =>
      rcases marked?_mapMarked hkeep hnew v s with ⟨h, h'⟩ | ⟨ms, h, h'⟩
      · exact .inl ⟨by rw [outermost, h]; rfl, by rw [outermost, h']; rfl⟩
      · exact .inr ⟨ms, [], s, by rw [outermost, h]; rfl, by rw [outermost, h']; rfl⟩
  | cons step path ih =>
      rcases marked?_mapMarked hkeep hnew v s with ⟨h, h'⟩ | ⟨ms, h, h'⟩
      · rw [outermost, outermost, h, h']
        rcases child?_mapMarked (f := f) h s step with ⟨hc, hc'⟩ | ⟨w, s', hc, hc'⟩
        · exact .inl ⟨by rw [hc]; rfl, by rw [hc']; rfl⟩
        · rw [hc, hc']
          exact ih w s'
      · exact .inr ⟨ms, step :: path, s, by rw [outermost, h], by rw [outermost, h']⟩

end

mutual

theorem mapMarked_eq_self {s : S} : ∀ v : Json F, v.wf = true →
    (∀ path ms, v.at? path = some (.obj ms) → marked ms = true → f ms s = (ms, s)) →
      mapMarked marked f v s = (v, s)
  | .obj ms, hwf, h => by
      rw [Json.wf, Bool.and_eq_true, decide_eq_true_eq] at hwf
      rw [mapMarked]
      split_ifs with hm
      · rw [h [] ms rfl hm]
      · rw [mapMarkedMembers_eq_self ms hwf.2 fun p hp path ms' hat => h (.key p.1 :: path) ms' (by
          rw [Json.at?_cons, Json.child?, Members.lookup_of_mem hwf.1 hp]
          exact hat)]
  | .arr vs, hwf, h => by
      rw [Json.wf] at hwf
      rw [mapMarked, mapMarkedItems_eq_self vs hwf fun v hv path ms hat => by
        obtain ⟨i, hi⟩ := List.getElem?_of_mem hv
        refine h (.index i :: path) ms ?_
        rw [Json.at?_cons, Json.child?, hi]
        exact hat]
  | .null, _, _ | .bool _, _, _ | .int _, _, _ | .float _, _, _ | .str _, _, _ => rfl

theorem mapMarkedItems_eq_self {s : S} : ∀ vs : List (Json F), Json.wfItems vs = true →
    (∀ v ∈ vs, ∀ path ms, v.at? path = some (.obj ms) → marked ms = true → f ms s = (ms, s)) →
      mapMarkedItems marked f vs s = (vs, s)
  | [], _, _ => rfl
  | v :: vs, hwf, h => by
      rw [Json.wfItems, Bool.and_eq_true] at hwf
      rw [mapMarkedItems, mapMarked_eq_self v hwf.1 (h v List.mem_cons_self),
        mapMarkedItems_eq_self vs hwf.2 fun w hw => h w (List.mem_cons_of_mem _ hw)]

theorem mapMarkedMembers_eq_self {s : S} : ∀ ms : Members F, Json.wfMembers ms = true →
    (∀ p ∈ ms, ∀ path ms', p.2.at? path = some (.obj ms') → marked ms' = true →
      f ms' s = (ms', s)) → mapMarkedMembers marked f ms s = (ms, s)
  | [], _, _ => rfl
  | (k, v) :: ms, hwf, h => by
      rw [Json.wfMembers, Bool.and_eq_true] at hwf
      rw [mapMarkedMembers, mapMarked_eq_self v hwf.1 (h (k, v) List.mem_cons_self),
        mapMarkedMembers_eq_self ms hwf.2 fun p hp => h p (List.mem_cons_of_mem _ hp)]

end

end

end PyJson
