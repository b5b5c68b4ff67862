import DevPilot.Lib.JsonValue

/-!
Mappings that are merged in layers, later ones over earlier ones, and what is found first
when layers and places are searched in either order.
-/

namespace Layers

open PyJson

section Search

variable {α β γ : Type}

def firstRow (f : α → β → Option γ) (xs : List α) (ys : List β) : Option α :=
  xs.find? fun x => (ys.findSome? (f x)).isSome

def firstColumn (f : α → β → Option γ) (xs : List α) (ys : List β) : Option β :=
  firstRow (fun y x => f x y) ys xs

variable {f : α → β → Option γ} {xs : List α} {ys : List β} {x : α} {y : β}

theorem findSome?_eq_bind_firstRow :
    xs.findSome? (fun x => ys.findSome? (f x)) =
      (firstRow f xs ys).bind fun x => ys.findSome? (f x) := by
  rw [firstRow]
  induction xs with
  | nil => rfl
  | cons x xs ih =>
      rw [List.findSome?_cons, List.find?_cons]
      cases h : ys.findSome? (f x) with
      | none => exact ih
      | some v => simp [h]

theorem findSome?_of_firstColumn (hy : firstColumn f xs ys = some y) (hx : x ∈ xs) {v : γ}
    (hv : f x y = some v) : ys.findSome? (f x) = some v := by
  obtain ⟨-, before, after, rfl, hbefore⟩ := List.find?_eq_some_iff_append.mp hy
  rw [List.findSome?_append, List.findSome?_eq_none_iff.mpr, Option.none_or, List.findSome?_cons, hv]
  intro z hz
  have hempty := hbefore z hz
  rw [Bool.not_eq_true', Option.isSome_eq_false_iff, Option.isNone_iff_eq_none] at hempty
  exact List.findSome?_eq_none_iff.mp hempty x hx

theorem firstColumn_eq_none (h : firstRow f xs ys = none) : firstColumn f xs ys = none := by
  refine List.find?_eq_none.mpr fun y hy hsome => ?_
  obtain ⟨x, hx, hv⟩ := List.findSome?_isSome_iff.mp hsome
  exact List.find?_eq_none.mp h x hx (List.findSome?_isSome_iff.mpr ⟨y, hy, hv⟩)

theorem search_comm_iff :
    xs.findSome? (fun x => ys.findSome? (f x)) = ys.findSome? (fun y => xs.findSome? (f · y)) ↔
      ∀ x ∈ firstRow f xs ys, ∀ y ∈ firstColumn f xs ys,
        (f x y).isSome = true ∨ ys.findSome? (f x) = xs.findSome? (f · y) := by
  rw [findSome?_eq_bind_firstRow, findSome?_eq_bind_firstRow (f := fun y x => f x y)]
  change (firstRow f xs ys).bind _ = (firstColumn f xs ys).bind _ ↔ _
  cases hrow : firstRow f xs ys with
  | none => simp [firstColumn_eq_none hrow]
  | some x =>
      cases hcolumn : firstColumn f xs ys with
      | none =>
          have hnone := firstColumn_eq_none (f := fun y x => f x y) hcolumn
          cases hnone.symm.trans hrow
      | some y =>
          have hx : x ∈ xs := List.mem_of_find?_eq_some hrow
          have hy : y ∈ ys := List.mem_of_find?_eq_some hcolumn
          simp only [Option.bind_some, Option.mem_def, Option.some.injEq, forall_eq']
          refine ⟨.inr, fun h => h.elim (fun hsome => ?_) id⟩
          obtain ⟨v, hv⟩ := Option.isSome_iff_exists.mp hsome
          have hback := findSome?_of_firstColumn (f := fun y x => f x y) hrow hy hv
          rw [findSome?_of_firstColumn hcolumn hx hv, hback]

end Search

variable {F : Type}

mutual

/-- What `override` leaves of a value that was there. -/
def mergeValue (old : Json F) : Json F → Json F
  | .obj override => match old with
    | .obj base => .obj (deepMerge base override)
    | _ => .obj override
  | override => override

/-- Mappings are merged key by key, and other values are replaced. -/
def deepMerge (base : Members F) : Members F → Members F
  | [] => base
  | (key, value) :: override => deepMerge (Members.insert key
      (match base.lookup key with
        | some old => mergeValue old value
        | none => value) base) override

end

def mergeAll (layers : List (Members F)) : Members F := layers.foldl deepMerge []

/-- Where a mapping of mappings holds a value. -/
inductive Place
  | flat (key : String)
  | within (group key : String)
  deriving DecidableEq

def Place.get (place : Place) (ms : Members F) : Option (Json F) :=
  match place with
  | .flat key => ms.lookup key
  | .within group key => match ms.lookup group with
    | some (.obj members) => members.lookup key
    | _ => none

def Place.Fits (place : Place) (ms : Members F) : Prop :=
  match place with
  | .flat key => ∀ v ∈ ms.lookup key, v.isObj = false
  | .within group key => ∀ v ∈ ms.lookup group, ∃ members, v = .obj members ∧
      (Members.keys members).Nodup ∧ ∀ w ∈ members.lookup key, w.isObj = false

theorem mergeValue_of_not_isObj (old : Json F) {v : Json F} (h : v.isObj = false) :
    mergeValue old v = v := by
  cases v with
  | obj ms => cases h
  | _ => rfl

theorem lookup_deepMerge (base : Members F) {override : Members F}
    (h : (Members.keys override).Nodup) (key : String) :
    (deepMerge base override).lookup key = match override.lookup key with
      | some v => some (match base.lookup key with
        | some old => mergeValue old v
        | none => v)
      | none => base.lookup key := by
  induction override generalizing base with
  | nil => rfl
  | cons p override ih =>
      obtain ⟨k, v⟩ := p
      rw [Members.keys, List.map_cons, List.nodup_cons] at h
      rw [deepMerge, ih _ h.2, Members.lookup_cons]
      by_cases hk : key = k
      · subst hk
        have hnone : override.lookup key = none := by
          refine Option.eq_none_iff_forall_ne_some.mpr fun w hw => h.1 ?_
          exact List.mem_map.mpr ⟨_, Members.mem_of_lookup hw, rfl⟩
        rw [if_pos rfl, hnone, Members.lookup_insert_self]
      · rw [if_neg hk, Members.lookup_insert_ne hk]

theorem nodup_keys_deepMerge {base : Members F} (h : (Members.keys base).Nodup)
    (override : Members F) : (Members.keys (deepMerge base override)).Nodup := by
  induction override generalizing base with
  | nil => exact h
  | cons p override ih => exact ih (Members.nodup_keys_insert h)

theorem get_deepMerge (base : Members F) {override : Members F}
    (h : (Members.keys override).Nodup) {p : Place} (hp : p.Fits override) :
    p.get (deepMerge base override) = (p.get override).or (p.get base) := by
  cases p with
  | flat key =>
      simp only [Place.get]
      rw [lookup_deepMerge base h]
      cases hv : override.lookup key with
      | none => rfl
      | some v =>
          cases base.lookup key with
          | none => rfl
          | some old => exact congrArg some (mergeValue_of_not_isObj old (hp v hv))
  | within group key =>
      simp only [Place.get]
      rw [lookup_deepMerge base h]
      cases hv : override.lookup group with
      | none => rfl
      | some v =>
          obtain ⟨members, rfl, hnodup, hmembers⟩ := hp v hv
          cases base.lookup group with
          | none => exact (Option.or_none).symm
          | some old =>
              cases old with
              | obj old =>
                  simp only [mergeValue]
                  rw [lookup_deepMerge old hnodup]
                  cases hw : members.lookup key with
                  | none => rfl
                  | some w =>
                      cases old.lookup key with
                      | none => rfl
                      | some old => exact congrArg some (mergeValue_of_not_isObj old (hmembers w hw))
              | _ => exact (Option.or_none).symm

theorem get_mergeAll {layers : List (Members F)} {p : Place}
    (h : ∀ l ∈ layers, (Members.keys l).Nodup ∧ p.Fits l) :
    p.get (mergeAll layers) = layers.reverse.findSome? p.get := by
  induction layers using List.reverseRecOn with
  | nil => cases p <;> rfl
  | append_singleton layers l ih =>
      have hl := h l (List.mem_append_right _ (List.mem_singleton_self l))
      rw [mergeAll, List.foldl_append, List.foldl_cons, List.foldl_nil, get_deepMerge _ hl.1 hl.2,
        ← mergeAll, ih fun l' hl' => h l' (List.mem_append_left _ hl'), List.reverse_append,
        List.reverse_singleton, List.singleton_append, List.findSome?_cons]
      cases p.get l <;> rfl

theorem nodup_keys_mergeAll (layers : List (Members F)) :
    (Members.keys (mergeAll layers)).Nodup := by
  induction layers using List.reverseRecOn with
  | nil => exact List.nodup_nil
  | append_singleton layers l ih =>
      rw [mergeAll, List.foldl_append]
      exact nodup_keys_deepMerge ih l

end Layers
