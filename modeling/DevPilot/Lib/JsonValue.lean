import Mathlib.Tactic

/-!
JSON values as Python's `json` module hands them to a program, with the
dictionary operations programs use on them.
-/

namespace PyJson

/-- `F` stands for the finite or special floating-point numbers of the host. -/
inductive Json (F : Type)
  | null
  | bool (b : Bool)
  | int (n : Int)
  | float (x : F)
  | str (s : String)
  | arr (items : List (Json F))
  | obj (members : List (String × Json F))

variable {F : Type}

abbrev Members (F : Type) := List (String × Json F)

namespace Members

variable {β : Type}

def keys (ms : List (String × β)) : List String := ms.map Prod.fst

/-- `d[k] = v`: an existing key keeps its position. -/
def insert (k : String) (v : β) : List (String × β) → List (String × β)
  | [] => [(k, v)]
  | (k', v') :: ms => if k' = k then (k, v) :: ms else (k', v') :: insert k v ms

/-- `dict(pairs)`: later pairs override earlier ones. -/
def ofPairs (pairs : List (String × β)) : List (String × β) :=
  pairs.foldl (fun ms p => insert p.1 p.2 ms) []

theorem lookup_cons (p : String × β) (ps : List (String × β)) (k : String) :
    (p :: ps).lookup k = if k = p.1 then some p.2 else ps.lookup k := by
  rw [List.lookup_cons]
  by_cases h : k = p.1
  · simp [h]
  · simp [h, show (k == p.1) = false by simpa using h]

theorem mem_of_lookup {k : String} {v : β} {ps : List (String × β)} (h : ps.lookup k = some v) :
    (k, v) ∈ ps := by
  induction ps with
  | nil => simp at h
  | cons p ps ih =>
      rw [lookup_cons] at h
      split_ifs at h with hk
      · obtain rfl := Option.some.inj h
        exact hk ▸ List.mem_cons_self
      · exact List.mem_cons_of_mem _ (ih h)

theorem lookup_of_mem {p : String × β} {ps : List (String × β)} (hn : (keys ps).Nodup)
    (h : p ∈ ps) : ps.lookup p.1 = some p.2 := by
  induction ps with
  | nil => simp at h
  | cons q ps ih =>
      rw [keys, List.map_cons, List.nodup_cons] at hn
      rw [lookup_cons]
      rcases List.mem_cons.mp h with rfl | h
      · exact if_pos rfl
      · have hne : p.1 ≠ q.1 := fun he => hn.1 (List.mem_map.mpr ⟨p, h, he⟩)
        rw [if_neg hne]
        exact ih hn.2 h

theorem insert_nil (k : String) (v : β) : insert k v [] = [(k, v)] := rfl

theorem insert_cons (k : String) (v : β) (p : String × β) (ms : List (String × β)) :
    insert k v (p :: ms) = if p.1 = k then (k, v) :: ms else p :: insert k v ms := rfl

theorem lookup_insert_self (k : String) (v : β) (ms : List (String × β)) :
    (insert k v ms).lookup k = some v := by
  induction ms with
  | nil => simp [insert_nil]
  | cons p ms ih =>
      obtain ⟨k', w⟩ := p
      by_cases h : k' = k
      · simp [insert_cons, h]
      · have hk : (k == k') = false := by simpa using Ne.symm h
        simp [insert_cons, h, List.lookup_cons, hk, ih]

theorem lookup_insert_ne {k k' : String} (h : k' ≠ k) (v : β) (ms : List (String × β)) :
    (insert k v ms).lookup k' = ms.lookup k' := by
  have hne : (k' == k) = false := by simpa using h
  induction ms with
  | nil => simp [insert_nil, List.lookup_cons, hne]
  | cons p ms ih =>
      obtain ⟨k'', w⟩ := p
      by_cases hp : k'' = k
      · simp [insert_cons, hp, List.lookup_cons, hne]
      · simp [insert_cons, hp, List.lookup_cons, ih]

theorem insert_insert (k : String) (v w : β) (ms : List (String × β)) :
    insert k w (insert k v ms) = insert k w ms := by
  induction ms with
  | nil => simp [insert_nil, insert_cons]
  | cons p ms ih =>
      by_cases h : p.1 = k
      · simp [insert_cons, h]
      · simp [insert_cons, h, ih]

theorem filter_insert {q : String × β → Bool} {k : String} {v : β} {ms : List (String × β)}
    (hnew : q (k, v) = false) (hold : ∀ p ∈ ms, p.1 = k → q p = false) :
    (insert k v ms).filter q = ms.filter q := by
  induction ms with
  | nil => simp [insert_nil, hnew]
  | cons p ms ih =>
      obtain ⟨k', w⟩ := p
      by_cases h : k' = k
      · have hp := hold (k', w) List.mem_cons_self h
        simp [insert_cons, h, hnew, show q (k, w) = false from h ▸ hp]
      · have hms := ih fun p hp => hold p (List.mem_cons_of_mem _ hp)
        simp [insert_cons, h, List.filter_cons, hms]

theorem lookup_map {γ : Type} (f : String → β → γ) (ps : List (String × β)) (k : String) :
    (ps.map fun p => (p.1, f p.1 p.2)).lookup k = (ps.lookup k).map (f k) := by
  induction ps with
  | nil => rfl
  | cons p ps ih =>
      rw [List.map_cons, lookup_cons, lookup_cons, ih]
      by_cases h : k = p.1
      · simp [h]
      · simp [h]

theorem insert_append_fresh {k : String} (v : β) {ms : List (String × β)}
    (h : k ∉ keys ms) : insert k v ms = ms ++ [(k, v)] := by
  induction ms with
  | nil => rfl
  | cons p ms ih =>
      simp only [keys, List.map_cons, List.mem_cons, not_or] at h
      simp [insert_cons, Ne.symm h.1, ih h.2]

theorem foldl_insert_fresh (ps ms : List (String × β)) (h : (keys (ms ++ ps)).Nodup) :
    ps.foldl (fun ms p => insert p.1 p.2 ms) ms = ms ++ ps := by
  induction ps generalizing ms with
  | nil => simp
  | cons p ps ih =>
      have hfresh : p.1 ∉ keys ms := by
        have := h
        simp only [keys, List.map_append, List.map_cons, List.nodup_append] at this
        exact fun hm => this.2.2 _ hm _ (by simp) rfl
      rw [List.foldl_cons, insert_append_fresh _ hfresh, ih _ (by simpa using h)]
      simp

theorem ofPairs_nodup {ps : List (String × β)} (h : (keys ps).Nodup) : ofPairs ps = ps := by
  simpa [ofPairs] using foldl_insert_fresh ps [] (by simpa using h)

theorem insert_middle {k : String} (v w : β) {before : List (String × β)} (after : List (String × β))
    (h : k ∉ keys before) : insert k v (before ++ (k, w) :: after) = before ++ (k, v) :: after := by
  induction before with
  | nil => simp [insert_cons]
  | cons p before ih =>
      simp only [keys, List.map_cons, List.mem_cons, not_or] at h
      rw [List.cons_append, insert_cons, if_neg (Ne.symm h.1), ih h.2, List.cons_append]

theorem foldl_insert_same (ms old : List (String × β)) {before : List (String × β)}
    (hk : keys ms = keys old) (h : (keys (before ++ old)).Nodup) :
    ms.foldl (fun ms p => insert p.1 p.2 ms) (before ++ old) = before ++ ms := by
  induction ms generalizing old before with
  | nil => simpa [keys] using hk.symm
  | cons p ms ih =>
      obtain ⟨k, v⟩ := p
      cases old with
      | nil => simp [keys] at hk
      | cons q old =>
          obtain ⟨k', w⟩ := q
          simp only [keys, List.map_cons, List.cons.injEq] at hk
          obtain ⟨rfl, hk⟩ := hk
          have hnot : k ∉ keys before := by
            rw [keys, List.map_append, List.map_cons] at h
            exact fun hm => (List.nodup_append'.mp h).2.2 hm List.mem_cons_self
          rw [List.foldl_cons, insert_middle v w old hnot, List.append_cons]
          rw [ih old hk (by simpa [keys] using h)]
          simp

theorem foldl_insert_extends {ms old : List (String × β)} (hk : keys old <+: keys ms)
    (h : (keys ms).Nodup) : ms.foldl (fun ms p => insert p.1 p.2 ms) old = ms := by
  have hfirst : keys (ms.take old.length) = keys old := by
    rw [keys, List.map_take]
    have hlen : (keys old).length = old.length := List.length_map ..
    exact hlen ▸ (List.prefix_iff_eq_take.mp hk).symm
  have hold : (keys old).Nodup := hk.sublist.nodup h
  calc ms.foldl (fun ms p => insert p.1 p.2 ms) old
      = (ms.drop old.length).foldl (fun ms p => insert p.1 p.2 ms)
          ((ms.take old.length).foldl (fun ms p => insert p.1 p.2 ms) ([] ++ old)) := by
        rw [← List.foldl_append, List.take_append_drop, List.nil_append]
    _ = (ms.drop old.length).foldl (fun ms p => insert p.1 p.2 ms) (ms.take old.length) := by
        rw [show _ = [] ++ ms.take old.length from foldl_insert_same _ old hfirst hold, List.nil_append]
    _ = ms := by
        rw [foldl_insert_fresh, List.take_append_drop]
        rwa [List.take_append_drop]

theorem keys_insert (k : String) (v : β) (ms : List (String × β)) :
    keys (insert k v ms) = if k ∈ keys ms then keys ms else keys ms ++ [k] := by
  induction ms with
  | nil => simp [insert_nil, keys]
  | cons p ms ih =>
      by_cases hp : p.1 = k
      · simp [insert_cons, hp, keys]
      · simp only [keys] at ih
        by_cases hk : k ∈ ms.map Prod.fst <;> simp [insert_cons, hp, keys, ih, hk, Ne.symm hp]

theorem eq_or_mem_of_mem_insert {k : String} {v : β} {ms : List (String × β)} {p : String × β}
    (h : p ∈ insert k v ms) : p = (k, v) ∨ p ∈ ms := by
  induction ms with
  | nil => exact .inl (List.mem_singleton.mp h)
  | cons q ms ih =>
      rw [insert_cons] at h
      split_ifs at h
      · exact (List.mem_cons.mp h).imp_right (List.mem_cons_of_mem q)
      · rcases List.mem_cons.mp h with rfl | h
        · exact .inr List.mem_cons_self
        · exact (ih h).imp_right (List.mem_cons_of_mem q)

theorem nodup_keys_insert {k : String} {v : β} {ms : List (String × β)}
    (h : (keys ms).Nodup) : (keys (insert k v ms)).Nodup := by
  rw [keys_insert]
  split
  · exact h
  · rename_i hk
    exact List.nodup_append.mpr ⟨h, by simp, fun a ha b hb => by
      rintro rfl
      exact hk (by simpa using (by simpa using hb : a = k) ▸ ha)⟩

end Members

namespace Json

def get? (j : Json F) (k : String) : Option (Json F) :=
  match j with
  | .obj ms => ms.lookup k
  | _ => none

def set (j : Json F) (k : String) (v : Json F) : Json F :=
  match j with
  | .obj ms => .obj (Members.insert k v ms)
  | j => j

def str? : Json F → Option String
  | .str s => some s
  | _ => none

def getStr? (j : Json F) (k : String) : Option String := (j.get? k).bind str?

def isObj : Json F → Bool
  | .obj _ => true
  | _ => false

@[simp] theorem get?_obj (ms : Members F) (k : String) :
    (Json.obj ms).get? k = ms.lookup k := rfl

@[simp] theorem str?_str (s : String) : (Json.str s : Json F).str? = some s := rfl

theorem get?_set_self {j : Json F} (h : j.isObj = true) (k : String) (v : Json F) :
    (j.set k v).get? k = some v := by
  cases j with
  | obj ms => exact Members.lookup_insert_self k v ms
  | _ => simp [isObj] at h

theorem get?_set_ne {k k' : String} (h : k' ≠ k) (j : Json F) (v : Json F) :
    (j.set k v).get? k' = j.get? k' := by
  cases j with
  | obj ms => exact Members.lookup_insert_ne h v ms
  | _ => rfl

theorem getStr?_set_ne {k k' : String} (h : k' ≠ k) (j v : Json F) :
    (j.set k v).getStr? k' = j.getStr? k' := by
  rw [getStr?, getStr?, get?_set_ne h]

theorem set_set (j : Json F) (k : String) (v w : Json F) : (j.set k v).set k w = j.set k w := by
  cases j with
  | obj ms => exact congrArg Json.obj (Members.insert_insert k v w ms)
  | _ => rfl

theorem isObj_of_get? {j : Json F} {k : String} {v : Json F} (h : j.get? k = some v) :
    j.isObj = true := by
  cases j <;> simp_all [get?, isObj]

theorem get?_set_eq {j : Json F} {k : String} {w : Json F} (h : j.get? k = some w) (v : Json F) :
    (j.set k v).get? k = some v := get?_set_self (isObj_of_get? h) k v

end Json

mutual

/-- Every dictionary inside the value has distinct keys, as host
dictionaries do. -/
def Json.wf : Json F → Bool
  | .arr items => Json.wfItems items
  | .obj members => decide (Members.keys members).Nodup && Json.wfMembers members
  | _ => true

def Json.wfItems : List (Json F) → Bool
  | [] => true
  | v :: vs => Json.wf v && Json.wfItems vs

def Json.wfMembers : Members F → Bool
  | [] => true
  | (_, v) :: ms => Json.wf v && Json.wfMembers ms

end

mutual

/-- Some string of the value, a key or a leaf, satisfies `p`. -/
def Json.anyString (p : String → Bool) : Json F → Bool
  | .str s => p s
  | .arr items => Json.anyStringItems p items
  | .obj members => Json.anyStringMembers p members
  | _ => false

def Json.anyStringItems (p : String → Bool) : List (Json F) → Bool
  | [] => false
  | v :: vs => Json.anyString p v || Json.anyStringItems p vs

def Json.anyStringMembers (p : String → Bool) : Members F → Bool
  | [] => false
  | (k, v) :: ms => p k || Json.anyString p v || Json.anyStringMembers p ms

end

theorem Json.wfItems_eq_all (vs : List (Json F)) : Json.wfItems vs = vs.all Json.wf := by
  induction vs with
  | nil => rfl
  | cons v vs ih => simp [Json.wfItems, ih]

theorem Json.wfMembers_eq_all (ms : Members F) :
    Json.wfMembers ms = ms.all (fun p => Json.wf p.2) := by
  induction ms with
  | nil => rfl
  | cons p ms ih => simp [Json.wfMembers, ih]

theorem Json.wf_ite {keep : Bool} {v w : Json F} (hv : v.wf = true) (hw : w.wf = true) :
    (if keep then v else w).wf = true := by
  cases keep
  · exact hw
  · exact hv

end PyJson
