import Mathlib.Tactic

/-!
Hierarchical ids: the children of the root are numbered, and the id of any
other child is that of its parent, a dot and a number.
-/

namespace DottedIds

/-- What stands before the number in the ids of the children of `parent`. -/
def stem (root parent : String) : List Char :=
  if parent = root then [] else parent.toList ++ ['.']

def child (root parent : String) (n : Nat) : String :=
  String.ofList (stem root parent ++ Nat.toDigits 10 n)

def number? (digits : List Char) : Option Nat :=
  if !digits.isEmpty && digits.all Char.isDigit then some (Nat.ofDigitChars 10 digits 0) else none

/-- The number of a child, if `id` is the id of one. -/
def childNumber? (root parent id : String) : Option Nat :=
  ((stem root parent).isPrefixOf? id.toList).bind number?

def nextNumber (root parent : String) (ids : List String) : Nat :=
  (ids.filterMap (childNumber? root parent)).foldr max 0 + 1

theorem isDigit_toDigits {n : Nat} {c : Char} (h : c ∈ Nat.toDigits 10 n) : c.isDigit = true :=
  Nat.isDigit_of_mem_toDigits (by decide) (by decide) h

theorem dot_notMem_toDigits (n : Nat) : '.' ∉ Nat.toDigits 10 n := by
  intro h
  have := isDigit_toDigits h
  revert this
  decide

theorem toDigits_injective {m n : Nat} (h : Nat.toDigits 10 m = Nat.toDigits 10 n) : m = n := by
  simpa using congrArg (Nat.ofDigitChars 10 · 0) h

theorem number?_toDigits (n : Nat) : number? (Nat.toDigits 10 n) = some n := by
  have hall : (Nat.toDigits 10 n).all Char.isDigit = true :=
    List.all_eq_true.mpr fun _ hc => isDigit_toDigits hc
  rw [number?, hall, Bool.and_true, if_pos (by simp), Nat.ofDigitChars_ten_toDigits]

theorem isPrefixOf?_append (xs ys : List Char) : xs.isPrefixOf? (xs ++ ys) = some ys := by
  induction xs with
  | nil => cases ys <;> rfl
  | cons x xs ih => simp [List.isPrefixOf?, ih]

@[simp] theorem childNumber?_child (root parent : String) (n : Nat) :
    childNumber? root parent (child root parent n) = some n := by
  rw [childNumber?, child, String.toList_ofList, isPrefixOf?_append, Option.bind_some,
    number?_toDigits]

theorem append_cons_injective {c : Char} {xs ys ds es : List Char} (hd : c ∉ ds) (he : c ∉ es)
    (h : xs ++ c :: ds = ys ++ c :: es) : xs = ys ∧ ds = es := by
  rcases List.append_eq_append_iff.mp h with ⟨zs, rfl, hz⟩ | ⟨zs, rfl, hz⟩
  · cases zs with
    | nil => exact ⟨by simp, by simpa using hz⟩
    | cons z zs => exact absurd ((List.cons.inj hz).2 ▸ by simp) hd
  · cases zs with
    | nil => exact ⟨by simp, by simpa using hz.symm⟩
    | cons z zs => exact absurd ((List.cons.inj hz).2 ▸ by simp) he

theorem child_injective {root p q : String} {m n : Nat} (h : child root p m = child root q n) :
    p = q ∧ m = n := by
  have hlist : stem root p ++ Nat.toDigits 10 m = stem root q ++ Nat.toDigits 10 n := by
    simpa [child] using congrArg String.toList h
  rw [stem, stem] at hlist
  split_ifs at hlist with hp hq hq
  · exact ⟨hp.trans hq.symm, toDigits_injective (by simpa using hlist)⟩
  · exfalso
    apply dot_notMem_toDigits m
    rw [List.nil_append] at hlist
    simp [hlist]
  · exfalso
    apply dot_notMem_toDigits n
    rw [List.nil_append] at hlist
    simp [← hlist]
  · rw [List.append_assoc, List.append_assoc, List.singleton_append, List.singleton_append] at hlist
    obtain ⟨hstem, hdigits⟩ :=
      append_cons_injective (dot_notMem_toDigits m) (dot_notMem_toDigits n) hlist
    exact ⟨String.toList_injective hstem, toDigits_injective hdigits⟩

theorem child_ne_root {root : String} (hroot : ∀ c ∈ root.toList, c.isDigit = false) (p : String)
    (n : Nat) : child root p n ≠ root := by
  intro h
  have hlist : stem root p ++ Nat.toDigits 10 n = root.toList := by
    simpa [child] using congrArg String.toList h
  obtain ⟨c, hc⟩ := List.exists_mem_of_ne_nil _ (Nat.toDigits_ne_nil (n := n) (b := 10))
  have hnot := hroot c (hlist ▸ List.mem_append_right _ hc)
  rw [isDigit_toDigits hc] at hnot
  simp at hnot

theorem child_nextNumber_notMem (root parent : String) (ids : List String) :
    child root parent (nextNumber root parent ids) ∉ ids := by
  intro h
  have hle : ∀ (ns : List Nat) (n : Nat), n ∈ ns → n ≤ ns.foldr max 0 := by
    intro ns n hn
    induction ns with
    | nil => simp at hn
    | cons m ns ih =>
        rcases List.mem_cons.mp hn with rfl | hn
        · exact le_max_left _ _
        · exact (ih hn).trans (le_max_right _ _)
  have hm : nextNumber root parent ids ∈ ids.filterMap (childNumber? root parent) :=
    List.mem_filterMap.mpr ⟨_, h, childNumber?_child root parent _⟩
  have := hle _ _ hm
  rw [nextNumber] at this
  omega

end DottedIds
