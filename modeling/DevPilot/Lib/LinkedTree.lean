import Mathlib.Tactic

/-!
Trees whose nodes know their parent and list their children: well-formed links,
their depths, what lies below a node, adding a leaf and visiting a subtree.
-/

namespace LinkedTree

variable {α : Type}

structure Links (α : Type) where
  ids : List α
  parent : α → Option α
  children : α → List α
  depth : α → Int

namespace Links

/-- `a` is a proper ancestor of `x`. -/
def Below (t : Links α) : α → α → Prop := Relation.TransGen fun x p => t.parent x = some p

structure WellFormed [DecidableEq α] (t : Links α) (root : α) : Prop where
  nodup : t.ids.Nodup
  root_mem : root ∈ t.ids
  root_parent : t.parent root = none
  root_depth : t.depth root = 0
  parent : ∀ x ∈ t.ids, x ≠ root → ∃ p ∈ t.ids,
    t.parent x = some p ∧ (t.children p).count x = 1 ∧ t.depth x = t.depth p + 1
  child : ∀ p ∈ t.ids, ∀ c ∈ t.children p, c ∈ t.ids ∧ t.parent c = some p

variable [DecidableEq α] {t : Links α} {root : α}

namespace WellFormed

theorem of_parent (h : t.WellFormed root) {x p : α} (hx : x ∈ t.ids) (hp : t.parent x = some p) :
    p ∈ t.ids ∧ x ∈ t.children p ∧ t.depth x = t.depth p + 1 := by
  have hroot : x ≠ root := by
    rintro rfl
    simp [h.root_parent] at hp
  obtain ⟨q, hq, hpq, hcount, hdepth⟩ := h.parent x hx hroot
  obtain rfl := Option.some.inj (hp.symm.trans hpq)
  exact ⟨hq, List.count_pos_iff.mp (by omega), hdepth⟩

theorem of_below (h : t.WellFormed root) {x a : α} (hx : x ∈ t.ids) (hb : t.Below x a) :
    a ∈ t.ids ∧ t.depth a < t.depth x := by
  induction hb with
  | single hp =>
      obtain ⟨hm, -, hd⟩ := h.of_parent hx hp
      exact ⟨hm, by omega⟩
  | tail _ hp ih =>
      obtain ⟨hm, -, hd⟩ := h.of_parent ih.1 hp
      exact ⟨hm, by omega⟩

theorem acyclic (h : t.WellFormed root) {x : α} (hx : x ∈ t.ids) : ¬ t.Below x x := by
  intro hb
  have := (h.of_below hx hb).2
  omega

theorem induction (h : t.WellFormed root) {P : α → Prop} (hroot : P root)
    (hchild : ∀ p ∈ t.ids, P p → ∀ x ∈ t.ids, t.parent x = some p → P x) : ∀ x ∈ t.ids, P x := by
  let above (x : α) := t.ids.toFinset.filter (t.depth · < t.depth x)
  intro x
  induction x using (measure fun x => (above x).card).wf.induction with
  | h x ih =>
      intro hx
      by_cases hr : x = root
      · exact hr ▸ hroot
      · obtain ⟨p, hp, hpar, -, hd⟩ := h.parent x hx hr
        apply hchild p hp (ih p _ hp) x hx hpar
        apply Finset.card_lt_card
        rw [Finset.ssubset_iff_of_subset]
        · refine ⟨p, ?_, by simp [above]⟩
          simp only [above, Finset.mem_filter, List.mem_toFinset]
          exact ⟨hp, by omega⟩
        · intro y hy
          simp only [above, Finset.mem_filter, List.mem_toFinset] at hy ⊢
          exact ⟨hy.1, by omega⟩

theorem exists_depth (h : t.WellFormed root) : ∀ x ∈ t.ids, 0 ≤ t.depth x ∧
    ∀ d : Int, 0 ≤ d → d ≤ t.depth x → ∃ a ∈ t.ids, t.depth a = d := by
  refine h.induction (P := fun x => 0 ≤ t.depth x ∧
    ∀ d : Int, 0 ≤ d → d ≤ t.depth x → ∃ a ∈ t.ids, t.depth a = d) ?_ ?_
  · refine ⟨h.root_depth.ge, fun d h0 hd => ⟨root, h.root_mem, ?_⟩⟩
    rw [h.root_depth] at hd ⊢
    omega
  · rintro p - ⟨h0, hall⟩ x hx hpar
    obtain ⟨-, -, hdepth⟩ := h.of_parent hx hpar
    refine ⟨by omega, fun d hd hle => ?_⟩
    by_cases hd' : d ≤ t.depth p
    · exact hall d hd hd'
    · exact ⟨x, hx, by omega⟩

theorem depth_nonneg (h : t.WellFormed root) {x : α} (hx : x ∈ t.ids) : 0 ≤ t.depth x :=
  (h.exists_depth x hx).1

theorem depth_lt_length (h : t.WellFormed root) {x : α} (hx : x ∈ t.ids) :
    t.depth x < t.ids.length := by
  obtain ⟨h0, hall⟩ := h.exists_depth x hx
  have hnodup : ((List.range ((t.depth x).toNat + 1)).map fun n : Nat => (n : Int)).Nodup :=
    List.nodup_range.map fun _ _ h => by simpa using h
  have hsub : ((List.range ((t.depth x).toNat + 1)).map fun n : Nat => (n : Int)) ⊆
      t.ids.map t.depth := by
    intro d hd
    obtain ⟨n, hn, rfl⟩ := List.mem_map.mp hd
    obtain ⟨a, ha, hda⟩ := hall n (by omega) (by have := List.mem_range.mp hn; omega)
    exact List.mem_map.mpr ⟨a, ha, hda⟩
  have hle := (List.subperm_of_subset hnodup hsub).length_le
  simp only [List.length_map, List.length_range] at hle
  omega

theorem closed_iff (h : t.WellFormed root) (S : α → Prop) :
    (∀ x ∈ t.ids, ∀ p, t.parent x = some p → S p → S x) ↔
      ∀ x ∈ t.ids, ∀ a, t.Below x a → S a → S x := by
  constructor
  · intro hclosed x hx a hb
    induction hb using Relation.TransGen.head_induction_on with
    | single hp => exact hclosed _ hx _ hp
    | head hp _ ih => exact fun ha => hclosed _ hx _ hp (ih (h.of_parent hx hp).1 ha)
  · exact fun hall x hx p hp => hall x hx p (.single hp)

end WellFormed

def addLeaf (t : Links α) (x p : α) : Links α where
  ids := t.ids ++ [x]
  parent := Function.update t.parent x (some p)
  children := Function.update (Function.update t.children p (t.children p ++ [x])) x []
  depth := Function.update t.depth x (t.depth p + 1)

theorem WellFormed.addLeaf (h : t.WellFormed root) {x p : α} (hx : x ∉ t.ids) (hp : p ∈ t.ids) :
    (t.addLeaf x p).WellFormed root := by
  have hne : ∀ {y : α}, y ∈ t.ids → y ≠ x := fun hy he => hx (he ▸ hy)
  have hchildren : ∀ {y : α}, y ∈ t.ids → (t.addLeaf x p).children y =
      if y = p then t.children p ++ [x] else t.children y := by
    intro y hy
    simp [Links.addLeaf, Function.update_apply, hne hy]
  have hcount : ∀ {y z : α}, y ∈ t.ids → z ∈ t.ids →
      ((t.addLeaf x p).children y).count z = (t.children y).count z := by
    intro y z hy hz
    rw [hchildren hy]
    split_ifs with he
    · rw [he, List.count_append, List.count_singleton, if_neg (by simpa using (hne hz).symm)]
      rfl
    · rfl
  constructor
  · apply List.nodup_append'.mpr ⟨h.nodup, List.nodup_singleton _, ?_⟩
    simpa using hx
  · exact List.mem_append_left _ h.root_mem
  · simp [Links.addLeaf, hne h.root_mem, h.root_parent]
  · simp [Links.addLeaf, hne h.root_mem, h.root_depth]
  · intro y hy hroot
    rcases List.mem_append.mp hy with hy | hy
    · obtain ⟨q, hq, hpar, hone, hdepth⟩ := h.parent y hy hroot
      refine ⟨q, List.mem_append_left _ hq, ?_, ?_, ?_⟩
      · simpa [Links.addLeaf, hne hy] using hpar
      · rw [hcount hq hy, hone]
      · simpa [Links.addLeaf, hne hy, hne hq] using hdepth
    · obtain rfl := List.mem_singleton.mp hy
      refine ⟨p, List.mem_append_left _ hp, by simp [Links.addLeaf], ?_, ?_⟩
      · have hnot : y ∉ t.children p := fun hc => hx (h.child p hp y hc).1
        rw [hchildren hp, if_pos rfl, List.count_append, List.count_eq_zero_of_not_mem hnot]
        simp
      · simp [Links.addLeaf, hne hp]
  · intro q hq c hc
    rcases List.mem_append.mp hq with hq | hq
    · rw [hchildren hq] at hc
      split_ifs at hc with he
      · rcases List.mem_append.mp hc with hc | hc
        · obtain ⟨hm, hpar⟩ := h.child p hp c hc
          exact ⟨List.mem_append_left _ hm, by simpa [Links.addLeaf, hne hm, he] using hpar⟩
        · obtain rfl := List.mem_singleton.mp hc
          exact ⟨by simp [Links.addLeaf], by simp [Links.addLeaf, he]⟩
      · obtain ⟨hm, hpar⟩ := h.child q hq c hc
        exact ⟨List.mem_append_left _ hm, by simpa [Links.addLeaf, hne hm] using hpar⟩
    · obtain rfl := List.mem_singleton.mp hq
      simp [Links.addLeaf] at hc

theorem wellFormed_single (root : α) :
    (⟨[root], fun _ => none, fun _ => [], fun _ => 0⟩ : Links α).WellFormed root := by
  constructor <;> simp_all

/-- The nodes a recursion over the children visits, `fuel` levels deep. -/
def subtree (t : Links α) : Nat → α → List α
  | 0, _ => []
  | fuel + 1, x => x :: (t.children x).flatMap (subtree t fuel)

theorem WellFormed.mem_subtree_of_below (h : t.WellFormed root) {x y : α} (hy : y ∈ t.ids)
    (hb : t.Below y x) {fuel : Nat} (hfuel : t.depth y < t.depth x + fuel) : y ∈ t.subtree fuel x := by
  have hstep : ∀ {fuel : Nat} {c z : α}, c ∈ t.children z → y ∈ t.subtree fuel c →
      y ∈ t.subtree (fuel + 1) z := fun hc hm =>
    List.mem_cons_of_mem _ (List.mem_flatMap.mpr ⟨_, hc, hm⟩)
  induction hb generalizing fuel with
  | single hp =>
      obtain ⟨-, hchild, hdepth⟩ := h.of_parent hy hp
      obtain ⟨fuel, rfl⟩ : ∃ n, fuel = n + 2 := ⟨fuel - 2, by omega⟩
      exact hstep hchild List.mem_cons_self
  | tail hb hp ih =>
      obtain ⟨hc, hlt⟩ := h.of_below hy hb
      obtain ⟨-, hchild, hdepth⟩ := h.of_parent hc hp
      obtain ⟨fuel, rfl⟩ : ∃ n, fuel = n + 1 := ⟨fuel - 1, by omega⟩
      exact hstep hchild (ih (by push_cast at hfuel; omega))

theorem WellFormed.below_of_mem_subtree (h : t.WellFormed root) {x y : α} (hx : x ∈ t.ids)
    {fuel : Nat} (hm : y ∈ t.subtree fuel x) : y = x ∨ t.Below y x := by
  induction fuel generalizing x with
  | zero => simp [subtree] at hm
  | succ fuel ih =>
      rcases List.mem_cons.mp hm with rfl | hm
      · exact .inl rfl
      · obtain ⟨c, hc, hm⟩ := List.mem_flatMap.mp hm
        obtain ⟨hmem, hpar⟩ := h.child x hx c hc
        rcases ih hmem hm with rfl | hb
        · exact .inr (.single hpar)
        · exact .inr (hb.tail hpar)

theorem WellFormed.mem_subtree_iff (h : t.WellFormed root) {x y : α} (hx : x ∈ t.ids)
    (hy : y ∈ t.ids) : y ∈ t.subtree t.ids.length x ↔ y = x ∨ t.Below y x := by
  constructor
  · exact h.below_of_mem_subtree hx
  · have hlen := h.depth_lt_length hy
    have h0 := h.depth_nonneg hx
    rintro (rfl | hb)
    · obtain ⟨n, hn⟩ : ∃ n, t.ids.length = n + 1 := ⟨t.ids.length - 1, by omega⟩
      rw [hn]
      exact List.mem_cons_self
    · exact h.mem_subtree_of_below hy hb (by omega)

end Links

end LinkedTree
