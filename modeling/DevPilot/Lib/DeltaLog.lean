import Mathlib.Tactic

/-!
A client that keeps a list of items on a remote log by sending deltas: what the
log has to hold, and which deltas keep it so.
-/

namespace DeltaLog

variable {α : Type}

def Delivered [DecidableEq α] (items log : List α) : Prop := (∀ i ∈ items, log.count i = 1) ∧ items.Sublist log

instance [DecidableEq α] (items log : List α) : Decidable (Delivered items log) :=
  inferInstanceAs (Decidable (_ ∧ _))

/-- The only item that was not seen before is `new`, the last one. -/
def OneNew (seen items : List α) (new : α) : Prop :=
  items.getLast? = some new ∧ items.dropLast.Sublist seen ∧ new ∉ seen

instance [DecidableEq α] (seen items : List α) (new : α) : Decidable (OneNew seen items new) :=
  inferInstanceAs (Decidable (_ ∧ _ ∧ _))

/-- The items seen before are those of the current items that the log holds. -/
structure Tracks (seen items log : List α) : Prop where
  nodup : log.Nodup
  logged : seen.Sublist log
  known : ∀ i ∈ items, i ∈ log → i ∈ seen

theorem sublist_of_subset [DecidableEq α] {l : List α} (hl : l.Nodup) {xs ys : List α} (hx : xs.Sublist l)
    (hy : ys.Sublist l) (h : xs ⊆ ys) : xs.Sublist ys := by
  have hfilter : ∀ {zs : List α}, zs.Sublist l → l.filter (· ∈ zs) = zs := by
    intro zs hz
    have hperm : (l.filter (· ∈ zs)).Perm zs := by
      apply (List.perm_ext_iff_of_nodup (hl.filter _) (hz.nodup hl)).mpr
      intro a
      simp only [List.mem_filter, decide_eq_true_eq]
      exact ⟨And.right, fun ha => ⟨hz.subset ha, ha⟩⟩
    exact (List.Nodup.perm_iff_eq_of_sublist hl List.filter_sublist hz).mp hperm
  rw [← hfilter hx, ← hfilter hy]
  apply List.monotone_filter_right
  intro a ha
  simp only [decide_eq_true_eq] at ha ⊢
  exact h ha

namespace Tracks

variable {seen items log : List α}

theorem empty (items : List α) : Tracks [] items [] := ⟨List.nodup_nil, .slnil, by simp⟩

theorem nodup_append (h : Tracks seen items log) {new : α} (hnew : new ∈ items) (hn : new ∉ seen) :
    (log ++ [new]).Nodup := by
  apply List.nodup_append'.mpr ⟨h.nodup, List.nodup_singleton _, ?_⟩
  simpa using fun hm => hn (h.known new hnew hm)

theorem of_sublist (hl : log.Nodup) (h : items.Sublist log) : Tracks items items log :=
  ⟨hl, h, fun _ hi _ => hi⟩

theorem delivered_of_sublist [DecidableEq α] (hl : log.Nodup) (h : items.Sublist log) : Delivered items log :=
  ⟨fun _ hi => List.count_eq_one_of_mem hl (h.subset hi), h⟩

theorem change (h : Tracks seen items log) {items' : List α}
    (hi : ∀ i ∈ items', i ∈ items ∨ i ∉ log) : Tracks seen items' log :=
  ⟨h.nodup, h.logged, fun i hm hl => (hi i hm).elim (h.known i · hl) fun hn => absurd hl hn⟩

theorem delivered_iff [DecidableEq α] (h : Tracks seen items log) : Delivered items log ↔ items.Sublist seen := by
  constructor
  · intro hd
    apply sublist_of_subset h.nodup hd.2 h.logged
    exact fun i hi => h.known i hi (hd.2.subset hi)
  · exact fun hs => delivered_of_sublist h.nodup (hs.trans h.logged)

theorem sublist_of_oneNew (h : Tracks seen items log) {new : α} (hone : OneNew seen items new) :
    items.Sublist (log ++ [new]) := by
  obtain ⟨hlast, hold, -⟩ := hone
  obtain ⟨earlier, rfl⟩ := List.getLast?_eq_some_iff.mp hlast
  rw [List.dropLast_concat] at hold
  exact (hold.trans h.logged).append_right _

theorem delivered_append_iff [DecidableEq α] (h : Tracks seen items log) {new : α} (hnew : new ∈ items) :
    Delivered items (log ++ [new]) ↔ OneNew seen items new := by
  constructor
  · rintro ⟨hcount, hsub⟩
    have hlog : new ∉ log := by
      have hc := hcount new hnew
      rw [List.count_append, List.count_singleton_self] at hc
      exact List.count_eq_zero.mp (by omega)
    obtain ⟨old, last, rfl, hold, hlast⟩ := List.sublist_append_iff.mp hsub
    have hmem : new ∈ last := by
      rcases List.mem_append.mp hnew with hm | hm
      · exact absurd (hold.subset hm) hlog
      · exact hm
    obtain rfl : last = [new] := by
      rcases List.sublist_singleton.mp hlast with rfl | rfl
      · simp at hmem
      · rfl
    refine ⟨List.getLast?_concat .., ?_, fun hs => hlog (h.logged.subset hs)⟩
    rw [List.dropLast_concat]
    apply sublist_of_subset h.nodup hold h.logged
    exact fun i hi => h.known i (List.mem_append_left _ hi) (hold.subset hi)
  · exact fun hone => delivered_of_sublist (h.nodup_append hnew hone.2.2) (h.sublist_of_oneNew hone)

end Tracks

end DeltaLog
