import DevPilot.Lib.JsonRoundTrip
import DevPilot.Lib.TextLines

/-!
JSON values written one to a line. A line that was cut out of a longer text
at some character never reads as a value whose strings contain that
character: the writer never escapes it, and a cut never splits an escape.
-/

namespace PyJson

open TextLines

variable {F : Type}

/-- Text whose backslashes all belong to escapes the writer produces. -/
inductive Aligned : List Char → Prop
  | nil : Aligned []
  | raw {c : Char} {s : List Char} (hc : c ≠ '\\') (h : Aligned s) : Aligned (c :: s)
  | escaped (c : Char) {s : List Char} (h : Aligned s) : Aligned (escapeChar c ++ s)

theorem Aligned.append {s t : List Char} (hs : Aligned s) (ht : Aligned t) : Aligned (s ++ t) := by
  induction hs with
  | nil => exact ht
  | raw hc _ ih => exact .raw hc ih
  | escaped c _ ih => exact (List.append_assoc ..).symm ▸ .escaped c ih

theorem aligned_escape (cs : List Char) : Aligned (escape cs) := by
  induction cs with
  | nil => exact .nil
  | cons c cs ih => exact .escaped c ih

theorem escapeChar_cases (c : Char) :
    escapeChar c = [c] ∨ (c.toNat < 128 ∧ (escapeChar c).head? = some '\\' ∧
      (escapeChar c).all (fun d => !isSpace d) = true) := by
  have hx : ∀ n, n < 16 → isSpace (hexDigit n) = false := by decide
  rw [escapeChar]
  split_ifs with h1 h2 h3 h4 h5 h6 h7 h8
  all_goals try (subst c; exact .inr (by decide))
  · refine .inr ⟨by omega, rfl, ?_⟩
    have hs : isSpace '\\' = false ∧ isSpace 'u' = false ∧ isSpace '0' = false := by decide
    simp [hs.1, hs.2.1, hs.2.2, hx _ (show c.toNat / 16 < 16 by omega), hx _ (show c.toNat % 16 < 16 by omega)]
  · exact .inl rfl

theorem Aligned.tail {c : Char} {s : List Char} (hc : c ≠ '\\') (h : Aligned (c :: s)) :
    Aligned s := by
  generalize ht : c :: s = t at h
  cases h with
  | nil => simp at ht
  | raw _ h =>
      simp only [List.cons.injEq] at ht
      exact ht.2 ▸ h
  | escaped d h =>
      rcases escapeChar_cases d with he | ⟨-, he, -⟩
      · rw [he] at ht
        simp only [List.cons_append, List.nil_append, List.cons.injEq] at ht
        exact ht.2 ▸ h
      · have := congrArg List.head? ht
        rw [List.head?_append_of_ne_nil _ (by rintro hn; simp [hn] at he), he] at this
        simp at this
        exact absurd this hc

theorem Aligned.drop {s t : List Char} (hs : '\\' ∉ s) (h : Aligned (s ++ t)) : Aligned t := by
  induction s with
  | nil => exact h
  | cons c s ih =>
      simp only [List.mem_cons, not_or] at hs
      exact ih hs.2 (h.tail (Ne.symm hs.1))

theorem Aligned.cut {s : List Char} (h : Aligned s) :
    ∀ (a b : List Char) (c : Char), isSpace c = true → s = a ++ c :: b → Aligned a ∧ Aligned b := by
  induction h with
  | nil => intro a b c _ he; simp at he
  | raw hd hs ih =>
      intro a b c hc he
      cases a with
      | nil =>
          simp only [List.nil_append, List.cons.injEq] at he
          exact ⟨.nil, he.2 ▸ hs⟩
      | cons x a =>
          simp only [List.cons_append, List.cons.injEq] at he
          obtain ⟨ha, hb⟩ := ih a b c hc he.2
          exact ⟨he.1 ▸ .raw hd ha, hb⟩
  | @escaped d s hs ih =>
      intro a b c hc he
      rcases List.append_eq_append_iff.mp he with ⟨a', ha, hs'⟩ | ⟨u, hu, hb⟩
      · obtain ⟨h1, h2⟩ := ih a' b c hc hs'
        exact ⟨ha ▸ .escaped d h1, h2⟩
      · rcases u with _ | ⟨x, u⟩
        · rw [List.append_nil] at hu
          have hne : c ≠ '\\' := by rintro rfl; revert hc; decide
          exact ⟨hu ▸ (by simpa using Aligned.escaped d .nil), Aligned.tail hne (c := c) (by simpa using hb ▸ hs)⟩
        · simp only [List.cons_append, List.cons.injEq] at hb
          obtain ⟨rfl, rfl⟩ := hb
          rcases escapeChar_cases d with hd | ⟨-, -, hd⟩
          · rw [hd] at hu
            have hlen := congrArg List.length hu
            simp only [List.length_cons, List.length_nil, List.length_append] at hlen
            have ha : a = [] := List.length_eq_zero_iff.mp (by omega)
            have hu' : u = [] := List.length_eq_zero_iff.mp (by omega)
            subst ha hu'
            exact ⟨.nil, hs⟩
          · rw [hu] at hd
            simp [hc] at hd

theorem aligned_strip {s : List Char} (h : Aligned s) : Aligned (strip s) := by
  obtain ⟨pre, post, hs, hpre, hpost⟩ := strip_decomposition s
  have hp : '\\' ∉ pre := fun hm => absurd (List.all_eq_true.mp hpre _ hm) (by decide)
  have hd : Aligned (strip s ++ post) := Aligned.drop hp (hs ▸ h)
  cases post with
  | nil => simpa using hd
  | cons c post =>
      simp only [List.all_cons, Bool.and_eq_true] at hpost
      exact (hd.cut _ post c hpost.1 rfl).1

/-- Aligned text in which no character satisfies `p`. -/
def Clean (p : Char → Bool) (s : List Char) : Prop := Aligned s ∧ s.all (fun c => !p c) = true

def Eats (s r : List Char) : Prop := ∃ pre, s = pre ++ r ∧ '\\' ∉ pre

theorem Eats.refl (s : List Char) : Eats s s := ⟨[], rfl, by simp⟩

theorem Eats.trans {s t r : List Char} (h : Eats s t) (h' : Eats t r) : Eats s r := by
  obtain ⟨a, rfl, ha⟩ := h
  obtain ⟨b, rfl, hb⟩ := h'
  exact ⟨a ++ b, by simp, by simp [ha, hb]⟩

theorem eats_cons {c : Char} (hc : c ≠ '\\') (s : List Char) : Eats (c :: s) s :=
  ⟨[c], rfl, by simpa using Ne.symm hc⟩

theorem Clean.eats {p : Char → Bool} {s r : List Char} (h : Clean p s) (he : Eats s r) : Clean p r := by
  obtain ⟨pre, rfl, hpre⟩ := he
  have hall := h.2
  rw [List.all_append, Bool.and_eq_true] at hall
  exact ⟨h.1.drop hpre, hall.2⟩

theorem eats_dropWhile {q : Char → Bool} (hq : q '\\' = false) (s : List Char) :
    Eats s (s.dropWhile q) :=
  ⟨s.takeWhile q, List.takeWhile_append_dropWhile.symm, fun hm => by
    have := List.all_eq_true.mp List.all_takeWhile _ hm
    simp [hq] at this⟩

theorem eats_skipWs (s : List Char) : Eats s (skipWs s) := eats_dropWhile (by decide) s

theorem eats_dropPrefix? {w s r : List Char} (hw : '\\' ∉ w) (h : dropPrefix? w s = some r) :
    Eats s r := by
  induction w generalizing s with
  | nil =>
      simp only [dropPrefix?, Option.some.injEq] at h
      exact h ▸ .refl _
  | cons c w ih =>
      simp only [List.mem_cons, not_or] at hw
      cases s with
      | nil => simp [dropPrefix?] at h
      | cons d s =>
          rw [dropPrefix?] at h
          split_ifs at h with hcd
          exact (eats_cons (hcd ▸ Ne.symm hw.1) s).trans (ih hw.2 h)

theorem eats_word? {w : String} {v x : Json F} {s r : List Char} (hw : '\\' ∉ w.toList)
    (h : word? w v s = some (x, r)) : x = v ∧ Eats s r := by
  simp only [word?, Option.map_eq_some_iff, Prod.mk.injEq] at h
  obtain ⟨t, ht, rfl, rfl⟩ := h
  exact ⟨rfl, eats_dropPrefix? hw ht⟩

theorem eats_digits? {s r : List Char} {d : Digits} (h : digits? s = some (d, r)) : Eats s r := by
  rw [digits?] at h
  split_ifs at h
  simp only [Option.some.injEq, Prod.mk.injEq] at h
  exact h.2 ▸ eats_dropWhile (by decide) s

theorem eats_whole? {s r : List Char} {n : Nat} (h : whole? s = some (n, r)) : Eats s r := by
  unfold whole? at h
  split at h
  · simp only [Option.some.injEq, Prod.mk.injEq] at h
    exact h.2 ▸ eats_cons (by decide) _
  · simp only [Option.map_eq_some_iff, Prod.mk.injEq, Prod.exists] at h
    obtain ⟨d, t, hd, -, rfl⟩ := h
    exact eats_digits? hd

theorem eats_exponent? {s r : List Char} {e : Exponent} (h : exponent? s = some (e, r)) : Eats s r := by
  unfold exponent? at h
  split at h
  · split_ifs at h with hc
    have hne : ∀ c : Char, c = 'e' ∨ c = 'E' → c ≠ '\\' := by rintro c (rfl | rfl) <;> decide
    refine (eats_cons (hne _ hc) _).trans ?_
    split at h <;>
      (simp only [Option.map_eq_some_iff, Prod.mk.injEq, Prod.exists] at h
       obtain ⟨d, t, hd, -, rfl⟩ := h)
    · exact (eats_cons (by decide) _).trans (eats_digits? hd)
    · exact (eats_cons (by decide) _).trans (eats_digits? hd)
    · exact eats_digits? hd
  · simp at h

theorem eats_floatTail? {s r : List Char} {t : FloatTail} (h : floatTail? s = some (t, r)) :
    Eats s r := by
  have hfrac : ∀ {s r : List Char} {d : Digits}, fraction? s = some (d, r) → Eats s r := by
    intro s r d h
    unfold fraction? at h
    split at h
    · exact (eats_cons (by decide) _).trans (eats_digits? h)
    · simp at h
  rw [floatTail?] at h
  split at h
  · rename_i hf
    split at h
    · rename_i he
      simp only [Option.some.injEq, Prod.mk.injEq] at h
      exact h.2 ▸ (hfrac hf).trans (eats_exponent? he)
    · simp only [Option.some.injEq, Prod.mk.injEq] at h
      exact h.2 ▸ hfrac hf
  · simp only [Option.map_eq_some_iff, Prod.mk.injEq, Prod.exists] at h
    obtain ⟨e, t, he, -, rfl⟩ := h
    exact eats_exponent? he

def noString : Json F → Bool
  | .str _ | .arr _ | .obj _ => false
  | _ => true

theorem eats_unsigned {fmt : FloatFormat F} {negative : Bool} {s r : List Char} {v : Json F}
    (h : unsigned fmt negative s = some (v, r)) : noString v = true ∧ Eats s r := by
  rw [unsigned] at h
  split at h
  · simp at h
  · rename_i hw
    split at h
    · rename_i ht
      simp only [Option.some.injEq, Prod.mk.injEq] at h
      exact ⟨h.1 ▸ rfl, h.2 ▸ (eats_whole? hw).trans (eats_floatTail? ht)⟩
    · simp only [Option.some.injEq, Prod.mk.injEq] at h
      exact ⟨h.1 ▸ rfl, h.2 ▸ eats_whole? hw⟩

theorem eats_number? {fmt : FloatFormat F} {s r : List Char} {v : Json F}
    (h : number? fmt s = some (v, r)) : noString v = true ∧ Eats s r := by
  unfold number? at h
  split at h
  · obtain ⟨hv, he⟩ := eats_unsigned h
    exact ⟨hv, (eats_cons (by decide) _).trans he⟩
  · exact eats_unsigned h

theorem eats_parseScalar {fmt : FloatFormat F} {s r : List Char} {v : Json F}
    (h : parseScalar fmt s = some (v, r)) : noString v = true ∧ Eats s r := by
  obtain ⟨x, hx, rfl : x = some (v, r)⟩ := List.exists_of_findSome?_eq_some h
  have hword : ∀ {w : String} {x : Json F}, '\\' ∉ w.toList → noString x = true →
      some (v, r) = word? w x s → noString v = true ∧ Eats s r := by
    intro w x hw hx h
    obtain ⟨rfl, he⟩ := eats_word? hw h.symm
    exact ⟨hx, he⟩
  simp only [List.mem_cons, List.not_mem_nil, or_false] at hx
  rcases hx with h | h | h | h | h | h | h
  case inr.inr.inr.inl => exact eats_number? h.symm
  all_goals exact hword (by decide) rfl h

/-- Some string of the value contains a character satisfying `p`. -/
def Json.anyChar (p : Char → Bool) (v : Json F) : Bool := v.anyString fun s => s.toList.any p

theorem Json.anyChar_of_noString (p : Char → Bool) {v : Json F} (h : noString v = true) :
    v.anyChar p = false := by
  cases v <;> simp_all [noString, Json.anyChar, Json.anyString]

theorem scanString_control {c : Char} (hc : c.toNat < 32) (s : List Char) :
    scanString (c :: s) = none := by
  rw [scanString.eq_def]
  split
  · contradiction
  all_goals
    rename_i heq
    simp only [List.cons.injEq] at heq
    obtain ⟨rfl, rfl⟩ := heq
    first
      | exact absurd hc (by decide)
      | rw [if_pos hc]

theorem Clean.scanString_some {p : Char → Bool} (hp : ∀ c : Char, c.toNat < 128 → p c = false)
    {s : List Char} (h : Clean p s) :
    ∀ {cs r : List Char}, scanString s = some (cs, r) → cs.any p = false ∧ Clean p r := by
  obtain ⟨ha, hs⟩ := h
  induction ha with
  | nil => intro cs r hscan; simp [scanString] at hscan
  | @raw c s hb ha ih =>
      intro cs r hscan
      simp only [List.all_cons, Bool.and_eq_true, Bool.not_eq_true'] at hs
      by_cases hq : c = '"'
      · subst hq
        simp only [scanString, Option.some.injEq, Prod.mk.injEq] at hscan
        obtain ⟨rfl, rfl⟩ := hscan
        exact ⟨rfl, ha, hs.2⟩
      · by_cases hc : c.toNat < 32
        · rw [scanString_control hc] at hscan
          simp at hscan
        · rw [scanString_raw hq hb hc, Option.map_eq_some_iff] at hscan
          obtain ⟨⟨cs', r'⟩, hscan, he⟩ := hscan
          simp only [Prod.mk.injEq] at he
          obtain ⟨rfl, rfl⟩ := he
          obtain ⟨hcs, hr⟩ := ih hs.2 hscan
          exact ⟨by simp [hs.1, hcs], hr⟩
  | escaped c ha ih =>
      intro cs r hscan
      rw [List.all_append, Bool.and_eq_true] at hs
      have hc : p c = false := by
        rcases escapeChar_cases c with he | ⟨hlt, -, -⟩
        · simpa [he] using hs.1
        · exact hp c hlt
      rw [scanString_escapeChar, Option.map_eq_some_iff] at hscan
      obtain ⟨⟨cs', r'⟩, hscan, he⟩ := hscan
      simp only [Prod.mk.injEq] at he
      obtain ⟨rfl, rfl⟩ := he
      obtain ⟨hcs, hr⟩ := ih hs.2 hscan
      exact ⟨by simp [hc, hcs], hr⟩

theorem anyString_ofPairs {q : String → Bool} {ps : Members F}
    (h : Json.anyStringMembers q ps = false) :
    Json.anyStringMembers q (Members.ofPairs ps) = false := by
  have hinsert : ∀ (k : String) (v : Json F) (ms : Members F), q k = false →
      Json.anyString q v = false → Json.anyStringMembers q ms = false →
      Json.anyStringMembers q (Members.insert k v ms) = false := by
    intro k v ms hk hv hms
    induction ms with
    | nil => simp [Members.insert, Json.anyStringMembers, hk, hv]
    | cons m ms ih =>
        obtain ⟨k', v'⟩ := m
        simp only [Json.anyStringMembers, Bool.or_eq_false_iff] at hms
        rw [Members.insert]
        split
        · simp [Json.anyStringMembers, hk, hv, hms.2]
        · simp [Json.anyStringMembers, hms.1, ih hms.2]
  have hfold : ∀ ms : Members F, Json.anyStringMembers q ms = false →
      Json.anyStringMembers q (ps.foldl (fun ms p => Members.insert p.1 p.2 ms) ms) = false := by
    induction ps with
    | nil => exact fun ms hms => hms
    | cons m ps ih =>
        intro ms hms
        simp only [Json.anyStringMembers, Bool.or_eq_false_iff] at h
        exact ih h.2 _ (hinsert _ _ _ h.1.1 h.1.2 hms)
  exact hfold [] rfl

mutual

theorem Clean.parseValue_some {p : Char → Bool} (hp : ∀ c : Char, c.toNat < 128 → p c = false)
    (fmt : FloatFormat F) : ∀ (fuel : Nat) (s : List Char) (v : Json F) (r : List Char),
      Clean p s → parseValue fmt fuel s = some (v, r) → v.anyChar p = false ∧ Clean p r
  | 0, s, v, r, _, h => by simp [parseValue] at h
  | fuel + 1, s, v, r, hs, h => by
      rw [parseValue.eq_def] at h
      split at h
      · simp at h
      · rename_i heq
        simp only [Nat.succ_eq_add_one, Nat.add_right_cancel_iff] at heq
        subst heq
        split at h
        · rw [Option.map_eq_some_iff] at h
          obtain ⟨⟨cs, r'⟩, hscan, he⟩ := h
          simp only [Prod.mk.injEq] at he
          obtain ⟨rfl, rfl⟩ := he
          obtain ⟨hcs, hr⟩ := (hs.eats (eats_cons (by decide) _)).scanString_some hp hscan
          exact ⟨by simpa [Json.anyChar, Json.anyString] using hcs, hr⟩
        · have hw := (hs.eats (eats_cons (by decide) _)).eats (eats_skipWs _)
          split at h
          · rename_i hsk
            simp only [Option.some.injEq, Prod.mk.injEq] at h
            obtain ⟨rfl, rfl⟩ := h
            exact ⟨rfl, (hsk ▸ hw).eats (eats_cons (by decide) _)⟩
          · rw [Option.map_eq_some_iff] at h
            obtain ⟨⟨vs, r'⟩, hitems, he⟩ := h
            simp only [Prod.mk.injEq] at he
            obtain ⟨rfl, rfl⟩ := he
            exact Clean.parseItems_some hp fmt _ _ _ _ hw hitems
        · have hw := (hs.eats (eats_cons (by decide) _)).eats (eats_skipWs _)
          split at h
          · rename_i hsk
            simp only [Option.some.injEq, Prod.mk.injEq] at h
            obtain ⟨rfl, rfl⟩ := h
            exact ⟨rfl, (hsk ▸ hw).eats (eats_cons (by decide) _)⟩
          · rename_i hsk
            rw [Option.map_eq_some_iff] at h
            obtain ⟨⟨ms, r'⟩, hmembers, he⟩ := h
            simp only [Prod.mk.injEq] at he
            obtain ⟨rfl, rfl⟩ := he
            obtain ⟨hms, hr⟩ := Clean.parseMembers_some hp fmt _ _ _ _
              ((hsk ▸ hw).eats (eats_cons (by decide) _)) hmembers
            exact ⟨anyString_ofPairs hms, hr⟩
          · simp at h
        · obtain ⟨hv, he⟩ := eats_parseScalar h
          exact ⟨Json.anyChar_of_noString p hv, hs.eats he⟩

theorem Clean.parseItems_some {p : Char → Bool} (hp : ∀ c : Char, c.toNat < 128 → p c = false)
    (fmt : FloatFormat F) : ∀ (fuel : Nat) (s : List Char) (vs : List (Json F)) (r : List Char),
      Clean p s → parseItems fmt fuel s = some (vs, r) →
      Json.anyStringItems (fun s => s.toList.any p) vs = false ∧ Clean p r
  | 0, s, vs, r, _, h => by simp [parseItems] at h
  | fuel + 1, s, vs, r, hs, h => by
      rw [parseItems] at h
      split at h
      · simp at h
      · rename_i v t hv
        obtain ⟨hv, ht⟩ := Clean.parseValue_some hp fmt fuel s v t hs hv
        have hw := ht.eats (eats_skipWs _)
        split at h
        · rename_i hsk
          simp only [Option.some.injEq, Prod.mk.injEq] at h
          obtain ⟨rfl, rfl⟩ := h
          exact ⟨by simpa [Json.anyStringItems, Json.anyChar] using hv, (hsk ▸ hw).eats (eats_cons (by decide) _)⟩
        · rename_i hsk
          rw [Option.map_eq_some_iff] at h
          obtain ⟨⟨vs', r'⟩, hitems, he⟩ := h
          simp only [Prod.mk.injEq] at he
          obtain ⟨rfl, rfl⟩ := he
          obtain ⟨hvs, hr⟩ := Clean.parseItems_some hp fmt fuel _ _ _
            (((hsk ▸ hw).eats (eats_cons (by decide) _)).eats (eats_skipWs _)) hitems
          exact ⟨by simpa [Json.anyStringItems, Json.anyChar, hvs] using hv, hr⟩
        · simp at h

theorem Clean.parseMembers_some {p : Char → Bool} (hp : ∀ c : Char, c.toNat < 128 → p c = false)
    (fmt : FloatFormat F) : ∀ (fuel : Nat) (s : List Char) (ms : Members F) (r : List Char),
      Clean p s → parseMembers fmt fuel s = some (ms, r) →
      Json.anyStringMembers (fun s => s.toList.any p) ms = false ∧ Clean p r
  | 0, s, ms, r, _, h => by simp [parseMembers] at h
  | fuel + 1, s, ms, r, hs, h => by
      rw [parseMembers] at h
      split at h
      · simp at h
      · rename_i k t hk
        obtain ⟨hk, ht⟩ := hs.scanString_some hp hk
        have hw := ht.eats (eats_skipWs _)
        split at h
        · rename_i hsk
          split at h
          · simp at h
          · rename_i v u hv
            obtain ⟨hv, hu⟩ := Clean.parseValue_some hp fmt fuel _ v u
              (((hsk ▸ hw).eats (eats_cons (by decide) _)).eats (eats_skipWs _)) hv
            have hw' := hu.eats (eats_skipWs _)
            split at h
            · rename_i hsk'
              simp only [Option.some.injEq, Prod.mk.injEq] at h
              obtain ⟨rfl, rfl⟩ := h
              exact ⟨by simpa [Json.anyStringMembers, Json.anyChar, hk] using hv,
                (hsk' ▸ hw').eats (eats_cons (by decide) _)⟩
            · rename_i hsk'
              have hw'' := ((hsk' ▸ hw').eats (eats_cons (by decide) _)).eats (eats_skipWs _)
              split at h
              · rename_i hsk''
                rw [Option.map_eq_some_iff] at h
                obtain ⟨⟨ms', r'⟩, hmembers, he⟩ := h
                simp only [Prod.mk.injEq] at he
                obtain ⟨rfl, rfl⟩ := he
                obtain ⟨hms, hr⟩ := Clean.parseMembers_some hp fmt fuel _ _ _
                  ((hsk'' ▸ hw'').eats (eats_cons (by decide) _)) hmembers
                exact ⟨by simpa [Json.anyStringMembers, Json.anyChar, hk, hms] using hv, hr⟩
              · simp at h
            · simp at h
        · simp at h

end

theorem anyChar_of_loads {p : Char → Bool} (hp : ∀ c : Char, c.toNat < 128 → p c = false)
    {fmt : FloatFormat F} {s : List Char} (hs : Clean p s) {v : Json F}
    (h : loads fmt s = some v) : v.anyChar p = false := by
  rw [loads] at h
  split at h
  · rename_i hv
    split_ifs at h
    simp only [Option.some.injEq] at h
    exact h ▸ (Clean.parseValue_some hp fmt _ _ _ _ (hs.eats (eats_skipWs _)) hv).1
  · simp at h

def isPlain (c : Char) : Bool := decide (32 ≤ c.toNat) && decide (c.toNat < 127) && c != '\\'

inductive Built (S : String → Bool) : List Char → Prop
  | nil : Built S []
  | plain {c : Char} {s : List Char} (hc : isPlain c = true) (h : Built S s) : Built S (c :: s)
  | string {k : String} {s : List Char} (hk : S k = true) (h : Built S s) :
      Built S (escape k.toList ++ s)

variable {S : String → Bool}

theorem Built.append {s t : List Char} (hs : Built S s) (ht : Built S t) : Built S (s ++ t) := by
  induction hs with
  | nil => exact ht
  | plain hc _ ih => exact .plain hc ih
  | string hk _ ih => exact (List.append_assoc ..).symm ▸ .string hk ih

theorem built_plain {s : List Char} (h : s.all isPlain = true) : Built S s := by
  induction s with
  | nil => exact .nil
  | cons c s ih =>
      simp only [List.all_cons, Bool.and_eq_true] at h
      exact .plain h.1 (ih h.2)

theorem built_quote {k : String} (hk : S k = true) : Built S (quote k) :=
  .plain (by decide) (.string hk (.plain (by decide) .nil))

theorem isPlain_of_isDigit {c : Char} (h : c.isDigit = true) : isPlain c = true := by
  simp only [Char.isDigit, Bool.and_eq_true, decide_eq_true_eq, UInt32.le_iff_toNat_le] at h
  have hn : 48 ≤ c.toNat ∧ c.toNat ≤ 57 := h
  have hb : c ≠ '\\' := by
    rintro rfl
    exact absurd hn.2 (by decide)
  simp only [isPlain, Bool.and_eq_true, decide_eq_true_eq, bne_iff_ne, ne_eq]
  exact ⟨⟨by omega, by omega⟩, hb⟩

theorem all_isPlain_digits {s : List Char} (h : s.all Char.isDigit = true) : s.all isPlain = true :=
  List.all_eq_true.mpr fun c hc => isPlain_of_isDigit (List.all_eq_true.mp h c hc)

theorem all_isPlain_sign (negative : Bool) :
    (if negative then ['-'] else ([] : List Char)).all isPlain = true := by
  cases negative <;> decide

theorem all_isPlain_intText (n : Int) : (intText n).all isPlain = true := by
  rw [intText]
  rw [List.all_append, all_isPlain_digits (toDigits_all_isDigit _), Bool.and_true]
  split <;> decide

theorem all_isPlain_exponentText (e : Exponent) : (exponentText e).all isPlain = true := by
  rw [exponentText]
  rw [List.all_cons, List.all_cons, all_isPlain_digits e.digits.digits]
  cases e.negative <;> decide

theorem all_isPlain_tailText (t : FloatTail) : (tailText t).all isPlain = true := by
  have hdot : isPlain '.' = true := by decide
  rcases t with ⟨d, _ | e⟩ | e
  · rw [tailText, List.all_cons, hdot, all_isPlain_digits d.digits]; rfl
  · rw [tailText, List.all_append, List.all_cons, hdot, all_isPlain_digits d.digits,
      all_isPlain_exponentText]
    rfl
  · exact all_isPlain_exponentText e

theorem all_isPlain_floatText (t : FloatText) : (floatText t).all isPlain = true := by
  cases t with
  | literal l =>
      rw [floatText, List.all_append, List.all_append, all_isPlain_sign,
        all_isPlain_digits (toDigits_all_isDigit _), all_isPlain_tailText]
      rfl
  | nan => decide
  | infinity negative =>
      rw [floatText, List.all_append, all_isPlain_sign]
      decide

def Layout.flat : Layout → Bool
  | .indented _ => false
  | _ => true

theorem brk_of_flat {ly : Layout} (h : ly.flat = true) (level : Nat) : ly.brk level = [] := by
  cases ly with
  | indented width => cases h
  | _ => rfl

theorem all_isPlain_itemSep {ly : Layout} (h : ly.flat = true) (level : Nat) :
    (ly.itemSep level).all isPlain = true := by
  cases ly with
  | indented width => cases h
  | _ => rfl

theorem all_isPlain_keySep (ly : Layout) : ly.keySep.all isPlain = true := by
  cases ly <;> rfl

section

variable {ly : Layout} (hly : ly.flat = true)

include hly

mutual

theorem built_dump (fmt : FloatFormat F) (level : Nat) : ∀ v : Json F,
    v.anyString (fun s => !S s) = false → Built S (dump fmt ly level v)
  | .null, _ => built_plain rfl
  | .bool true, _ => built_plain rfl
  | .bool false, _ => built_plain rfl
  | .int n, _ => built_plain (all_isPlain_intText n)
  | .float x, _ => built_plain (all_isPlain_floatText (fmt.repr x))
  | .str s, h => built_quote (by simpa [Json.anyString] using h)
  | .arr [], _ => built_plain rfl
  | .arr (v :: vs), h => by
      simp only [Json.anyString, Json.anyStringItems, Bool.or_eq_false_iff] at h
      simp only [dump, brk_of_flat hly, List.nil_append]
      exact .plain (by decide) ((built_dump fmt _ v h.1).append
        ((built_dumpItems fmt _ vs h.2).append (built_plain rfl)))
  | .obj [], _ => built_plain rfl
  | .obj ((k, v) :: ms), h => by
      simp only [Json.anyString, Json.anyStringMembers, Bool.or_eq_false_iff,
        Bool.not_eq_false'] at h
      simp only [dump, brk_of_flat hly, List.nil_append]
      exact .plain (by decide) ((built_quote h.1.1).append
        ((built_plain (all_isPlain_keySep ly)).append ((built_dump fmt _ v h.1.2).append
          ((built_dumpMembers fmt _ ms h.2).append (built_plain rfl)))))

theorem built_dumpItems (fmt : FloatFormat F) (level : Nat) : ∀ vs : List (Json F),
    Json.anyStringItems (fun s => !S s) vs = false → Built S (dumpItems fmt ly level vs)
  | [], _ => .nil
  | v :: vs, h => by
      simp only [Json.anyStringItems, Bool.or_eq_false_iff] at h
      exact (built_plain (all_isPlain_itemSep hly level)).append
        ((built_dump fmt level v h.1).append (built_dumpItems fmt level vs h.2))

theorem built_dumpMembers (fmt : FloatFormat F) (level : Nat) : ∀ ms : Members F,
    Json.anyStringMembers (fun s => !S s) ms = false → Built S (dumpMembers fmt ly level ms)
  | [], _ => .nil
  | (k, v) :: ms, h => by
      simp only [Json.anyStringMembers, Bool.or_eq_false_iff, Bool.not_eq_false'] at h
      exact (built_plain (all_isPlain_itemSep hly level)).append ((built_quote h.1.1).append
        ((built_plain (all_isPlain_keySep ly)).append ((built_dump fmt level v h.1.2).append
          (built_dumpMembers fmt level ms h.2))))

end

end

theorem Built.aligned {s : List Char} (h : Built S s) : Aligned s := by
  induction h with
  | nil => exact .nil
  | plain hc _ ih => exact .raw (by rintro rfl; revert hc; decide) ih
  | string _ _ ih => exact (aligned_escape _).append ih

theorem mem_escapeChar {c d : Char} (h : d ∈ escapeChar c) :
    32 ≤ d.toNat ∧ (d = c ∨ d.toNat < 128) := by
  have hx : ∀ n, n < 16 → 32 ≤ (hexDigit n).toNat ∧ (hexDigit n).toNat < 128 := by decide
  have hascii : ∀ {s : List Char}, (s.all fun c => decide (32 ≤ c.toNat ∧ c.toNat < 128)) = true →
      d ∈ s → 32 ≤ d.toNat ∧ (d = c ∨ d.toNat < 128) := by
    intro s hs hd
    have := of_decide_eq_true (List.all_eq_true.mp hs d hd)
    exact ⟨this.1, .inr this.2⟩
  rw [escapeChar] at h
  split_ifs at h with h1 h2 h3 h4 h5 h6 h7 h8
  all_goals try exact hascii (by decide) h
  · have hhi := hx (c.toNat / 16) (by omega)
    have hlo := hx (c.toNat % 16) (by omega)
    exact hascii (by simp [hhi, hlo]) h
  · rw [List.mem_singleton] at h
    subst h
    exact ⟨by omega, .inl rfl⟩

theorem Built.printable {s : List Char} (h : Built S s) : ∀ c ∈ s, 32 ≤ c.toNat := by
  induction h with
  | nil => intro c hc; simp at hc
  | plain hc _ ih =>
      simp only [isPlain, Bool.and_eq_true, decide_eq_true_eq] at hc
      simpa [hc.1.1] using ih
  | string _ _ ih =>
      intro c hc
      rcases List.mem_append.mp hc with h | h
      · obtain ⟨d, -, hd⟩ := List.mem_flatMap.mp h
        exact (mem_escapeChar hd).1
      · exact ih c h

theorem Built.noChar {p : Char → Bool} (hp : ∀ c : Char, c.toNat < 128 → p c = false) {s : List Char}
    (h : Built (fun k => !k.toList.any p) s) : s.any p = false := by
  induction h with
  | nil => rfl
  | plain hc _ ih =>
      simp only [isPlain, Bool.and_eq_true, decide_eq_true_eq] at hc
      rw [List.any_cons, hp _ (by omega), ih]
      rfl
  | @string k s hk _ ih =>
      rw [List.any_append, ih, Bool.or_false, List.any_eq_false]
      intro c hc
      obtain ⟨d, hd, hcd⟩ := List.mem_flatMap.mp hc
      rcases (mem_escapeChar hcd).2 with rfl | hlt
      · simp only [Bool.not_eq_true', List.any_eq_false] at hk
        exact hk c hd
      · simp [hp c hlt]

mutual

theorem Json.anyString_false : ∀ v : Json F, v.anyString (fun _ => false) = false
  | .null | .bool _ | .int _ | .float _ | .str _ => rfl
  | .arr vs => Json.anyStringItems_false vs
  | .obj ms => Json.anyStringMembers_false ms

theorem Json.anyStringItems_false : ∀ vs : List (Json F),
    Json.anyStringItems (fun _ => false) vs = false
  | [] => rfl
  | v :: vs => by rw [Json.anyStringItems, Json.anyString_false v, Json.anyStringItems_false vs]; rfl

theorem Json.anyStringMembers_false : ∀ ms : Members F,
    Json.anyStringMembers (fun _ => false) ms = false
  | [] => rfl
  | (_, v) :: ms => by
      rw [Json.anyStringMembers, Json.anyString_false v, Json.anyStringMembers_false ms]; rfl

end

section

variable {ly : Layout} (hly : ly.flat = true)

include hly

theorem aligned_dumps (fmt : FloatFormat F) (v : Json F) : Aligned (dumps fmt ly v) :=
  (built_dump (S := fun _ => true) hly fmt 0 v v.anyString_false).aligned

theorem printable_dumps (fmt : FloatFormat F) (v : Json F) : ∀ c ∈ dumps fmt ly v, 32 ≤ c.toNat :=
  (built_dump (S := fun _ => true) hly fmt 0 v v.anyString_false).printable

theorem noChar_dumps {p : Char → Bool} (hp : ∀ c : Char, c.toNat < 128 → p c = false)
    (fmt : FloatFormat F) {v : Json F} (h : v.anyChar p = false) : (dumps fmt ly v).any p = false :=
  (built_dump hly fmt 0 v (by simpa [Json.anyChar] using h)).noChar hp

end

section

variable {p : Char → Bool} (hp : ∀ c : Char, c.toNat < 128 → p c = false) (ly : Layout)

include hp

theorem any_quote {s : String} (h : s.toList.any p = true) : (quote s).any p = true := by
  obtain ⟨c, hc, hpc⟩ := List.any_eq_true.mp h
  have hraw : escapeChar c = [c] := by
    have hlarge : ¬c.toNat < 128 := fun hlt => by simp [hp c hlt] at hpc
    rw [escapeChar]
    split_ifs with h₁ h₂ h₃ h₄ h₅ h₆ h₇ h₈
    all_goals first | rfl | (exfalso; subst_vars; exact hlarge (by decide)) | (exfalso; omega)
  refine List.any_eq_true.mpr ⟨c, ?_, hpc⟩
  have hmem : c ∈ escape s.toList := List.mem_flatMap.mpr ⟨c, hc, by simp [hraw]⟩
  simp [quote, hmem]

mutual

theorem any_dump (fmt : FloatFormat F) (level : Nat) : ∀ v : Json F,
    v.anyChar p = true → (dump fmt ly level v).any p = true
  | .str s, h => any_quote hp h
  | .arr (v :: vs), h => by
      simp only [Json.anyChar, Json.anyString, Json.anyStringItems, Bool.or_eq_true] at h
      simp only [dump, List.any_cons, List.any_append, Bool.or_eq_true]
      rcases h with h | h
      · exact .inr (.inr (.inl (any_dump fmt _ v h)))
      · exact .inr (.inr (.inr (.inl (any_dumpItems fmt _ vs h))))
  | .obj ((k, v) :: ms), h => by
      simp only [Json.anyChar, Json.anyString, Json.anyStringMembers, Bool.or_eq_true] at h
      simp only [dump, List.any_cons, List.any_append, Bool.or_eq_true]
      rcases h with (h | h) | h
      · exact .inr (.inr (.inl (any_quote hp h)))
      · exact .inr (.inr (.inr (.inr (.inl (any_dump fmt _ v h)))))
      · exact .inr (.inr (.inr (.inr (.inr (.inl (any_dumpMembers fmt _ ms h))))))

theorem any_dumpItems (fmt : FloatFormat F) (level : Nat) : ∀ vs : List (Json F),
    Json.anyStringItems (fun s => s.toList.any p) vs = true →
      (dumpItems fmt ly level vs).any p = true
  | v :: vs, h => by
      simp only [Json.anyStringItems, Bool.or_eq_true] at h
      simp only [dumpItems, List.any_append, Bool.or_eq_true]
      rcases h with h | h
      · exact .inr (.inl (any_dump fmt level v h))
      · exact .inr (.inr (any_dumpItems fmt level vs h))

theorem any_dumpMembers (fmt : FloatFormat F) (level : Nat) : ∀ ms : Members F,
    Json.anyStringMembers (fun s => s.toList.any p) ms = true →
      (dumpMembers fmt ly level ms).any p = true
  | (k, v) :: ms, h => by
      simp only [Json.anyStringMembers, Bool.or_eq_true] at h
      simp only [dumpMembers, List.any_append, Bool.or_eq_true]
      rcases h with (h | h) | h
      · exact .inr (.inl (any_quote hp h))
      · exact .inr (.inr (.inr (.inl (any_dump fmt level v h))))
      · exact .inr (.inr (.inr (.inr (any_dumpMembers fmt level ms h))))

end

end

end PyJson
