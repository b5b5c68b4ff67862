import DevPilot.Lib.JsonText

/-!
Reading back what was written: `loads (dumps v) = some v` for every value and
every layout.
-/

namespace PyJson

variable {F : Type}

theorem hexVal_hexDigit : ∀ n, n < 16 → hexVal (hexDigit n) = some n := by decide

theorem hex4_escape {n : Nat} (h : n < 256) :
    hex4 '0' '0' (hexDigit (n / 16)) (hexDigit (n % 16)) = some n := by
  have h0 : hexVal '0' = some 0 := by decide
  simp only [hex4, h0, hexVal_hexDigit _ (show n / 16 < 16 by omega),
    hexVal_hexDigit _ (show n % 16 < 16 by omega), Option.bind_eq_bind, Option.bind_some,
    Option.pure_def, Option.some.injEq]
  omega

theorem scanString_raw {c : Char} (hq : c ≠ '"') (hb : c ≠ '\\') (hc : ¬ c.toNat < 32)
    (r : List Char) : scanString (c :: r) = (scanString r).map fun p => (c :: p.1, p.2) := by
  rw [scanString.eq_def]
  split <;> simp_all

theorem scanString_escapeChar (c : Char) (r : List Char) :
    scanString (escapeChar c ++ r) = (scanString r).map fun p => (c :: p.1, p.2) := by
  rw [escapeChar]
  split_ifs with h1 h2 h3 h4 h5 h6 h7 h8
  all_goals try (subst c; simp [scanString, simpleEscape])
  · have hu : c.toNat < 0xD800 := by omega
    simp only [List.cons_append, List.nil_append, scanString, hex4_escape (show c.toNat < 256 by omega),
      hu, true_or, if_true, Char.ofNat_toNat]
  · simpa using scanString_raw h1 h2 h8 r

theorem scanString_escape (cs r : List Char) :
    scanString (escape cs ++ '"' :: r) = some (cs, r) := by
  induction cs with
  | nil => simp [escape, scanString]
  | cons c cs ih =>
      rw [show escape (c :: cs) = escapeChar c ++ escape cs from List.flatMap_cons,
        List.append_assoc, scanString_escapeChar, ih]
      rfl

def endsNumber : List Char → Bool
  | [] => true
  | c :: _ => !(c.isDigit || c == '.' || c == 'e' || c == 'E')

theorem digits?_append {ds r : List Char} (hne : ds ≠ []) (hd : ds.all Char.isDigit = true)
    (hr : ∀ c ∈ r.head?, c.isDigit = false) :
    digits? (ds ++ r) = some (⟨ds, hne, hd⟩, r) := by
  have hall : ∀ c ∈ ds, c.isDigit = true := by simpa using hd
  have htake : (ds ++ r).takeWhile Char.isDigit = ds := by
    rw [List.takeWhile_append_of_pos hall]
    cases r with
    | nil => simp
    | cons c r => simp [hr c (by simp)]
  have hdrop : (ds ++ r).dropWhile Char.isDigit = r := by
    rw [List.dropWhile_append_of_pos hall]
    cases r with
    | nil => rfl
    | cons c r => simp [hr c (by simp)]
  rw [digits?]
  rw [dif_pos (by rwa [htake])]
  simp [htake, hdrop]

theorem toDigits_all_isDigit (n : Nat) : (Nat.toDigits 10 n).all Char.isDigit = true :=
  List.all_eq_true.mpr fun _ hc => Nat.isDigit_of_mem_toDigits (by decide) (by decide) hc

theorem toDigits_head_ne_zero {n : Nat} (hn : 0 < n) :
    ∀ c ∈ (Nat.toDigits 10 n).head?, c ≠ '0' := by
  induction n using Nat.strong_induction_on with
  | _ n ih =>
      rw [Nat.toDigits_eq_if (by decide)]
      split_ifs with h
      · intro c hc
        have : ∀ m, m < 10 → 0 < m → Nat.digitChar m ≠ '0' := by decide
        simp only [List.head?_cons, Option.mem_def, Option.some.injEq] at hc
        exact hc ▸ this n h hn
      · intro c hc
        have hne : Nat.toDigits 10 (n / 10) ≠ [] := Nat.toDigits_ne_nil
        rw [List.head?_append_of_ne_nil _ hne] at hc
        exact ih (n / 10) (by omega) (by omega) c hc

theorem whole?_toDigits (n : Nat) {r : List Char} (hr : ∀ c ∈ r.head?, c.isDigit = false) :
    whole? (Nat.toDigits 10 n ++ r) = some (n, r) := by
  cases n with
  | zero =>
      simp only [Nat.toDigits_zero, List.cons_append, List.nil_append, whole?]
  | succ n =>
      have h := digits?_append Nat.toDigits_ne_nil (toDigits_all_isDigit (n + 1)) hr
      have hz := toDigits_head_ne_zero (Nat.succ_pos n)
      cases hd : Nat.toDigits 10 (n + 1) with
      | nil => exact absurd hd Nat.toDigits_ne_nil
      | cons c ds =>
          have hc : c ≠ '0' := hz c (by simp [hd])
          rw [List.cons_append, whole?.eq_def]
          split
          · simp_all
          · simp only [← List.cons_append, ← hd, h, Option.map_some,
              Nat.ofDigitChars_ten_toDigits]

theorem notDigit_of_endsNumber {r : List Char} (h : endsNumber r = true) :
    ∀ c ∈ r.head?, c.isDigit = false := by
  cases r with
  | nil => simp
  | cons c r => simp_all [endsNumber]

theorem exponent?_none {r : List Char} (h : endsNumber r = true) : exponent? r = none := by
  cases r with
  | nil => rfl
  | cons c r =>
      simp only [endsNumber, Bool.not_eq_eq_eq_not, Bool.not_true, Bool.or_eq_false_iff,
        beq_eq_false_iff_ne, ne_eq] at h
      simp [exponent?, h.1.2, h.2]

theorem fraction?_none {r : List Char} (h : endsNumber r = true) : fraction? r = none := by
  cases r with
  | nil => rfl
  | cons c r =>
      simp only [endsNumber, Bool.not_eq_eq_eq_not, Bool.not_true, Bool.or_eq_false_iff,
        beq_eq_false_iff_ne, ne_eq] at h
      rw [fraction?.eq_def]
      split
      · simp_all
      · rfl

theorem exponent?_exponentText (e : Exponent) {r : List Char}
    (hr : ∀ c ∈ r.head?, c.isDigit = false) :
    exponent? (exponentText e ++ r) = some (e, r) := by
  obtain ⟨negative, ds, hne, hd⟩ := e
  have h := digits?_append hne hd hr
  cases negative <;> simp [exponentText, exponent?, h]

theorem head_exponentText (e : Exponent) (r : List Char) :
    ∀ c ∈ (exponentText e ++ r).head?, c.isDigit = false := by
  intro c hc
  simp only [exponentText, List.cons_append, List.head?_cons, Option.mem_def, Option.some.injEq] at hc
  exact hc ▸ by decide

theorem floatTail?_tailText (t : FloatTail) {r : List Char} (h : endsNumber r = true) :
    floatTail? (tailText t ++ r) = some (t, r) := by
  have hr := notDigit_of_endsNumber h
  cases t with
  | fraction d e =>
      cases e with
      | none =>
          have hd := digits?_append d.nonempty d.digits hr
          simp [tailText, floatTail?, fraction?, hd, exponent?_none h]
      | some e =>
          have hd := digits?_append d.nonempty d.digits (head_exponentText e r)
          simp [tailText, floatTail?, fraction?, hd, exponent?_exponentText e hr]
  | exponent e =>
      have hf : fraction? (exponentText e ++ r) = none := by simp [exponentText, fraction?]
      simp [tailText, floatTail?, hf, exponent?_exponentText e hr]

theorem head_tailText (t : FloatTail) (r : List Char) :
    ∀ c ∈ (tailText t ++ r).head?, c.isDigit = false := by
  cases t with
  | fraction d e => cases e <;> simp [tailText]
  | exponent e => exact head_exponentText e r

theorem unsigned_int (fmt : FloatFormat F) (negative : Bool) (n : Nat) {r : List Char}
    (h : endsNumber r = true) :
    unsigned fmt negative (Nat.toDigits 10 n ++ r) =
      some (.int (if negative then -(n : Int) else n), r) := by
  simp [unsigned, whole?_toDigits n (notDigit_of_endsNumber h), floatTail?, fraction?_none h,
    exponent?_none h]

theorem unsigned_float (fmt : FloatFormat F) (l : FloatLit) {r : List Char}
    (h : endsNumber r = true) :
    unsigned fmt l.negative (Nat.toDigits 10 l.whole ++ (tailText l.tail ++ r)) =
      some (.float (fmt.read (.literal l)), r) := by
  simp [unsigned, whole?_toDigits l.whole (head_tailText l.tail r), floatTail?_tailText l.tail h]

theorem number?_digits (fmt : FloatFormat F) (n : Nat) (r : List Char) :
    number? fmt (Nat.toDigits 10 n ++ r) = unsigned fmt false (Nat.toDigits 10 n ++ r) := by
  have hd := toDigits_all_isDigit n
  cases h : Nat.toDigits 10 n with
  | nil => exact absurd h Nat.toDigits_ne_nil
  | cons c ds =>
      rw [h] at hd
      have hc : c ≠ '-' := by
        rintro rfl
        simp at hd
      rw [List.cons_append, number?.eq_def]
      split
      · simp_all
      · rfl

theorem number?_intText (fmt : FloatFormat F) (n : Int) {r : List Char}
    (h : endsNumber r = true) : number? fmt (intText n ++ r) = some (.int n, r) := by
  rw [intText]
  split_ifs with hn
  · simp only [List.cons_append, List.nil_append, number?, unsigned_int fmt true _ h, if_true,
      Option.some.injEq, Prod.mk.injEq, Json.int.injEq, and_true]
    omega
  · simp only [List.nil_append, number?_digits, unsigned_int fmt false _ h]
    simp only [Bool.false_eq_true, if_false, Option.some.injEq, Prod.mk.injEq, Json.int.injEq, and_true]
    omega

theorem number?_literal (fmt : FloatFormat F) (l : FloatLit) {r : List Char}
    (h : endsNumber r = true) :
    number? fmt (floatText (.literal l) ++ r) = some (.float (fmt.read (.literal l)), r) := by
  have hu := unsigned_float fmt l h
  cases hl : l.negative with
  | true =>
      rw [hl] at hu
      simp [floatText, hl, number?, hu]
  | false =>
      rw [hl] at hu
      simp [floatText, hl, number?_digits, hu]

theorem word?_none {w : String} {c : Char} {v : Json F} {s : List Char}
    (h : ∀ d ∈ w.toList.head?, d ≠ c) (hw : w.toList ≠ []) : word? w v (c :: s) = none := by
  rw [word?]
  cases hl : w.toList with
  | nil => exact absurd hl hw
  | cons d ds => simp [dropPrefix?, h d (by simp [hl])]

theorem parseScalar_number (fmt : FloatFormat F) {s : List Char} {v : Json F} {r : List Char}
    (h : number? fmt s = some (v, r)) (hs : ∀ c ∈ s.head?, c.isDigit = true ∨ c = '-') :
    parseScalar fmt s = some (v, r) := by
  cases s with
  | nil => simp [number?, unsigned, whole?, digits?] at h
  | cons c s =>
      have hc := hs c (by simp)
      have hne : ∀ d : Char, d.isDigit = false → d ≠ '-' → d ≠ c := by
        rintro d hd hm rfl
        rcases hc with hc | hc
        · simp [hd] at hc
        · exact hm hc
      rw [parseScalar]
      rw [word?_none (w := "null") (by simpa using hne 'n' (by decide) (by decide)) (by decide),
        word?_none (w := "true") (by simpa using hne 't' (by decide) (by decide)) (by decide),
        word?_none (w := "false") (by simpa using hne 'f' (by decide) (by decide)) (by decide), h]
      rfl

theorem head_intText (n : Int) (r : List Char) :
    ∀ c ∈ (intText n ++ r).head?, c.isDigit = true ∨ c = '-' := by
  rw [intText]
  have hd := toDigits_all_isDigit n.natAbs
  split_ifs with h
  · simp
  · cases hl : Nat.toDigits 10 n.natAbs with
    | nil => exact absurd hl Nat.toDigits_ne_nil
    | cons c ds => simp_all

theorem head_literal (l : FloatLit) (r : List Char) :
    ∀ c ∈ (floatText (.literal l) ++ r).head?, c.isDigit = true ∨ c = '-' := by
  have hd := toDigits_all_isDigit l.whole
  cases hn : l.negative with
  | true => simp [floatText, hn]
  | false =>
      cases hl : Nat.toDigits 10 l.whole with
      | nil => exact absurd hl Nat.toDigits_ne_nil
      | cons c ds => simp_all [floatText]

theorem parseScalar_floatText (fmt : FloatFormat F) (t : FloatText) {r : List Char}
    (h : endsNumber r = true) :
    parseScalar fmt (floatText t ++ r) = some (.float (fmt.read t), r) := by
  cases t with
  | literal l => exact parseScalar_number fmt (number?_literal fmt l h) (head_literal l r)
  | nan => simp [parseScalar, floatText, word?, dropPrefix?, number?, unsigned, whole?, digits?]
  | infinity negative =>
      cases negative <;>
        simp [parseScalar, floatText, word?, dropPrefix?, number?, unsigned, whole?, digits?]

theorem dropWhile_replicate_append (n : Nat) (c : Char) (hc : isWs c = true) (r : List Char) :
    skipWs (List.replicate n c ++ r) = skipWs r := by
  rw [skipWs]
  exact List.dropWhile_append_of_pos fun d hd => by rwa [List.eq_of_mem_replicate hd]

theorem skipWs_brk (ly : Layout) (level : Nat) (r : List Char) :
    skipWs (ly.brk level ++ r) = skipWs r := by
  cases ly with
  | indented width =>
      rw [Layout.brk, List.cons_append, skipWs, List.dropWhile_cons_of_pos (by decide)]
      exact dropWhile_replicate_append _ ' ' (by decide) r
  | spaced | compact => rfl

theorem itemSep_append (ly : Layout) (level : Nat) (r : List Char) :
    ∃ s, ly.itemSep level ++ r = ',' :: s ∧ skipWs s = skipWs r := by
  cases ly with
  | indented width =>
      refine ⟨'\n' :: (List.replicate (width * level) ' ' ++ r), by simp [Layout.itemSep], ?_⟩
      rw [skipWs, List.dropWhile_cons_of_pos (by decide)]
      exact dropWhile_replicate_append _ ' ' (by decide) r
  | spaced => exact ⟨' ' :: r, rfl, List.dropWhile_cons_of_pos (by decide)⟩
  | compact => exact ⟨r, rfl, rfl⟩

theorem keySep_append (ly : Layout) (r : List Char) :
    ∃ s, ly.keySep ++ r = ':' :: s ∧ skipWs s = skipWs r := by
  cases ly with
  | compact => exact ⟨r, rfl, rfl⟩
  | spaced | indented => exact ⟨' ' :: r, rfl, List.dropWhile_cons_of_pos (by decide)⟩

theorem skipWs_cons {c : Char} (h : isWs c = false) (r : List Char) :
    skipWs (c :: r) = c :: r := List.dropWhile_cons_of_neg (by simp [h])

def startsValue : List Char → Bool
  | [] => false
  | c :: _ => !isWs c && c != ']'

theorem startsValue_append {s : List Char} (h : startsValue s = true) (r : List Char) :
    startsValue (s ++ r) = true := by
  cases s with
  | nil => simp [startsValue] at h
  | cons c s => exact h

theorem startsValue_of_number {s : List Char} (hne : s ≠ [])
    (hs : ∀ c ∈ s.head?, c.isDigit = true ∨ c = '-') : startsValue s = true := by
  cases s with
  | nil => exact absurd rfl hne
  | cons c s =>
      have hc : ∀ d : Char, d.isDigit = false → d ≠ '-' → c ≠ d := by
        rintro d hd hm rfl
        rcases hs c (by simp) with h | h
        · simp [hd] at h
        · exact hm h
      simp [startsValue, isWs, hc ' ' (by decide) (by decide), hc '\t' (by decide) (by decide),
        hc '\n' (by decide) (by decide), hc '\r' (by decide) (by decide),
        hc ']' (by decide) (by decide)]

theorem intText_ne_nil (n : Int) : intText n ≠ [] := by
  simp [intText, Nat.toDigits_ne_nil]

theorem startsValue_dump (fmt : FloatFormat F) (ly : Layout) (level : Nat) (v : Json F) :
    startsValue (dump fmt ly level v) = true := by
  cases v with
  | null => simp [dump, startsValue, isWs]
  | bool b => cases b <;> simp [dump, startsValue, isWs]
  | int n =>
      rw [dump]
      exact startsValue_of_number (intText_ne_nil n) (by simpa using head_intText n [])
  | float x =>
      rw [dump]
      cases hx : fmt.repr x with
      | literal l =>
          exact startsValue_of_number (by simp [floatText, Nat.toDigits_ne_nil])
            (by simpa using head_literal l [])
      | nan => simp [floatText, startsValue, isWs]
      | infinity negative => cases negative <;> simp [floatText, startsValue, isWs]
  | str s => simp [dump, quote, startsValue, isWs]
  | arr vs => cases vs <;> simp [dump, startsValue, isWs]
  | obj ms => rcases ms with _ | ⟨⟨k, v⟩, ms⟩ <;> simp [dump, startsValue, isWs]

theorem skipWs_of_startsValue {s : List Char} (h : startsValue s = true) : skipWs s = s := by
  cases s with
  | nil => rfl
  | cons c s =>
      simp only [startsValue, Bool.and_eq_true] at h
      exact skipWs_cons (by simpa using h.1) s

theorem parseValue_scalar (fmt : FloatFormat F) (fuel : Nat) {s : List Char} {x : Json F × List Char}
    (h : parseScalar fmt s = some x) : parseValue fmt (fuel + 1) s = some x := by
  have hstart : ∀ c ∈ s.head?, c ≠ '"' ∧ c ≠ '[' ∧ c ≠ '{' := by
    intro c hc
    refine ⟨?_, ?_, ?_⟩ <;> rintro rfl <;>
      (cases s with
      | nil => simp at hc
      | cons d s =>
          simp only [List.head?_cons, Option.mem_def, Option.some.injEq] at hc
          subst hc
          simp [parseScalar, word?, dropPrefix?, number?, unsigned, whole?, digits?] at h)
  rw [parseValue.eq_def]
  split
  · contradiction
  · split <;> simp_all

theorem endsNumber_brk (ly : Layout) (level : Nat) {c : Char} (h : endsNumber [c] = true)
    (r : List Char) : endsNumber (ly.brk level ++ c :: r) = true := by
  cases ly with
  | indented width => simp [Layout.brk, endsNumber]
  | spaced | compact => exact h

theorem endsNumber_items (fmt : FloatFormat F) (ly : Layout) (level : Nat) (vs : List (Json F))
    {s : List Char} (h : endsNumber s = true) :
    endsNumber (dumpItems fmt ly level vs ++ s) = true := by
  cases vs with
  | nil => exact h
  | cons v vs =>
      obtain ⟨t, ht, -⟩ := itemSep_append ly level (dump fmt ly level v ++ dumpItems fmt ly level vs ++ s)
      rw [dumpItems, List.append_assoc, ht]
      rfl

theorem endsNumber_members (fmt : FloatFormat F) (ly : Layout) (level : Nat) (ms : Members F)
    {s : List Char} (h : endsNumber s = true) :
    endsNumber (dumpMembers fmt ly level ms ++ s) = true := by
  rcases ms with _ | ⟨⟨k, v⟩, ms⟩
  · exact h
  · obtain ⟨t, ht, -⟩ := itemSep_append ly level
      (quote k ++ (ly.keySep ++ (dump fmt ly level v ++ dumpMembers fmt ly level ms)) ++ s)
    rw [dumpMembers, List.append_assoc, ht]
    rfl

theorem scanString_quote (s : String) (r : List Char) :
    quote s ++ r = '"' :: (escape s.toList ++ '"' :: r) := by
  simp [quote]

mutual

theorem parseValue_dump (fmt : FloatFormat F) (ly : Layout) (level : Nat) :
    ∀ (v : Json F) (fuel : Nat) (r : List Char), v.wf = true → endsNumber r = true →
      (dump fmt ly level v).length ≤ fuel →
      parseValue fmt fuel (dump fmt ly level v ++ r) = some (v, r)
  | v, 0, r, _, _, hf => by
      have hs := startsValue_dump fmt ly level v
      rw [List.length_eq_zero_iff.mp (Nat.le_zero.mp hf)] at hs
      simp [startsValue] at hs
  | .null, fuel + 1, r, _, _, _ =>
      parseValue_scalar fmt fuel (by simp [dump, parseScalar, word?, dropPrefix?])
  | .bool true, fuel + 1, r, _, _, _ =>
      parseValue_scalar fmt fuel (by simp [dump, parseScalar, word?, dropPrefix?])
  | .bool false, fuel + 1, r, _, _, _ =>
      parseValue_scalar fmt fuel (by simp [dump, parseScalar, word?, dropPrefix?])
  | .int n, fuel + 1, r, _, hr, _ =>
      parseValue_scalar fmt fuel (parseScalar_number fmt (number?_intText fmt n hr) (head_intText n r))
  | .float x, fuel + 1, r, _, hr, _ => by
      rw [dump]
      simpa [fmt.read_repr] using
        parseValue_scalar fmt fuel (parseScalar_floatText fmt (fmt.repr x) hr)
  | .str s, fuel + 1, r, _, _, _ => by
      rw [dump, scanString_quote, parseValue.eq_def]
      simp [scanString_escape]
  | .arr [], fuel + 1, r, _, _, _ => by
      simp [dump, parseValue, skipWs, isWs]
  | .arr (v :: vs), fuel + 1, r, hw, _, hf => by
      simp only [dump, List.cons_append, List.nil_append, List.length_cons, List.length_append,
        List.append_assoc] at hf ⊢
      have hitems := parseItems_dump fmt ly (level + 1) v vs level fuel r
        (by simpa [Json.wf] using hw) (by simp only [List.length_append]; omega)
      have hstart := startsValue_append (startsValue_dump fmt ly (level + 1) v)
        (dumpItems fmt ly (level + 1) vs ++ (ly.brk level ++ ']' :: r))
      rw [parseValue.eq_def]
      simp only [skipWs_brk, skipWs_of_startsValue hstart]
      split
      · rename_i heq
        rw [heq] at hstart
        simp [startsValue] at hstart
      · rw [hitems]; rfl
  | .obj [], fuel + 1, r, _, _, _ => by
      simp [dump, parseValue, skipWs, isWs]
  | .obj ((k, v) :: ms), fuel + 1, r, hw, _, hf => by
      simp only [Json.wf, Bool.and_eq_true, decide_eq_true_eq] at hw
      simp only [dump, List.cons_append, List.nil_append, List.length_cons, List.length_append,
        List.append_assoc] at hf ⊢
      have hmembers := parseMembers_dump fmt ly (level + 1) k v ms level fuel r hw.2
        (by simp only [List.length_append]; simp only [quote, List.length_append, List.length_cons,
          List.length_nil] at hf; omega)
      rw [parseValue.eq_def]
      simp only [skipWs_brk, scanString_quote, skipWs_cons (show isWs '"' = false by decide)]
      rw [hmembers, Option.map_some, Members.ofPairs_nodup hw.1]
termination_by _ fuel => fuel

theorem parseItems_dump (fmt : FloatFormat F) (ly : Layout) (level : Nat) :
    ∀ (v : Json F) (vs : List (Json F)) (outer fuel : Nat) (r : List Char),
      Json.wfItems (v :: vs) = true →
      (dump fmt ly level v ++ dumpItems fmt ly level vs).length < fuel →
      parseItems fmt fuel (dump fmt ly level v ++ (dumpItems fmt ly level vs ++
        (ly.brk outer ++ ']' :: r))) = some (v :: vs, r)
  | _, _, _, 0, _, _, hf => by simp at hf
  | v, vs, outer, fuel + 1, r, hw, hf => by
      simp only [Json.wfItems, Bool.and_eq_true] at hw
      simp only [List.length_append] at hf
      have hv := parseValue_dump fmt ly level v fuel
        (dumpItems fmt ly level vs ++ (ly.brk outer ++ ']' :: r)) hw.1
        (endsNumber_items fmt ly level vs (endsNumber_brk ly outer rfl r)) (by omega)
      rw [parseItems.eq_def]
      simp only [hv]
      match vs, hw, hf with
      | [], _, _ =>
          simp only [dumpItems, List.nil_append, skipWs_brk,
            skipWs_cons (show isWs ']' = false by decide)]
      | v' :: vs, hw, hf =>
          simp only [dumpItems, List.append_assoc, List.length_append] at hf ⊢
          obtain ⟨s, hs, hsk⟩ := itemSep_append ly level
            (dump fmt ly level v' ++ (dumpItems fmt ly level vs ++ (ly.brk outer ++ ']' :: r)))
          have hlen := congrArg List.length hs
          have hsep : 0 < (ly.itemSep level).length := by cases ly <;> simp [Layout.itemSep]
          have hrest := parseItems_dump fmt ly level v' vs outer fuel r hw.2
            (by simp only [List.length_append]; omega)
          have hstart := startsValue_append (startsValue_dump fmt ly level v')
            (dumpItems fmt ly level vs ++ (ly.brk outer ++ ']' :: r))
          rw [hs, skipWs_cons (by decide)]
          simp only [hsk, skipWs_of_startsValue hstart, hrest, Option.map_some]
termination_by _ _ _ fuel => fuel

theorem parseMembers_dump (fmt : FloatFormat F) (ly : Layout) (level : Nat) :
    ∀ (k : String) (v : Json F) (ms : Members F) (outer fuel : Nat) (r : List Char),
      Json.wfMembers ((k, v) :: ms) = true →
      (dump fmt ly level v ++ dumpMembers fmt ly level ms).length < fuel →
      parseMembers fmt fuel (escape k.toList ++ '"' :: (ly.keySep ++ (dump fmt ly level v ++
        (dumpMembers fmt ly level ms ++ (ly.brk outer ++ '}' :: r))))) = some ((k, v) :: ms, r)
  | _, _, _, _, 0, _, _, hf => by simp at hf
  | k, v, ms, outer, fuel + 1, r, hw, hf => by
      simp only [Json.wfMembers, Bool.and_eq_true] at hw
      simp only [List.length_append] at hf
      have hv := parseValue_dump fmt ly level v fuel
        (dumpMembers fmt ly level ms ++ (ly.brk outer ++ '}' :: r)) hw.1
        (endsNumber_members fmt ly level ms (endsNumber_brk ly outer rfl r)) (by omega)
      have hstart := startsValue_append (startsValue_dump fmt ly level v)
        (dumpMembers fmt ly level ms ++ (ly.brk outer ++ '}' :: r))
      obtain ⟨s, hs, hsk⟩ := keySep_append ly
        (dump fmt ly level v ++ (dumpMembers fmt ly level ms ++ (ly.brk outer ++ '}' :: r)))
      rw [parseMembers.eq_def]
      simp only [scanString_escape, hs, skipWs_cons (show isWs ':' = false by decide), hsk,
        skipWs_of_startsValue hstart, hv]
      match ms, hw, hf with
      | [], _, _ =>
          simp only [dumpMembers, List.nil_append, skipWs_brk,
            skipWs_cons (show isWs '}' = false by decide), String.ofList_toList]
      | (k', v') :: ms, hw, hf =>
          simp only [dumpMembers, List.append_assoc, List.length_append] at hf ⊢
          obtain ⟨t, ht, htk⟩ := itemSep_append ly level
            (quote k' ++ (ly.keySep ++ (dump fmt ly level v' ++ (dumpMembers fmt ly level ms ++
              (ly.brk outer ++ '}' :: r)))))
          have hrest := parseMembers_dump fmt ly level k' v' ms outer fuel r hw.2
            (by simp only [List.length_append]; simp only [quote, List.length_append,
              List.length_cons, List.length_nil] at hf; omega)
          rw [ht, skipWs_cons (by decide)]
          simp only [htk, scanString_quote, skipWs_cons (show isWs '"' = false by decide),
            hrest, Option.map_some, String.ofList_toList]
termination_by _ _ _ _ fuel => fuel

end

theorem loads_dumps (fmt : FloatFormat F) (ly : Layout) {v : Json F} (h : v.wf = true) :
    loads fmt (dumps fmt ly v) = some v := by
  have hp := parseValue_dump fmt ly 0 v ((dumps fmt ly v).length + 1) [] h rfl (Nat.le_succ _)
  unfold loads dumps at *
  rw [skipWs_of_startsValue (startsValue_dump fmt ly 0 v)]
  rw [List.append_nil] at hp
  simp [hp, skipWs]

end PyJson
