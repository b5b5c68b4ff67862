import DevPilot.Lib.Bytes

/-!
Base64 with padding: the encoder, the decoder, and the check for a text that
the encoder could have written.
-/

namespace Base64

open Bytes

def sextetChar (v : Nat) : Char :=
  if v < 26 then Char.ofNat (65 + v)
  else if v < 52 then Char.ofNat (71 + v)
  else if v < 62 then Char.ofNat (v - 4)
  else if v = 62 then '+' else '/'

def sextet? (c : Char) : Option Nat :=
  if 65 ≤ c.toNat ∧ c.toNat ≤ 90 then some (c.toNat - 65)
  else if 97 ≤ c.toNat ∧ c.toNat ≤ 122 then some (c.toNat - 71)
  else if 48 ≤ c.toNat ∧ c.toNat ≤ 57 then some (c.toNat + 4)
  else if c.toNat = 43 then some 62
  else if c.toNat = 47 then some 63
  else none

def inAlphabet (c : Char) : Bool := (sextet? c).isSome

theorem sextet?_sextetChar {v : Nat} (h : v < 64) : sextet? (sextetChar v) = some v := by
  interval_cases v <;> rfl

theorem inAlphabet_sextetChar {v : Nat} (h : v < 64) : inAlphabet (sextetChar v) = true := by
  rw [inAlphabet, sextet?_sextetChar h]
  rfl

theorem sextetChar_ne_pad {v : Nat} (h : v < 64) : sextetChar v ≠ '=' := by
  intro he
  have := inAlphabet_sextetChar h
  rw [he] at this
  exact absurd this (by decide)

def encode : ByteString → List Char
  | [] => []
  | [a] => [sextetChar (a.toNat / 4), sextetChar (a.toNat % 4 * 16), '=', '=']
  | [a, b] =>
      [sextetChar (a.toNat / 4), sextetChar (a.toNat % 4 * 16 + b.toNat / 16),
        sextetChar (b.toNat % 16 * 4), '=']
  | a :: b :: c :: bytes =>
      sextetChar (a.toNat / 4) :: sextetChar (a.toNat % 4 * 16 + b.toNat / 16) ::
        sextetChar (b.toNat % 16 * 4 + c.toNat / 64) :: sextetChar (c.toNat % 64) :: encode bytes

def decode : List Char → Option ByteString
  | [] => some []
  | c :: d :: e :: f :: cs =>
      if cs = [] ∧ f = '=' then do
        let x ← sextet? c
        let y ← sextet? d
        if e = '=' then return [UInt8.ofNat (4 * x + y / 16)]
        else do
          let z ← sextet? e
          return [UInt8.ofNat (4 * x + y / 16), UInt8.ofNat (y % 16 * 16 + z / 4)]
      else do
        let x ← sextet? c
        let y ← sextet? d
        let z ← sextet? e
        let w ← sextet? f
        let bytes ← decode cs
        return UInt8.ofNat (4 * x + y / 16) :: UInt8.ofNat (y % 16 * 16 + z / 4) ::
          UInt8.ofNat (z % 4 * 64 + w) :: bytes
  | _ => none

theorem byte_eq {n : Nat} {b : UInt8} (h : n = b.toNat) : UInt8.ofNat n = b := by
  rw [h]
  exact UInt8.ofNat_toNat

theorem decode_encode (bytes : ByteString) : decode (encode bytes) = some bytes := by
  induction bytes using encode.induct with
  | case1 => rfl
  | case2 a =>
      have ha := a.toNat_lt
      have hbyte : UInt8.ofNat (4 * (a.toNat / 4) + a.toNat % 4 * 16 / 16) = a := byte_eq (by omega)
      rw [encode, decode, if_pos ⟨rfl, rfl⟩, sextet?_sextetChar (by omega),
        sextet?_sextetChar (by omega)]
      simp only [Option.bind_eq_bind, Option.bind_some, Option.pure_def, ↓reduceIte, hbyte]
  | case3 a b =>
      have ha := a.toNat_lt
      have hb := b.toNat_lt
      have hfirst : UInt8.ofNat (4 * (a.toNat / 4) + (a.toNat % 4 * 16 + b.toNat / 16) / 16) = a :=
        byte_eq (by omega)
      have hsecond : UInt8.ofNat
          ((a.toNat % 4 * 16 + b.toNat / 16) % 16 * 16 + b.toNat % 16 * 4 / 4) = b :=
        byte_eq (by omega)
      have hpad : sextetChar (b.toNat % 16 * 4) ≠ '=' := sextetChar_ne_pad (by omega)
      rw [encode, decode, if_pos ⟨rfl, rfl⟩, sextet?_sextetChar (by omega),
        sextet?_sextetChar (by omega), sextet?_sextetChar (by omega)]
      simp only [Option.bind_eq_bind, Option.bind_some, Option.pure_def, if_neg hpad, hfirst,
        hsecond]
  | case4 a b c bytes ih =>
      have ha := a.toNat_lt
      have hb := b.toNat_lt
      have hc := c.toNat_lt
      have hfirst : UInt8.ofNat (4 * (a.toNat / 4) + (a.toNat % 4 * 16 + b.toNat / 16) / 16) = a :=
        byte_eq (by omega)
      have hsecond : UInt8.ofNat ((a.toNat % 4 * 16 + b.toNat / 16) % 16 * 16 +
          (b.toNat % 16 * 4 + c.toNat / 64) / 4) = b :=
        byte_eq (by omega)
      have hthird : UInt8.ofNat
          ((b.toNat % 16 * 4 + c.toNat / 64) % 4 * 64 + c.toNat % 64) = c :=
        byte_eq (by omega)
      rw [encode, decode, if_neg fun h => sextetChar_ne_pad (by omega) h.2,
        sextet?_sextetChar (by omega), sextet?_sextetChar (by omega),
        sextet?_sextetChar (by omega), sextet?_sextetChar (by omega), ih]
      simp only [Option.bind_eq_bind, Option.bind_some, Option.pure_def, hfirst, hsecond, hthird]

theorem encode_shape (bytes : ByteString) : ∃ body k, encode bytes = body ++ List.replicate k '=' ∧
    body.all inAlphabet = true ∧ k ≤ 2 ∧ (body.length + k) % 4 = 0 ∧
      (body.length + k) / 4 * 3 = bytes.length + k := by
  induction bytes using encode.induct with
  | case1 => exact ⟨[], 0, rfl, rfl, by omega, rfl, rfl⟩
  | case2 a =>
      have ha := a.toNat_lt
      refine ⟨[sextetChar (a.toNat / 4), sextetChar (a.toNat % 4 * 16)], 2, rfl, ?_, by omega, by simp,
        by simp⟩
      simp [inAlphabet_sextetChar (show a.toNat / 4 < 64 by omega),
        inAlphabet_sextetChar (show a.toNat % 4 * 16 < 64 by omega)]
  | case3 a b =>
      have ha := a.toNat_lt
      have hb := b.toNat_lt
      refine ⟨[sextetChar (a.toNat / 4), sextetChar (a.toNat % 4 * 16 + b.toNat / 16),
        sextetChar (b.toNat % 16 * 4)], 1, rfl, ?_, by omega, by simp, by simp⟩
      simp [inAlphabet_sextetChar (show a.toNat / 4 < 64 by omega),
        inAlphabet_sextetChar (show a.toNat % 4 * 16 + b.toNat / 16 < 64 by omega),
        inAlphabet_sextetChar (show b.toNat % 16 * 4 < 64 by omega)]
  | case4 a b c bytes ih =>
      have ha := a.toNat_lt
      have hb := b.toNat_lt
      have hc := c.toNat_lt
      obtain ⟨body, k, htext, hbody, hk, hmod, hlength⟩ := ih
      refine ⟨sextetChar (a.toNat / 4) :: sextetChar (a.toNat % 4 * 16 + b.toNat / 16) ::
        sextetChar (b.toNat % 16 * 4 + c.toNat / 64) :: sextetChar (c.toNat % 64) :: body, k,
        by rw [encode, htext]; rfl, ?_, hk, ?_, ?_⟩
      · simp [inAlphabet_sextetChar (show a.toNat / 4 < 64 by omega),
          inAlphabet_sextetChar (show a.toNat % 4 * 16 + b.toNat / 16 < 64 by omega),
          inAlphabet_sextetChar (show b.toNat % 16 * 4 + c.toNat / 64 < 64 by omega),
          inAlphabet_sextetChar (show c.toNat % 64 < 64 by omega), hbody]
      · simp only [List.length_cons]
        omega
      · simp only [List.length_cons]
        omega

/-- The loop of `canonicalLength?`, from `index` on; the padding starts at
`paddingStart`, or has not started where that is `length`. -/
def scanPadding (length : Nat) : Nat → Nat → List Char → Option Nat
  | _, paddingStart, [] => some paddingStart
  | index, paddingStart, c :: cs =>
      if inAlphabet c then
        if paddingStart ≠ length then none else scanPadding length (index + 1) paddingStart cs
      else if c ≠ '=' then none
      else if index < length - 2 then none
      else scanPadding length (index + 1) (if paddingStart = length then index else paddingStart) cs

def canonicalLength? (input : List Char) : Option Nat :=
  if input.length % 4 ≠ 0 then none
  else do
    let paddingStart ← scanPadding input.length 0 input.length input
    if input.length - paddingStart > 2 then none
    else some (input.length / 4 * 3 - (input.length - paddingStart))

theorem scanPadding_body {length index : Nat} {body : List Char} (h : body.all inAlphabet = true)
    (cs : List Char) :
    scanPadding length index length (body ++ cs) =
      scanPadding length (index + body.length) length cs := by
  induction body generalizing index with
  | nil => rfl
  | cons c body ih =>
      rw [List.all_cons, Bool.and_eq_true] at h
      rw [List.cons_append, scanPadding, if_pos h.1, if_neg (by simp), ih h.2, List.length_cons]
      congr 1
      omega

theorem canonicalLength?_encode (bytes : ByteString) :
    canonicalLength? (encode bytes) = some bytes.length := by
  obtain ⟨body, k, htext, hbody, hk, hmod, hlength⟩ := encode_shape bytes
  have hpad : inAlphabet '=' = false := by decide
  have hscan : scanPadding (body.length + k) 0 (body.length + k)
      (body ++ List.replicate k '=') = some body.length := by
    rw [scanPadding_body hbody]
    interval_cases k
    · rfl
    · simp [scanPadding, hpad, List.replicate]
    · simp [scanPadding, hpad, List.replicate]
  rw [canonicalLength?, htext, List.length_append, List.length_replicate, if_neg (by omega), hscan]
  simp only [Option.bind_eq_bind, Option.bind_some]
  rw [if_neg (by omega)]
  congr 1
  omega

end Base64
