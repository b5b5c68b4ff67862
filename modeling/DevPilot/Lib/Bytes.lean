import Mathlib.Tactic

/-!
Byte strings: big-endian numbers, lower-case hexadecimal text, and files that
hand out their bytes in reads of any length.
-/

namespace Bytes

abbrev ByteString := List UInt8

def readBE (bytes : ByteString) : Nat := bytes.foldl (fun n b => n * 256 + b.toNat) 0

/-- The last `width` base-256 digits of `n`. -/
def writeBE : Nat → Nat → ByteString
  | 0, _ => []
  | width + 1, n => writeBE width (n / 256) ++ [UInt8.ofNat n]

@[simp] theorem length_writeBE (width n : Nat) : (writeBE width n).length = width := by
  induction width generalizing n with
  | zero => rfl
  | succ width ih => rw [writeBE, List.length_append, ih]; rfl

theorem readBE_append_singleton (bytes : ByteString) (b : UInt8) :
    readBE (bytes ++ [b]) = readBE bytes * 256 + b.toNat := by
  rw [readBE, List.foldl_append]
  rfl

theorem readBE_writeBE {width n : Nat} (h : n < 256 ^ width) : readBE (writeBE width n) = n := by
  induction width generalizing n with
  | zero =>
      obtain rfl : n = 0 := by simpa using h
      rfl
  | succ width ih =>
      have hdiv : n / 256 < 256 ^ width := Nat.div_lt_of_lt_mul (by rwa [pow_succ'] at h)
      have hbyte : (UInt8.ofNat n).toNat = n % 256 := by simp
      rw [writeBE, readBE_append_singleton, ih hdiv, hbyte]
      omega

theorem writeBE_readBE (bytes : ByteString) : writeBE bytes.length (readBE bytes) = bytes := by
  induction bytes using List.reverseRecOn with
  | nil => rfl
  | append_singleton bytes b ih =>
      have hb := b.toNat_lt
      have hdiv : (readBE bytes * 256 + b.toNat) / 256 = readBE bytes := by omega
      have hbyte : UInt8.ofNat (readBE bytes * 256 + b.toNat) = b := by
        apply UInt8.toNat_inj.mp
        simp only [UInt8.toNat_ofNat']
        omega
      rw [readBE_append_singleton, List.length_append, List.length_singleton, writeBE, hdiv, hbyte, ih]

def hexChar (v : Nat) : Char := if v < 10 then Char.ofNat (48 + v) else Char.ofNat (87 + v)

def hexValue? (c : Char) : Option Nat :=
  if 48 ≤ c.toNat ∧ c.toNat ≤ 57 then some (c.toNat - 48)
  else if 97 ≤ c.toNat ∧ c.toNat ≤ 102 then some (c.toNat - 87)
  else none

def hexOf (bytes : ByteString) : List Char :=
  bytes.flatMap fun b => [hexChar (b.toNat / 16), hexChar (b.toNat % 16)]

def bytesOfHex? : List Char → Option ByteString
  | [] => some []
  | [_] => none
  | c :: d :: cs => do
      let high ← hexValue? c
      let low ← hexValue? d
      let bytes ← bytesOfHex? cs
      return UInt8.ofNat (16 * high + low) :: bytes

theorem hexValue?_hexChar {v : Nat} (h : v < 16) : hexValue? (hexChar v) = some v := by
  interval_cases v <;> rfl

theorem length_hexOf (bytes : ByteString) : (hexOf bytes).length = 2 * bytes.length := by
  induction bytes with
  | nil => rfl
  | cons b bytes ih =>
      simp only [hexOf, List.flatMap_cons, List.length_append, List.length_cons, List.length_nil] at ih ⊢
      omega

theorem bytesOfHex?_hexOf (bytes : ByteString) : bytesOfHex? (hexOf bytes) = some bytes := by
  induction bytes with
  | nil => rfl
  | cons b bytes ih =>
      have hb := b.toNat_lt
      have hbyte : UInt8.ofNat (16 * (b.toNat / 16) + b.toNat % 16) = b := by
        rw [Nat.div_add_mod]
        exact UInt8.ofNat_toNat
      have hhex : hexOf (b :: bytes) = hexChar (b.toNat / 16) :: hexChar (b.toNat % 16) :: hexOf bytes :=
        rfl
      rw [hhex, bytesOfHex?, hexValue?_hexChar (by omega), hexValue?_hexChar (by omega), ih]
      simp only [Option.bind_eq_bind, Option.bind_some, Option.pure_def, hbyte]

/-- A file that is not written to. A read of `length` bytes at `position` gives
`read position length` of them, and none only at the end or where none are asked for. -/
structure File where
  bytes : ByteString
  read : Nat → Nat → Nat
  read_le : ∀ position length, read position length ≤ min length (bytes.length - position)
  read_pos : ∀ position length, 0 < length → position < bytes.length → 0 < read position length

namespace File

def slice (f : File) (position length : Nat) : ByteString := (f.bytes.drop position).take length

end File

end Bytes
