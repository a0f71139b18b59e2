import Mathlib

/-!
# Hexadecimal text

* `Hex`: bytes written as text and read back, with the laws.
* `Hex.encode_eq_empty_iff`: only the empty byte string is written as nothing.
* `Hex.lowerCase`: two lower-case digits a byte; reading takes either case.
-/

/-- Bytes as text. -/
structure Hex where
  encode : List UInt8 → String
  decode : String → Option (List UInt8)
  encode_nil : encode [] = ""
  decode_encode : ∀ bytes, decode (encode bytes) = some bytes

namespace Hex

section Laws

variable {hex : Hex}

theorem encode_injective : Function.Injective hex.encode := by
  intro a b h
  have hdecode := hex.decode_encode a
  rw [h, hex.decode_encode] at hdecode
  exact (Option.some.inj hdecode).symm

theorem encode_eq_empty_iff {bytes : List UInt8} : hex.encode bytes = "" ↔ bytes = [] := by
  rw [← hex.encode_nil]
  exact encode_injective.eq_iff

end Laws

/-! ## Lower case -/

/-- The digit of a half byte. -/
def digit (n : Fin 16) : Char :=
  if n.val < 10 then Char.ofNat ('0'.toNat + n.val) else Char.ofNat ('a'.toNat + (n.val - 10))

/-- The half byte of a digit. -/
def digitValue (c : Char) : Option (Fin 16) :=
  if '0' ≤ c ∧ c ≤ '9' then some (Fin.ofNat 16 (c.toNat - '0'.toNat))
  else if 'a' ≤ c ∧ c ≤ 'f' then some (Fin.ofNat 16 (c.toNat - 'a'.toNat + 10))
  else if 'A' ≤ c ∧ c ≤ 'F' then some (Fin.ofNat 16 (c.toNat - 'A'.toNat + 10))
  else none

/-- The upper half of a byte. -/
def highHalf (b : UInt8) : Fin 16 := Fin.ofNat 16 (b.toNat / 16)

/-- The lower half. -/
def lowHalf (b : UInt8) : Fin 16 := Fin.ofNat 16 b.toNat

/-- The byte of two halves. -/
def ofHalves (high low : Fin 16) : UInt8 := UInt8.ofNat (high.val * 16 + low.val)

/-- The digits of a byte string. -/
def encodeDigits (bytes : List UInt8) : String :=
  String.ofList (bytes.flatMap fun b => [digit (highHalf b), digit (lowHalf b)])

/-- Digits in pairs; an odd one left over is an error. -/
def decodeDigits : List Char → Option (List UInt8)
  | [] => some []
  | [_] => none
  | high :: low :: rest => do
    return ofHalves (← digitValue high) (← digitValue low) :: (← decodeDigits rest)

theorem digitValue_digit : ∀ n : Fin 16, digitValue (digit n) = some n := by decide

theorem ofHalves_halves (b : UInt8) : ofHalves (highHalf b) (lowHalf b) = b := by
  have hb : b.toNat < 256 := b.toNat_lt
  have hhigh : (highHalf b).val = b.toNat / 16 := Nat.mod_eq_of_lt (by omega)
  have hlow : (lowHalf b).val = b.toNat % 16 := rfl
  rw [ofHalves, hhigh, hlow, Nat.div_add_mod']
  exact UInt8.ofNat_toNat

theorem decodeDigits_flatMap (bytes : List UInt8) :
    decodeDigits (bytes.flatMap fun b => [digit (highHalf b), digit (lowHalf b)]) = some bytes := by
  induction bytes with
  | nil => rfl
  | cons b bytes ih =>
    simp only [List.flatMap_cons, List.cons_append, List.nil_append, decodeDigits,
      digitValue_digit, ih]
    change some (ofHalves (highHalf b) (lowHalf b) :: bytes) = some (b :: bytes)
    rw [ofHalves_halves]

theorem decodeDigits_encodeDigits (bytes : List UInt8) :
    decodeDigits (encodeDigits bytes).toList = some bytes := by
  rw [encodeDigits, String.toList_ofList]
  exact decodeDigits_flatMap bytes

theorem encodeDigits_nil : encodeDigits [] = "" := rfl

/-- Two digits a byte. -/
def lowerCase : Hex where
  encode := encodeDigits
  decode text := decodeDigits text.toList
  encode_nil := encodeDigits_nil
  decode_encode := decodeDigits_encodeDigits

end Hex
