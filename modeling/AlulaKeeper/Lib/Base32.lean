import Mathlib

/-!
# Base32 text

Groups of five bytes as eight characters; texts are of whole groups, without padding.

* `decode_encode`: what was written reads back.
-/

namespace Base32

/-- `A` to `Z`, then `2` to `7`. -/
def digit (n : Fin 32) : Char :=
  if n.val < 26 then Char.ofNat ('A'.toNat + n.val) else Char.ofNat ('2'.toNat + (n.val - 26))

/-- The digit a letter or a figure stands for. -/
def digitValue (c : Char) : Option (Fin 32) :=
  if 'A' ≤ c ∧ c ≤ 'Z' then some (Fin.ofNat 32 (c.toNat - 'A'.toNat))
  else if '2' ≤ c ∧ c ≤ '7' then some (Fin.ofNat 32 (c.toNat - '2'.toNat + 26))
  else none

theorem digitValue_digit : ∀ n : Fin 32, digitValue (digit n) = some n := by decide

/-! ## One group -/

/-- Five bytes as a number, the first the highest. -/
def ofBytes (a b c d e : UInt8) : ℕ :=
  (((a.toNat * 256 + b.toNat) * 256 + c.toNat) * 256 + d.toNat) * 256 + e.toNat

/-- The byte of a number at a power of 256. -/
def byteAt (n k : ℕ) : UInt8 := UInt8.ofNat (n / 256 ^ k)

/-- The digit of a number at a power of 32. -/
def digitAt (n k : ℕ) : Fin 32 := Fin.ofNat 32 (n / 32 ^ k)

/-- The number of the digits, the first the highest. -/
def ofDigits (ds : List (Fin 32)) : ℕ := ds.foldl (fun n d => n * 32 + d.val) 0

/-- The last eight digits of a number. -/
def toDigits (n : ℕ) : List (Fin 32) :=
  [digitAt n 7, digitAt n 6, digitAt n 5, digitAt n 4, digitAt n 3, digitAt n 2, digitAt n 1, digitAt n 0]

theorem ofDigits_toDigits {n : ℕ} (h : n < 1099511627776) : ofDigits (toDigits n) = n := by
  simp only [ofDigits, toDigits, digitAt, Fin.val_ofNat, List.foldl_cons, List.foldl_nil]
  norm_num
  omega

section Bytes

variable (a b c d e : UInt8)

theorem ofBytes_lt : ofBytes a b c d e < 1099511627776 := by
  have ha := a.toNat_lt
  have hb := b.toNat_lt
  have hc := c.toNat_lt
  have hd := d.toNat_lt
  have he := e.toNat_lt
  unfold ofBytes
  omega

theorem byteAt_eq {n k : ℕ} {x : UInt8} (h : n / 256 ^ k % 256 = x.toNat) : byteAt n k = x := by
  apply UInt8.toNat_inj.mp
  rw [byteAt, UInt8.toNat_ofNat']
  exact h

theorem bytes_ofBytes :
    byteAt (ofBytes a b c d e) 4 = a ∧ byteAt (ofBytes a b c d e) 3 = b ∧
      byteAt (ofBytes a b c d e) 2 = c ∧ byteAt (ofBytes a b c d e) 1 = d ∧
        byteAt (ofBytes a b c d e) 0 = e := by
  have ha := a.toNat_lt
  have hb := b.toNat_lt
  have hc := c.toNat_lt
  have hd := d.toNat_lt
  have he := e.toNat_lt
  refine ⟨byteAt_eq ?_, byteAt_eq ?_, byteAt_eq ?_, byteAt_eq ?_, byteAt_eq ?_⟩
  all_goals
    unfold ofBytes
    omega

end Bytes

/-! ## Texts -/

/-- The digits of whole groups of bytes; bytes left over are dropped. -/
def encodeBytes : List UInt8 → List (Fin 32)
  | a :: b :: c :: d :: e :: rest => toDigits (ofBytes a b c d e) ++ encodeBytes rest
  | _ => []

/-- The bytes of whole groups of digits. -/
def decodeDigits : List (Fin 32) → Option (List UInt8)
  | [] => some []
  | p :: q :: r :: s :: t :: u :: v :: w :: rest => do
    let n := ofDigits [p, q, r, s, t, u, v, w]
    return [byteAt n 4, byteAt n 3, byteAt n 2, byteAt n 1, byteAt n 0] ++ (← decodeDigits rest)
  | _ => none

/-- The text of the bytes. -/
def encode (bytes : List UInt8) : String := String.ofList ((encodeBytes bytes).map digit)

/-- The bytes of a text of digits. -/
def decode (text : String) : Option (List UInt8) := do
  decodeDigits (← text.toList.mapM digitValue)

theorem decodeDigits_encodeBytes (k : ℕ) (bytes : List UInt8) (h : bytes.length = 5 * k) :
    decodeDigits (encodeBytes bytes) = some bytes := by
  induction k generalizing bytes with
  | zero =>
    obtain rfl := List.eq_nil_of_length_eq_zero h
    rfl
  | succ k ih =>
    match bytes, h with
    | a :: b :: c :: d :: e :: rest, h =>
      have hrest : rest.length = 5 * k := by
        simp only [List.length_cons] at h
        omega
      have hn : ofDigits (toDigits (ofBytes a b c d e)) = ofBytes a b c d e :=
        ofDigits_toDigits (ofBytes_lt a b c d e)
      obtain ⟨ha, hb, hc, hd, he⟩ := bytes_ofBytes a b c d e
      simp only [toDigits] at hn
      simp only [encodeBytes, toDigits, List.cons_append, List.nil_append, decodeDigits, ih rest hrest,
        hn, ha, hb, hc, hd, he]
      rfl

theorem mapM_digitValue (ds : List (Fin 32)) : (ds.map digit).mapM digitValue = some ds := by
  induction ds with
  | nil => rfl
  | cons d ds ih =>
    rw [List.map_cons, List.mapM_cons, digitValue_digit, ih]
    rfl

theorem decode_encode {k : ℕ} {bytes : List UInt8} (h : bytes.length = 5 * k) :
    decode (encode bytes) = some bytes := by
  rw [decode, encode, String.toList_ofList, mapM_digitValue]
  exact decodeDigits_encodeBytes k bytes h

end Base32
