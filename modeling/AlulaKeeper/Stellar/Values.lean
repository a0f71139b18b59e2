import Mathlib
import AlulaKeeper.Lib.I128
import AlulaKeeper.Lib.Fields
import AlulaKeeper.Lib.Traverse
import AlulaKeeper.Stellar.KeyCodec

/-!
# Contract values in full

`ScVal` with every type the market's data and the keeper's requests are made of, and the readers of
`xdr_codec.rs` over it.

* `Val`: contract values.
* `i128FromParts`, `i128ToParts`: an `i128` as two halves, back and forth without loss.
* `Val.get` and its typed readers: the first entry under a symbol.
* `Val.Extends`: the same value, with the fields of its maps in any order and among others.
-/

namespace AlulaKeeper

open I128

/-! ## Values -/

/-- `ScVal`. -/
inductive Val where
  | void
  | u32 (n : UInt32)
  | i32 (n : Int32)
  | u64 (n : UInt64)
  | i64 (n : Int64)
  | i128 (hi : Int64) (lo : UInt64)
  | string (text : String)
  | symbol (symbol : String)
  | bytes (bytes : ScBytes)
  | address (address : ScAddress)
  | vec (items : Option (List Val))
  | map (entries : Option (List (Val × Val)))
  /-- A type the keeper never looks into. -/
  | other (typeName : String)

/-- An error of the readers, by its text. -/
inductive ReadError where
  /-- `Expected {expected} but found {found}`. -/
  | typeMismatch (expected found : String)
  /-- `missing field '{key}'`. -/
  | missingField (key : String)
  /-- `expected {type} for '{key}', got …`. -/
  | expectedField (type key : String)
  /-- `missing pool in PoolData` and the like. -/
  | missing (what : String)
  /-- `expected {type}, got …`. -/
  | expected (type : String)
  /-- A failed contract call. -/
  | call (text : List Char)
  | key (e : CodecError)
  deriving DecidableEq, Repr

/-- A result of a reader. -/
abbrev Read (α : Type) := Except ReadError α

@[simp] theorem Read.ok_bind {α β : Type} (a : α) (f : α → Read β) : ((.ok a : Read α) >>= f) = f a := rfl

/-! ## Halves of an `i128` -/

/-- `i128_from_parts`: the two halves share no bit, so the `or` of them is a sum. -/
def i128FromParts (hi : Int64) (lo : UInt64) : ℤ := hi.toInt * 2 ^ 64 + lo.toNat

/-- The halves of `i128_to_scval`: `v >> 64` and `v as u64`. -/
def i128ToParts (v : ℤ) : Int64 × UInt64 := (Int64.ofInt (v / 2 ^ 64), UInt64.ofNat (v % 2 ^ 64).toNat)

/-- `i128_to_scval`. -/
def i128ToScval (v : ℤ) : Val := .i128 (i128ToParts v).1 (i128ToParts v).2

theorem i128FromParts_toParts {v : ℤ} (h : Fits v) :
    i128FromParts (i128ToParts v).1 (i128ToParts v).2 = v := by
  unfold Fits minVal maxVal at h
  have hhi : (Int64.ofInt (v / 2 ^ 64)).toInt = v / 2 ^ 64 := by
    refine Int64.toInt_ofInt_of_le ?_ ?_ <;> omega
  have hlo : (UInt64.ofNat (v % 2 ^ 64).toNat).toNat = (v % 2 ^ 64).toNat := by
    rw [UInt64.toNat_ofNat']
    omega
  rw [i128FromParts, i128ToParts, hhi, hlo]
  omega

/-! ## Readers -/

namespace Val

/-- `scval_type_name`. -/
def typeName : Val → String
  | void => "Void"
  | u32 _ => "U32"
  | i32 _ => "I32"
  | u64 _ => "U64"
  | i64 _ => "I64"
  | i128 _ _ => "I128"
  | string _ => "String"
  | symbol _ => "Symbol"
  | bytes _ => "Bytes"
  | address _ => "Address"
  | vec _ => "Vec"
  | map _ => "Map"
  | other typeName => typeName

/-- `scval_as_map`. -/
def asMap : Val → Read (List (Val × Val))
  | map (some entries) => .ok entries
  | val => .error (.typeMismatch "Map" val.typeName)

/-- `scval_as_vec`. -/
def asVec : Val → Read (List Val)
  | vec (some items) => .ok items
  | val => .error (.typeMismatch "Vec" val.typeName)

/-- The field a key names. -/
def fieldName : Val → Option String
  | symbol name => some name
  | _ => none

/-- `map_get`. -/
def get (entries : List (Val × Val)) (key : String) : Option Val := Fields.get fieldName entries key

/-- What `map_get_i128` and `scval_to_i128` take for an `i128`. -/
def i128Like : Val → Option ℤ
  | i128 hi lo => some (i128FromParts hi lo)
  | u32 n => some n.toNat
  | i32 n => some n.toInt
  | u64 n => some n.toNat
  | i64 n => some n.toInt
  | _ => none

/-- A field that is read by `read`, a value of the type `type`. -/
def getAs {α : Type} (type : String) (read : Val → Option α) (entries : List (Val × Val)) (key : String) :
    Read α :=
  match get entries key with
  | some val =>
    match read val with
    | some a => .ok a
    | none => .error (.expectedField type key)
  | none => .error (.missingField key)

/-- `map_get_u32`. -/
def getU32 : List (Val × Val) → String → Read ℕ :=
  getAs "U32" fun | u32 n => some n.toNat | _ => none

/-- `map_get_u64`. -/
def getU64 : List (Val × Val) → String → Read ℕ :=
  getAs "U64" fun | u64 n => some n.toNat | _ => none

/-- `map_get_i128`. -/
def getI128 : List (Val × Val) → String → Read ℤ := getAs "i128-like" i128Like

/-- `map_get_address`. -/
def getAddress (codec : TextCodec) : List (Val × Val) → String → Read String :=
  getAs "Address" fun | address a => some (codec.toText a) | _ => none

/-- `map_get_string_optional`. -/
def getStringOptional (entries : List (Val × Val)) (key : String) : Option String :=
  match get entries key with
  | some (string text) => some text
  | some (symbol text) => some text
  | _ => none

/-- `map_get(..).context(..)` and `scval_as_map`: the entries of a field. -/
def getMap (entries : List (Val × Val)) (key what : String) : Read (List (Val × Val)) :=
  match get entries key with
  | some val => val.asMap
  | none => .error (.missing what)

/-- `scval_to_i128`. -/
def toI128 (val : Val) : Read ℤ :=
  match val.i128Like with
  | some n => .ok n
  | none => .error (.expected "i128-like")

/-- `scval_to_u32`. -/
def toU32 : Val → Read ℕ
  | u32 n => .ok n.toNat
  | _ => .error (.expected "U32")

@[simp] theorem i128Like_i128ToScval {v : ℤ} (h : Fits v) : (i128ToScval v).i128Like = some v :=
  congrArg some (i128FromParts_toParts h)

/-- The values without parts of the key codec. -/
def ofLeaf : ScVal → Val
  | .void => .void
  | .bytes data => .bytes data
  | .symbol name => .symbol name
  | .address a => .address a
  | .map _ => .other "Map"
  | .other typeName => .other typeName

/-! ## The same value, with more in it -/

/-- A map under names, as the contract writes one. -/
def record (fields : List (String × Val)) : Val :=
  .map (some (fields.map fun field => (symbol field.1, field.2)))

/-- The same value, where a map under names may hold them in another order and have more of them; `image`
is what has become of each field. -/
inductive Extends : Val → Val → Prop
  | refl (val : Val) : Extends val val
  | vec {items items' : List Val} (h : List.Forall₂ Extends items items') :
      Extends (.vec (some items)) (.vec (some items'))
  | map {entries entries' : List (Val × Val)} (hunnamed : ∀ entry ∈ entries, fieldName entry.1 = none)
      (hkeys : entries'.map Prod.fst = entries.map Prod.fst)
      (h : List.Forall₂ Extends (entries.map Prod.snd) (entries'.map Prod.snd)) :
      Extends (.map (some entries)) (.map (some entries'))
  | fields {entries entries' : List (Val × Val)} (image : String → Val → Val) (hne : entries ≠ [])
      (hnamed : ∀ entry ∈ entries, fieldName entry.1 ≠ none) (hd : Fields.Distinct fieldName entries')
      (hmem : ∀ key val, (symbol key, val) ∈ entries → (symbol key, image key val) ∈ entries')
      (hval : ∀ key val, (symbol key, val) ∈ entries → Extends val (image key val)) :
      Extends (.map (some entries)) (.map (some entries'))

/-- The readers find the fields, extended. -/
def Holds (entries : List (Val × Val)) (fields : List (String × Val)) : Prop :=
  ∀ field ∈ fields, ∃ val, get entries field.1 = some val ∧ Extends field.2 val

variable {val val' : Val} {items : List Val} {entries : List (Val × Val)} {fields fields' : List (String × Val)}
variable {key : String}

theorem distinct_record (hd : (fields.map Prod.fst).Nodup) :
    Fields.Distinct fieldName (fields.map fun field => (symbol field.1, field.2)) := by
  unfold Fields.Distinct
  rw [List.filterMap_map]
  simpa [Function.comp_def, fieldName] using hd

/-- A record may hold its fields in another order, and more of them. -/
theorem Extends.of_subset (hne : fields ≠ []) (hd : (fields'.map Prod.fst).Nodup) (hsub : fields ⊆ fields') :
    Extends (record fields) (record fields') := by
  refine .fields (fun _ val => val) (by simpa using hne) (fun entry hentry => ?_) (distinct_record hd)
    (fun key val hmem => ?_) (fun _ val _ => .refl val)
  · obtain ⟨field, -, rfl⟩ := List.mem_map.mp hentry
    exact nofun
  · obtain ⟨field, hfield, heq⟩ := List.mem_map.mp hmem
    exact List.mem_map.mpr ⟨field, hsub hfield, heq⟩

/-- What extends a record is a map that holds its fields. -/
theorem Extends.holds (h : Extends (record fields) val) (hd : (fields.map Prod.fst).Nodup) :
    ∃ entries, val = .map (some entries) ∧ Holds entries fields := by
  rw [Val.record] at h
  cases h with
  | refl =>
    refine ⟨_, rfl, fun field hfield => ⟨field.2, ?_, .refl _⟩⟩
    exact Fields.get_of_mem (k := symbol field.1) (distinct_record hd) rfl
      (List.mem_map.mpr ⟨field, hfield, rfl⟩)
  | map hunnamed =>
    refine ⟨_, rfl, fun field hfield => ?_⟩
    exact nomatch hunnamed _ (List.mem_map.mpr ⟨field, hfield, rfl⟩)
  | fields image _ _ hd' hmem hval =>
    refine ⟨_, rfl, fun field hfield => ⟨image field.1 field.2, ?_, ?_⟩⟩
    · exact Fields.get_of_mem hd' rfl (hmem _ _ (List.mem_map.mpr ⟨field, hfield, rfl⟩))
    · exact hval _ _ (List.mem_map.mpr ⟨field, hfield, rfl⟩)

theorem Extends.vec_items (h : Extends (.vec (some items)) val) :
    ∃ items', val = .vec (some items') ∧ List.Forall₂ Extends items items' := by
  cases h with
  | refl => exact ⟨items, rfl, List.forall₂_same.mpr fun item _ => .refl item⟩
  | vec h => exact ⟨_, rfl, h⟩

theorem Extends.map_entries (h : Extends (.map (some entries)) val)
    (hunnamed : ∀ entry ∈ entries, fieldName entry.1 = none) :
    ∃ entries', val = .map (some entries') ∧
      List.Forall₂ (fun entry entry' => entry'.1 = entry.1 ∧ Extends entry.2 entry'.2) entries entries' := by
  cases h with
  | refl => exact ⟨entries, rfl, List.forall₂_same.mpr fun entry _ => ⟨rfl, .refl _⟩⟩
  | map _ hkeys h => exact ⟨_, rfl, Traverse.forall₂_of_keys hkeys h⟩
  | fields image hne hnamed =>
    obtain ⟨entry, hentry⟩ := List.exists_mem_of_ne_nil _ hne
    exact absurd (hunnamed entry hentry) (hnamed entry hentry)

/-- Values without parts. -/
def IsLeaf : Val → Prop
  | .vec (some _) | .map (some _) => False
  | _ => True

theorem Extends.eq_of_leaf (h : Extends val val') (hleaf : val.IsLeaf) : val' = val := by
  cases h with
  | refl => rfl
  | vec | map | fields => exact absurd hleaf id

/-! ## Reading what is held -/

theorem Holds.getAs {α : Type} {type : String} {read : Val → Option α} {a : α} (h : Holds entries fields)
    (hmem : (key, val) ∈ fields) (hleaf : val.IsLeaf) (hread : read val = some a) :
    Val.getAs type read entries key = .ok a := by
  obtain ⟨val', hget, hext⟩ := h _ hmem
  rw [hext.eq_of_leaf hleaf] at hget
  simp [Val.getAs, hget, hread]

theorem Holds.getU32 {n : UInt32} (h : Holds entries fields) (hmem : (key, u32 n) ∈ fields) :
    Val.getU32 entries key = .ok n.toNat :=
  h.getAs hmem trivial rfl

theorem Holds.getU64 {n : UInt64} (h : Holds entries fields) (hmem : (key, u64 n) ∈ fields) :
    Val.getU64 entries key = .ok n.toNat :=
  h.getAs hmem trivial rfl

theorem Holds.getAddress {codec : TextCodec} {a : ScAddress} (h : Holds entries fields)
    (hmem : (key, address a) ∈ fields) : Val.getAddress codec entries key = .ok (codec.toText a) :=
  h.getAs hmem trivial rfl

theorem Holds.getStringOptional {text : String} (h : Holds entries fields)
    (hmem : (key, string text) ∈ fields) : Val.getStringOptional entries key = some text := by
  obtain ⟨val', hget, hext⟩ := h _ hmem
  rw [hext.eq_of_leaf trivial] at hget
  simp [Val.getStringOptional, hget]

theorem Holds.getMap (h : Holds entries fields) (hmem : (key, record fields') ∈ fields)
    (hd : (fields'.map Prod.fst).Nodup) (what : String) :
    ∃ entries', Val.getMap entries key what = .ok entries' ∧ Holds entries' fields' := by
  obtain ⟨val', hget, hext⟩ := h _ hmem
  obtain ⟨entries', rfl, hholds⟩ := hext.holds hd
  refine ⟨entries', ?_, hholds⟩
  simp [Val.getMap, hget, asMap]

/-! ## Numbers -/

/-- A number in one of the encodings the readers take. -/
structure Numeral where
  val : Val
  value : ℤ
  reads : val.i128Like = some value

/-- A number as the keeper itself encodes it. -/
def Numeral.ofI128 (v : ℤ) (h : Fits v) : Numeral := ⟨i128ToScval v, v, i128Like_i128ToScval h⟩

/-- A number as a `U32`. -/
def Numeral.ofU32 (n : UInt32) : Numeral := ⟨.u32 n, n.toNat, rfl⟩

theorem Numeral.isLeaf (n : Numeral) : n.val.IsLeaf := by
  have hreads := n.reads
  cases hval : n.val with
  | vec items => rw [hval] at hreads; exact nomatch hreads
  | map entries => rw [hval] at hreads; exact nomatch hreads
  | _ => trivial

/-- A field of a number. -/
def Numeral.field (field : String × Numeral) : String × Val := (field.1, field.2.val)

theorem Holds.getI128 {n : Numeral} (h : Holds entries fields) (hmem : (key, n.val) ∈ fields) :
    Val.getI128 entries key = .ok n.value :=
  h.getAs hmem n.isLeaf n.reads

theorem Holds.numerals (h : Holds entries fields) (numerals : List (String × Numeral))
    (hsub : numerals.map Numeral.field ⊆ fields) :
    ∀ field ∈ numerals, Val.getI128 entries field.1 = .ok field.2.value :=
  fun field hfield => h.getI128 (hsub (List.mem_map.mpr ⟨field, hfield, rfl⟩))

end Val

/-! ## Addresses -/

section Addresses

variable (codec : TextCodec)

/-- The address of `address_to_scval`. -/
def scAddressOf (address : Address) : Read ScAddress :=
  match addressToScval codec address with
  | .ok (.address a) => .ok a
  | .ok val => .error (.typeMismatch "Address" val.typeName)
  | .error e => .error (.key e)

/-- `address_to_scval`. -/
def addressVal (address : Address) : Read Val := return .address (← scAddressOf codec address)

/-- `build_address_vec_scval`. -/
def addressVecVal (addresses : List Address) : Read Val :=
  return .vec (some (← addresses.mapM (addressVal codec)))

/-- `obligation_key_to_scval`. -/
def obligationKeyVal (key : ObligationKey) : Read Val :=
  match obligationKeyToScval codec key with
  | .ok (.map (some entries)) => .ok (.map (some (entries.map fun entry => (.ofLeaf entry.1, .ofLeaf entry.2))))
  | .ok val => .error (.typeMismatch "Map" val.typeName)
  | .error e => .error (.key e)

variable {codec}

theorem scAddressOf_toText {a : ScAddress} (h : a.IsUser) : scAddressOf codec (codec.toText a) = .ok a := by
  rw [scAddressOf, addressToScval_toText h]

theorem addressVal_toText {a : ScAddress} (h : a.IsUser) :
    addressVal codec (codec.toText a) = .ok (.address a) := by
  rw [addressVal, scAddressOf_toText h]
  rfl

theorem addressVecVal_toText {addresses : List ScAddress} (h : ∀ a ∈ addresses, a.IsUser) :
    addressVecVal codec (addresses.map codec.toText) = .ok (.vec (some (addresses.map Val.address))) := by
  have hitems : (addresses.map codec.toText).mapM (addressVal codec) = .ok (addresses.map Val.address) := by
    refine Traverse.mapM_of_forall₂ ?_
    rw [List.forall₂_map_right_iff]
    exact List.forall₂_same.mpr fun a ha => addressVal_toText (h a ha)
  rw [addressVecVal, hitems]
  rfl

/-- The value of a key. -/
def keyVal (seed : Option ScBytes) (user : ScAddress) : Val :=
  .record [("seed", .ofLeaf (seedVal seed)), ("user", .address user)]

theorem obligationKeyVal_keyOf {seed : Option ScBytes} {user : ScAddress} (h : user.IsUser) :
    obligationKeyVal codec (keyOf codec seed user) = .ok (keyVal seed user) := by
  rw [obligationKeyVal, obligationKeyToScval_keyOf h]
  rfl

end Addresses

end AlulaKeeper
