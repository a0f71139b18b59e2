import Mathlib
import AlulaKeeper.Lib.Hex
import AlulaKeeper.Lib.Base32
import AlulaKeeper.Keeper.Mirror

/-!
# Obligation keys on the wire

The two parsers of an obligation key (`event_decode.rs`, `xdr_codec.rs`), the encoder of one, and the row it
is stored under.

* `ScVal`: contract values, as far as the key codec looks into them.
* `Strkey`, `TextCodec`: the texts of addresses and bytes, a parameter with what the codec relies on.
* `parseObligationKeyFromTopic`, `parseObligationKey`, `obligationKeyToScval`.
* `obligation_keeps_identity`: a key goes through parsers, table and encoder unchanged.
-/

namespace AlulaKeeper

/-! ## Contract values -/

/-- A public key or a contract hash. -/
abbrev Bytes32 := { bytes : List UInt8 // bytes.length = 32 }

/-- `ScAddress`. -/
inductive ScAddress where
  | account (key : Bytes32)
  | contract (hash : Bytes32)
  /-- Muxed accounts, claimable balances and liquidity pools. -/
  | other (text : String)
  deriving DecidableEq

/-- `ScBytes`: at most `u32::MAX` bytes. -/
abbrev ScBytes := { bytes : List UInt8 // bytes.length ≤ 4294967295 }

/-- `ScVal`; the types the key codec never looks into are one constructor with their type name. -/
inductive ScVal where
  | void
  | bytes (bytes : ScBytes)
  | symbol (symbol : String)
  | address (address : ScAddress)
  | map (entries : Option (List (ScVal × ScVal)))
  | other (typeName : String)

/-- `scval_type_name`. -/
def ScVal.typeName : ScVal → String
  | .void => "Void"
  | .bytes _ => "Bytes"
  | .symbol _ => "Symbol"
  | .address _ => "Address"
  | .map _ => "Map"
  | .other typeName => typeName

/-- The text of an address (`G…` and `C…` strkeys), and its two readers. -/
structure Strkey where
  /-- `ScAddress::to_string`. -/
  toText : ScAddress → String
  /-- `ed25519::PublicKey::from_string`. -/
  accountFromString : String → Option Bytes32
  /-- `Contract::from_string`. -/
  contractFromString : String → Option Bytes32
  account_text : ∀ key, (toText (.account key)).toList.head? = some 'G'
  account_inv : ∀ key, accountFromString (toText (.account key)) = some key
  contract_text : ∀ hash, (toText (.contract hash)).toList.head? = some 'C'
  contract_inv : ∀ hash, contractFromString (toText (.contract hash)) = some hash

/-- The texts of addresses and of bytes. -/
structure TextCodec extends Strkey where
  hex : Hex

/-! ## The codec -/

/-- What the codec refuses. -/
inductive CodecError where
  | typeMismatch (expected found : String)
  | missingField (field : String)
  | expectedAddress (field : String)
  | topicOutOfRange (index : ℕ)
  | invalidXdr
  | topicNotMap (index : ℕ)
  | missingUser
  | invalidHex
  /-- More bytes than `ScBytes` holds. -/
  | invalidSeed
  | invalidAccount (address : String)
  | invalidContract (address : String)
  | unknownAddressFormat (address : String)
  deriving DecidableEq, Repr

section Codec

variable (codec : TextCodec)

/-- `scval_as_map`. -/
def scvalAsMap : ScVal → Except CodecError (List (ScVal × ScVal))
  | .map (some entries) => .ok entries
  | val => .error (.typeMismatch "Map" val.typeName)

/-- `map_get`: the value of the first entry under the symbol. -/
def mapGet (entries : List (ScVal × ScVal)) (key : String) : Option ScVal :=
  entries.findSome? fun entry =>
    match entry.1 with
    | .symbol symbol => if symbol = key then some entry.2 else none
    | _ => none

/-- `map_get_address`. -/
def mapGetAddress (entries : List (ScVal × ScVal)) (key : String) : Except CodecError String :=
  match mapGet entries key with
  | some (.address address) => .ok (codec.toText address)
  | some _ => .error (.expectedAddress key)
  | none => .error (.missingField key)

/-- `parse_obligation_key`: the first entries; a seed of an unexpected type counts as none. -/
def parseObligationKey (val : ScVal) : Except CodecError ObligationKey := do
  let entries ← scvalAsMap val
  let user ← mapGetAddress codec entries "user"
  let seed := match mapGet entries "seed" with
    | some (.bytes bytes) => some (codec.hex.encode bytes.1)
    | _ => none
  return { user, seed }

/-- One entry of the loop of `parse_obligation_key_from_topic`: later entries overwrite earlier ones, and
those of an unexpected type are passed over. -/
def readKeyEntry (acc : Option String × Option String) (entry : ScVal × ScVal) :
    Option String × Option String :=
  match entry with
  | (.symbol "user", .address address) => (some (codec.toText address), acc.2)
  | (.symbol "seed", .bytes bytes) => (acc.1, some (codec.hex.encode bytes.1))
  | _ => acc

/-- `parse_obligation_key_from_topic`; a topic is `none` where its XDR does not decode. -/
def parseObligationKeyFromTopic (topics : List (Option ScVal)) (index : ℕ) :
    Except CodecError ObligationKey :=
  match topics[index]? with
  | none => .error (.topicOutOfRange index)
  | some none => .error .invalidXdr
  | some (some (.map (some entries))) =>
    let (user, seed) := entries.foldl (readKeyEntry codec) (none, none)
    match user with
    | none => .error .missingUser
    | some user => .ok { user, seed }
  | some (some _) => .error (.topicNotMap index)

/-- `address_to_scval`. -/
def addressToScval (address : String) : Except CodecError ScVal :=
  if address.toList.head? = some 'G' then
    match codec.accountFromString address with
    | some key => .ok (.address (.account key))
    | none => .error (.invalidAccount address)
  else if address.toList.head? = some 'C' then
    match codec.contractFromString address with
    | some hash => .ok (.address (.contract hash))
    | none => .error (.invalidContract address)
  else .error (.unknownAddressFormat address)

/-- The seed of `obligation_key_to_scval`. -/
def seedToScval : Option String → Except CodecError ScVal
  | some hexSeed =>
    match codec.hex.decode hexSeed with
    | none => .error .invalidHex
    | some bytes =>
      if h : bytes.length ≤ 4294967295 then .ok (.bytes ⟨bytes, h⟩) else .error .invalidSeed
  | none => .ok .void

/-- `obligation_key_to_scval`. -/
def obligationKeyToScval (key : ObligationKey) : Except CodecError ScVal := do
  let seedVal ← seedToScval codec key.seed
  let userVal ← addressToScval codec key.user
  return .map (some [(.symbol "seed", seedVal), (.symbol "user", userVal)])

end Codec

/-! ## The table -/

/-- A call that changes the obligations table. -/
inductive RepoCall where
  | put (market : Address) (key : ObligationKey) (obligation : Obligation)
  | delete (market : Address) (key : ObligationKey)

namespace RepoCall

/-- The market and key a call is made with. -/
def target : RepoCall → Address × ObligationKey
  | .put market key _ => (market, key)
  | .delete market key => (market, key)

/-- The table after a call. -/
def run (repo : ObligationsRepo) : RepoCall → ObligationsRepo
  | .put market key obligation => repo.put market key obligation
  | .delete market key => repo.delete market key

end RepoCall

section Table

variable {market : Address} {key : ObligationKey} {repo : ObligationsRepo} {call : RepoCall}
  {calls : List RepoCall}

theorem loadAll_run_of_ne (hwf : call.target.2.WellFormed) (hne : call.target ≠ (market, key)) :
    (call.run repo).loadAll market key = repo.loadAll market key := by
  have hother : ¬ (market = call.target.1 ∧ key = call.target.2) := fun h =>
    hne (Prod.ext h.1.symm h.2.symm)
  cases call with
  | put market' key' obligation =>
    exact (ObligationsRepo.loadAll_update repo hwf (some obligation)).trans (if_neg hother)
  | delete market' key' =>
    exact (ObligationsRepo.loadAll_update repo hwf none).trans (if_neg hother)

theorem loadAll_calls (hwf : ∀ call ∈ calls, call.target.2.WellFormed)
    (hne : ∀ call ∈ calls, call.target ≠ (market, key)) :
    (calls.foldl RepoCall.run repo).loadAll market key = repo.loadAll market key := by
  induction calls generalizing repo with
  | nil => rfl
  | cons call calls ih =>
    obtain ⟨hwf, hwfs⟩ := List.forall_mem_cons.mp hwf
    obtain ⟨hne, hnes⟩ := List.forall_mem_cons.mp hne
    rw [List.foldl_cons, ih hwfs hnes]
    exact loadAll_run_of_ne hwf hne

theorem loadAll_put (hwf : key.WellFormed) (obligation : Obligation) :
    (repo.put market key obligation).loadAll market key = some obligation :=
  (ObligationsRepo.loadAll_update repo hwf (some obligation)).trans (if_pos ⟨rfl, rfl⟩)

end Table

/-! ## Identity -/

section Identity

variable (codec : TextCodec)

/-- The seed entry of a key. -/
def seedVal : Option ScBytes → ScVal
  | some bytes => .bytes bytes
  | none => .void

/-- The topic value of a key: its seed and its user, in that order. -/
def keyTopic (seed : Option ScBytes) (user : ScAddress) : ScVal :=
  .map (some [(.symbol "seed", seedVal seed), (.symbol "user", .address user)])

/-- The key of a topic value. -/
def keyOf (seed : Option ScBytes) (user : ScAddress) : ObligationKey where
  user := codec.toText user
  seed := seed.map fun bytes => codec.hex.encode bytes.1

/-- An account or a contract. -/
def ScAddress.IsUser : ScAddress → Prop
  | .account _ | .contract _ => True
  | .other _ => False

variable {codec} {seed : Option ScBytes} {user : ScAddress}

theorem parseObligationKey_keyTopic :
    parseObligationKey codec (keyTopic seed user) = .ok (keyOf codec seed user) := by
  cases seed <;> rfl

theorem parseObligationKeyFromTopic_keyTopic {topics : List (Option ScVal)} {index : ℕ}
    (h : topics[index]? = some (some (keyTopic seed user))) :
    parseObligationKeyFromTopic codec topics index = .ok (keyOf codec seed user) := by
  rw [parseObligationKeyFromTopic, h]
  cases seed <;> rfl

theorem keyOf_wellFormed (hseed : ∀ bytes ∈ seed, bytes.1 ≠ []) :
    (keyOf codec seed user).WellFormed := by
  cases seed with
  | none => simp [keyOf, ObligationKey.WellFormed]
  | some bytes =>
    have hne : codec.hex.encode bytes.1 ≠ "" := fun h => hseed bytes rfl (Hex.encode_eq_empty_iff.mp h)
    simp [keyOf, ObligationKey.WellFormed, hne]

theorem seedToScval_keyOf : seedToScval codec (keyOf codec seed user).seed = .ok (seedVal seed) := by
  cases seed with
  | none => rfl
  | some bytes =>
    have hdecode := codec.hex.decode_encode bytes.1
    simp only [keyOf, Option.map_some, seedToScval, hdecode, dif_pos bytes.2]
    rfl

theorem addressToScval_toText (huser : user.IsUser) :
    addressToScval codec (codec.toText user) = .ok (.address user) := by
  cases user with
  | account key =>
    rw [addressToScval, if_pos (codec.account_text key), codec.account_inv]
  | contract hash =>
    have hne : (codec.toText (.contract hash)).toList.head? ≠ some 'G' := by
      rw [codec.contract_text]
      decide
    rw [addressToScval, if_neg hne, if_pos (codec.contract_text hash), codec.contract_inv]
  | other text => exact absurd huser id

theorem obligationKeyToScval_keyOf (huser : user.IsUser) :
    obligationKeyToScval codec (keyOf codec seed user) = .ok (keyTopic seed user) := by
  rw [obligationKeyToScval, seedToScval_keyOf]
  change (do
    let userVal ← addressToScval codec (codec.toText user)
    return ScVal.map (some [(.symbol "seed", seedVal seed), (.symbol "user", userVal)])) = _
  rw [addressToScval_toText huser]
  rfl

/-- **An obligation keeps its identity from event to transaction.** Both parsers read the same key from a
topic value, the table keeps a row of its own under it, and it is encoded as the value it was read from. -/
theorem obligation_keeps_identity (codec : TextCodec) (seed : Option ScBytes) (user : ScAddress)
    (huser : user.IsUser) (hseed : ∀ bytes ∈ seed, bytes.1 ≠ []) :
    ∃ key, parseObligationKey codec (keyTopic seed user) = .ok key ∧
      (∀ topics index, topics[index]? = some (some (keyTopic seed user)) →
        parseObligationKeyFromTopic codec topics index = .ok key) ∧
      (∀ (market : Address) (repo : ObligationsRepo) (obligation : Obligation)
        (before after : List RepoCall),
        (∀ call ∈ after, call.target ≠ (market, key) ∧ call.target.2.WellFormed) →
        (after.foldl RepoCall.run ((before.foldl RepoCall.run repo).put market key obligation)).loadAll
          market key = some obligation) ∧
      (∀ (market : Address) (key' : ObligationKey), key'.WellFormed → key' ≠ key →
        key'.row market ≠ key.row market) ∧
      obligationKeyToScval codec key = .ok (keyTopic seed user) := by
  have hwf : (keyOf codec seed user).WellFormed := keyOf_wellFormed hseed
  refine ⟨keyOf codec seed user, parseObligationKey_keyTopic, ?_, ?_, ?_,
    obligationKeyToScval_keyOf huser⟩
  · intro topics index h
    exact parseObligationKeyFromTopic_keyTopic h
  · intro market repo obligation before after hafter
    rw [loadAll_calls (fun call hc => (hafter call hc).2) fun call hc => (hafter call hc).1]
    exact loadAll_put hwf obligation
  · intro market key' hwf' hne hrow
    exact hne ((ObligationKey.row_inj hwf hwf').mp hrow).2

end Identity

/-! ## Strkeys -/

/-- CRC-16 with the polynomial `0x1021`, one byte. -/
def crc16Step (crc : UInt16) (byte : UInt8) : UInt16 :=
  (List.range 8).foldl (fun crc _ =>
    if crc &&& 0x8000 = 0 then crc <<< 1 else (crc <<< 1) ^^^ 0x1021) (crc ^^^ (byte.toUInt16 <<< 8))

/-- The two bytes of the checksum, the low one first. -/
def checksum (bytes : List UInt8) : List UInt8 :=
  let crc := bytes.foldl crc16Step 0
  [crc.toUInt8, (crc >>> 8).toUInt8]

/-- A version byte, a payload and their checksum, in Base32. -/
def strkeyText (version : UInt8) (payload : Bytes32) : String :=
  let body := version :: payload.1
  Base32.encode (body ++ checksum body)

/-- The payload of a strkey of a version. -/
def strkeyPayload (version : UInt8) (text : String) : Option Bytes32 :=
  match Base32.decode text with
  | some (v :: rest) =>
    if h : (rest.take 32).length = 32 then
      if v = version ∧ rest.drop 32 = checksum (v :: rest.take 32) then some ⟨rest.take 32, h⟩ else none
    else none
  | _ => none

theorem strkeyPayload_strkeyText (version : UInt8) (payload : Bytes32) :
    strkeyPayload version (strkeyText version payload) = some payload := by
  obtain ⟨bytes, hbytes⟩ := payload
  have hlen : (version :: bytes ++ checksum (version :: bytes)).length = 5 * 7 := by
    simp [checksum, hbytes]
  have htake : (bytes ++ checksum (version :: bytes)).take 32 = bytes := List.take_left' hbytes
  have hdrop : (bytes ++ checksum (version :: bytes)).drop 32 = checksum (version :: bytes) :=
    List.drop_left' hbytes
  rw [strkeyPayload, strkeyText, Base32.decode_encode hlen]
  simp only [List.cons_append, htake, hdrop, hbytes, true_and, if_true, dif_pos]

theorem strkeyText_head (version : UInt8) (payload : Bytes32) :
    (strkeyText version payload).toList.head? =
      some (Base32.digit (Fin.ofNat 32 (version.toNat / 8))) := by
  obtain ⟨bytes, hbytes⟩ := payload
  match bytes, hbytes with
  | a :: b :: c :: d :: rest, _ =>
    have hdigit : Base32.digitAt (Base32.ofBytes version a b c d) 7 =
        Fin.ofNat 32 (version.toNat / 8) := by
      have ha := a.toNat_lt
      have hb := b.toNat_lt
      have hc := c.toNat_lt
      have hd := d.toNat_lt
      have hn : Base32.ofBytes version a b c d / 32 ^ 7 = version.toNat / 8 := by
        unfold Base32.ofBytes
        omega
      rw [Base32.digitAt, hn]
    rw [← hdigit, strkeyText, Base32.encode, String.toList_ofList]
    rfl

/-- The text of an address: a strkey of version 48 for an account, of version 16 for a contract. -/
def addressText : ScAddress → String
  | .account key => strkeyText 48 key
  | .contract hash => strkeyText 16 hash
  | .other text => text

theorem addressText_account_head (key : Bytes32) :
    (addressText (.account key)).toList.head? = some 'G' := strkeyText_head 48 key

theorem strkeyPayload_account (key : Bytes32) : strkeyPayload 48 (addressText (.account key)) = some key :=
  strkeyPayload_strkeyText 48 key

theorem addressText_contract_head (hash : Bytes32) :
    (addressText (.contract hash)).toList.head? = some 'C' := strkeyText_head 16 hash

theorem strkeyPayload_contract (hash : Bytes32) :
    strkeyPayload 16 (addressText (.contract hash)) = some hash :=
  strkeyPayload_strkeyText 16 hash

/-- Strkeys of accounts and contracts. -/
def Strkey.stellar : Strkey where
  toText := addressText
  accountFromString := strkeyPayload 48
  contractFromString := strkeyPayload 16
  account_text := addressText_account_head
  account_inv := strkeyPayload_account
  contract_text := addressText_contract_head
  contract_inv := strkeyPayload_contract

/-- Strkeys, and lower-case hexadecimal. -/
def TextCodec.stellar : TextCodec := { Strkey.stellar with hex := Hex.lowerCase }

/-- Thirty-two zero bytes. -/
def zeroKey : Bytes32 := ⟨List.replicate 32 0, by simp⟩

/-- Thirty-one zero bytes and a one. -/
def oneKey : Bytes32 := ⟨List.replicate 31 0 ++ [1], by simp⟩

example : TextCodec.stellar.toText (.account zeroKey) =
    "GAAAAAAAAAAAAAAAAAAAAAAAAAAAAAAAAAAAAAAAAAAAAAAAAAAAAWHF" := by decide +kernel

/-- The zero account with the seed `0x2a`. -/
theorem zero_account_keeps_identity :
    ∃ key, parseObligationKey TextCodec.stellar
        (keyTopic (some ⟨[0x2a], by decide⟩) (.account zeroKey)) = .ok key ∧
      obligationKeyToScval TextCodec.stellar key =
        .ok (keyTopic (some ⟨[0x2a], by decide⟩) (.account zeroKey)) := by
  obtain ⟨key, hparse, -, -, -, hencode⟩ := obligation_keeps_identity TextCodec.stellar
    (some ⟨[0x2a], by decide⟩) (.account zeroKey) trivial (by simp)
  exact ⟨key, hparse, hencode⟩

end AlulaKeeper
