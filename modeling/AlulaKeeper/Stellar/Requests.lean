import Mathlib
import AlulaKeeper.Stellar.Values

/-!
# Requests on the wire

The request and operation builders of `tx_builder.rs`.

* `buildLiquidateRequestScval` and the other builders; `buildBatchOp`, `buildWithdrawOp`,
  `buildIssueCoverBadDebtOp`.
* `Request`, `Request.build`: a request and the value it is sent as.
* `Val.Canonical`: every map is sorted by its names, as the host demands of its arguments.
* `request_round_trip`: what is sent is canonical and reads back, name by name, as the request.
-/

namespace AlulaKeeper

open I128 Val

/-! ## Builders -/

section Builders

variable (codec : TextCodec)

/-- The symbol of a variant and its data. -/
def variantVal (variant : String) (data : List (String × Val)) : Val :=
  .vec (some [.symbol variant, record data])

/-- A request about an amount in a pool. -/
def buildPoolRequestScval (variant : String) (poolAddress : Address) (amount : ℤ) : Read Val := do
  let pool ← addressVal codec poolAddress
  return variantVal variant [("amount", i128ToScval amount), ("pool_address", pool)]

/-- `build_flash_borrow_request_scval`. -/
def buildFlashBorrowRequestScval : Address → ℤ → Read Val := buildPoolRequestScval codec "FlashBorrow"

/-- `build_withdraw_request_scval`. -/
def buildWithdrawRequestScval : Address → ℤ → Read Val := buildPoolRequestScval codec "Withdraw"

/-- `build_liquidate_request_scval`. -/
def buildLiquidateRequestScval (borrowerKey : ObligationKey) (borrowPool collateralPool : Address)
    (repayAmount minCollateral : ℤ) : Read Val := do
  let borrow ← addressVal codec borrowPool
  let key ← obligationKeyVal codec borrowerKey
  let collateral ← addressVal codec collateralPool
  return variantVal "Liquidate"
    [("borrow_pool_address", borrow), ("borrower_obligation_key", key),
      ("collateral_pool_address", collateral), ("min_demanded_collateral_amount", i128ToScval minCollateral),
      ("repay_amount", i128ToScval repayAmount)]

/-- A swap with its two bounds. -/
def buildSwapRequestScval (variant : String) (swapProvider : Address) (path : List Address)
    (first second : String × ℤ) : Read Val := do
  let tokens ← addressVecVal codec path
  let provider ← addressVal codec swapProvider
  return variantVal variant
    [(first.1, i128ToScval first.2), (second.1, i128ToScval second.2), ("path", tokens),
      ("swap_provider", provider)]

/-- `build_swap_exact_tokens_request_scval`. -/
def buildSwapExactTokensRequestScval (swapProvider : Address) (path : List Address)
    (amountIn minAmountOut : ℤ) : Read Val :=
  buildSwapRequestScval codec "SwapExactTokens" swapProvider path
    ("amount_in", amountIn) ("min_amount_out", minAmountOut)

/-- `build_swap_for_exact_tokens_request_scval`. -/
def buildSwapForExactTokensRequestScval (swapProvider : Address) (path : List Address)
    (maxAmountIn amountOut : ℤ) : Read Val :=
  buildSwapRequestScval codec "SwapForExactTokens" swapProvider path
    ("amount_out", amountOut) ("max_amount_in", maxAmountIn)

/-- `InvokeContractArgs`; the operations leave source and auth empty. -/
structure InvokeContractArgs where
  contractAddress : Bytes32
  functionName : String
  args : List Val

/-- `contract_strkey_to_hash`. -/
def contractStrkeyToHash (address : Address) : Read Bytes32 :=
  match codec.contractFromString address with
  | some hash => .ok hash
  | none => .error (.key (.invalidContract address))

/-- `build_withdraw_op`. -/
def buildWithdrawOp (marketAddress : Address) (userKey : ObligationKey) (poolAddress : Address)
    (amount : Underlying) : Read InvokeContractArgs := do
  let contractAddress ← contractStrkeyToHash codec marketAddress
  let key ← obligationKeyVal codec userKey
  let pool ← addressVal codec poolAddress
  return { contractAddress, functionName := "withdraw", args := [key, pool, i128ToScval amount, .void] }

/-- `build_issue_cover_bad_debt_op`. -/
def buildIssueCoverBadDebtOp (marketAddress : Address) (userKey : ObligationKey) :
    Read InvokeContractArgs := do
  let contractAddress ← contractStrkeyToHash codec marketAddress
  let key ← obligationKeyVal codec userKey
  return { contractAddress, functionName := "issue_cover_bad_debt", args := [key] }

/-- `build_batch_op`; there is no referrer. -/
def buildBatchOp (marketAddress : Address) (liquidatorKey : ObligationKey) (requests : List Val) :
    Read InvokeContractArgs := do
  let contractAddress ← contractStrkeyToHash codec marketAddress
  let key ← obligationKeyVal codec liquidatorKey
  return { contractAddress, functionName := "submit_requests_batch", args := [key, .vec (some requests), .void] }

end Builders

/-! ## Requests -/

/-- A request of a batch under the keeper's words. -/
inductive Request where
  | flashBorrow (poolAddress : Address) (amount : ℤ)
  | withdraw (poolAddress : Address) (amount : ℤ)
  | liquidate (borrowerKey : ObligationKey) (borrowPool collateralPool : Address)
      (repayAmount minCollateral : ℤ)
  | swapExactTokens (swapProvider : Address) (path : List Address) (amountIn minAmountOut : ℤ)
  | swapForExactTokens (swapProvider : Address) (path : List Address) (maxAmountIn amountOut : ℤ)
  deriving DecidableEq, Repr

/-- The `OperationBuilder` of the gateway. -/
def Request.build (codec : TextCodec) : Request → Read Val
  | .flashBorrow poolAddress amount => buildFlashBorrowRequestScval codec poolAddress amount
  | .withdraw poolAddress amount => buildWithdrawRequestScval codec poolAddress amount
  | .liquidate borrowerKey borrowPool collateralPool repayAmount minCollateral =>
    buildLiquidateRequestScval codec borrowerKey borrowPool collateralPool repayAmount minCollateral
  | .swapExactTokens swapProvider path amountIn minAmountOut =>
    buildSwapExactTokensRequestScval codec swapProvider path amountIn minAmountOut
  | .swapForExactTokens swapProvider path maxAmountIn amountOut =>
    buildSwapForExactTokensRequestScval codec swapProvider path maxAmountIn amountOut

/-! ## Reading requests -/

section Reading

variable (codec : TextCodec)

/-- `parse_obligation_key`, of a field. -/
def getKey (entries : List (Val × Val)) (key : String) : Read ObligationKey := do
  let map ← getMap entries key key
  let user ← getAddress codec map "user"
  let seed := match get map "seed" with
    | some (.bytes data) => some (codec.hex.encode data.1)
    | _ => none
  return { user, seed }

/-- The addresses in a field. -/
def getAddresses (entries : List (Val × Val)) (key : String) : Read (List Address) :=
  match get entries key with
  | some val => do
    (← val.asVec).mapM fun
      | .address a => .ok (codec.toText a)
      | _ => .error (.expected "Address")
  | none => .error (.missingField key)

/-- The data of a variant, by the names of its fields. -/
def readVariant (variant : String) (data : List (Val × Val)) : Read Request :=
  if variant = "FlashBorrow" then do
    return .flashBorrow (← getAddress codec data "pool_address") (← getI128 data "amount")
  else if variant = "Withdraw" then do
    return .withdraw (← getAddress codec data "pool_address") (← getI128 data "amount")
  else if variant = "Liquidate" then do
    return .liquidate (← getKey codec data "borrower_obligation_key")
      (← getAddress codec data "borrow_pool_address") (← getAddress codec data "collateral_pool_address")
      (← getI128 data "repay_amount") (← getI128 data "min_demanded_collateral_amount")
  else if variant = "SwapExactTokens" then do
    return .swapExactTokens (← getAddress codec data "swap_provider") (← getAddresses codec data "path")
      (← getI128 data "amount_in") (← getI128 data "min_amount_out")
  else if variant = "SwapForExactTokens" then do
    return .swapForExactTokens (← getAddress codec data "swap_provider") (← getAddresses codec data "path")
      (← getI128 data "max_amount_in") (← getI128 data "amount_out")
  else .error (.expected "Request")

/-- What a market reads. -/
def Request.read (val : Val) : Read Request := do
  match ← val.asVec with
  | [.symbol variant, data] => readVariant codec variant (← data.asMap)
  | _ => .error (.expected "Request")

end Reading

/-! ## Canonical values -/

/-- Every map's names ascend, at every depth. -/
inductive Val.Canonical : Val → Prop
  | leaf {val : Val} (h : val.IsLeaf) : Canonical val
  | vec {items : List Val} (h : ∀ item ∈ items, Canonical item) : Canonical (.vec (some items))
  | record {fields : List (String × Val)} (hsorted : (fields.map Prod.fst).Pairwise (· < ·))
      (h : ∀ field ∈ fields, Canonical field.2) : Canonical (.record fields)

theorem Val.Canonical.variantVal {variant : String} {data : List (String × Val)}
    (hsorted : (data.map Prod.fst).Pairwise (· < ·)) (h : ∀ field ∈ data, Canonical field.2) :
    Canonical (AlulaKeeper.variantVal variant data) := by
  refine .vec fun item hitem => ?_
  simp only [List.mem_cons, List.not_mem_nil, or_false] at hitem
  obtain rfl | rfl := hitem
  · exact .leaf trivial
  · exact .record hsorted h

theorem Val.Canonical.keyVal {seed : Option ScBytes} {user : ScAddress} :
    Canonical (AlulaKeeper.keyVal seed user) := by
  refine .record (show List.Pairwise (· < ·) ["seed", "user"] by decide) ?_
  simp only [List.forall_mem_cons]
  refine ⟨.leaf ?_, .leaf trivial, fun _ h => absurd h List.not_mem_nil⟩
  cases seed <;> trivial

/-! ## Round trips -/

section RoundTrip

variable (codec : TextCodec)

/-- The text of an account or a contract. -/
def IsText (address : Address) : Prop := ∃ a : ScAddress, a.IsUser ∧ codec.toText a = address

/-- The key of an account or a contract, and of a seed. -/
def IsKey (key : ObligationKey) : Prop :=
  ∃ (seed : Option ScBytes) (user : ScAddress), user.IsUser ∧ keyOf codec seed user = key

/-- The request names accounts, contracts and `i128`s. -/
def Request.Encodable : Request → Prop
  | .flashBorrow poolAddress amount => IsText codec poolAddress ∧ Fits amount
  | .withdraw poolAddress amount => IsText codec poolAddress ∧ Fits amount
  | .liquidate borrowerKey borrowPool collateralPool repayAmount minCollateral =>
    IsKey codec borrowerKey ∧ IsText codec borrowPool ∧ IsText codec collateralPool ∧ Fits repayAmount ∧
      Fits minCollateral
  | .swapExactTokens swapProvider path amountIn minAmountOut =>
    IsText codec swapProvider ∧ (∀ a ∈ path, IsText codec a) ∧ Fits amountIn ∧ Fits minAmountOut
  | .swapForExactTokens swapProvider path maxAmountIn amountOut =>
    IsText codec swapProvider ∧ (∀ a ∈ path, IsText codec a) ∧ Fits maxAmountIn ∧ Fits amountOut

variable {codec} {entries : List (Val × Val)} {fields : List (String × Val)} {key : String} {val : Val}

theorem Val.Holds.getI128_of_fits {n : ℤ} (h : Holds entries fields) (hmem : (key, i128ToScval n) ∈ fields)
    (hn : Fits n) : Val.getI128 entries key = .ok n :=
  h.getI128 (n := .ofI128 n hn) hmem

theorem Val.Holds.getKey {seed : Option ScBytes} {user : ScAddress} (h : Holds entries fields)
    (hmem : (key, keyVal seed user) ∈ fields) :
    AlulaKeeper.getKey codec entries key = .ok (keyOf codec seed user) := by
  obtain ⟨map, hmap, hholds⟩ := h.getMap hmem (by simp) key
  have huser : Val.getAddress codec map "user" = .ok (codec.toText user) := hholds.getAddress (by simp)
  obtain ⟨val, hseed, hext⟩ := hholds ("seed", .ofLeaf (seedVal seed)) List.mem_cons_self
  obtain rfl := hext.eq_of_leaf (by cases seed <;> trivial)
  rw [AlulaKeeper.getKey, hmap, Read.ok_bind, huser, Read.ok_bind, hseed]
  cases seed <;> rfl

theorem Val.Holds.getAddresses {addresses : List ScAddress} (h : Holds entries fields)
    (hmem : (key, .vec (some (addresses.map Val.address))) ∈ fields) :
    AlulaKeeper.getAddresses codec entries key = .ok (addresses.map codec.toText) := by
  obtain ⟨val, hget, hext⟩ := h _ hmem
  obtain ⟨items, rfl, hitems⟩ := hext.vec_items
  rw [List.forall₂_map_left_iff] at hitems
  simp only at hget
  rw [AlulaKeeper.getAddresses, hget]
  refine Traverse.mapM_of_forall₂ (hitems.imp fun a item hitem => ?_)
  rw [hitem.eq_of_leaf trivial]

theorem Request.read_of_extends {variant : String} {data : List (String × Val)} {request : Request}
    (h : Extends (variantVal variant data) val) (hd : (data.map Prod.fst).Nodup)
    (hread : ∀ entries, Holds entries data → readVariant codec variant entries = .ok request) :
    Request.read codec val = .ok request := by
  obtain ⟨items, rfl, hitems⟩ := h.vec_items
  obtain ⟨symbol, _, hsymbol, hrest, rfl⟩ := List.forall₂_cons_left_iff.mp hitems
  obtain ⟨content, _, hdata, hnil, rfl⟩ := List.forall₂_cons_left_iff.mp hrest
  obtain rfl := List.forall₂_nil_left_iff.mp hnil
  obtain rfl := hsymbol.eq_of_leaf trivial
  obtain ⟨entries, rfl, hholds⟩ := hdata.holds hd
  exact hread entries hholds

theorem exists_texts {addresses : List Address} (h : ∀ a ∈ addresses, IsText codec a) :
    ∃ texts : List ScAddress, (∀ a ∈ texts, a.IsUser) ∧ texts.map codec.toText = addresses := by
  induction addresses with
  | nil => exact ⟨[], by simp, rfl⟩
  | cons address addresses ih =>
    obtain ⟨⟨a, ha, rfl⟩, hrest⟩ := List.forall_mem_cons.mp h
    obtain ⟨texts, htexts, rfl⟩ := ih hrest
    exact ⟨a :: texts, List.forall_mem_cons.mpr ⟨ha, htexts⟩, rfl⟩

/-- What every variant's round trip says. -/
def Carries (codec : TextCodec) (built : Read Val) (request : Request) : Prop :=
  ∃ val, built = .ok val ∧ Canonical val ∧ ∀ val', Extends val val' → Request.read codec val' = .ok request

theorem carries_of_data {built : Read Val} {variant : String} {data : List (String × Val)} {request : Request}
    (hbuilt : built = .ok (variantVal variant data)) (hsorted : (data.map Prod.fst).Pairwise (· < ·))
    (hcanonical : ∀ field ∈ data, Canonical field.2)
    (hread : ∀ entries, Holds entries data → readVariant codec variant entries = .ok request) :
    Carries codec built request :=
  ⟨_, hbuilt, .variantVal hsorted hcanonical, fun _ hext =>
    Request.read_of_extends hext (hsorted.imp fun h => h.ne) hread⟩

theorem carries_poolRequest {variant : String} {pool : ScAddress} {amount : ℤ} {request : Request}
    (hpool : pool.IsUser) (hamount : Fits amount)
    (hread : ∀ entries, Val.getAddress codec entries "pool_address" = .ok (codec.toText pool) →
      Val.getI128 entries "amount" = .ok amount → readVariant codec variant entries = .ok request) :
    Carries codec (buildPoolRequestScval codec variant (codec.toText pool) amount) request := by
  have hbuilt : buildPoolRequestScval codec variant (codec.toText pool) amount =
      .ok (variantVal variant [("amount", i128ToScval amount), ("pool_address", .address pool)]) := by
    rw [buildPoolRequestScval, addressVal_toText hpool]
    rfl
  refine carries_of_data hbuilt (show List.Pairwise (· < ·) ["amount", "pool_address"] by decide) ?_
    fun entries hholds => hread entries (hholds.getAddress (by simp)) (hholds.getI128_of_fits (by simp) hamount)
  simp only [List.forall_mem_cons]
  exact ⟨.leaf trivial, .leaf trivial, fun _ h => absurd h List.not_mem_nil⟩

theorem carries_swapRequest {variant : String} {provider : ScAddress} {path : List ScAddress}
    {first second : String × ℤ} {request : Request} (hprovider : provider.IsUser) (hpath : ∀ a ∈ path, a.IsUser)
    (hfirst : Fits first.2) (hsecond : Fits second.2)
    (hsorted : [first.1, second.1, "path", "swap_provider"].Pairwise (· < ·))
    (hread : ∀ entries, Val.getAddress codec entries "swap_provider" = .ok (codec.toText provider) →
      AlulaKeeper.getAddresses codec entries "path" = .ok (path.map codec.toText) →
      Val.getI128 entries first.1 = .ok first.2 → Val.getI128 entries second.1 = .ok second.2 →
      readVariant codec variant entries = .ok request) :
    Carries codec (buildSwapRequestScval codec variant (codec.toText provider) (path.map codec.toText)
      first second) request := by
  have hbuilt : buildSwapRequestScval codec variant (codec.toText provider) (path.map codec.toText) first
      second = .ok (variantVal variant [(first.1, i128ToScval first.2), (second.1, i128ToScval second.2),
        ("path", .vec (some (path.map Val.address))), ("swap_provider", .address provider)]) := by
    rw [buildSwapRequestScval, addressVecVal_toText hpath, Read.ok_bind, addressVal_toText hprovider]
    rfl
  refine carries_of_data hbuilt hsorted ?_ fun entries hholds =>
    hread entries (hholds.getAddress (by simp)) (hholds.getAddresses (by simp))
      (hholds.getI128_of_fits List.mem_cons_self hfirst)
      (hholds.getI128_of_fits (List.mem_cons_of_mem _ List.mem_cons_self) hsecond)
  simp only [List.forall_mem_cons]
  refine ⟨.leaf trivial, .leaf trivial, .vec fun item hitem => ?_, .leaf trivial,
    fun _ h => absurd h List.not_mem_nil⟩
  obtain ⟨a, -, rfl⟩ := List.mem_map.mp hitem
  exact .leaf trivial

theorem carries_liquidateRequest {seed : Option ScBytes} {user borrowPool collateralPool : ScAddress}
    {repayAmount minCollateral : ℤ} (huser : user.IsUser) (hborrow : borrowPool.IsUser)
    (hcollateral : collateralPool.IsUser) (hrepay : Fits repayAmount) (hmin : Fits minCollateral) :
    Carries codec
      (buildLiquidateRequestScval codec (keyOf codec seed user) (codec.toText borrowPool)
        (codec.toText collateralPool) repayAmount minCollateral)
      (.liquidate (keyOf codec seed user) (codec.toText borrowPool) (codec.toText collateralPool)
        repayAmount minCollateral) := by
  have hbuilt : buildLiquidateRequestScval codec (keyOf codec seed user) (codec.toText borrowPool)
      (codec.toText collateralPool) repayAmount minCollateral =
        .ok (variantVal "Liquidate" [("borrow_pool_address", .address borrowPool),
          ("borrower_obligation_key", keyVal seed user), ("collateral_pool_address", .address collateralPool),
          ("min_demanded_collateral_amount", i128ToScval minCollateral),
          ("repay_amount", i128ToScval repayAmount)]) := by
    rw [buildLiquidateRequestScval, addressVal_toText hborrow, Read.ok_bind, obligationKeyVal_keyOf huser,
      Read.ok_bind, addressVal_toText hcollateral]
    rfl
  refine carries_of_data hbuilt (show List.Pairwise (· < ·) ["borrow_pool_address", "borrower_obligation_key",
    "collateral_pool_address", "min_demanded_collateral_amount", "repay_amount"] by decide) ?_
    fun entries hholds => ?_
  · simp only [List.forall_mem_cons]
    exact ⟨.leaf trivial, .keyVal, .leaf trivial, .leaf trivial, .leaf trivial,
      fun _ h => absurd h List.not_mem_nil⟩
  · have hkey : AlulaKeeper.getKey codec entries "borrower_obligation_key" = .ok (keyOf codec seed user) :=
      hholds.getKey (by simp)
    have hborrowed : Val.getAddress codec entries "borrow_pool_address" = .ok (codec.toText borrowPool) :=
      hholds.getAddress (by simp)
    have hseized : Val.getAddress codec entries "collateral_pool_address" =
        .ok (codec.toText collateralPool) := hholds.getAddress (by simp)
    have hrepaid : Val.getI128 entries "repay_amount" = .ok repayAmount :=
      hholds.getI128_of_fits (by simp) hrepay
    have hdemanded : Val.getI128 entries "min_demanded_collateral_amount" = .ok minCollateral :=
      hholds.getI128_of_fits (by simp) hmin
    rw [readVariant, if_neg (by decide), if_neg (by decide), if_pos rfl, hkey, Read.ok_bind, hborrowed,
      Read.ok_bind, hseized, Read.ok_bind, hrepaid, Read.ok_bind, hdemanded]
    rfl

/-- **What is sent reads back as the request.** Every request that names accounts, contracts and `i128`s is
built, its maps are sorted, and whoever reads the value by its names reads the request. -/
theorem request_round_trip (request : Request) (h : request.Encodable codec) :
    ∃ val, request.build codec = .ok val ∧ Canonical val ∧
      ∀ val', Extends val val' → Request.read codec val' = .ok request := by
  cases request with
  | flashBorrow poolAddress amount =>
    obtain ⟨⟨pool, hpool, rfl⟩, hamount⟩ := h
    refine carries_poolRequest hpool hamount fun entries haddress hread => ?_
    rw [readVariant, if_pos rfl, haddress, Read.ok_bind, hread]
    rfl
  | withdraw poolAddress amount =>
    obtain ⟨⟨pool, hpool, rfl⟩, hamount⟩ := h
    refine carries_poolRequest hpool hamount fun entries haddress hread => ?_
    rw [readVariant, if_neg (by decide), if_pos rfl, haddress, Read.ok_bind, hread]
    rfl
  | liquidate borrowerKey borrowPool collateralPool repayAmount minCollateral =>
    obtain ⟨⟨seed, user, huser, rfl⟩, ⟨borrow, hborrow, rfl⟩, ⟨collateral, hcollateral, rfl⟩, hrepay, hmin⟩ := h
    exact carries_liquidateRequest huser hborrow hcollateral hrepay hmin
  | swapExactTokens swapProvider path amountIn minAmountOut =>
    obtain ⟨⟨provider, hprovider, rfl⟩, hpath, hin, hout⟩ := h
    obtain ⟨tokens, htokens, rfl⟩ := exists_texts hpath
    refine carries_swapRequest hprovider htokens hin hout
      (show List.Pairwise (· < ·) ["amount_in", "min_amount_out", "path", "swap_provider"] by decide)
      fun entries haddress hread hfirst hsecond => ?_
    rw [readVariant, if_neg (by decide), if_neg (by decide), if_neg (by decide), if_pos rfl, haddress,
      Read.ok_bind, hread, Read.ok_bind, hfirst, Read.ok_bind, hsecond]
    rfl
  | swapForExactTokens swapProvider path maxAmountIn amountOut =>
    obtain ⟨⟨provider, hprovider, rfl⟩, hpath, hin, hout⟩ := h
    obtain ⟨tokens, htokens, rfl⟩ := exists_texts hpath
    refine carries_swapRequest hprovider htokens hout hin
      (show List.Pairwise (· < ·) ["amount_out", "max_amount_in", "path", "swap_provider"] by decide)
      fun entries haddress hread hfirst hsecond => ?_
    rw [readVariant, if_neg (by decide), if_neg (by decide), if_neg (by decide), if_neg (by decide), if_pos rfl,
      haddress, Read.ok_bind, hread, Read.ok_bind, hsecond, Read.ok_bind, hfirst]
    rfl

end RoundTrip

/-! ## Two contracts -/

/-- The contract address of `zeroKey`. -/
def usdcText : Address := "CAAAAAAAAAAAAAAAAAAAAAAAAAAAAAAAAAAAAAAAAAAAAAAAAAAABSC4"

/-- The contract address of `oneKey`. -/
def goldText : Address := "CAAAAAAAAAAAAAAAAAAAAAAAAAAAAAAAAAAAAAAAAAAAAAAAAAAAD2KM"

theorem usdcText_eq : addressText (.contract zeroKey) = usdcText := by
  decide +kernel

theorem goldText_eq : addressText (.contract oneKey) = goldText := by
  decide +kernel

end AlulaKeeper
