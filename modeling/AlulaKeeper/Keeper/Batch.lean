import Mathlib
import AlulaKeeper.Lib.Transfers
import AlulaKeeper.Lending.SafeWithdrawal
import AlulaKeeper.Keeper.FlashWithdrawal
import AlulaKeeper.Keeper.Funding
import AlulaKeeper.Stellar.Requests

/-!
# The batch of a plan

`build_batch_requests` and the reservation of `execute_liquidation_plan` (`strategy/liquidator.rs`).

* `buildBatchRequests`: the requests as they are sent; `LiquidationPlan.requests`: what they ask for.
* `batch_carries_the_plan`: what is sent is read as what the plan asks for, in its order.
* `LiquidationPlan.reservation`: what is reserved of the wallet.
* `MarketContract`, `MarketContract.Honours`: the market contract, a parameter, and what is relied on of it.
* `reservation_covers_batch`: a wallet that holds the reservation pays the whole batch, and loses no more.
-/

namespace AlulaKeeper

open I128 Transfers

/-! ## Building -/

/-- `build_batch_requests`. Tokens stand under their pools' addresses. -/
def buildBatchRequests (codec : TextCodec) (plan : LiquidationPlan) : Option (List Val) :=
  let liquidateRequest := (buildLiquidateRequestScval codec plan.borrowerKey plan.borrowPoolAddress
    plan.collateralPoolAddress plan.repayAmount plan.expectedSeizedCollateral).toOption
  match plan.liquidationType with
  | .flash flashRepayAmount swapProvider immediateWithdrawAmount => do
    let flashReq ← (buildFlashBorrowRequestScval codec plan.borrowPoolAddress plan.repayAmount).toOption
    let liquidateReq ← liquidateRequest
    let requests := [flashReq, liquidateReq]
    let requests ←
      if immediateWithdrawAmount > 0 then do
        let withdrawReq ← (buildWithdrawRequestScval codec plan.collateralPoolAddress
          immediateWithdrawAmount).toOption
        pure (requests ++ [withdrawReq])
      else pure requests
    let swapReq ← (buildSwapExactTokensRequestScval codec swapProvider
      [plan.collateralPoolAddress, plan.borrowPoolAddress] plan.expectedSeizedCollateral
      flashRepayAmount).toOption
    return requests ++ [swapReq]
  | .preSwap swapProvider minAmountOut sourceAmountIn sourceAsset => do
    let preswapReq ← (buildSwapExactTokensRequestScval codec swapProvider
      [sourceAsset, plan.borrowPoolAddress] sourceAmountIn minAmountOut).toOption
    let liquidateReq ← liquidateRequest
    return [preswapReq, liquidateReq]
  | .direct => do
    let liquidateReq ← liquidateRequest
    return [liquidateReq]

namespace LiquidationPlan

variable (plan : LiquidationPlan)

/-- The plan's `Liquidate` request. -/
def liquidation : Request :=
  .liquidate plan.borrowerKey plan.borrowPoolAddress plan.collateralPoolAddress plan.repayAmount
    plan.expectedSeizedCollateral

/-- What the plan asks the market for. -/
def requests : List Request :=
  match plan.liquidationType with
  | .flash flashRepayAmount swapProvider immediateWithdrawAmount =>
    [.flashBorrow plan.borrowPoolAddress plan.repayAmount, plan.liquidation] ++
      (if immediateWithdrawAmount > 0 then
        [.withdraw plan.collateralPoolAddress immediateWithdrawAmount] else []) ++
      [.swapExactTokens swapProvider [plan.collateralPoolAddress, plan.borrowPoolAddress]
        plan.expectedSeizedCollateral flashRepayAmount]
  | .preSwap swapProvider minAmountOut sourceAmountIn sourceAsset =>
    [.swapExactTokens swapProvider [sourceAsset, plan.borrowPoolAddress] sourceAmountIn minAmountOut,
      plan.liquidation]
  | .direct => [plan.liquidation]

/-- `(reserve_token, reserve_amount)`. -/
def reservation : Address × ℤ :=
  match plan.liquidationType with
  | .direct => (plan.borrowPoolAddress, plan.repayAmount)
  | .preSwap _ _ sourceAmountIn sourceAsset => (sourceAsset, sourceAmountIn)
  | .flash _ _ _ => (plan.borrowPoolAddress, 0)

/-- The reservation, token by token. -/
def reserved (token : Address) : ℤ := if token = plan.reservation.1 then plan.reservation.2 else 0

end LiquidationPlan

section Building

variable {codec : TextCodec} {plan : LiquidationPlan}

theorem toOption_mapM_cons {request : Request} {requests : List Request} :
    ((request :: requests).mapM (Request.build codec)).toOption =
      (request.build codec).toOption.bind fun val =>
        ((requests.mapM (Request.build codec)).toOption).map (val :: ·) := by
  rw [List.mapM_cons]
  cases request.build codec with
  | error e => rfl
  | ok val => cases requests.mapM (Request.build codec) <;> rfl

theorem buildBatchRequests_eq (codec : TextCodec) (plan : LiquidationPlan) :
    buildBatchRequests codec plan = (plan.requests.mapM (Request.build codec)).toOption := by
  have hnil : (([] : List Request).mapM (Request.build codec)).toOption = some [] := rfl
  unfold buildBatchRequests LiquidationPlan.requests LiquidationPlan.liquidation
  cases plan.liquidationType with
  | direct =>
    simp only [toOption_mapM_cons, hnil, Request.build]
    rfl
  | preSwap provider minAmountOut amountIn asset =>
    simp only [toOption_mapM_cons, hnil, Request.build]
    simp [Option.map_bind]
  | flash flashRepay provider withdrawn =>
    by_cases hpos : withdrawn > 0 <;>
      simp only [hpos, if_true, if_false, List.cons_append, List.nil_append, toOption_mapM_cons, hnil,
        Request.build] <;>
      simp [Option.map_bind]

/-- **A batch carries its plan.** Where the plan names accounts, contracts and `i128`s its batch is built, every
value of it is canonical, and a market that reads the values by their names reads the plan's requests, in their
order. -/
theorem batch_carries_the_plan (plan : LiquidationPlan)
    (h : ∀ request ∈ plan.requests, request.Encodable codec) :
    ∃ vals, buildBatchRequests codec plan = some vals ∧ (∀ val ∈ vals, Val.Canonical val) ∧
      ∀ vals', List.Forall₂ Val.Extends vals vals' →
        vals'.mapM (Request.read codec) = .ok plan.requests := by
  have : Nonempty Val := ⟨.void⟩
  choose! sent hbuilt hcanonical hread using
    fun request hrequest => request_round_trip request (h request hrequest)
  have hvals : plan.requests.mapM (Request.build codec) = .ok (plan.requests.map sent) := by
    refine Traverse.mapM_of_forall₂ (List.forall₂_same.mpr fun request hrequest => ?_)
    exact hbuilt request hrequest
  refine ⟨plan.requests.map sent, ?_, fun val hval => ?_, fun vals' hext => ?_⟩
  · rw [buildBatchRequests_eq, hvals]
    rfl
  · obtain ⟨request, hrequest, rfl⟩ := List.mem_map.mp hval
    exact hcanonical request hrequest
  · rw [List.forall₂_map_left_iff] at hext
    have hmem := (List.forall₂_and_left _ _).mpr ⟨fun request hrequest => hrequest, hext⟩
    have hparsed := Traverse.mapM_of_forall₂ (g := id)
      (hmem.imp fun request val' hval => hread request hval.1 val' hval.2)
    rwa [List.map_id] at hparsed

/-- A flash plan of the zero account and the zero contract. -/
def zeroFlashPlan : LiquidationPlan where
  repayAmount := 500000000
  netProfitValue := 242250000000000
  borrowerKey := keyOf TextCodec.stellar (some ⟨[0x2a], by decide⟩) (.account zeroKey)
  borrowPoolAddress := addressText (.contract zeroKey)
  collateralPoolAddress := addressText (.contract zeroKey)
  expectedSeizedCollateral := 524475000
  liquidationType := .flash 500250000 (addressText (.contract zeroKey)) 24475000

theorem batch_carries_flash :
    ∃ vals, buildBatchRequests TextCodec.stellar zeroFlashPlan = some vals ∧ (∀ val ∈ vals, Val.Canonical val) ∧
      ∀ vals', List.Forall₂ Val.Extends vals vals' →
        vals'.mapM (Request.read TextCodec.stellar) = .ok zeroFlashPlan.requests := by
  have htext : IsText TextCodec.stellar (addressText (.contract zeroKey)) := ⟨.contract zeroKey, trivial, rfl⟩
  have hkey : IsKey TextCodec.stellar zeroFlashPlan.borrowerKey := ⟨_, .account zeroKey, trivial, rfl⟩
  refine batch_carries_the_plan zeroFlashPlan ?_
  show ∀ request ∈ [Request.flashBorrow _ _, .liquidate _ _ _ _ _, .withdraw _ _, .swapExactTokens _ _ _ _],
    request.Encodable TextCodec.stellar
  simp only [List.forall_mem_cons]
  refine ⟨⟨htext, by decide⟩, ⟨hkey, htext, htext, by decide, by decide⟩, ⟨htext, by decide⟩,
    ⟨htext, ?_, by decide, by decide⟩, by simp⟩
  simp only [List.forall_mem_cons]
  exact ⟨htext, htext, by simp⟩

end Building

/-! ## Settling -/

/-- The market contract, as the keeper's wallet sees it. -/
structure MarketContract where
  /-- What a request may move in and out of the wallet. -/
  outcome : Request → List (Transfer Address) → Prop
  /-- What a flash loan costs. -/
  loanFee : ℤ → ℤ
  /-- The transfers of a batch that goes through. -/
  settles : List Request → List (Transfer Address) → Prop

/-- What is owed back for the flash loans of a batch. -/
def repayments (fee : ℤ → ℤ) (requests : List Request) : List (Transfer Address) :=
  requests.filterMap fun
    | .flashBorrow pool amount => some ⟨pool, -(amount + fee amount)⟩
    | _ => none

/-- The flash fee, rounded up. -/
def flashFee (bps amount : ℤ) : ℤ := ⌈(amount * bps / 10000 : ℚ)⌉

/-- What `build_batch_requests` relies on, for a borrower with `plain` collateral outside the pool. -/
structure MarketContract.Honours (market : MarketContract) (plain : ℤ) (borrowPool collateralPool : PoolData) :
    Prop where
  /-- Flash loans are repaid at the end of the batch. -/
  batch {requests : List Request} {transfers : List (Transfer Address)}
    (h : market.settles requests transfers) : ∃ parts, List.Forall₂ market.outcome requests parts ∧
      transfers = parts.flatten ++ repayments market.loanFee requests
  fee (amount : ℤ) : market.loanFee amount = flashFee borrowPool.flashLoanFeeBps amount
  flashBorrow {pool : Address} {amount : ℤ} {transfers : List (Transfer Address)}
    (h : market.outcome (.flashBorrow pool amount) transfers) : transfers = [⟨pool, amount⟩]
  /-- The whole repay is taken, the plain part of the seizure lands in the wallet, and what is not repaid is
  given back; the rest of the seizure is credited to the keeper's own obligation. -/
  liquidate {key : ObligationKey} {debtPool seizedPool : Address} {repay minCollateral : ℤ}
    {transfers : List (Transfer Address)}
    (h : market.outcome (.liquidate key debtPool seizedPool repay minCollateral) transfers) :
    ∃ seized repaid, minCollateral ≤ seized ∧ repaid ≤ repay ∧
      transfers = [⟨debtPool, -repay⟩, ⟨seizedPool, min seized plain⟩, ⟨debtPool, repay - repaid⟩]
  /-- No scarcity fee is taken of what leaves the pool within its utilization limit. -/
  withdraw {amount : ℤ} {transfers : List (Transfer Address)}
    (h : market.outcome (.withdraw collateralPool.poolAddress amount) transfers)
    (hsafe : collateralPool.SafeAmount collateralPool.utilizationRatioLimitBps amount) :
    transfers = [⟨collateralPool.poolAddress, amount⟩]
  /-- A swap that delivers less than its minimum reverts the batch. -/
  swapExactTokens {provider assetIn assetOut : Address} {amountIn minAmountOut : ℤ}
    {transfers : List (Transfer Address)}
    (h : market.outcome (.swapExactTokens provider [assetIn, assetOut] amountIn minAmountOut) transfers) :
    ∃ amountOut, minAmountOut ≤ amountOut ∧ transfers = [⟨assetIn, -amountIn⟩, ⟨assetOut, amountOut⟩]

section Settling

variable {config : LiquidatorConfig} {reader : LedgerReader} {target : PlanTarget} {now : ℕ}
  {plan : LiquidationPlan} {market : MarketContract} {plain : ℤ} {borrowPool collateralPool : PoolData}
  {transfers : List (Transfer Address)}

/-- A repay that the wallet holds is paid, and the plain part of the seizure is held after it. -/
theorem pays_liquidation {wallet : Address → ℤ} (debtPool seizedPool : Address) {repay part refund : ℤ}
    (hwallet : ∀ token, 0 ≤ wallet token) (hrepay : repay ≤ wallet debtPool) (hpart : 0 ≤ part)
    (hrefund : 0 ≤ refund) :
    ∃ wallet', pay wallet [⟨debtPool, -repay⟩, ⟨seizedPool, part⟩, ⟨debtPool, refund⟩] = some wallet' ∧
      part ≤ wallet' seizedPool := by
  have hseized := hwallet seizedPool
  obtain ⟨wallet', hpays⟩ :
      ∃ wallet', pay wallet [⟨debtPool, -repay⟩, ⟨seizedPool, part⟩, ⟨debtPool, refund⟩] = some wallet' := by
    refine pays_cons ?_ (pays_cons ?_ (pays_cons ?_ pays_nil)) <;> simp only [move_apply]
    · omega
    · by_cases hsame : seizedPool = debtPool
      · rw [if_pos hsame, hsame]
        omega
      · rw [if_neg hsame]
        omega
    · split_ifs <;> omega
  refine ⟨wallet', hpays, ?_⟩
  rw [pay_eq_add hpays]
  by_cases hsame : seizedPool = debtPool
  · simp only [net, List.map_cons, List.map_nil, List.sum_cons, List.sum_nil, hsame, if_true]
    omega
  · simp only [net, List.map_cons, List.map_nil, List.sum_cons, List.sum_nil, if_neg hsame, if_true]
    omega

/-- A loan is paid back out of the swap of what was seized. -/
theorem pays_loan_back {wallet : Address → ℤ} (debtPool : Address) {seizedPool : Address}
    {seized amountOut owed : ℤ}
    (hwallet : ∀ token, 0 ≤ wallet token) (hseized : seized ≤ wallet seizedPool) (howed : 0 ≤ owed)
    (hout : owed ≤ amountOut) :
    ∃ wallet', pay wallet [⟨seizedPool, -seized⟩, ⟨debtPool, amountOut⟩, ⟨debtPool, -owed⟩] =
      some wallet' := by
  have hdebt := hwallet debtPool
  refine pays_cons ?_ (pays_cons ?_ (pays_cons ?_ pays_nil)) <;> simp only [move_apply, if_true]
  · omega
  -- the two pools may be one
  all_goals
    by_cases hsame : debtPool = seizedPool
    · rw [if_pos hsame, hsame]
      omega
    · rw [if_neg hsame]
      omega

theorem reserved_pays_direct (hmarket : market.Honours plain borrowPool collateralPool)
    (hkind : plan.liquidationType = .direct) (h : market.settles plan.requests transfers)
    (hreserved : ∀ token, 0 ≤ plan.reserved token) (hplain : 0 ≤ plain)
    (hseized : 0 ≤ plan.expectedSeizedCollateral) :
    ∃ wallet, pay plan.reserved transfers = some wallet := by
  obtain ⟨parts, hparts, rfl⟩ := hmarket.batch h
  simp only [LiquidationPlan.requests, hkind, LiquidationPlan.liquidation] at hparts ⊢
  obtain ⟨part, _, hpart, hnil, rfl⟩ := List.forall₂_cons_left_iff.mp hparts
  obtain rfl := List.forall₂_nil_left_iff.mp hnil
  obtain ⟨seized, repaid, hmin, hrepaid, rfl⟩ := hmarket.liquidate hpart
  have hholds : plan.repayAmount ≤ plan.reserved plan.borrowPoolAddress := by
    simp only [LiquidationPlan.reserved, LiquidationPlan.reservation, hkind, if_true, le_refl]
  have hpart : 0 ≤ min seized plain := by omega
  obtain ⟨wallet, hpays, -⟩ := pays_liquidation plan.borrowPoolAddress plan.collateralPoolAddress hreserved
    hholds hpart (sub_nonneg.mpr hrepaid)
  exact ⟨wallet, hpays⟩

theorem reserved_pays_preSwap (hmarket : market.Honours plain borrowPool collateralPool)
    {provider asset : Address} {minAmountOut amountIn : ℤ}
    (hkind : plan.liquidationType = .preSwap provider minAmountOut amountIn asset)
    (h : market.settles plan.requests transfers) (hreserved : ∀ token, 0 ≤ plan.reserved token)
    (hplain : 0 ≤ plain) (hrepay : 0 ≤ plan.repayAmount) (hseized : 0 ≤ plan.expectedSeizedCollateral)
    (hcovers : plan.repayAmount ≤ minAmountOut) :
    ∃ wallet, pay plan.reserved transfers = some wallet := by
  obtain ⟨parts, hparts, rfl⟩ := hmarket.batch h
  simp only [LiquidationPlan.requests, hkind, LiquidationPlan.liquidation] at hparts ⊢
  obtain ⟨swap, _, hswap, hrest, rfl⟩ := List.forall₂_cons_left_iff.mp hparts
  obtain ⟨part, _, hpart, hnil, rfl⟩ := List.forall₂_cons_left_iff.mp hrest
  obtain rfl := List.forall₂_nil_left_iff.mp hnil
  obtain ⟨amountOut, hout, rfl⟩ := hmarket.swapExactTokens hswap
  obtain ⟨seized, repaid, hmin, hrepaid, rfl⟩ := hmarket.liquidate hpart
  -- what is reserved is swapped, and buys the repay
  have hspends : 0 ≤ plan.reserved asset + -amountIn := by
    simp only [LiquidationPlan.reserved, LiquidationPlan.reservation, hkind, if_true]
    omega
  have hborrow := hreserved plan.borrowPoolAddress
  have hbuys : 0 ≤ move plan.reserved ⟨asset, -amountIn⟩ plan.borrowPoolAddress := by
    rw [move_apply]
    by_cases hsame : plan.borrowPoolAddress = asset
    · rw [if_pos hsame, hsame]
      exact hspends
    · rwa [if_neg hsame, add_zero]
  obtain ⟨swapped, hswapped⟩ : ∃ wallet, pay plan.reserved [⟨asset, -amountIn⟩,
      ⟨plan.borrowPoolAddress, amountOut⟩] = some wallet :=
    pays_cons hspends (pays_cons (add_nonneg hbuys ((hrepay.trans hcovers).trans hout)) pays_nil)
  have hholds : plan.repayAmount ≤ swapped plan.borrowPoolAddress := by
    obtain ⟨-, hlast⟩ := pay_cons_eq_some.mp hswapped
    obtain rfl := Option.some.inj (pay_cons_eq_some.mp hlast).2
    rw [move_apply, if_pos rfl]
    exact (hcovers.trans hout).trans (le_add_of_nonneg_left hbuys)
  have hpart : 0 ≤ min seized plain := by omega
  obtain ⟨wallet, hpays, -⟩ := pays_liquidation plan.borrowPoolAddress plan.collateralPoolAddress
    (pay_nonneg hreserved hswapped) hholds hpart (sub_nonneg.mpr hrepaid)
  show ∃ wallet, pay _ ([_, _] ++ [_, _, _]) = some wallet
  exact pays_append hswapped ⟨wallet, hpays⟩

/-- A flash batch, part by part; `extra` is what is withdrawn of the seizure. -/
theorem flash_transfers (hmarket : market.Honours plain borrowPool collateralPool) {provider : Address}
    {flashRepay withdrawn : ℤ} (hkind : plan.liquidationType = .flash flashRepay provider withdrawn)
    (hpool : plan.collateralPoolAddress = collateralPool.poolAddress)
    (h : market.settles plan.requests transfers)
    (hsafe : collateralPool.SafeAmount collateralPool.utilizationRatioLimitBps withdrawn) :
    ∃ seized repaid amountOut extra, plan.expectedSeizedCollateral ≤ seized ∧ repaid ≤ plan.repayAmount ∧
      flashRepay ≤ amountOut ∧
      (extra = [⟨plan.collateralPoolAddress, withdrawn⟩] ∧ 0 < withdrawn ∨ extra = [] ∧ withdrawn ≤ 0) ∧
      transfers = ⟨plan.borrowPoolAddress, plan.repayAmount⟩ ::
        ([⟨plan.borrowPoolAddress, -plan.repayAmount⟩, ⟨plan.collateralPoolAddress, min seized plain⟩,
            ⟨plan.borrowPoolAddress, plan.repayAmount - repaid⟩] ++
          (extra ++ [⟨plan.collateralPoolAddress, -plan.expectedSeizedCollateral⟩,
            ⟨plan.borrowPoolAddress, amountOut⟩,
            ⟨plan.borrowPoolAddress, -(plan.repayAmount + market.loanFee plan.repayAmount)⟩])) := by
  obtain ⟨parts, houtcomes, rfl⟩ := hmarket.batch h
  simp only [LiquidationPlan.requests, hkind, LiquidationPlan.liquidation] at houtcomes ⊢
  by_cases hpos : withdrawn > 0
  · simp only [hpos, if_true, List.cons_append, List.nil_append] at houtcomes ⊢
    obtain ⟨_, _, hborrow, hafter, rfl⟩ := List.forall₂_cons_left_iff.mp houtcomes
    obtain ⟨_, _, hliquidate, hthen, rfl⟩ := List.forall₂_cons_left_iff.mp hafter
    obtain ⟨_, _, hwithdraw, hlast, rfl⟩ := List.forall₂_cons_left_iff.mp hthen
    obtain ⟨_, _, hswap, hnil, rfl⟩ := List.forall₂_cons_left_iff.mp hlast
    obtain rfl := List.forall₂_nil_left_iff.mp hnil
    obtain rfl := hmarket.flashBorrow hborrow
    obtain ⟨seized, repaid, hmin, hrepaid, rfl⟩ := hmarket.liquidate hliquidate
    rw [hpool] at hwithdraw
    obtain rfl := hmarket.withdraw hwithdraw hsafe
    obtain ⟨amountOut, hout, rfl⟩ := hmarket.swapExactTokens hswap
    exact ⟨seized, repaid, amountOut, _, hmin, hrepaid, hout, .inl ⟨rfl, trivial⟩, by rw [hpool]; rfl⟩
  · simp only [hpos, if_false, List.cons_append, List.nil_append] at houtcomes ⊢
    obtain ⟨_, _, hborrow, hafter, rfl⟩ := List.forall₂_cons_left_iff.mp houtcomes
    obtain ⟨_, _, hliquidate, hlast, rfl⟩ := List.forall₂_cons_left_iff.mp hafter
    obtain ⟨_, _, hswap, hnil, rfl⟩ := List.forall₂_cons_left_iff.mp hlast
    obtain rfl := List.forall₂_nil_left_iff.mp hnil
    obtain rfl := hmarket.flashBorrow hborrow
    obtain ⟨seized, repaid, hmin, hrepaid, rfl⟩ := hmarket.liquidate hliquidate
    obtain ⟨amountOut, hout, rfl⟩ := hmarket.swapExactTokens hswap
    exact ⟨seized, repaid, amountOut, [], hmin, hrepaid, hout, .inr ⟨rfl, not_lt.mp hpos⟩, rfl⟩

theorem reserved_pays_flash (hmarket : market.Honours plain borrowPool collateralPool) {provider : Address}
    {flashRepay withdrawn : ℤ} (hkind : plan.liquidationType = .flash flashRepay provider withdrawn)
    (hpool : plan.collateralPoolAddress = collateralPool.poolAddress)
    (h : market.settles plan.requests transfers) (hreserved : ∀ token, 0 ≤ plan.reserved token)
    (hplain : 0 ≤ plain) (hrepay : 0 ≤ plan.repayAmount) (hseized : 0 ≤ plan.expectedSeizedCollateral)
    (hfee : 0 ≤ flashFee borrowPool.flashLoanFeeBps plan.repayAmount)
    (hflash : flashRepay = plan.repayAmount + flashFee borrowPool.flashLoanFeeBps plan.repayAmount)
    (hparts : min plan.expectedSeizedCollateral plain + withdrawn = plan.expectedSeizedCollateral)
    (hsafe : collateralPool.SafeAmount collateralPool.utilizationRatioLimitBps withdrawn) :
    ∃ wallet, pay plan.reserved transfers = some wallet := by
  obtain ⟨seized, repaid, amountOut, extra, hmin, hrepaid, hout, hextra, rfl⟩ :=
    flash_transfers hmarket hkind hpool h hsafe
  rw [← hmarket.fee] at hfee hflash
  have hborrow := hreserved plan.borrowPoolAddress
  -- the loan pays the repay
  have hlent : ∀ token, 0 ≤ move plan.reserved ⟨plan.borrowPoolAddress, plan.repayAmount⟩ token := by
    intro token
    have htoken := hreserved token
    simp only [move_apply]
    split_ifs <;> omega
  have hholds : plan.repayAmount ≤
      move plan.reserved ⟨plan.borrowPoolAddress, plan.repayAmount⟩ plan.borrowPoolAddress := by
    simp only [move_apply, if_true]
    omega
  have hplainPart : 0 ≤ min seized plain := by omega
  obtain ⟨liquidated, hliquidated, hpart⟩ := pays_liquidation plan.borrowPoolAddress
    plan.collateralPoolAddress hlent hholds hplainPart (sub_nonneg.mpr hrepaid)
  have hkept : ∀ token, 0 ≤ liquidated token := pay_nonneg hlent hliquidated
  -- with what is withdrawn, all that was seized is in the wallet
  obtain ⟨withdrew, hwithdrew, hall⟩ : ∃ wallet, pay liquidated extra = some wallet ∧
      plan.expectedSeizedCollateral ≤ wallet plan.collateralPoolAddress := by
    rcases hextra with ⟨rfl, hpos⟩ | ⟨rfl, hneg⟩
    · have hcollateral := hkept plan.collateralPoolAddress
      refine ⟨_, pay_cons_of_nonneg (by simp only; omega), ?_⟩
      simp only [move_apply, if_true]
      omega
    · exact ⟨liquidated, rfl, by omega⟩
  have hback := pays_loan_back plan.borrowPoolAddress (pay_nonneg hkept hwithdrew) hall
    (add_nonneg hrepay hfee) (hflash.symm.trans_le hout)
  exact pays_cons (add_nonneg hborrow hrepay) (pays_append hliquidated (pays_append hwithdrew hback))

theorem build_names (h : buildLiquidationPlanForAssetPoolPair config reader target now = .ok (some plan)) :
    plan.borrowerKey = target.borrowerKey ∧ plan.borrowPoolAddress = target.borrowPool.poolAddress ∧
      plan.collateralPoolAddress = target.collateralPool.poolAddress := by
  obtain ⟨setup, -, hdirect | ⟨repay, -, hflash⟩ | hpreswap⟩ := build_run h
  · obtain ⟨_, -, -, hplan⟩ := directArm_run_iff.mp hdirect
    obtain ⟨_, _, _, _, _, -, -, -, -, -, rfl⟩ := tryDirectPlan_run_iff.mp hplan
    exact ⟨rfl, rfl, rfl⟩
  · obtain ⟨-, _, -, hplan⟩ := flashArm_run hflash
    obtain ⟨_, _, _, _, _, _, _, _, _, _, -, -, -, -, -, -, -, rfl⟩ := tryFlashPlan_run hplan
    exact ⟨rfl, rfl, rfl⟩
  · obtain ⟨_, -, _, -, hstep⟩ := preswapArm_run hpreswap
    obtain ⟨_, _, _, _, -, -, -, hjudge⟩ := preswapStep_plan hstep
    obtain ⟨_, _, _, _, _, _, -, -, -, -, rfl⟩ := preswapJudge_plan hjudge
    exact ⟨rfl, rfl, rfl⟩

theorem flashFee_nonneg {bps amount : ℤ} (hbps : 0 ≤ bps) (hamount : 0 ≤ amount) : 0 ≤ flashFee bps amount := by
  have hprod : (0 : ℚ) ≤ amount * bps := by exact_mod_cast mul_nonneg hamount hbps
  exact Int.ceil_nonneg (div_nonneg hprod (by norm_num))

theorem preswapSwap_nonneg {repay balance amountIn amountOut : ℤ} {asset provider : Address}
    (hslip : 0 ≤ config.maxAllowedSwapSlippageBps) (hbalance : 0 ≤ balance)
    (h : preswapSwap config reader target repay asset balance = .ok (some (provider, amountIn, amountOut))) :
    0 ≤ amountIn := by
  unfold preswapSwap at h
  dsimp only at h
  split at h
  · cases h
  rename_i best maxAmountIn hbase
  obtain ⟨paid, hpaid, h⟩ := bind_eq_ok.mp h
  obtain ⟨-, rfl⟩ := rawAdd_eq_ok.mp hpaid
  obtain ⟨maxIn, hin, h⟩ := bind_eq_ok.mp h
  split_ifs at h
  · cases h
    rw [rawDiv, if_neg (by decide)] at hin
    obtain ⟨-, rfl⟩ := raw_eq_ok.mp hin
    have hpaid : 0 ≤ bpsFactor + config.maxAllowedSwapSlippageBps := add_nonneg (by decide) hslip
    exact Int.tdiv_nonneg (clamp_nonneg (mul_nonneg (bestSwap_pos hbase).le hpaid)) (by decide)
  · split at h
    · cases h
    obtain ⟨kept, -, h⟩ := bind_eq_ok.mp h
    obtain ⟨out, -, h⟩ := bind_eq_ok.mp h
    cases h
    exact hbalance

theorem preswapStep_nonneg {setup : PlanSetup} {maxRepay minAmountOut amountIn : ℤ}
    {asset source provider : Address} (hslip : 0 ≤ config.maxAllowedSwapSlippageBps)
    (h : preswapStep config reader target setup maxRepay asset = .ok (.plan plan))
    (hkind : plan.liquidationType = .preSwap provider minAmountOut amountIn source) : 0 ≤ amountIn := by
  unfold preswapStep at h
  split_ifs at h
  · cases h
  split at h
  · cases h
  dsimp only at h
  split_ifs at h with hpos
  swap
  · cases h
  obtain ⟨swap, hswap, h⟩ := bind_eq_ok.mp h
  cases swap with
  | none => cases h
  | some swap =>
    obtain ⟨provider', amountIn', amountOut⟩ := swap
    obtain ⟨_, _, _, _, _, _, -, -, -, -, rfl⟩ := preswapJudge_plan h
    cases hkind
    exact preswapSwap_nonneg hslip hpos.le hswap

theorem build_preSwap {provider source : Address} {minAmountOut amountIn : ℤ}
    (h : buildLiquidationPlanForAssetPoolPair config reader target now = .ok (some plan))
    (hkind : plan.liquidationType = .preSwap provider minAmountOut amountIn source) :
    ∃ setup maxRepay asset, preswapStep config reader target setup maxRepay asset = .ok (.plan plan) := by
  obtain ⟨setup, -, hdirect | ⟨repay, -, hflash⟩ | hpreswap⟩ := build_run h
  · obtain ⟨_, -, -, hplan⟩ := directArm_run_iff.mp hdirect
    obtain ⟨_, _, _, _, _, -, -, -, -, -, rfl⟩ := tryDirectPlan_run_iff.mp hplan
    cases hkind
  · obtain ⟨-, _, -, hplan⟩ := flashArm_run hflash
    obtain ⟨_, _, _, _, _, _, _, _, _, _, -, -, -, -, -, -, -, rfl⟩ := tryFlashPlan_run hplan
    cases hkind
  · obtain ⟨maxRepay, -, asset, -, hstep⟩ := preswapArm_run hpreswap
    exact ⟨setup, maxRepay, asset, hstep⟩

/-- **The reservation covers the batch.** However the market settles a batch of the planner's, every transfer of
it is paid by a wallet that holds the plan's reservation, and no token loses more than what is reserved of it;
a flash plan's withdrawal must leave the collateral pool within its utilization limit. -/
theorem reservation_covers_batch (config : LiquidatorConfig) (reader : LedgerReader) (target : PlanTarget)
    (now : ℕ) (hslip : 0 ≤ config.maxAllowedSwapSlippageBps ∧ config.maxAllowedSwapSlippageBps ≤ 10000)
    (hreported : Reported target.deposit target.collateralPool) (hfee : 0 ≤ target.borrowPool.flashLoanFeeBps)
    (plan : LiquidationPlan)
    (h : buildLiquidationPlanForAssetPoolPair config reader target now = .ok (some plan))
    (market : MarketContract)
    (hmarket : market.Honours target.deposit.collateral target.borrowPool target.collateralPool)
    (hsafe : ∀ flashRepay provider withdrawn, plan.liquidationType = .flash flashRepay provider withdrawn →
      target.collateralPool.SafeAmount target.collateralPool.utilizationRatioLimitBps withdrawn)
    (transfers : List (Transfer Address)) (hsettles : market.settles plan.requests transfers)
    (wallet : Address → ℤ) (hwallet : ∀ token, plan.reserved token ≤ wallet token) :
    ∃ wallet', pay wallet transfers = some wallet' ∧
      ∀ token, wallet token - plan.reserved token ≤ wallet' token := by
  have hsound : plan.Sound config reader target := by
    obtain ⟨setup, hsetup, hdirect | ⟨flash, hflash, harm⟩ | hpreswap⟩ := build_run h
    · exact directArm_sound hsetup hdirect
    · exact flashArm_sound hslip hreported hsetup hflash harm
    · exact preswapArm_sound hsetup hpreswap
  have hplain := hreported.collateral_nonneg
  have hrepay : 0 ≤ plan.repayAmount := zero_le_one.trans hsound.repay_pos
  have hseized := hsound.seized_pos.le
  have hfunded := hsound.funded
  have hpays : (∀ token, 0 ≤ plan.reserved token) ∧ ∃ wallet', pay plan.reserved transfers = some wallet' := by
    unfold LiquidationPlan.Funded at hfunded
    cases hkind : plan.liquidationType with
    | direct =>
      have hreserved : ∀ token, 0 ≤ plan.reserved token := fun token => by
        simp only [LiquidationPlan.reserved, LiquidationPlan.reservation, hkind]
        split_ifs <;> omega
      exact ⟨hreserved, reserved_pays_direct hmarket hkind hsettles hreserved hplain hseized⟩
    | preSwap provider minAmountOut amountIn asset =>
      rw [hkind] at hfunded
      obtain ⟨raw, -, -, hcovers⟩ := hfunded
      obtain ⟨_, _, _, hstep⟩ := build_preSwap h hkind
      have hin := preswapStep_nonneg hslip.1 hstep hkind
      have hreserved : ∀ token, 0 ≤ plan.reserved token := fun token => by
        simp only [LiquidationPlan.reserved, LiquidationPlan.reservation, hkind]
        split_ifs <;> omega
      exact ⟨hreserved,
        reserved_pays_preSwap hmarket hkind hsettles hreserved hplain hrepay hseized hcovers⟩
    | flash flashRepay provider withdrawn =>
      rw [hkind] at hfunded
      obtain ⟨-, -, hexact, hparts, -⟩ := hfunded
      have hreserved : ∀ token, 0 ≤ plan.reserved token := fun token => by
        simp only [LiquidationPlan.reserved, LiquidationPlan.reservation, hkind, ite_self, le_refl]
      exact ⟨hreserved, reserved_pays_flash hmarket hkind (build_names h).2.2 hsettles hreserved hplain hrepay
        hseized (flashFee_nonneg hfee hrepay) (hexact hfee) hparts (hsafe _ _ _ hkind)⟩
  obtain ⟨hnonneg, _, hpays⟩ := hpays
  exact pay_covered hnonneg hpays hwallet

/-! A market that never takes a scarcity fee. -/

/-- A market with tokens enough pays every request in full. -/
def plentifulOutcome (plain : ℤ) : Request → List (Transfer Address) → Prop
  | .flashBorrow pool amount, transfers => transfers = [⟨pool, amount⟩]
  | .withdraw pool amount, transfers => transfers = [⟨pool, amount⟩]
  | .liquidate _ debtPool seizedPool repay minCollateral, transfers =>
    ∃ seized repaid, minCollateral ≤ seized ∧ repaid ≤ repay ∧
      transfers = [⟨debtPool, -repay⟩, ⟨seizedPool, min seized plain⟩, ⟨debtPool, repay - repaid⟩]
  | .swapExactTokens _ [assetIn, assetOut] amountIn minAmountOut, transfers =>
    ∃ amountOut, minAmountOut ≤ amountOut ∧ transfers = [⟨assetIn, -amountIn⟩, ⟨assetOut, amountOut⟩]
  | _, _ => False

/-- It settles a batch request by request and takes the flash loans back at the end. -/
def plentifulMarket (plain flashFeeBps : ℤ) : MarketContract where
  outcome := plentifulOutcome plain
  loanFee := flashFee flashFeeBps
  settles requests transfers := ∃ parts, List.Forall₂ (plentifulOutcome plain) requests parts ∧
    transfers = parts.flatten ++ repayments (flashFee flashFeeBps) requests

theorem plentifulMarket_honours (plain : ℤ) (borrowPool collateralPool : PoolData) :
    (plentifulMarket plain borrowPool.flashLoanFeeBps).Honours plain borrowPool collateralPool where
  batch h := h
  fee _ := rfl
  flashBorrow h := h
  liquidate h := h
  withdraw h _ := h
  swapExactTokens h := h

/-- $46.67 of flash borrowed debt, repaid for gold of which all is withdrawn, cost an empty wallet nothing. -/
theorem empty_wallet_pays_flash : ∃ transfers wallet,
    (plentifulMarket 0 5).settles
      (withdrawingPlan 466689865 226111230000000 466923210 489534333).requests transfers ∧
      pay (fun _ => 0) transfers = some wallet ∧ ∀ token, 0 ≤ wallet token := by
  let target := lentTarget 1000000000 1050000000 10000000000 8500000000
  let plan := withdrawingPlan 466689865 226111230000000 466923210 489534333
  have hsettles : (plentifulMarket 0 5).settles plan.requests _ :=
    ⟨_, .cons rfl (.cons ⟨489534333, 466689865, le_rfl, le_rfl, rfl⟩ (.cons rfl
      (.cons ⟨466923210, le_rfl, rfl⟩ .nil))), rfl⟩
  have hreported : Reported target.deposit target.collateralPool := ⟨by decide, by decide, by decide, by decide⟩
  have hsafe : ∀ flashRepay provider withdrawn, plan.liquidationType = .flash flashRepay provider withdrawn →
      target.collateralPool.SafeAmount target.collateralPool.utilizationRatioLimitBps withdrawn := by
    rintro _ _ _ ⟨⟩
    exact .inr (by decide)
  have hnothing : ∀ token, plan.reserved token = 0 := fun token => ite_self 0
  obtain ⟨wallet, hpays, hle⟩ := reservation_covers_batch { planConfig with minProfitMarginCents := 100 }
    emptyReader target 0 (by decide) hreported (by decide) plan (by decide +kernel) (plentifulMarket 0 5)
    (plentifulMarket_honours 0 target.borrowPool target.collateralPool) hsafe _ hsettles (fun _ => 0)
    fun token => (hnothing token).le
  refine ⟨_, wallet, hsettles, hpays, fun token => ?_⟩
  have hkept := hle token
  rwa [hnothing, sub_zero] at hkept

end Settling

end AlulaKeeper
