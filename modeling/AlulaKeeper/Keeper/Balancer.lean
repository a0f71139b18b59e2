import Mathlib
import AlulaKeeper.Keeper.Plan

/-!
# The balancer's route

`strategy/balancer.rs`: a candidate asset is swapped into the target asset at the provider that admits the
most of it. A provider is probed with the whole swappable balance, then with half of it, and so on, until the
price impact is within the cap.

* `computeSwapPriceImpact`, `probeProvider`: one provider's admitted probe.
* `bestRoute`: the fold over the providers, `evaluateRebalancableCandidate`: the swap.
* `probeProvider_spec`: an admitted probe is the first halving within the cap.
* `foldl_takeRoute`: the route is the first of the largest amounts in.
* `bestRoute_undominated_iff`: when no other route pays out more for the same amount in.
-/

namespace AlulaKeeper

open I128

/-- `BalancerConfig`, as far as routing reads it. -/
structure BalancerConfig where
  xlmAddress : Address
  xlmSafetyMargin : ℤ
  maxPriceImpactBps : ℤ
  allowedSwapSlippageBps : ℤ
  swapProviders : List Address
  maxSwapProviderProbes : ℕ
  minSwapAmountValueCents : ℤ
  deriving DecidableEq, Repr

/-- `AssetInfo`. -/
structure AssetInfo where
  decimals : ℕ
  oraclePrice : ℤ
  oracleDecimals : ℕ
  deriving DecidableEq, Repr

/-- An `anyhow` error of the balancer. -/
inductive BalancerError where
  /-- `try_get_balance` failed. -/
  | balance
  /-- `get_amount_out` failed. -/
  | amountOut
  /-- The gateway did not build the swap. -/
  | request
  deriving DecidableEq, Repr

/-- A result of the Balancer, an error or an abort. -/
abbrev Evaluation (α : Type) := Except (Fault BalancerError) α

/-- `SwapPriceImpact`. -/
structure SwapPriceImpact where
  bps : ℤ
  executionPriceScaled : ℤ
  deriving DecidableEq, Repr

/-- What a provider is admitted with: `amount_in`, `amount_out`, `realised_price_scaled`. -/
structure Probe where
  amountIn : ℤ
  amountOut : ℤ
  realisedPriceScaled : ℤ
  deriving DecidableEq, Repr

/-- `swap_exact_tokens_request` of a provider, reserved under `opId`. -/
structure SwapRequest where
  provider : Address
  amountIn : ℤ
  minAmountOut : ℤ
  path : List Address
  opId : ℕ
  deriving DecidableEq, Repr

/-- `compute_swap_price_impact`. -/
def computeSwapPriceImpact (oraclePrice amountIn amountOut : ℤ)
    (amountInDecimals amountOutDecimals oraclePriceDecimals : ℕ) : Option SwapPriceImpact :=
  if amountIn ≤ 0 ∨ oraclePrice ≤ 0 then none
  else do
    let scale ← checkedPow10 oraclePriceDecimals
    let correction ← checkedPow10 (Nat.dist amountInDecimals amountOutDecimals)
    let scaledOut ← checkedMul amountOut scale
    let numerator ← if amountInDecimals ≥ amountOutDecimals then checkedMul scaledOut correction
      else some scaledOut
    let denominator ← if amountInDecimals ≥ amountOutDecimals then some amountIn
      else checkedMul amountIn correction
    let executionPriceScaled ← checkedDiv numerator denominator
    let priceDiff ← checkedSub oraclePrice executionPriceScaled
    let bps ← checkedDiv (← checkedMul priceDiff bpsFactor) oraclePrice
    return { bps, executionPriceScaled }

/-- `compute_value_cents`; the decimals are added as `u32`. -/
def computeValueCents (tokenAmount : ℤ) (info : AssetInfo) : Evaluation ℤ :=
  if info.oraclePrice ≤ 0 then pure 0
  else
    let denomPow := info.decimals + info.oracleDecimals
    if 2 ^ 32 ≤ denomPow then .error .abort
    else if denomPow < 2 then pure 0
    else do
      let denom ← rawPow10 (denomPow - 2)
      return max (← rawDiv (saturatingMul tokenAmount info.oraclePrice) denom) 0

section Routes

variable (config : BalancerConfig) (reader : LedgerReader) (assetIndex : Address → Option AssetInfo)

/-- The loop of `probe_provider`: `probes` are left, `amountIn` is next. -/
def probeFrom (provider assetIn assetOut : Address) (oraclePrice : ℤ)
    (inDecimals outDecimals oracleDecimals : ℕ) : ℕ → ℤ → Except BalancerError (Option Probe)
  | 0, _ => .ok none
  | probes + 1, amountIn =>
    match reader.amountOut amountIn assetIn assetOut provider with
    | none => .error .amountOut
    | some amountOut =>
      match computeSwapPriceImpact oraclePrice amountIn amountOut inDecimals outDecimals oracleDecimals with
      | none => .ok none
      | some impact =>
        if impact.bps ≤ config.maxPriceImpactBps then
          .ok (some ⟨amountIn, amountOut, impact.executionPriceScaled⟩)
        else
          probeFrom provider assetIn assetOut oraclePrice inDecimals outDecimals oracleDecimals probes
            (amountIn.tdiv 2)

/-- `probe_provider`. -/
def probeProvider (provider assetIn assetOut : Address) (oraclePrice : ℤ) (oracleDecimals : ℕ)
    (swappableBalance : ℤ) : Except BalancerError (Option Probe) :=
  match assetIndex assetIn, assetIndex assetOut with
  | some inInfo, some outInfo =>
    probeFrom config reader provider assetIn assetOut oraclePrice inInfo.decimals outInfo.decimals
      oracleDecimals config.maxSwapProviderProbes swappableBalance
  | _, _ => .ok none

/-- One provider of the loop of `evaluate_rebalancable_candidate`. -/
def takeRoute (probe : Address → Except BalancerError (Option Probe)) (best : Option (Address × Probe))
    (provider : Address) : Option (Address × Probe) :=
  match probe provider with
  | .ok (some route) =>
    match best with
    | none => some (provider, route)
    | some (bestProvider, bestProbe) =>
      if route.amountIn > bestProbe.amountIn then some (provider, route)
      else some (bestProvider, bestProbe)
  | _ => best

/-- The route of `evaluate_rebalancable_candidate`. -/
def bestRoute (candidate target : Address) (oraclePrice : ℤ) (oracleDecimals : ℕ)
    (swappableBalance : ℤ) : Option (Address × Probe) :=
  config.swapProviders.foldl (takeRoute fun provider =>
    probeProvider config reader assetIndex provider candidate target oraclePrice oracleDecimals
      swappableBalance) none

/-- The balance less what is held back of the native asset. -/
def swappableBalance (candidate : Address) (rawBalance : ℤ) : ℤ :=
  if candidate = config.xlmAddress then saturatingSub rawBalance config.xlmSafetyMargin else rawBalance

/-- `evaluate_rebalancable_candidate`; `builds` says whether the gateway builds the request, `reserve` is the
capital's answer for an amount, a balance and a token. -/
def evaluateRebalancableCandidate (builds : Address → ℤ → ℤ → List Address → Bool)
    (reserve : ℤ → ℤ → Address → Option ℕ) (target candidate : Address) (oracleDecimals : ℕ)
    (targetOraclePrice candidateOraclePrice : ℤ) : Evaluation (Option SwapRequest) :=
  match reader.balance candidate with
  | none => .error (.err .balance)
  | some rawBalance => do
    let swappableBalance := swappableBalance config candidate rawBalance
    if ¬ swappableBalance > 0 then
      return none
    if targetOraclePrice ≤ 0 then
      return none
    let oracleScale ← rawPow10 oracleDecimals
    let candidateQuotedInTarget ← rawDiv (← rawMul candidateOraclePrice oracleScale) targetOraclePrice
    match bestRoute config reader assetIndex candidate target candidateQuotedInTarget oracleDecimals
        swappableBalance with
    | none => return none
    | some (provider, route) =>
      match assetIndex candidate with
      | none => .error .abort
      | some info =>
        if (← computeValueCents route.amountIn info) < config.minSwapAmountValueCents then
          return none
        let keptBps ← rawSub bpsFactor config.allowedSwapSlippageBps
        let minAmountOut ← rawDiv (saturatingMul route.amountOut keptBps) bpsFactor
        let path := [candidate, target]
        if ¬ builds provider route.amountIn minAmountOut path then
          .error (.err .request)
        else
          match reserve route.amountIn swappableBalance candidate with
          | none => return none
          | some opId => return some { provider, amountIn := route.amountIn, minAmountOut, path, opId }

/-! ## One provider's probe -/

/-- `route` is one of the halvings `provider` is probed with, and its price impact is within the cap. -/
def AdmittedProbe (provider assetIn assetOut : Address) (oraclePrice : ℤ) (oracleDecimals : ℕ)
    (swappableBalance : ℤ) (route : Probe) : Prop :=
  ∃ inInfo outInfo impact, assetIndex assetIn = some inInfo ∧ assetIndex assetOut = some outInfo ∧
    (∃ halvings < config.maxSwapProviderProbes,
      route.amountIn = (fun amount : ℤ => amount.tdiv 2)^[halvings] swappableBalance) ∧
    reader.amountOut route.amountIn assetIn assetOut provider = some route.amountOut ∧
    computeSwapPriceImpact oraclePrice route.amountIn route.amountOut inInfo.decimals outInfo.decimals
      oracleDecimals = some impact ∧
    impact.bps ≤ config.maxPriceImpactBps ∧ route.realisedPriceScaled = impact.executionPriceScaled

variable {config reader assetIndex} {provider assetIn assetOut candidate target : Address}
  {oraclePrice balance amountIn : ℤ} {inDecimals outDecimals oracleDecimals probes : ℕ} {route : Probe}

theorem probeFrom_spec
    (h : probeFrom config reader provider assetIn assetOut oraclePrice inDecimals outDecimals oracleDecimals
      probes amountIn = .ok (some route)) :
    ∃ impact, (∃ halvings < probes,
        route.amountIn = (fun amount : ℤ => amount.tdiv 2)^[halvings] amountIn) ∧
      reader.amountOut route.amountIn assetIn assetOut provider = some route.amountOut ∧
      computeSwapPriceImpact oraclePrice route.amountIn route.amountOut inDecimals outDecimals
        oracleDecimals = some impact ∧
      impact.bps ≤ config.maxPriceImpactBps ∧ route.realisedPriceScaled = impact.executionPriceScaled := by
  induction probes generalizing amountIn with
  | zero => cases h
  | succ probes ih =>
    rw [probeFrom] at h
    split at h
    · cases h
    rename_i amountOut hout
    split at h
    · cases h
    rename_i impact himpact
    split_ifs at h with hadmitted
    · cases h
      exact ⟨impact, ⟨0, Nat.succ_pos _, rfl⟩, hout, himpact, hadmitted, rfl⟩
    · -- over the cap: the rest of the loop starts from half the amount
      obtain ⟨impact, ⟨halvings, hlt, hamount⟩, hrest⟩ := ih h
      exact ⟨impact, ⟨halvings + 1, Nat.succ_lt_succ hlt, hamount⟩, hrest⟩

/-- **An admitted probe** is a halving of the balance within the cap. -/
theorem probeProvider_spec
    (h : probeProvider config reader assetIndex provider assetIn assetOut oraclePrice oracleDecimals balance =
      .ok (some route)) :
    AdmittedProbe config reader assetIndex provider assetIn assetOut oraclePrice oracleDecimals balance
      route := by
  unfold probeProvider at h
  split at h
  · rename_i inInfo outInfo hin hout
    obtain ⟨impact, hrest⟩ := probeFrom_spec h
    exact ⟨inInfo, outInfo, impact, hin, hout, hrest⟩
  · cases h

/-! ## The route -/

section Fold

variable {probe : Address → Except BalancerError (Option Probe)} {providers : List Address}

variable (probe providers) in
/-- `provider` is the first of the listed ones to be admitted with the largest amount in, by `route`. -/
def FirstLargest (provider : Address) (route : Probe) : Prop :=
  ∃ before after, providers = before ++ provider :: after ∧ probe provider = .ok (some route) ∧
    (∀ p ∈ before, ∀ r, probe p = .ok (some r) → r.amountIn < route.amountIn) ∧
    ∀ p ∈ after, ∀ r, probe p = .ok (some r) → r.amountIn ≤ route.amountIn

variable (probe providers) in
/-- No listed provider is admitted with the amount in of `route` for more out. -/
def Undominated (route : Probe) : Prop :=
  ∀ p ∈ providers, ∀ r, probe p = .ok (some r) → r.amountIn = route.amountIn → r.amountOut ≤ route.amountOut

theorem FirstLargest.mem (h : FirstLargest probe providers provider route) : provider ∈ providers := by
  obtain ⟨before, after, rfl, -⟩ := h
  exact List.mem_append_right before List.mem_cons_self

theorem FirstLargest.probe_eq (h : FirstLargest probe providers provider route) :
    probe provider = .ok (some route) := by
  obtain ⟨_, _, -, hroute, -⟩ := h
  exact hroute

theorem FirstLargest.amountIn_le (h : FirstLargest probe providers provider route) {p : Address} {r : Probe}
    (hp : p ∈ providers) (hr : probe p = .ok (some r)) : r.amountIn ≤ route.amountIn := by
  obtain ⟨before, after, rfl, hroute, hbefore, hafter⟩ := h
  obtain hp | hp := List.mem_append.mp hp
  · exact (hbefore p hp r hr).le
  obtain rfl | hp := List.mem_cons.mp hp
  · rw [Option.some.inj (Except.ok.inj (hr.symm.trans hroute))]
  · exact hafter p hp r hr

theorem FirstLargest.unique {provider' : Address} {route' : Probe}
    (h : FirstLargest probe providers provider route)
    (h' : FirstLargest probe providers provider' route') : route = route' := by
  obtain ⟨before, after, hsplit, hroute, hbefore, -⟩ := id h
  obtain ⟨before', after', hsplit', hroute', hbefore', -⟩ := id h'
  have hle := h.amountIn_le h'.mem hroute'
  have hle' := h'.amountIn_le h.mem hroute
  have hsame : provider = provider' → route = route' := by
    rintro rfl
    exact Option.some.inj (Except.ok.inj (hroute.symm.trans hroute'))
  -- one split is at or before the other, and neither provider stands before the other
  obtain ⟨middle, hmiddle, hrest⟩ | ⟨middle, hmiddle, hrest⟩ :=
    List.append_eq_append_iff.mp (hsplit.symm.trans hsplit')
  · cases middle with
    | nil => exact hsame (List.cons.inj hrest).1
    | cons p middle =>
      have hp : provider ∈ before' := by
        rw [hmiddle, (List.cons.inj hrest).1]
        exact List.mem_append_right before List.mem_cons_self
      exact absurd (hbefore' provider hp route hroute) hle.not_gt
  · cases middle with
    | nil => exact hsame (List.cons.inj hrest).1.symm
    | cons p middle =>
      have hp : provider' ∈ before := by
        rw [hmiddle, (List.cons.inj hrest).1]
        exact List.mem_append_right before' List.mem_cons_self
      exact absurd (hbefore provider' hp route' hroute') hle'.not_gt

/-- A further provider that is not admitted with more leaves the first where it is. -/
theorem FirstLargest.concat {x : Address} (h : FirstLargest probe providers provider route)
    (hx : ∀ r, probe x = .ok (some r) → r.amountIn ≤ route.amountIn) :
    FirstLargest probe (providers ++ [x]) provider route := by
  obtain ⟨before, after, rfl, hroute, hbefore, hafter⟩ := h
  refine ⟨before, after ++ [x], by simp, hroute, hbefore, fun p hp r hr => ?_⟩
  obtain hp | hp := List.mem_append.mp hp
  · exact hafter p hp r hr
  · obtain rfl := List.mem_singleton.mp hp
    exact hx r hr

theorem FirstLargest.of_last (hroute : probe provider = .ok (some route))
    (h : ∀ p ∈ providers, ∀ r, probe p = .ok (some r) → r.amountIn < route.amountIn) :
    FirstLargest probe (providers ++ [provider]) provider route :=
  ⟨providers, [], rfl, hroute, h, fun _ hp => (List.not_mem_nil hp).elim⟩

/-- **The route of the fold** is the first of the largest amounts in. -/
theorem foldl_takeRoute (probe : Address → Except BalancerError (Option Probe)) (providers : List Address) :
    (providers.foldl (takeRoute probe) none = none ∧ ∀ p ∈ providers, ∀ r, probe p ≠ .ok (some r)) ∨
      ∃ provider route, providers.foldl (takeRoute probe) none = some (provider, route) ∧
        FirstLargest probe providers provider route := by
  induction providers using List.reverseRecOn with
  | nil => exact .inl ⟨rfl, fun _ hp => (List.not_mem_nil hp).elim⟩
  | append_singleton providers x ih =>
    rw [List.foldl_concat]
    by_cases hx : ∃ r, probe x = .ok (some r)
    · obtain ⟨r, hx⟩ := hx
      refine .inr ?_
      obtain ⟨hnone, hno⟩ | ⟨provider, route, hbest, hfirst⟩ := ih
      · exact ⟨x, r, by simp only [hnone, takeRoute, hx],
          .of_last hx fun p hp r' hr' => absurd hr' (hno p hp r')⟩
      · by_cases hlt : route.amountIn < r.amountIn
        · exact ⟨x, r, by simp only [hbest, takeRoute, hx, gt_iff_lt, if_pos hlt],
            .of_last hx fun p hp r' hr' => (hfirst.amountIn_le hp hr').trans_lt hlt⟩
        · refine ⟨provider, route, by simp only [hbest, takeRoute, hx, gt_iff_lt, if_neg hlt],
            hfirst.concat fun r' hr' => ?_⟩
          rw [Option.some.inj (Except.ok.inj (hr'.symm.trans hx))]
          exact not_lt.mp hlt
    · push Not at hx
      have hskip : ∀ best, takeRoute probe best x = best := by
        intro best
        unfold takeRoute
        split
        · rename_i r hr
          exact absurd hr (hx r)
        · rfl
      rw [hskip]
      obtain ⟨hnone, hno⟩ | ⟨provider, route, hbest, hfirst⟩ := ih
      · refine .inl ⟨hnone, fun p hp => ?_⟩
        obtain hp | hp := List.mem_append.mp hp
        · exact hno p hp
        · obtain rfl := List.mem_singleton.mp hp
          exact hx
      · exact .inr ⟨provider, route, hbest, hfirst.concat fun r' hr' => absurd hr' (hx r')⟩

end Fold

variable (config reader assetIndex) in
/-- Every provider's probe, as the candidate's evaluation asks for it. -/
def routeProbe (candidate target : Address) (oraclePrice : ℤ) (oracleDecimals : ℕ) (balance : ℤ)
    (provider : Address) : Except BalancerError (Option Probe) :=
  probeProvider config reader assetIndex provider candidate target oraclePrice oracleDecimals balance

/-- A provider's probe does not read the list of providers. -/
theorem routeProbe_with_providers (providers : List Address) :
    routeProbe { config with swapProviders := providers } reader assetIndex candidate target oraclePrice
        oracleDecimals balance provider =
      routeProbe config reader assetIndex candidate target oraclePrice oracleDecimals balance provider := by
  have hfrom : ∀ inDecimals outDecimals probes amountIn,
      probeFrom { config with swapProviders := providers } reader provider candidate target oraclePrice
          inDecimals outDecimals oracleDecimals probes amountIn =
        probeFrom config reader provider candidate target oraclePrice inDecimals outDecimals oracleDecimals
          probes amountIn := by
    intro inDecimals outDecimals probes
    induction probes with
    | zero => intro _; rfl
    | succ probes ih =>
      intro amountIn
      simp only [probeFrom, ih]
  unfold routeProbe probeProvider
  simp only [hfrom]

theorem bestRoute_firstLargest
    (h : bestRoute config reader assetIndex candidate target oraclePrice oracleDecimals balance =
      some (provider, route)) :
    FirstLargest (routeProbe config reader assetIndex candidate target oraclePrice oracleDecimals balance)
      config.swapProviders provider route := by
  obtain ⟨hnone, -⟩ | ⟨provider', route', hbest, hfirst⟩ := foldl_takeRoute
    (routeProbe config reader assetIndex candidate target oraclePrice oracleDecimals balance)
    config.swapProviders
  · cases h.symm.trans hnone
  · cases h.symm.trans hbest
    exact hfirst

variable (config reader assetIndex) in
/-- The first provider to be admitted with the largest amount in also pays out the most for it. -/
def FirstPaysMost (candidate target : Address) (oraclePrice : ℤ) (oracleDecimals : ℕ) (balance : ℤ) : Prop :=
  ∀ provider route, FirstLargest (routeProbe config reader assetIndex candidate target oraclePrice
      oracleDecimals balance) config.swapProviders provider route →
    Undominated (routeProbe config reader assetIndex candidate target oraclePrice oracleDecimals balance)
      config.swapProviders route

/-- **When the route is not dominated.** The route is an admitted probe of a provider and its amount in is
the largest admitted. No provider pays out more for that amount exactly when the first provider to be
admitted with the largest amount in pays out the most for it; adding providers then never lowers the amount
out for the same amount in. -/
theorem bestRoute_undominated_iff (config : BalancerConfig) (reader : LedgerReader)
    (assetIndex : Address → Option AssetInfo) (candidate target : Address) (oraclePrice : ℤ)
    (oracleDecimals : ℕ) (balance : ℤ) (provider : Address) (route : Probe)
    (h : bestRoute config reader assetIndex candidate target oraclePrice oracleDecimals balance =
      some (provider, route)) :
    (provider ∈ config.swapProviders ∧ AdmittedProbe config reader assetIndex provider candidate target
        oraclePrice oracleDecimals balance route) ∧
      (∀ p ∈ config.swapProviders, ∀ r, probeProvider config reader assetIndex p candidate target oraclePrice
        oracleDecimals balance = .ok (some r) → r.amountIn ≤ route.amountIn) ∧
      ((∀ p ∈ config.swapProviders, ∀ r, probeProvider config reader assetIndex p candidate target oraclePrice
          oracleDecimals balance = .ok (some r) → r.amountIn = route.amountIn →
          r.amountOut ≤ route.amountOut) ↔
        FirstPaysMost config reader assetIndex candidate target oraclePrice oracleDecimals balance) ∧
      (∀ providers, config.swapProviders ⊆ providers →
        FirstPaysMost { config with swapProviders := providers } reader assetIndex candidate target
          oraclePrice oracleDecimals balance →
        ∀ p r, bestRoute { config with swapProviders := providers } reader assetIndex candidate target
          oraclePrice oracleDecimals balance = some (p, r) → r.amountIn = route.amountIn →
          route.amountOut ≤ r.amountOut) := by
  have hfirst := bestRoute_firstLargest h
  have hroute : routeProbe config reader assetIndex candidate target oraclePrice oracleDecimals balance
      provider = .ok (some route) := hfirst.probe_eq
  refine ⟨⟨hfirst.mem, probeProvider_spec hroute⟩, fun p hp r hr => hfirst.amountIn_le hp hr, ⟨?_, ?_⟩, ?_⟩
  · intro hundominated provider' route' hfirst'
    obtain rfl := hfirst.unique hfirst'
    exact hundominated
  · exact fun hmost => hmost provider route hfirst
  · intro providers hsub hmost p r hr hsame
    refine hmost p r (bestRoute_firstLargest hr) provider (hsub hfirst.mem) route ?_ hsame.symm
    rw [routeProbe_with_providers, hroute]

/-! ## The swap -/

/-- **A dispatched swap** asks the route's provider for its amount in, less the slippage out. -/
theorem evaluateRebalancableCandidate_swap {builds : Address → ℤ → ℤ → List Address → Bool}
    {reserve : ℤ → ℤ → Address → Option ℕ} {targetOraclePrice candidateOraclePrice : ℤ} {swap : SwapRequest}
    (h : evaluateRebalancableCandidate config reader assetIndex builds reserve target candidate oracleDecimals
      targetOraclePrice candidateOraclePrice = .ok (some swap)) :
    ∃ rawBalance oraclePrice route, reader.balance candidate = some rawBalance ∧
      0 < swappableBalance config candidate rawBalance ∧
      bestRoute config reader assetIndex candidate target oraclePrice oracleDecimals
        (swappableBalance config candidate rawBalance) = some (swap.provider, route) ∧
      swap.amountIn = route.amountIn ∧
      swap.minAmountOut =
        (saturatingMul route.amountOut (bpsFactor - config.allowedSwapSlippageBps)).tdiv bpsFactor := by
  unfold evaluateRebalancableCandidate at h
  split at h
  · cases h
  rename_i rawBalance hbalance
  dsimp only at h
  split_ifs at h with hpos hprice
  · cases h
  · obtain ⟨scale, -, h⟩ := bind_eq_ok.mp h
    obtain ⟨product, -, h⟩ := bind_eq_ok.mp h
    obtain ⟨oraclePrice, -, h⟩ := bind_eq_ok.mp h
    split at h
    · cases h
    rename_i provider route hroute
    split at h
    · cases h
    obtain ⟨cents, -, h⟩ := bind_eq_ok.mp h
    split_ifs at h
    · cases h
    obtain ⟨_, hkept, h⟩ := bind_eq_ok.mp h
    obtain ⟨-, rfl⟩ := rawSub_eq_ok.mp hkept
    obtain ⟨minAmountOut, hmin, h⟩ := bind_eq_ok.mp h
    rw [rawDiv_of_pos (show Fits (saturatingMul _ _) from fits_clamp _) (by decide), Except.ok.injEq] at hmin
    split_ifs at h
    split at h
    · cases h
    · cases h
      exact ⟨rawBalance, oraclePrice, route, hbalance, hpos, hroute, rfl, hmin.symm⟩
  · cases h

theorem iterate_halve_le {amount : ℤ} (h : 0 ≤ amount) (n : ℕ) :
    (fun a : ℤ => a.tdiv 2)^[n] amount ≤ amount := by
  induction n generalizing amount with
  | zero => exact le_rfl
  | succ n ih =>
    rw [Function.iterate_succ_apply]
    have hhalf : 0 ≤ amount.tdiv 2 ∧ amount.tdiv 2 ≤ amount := by
      rw [Int.tdiv_eq_ediv_of_nonneg h]
      omega
    exact (ih hhalf.1).trans hhalf.2

theorem swap_within_balance {builds : Address → ℤ → ℤ → List Address → Bool}
    {reserve : ℤ → ℤ → Address → Option ℕ} {targetOraclePrice candidateOraclePrice : ℤ} {swap : SwapRequest}
    (h : evaluateRebalancableCandidate config reader assetIndex builds reserve target candidate oracleDecimals
      targetOraclePrice candidateOraclePrice = .ok (some swap)) :
    ∃ rawBalance, reader.balance candidate = some rawBalance ∧
      0 < swap.amountIn ∧ swap.amountIn ≤ swappableBalance config candidate rawBalance := by
  obtain ⟨rawBalance, oraclePrice, route, hbalance, hpos, hroute, hamount, -⟩ :=
    evaluateRebalancableCandidate_swap h
  obtain ⟨inInfo, outInfo, impact, -, -, ⟨halvings, -, hhalved⟩, -, himpact, -⟩ :=
    probeProvider_spec (bestRoute_firstLargest hroute).probe_eq
  refine ⟨rawBalance, hbalance, ?_, ?_⟩
  · rw [hamount]
    by_contra hle
    rw [computeSwapPriceImpact, if_pos (.inl (not_lt.mp hle))] at himpact
    cases himpact
  · rw [hamount, hhalved]
    exact iterate_halve_le hpos.le halvings

end Routes

/-! ## Two providers at the full balance -/

/-- Two providers; both are probed with the whole balance first. -/
def balancerConfig (providers : List Address) : BalancerConfig where
  xlmAddress := "XLM"
  xlmSafetyMargin := 0
  maxPriceImpactBps := 200
  allowedSwapSlippageBps := 50
  swapProviders := providers
  maxSwapProviderProbes := 5
  minSwapAmountValueCents := 100

/-- 100 GOLD at $1. `DEAR` pays 1% under the oracle, `FAIR` pays the oracle's price. -/
def routeReader : LedgerReader where
  balance _ := some 1000000000
  amountOut amount _ _ provider := some (if provider = "DEAR" then amount * 99 / 100 else amount)
  amountIn amount _ _ _ := some amount

/-- Every asset has seven decimals and costs $1. -/
def routeIndex (_ : Address) : Option AssetInfo := some { decimals := 7, oraclePrice := usd, oracleDecimals := 14 }

/-- With the fair provider first, the first to be admitted pays out the most, and no longer list of
providers of which that holds pays out less. -/
theorem fair_provider_first :
    ("FAIR" ∈ (balancerConfig ["FAIR", "DEAR"]).swapProviders ∧
      AdmittedProbe (balancerConfig ["FAIR", "DEAR"]) routeReader routeIndex "FAIR" "GOLD" "USDC" usd 14
        1000000000 ⟨1000000000, 1000000000, usd⟩) ∧
      (∀ p ∈ ["FAIR", "DEAR"], ∀ r, probeProvider (balancerConfig ["FAIR", "DEAR"]) routeReader routeIndex p
        "GOLD" "USDC" usd 14 1000000000 = .ok (some r) → r.amountIn ≤ 1000000000) ∧
      FirstPaysMost (balancerConfig ["FAIR", "DEAR"]) routeReader routeIndex "GOLD" "USDC" usd 14
        1000000000 ∧
      ∀ providers, ["FAIR", "DEAR"] ⊆ providers →
        FirstPaysMost (balancerConfig providers) routeReader routeIndex "GOLD" "USDC" usd 14 1000000000 →
        ∀ p r, bestRoute (balancerConfig providers) routeReader routeIndex "GOLD" "USDC" usd 14 1000000000 =
          some (p, r) → r.amountIn = 1000000000 → 1000000000 ≤ r.amountOut := by
  obtain ⟨hadmitted, hlargest, hmost, hlonger⟩ :=
    bestRoute_undominated_iff (balancerConfig ["FAIR", "DEAR"]) routeReader routeIndex "GOLD" "USDC" usd 14
      1000000000 "FAIR" ⟨1000000000, 1000000000, usd⟩ (by decide +kernel)
  refine ⟨hadmitted, hlargest, hmost.mp fun p hp r hr _ => ?_, hlonger⟩
  have hdear : probeProvider (balancerConfig ["FAIR", "DEAR"]) routeReader routeIndex "DEAR" "GOLD" "USDC"
      usd 14 1000000000 = .ok (some ⟨1000000000, 990000000, 99000000000000⟩) := by decide +kernel
  have hfair : probeProvider (balancerConfig ["FAIR", "DEAR"]) routeReader routeIndex "FAIR" "GOLD" "USDC"
      usd 14 1000000000 = .ok (some ⟨1000000000, 1000000000, usd⟩) := by decide +kernel
  rcases List.mem_pair.mp hp with rfl | rfl
  · cases hr.symm.trans hfair
    exact le_rfl
  · cases hr.symm.trans hdear
    decide

/-- **A dominated route is taken.** Both providers admit the whole balance; the first listed is taken and pays
99 where the second pays 100. Listing it before the fair one lowers the amount out. -/
theorem dear_provider_first :
    bestRoute (balancerConfig ["DEAR", "FAIR"]) routeReader routeIndex "GOLD" "USDC" usd 14 1000000000 =
        some ("DEAR", ⟨1000000000, 990000000, 99000000000000⟩) ∧
      probeProvider (balancerConfig ["DEAR", "FAIR"]) routeReader routeIndex "FAIR" "GOLD" "USDC" usd 14
        1000000000 = .ok (some ⟨1000000000, 1000000000, usd⟩) ∧
      bestRoute (balancerConfig ["FAIR"]) routeReader routeIndex "GOLD" "USDC" usd 14 1000000000 =
        some ("FAIR", ⟨1000000000, 1000000000, usd⟩) ∧
      evaluateRebalancableCandidate (balancerConfig ["DEAR", "FAIR"]) routeReader routeIndex
          (fun _ _ _ _ => true) (fun _ _ _ => some 1) "USDC" "GOLD" 14 usd usd =
        .ok (some ⟨"DEAR", 1000000000, 985050000, ["GOLD", "USDC"], 1⟩) := by
  decide +kernel

end AlulaKeeper
