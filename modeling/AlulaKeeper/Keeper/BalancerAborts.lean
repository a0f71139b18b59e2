import Mathlib
import AlulaKeeper.Lib.Writes
import AlulaKeeper.Keeper.Balancer

/-!
# When the balancer's arithmetic aborts

`compute_swap_price_impact` is checked throughout. The ratio it is fed multiplies a price by a power of ten of
the oracle's decimals unchecked, and `compute_value_cents` raises ten to the sum of the token's and the
oracle's decimals.

* `updateAssetIndex`: the decimals and prices the balancer reads, from the market's pools.
* `Admits`: the provider answers under which a probe is admitted; `bestRoute_eq_none_iff`: there is a route
  when some provider's are.
* `computeValueCents_noAbort_iff`: the cents are computed up to forty decimals.
* `evaluateRebalancableCandidate_noAbort_iff`: exactly when a candidate's evaluation does not abort.
-/

namespace AlulaKeeper

open I128

/-! ## The asset index -/

/-- What `update_asset_index` keeps of a pool. -/
def MarketData.assetInfo (market : MarketData) (pool : PoolData) : AssetInfo where
  decimals := pool.tokenDecimals
  oraclePrice := pool.oracleAssetPrice
  oracleDecimals := market.oraclePriceDecimals

/-- `update_asset_index`: every pool of the market is inserted, in order. -/
def updateAssetIndex (assetIndex : Address → Option AssetInfo) (market : MarketData) :
    Address → Option AssetInfo :=
  Writes.writeAll assetIndex (market.poolsData.map fun pool => (pool.poolAddress, some (market.assetInfo pool)))

theorem updateAssetIndex_of_findPool (assetIndex : Address → Option AssetInfo) {market : MarketData}
    {asset : Address} {pool : PoolData} (h : market.findPool asset = some pool) :
    ∃ pool ∈ market.poolsData, updateAssetIndex assetIndex market asset = some (market.assetInfo pool) := by
  have hwritten : ∃ w ∈ market.poolsData.map fun pool => (pool.poolAddress, some (market.assetInfo pool)),
      w.1 = asset :=
    ⟨_, List.mem_map_of_mem (List.mem_of_find?_eq_some h), MarketData.poolAddress_of_findPool h⟩
  obtain ⟨w, hw, -, hvalue⟩ := Writes.writeAll_of_written (m := assetIndex) hwritten
  obtain ⟨indexed, hindexed, rfl⟩ := List.mem_map.mp hw
  exact ⟨indexed, hindexed, hvalue⟩

/-! ## Admitted providers -/

/-- One of the first `probes` halvings of `balance` is within the cap, and those before it are over it. -/
def AdmitsWithin (impactAt : ℤ → Option SwapPriceImpact) (cap : ℤ) (probes : ℕ) (balance : ℤ) : Prop :=
  ∃ halvings < probes,
    (∀ j < halvings, ∃ impact, impactAt ((fun amount : ℤ => amount.tdiv 2)^[j] balance) = some impact ∧
      cap < impact.bps) ∧
    ∃ impact, impactAt ((fun amount : ℤ => amount.tdiv 2)^[halvings] balance) = some impact ∧
      impact.bps ≤ cap

/-- The balance itself is within the cap, or it is over it and its half is admitted with a probe less. -/
theorem admitsWithin_succ {impactAt : ℤ → Option SwapPriceImpact} {cap balance : ℤ} {probes : ℕ} :
    AdmitsWithin impactAt cap (probes + 1) balance ↔ ∃ impact, impactAt balance = some impact ∧
      (impact.bps ≤ cap ∨ cap < impact.bps ∧ AdmitsWithin impactAt cap probes (balance.tdiv 2)) := by
  unfold AdmitsWithin
  rw [Nat.exists_lt_succ_left]
  simp only [Nat.forall_lt_succ_left, Function.iterate_zero_apply, Function.iterate_succ_apply]
  constructor
  · rintro (⟨-, impact, himpact, hle⟩ | ⟨k, hk, ⟨⟨impact, himpact, hlt⟩, hover⟩, hwithin⟩)
    · exact ⟨impact, himpact, .inl hle⟩
    · exact ⟨impact, himpact, .inr ⟨hlt, k, hk, hover, hwithin⟩⟩
  · rintro ⟨impact, himpact, hle | ⟨hlt, k, hk, hover, hwithin⟩⟩
    · exact .inl ⟨nofun, impact, himpact, hle⟩
    · exact .inr ⟨k, hk, ⟨⟨impact, himpact, hlt⟩, hover⟩, hwithin⟩

/-- The price impact of what the provider quotes for an amount in. -/
def quotedImpact (reader : LedgerReader) (provider assetIn assetOut : Address) (oraclePrice : ℤ)
    (inDecimals outDecimals oracleDecimals : ℕ) (amountIn : ℤ) : Option SwapPriceImpact := do
  let amountOut ← reader.amountOut amountIn assetIn assetOut provider
  computeSwapPriceImpact oraclePrice amountIn amountOut inDecimals outDecimals oracleDecimals

section Probes

variable {config : BalancerConfig} {reader : LedgerReader} {assetIndex : Address → Option AssetInfo}
  {provider candidate target : Address} {oraclePrice balance : ℤ} {inInfo outInfo : AssetInfo}
  {oracleDecimals : ℕ}

theorem probeFrom_admits_iff {inDecimals outDecimals probes : ℕ} :
    (∃ route, probeFrom config reader provider candidate target oraclePrice inDecimals outDecimals
      oracleDecimals probes balance = .ok (some route)) ↔
      AdmitsWithin (quotedImpact reader provider candidate target oraclePrice inDecimals outDecimals
        oracleDecimals) config.maxPriceImpactBps probes balance := by
  induction probes generalizing balance with
  | zero => simp [probeFrom, AdmitsWithin]
  | succ probes ih =>
    rw [admitsWithin_succ, probeFrom, quotedImpact]
    cases reader.amountOut balance candidate target provider with
    | none => simp
    | some amountOut =>
      simp only [Option.bind_eq_bind, Option.bind_some]
      cases computeSwapPriceImpact oraclePrice balance amountOut inDecimals outDecimals oracleDecimals with
      | none => simp
      | some impact =>
        simp only [Option.some.injEq, exists_eq_left', ← ih]
        by_cases hle : impact.bps ≤ config.maxPriceImpactBps
        · simp [hle]
        · simp [hle, not_le.mp hle]

/-- **No route.** The providers are probed in vain exactly when no provider admits a halving. -/
theorem bestRoute_eq_none_iff (hin : assetIndex candidate = some inInfo)
    (hout : assetIndex target = some outInfo) :
    bestRoute config reader assetIndex candidate target oraclePrice oracleDecimals balance = none ↔
      ∀ provider ∈ config.swapProviders,
        ¬ AdmitsWithin (quotedImpact reader provider candidate target oraclePrice inInfo.decimals
          outInfo.decimals oracleDecimals) config.maxPriceImpactBps config.maxSwapProviderProbes balance := by
  have hprobe : ∀ provider, routeProbe config reader assetIndex candidate target oraclePrice oracleDecimals
      balance provider = probeFrom config reader provider candidate target oraclePrice inInfo.decimals
        outInfo.decimals oracleDecimals config.maxSwapProviderProbes balance := by
    intro provider
    rw [routeProbe, probeProvider, hin, hout]
  simp only [← probeFrom_admits_iff, ← hprobe]
  obtain ⟨hnone, hall⟩ | ⟨provider, route, hsome, hfirst⟩ := foldl_takeRoute
    (routeProbe config reader assetIndex candidate target oraclePrice oracleDecimals balance)
    config.swapProviders
  · refine ⟨fun _ provider hp => ?_, fun _ => hnone⟩
    rintro ⟨route, hroute⟩
    exact hall provider hp route hroute
  · refine ⟨fun h => ?_, fun h => absurd ⟨route, hfirst.probe_eq⟩ (h provider hfirst.mem)⟩
    cases h.symm.trans hsome

end Probes

/-! ## The unchecked arithmetic -/

theorem computeValueCents_noAbort_iff {amount : ℤ} {info : AssetInfo} (hprice : 0 < info.oraclePrice) :
    NoAbort (computeValueCents amount info) ↔ info.decimals + info.oracleDecimals ≤ 40 := by
  unfold computeValueCents
  rw [if_neg (not_le.mpr hprice)]
  dsimp only
  split_ifs with hadd hsmall
  · exact ⟨fun h => absurd rfl h, fun h => absurd hadd (by omega)⟩
  · exact ⟨fun _ => by omega, fun _ => nofun⟩
  · rw [noAbort_bind_iff, rawPow10, noAbort_raw_iff, fits_pow10]
    refine ⟨fun h => by omega, fun h => ⟨by omega, fun denom hdenom => ?_⟩⟩
    obtain ⟨-, rfl⟩ := raw_eq_ok.mp hdenom
    exact (Returns.noAbort ⟨_, rawDiv_of_pos (fits_clamp _) (pow10_pos _)⟩).bind fun _ _ => nofun

section Evaluation

variable {config : BalancerConfig} {candidateOraclePrice targetOraclePrice : ℤ} {oracleDecimals : ℕ}

theorem noAbort_ratio_iff {α : Type} {rest : ℤ → Evaluation α} (hcandidate : 0 < candidateOraclePrice)
    (htarget : 0 < targetOraclePrice) :
    NoAbort (do
      let oracleScale ← rawPow10 oracleDecimals
      let candidateQuotedInTarget ← rawDiv (← rawMul candidateOraclePrice oracleScale) targetOraclePrice
      rest candidateQuotedInTarget) ↔
    Fits (candidateOraclePrice * pow10 oracleDecimals) ∧
      NoAbort (rest ((candidateOraclePrice * pow10 oracleDecimals).tdiv targetOraclePrice)) := by
  constructor
  · intro h
    obtain ⟨hscale, h⟩ := noAbort_bind_iff.mp h
    obtain ⟨hproduct, h⟩ := noAbort_bind_iff.mp (h _ (raw_eq_ok.mpr ⟨noAbort_raw_iff.mp hscale, rfl⟩))
    have hfits := noAbort_raw_iff.mp hproduct
    obtain ⟨-, h⟩ := noAbort_bind_iff.mp (h _ (raw_eq_ok.mpr ⟨hfits, rfl⟩))
    exact ⟨hfits, h _ (rawDiv_of_pos hfits htarget)⟩
  · rintro ⟨hfits, h⟩
    have hscale : Fits (pow10 oracleDecimals) :=
      hfits.of_nonneg_of_le (pow10_pos _).le (le_mul_of_one_le_left (pow10_pos _).le hcandidate)
    refine (noAbort_raw hscale).bind fun scale hscale => ?_
    obtain ⟨-, rfl⟩ := raw_eq_ok.mp hscale
    refine (noAbort_raw hfits).bind fun product hproduct => ?_
    obtain ⟨-, rfl⟩ := raw_eq_ok.mp hproduct
    rw [rawDiv_of_pos hfits htarget]
    exact h

theorem noAbort_keptAmount {amountOut : ℤ} (h0 : 0 ≤ config.allowedSwapSlippageBps)
    (h1 : config.allowedSwapSlippageBps ≤ 10000) {α : Type} {rest : ℤ → Evaluation α}
    (hrest : ∀ minAmountOut, NoAbort (rest minAmountOut)) :
    NoAbort (do
      let keptBps ← rawSub bpsFactor config.allowedSwapSlippageBps
      let minAmountOut ← rawDiv (saturatingMul amountOut keptBps) bpsFactor
      rest minAmountOut) := by
  have hb : bpsFactor = 10000 := rfl
  have hkept : Fits (bpsFactor - config.allowedSwapSlippageBps) :=
    Fits.of_nonneg_of_le (b := bpsFactor) (by decide) (by omega) (by omega)
  refine (noAbort_raw hkept).bind fun kept _ => ?_
  rw [rawDiv_of_pos (show Fits (saturatingMul amountOut kept) from fits_clamp _) bpsFactor_pos]
  exact hrest _

end Evaluation

/-! ## The evaluation of a candidate -/

/-- What the unchecked arithmetic needs once `balance` may be swapped: the scaled price is an `i128`, and if a
provider admits a halving, the decimals of the candidate and of the oracle are forty at most. -/
def ArithmeticFits (config : BalancerConfig) (reader : LedgerReader) (target candidate : Address)
    (inInfo outInfo : AssetInfo) (oracleDecimals : ℕ) (targetOraclePrice candidateOraclePrice balance : ℤ) :
    Prop :=
  Fits (candidateOraclePrice * pow10 oracleDecimals) ∧
    ((∃ provider ∈ config.swapProviders, AdmitsWithin (quotedImpact reader provider candidate target
      ((candidateOraclePrice * pow10 oracleDecimals).tdiv targetOraclePrice) inInfo.decimals outInfo.decimals
      oracleDecimals) config.maxPriceImpactBps config.maxSwapProviderProbes balance) →
    inInfo.decimals + inInfo.oracleDecimals ≤ 40)

section Candidate

variable (config : BalancerConfig) (reader : LedgerReader) (builds : Address → ℤ → ℤ → List Address → Bool)
  (reserve : ℤ → ℤ → Address → Option ℕ) (target candidate : Address)

theorem evaluate_noAbort_iff {assetIndex : Address → Option AssetInfo} {inInfo outInfo : AssetInfo}
    {oracleDecimals : ℕ} {targetOraclePrice candidateOraclePrice : ℤ}
    (hin : assetIndex candidate = some inInfo) (hout : assetIndex target = some outInfo)
    (hprice : 0 < inInfo.oraclePrice) (htarget : 0 < targetOraclePrice) (hcandidate : 0 < candidateOraclePrice)
    (h0 : 0 ≤ config.allowedSwapSlippageBps) (h1 : config.allowedSwapSlippageBps ≤ 10000) :
    NoAbort (evaluateRebalancableCandidate config reader assetIndex builds reserve target candidate
      oracleDecimals targetOraclePrice candidateOraclePrice) ↔
    ∀ rawBalance, reader.balance candidate = some rawBalance →
      0 < swappableBalance config candidate rawBalance →
      ArithmeticFits config reader target candidate inInfo outInfo oracleDecimals targetOraclePrice
        candidateOraclePrice (swappableBalance config candidate rawBalance) := by
  unfold evaluateRebalancableCandidate
  cases hbalance : reader.balance candidate with
  | none => exact ⟨fun _ _ => nofun, fun _ => nofun⟩
  | some rawBalance =>
    simp only [Option.some.injEq, forall_eq']
    by_cases hpos : 0 < swappableBalance config candidate rawBalance
    swap
    · rw [if_pos hpos]
      exact ⟨fun _ h => absurd h hpos, fun _ => nofun⟩
    rw [if_neg (not_not.mpr hpos), if_neg (not_le.mpr htarget), noAbort_ratio_iff hcandidate htarget,
      ArithmeticFits, imp_iff_right hpos]
    refine and_congr_right fun _ => ?_
    have hroute := @bestRoute_eq_none_iff config reader assetIndex candidate target
      ((candidateOraclePrice * pow10 oracleDecimals).tdiv targetOraclePrice)
      (swappableBalance config candidate rawBalance) inInfo outInfo oracleDecimals hin hout
    cases hbest : bestRoute config reader assetIndex candidate target
        ((candidateOraclePrice * pow10 oracleDecimals).tdiv targetOraclePrice) oracleDecimals
        (swappableBalance config candidate rawBalance) with
    | none =>
      rw [hbest] at hroute
      refine ⟨?_, fun _ => nofun⟩
      rintro - ⟨provider, hprovider, hadmits⟩
      exact absurd hadmits (hroute.mp rfl provider hprovider)
    | some route =>
      rw [hbest] at hroute
      have hadmitted := mt hroute.mpr nofun
      push Not at hadmitted
      obtain ⟨provider, route⟩ := route
      rw [imp_iff_right hadmitted, ← @computeValueCents_noAbort_iff route.amountIn inInfo hprice]
      simp only [hin]
      refine noAbort_bind_iff.trans (and_iff_left fun cents _ => ?_)
      refine NoAbort.ite (fun _ => nofun) fun _ => noAbort_keptAmount h0 h1 fun minAmountOut => ?_
      refine NoAbort.ite (fun _ => nofun) fun _ => ?_
      cases reserve route.amountIn (swappableBalance config candidate rawBalance) candidate with
      | none => exact nofun
      | some opId => exact nofun

/-- **When the balancer aborts.** On a market with positive prices, whatever the wallet holds, the providers
answer and the slippage is, the evaluation of a candidate reaches no overflow exactly when there is nothing to
swap, or the candidate's price times `10 ^ oracleDecimals` is an `i128` and no provider admits a halving of a
token whose decimals and the oracle's exceed forty. -/
theorem evaluateRebalancableCandidate_noAbort_iff (assetIndex : Address → Option AssetInfo)
    (market : MarketData) (targetPool candidatePool : PoolData)
    (hprices : ∀ pool ∈ market.poolsData, 0 < pool.oracleAssetPrice)
    (htarget : market.findPool target = some targetPool)
    (hcandidate : market.findPool candidate = some candidatePool)
    (h0 : 0 ≤ config.allowedSwapSlippageBps) (h1 : config.allowedSwapSlippageBps ≤ 10000) :
    NoAbort (evaluateRebalancableCandidate config reader (updateAssetIndex assetIndex market) builds reserve
      target candidate market.oraclePriceDecimals targetPool.oracleAssetPrice
      candidatePool.oracleAssetPrice) ↔
    ∀ rawBalance, reader.balance candidate = some rawBalance →
      0 < swappableBalance config candidate rawBalance →
      ∀ inInfo, updateAssetIndex assetIndex market candidate = some inInfo →
      ∀ outInfo, updateAssetIndex assetIndex market target = some outInfo →
      ArithmeticFits config reader target candidate inInfo outInfo market.oraclePriceDecimals
        targetPool.oracleAssetPrice candidatePool.oracleAssetPrice
        (swappableBalance config candidate rawBalance) := by
  obtain ⟨inPool, hinPool, hin⟩ := updateAssetIndex_of_findPool assetIndex hcandidate
  obtain ⟨outPool, -, hout⟩ := updateAssetIndex_of_findPool assetIndex htarget
  rw [evaluate_noAbort_iff config reader builds reserve target candidate hin hout (hprices inPool hinPool)
    (hprices _ (List.mem_of_find?_eq_some htarget)) (hprices _ (List.mem_of_find?_eq_some hcandidate)) h0 h1]
  simp only [hin, hout, Option.some.injEq, forall_eq']

end Candidate

/-! ## A thousand dollars on an oracle of eighteen decimals -/

/-- USDC at one dollar and GOLD at `goldDollars`. -/
def scaledMarket (tokenDecimals oracleDecimals : ℕ) (goldDollars : ℤ) : MarketData where
  insolvencyLtvBps := 9850
  poolsData := [{ dustPool "USDC" (pow10 oracleDecimals) with tokenDecimals },
    { dustPool "GOLD" (goldDollars * pow10 oracleDecimals) with tokenDecimals }]
  oraclePriceDecimals := oracleDecimals
  minCollateralValueCents := 500
  unavailablePools := []

/-- The evaluation of GOLD against USDC on a freshly indexed market; the gateway builds and the capital
reserves. -/
def evaluateGold (tokenDecimals oracleDecimals : ℕ) (goldDollars : ℤ) : Evaluation (Option SwapRequest) :=
  evaluateRebalancableCandidate (balancerConfig ["FAIR"]) routeReader
    (updateAssetIndex (fun _ => none) (scaledMarket tokenDecimals oracleDecimals goldDollars))
    (fun _ _ _ _ => true) (fun _ _ _ => some 1) "USDC" "GOLD" oracleDecimals (pow10 oracleDecimals)
    (goldDollars * pow10 oracleDecimals)

/-- At fourteen oracle decimals a hundred GOLD at par are swapped, and the arithmetic fits. -/
theorem evaluateRebalancableCandidate_noAbort_iff_par :
    evaluateGold 7 14 1 = .ok (some ⟨"FAIR", 1000000000, 995000000, ["GOLD", "USDC"], 1⟩) ∧
      ArithmeticFits (balancerConfig ["FAIR"]) routeReader "USDC" "GOLD" ⟨7, usd, 14⟩ ⟨7, usd, 14⟩ 14 usd usd
        1000000000 := by
  have h : evaluateGold 7 14 1 = .ok (some ⟨"FAIR", 1000000000, 995000000, ["GOLD", "USDC"], 1⟩) := by
    decide +kernel
  exact ⟨h, (evaluateRebalancableCandidate_noAbort_iff (balancerConfig ["FAIR"]) routeReader
    (fun _ _ _ _ => true) (fun _ _ _ => some 1) "USDC" "GOLD" (fun _ => none) (scaledMarket 7 14 1)
    (dustPool "USDC" usd) (dustPool "GOLD" usd) (by decide) (by decide) (by decide) (by decide)
    (by decide)).mp (Returns.noAbort ⟨_, h⟩) 1000000000 rfl (by decide) _ (by decide) _ (by decide)⟩

/-- **The balancer aborts.** On an oracle of eighteen decimals the price of a thousand dollars overflows the
ratio, before any provider is asked; on one of fourteen, a token of twenty-seven decimals overflows the cents
once its swap is admitted. The prices are positive `i128`s and the slippage is half a percent. -/
theorem evaluateRebalancableCandidate_aborts :
    ((∀ pool ∈ (scaledMarket 7 18 1000).poolsData, 0 < pool.oracleAssetPrice ∧ Fits pool.oracleAssetPrice) ∧
      evaluateGold 7 18 1000 = .error .abort) ∧
    ((∀ pool ∈ (scaledMarket 27 14 1).poolsData, 0 < pool.oracleAssetPrice ∧ Fits pool.oracleAssetPrice) ∧
      evaluateGold 27 14 1 = .error .abort) ∧
    (balancerConfig ["FAIR"]).allowedSwapSlippageBps = 50 := by
  decide +kernel

end AlulaKeeper
