import Mathlib
import AlulaKeeper.Verdict.DegradedCover
import AlulaKeeper.Verdict.Locality
import AlulaKeeper.Stellar.Snapshot

/-!
# Reading a market

`read_market_data` (`simulation.rs`) asks for the whole market at once, and where that fails it asks pool by
pool.

* `readMarketData`, `readMarketDataPerPool`, `partitionPoolReads`.
* `Serves`: a market contract of which any call may fail, and whose answers tell its state.
* `readMarketData_eq`: the snapshot is the market, less the pools that could not be read.
* `degraded_read_is_marked`: an obligation is judged as on the full market, or one of its pools is named
  unavailable and nothing is offered for it.
-/

namespace AlulaKeeper

open Val

/-! ## Calls -/

/-- `simulate_contract_call`: contract, function and arguments. -/
abbrev Gateway := Address → String → List Val → Read Val

section Reads

variable (codec : TextCodec) (gateway : Gateway) (market : Address)

/-- `read_pool_data`. -/
def readPoolData (poolAddress : Address) : Read PoolData := do
  let pool ← scAddressOf codec poolAddress
  let scVal ← gateway market "get_pool_data" [.address pool]
  parsePoolData codec scVal

/-- One round of the loop of `partition_pool_reads`. -/
def addPoolRead (acc : List PoolData × List Address) (read : Address × Read PoolData) :
    List PoolData × List Address :=
  match read.2 with
  | .ok poolData => (acc.1 ++ [poolData], acc.2)
  | .error _ => (acc.1, acc.2 ++ [read.1])

/-- `partition_pool_reads`. -/
def partitionPoolReads (reads : List (Address × Read PoolData)) : List PoolData × List Address :=
  reads.foldl addPoolRead ([], [])

/-- `read_market_data_per_pool`. -/
def readMarketDataPerPool : Read MarketData := do
  let poolAddresses ← parsePoolAddresses codec (← gateway market "get_all_pools" [])
  let (insolvencyLtvBps, minCollateralValueCents) ←
    parseGlobalStateThresholds (← gateway market "get_global_state" [])
  let oraclePriceDecimals ← toU32 (← gateway market "get_oracle_price_decimals" [])
  let reads := poolAddresses.map fun poolAddress => (poolAddress, readPoolData codec gateway market poolAddress)
  let (poolsData, unavailablePools) := partitionPoolReads reads
  return {
    poolsData, oraclePriceDecimals, insolvencyLtvBps, minCollateralValueCents, unavailablePools }

/-- `read_market_data`: an answer that does not parse is an error, a failed call is not. -/
def readMarketData : Read MarketData :=
  match gateway market "get_market_data" [] with
  | .ok scVal => parseMarketData codec scVal
  | .error _ => readMarketDataPerPool codec gateway market

end Reads

/-- The pools read are those of the reads that succeeded, the unavailable ones the others. -/
theorem partitionPoolReads_eq (reads : List (Address × Read PoolData)) : partitionPoolReads reads =
    (reads.filterMap fun read => read.2.toOption,
      (reads.filter fun read => read.2.toOption.isNone).map Prod.fst) := by
  have hfold : ∀ acc, reads.foldl addPoolRead acc = (acc.1 ++ reads.filterMap fun read => read.2.toOption,
      acc.2 ++ (reads.filter fun read => read.2.toOption.isNone).map Prod.fst) := by
    induction reads with
    | nil => simp
    | cons read reads ih =>
      intro acc
      obtain ⟨address, read⟩ := read
      cases read <;> simp [ih, addPoolRead, Except.toOption]
  rw [partitionPoolReads, hfold, List.nil_append, List.nil_append]

/-! ## A market that answers -/

/-- Any call may fail; the answers tell the market's state. -/
structure Serves (gateway : Gateway) (marketAddress : Address) (market : ContractMarket) : Prop where
  marketData : ∀ val, gateway marketAddress "get_market_data" [] = .ok val → Extends market.encode val
  allPools : ∀ val, gateway marketAddress "get_all_pools" [] = .ok val →
    val = .vec (some (market.pools.map fun pool => .address pool.poolAddress))
  globalState : ∀ val, gateway marketAddress "get_global_state" [] = .ok val → Extends market.globalState val
  oraclePriceDecimals : ∀ val, gateway marketAddress "get_oracle_price_decimals" [] = .ok val →
    val = .u32 market.oraclePriceDecimals
  poolData : ∀ pool ∈ market.pools, ∀ val,
    gateway marketAddress "get_pool_data" [.address pool.poolAddress] = .ok val → Extends pool.encode val
  contracts : ∀ pool ∈ market.pools, pool.poolAddress.IsUser

section Serves

variable {codec : TextCodec} {gateway : Gateway} {marketAddress : Address} {market : ContractMarket}
variable {pool : ContractPool} {S : MarketData}

/-- The pool cannot be read. -/
def unread (codec : TextCodec) (gateway : Gateway) (marketAddress poolAddress : Address) : Bool :=
  (readPoolData codec gateway marketAddress poolAddress).toOption.isNone

/-- What the market holds, less the pools that cannot be read, and these named. -/
def partialSnapshot (codec : TextCodec) (gateway : Gateway) (marketAddress : Address) (market : ContractMarket) :
    MarketData :=
  { (market.snapshot codec).dropPools (unread codec gateway marketAddress) with
    unavailablePools :=
      (market.pools.map fun pool => codec.toText pool.poolAddress).filter (unread codec gateway marketAddress) }

variable (h : Serves gateway marketAddress market)

include h in
theorem Serves.readPoolData_toOption (hpool : pool ∈ market.pools) :
    (readPoolData codec gateway marketAddress (codec.toText pool.poolAddress)).toOption =
      if unread codec gateway marketAddress (codec.toText pool.poolAddress) then none
      else some (pool.parsed codec) := by
  have haddress : scAddressOf codec (codec.toText pool.poolAddress) = .ok pool.poolAddress :=
    scAddressOf_toText (h.contracts pool hpool)
  rw [unread, readPoolData, haddress, Read.ok_bind]
  cases hcall : gateway marketAddress "get_pool_data" [.address pool.poolAddress] with
  | error e => rfl
  | ok val =>
    rw [Read.ok_bind, parsePoolData_of_extends (h.poolData pool hpool val hcall)]
    rfl

include h in
theorem Serves.partition :
    partitionPoolReads ((market.pools.map fun pool => codec.toText pool.poolAddress).map fun address =>
      (address, readPoolData codec gateway marketAddress address)) =
      ((market.pools.filter fun pool => !unread codec gateway marketAddress (codec.toText pool.poolAddress)).map
          (ContractPool.parsed codec),
        (market.pools.map fun pool => codec.toText pool.poolAddress).filter
          (unread codec gateway marketAddress)) := by
  rw [partitionPoolReads_eq]
  refine congrArg₂ Prod.mk ?_ ?_
  · rw [List.filterMap_map, List.filterMap_map, ← List.filterMap_eq_map, List.filterMap_filter]
    refine List.filterMap_congr fun pool hpool => ?_
    rw [Function.comp_apply, Function.comp_apply, h.readPoolData_toOption hpool]
    cases unread codec gateway marketAddress (codec.toText pool.poolAddress) <;> rfl
  · simp [List.filter_map, Function.comp_def, unread]

include h in
/-- **The pool-by-pool snapshot is the market less what could not be read.** -/
theorem Serves.readMarketDataPerPool_eq {pools state decimals : Val}
    (hpools : gateway marketAddress "get_all_pools" [] = .ok pools)
    (hstate : gateway marketAddress "get_global_state" [] = .ok state)
    (hdecimals : gateway marketAddress "get_oracle_price_decimals" [] = .ok decimals) :
    readMarketDataPerPool codec gateway marketAddress =
      .ok (partialSnapshot codec gateway marketAddress market) := by
  obtain rfl := h.allPools pools hpools
  obtain rfl := h.oraclePriceDecimals decimals hdecimals
  obtain ⟨entries, rfl, hholds⟩ :=
    (h.globalState state hstate).holds (by simp [ContractMarket.thresholds, Numeral.field])
  have hthresholds := hholds.numerals market.thresholds (List.Subset.refl _)
  simp only [ContractMarket.thresholds, List.forall_mem_cons] at hthresholds
  have haddresses :
      parsePoolAddresses codec (.vec (some (market.pools.map fun pool => .address pool.poolAddress))) =
        .ok (market.pools.map fun pool => codec.toText pool.poolAddress) := by
    rw [parsePoolAddresses, asVec, Read.ok_bind]
    refine Traverse.mapM_of_forall₂ ?_
    rw [List.forall₂_map_right_iff]
    exact List.forall₂_same.mpr fun _ _ => rfl
  rw [readMarketDataPerPool, hpools, Read.ok_bind, haddresses, hstate]
  simp only [Read.ok_bind, asMap, hdecimals, toU32, parseGlobalStateThresholds, hthresholds, pure_bind, h.partition]
  simp [partialSnapshot, MarketData.dropPools, ContractMarket.snapshot, List.filter_map, Function.comp_def,
    ContractPool.parsed, pure, Except.pure]

/-! ## Verdicts on what was read -/

/-- The pools an obligation touches are the market's. -/
def OnMarket (market : MarketData) (obligation : Obligation) : Prop :=
  ∀ a ∈ poolsTouched obligation, ∃ pool, market.findPool a = some pool

theorem findPool_partialSnapshot (a : Address) :
    (partialSnapshot codec gateway marketAddress market).findPool a =
      if unread codec gateway marketAddress a then none else (market.snapshot codec).findPool a :=
  findPool_dropPools a

theorem mem_unavailablePools {a : Address} {pool : PoolData}
    (hunread : unread codec gateway marketAddress a = true)
    (hpool : (market.snapshot codec).findPool a = some pool) :
    a ∈ (partialSnapshot codec gateway marketAddress market).unavailablePools := by
  have hmem : pool ∈ (market.snapshot codec).poolsData := List.mem_of_find?_eq_some hpool
  obtain ⟨contractPool, hcontract, rfl⟩ := List.mem_map.mp hmem
  have haddress : codec.toText contractPool.poolAddress = a := MarketData.poolAddress_of_findPool hpool
  exact List.mem_filter.mpr ⟨List.mem_map.mpr ⟨contractPool, hcontract, haddress⟩, hunread⟩

theorem sameVerdicts_partialSnapshot {obligation : Obligation} (hon : OnMarket (market.snapshot codec) obligation)
    (hread : ∀ a ∈ poolsTouched obligation, unread codec gateway marketAddress a = false) :
    unpricedPoolsTouched obligation (partialSnapshot codec gateway marketAddress market) = [] ∧
      SameVerdicts obligation (partialSnapshot codec gateway marketAddress market) (market.snapshot codec) := by
  let P : Pricing := {
    insolvencyLtvBps := (market.snapshot codec).insolvencyLtvBps
    oraclePriceDecimals := (market.snapshot codec).oraclePriceDecimals
    minCollateralValueCents := (market.snapshot codec).minCollateralValueCents
    pool := fun a => ((market.snapshot codec).findPool a).getD (dustPool a 0) }
  have hfull : ∀ a ∈ poolsTouched obligation, (market.snapshot codec).findPool a = some (P.pool a) := by
    intro a ha
    obtain ⟨pool, hpool⟩ := hon a ha
    simp only [P, hpool, Option.getD_some]
  have hpartial : ∀ a ∈ poolsTouched obligation,
      (partialSnapshot codec gateway marketAddress market).findPool a = some (P.pool a) := by
    intro a ha
    rw [findPool_partialSnapshot, hread a ha]
    exact hfull a ha
  have hjudged : JudgedBy obligation (market.snapshot codec) P := Prices.verdicts ⟨rfl, rfl, rfl, hfull⟩
  have hjudged' : JudgedBy obligation (partialSnapshot codec gateway marketAddress market) P :=
    Prices.verdicts ⟨rfl, rfl, rfl, hpartial⟩
  exact ⟨hjudged'.unpriced, hjudged'.same hjudged⟩

include h in
/-- **A market is read less the pools that fail, and these are named.** While the calls that price nothing
answer there is a snapshot, and on it an obligation is judged as on the full market, or one of its pools is
named unavailable and no liquidation is acceptable. -/
theorem market_read_degrades_by_pool {pools state decimals : Val}
    (hpools : gateway marketAddress "get_all_pools" [] = .ok pools)
    (hstate : gateway marketAddress "get_global_state" [] = .ok state)
    (hdecimals : gateway marketAddress "get_oracle_price_decimals" [] = .ok decimals) :
    ∃ S, readMarketData codec gateway marketAddress = .ok S ∧
      ∀ obligation, OnMarket (market.snapshot codec) obligation →
        (unpricedPoolsTouched obligation S = [] ∧ SameVerdicts obligation S (market.snapshot codec)) ∨
          (∃ a ∈ poolsTouched obligation, a ∈ S.unavailablePools ∧ S.findPool a = none) ∧
            ∀ margin now, hasAcceptableLiquidation obligation S margin now = .ok false := by
  unfold readMarketData
  cases hmarket : gateway marketAddress "get_market_data" [] with
  | ok val =>
    refine ⟨_, market_round_trip market (h.marketData val hmarket), fun obligation hon => .inl ⟨?_, ?_⟩⟩
    · exact unpricedPoolsTouched_eq_nil_iff.mpr hon
    · exact ⟨fun _ => rfl, rfl, rfl, rfl, rfl, fun _ _ => rfl⟩
  | error e =>
    refine ⟨_, h.readMarketDataPerPool_eq hpools hstate hdecimals, fun obligation hon => ?_⟩
    by_cases hread : ∀ a ∈ poolsTouched obligation, unread codec gateway marketAddress a = false
    · exact .inl (sameVerdicts_partialSnapshot hon hread)
    · simp only [not_forall, Bool.not_eq_false] at hread
      obtain ⟨a, ha, hunread⟩ := hread
      obtain ⟨pool, hpool⟩ := hon a ha
      have hnone : (partialSnapshot codec gateway marketAddress market).findPool a = none := by
        rw [findPool_partialSnapshot, if_pos hunread]
      exact .inr ⟨⟨a, ha, mem_unavailablePools hunread hpool, hnone⟩,
        fun margin now => acceptable_of_unpriced ha hnone⟩

end Serves

/-! ## One feed of two is down -/

/-- Two pools of the parser's tests. -/
def twoPools : ContractMarket := testMarket [testPool zeroKey "USDC", testPool oneKey "EURC"]

/-- While the feed of the second pool is down, neither the whole market nor that pool can be read. -/
def feedDown : Gateway := fun _ function arguments =>
  match function, arguments with
  | "get_all_pools", _ => .ok (.vec (some [.address (.contract zeroKey), .address (.contract oneKey)]))
  | "get_global_state", _ => .ok twoPools.globalState
  | "get_oracle_price_decimals", _ => .ok (.u32 14)
  | "get_pool_data", [.address (.contract hash)] =>
    if hash = zeroKey then .ok (testPool zeroKey "USDC").encode else .error (.call [])
  | _, _ => .error (.call [])

theorem feedDown_serves : Serves feedDown "MARKET" twoPools where
  marketData val hval := nomatch hval
  allPools val hval := (Except.ok.inj hval).symm
  globalState val hval := Except.ok.inj hval ▸ .refl _
  oraclePriceDecimals val hval := (Except.ok.inj hval).symm
  poolData pool hpool val hval := by
    rcases List.mem_pair.mp hpool with rfl | rfl
    · exact Except.ok.inj hval ▸ .refl _
    · exact nomatch hval
  contracts pool hpool := by
    rcases List.mem_pair.mp hpool with rfl | rfl <;> trivial

/-- The first pool is read and the second named; every obligation on the two is judged by it or not at all. -/
theorem feedDown_read :
    (readMarketData TextCodec.stellar feedDown "MARKET").toOption.map (fun S =>
        (S.poolsData.map PoolData.tokenSymbol, S.unavailablePools)) =
      some (["USDC"], [addressText (.contract oneKey)]) ∧
    ∃ S, readMarketData TextCodec.stellar feedDown "MARKET" = .ok S ∧
      ∀ obligation, OnMarket (twoPools.snapshot TextCodec.stellar) obligation →
        (unpricedPoolsTouched obligation S = [] ∧
            SameVerdicts obligation S (twoPools.snapshot TextCodec.stellar)) ∨
          (∃ a ∈ poolsTouched obligation, a ∈ S.unavailablePools ∧ S.findPool a = none) ∧
            ∀ margin now, hasAcceptableLiquidation obligation S margin now = .ok false :=
  ⟨by decide +kernel, market_read_degrades_by_pool feedDown_serves rfl rfl rfl⟩

end AlulaKeeper
