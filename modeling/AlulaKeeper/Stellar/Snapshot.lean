import Mathlib
import AlulaKeeper.Lending.Pool
import AlulaKeeper.Stellar.Values

/-!
# Market snapshots on the wire

The parsers of pools, markets and obligations (`xdr_codec.rs`), and the values a market contract returns.

* `parsePoolData`, `parseMarketData`, `parseObligation`.
* `ContractPool`, `ContractMarket`, `ContractObligation`: what a market holds, and the value it answers with.
* `market_round_trip`, `obligation_round_trip`: a market's answer parses to what it holds, whatever the order
  of its fields, whatever stands beside them and in whatever types its numbers are.
-/

namespace AlulaKeeper

open I128 Val

variable (codec : TextCodec)

/-! ## Pools -/

/-- The status flags of a pool's configuration; unreadable flags are none. -/
def parseStatusFlags (config : List (Val × Val)) : ℕ :=
  (do getU32 (← getMap config "status" "missing status") "flags").toOption.getD 0

/-- `last_accrual_timestamp, borrow_apy_bps, supply_apy_bps`; unreadable inputs estimate no accrual. -/
def parseAccrual (map pool : List (Val × Val)) : ℕ × ℤ × ℤ :=
  (do
    let apy ← getMap map "apy" "missing apy"
    let lastAccrualTimestamp ← getU64 pool "last_accrual_timestamp"
    let borrowBps ← getU32 apy "borrow_bps"
    let supplyBps ← getU32 apy "supply_bps"
    return (lastAccrualTimestamp, (borrowBps : ℤ), (supplyBps : ℤ))).toOption.getD (0, 0, 0)

/-- `parse_pool_data`. -/
def parsePoolData (val : Val) : Read PoolData := do
  let map ← val.asMap
  let jTokenRateFloorBps ← getI128 map "j_token_rate_floor_bps"
  let dTokenRateCeilBps ← getI128 map "d_token_rate_ceil_bps"
  let oracleAssetPrice ← getI128 map "oracle_asset_price"
  let totalAvailableAdjusted ← getI128 map "total_available_adjusted"
  let totalSupply ← getI128 map "total_supply"
  let pool ← getMap map "pool" "missing pool in PoolData"
  let poolAddress ← getAddress codec pool "pool_address"
  let tokenAddress ← getAddress codec pool "token_address"
  let tokenSymbol := (getStringOptional pool "token_symbol").getD ""
  let tokenDecimals ← getU32 pool "token_decimals"
  let totalBorrowed ← getI128 pool "total_borrowed"
  let totalDTokens ← getI128 pool "total_d_tokens"
  let totalJTokens ← getI128 pool "total_j_tokens"
  let totalAvailable ← getI128 pool "total_available"
  let totalCollateral ← getI128 pool "total_collateral"
  let config ← getMap pool "config" "missing config in Pool"
  let health ← getMap config "health_config" "missing health_config"
  let openLtvBps ← getI128 health "open_ltv_bps"
  let closeLtvBps ← getI128 health "close_ltv_bps"
  let liabilityFactorBps ← getI128 health "liability_factor_bps"
  let liquidationCloseFactorBps ← getI128 health "liquidation_close_factor_bps"
  let maxLiquidationIncentiveBps ← getI128 health "max_liquidation_incentive_bps"
  let utilizationRatioLimitBps ← getI128 health "utilization_ratio_limit_bps"
  let fee ← getMap config "fee_config" "missing fee_config"
  let flashLoanFeeBps ← getI128 fee "flash_loan_fee_bps"
  let statusFlags := parseStatusFlags config
  let (lastAccrualTimestamp, borrowApyBps, supplyApyBps) := parseAccrual map pool
  return {
    totalSupply, openLtvBps, closeLtvBps, tokenDecimals, tokenSymbol, poolAddress, totalBorrowed, totalDTokens
    totalJTokens, tokenAddress, totalAvailable, totalCollateral, oracleAssetPrice, flashLoanFeeBps, statusFlags
    liabilityFactorBps, dTokenRateCeilBps, jTokenRateFloorBps, totalAvailableAdjusted
    utilizationRatioLimitBps, liquidationCloseFactorBps, maxLiquidationIncentiveBps, lastAccrualTimestamp
    borrowApyBps, supplyApyBps }

/-! ## Markets -/

/-- `parse_global_state_thresholds`. -/
def parseGlobalStateThresholds (val : Val) : Read (ℤ × ℤ) := do
  let map ← val.asMap
  return (← getI128 map "insolvency_ltv_bps", ← getI128 map "min_collateral_value_cents")

/-- `parse_pool_addresses`. -/
def parsePoolAddresses (val : Val) : Read (List Address) := do
  (← val.asVec).mapM fun
    | .address a => .ok (codec.toText a)
    | _ => .error (.expected "Address in pool list")

/-- `parse_market_data`. -/
def parseMarketData (val : Val) : Read MarketData := do
  let map ← val.asMap
  let oraclePriceDecimals ← getU32 map "oracle_price_decimals"
  let globalState ← match get map "global_state" with
    | some globalState => .ok globalState
    | none => .error (.missing "global_state missing")
  let (insolvencyLtvBps, minCollateralValueCents) ← parseGlobalStateThresholds globalState
  let pools ← match get map "pools_data" with
    | some pools => pools.asVec
    | none => .error (.missing "pools_data missing")
  let poolsData ← pools.mapM (parsePoolData codec)
  return {
    poolsData, oraclePriceDecimals, insolvencyLtvBps, minCollateralValueCents
    unavailablePools := [] }

/-! ## Obligations -/

/-- An entry of a positions map: `none` where it is skipped, an error where its value is no map. -/
def parsePosition {α : Type} (read : Address → List (Val × Val) → Read α) (entry : Val × Val) :
    Read (Option α) :=
  match entry.1 with
  | .address a => do
    let position ← entry.2.asMap
    return (read (codec.toText a) position).toOption
  | _ => .ok none

/-- The positions of a map, those that were skipped left out. -/
def parsePositions {α : Type} (read : Address → List (Val × Val) → Read α) (val : Val) : Read (List α) := do
  let positions ← (← val.asMap).mapM (parsePosition codec read)
  return positions.reduceOption

/-- A deposit in the pool. -/
def readDeposit (poolAddress : Address) (position : List (Val × Val)) : Read DepositPosition := do
  let jTokens ← getI128 position "j_tokens"
  let collateral ← getI128 position "collateral"
  return { jTokens, collateral, poolAddress }

/-- A borrow from the pool. -/
def readBorrow (poolAddress : Address) (position : List (Val × Val)) : Read BorrowPosition := do
  let dTokens ← getI128 position "d_tokens"
  return { dTokens, poolAddress }

/-- `parse_deposit_positions`. -/
def parseDepositPositions : Val → Read (List DepositPosition) := parsePositions codec readDeposit

/-- `parse_borrow_positions`. -/
def parseBorrowPositions : Val → Read (List BorrowPosition) := parsePositions codec readBorrow

/-- An optional field of an obligation. -/
def parseOr {α : Type} (map : List (Val × Val)) (key : String) (default : α) (read : Val → Read α) : Read α :=
  match get map key with
  | some val => read val
  | none => .ok default

/-- `parse_obligation`; a map holds less than `2^32` entries. -/
def parseObligation (val : Val) : Read Obligation := do
  let map ← val.asMap
  let deposits ← parseOr map "deposits" [] (parseDepositPositions codec)
  let borrows ← parseOr map "borrows" [] (parseBorrowPositions codec)
  let openBadDebtRequests ← parseOr map "insurance_fund_requests_ids" 0 fun requests =>
    return (← requests.asMap).length
  return { deposits, borrows, openBadDebtRequests }

/-! ## What a market answers with -/

/-- A pool, as the market holds it. -/
structure ContractPool where
  poolAddress : ScAddress
  tokenAddress : ScAddress
  tokenSymbol : String
  tokenDecimals : UInt32
  totalBorrowed : Numeral
  totalDTokens : Numeral
  totalJTokens : Numeral
  totalAvailable : Numeral
  totalCollateral : Numeral
  totalAvailableAdjusted : Numeral
  totalSupply : Numeral
  jTokenRateFloorBps : Numeral
  dTokenRateCeilBps : Numeral
  oracleAssetPrice : Numeral
  openLtvBps : Numeral
  closeLtvBps : Numeral
  liabilityFactorBps : Numeral
  liquidationCloseFactorBps : Numeral
  maxLiquidationIncentiveBps : Numeral
  utilizationRatioLimitBps : Numeral
  flashLoanFeeBps : Numeral
  statusFlags : UInt32
  lastAccrualTimestamp : UInt64
  borrowApyBps : UInt32
  supplyApyBps : UInt32

namespace ContractPool

variable (pool : ContractPool)

/-- What stands beside a pool's state. -/
def rates : List (String × Numeral) :=
  [("j_token_rate_floor_bps", pool.jTokenRateFloorBps), ("d_token_rate_ceil_bps", pool.dTokenRateCeilBps),
    ("oracle_asset_price", pool.oracleAssetPrice), ("total_available_adjusted", pool.totalAvailableAdjusted),
    ("total_supply", pool.totalSupply)]

/-- The numbers of its state. -/
def totals : List (String × Numeral) :=
  [("total_borrowed", pool.totalBorrowed), ("total_d_tokens", pool.totalDTokens),
    ("total_j_tokens", pool.totalJTokens), ("total_available", pool.totalAvailable),
    ("total_collateral", pool.totalCollateral)]

/-- Its risk parameters. -/
def health : List (String × Numeral) :=
  [("open_ltv_bps", pool.openLtvBps), ("close_ltv_bps", pool.closeLtvBps),
    ("liability_factor_bps", pool.liabilityFactorBps),
    ("liquidation_close_factor_bps", pool.liquidationCloseFactorBps),
    ("max_liquidation_incentive_bps", pool.maxLiquidationIncentiveBps),
    ("utilization_ratio_limit_bps", pool.utilizationRatioLimitBps)]

/-- Its fees. -/
def fees : List (String × Numeral) := [("flash_loan_fee_bps", pool.flashLoanFeeBps)]

/-- Its configuration. -/
def configFields : List (String × Val) :=
  [("health_config", record (pool.health.map Numeral.field)),
    ("fee_config", record (pool.fees.map Numeral.field)),
    ("status", record [("flags", .u32 pool.statusFlags)])]

/-- Its state and configuration. -/
def poolFields : List (String × Val) :=
  [("pool_address", .address pool.poolAddress), ("token_address", .address pool.tokenAddress),
    ("token_symbol", .string pool.tokenSymbol), ("token_decimals", .u32 pool.tokenDecimals),
    ("last_accrual_timestamp", .u64 pool.lastAccrualTimestamp), ("config", record pool.configFields)] ++
    pool.totals.map Numeral.field

/-- Its APYs. -/
def apyFields : List (String × Val) :=
  [("borrow_bps", .u32 pool.borrowApyBps), ("supply_bps", .u32 pool.supplyApyBps)]

/-- The answer's fields. -/
def fields : List (String × Val) :=
  pool.rates.map Numeral.field ++ [("apy", record pool.apyFields), ("pool", record pool.poolFields)]

/-- The answer to `get_pool_data`. -/
def encode : Val := record pool.fields

theorem mem_apy : ("apy", record pool.apyFields) ∈ pool.fields := by simp [fields]

theorem mem_pool : ("pool", record pool.poolFields) ∈ pool.fields := by simp [fields]

theorem mem_config : ("config", record pool.configFields) ∈ pool.poolFields := by simp [poolFields]

theorem mem_health : ("health_config", record (pool.health.map Numeral.field)) ∈ pool.configFields := by
  simp [configFields]

theorem mem_fees : ("fee_config", record (pool.fees.map Numeral.field)) ∈ pool.configFields := by
  simp [configFields]

theorem mem_status : ("status", record [("flags", .u32 pool.statusFlags)]) ∈ pool.configFields := by
  simp [configFields]

theorem nodup_health : ((pool.health.map Numeral.field).map Prod.fst).Nodup := by simp [health, Numeral.field]

theorem nodup_fees : ((pool.fees.map Numeral.field).map Prod.fst).Nodup := by simp [fees, Numeral.field]

theorem nodup_configFields : (pool.configFields.map Prod.fst).Nodup := by simp [configFields]

theorem nodup_poolFields : (pool.poolFields.map Prod.fst).Nodup := by simp [poolFields, totals, Numeral.field]

theorem nodup_apyFields : (pool.apyFields.map Prod.fst).Nodup := by simp [apyFields]

theorem nodup_fields : (pool.fields.map Prod.fst).Nodup := by simp [fields, rates, Numeral.field]

/-- The pool under the keeper's words. -/
def parsed : PoolData where
  totalSupply := pool.totalSupply.value
  openLtvBps := pool.openLtvBps.value
  closeLtvBps := pool.closeLtvBps.value
  tokenDecimals := pool.tokenDecimals.toNat
  tokenSymbol := pool.tokenSymbol
  poolAddress := codec.toText pool.poolAddress
  totalBorrowed := pool.totalBorrowed.value
  totalDTokens := pool.totalDTokens.value
  totalJTokens := pool.totalJTokens.value
  tokenAddress := codec.toText pool.tokenAddress
  totalAvailable := pool.totalAvailable.value
  totalCollateral := pool.totalCollateral.value
  oracleAssetPrice := pool.oracleAssetPrice.value
  flashLoanFeeBps := pool.flashLoanFeeBps.value
  statusFlags := pool.statusFlags.toNat
  liabilityFactorBps := pool.liabilityFactorBps.value
  dTokenRateCeilBps := pool.dTokenRateCeilBps.value
  jTokenRateFloorBps := pool.jTokenRateFloorBps.value
  totalAvailableAdjusted := pool.totalAvailableAdjusted.value
  utilizationRatioLimitBps := pool.utilizationRatioLimitBps.value
  liquidationCloseFactorBps := pool.liquidationCloseFactorBps.value
  maxLiquidationIncentiveBps := pool.maxLiquidationIncentiveBps.value
  lastAccrualTimestamp := pool.lastAccrualTimestamp.toNat
  borrowApyBps := pool.borrowApyBps.toNat
  supplyApyBps := pool.supplyApyBps.toNat

end ContractPool

/-- A market, as the contract holds it. -/
structure ContractMarket where
  pools : List ContractPool
  oraclePriceDecimals : UInt32
  insolvencyLtvBps : Numeral
  minCollateralValueCents : Numeral

namespace ContractMarket

variable (market : ContractMarket)

/-- The numbers of its global state. -/
def thresholds : List (String × Numeral) :=
  [("insolvency_ltv_bps", market.insolvencyLtvBps),
    ("min_collateral_value_cents", market.minCollateralValueCents)]

/-- The answer to `get_global_state`. -/
def globalState : Val := record (market.thresholds.map Numeral.field)

/-- The answer's fields. -/
def fields : List (String × Val) :=
  [("oracle_price_decimals", .u32 market.oraclePriceDecimals), ("global_state", market.globalState),
    ("pools_data", .vec (some (market.pools.map ContractPool.encode)))]

/-- The answer to `get_market_data`. -/
def encode : Val := record market.fields

/-- The market under the keeper's words. -/
def snapshot : MarketData where
  insolvencyLtvBps := market.insolvencyLtvBps.value
  poolsData := market.pools.map (ContractPool.parsed codec)
  oraclePriceDecimals := market.oraclePriceDecimals.toNat
  minCollateralValueCents := market.minCollateralValueCents.value
  unavailablePools := []

end ContractMarket

/-- A deposit, as the contract holds it. -/
structure ContractDeposit where
  pool : ScAddress
  jTokens : Numeral
  collateral : Numeral

/-- A borrow, as the contract holds it. -/
structure ContractBorrow where
  pool : ScAddress
  dTokens : Numeral

/-- An obligation, as the contract holds it. -/
structure ContractObligation where
  deposits : List ContractDeposit
  borrows : List ContractBorrow
  /-- Open insurance fund requests, `(pool, request_id) -> deadline`. -/
  requests : List (ScAddress × UInt64 × UInt64)

namespace ContractObligation

variable (obligation : ContractObligation)

/-- The numbers of a deposit. -/
def depositFields (deposit : ContractDeposit) : List (String × Numeral) :=
  [("collateral", deposit.collateral), ("j_tokens", deposit.jTokens)]

/-- The number of a borrow. -/
def borrowFields (borrow : ContractBorrow) : List (String × Numeral) := [("d_tokens", borrow.dTokens)]

/-- A deposit under its pool's address. -/
def depositEntry (deposit : ContractDeposit) : Val × Val :=
  (.address deposit.pool, record ((depositFields deposit).map Numeral.field))

/-- A borrow under its pool's address. -/
def borrowEntry (borrow : ContractBorrow) : Val × Val :=
  (.address borrow.pool, record ((borrowFields borrow).map Numeral.field))

/-- A request under its pool and number. -/
def requestEntry (request : ScAddress × UInt64 × UInt64) : Val × Val :=
  (.vec (some [.address request.1, .u64 request.2.1]), .u64 request.2.2)

/-- The answer's fields. -/
def fields : List (String × Val) :=
  [("borrows", .map (some (obligation.borrows.map borrowEntry))),
    ("deposits", .map (some (obligation.deposits.map depositEntry))),
    ("insurance_fund_requests_ids", .map (some (obligation.requests.map requestEntry)))]

/-- The answer to `get_user_obligation`. -/
def encode : Val := record obligation.fields

/-- The deposit under the keeper's words. -/
def parsedDeposit (deposit : ContractDeposit) : DepositPosition where
  jTokens := deposit.jTokens.value
  collateral := deposit.collateral.value
  poolAddress := codec.toText deposit.pool

/-- The borrow under the keeper's words. -/
def parsedBorrow (borrow : ContractBorrow) : BorrowPosition where
  dTokens := borrow.dTokens.value
  poolAddress := codec.toText borrow.pool

/-- The obligation under the keeper's words. -/
def parsed : Obligation where
  deposits := obligation.deposits.map (parsedDeposit codec)
  borrows := obligation.borrows.map (parsedBorrow codec)
  openBadDebtRequests := obligation.requests.length

end ContractObligation

/-! ## Round trips -/

variable {pool : ContractPool}

theorem parseStatusFlags_of_holds {config : List (Val × Val)} (h : Holds config pool.configFields) :
    parseStatusFlags config = pool.statusFlags.toNat := by
  obtain ⟨status, hstatus, hholds⟩ := h.getMap pool.mem_status (List.nodup_singleton _) "missing status"
  have hflags : getU32 status "flags" = .ok pool.statusFlags.toNat := hholds.getU32 List.mem_cons_self
  rw [parseStatusFlags, hstatus, Read.ok_bind, hflags]
  rfl

theorem parseAccrual_of_holds {map entries : List (Val × Val)} (hmap : Holds map pool.fields)
    (hpool : Holds entries pool.poolFields) :
    parseAccrual map entries =
      (pool.lastAccrualTimestamp.toNat, (pool.borrowApyBps.toNat : ℤ), (pool.supplyApyBps.toNat : ℤ)) := by
  obtain ⟨apy, hapy, hholds⟩ := hmap.getMap pool.mem_apy pool.nodup_apyFields "missing apy"
  have hlast : getU64 entries "last_accrual_timestamp" = .ok pool.lastAccrualTimestamp.toNat :=
    hpool.getU64 (by simp [ContractPool.poolFields])
  have hborrow : getU32 apy "borrow_bps" = .ok pool.borrowApyBps.toNat :=
    hholds.getU32 (by simp [ContractPool.apyFields])
  have hsupply : getU32 apy "supply_bps" = .ok pool.supplyApyBps.toNat :=
    hholds.getU32 (by simp [ContractPool.apyFields])
  rw [parseAccrual, hapy, Read.ok_bind, hlast, Read.ok_bind, hborrow, Read.ok_bind, hsupply]
  rfl

variable {codec} {val : Val}

theorem parsePoolData_of_extends (h : Extends pool.encode val) :
    parsePoolData codec val = .ok (pool.parsed codec) := by
  obtain ⟨map, rfl, hmap⟩ := h.holds pool.nodup_fields
  obtain ⟨entries, hentries, hpool⟩ :=
    hmap.getMap pool.mem_pool pool.nodup_poolFields "missing pool in PoolData"
  obtain ⟨config, hconfig, hholds⟩ :=
    hpool.getMap pool.mem_config pool.nodup_configFields "missing config in Pool"
  obtain ⟨health, hhealth, hholdsHealth⟩ :=
    hholds.getMap pool.mem_health pool.nodup_health "missing health_config"
  obtain ⟨fee, hfee, hholdsFee⟩ := hholds.getMap pool.mem_fees pool.nodup_fees "missing fee_config"
  have hrates := hmap.numerals pool.rates (List.subset_append_left _ _)
  have htotals := hpool.numerals pool.totals (List.subset_append_right _ _)
  have hnumbers := hholdsHealth.numerals pool.health (List.Subset.refl _)
  have hfees := hholdsFee.numerals pool.fees (List.Subset.refl _)
  have haddress : getAddress codec entries "pool_address" = .ok (codec.toText pool.poolAddress) :=
    hpool.getAddress (by simp [ContractPool.poolFields])
  have htoken : getAddress codec entries "token_address" = .ok (codec.toText pool.tokenAddress) :=
    hpool.getAddress (by simp [ContractPool.poolFields])
  have hsymbol : getStringOptional entries "token_symbol" = some pool.tokenSymbol :=
    hpool.getStringOptional (by simp [ContractPool.poolFields])
  have hdecimals : getU32 entries "token_decimals" = .ok pool.tokenDecimals.toNat :=
    hpool.getU32 (by simp [ContractPool.poolFields])
  simp only [ContractPool.rates, ContractPool.totals, ContractPool.health, ContractPool.fees,
    List.forall_mem_cons] at hrates htotals hnumbers hfees
  simp only [parsePoolData, asMap, Read.ok_bind, hrates, htotals, hnumbers, hfees, hentries, hconfig, hhealth,
    hfee, haddress, htoken, hsymbol, hdecimals, parseStatusFlags_of_holds hholds,
    parseAccrual_of_holds hmap hpool]
  rfl

/-- **A market's answer parses to the market.** The order of its fields does not matter, nor what stands
beside them. -/
theorem market_round_trip (market : ContractMarket) (h : Extends market.encode val) :
    parseMarketData codec val = .ok (market.snapshot codec) := by
  obtain ⟨map, rfl, hmap⟩ := h.holds (by simp [ContractMarket.fields])
  have hdecimals : getU32 map "oracle_price_decimals" = .ok market.oraclePriceDecimals.toNat :=
    hmap.getU32 List.mem_cons_self
  obtain ⟨state, hstate, hext⟩ := hmap ("global_state", market.globalState) (by simp [ContractMarket.fields])
  obtain ⟨entries, rfl, hholds⟩ := hext.holds (by simp [ContractMarket.thresholds, Numeral.field])
  have hthresholds := hholds.numerals market.thresholds (List.Subset.refl _)
  obtain ⟨pools, hpools, hext⟩ := hmap ("pools_data", .vec (some (market.pools.map ContractPool.encode)))
    (by simp [ContractMarket.fields])
  obtain ⟨items, rfl, hitems⟩ := hext.vec_items
  have hparsed : items.mapM (parsePoolData codec) = .ok (market.pools.map (ContractPool.parsed codec)) := by
    rw [List.forall₂_map_left_iff] at hitems
    exact Traverse.mapM_of_forall₂ (hitems.imp fun pool item hitem => parsePoolData_of_extends hitem)
  simp only [ContractMarket.thresholds, List.forall_mem_cons] at hthresholds
  simp only at hstate hpools
  simp only [parseMarketData, asMap, Read.ok_bind, hdecimals, hstate, parseGlobalStateThresholds, hthresholds,
    hpools, asVec, hparsed]
  rfl

/-! ## Obligations -/

theorem parsePositions_of_extends {α β : Type} {read : Address → List (Val × Val) → Read α}
    {pool : β → ScAddress} {numerals : β → List (String × Numeral)} {parsed : β → α} {positions : List β}
    (hread : ∀ b position, Holds position ((numerals b).map Numeral.field) →
      read (codec.toText (pool b)) position = .ok (parsed b))
    (hd : ∀ b, (((numerals b).map Numeral.field).map Prod.fst).Nodup)
    (h : Extends (.map (some (positions.map fun b =>
      (.address (pool b), record ((numerals b).map Numeral.field))))) val) :
    parsePositions codec read val = .ok (positions.map parsed) := by
  obtain ⟨entries, rfl, hentries⟩ := h.map_entries (by simp [fieldName])
  have hparsed : entries.mapM (parsePosition codec read) = .ok (positions.map fun b => some (parsed b)) := by
    rw [List.forall₂_map_left_iff] at hentries
    refine Traverse.mapM_of_forall₂ (hentries.imp fun b entry hentry => ?_)
    obtain ⟨position, hposition, hholds⟩ := hentry.2.holds (hd b)
    rw [parsePosition, hentry.1, hposition]
    simp only [asMap, Read.ok_bind, hread b position hholds]
    rfl
  rw [parsePositions, asMap, Read.ok_bind, hparsed]
  simp [List.reduceOption, pure, Except.pure]

/-- A pool of the parser's tests: its numbers are `i128`s and the flash loan fee a `U32`. -/
def testPool (key : Bytes32) (symbol : String) : ContractPool :=
  let zero := Numeral.ofI128 0 (by decide)
  let par := Numeral.ofI128 10000 (by decide)
  { poolAddress := .contract key
    tokenAddress := .contract key
    tokenSymbol := symbol
    tokenDecimals := 7
    totalBorrowed := zero
    totalDTokens := zero
    totalJTokens := zero
    totalAvailable := zero
    totalCollateral := zero
    totalAvailableAdjusted := zero
    totalSupply := zero
    jTokenRateFloorBps := par
    dTokenRateCeilBps := par
    oracleAssetPrice := Numeral.ofI128 usd (by decide)
    openLtvBps := Numeral.ofI128 8000 (by decide)
    closeLtvBps := Numeral.ofI128 8500 (by decide)
    liabilityFactorBps := par
    liquidationCloseFactorBps := Numeral.ofI128 5000 (by decide)
    maxLiquidationIncentiveBps := Numeral.ofI128 1000 (by decide)
    utilizationRatioLimitBps := Numeral.ofI128 9000 (by decide)
    flashLoanFeeBps := Numeral.ofU32 5
    statusFlags := 4294967295
    lastAccrualTimestamp := 1761000000
    borrowApyBps := 1200
    supplyApyBps := 700 }

/-- A market of test pools. -/
def testMarket (pools : List ContractPool) : ContractMarket where
  pools := pools
  oraclePriceDecimals := 14
  insolvencyLtvBps := Numeral.ofI128 9850 (by decide)
  minCollateralValueCents := Numeral.ofI128 500 (by decide)

/-- The answer of a market of one pool in another order and with a field more. -/
def testAnswer : Val := record (("version", .u32 3) :: (testMarket [testPool zeroKey "USDC"]).fields.reverse)

theorem testMarket_round_trip :
    parseMarketData TextCodec.stellar testAnswer =
      .ok ((testMarket [testPool zeroKey "USDC"]).snapshot TextCodec.stellar) :=
  market_round_trip _ (.of_subset (List.cons_ne_nil _ _) (by decide) fun _ hfield =>
    List.mem_cons_of_mem _ (List.mem_reverse.mpr hfield))

theorem readDeposit_of_holds (deposit : ContractDeposit) (position : List (Val × Val))
    (h : Holds position ((ContractObligation.depositFields deposit).map Numeral.field)) :
    readDeposit (codec.toText deposit.pool) position = .ok (ContractObligation.parsedDeposit codec deposit) := by
  have hnumerals := h.numerals _ (List.Subset.refl _)
  simp only [ContractObligation.depositFields, List.forall_mem_cons] at hnumerals
  rw [readDeposit, hnumerals.2.1, hnumerals.1]
  rfl

theorem readBorrow_of_holds (borrow : ContractBorrow) (position : List (Val × Val))
    (h : Holds position ((ContractObligation.borrowFields borrow).map Numeral.field)) :
    readBorrow (codec.toText borrow.pool) position = .ok (ContractObligation.parsedBorrow codec borrow) := by
  have hnumerals := h.numerals _ (List.Subset.refl _)
  simp only [ContractObligation.borrowFields, List.forall_mem_cons] at hnumerals
  rw [readBorrow, hnumerals.1]
  rfl

theorem parseObligation_of_holds (obligation : ContractObligation) {map : List (Val × Val)}
    (h : Holds map obligation.fields) :
    parseObligation codec (.map (some map)) = .ok (obligation.parsed codec) := by
  simp only [Holds, ContractObligation.fields, List.forall_mem_cons] at h
  obtain ⟨⟨borrows, hborrows, hextBorrows⟩, ⟨deposits, hdeposits, hextDeposits⟩,
    ⟨requests, hrequests, hextRequests⟩, -⟩ := h
  have hborrowed : parseBorrowPositions codec borrows =
      .ok (obligation.borrows.map (ContractObligation.parsedBorrow codec)) :=
    parsePositions_of_extends readBorrow_of_holds
      (by simp [ContractObligation.borrowFields, Numeral.field]) hextBorrows
  have hdeposited : parseDepositPositions codec deposits =
      .ok (obligation.deposits.map (ContractObligation.parsedDeposit codec)) :=
    parsePositions_of_extends readDeposit_of_holds
      (by simp [ContractObligation.depositFields, Numeral.field]) hextDeposits
  obtain ⟨entries, rfl, hentries⟩ := hextRequests.map_entries fun entry hentry => by
    obtain ⟨request, -, rfl⟩ := List.mem_map.mp hentry
    rfl
  have hlength : obligation.requests.length = entries.length := by
    rw [← hentries.length_eq, List.length_map]
  simp only [parseObligation, asMap, Read.ok_bind, parseOr, hdeposits, hborrows, hrequests, hborrowed,
    hdeposited]
  simp [ContractObligation.parsed, hlength, pure, Except.pure]

/-- **An obligation's answer parses to the obligation**, its positions in the order of the answer's. -/
theorem obligation_round_trip (obligation : ContractObligation) (h : Extends obligation.encode val) :
    parseObligation codec val = .ok (obligation.parsed codec) := by
  obtain ⟨map, rfl, hmap⟩ := h.holds (by simp [ContractObligation.fields])
  exact parseObligation_of_holds obligation hmap

/-- Half a token in collateral against a debt, two requests open. -/
def testObligation : ContractObligation where
  deposits := [{ pool := .contract zeroKey, jTokens := .ofU32 0, collateral := .ofU32 5000000 }]
  borrows := [{ pool := .contract zeroKey, dTokens := .ofU32 4000000 }]
  requests := [(.contract zeroKey, 7, 1790548841), (.contract zeroKey, 8, 1790548841)]

/-- Its answer in another order and with a field more. -/
def testObligationAnswer : Val := record (("version", .u32 3) :: testObligation.fields.reverse)

theorem testObligation_round_trip :
    parseObligation TextCodec.stellar testObligationAnswer = .ok {
      deposits := [{ jTokens := 0, collateral := 5000000, poolAddress := addressText (.contract zeroKey) }]
      borrows := [{ dTokens := 4000000, poolAddress := addressText (.contract zeroKey) }]
      openBadDebtRequests := 2 } :=
  obligation_round_trip testObligation (.of_subset (List.cons_ne_nil _ _) (by decide) fun _ hfield =>
    List.mem_cons_of_mem _ (List.mem_reverse.mpr hfield))

end AlulaKeeper
