import Mathlib
import AlulaKeeper.Keeper.Freshness
import AlulaKeeper.Keeper.Reservations
import AlulaKeeper.Keeper.Batch
import AlulaKeeper.Stellar.Errors

/-!
# The liquidator's scan

`handle_new_ledger` of `strategy/liquidator.rs` past its refresh: `evaulate_market`, `try_liquidate`,
`replan_pair` and `execute_liquidation_plan`, and `simulate_batch` of `simulation.rs`.

* `simulateBatch`, `planPair`, `replanPair`: what the scan computes between two awaits.
* `scanNext`: one step of the scan, or a call of another task.
* `Job.Liquidatable`, `Planned`, `RefusedAsDust`, `Simulated`: what a plan goes through, and where each comes from.
-/

namespace AlulaKeeper

open I128 Steps

/-! ## Simulating a batch -/

/-- The node behind `simulate_contract_call`. -/
structure Simulator where
  /-- The simulation's answer, its first result or the rendered error. -/
  invoke : InvokeContractArgs → Except (List Char) Val
  /-- The error of `Contract::from_string`. -/
  strkeyError : Address → List Char

/-- `BatchSimulation`. -/
inductive BatchSimulation where
  | ok
  | failed (contractCode : Option ℕ)
  deriving DecidableEq, Repr

section Simulating

variable (codec : TextCodec) (sim : Simulator) (market : Address)

/-- `simulate_contract_call`. -/
def simulateContractCall (functionName : String) (args : List Val) : Except (List Char) Val :=
  match codec.contractFromString market with
  | none => .error ("invalid contract strkey '".toList ++ market.toList ++ "': ".toList ++ sim.strkeyError market)
  | some contractAddress => sim.invoke { contractAddress, functionName, args }

/-- `simulate_batch`. -/
def simulateBatch (liquidator : ObligationKey) (requests : List Val) : Read BatchSimulation := do
  let key ← obligationKeyVal codec liquidator
  match simulateContractCall codec sim market "submit_requests_batch" [key, .vec (some requests), .void] with
  | .ok _ => return .ok
  | .error e => return .failed (contractErrorCode e)

end Simulating

/-! ## The scan -/

/-- The strategy as a scan sees it. -/
structure Liquidator where
  pkey : Address
  markets : List Address
  maxMarketDataAge : ℕ
  config : LiquidatorConfig
  capital : CapitalConfig
  codec : TextCodec
  marketData : Address → Option MarketSnapshot
  obligations : Address → List (ObligationKey × Obligation)

/-- `ObligationKey::new` of the keeper's account. -/
def Liquidator.key (lq : Liquidator) : ObligationKey := { user := lq.pkey, seed := none }

/-- A market under evaluation, the obligations left and the markets after it. -/
structure Visit where
  queue : List Address
  market : Address
  started : ℕ
  data : MarketData
  rows : List (ObligationKey × Obligation)

/-- A liquidatable obligation. -/
structure Job extends Visit where
  key : ObligationKey
  obligation : Obligation
  isInsolvent : Bool

/-- The arguments of the planner for a pair of the obligation. -/
def Job.target (job : Job) (margin : ClearingMargin) (borrow : BorrowPosition) (deposit : DepositPosition)
    (borrowPool collateralPool : PoolData) : PlanTarget where
  isInsolvent := job.isInsolvent
  borrowDTokens := borrow.dTokens
  borrowPool
  marketData := job.data
  collateralPool
  obligation := job.obligation
  deposit
  borrowerKey := job.key
  margin

/-- `SubmitStellarTx` with its settle hook. -/
structure LiquidationAction where
  op : InvokeContractArgs
  opId : ℕ
  market : Address
  expectedNetValue : ℤ

/-- Where the scan stands, between two awaits. -/
inductive ScanPoint where
  | markets (queue : List Address)
  | judging (visit : Visit)
  /-- Pairs left to plan, and the best plan so far. -/
  | planning (job : Job) (pairs : List (BorrowPosition × DepositPosition)) (best : Option LiquidationPlan)
  | simulating (job : Job) (margin : ClearingMargin) (plan : LiquidationPlan) (requests : List Val)
  /-- The market has refused the first plan as dust. -/
  | replanning (job : Job) (refused : LiquidationPlan)
  | funding (job : Job) (plan : LiquidationPlan) (requests : List Val)
  /-- No balance is cached. -/
  | fetching (job : Job) (plan : LiquidationPlan) (requests : List Val)
  | reserving (job : Job) (plan : LiquidationPlan) (requests : List Val) (rawBalance : ℤ)
  /-- Nothing to reserve: an id of its own. -/
  | minting (job : Job) (plan : LiquidationPlan) (requests : List Val)
  | building (job : Job) (plan : LiquidationPlan) (requests : List Val) (opId : ℕ)

/-- A call of `simulate_batch`. -/
structure Simulation where
  sim : Simulator
  market : Address
  requests : List Val

/-- The scan, with what it drew and was answered. -/
structure Scan where
  book : Book
  point : ScanPoint
  /-- Every action beside the plan it is for. -/
  actions : List (LiquidationPlan × LiquidationAction)
  /-- The ids this scan has drawn. -/
  own : List ℕ
  /-- The markets this scan has evaluated, and when. -/
  evaluated : List (Address × ℕ)
  /-- The batches this scan has had simulated. -/
  simulated : List Simulation
  /-- The pairs planned for the obligation at hand, and what came of them. -/
  tried : List ((BorrowPosition × DepositPosition) × Option LiquidationPlan)

/-- What the scan, the other tasks and the clock may do next. -/
inductive ScanCall where
  | evaluate
  | judge
  | plan (reader : LedgerReader) (now : ℕ)
  /-- The pairs are through. -/
  | select
  | simulate (sim : Simulator)
  | replan (reader : LedgerReader) (now : ℕ)
  /-- The two ends of `try_get_balance`, with the chain's answer. -/
  | lookUp
  | readBalance (answer : Option ℤ)
  /-- `random_id`. -/
  | drawId (id : ℕ)
  | build
  /-- A call of another task, or the clock. -/
  | others (act : BookAct)

namespace Liquidator

variable (lq : Liquidator)

/-- What `isJudged` reads. -/
def scanConfig : ScanConfig where
  pkey := lq.pkey
  markets := lq.markets
  refreshIntervalBlocks := 0
  maxMarketDataAge := lq.maxMarketDataAge
  dustRules := lq.config.dustRules

/-- The body of the two loops of `try_liquidate`; `none` where it continues without a plan. -/
def planPair (job : Job) (pair : BorrowPosition × DepositPosition) (reader : LedgerReader) (now : ℕ) :
    Res (Option LiquidationPlan) :=
  match job.data.findPool pair.1.poolAddress with
  | none => .ok none
  | some borrowPool =>
    if pair.2.poolAddress = pair.1.poolAddress then .ok none
    else if ¬ 0 < pair.2.jTokens ∧ ¬ 0 < pair.2.collateral then .ok none
    else
      match job.data.findPool pair.2.poolAddress with
      | none => .ok none
      | some collateralPool => buildLiquidationPlanForAssetPoolPair lq.config reader
          (job.target .initial pair.1 pair.2 borrowPool collateralPool) now

/-- `replan_pair`. -/
def replanPair (job : Job) (borrowPoolAddress collateralPoolAddress : Address) (reader : LedgerReader)
    (now : ℕ) : Res (Option LiquidationPlan) :=
  match job.obligation.borrows.find? (·.poolAddress == borrowPoolAddress),
      job.obligation.deposits.find? (·.poolAddress == collateralPoolAddress),
      job.data.findPool borrowPoolAddress, job.data.findPool collateralPoolAddress with
  | some borrow, some deposit, some borrowPool, some collateralPool =>
    buildLiquidationPlanForAssetPoolPair lq.config reader
      (job.target .retry borrow deposit borrowPool collateralPool) now
  | _, _, _, _ => .ok none

/-- The start of `execute_liquidation_plan`. -/
def execute (job : Job) (margin : ClearingMargin) (plan : LiquidationPlan) : ScanPoint :=
  match buildBatchRequests lq.codec plan with
  | none => .judging job.toVisit
  | some requests => .simulating job margin plan requests

/-- The verdicts of `evaulate_market`: a liquidatable obligation, by its solvency. -/
def verdict (data : MarketData) (obligation : Obligation) : Res (Option Bool) := do
  match ← toOption (computeIsLiquidatable obligation data lq.config.dustRules) with
  | some true => toOption (computeIsInsolvent obligation data)
  | _ => return none

end Liquidator

/-- The plan with the greater profit, the first of equals. -/
def pickProfitable (best : Option LiquidationPlan) (plan : LiquidationPlan) : Option LiquidationPlan :=
  match best with
  | none => some plan
  | some b => if plan.netProfitValue > b.netProfitValue then some plan else some b

/-- Every borrow with every deposit, in the order they are planned. -/
def Obligation.pairs (obligation : Obligation) : List (BorrowPosition × DepositPosition) :=
  obligation.borrows.flatMap fun borrow => obligation.deposits.map fun deposit => (borrow, deposit)

/-- One step; `none` where it is not enabled or panics. -/
def scanNext (lq : Liquidator) (s : Scan) : ScanCall → Option Scan
  | .evaluate =>
    match s.point with
    | .markets (market :: queue) =>
      match lq.marketData market with
      | none => some { s with point := .markets queue }
      | some snapshot =>
        if snapshot.age s.book.now > lq.maxMarketDataAge then some { s with point := .markets queue }
        else some { s with
          point := .judging
            { queue, market, started := s.book.now, data := snapshot.data, rows := lq.obligations market }
          evaluated := (market, s.book.now) :: s.evaluated }
    | .judging visit =>
      match visit.rows with
      | [] => some { s with point := .markets visit.queue }
      | _ => none
    | _ => none
  | .judge =>
    match s.point with
    | .judging visit =>
      match visit.rows with
      | [] => none
      | row :: rows =>
        let visit := { visit with rows }
        if isJudged lq.scanConfig visit.data row then
          match lq.verdict visit.data row.2 with
          | .ok (some isInsolvent) =>
            some { s with
              point := .planning { visit with key := row.1, obligation := row.2, isInsolvent } row.2.pairs none
              tried := [] }
          | .ok none => some { s with point := .judging visit }
          | .error _ => none
        else some { s with point := .judging visit }
    | _ => none
  | .plan reader now =>
    match s.point with
    | .planning job (pair :: pairs) best =>
      match lq.planPair job pair reader now with
      | .ok (some plan) => some { s with
          point := .planning job pairs (pickProfitable best plan)
          tried := s.tried ++ [(pair, some plan)] }
      | .ok none => some { s with
          point := .planning job pairs best
          tried := s.tried ++ [(pair, none)] }
      | .error _ => none
    | _ => none
  | .select =>
    match s.point with
    | .planning job [] (some plan) => some { s with point := lq.execute job .initial plan }
    | .planning job [] none => some { s with point := .judging job.toVisit }
    | _ => none
  | .simulate sim =>
    match s.point with
    | .simulating job margin plan requests =>
      match simulateBatch lq.codec sim job.market lq.key requests with
      | .ok .ok => some { s with
          point := if plan.reservation.2 > 0 then .funding job plan requests else .minting job plan requests
          simulated := { sim, market := job.market, requests } :: s.simulated }
      | .ok (.failed contractCode) =>
        some { s with
          point :=
            if contractCode = some liquidationLeavesDustCode ∧ margin = .initial ∧
                lq.config.dustRules = .noDust then
              .replanning job plan
            else .judging job.toVisit
          simulated := { sim, market := job.market, requests } :: s.simulated }
      | .error _ => some { s with point := .judging job.toVisit }
    | _ => none
  | .replan reader now =>
    match s.point with
    | .replanning job refused =>
      match lq.replanPair job refused.borrowPoolAddress refused.collateralPoolAddress reader now with
      | .ok (some plan) => some { s with point := lq.execute job .retry plan }
      | .ok none => some { s with point := .judging job.toVisit }
      | .error _ => none
    | _ => none
  | .lookUp =>
    match s.point with
    | .funding job plan requests =>
      match s.book.inner.getFreshlyCachedBalance lq.capital s.book.now plan.reservation.1 with
      | some rawBalance => some { s with point := .reserving job plan requests rawBalance }
      | none => some { s with point := .fetching job plan requests }
    | _ => none
  | .readBalance answer =>
    match s.point with
    | .fetching job plan requests =>
      match answer with
      | none => some { s with point := .judging job.toVisit }
      | some rawBalance => some { s with
          book := { s.book with inner := s.book.inner.cacheBalance s.book.now plan.reservation.1 rawBalance }
          point := .reserving job plan requests rawBalance }
    | _ => none
  | .drawId id =>
    match s.point with
    | .reserving job plan requests rawBalance =>
      match s.book.inner.reserve lq.capital s.book.now id plan.reservation.2
          (usableBalance lq.config plan.reservation.1 rawBalance) plan.reservation.1 with
      | .ok (.ok opId, inner) => some { s with
          book := { s.book with inner, issued := opId :: s.book.issued }
          own := opId :: s.own
          point := .building job plan requests opId }
      | .ok (.error _, inner) => some { s with
          book := { s.book with inner }
          point := .judging job.toVisit }
      | .error _ => none
    | .minting job plan requests => some { s with
        book := { s.book with issued := id :: s.book.issued }
        own := id :: s.own
        point := .building job plan requests id }
    | _ => none
  | .build =>
    match s.point with
    | .building job plan requests opId =>
      match buildBatchOp lq.codec job.market lq.key requests with
      | .ok op => some { s with
          point := .judging job.toVisit
          actions := s.actions ++
            [(plan, { op, opId, market := job.market, expectedNetValue := plan.netProfitValue })] }
      | .error _ => some { s with
          book := { s.book with inner := s.book.inner.release opId }
          point := .judging job.toVisit }
    | _ => none
  | .others act => (bookStep lq.capital s.book act).map fun book => { s with book }

/-- Before the first market, whatever the ledger. -/
def Scan.start (lq : Liquidator) (book : Book) : Scan where
  book
  point := .markets lq.markets
  actions := []
  own := []
  evaluated := []
  simulated := []
  tried := []

/-- Ids are fresh, and the other tasks release only their own. -/
def ScanCall.Fair (s : Scan) : ScanCall → Prop
  | .drawId id => id ∉ s.book.issued
  | .others (.reserve id _ _ _) => id ∉ s.book.issued
  | .others (.release id) => id ∉ s.own
  | _ => True

/-! ## What a plan goes through -/

/-- The obligation was judged against a snapshot that was fresh when its market's evaluation started, and found
liquidatable. -/
structure Job.Liquidatable (lq : Liquidator) (evaluated : List (Address × ℕ)) (job : Job) : Prop where
  started : (job.market, job.started) ∈ evaluated
  snapshot : ∃ snapshot, lq.marketData job.market = some snapshot ∧ snapshot.data = job.data ∧
    snapshot.age job.started ≤ lq.maxMarketDataAge
  listed : (job.key, job.obligation) ∈ lq.obligations job.market
  judged : isJudged lq.scanConfig job.data (job.key, job.obligation) = true
  liquidatable : computeIsLiquidatable job.obligation job.data lq.config.dustRules = .ok true
  insolvency : computeIsInsolvent job.obligation job.data = .ok job.isInsolvent

/-- A plan for two different pools of the obligation. -/
def Planned (lq : Liquidator) (job : Job) (margin : ClearingMargin) (plan : LiquidationPlan) : Prop :=
  ∃ borrow ∈ job.obligation.borrows, ∃ deposit ∈ job.obligation.deposits,
    ∃ borrowPool collateralPool reader now, job.data.findPool borrow.poolAddress = some borrowPool ∧
      job.data.findPool deposit.poolAddress = some collateralPool ∧ deposit.poolAddress ≠ borrow.poolAddress ∧
      buildLiquidationPlanForAssetPoolPair lq.config reader
        (job.target margin borrow deposit borrowPool collateralPool) now = .ok (some plan)

/-- A first plan whose batch was simulated, and refused because it leaves dust. -/
structure RefusedAsDust (lq : Liquidator) (simulated : List Simulation) (job : Job) (refused : LiquidationPlan) :
    Prop where
  rules : lq.config.dustRules = .noDust
  planned : Planned lq job .initial refused
  answer : ∃ requests sim, buildBatchRequests lq.codec refused = some requests ∧
    { sim, market := job.market, requests } ∈ simulated ∧
      simulateBatch lq.codec sim job.market lq.key requests = .ok (.failed (some liquidationLeavesDustCode))

/-- The margin is the first one, or follows a dust refusal for the same pools. -/
def MarginOk (lq : Liquidator) (simulated : List Simulation) (job : Job) (margin : ClearingMargin)
    (plan : LiquidationPlan) : Prop :=
  margin = .initial ∨ margin = .retry ∧ ∃ refused, RefusedAsDust lq simulated job refused ∧
    refused.borrowPoolAddress = plan.borrowPoolAddress ∧
    refused.collateralPoolAddress = plan.collateralPoolAddress

/-- The operation is the plan's batch, and was simulated without an error. -/
def Simulated (lq : Liquidator) (simulated : List Simulation) (market : Address) (plan : LiquidationPlan)
    (op : InvokeContractArgs) : Prop :=
  ∃ requests sim val, buildBatchRequests lq.codec plan = some requests ∧
    buildBatchOp lq.codec market lq.key requests = .ok op ∧ { sim, market, requests } ∈ simulated ∧
    sim.invoke op = .ok val

/-- What an action stands for. -/
def Justified (lq : Liquidator) (evaluated : List (Address × ℕ)) (simulated : List Simulation)
    (plan : LiquidationPlan) (action : LiquidationAction) : Prop :=
  ∃ job margin, job.Liquidatable lq evaluated ∧ job.market = action.market ∧ Planned lq job margin plan ∧
    MarginOk lq simulated job margin plan ∧ Simulated lq simulated job.market plan action.op ∧
    action.expectedNetValue = plan.netProfitValue

section Planned

variable {lq : Liquidator} {job : Job} {plan : LiquidationPlan} {reader : LedgerReader} {now : ℕ}

theorem Planned.names {margin : ClearingMargin} (h : Planned lq job margin plan) :
    plan.borrowerKey = job.key ∧ plan.collateralPoolAddress ≠ plan.borrowPoolAddress := by
  obtain ⟨borrow, -, deposit, -, borrowPool, collateralPool, _, _, hborrow, hdeposit, hdiffer, hbuilt⟩ := h
  obtain ⟨hkey, hborrowPool, hcollateralPool⟩ := build_names hbuilt
  refine ⟨hkey, ?_⟩
  rw [hborrowPool, hcollateralPool]
  show collateralPool.poolAddress ≠ borrowPool.poolAddress
  rwa [MarketData.poolAddress_of_findPool hborrow, MarketData.poolAddress_of_findPool hdeposit]

theorem planPair_planned {pair : BorrowPosition × DepositPosition} (hpair : pair ∈ job.obligation.pairs)
    (h : lq.planPair job pair reader now = .ok (some plan)) : Planned lq job .initial plan := by
  obtain ⟨borrow, hborrow, hpaired⟩ := List.mem_flatMap.mp hpair
  obtain ⟨deposit, hdeposit, rfl⟩ := List.mem_map.mp hpaired
  unfold Liquidator.planPair at h
  split at h
  · cases h
  rename_i borrowPool hborrowPool
  split_ifs at h with hsame hempty
  · cases h
  · cases h
  split at h
  · cases h
  rename_i collateralPool hcollateralPool
  exact ⟨borrow, hborrow, deposit, hdeposit, borrowPool, collateralPool, reader, now, hborrowPool, hcollateralPool,
    hsame, h⟩

theorem replanPair_planned {borrowPoolAddress collateralPoolAddress : Address}
    (hdiffer : collateralPoolAddress ≠ borrowPoolAddress)
    (h : lq.replanPair job borrowPoolAddress collateralPoolAddress reader now = .ok (some plan)) :
    Planned lq job .retry plan ∧ plan.borrowPoolAddress = borrowPoolAddress ∧
      plan.collateralPoolAddress = collateralPoolAddress := by
  unfold Liquidator.replanPair at h
  split at h
  · rename_i borrow deposit borrowPool collateralPool hborrow hdeposit hborrowPool hcollateralPool
    have hborrowAt := List.find?_some hborrow
    have hdepositAt := List.find?_some hdeposit
    simp only [beq_iff_eq] at hborrowAt hdepositAt
    obtain ⟨-, hborrowName, hcollateralName⟩ := build_names h
    refine ⟨⟨borrow, List.mem_of_find?_eq_some hborrow, deposit, List.mem_of_find?_eq_some hdeposit, borrowPool,
      collateralPool, reader, now, ?_, ?_, ?_, h⟩, ?_, ?_⟩
    · rw [hborrowAt, hborrowPool]
    · rw [hdepositAt, hcollateralPool]
    · rw [hborrowAt, hdepositAt]
      exact hdiffer
    · rw [hborrowName]
      exact MarketData.poolAddress_of_findPool hborrowPool
    · rw [hcollateralName]
      exact MarketData.poolAddress_of_findPool hcollateralPool
  · cases h

/-- A batch that simulates is built again without an error, and is what was simulated. -/
theorem simulateBatch_ok {sim : Simulator} {market : Address} {key : ObligationKey} {requests : List Val}
    {codec : TextCodec} (h : simulateBatch codec sim market key requests = .ok .ok) :
    ∃ op val, buildBatchOp codec market key requests = .ok op ∧ sim.invoke op = .ok val := by
  unfold simulateBatch at h
  unfold buildBatchOp contractStrkeyToHash
  cases hkey : obligationKeyVal codec key with
  | error e =>
    rw [hkey] at h
    cases h
  | ok key =>
    rw [hkey] at h
    unfold simulateContractCall at h
    cases hmarket : codec.contractFromString market with
    | none =>
      rw [hmarket] at h
      cases h
    | some hash =>
      rw [hmarket] at h
      cases hanswer : sim.invoke
          ⟨hash, "submit_requests_batch", [key, .vec (some requests), .void]⟩ with
      | error e =>
        simp only [Read.ok_bind, hanswer] at h
        cases h
      | ok val => exact ⟨_, val, rfl, hanswer⟩

theorem foldl_pickProfitable {plans : List LiquidationPlan} {best : Option LiquidationPlan}
    (h : plans.foldl pickProfitable best = some plan) :
    (plan ∈ plans ∨ best = some plan) ∧ (∀ p ∈ plans, p.netProfitValue ≤ plan.netProfitValue) ∧
      ∀ b, best = some b → b.netProfitValue ≤ plan.netProfitValue := by
  induction plans generalizing best with
  | nil =>
    obtain rfl : best = some plan := h
    exact ⟨.inr rfl, by simp, fun b hb => by rw [Option.some.inj hb]⟩
  | cons p plans ih =>
    obtain ⟨hfrom, hle, hbest⟩ := ih h
    have hpick : p.netProfitValue ≤ plan.netProfitValue ∧
        ∀ b, best = some b → b.netProfitValue ≤ plan.netProfitValue := by
      cases best with
      | none => exact ⟨hbest p rfl, by simp⟩
      | some b =>
        by_cases hmore : p.netProfitValue > b.netProfitValue
        · have hp := hbest p (by simp [pickProfitable, hmore])
          exact ⟨hp, by rintro _ ⟨⟩; omega⟩
        · have hb := hbest b (by simp [pickProfitable, hmore])
          exact ⟨by omega, by rintro _ ⟨⟩; exact hb⟩
    refine ⟨?_, List.forall_mem_cons.mpr ⟨hpick.1, hle⟩, hpick.2⟩
    obtain hmem | hpicked := hfrom
    · exact .inl (List.mem_cons_of_mem p hmem)
    cases best with
    | none => exact .inl (by simp [Option.some.inj hpicked])
    | some b =>
      by_cases hmore : p.netProfitValue > b.netProfitValue
      · simp only [pickProfitable, hmore, if_true] at hpicked
        exact .inl (by simp [Option.some.inj hpicked])
      · simp only [pickProfitable, hmore, if_false] at hpicked
        exact .inr hpicked

end Planned

end AlulaKeeper
