import Mathlib
import AlulaKeeper.Lib.Steps
import AlulaKeeper.Keeper.Obligations
import AlulaKeeper.Keeper.Cadence

/-!
# Withdrawals and the utilization band

`strategy/withdrawer.rs` beside the executor's queue. A withdrawal is sized on the chain state the handler
read and executed later.

* `findWithdrawalOpportunities`: the withdrawals a handler asks for.
* `BandState`, `bandStep`: one pool, the keeper's deposit in it and the withdrawals queued for it.
* `mem_findWithdrawalOpportunities`: what a withdrawal asked for was sized on.
* `withdrawals_keep_the_band`: over runs whose handlers find no withdrawal queued, every executed one leaves
  the pool within the band.
-/

namespace AlulaKeeper

open I128 Steps

/-- `WithdrawerConfig`. -/
structure WithdrawerConfig where
  markets : List Address
  refreshIntervalBlocks : ℕ
  minWithdrawValueCents : ℤ
  utilizationSafetyMarginBps : ℤ
  deriving DecidableEq, Repr

/-- A `withdraw` of a pool; an amount of `i128::MAX` is the whole deposit. -/
structure Withdrawal where
  poolAddress : Address
  amount : ℤ
  deriving DecidableEq, Repr

/-- The amount of the operation: the whole deposit is asked for as `i128::MAX`. -/
def askedAmount (liquidatorUnderlying withdrawalAmount : ℤ) : ℤ :=
  if withdrawalAmount = liquidatorUnderlying then maxVal else withdrawalAmount

section Opportunities

variable (config : WithdrawerConfig) (builds : Withdrawal → Bool) (market : MarketData)

/-- `compute_withdrawal_value_cents`; the decimals are added as `u32`. -/
def computeWithdrawalValueCents (pool : PoolData) (tokenAmount : Underlying) : Res (Option ℤ) :=
  if pool.oracleAssetPrice ≤ 0 then pure none
  else
    let pow := pool.tokenDecimals + market.oraclePriceDecimals
    if 2 ^ 32 ≤ pow then .error .abort
    else if pow < 2 then pure none
    else
      match checkedMul tokenAmount pool.oracleAssetPrice with
      | none => pure none
      | some numerator => do
        let valueRaw ← rawDiv numerator (← rawPow10 (pow - 2))
        return some (max valueRaw 0)

/-- What the loop over the deposits does with one of them. -/
inductive Opportunity where
  | none
  | withdraw (withdrawal : Withdrawal)
  /-- Its value cannot be computed: the handler returns no withdrawal at all. -/
  | giveUp
  deriving DecidableEq, Repr

/-- The body of the loop of `find_withdrawal_opportunities`; `builds` says whether the gateway builds the
operation. -/
def withdrawalOpportunity (deposit : DepositPosition) : Res Opportunity :=
  match market.findPool deposit.poolAddress with
  | none => pure .none
  | some pool => do
    match ← toOption (pool.computeMaxSafeWithdrawal config.utilizationSafetyMarginBps) with
    | none => return .none
    | some maxWithdrawal =>
      if maxWithdrawal = 0 then
        return .none
      match ← toOption (pool.jTokensToTokensFloor deposit.jTokens) with
      | none => return .none
      | some liquidatorUnderlying =>
        if liquidatorUnderlying = 0 then
          return .none
        let withdrawalAmount := min liquidatorUnderlying maxWithdrawal
        match ← computeWithdrawalValueCents market pool withdrawalAmount with
        | none => return .giveUp
        | some withdrawalValueCents =>
          let amount := askedAmount liquidatorUnderlying withdrawalAmount
          let withdrawal : Withdrawal := { poolAddress := pool.poolAddress, amount }
          if withdrawalValueCents ≥ config.minWithdrawValueCents ∧ builds withdrawal then
            return .withdraw withdrawal
          return .none

/-- `find_withdrawal_opportunities`, with the withdrawals found so far. -/
def findWithdrawalOpportunities (actions : List Withdrawal) :
    List DepositPosition → Res (List Withdrawal)
  | [] => pure actions
  | deposit :: deposits => do
    match ← withdrawalOpportunity config builds market deposit with
    | .none => findWithdrawalOpportunities actions deposits
    | .withdraw withdrawal => findWithdrawalOpportunities (actions ++ [withdrawal]) deposits
    | .giveUp => return []

end Opportunities

/-! ## The queue -/

/-- What the Withdrawer reacts to. -/
inductive WithdrawerTrigger where
  | newLedger (seqNum : ℕ)
  | event (contractId : Address) (operation : Option OperationEvent)
  deriving DecidableEq, Repr

/-- Whether the handlers go on to read the chain. -/
def WithdrawerTrigger.fires (config : WithdrawerConfig) : WithdrawerTrigger → Bool
  | newLedger seqNum => (Periodic.withdrawer.handleNewLedger config.refreshIntervalBlocks 0 seqNum).isSome
  | event contractId operation => contractId ∈ config.markets ∧
      (operation = some .deposit ∨ operation = some .repay ∨ operation = some .liquidate)

/-- A pool, the keeper's deposit in it, and the withdrawals dispatched for it, the oldest first. -/
structure BandState where
  pool : PoolData
  deposit : DepositPosition
  queue : List ℤ
  deriving DecidableEq, Repr

/-- What the Withdrawer and the chain may do next. -/
inductive BandAct where
  /-- The Withdrawer handles a trigger, having read the market and its own obligation. -/
  | handle (trigger : WithdrawerTrigger) (market : MarketData) (obligation : Obligation)
  /-- The oldest withdrawal is executed; a partial one burns `burned` shares. -/
  | execute (burned : JTokens)
  /-- Its transaction fails for good. -/
  | drop

/-- The pool and the deposit once `amount` tokens and `burned` shares left. -/
def BandState.withdrawn (s : BandState) (amount burned : ℤ) (queue : List ℤ) : BandState where
  pool := { s.pool with
    totalSupply := s.pool.totalSupply - amount
    totalJTokens := s.pool.totalJTokens - burned }
  deposit := { s.deposit with jTokens := s.deposit.jTokens - burned }
  queue

/-- The chain's data is what the handler reads: the pool first at its address, the deposit once or, left
empty, not at all. -/
def BandState.ReadAs (s : BandState) (market : MarketData) (obligation : Obligation) : Prop :=
  market.findPool s.pool.poolAddress = some s.pool ∧
    (obligation.deposits.filter (·.poolAddress == s.pool.poolAddress) = [s.deposit] ∨
      obligation.deposits.filter (·.poolAddress == s.pool.poolAddress) = [])

instance {s : BandState} {market : MarketData} {obligation : Obligation} :
    Decidable (s.ReadAs market obligation) :=
  inferInstanceAs (Decidable (_ ∧ _))

/-- One step; `none` where it is not enabled. -/
def bandStep (config : WithdrawerConfig) (builds : Withdrawal → Bool) (s : BandState) :
    BandAct → Option BandState
  | .handle trigger market obligation =>
    if trigger.fires config ∧ s.ReadAs market obligation then
      match findWithdrawalOpportunities config builds market [] obligation.deposits with
      | .ok actions =>
        let ours := actions.filter (·.poolAddress == s.pool.poolAddress)
        some { s with queue := s.queue ++ ours.map (·.amount) }
      | .error _ => none
    else none
  | .execute burned =>
    match s.queue with
    | [] => none
    | amount :: queue =>
      if amount = maxVal then
        match s.pool.jTokensToTokensFloor s.deposit.jTokens with
        | .ok whole => some (s.withdrawn whole s.deposit.jTokens queue)
        | .error _ => none
      else some (s.withdrawn amount burned queue)
  | .drop =>
    match s.queue with
    | [] => none
    | _ :: queue => some { s with queue }

/-! ## What a withdrawal was sized on -/

/-- A withdrawal of `amount` takes at most what can safely leave the pool. -/
def Sized (margin : ℤ) (pool : PoolData) (deposit : DepositPosition) (amount : ℤ) : Prop :=
  ∃ maxWithdrawal whole, pool.computeMaxSafeWithdrawal margin = .ok maxWithdrawal ∧ maxWithdrawal ≠ 0 ∧
    pool.jTokensToTokensFloor deposit.jTokens = .ok whole ∧
      (if amount = maxVal then whole else amount) ≤ maxWithdrawal

section Sized

variable {config : WithdrawerConfig} {builds : Withdrawal → Bool} {market : MarketData}

theorem fits_of_jTokensToTokensFloor {pool : PoolData} {jTokens u : ℤ}
    (h : pool.jTokensToTokensFloor jTokens = .ok u) : Fits u := by
  unfold PoolData.jTokensToTokensFloor PoolData.shareFloor at h
  split_ifs at h with hzero
  · cases h
    exact fits_zero
  · obtain ⟨product, -, h⟩ := bind_eq_ok.mp h
    rw [rawDiv, if_neg hzero] at h
    obtain ⟨hfits, rfl⟩ := raw_eq_ok.mp h
    exact hfits

theorem takes_le {whole maxWithdrawal : ℤ} (hfits : Fits whole) :
    (if askedAmount whole (min whole maxWithdrawal) = maxVal then whole
      else askedAmount whole (min whole maxWithdrawal)) ≤ maxWithdrawal := by
  unfold askedAmount
  split_ifs with hwhole _ hmax
  · exact min_eq_left_iff.mp hwhole
  · exact absurd rfl ‹_›
  · have hlt : maxWithdrawal < whole := not_le.mp fun hle => hwhole (min_eq_left hle)
    rw [min_eq_right hlt.le] at hmax
    exact hmax ▸ hfits.2
  · exact min_le_right whole maxWithdrawal

/-- **A withdrawal asked for is sized on the pool read.** -/
theorem withdrawalOpportunity_sized {deposit : DepositPosition} {w : Withdrawal}
    (h : withdrawalOpportunity config builds market deposit = .ok (.withdraw w)) :
    ∃ pool, market.findPool deposit.poolAddress = some pool ∧ w.poolAddress = pool.poolAddress ∧
      Sized config.utilizationSafetyMarginBps pool deposit w.amount := by
  unfold withdrawalOpportunity at h
  split at h
  · cases h
  rename_i pool hpool
  obtain ⟨max?, hmax, h⟩ := bind_eq_ok.mp h
  cases max? with
  | none => cases h
  | some maxWithdrawal =>
    dsimp only at h
    split_ifs at h with hzero
    · cases h
    obtain ⟨whole?, hwhole, h⟩ := bind_eq_ok.mp h
    cases whole? with
    | none => cases h
    | some whole =>
      dsimp only at h
      split_ifs at h with hempty
      · cases h
      obtain ⟨cents?, -, h⟩ := bind_eq_ok.mp h
      cases cents? with
      | none => cases h
      | some cents =>
        dsimp only at h
        split_ifs at h
        · cases h
          exact ⟨pool, hpool, rfl, maxWithdrawal, whole, toOption_eq_some.mp hmax, hzero,
            toOption_eq_some.mp hwhole, takes_le
              (fits_of_jTokensToTokensFloor (toOption_eq_some.mp hwhole))⟩
        · cases h

/-- What is asked for came from a deposit, and no address is asked for more often than deposits hold it. -/
theorem mem_findWithdrawalOpportunities {found actions : List Withdrawal} {deposits : List DepositPosition}
    (h : findWithdrawalOpportunities config builds market found deposits = .ok actions) :
    (∀ w ∈ actions, w ∈ found ∨ ∃ d ∈ deposits,
      withdrawalOpportunity config builds market d = .ok (.withdraw w)) ∧
      ∀ address, (actions.filter (·.poolAddress == address)).length ≤
        (found.filter (·.poolAddress == address)).length +
          (deposits.filter (·.poolAddress == address)).length := by
  induction deposits generalizing found with
  | nil =>
    cases h
    exact ⟨fun w hw => .inl hw, fun _ => Nat.le_add_right _ _⟩
  | cons d deposits ih =>
    obtain ⟨opportunity, hd, h⟩ := bind_eq_ok.mp h
    have hskip : ∀ address, (deposits.filter (·.poolAddress == address)).length ≤
        ((d :: deposits).filter (·.poolAddress == address)).length :=
      fun address => ((List.sublist_cons_self d deposits).filter _).length_le
    cases opportunity with
    | none =>
      obtain ⟨hmem, hcount⟩ := ih h
      refine ⟨fun w hw => ?_, fun address => (hcount address).trans (by have := hskip address; omega)⟩
      obtain hw | ⟨d', hd', hw⟩ := hmem w hw
      · exact .inl hw
      · exact .inr ⟨d', List.mem_cons_of_mem d hd', hw⟩
    | withdraw withdrawal =>
      obtain ⟨pool, hpool, haddress, -⟩ := withdrawalOpportunity_sized hd
      have hsame : withdrawal.poolAddress = d.poolAddress :=
        haddress.trans (MarketData.poolAddress_of_findPool hpool)
      obtain ⟨hmem, hcount⟩ := ih h
      refine ⟨fun w hw => ?_, fun address => ?_⟩
      · obtain hw | ⟨d', hd', hw⟩ := hmem w hw
        · obtain hw | hw := List.mem_append.mp hw
          · exact .inl hw
          · obtain rfl := List.mem_singleton.mp hw
            exact .inr ⟨d, List.mem_cons_self, hd⟩
        · exact .inr ⟨d', List.mem_cons_of_mem d hd', hw⟩
      · have hone := hcount address
        rw [List.filter_append, List.length_append] at hone
        by_cases haddr : d.poolAddress = address
        · simp [hsame, haddr] at hone ⊢
          omega
        · simp [hsame, haddr] at hone ⊢
          omega
    | giveUp =>
      cases h
      exact ⟨fun w hw => (List.not_mem_nil hw).elim, fun _ => Nat.zero_le _⟩

end Sized

/-! ## The band over runs -/

/-- The utilization, rounded up, is at most the limit less the safety margin. -/
def PoolData.WithinBand (pool : PoolData) (margin : ℤ) : Prop :=
  ⌈(pool.totalBorrowed * 10000 / pool.totalSupply : ℚ)⌉ ≤ pool.utilizationRatioLimitBps - margin

/-- A handler runs only with no withdrawal of the pool queued. -/
def NothingQueued (s : BandState) : BandAct → Prop
  | .handle _ _ _ => s.queue = []
  | _ => True

/-- At most one withdrawal is queued, and it is sized on the pool and the deposit as they are. -/
def BandState.Settled (margin : ℤ) (s : BandState) : Prop :=
  s.queue = [] ∨ ∃ amount, s.queue = [amount] ∧ Sized margin s.pool s.deposit amount

section Band

variable {config : WithdrawerConfig} {builds : Withdrawal → Bool} {s t : BandState}

theorem Sized.withinBand {pool : PoolData} {deposit : DepositPosition} {margin amount taken : ℤ}
    (h : Sized margin pool deposit amount) (htaken : ∀ whole,
      pool.jTokensToTokensFloor deposit.jTokens = .ok whole →
        taken = if amount = maxVal then whole else amount) (hpos : 0 < pool.totalSupply - taken) :
    { pool with totalSupply := pool.totalSupply - taken }.WithinBand margin := by
  obtain ⟨maxWithdrawal, whole, hmax, hne, hwhole, hle⟩ := h
  obtain ⟨safe, hsafe, hlimit, hborrowed⟩ := PoolData.computeMaxSafeWithdrawal_safe hmax hne
  rw [← htaken whole hwhole] at hle
  have hscaled : pool.totalBorrowed * 10000 ≤ safe * (pool.totalSupply - taken) :=
    hborrowed.trans (mul_le_mul_of_nonneg_left (sub_le_sub_left hle _) hsafe.le)
  refine le_trans (Int.ceil_le.mpr ?_) hlimit
  have hpos' : (0 : ℚ) < ((pool.totalSupply - taken : ℤ) : ℚ) := by exact_mod_cast hpos
  rw [div_le_iff₀ hpos']
  exact_mod_cast hscaled

/-- What one handler queues for the pool is at most one withdrawal, sized on what it read. -/
theorem queued_sized {market : MarketData} {obligation : Obligation} {actions : List Withdrawal}
    (hread : s.ReadAs market obligation)
    (h : findWithdrawalOpportunities config builds market [] obligation.deposits = .ok actions) :
    (actions.filter (·.poolAddress == s.pool.poolAddress)).map (·.amount) = [] ∨
      ∃ amount, (actions.filter (·.poolAddress == s.pool.poolAddress)).map (·.amount) = [amount] ∧
        Sized config.utilizationSafetyMarginBps s.pool s.deposit amount := by
  obtain ⟨hpool, hdeposit⟩ := hread
  obtain ⟨hmem, hcount⟩ := mem_findWithdrawalOpportunities h
  have hone : (actions.filter (·.poolAddress == s.pool.poolAddress)).length ≤ 1 := by
    refine (hcount s.pool.poolAddress).trans ?_
    obtain hd | hd := hdeposit <;> simp [hd]
  obtain hnone | hsome := Nat.le_one_iff_eq_zero_or_eq_one.mp hone
  · rw [List.length_eq_zero_iff.mp hnone]
    exact .inl rfl
  · obtain ⟨w, hours⟩ := List.length_eq_one_iff.mp hsome
    refine .inr ⟨w.amount, by rw [hours]; rfl, ?_⟩
    have hw : w ∈ actions.filter (·.poolAddress == s.pool.poolAddress) := hours ▸ List.mem_singleton_self w
    obtain ⟨hw, haddress⟩ := List.mem_filter.mp hw
    obtain hw | ⟨d, hd, hw⟩ := hmem w hw
    · exact (List.not_mem_nil hw).elim
    obtain ⟨pool, hfound, hsame, hsized⟩ := withdrawalOpportunity_sized hw
    have hdp : d.poolAddress = s.pool.poolAddress :=
      (MarketData.poolAddress_of_findPool hfound).symm.trans (hsame.symm.trans (beq_iff_eq.mp haddress))
    obtain rfl : pool = s.pool := Option.some.inj (hfound.symm.trans (hdp ▸ hpool))
    have hmine : d ∈ obligation.deposits.filter (·.poolAddress == s.pool.poolAddress) :=
      List.mem_filter.mpr ⟨hd, beq_iff_eq.mpr hdp⟩
    obtain hd | hd := hdeposit
    · rw [hd, List.mem_singleton] at hmine
      exact hmine ▸ hsized
    · rw [hd] at hmine
      exact (List.not_mem_nil hmine).elim

/-- **One step.** A step that handles only with nothing queued leaves at most one withdrawal, still sized
on the pool. -/
theorem bandStep_settled (a : BandAct) (h : s.Settled config.utilizationSafetyMarginBps)
    (hguard : NothingQueued s a) (hstep : bandStep config builds s a = some t) :
    t.Settled config.utilizationSafetyMarginBps := by
  cases a with
  | handle trigger market obligation =>
    simp only [bandStep] at hstep
    split_ifs at hstep with hfires
    split at hstep
    · rename_i actions hactions
      cases hstep
      have hqueue : s.queue = [] := hguard
      simpa only [BandState.Settled, hqueue, List.nil_append] using queued_sized hfires.2 hactions
    · cases hstep
  | execute burned =>
    obtain hq | ⟨amount, hq, -⟩ := h
    · simp [bandStep, hq] at hstep
    · simp only [bandStep, hq] at hstep
      split_ifs at hstep
      · split at hstep <;> cases hstep
        exact .inl rfl
      · cases hstep
        exact .inl rfl
  | drop =>
    obtain hq | ⟨amount, hq, -⟩ := h
    · simp [bandStep, hq] at hstep
    · simp only [bandStep, hq] at hstep
      cases hstep
      exact .inl rfl

/-- **The band is kept while nothing is queued twice.** In every run whose handlers find no withdrawal of the
pool queued, every executed withdrawal that leaves a positive supply leaves the utilization within the
band. -/
theorem withdrawals_keep_the_band (config : WithdrawerConfig) (builds : Withdrawal → Bool)
    (pool : PoolData) (deposit : DepositPosition) (acts : List BandAct) (s : BandState)
    (h : Run (bandStep config builds) NothingQueued ⟨pool, deposit, []⟩ acts s) (burned : JTokens)
    (t : BandState) (hexecute : bandStep config builds s (.execute burned) = some t)
    (hpos : 0 < t.pool.totalSupply) : t.pool.WithinBand config.utilizationSafetyMarginBps := by
  have hend : s.Settled config.utilizationSafetyMarginBps :=
    h.invariant (fun _ a _ hs hg hstep => bandStep_settled a hs hg hstep) (.inl rfl)
  obtain hq | ⟨amount, hq, hsized⟩ := hend
  · simp [bandStep, hq] at hexecute
  · simp only [bandStep, hq] at hexecute
    split_ifs at hexecute with hmax
    · split at hexecute <;> cases hexecute
      rename_i whole hwhole
      exact hsized.withinBand
        (fun w hw => by rw [if_pos hmax]; exact ok_unique hwhole hw) hpos
    · cases hexecute
      exact hsized.withinBand (fun _ _ => (if_neg hmax).symm) hpos

end Band

/-! ## Two events before one execution -/

/-- 1400 supplied, 1000 borrowed, a limit of 95%. -/
def lentPool : PoolData :=
  { dustPool "USDC" usd with
    totalSupply := 14000000000
    totalJTokens := 14000000000
    totalBorrowed := 10000000000
    utilizationRatioLimitBps := 9500 }

/-- The keeper holds 400 of them. -/
def lentDeposit : DepositPosition := { jTokens := 4000000000, collateral := 0, poolAddress := "USDC" }

/-- Every fifth ledger, fifteen percent under the limit. -/
def withdrawerConfig : WithdrawerConfig where
  markets := ["MARKET"]
  refreshIntervalBlocks := 5
  minWithdrawValueCents := 0
  utilizationSafetyMarginBps := 1500

/-- A repayment is handled on the chain as it is. -/
def handleRepay : BandAct :=
  .handle (.event "MARKET" (some .repay)) { dustMarket usd with poolsData := [lentPool] }
    { borrows := [], deposits := [lentDeposit], openBadDebtRequests := 0 }

/-- One repayment, one withdrawal of 150: the band of 80% is reached and kept. -/
theorem one_withdrawal_keeps_the_band :
    (BandState.withdrawn ⟨lentPool, lentDeposit, []⟩ 1500000000 1500000000 []).pool.WithinBand 1500 :=
  withdrawals_keep_the_band withdrawerConfig (fun _ => true) lentPool lentDeposit [handleRepay]
    ⟨lentPool, lentDeposit, [1500000000]⟩ (.cons rfl (by decide +kernel) (.nil _)) 1500000000 _ rfl
    (by decide)

/-- **Two events, two withdrawals.** Both are sized on the pool before either is executed; the second takes
the utilization to 90.91%. -/
theorem two_queued_withdrawals_breach_the_band :
    ∃ s t, Run (bandStep withdrawerConfig fun _ => true) (fun _ _ => True) ⟨lentPool, lentDeposit, []⟩
        [handleRepay, handleRepay, .execute 1500000000] s ∧
      bandStep withdrawerConfig (fun _ => true) s (.execute 1500000000) = some t ∧
        0 < t.pool.totalSupply ∧ ¬ t.pool.WithinBand 1500 := by
  refine ⟨⟨_, _, [1500000000]⟩, _, .cons trivial (t := ⟨lentPool, lentDeposit, [1500000000]⟩)
    (by decide +kernel) (.cons trivial (t := ⟨lentPool, lentDeposit, [1500000000, 1500000000]⟩)
      (by decide +kernel) (.cons trivial rfl (.nil _))), rfl, by decide, ?_⟩
  norm_num [PoolData.WithinBand, BandState.withdrawn, lentPool]

end AlulaKeeper
