import Mathlib
import AlulaKeeper.Lib.Loop
import AlulaKeeper.Keeper.Withdrawer

/-!
# One deposit of the withdrawer beside the others

`find_withdrawal_opportunities` goes through the deposits of the keeper's obligation. Most troubles of a
deposit end its turn; a value that cannot be computed ends the whole loop with no withdrawal.

* `ReachesValue`: a deposit whose withdrawal is sized and about to be valued.
* `Unvalued`, `Asked`, `Panics`: the ends of a turn that matter, on the deposit and the market alone.
* `ActsPerDeposit`: the loop returns what the single deposits return, one after the other.
* `actsPerDeposit_iff`: when it does.
-/

namespace AlulaKeeper

open I128 Loop

section Deposits

variable (config : WithdrawerConfig) (builds : Withdrawal → Bool) (market : MarketData)

/-! ## The turn of one deposit -/

/-- The pool of the deposit is read, something of it can leave and something of that is the keeper's. -/
def ReachesValue (deposit : DepositPosition) (pool : PoolData) (whole maxWithdrawal : ℤ) : Prop :=
  market.findPool deposit.poolAddress = some pool ∧
    pool.computeMaxSafeWithdrawal config.utilizationSafetyMarginBps = .ok maxWithdrawal ∧
    maxWithdrawal ≠ 0 ∧ pool.jTokensToTokensFloor deposit.jTokens = .ok whole ∧ whole ≠ 0

/-- `amount` tokens have no value: the price is not positive, there are less than two decimals, or the
product overflows. -/
def HasNoValue (pool : PoolData) (amount : ℤ) : Prop :=
  pool.oracleAssetPrice ≤ 0 ∨ pool.tokenDecimals + market.oraclePriceDecimals < 2 ∨
    pool.tokenDecimals + market.oraclePriceDecimals < 2 ^ 32 ∧ ¬ Fits (amount * pool.oracleAssetPrice)

/-- The withdrawal is sized and has no value. -/
def Unvalued (deposit : DepositPosition) : Prop :=
  ∃ pool whole maxWithdrawal, ReachesValue config market deposit pool whole maxWithdrawal ∧
    HasNoValue market pool (min whole maxWithdrawal)

/-- The withdrawal `w` is sized, worth the minimum and built. -/
def Asked (deposit : DepositPosition) (w : Withdrawal) : Prop :=
  ∃ pool whole maxWithdrawal, ReachesValue config market deposit pool whole maxWithdrawal ∧
    (∃ cents, computeWithdrawalValueCents market pool (min whole maxWithdrawal) = .ok (some cents) ∧
      config.minWithdrawValueCents ≤ cents) ∧
    w = ⟨pool.poolAddress, askedAmount whole (min whole maxWithdrawal)⟩ ∧ builds w

/-- An unchecked operation of the turn overflows. -/
def Panics (deposit : DepositPosition) : Prop :=
  ∃ pool, market.findPool deposit.poolAddress = some pool ∧
    (pool.computeMaxSafeWithdrawal config.utilizationSafetyMarginBps = .error .abort ∨
      ∃ maxWithdrawal, pool.computeMaxSafeWithdrawal config.utilizationSafetyMarginBps = .ok maxWithdrawal ∧
        maxWithdrawal ≠ 0 ∧ (pool.jTokensToTokensFloor deposit.jTokens = .error .abort ∨
          ∃ whole, ReachesValue config market deposit pool whole maxWithdrawal ∧
            computeWithdrawalValueCents market pool (min whole maxWithdrawal) = .error .abort))

variable {config builds market} {deposit : DepositPosition} {pool pool' : PoolData}
  {whole whole' maxWithdrawal maxWithdrawal' : ℤ}

theorem ReachesValue.unique (h : ReachesValue config market deposit pool whole maxWithdrawal)
    (h' : ReachesValue config market deposit pool' whole' maxWithdrawal') :
    pool = pool' ∧ whole = whole' ∧ maxWithdrawal = maxWithdrawal' := by
  obtain ⟨hpool, hmax, -, hwhole, -⟩ := h
  obtain ⟨hpool', hmax', -, hwhole', -⟩ := h'
  obtain rfl := Option.some.inj (hpool.symm.trans hpool')
  exact ⟨rfl, ok_unique hwhole hwhole', ok_unique hmax hmax'⟩

theorem ReachesValue.unvalued_iff (h : ReachesValue config market deposit pool whole maxWithdrawal) :
    Unvalued config market deposit ↔ HasNoValue market pool (min whole maxWithdrawal) := by
  constructor
  · rintro ⟨pool', whole', maxWithdrawal', h', hvalue⟩
    obtain ⟨rfl, rfl, rfl⟩ := h.unique h'
    exact hvalue
  · exact fun hvalue => ⟨pool, whole, maxWithdrawal, h, hvalue⟩

theorem ReachesValue.asked_iff (h : ReachesValue config market deposit pool whole maxWithdrawal)
    {w : Withdrawal} : Asked config builds market deposit w ↔
      (∃ cents, computeWithdrawalValueCents market pool (min whole maxWithdrawal) = .ok (some cents) ∧
        config.minWithdrawValueCents ≤ cents) ∧
      w = ⟨pool.poolAddress, askedAmount whole (min whole maxWithdrawal)⟩ ∧ builds w := by
  constructor
  · rintro ⟨pool', whole', maxWithdrawal', h', hasked⟩
    obtain ⟨rfl, rfl, rfl⟩ := h.unique h'
    exact hasked
  · exact fun hasked => ⟨pool, whole, maxWithdrawal, h, hasked⟩

theorem ReachesValue.panics_iff (h : ReachesValue config market deposit pool whole maxWithdrawal) :
    Panics config market deposit ↔
      computeWithdrawalValueCents market pool (min whole maxWithdrawal) = .error .abort := by
  obtain ⟨hpool, hmax, hmax0, hwhole, hwhole0⟩ := h
  constructor
  · rintro ⟨pool', hpool', hpanics⟩
    obtain rfl := Option.some.inj (hpool.symm.trans hpool')
    rw [hmax, hwhole] at hpanics
    obtain hpanics | ⟨m, hm, -, hpanics | ⟨t, ht, hpanics⟩⟩ := hpanics
    · cases hpanics
    · cases hpanics
    · obtain ⟨-, rfl, rfl⟩ := ReachesValue.unique ⟨hpool, hmax, hmax0, hwhole, hwhole0⟩ ht
      exact hpanics
  · intro hpanics
    exact ⟨pool, hpool, .inr ⟨maxWithdrawal, hmax, hmax0, .inr ⟨whole,
      ⟨hpool, hmax, hmax0, hwhole, hwhole0⟩, hpanics⟩⟩⟩

theorem withdrawalOpportunity_of_reaches (builds : Withdrawal → Bool)
    (h : ReachesValue config market deposit pool whole maxWithdrawal) :
    (∀ fault, computeWithdrawalValueCents market pool (min whole maxWithdrawal) = .error fault →
      withdrawalOpportunity config builds market deposit = .error fault) ∧
    (computeWithdrawalValueCents market pool (min whole maxWithdrawal) = .ok none →
      withdrawalOpportunity config builds market deposit = .ok .giveUp) ∧
    (∀ cents, computeWithdrawalValueCents market pool (min whole maxWithdrawal) = .ok (some cents) →
      withdrawalOpportunity config builds market deposit =
        .ok (if cents ≥ config.minWithdrawValueCents ∧
            builds ⟨pool.poolAddress, askedAmount whole (min whole maxWithdrawal)⟩ then
          .withdraw ⟨pool.poolAddress, askedAmount whole (min whole maxWithdrawal)⟩ else .none)) := by
  obtain ⟨hpool, hmax, hmax0, hwhole, hwhole0⟩ := h
  unfold withdrawalOpportunity
  simp only [hpool, hmax, toOption, ok_bind, if_neg hmax0, hwhole, if_neg hwhole0]
  refine ⟨fun fault hvalue => ?_, fun hvalue => ?_, fun cents hvalue => ?_⟩
  · rw [hvalue, error_bind]
  · rw [hvalue, ok_bind]
    rfl
  · rw [hvalue, ok_bind]
    dsimp only
    split_ifs <;> rfl

theorem computeWithdrawalValueCents_cases (market : MarketData) (pool : PoolData) (amount : ℤ) :
    HasNoValue market pool amount ∧ computeWithdrawalValueCents market pool amount = .ok none ∨
      ¬ HasNoValue market pool amount ∧
        (computeWithdrawalValueCents market pool amount = .error .abort ∨
          ∃ cents, computeWithdrawalValueCents market pool amount = .ok (some cents)) := by
  unfold HasNoValue computeWithdrawalValueCents
  by_cases hprice : pool.oracleAssetPrice ≤ 0
  · exact .inl ⟨.inl hprice, if_pos hprice⟩
  rw [if_neg hprice]
  dsimp only
  split_ifs with hwide hsmall
  · exact .inr ⟨by omega, .inl rfl⟩
  · exact .inl ⟨.inr (.inl hsmall), rfl⟩
  by_cases hfits : Fits (amount * pool.oracleAssetPrice)
  · refine .inr ⟨by tauto, ?_⟩
    rw [checkedMul_eq_some.mpr ⟨hfits, rfl⟩]
    dsimp only
    by_cases hpow : Fits (pow10 (pool.tokenDecimals + market.oraclePriceDecimals - 2))
    · rw [rawPow10_eq_ok.mpr ⟨hpow, rfl⟩, ok_bind, rawDiv_of_pos hfits (pow10_pos _)]
      exact .inr ⟨_, rfl⟩
    · rw [rawPow10, raw, if_neg hpow]
      exact .inl rfl
  · refine .inl ⟨.inr (.inr ⟨by omega, hfits⟩), ?_⟩
    rw [checkedMul, check, if_neg hfits]
    rfl

theorem withdrawalOpportunity_of_not_reaches (builds : Withdrawal → Bool)
    (h : ∀ pool whole maxWithdrawal, ¬ ReachesValue config market deposit pool whole maxWithdrawal) :
    withdrawalOpportunity config builds market deposit = .ok .none ∧ ¬ Panics config market deposit ∨
      withdrawalOpportunity config builds market deposit = .error .abort ∧ Panics config market deposit := by
  unfold withdrawalOpportunity Panics
  cases hpool : market.findPool deposit.poolAddress with
  | none => exact .inl ⟨rfl, by simp⟩
  | some pool =>
    cases hmax : pool.computeMaxSafeWithdrawal config.utilizationSafetyMarginBps with
    | error fault => cases fault <;> simp [hmax, toOption]
    | ok maxWithdrawal =>
      by_cases hzero : maxWithdrawal = 0
      · simp [hmax, toOption, hzero]
      cases hwhole : pool.jTokensToTokensFloor deposit.jTokens with
      | error fault =>
        have hnone : ∀ whole, ¬ ReachesValue config market deposit pool whole maxWithdrawal :=
          fun whole => h pool whole maxWithdrawal
        cases fault <;> simp [hmax, toOption, hzero, hwhole, hnone]
      | ok whole =>
        by_cases hempty : whole = 0
        · have hnone : ∀ whole, ¬ ReachesValue config market deposit pool whole maxWithdrawal :=
            fun whole => h pool whole maxWithdrawal
          simp [hmax, toOption, hzero, hwhole, hempty, hnone]
        · exact absurd ⟨hpool, hmax, hzero, hwhole, hempty⟩ (h pool whole maxWithdrawal)

/-- The turn as the loop sees it. -/
def Opportunity.turn : Opportunity → Turn Withdrawal
  | .none => .skip
  | .withdraw w => .keep w
  | .giveUp => .stop

variable (config builds market deposit) in
/-- The body of the loop. -/
def depositTurn : Res (Turn Withdrawal) := do
  return (← withdrawalOpportunity config builds market deposit).turn

variable (config builds market deposit) in
/-- **A turn's end** is read off the deposit and the market. -/
theorem depositTurn_cases :
    Panics config market deposit ∧ depositTurn config builds market deposit = .error .abort ∨
      ¬ Panics config market deposit ∧
        (Unvalued config market deposit ∧ (∀ w, ¬ Asked config builds market deposit w) ∧
            depositTurn config builds market deposit = .ok .stop ∨
          ¬ Unvalued config market deposit ∧
            ((∃ w, Asked config builds market deposit w ∧
                depositTurn config builds market deposit = .ok (.keep w)) ∨
              (∀ w, ¬ Asked config builds market deposit w) ∧
                depositTurn config builds market deposit = .ok .skip)) := by
  have hturn : ∀ opportunity, withdrawalOpportunity config builds market deposit = .ok opportunity →
      depositTurn config builds market deposit = .ok opportunity.turn := by
    intro opportunity h
    rw [depositTurn, h, ok_bind]
    rfl
  have hfault : ∀ fault, withdrawalOpportunity config builds market deposit = .error fault →
      depositTurn config builds market deposit = .error fault := by
    intro fault h
    rw [depositTurn, h, error_bind]
  by_cases hreach : ∃ pool whole maxWithdrawal, ReachesValue config market deposit pool whole maxWithdrawal
  · obtain ⟨pool, whole, maxWithdrawal, hreach⟩ := hreach
    obtain ⟨herror, hnone, hsome⟩ := withdrawalOpportunity_of_reaches builds hreach
    simp only [hreach.panics_iff, hreach.unvalued_iff, hreach.asked_iff]
    obtain ⟨hno, hvalue⟩ | ⟨hno, hvalue | ⟨cents, hvalue⟩⟩ :=
      computeWithdrawalValueCents_cases market pool (min whole maxWithdrawal)
    · exact .inr ⟨by simp [hvalue], .inl ⟨hno, by simp [hvalue], hturn _ (hnone hvalue)⟩⟩
    · exact .inl ⟨hvalue, hfault _ (herror _ hvalue)⟩
    · refine .inr ⟨by simp [hvalue], .inr ⟨hno, ?_⟩⟩
      rw [hturn _ (hsome cents hvalue), hvalue]
      split_ifs with hasked
      · exact .inl ⟨_, ⟨⟨cents, rfl, hasked.1⟩, rfl, hasked.2⟩, rfl⟩
      · refine .inr ⟨?_, rfl⟩
        rintro w ⟨⟨c, hc, hmin⟩, rfl, hbuilds⟩
        cases hc
        exact hasked ⟨hmin, hbuilds⟩
  · have hnot := fun pool whole maxWithdrawal h => hreach ⟨pool, whole, maxWithdrawal, h⟩
    have hunvalued : ¬ Unvalued config market deposit := fun ⟨p, t, m, h, _⟩ => hnot p t m h
    have hasked : ∀ w, ¬ Asked config builds market deposit w := fun w ⟨p, t, m, h, _⟩ => hnot p t m h
    obtain ⟨hopp, hpanics⟩ | ⟨hopp, hpanics⟩ := withdrawalOpportunity_of_not_reaches builds hnot
    · exact .inr ⟨hpanics, .inr ⟨hunvalued, .inr ⟨hasked, hturn _ hopp⟩⟩⟩
    · exact .inl ⟨hpanics, hfault _ hopp⟩

theorem returns_depositTurn :
    Returns (depositTurn config builds market deposit) ↔ ¬ Panics config market deposit := by
  unfold Returns
  obtain ⟨hpanics, hturn⟩ | ⟨hpanics, ⟨-, -, hturn⟩ | ⟨-, ⟨w, -, hturn⟩ | ⟨-, hturn⟩⟩⟩ :=
    depositTurn_cases config builds market deposit <;> simp [hturn, hpanics]

theorem goesOn_depositTurn : GoesOn (depositTurn config builds market) deposit ↔
    ¬ Panics config market deposit ∧ ¬ Unvalued config market deposit := by
  unfold GoesOn
  obtain ⟨hpanics, hturn⟩ | ⟨hpanics, ⟨hno, -, hturn⟩ | ⟨hno, ⟨w, -, hturn⟩ | ⟨-, hturn⟩⟩⟩ :=
    depositTurn_cases config builds market deposit
  · simp [hturn, hpanics]
  · simp [hturn, hno]
  · simp [hturn, hpanics, hno]
  · simp [hturn, hpanics, hno]

theorem kept_depositTurn_eq_none (hpanics : ¬ Panics config market deposit) :
    kept (depositTurn config builds market) deposit = none ↔
      ∀ w, ¬ Asked config builds market deposit w := by
  unfold kept
  obtain ⟨hpanics', -⟩ | ⟨-, ⟨-, hno, hturn⟩ | ⟨-, ⟨w, hasked, hturn⟩ | ⟨hno, hturn⟩⟩⟩ :=
    depositTurn_cases config builds market deposit
  · exact absurd hpanics' hpanics
  · simp [hturn, hno]
  · simp only [hturn, reduceCtorEq, false_iff]
    exact fun hno => hno w hasked
  · simp [hturn, hno]

/-! ## The loop -/

theorem findWithdrawalOpportunities_eq_run (actions : List Withdrawal) (deposits : List DepositPosition) :
    findWithdrawalOpportunities config builds market actions deposits =
      run (depositTurn config builds market) (fun found w => found ++ [w]) [] actions deposits := by
  induction deposits generalizing actions with
  | nil => rfl
  | cons d deposits ih =>
    rw [findWithdrawalOpportunities, run, depositTurn]
    cases hturn : withdrawalOpportunity config builds market d with
    | error fault => rfl
    | ok opportunity =>
      cases opportunity with
      | none => exact ih actions
      | withdraw w => exact ih (actions ++ [w])
      | giveUp => rfl

variable {deposits : List DepositPosition}

/-- Deposits that neither panic nor are unvalued each act for themselves. -/
theorem findWithdrawalOpportunities_of_goesOn
    (h : ∀ d ∈ deposits, GoesOn (depositTurn config builds market) d) :
    findWithdrawalOpportunities config builds market [] deposits =
      .ok (deposits.filterMap (kept (depositTurn config builds market))) := by
  rw [findWithdrawalOpportunities_eq_run, run_of_goesOn h, List.foldl_append_eq_append, ← List.flatMap_def,
    List.flatMap_singleton', List.nil_append]

/-- One unvalued deposit leaves nothing of the others. -/
theorem findWithdrawalOpportunities_of_unvalued (hpanics : ∀ d ∈ deposits, ¬ Panics config market d)
    (h : ∃ d ∈ deposits, Unvalued config market d) :
    findWithdrawalOpportunities config builds market [] deposits = .ok [] := by
  obtain ⟨d, hd, hun⟩ := h
  rw [findWithdrawalOpportunities_eq_run]
  refine run_of_stop (fun d hd => returns_depositTurn.mpr (hpanics d hd)) ⟨d, hd, ?_⟩
  obtain ⟨turn, hturn⟩ := returns_depositTurn.mpr (hpanics d hd)
  by_contra hne
  have hon : GoesOn (depositTurn config builds market) d := ⟨turn, hturn, fun heq => hne (heq ▸ hturn)⟩
  exact (goesOn_depositTurn.mp hon).2 hun

theorem findWithdrawalOpportunities_single (h : ¬ Panics config market deposit) :
    findWithdrawalOpportunities config builds market [] [deposit] =
      .ok (kept (depositTurn config builds market) deposit).toList := by
  rw [findWithdrawalOpportunities_eq_run, run, kept]
  obtain ⟨hpanics, -⟩ | ⟨-, ⟨-, -, hturn⟩ | ⟨-, ⟨w, -, hturn⟩ | ⟨-, hturn⟩⟩⟩ :=
    depositTurn_cases config builds market deposit
  · exact absurd hpanics h
  all_goals
    rw [hturn]
    rfl

variable (config builds market) in
/-- The deposits together ask for what each of them asks for alone, in their order. -/
def ActsPerDeposit (deposits : List DepositPosition) : Prop :=
  ∃ parts : List (List Withdrawal),
    List.Forall₂ (fun d part => findWithdrawalOpportunities config builds market [] [d] = .ok part)
      deposits parts ∧
    findWithdrawalOpportunities config builds market [] deposits = .ok parts.flatten

variable (config builds market) in
/-- No turn panics, and no deposit is unvalued beside one that asks for a withdrawal. -/
def Undisturbed (deposits : List DepositPosition) : Prop :=
  (∀ d ∈ deposits, ¬ Panics config market d) ∧
    ((∀ d ∈ deposits, ¬ Unvalued config market d) ∨
      ∀ d ∈ deposits, ∀ w, ¬ Asked config builds market d w)

theorem Undisturbed.find_eq (h : Undisturbed config builds market deposits) :
    findWithdrawalOpportunities config builds market [] deposits =
      .ok (deposits.filterMap (kept (depositTurn config builds market))) := by
  obtain ⟨hpanics, hor⟩ := h
  by_cases hvalued : ∀ d ∈ deposits, ¬ Unvalued config market d
  · exact findWithdrawalOpportunities_of_goesOn
      fun d hd => goesOn_depositTurn.mpr ⟨hpanics d hd, hvalued d hd⟩
  · have hnone := hor.resolve_left hvalued
    have hkept : deposits.filterMap (kept (depositTurn config builds market)) = [] :=
      List.filterMap_eq_nil_iff.mpr fun d hd => (kept_depositTurn_eq_none (hpanics d hd)).mpr (hnone d hd)
    push Not at hvalued
    rw [hkept, findWithdrawalOpportunities_of_unvalued hpanics hvalued]

theorem Undisturbed.perm {deposits' : List DepositPosition} (hperm : deposits.Perm deposits')
    (h : Undisturbed config builds market deposits) : Undisturbed config builds market deposits' :=
  ⟨fun d hd => h.1 d (hperm.mem_iff.mpr hd),
    h.2.imp (fun h d hd => h d (hperm.mem_iff.mpr hd)) (fun h d hd => h d (hperm.mem_iff.mpr hd))⟩

theorem parts_eq {parts : List (List Withdrawal)}
    (h : List.Forall₂ (fun d part => findWithdrawalOpportunities config builds market [] [d] = .ok part)
      deposits parts) :
    (∀ d ∈ deposits, ¬ Panics config market d) ∧
      parts.flatten = deposits.filterMap (kept (depositTurn config builds market)) := by
  induction h with
  | nil => exact ⟨fun _ hd => (List.not_mem_nil hd).elim, rfl⟩
  | @cons d part deposits parts hpart _ ih =>
    have hpanics : ¬ Panics config market d := by
      rw [findWithdrawalOpportunities_eq_run] at hpart
      obtain ⟨turn, hturn, -⟩ := bind_eq_ok.mp hpart
      exact returns_depositTurn.mp ⟨turn, hturn⟩
    refine ⟨List.forall_mem_cons.mpr ⟨hpanics, ih.1⟩, ?_⟩
    obtain rfl := ok_unique hpart (findWithdrawalOpportunities_single hpanics)
    rw [List.flatten_cons, ih.2, List.filterMap_eq_flatMap_toList, List.filterMap_eq_flatMap_toList,
      List.flatMap_cons]

/-- **When the deposits act for themselves.** The withdrawals asked for are those of the single deposits, in
their order, exactly when no turn panics and no deposit is unvalued beside one that asks for a withdrawal.
Another order of the deposits then permutes them. -/
theorem actsPerDeposit_iff (config : WithdrawerConfig) (builds : Withdrawal → Bool) (market : MarketData)
    (deposits : List DepositPosition) :
    (ActsPerDeposit config builds market deposits ↔ Undisturbed config builds market deposits) ∧
      (Undisturbed config builds market deposits → ∀ deposits', deposits.Perm deposits' →
        ∃ actions actions', findWithdrawalOpportunities config builds market [] deposits = .ok actions ∧
          findWithdrawalOpportunities config builds market [] deposits' = .ok actions' ∧
          actions.Perm actions') := by
  refine ⟨⟨?_, ?_⟩, ?_⟩
  · rintro ⟨parts, hparts, hall⟩
    obtain ⟨hpanics, hflatten⟩ := parts_eq hparts
    refine ⟨hpanics, ?_⟩
    by_cases hvalued : ∀ d ∈ deposits, ¬ Unvalued config market d
    · exact .inl hvalued
    · push Not at hvalued
      have hnil := ok_unique (findWithdrawalOpportunities_of_unvalued hpanics hvalued) hall
      rw [hflatten] at hnil
      have hkept := List.filterMap_eq_nil_iff.mp hnil.symm
      exact .inr fun d hd => (kept_depositTurn_eq_none (hpanics d hd)).mp (hkept d hd)
  · intro h
    refine ⟨deposits.map fun d => (kept (depositTurn config builds market) d).toList, ?_, ?_⟩
    · rw [List.forall₂_map_right_iff, List.forall₂_same]
      exact fun d hd => findWithdrawalOpportunities_single (h.1 d hd)
    · rw [h.find_eq, List.filterMap_eq_flatMap_toList, List.flatMap_def]
  · intro h deposits' hperm
    exact ⟨_, _, h.find_eq, (h.perm hperm).find_eq, hperm.filterMap _⟩

end Deposits

/-- The lent pool beside one whose oracle has no price. -/
def unpricedMarket : MarketData :=
  { dustMarket usd with poolsData := [{ lentPool with poolAddress := "GOLD", oracleAssetPrice := 0 }, lentPool] }

/-- The same deposit in a pool of no price. -/
def unpricedDeposit : DepositPosition := { lentDeposit with poolAddress := "GOLD" }

/-- **One price at zero takes every withdrawal.** Alone the lent deposit asks for 150; beside the unpriced
one, nothing is asked for. -/
theorem unpriced_deposit_drops_the_others :
    findWithdrawalOpportunities withdrawerConfig (fun _ => true) unpricedMarket [] [unpricedDeposit] = .ok [] ∧
      findWithdrawalOpportunities withdrawerConfig (fun _ => true) unpricedMarket [] [lentDeposit] =
        .ok [⟨"USDC", 1500000000⟩] ∧
      findWithdrawalOpportunities withdrawerConfig (fun _ => true) unpricedMarket []
        [unpricedDeposit, lentDeposit] = .ok [] ∧
      ¬ ActsPerDeposit withdrawerConfig (fun _ => true) unpricedMarket [unpricedDeposit, lentDeposit] := by
  have hboth : findWithdrawalOpportunities withdrawerConfig (fun _ => true) unpricedMarket []
      [unpricedDeposit, lentDeposit] = .ok [] := by decide +kernel
  refine ⟨by decide +kernel, by decide +kernel, hboth, ?_⟩
  rintro ⟨parts, hparts, hall⟩
  have hnil := ok_unique hall hboth
  rw [(parts_eq hparts).2] at hnil
  exact absurd hnil (by decide +kernel)

end AlulaKeeper
