import Mathlib
import AlulaKeeper.Lib.Steps
import AlulaKeeper.Keeper.Obligations

/-!
# Covers and the chain they are issued against

The two handlers of `bad_debt_request_initiator.rs` beside a chain that moves at every await. The sweep
judges a cached row, re-reads the obligation and judges it again; a `Liquidate` event is judged on the
obligation it carries.

* `coverStep`: the initiator's steps, the chain's and the table's.
* `Dispatch.Held`: a dispatched cover's obligation was on chain, without an open request and eligible, at
  some moment of the handling that dispatched it.
* `coverStep_held`: what one step keeps, `covers_target_the_chain`: the same over runs whose events carry
  what the chain holds.
-/

namespace AlulaKeeper

open I128 Steps

/-- The obligations the chain holds. -/
abbrev ChainObligations := Address → ObligationKey → Option Obligation

/-- An `issue_cover_bad_debt`, with the market data and the time its last verdict used and the states the
chain was in since the handling began. -/
structure Dispatch where
  market : Address
  key : ObligationKey
  marketData : MarketData
  now : ℕ
  moments : List ChainObligations

/-- What the initiator waits for. -/
inductive InitiatorPhase where
  | idle
  /-- Between markets, or between the rows of one. -/
  | sweeping (queue : List Address) (sweep : Option Sweep)
  /-- A cached row was judged eligible; its obligation is re-read. -/
  | rereading (queue : List Address) (sweep : Sweep) (key : ObligationKey)
  /-- A `Liquidate` event carried an obligation; the market data is read. -/
  | covering (market : Address) (key : ObligationKey) (obligation : Obligation)

/-- The initiator beside the chain it re-reads and the table it loads from. -/
structure Initiator where
  chain : ChainObligations
  repo : ObligationsRepo
  phase : InitiatorPhase
  /-- The chain's states since the handling began. -/
  moments : List ChainObligations
  dispatched : List Dispatch

/-- What the initiator, the Liquidator and the chain may do next. -/
inductive CoverAct where
  /-- The chain moves: requests opened or claimed, top-ups, repayments, deletions. -/
  | chainMoves (chain : ChainObligations)
  /-- The Liquidator writes the table. -/
  | tableWritten (repo : ObligationsRepo)
  | newLedger (seqNum : ℕ)
  /-- The next market is loaded, in the map's iteration order, and its data read. -/
  | loadMarket (order : List ObligationKey) (marketData : Option MarketData)
  /-- The next cached row is judged. -/
  | judge (now : ℕ)
  /-- The chain answers the re-read, unless the call fails. -/
  | reread (now : ℕ) (fails built : Bool)
  | sweepDone
  | event (event : SorobanEvent)
  /-- The market data for an event's obligation is read. -/
  | readMarketData (marketData : Option MarketData) (now : ℕ) (built : Bool)

/-- `judge_eligibility`: an error counts as ineligible; `none` where the check aborts. -/
def judgeEligibility (config : InitiatorConfig) (now : ℕ) (obligation : Obligation)
    (marketData : MarketData) : Option Bool :=
  match isEligibleForBadDebtRequestIssuance config.dustRules config.minProfitMarginCents now obligation
      marketData with
  | .ok eligible => some eligible
  | .error (.err _) => some false
  | .error .abort => none

/-- What `handle_soroban_event` takes from an event: the borrower and the obligation under
`borrower_obligation` of a `Liquidate` on a configured market. -/
def SorobanEvent.liquidated (event : SorobanEvent) (markets : List Address) :
    Option (ObligationKey × Obligation) :=
  if event.contractId ∈ markets then
    match event.operation with
    | some .liquidate => do
      let key ← event.topicKey 2
      match event.value "borrower_obligation" key with
      | .snapshot obligation => some (key, obligation)
      | _ => none
    | _ => none
  else none

/-- `read_user_obligation` at this moment. -/
def ChainObligations.answer (chain : ChainObligations) (market : Address) (key : ObligationKey)
    (fails : Bool) : ChainAnswer :=
  if fails then .failed
  else match chain market key with
    | some obligation => .found obligation
    | none => .doesNotExist

namespace Initiator

/-- Nothing is handled and nothing dispatched. -/
def start (chain : ChainObligations) (repo : ObligationsRepo) : Initiator where
  chain
  repo
  phase := .idle
  moments := []
  dispatched := []

variable (s : Initiator)

/-- The verdict on the obligation at hand and, where it is eligible, the cover. -/
def cover (config : InitiatorConfig) (market : Address) (key : ObligationKey) (obligation : Obligation)
    (marketData : MarketData) (now : ℕ) (built : Bool) : Option Initiator := do
  if (← judgeEligibility config now obligation marketData) && built then
    some { s with dispatched := s.dispatched ++ [{ market, key, marketData, now, moments := s.moments }] }
  else some s

/-- A handling begins. -/
def begin (phase : InitiatorPhase) : Initiator := { s with phase, moments := [s.chain] }

end Initiator

/-- One step; `none` where it is not enabled. -/
def coverStep (config : InitiatorConfig) (s : Initiator) : CoverAct → Option Initiator
  | .chainMoves chain => some { s with chain, moments := chain :: s.moments }
  | .tableWritten repo => some { s with repo }
  | .newLedger seqNum =>
    match s.phase with
    | .idle =>
      if config.refreshIntervalBlocks ∣ seqNum then some (s.begin (.sweeping config.markets none))
      else some s
    | _ => none
  | .loadMarket order marketData =>
    match s.phase with
    | .sweeping (market :: queue) none =>
      match marketData with
      | none => some { s with phase := .sweeping queue none }
      | some marketData =>
        let rows := order.filterMap fun key =>
          (s.repo.loadAll market key).map fun obligation => (key, obligation)
        some { s with phase := .sweeping queue (some { market, marketData, rows }) }
    | _ => none
  | .judge now =>
    match s.phase with
    | .sweeping queue (some sweep) =>
      match sweep.rows with
      | [] => some { s with phase := .sweeping queue none }
      | (key, obligation) :: rows => do
        if ← judgeEligibility config now obligation sweep.marketData then
          some { s with phase := .rereading queue { sweep with rows } key }
        else some { s with phase := .sweeping queue (some { sweep with rows }) }
    | _ => none
  | .reread now fails built =>
    match s.phase with
    | .rereading queue sweep key =>
      let s := { s with phase := .sweeping queue (some sweep) }
      match s.chain.answer sweep.market key fails with
      | .found fresh => s.cover config sweep.market key fresh sweep.marketData now built
      | .doesNotExist => some { s with repo := s.repo.delete sweep.market key }
      | .failed => some s
    | _ => none
  | .sweepDone =>
    match s.phase with
    | .sweeping [] none => some { s with phase := .idle }
    | _ => none
  | .event event =>
    match s.phase with
    | .idle =>
      match event.liquidated config.markets with
      | some (key, obligation) => some (s.begin (.covering event.contractId key obligation))
      | none => some s
    | _ => none
  | .readMarketData marketData now built =>
    match s.phase with
    | .covering market key obligation =>
      let s := { s with phase := .idle }
      match marketData with
      | none => some s
      | some marketData => s.cover config market key obligation marketData now built
    | _ => none

/-! ## What a cover was issued against -/

/-- At some moment of its handling the chain held the obligation, without an open request and eligible on
the market data read. -/
def Dispatch.Held (config : InitiatorConfig) (d : Dispatch) : Prop :=
  ∃ chain ∈ d.moments, ∃ obligation, chain d.market d.key = some obligation ∧
    obligation.openBadDebtRequests = 0 ∧
      isEligibleForBadDebtRequestIssuance config.dustRules config.minProfitMarginCents d.now obligation
        d.marketData = .ok true

/-- An event's obligation is judged only where the chain held it at some moment of the handling. -/
def SnapshotHeld (s : Initiator) : CoverAct → Prop
  | .readMarketData _ _ _ => ∀ market key obligation, s.phase = .covering market key obligation →
      ∃ chain ∈ s.moments, chain market key = some obligation
  | _ => True

/-- Every cover so far was held by the chain, and a handling has seen the chain as it is. -/
structure Initiator.Grounded (config : InitiatorConfig) (s : Initiator) : Prop where
  held : ∀ d ∈ s.dispatched, d.Held config
  current : s.phase ≠ .idle → s.chain ∈ s.moments

section Grounded

variable {config : InitiatorConfig} {s t : Initiator}

theorem judgeEligibility_eq_true {now : ℕ} {obligation : Obligation} {marketData : MarketData} :
    judgeEligibility config now obligation marketData = some true ↔
      isEligibleForBadDebtRequestIssuance config.dustRules config.minProfitMarginCents now obligation
        marketData = .ok true := by
  unfold judgeEligibility
  split <;> simp_all

theorem ChainObligations.of_found {chain : ChainObligations} {market : Address} {key : ObligationKey}
    {fails : Bool} {fresh : Obligation} (h : chain.answer market key fails = .found fresh) :
    chain market key = some fresh := by
  unfold answer at h
  split_ifs at h
  split at h <;> cases h
  assumption

/-- A cover of an obligation the chain held during the handling is held. -/
theorem Initiator.Grounded.cover {market : Address} {key : ObligationKey} {obligation : Obligation}
    {marketData : MarketData} {now : ℕ} {built : Bool} (h : s.Grounded config)
    (hchain : ∃ chain ∈ s.moments, chain market key = some obligation)
    (hcover : s.cover config market key obligation marketData now built = some t) : t.Grounded config := by
  obtain ⟨eligible, hjudge, hcover⟩ := Option.bind_eq_some_iff.mp hcover
  split_ifs at hcover with hgo
  · cases hcover
    obtain ⟨rfl, -⟩ := Bool.and_eq_true_iff.mp hgo
    have heligible := judgeEligibility_eq_true.mp hjudge
    obtain ⟨chain, hmem, hobligation⟩ := hchain
    refine ⟨fun d hd => ?_, h.current⟩
    obtain hd | hd := List.mem_append.mp hd
    · exact h.held d hd
    · obtain rfl := List.mem_singleton.mp hd
      exact ⟨chain, hmem, obligation, hobligation, (owes_of_isEligible heligible).2, heligible⟩
  · cases hcover
    exact h

theorem Initiator.Grounded.phase {phase : InitiatorPhase} {repo : ObligationsRepo} (h : s.Grounded config)
    (hphase : s.phase ≠ .idle) : { s with phase, repo }.Grounded config :=
  ⟨h.held, fun _ => h.current hphase⟩

theorem Initiator.Grounded.begin (h : s.Grounded config) (phase : InitiatorPhase) :
    (s.begin phase).Grounded config :=
  ⟨h.held, fun _ => List.mem_singleton_self s.chain⟩

/-- **One step.** A step whose event's obligation the chain held keeps every cover held. -/
theorem coverStep_held (a : CoverAct) (h : s.Grounded config) (hguard : SnapshotHeld s a)
    (hstep : coverStep config s a = some t) : t.Grounded config := by
  cases a with
  | chainMoves chain =>
    cases hstep
    exact ⟨h.held, fun _ => List.mem_cons_self⟩
  | tableWritten repo =>
    cases hstep
    exact ⟨h.held, h.current⟩
  | newLedger seqNum =>
    simp only [coverStep] at hstep
    split at hstep
    · split_ifs at hstep <;> cases hstep
      · exact h.begin _
      · exact h
    · cases hstep
  | loadMarket order marketData =>
    simp only [coverStep] at hstep
    split at hstep
    · rename_i hphase
      have hbusy : s.phase ≠ .idle := by simp [hphase]
      split at hstep <;> cases hstep <;> exact h.phase hbusy
    · cases hstep
  | judge now =>
    simp only [coverStep] at hstep
    split at hstep
    · rename_i hphase
      have hbusy : s.phase ≠ .idle := by simp [hphase]
      split at hstep
      · cases hstep
        exact h.phase hbusy
      · obtain ⟨eligible, -, hstep⟩ := Option.bind_eq_some_iff.mp hstep
        split_ifs at hstep <;> cases hstep <;> exact h.phase hbusy
    · cases hstep
  | reread now fails built =>
    simp only [coverStep] at hstep
    split at hstep
    · rename_i queue sweep key hphase
      have hbusy : s.phase ≠ .idle := by simp [hphase]
      split at hstep
      · -- the answer is what the chain holds now
        rename_i fresh hanswer
        have hnext : { s with phase := .sweeping queue (some sweep) }.Grounded config := h.phase hbusy
        exact hnext.cover ⟨s.chain, h.current hbusy, ChainObligations.of_found hanswer⟩ hstep
      · cases hstep
        exact h.phase hbusy
      · cases hstep
        exact h.phase hbusy
    · cases hstep
  | sweepDone =>
    simp only [coverStep] at hstep
    split at hstep
    · cases hstep
      exact ⟨h.held, fun hidle => absurd rfl hidle⟩
    · cases hstep
  | event event =>
    simp only [coverStep] at hstep
    split at hstep
    · split at hstep <;> cases hstep
      · exact h.begin _
      · exact h
    · cases hstep
  | readMarketData marketData now built =>
    simp only [coverStep] at hstep
    split at hstep
    · rename_i market key obligation hphase
      have hidle : { s with phase := .idle }.Grounded config :=
        ⟨h.held, fun hidle => absurd rfl hidle⟩
      split at hstep
      · cases hstep
        exact hidle
      · exact hidle.cover (hguard market key obligation hphase) hstep
    · cases hstep

/-- **Covers target what the chain holds.** In every run whose events are judged while the chain holds the
obligation they carry, every cover dispatched targets an obligation that the chain held during the handling,
without an open request and eligible on the market data read. -/
theorem covers_target_the_chain (config : InitiatorConfig) (chain : ChainObligations)
    (repo : ObligationsRepo) (acts : List CoverAct) (s : Initiator)
    (h : Run (coverStep config) SnapshotHeld (Initiator.start chain repo) acts s) :
    ∀ d ∈ s.dispatched, d.Held config := by
  have hstart : (Initiator.start chain repo).Grounded config :=
    ⟨fun _ hd => (List.not_mem_nil hd).elim, fun hidle => absurd rfl hidle⟩
  have hend : s.Grounded config :=
    h.invariant (fun _ a _ hs hg hstep => coverStep_held a hs hg hstep) hstart
  exact hend.held

end Grounded

/-! ## A liquidation that leaves bare debt -/

/-- A no-dust market, swept every five ledgers. -/
def coverConfig : InitiatorConfig where
  markets := ["MARKET"]
  refreshIntervalBlocks := 5
  dustRules := .noDust
  minProfitMarginCents := 0

/-- The liquidation that took the last collateral. -/
def lastLiquidation : SorobanEvent where
  contractId := "MARKET"
  operation := some .liquidate
  ledger := 0
  topic := fun _ => "BORROWER"
  topicKey := fun _ => some bareKey
  value := fun _ _ => .snapshot bareDebt

/-- The chain holds one obligation. -/
def chainWith (obligation : Obligation) : ChainObligations :=
  fun _ key => if key = bareKey then some obligation else none

/-- The cover of `bareDebt`, the chain in `moments` since its handling began. -/
def bareCover (moments : List ChainObligations) : Dispatch where
  market := "MARKET"
  key := bareKey
  marketData := dustMarket usd
  now := 0
  moments

/-- The initiator after the event is handled, the chain having stayed as it was. -/
def Initiator.covered (chain : ChainObligations) : Initiator :=
  { Initiator.start chain bareTable with
    moments := [chain]
    dispatched := [bareCover [chain]] }

/-- The liquidation's event, and the market data read for it. -/
def handleLastLiquidation : List CoverAct :=
  [.event lastLiquidation, .readMarketData (some (dustMarket usd)) 0 true]

theorem handleLastLiquidation_covers {guard : Initiator → CoverAct → Prop} (obligation : Obligation)
    (hevent : guard (Initiator.start (chainWith obligation) bareTable) (.event lastLiquidation))
    (hread : guard ((Initiator.start (chainWith obligation) bareTable).begin
      (.covering "MARKET" bareKey bareDebt)) (.readMarketData (some (dustMarket usd)) 0 true)) :
    Run (coverStep coverConfig) guard (Initiator.start (chainWith obligation) bareTable)
      handleLastLiquidation (Initiator.covered (chainWith obligation)) :=
  .cons hevent rfl (.cons hread rfl (.nil _))

/-- A fresh event: the cover it leads to targets bare debt the chain holds. -/
theorem fresh_liquidation_is_covered :
    ∃ d ∈ (Initiator.covered (chainWith bareDebt)).dispatched, d.Held coverConfig := by
  refine ⟨_, List.mem_singleton_self _, covers_target_the_chain coverConfig (chainWith bareDebt) bareTable
    handleLastLiquidation _ (handleLastLiquidation_covers bareDebt trivial ?_) _
    (List.mem_singleton_self _)⟩
  intro market key obligation hphase
  cases hphase
  exact ⟨chainWith bareDebt, List.mem_singleton_self _, rfl⟩

/-- **A replayed event is covered twice.** The chain already holds an open request; the event carries the
obligation from before it, and the cover is dispatched. -/
theorem replayed_liquidation_is_covered_again :
    Run (coverStep coverConfig) (fun _ _ => True)
        (Initiator.start (chainWith { bareDebt with openBadDebtRequests := 1 }) bareTable)
        handleLastLiquidation (Initiator.covered (chainWith { bareDebt with openBadDebtRequests := 1 })) ∧
      ∃ d ∈ (Initiator.covered (chainWith { bareDebt with openBadDebtRequests := 1 })).dispatched,
        ¬ d.Held coverConfig := by
  refine ⟨handleLastLiquidation_covers _ trivial trivial, _, List.mem_singleton_self _, ?_⟩
  rintro ⟨chain, hchain, obligation, hobligation, hopen, -⟩
  obtain rfl := List.mem_singleton.mp hchain
  cases hobligation
  cases hopen

end AlulaKeeper
