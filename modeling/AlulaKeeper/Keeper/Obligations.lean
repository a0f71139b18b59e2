import Mathlib
import AlulaKeeper.Lending.Cover

/-!
# The obligation cache and the two strategies that write it

The SQLite table of `storage/obligations.rs`, the Liquidator's copy of it in memory, the Liquidator's
event handler, and the sweep of the bad-debt request initiator. The two strategies run in separate tasks
over one table, so the sweep is a sequence of atomic steps between which events may be handled.

* `ObligationsRepo.loadAll`, `put`, `delete`: the table.
* `Cache.handleSorobanEvent`: every `OperationEvent`, with the chain's answer to the re-read.
* `KeeperAct`, `keeperStep`: the interleavings.

An event carries what the gateway decodes from it; the chain's answers are parameters of the steps.
-/

namespace AlulaKeeper

open I128

/-! ## The table -/

/-- The primary key of a row. -/
structure RowKey where
  market : Address
  user : Address
  seed : String
  deriving DecidableEq, Repr

/-- `seed_as_str`. -/
def ObligationKey.seedAsStr (key : ObligationKey) : String := key.seed.getD ""

/-- The seed is absent or not empty. -/
def ObligationKey.WellFormed (key : ObligationKey) : Prop := key.seed ≠ some ""

instance (key : ObligationKey) : Decidable key.WellFormed :=
  inferInstanceAs (Decidable (key.seed ≠ some ""))

/-- The key's row in a market. -/
def ObligationKey.row (market : Address) (key : ObligationKey) : RowKey :=
  { market, user := key.user, seed := key.seedAsStr }

/-- The `obligations` table. -/
abbrev ObligationsRepo := RowKey → Option Obligation

namespace ObligationsRepo

variable (repo : ObligationsRepo)

/-- `load_all`: a row with an empty seed comes back under a key without one. -/
def loadAll (market : Address) (key : ObligationKey) : Option Obligation :=
  if key.seed = some "" then none else repo (key.row market)

/-- `put`. -/
def put (market : Address) (key : ObligationKey) (obligation : Obligation) : ObligationsRepo :=
  Function.update repo (key.row market) (some obligation)

/-- `delete`. -/
def delete (market : Address) (key : ObligationKey) : ObligationsRepo :=
  Function.update repo (key.row market) none

end ObligationsRepo

/-! ## The Liquidator's events -/

/-- `OperationEvent`. -/
inductive OperationEvent where
  | deposit
  | borrow
  | addCollateral
  | repay
  | withdraw
  | removeCollateral
  | liquidate
  | issueCoverBadDebt
  | claimCoverBadDebtResults
  deriving DecidableEq, Repr

/-- `parse_obligation_from_event_value`. -/
inductive ParsedObligation where
  | error
  /-- `Ok(None)`: the event carries no obligation any more. -/
  | deleted
  | snapshot (obligation : Obligation)
  deriving DecidableEq, Repr

/-- `read_user_obligation`. -/
inductive ChainAnswer where
  | found (obligation : Obligation)
  | doesNotExist
  | failed
  deriving DecidableEq, Repr

/-- A contract event as the gateway decodes it. -/
structure SorobanEvent where
  contractId : Address
  ledger : ℕ
  /-- `decode_operation`; `none` where it fails. -/
  operation : Option OperationEvent
  /-- `decode_topic`. -/
  topic : ℕ → Address
  /-- `parse_obligation_key_from_topic`; `none` where it fails. -/
  topicKey : ℕ → Option ObligationKey
  /-- The obligation under a field of the value, for a key. -/
  value : String → ObligationKey → ParsedObligation

/-- The table and the Liquidator's map of maps. -/
structure Cache where
  repo : ObligationsRepo
  memory : Address → ObligationKey → Option Obligation

/-- `sync_state`: the memory of every configured market is the table's. -/
def Cache.syncState (markets : List Address) (repo : ObligationsRepo) : Cache where
  repo
  memory := fun market => if market ∈ markets then repo.loadAll market else fun _ => none

namespace Cache

variable (cache : Cache)

/-- `upsert_obligation`. -/
def upsertObligation (market : Address) (key : ObligationKey) (obligation : Obligation) : Cache where
  repo := cache.repo.put market key obligation
  memory := Function.update cache.memory market
    (Function.update (cache.memory market) key (some obligation))

/-- `delete_obligation`. -/
def deleteObligation (market : Address) (key : ObligationKey) : Cache where
  repo := cache.repo.delete market key
  memory := Function.update cache.memory market (Function.update (cache.memory market) key none)

/-- `apply_obligation_snapshot`; a parse error leaves the cache as it is. -/
def applyObligationSnapshot (market : Address) (fieldName : String) (key : ObligationKey)
    (event : SorobanEvent) : Cache :=
  match event.value fieldName key with
  | .snapshot obligation => cache.upsertObligation market key obligation
  | .deleted => cache.deleteObligation market key
  | .error => cache

/-- `reread_obligation`; a failed re-read leaves the cache as it is. -/
def rereadObligation (market : Address) (key : ObligationKey) (answer : ChainAnswer) : Cache :=
  match answer with
  | .found obligation => cache.upsertObligation market key obligation
  | .doesNotExist => cache.deleteObligation market key
  | .failed => cache

/-- `handle_soroban_event` without the cursor: the cache after the event, `none` where the handler returns
before it saves the event's id. -/
def handleSorobanEvent (markets : List Address) (event : SorobanEvent) (answer : ChainAnswer) :
    Option Cache :=
  let market := event.contractId
  if market ∈ markets then
    match event.operation with
    | none => none
    | some .liquidate => do
      let borrowerKey ← event.topicKey 2
      let liquidatorKey : ObligationKey := { user := event.topic 1, seed := none }
      return (cache.applyObligationSnapshot market "borrower_obligation" borrowerKey event)
        |>.applyObligationSnapshot market "liquidator_obligation" liquidatorKey event
    | some .issueCoverBadDebt => do
      -- the issue event carries no obligation
      return cache.rereadObligation market (← event.topicKey 1) answer
    | some .claimCoverBadDebtResults => do
      return cache.applyObligationSnapshot market "obligation" (← event.topicKey 1) event
    | some _ => do
      return cache.applyObligationSnapshot market "obligation" (← event.topicKey 2) event
  else none

end Cache

/-! ## What an event writes

The handler's effect on the cache as a list of writes, `none` where some part of the event is not decoded
or not answered. -/

/-- One key set, or dropped, on both sides. -/
def Cache.write (cache : Cache) (market : Address) (key : ObligationKey) (v : Option Obligation) :
    Cache where
  repo := Function.update cache.repo (key.row market) v
  memory := Function.update cache.memory market (Function.update (cache.memory market) key v)

namespace SorobanEvent

variable (event : SorobanEvent)

/-- The write of a snapshot. -/
def snapshotWrite (fieldName : String) (key : ObligationKey) :
    Option (ObligationKey × Option Obligation) :=
  match event.value fieldName key with
  | .snapshot obligation => some (key, some obligation)
  | .deleted => some (key, none)
  | .error => none

/-- The write of a re-read. -/
def rereadWrite (key : ObligationKey) : ChainAnswer → Option (ObligationKey × Option Obligation)
  | .found obligation => some (key, some obligation)
  | .doesNotExist => some (key, none)
  | .failed => none

/-- Everything the event has to write, in order. -/
def writes (markets : List Address) (answer : ChainAnswer) :
    Option (List (ObligationKey × Option Obligation)) :=
  if event.contractId ∈ markets then
    match event.operation with
    | none => none
    | some .liquidate => do
      let borrower ← event.snapshotWrite "borrower_obligation" (← event.topicKey 2)
      let liquidator ←
        event.snapshotWrite "liquidator_obligation" { user := event.topic 1, seed := none }
      return [borrower, liquidator]
    | some .issueCoverBadDebt => do
      return [← rereadWrite (← event.topicKey 1) answer]
    | some .claimCoverBadDebtResults => do
      return [← event.snapshotWrite "obligation" (← event.topicKey 1)]
    | some _ => do
      return [← event.snapshotWrite "obligation" (← event.topicKey 2)]
  else none

/-- The event is of a configured market, and all it carries is decoded. -/
def Decodable (markets : List Address) : Prop := ∃ answer, event.writes markets answer ≠ none

end SorobanEvent

section Writes

variable {cache : Cache} {event : SorobanEvent} {answer : ChainAnswer} {market : Address}
  {key : ObligationKey}

theorem applyObligationSnapshot_of_write {fieldName : String}
    {w : ObligationKey × Option Obligation} (h : event.snapshotWrite fieldName key = some w) :
    cache.applyObligationSnapshot market fieldName key event = cache.write market w.1 w.2 := by
  unfold SorobanEvent.snapshotWrite at h
  unfold Cache.applyObligationSnapshot
  cases hv : event.value fieldName key <;> rw [hv] at h <;> cases h <;> rfl

theorem rereadObligation_of_write {w : ObligationKey × Option Obligation}
    (h : SorobanEvent.rereadWrite key answer = some w) :
    cache.rereadObligation market key answer = cache.write market w.1 w.2 := by
  cases answer <;> cases h <;> rfl

/-- The handler performs the writes of an event, and returns after it. -/
theorem handleSorobanEvent_of_writes {markets : List Address}
    {ws : List (ObligationKey × Option Obligation)} (h : event.writes markets answer = some ws) :
    cache.handleSorobanEvent markets event answer =
      some (ws.foldl (fun cache w => cache.write event.contractId w.1 w.2) cache) := by
  unfold SorobanEvent.writes at h
  unfold Cache.handleSorobanEvent
  by_cases hm : event.contractId ∈ markets
  · simp only [if_pos hm] at h ⊢
    cases hop : event.operation with
    | none => simp [hop] at h
    | some op =>
      cases op with
      | liquidate =>
        simp only [hop] at h ⊢
        obtain ⟨key, hkey, h⟩ := Option.bind_eq_some_iff.mp h
        obtain ⟨borrower, hborrower, h⟩ := Option.bind_eq_some_iff.mp h
        obtain ⟨liquidator, hliquidator, h⟩ := Option.bind_eq_some_iff.mp h
        cases h
        simp [hkey, applyObligationSnapshot_of_write hborrower,
          applyObligationSnapshot_of_write hliquidator]
      | issueCoverBadDebt =>
        simp only [hop] at h ⊢
        obtain ⟨key, hkey, h⟩ := Option.bind_eq_some_iff.mp h
        obtain ⟨w, hw, h⟩ := Option.bind_eq_some_iff.mp h
        cases h
        simp [hkey, rereadObligation_of_write hw]
      | deposit | borrow | addCollateral | repay | withdraw | removeCollateral
      | claimCoverBadDebtResults =>
        simp only [hop] at h ⊢
        obtain ⟨key, hkey, h⟩ := Option.bind_eq_some_iff.mp h
        obtain ⟨w, hw, h⟩ := Option.bind_eq_some_iff.mp h
        cases h
        simp [hkey, applyObligationSnapshot_of_write hw]
  · rw [if_neg hm] at h
    cases h

end Writes

/-! ## A closed obligation

Witnesses and counterexamples are stated on it. -/

/-- $1 of debt with no collateral. -/
def bareDebt : Obligation := { dustBorrower 10000000 0 with deposits := [] }

/-- A borrower without a seed. -/
def bareKey : ObligationKey := { user := "BORROWER", seed := none }

/-- The table holds its debt. -/
def bareTable : ObligationsRepo := ObligationsRepo.put (fun _ => none) "MARKET" bareKey bareDebt

/-- The repayment that closes it. -/
def closingRepay : SorobanEvent where
  contractId := "MARKET"
  operation := some .repay
  ledger := 0
  topic := fun _ => "BORROWER"
  topicKey := fun _ => some bareKey
  value := fun _ _ => .deleted

/-! ## The keeper's steps -/

/-- `BadDebtRequestInitiatorConfig`. -/
structure InitiatorConfig where
  markets : List Address
  refreshIntervalBlocks : ℕ
  dustRules : DustRules
  minProfitMarginCents : ℤ
  deriving DecidableEq, Repr

/-- The initiator inside the loop over a market's loaded obligations. -/
structure Sweep where
  market : Address
  marketData : MarketData
  rows : List (ObligationKey × Obligation)
  deriving DecidableEq, Repr

/-- The Liquidator and the initiator on one cache. -/
structure Keeper where
  cache : Cache
  /-- Markets the current `handle_new_ledger` of the initiator has not loaded yet. -/
  queue : List Address
  sweep : Option Sweep

/-- What the two may do next. -/
inductive KeeperAct where
  /-- The Liquidator handles an event; `answer` is the chain's, should it re-read. -/
  | event (event : SorobanEvent) (answer : ChainAnswer)
  /-- The initiator starts on a new ledger. -/
  | newLedger (seqNum : ℕ)
  /-- It loads the next market, in the map's iteration order, and reads the market data. -/
  | loadMarket (order : List ObligationKey) (marketData : Option MarketData)
  /-- It judges the next loaded obligation and re-reads an eligible one. -/
  | judge (now : ℕ) (answer : ChainAnswer)

/-- The keeper once the Liquidator has synced. -/
def syncState (config : InitiatorConfig) (repo : ObligationsRepo) : Keeper where
  cache := .syncState config.markets repo
  queue := []
  sweep := none

/-- One obligation of the sweep: the row of an eligible obligation that is gone on chain is dropped. `none`
where the eligibility check aborts. -/
def judgeRow (config : InitiatorConfig) (repo : ObligationsRepo) (sweep : Sweep) (key : ObligationKey)
    (obligation : Obligation) (now : ℕ) (answer : ChainAnswer) : Option ObligationsRepo :=
  match isEligibleForBadDebtRequestIssuance config.dustRules config.minProfitMarginCents now
      obligation sweep.marketData with
  | .error .abort => none
  | .ok true =>
    match answer with
    | .doesNotExist => some (repo.delete sweep.market key)
    | _ => some repo
  | _ => some repo

/-- One atomic step; `none` where it is not enabled. -/
def keeperStep (config : InitiatorConfig) (s : Keeper) : KeeperAct → Option Keeper
  | .event event answer =>
    some { s with cache := (s.cache.handleSorobanEvent config.markets event answer).getD s.cache }
  | .newLedger seqNum =>
    if s.queue = [] ∧ s.sweep = none then
      if seqNum % config.refreshIntervalBlocks = 0 then some { s with queue := config.markets }
      else some s
    else none
  | .loadMarket order marketData =>
    match s.queue, s.sweep with
    | market :: markets, none =>
      match marketData with
      | none => some { s with queue := markets }
      | some marketData =>
        let rows := order.filterMap fun key =>
          (s.cache.repo.loadAll market key).map fun obligation => (key, obligation)
        some { s with queue := markets, sweep := some { market, marketData, rows } }
    | _, _ => none
  | .judge now answer =>
    match s.sweep with
    | none => none
    | some sweep =>
      match sweep.rows with
      | [] => some { s with sweep := none }
      | (key, obligation) :: rows => do
        let repo ← judgeRow config s.cache.repo sweep key obligation now answer
        return { s with cache := { s.cache with repo }, sweep := some { sweep with rows } }

end AlulaKeeper
