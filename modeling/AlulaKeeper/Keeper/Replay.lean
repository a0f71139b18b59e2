import Mathlib
import AlulaKeeper.Lib.Writes
import AlulaKeeper.Keeper.Obligations

/-!
# Replayed events

The cursor moves backwards, so the Liquidator handles events again after a restart. Every event but
`IssueCoverBadDebt` carries the snapshots it writes.

* `SorobanEvent.effects`: the writes of an event that carries snapshots.
* `handleSorobanEvent_eq`: handling it performs them, on the table and in memory.
* `replay_changes_nothing`: handling the end of a sequence again leaves the cache as it was.
-/

namespace AlulaKeeper

open Writes

/-! ## Deliveries -/

/-- The Liquidator handles events in order, each with the chain's answer should it re-read. -/
def Cache.handleEvents (markets : List Address) (cache : Cache)
    (deliveries : List (SorobanEvent × ChainAnswer)) : Cache :=
  deliveries.foldl (fun cache d => (cache.handleSorobanEvent markets d.1 d.2).getD cache) cache

/-- The event carries obligation snapshots. -/
def SorobanEvent.CarriesSnapshots (event : SorobanEvent) : Prop :=
  event.operation ≠ some .issueCoverBadDebt

/-! ## What an event with snapshots writes -/

namespace SorobanEvent

variable (event : SorobanEvent)

/-- The writes of an event that carries snapshots; a snapshot that cannot be parsed writes nothing. -/
def effects (markets : List Address) : List (ObligationKey × Option Obligation) :=
  if event.contractId ∈ markets then
    match event.operation with
    | none => []
    | some .liquidate =>
      match event.topicKey 2 with
      | none => []
      | some borrowerKey => (event.snapshotWrite "borrower_obligation" borrowerKey).toList ++
          (event.snapshotWrite "liquidator_obligation" { user := event.topic 1, seed := none }).toList
    | some .claimCoverBadDebtResults =>
      match event.topicKey 1 with
      | none => []
      | some key => (event.snapshotWrite "obligation" key).toList
    | some _ =>
      match event.topicKey 2 with
      | none => []
      | some key => (event.snapshotWrite "obligation" key).toList
  else []

end SorobanEvent

section Effects

variable {cache : Cache} {event : SorobanEvent} {answer : ChainAnswer} {market : Address}
  {key : ObligationKey} {markets : List Address}

/-- The writes to one market, in order. -/
def Cache.writeKeys (cache : Cache) (market : Address)
    (ws : List (ObligationKey × Option Obligation)) : Cache :=
  ws.foldl (fun cache w => cache.write market w.1 w.2) cache

theorem applyObligationSnapshot_eq (fieldName : String) :
    cache.applyObligationSnapshot market fieldName key event =
      cache.writeKeys market (event.snapshotWrite fieldName key).toList := by
  unfold Cache.applyObligationSnapshot SorobanEvent.snapshotWrite
  cases event.value fieldName key <;> rfl

/-- **An event with snapshots performs its writes**, whatever the chain would answer. -/
theorem handleSorobanEvent_eq (h : event.CarriesSnapshots) :
    (cache.handleSorobanEvent markets event answer).getD cache =
      cache.writeKeys event.contractId (event.effects markets) := by
  unfold Cache.handleSorobanEvent SorobanEvent.effects
  by_cases hm : event.contractId ∈ markets
  · simp only [if_pos hm]
    cases hop : event.operation with
    | none => rfl
    | some op =>
      cases op with
      | liquidate =>
        cases hkey : event.topicKey 2 with
        | none => rfl
        | some borrowerKey =>
          simp only [applyObligationSnapshot_eq, Cache.writeKeys, List.foldl_append]
          rfl
      | issueCoverBadDebt => exact absurd hop h
      | claimCoverBadDebtResults =>
        cases hkey : event.topicKey 1 with
        | none => rfl
        | some key => exact applyObligationSnapshot_eq _
      | deposit | borrow | addCollateral | repay | withdraw | removeCollateral =>
        cases hkey : event.topicKey 2 with
        | none => rfl
        | some key => exact applyObligationSnapshot_eq _
  · simp only [if_neg hm]
    rfl

end Effects

/-! ## Sequences of events -/

section Sequences

variable {cache cache' : Cache} {markets : List Address}
  {deliveries again : List (SorobanEvent × ChainAnswer)}

/-- The writes of a sequence of events, with their markets. -/
def allEffects (markets : List Address) (events : List SorobanEvent) :
    List (Address × ObligationKey × Option Obligation) :=
  events.flatMap fun event => (event.effects markets).map fun w => (event.contractId, w.1, w.2)

/-- The table's side of a write. -/
def rowWrite (w : Address × ObligationKey × Option Obligation) : RowKey × Option Obligation :=
  (w.2.1.row w.1, w.2.2)

/-- The memory's side of a write. -/
def memoryWrite (w : Address × ObligationKey × Option Obligation) :
    (Address × ObligationKey) × Option Obligation :=
  ((w.1, w.2.1), w.2.2)

theorem uncurry_write (market : Address) (key : ObligationKey) (v : Option Obligation) :
    Function.uncurry (cache.write market key v).memory =
      Function.update (Function.uncurry cache.memory) (market, key) v := by
  funext ⟨market', key'⟩
  by_cases hmarket : market' = market
  · subst hmarket
    simp [Cache.write, Function.uncurry, Function.update_apply]
  · simp [Cache.write, Function.uncurry, hmarket]

theorem repo_writes (ws : List (Address × ObligationKey × Option Obligation)) :
    (ws.foldl (fun cache w => cache.write w.1 w.2.1 w.2.2) cache).repo =
      writeAll cache.repo (ws.map rowWrite) := by
  induction ws generalizing cache with
  | nil => rfl
  | cons w ws ih =>
    rw [List.foldl_cons, ih]
    rfl

theorem memory_writes (ws : List (Address × ObligationKey × Option Obligation)) :
    Function.uncurry (ws.foldl (fun cache w => cache.write w.1 w.2.1 w.2.2) cache).memory =
      writeAll (Function.uncurry cache.memory) (ws.map memoryWrite) := by
  induction ws generalizing cache with
  | nil => rfl
  | cons w ws ih =>
    rw [List.foldl_cons, ih, uncurry_write]
    rfl

theorem handleEvents_eq (h : ∀ d ∈ deliveries, d.1.CarriesSnapshots) :
    cache.handleEvents markets deliveries =
      (allEffects markets (deliveries.map Prod.fst)).foldl
        (fun cache w => cache.write w.1 w.2.1 w.2.2) cache := by
  induction deliveries generalizing cache with
  | nil => rfl
  | cons d deliveries ih =>
    have hd : (cache.handleSorobanEvent markets d.1 d.2).getD cache =
        (d.1.effects markets).foldl (fun cache w => cache.write d.1.contractId w.1 w.2) cache :=
      handleSorobanEvent_eq (h d List.mem_cons_self)
    have hrest := @ih ((cache.handleSorobanEvent markets d.1 d.2).getD cache)
      fun d' hd' => h d' (List.mem_cons_of_mem d hd')
    have hsplit : allEffects markets ((d :: deliveries).map Prod.fst) =
        ((d.1.effects markets).map fun w => (d.1.contractId, w.1, w.2)) ++
          allEffects markets (deliveries.map Prod.fst) := rfl
    have hcons : cache.handleEvents markets (d :: deliveries) =
        ((cache.handleSorobanEvent markets d.1 d.2).getD cache).handleEvents markets deliveries := rfl
    rw [hsplit, List.foldl_append, List.foldl_map, hcons, hrest, hd]

theorem Cache.eq_of (hrepo : cache.repo = cache'.repo)
    (hmemory : Function.uncurry cache.memory = Function.uncurry cache'.memory) : cache = cache' := by
  obtain ⟨repo, memory⟩ := cache
  obtain ⟨repo', memory'⟩ := cache'
  obtain rfl : memory = memory' := funext fun market => funext fun key => congrFun hmemory (market, key)
  obtain rfl : repo = repo' := hrepo
  rfl

theorem handleEvents_again (h : ∀ d ∈ deliveries, d.1.CarriesSnapshots)
    (hsame : again.map Prod.fst = deliveries.map Prod.fst) :
    (cache.handleEvents markets deliveries).handleEvents markets again =
      cache.handleEvents markets deliveries := by
  have hagain : ∀ d ∈ again, d.1.CarriesSnapshots := by
    intro d hd
    have hmem : d.1 ∈ deliveries.map Prod.fst := hsame ▸ List.mem_map_of_mem hd
    obtain ⟨d', hd', he⟩ := List.mem_map.mp hmem
    exact he ▸ h d' hd'
  rw [handleEvents_eq hagain, handleEvents_eq h, hsame]
  refine Cache.eq_of ?_ ?_
  · rw [repo_writes, repo_writes, writeAll_again]
  · rw [memory_writes, memory_writes, writeAll_again]

/-- **Replaying events is harmless.** Handling a sequence of events with snapshots and then its end again
leaves the table and the memory as handling the sequence leaves them. -/
theorem replay_changes_nothing (markets : List Address) (cache : Cache)
    (first second again : List (SorobanEvent × ChainAnswer))
    (h : ∀ d ∈ first ++ second, d.1.CarriesSnapshots)
    (hsame : again.map Prod.fst = second.map Prod.fst) :
    cache.handleEvents markets (first ++ second ++ again) =
      cache.handleEvents markets (first ++ second) := by
  have happend : ∀ (cache : Cache) (l m : List (SorobanEvent × ChainAnswer)),
      cache.handleEvents markets (l ++ m) = (cache.handleEvents markets l).handleEvents markets m :=
    fun _ _ _ => List.foldl_append
  rw [happend cache (first ++ second) again, happend cache first second]
  exact handleEvents_again (fun d hd => h d (List.mem_append_right first hd)) hsame

end Sequences

/-- A borrow that leaves the obligation of `bareTable` as it is there. -/
def bareBorrow : SorobanEvent :=
  { closingRepay with operation := some .borrow, value := fun _ _ => .snapshot bareDebt }

/-- After a borrow, the repayment that closes the obligation and the borrow that opens it again are delivered
twice. -/
theorem closing_repay_twice :
    (Cache.syncState ["MARKET"] bareTable).handleEvents ["MARKET"]
        ([(bareBorrow, .failed)] ++ [(closingRepay, .failed), (bareBorrow, .failed)] ++
          [(closingRepay, .doesNotExist), (bareBorrow, .found bareDebt)]) =
      (Cache.syncState ["MARKET"] bareTable).handleEvents ["MARKET"]
        ([(bareBorrow, .failed)] ++ [(closingRepay, .failed), (bareBorrow, .failed)]) :=
  replay_changes_nothing ["MARKET"] (Cache.syncState ["MARKET"] bareTable) [(bareBorrow, .failed)]
    [(closingRepay, .failed), (bareBorrow, .failed)]
    [(closingRepay, .doesNotExist), (bareBorrow, .found bareDebt)]
    (by simp [SorobanEvent.CarriesSnapshots, closingRepay, bareBorrow]) rfl

end AlulaKeeper
