import Mathlib
import AlulaKeeper.Lending.Pool

/-!
# When the periodic passes run

`LedgerCollector` emits the latest ledger at each poll, so numbers may be skipped. Every strategy gets each
emitted ledger and decides in `handle_new_ledger` whether its periodic pass runs on it.

* `LedgerCollector.emitted`: what the collector emits over a run of polls; it increases.
* `Periodic.handleNewLedger`: the gate of each strategy, `Periodic.passes`: the ledgers it lets through.
* `mem_passes_of_ne`, `passes_of_distance`: what the two kinds of gate let through.
* `cadence_iff`: when a strategy has a pass in a window of its interval's length.
-/

namespace AlulaKeeper

/-! ## The collector -/

namespace LedgerCollector

/-- One poll: an answer past the last emitted ledger is emitted. -/
def poll (lastSeqNum : ℕ) : Option ℕ → Option ℕ
  | some sequence => if lastSeqNum < sequence then some sequence else none
  | none => none

/-- The ledgers emitted over a run of polls, `none` a failed one. -/
def emitted : ℕ → List (Option ℕ) → List ℕ
  | _, [] => []
  | lastSeqNum, answer :: answers =>
    match poll lastSeqNum answer with
    | some sequence => sequence :: emitted sequence answers
    | none => emitted lastSeqNum answers

theorem lt_of_poll {last sequence : ℕ} {answer : Option ℕ} (h : poll last answer = some sequence) :
    last < sequence := by
  cases answer with
  | none => cases h
  | some latest =>
    rw [poll] at h
    split_ifs at h with hlt
    cases h
    exact hlt

/-- What a run of polls emits increases from the last ledger on. -/
theorem emitted_chain (last : ℕ) (answers : List (Option ℕ)) :
    (last :: emitted last answers).Pairwise (· < ·) := by
  induction answers generalizing last with
  | nil => simp [emitted]
  | cons answer answers ih =>
    rw [emitted]
    cases h : poll last answer with
    | none => exact ih last
    | some sequence =>
      have hlt := lt_of_poll h
      have hrest := ih sequence
      refine List.Pairwise.cons (fun l hl => ?_) hrest
      obtain rfl | hl := List.mem_cons.mp hl
      · exact hlt
      · exact hlt.trans (List.rel_of_pairwise_cons hrest hl)

end LedgerCollector

/-! ## The gates -/

/-- The strategies with a periodic pass. -/
inductive Periodic where
  | liquidator
  | balancer (assetsToHold swapProviders : List Address)
  | withdrawer
  | badDebtRequestInitiator
  deriving DecidableEq, Repr

namespace Periodic

/-- `is_swap_reasonable` of the balancer. -/
def isSwapReasonable (assetsToHold swapProviders : List Address) : Bool :=
  !assetsToHold.isEmpty && !swapProviders.isEmpty

/-- The gate of `handle_new_ledger`: `none` skips the ledger, otherwise the pass runs and this is the last
refresh ledger from then on. Only the liquidator keeps one. -/
def handleNewLedger (refreshIntervalBlocks lastRefreshLedger ledger : ℕ) : Periodic → Option ℕ
  | liquidator =>
    if ledger - lastRefreshLedger < refreshIntervalBlocks then none else some ledger
  | balancer assetsToHold swapProviders =>
    if ¬ refreshIntervalBlocks ∣ ledger ∨ !isSwapReasonable assetsToHold swapProviders then none
    else some lastRefreshLedger
  | withdrawer => if ¬ refreshIntervalBlocks ∣ ledger then none else some lastRefreshLedger
  | badDebtRequestInitiator => if ¬ refreshIntervalBlocks ∣ ledger then none else some lastRefreshLedger

/-- The ledgers of a sequence on which the pass runs. -/
def passes (strategy : Periodic) (refreshIntervalBlocks : ℕ) : ℕ → List ℕ → List ℕ
  | _, [] => []
  | last, ledger :: ledgers =>
    match strategy.handleNewLedger refreshIntervalBlocks last ledger with
    | some last' => ledger :: strategy.passes refreshIntervalBlocks last' ledgers
    | none => strategy.passes refreshIntervalBlocks last ledgers

/-- The pass runs on an emitted ledger after `a` and not after `b`. -/
def RunsWithin (strategy : Periodic) (refreshIntervalBlocks : ℕ) (ledgers : List ℕ) (a b : ℕ) : Prop :=
  ∃ l ∈ strategy.passes refreshIntervalBlocks 0 ledgers, a < l ∧ l ≤ b

instance {strategy : Periodic} {n : ℕ} {ledgers : List ℕ} {a b : ℕ} :
    Decidable (strategy.RunsWithin n ledgers a b) :=
  inferInstanceAs (Decidable (∃ l ∈ strategy.passes n 0 ledgers, a < l ∧ l ≤ b))

/-- Whether a strategy that is no liquidator runs on the multiples it sees. -/
def runsOnMultiples : Periodic → Bool
  | liquidator => false
  | balancer assetsToHold swapProviders => isSwapReasonable assetsToHold swapProviders
  | withdrawer => true
  | badDebtRequestInitiator => true

section Gates

variable {strategy : Periodic} {n last a b : ℕ} {ledgers : List ℕ}

/-- A strategy that is no liquidator runs on the ledgers its interval divides. -/
theorem handleNewLedger_of_ne (h : strategy ≠ .liquidator) (ledger : ℕ) :
    strategy.handleNewLedger n last ledger =
      if strategy.runsOnMultiples ∧ n ∣ ledger then some last else none := by
  cases strategy with
  | liquidator => exact absurd rfl h
  | balancer assetsToHold swapProviders =>
    by_cases hd : n ∣ ledger
    · cases hr : isSwapReasonable assetsToHold swapProviders <;>
        simp [handleNewLedger, runsOnMultiples, hd, hr]
    · simp [handleNewLedger, hd]
  | withdrawer => by_cases hd : n ∣ ledger <;> simp [handleNewLedger, runsOnMultiples, hd]
  | badDebtRequestInitiator => by_cases hd : n ∣ ledger <;> simp [handleNewLedger, runsOnMultiples, hd]

theorem mem_passes_of_ne (h : strategy ≠ .liquidator) {l : ℕ} :
    l ∈ strategy.passes n last ledgers ↔ l ∈ ledgers ∧ strategy.runsOnMultiples ∧ n ∣ l := by
  induction ledgers with
  | nil => simp [passes]
  | cons ledger ledgers ih =>
    rw [passes, handleNewLedger_of_ne h]
    by_cases hgate : strategy.runsOnMultiples ∧ n ∣ ledger
    · simp only [if_pos hgate, List.mem_cons, ih]
      constructor
      · rintro (rfl | ⟨hl, hr⟩)
        · exact ⟨.inl rfl, hgate⟩
        · exact ⟨.inr hl, hr⟩
      · rintro ⟨rfl | hl, hr⟩
        · exact .inl rfl
        · exact .inr ⟨hl, hr⟩
    · simp only [if_neg hgate, List.mem_cons, ih]
      constructor
      · rintro ⟨hl, hr⟩
        exact ⟨.inr hl, hr⟩
      · rintro ⟨rfl | hl, hr⟩
        · exact absurd hr hgate
        · exact ⟨hl, hr⟩

/-- **The gate on distance.** Once the last pass is no later than `a`, a ledger `b` at least the interval
after `a` sees a pass in between or runs one. -/
theorem passes_of_distance (hsorted : (last :: ledgers).Pairwise (· ≤ ·)) (hlast : last ≤ a)
    (hb : b ∈ ledgers) (hab : a + n ≤ b) (hn : 1 ≤ n) :
    ∃ l ∈ liquidator.passes n last ledgers, a < l ∧ l ≤ b := by
  induction ledgers generalizing last with
  | nil => cases hb
  | cons ledger ledgers ih =>
    have hsorted' := hsorted.tail
    have hle : ledger ≤ b := by
      obtain rfl | hb := List.mem_cons.mp hb
      · exact le_rfl
      · exact List.rel_of_pairwise_cons hsorted' hb
    rw [passes, handleNewLedger]
    split_ifs with hgate
    · -- a skipped ledger is nearer than the interval, so it is not `b`
      have hb' : b ∈ ledgers := by
        obtain rfl | hb := List.mem_cons.mp hb
        · omega
        · exact hb
      have hskip : (last :: ledgers).Pairwise (· ≤ ·) :=
        hsorted.sublist ((List.sublist_cons_self ledger ledgers).cons_cons last)
      exact ih hskip hlast hb'
    · by_cases hal : a < ledger
      · exact ⟨ledger, List.mem_cons_self, hal, hle⟩
      · have hb' : b ∈ ledgers := by
          obtain rfl | hb := List.mem_cons.mp hb
          · omega
          · exact hb
        obtain ⟨l, hl, hbounds⟩ := ih hsorted' (not_lt.mp hal) hb'
        exact ⟨l, List.mem_cons_of_mem _ hl, hbounds⟩

/-- **When the cadence is kept.** Between two emitted ledgers at least the interval apart the liquidator has
a pass; the others have one exactly when a ledger emitted in between is a multiple of the interval. -/
theorem cadence_iff (strategy : Periodic) (n : ℕ) (hn : 1 ≤ n) (ledgers : List ℕ)
    (hsorted : ledgers.Pairwise (· < ·)) (a b : ℕ) (hb : b ∈ ledgers) (hdist : n ≤ b - a) :
    strategy.RunsWithin n ledgers a b ↔
      strategy = .liquidator ∨
        strategy.runsOnMultiples = true ∧ ∃ l ∈ ledgers, a < l ∧ l ≤ b ∧ n ∣ l := by
  by_cases h : strategy = .liquidator
  · subst h
    have hsorted' : (0 :: ledgers).Pairwise (· ≤ ·) :=
      List.Pairwise.cons (fun _ _ => Nat.zero_le _) (hsorted.imp le_of_lt)
    simp only [true_or, iff_true]
    exact passes_of_distance hsorted' (Nat.zero_le a) hb (by omega) hn
  · simp only [RunsWithin, mem_passes_of_ne h, h, false_or]
    constructor
    · rintro ⟨l, ⟨hl, hr, hd⟩, hal, hlb⟩
      exact ⟨hr, l, hl, hal, hlb, hd⟩
    · rintro ⟨hr, l, hl, hal, hlb, hd⟩
      exact ⟨l, ⟨hl, hr, hd⟩, hal, hlb⟩

end Gates

/-- With an interval of 5, ledgers 3, 8, 12: the liquidator runs on 8, the withdrawer on none. -/
theorem cadence_of_three_ledgers :
    (liquidator.RunsWithin 5 [3, 8, 12] 3 8 ↔ liquidator = .liquidator ∨
      liquidator.runsOnMultiples = true ∧ ∃ l ∈ [3, 8, 12], 3 < l ∧ l ≤ 8 ∧ 5 ∣ l) ∧
    (withdrawer.RunsWithin 5 [3, 8, 12] 3 12 ↔ withdrawer = .liquidator ∨
      withdrawer.runsOnMultiples = true ∧ ∃ l ∈ [3, 8, 12], 3 < l ∧ l ≤ 12 ∧ 5 ∣ l) :=
  ⟨cadence_iff liquidator 5 (by decide) [3, 8, 12] (by decide) 3 8 (by decide) (by decide),
    cadence_iff withdrawer 5 (by decide) [3, 8, 12] (by decide) 3 12 (by decide) (by decide)⟩

/-- Polls that see ledgers 9 and 19 let the withdrawer, the initiator and the balancer miss their interval
of 10. -/
theorem skipped_multiple_skips_the_pass :
    LedgerCollector.emitted 0 [some 9, none, some 19] = [9, 19] ∧ 10 ≤ 19 - 9 ∧
      ¬ withdrawer.RunsWithin 10 [9, 19] 9 19 ∧
      ¬ badDebtRequestInitiator.RunsWithin 10 [9, 19] 9 19 ∧
      ¬ (balancer ["XLM"] ["ROUTER"]).RunsWithin 10 [9, 19] 9 19 := by
  decide

end Periodic

end AlulaKeeper
