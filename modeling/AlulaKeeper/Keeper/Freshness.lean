import Mathlib
import AlulaKeeper.Lib.Steps
import AlulaKeeper.Lending.Health
import AlulaKeeper.Keeper.Cadence

/-!
# The age of the prices a scan judges on

The Liquidator refreshes every market's snapshot on a new ledger and then scans the markets, judging every
cached obligation against the snapshot. Time passes at every await.

* `installSnapshot`: a read installed and stamped, unless it flags every pool unavailable.
* `scanStep`: refresh, age check, judgements, and time.
* `InTime`: the condition on a step under which judgements stay fresh.
* `prices_fresh_when_judged`: over runs of such steps every judgement used fresh prices.
-/

namespace AlulaKeeper

open I128 Steps

/-- What the scan reads of `LiquidatorConfig`, with the keeper's own account. -/
structure ScanConfig where
  pkey : Address
  markets : List Address
  refreshIntervalBlocks : ℕ
  maxMarketDataAge : ℕ
  dustRules : DustRules
  deriving DecidableEq, Repr

/-- `MarketSnapshot`. -/
structure MarketSnapshot where
  data : MarketData
  /-- When the snapshot was installed. -/
  refreshedAt : ℕ
  deriving DecidableEq, Repr

/-- Seconds since the snapshot was installed. -/
def MarketSnapshot.age (snapshot : MarketSnapshot) (now : ℕ) : ℕ := now - snapshot.refreshedAt

/-- An obligation handed to `compute_is_liquidatable`. -/
structure Judgement where
  market : Address
  obligation : Obligation
  snapshot : MarketSnapshot
  judgedAt : ℕ
  deriving DecidableEq, Repr

/-- What the Liquidator is at. -/
inductive ScanPhase where
  /-- In `sync_state`, with the markets still to read. -/
  | syncing (queue : List Address)
  | idle
  /-- In `refresh_market_data`, with the markets still to read. -/
  | refreshing (queue : List Address)
  /-- Between the markets of a scan. -/
  | evaluating (queue : List Address)
  /-- Inside `evaulate_market`, past the age check. -/
  | scanning (queue : List Address) (market : Address) (snapshot : MarketSnapshot)
      (rows : List (ObligationKey × Obligation))
  /-- A panic took the task down. -/
  | crashed

/-- The Liquidator, as far as the age of its data goes. -/
structure Scanner where
  now : ℕ
  lastRefreshLedger : ℕ
  marketData : Address → Option MarketSnapshot
  obligations : Address → List (ObligationKey × Obligation)
  phase : ScanPhase
  judged : List Judgement

/-- What the Liquidator and the clock may do next. -/
inductive ScanAct where
  | elapse (time : ℕ)
  /-- The next market's data is read; `none` a failed read. -/
  | readMarketData (answer : Option MarketData)
  | newLedger (seqNum : ℕ)
  /-- The scan of the next market starts. -/
  | evaluate
  /-- The next obligation of the scan. -/
  | judge
  /-- The loop at hand is through. -/
  | proceed
  /-- Events change the cached obligations. -/
  | cached (obligations : Address → List (ObligationKey × Obligation))

namespace Scanner

/-- The Liquidator as `main` builds it, about to sync. -/
def start (config : ScanConfig) (now : ℕ) : Scanner where
  now
  lastRefreshLedger := 0
  marketData := fun _ => none
  obligations := fun _ => []
  phase := .syncing config.markets
  judged := []

variable (s : Scanner)

/-- `install_snapshot`: a rebuild that priced no pool is refused. -/
def installSnapshot (market : Address) (data : MarketData) : Scanner :=
  if data.pricesNothing then s
  else { s with marketData := Function.update s.marketData market (some ⟨data, s.now⟩) }

/-- A market's read, successful or not. -/
def readMarket (market : Address) : Option MarketData → Scanner
  | some data => s.installSnapshot market data
  | none => s

end Scanner

/-- Whether the scan hands an obligation to `compute_is_liquidatable`: the keeper's own are passed over, and
those that touch a pool the snapshot does not price. -/
def isJudged (config : ScanConfig) (data : MarketData) (row : ObligationKey × Obligation) : Bool :=
  row.1.user != config.pkey && (unpricedPoolsTouched row.2 data).isEmpty

/-- Whether a judgement ends in a panic, in the verdict itself or in the insolvency check after it. -/
def judgementAborts (config : ScanConfig) (data : MarketData) (obligation : Obligation) : Bool :=
  match computeIsLiquidatable obligation data config.dustRules with
  | .error .abort => true
  | .ok true => computeIsInsolvent obligation data == .error .abort
  | _ => false

/-- One step; `none` where it is not enabled. -/
def scanStep (config : ScanConfig) (s : Scanner) : ScanAct → Option Scanner
  | .elapse time => some { s with now := s.now + time }
  | .readMarketData answer =>
    match s.phase with
    | .syncing (market :: queue) => some { s.readMarket market answer with phase := .syncing queue }
    | .refreshing (market :: queue) => some { s.readMarket market answer with phase := .refreshing queue }
    | _ => none
  | .newLedger seqNum =>
    match s.phase with
    | .idle =>
      match Periodic.liquidator.handleNewLedger config.refreshIntervalBlocks s.lastRefreshLedger seqNum with
      | some ledger => some { s with lastRefreshLedger := ledger, phase := .refreshing config.markets }
      | none => some s
    | _ => none
  | .evaluate =>
    match s.phase with
    | .evaluating (market :: queue) =>
      match s.marketData market with
      | none => some { s with phase := .evaluating queue }
      | some snapshot =>
        if snapshot.age s.now > config.maxMarketDataAge then some { s with phase := .evaluating queue }
        else some { s with phase := .scanning queue market snapshot (s.obligations market) }
    | _ => none
  | .judge =>
    match s.phase with
    | .scanning queue market snapshot (row :: rows) =>
      if isJudged config snapshot.data row then
        some { s with
          judged := s.judged ++ [⟨market, row.2, snapshot, s.now⟩]
          phase := if judgementAborts config snapshot.data row.2 then .crashed
            else .scanning queue market snapshot rows }
      else some { s with phase := .scanning queue market snapshot rows }
    | _ => none
  | .proceed =>
    match s.phase with
    | .syncing [] => some { s with phase := .idle }
    | .refreshing [] => some { s with phase := .evaluating config.markets }
    | .evaluating [] => some { s with phase := .idle }
    | .scanning queue _ _ [] => some { s with phase := .evaluating queue }
    | _ => none
  | .cached obligations =>
    match s.phase with
    | .idle => some { s with obligations }
    | _ => none

/-! ## Fresh judgements -/

/-- The snapshot holds a priced pool and was installed at most the maximum age before. -/
def Judgement.Fresh (config : ScanConfig) (j : Judgement) : Prop :=
  j.snapshot.data.poolsData ≠ [] ∧ j.judgedAt - j.snapshot.refreshedAt ≤ config.maxMarketDataAge

instance {config : ScanConfig} {j : Judgement} : Decidable (j.Fresh config) :=
  inferInstanceAs (Decidable (j.snapshot.data.poolsData ≠ [] ∧ _))

/-- A step is in time when no read returns neither a priced nor an unavailable pool, and while a scan has
obligations left to judge time does not pass beyond its snapshot's maximum age. -/
def InTime (config : ScanConfig) (s : Scanner) : ScanAct → Prop
  | .readMarketData (some data) => data.poolsData = [] → data.unavailablePools ≠ []
  | .elapse time => ∀ queue market snapshot rows, s.phase = .scanning queue market snapshot rows →
      (∃ row ∈ rows, isJudged config snapshot.data row = true) →
        snapshot.age (s.now + time) ≤ config.maxMarketDataAge
  | _ => True

/-- Every judgement so far was fresh, every installed snapshot prices a pool, and a scan with obligations
left to judge is within its snapshot's age. -/
structure Scanner.Timely (config : ScanConfig) (s : Scanner) : Prop where
  fresh : ∀ j ∈ s.judged, j.Fresh config
  priced : ∀ market snapshot, s.marketData market = some snapshot → snapshot.data.poolsData ≠ []
  inScan : ∀ queue market snapshot rows, s.phase = .scanning queue market snapshot rows →
    snapshot.data.poolsData ≠ [] ∧ ((∃ row ∈ rows, isJudged config snapshot.data row = true) →
      snapshot.age s.now ≤ config.maxMarketDataAge)

section Timely

variable {config : ScanConfig} {s t : Scanner}

theorem readMarket_refused {market : Address} {answer : Option MarketData}
    (h : ∀ data, answer = some data → data.pricesNothing = true) : s.readMarket market answer = s := by
  cases answer with
  | none => rfl
  | some data => rw [Scanner.readMarket, Scanner.installSnapshot, if_pos (h data rfl)]

theorem Scanner.Timely.readMarket {market : Address} {answer : Option MarketData} (h : s.Timely config)
    (hanswer : ∀ data, answer = some data → data.poolsData = [] → data.unavailablePools ≠ [])
    {phase : ScanPhase} (hphase : ∀ queue market snapshot rows,
      phase ≠ .scanning queue market snapshot rows) :
    { s.readMarket market answer with phase }.Timely config := by
  have hnot : ∀ queue market snapshot rows, phase = .scanning queue market snapshot rows →
      snapshot.data.poolsData ≠ [] ∧ ((∃ row ∈ rows, isJudged config snapshot.data row = true) →
        snapshot.age s.now ≤ config.maxMarketDataAge) :=
    fun _ _ _ _ heq => absurd heq (hphase _ _ _ _)
  cases answer with
  | none => exact ⟨h.fresh, h.priced, hnot⟩
  | some data =>
    rw [Scanner.readMarket, Scanner.installSnapshot]
    split_ifs with hrefused
    · exact ⟨h.fresh, h.priced, hnot⟩
    · refine ⟨h.fresh, fun market' snapshot hsnapshot => ?_, hnot⟩
      simp only [Function.update_apply] at hsnapshot
      split_ifs at hsnapshot
      · cases hsnapshot
        intro (hempty : data.poolsData = [])
        refine hrefused ?_
        simp [MarketData.pricesNothing, hempty, hanswer data rfl hempty]
      · exact h.priced market' snapshot hsnapshot

theorem Scanner.Timely.phase {phase : ScanPhase} {ledger : ℕ}
    {obligations : Address → List (ObligationKey × Obligation)} (h : s.Timely config)
    (hphase : ∀ queue market snapshot rows, phase ≠ .scanning queue market snapshot rows) :
    { s with phase, obligations, lastRefreshLedger := ledger }.Timely config :=
  ⟨h.fresh, h.priced, fun _ _ _ _ heq => absurd heq (hphase _ _ _ _)⟩

theorem Scanner.Timely.judge {market : Address} {obligation : Obligation} {snapshot : MarketSnapshot}
    (h : s.Timely config) (hpriced : snapshot.data.poolsData ≠ [])
    (hage : snapshot.age s.now ≤ config.maxMarketDataAge) :
    ∀ j ∈ s.judged ++ [⟨market, obligation, snapshot, s.now⟩], j.Fresh config := by
  intro j hj
  obtain hj | hj := List.mem_append.mp hj
  · exact h.fresh j hj
  · obtain rfl := List.mem_singleton.mp hj
    exact ⟨hpriced, hage⟩

/-- **One step.** A step in time keeps every judgement fresh. -/
theorem scanStep_timely (a : ScanAct) (h : s.Timely config) (hguard : InTime config s a)
    (hstep : scanStep config s a = some t) : t.Timely config := by
  cases a with
  | elapse time =>
    cases hstep
    refine ⟨h.fresh, h.priced, fun queue market snapshot rows hphase => ?_⟩
    exact ⟨(h.inScan queue market snapshot rows hphase).1, hguard queue market snapshot rows hphase⟩
  | readMarketData answer =>
    have hanswer : ∀ data, answer = some data → data.poolsData = [] → data.unavailablePools ≠ [] := by
      rintro data rfl
      exact hguard
    simp only [scanStep] at hstep
    split at hstep <;> cases hstep
    · exact h.readMarket hanswer (by simp)
    · exact h.readMarket hanswer (by simp)
  | newLedger seqNum =>
    simp only [scanStep] at hstep
    split at hstep
    · split at hstep <;> cases hstep
      · exact h.phase (by simp)
      · exact h
    · cases hstep
  | evaluate =>
    simp only [scanStep] at hstep
    split at hstep
    · split at hstep
      · cases hstep
        exact h.phase (by simp)
      · rename_i snapshot hsnapshot
        split_ifs at hstep with hage <;> cases hstep
        · exact h.phase (by simp)
        · refine ⟨h.fresh, h.priced, fun queue market snapshot' rows hphase => ?_⟩
          cases hphase
          exact ⟨h.priced _ _ hsnapshot, fun _ => not_lt.mp hage⟩
    · cases hstep
  | judge =>
    simp only [scanStep] at hstep
    split at hstep
    · rename_i queue market snapshot row rows hphase
      obtain ⟨hpriced, hage⟩ := h.inScan _ _ _ _ hphase
      have hrest : (∃ row ∈ rows, isJudged config snapshot.data row = true) →
          snapshot.age s.now ≤ config.maxMarketDataAge :=
        fun ⟨row', hmem, hrow'⟩ => hage ⟨row', List.mem_cons_of_mem row hmem, hrow'⟩
      split_ifs at hstep with hjudged haborts
      · cases hstep
        exact ⟨h.judge hpriced (hage ⟨row, List.mem_cons_self, hjudged⟩), h.priced,
          fun _ _ _ _ heq => by cases heq⟩
      · cases hstep
        refine ⟨h.judge hpriced (hage ⟨row, List.mem_cons_self, hjudged⟩), h.priced,
          fun _ _ _ _ heq => ?_⟩
        cases heq
        exact ⟨hpriced, hrest⟩
      · cases hstep
        refine ⟨h.fresh, h.priced, fun _ _ _ _ heq => ?_⟩
        cases heq
        exact ⟨hpriced, hrest⟩
    · cases hstep
  | proceed =>
    simp only [scanStep] at hstep
    split at hstep <;> cases hstep <;> exact h.phase (by simp)
  | cached obligations =>
    simp only [scanStep] at hstep
    split at hstep <;> cases hstep
    exact ⟨h.fresh, h.priced, h.inScan⟩

/-- **Prices are fresh when they are used.** In every run of steps in time, every obligation was judged
against a snapshot that holds a priced pool and was installed at most the maximum age before; and a failed
or refused refresh stamps nothing anew. -/
theorem prices_fresh_when_judged (config : ScanConfig) (now : ℕ) (acts : List ScanAct) (s : Scanner)
    (h : Run (scanStep config) (InTime config) (Scanner.start config now) acts s) :
    (∀ j ∈ s.judged, j.Fresh config) ∧
      ∀ answer t, (∀ data, answer = some data → data.pricesNothing = true) →
        scanStep config s (.readMarketData answer) = some t → t.marketData = s.marketData := by
  have hstart : (Scanner.start config now).Timely config :=
    ⟨fun _ hj => (List.not_mem_nil hj).elim, nofun, nofun⟩
  have hend : s.Timely config :=
    h.invariant (fun _ a _ hs hg hstep => scanStep_timely a hs hg hstep) hstart
  refine ⟨hend.fresh, fun answer t hrefused hstep => ?_⟩
  simp only [scanStep] at hstep
  split at hstep <;> cases hstep
  · rw [readMarket_refused hrefused]
  · rw [readMarket_refused hrefused]

end Timely

/-! ## A scan of two obligations -/

/-- Data of up to a minute is judged on. -/
def minuteConfig : ScanConfig where
  pkey := "KEEPER"
  markets := ["MARKET"]
  refreshIntervalBlocks := 2
  maxMarketDataAge := 60
  dustRules := .noDust

/-- $100 of USDC owed against $90 of gold, twice. -/
def twoBorrowers : List (ObligationKey × Obligation) :=
  [({ user := "A", seed := none }, dustBorrower 1000000000 900000000),
    ({ user := "B", seed := none }, dustBorrower 1000000000 900000000)]

/-- The two obligations are judged, `await` seconds apart. -/
def scanWithAwait (await : ℕ) : List ScanAct :=
  [.readMarketData (some (dustMarket usd)), .proceed, .cached fun _ => twoBorrowers, .newLedger 2,
    .readMarketData none, .proceed, .evaluate, .judge, .elapse await, .judge]

/-- A market that reports no pool, priced or not, and a cached obligation without positions. -/
def scanOfNothing : List ScanAct :=
  [.readMarketData (some { dustMarket usd with poolsData := [] }), .proceed,
    .cached fun _ => [({ user := "A", seed := none }, ⟨[], [], 0⟩)], .newLedger 2, .readMarketData none,
    .proceed, .evaluate, .judge]

/-- Half a minute between the two: both are judged on fresh prices. -/
theorem half_a_minute_is_in_time : ∃ s : Scanner,
    s.judged.length = 2 ∧ ∀ j ∈ s.judged, j.Fresh minuteConfig := by
  refine ⟨_, ?_, (prices_fresh_when_judged minuteConfig 0 (scanWithAwait 30) _
    (.cons nofun rfl (.cons trivial rfl (.cons trivial rfl (.cons trivial rfl (.cons trivial rfl
      (.cons trivial rfl (.cons trivial rfl (.cons trivial rfl (.cons ?_ rfl (.cons trivial rfl
        (.nil _)))))))))))).1⟩
  · rfl
  · intro queue market snapshot rows hphase _
    cases hphase
    decide

/-- **A slow quote outlasts the age check.** The first obligation is liquidatable and planning it takes two
minutes; the second is then judged on prices two minutes old. A market that lists no pool at all installs an
empty snapshot, on which an obligation without positions is judged. -/
theorem slow_scan_judges_on_old_prices :
    computeIsLiquidatable (dustBorrower 1000000000 900000000) (dustMarket usd) .noDust = .ok true ∧
      (∃ s, Run (scanStep minuteConfig) (fun _ _ => True) (Scanner.start minuteConfig 0)
        (scanWithAwait 120) s ∧ ∃ j ∈ s.judged, ¬ j.Fresh minuteConfig) ∧
      ∃ s, Run (scanStep minuteConfig) (fun _ _ => True) (Scanner.start minuteConfig 0) scanOfNothing s ∧
        ∃ j ∈ s.judged, ¬ j.Fresh minuteConfig := by
  refine ⟨by decide +kernel, ⟨_, .cons trivial rfl (.cons trivial rfl (.cons trivial rfl
    (.cons trivial rfl (.cons trivial rfl (.cons trivial rfl (.cons trivial rfl (.cons trivial rfl
      (.cons trivial rfl (.cons trivial rfl (.nil _)))))))))), _,
        List.mem_append_right _ (List.mem_singleton_self _), by decide⟩,
    ⟨_, .cons trivial rfl (.cons trivial rfl (.cons trivial rfl (.cons trivial rfl (.cons trivial rfl
      (.cons trivial rfl (.cons trivial rfl (.cons trivial rfl (.nil _)))))))), _,
        List.mem_append_right _ (List.mem_singleton_self _), by decide⟩⟩

end AlulaKeeper
