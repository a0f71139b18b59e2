import Mathlib
import AlulaKeeper.Lib.Steps
import AlulaKeeper.Keeper.Obligations

/-!
# The table and the Liquidator's memory

* `Cache.Mirrors`: for every configured market the table loads what the memory holds.
* `Cache.Mirrors.handleSorobanEvent`: every event keeps them together.
* `keeperStep_mirrors_iff`: a step of the keeper does, unless the sweep drops a row the memory still holds.
* `table_mirrors_memory`: the same over runs from `syncState`.
-/

namespace AlulaKeeper

open I128 Steps

variable {market market' : Address} {key key' : ObligationKey} {markets : List Address}
  {config : InitiatorConfig}

/-- Every key an event names has an absent or non-empty seed. -/
def EventKeys (event : SorobanEvent) : Prop :=
  ∀ i key, event.topicKey i = some key → key.WellFormed

/-! ## One write -/

theorem ObligationKey.row_inj (hk : key.WellFormed) (hk' : key'.WellFormed) :
    key'.row market' = key.row market ↔ market' = market ∧ key' = key := by
  obtain ⟨user, seed⟩ := key
  obtain ⟨user', seed'⟩ := key'
  simp only [WellFormed] at hk hk'
  simp only [row, seedAsStr, RowKey.mk.injEq, ObligationKey.mk.injEq]
  -- an absent seed is stored as the empty string, which no other seed is
  have hseed : seed'.getD "" = seed.getD "" ↔ seed' = seed := by
    cases seed <;> cases seed' <;> simp_all [eq_comm]
  rw [hseed]

theorem ObligationsRepo.loadAll_update (repo : ObligationsRepo) (hk : key.WellFormed)
    (v : Option Obligation) :
    loadAll (Function.update repo (key.row market) v) market' key' =
      if market' = market ∧ key' = key then v else repo.loadAll market' key' := by
  unfold loadAll
  by_cases hk' : key'.seed = some ""
  · have hne : key' ≠ key := fun h => hk (h ▸ hk')
    simp [hk', hne]
  · simp only [if_neg hk', Function.update_apply, ObligationKey.row_inj hk hk']

namespace Cache

variable {cache : Cache}

/-- The table loads what the memory holds. -/
def Mirrors (markets : List Address) (cache : Cache) : Prop :=
  ∀ market ∈ markets, ∀ key, cache.repo.loadAll market key = cache.memory market key

theorem Mirrors.write (h : cache.Mirrors markets) (hk : key.WellFormed) (v : Option Obligation) :
    (cache.write market key v).Mirrors markets := by
  intro market' hm key'
  have hmem : (cache.write market key v).memory market' key' =
      if market' = market ∧ key' = key then v else cache.memory market' key' := by
    by_cases hmarket : market' = market
    · subst hmarket
      simp [Cache.write, Function.update_apply]
    · simp [Cache.write, hmarket]
  rw [hmem, ← h market' hm key']
  exact ObligationsRepo.loadAll_update cache.repo hk v

/-! ## One event -/

variable {event : SorobanEvent} {answer : ChainAnswer}

theorem Mirrors.applyObligationSnapshot (h : cache.Mirrors markets) (hk : key.WellFormed)
    (fieldName : String) : (cache.applyObligationSnapshot market fieldName key event).Mirrors markets := by
  unfold Cache.applyObligationSnapshot
  cases event.value fieldName key with
  | error => exact h
  | deleted => exact h.write hk none
  | snapshot obligation => exact h.write hk (some obligation)

theorem Mirrors.rereadObligation (h : cache.Mirrors markets) (hk : key.WellFormed) :
    (cache.rereadObligation market key answer).Mirrors markets := by
  cases answer with
  | found obligation => exact h.write hk (some obligation)
  | doesNotExist => exact h.write hk none
  | failed => exact h

theorem Mirrors.handleSorobanEvent {cache' : Cache} (h : cache.Mirrors markets)
    (hkeys : EventKeys event)
    (heq : cache.handleSorobanEvent markets event answer = some cache') : cache'.Mirrors markets := by
  unfold Cache.handleSorobanEvent at heq
  by_cases hm : event.contractId ∈ markets
  · simp only [if_pos hm] at heq
    split at heq
    · cases heq
    · obtain ⟨borrowerKey, hkey, heq⟩ := Option.bind_eq_some_iff.mp heq
      cases heq
      exact (h.applyObligationSnapshot (hkeys 2 borrowerKey hkey) _).applyObligationSnapshot
        (by simp [ObligationKey.WellFormed]) _
    · obtain ⟨key, hkey, heq⟩ := Option.bind_eq_some_iff.mp heq
      cases heq
      exact h.rereadObligation (hkeys 1 key hkey)
    · obtain ⟨key, hkey, heq⟩ := Option.bind_eq_some_iff.mp heq
      cases heq
      exact h.applyObligationSnapshot (hkeys 1 key hkey) _
    · obtain ⟨key, hkey, heq⟩ := Option.bind_eq_some_iff.mp heq
      cases heq
      exact h.applyObligationSnapshot (hkeys 2 key hkey) _
  · rw [if_neg hm] at heq
    cases heq

end Cache

/-! ## One step of the keeper -/

section Step

variable {s t : Keeper} {act : KeeperAct}

/-- The sweep's verdict on an obligation is to drop its row. -/
def DropsRow (config : InitiatorConfig) (sweep : Sweep) (obligation : Obligation) (now : ℕ)
    (answer : ChainAnswer) : Prop :=
  isEligibleForBadDebtRequestIssuance config.dustRules config.minProfitMarginCents now obligation
      sweep.marketData = .ok true ∧ answer = .doesNotExist

theorem judgeRow_cases {repo repo' : ObligationsRepo} {sweep : Sweep} {obligation : Obligation}
    {now : ℕ} {answer : ChainAnswer}
    (h : judgeRow config repo sweep key obligation now answer = some repo') :
    DropsRow config sweep obligation now answer ∧ repo' = repo.delete sweep.market key ∨
      ¬ DropsRow config sweep obligation now answer ∧ repo' = repo := by
  unfold judgeRow at h
  split at h
  · cases h
  · rename_i helig
    cases answer <;> simp_all [DropsRow]
  · rename_i helig
    refine .inr ⟨fun hd => helig hd.1, ?_⟩
    simpa using h.symm

/-- The step drops the row of an obligation that the memory holds. -/
def DropsHeld (config : InitiatorConfig) (s : Keeper) : KeeperAct → Prop
  | .judge now answer => ∃ sweep key obligation rows, s.sweep = some sweep ∧
      sweep.rows = (key, obligation) :: rows ∧ DropsRow config sweep obligation now answer ∧
      s.cache.memory sweep.market key ≠ none
  | _ => False

theorem dropsHeld_judge_iff {sweep : Sweep} {obligation : Obligation}
    {rows : List (ObligationKey × Obligation)} {now : ℕ} {answer : ChainAnswer}
    (hsweep : s.sweep = some sweep) (hrows : sweep.rows = (key, obligation) :: rows) :
    DropsHeld config s (.judge now answer) ↔
      DropsRow config sweep obligation now answer ∧ s.cache.memory sweep.market key ≠ none := by
  constructor
  · rintro ⟨sweep', key', obligation', rows', hsweep', hrows', hd⟩
    rw [hsweep, Option.some.injEq] at hsweep'
    subst hsweep'
    rw [hrows] at hrows'
    cases hrows'
    exact hd
  · exact fun hd => ⟨sweep, key, obligation, rows, hsweep, hrows, hd⟩

/-- Every key an act brings in has an absent or non-empty seed. -/
def KeeperAct.WellFormed : KeeperAct → Prop
  | .event e _ => EventKeys e
  | _ => True

/-- The sweep is over configured markets and keys that the table loads. -/
structure Keeper.Sweeping (config : InitiatorConfig) (s : Keeper) : Prop where
  queue : s.queue ⊆ config.markets
  market : ∀ sweep ∈ s.sweep, sweep.market ∈ config.markets
  rows : ∀ sweep ∈ s.sweep, ∀ row ∈ sweep.rows, row.1.WellFormed

theorem ObligationsRepo.wellFormed_of_loadAll {repo : ObligationsRepo} {obligation : Obligation}
    (h : repo.loadAll market key = some obligation) : key.WellFormed := by
  intro hseed
  rw [loadAll, if_pos hseed] at h
  cases h

/-- What a step of the sweep can do; an event is `Cache.handleSorobanEvent`. -/
theorem keeperStep_cases (hs : keeperStep config s act = some t) :
    (∃ event answer, act = .event event answer ∧
      t = { s with cache := (s.cache.handleSorobanEvent config.markets event answer).getD s.cache }) ∨
    (∃ seqNum, act = .newLedger seqNum ∧ (t = { s with queue := config.markets } ∨ t = s)) ∨
    (∃ order data market markets, act = .loadMarket order data ∧ s.queue = market :: markets ∧
      (t = { s with queue := markets } ∨ ∃ sweep, sweep.market = market ∧
        (∀ row ∈ sweep.rows, row.1.WellFormed) ∧
        t = { s with queue := markets, sweep := some sweep })) ∨
    ∃ now answer sweep, act = .judge now answer ∧ s.sweep = some sweep ∧
      (sweep.rows = [] ∧ t = { s with sweep := none } ∨
        ∃ key obligation rows repo, sweep.rows = (key, obligation) :: rows ∧
          judgeRow config s.cache.repo sweep key obligation now answer = some repo ∧
          t = { s with cache := { s.cache with repo }, sweep := some { sweep with rows } }) := by
  cases act with
  | event event answer =>
    simp only [keeperStep, Option.some.injEq] at hs
    exact .inl ⟨event, answer, rfl, hs.symm⟩
  | newLedger seqNum =>
    refine .inr (.inl ⟨seqNum, rfl, ?_⟩)
    simp only [keeperStep] at hs
    split_ifs at hs
    · exact .inl (Option.some.inj hs).symm
    · exact .inr (Option.some.inj hs).symm
  | loadMarket order data =>
    simp only [keeperStep] at hs
    split at hs
    · rename_i market markets hq hn
      refine .inr (.inr (.inl ⟨order, data, market, markets, rfl, hq, ?_⟩))
      cases data with
      | none => exact .inl (Option.some.inj hs).symm
      | some marketData =>
        refine .inr ⟨_, rfl, ?_, (Option.some.inj hs).symm⟩
        intro row hrow
        obtain ⟨key, -, hrow⟩ := List.mem_filterMap.mp hrow
        obtain ⟨obligation, hload, rfl⟩ := Option.map_eq_some_iff.mp hrow
        exact ObligationsRepo.wellFormed_of_loadAll hload
    · cases hs
  | judge now answer =>
    simp only [keeperStep] at hs
    split at hs
    · cases hs
    · rename_i sweep hsweep
      refine .inr (.inr (.inr ⟨now, answer, sweep, rfl, hsweep, ?_⟩))
      split at hs
      · rename_i hrows
        exact .inl ⟨hrows, (Option.some.inj hs).symm⟩
      · rename_i key obligation rows hrows
        obtain ⟨repo, hjudge, hs⟩ := Option.bind_eq_some_iff.mp hs
        exact .inr ⟨key, obligation, rows, repo, hrows, hjudge, (Option.some.inj hs).symm⟩

theorem keeperStep_sweeping (h : s.Sweeping config) (hs : keeperStep config s act = some t) :
    t.Sweeping config := by
  obtain ⟨event, answer, rfl, rfl⟩ | ⟨seqNum, rfl, rfl | rfl⟩ |
    ⟨order, data, market, markets, rfl, hq, rfl | ⟨sweep, rfl, hrows, rfl⟩⟩ |
    ⟨now, answer, sweep, rfl, hsweep, ⟨-, rfl⟩ | ⟨key, obligation, rows, repo, hrows, -, rfl⟩⟩ :=
    keeperStep_cases hs
  · exact ⟨h.queue, h.market, h.rows⟩
  · exact ⟨List.Subset.refl _, h.market, h.rows⟩
  · exact h
  · have hsub := h.queue
    rw [hq, List.cons_subset] at hsub
    exact ⟨hsub.2, h.market, h.rows⟩
  · have hsub := h.queue
    rw [hq, List.cons_subset] at hsub
    exact ⟨hsub.2, by simpa using hsub.1, by simpa using hrows⟩
  · exact ⟨h.queue, by simp, by simp⟩
  · have hkeys := h.rows sweep hsweep
    rw [hrows] at hkeys
    refine ⟨h.queue, ?_, ?_⟩
    · simpa using h.market sweep hsweep
    · simpa using fun row hrow => hkeys row (List.mem_cons_of_mem _ hrow)

/-- A step keeps the two together exactly if it does not drop a row that the memory holds. -/
theorem keeperStep_mirrors_iff (h : s.cache.Mirrors config.markets) (hw : s.Sweeping config)
    (hact : act.WellFormed) (hs : keeperStep config s act = some t) :
    t.cache.Mirrors config.markets ↔ ¬ DropsHeld config s act := by
  obtain ⟨event, answer, rfl, rfl⟩ | ⟨seqNum, rfl, rfl | rfl⟩ |
    ⟨order, data, market, markets, rfl, hq, rfl | ⟨sweep, rfl, hrows, rfl⟩⟩ |
    ⟨now, answer, sweep, rfl, hsweep, ⟨hnil, rfl⟩ | ⟨key, obligation, rows, repo, hrows, hj, rfl⟩⟩ :=
    keeperStep_cases hs
  · refine iff_of_true ?_ not_false
    cases hev : s.cache.handleSorobanEvent config.markets event answer with
    | none => exact h
    | some cache => exact h.handleSorobanEvent hact hev
  iterate 4 exact iff_of_true h not_false
  · refine iff_of_true h ?_
    rintro ⟨sweep', key, obligation, rows, hsweep', hcons, -⟩
    rw [hsweep, Option.some.injEq] at hsweep'
    rw [hsweep', hcons] at hnil
    cases hnil
  · rw [dropsHeld_judge_iff hsweep hrows]
    obtain ⟨hdrop, rfl⟩ | ⟨hkeep, rfl⟩ := judgeRow_cases hj
    · have hmarket := hw.market sweep hsweep
      have hkey : key.WellFormed := hw.rows sweep hsweep (key, obligation) (by simp [hrows])
      have hload : ∀ market' key',
          (s.cache.repo.delete sweep.market key).loadAll market' key' =
            if market' = sweep.market ∧ key' = key then none else s.cache.repo.loadAll market' key' :=
        fun market' key' => ObligationsRepo.loadAll_update s.cache.repo hkey none
      constructor
      · rintro hm ⟨-, hne⟩
        apply hne
        have := hm sweep.market hmarket key
        rw [hload, if_pos ⟨rfl, rfl⟩] at this
        exact this.symm
      · intro hnot market' hmem key'
        have hnone : s.cache.memory sweep.market key = none := by
          by_contra hne
          exact hnot ⟨hdrop, hne⟩
        change (s.cache.repo.delete sweep.market key).loadAll market' key' = _
        rw [hload]
        split_ifs with heq
        · obtain ⟨rfl, rfl⟩ := heq
          exact hnone.symm
        · exact h market' hmem key'
    · exact iff_of_true h fun hd => hkeep hd.1

end Step

/-! ## Runs -/

theorem syncState_mirrors (config : InitiatorConfig) (repo : ObligationsRepo) :
    (syncState config repo).cache.Mirrors config.markets := by
  intro market hm key
  simp [syncState, Cache.syncState, hm]

theorem syncState_sweeping (config : InitiatorConfig) (repo : ObligationsRepo) :
    (syncState config repo).Sweeping config :=
  ⟨by simp [syncState], by simp [syncState], by simp [syncState]⟩

/-- **The table and the memory agree** at the end of every run from `syncState` whose sweeps drop no row
that the memory holds. -/
theorem table_mirrors_memory {repo : ObligationsRepo} {acts : List KeeperAct} {s : Keeper}
    (h : Run (keeperStep config) (fun s act => act.WellFormed ∧ ¬ DropsHeld config s act)
      (syncState config repo) acts s) :
    s.cache.Mirrors config.markets := by
  have hinv : s.cache.Mirrors config.markets ∧ s.Sweeping config := by
    refine h.invariant (I := fun s => s.cache.Mirrors config.markets ∧ s.Sweeping config) ?_
      ⟨syncState_mirrors config repo, syncState_sweeping config repo⟩
    rintro s act t ⟨hm, hw⟩ ⟨hact, hkeeps⟩ hs
    exact ⟨(keeperStep_mirrors_iff hm hw hact hs).mpr hkeeps, keeperStep_sweeping hw hs⟩
  exact hinv.1

/-! ## A closed obligation -/

section Closed

/-- One sweep market, swept every ledger. -/
def bareConfig : InitiatorConfig where
  markets := ["MARKET"]
  refreshIntervalBlocks := 1
  dustRules := .sweep
  minProfitMarginCents := 0

/-- The row is loaded, a repay closes the obligation, and the sweep then finds it gone. -/
def closedActs : List KeeperAct :=
  [.newLedger 0, .loadMarket [bareKey] (some (dustMarket usd)), .event closingRepay .failed,
    .judge 0 .doesNotExist]

/-- The Liquidator handles the repayment before the sweep finds the obligation gone. -/
theorem table_mirrors_memory_after_repay :
    ∃ s, Run (keeperStep bareConfig) (fun s act => act.WellFormed ∧ ¬ DropsHeld bareConfig s act)
      (syncState bareConfig bareTable) closedActs s ∧ s.cache.Mirrors bareConfig.markets := by
  have hkeys : EventKeys closingRepay := by
    intro i key hkey
    cases hkey
    decide
  obtain ⟨s, hrun⟩ : ∃ s, Run (keeperStep bareConfig)
      (fun s act => act.WellFormed ∧ ¬ DropsHeld bareConfig s act) (syncState bareConfig bareTable)
      closedActs s := by
    refine ⟨_, .cons ⟨trivial, not_false⟩ rfl (.cons ⟨trivial, not_false⟩ rfl
      (.cons ⟨hkeys, not_false⟩ rfl (.cons ⟨trivial, ?_⟩ rfl (.nil _))))⟩
    rw [dropsHeld_judge_iff rfl rfl]
    exact fun hd => hd.2 rfl
  exact ⟨s, hrun, table_mirrors_memory hrun⟩

/-- The sweep finds it gone first: the table has dropped it, the memory has not. -/
theorem sweep_drops_a_row_in_memory :
    ∃ s, Run (keeperStep bareConfig) (fun _ act => act.WellFormed) (syncState bareConfig bareTable)
      [.newLedger 0, .loadMarket [bareKey] (some (dustMarket usd)), .judge 0 .doesNotExist] s ∧
      s.cache.repo.loadAll "MARKET" bareKey = none ∧
      s.cache.memory "MARKET" bareKey = some bareDebt := by
  refine ⟨_, .cons trivial rfl (.cons trivial rfl (.cons trivial rfl (.nil _))), ?_, ?_⟩
  · rfl
  · rfl

end Closed

end AlulaKeeper
