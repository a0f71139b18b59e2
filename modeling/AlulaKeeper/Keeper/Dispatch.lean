import Mathlib
import AlulaKeeper.Lib.Steps
import AlulaKeeper.Keeper.Scan
import AlulaKeeper.Keeper.TaskLedger

/-!
# What a scan hands out

At every await of a scan, and between any two of its steps, the other tasks may reserve and release.

* `Scan.Inv`: where the scan stands and what it has handed out; `scanNext_inv`, step by step.
* `scanNext_ledger`: what the scan holds, step by step.
* `actions_are_simulated_plans`: every action is the simulated batch of a plan for an obligation that was judged
  liquidatable, one at most for each.
* `scan_leaks_nothing`: every reservation of the scan is some action's, and every action's is held.
-/

namespace AlulaKeeper

open I128 Steps

/-! ## The invariant -/

/-- The obligations of a market, in the order of the scan. -/
def Liquidator.rowKeys (lq : Liquidator) (market : Address) : List (Address × ObligationKey) :=
  (lq.obligations market).map fun row => (market, row.1)

/-- The rows still to come. -/
def Visit.ahead (lq : Liquidator) (visit : Visit) : List (Address × ObligationKey) :=
  visit.rows.map (fun row => (visit.market, row.1)) ++ visit.queue.flatMap lq.rowKeys

/-- The market's snapshot was fresh when its evaluation started, and what is left of it is listed. -/
structure Visit.Ok (lq : Liquidator) (evaluated : List (Address × ℕ)) (visit : Visit) : Prop where
  started : (visit.market, visit.started) ∈ evaluated
  snapshot : ∃ snapshot, lq.marketData visit.market = some snapshot ∧ snapshot.data = visit.data ∧
    snapshot.age visit.started ≤ lq.maxMarketDataAge
  rows : ∀ row ∈ visit.rows, row ∈ lq.obligations visit.market

/-- The row is among those to come, and was found liquidatable. -/
structure Job.Ok (lq : Liquidator) (evaluated : List (Address × ℕ)) (job : Job) : Prop where
  visit : job.toVisit.Ok lq evaluated
  liquidatable : job.Liquidatable lq evaluated

/-- The pairs of the obligation are those tried and those left; the best plan is the best of those tried. -/
structure Tried (lq : Liquidator) (job : Job)
    (tried : List ((BorrowPosition × DepositPosition) × Option LiquidationPlan))
    (pairs : List (BorrowPosition × DepositPosition)) (best : Option LiquidationPlan) : Prop where
  pairs_eq : tried.map Prod.fst ++ pairs = job.obligation.pairs
  best_eq : (tried.filterMap Prod.snd).foldl pickProfitable none = best
  planned : ∀ plan ∈ tried.filterMap Prod.snd, Planned lq job .initial plan

/-- A plan past its simulation. -/
structure Ready (lq : Liquidator) (evaluated : List (Address × ℕ)) (simulated : List Simulation) (job : Job)
    (plan : LiquidationPlan) (requests : List Val) : Prop where
  job_ok : job.Ok lq evaluated
  planned : ∃ margin, Planned lq job margin plan ∧ MarginOk lq simulated job margin plan
  batch : buildBatchRequests lq.codec plan = some requests
  accepted : ∃ op, buildBatchOp lq.codec job.market lq.key requests = .ok op ∧
    ∃ sim val, { sim, market := job.market, requests } ∈ simulated ∧ sim.invoke op = .ok val

namespace ScanPoint

/-- The obligations ahead, the one at hand first. -/
def ahead (lq : Liquidator) : ScanPoint → List (Address × ObligationKey)
  | .markets queue => queue.flatMap lq.rowKeys
  | .judging visit => visit.ahead lq
  | .planning job _ _ | .simulating job _ _ _ | .replanning job _ | .funding job _ _ | .fetching job _ _
  | .reserving job _ _ _ | .minting job _ _ | .building job _ _ _ => (job.market, job.key) :: job.toVisit.ahead lq

/-- The id that is drawn and not handed out yet. -/
def holder : ScanPoint → List ((Address × ℤ) × ℕ)
  | .building _ plan _ opId => [(plan.reservation, opId)]
  | _ => []

/-- What the scan knows at a point. -/
def Ok (lq : Liquidator) (evaluated : List (Address × ℕ)) (simulated : List Simulation)
    (tried : List ((BorrowPosition × DepositPosition) × Option LiquidationPlan)) : ScanPoint → Prop
  | .markets _ => True
  | .judging visit => visit.Ok lq evaluated
  | .planning job pairs best => job.Ok lq evaluated ∧ Tried lq job tried pairs best
  | .simulating job margin plan requests => job.Ok lq evaluated ∧ Planned lq job margin plan ∧
      MarginOk lq simulated job margin plan ∧ buildBatchRequests lq.codec plan = some requests ∧
      (margin = .initial → Tried lq job tried [] (some plan))
  | .replanning job refused => job.Ok lq evaluated ∧ RefusedAsDust lq simulated job refused
  | .minting job plan requests => Ready lq evaluated simulated job plan requests ∧ ¬ 0 < plan.reservation.2
  | .funding job plan requests | .fetching job plan requests | .reserving job plan requests _
  | .building job plan requests _ => Ready lq evaluated simulated job plan requests

end ScanPoint

/-- What is held: for the actions, and for one about to be handed out. -/
def Scan.holders (s : Scan) : List ((Address × ℤ) × ℕ) :=
  s.actions.map (fun a => (a.1.reservation, a.2.opId)) ++ s.point.holder

/-- What holds throughout a scan: order, origin of the actions, and times. -/
structure Scan.Inv (lq : Liquidator) (started : ℕ) (s : Scan) : Prop where
  order : (s.actions.map (fun a => (a.2.market, a.1.borrowerKey)) ++ s.point.ahead lq).Sublist
    (lq.markets.flatMap lq.rowKeys)
  point : s.point.Ok lq s.evaluated s.simulated s.tried
  clock : started ≤ s.book.now
  evaluated : ∀ e ∈ s.evaluated, started ≤ e.2 ∧ e.2 ≤ s.book.now
  actions : ∀ a ∈ s.actions, Justified lq s.evaluated s.simulated a.1 a.2

section Steps

variable {lq : Liquidator} {started : ℕ} {s t : Scan}

theorem RefusedAsDust.mono {simulated simulated' : List Simulation} {job : Job} {refused : LiquidationPlan}
    (hsub : simulated ⊆ simulated') (h : RefusedAsDust lq simulated job refused) :
    RefusedAsDust lq simulated' job refused := by
  obtain ⟨requests, sim, hrequests, hasked, hanswer⟩ := h.answer
  exact ⟨h.rules, h.planned, requests, sim, hrequests, hsub hasked, hanswer⟩

theorem MarginOk.mono {simulated simulated' : List Simulation} {job : Job} {margin : ClearingMargin}
    {plan : LiquidationPlan} (hsub : simulated ⊆ simulated') (h : MarginOk lq simulated job margin plan) :
    MarginOk lq simulated' job margin plan := by
  obtain hinitial | ⟨hretry, refused, hrefused, hpools⟩ := h
  · exact .inl hinitial
  · exact .inr ⟨hretry, refused, hrefused.mono hsub, hpools⟩

theorem Justified.mono {evaluated evaluated' : List (Address × ℕ)} {simulated simulated' : List Simulation}
    {plan : LiquidationPlan} {action : LiquidationAction} (hevaluated : evaluated ⊆ evaluated')
    (hsimulated : simulated ⊆ simulated') (h : Justified lq evaluated simulated plan action) :
    Justified lq evaluated' simulated' plan action := by
  obtain ⟨job, margin, hjob, hmarket, hplanned, hmargin, hop, hvalue⟩ := h
  obtain ⟨requests, sim, val, hrequests, hbuilt, hasked, hanswer⟩ := hop
  exact ⟨job, margin, { hjob with started := hevaluated hjob.started }, hmarket, hplanned,
    hmargin.mono hsimulated, ⟨requests, sim, val, hrequests, hbuilt, hsimulated hasked, hanswer⟩, hvalue⟩

theorem Scan.Inv.goto (h : s.Inv lq started) {book : Book} {point : ScanPoint}
    {tried : List ((BorrowPosition × DepositPosition) × Option LiquidationPlan)} {own : List ℕ}
    (hclock : s.book.now ≤ book.now) (hahead : (point.ahead lq).Sublist (s.point.ahead lq))
    (hok : point.Ok lq s.evaluated s.simulated tried) :
    { s with book, point, tried, own }.Inv lq started where
  order := ((List.Sublist.refl _).append hahead).trans h.order
  point := hok
  clock := h.clock.trans hclock
  evaluated e he := ⟨(h.evaluated e he).1, (h.evaluated e he).2.trans hclock⟩
  actions := h.actions

theorem Scan.Inv.asked (h : s.Inv lq started) {point : ScanPoint} (simulation : Simulation)
    (hahead : (point.ahead lq).Sublist (s.point.ahead lq))
    (hok : point.Ok lq s.evaluated (simulation :: s.simulated) s.tried) :
    { s with point, simulated := simulation :: s.simulated }.Inv lq started where
  order := ((List.Sublist.refl _).append hahead).trans h.order
  point := hok
  clock := h.clock
  evaluated := h.evaluated
  actions a ha := (h.actions a ha).mono (List.Subset.refl _) (List.subset_cons_self _ _)

theorem Scan.Inv.drop (h : s.Inv lq started) {job : Job} {book : Book} (hclock : s.book.now ≤ book.now)
    (hahead : s.point.ahead lq = (job.market, job.key) :: job.toVisit.ahead lq) (hjob : job.Ok lq s.evaluated) :
    { s with book, point := .judging job.toVisit }.Inv lq started := by
  refine h.goto hclock ?_ hjob.visit
  rw [hahead]
  exact List.sublist_cons_self _ _

theorem Scan.Inv.step_evaluate (h : s.Inv lq started) (hs : scanNext lq s .evaluate = some t) :
    t.Inv lq started := by
  simp only [scanNext] at hs
  split at hs
  · rename_i market queue hpoint
    have hskip : (queue.flatMap lq.rowKeys).Sublist (s.point.ahead lq) := by
      rw [hpoint]
      exact List.sublist_append_right _ _
    split at hs
    · cases hs
      exact h.goto le_rfl hskip trivial
    · rename_i snapshot hsnapshot
      split_ifs at hs with hold <;> cases hs
      · exact h.goto le_rfl hskip trivial
      · have horder := h.order
        rw [hpoint] at horder
        exact ⟨horder, ⟨List.mem_cons_self, ⟨snapshot, hsnapshot, rfl, not_lt.mp hold⟩, fun _ hrow => hrow⟩,
          h.clock, List.forall_mem_cons.mpr ⟨⟨h.clock, le_rfl⟩, h.evaluated⟩,
          fun a ha => (h.actions a ha).mono (List.subset_cons_self _ _) (List.Subset.refl _)⟩
  · rename_i visit hpoint
    split at hs
    · cases hs
      refine h.goto le_rfl ?_ trivial
      rw [hpoint]
      exact List.sublist_append_right _ _
    · cases hs
  · cases hs

theorem verdict_eq_some {data : MarketData} {obligation : Obligation} {isInsolvent : Bool}
    (h : lq.verdict data obligation = .ok (some isInsolvent)) :
    computeIsLiquidatable obligation data lq.config.dustRules = .ok true ∧
      computeIsInsolvent obligation data = .ok isInsolvent := by
  obtain ⟨answer, hanswer, h⟩ := bind_eq_ok.mp h
  split at h
  · exact ⟨toOption_eq_some.mp hanswer, toOption_eq_some.mp h⟩
  · cases h

theorem Scan.Inv.step_judge (h : s.Inv lq started) (hs : scanNext lq s .judge = some t) : t.Inv lq started := by
  have hok := h.point
  simp only [scanNext] at hs
  split at hs
  swap
  · cases hs
  rename_i visit hpoint
  rw [hpoint] at hok
  split at hs
  · cases hs
  rename_i row rows hrows
  have hahead : s.point.ahead lq = (visit.market, row.1) :: ({ visit with rows } : Visit).ahead lq := by
    rw [hpoint]
    simp [ScanPoint.ahead, Visit.ahead, hrows]
  have hvisit : ({ visit with rows } : Visit).Ok lq s.evaluated := by
    refine ⟨hok.started, hok.snapshot, fun row' hrow' => hok.rows row' ?_⟩
    rw [hrows]
    exact List.mem_cons_of_mem row hrow'
  have hpass : { s with point := .judging { visit with rows } }.Inv lq started := by
    refine h.goto le_rfl ?_ hvisit
    rw [hahead]
    exact List.sublist_cons_self _ _
  split_ifs at hs with hjudged
  · split at hs
    · rename_i isInsolvent hverdict
      cases hs
      obtain ⟨hliquidatable, hinsolvent⟩ := verdict_eq_some hverdict
      refine h.goto le_rfl ?_ ⟨⟨hvisit, ?_⟩, rfl, rfl, by simp⟩
      · rw [hahead]
        exact List.Sublist.refl _
      · refine ⟨hok.started, hok.snapshot, hok.rows row ?_, hjudged, hliquidatable, hinsolvent⟩
        rw [hrows]
        exact List.mem_cons_self
    · cases hs
      exact hpass
    · cases hs
  · cases hs
    exact hpass

theorem Tried.snoc {job : Job} {tried : List ((BorrowPosition × DepositPosition) × Option LiquidationPlan)}
    {pair : BorrowPosition × DepositPosition} {pairs : List (BorrowPosition × DepositPosition)}
    {best : Option LiquidationPlan} (h : Tried lq job tried (pair :: pairs) best)
    (answer : Option LiquidationPlan) (hanswer : ∀ plan, answer = some plan → Planned lq job .initial plan) :
    Tried lq job (tried ++ [(pair, answer)]) pairs (answer.elim best (pickProfitable best)) where
  pairs_eq := by simp [← h.pairs_eq]
  best_eq := by
    cases answer with
    | none => simp [h.best_eq]
    | some plan => simp [h.best_eq]
  planned plan hplan := by
    rw [List.filterMap_append] at hplan
    obtain hplan | hplan := List.mem_append.mp hplan
    · exact h.planned plan hplan
    · refine hanswer plan ?_
      simpa using hplan

theorem Scan.Inv.step_plan {reader : LedgerReader} {now : ℕ} (h : s.Inv lq started)
    (hs : scanNext lq s (.plan reader now) = some t) : t.Inv lq started := by
  have hok := h.point
  simp only [scanNext] at hs
  split at hs
  swap
  · cases hs
  rename_i job pair pairs best hpoint
  rw [hpoint] at hok
  obtain ⟨hjob, htried⟩ := hok
  have hpair : pair ∈ job.obligation.pairs := by
    rw [← htried.pairs_eq]
    exact List.mem_append_right _ List.mem_cons_self
  have hahead : s.point.ahead lq = (job.market, job.key) :: job.toVisit.ahead lq := by
    rw [hpoint]
    rfl
  split at hs
  · rename_i plan hplan
    cases hs
    refine h.goto le_rfl (hahead ▸ List.Sublist.refl _) ⟨hjob, ?_⟩
    refine htried.snoc (some plan) fun plan' hplan' => ?_
    cases hplan'
    exact planPair_planned hpair hplan
  · cases hs
    exact h.goto le_rfl (hahead ▸ List.Sublist.refl _) ⟨hjob, htried.snoc none nofun⟩
  · cases hs

theorem Scan.Inv.execute {job : Job} {margin : ClearingMargin} {plan : LiquidationPlan} (h : s.Inv lq started)
    (hahead : s.point.ahead lq = (job.market, job.key) :: job.toVisit.ahead lq) (hjob : job.Ok lq s.evaluated)
    (hplanned : Planned lq job margin plan) (hmargin : MarginOk lq s.simulated job margin plan)
    (hbest : margin = .initial → Tried lq job s.tried [] (some plan)) :
    { s with point := lq.execute job margin plan }.Inv lq started := by
  unfold Liquidator.execute
  split
  · exact h.drop le_rfl hahead hjob
  · rename_i requests hrequests
    exact h.goto le_rfl (hahead ▸ List.Sublist.refl _) ⟨hjob, hplanned, hmargin, hrequests, hbest⟩

theorem Scan.Inv.step_select (h : s.Inv lq started) (hs : scanNext lq s .select = some t) :
    t.Inv lq started := by
  have hok := h.point
  simp only [scanNext] at hs
  split at hs
  · rename_i job plan hpoint
    rw [hpoint] at hok
    obtain ⟨hjob, htried⟩ := hok
    cases hs
    refine h.execute (by rw [hpoint]; rfl) hjob ?_ (.inl rfl) fun _ => htried
    obtain ⟨hmem | hnone, -⟩ := foldl_pickProfitable htried.best_eq
    · exact htried.planned plan hmem
    · cases hnone
  · rename_i job hpoint
    rw [hpoint] at hok
    cases hs
    exact h.drop le_rfl (by rw [hpoint]; rfl) hok.1
  · cases hs

theorem Scan.Inv.step_simulate {sim : Simulator} (h : s.Inv lq started)
    (hs : scanNext lq s (.simulate sim) = some t) : t.Inv lq started := by
  have hok := h.point
  simp only [scanNext] at hs
  split at hs
  swap
  · cases hs
  rename_i job margin plan requests hpoint
  have hahead : s.point.ahead lq = (job.market, job.key) :: job.toVisit.ahead lq := by
    rw [hpoint]
    rfl
  rw [hpoint] at hok
  obtain ⟨hjob, hplanned, hmargin, hrequests, -⟩ := hok
  have hasked := List.subset_cons_self { sim, market := job.market, requests } s.simulated
  split at hs
  · rename_i hsimulated
    cases hs
    obtain ⟨op, val, hop, hval⟩ := simulateBatch_ok hsimulated
    have hready : Ready lq s.evaluated ({ sim, market := job.market, requests } :: s.simulated) job plan requests :=
      ⟨hjob, ⟨margin, hplanned, hmargin.mono hasked⟩, hrequests, op, hop, sim, val, List.mem_cons_self, hval⟩
    refine h.asked _ ?_ ?_
    · split_ifs <;> exact hahead ▸ List.Sublist.refl _
    · split_ifs with hreserves
      · exact hready
      · exact ⟨hready, hreserves⟩
  · rename_i contractCode hrefused
    cases hs
    refine h.asked _ ?_ ?_
    · rw [hahead]
      split_ifs
      · exact List.Sublist.refl _
      · exact List.sublist_cons_self _ _
    · split_ifs with hretry
      · obtain ⟨rfl, rfl, hrules⟩ := hretry
        exact ⟨hjob, hrules, hplanned, requests, sim, hrequests, List.mem_cons_self, hrefused⟩
      · exact hjob.visit
  · cases hs
    exact h.drop le_rfl hahead hjob

theorem Scan.Inv.step_replan {reader : LedgerReader} {now : ℕ} (h : s.Inv lq started)
    (hs : scanNext lq s (.replan reader now) = some t) : t.Inv lq started := by
  have hok := h.point
  simp only [scanNext] at hs
  split at hs
  swap
  · cases hs
  rename_i job refused hpoint
  rw [hpoint] at hok
  obtain ⟨hjob, hrefused⟩ := hok
  split at hs
  · rename_i plan hplan
    cases hs
    obtain ⟨hplanned, hborrow, hcollateral⟩ := replanPair_planned hrefused.planned.names.2 hplan
    exact h.execute (by rw [hpoint]; rfl) hjob hplanned
      (.inr ⟨rfl, refused, hrefused, hborrow.symm, hcollateral.symm⟩) fun hinitial => absurd hinitial (by decide)
  · cases hs
    exact h.drop le_rfl (by rw [hpoint]; rfl) hjob
  · cases hs

theorem Scan.Inv.step_lookUp (h : s.Inv lq started) (hs : scanNext lq s .lookUp = some t) :
    t.Inv lq started := by
  have hok := h.point
  simp only [scanNext] at hs
  split at hs
  swap
  · cases hs
  rename_i job plan requests hpoint
  rw [hpoint] at hok
  have hahead : s.point.ahead lq = (job.market, job.key) :: job.toVisit.ahead lq := by
    rw [hpoint]
    rfl
  split at hs <;> cases hs <;> exact h.goto le_rfl (hahead ▸ List.Sublist.refl _) hok

theorem Scan.Inv.step_readBalance {answer : Option ℤ} (h : s.Inv lq started)
    (hs : scanNext lq s (.readBalance answer) = some t) : t.Inv lq started := by
  have hok := h.point
  simp only [scanNext] at hs
  split at hs
  swap
  · cases hs
  rename_i job plan requests hpoint
  rw [hpoint] at hok
  have hahead : s.point.ahead lq = (job.market, job.key) :: job.toVisit.ahead lq := by
    rw [hpoint]
    rfl
  split at hs <;> cases hs
  · exact h.drop le_rfl hahead hok.job_ok
  · exact h.goto le_rfl (hahead ▸ List.Sublist.refl _) hok

theorem Scan.Inv.step_drawId {id : ℕ} (h : s.Inv lq started) (hs : scanNext lq s (.drawId id) = some t) :
    t.Inv lq started := by
  have hok := h.point
  simp only [scanNext] at hs
  split at hs
  · rename_i job plan requests rawBalance hpoint
    rw [hpoint] at hok
    split at hs <;> cases hs
    · exact h.goto le_rfl (hpoint ▸ List.Sublist.refl _) hok
    · exact h.drop le_rfl (by rw [hpoint]; rfl) hok.job_ok
  · rename_i job plan requests hpoint
    rw [hpoint] at hok
    cases hs
    exact h.goto le_rfl (hpoint ▸ List.Sublist.refl _) hok.1
  · cases hs

theorem Scan.Inv.built {job : Job} {plan : LiquidationPlan} {requests : List Val} {opId : ℕ}
    (h : s.Inv lq started) (hpoint : s.point = .building job plan requests opId) :
    ∃ op, buildBatchOp lq.codec job.market lq.key requests = .ok op := by
  have hok := h.point
  rw [hpoint] at hok
  obtain ⟨op, hop, -⟩ := hok.accepted
  exact ⟨op, hop⟩

theorem Scan.Inv.step_build (h : s.Inv lq started) (hs : scanNext lq s .build = some t) :
    t.Inv lq started := by
  have hok := h.point
  simp only [scanNext] at hs
  split at hs
  swap
  · cases hs
  rename_i job plan requests opId hpoint
  rw [hpoint] at hok
  have hready : Ready lq s.evaluated s.simulated job plan requests := hok
  obtain ⟨op, hop, sim, val, hasked, hanswer⟩ := hready.accepted
  obtain ⟨margin, hplanned, hmargin⟩ := hready.planned
  -- the market answered to this very call, so it is built again
  rw [hop] at hs
  cases hs
  refine ⟨?_, hready.job_ok.visit, h.clock, h.evaluated, List.forall_mem_append.mpr ⟨h.actions, ?_⟩⟩
  · have horder := h.order
    have hahead : s.point.ahead lq = (job.market, plan.borrowerKey) :: job.toVisit.ahead lq := by
      rw [hpoint, hplanned.names.1]
      rfl
    rw [hahead] at horder
    rw [List.map_append, List.append_assoc]
    exact horder
  · rintro a ha
    obtain rfl := List.mem_singleton.mp ha
    exact ⟨job, margin, hready.job_ok.liquidatable, rfl, hplanned, hmargin,
      ⟨requests, sim, val, hready.batch, hop, hasked, hanswer⟩, rfl⟩

theorem bookStep_clock {config : CapitalConfig} {book book' : Book} {act : BookAct}
    (h : bookStep config book act = some book') : book.now ≤ book'.now := by
  cases act with
  | tick seconds =>
    cases h
    exact Nat.le_add_right _ _
  | release id =>
    cases h
    exact le_rfl
  | reserve id amount available token =>
    simp only [bookStep] at h
    split at h <;> cases h <;> exact le_rfl

theorem scanNext_inv {call : ScanCall} (h : s.Inv lq started) (hs : scanNext lq s call = some t) :
    t.Inv lq started := by
  cases call with
  | evaluate => exact h.step_evaluate hs
  | judge => exact h.step_judge hs
  | plan reader now => exact h.step_plan hs
  | select => exact h.step_select hs
  | simulate sim => exact h.step_simulate hs
  | replan reader now => exact h.step_replan hs
  | lookUp => exact h.step_lookUp hs
  | readBalance answer => exact h.step_readBalance hs
  | drawId id => exact h.step_drawId hs
  | build => exact h.step_build hs
  | others act =>
    obtain ⟨book, hbook, rfl⟩ := Option.map_eq_some_iff.mp hs
    exact h.goto (bookStep_clock hbook) (List.Sublist.refl _) h.point

theorem Scan.Inv.start (lq : Liquidator) (book : Book) : (Scan.start lq book).Inv lq book.now :=
  ⟨List.Sublist.refl _, trivial, le_rfl, by simp [Scan.start], by simp [Scan.start]⟩

theorem Scan.Inv.of_run {guard : Scan → ScanCall → Prop} {book : Book} {calls : List ScanCall}
    (h : Run (scanNext lq) guard (Scan.start lq book) calls s) : s.Inv lq book.now :=
  h.invariant (fun _ _ _ hinv _ hs => scanNext_inv hinv hs) (.start lq book)

/-! ## What a scan holds -/

/-- Where no id is on its way, what is held is held for actions. -/
theorem Scan.holders_eq (s : Scan) (hholder : s.point.holder = []) :
    s.holders = s.actions.map fun a => (a.1.reservation, a.2.opId) := by
  rw [Scan.holders, hholder, List.append_nil]

@[simp] theorem execute_holder (job : Job) (margin : ClearingMargin) (plan : LiquidationPlan) :
    (lq.execute job margin plan).holder = [] := by
  unfold Liquidator.execute
  split <;> rfl

theorem scanNext_still {call : ScanCall} (hdraw : ∀ id, call ≠ .drawId id) (hbuild : call ≠ .build)
    (hothers : ∀ act, call ≠ .others act) (hs : scanNext lq s call = some t) :
    (∃ balances, t.book = { s.book with inner := { s.book.inner with balances } }) ∧ t.own = s.own ∧
      t.holders = s.holders := by
  cases call with
  | drawId id => exact absurd rfl (hdraw id)
  | build => exact absurd rfl hbuild
  | others act => exact absurd rfl (hothers act)
  | simulate sim =>
    simp only [scanNext] at hs
    split at hs
    swap
    · cases hs
    rename_i hpoint
    split at hs <;> cases hs <;> refine ⟨⟨_, rfl⟩, rfl, ?_⟩ <;> simp only [Scan.holders, hpoint]
    · split_ifs <;> rfl
    · split_ifs <;> rfl
    · rfl
  | evaluate | judge | plan | select | lookUp | readBalance | replan =>
    simp only [scanNext] at hs
    repeat' split at hs
    all_goals cases hs
    all_goals refine ⟨⟨_, rfl⟩, rfl, ?_⟩
    all_goals simp only [Scan.holders, execute_holder, *]
    all_goals rfl

/-- The scan's reservations, beside what it has handed out. -/
def Scan.Held (lq : Liquidator) (started : ℕ) (s : Scan) : Prop :=
  Ledger lq.capital.reservationTtl started s.book s.own s.holders

theorem Scan.Held.draw {job : Job} {plan : LiquidationPlan} {requests : List Val} {book : Book} {id : ℕ}
    (hholder : s.point.holder = [])
    (hledger : Ledger lq.capital.reservationTtl started book (id :: s.own)
      (s.holders ++ [(plan.reservation, id)])) :
    { s with book, own := id :: s.own, point := .building job plan requests id }.Held lq started := by
  rw [s.holders_eq hholder] at hledger
  exact hledger

theorem Scan.Held.step_drawId {id : ℕ} (h : s.Held lq started) (hinv : s.Inv lq started)
    (hfresh : id ∉ s.book.issued) (hs : scanNext lq s (.drawId id) = some t) : t.Held lq started := by
  have hok := hinv.point
  have hledger : Ledger lq.capital.reservationTtl started s.book s.own s.holders := h
  simp only [scanNext] at hs
  split at hs
  · rename_i job plan requests rawBalance hpoint
    split at hs
    · rename_i opId inner hreserved
      cases hs
      obtain ⟨rfl, hledger⟩ := hledger.granted hfresh hreserved
      exact Scan.Held.draw (by rw [hpoint]; rfl) hledger
    · rename_i inner hrefused
      cases hs
      have hspared := hledger.spared (spares_refused _ hrefused)
      rw [Scan.holders, hpoint] at hspared
      exact hspared
    · cases hs
  · rename_i job plan requests hpoint
    rw [hpoint] at hok
    cases hs
    exact Scan.Held.draw (by rw [hpoint]; rfl) (hledger.mint hfresh hok.2)
  · cases hs

theorem Scan.Held.step_build (h : s.Held lq started) (hinv : s.Inv lq started)
    (hs : scanNext lq s .build = some t) : t.Held lq started := by
  have hledger : Ledger lq.capital.reservationTtl started s.book s.own s.holders := h
  simp only [scanNext] at hs
  split at hs
  swap
  · cases hs
  rename_i job plan requests opId hpoint
  obtain ⟨op, hop⟩ := hinv.built hpoint
  rw [hop] at hs
  cases hs
  rw [Scan.holders, hpoint] at hledger
  rw [Scan.Held, Scan.holders_eq _ rfl, List.map_append]
  exact hledger

theorem Scan.Held.step_others {act : BookAct} (h : s.Held lq started) (hfair : (ScanCall.others act).Fair s)
    (hs : scanNext lq s (.others act) = some t) : t.Held lq started := by
  have hledger : Ledger lq.capital.reservationTtl started s.book s.own s.holders := h
  obtain ⟨book, hbook, rfl⟩ := Option.map_eq_some_iff.mp hs
  refine hledger.spared (spares_bookStep hledger.issued ?_ ?_ hbook)
  · rintro id amount available token rfl
    exact hfair
  · rintro id rfl
    exact hfair

theorem scanNext_held {call : ScanCall} (h : s.Held lq started) (hinv : s.Inv lq started) (hfair : call.Fair s)
    (hs : scanNext lq s call = some t) : t.Held lq started := by
  by_cases hdraw : ∃ id, call = .drawId id
  · obtain ⟨id, rfl⟩ := hdraw
    exact h.step_drawId hinv hfair hs
  by_cases hbuild : call = .build
  · subst hbuild
    exact h.step_build hinv hs
  by_cases hothers : ∃ act, call = .others act
  · obtain ⟨act, rfl⟩ := hothers
    exact h.step_others hfair hs
  push Not at hdraw hothers
  obtain ⟨⟨balances, hbook⟩, hown, hholders⟩ := scanNext_still hdraw hbuild hothers hs
  have hledger : Ledger lq.capital.reservationTtl started s.book s.own s.holders := h
  rw [Scan.Held, hbook, hown, hholders]
  exact hledger.spared (spares_balances _ _ _ balances)

theorem Scan.Held.of_run {book : Book} {calls : List ScanCall}
    (hstored : ∀ r ∈ book.inner.reservations, r.id ∈ book.issued)
    (h : Run (scanNext lq) (fun s call => call.Fair s) (Scan.start lq book) calls s) :
    s.Held lq book.now := by
  refine (h.invariant (I := fun s => s.Inv lq book.now ∧ s.Held lq book.now)
    (fun _ _ _ hboth hfair hs => ⟨scanNext_inv hboth.1 hs, scanNext_held hboth.2 hboth.1 hfair hs⟩)
    ⟨.start lq book, ?_⟩).2
  exact ⟨hstored, by simp [Scan.start], le_rfl, by simp [Scan.start, Scan.holders, ScanPoint.holder],
    by simp [Scan.start, Scan.holders, ScanPoint.holder], by simp [Scan.start, Scan.holders, ScanPoint.holder],
    by simp [Scan.start]⟩

end Steps

/-! ## What a scan hands out -/

/-- The planning tests' market. -/
def scoutData : MarketData :=
  { dustMarket usd with
    poolsData :=
      [{ planBorrowPool with poolAddress := usdcText, tokenAddress := usdcText }, dustPool goldText usd] }

/-- $100 owed against $105 of gold. -/
def scoutObligation : Obligation where
  borrows := [{ dTokens := 1000000000, poolAddress := usdcText }]
  deposits := [{ jTokens := 0, collateral := 1050000000, poolAddress := goldText }]
  openBadDebtRequests := 0

/-- The borrower's key. -/
def scoutKey : ObligationKey := keyOf TextCodec.stellar none (.account zeroKey)

/-- One market, one obligation, and no swap provider. -/
def scoutLiquidator : Liquidator where
  pkey := addressText (.account oneKey)
  markets := [usdcText]
  maxMarketDataAge := 60
  config := { planConfig with assetsToHold := [], swapProviders := [] }
  capital := { minuteCapital with reservationTtl := 300, balanceCacheTtl := 5 }
  codec := TextCodec.stellar
  marketData _ := some { data := scoutData, refreshedAt := 0 }
  obligations _ := [(scoutKey, scoutObligation)]

/-- The obligation, found liquidatable at the start. -/
def scoutJob : Job where
  queue := []
  market := usdcText
  started := 0
  data := scoutData
  rows := []
  key := scoutKey
  obligation := scoutObligation
  isInsolvent := false

/-- Half the debt, out of the wallet. -/
def scoutPlan : LiquidationPlan where
  repayAmount := 500000000
  netProfitValue := 244750000000000
  borrowerKey := scoutKey
  borrowPoolAddress := usdcText
  collateralPoolAddress := goldText
  expectedSeizedCollateral := 524475000
  liquidationType := .direct

/-- A node that simulates everything. -/
def scoutSimulator : Simulator where
  invoke _ := .ok .void
  strkeyError _ := []

/-- Its only pair of positions. -/
def scoutPair : BorrowPosition × DepositPosition :=
  ({ dTokens := 1000000000, poolAddress := usdcText },
    { jTokens := 0, collateral := 1050000000, poolAddress := goldText })

/-- The scan before it asks for a balance. -/
def scoutScan (point : ScanPoint) : Scan :=
  { Scan.start scoutLiquidator (Book.start 0) with
    point
    evaluated := [(usdcText, 0)] }

/-- The scan once its plan is simulated. -/
def scoutFunding (val : Val) : Scan :=
  { scoutScan (.funding scoutJob scoutPlan [val]) with
    simulated := [{ sim := scoutSimulator, market := usdcText, requests := [val] }]
    tried := [(scoutPair, some scoutPlan)] }

/-- No balance is cached. -/
def scoutFetching (val : Val) : Scan := { scoutFunding val with point := .fetching scoutJob scoutPlan [val] }

/-- The balance is read. -/
def scoutReserving (val : Val) : Scan :=
  { scoutFunding val with
    book := { Book.start 0 with inner := (Book.start 0).inner.cacheBalance 0 usdcText 1000000000000 }
    point := .reserving scoutJob scoutPlan [val] 1000000000000 }

/-- The plan's reservation is made. -/
def scoutBuilding (val : Val) : Scan :=
  { scoutReserving val with
    book := {
      now := 0
      issued := [7]
      inner := { (scoutReserving val).book.inner with
        reservations := [{ id := 7, amount := 500000000, createdAt := 0, tokenAddress := usdcText }] } }
    own := [7]
    point := .building scoutJob scoutPlan [val] 7 }

/-- The scan at its end. -/
def scoutEnd (val : Val) (op : InvokeContractArgs) : Scan :=
  { scoutBuilding val with
    point := .judging scoutJob.toVisit
    actions := [(scoutPlan, { op, opId := 7, market := usdcText, expectedNetValue := 244750000000000 })] }

/-- Half the debt is liquidated out of the wallet, and reserved under the id 7. -/
theorem scout_run : ∃ calls val op, Run (scanNext scoutLiquidator) (fun s call => call.Fair s)
    (Scan.start scoutLiquidator (Book.start 0)) calls (scoutEnd val op) := by
  have hrequest : scoutPlan.liquidation.Encodable TextCodec.stellar :=
    ⟨⟨none, .account zeroKey, trivial, rfl⟩, ⟨.contract zeroKey, trivial, usdcText_eq⟩,
      ⟨.contract oneKey, trivial, goldText_eq⟩, by decide, by decide⟩
  obtain ⟨val, hval, -⟩ := request_round_trip _ hrequest
  have hrequests : buildBatchRequests TextCodec.stellar scoutPlan = some [val] := by
    have hasks : scoutPlan.requests = [scoutPlan.liquidation] := rfl
    rw [buildBatchRequests_eq, hasks, toOption_mapM_cons, hval]
    rfl
  have hkey : obligationKeyVal TextCodec.stellar scoutLiquidator.key = .ok (keyVal none (.account oneKey)) := by
    have hown : scoutLiquidator.key = keyOf TextCodec.stellar none (.account oneKey) := rfl
    rw [hown]
    exact obligationKeyVal_keyOf trivial
  have hmarket : TextCodec.stellar.contractFromString usdcText = some zeroKey := by
    rw [← usdcText_eq]
    exact TextCodec.stellar.contract_inv zeroKey
  have hsimulated : simulateBatch TextCodec.stellar scoutSimulator usdcText scoutLiquidator.key [val] = .ok .ok := by
    rw [simulateBatch, hkey, Read.ok_bind, simulateContractCall, hmarket]
    rfl
  obtain ⟨op, _, hop, -⟩ := simulateBatch_ok hsimulated
  have hevaluate : scanNext scoutLiquidator (Scan.start scoutLiquidator (Book.start 0)) .evaluate =
      some (scoutScan (.judging { scoutJob.toVisit with rows := [(scoutKey, scoutObligation)] })) := rfl
  have hjudge : scanNext scoutLiquidator
      (scoutScan (.judging { scoutJob.toVisit with rows := [(scoutKey, scoutObligation)] })) .judge =
        some (scoutScan (.planning scoutJob [scoutPair] none)) := by
    have hjudged : isJudged scoutLiquidator.scanConfig scoutData (scoutKey, scoutObligation) = true := by
      decide +kernel
    have hverdict : scoutLiquidator.verdict scoutData scoutObligation = .ok (some false) := by decide +kernel
    simp only [scanNext, scoutScan, scoutJob, hjudged, hverdict, if_true]
    rfl
  have hplan : scanNext scoutLiquidator (scoutScan (.planning scoutJob [scoutPair] none)) (.plan planReader 0) =
      some { scoutScan (.planning scoutJob [] (some scoutPlan)) with tried := [(scoutPair, some scoutPlan)] } := by
    have hplanned : scoutLiquidator.planPair scoutJob scoutPair planReader 0 = .ok (some scoutPlan) := by
      decide +kernel
    simp only [scanNext, scoutScan, hplanned]
    rfl
  have hselect : scanNext scoutLiquidator { scoutScan (.planning scoutJob [] (some scoutPlan)) with
      tried := [(scoutPair, some scoutPlan)] } .select =
        some { scoutScan (.simulating scoutJob .initial scoutPlan [val]) with
          tried := [(scoutPair, some scoutPlan)] } := by
    have hstrkey : scoutLiquidator.codec = TextCodec.stellar := rfl
    simp only [scanNext, scoutScan, Liquidator.execute, hstrkey, hrequests]
  have hsimulate : scanNext scoutLiquidator { scoutScan (.simulating scoutJob .initial scoutPlan [val]) with
      tried := [(scoutPair, some scoutPlan)] } (.simulate scoutSimulator) = some (scoutFunding val) := by
    have hanswer : simulateBatch scoutLiquidator.codec scoutSimulator scoutJob.market scoutLiquidator.key [val] =
        .ok .ok := hsimulated
    simp only [scanNext, scoutScan, hanswer]
    rfl
  have hlook : scanNext scoutLiquidator (scoutFunding val) .lookUp = some (scoutFetching val) := rfl
  have hread : scanNext scoutLiquidator (scoutFetching val) (.readBalance (some 1000000000000)) =
      some (scoutReserving val) := rfl
  have hdraw : scanNext scoutLiquidator (scoutReserving val) (.drawId 7) = some (scoutBuilding val) := rfl
  have hbuild : scanNext scoutLiquidator (scoutBuilding val) .build = some (scoutEnd val op) := by
    have hbuilt : buildBatchOp scoutLiquidator.codec scoutJob.market scoutLiquidator.key [val] = .ok op := hop
    simp only [scanNext, scoutBuilding, hbuilt]
    rfl
  have hfresh : 7 ∉ (scoutReserving val).book.issued := List.not_mem_nil
  refine ⟨[.evaluate, .judge, .plan planReader 0, .select, .simulate scoutSimulator, .lookUp,
    .readBalance (some 1000000000000), .drawId 7, .build], val, op, ?_⟩
  exact .cons trivial hevaluate (.cons trivial hjudge (.cons trivial hplan (.cons trivial hselect
    (.cons trivial hsimulate (.cons trivial hlook (.cons trivial hread (.cons hfresh hdraw
    (.cons trivial hbuild (.nil _)))))))))

end AlulaKeeper
