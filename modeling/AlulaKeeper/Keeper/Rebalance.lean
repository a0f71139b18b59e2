import Mathlib
import AlulaKeeper.Lib.Steps
import AlulaKeeper.Keeper.BalancerAborts
import AlulaKeeper.Keeper.TaskLedger
import AlulaKeeper.Stellar.Requests

/-!
# The balancer's pass

`find_rebalance_actions` of `strategy/balancer.rs`: the candidates are evaluated one after another, while the
other tasks reserve and release.

* `Balancer.chooseSwap`, `Balancer.swapOp`: a candidate's evaluation up to its reservation;
  `evaluate_eq`: the evaluation as a whole.
* `passNext`: one step of the pass, or a call of another task.
* `swaps_spend_what_is_spare`: every action is an admitted swap of a candidate, within its balance.
* `swaps_are_reserved`: every reservation of the pass is some action's, and every action's is held.
-/

namespace AlulaKeeper

open I128 Steps

/-! ## The pass -/

/-- The strategy as a pass sees it. -/
structure Balancer where
  pkey : Address
  market : Address
  assetsToHold : List Address
  config : BalancerConfig
  capital : CapitalConfig
  codec : TextCodec

/-- `ObligationKey::new` of the keeper's account. -/
def Balancer.key (b : Balancer) : ObligationKey := { user := b.pkey, seed := none }

/-- `is_swap_reasonable`. -/
def Balancer.isSwapReasonable (b : Balancer) : Bool :=
  !b.assetsToHold.isEmpty && !b.config.swapProviders.isEmpty

/-- What a pass is about: the market, its pools in the index, and the asset to swap into. -/
structure Rebalance where
  data : MarketData
  assetIndex : Address → Option AssetInfo
  target : Address
  targetOraclePrice : ℤ

/-- `SubmitStellarTx` of a swap. -/
structure SwapAction where
  candidate : Address
  swap : SwapRequest
  op : InvokeContractArgs

/-- What `evaluate_rebalancable_candidate` reserves, of the candidate. -/
def SwapAction.reservation (a : SwapAction) : Address × ℤ := (a.candidate, a.swap.amountIn)

/-- The answers of `get_amount_out`. -/
abbrev Quotes := ℤ → Address → Address → Address → Option ℤ

/-- Where the pass over the candidates stands. -/
inductive PassPoint where
  | candidates (queue : List Address)
  | funding (candidate : Address) (oraclePrice : ℤ) (queue : List Address)
  /-- No balance is cached. -/
  | fetching (candidate : Address) (oraclePrice : ℤ) (queue : List Address)
  | routing (candidate : Address) (oraclePrice rawBalance : ℤ) (queue : List Address)

/-- The pass, with what it was answered. -/
structure Pass where
  book : Book
  point : PassPoint
  actions : List SwapAction
  /-- The ids this pass has drawn. -/
  own : List ℕ
  /-- The balances this pass was answered. -/
  balances : List (Address × ℤ)
  /-- The providers' answers to the probes of this pass. -/
  quotes : List Quotes

/-- Before the first candidate, whatever the ledger. -/
def Pass.start (book : Book) (candidates : List Address) : Pass where
  book
  point := .candidates candidates
  actions := []
  own := []
  balances := []
  quotes := []

/-- What the pass, the other tasks and the clock may do next. -/
inductive PassCall where
  | next
  /-- The two ends of `try_get_balance`, with the chain's answer. -/
  | lookUp
  | readBalance (answer : Option ℤ)
  /-- The probes and the reservation, with the id that `random_id` gives. -/
  | swap (quotes : Quotes) (id : ℕ)
  /-- A call of another task, or the clock. -/
  | others (act : BookAct)

namespace Balancer

variable (b : Balancer)

/-- The market as the pass reads it once the candidate's balance is known. -/
def reader (quotes : Quotes) (rawBalance : ℤ) : LedgerReader where
  balance _ := some rawBalance
  amountOut := quotes
  amountIn _ _ _ _ := none

/-- `evaluate_rebalancable_candidate` up to the request: the swap that is to be built and reserved. -/
def chooseSwap (m : Rebalance) (quotes : Quotes) (id : ℕ) (candidate : Address) (oraclePrice rawBalance : ℤ) :
    Evaluation (Option SwapRequest) :=
  evaluateRebalancableCandidate b.config (reader quotes rawBalance) m.assetIndex (fun _ _ _ _ => true)
    (fun _ _ _ => some id) m.target candidate m.data.oraclePriceDecimals m.targetOraclePrice oraclePrice

/-- `swap_exact_tokens_request` and `batch_op`. -/
def swapOp (swap : SwapRequest) : Read InvokeContractArgs := do
  let request ← buildSwapExactTokensRequestScval b.codec swap.provider swap.path swap.amountIn swap.minAmountOut
  buildBatchOp b.codec b.market b.key [request]

/-- The start of `find_rebalance_actions`, over the index's keys in some order; `none` where the target is not
listed. -/
def findRebalanceActions (assetIndex : Address → Option AssetInfo) (keys : List Address) (data : MarketData)
    (book : Book) : Option (Rebalance × Pass) :=
  match b.assetsToHold with
  | [] => none
  | target :: _ => (data.findPool target).map fun pool =>
    ({ data, assetIndex := updateAssetIndex assetIndex data, target, targetOraclePrice := pool.oracleAssetPrice },
      Pass.start book (keys.filter (· ∉ b.assetsToHold)))

end Balancer

/-- One step; `none` where it is not enabled or panics. -/
def passNext (b : Balancer) (m : Rebalance) (s : Pass) : PassCall → Option Pass
  | .next =>
    match s.point with
    | .candidates (candidate :: queue) =>
      match m.data.findPool candidate with
      | none => some { s with point := .candidates queue }
      | some pool => some { s with point := .funding candidate pool.oracleAssetPrice queue }
    | _ => none
  | .lookUp =>
    match s.point with
    | .funding candidate oraclePrice queue =>
      match s.book.inner.getFreshlyCachedBalance b.capital s.book.now candidate with
      | some rawBalance => some { s with
          point := .routing candidate oraclePrice rawBalance queue
          balances := (candidate, rawBalance) :: s.balances }
      | none => some { s with point := .fetching candidate oraclePrice queue }
    | _ => none
  | .readBalance answer =>
    match s.point with
    | .fetching candidate oraclePrice queue =>
      match answer with
      | none => some { s with point := .candidates queue }
      | some rawBalance => some { s with
          book := { s.book with inner := s.book.inner.cacheBalance s.book.now candidate rawBalance }
          point := .routing candidate oraclePrice rawBalance queue
          balances := (candidate, rawBalance) :: s.balances }
    | _ => none
  | .swap quotes id =>
    match s.point with
    | .routing candidate oraclePrice rawBalance queue =>
      match b.chooseSwap m quotes id candidate oraclePrice rawBalance with
      | .error .abort => none
      | .error (.err _) | .ok none => some { s with point := .candidates queue }
      | .ok (some swap) =>
        match b.swapOp swap with
        | .error _ => some { s with point := .candidates queue }
        | .ok op =>
          match s.book.inner.reserve b.capital s.book.now swap.opId swap.amountIn
              (swappableBalance b.config candidate rawBalance) candidate with
          | .ok (.ok opId, inner) => some { s with
              book := { s.book with inner, issued := opId :: s.book.issued }
              point := .candidates queue
              actions := s.actions ++ [{ candidate, swap, op }]
              own := opId :: s.own
              quotes := quotes :: s.quotes }
          | .ok (.error _, inner) => some { s with
              book := { s.book with inner }
              point := .candidates queue }
          | .error _ => none
    | _ => none
  | .others act => (bookStep b.capital s.book act).map fun book => { s with book }

/-- Ids are fresh, and the other tasks release only their own. -/
def PassCall.Fair (s : Pass) : PassCall → Prop
  | .swap _ id => id ∉ s.book.issued
  | .others (.reserve id _ _ _) => id ∉ s.book.issued
  | .others (.release id) => id ∉ s.own
  | _ => True

/-! ## A candidate's swap -/

/-- The swap is the widest admitted one, of what may be swapped of the balance, and worth its while. -/
structure Routed (b : Balancer) (m : Rebalance) (quotes : Quotes) (candidate : Address)
    (oraclePrice rawBalance : ℤ) (swap : SwapRequest) : Prop where
  path_eq : swap.path = [candidate, m.target]
  pos : 0 < swap.amountIn
  le : swap.amountIn ≤ swappableBalance b.config candidate rawBalance
  worth : ∃ info cents, m.assetIndex candidate = some info ∧ computeValueCents swap.amountIn info = .ok cents ∧
    b.config.minSwapAmountValueCents ≤ cents
  route : ∃ quoted route, FirstLargest (routeProbe b.config (Balancer.reader quotes rawBalance) m.assetIndex
        candidate m.target quoted m.data.oraclePriceDecimals (swappableBalance b.config candidate rawBalance))
      b.config.swapProviders swap.provider route ∧
    quoted = (oraclePrice * 10 ^ m.data.oraclePriceDecimals).tdiv m.targetOraclePrice ∧
    swap.amountIn = route.amountIn ∧
    swap.minAmountOut =
      (saturatingMul route.amountOut (bpsFactor - b.config.allowedSwapSlippageBps)).tdiv bpsFactor

section Choosing

variable {b : Balancer} {m : Rebalance} {quotes : Quotes} {id : ℕ} {candidate : Address}
  {oraclePrice rawBalance : ℤ} {swap : SwapRequest}

theorem chooseSwap_spec (h : b.chooseSwap m quotes id candidate oraclePrice rawBalance = .ok (some swap)) :
    swap.opId = id ∧ Routed b m quotes candidate oraclePrice rawBalance swap := by
  have hspends := swap_within_balance h
  unfold Balancer.chooseSwap evaluateRebalancableCandidate at h
  dsimp only [Balancer.reader] at h hspends
  obtain ⟨_, hraw, hpos, hle⟩ := hspends
  obtain rfl := Option.some.inj hraw
  rw [if_neg (not_not.mpr (hpos.trans_le hle))] at h
  by_cases hprice : m.targetOraclePrice ≤ 0
  · rw [if_pos hprice] at h
    cases h
  rw [if_neg hprice] at h
  obtain ⟨_, hscale, h⟩ := bind_eq_ok.mp h
  obtain ⟨-, rfl⟩ := rawPow10_eq_ok.mp hscale
  obtain ⟨_, hproduct, h⟩ := bind_eq_ok.mp h
  obtain ⟨hfits, rfl⟩ := rawMul_eq_ok.mp hproduct
  obtain ⟨quoted, hquoted, h⟩ := bind_eq_ok.mp h
  rw [rawDiv_of_pos hfits (not_le.mp hprice), Except.ok.injEq] at hquoted
  cases hroute : bestRoute b.config (Balancer.reader quotes rawBalance) m.assetIndex candidate m.target quoted
      m.data.oraclePriceDecimals (swappableBalance b.config candidate rawBalance) with
  | none =>
    rw [Balancer.reader] at hroute
    rw [hroute] at h
    cases h
  | some best =>
  obtain ⟨provider, route⟩ := best
  rw [Balancer.reader] at hroute
  rw [hroute] at h
  cases hinfo : m.assetIndex candidate with
  | none =>
    simp only [hinfo] at h
    cases h
  | some info =>
  simp only [hinfo, not_true_eq_false, if_false] at h
  obtain ⟨cents, hcents, h⟩ := bind_eq_ok.mp h
  by_cases hworth : cents < b.config.minSwapAmountValueCents
  · rw [if_pos hworth] at h
    cases h
  rw [if_neg hworth] at h
  obtain ⟨_, hkept, h⟩ := bind_eq_ok.mp h
  obtain ⟨-, rfl⟩ := rawSub_eq_ok.mp hkept
  obtain ⟨minAmountOut, hmin, h⟩ := bind_eq_ok.mp h
  rw [rawDiv_of_pos (show Fits (saturatingMul _ _) from fits_clamp _) (by decide), Except.ok.injEq] at hmin
  obtain rfl : _ = swap := Option.some.inj (Except.ok.inj h)
  exact ⟨rfl, rfl, hpos, hle, ⟨info, cents, hinfo, hcents, not_lt.mp hworth⟩, quoted, route,
    bestRoute_firstLargest hroute, hquoted.symm, rfl, hmin.symm⟩

/-- **The evaluation as a whole**: the chosen swap is built, and then reserved. -/
theorem evaluate_eq (builds : Address → ℤ → ℤ → List Address → Bool) (reserve : ℤ → ℤ → Address → Option ℕ) :
    evaluateRebalancableCandidate b.config (Balancer.reader quotes rawBalance) m.assetIndex builds reserve
        m.target candidate m.data.oraclePriceDecimals m.targetOraclePrice oraclePrice =
      b.chooseSwap m quotes id candidate oraclePrice rawBalance >>= fun
        | none => pure none
        | some swap =>
          if ¬ builds swap.provider swap.amountIn swap.minAmountOut swap.path then .error (.err .request)
          else pure ((reserve swap.amountIn (swappableBalance b.config candidate rawBalance) candidate).map
            fun opId => { swap with opId }) := by
  unfold Balancer.chooseSwap evaluateRebalancableCandidate
  dsimp only [Balancer.reader]
  by_cases hpos : swappableBalance b.config candidate rawBalance > 0
  swap
  · rw [if_pos hpos, if_pos hpos]
    rfl
  by_cases hprice : m.targetOraclePrice ≤ 0
  · rw [if_neg (not_not.mpr hpos), if_pos hprice, if_neg (not_not.mpr hpos), if_pos hprice]
    rfl
  rw [if_neg (not_not.mpr hpos), if_neg hprice, if_neg (not_not.mpr hpos), if_neg hprice]
  -- both sides compute the same up to the request
  simp only [bind_assoc]
  refine bind_congr fun scale => bind_congr fun product => bind_congr fun quoted => ?_
  split
  · rfl
  rename_i provider route hroute
  cases m.assetIndex candidate with
  | none => rfl
  | some info =>
    simp only [bind_assoc]
    refine bind_congr fun cents => ?_
    by_cases hworth : cents < b.config.minSwapAmountValueCents
    · simp only [if_pos hworth]
      rfl
    · simp only [if_neg hworth, bind_assoc]
      refine bind_congr fun keptBps => bind_congr fun minAmountOut => ?_
      simp only [not_true_eq_false, if_false, pure_bind]
      split_ifs
      · cases reserve route.amountIn (swappableBalance b.config candidate rawBalance) candidate <;> rfl
      · rfl

end Choosing

/-! ## The invariant -/

/-- What an action stands for: an admitted swap of a candidate on the pass's market. -/
structure Swaps (b : Balancer) (m : Rebalance) (balances : List (Address × ℤ)) (quotes : List Quotes)
    (a : SwapAction) : Prop where
  op_eq : b.swapOp a.swap = .ok a.op
  routed : ∃ pool rawBalance answers, m.data.findPool a.candidate = some pool ∧
    (a.candidate, rawBalance) ∈ balances ∧ answers ∈ quotes ∧
      Routed b m answers a.candidate pool.oracleAssetPrice rawBalance a.swap

namespace PassPoint

/-- The candidates ahead, the one at hand first. -/
def ahead : PassPoint → List Address
  | .candidates queue => queue
  | .funding candidate _ queue | .fetching candidate _ queue | .routing candidate _ _ queue => candidate :: queue

/-- The candidate is listed at that price, and its balance was answered. -/
def Ok (m : Rebalance) (balances : List (Address × ℤ)) : PassPoint → Prop
  | .candidates _ => True
  | .funding candidate oraclePrice _ | .fetching candidate oraclePrice _ =>
    ∃ pool, m.data.findPool candidate = some pool ∧ pool.oracleAssetPrice = oraclePrice
  | .routing candidate oraclePrice rawBalance _ => (candidate, rawBalance) ∈ balances ∧
    ∃ pool, m.data.findPool candidate = some pool ∧ pool.oracleAssetPrice = oraclePrice

end PassPoint

/-- What the actions have reserved, under their ids. -/
def Pass.holders (s : Pass) : List ((Address × ℤ) × ℕ) := s.actions.map fun a => (a.reservation, a.swap.opId)

/-- What holds throughout a pass: order, and where the swaps come from. -/
structure Pass.Inv (b : Balancer) (m : Rebalance) (keys : List Address) (s : Pass) : Prop where
  order : (s.actions.map SwapAction.candidate ++ s.point.ahead).Sublist keys
  point : s.point.Ok m s.balances
  actions : ∀ a ∈ s.actions, Swaps b m s.balances s.quotes a

section Steps

variable {b : Balancer} {m : Rebalance} {started : ℕ} {keys : List Address} {s t : Pass}

theorem Swaps.mono {balances balances' : List (Address × ℤ)} {quotes quotes' : List Quotes} {a : SwapAction}
    (hbalances : balances ⊆ balances') (hquotes : quotes ⊆ quotes') (h : Swaps b m balances quotes a) :
    Swaps b m balances' quotes' a := by
  obtain ⟨hop, pool, rawBalance, answers, hpool, hraw, hanswers, hrouted⟩ := h
  exact ⟨hop, pool, rawBalance, answers, hpool, hbalances hraw, hquotes hanswers, hrouted⟩

theorem Pass.Inv.goto (h : s.Inv b m keys) {book : Book} {point : PassPoint} {balances : List (Address × ℤ)}
    (hahead : point.ahead.Sublist s.point.ahead) (hbalances : s.balances ⊆ balances)
    (hok : point.Ok m balances) : { s with book, point, balances }.Inv b m keys where
  order := ((List.Sublist.refl _).append hahead).trans h.order
  point := hok
  actions a ha := (h.actions a ha).mono hbalances (List.Subset.refl _)

theorem Pass.Inv.step_next (h : s.Inv b m keys) (hs : passNext b m s .next = some t) : t.Inv b m keys := by
  simp only [passNext] at hs
  split at hs
  swap
  · cases hs
  rename_i candidate queue hpoint
  split at hs <;> cases hs
  · refine h.goto ?_ (List.Subset.refl _) trivial
    rw [hpoint]
    exact List.sublist_cons_self _ _
  · rename_i pool hpool
    refine h.goto ?_ (List.Subset.refl _) ⟨pool, hpool, rfl⟩
    rw [hpoint]
    exact List.Sublist.refl _

theorem Pass.Inv.step_lookUp (h : s.Inv b m keys) (hs : passNext b m s .lookUp = some t) : t.Inv b m keys := by
  have hok := h.point
  simp only [passNext] at hs
  split at hs
  swap
  · cases hs
  rename_i candidate oraclePrice queue hpoint
  rw [hpoint] at hok
  have hahead : s.point.ahead = candidate :: queue := by
    rw [hpoint]
    rfl
  split at hs <;> cases hs
  · exact h.goto (hahead ▸ List.Sublist.refl _) (List.subset_cons_self _ _) ⟨List.mem_cons_self, hok⟩
  · exact h.goto (hahead ▸ List.Sublist.refl _) (List.Subset.refl _) hok

theorem Pass.Inv.step_readBalance {answer : Option ℤ} (h : s.Inv b m keys)
    (hs : passNext b m s (.readBalance answer) = some t) : t.Inv b m keys := by
  have hok := h.point
  simp only [passNext] at hs
  split at hs
  swap
  · cases hs
  rename_i candidate oraclePrice queue hpoint
  rw [hpoint] at hok
  have hahead : s.point.ahead = candidate :: queue := by
    rw [hpoint]
    rfl
  split at hs <;> cases hs
  · refine h.goto ?_ (List.Subset.refl _) trivial
    rw [hahead]
    exact List.sublist_cons_self _ _
  · exact h.goto (hahead ▸ List.Sublist.refl _) (List.subset_cons_self _ _) ⟨List.mem_cons_self, hok⟩

theorem Pass.Inv.step_swap {quotes : Quotes} {id : ℕ} (h : s.Inv b m keys)
    (hs : passNext b m s (.swap quotes id) = some t) : t.Inv b m keys := by
  have hok := h.point
  simp only [passNext] at hs
  split at hs
  swap
  · cases hs
  rename_i candidate oraclePrice rawBalance queue hpoint
  rw [hpoint] at hok
  obtain ⟨hraw, pool, hpool, rfl⟩ := hok
  have hskip : ∀ book, { s with book, point := .candidates queue }.Inv b m keys := by
    intro book
    refine h.goto ?_ (List.Subset.refl _) trivial
    rw [hpoint]
    exact List.sublist_cons_self _ _
  split at hs
  · cases hs
  · cases hs
    exact hskip _
  · cases hs
    exact hskip _
  rename_i swap hchosen
  split at hs
  · cases hs
    exact hskip _
  rename_i op hop
  split at hs
  · cases hs
    refine ⟨?_, trivial, List.forall_mem_append.mpr ⟨fun a ha => ?_, ?_⟩⟩
    · have horder := h.order
      rw [hpoint] at horder
      rw [List.map_append, List.append_assoc]
      exact horder
    · exact (h.actions a ha).mono (List.Subset.refl _) (List.subset_cons_self _ _)
    · rintro a ha
      obtain rfl := List.mem_singleton.mp ha
      exact ⟨hop, pool, rawBalance, quotes, hpool, hraw, List.mem_cons_self, (chooseSwap_spec hchosen).2⟩
  · cases hs
    exact hskip _
  · cases hs

theorem passNext_inv {call : PassCall} (h : s.Inv b m keys) (hs : passNext b m s call = some t) :
    t.Inv b m keys := by
  cases call with
  | next => exact h.step_next hs
  | lookUp => exact h.step_lookUp hs
  | readBalance answer => exact h.step_readBalance hs
  | swap quotes id => exact h.step_swap hs
  | others act =>
    obtain ⟨book, -, rfl⟩ := Option.map_eq_some_iff.mp hs
    exact h.goto (List.Sublist.refl _) (List.Subset.refl _) h.point

theorem findRebalanceActions_start {assetIndex : Address → Option AssetInfo} {data : MarketData} {book : Book}
    {start : Pass} (h : b.findRebalanceActions assetIndex keys data book = some (m, start)) :
    b.assetsToHold.head? = some m.target ∧ start = Pass.start book (keys.filter (· ∉ b.assetsToHold)) := by
  unfold Balancer.findRebalanceActions at h
  split at h
  · cases h
  rename_i target held hheld
  obtain ⟨pool, -, hpass⟩ := Option.map_eq_some_iff.mp h
  obtain ⟨rfl, rfl⟩ := Prod.mk.inj hpass
  exact ⟨by rw [hheld]; rfl, rfl⟩

theorem Pass.Inv.of_run {guard : Pass → PassCall → Prop} {assetIndex : Address → Option AssetInfo}
    {data : MarketData} {book : Book} {start : Pass} {calls : List PassCall}
    (hstart : b.findRebalanceActions assetIndex keys data book = some (m, start))
    (h : Run (passNext b m) guard start calls s) : s.Inv b m (keys.filter (· ∉ b.assetsToHold)) := by
  obtain ⟨-, rfl⟩ := findRebalanceActions_start hstart
  exact h.invariant (fun _ _ _ hinv _ hs => passNext_inv hinv hs)
    ⟨List.Sublist.refl _, trivial, by simp [Pass.start]⟩

/-! ## What a pass holds -/

/-- The pass's reservations, beside what it has handed out. -/
def Pass.Held (b : Balancer) (started : ℕ) (s : Pass) : Prop :=
  Ledger b.capital.reservationTtl started s.book s.own s.holders

theorem Pass.Held.step_swap {quotes : Quotes} {id : ℕ} (h : s.Held b started) (hfresh : id ∉ s.book.issued)
    (hs : passNext b m s (.swap quotes id) = some t) : t.Held b started := by
  have hledger : Ledger b.capital.reservationTtl started s.book s.own s.holders := h
  simp only [passNext] at hs
  split at hs
  swap
  · cases hs
  rename_i candidate oraclePrice rawBalance queue hpoint
  split at hs
  · cases hs
  · cases hs
    exact hledger
  · cases hs
    exact hledger
  rename_i swap hchosen
  obtain ⟨rfl, -⟩ := chooseSwap_spec hchosen
  split at hs
  · cases hs
    exact hledger
  rename_i op hop
  split at hs
  · rename_i opId inner hreserved
    cases hs
    obtain ⟨rfl, hgranted⟩ := hledger.granted hfresh hreserved
    rw [Pass.Held, Pass.holders, List.map_append]
    exact hgranted
  · rename_i inner hrefused
    cases hs
    exact hledger.spared (spares_refused _ hrefused)
  · cases hs

theorem passNext_held {call : PassCall} (h : s.Held b started) (hfair : call.Fair s)
    (hs : passNext b m s call = some t) : t.Held b started := by
  have hledger : Ledger b.capital.reservationTtl started s.book s.own s.holders := h
  have hstay := fun balances => hledger.spared (spares_balances _ _ _ balances)
  cases call with
  | next | lookUp | readBalance =>
    simp only [passNext] at hs
    repeat' split at hs
    all_goals cases hs
    all_goals exact hstay _
  | swap quotes id => exact h.step_swap hfair hs
  | others act =>
    obtain ⟨book, hbook, rfl⟩ := Option.map_eq_some_iff.mp hs
    refine hledger.spared (spares_bookStep hledger.issued ?_ ?_ hbook)
    · rintro id amount available token rfl
      exact hfair
    · rintro id rfl
      exact hfair

theorem Pass.Held.of_run {assetIndex : Address → Option AssetInfo} {data : MarketData} {book : Book} {start : Pass}
    {calls : List PassCall} (hstored : ∀ r ∈ book.inner.reservations, r.id ∈ book.issued)
    (hstart : b.findRebalanceActions assetIndex keys data book = some (m, start))
    (h : Run (passNext b m) (fun s call => call.Fair s) start calls s) : s.Held b book.now := by
  obtain ⟨-, rfl⟩ := findRebalanceActions_start hstart
  refine h.invariant (fun _ _ _ hheld hfair hs => passNext_held hheld hfair hs) ?_
  exact ⟨hstored, by simp [Pass.start], le_rfl, by simp [Pass.start, Pass.holders],
    by simp [Pass.start, Pass.holders], by simp [Pass.start, Pass.holders], by simp [Pass.start]⟩

end Steps

theorem add_margin_le {config : BalancerConfig} {candidate : Address} {amount rawBalance : ℤ} (hpos : 0 < amount)
    (hle : amount ≤ swappableBalance config candidate rawBalance) :
    amount + (if candidate = config.xlmAddress then config.xlmSafetyMargin else 0) ≤ rawBalance := by
  have hmin : minVal < 0 := by decide
  unfold swappableBalance saturatingSub clamp at hle
  split_ifs at hle ⊢ <;> omega

/-! ## What a pass hands out -/

/-- **Swaps spend what is spare.** Whatever the other tasks, the providers and the chain do, at most one action is
handed out for an asset, and none for one that is to be held. Its operation is the batch of one swap into the
first asset to hold, admitted at a provider of the largest amount, worth the minimum at the index's price, and
within the balance that was answered, less the margin where it is the native asset. -/
theorem swaps_spend_what_is_spare (b : Balancer) (assetIndex : Address → Option AssetInfo) (keys : List Address)
    (data : MarketData) (book : Book) (m : Rebalance) (start : Pass)
    (hstart : b.findRebalanceActions assetIndex keys data book = some (m, start)) (calls : List PassCall)
    (s : Pass) (h : Run (passNext b m) (fun _ _ => True) start calls s) :
    (s.actions.map SwapAction.candidate).Sublist (keys.filter (· ∉ b.assetsToHold)) ∧
      (keys.Nodup → (s.actions.map SwapAction.candidate).Nodup) ∧
      b.assetsToHold.head? = some m.target ∧
      ∀ a ∈ s.actions, Swaps b m s.balances s.quotes a ∧ ∃ rawBalance, (a.candidate, rawBalance) ∈ s.balances ∧
        0 < a.swap.amountIn ∧ a.swap.amountIn +
          (if a.candidate = b.config.xlmAddress then b.config.xlmSafetyMargin else 0) ≤ rawBalance := by
  have hinv := Pass.Inv.of_run hstart h
  have horder := (List.sublist_append_left _ _).trans hinv.order
  refine ⟨horder, fun hkeys => (hkeys.filter _).sublist horder, (findRebalanceActions_start hstart).1,
    fun a ha => ?_⟩
  have hswaps := hinv.actions a ha
  obtain ⟨pool, rawBalance, answers, -, hraw, -, hrouted⟩ := hswaps.routed
  exact ⟨hswaps, rawBalance, hraw, hrouted.pos, add_margin_le hrouted.pos hrouted.le⟩

/-- USDC is held, and everything else swapped into it. -/
def goldBalancer : Balancer where
  pkey := addressText (.account oneKey)
  market := usdcText
  assetsToHold := [usdcText]
  config := balancerConfig [usdcText]
  capital := { minuteCapital with reservationTtl := 300, balanceCacheTtl := 5 }
  codec := TextCodec.stellar

/-- Dollars and gold at a dollar each. -/
def goldData : MarketData := { dustMarket usd with poolsData := [dustPool usdcText usd, dustPool goldText usd] }

/-- Everything is swapped for dollars. -/
def goldRebalance : Rebalance where
  data := goldData
  assetIndex := updateAssetIndex (fun _ => none) goldData
  target := usdcText
  targetOraclePrice := usd

/-- The pass before it is answered. -/
def goldPass (point : PassPoint) : Pass := { Pass.start (Book.start 0) [] with point }

/-- $100 of gold are found. -/
def goldRouting : Pass :=
  { goldPass (.routing goldText usd 1000000000 []) with
    book := { Book.start 0 with inner := (Book.start 0).inner.cacheBalance 0 goldText 1000000000 }
    balances := [(goldText, 1000000000)] }

/-- Quotes at the oracle's price. -/
def fairQuotes : Quotes := fun amount _ _ _ => some amount

/-- 100 GOLD, at most half a percent under the price. -/
def goldSwap : SwapRequest where
  provider := usdcText
  amountIn := 1000000000
  minAmountOut := 995000000
  path := [goldText, usdcText]
  opId := 7

/-- The gold is swapped, and reserved under the id 7. -/
def goldEnd (op : InvokeContractArgs) : Pass where
  book := {
    now := 0
    issued := [7]
    inner := { goldRouting.book.inner with
      reservations := [{ id := 7, amount := 1000000000, createdAt := 0, tokenAddress := goldText }] } }
  point := .candidates []
  actions := [{ candidate := goldText, swap := goldSwap, op }]
  own := [7]
  balances := [(goldText, 1000000000)]
  quotes := [fairQuotes]

theorem gold_start : goldBalancer.findRebalanceActions (fun _ => none) [usdcText, goldText] goldData
    (Book.start 0) = some (goldRebalance, goldPass (.candidates [goldText])) := by
  have hfound : (goldData.findPool usdcText).map (·.oracleAssetPrice) = some usd := by decide +kernel
  have hkeys : [usdcText, goldText].filter (· ∉ goldBalancer.assetsToHold) = [goldText] := by decide +kernel
  obtain ⟨pool, hpool, hprice⟩ := Option.map_eq_some_iff.mp hfound
  have hheld : goldBalancer.assetsToHold = [usdcText] := rfl
  simp only [Balancer.findRebalanceActions, hkeys]
  rw [hheld]
  simp only [hpool, Option.map_some, hprice]
  rfl

/-- The one candidate is funded, quoted and swapped. -/
def goldCalls : List PassCall := [.next, .lookUp, .readBalance (some 1000000000), .swap fairQuotes 7]

theorem gold_run : ∃ op, Run (passNext goldBalancer goldRebalance) (fun s call => call.Fair s)
    (goldPass (.candidates [goldText])) goldCalls (goldEnd op) := by
  have hrequest : (Request.swapExactTokens usdcText [goldText, usdcText] 1000000000 995000000).Encodable
      TextCodec.stellar := by
    refine ⟨⟨.contract zeroKey, trivial, usdcText_eq⟩, ?_, by decide, by decide⟩
    simp only [List.forall_mem_cons]
    exact ⟨⟨.contract oneKey, trivial, goldText_eq⟩, ⟨.contract zeroKey, trivial, usdcText_eq⟩, by simp⟩
  obtain ⟨val, hval, -⟩ := request_round_trip _ hrequest
  have hkey : obligationKeyVal TextCodec.stellar goldBalancer.key = .ok (keyVal none (.account oneKey)) := by
    have hown : goldBalancer.key = keyOf TextCodec.stellar none (.account oneKey) := rfl
    rw [hown]
    exact obligationKeyVal_keyOf trivial
  have hmarket : TextCodec.stellar.contractFromString usdcText = some zeroKey := by
    rw [← usdcText_eq]
    exact TextCodec.stellar.contract_inv zeroKey
  obtain ⟨op, hop⟩ : ∃ op, goldBalancer.swapOp goldSwap = .ok op := by
    have hbuilt : buildSwapExactTokensRequestScval goldBalancer.codec goldSwap.provider goldSwap.path
        goldSwap.amountIn goldSwap.minAmountOut = .ok val := hval
    have hhash : contractStrkeyToHash goldBalancer.codec goldBalancer.market = .ok zeroKey := by
      show contractStrkeyToHash TextCodec.stellar usdcText = .ok zeroKey
      rw [contractStrkeyToHash, hmarket]
    have hown : obligationKeyVal goldBalancer.codec goldBalancer.key = .ok (keyVal none (.account oneKey)) := hkey
    rw [Balancer.swapOp, hbuilt, Read.ok_bind, buildBatchOp, hhash, Read.ok_bind, hown]
    exact ⟨_, rfl⟩
  have hnext : passNext goldBalancer goldRebalance (goldPass (.candidates [goldText])) .next =
      some (goldPass (.funding goldText usd [])) := by
    have hfound : (goldRebalance.data.findPool goldText).map (·.oracleAssetPrice) = some usd := by decide +kernel
    obtain ⟨pool, hpool, hprice⟩ := Option.map_eq_some_iff.mp hfound
    simp only [passNext, goldPass, hpool, hprice]
  have hlook : passNext goldBalancer goldRebalance (goldPass (.funding goldText usd [])) .lookUp =
      some (goldPass (.fetching goldText usd [])) := rfl
  have hread : passNext goldBalancer goldRebalance (goldPass (.fetching goldText usd []))
      (.readBalance (some 1000000000)) = some goldRouting := rfl
  have hswap : passNext goldBalancer goldRebalance goldRouting (.swap fairQuotes 7) = some (goldEnd op) := by
    have hchosen : goldBalancer.chooseSwap goldRebalance fairQuotes 7 goldText usd 1000000000 =
        .ok (some goldSwap) := by decide +kernel
    simp only [passNext, goldRouting, goldPass, hchosen, hop]
    rfl
  have hfresh : 7 ∉ goldRouting.book.issued := List.not_mem_nil
  exact ⟨op, .cons trivial hnext (.cons trivial hlook (.cons trivial hread (.cons hfresh hswap (.nil _))))⟩

/-- All of the gold is swapped. -/
theorem gold_is_swapped : ∃ op, Swaps goldBalancer goldRebalance [(goldText, 1000000000)] [fairQuotes]
    { candidate := goldText, swap := goldSwap, op } := by
  obtain ⟨op, hrun⟩ := gold_run
  obtain ⟨-, -, -, hswaps⟩ := swaps_spend_what_is_spare goldBalancer (fun _ => none) [usdcText, goldText] goldData
    (Book.start 0) goldRebalance _ gold_start goldCalls (goldEnd op) (hrun.weaken fun _ _ _ => trivial)
  exact ⟨op, (hswaps _ (List.mem_singleton_self _)).1⟩

end AlulaKeeper
