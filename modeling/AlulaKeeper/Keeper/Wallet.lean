import Mathlib
import AlulaKeeper.Lib.Steps
import AlulaKeeper.Keeper.Capital

/-!
# The wallet and the transactions in flight

Two strategies read the wallet's balance through a cache, reserve against what they read and hand a transaction
to the executor, which submits it, polls for its confirmation in a task of its own and releases the
reservation when the poll ends, however it ends.

* `TreasuryAct`, `treasuryStep`: the strategies' reads and reservations, the executor's submissions, polls
  and releases, the chain's settlements, and time.
* `Treasury.Sound`: what a balance that was read says about the wallet now.
* `Backed`: every transaction that may still land, or has landed since the balance was read, holds its
  reservation.
* `grant_within_wallet`: a reservation granted then is within the wallet, after all that may still land.
-/

namespace AlulaKeeper

open I128 Steps

/-! ## The steps -/

/-- The strategies that reserve. -/
inductive Strategy where
  | liquidator
  | balancer
  deriving DecidableEq, Repr

/-- A balance and the number of settlements the chain had seen when it was read. -/
structure Reading where
  token : Address
  amount : ℤ
  seen : ℕ
  deriving DecidableEq, Repr

/-- Where a strategy is between `try_get_balance` and `reserve`. -/
inductive Phase where
  | idle
  /-- No fresh balance was cached, and the chain is asked. -/
  | asking (token : Address)
  /-- The chain has answered, and the balance is not cached yet. -/
  | reading (reading : Reading)
  | holding (reading : Reading)
  deriving DecidableEq, Repr

/-- The balance a strategy has in hand. -/
def Phase.balance : Phase → Option Reading
  | .idle | .asking _ => none
  | .reading r => some r
  | .holding r => some r

/-- How far a transaction has come. -/
inductive TxStatus where
  /-- Reserved for, and not submitted yet. -/
  | granted
  | submitted
  /-- Settled as the chain's settlement number `seq`. -/
  | landed (seq : ℕ)
  /-- It can land no more. -/
  | dead
  deriving DecidableEq, Repr

/-- The settle hook of a transaction. -/
inductive SettleHook where
  | armed
  /-- The executor is about to call `release`. -/
  | due
  | released
  deriving DecidableEq, Repr

/-- A transaction, what is reserved for it, and its settle hook. -/
structure Tx where
  reservation : Reservation
  status : TxStatus
  hook : SettleHook
  deriving DecidableEq, Repr

/-- How `get_transaction_polling` ends. -/
inductive PollResult where
  | confirmed
  | failed
  | timeout
  | transportError
  deriving DecidableEq, Repr

/-- What the poll of a transaction may answer. -/
def PollResult.possible : PollResult → TxStatus → Bool
  | .confirmed, .landed _ => true
  | .failed, .dead => true
  | .timeout, _ => true
  | .transportError, _ => true
  | _, _ => false

/-- The wallet, the tracker and the transactions of both strategies. -/
structure Treasury where
  now : ℕ
  wallet : Address → ℤ
  inner : CapitalInner
  /-- `Reading.seen` of each cached balance. -/
  seen : Address → ℕ
  phase : Strategy → Phase
  txs : List Tx
  /-- Settlements so far. -/
  settled : ℕ

/-- What the strategies, the chain and the clock may do next. -/
inductive TreasuryAct where
  | tick (seconds : ℕ)
  /-- `try_get_balance` answers from the cache or asks the chain. -/
  | tryGetBalance (strategy : Strategy) (token : Address)
  /-- The chain answers `read_token_balance`. -/
  | readTokenBalance (strategy : Strategy)
  /-- The answer arrives and is cached. -/
  | cacheBalance (strategy : Strategy)
  | reserve (strategy : Strategy) (amount : ℤ) (id : ℕ)
  /-- The operation cannot be built. -/
  | buildFailed (id : ℕ)
  | submit (id : ℕ)
  /-- The executor gives up; the network may have taken a transaction whose answer was lost. -/
  | submitFailed (id : ℕ) (taken : Bool)
  | settle (id : ℕ) (spent : ℤ)
  /-- The network drops the transaction. -/
  | drop (id : ℕ)
  /-- The proceeds of a transaction of the keeper. -/
  | credit (token : Address) (amount : ℤ)
  | pollResult (id : ℕ) (result : PollResult)
  | release (id : ℕ)
  deriving DecidableEq, Repr

namespace Treasury

variable (s : Treasury)

/-- Nothing is reserved, cached or sent. -/
def start (wallet : Address → ℤ) : Treasury where
  now := 0
  wallet
  inner := { reservations := [], balances := fun _ => none }
  seen := fun _ => 0
  phase := fun _ => .idle
  txs := []
  settled := 0

/-- The transaction of an id. -/
def tx (id : ℕ) : Option Tx := s.txs.find? (·.reservation.id = id)

/-- The transaction of an id moves on. -/
def setTx (id : ℕ) (status : TxStatus) (hook : SettleHook) : Treasury :=
  { s with txs := s.txs.map fun tx =>
      if tx.reservation.id = id then { tx with status, hook } else tx }

end Treasury

/-- One atomic step; `none` where it is not enabled. -/
def treasuryStep (config : CapitalConfig) (s : Treasury) : TreasuryAct → Option Treasury
  | .tick seconds => some { s with now := s.now + seconds }
  | .tryGetBalance strategy token =>
    let phase := match s.inner.getFreshlyCachedBalance config s.now token with
      | some amount => .holding { token, amount, seen := s.seen token }
      | none => .asking token
    some { s with phase := Function.update s.phase strategy phase }
  | .readTokenBalance strategy =>
    match s.phase strategy with
    | .asking token =>
      let reading := { token, amount := s.wallet token, seen := s.settled }
      some { s with phase := Function.update s.phase strategy (.reading reading) }
    | _ => none
  | .cacheBalance strategy =>
    match s.phase strategy with
    | .reading r => some { s with
        inner := s.inner.cacheBalance s.now r.token r.amount
        seen := Function.update s.seen r.token r.seen
        phase := Function.update s.phase strategy (.holding r) }
    | _ => none
  | .reserve strategy amount id =>
    match s.phase strategy with
    | .holding r =>
      -- `random_id` gives no id twice
      if s.tx id = none then
        match s.inner.reserve config s.now id amount (CapitalInner.available config r.token r.amount)
            r.token with
        | .ok (.ok id, inner) =>
          let reservation := { id, amount, createdAt := s.now, tokenAddress := r.token }
          some { s with
            inner
            phase := Function.update s.phase strategy .idle
            txs := { reservation, status := .granted, hook := .armed } :: s.txs }
        | .ok (.error _, inner) =>
          some { s with inner, phase := Function.update s.phase strategy .idle }
        | .error _ => none
      else none
    | _ => none
  | .buildFailed id => do
    let tx ← s.tx id
    if tx.status = .granted then return s.setTx id .dead .due else none
  | .submit id => do
    let tx ← s.tx id
    if tx.status = .granted then return s.setTx id .submitted .armed else none
  | .submitFailed id taken => do
    let tx ← s.tx id
    if tx.status = .granted then return s.setTx id (if taken then .submitted else .dead) .due else none
  | .settle id spent => do
    let tx ← s.tx id
    let token := tx.reservation.tokenAddress
    if tx.status = .submitted ∧ 0 ≤ spent ∧ spent ≤ tx.reservation.amount ∧ spent ≤ s.wallet token then
      return { s.setTx id (.landed s.settled) tx.hook with
        wallet := Function.update s.wallet token (s.wallet token - spent)
        settled := s.settled + 1 }
    else none
  | .drop id => do
    let tx ← s.tx id
    if tx.status = .submitted then return s.setTx id .dead tx.hook else none
  | .credit token amount =>
    if 0 ≤ amount ∧ Fits (s.wallet token + amount) then
      some { s with wallet := Function.update s.wallet token (s.wallet token + amount) }
    else none
  | .pollResult id result => do
    let tx ← s.tx id
    -- the poll starts once the transaction is submitted
    if tx.hook = .armed ∧ tx.status ≠ .granted ∧ result.possible tx.status then
      return s.setTx id tx.status .due
    else none
  | .release id => do
    let tx ← s.tx id
    if tx.hook = .due then
      return { s.setTx id tx.status .released with inner := s.inner.release id }
    else none

/-! ## What was read and what the wallet holds -/

/-- The transaction may still land. -/
def TxStatus.mayLand : TxStatus → Bool
  | .granted | .submitted => true
  | .landed _ | .dead => false

/-- It has landed as settlement `n` or later. -/
def TxStatus.landedSince (n : ℕ) : TxStatus → Bool
  | .landed seq => n ≤ seq
  | _ => false

namespace Treasury

variable {s t : Treasury} {r : Reading} {p : TxStatus → Bool} {token : Address} {id : ℕ} {tx : Tx}

/-- The amounts reserved for a token's transactions in some of the states. -/
def sumOf (s : Treasury) (p : TxStatus → Bool) (token : Address) : ℤ :=
  (s.txs.map fun tx =>
    if tx.reservation.tokenAddress = token ∧ p tx.status then tx.reservation.amount else 0).sum

/-- The balance was the wallet's, and no more has left the wallet since than transactions that have landed
since had reserved. -/
structure Sound (s : Treasury) (r : Reading) : Prop where
  fits : Fits r.amount
  seen : r.seen ≤ s.settled
  le : r.amount ≤ s.wallet r.token + s.sumOf (TxStatus.landedSince r.seen) r.token

/-- Amounts are positive, ids are distinct, and what is known of a balance is sound. -/
structure Consistent (s : Treasury) : Prop where
  wallet : ∀ token, Fits (s.wallet token)
  ids : (s.txs.map (·.reservation.id)).Nodup
  amounts : ∀ tx ∈ s.txs, 0 < tx.reservation.amount
  reserved : ∀ r ∈ s.inner.reservations, 0 < r.amount
  cached : ∀ token, ∀ c ∈ s.inner.balances token,
    s.Sound { token, amount := c.amount, seen := s.seen token }
  held : ∀ strategy, ∀ r ∈ (s.phase strategy).balance, s.Sound r

/-- Nothing leaves the wallet but what landing transactions had reserved. -/
structure Advances (s t : Treasury) : Prop where
  settled : s.settled ≤ t.settled
  wallet : ∀ token n, n ≤ s.settled →
    s.wallet token + s.sumOf (TxStatus.landedSince n) token ≤
      t.wallet token + t.sumOf (TxStatus.landedSince n) token

theorem Sound.advance (h : s.Sound r) (ha : s.Advances t) : t.Sound r :=
  ⟨h.fits, h.seen.trans ha.settled, h.le.trans (ha.wallet r.token r.seen h.seen)⟩

theorem mem_of_tx (h : s.tx id = some tx) : tx ∈ s.txs ∧ tx.reservation.id = id :=
  ⟨List.mem_of_find?_eq_some h, by simpa using List.find?_some h⟩

theorem not_mem_of_tx_none (h : s.tx id = none) : id ∉ s.txs.map (·.reservation.id) := by
  intro hmem
  obtain ⟨tx, htx, hid⟩ := List.mem_map.mp hmem
  exact absurd hid (by simpa using List.find?_eq_none.mp h tx htx)

theorem eq_of_tx (hids : (s.txs.map (·.reservation.id)).Nodup) (h : s.tx id = some tx) {tx' : Tx}
    (hmem : tx' ∈ s.txs) (hid : tx'.reservation.id = id) : tx' = tx := by
  obtain ⟨hm, hi⟩ := mem_of_tx h
  exact List.inj_on_of_nodup_map hids hmem hm (hid.trans hi.symm)

/-! ### One transaction moves on -/

section Move

variable {status : TxStatus} {hook : SettleHook}

theorem sumOf_setTx (s : Treasury) (p : TxStatus → Bool) (token : Address) (id : ℕ) (status : TxStatus)
    (hook : SettleHook) :
    (s.setTx id status hook).sumOf p token = (s.txs.map fun tx =>
      if tx.reservation.tokenAddress = token ∧
        p (if tx.reservation.id = id then status else tx.status) then tx.reservation.amount else 0).sum := by
  unfold sumOf setTx
  rw [List.map_map]
  congr 1
  refine List.map_congr_left fun tx _ => ?_
  by_cases hid : tx.reservation.id = id <;> simp [hid]

theorem term_le_term (hpos : 0 < tx.reservation.amount)
    (hp : tx.reservation.id = id → p tx.status → p status) :
    (if tx.reservation.tokenAddress = token ∧ p tx.status then tx.reservation.amount else 0) ≤
      if tx.reservation.tokenAddress = token ∧
        p (if tx.reservation.id = id then status else tx.status) then tx.reservation.amount else 0 := by
  by_cases hid : tx.reservation.id = id
  · rw [if_pos hid]
    split_ifs with h1 h2
    · exact le_refl _
    · exact absurd ⟨h1.1, hp hid h1.2⟩ h2
    · exact hpos.le
    · exact le_refl _
  · rw [if_neg hid]

theorem sumOf_le_setTx (hpos : ∀ tx ∈ s.txs, 0 < tx.reservation.amount)
    (hp : ∀ tx ∈ s.txs, tx.reservation.id = id → p tx.status → p status) :
    s.sumOf p token ≤ (s.setTx id status hook).sumOf p token := by
  rw [sumOf_setTx]
  exact List.sum_le_sum fun tx htx => term_le_term (hpos tx htx) (hp tx htx)

theorem sumOf_add_le_setTx (hpos : ∀ tx ∈ s.txs, 0 < tx.reservation.amount)
    (hp : ∀ tx ∈ s.txs, tx.reservation.id = id → p tx.status → p status)
    (htx : s.tx id = some tx) (hold : p tx.status = false) (hnew : p status = true) :
    s.sumOf p tx.reservation.tokenAddress + tx.reservation.amount ≤
      (s.setTx id status hook).sumOf p tx.reservation.tokenAddress := by
  rw [sumOf_setTx]
  obtain ⟨hmem, hid⟩ := mem_of_tx htx
  refine Fold.sum_add_le_sum (fun y hy => term_le_term (hpos y hy) (hp y hy)) hmem ?_
  simp [hid, hold, hnew]

end Move

/-! ### Steps -/

theorem Advances.of_eq (hw : t.wallet = s.wallet) (htxs : t.txs = s.txs) (hn : t.settled = s.settled) :
    s.Advances t := by
  refine ⟨hn.ge, fun token n _ => ?_⟩
  simp only [sumOf, hw, htxs, le_refl]

theorem Consistent.of_advances (ha : s.Advances t) (hwallet : ∀ token, Fits (t.wallet token))
    (hids : (t.txs.map (·.reservation.id)).Nodup) (hamounts : ∀ tx ∈ t.txs, 0 < tx.reservation.amount)
    (hreserved : ∀ r ∈ t.inner.reservations, 0 < r.amount)
    (hcached : ∀ token, ∀ c ∈ t.inner.balances token,
      s.Sound { token, amount := c.amount, seen := t.seen token })
    (hheld : ∀ strategy, ∀ r ∈ (t.phase strategy).balance, s.Sound r) : t.Consistent :=
  ⟨hwallet, hids, hamounts, hreserved, fun token c hc => (hcached token c hc).advance ha,
    fun strategy r hr => (hheld strategy r hr).advance ha⟩

section SetTx

variable {status : TxStatus} {hook : SettleHook}

theorem map_id_setTx (s : Treasury) (id : ℕ) (status : TxStatus) (hook : SettleHook) :
    (s.setTx id status hook).txs.map (·.reservation.id) = s.txs.map (·.reservation.id) := by
  simp only [setTx, List.map_map]
  refine List.map_congr_left fun tx _ => ?_
  by_cases hid : tx.reservation.id = id <;> simp [hid]

theorem ids_setTx (h : s.Consistent) :
    ((s.setTx id status hook).txs.map (·.reservation.id)).Nodup := by
  rw [map_id_setTx]
  exact h.ids

theorem amounts_setTx (h : s.Consistent) :
    ∀ tx ∈ (s.setTx id status hook).txs, 0 < tx.reservation.amount := by
  intro tx htx
  obtain ⟨tx', hmem, rfl⟩ := List.mem_map.mp htx
  have := h.amounts tx' hmem
  split_ifs <;> exact this

theorem Consistent.setTx (h : s.Consistent)
    (hp : ∀ tx ∈ s.txs, tx.reservation.id = id → ∀ n, tx.status.landedSince n → status.landedSince n) :
    (s.setTx id status hook).Consistent := by
  refine .of_advances (s := s) ⟨le_refl _, fun token n _ => ?_⟩ h.wallet (ids_setTx h)
    (amounts_setTx h) h.reserved h.cached h.held
  exact add_le_add (le_refl _) (sumOf_le_setTx h.amounts fun tx htx hid => hp tx htx hid n)

theorem Consistent.setTx_of_not_landed (h : s.Consistent) (htx : s.tx id = some tx)
    (hold : ∀ n, tx.status.landedSince n = false) : (s.setTx id status hook).Consistent := by
  refine h.setTx fun tx' hmem hid n hn => ?_
  rw [eq_of_tx h.ids htx hmem hid, hold n] at hn
  cases hn

theorem Consistent.setTx_hook (h : s.Consistent) (htx : s.tx id = some tx) :
    (s.setTx id tx.status hook).Consistent := by
  refine h.setTx fun tx' hmem hid n hn => ?_
  rwa [eq_of_tx h.ids htx hmem hid] at hn

end SetTx

section Step

variable {config : CapitalConfig} {strategy : Strategy} {amount spent : ℤ} {act : TreasuryAct}

theorem sumOf_nonneg (h : s.Consistent) : 0 ≤ s.sumOf p token := by
  refine List.sum_nonneg fun v hv => ?_
  obtain ⟨tx, htx, rfl⟩ := List.mem_map.mp hv
  have := (h.amounts tx htx).le
  split_ifs
  · exact this
  · exact le_refl 0

theorem sound_of_wallet (h : s.Consistent) (token : Address) :
    s.Sound { token, amount := s.wallet token, seen := s.settled } :=
  ⟨h.wallet token, le_refl _, le_add_of_nonneg_right (sumOf_nonneg h)⟩

theorem sound_of_fresh (h : s.Consistent)
    (hc : s.inner.getFreshlyCachedBalance config s.now token = some amount) :
    s.Sound { token, amount, seen := s.seen token } := by
  obtain ⟨c, hfresh, rfl⟩ := Option.map_eq_some_iff.mp hc
  exact h.cached token c (Option.filter_eq_some_iff.mp hfresh).1

theorem held_update {phase : Phase} (h : s.Consistent) (hphase : ∀ r ∈ phase.balance, s.Sound r) :
    ∀ strategy', ∀ r ∈ (Function.update s.phase strategy phase strategy').balance, s.Sound r := by
  intro strategy' r hr
  rw [Function.update_apply] at hr
  split_ifs at hr
  · exact hphase r hr
  · exact h.held strategy' r hr

theorem consistent_tryGetBalance (h : s.Consistent)
    (hs : treasuryStep config s (.tryGetBalance strategy token) = some t) : t.Consistent := by
  simp only [treasuryStep, Option.some.injEq] at hs
  subst hs
  refine .of_advances (s := s) (.of_eq rfl rfl rfl) h.wallet h.ids h.amounts h.reserved h.cached
    (held_update h ?_)
  intro r hr
  cases hc : s.inner.getFreshlyCachedBalance config s.now token with
  | some amount =>
    rw [hc] at hr
    cases hr
    exact sound_of_fresh h hc
  | none =>
    rw [hc] at hr
    cases hr

theorem consistent_readTokenBalance (h : s.Consistent)
    (hs : treasuryStep config s (.readTokenBalance strategy) = some t) : t.Consistent := by
  simp only [treasuryStep] at hs
  split at hs
  · rename_i token hr
    cases hs
    refine .of_advances (s := s) (.of_eq rfl rfl rfl) h.wallet h.ids h.amounts h.reserved h.cached
      (held_update h ?_)
    rintro r ⟨⟩
    exact sound_of_wallet h token
  · cases hs

theorem consistent_cacheBalance (h : s.Consistent)
    (hs : treasuryStep config s (.cacheBalance strategy) = some t) : t.Consistent := by
  simp only [treasuryStep] at hs
  split at hs
  · rename_i r hr
    cases hs
    have hsound : s.Sound r := h.held strategy r (by rw [hr]; rfl)
    refine .of_advances (s := s) (.of_eq rfl rfl rfl) h.wallet h.ids h.amounts h.reserved ?_
      (held_update h ?_)
    · intro token c hc
      simp only [CapitalInner.cacheBalance, Function.update_apply] at hc ⊢
      split_ifs at hc ⊢ with htoken
      · cases hc
        subst htoken
        exact hsound
      · exact h.cached token c hc
    · rintro r' ⟨⟩
      exact hsound
  · cases hs

theorem consistent_settle (h : s.Consistent)
    (hs : treasuryStep config s (.settle id spent) = some t) : t.Consistent := by
  obtain ⟨tx, htx, hs⟩ := Option.bind_eq_some_iff.mp hs
  dsimp only at hs
  split_ifs at hs with hcond
  obtain ⟨hstatus, hspent, hle, hfunds⟩ := hcond
  cases hs
  have hp : ∀ n, ∀ tx' ∈ s.txs, tx'.reservation.id = id → tx'.status.landedSince n →
      (TxStatus.landed s.settled).landedSince n := by
    intro n tx' hmem hid hn
    rw [eq_of_tx h.ids htx hmem hid, hstatus] at hn
    cases hn
  refine .of_advances (s := s) ⟨Nat.le_succ _, fun token n hn => ?_⟩ (fun token => ?_)
    (ids_setTx h) (amounts_setTx h) h.reserved h.cached h.held
  · change _ ≤ Function.update s.wallet tx.reservation.tokenAddress _ token +
      (s.setTx id (.landed s.settled) tx.hook).sumOf (TxStatus.landedSince n) token
    by_cases htoken : token = tx.reservation.tokenAddress
    · subst htoken
      have hgain : _ ≤ (s.setTx id (.landed s.settled) tx.hook).sumOf (TxStatus.landedSince n) _ :=
        sumOf_add_le_setTx h.amounts (hp n) htx (by rw [hstatus]; rfl)
          (by simpa [TxStatus.landedSince] using hn)
      rw [Function.update_self]
      linarith
    · rw [Function.update_of_ne htoken]
      exact add_le_add (le_refl _) (sumOf_le_setTx h.amounts (hp n))
  · by_cases htoken : token = tx.reservation.tokenAddress
    · subst htoken
      have hfits := h.wallet tx.reservation.tokenAddress
      simp only [Function.update_self]
      exact hfits.of_nonneg_of_le (by linarith) (by linarith)
    · simp only [Function.update_of_ne htoken]
      exact h.wallet token

theorem consistent_credit (h : s.Consistent)
    (hs : treasuryStep config s (.credit token amount) = some t) : t.Consistent := by
  simp only [treasuryStep] at hs
  split_ifs at hs with hcond
  obtain ⟨hamount, hfits⟩ := hcond
  cases hs
  refine .of_advances (s := s) ⟨le_refl _, fun token' n _ => ?_⟩ (fun token' => ?_) h.ids h.amounts
    h.reserved h.cached h.held
  · refine add_le_add ?_ (le_refl _)
    by_cases htoken : token' = token
    · subst htoken
      simpa using hamount
    · simp [htoken]
  · by_cases htoken : token' = token
    · subst htoken
      simpa using hfits
    · simpa [htoken] using h.wallet token'

theorem consistent_reserve (h : s.Consistent)
    (hs : treasuryStep config s (.reserve strategy amount id) = some t) : t.Consistent := by
  simp only [treasuryStep] at hs
  split at hs
  · rename_i r hr
    split_ifs at hs with hfresh
    split at hs
    · rename_i id' inner hres
      cases hs
      obtain ⟨⟨e, he⟩, -⟩ | ⟨hid, hamount, -, -⟩ := reserve_cases hres
      · cases he
      · cases hid
        refine .of_advances (s := s) ⟨le_refl _, fun token n _ => ?_⟩ h.wallet ?_ ?_
          (reserve_pos hres h.reserved) ?_ (held_update h (by rintro r ⟨⟩))
        · simp [sumOf, TxStatus.landedSince]
        · rw [List.map_cons, List.nodup_cons]
          exact ⟨not_mem_of_tx_none hfresh, h.ids⟩
        · exact List.forall_mem_cons.mpr ⟨hamount, h.amounts⟩
        · rw [reserve_balances hres]
          exact h.cached
    · rename_i e inner hres
      cases hs
      refine .of_advances (s := s) (.of_eq rfl rfl rfl) h.wallet h.ids h.amounts
        (reserve_pos hres h.reserved) ?_ (held_update h (by rintro r ⟨⟩))
      rw [reserve_balances hres]
      exact h.cached
    · cases hs
  · cases hs

theorem Consistent.treasuryStep (h : s.Consistent) (hs : AlulaKeeper.treasuryStep config s act = some t) :
    t.Consistent := by
  cases act with
  | tick seconds =>
    cases hs
    exact .of_advances (s := s) (.of_eq rfl rfl rfl) h.wallet h.ids h.amounts h.reserved h.cached h.held
  | tryGetBalance strategy token => exact consistent_tryGetBalance h hs
  | readTokenBalance strategy => exact consistent_readTokenBalance h hs
  | cacheBalance strategy => exact consistent_cacheBalance h hs
  | reserve strategy amount id => exact consistent_reserve h hs
  | buildFailed id | submit id | drop id =>
    obtain ⟨tx, htx, hs⟩ := Option.bind_eq_some_iff.mp hs
    split_ifs at hs with hstatus
    cases hs
    exact h.setTx_of_not_landed htx fun n => by rw [hstatus]; rfl
  | submitFailed id taken =>
    obtain ⟨tx, htx, hs⟩ := Option.bind_eq_some_iff.mp hs
    by_cases hstatus : tx.status = .granted
    · rw [if_pos hstatus] at hs
      cases hs
      exact h.setTx_of_not_landed htx fun n => by rw [hstatus]; rfl
    · rw [if_neg hstatus] at hs
      cases hs
  | settle id spent => exact consistent_settle h hs
  | credit token amount => exact consistent_credit h hs
  | pollResult id result =>
    obtain ⟨tx, htx, hs⟩ := Option.bind_eq_some_iff.mp hs
    split_ifs at hs with hcond
    cases hs
    exact h.setTx_hook htx
  | release id =>
    obtain ⟨tx, htx, hs⟩ := Option.bind_eq_some_iff.mp hs
    split_ifs at hs with hdue
    cases hs
    have hset : (s.setTx id tx.status .released).Consistent := h.setTx_hook htx
    exact .of_advances (s := s.setTx id tx.status .released) (.of_eq rfl rfl rfl) hset.wallet hset.ids
      hset.amounts (fun r hr => hset.reserved r (List.mem_of_mem_filter hr)) hset.cached hset.held

end Step

/-! ## Grants -/

section Grant

variable {config : CapitalConfig} {strategy : Strategy} {amount : ℤ}

theorem start_consistent {wallet : Address → ℤ} (hw : ∀ token, Fits (wallet token)) :
    (start wallet).Consistent := by
  refine ⟨hw, List.nodup_nil, ?_, ?_, ?_, ?_⟩
  · rintro tx ⟨⟩
  · rintro r ⟨⟩
  · rintro token c ⟨⟩
  · rintro strategy r ⟨⟩

/-- Every transaction of the token that may still land, or has landed since the balance was read, holds a
reservation that has not expired. -/
def Backed (config : CapitalConfig) (s : Treasury) (r : Reading) : Prop :=
  ∀ tx ∈ s.txs, tx.reservation.tokenAddress = r.token →
    tx.status.mayLand ∨ tx.status.landedSince r.seen →
    tx.reservation ∈ (s.inner.unlockExpired config s.now).reservations

/-- The reservations of a token's transactions in some of the states. -/
def reservationsOf (s : Treasury) (p : TxStatus → Bool) (token : Address) : List Reservation :=
  (s.txs.filter fun tx => tx.reservation.tokenAddress = token ∧ p tx.status).map (·.reservation)

theorem sumOf_eq_sum (s : Treasury) (p : TxStatus → Bool) (token : Address) :
    s.sumOf p token = ((s.reservationsOf p token).map (·.amount)).sum := by
  unfold sumOf reservationsOf
  induction s.txs with
  | nil => rfl
  | cons tx txs ih =>
    rw [List.map_cons, List.sum_cons, ih, List.filter_cons]
    by_cases h : tx.reservation.tokenAddress = token ∧ p tx.status <;> simp [h]

theorem reservationsOf_nodup (h : s.Consistent) : (s.reservationsOf p token).Nodup := by
  have hids : ((s.txs.map (·.reservation)).map (·.id)).Nodup := by
    rw [List.map_map]
    exact h.ids
  exact hids.of_map.sublist (List.filter_sublist.map _)

theorem sumOf_mayLand_add (s : Treasury) (n : ℕ) (token : Address) :
    s.sumOf TxStatus.mayLand token + s.sumOf (TxStatus.landedSince n) token =
      s.sumOf (fun status => status.mayLand || status.landedSince n) token := by
  unfold sumOf
  rw [← List.sum_map_add]
  congr 1
  refine List.map_congr_left fun tx _ => ?_
  cases tx.status <;> simp [TxStatus.mayLand, TxStatus.landedSince]

/-- What backed transactions have reserved is in the sum that `reserve` takes. -/
theorem sumOf_le_total (h : s.Consistent) (hb : s.Backed config r) :
    s.sumOf TxStatus.mayLand r.token + s.sumOf (TxStatus.landedSince r.seen) r.token ≤
      (s.inner.unlockExpired config s.now).total r.token := by
  rw [sumOf_mayLand_add, sumOf_eq_sum]
  refine Fold.sum_le_sum_of_subset (reservationsOf_nodup h) ?_ ?_
  · intro x hx
    obtain ⟨tx, htx, rfl⟩ := List.mem_map.mp hx
    obtain ⟨hmem, hp⟩ := List.mem_filter.mp htx
    obtain ⟨htoken, hstatus⟩ := of_decide_eq_true hp
    refine List.mem_filter.mpr ⟨hb tx hmem htoken ?_, decide_eq_true htoken⟩
    simpa using hstatus
  · intro x hx
    exact (h.reserved x (List.mem_of_mem_filter (List.mem_of_mem_filter hx))).le

end Grant

end Treasury

/-- The step grants the reservation. -/
def Grants (config : CapitalConfig) (s : Treasury) (r : Reading) (amount : ℤ) (id : ℕ) : Prop :=
  ∃ inner, s.inner.reserve config s.now id amount (CapitalInner.available config r.token r.amount)
    r.token = .ok (.ok id, inner)

/-- **Capital is not committed twice** in any run, where a grant is backed: with all that may still land it is
within the wallet. -/
theorem grant_within_wallet {config : CapitalConfig} {wallet : Address → ℤ} {acts : List TreasuryAct}
    {s : Treasury} {strategy : Strategy} {r : Reading} {amount : ℤ} {id : ℕ}
    (hw : ∀ token, Fits (wallet token))
    (hrun : Run (treasuryStep config) (fun _ _ => True) (.start wallet) acts s)
    (hr : s.phase strategy = .holding r) (hg : Grants config s r amount id)
    (hmax : CapitalInner.available config r.token r.amount < maxVal) (hb : s.Backed config r) :
    amount + s.sumOf TxStatus.mayLand r.token ≤ s.wallet r.token := by
  have hs : s.Consistent :=
    hrun.invariant (fun s act t h _ hs => h.treasuryStep hs) (Treasury.start_consistent hw)
  have hsound : s.Sound r := hs.held strategy r (by rw [hr]; rfl)
  obtain ⟨inner, hres⟩ := hg
  obtain ⟨⟨e, he⟩, -⟩ | ⟨-, -, hle, -⟩ := reserve_cases hres
  · cases he
  · have hfit := add_le_of_saturatingAdd_le hle hmax
    have hread : CapitalInner.available config r.token r.amount ≤ r.amount := available_le hsound.fits
    have hsum := Treasury.sumOf_le_total hs hb
    have hwallet := hsound.le
    linarith

/-! ## A wallet of $100 -/

section Hundred

/-- The values of `config.example.toml`. -/
def exampleConfig : CapitalConfig where
  xlmAddress := "XLM"
  reservationTtl := 30
  balanceCacheTtl := 10
  xlmSafetyMargin := 2000000000
  margin_pos := by decide

/-- $100 of USDC. -/
def hundredDollars (token : Address) : ℤ := if token = "USDC" then 1000000000 else 0

theorem fits_hundredDollars (token : Address) : Fits (hundredDollars token) := by
  unfold hundredDollars
  split_ifs <;> decide

/-- The Liquidator commits $60. -/
def sixtyCommitted : List TreasuryAct :=
  [.tryGetBalance .liquidator "USDC", .readTokenBalance .liquidator, .cacheBalance .liquidator,
    .reserve .liquidator 600000000 1, .submit 1, .tryGetBalance .balancer "USDC"]

/-- The Balancer may commit the other $40. -/
theorem forty_within_wallet :
    ∃ s, Run (treasuryStep exampleConfig) (fun _ _ => True) (.start hundredDollars) sixtyCommitted s ∧
      (∃ r, s.phase .balancer = .holding r ∧ Grants exampleConfig s r 400000000 2) ∧
      400000000 + s.sumOf TxStatus.mayLand "USDC" ≤ s.wallet "USDC" := by
  obtain ⟨s, hrun, hphase, hgrant, hbacked⟩ : ∃ s,
      Run (treasuryStep exampleConfig) (fun _ _ => True) (.start hundredDollars) sixtyCommitted s ∧
      s.phase .balancer = .holding { token := "USDC", amount := 1000000000, seen := 0 } ∧
      Grants exampleConfig s { token := "USDC", amount := 1000000000, seen := 0 } 400000000 2 ∧
      s.Backed exampleConfig { token := "USDC", amount := 1000000000, seen := 0 } := by
    refine ⟨_, .cons trivial rfl (.cons trivial rfl (.cons trivial rfl (.cons trivial rfl
      (.cons trivial rfl (.cons trivial rfl (.nil _)))))), rfl, ⟨_, rfl⟩, ?_⟩
    intro tx htx _ _
    obtain rfl := List.mem_singleton.mp htx
    exact List.mem_singleton.mpr rfl
  exact ⟨s, hrun, ⟨_, hphase, hgrant⟩,
    grant_within_wallet fits_hundredDollars hrun hphase hgrant (by decide) hbacked⟩

/-- The Liquidator spends all of it, and its transaction is confirmed within five seconds. -/
def hundredSpent : List TreasuryAct :=
  [.tryGetBalance .liquidator "USDC", .readTokenBalance .liquidator, .cacheBalance .liquidator,
    .reserve .liquidator 1000000000 1, .submit 1, .tick 5, .settle 1 1000000000, .pollResult 1 .confirmed,
    .release 1, .tryGetBalance .balancer "USDC"]

/-- The balance is still cached: the Balancer is granted $100 of an empty wallet. -/
theorem cached_balance_is_spent_twice :
    ∃ s, Run (treasuryStep exampleConfig) (fun _ _ => True) (.start hundredDollars) hundredSpent s ∧
      (∃ r, s.phase .balancer = .holding r ∧ r.token = "USDC" ∧
        Grants exampleConfig s r 1000000000 2) ∧
      s.wallet "USDC" = 0 ∧ s.sumOf TxStatus.mayLand "USDC" = 0 := by
  refine ⟨_, .cons trivial rfl (.cons trivial rfl (.cons trivial rfl (.cons trivial rfl
    (.cons trivial rfl (.cons trivial rfl (.cons trivial rfl (.cons trivial rfl
      (.cons trivial rfl (.cons trivial rfl (.nil _)))))))))), ⟨_, rfl, rfl, _, rfl⟩, rfl, rfl⟩

end Hundred

end AlulaKeeper
