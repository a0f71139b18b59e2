import Mathlib
import AlulaKeeper.Lib.I128
import AlulaKeeper.Lib.Fold
import AlulaKeeper.Lending.Pool

/-!
# In-flight capital

`LiquidatorCapital` of `liquidator_capital.rs`: the reservations that the strategies share and the cache of
wallet balances. Times are seconds.

* `CapitalInner.reserve`, `release`, `unlockExpired`: the reservations.
* `CapitalInner.getFreshlyCachedBalance`, `cacheBalance`: the two ends of `try_get_balance`, which awaits the
  chain between them.
* `reserve_cases`: what `reserve` can do.
-/

namespace AlulaKeeper

open I128

/-- `KeeperError`. -/
inductive KeeperError where
  | internalError
  | notEnoughAvailableBalance
  deriving DecidableEq, Repr

/-- A reservation and the id it is stored under. -/
structure Reservation where
  id : ℕ
  amount : ℤ
  createdAt : ℕ
  tokenAddress : Address
  deriving DecidableEq, Repr

/-- `CachedBalance`. -/
structure CachedBalance where
  amount : ℤ
  fetchedAt : ℕ
  deriving DecidableEq, Repr

/-- `LiquidatorCapitalConfig`, with the margin of the two strategies' configs. -/
structure CapitalConfig where
  xlmAddress : Address
  reservationTtl : ℕ
  balanceCacheTtl : ℕ
  xlmSafetyMargin : ℤ
  margin_pos : 1 ≤ xlmSafetyMargin

/-- What the tracker's lock guards. -/
structure CapitalInner where
  reservations : List Reservation
  balances : Address → Option CachedBalance

namespace CapitalInner

variable (config : CapitalConfig) (now : ℕ) (inner : CapitalInner)

/-- `unlock_expired`. -/
def unlockExpired : CapitalInner :=
  { inner with reservations :=
      inner.reservations.filter fun r => now - r.createdAt < config.reservationTtl }

/-- The sum of a token's reservations; it aborts on overflow. -/
def committed (tokenAddress : Address) : Except (Fault KeeperError) ℤ :=
  (inner.reservations.filter (·.tokenAddress = tokenAddress)).foldlM
    (fun sum r => rawAdd sum r.amount) 0

/-- `reserve`, with the id that `random_id` gives; the state is the one left behind, also by a refusal. -/
def reserve (id : ℕ) (amount available : ℤ) (tokenAddress : Address) :
    Except (Fault KeeperError) (Except KeeperError ℕ × CapitalInner) := do
  if ¬ 0 < amount then
    return (.error .internalError, inner)
  let inner := inner.unlockExpired config now
  let committed ← inner.committed tokenAddress
  if saturatingAdd committed amount > available then
    return (.error .notEnoughAvailableBalance, inner)
  return (.ok id, { inner with reservations :=
    { id, amount, createdAt := now, tokenAddress } :: inner.reservations.filter (·.id ≠ id) })

/-- `release`. -/
def release (id : ℕ) : CapitalInner :=
  { inner with reservations := inner.reservations.filter (·.id ≠ id) }

/-- `get_freshly_cached_balance`. -/
def getFreshlyCachedBalance (tokenAddress : Address) : Option ℤ :=
  ((inner.balances tokenAddress).filter fun c => now - c.fetchedAt < config.balanceCacheTtl).map (·.amount)

/-- The end of `try_get_balance`, once the chain has answered. -/
def cacheBalance (tokenAddress : Address) (amount : ℤ) : CapitalInner :=
  { inner with balances :=
      Function.update inner.balances tokenAddress (some { amount, fetchedAt := now }) }

/-- What the strategies pass to `reserve` for a balance they read. -/
def available (tokenAddress : Address) (rawBalance : ℤ) : ℤ :=
  if tokenAddress = config.xlmAddress then saturatingSub rawBalance config.xlmSafetyMargin
  else rawBalance

end CapitalInner

/-! ## What `reserve` can do -/

section Reserve

variable {config : CapitalConfig} {now id : ℕ} {inner inner' : CapitalInner} {token : Address}
  {amount available v : ℤ}

theorem available_le (h : Fits v) : CapitalInner.available config token v ≤ v := by
  have hm := config.margin_pos
  unfold CapitalInner.available saturatingSub
  split_ifs
  · unfold clamp
    have := h.1
    omega
  · exact le_refl v

/-- The sum of a token's reservations, exactly. -/
def CapitalInner.total (inner : CapitalInner) (token : Address) : ℤ :=
  ((inner.reservations.filter (·.tokenAddress = token)).map (·.amount)).sum

theorem committed_eq_ok (h : inner.committed token = .ok v) : v = inner.total token := by
  rw [Fold.foldlM_rawAdd h, zero_add]
  rfl

theorem add_le_of_saturatingAdd_le {a b : ℤ} (h : saturatingAdd a b ≤ available)
    (hmax : available < maxVal) : a + b ≤ available := by
  unfold saturatingAdd clamp at h
  omega

/-- What `reserve` can do: refuse, after the expired reservations are dropped unless the amount is not
positive, or grant what keeps the live reservations of the token within `available`. -/
theorem reserve_cases {r : Except KeeperError ℕ}
    (h : inner.reserve config now id amount available token = .ok (r, inner')) :
    ((∃ e, r = .error e) ∧ (inner' = inner ∨ inner' = inner.unlockExpired config now)) ∨
      r = .ok id ∧ 0 < amount ∧
        saturatingAdd ((inner.unlockExpired config now).total token) amount ≤ available ∧
        inner' = { inner.unlockExpired config now with reservations :=
          { id, amount, createdAt := now, tokenAddress := token } ::
            (inner.unlockExpired config now).reservations.filter (·.id ≠ id) } := by
  unfold CapitalInner.reserve at h
  by_cases hpos : 0 < amount
  · rw [if_neg (not_not.mpr hpos)] at h
    obtain ⟨v, hv, h⟩ := bind_eq_ok.mp h
    obtain rfl := committed_eq_ok hv
    by_cases hle : saturatingAdd ((inner.unlockExpired config now).total token) amount > available
    · rw [if_pos hle] at h
      cases h
      exact .inl ⟨⟨_, rfl⟩, .inr rfl⟩
    · rw [if_neg hle] at h
      cases h
      exact .inr ⟨rfl, hpos, not_lt.mp hle, rfl⟩
  · rw [if_pos hpos] at h
    cases h
    exact .inl ⟨⟨_, rfl⟩, .inl rfl⟩

theorem reserve_balances {r : Except KeeperError ℕ}
    (h : inner.reserve config now id amount available token = .ok (r, inner')) :
    inner'.balances = inner.balances := by
  obtain ⟨-, rfl | rfl⟩ | ⟨-, -, -, rfl⟩ := reserve_cases h <;> rfl

theorem reserve_pos {r : Except KeeperError ℕ}
    (h : inner.reserve config now id amount available token = .ok (r, inner'))
    (hpos : ∀ x ∈ inner.reservations, 0 < x.amount) : ∀ x ∈ inner'.reservations, 0 < x.amount := by
  obtain ⟨-, rfl | rfl⟩ | ⟨-, hamount, -, rfl⟩ := reserve_cases h
  · exact hpos
  · exact fun x hx => hpos x (List.mem_of_mem_filter hx)
  · intro x hx
    obtain rfl | hx := List.mem_cons.mp hx
    · exact hamount
    · exact hpos x (List.mem_of_mem_filter (List.mem_of_mem_filter hx))

end Reserve

end AlulaKeeper
