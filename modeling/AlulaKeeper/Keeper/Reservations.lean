import Mathlib
import AlulaKeeper.Lib.Steps
import AlulaKeeper.Keeper.Capital

/-!
# The reservation ledger

Any number of callers reserve and release through one lock while time passes. What a caller counts as available
differs from call to call, so no capacity is fixed: a grant bounds the token's reservations by what that caller
saw, and every bound lies under `i128::MAX`.

* `Book`, `BookAct`, `bookStep`: the ledger, its clock and the ids it has given out.
* `Book.Inv`: amounts are positive, no token's total reaches `i128::MAX`, stored ids were given out.
* `bookStep_cases`: what a step does to the ledger; `Book.Inv.step`: every step keeps the invariant.
* `reservations_sound`: what every call does in every reachable ledger.
-/

namespace AlulaKeeper

open I128 Steps

/-! ## The steps -/

/-- The ledger at a time, with the ids granted so far. -/
structure Book where
  now : ℕ
  inner : CapitalInner
  issued : List ℕ

/-- What may happen to the ledger of reservations. -/
inductive BookAct where
  | tick (seconds : ℕ)
  /-- `reserve`, with the id that `random_id` draws. -/
  | reserve (id : ℕ) (amount available : ℤ) (token : Address)
  | release (id : ℕ)
  deriving DecidableEq, Repr

/-- `LiquidatorCapital::new`. -/
def Book.start (now : ℕ) : Book where
  now
  inner := { reservations := [], balances := fun _ => none }
  issued := []

/-- One call, or the clock; a sum that overflows ends the process and has no next state. -/
def bookStep (config : CapitalConfig) (s : Book) : BookAct → Option Book
  | .tick seconds => some { s with now := s.now + seconds }
  | .release id => some { s with inner := s.inner.release id }
  | .reserve id amount available token =>
    match s.inner.reserve config s.now id amount available token with
    | .ok (.ok granted, inner) => some { s with inner, issued := granted :: s.issued }
    | .ok (.error _, inner) => some { s with inner }
    | .error _ => none

/-- Ids are fresh, and a caller counts less than `i128::MAX` as available. -/
def BookAct.Fair (s : Book) : BookAct → Prop
  | .reserve id _ available _ => id ∉ s.issued ∧ available < maxVal
  | _ => True

/-! ## Totals -/

section Totals

variable {config : CapitalConfig} {now id : ℕ} {inner : CapitalInner} {token : Address}

theorem total_filter_le {p : Reservation → Bool} (hpos : ∀ r ∈ inner.reservations, 0 < r.amount) :
    ({ inner with reservations := inner.reservations.filter p } : CapitalInner).total token ≤
      inner.total token := by
  unfold CapitalInner.total
  refine ((List.filter_sublist.filter _).map _).sum_le_sum fun v hv => ?_
  obtain ⟨r, hr, rfl⟩ := List.mem_map.mp hv
  exact (hpos r (List.mem_of_mem_filter hr)).le

theorem committed_returns_of_perm {l : List Reservation} (hpos : ∀ r ∈ inner.reservations, 0 < r.amount)
    (hbound : inner.total token ≤ maxVal)
    (hperm : l.Perm (inner.reservations.filter (·.tokenAddress = token))) :
    Returns (l.foldlM (fun sum r => (rawAdd sum r.amount : Except (Fault KeeperError) ℤ)) 0) := by
  refine Fold.returns_foldlM_rawAdd le_rfl (fun r hr => ?_) ?_
  · exact (hpos r (List.mem_of_mem_filter (hperm.mem_iff.mp hr))).le
  · rw [zero_add, (hperm.map _).sum_eq]
    exact hbound

theorem release_eq_self (h : ∀ r ∈ inner.reservations, r.id ≠ id) : inner.release id = inner := by
  have hfilter : inner.reservations.filter (·.id ≠ id) = inner.reservations :=
    List.filter_eq_self.mpr fun r hr => decide_eq_true (h r hr)
  unfold CapitalInner.release
  rw [hfilter]

/-- Releasing an id whose reservation has expired changes nothing that is live, then or later. -/
theorem release_expired {later : ℕ} (hlater : now ≤ later)
    (h : ∀ r ∈ inner.reservations, r.id = id → config.reservationTtl ≤ now - r.createdAt) :
    (inner.release id).unlockExpired config later = inner.unlockExpired config later := by
  unfold CapitalInner.release CapitalInner.unlockExpired
  simp only [List.filter_filter, CapitalInner.mk.injEq, and_true]
  refine List.filter_congr fun r hr => ?_
  by_cases hid : r.id = id
  · have hexpired := h r hr hid
    have : ¬ later - r.createdAt < config.reservationTtl := by omega
    simp [this]
  · simp [hid]

end Totals

/-! ## The invariant -/

/-- Amounts are positive, no token's total reaches `i128::MAX`, and stored ids were given out. -/
structure Book.Inv (s : Book) : Prop where
  pos : ∀ r ∈ s.inner.reservations, 0 < r.amount
  bound : ∀ token, s.inner.total token < maxVal
  issued : ∀ r ∈ s.inner.reservations, r.id ∈ s.issued

section Invariant

variable {config : CapitalConfig} {s t : Book} {token : Address} {id granted : ℕ} {amount available : ℤ}
  {inner' : CapitalInner}

theorem Book.Inv.start (now : ℕ) : (Book.start now).Inv where
  pos _ hr := absurd hr List.not_mem_nil
  bound _ := show (0 : ℤ) < maxVal by decide
  issued _ hr := absurd hr List.not_mem_nil

theorem Book.Inv.filter (h : s.Inv) (now : ℕ) (p : Reservation → Bool) :
    Book.Inv { now, issued := s.issued,
               inner := { s.inner with reservations := s.inner.reservations.filter p } } where
  pos r hr := h.pos r (List.mem_of_mem_filter hr)
  bound token := (total_filter_le h.pos).trans_lt (h.bound token)
  issued r hr := h.issued r (List.mem_of_mem_filter hr)

/-- **The summation never overflows**, so every call of `reserve` comes back. -/
theorem Book.Inv.reserve_returns (h : s.Inv) (config : CapitalConfig) (id : ℕ) (amount available : ℤ)
    (token : Address) : Returns (s.inner.reserve config s.now id amount available token) := by
  have hlive := h.filter s.now fun r => s.now - r.createdAt < config.reservationTtl
  have hcommitted : Returns ((s.inner.unlockExpired config s.now).committed token) :=
    committed_returns_of_perm hlive.pos (hlive.bound token).le (List.Perm.refl _)
  unfold CapitalInner.reserve
  split_ifs
  · refine hcommitted.bind fun committed _ => ?_
    split_ifs <;> exact ⟨_, rfl⟩
  · exact ⟨_, rfl⟩

theorem Book.Inv.reserve_granted (h : s.Inv) (hfresh : id ∉ s.issued)
    (hr : s.inner.reserve config s.now id amount available token = .ok (.ok granted, inner')) :
    granted = id ∧ 0 < amount ∧
      saturatingAdd ((s.inner.unlockExpired config s.now).total token) amount ≤ available ∧
      inner' = { s.inner.unlockExpired config s.now with reservations :=
        { id, amount, createdAt := s.now, tokenAddress := token } ::
          (s.inner.unlockExpired config s.now).reservations } := by
  obtain ⟨⟨e, he⟩, -⟩ | ⟨hid, hamount, hle, rfl⟩ := reserve_cases hr
  · cases he
  have hkept : (s.inner.unlockExpired config s.now).reservations.filter (·.id ≠ id) =
      (s.inner.unlockExpired config s.now).reservations := by
    refine List.filter_eq_self.mpr fun r hmem => decide_eq_true fun hid => hfresh ?_
    rw [← hid]
    exact h.issued r (List.mem_of_mem_filter hmem)
  rw [hkept]
  exact ⟨Except.ok.inj hid, hamount, hle, rfl⟩

theorem total_cons (inner : CapitalInner) (r : Reservation) (token : Address) :
    ({ inner with reservations := r :: inner.reservations } : CapitalInner).total token =
      (if r.tokenAddress = token then r.amount else 0) + inner.total token := by
  unfold CapitalInner.total
  by_cases htoken : r.tokenAddress = token
  · simp [htoken]
  · simp [htoken]

/-- **What a step does.** It drops reservations, or it grants one over what is live. -/
theorem bookStep_cases (h : s.Inv) {a : BookAct} (hfair : a.Fair s) (hs : bookStep config s a = some t) :
    (∃ now p, t = { now, issued := s.issued,
                    inner := { s.inner with reservations := s.inner.reservations.filter p } }) ∨
      ∃ id amount available token, id ∉ s.issued ∧ available < maxVal ∧ 0 < amount ∧
        saturatingAdd ((s.inner.unlockExpired config s.now).total token) amount ≤ available ∧
        t = { s with
          issued := id :: s.issued
          inner := { s.inner.unlockExpired config s.now with reservations :=
            { id, amount, createdAt := s.now, tokenAddress := token } ::
              (s.inner.unlockExpired config s.now).reservations } } := by
  cases a with
  | tick seconds =>
    obtain rfl := Option.some.inj hs
    exact .inl ⟨s.now + seconds, fun _ => true, by rw [List.filter_true]⟩
  | release id =>
    obtain rfl := Option.some.inj hs
    exact .inl ⟨s.now, _, rfl⟩
  | reserve id amount available token =>
    obtain ⟨hfresh, havailable⟩ := hfair
    obtain ⟨⟨answer, inner'⟩, hr⟩ := h.reserve_returns config id amount available token
    simp only [bookStep, hr] at hs
    cases answer with
    | error e =>
      obtain rfl := Option.some.inj hs
      obtain ⟨-, rfl | rfl⟩ | ⟨hbad, -⟩ := reserve_cases hr
      · exact .inl ⟨s.now, fun _ => true, by rw [List.filter_true]⟩
      · exact .inl ⟨s.now, _, rfl⟩
      · cases hbad
    | ok granted =>
      obtain rfl := Option.some.inj hs
      obtain ⟨rfl, hamount, hle, rfl⟩ := h.reserve_granted hfresh hr
      exact .inr ⟨_, _, _, _, hfresh, havailable, hamount, hle, rfl⟩

theorem Book.Inv.step (h : s.Inv) {a : BookAct} (hfair : a.Fair s) (hs : bookStep config s a = some t) :
    t.Inv := by
  obtain ⟨now, p, rfl⟩ | ⟨id, amount, available, token, -, havailable, hamount, hle, rfl⟩ :=
    bookStep_cases h hfair hs
  · exact h.filter now p
  have hlive := h.filter s.now fun r => s.now - r.createdAt < config.reservationTtl
  refine ⟨fun r hr => ?_, fun other => ?_, fun r hr => ?_⟩
  · obtain rfl | hr := List.mem_cons.mp hr
    · exact hamount
    · exact hlive.pos r hr
  · rw [total_cons]
    dsimp only
    split_ifs with htoken
    · subst htoken
      have := add_le_of_saturatingAdd_le hle havailable
      omega
    · rw [zero_add]
      exact hlive.bound other
  · obtain rfl | hr := List.mem_cons.mp hr
    · exact List.mem_cons_self
    · exact List.mem_cons_of_mem _ (hlive.issued r hr)

theorem Book.Inv.of_run {now : ℕ} {acts : List BookAct}
    (hrun : Run (bookStep config) (fun s a => a.Fair s) (Book.start now) acts s) : s.Inv :=
  hrun.invariant (fun _ _ _ h hfair hs => h.step hfair hs) (Book.Inv.start now)

/-- An id that was given out and is not stored stays so: no later grant has it. -/
theorem Book.gone_step {a : BookAct} (hinv : s.Inv) (hissued : id ∈ s.issued)
    (hgone : ∀ r ∈ s.inner.reservations, r.id ≠ id) (hfair : a.Fair s)
    (hs : bookStep config s a = some t) : id ∈ t.issued ∧ ∀ r ∈ t.inner.reservations, r.id ≠ id := by
  obtain ⟨now, p, rfl⟩ | ⟨other, amount, available, token, hfresh, -, -, -, rfl⟩ := bookStep_cases hinv hfair hs
  · exact ⟨hissued, fun r hr => hgone r (List.mem_of_mem_filter hr)⟩
  · refine ⟨List.mem_cons_of_mem _ hissued, fun r hr => ?_⟩
    obtain rfl | hr := List.mem_cons.mp hr
    · rintro rfl
      exact hfresh hissued
    · exact hgone r (List.mem_of_mem_filter hr)

end Invariant

/-! ## Every call in every reachable ledger -/

/-- What the calls do to a ledger. -/
structure Book.Sound (config : CapitalConfig) (s : Book) : Prop where
  /-- `reserve` does not abort, in whatever order the map yields the reservations it sums. -/
  summation : ∀ (token : Address) (l : List Reservation),
    l.Perm ((s.inner.unlockExpired config s.now).reservations.filter (·.tokenAddress = token)) →
    Returns (l.foldlM (fun sum r => (rawAdd sum r.amount : Except (Fault KeeperError) ℤ)) 0)
  returns : ∀ id amount available token,
    Returns (s.inner.reserve config s.now id amount available token)
  /-- A grant keeps the token within what the caller counted, and leaves the other tokens' live
  reservations. -/
  granted : ∀ id amount available token granted inner', id ∉ s.issued → available < maxVal →
    s.inner.reserve config s.now id amount available token = .ok (.ok granted, inner') →
    inner'.total token ≤ available ∧
      (∀ later, (inner'.unlockExpired config later).total token ≤ available) ∧
      (∀ r ∈ inner'.reservations, 0 < r.amount) ∧
      ∀ other, other ≠ token → inner'.reservations.filter (·.tokenAddress = other) =
        (s.inner.unlockExpired config s.now).reservations.filter (·.tokenAddress = other)
  /-- A refusal drops expired reservations at most. -/
  refused : ∀ id amount available token e inner',
    s.inner.reserve config s.now id amount available token = .ok (.error e, inner') →
    inner' = s.inner ∨ inner' = s.inner.unlockExpired config s.now
  /-- Releasing an id that is not stored, or was never given out. -/
  unknown : ∀ id, (id ∉ s.issued ∨ ∀ r ∈ s.inner.reservations, r.id ≠ id) → s.inner.release id = s.inner
  /-- Releasing an id whose reservation has expired. -/
  expired : ∀ id, (∀ r ∈ s.inner.reservations, r.id = id → config.reservationTtl ≤ s.now - r.createdAt) →
    ∀ later, s.now ≤ later →
      (s.inner.release id).unlockExpired config later = s.inner.unlockExpired config later

theorem Book.Inv.sound {s : Book} (h : s.Inv) (config : CapitalConfig) : s.Sound config where
  summation token l hperm := by
    have hlive := h.filter s.now fun r => s.now - r.createdAt < config.reservationTtl
    exact committed_returns_of_perm hlive.pos (hlive.bound token).le hperm
  returns id amount available token := h.reserve_returns config id amount available token
  granted id amount available token granted inner' hfresh havailable hr := by
    have hstep : bookStep config s (.reserve id amount available token) =
        some { s with inner := inner', issued := granted :: s.issued } := by
      simp only [bookStep, hr]
    have hfair : (BookAct.reserve id amount available token).Fair s := ⟨hfresh, havailable⟩
    have hpos := (h.step hfair hstep).pos
    obtain ⟨-, -, hle, rfl⟩ := h.reserve_granted hfresh hr
    have htotal := add_le_of_saturatingAdd_le hle havailable
    refine ⟨?_, fun later => (total_filter_le hpos).trans ?_, hpos, fun other hne => ?_⟩
    · rwa [total_cons, if_pos rfl, add_comm]
    · rwa [total_cons, if_pos rfl, add_comm]
    · rw [List.filter_cons_of_neg (by simpa using hne.symm)]
  refused id amount available token e inner' hr := by
    obtain ⟨-, hkept⟩ | ⟨hbad, -⟩ := reserve_cases hr
    · exact hkept
    · cases hbad
  unknown id hid := by
    refine release_eq_self fun r hr => ?_
    rcases hid with hid | hid
    · rintro rfl
      exact hid (h.issued r hr)
    · exact hid r hr
  expired id hexpired later hlater := release_expired hlater hexpired

/-- **The reservation ledger is sound under any interleaving.** In every ledger that reservations with fresh
ids, releases and time lead to, each call does what `Book.Sound` says; and an id that was given out and
released stays released, whatever follows. -/
theorem reservations_sound {config : CapitalConfig} {now : ℕ} {acts : List BookAct} {s : Book}
    (hrun : Run (bookStep config) (fun s a => a.Fair s) (Book.start now) acts s) :
    s.Sound config ∧ ∀ id after u, id ∈ s.issued →
      Run (bookStep config) (fun s a => a.Fair s) s (.release id :: after) u → u.inner.release id = u.inner := by
  have hinv := Book.Inv.of_run hrun
  refine ⟨hinv.sound config, fun id after u hissued hafter => release_eq_self ?_⟩
  obtain - | ⟨hfair, hs, hafter⟩ := hafter
  have hinv' := hinv.step hfair hs
  obtain rfl := Option.some.inj hs
  have hdropped : ∀ r ∈ (s.inner.release id).reservations, r.id ≠ id := fun r hr => by
    simpa using (List.mem_filter.mp hr).2
  have hgone := hafter.invariant (I := fun s => s.Inv ∧ id ∈ s.issued ∧ ∀ r ∈ s.inner.reservations, r.id ≠ id)
    (fun s a t h hfair hs => ⟨h.1.step hfair hs, Book.gone_step h.1 h.2.1 h.2.2 hfair hs⟩)
    ⟨hinv', hissued, hdropped⟩
  exact hgone.2.2

/-- A minute to live. -/
def minuteCapital : CapitalConfig where
  xlmAddress := "XLM"
  reservationTtl := 60
  balanceCacheTtl := 10
  xlmSafetyMargin := 1
  margin_pos := le_rfl

/-- Two strategies reserve USDC and GOLD, the second sees less than is committed and is refused, a minute
passes: the ledger left still sums and grants. -/
theorem reservations_sound_minute :
    ∃ s, Run (bookStep minuteCapital) (fun s a => a.Fair s) (Book.start 0)
        [.reserve 1 100 150 "USDC", .reserve 2 70 90 "GOLD", .reserve 3 10 80 "USDC", .tick 60] s ∧
      s.inner.reservations.map (·.id) = [2, 1] ∧ s.Sound minuteCapital := by
  have hrun : ∃ s, Run (bookStep minuteCapital) (fun s a => a.Fair s) (Book.start 0)
      [.reserve 1 100 150 "USDC", .reserve 2 70 90 "GOLD", .reserve 3 10 80 "USDC", .tick 60] s ∧
        s.inner.reservations.map (·.id) = [2, 1] :=
    ⟨_, .cons ⟨by decide, by decide⟩ rfl (.cons ⟨by decide, by decide⟩ rfl
      (.cons ⟨by decide, by decide⟩ rfl (.cons trivial rfl (.nil _)))), rfl⟩
  obtain ⟨s, hrun, hids⟩ := hrun
  exact ⟨s, hrun, hids, (reservations_sound hrun).1⟩

end AlulaKeeper
