import Mathlib
import AlulaKeeper.Keeper.Dispatch
import AlulaKeeper.Keeper.Rebalance

/-!
# What is reserved is in flight

The Liquidator and the Balancer reserve from one ledger, each one event at a time and the two side by side. What
they hand out at the end of an event is in flight until its settle hook has run.

* `strategiesStep`: a step of either strategy, a settle hook, or the clock.
* `scanNext_minds`, `passNext_minds`: what a strategy's step does to the reservations of the others.
* `reserved_is_in_flight`: every reservation is held for an action in flight or about to be handed out.
-/

namespace AlulaKeeper

open I128 Steps

/-! ## The strategies side by side -/

/-- Both strategies on one book. -/
structure Strategies where
  book : Book
  /-- The Liquidator's scan, while it handles a ledger. -/
  scan : Option (Liquidator × Scan)
  /-- The Balancer's pass, while it handles an event. -/
  pass : Option (Balancer × Rebalance × Pass)
  /-- What is reserved for the actions that are handed out and not settled, and their ids. -/
  flight : List ((Address × ℤ) × ℕ)

/-- What the strategies, the settle hooks and the clock may do next. -/
inductive StrategiesAct where
  | scan (lq : Liquidator)
  | scanCall (call : ScanCall)
  /-- The scan's actions are handed out. -/
  | scanned
  | rebalance (b : Balancer) (assetIndex : Address → Option AssetInfo) (keys : List Address) (data : MarketData)
  | passCall (call : PassCall)
  /-- The pass's actions are handed out. -/
  | rebalanced
  /-- `on_settle` of an action. -/
  | settle (opId : ℕ)
  | tick (seconds : ℕ)

/-- A call of the scan's own. -/
def ScanCall.IsOwn : ScanCall → Bool
  | .others _ => false
  | _ => true

/-- A call of the pass's own. -/
def PassCall.IsOwn : PassCall → Bool
  | .others _ => false
  | _ => true

/-- `LiquidatorCapital::new` beside two idle strategies. -/
def Strategies.start (now : ℕ) : Strategies where
  book := Book.start now
  scan := none
  pass := none
  flight := []

/-- One step; `none` where it is not enabled or panics. -/
def strategiesStep (s : Strategies) : StrategiesAct → Option Strategies
  | .scan lq =>
    match s.scan with
    | none => some { s with scan := some (lq, Scan.start lq s.book) }
    | some _ => none
  | .scanCall call =>
    match s.scan with
    | some (lq, scan) =>
      if call.IsOwn then
        (scanNext lq { scan with book := s.book } call).map fun scan =>
          { s with book := scan.book, scan := some (lq, scan) }
      else none
    | none => none
  | .scanned =>
    match s.scan with
    | some (_, scan) =>
      match scan.point with
      | .markets [] => some { s with scan := none, flight := s.flight ++ scan.holders }
      | _ => none
    | none => none
  | .rebalance b assetIndex keys data =>
    match s.pass with
    | none => (b.findRebalanceActions assetIndex keys data s.book).map fun (m, pass) =>
        { s with pass := some (b, m, pass) }
    | some _ => none
  | .passCall call =>
    match s.pass with
    | some (b, m, pass) =>
      if call.IsOwn then
        (passNext b m { pass with book := s.book } call).map fun pass =>
          { s with book := pass.book, pass := some (b, m, pass) }
      else none
    | none => none
  | .rebalanced =>
    match s.pass with
    | some (_, _, pass) =>
      match pass.point with
      | .candidates [] => some { s with pass := none, flight := s.flight ++ pass.holders }
      | _ => none
    | none => none
  | .settle opId =>
    if opId ∈ s.flight.map Prod.snd then
      some { s with
        book := { s.book with inner := s.book.inner.release opId }
        flight := s.flight.filter (·.2 ≠ opId) }
    else none
  | .tick seconds => some { s with book := { s.book with now := s.book.now + seconds } }

/-- The strategies share one ledger, and its ids are fresh. -/
def StrategiesAct.Fair (config : CapitalConfig) (s : Strategies) : StrategiesAct → Prop
  | .scan lq => lq.capital = config
  | .rebalance b _ _ _ => b.capital = config
  | .scanCall (.drawId id) | .passCall (.swap _ id) => id ∉ s.book.issued
  | _ => True

/-- What is held: in flight, for the scan and for the pass. -/
def Strategies.holders (s : Strategies) : List ((Address × ℤ) × ℕ) :=
  s.flight ++ (s.scan.elim [] fun scan => scan.2.holders) ++ s.pass.elim [] fun pass => pass.2.2.holders

/-! ## What a strategy leaves alone -/

section Minding

variable {lq : Liquidator} {b : Balancer} {m : Rebalance} {started : ℕ} {keys : List Address}

/-- **A scan minds its own reservations.** -/
theorem scanNext_minds {s t : Scan} {call : ScanCall} (h : s.Held lq started) (hown : call.IsOwn)
    (hfair : call.Fair s) (hs : scanNext lq s call = some t) :
    Minds lq.capital.reservationTtl s.own t.own s.book t.book := by
  have hledger : Ledger lq.capital.reservationTtl started s.book s.own s.holders := h
  cases call with
  | drawId id =>
    simp only [scanNext] at hs
    split at hs
    · split at hs
      · rename_i opId inner hreserved
        cases hs
        obtain ⟨rfl, hminds⟩ := minds_granted s.own hledger.stored hfair hreserved
        exact hminds
      · rename_i inner hrefused
        cases hs
        exact minds_refused s.own hrefused
      · cases hs
    · cases hs
      exact minds_mint _ _ hfair
    · cases hs
  | build =>
    simp only [scanNext] at hs
    split at hs
    swap
    · cases hs
    rename_i job plan requests opId hpoint
    split at hs <;> cases hs
    · exact minds_balances _ _ _ s.book.inner.balances
    · have hdrawn : opId ∈ s.own := by
        refine hledger.drawn (plan.reservation, opId) (List.mem_append_right _ ?_)
        rw [hpoint]
        exact List.mem_singleton_self _
      exact minds_release _ hdrawn (List.Subset.refl _) fun _ hid _ => hid
  | others act => cases hown
  | evaluate | judge | plan | select | simulate | lookUp | readBalance | replan =>
    obtain ⟨⟨balances, hbook⟩, howns, -⟩ := scanNext_still (by simp) (by simp) (by simp) hs
    rw [hbook, howns]
    exact minds_balances _ _ _ balances

/-- **A pass minds its own reservations.** -/
theorem passNext_minds {s t : Pass} {call : PassCall} (h : s.Held b started) (hown : call.IsOwn)
    (hfair : call.Fair s) (hs : passNext b m s call = some t) :
    Minds b.capital.reservationTtl s.own t.own s.book t.book := by
  have hledger : Ledger b.capital.reservationTtl started s.book s.own s.holders := h
  have hstay := minds_balances b.capital.reservationTtl s.own s.book
  cases call with
  | next | lookUp | readBalance =>
    simp only [passNext] at hs
    repeat' split at hs
    all_goals cases hs
    all_goals exact hstay _
  | swap quotes id =>
    simp only [passNext] at hs
    split at hs
    swap
    · cases hs
    split at hs
    · cases hs
    · cases hs
      exact hstay _
    · cases hs
      exact hstay _
    rename_i swap hchosen
    obtain ⟨rfl, -⟩ := chooseSwap_spec hchosen
    split at hs
    · cases hs
      exact hstay _
    split at hs
    · rename_i opId inner hreserved
      cases hs
      obtain ⟨hid, hminds⟩ := minds_granted s.own hledger.stored hfair hreserved
      cases hid
      exact hminds
    · rename_i inner hrefused
      cases hs
      exact minds_refused s.own hrefused
    · cases hs
  | others act => cases hown

theorem Scan.Held.beside {s : Scan} {book : Book} (h : s.Held lq started) (hinv : s.Inv lq started)
    (hbook : Spares lq.capital.reservationTtl s.own s.book book) :
    { s with book }.Inv lq started ∧ { s with book }.Held lq started :=
  ⟨hinv.goto hbook.clock (List.Sublist.refl _) hinv.point, Ledger.spared h hbook⟩

end Minding

/-! ## The invariant -/

/-- Where a reservation may be held. -/
inductive Role where
  | scan
  | pass
  | flight
  deriving DecidableEq

/-- The two strategies and what is in flight, as tasks of the ledger. -/
def Strategies.parties (s : Strategies) : Role → Party
  | .scan => s.scan.elim ⟨[], []⟩ fun scan => ⟨scan.2.own, scan.2.holders⟩
  | .pass => s.pass.elim ⟨[], []⟩ fun pass => ⟨pass.2.2.own, pass.2.2.holders⟩
  | .flight => ⟨s.flight.map Prod.snd, s.flight⟩

/-- Each strategy keeps its own, and what is in flight is reserved. -/
structure Strategies.Inv (config : CapitalConfig) (s : Strategies) : Prop where
  shared : Shared config.reservationTtl s.book s.parties
  scan : ∀ lq scan, s.scan = some (lq, scan) → lq.capital = config ∧
    ∃ started, ({ scan with book := s.book } : Scan).Inv lq started ∧
      ({ scan with book := s.book } : Scan).Held lq started
  pass : ∀ b m pass, s.pass = some (b, m, pass) → b.capital = config ∧
    ∃ started, ({ pass with book := s.book } : Pass).Held b started

section Invariant

variable {config : CapitalConfig} {s t : Strategies}

theorem Strategies.Inv.start (config : CapitalConfig) (now : ℕ) : (Strategies.start now).Inv config where
  shared := by
    refine ⟨fun i => ?_, fun i j _ id hid => ?_, fun r hr => absurd hr List.not_mem_nil, List.nodup_nil⟩
    · cases i <;>
        exact ⟨fun r hr => absurd hr List.not_mem_nil, by simp [parties, Strategies.start], Nat.zero_le _,
          by simp [parties, Strategies.start], by simp [parties, Strategies.start],
          by simp [parties, Strategies.start], fun r hr => absurd hr List.not_mem_nil⟩
    · cases i <;> simp [parties, Strategies.start] at hid
  scan _ _ h := by cases h
  pass _ _ _ h := by cases h

theorem parties_scan {lq : Liquidator} {scan : Scan} (h : s.scan = some (lq, scan)) :
    s.parties .scan = ⟨scan.own, scan.holders⟩ := by
  simp [Strategies.parties, h]

theorem parties_pass {b : Balancer} {m : Rebalance} {pass : Pass} (h : s.pass = some (b, m, pass)) :
    s.parties .pass = ⟨pass.own, pass.holders⟩ := by
  simp [Strategies.parties, h]

theorem Strategies.Inv.stored (h : s.Inv config) : ∀ r ∈ s.book.inner.reservations, r.id ∈ s.book.issued :=
  (h.shared.ledger .flight).stored

theorem Strategies.Inv.step_scan {lq : Liquidator} (h : s.Inv config) (hcapital : lq.capital = config)
    (hs : strategiesStep s (.scan lq) = some t) : t.Inv config := by
  simp only [strategiesStep] at hs
  split at hs
  swap
  · cases hs
  rename_i hidle
  cases hs
  refine ⟨?_, ?_, h.pass⟩
  · refine h.shared.congr fun role => ?_
    cases role <;> simp [Strategies.parties, hidle, Scan.start, Scan.holders, ScanPoint.holder]
  · rintro lq' scan hscan
    cases hscan
    exact ⟨hcapital, s.book.now, .start lq s.book, .of_run h.stored (.nil _)⟩

theorem Strategies.Inv.step_scanCall {call : ScanCall} (h : s.Inv config)
    (hfair : (StrategiesAct.scanCall call).Fair config s) (hs : strategiesStep s (.scanCall call) = some t) :
    t.Inv config := by
  simp only [strategiesStep] at hs
  split at hs
  swap
  · cases hs
  rename_i lq scan hscan
  split_ifs at hs with hown
  obtain ⟨next, hnext, rfl⟩ := Option.map_eq_some_iff.mp hs
  obtain ⟨rfl, started, hinv, hheld⟩ := h.scan lq scan hscan
  have hcall : call.Fair { scan with book := s.book } := by
    cases call with
    | drawId id => exact hfair
    | others act => cases hown
    | _ => trivial
  have hminds := scanNext_minds hheld hown hcall hnext
  have hheld' := scanNext_held hheld hinv hcall hnext
  have hparty := parties_scan hscan
  refine ⟨h.shared.move (i := .scan) (hparty ▸ hminds) (Ledger.since hheld') fun role hrole => ?_, ?_, ?_⟩
  · cases role with
    | scan => exact absurd rfl hrole
    | pass | flight => rfl
  · rintro lq' scan' hscan'
    cases hscan'
    exact ⟨rfl, started, scanNext_inv hinv hnext, hheld'⟩
  · rintro b m pass hpass
    obtain ⟨hcapital, started', hpassHeld⟩ := h.pass b m pass hpass
    refine ⟨hcapital, started', Ledger.spared hpassHeld ?_⟩
    have hpass : s.pass = some (b, m, pass) := hpass
    have hother := congrArg Party.own (parties_pass hpass)
    rw [hcapital]
    exact h.shared.beside (congrArg Party.own hparty) hother (by decide) hminds

theorem Strategies.Inv.step_scanned (h : s.Inv config) (hs : strategiesStep s .scanned = some t) :
    t.Inv config := by
  simp only [strategiesStep] at hs
  split at hs
  swap
  · cases hs
  rename_i lq scan hscan
  split at hs <;> cases hs
  have hparty := parties_scan hscan
  refine ⟨h.shared.handOver (i := .scan) (j := .flight) (by decide) rfl ?_ fun role hscanned hflight => ?_, ?_,
    h.pass⟩
  · rw [hparty]
    simp [Strategies.parties]
  · cases role with
    | scan => exact absurd rfl hscanned
    | flight => exact absurd rfl hflight
    | pass => rfl
  · rintro _ _ hidle
    cases hidle

theorem Strategies.Inv.step_rebalance {b : Balancer} {assetIndex : Address → Option AssetInfo}
    {keys : List Address} {data : MarketData} (h : s.Inv config) (hcapital : b.capital = config)
    (hs : strategiesStep s (.rebalance b assetIndex keys data) = some t) : t.Inv config := by
  simp only [strategiesStep] at hs
  split at hs
  swap
  · cases hs
  rename_i hidle
  obtain ⟨⟨m, pass⟩, hstart, rfl⟩ := Option.map_eq_some_iff.mp hs
  have hheld := Pass.Held.of_run h.stored hstart (.nil _)
  obtain ⟨-, rfl⟩ := findRebalanceActions_start hstart
  refine ⟨?_, h.scan, ?_⟩
  · refine h.shared.congr fun role => ?_
    cases role <;> simp [Strategies.parties, hidle, Pass.start, Pass.holders]
  · rintro b' m' pass' hpass
    cases hpass
    exact ⟨hcapital, s.book.now, hheld⟩

theorem Strategies.Inv.step_passCall {call : PassCall} (h : s.Inv config)
    (hfair : (StrategiesAct.passCall call).Fair config s) (hs : strategiesStep s (.passCall call) = some t) :
    t.Inv config := by
  simp only [strategiesStep] at hs
  split at hs
  swap
  · cases hs
  rename_i b m pass hpass
  split_ifs at hs with hown
  obtain ⟨next, hnext, rfl⟩ := Option.map_eq_some_iff.mp hs
  obtain ⟨rfl, started, hheld⟩ := h.pass b m pass hpass
  have hcall : call.Fair { pass with book := s.book } := by
    cases call with
    | swap quotes id => exact hfair
    | others act => cases hown
    | _ => trivial
  have hminds := passNext_minds hheld hown hcall hnext
  have hheld' := passNext_held hheld hcall hnext
  have hparty := parties_pass hpass
  refine ⟨h.shared.move (i := .pass) (hparty ▸ hminds) (Ledger.since hheld') fun role hrole => ?_, ?_, ?_⟩
  · cases role with
    | pass => exact absurd rfl hrole
    | scan | flight => rfl
  · rintro lq scan hscan
    have hscan : s.scan = some (lq, scan) := hscan
    obtain ⟨hcapital, started', hinv, hscanHeld⟩ := h.scan lq scan hscan
    refine ⟨hcapital, started', hscanHeld.beside hinv ?_⟩
    have hother := congrArg Party.own (parties_scan hscan)
    rw [hcapital]
    exact h.shared.beside (congrArg Party.own hparty) hother (by decide) hminds
  · rintro b' m' pass' hpass'
    cases hpass'
    exact ⟨rfl, started, hheld'⟩

theorem Strategies.Inv.step_rebalanced (h : s.Inv config) (hs : strategiesStep s .rebalanced = some t) :
    t.Inv config := by
  simp only [strategiesStep] at hs
  split at hs
  swap
  · cases hs
  rename_i b m pass hpass
  split at hs <;> cases hs
  have hparty := parties_pass hpass
  refine ⟨h.shared.handOver (i := .pass) (j := .flight) (by decide) rfl ?_ fun role hpassed hflight => ?_,
    h.scan, ?_⟩
  · rw [hparty]
    simp [Strategies.parties]
  · cases role with
    | pass => exact absurd rfl hpassed
    | flight => exact absurd rfl hflight
    | scan => rfl
  · rintro _ _ _ hidle
    cases hidle

theorem Strategies.Inv.elsewhere {book : Book} {flight : List ((Address × ℤ) × ℕ)} (h : s.Inv config)
    (hshared : Shared config.reservationTtl book (Strategies.parties { s with book, flight }))
    (hscan : ∀ lq scan, s.scan = some (lq, scan) → Spares config.reservationTtl scan.own s.book book)
    (hpass : ∀ b m pass, s.pass = some (b, m, pass) → Spares config.reservationTtl pass.own s.book book) :
    { s with book, flight }.Inv config := by
  refine ⟨hshared, fun lq scan hs => ?_, fun b m pass hs => ?_⟩
  · obtain ⟨rfl, started, hinv, hheld⟩ := h.scan lq scan hs
    exact ⟨rfl, started, hheld.beside hinv (hscan lq scan hs)⟩
  · obtain ⟨rfl, started, hheld⟩ := h.pass b m pass hs
    exact ⟨rfl, started, Ledger.spared hheld (hpass b m pass hs)⟩

theorem Strategies.Inv.step_settle {opId : ℕ} (h : s.Inv config) (hs : strategiesStep s (.settle opId) = some t) :
    t.Inv config := by
  simp only [strategiesStep] at hs
  split_ifs at hs with hflight
  cases hs
  have hminds : Minds config.reservationTtl (s.flight.map Prod.snd)
      ((s.flight.filter (·.2 ≠ opId)).map Prod.snd) s.book
      { s.book with inner := s.book.inner.release opId } := by
    refine minds_release _ hflight (List.filter_sublist.map _).subset fun id hid hne => ?_
    obtain ⟨holder, hholder, rfl⟩ := List.mem_map.mp hid
    exact List.mem_map_of_mem (List.mem_filter.mpr ⟨hholder, decide_eq_true hne⟩)
  refine h.elsewhere (h.shared.move (i := .flight) hminds ?_ fun role hrole => ?_) ?_ ?_
  · exact ((h.shared.ledger .flight).settle opId).tight
  · cases role with
    | flight => exact absurd rfl hrole
    | scan | pass => rfl
  · intro lq scan hscan
    exact h.shared.beside (i := Role.flight) rfl (congrArg Party.own (parties_scan hscan)) (by decide) hminds
  · intro b m pass hpass
    exact h.shared.beside (i := Role.flight) rfl (congrArg Party.own (parties_pass hpass)) (by decide) hminds

theorem Strategies.Inv.step_tick {seconds : ℕ} (h : s.Inv config)
    (hs : strategiesStep s (.tick seconds) = some t) : t.Inv config := by
  cases hs
  have hspares : ∀ own, Spares config.reservationTtl own s.book { s.book with now := s.book.now + seconds } :=
    fun own => ⟨Nat.le_add_right _ _, fun _ hid => hid, fun _ hr => .inl hr, fun _ hr _ => .inl hr⟩
  exact h.elsewhere (h.shared.spared hspares (List.Sublist.refl _))
    (fun _ _ _ => hspares _) fun _ _ _ _ => hspares _

theorem strategiesStep_inv {act : StrategiesAct} (h : s.Inv config) (hfair : act.Fair config s)
    (hs : strategiesStep s act = some t) : t.Inv config := by
  cases act with
  | scan lq => exact h.step_scan hfair hs
  | scanCall call => exact h.step_scanCall hfair hs
  | scanned => exact h.step_scanned hs
  | rebalance b assetIndex keys data => exact h.step_rebalance hfair hs
  | passCall call => exact h.step_passCall hfair hs
  | rebalanced => exact h.step_rebalanced hs
  | settle opId => exact h.step_settle hs
  | tick seconds => exact h.step_tick hs

end Invariant

/-! ## What is reserved -/

theorem Strategies.holders_eq (s : Strategies) : s.holders =
    (s.parties .flight).holders ++ (s.parties .scan).holders ++ (s.parties .pass).holders := by
  unfold Strategies.holders Strategies.parties
  cases s.scan <;> cases s.pass <;> rfl

theorem Strategies.mem_holders {s : Strategies} {holder : (Address × ℤ) × ℕ} :
    holder ∈ s.holders ↔ ∃ role, holder ∈ (s.parties role).holders := by
  rw [s.holders_eq, List.mem_append, List.mem_append]
  constructor
  · rintro ((hflight | hscan) | hpass)
    · exact ⟨.flight, hflight⟩
    · exact ⟨.scan, hscan⟩
    · exact ⟨.pass, hpass⟩
  · rintro ⟨role, hrole⟩
    cases role with
    | flight => exact .inl (.inl hrole)
    | scan => exact .inl (.inr hrole)
    | pass => exact .inr hrole

/-- A pass is the same beside an idle scan. -/
theorem strategies_of_pass {config : CapitalConfig} {b : Balancer} {m : Rebalance} {pass pass' : Pass}
    {calls : List PassCall} (flight : List ((Address × ℤ) × ℕ)) (hown : ∀ call ∈ calls, call.IsOwn)
    (h : Run (passNext b m) (fun s call => call.Fair s) pass calls pass') :
    Run strategiesStep (fun s act => act.Fair config s) ⟨pass.book, none, some (b, m, pass), flight⟩
      (calls.map .passCall) ⟨pass'.book, none, some (b, m, pass'), flight⟩ := by
  induction h with
  | nil => exact .nil _
  | @cons s t u call calls hfair hs _ ih =>
    obtain ⟨hcall, hcalls⟩ := List.forall_mem_cons.mp hown
    refine .cons ?_ ?_ (ih hcalls)
    · cases call with
      | swap quotes id => exact hfair
      | _ => trivial
    · simp only [strategiesStep, hcall, if_true, hs, Option.map_some]

end AlulaKeeper
