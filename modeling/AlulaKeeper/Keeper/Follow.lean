import Mathlib
import AlulaKeeper.Lib.Steps
import AlulaKeeper.Lib.Replica
import AlulaKeeper.Keeper.Replay
import AlulaKeeper.Stellar.Events

/-!
# The cache behind the chain

The Liquidator handles what its markets publish, in order, and after a restart again from an earlier cursor. An
issued bad-debt request is answered by the chain as it stands by then.

* `Narrates`: what is relied on of the chain, a parameter.
* `followStep`: an event handled, or a restart.
* `cache_follows_chain`: the cache holds every obligation that no event ahead names.
-/

namespace AlulaKeeper

open Steps Writes Replica

/-! ## The chain -/

/-- The obligations of every market. -/
abbrev Chain := Address × ContractKey → Option ContractObligation

/-- The event names the obligation. -/
def Touches (event : Address × MarketEvent) (key : Address × ContractKey) : Prop :=
  key.1 = event.1 ∧ key.2 ∈ event.2.keys

/-- What is relied on of the chain, where `chain n` is its state after the first `n` events. -/
structure Narrates (events : List (Address × MarketEvent)) (chain : ℕ → Chain) : Prop where
  /-- An event carries obligations as it leaves them. -/
  carried {n : ℕ} {event : Address × MarketEvent} (h : events[n]? = some event)
    {change : ContractKey × Option ContractObligation} (hchange : change ∈ event.2.carries) :
    chain (n + 1) (event.1, change.1) = change.2
  /-- It changes none that it does not name. -/
  frame {n : ℕ} {event : Address × MarketEvent} (h : events[n]? = some event) {key : Address × ContractKey}
    (hkey : ¬ Touches event key) : chain (n + 1) key = chain n key

/-! ## The Liquidator -/

/-- The Liquidator beside its place in the stream. -/
structure Follower where
  /-- Events handled so far. -/
  next : ℕ
  cache : Cache

/-- An event is handled, or the process starts again. -/
inductive FollowAct where
  /-- The next event, with the chain's answer should it be asked. -/
  | handle (raw : RawEvent) (answer : ChainAnswer)
  /-- A restart from an earlier cursor. -/
  | restart (cursor : ℕ)

section Following

variable (codec : TextCodec) (debug : Val → String) (markets : List Address)

/-- A handled event that is an error leaves the cache as it is. -/
def followStep (s : Follower) : FollowAct → Option Follower
  | .handle raw answer => some {
      next := s.next + 1
      cache := (s.cache.handleSorobanEvent markets (raw.decode codec debug) answer).getD s.cache }
  | .restart cursor =>
    if cursor ≤ s.next then some { next := cursor, cache := Cache.syncState markets s.cache.repo } else none

/-- The node hands out the next event, and the chain answers as of then or later. -/
def Honest (chain : ℕ → Chain) (events : List (Address × MarketEvent)) (s : Follower) : FollowAct → Prop
  | .handle raw answer => ∃ event, events[s.next]? = some event ∧ Publishes event.1 event.2 raw ∧
      ∃ n reread, s.next < n ∧ n ≤ events.length ∧ answer = answerOf codec reread ∧
        ∀ key, event.2 = .issueCoverBadDebt key → reread = chain n (event.1, key)
  | .restart _ => True

end Following

/-! ## The log -/

section Log

variable {chain : ℕ → Chain} {events : List (Address × MarketEvent)} {key : Address × ContractKey} {n : ℕ}

/-- The chain as a log of its events. -/
def chainLog (codec : TextCodec) (h : Narrates events chain) : Log (Address × ContractKey) (Option Obligation) where
  length := events.length
  state n key := (chain n key).map (ContractObligation.parsed codec)
  touches n := {key | ∃ event, events[n]? = some event ∧ Touches event key}
  frame n key hlt huntouched := by
    have hevent : events[n]? = some events[n] := List.getElem?_eq_getElem hlt
    rw [h.frame hevent fun htouches => huntouched ⟨_, hevent, htouches⟩]

theorem quiet_iff {codec : TextCodec} (h : Narrates events chain) :
    (∀ event ∈ events.drop n, ¬ Touches event key) ↔ (chainLog codec h).Quiet n key := by
  constructor
  · rintro hnone i hi - ⟨event, hevent, htouches⟩
    have hdropped : (events.drop n)[i - n]? = some event := by
      rw [List.getElem?_drop, Nat.add_sub_cancel' hi, hevent]
    exact hnone event (List.mem_of_getElem? hdropped) htouches
  · intro hlog event hevent htouches
    obtain ⟨i, hi⟩ := List.mem_iff_getElem?.mp hevent
    rw [List.getElem?_drop] at hi
    exact hlog (n + i) (Nat.le_add_right n i) (List.getElem?_eq_some_iff.mp hi).1 ⟨event, hi, htouches⟩

end Log

/-! ## The cache under the chain's keys -/

section Views

variable {codec : TextCodec} {debug : Val → String} {markets : List Address} {cache : Cache}

theorem toText_inj {a b : ScAddress} (ha : a.IsUser) (hb : b.IsUser) (h : codec.toText a = codec.toText b) :
    a = b := by
  have hread : scAddressOf codec (codec.toText a) = .ok a := scAddressOf_toText ha
  rw [h, scAddressOf_toText hb] at hread
  exact (Except.ok.inj hread).symm

theorem ContractKey.parsed_inj {key key' : ContractKey} (h : key.parsed codec = key'.parsed codec) :
    key = key' := by
  obtain ⟨seed, user, _, huser⟩ := key
  obtain ⟨seed', user', _, huser'⟩ := key'
  obtain ⟨htext, hseed⟩ := ObligationKey.mk.inj h
  obtain rfl := toText_inj huser huser' htext
  have hinj : Function.Injective fun bytes : ScBytes => codec.hex.encode bytes.1 :=
    Hex.encode_injective.comp Subtype.val_injective
  obtain rfl := Option.map_injective hinj hseed
  rfl

/-- The memory under the chain's keys. -/
def memoryView (codec : TextCodec) (cache : Cache) (key : Address × ContractKey) : Option Obligation :=
  cache.memory key.1 (key.2.parsed codec)

/-- The table under the chain's keys. -/
def tableView (codec : TextCodec) (cache : Cache) (key : Address × ContractKey) : Option Obligation :=
  cache.repo.loadAll key.1 (key.2.parsed codec)

theorem ContractKey.parsed_wellFormed (key : ContractKey) : (key.parsed codec).WellFormed :=
  keyOf_wellFormed key.seed_ne

theorem memoryView_write (market : Address) (key : ContractKey) (v : Option Obligation) :
    memoryView codec (cache.write market (key.parsed codec) v) =
      Function.update (memoryView codec cache) (market, key) v := by
  funext ⟨market', key'⟩
  simp only [memoryView, Cache.write, Function.update_apply, Prod.mk.injEq]
  by_cases hmarket : market' = market
  · by_cases hkey : key' = key
    · simp [hmarket, hkey]
    · have hparsed : key'.parsed codec ≠ key.parsed codec := fun h => hkey (ContractKey.parsed_inj h)
      simp [hmarket, hkey, hparsed]
  · simp [hmarket]

theorem tableView_write (market : Address) (key : ContractKey) (v : Option Obligation) :
    tableView codec (cache.write market (key.parsed codec) v) =
      Function.update (tableView codec cache) (market, key) v := by
  funext ⟨market', key'⟩
  have hwf : (key.parsed codec).WellFormed := key.parsed_wellFormed
  have hsame : market' = market ∧ key'.parsed codec = key.parsed codec ↔ (market', key') = (market, key) := by
    rw [Prod.mk.injEq]
    exact and_congr_right fun _ => ⟨fun h => ContractKey.parsed_inj h, fun h => by rw [h]⟩
  show ObligationsRepo.loadAll (Function.update cache.repo ((key.parsed codec).row market) v) market'
    (key'.parsed codec) = _
  simp only [cache.repo.loadAll_update hwf, hsame, Function.update_apply, tableView]

theorem memoryView_syncState {repo : ObligationsRepo} {key : Address × ContractKey} (hmarket : key.1 ∈ markets) :
    memoryView codec (Cache.syncState markets repo) key = repo.loadAll key.1 (key.2.parsed codec) := by
  show (if key.1 ∈ markets then repo.loadAll key.1 else fun _ => none) (key.2.parsed codec) = _
  rw [if_pos hmarket]

/-- What an event reports, under the chain's keys and the keeper's words. -/
def reported (codec : TextCodec) (event : Address × MarketEvent) (reread : Option ContractObligation) :
    List ((Address × ContractKey) × Option Obligation) :=
  (event.2.reports reread).map fun change =>
    ((event.1, change.1), change.2.map (ContractObligation.parsed codec))

theorem mem_reported_iff {event : Address × MarketEvent} {reread : Option ContractObligation}
    {key : Address × ContractKey} : (∃ write ∈ reported codec event reread, write.1 = key) ↔ Touches event key := by
  have hkeys : (event.2.reports reread).map Prod.fst = event.2.keys := MarketEvent.reports_keys
  constructor
  · rintro ⟨write, hwrite, rfl⟩
    obtain ⟨change, hchange, rfl⟩ := List.mem_map.mp hwrite
    refine ⟨rfl, ?_⟩
    rw [← hkeys]
    exact List.mem_map_of_mem hchange
  · rintro ⟨hmarket, hkey⟩
    rw [← hkeys] at hkey
    obtain ⟨change, hchange, hname⟩ := List.mem_map.mp hkey
    exact ⟨_, List.mem_map_of_mem hchange, Prod.ext hmarket.symm hname⟩

theorem handle_views {raw : RawEvent} {event : Address × MarketEvent} {reread : Option ContractObligation}
    (hmarket : event.1 ∈ markets) (h : Publishes event.1 event.2 raw)
    (view : Cache → Address × ContractKey → Option Obligation)
    (hview : ∀ cache market key v, view (cache.write market (ContractKey.parsed codec key) v) =
      Function.update (view cache) (market, key) v) :
    view ((cache.handleSorobanEvent markets (raw.decode codec debug) (answerOf codec reread)).getD cache) =
      writeAll (view cache) (reported codec event reread) := by
  rw [handleSorobanEvent_of_writes (decode_writes hmarket h reread), Option.getD_some]
  have hcontract : (raw.decode codec debug).contractId = event.1 := h.contractId
  rw [hcontract, reported]
  induction event.2.reports reread generalizing cache with
  | nil => rfl
  | cons change changes ih =>
    rw [List.map_cons, List.foldl_cons, ih, hview]
    rfl

/-! ## Following -/

variable {chain : ℕ → Chain} {events : List (Address × MarketEvent)} {repo : ObligationsRepo} {s t : Follower}

/-- The obligations that some event names, or that the table has right from the start. -/
def known (codec : TextCodec) (markets : List Address) (chain : ℕ → Chain) (events : List (Address × MarketEvent))
    (repo : ObligationsRepo) : Set (Address × ContractKey) :=
  {key | key.1 ∈ markets ∧ ((∀ event ∈ events, ¬ Touches event key) →
    repo.loadAll key.1 (key.2.parsed codec) = (chain 0 key).map (ContractObligation.parsed codec))}

/-- Both sides of the cache are settled. -/
structure Follower.Ok (codec : TextCodec) (markets : List Address) (repo : ObligationsRepo)
    (hchain : Narrates events chain) (s : Follower) : Prop where
  next_le : s.next ≤ events.length
  memory : Settled (chainLog codec hchain) (known codec markets chain events repo) s.next
    (memoryView codec s.cache)
  table : Settled (chainLog codec hchain) (known codec markets chain events repo) s.next
    (tableView codec s.cache)

theorem settled_handle {hchain : Narrates events chain} {raw : RawEvent} {answer : ChainAnswer} {n : ℕ}
    {event : Address × MarketEvent} {reread : Option ContractObligation}
    (hmarkets : ∀ event ∈ events, event.1 ∈ markets)
    (hevent : events[s.next]? = some event) (hpublishes : Publishes event.1 event.2 raw) (hlt : s.next < n)
    (hle : n ≤ events.length) (hanswer : answer = answerOf codec reread)
    (hreread : ∀ key, event.2 = .issueCoverBadDebt key → reread = chain n (event.1, key))
    (view : Cache → Address × ContractKey → Option Obligation)
    (hview : ∀ cache market key v, view (cache.write market (ContractKey.parsed codec key) v) =
      Function.update (view cache) (market, key) v) {dom : Set (Address × ContractKey)}
    (h : Settled (chainLog codec hchain) dom s.next (view s.cache)) :
    Settled (chainLog codec hchain) dom (s.next + 1)
      (view ((s.cache.handleSorobanEvent markets (raw.decode codec debug) answer).getD s.cache)) := by
  subst hanswer
  have hlen : s.next < events.length := (List.getElem?_eq_some_iff.mp hevent).1
  rw [handle_views (hmarkets event (List.mem_of_getElem? hevent)) hpublishes view hview]
  refine h.take hlen (fun key _ huntouched => writeAll_of_untouched fun write hwrite heq => ?_)
    fun key _ htouched => ?_
  · exact huntouched ⟨event, hevent, mem_reported_iff.mp ⟨write, hwrite, heq⟩⟩
  obtain ⟨event', hevent', htouches⟩ := htouched
  obtain rfl : event = event' := Option.some.inj (hevent.symm.trans hevent')
  have hwritten : ∃ write ∈ reported codec event reread, write.1 = key := mem_reported_iff.mpr htouches
  obtain ⟨write, hwrite, rfl, hvalue⟩ := writeAll_of_written (m := view s.cache) hwritten
  obtain ⟨change, hchange, rfl⟩ := List.mem_map.mp hwrite
  obtain hcarried | ⟨key, hissue, hread, hname⟩ := MarketEvent.reports_cases hchange
  · refine ⟨s.next + 1, Nat.lt_succ_self _, hlen, ?_⟩
    show _ = (chain (s.next + 1) (event.1, change.1)).map (ContractObligation.parsed codec)
    rw [hvalue, hchain.carried hevent hcarried]
  · refine ⟨n, hlt, hle, ?_⟩
    show _ = (chain n (event.1, change.1)).map (ContractObligation.parsed codec)
    rw [hvalue, hread, hname, hreread key hissue]

theorem Follower.Ok.step {hchain : Narrates events chain} {act : FollowAct}
    (hmarkets : ∀ event ∈ events, event.1 ∈ markets) (h : s.Ok codec markets repo hchain)
    (hhonest : Honest codec chain events s act) (hs : followStep codec debug markets s act = some t) :
    t.Ok codec markets repo hchain := by
  cases act with
  | handle raw answer =>
    obtain ⟨event, hevent, hpublishes, n, reread, hlt, hle, hanswer, hreread⟩ := hhonest
    cases hs
    have hlen : s.next < events.length := (List.getElem?_eq_some_iff.mp hevent).1
    refine ⟨hlen, ?_, ?_⟩
    · exact settled_handle hmarkets hevent hpublishes hlt hle hanswer hreread _
        (fun _ market key v => memoryView_write market key v) h.memory
    · exact settled_handle hmarkets hevent hpublishes hlt hle hanswer hreread _
        (fun _ market key v => tableView_write market key v) h.table
  | restart cursor =>
    simp only [followStep] at hs
    split_ifs at hs with hcursor
    cases hs
    have htable := h.table.rewind hcursor h.next_le
    refine ⟨hcursor.trans h.next_le, htable.congr fun key hkey => ?_, htable⟩
    exact memoryView_syncState hkey.1

/-- The Liquidator synced from the table. -/
def Follower.start (markets : List Address) (repo : ObligationsRepo) : Follower where
  next := 0
  cache := Cache.syncState markets repo

end Views

/-- What a node hands out for an event, and no more. -/
def MarketEvent.raw (event : MarketEvent) (market : Address) : RawEvent where
  contractId := market
  ledger := 0
  topic := event.topics.map some
  value := some (Val.record event.fields)

theorem MarketEvent.raw_publishes (event : MarketEvent) (market : Address) :
    Publishes market event (event.raw market) :=
  ⟨rfl, rfl, fun _ => ⟨_, rfl, .refl _⟩⟩

/-- The key of the zero account. -/
def zeroContractKey : ContractKey where
  seed := none
  user := .account zeroKey
  seed_ne := ContractKey.seed_ne_none
  isUser := trivial

/-- Half a token in collateral. -/
def halfToken : ContractObligation where
  deposits := [{ pool := .contract zeroKey, jTokens := .ofU32 0, collateral := .ofU32 5000000 }]
  borrows := []
  requests := []

/-- The request that closes the obligation, and the deposit that opens it again. -/
def closing : MarketEvent := .issueCoverBadDebt zeroContractKey

/-- Half a token is added as collateral. -/
def opening : MarketEvent := .position .addCollateral (.contract zeroKey) zeroContractKey (some halfToken)

/-- Half a token is there when the request is handled; the deposit is handled twice. -/
def reopenActs (codec : TextCodec) : List FollowAct :=
  [.handle (closing.raw "MARKET") (answerOf codec (some halfToken)),
    .handle (opening.raw "MARKET") (answerOf codec none), .restart 1,
    .handle (opening.raw "MARKET") (answerOf codec none)]

theorem followStep_restart {codec : TextCodec} {debug : Val → String} {markets : List Address} {s : Follower}
    {cursor : ℕ} (h : cursor ≤ s.next) : followStep codec debug markets s (.restart cursor) =
      some { next := cursor, cache := Cache.syncState markets s.cache.repo } :=
  if_pos h

/-- Nothing, until the deposit. -/
def reopenedChain (n : ℕ) (key : Address × ContractKey) : Option ContractObligation :=
  if 2 ≤ n ∧ key = ("MARKET", zeroContractKey) then some halfToken else none

theorem reopenedChain_narrated : Narrates [("MARKET", closing), ("MARKET", opening)] reopenedChain where
  carried {n event} h change hchange := by
    match n with
    | 0 =>
      cases h
      simp [closing, MarketEvent.carries] at hchange
    | 1 =>
      cases h
      obtain rfl := List.mem_singleton.mp hchange
      simp [reopenedChain]
    | n + 2 => cases h
  frame {n event} h key hkey := by
    match n with
    | 0 => simp [reopenedChain]
    | 1 =>
      cases h
      have hother : key ≠ ("MARKET", zeroContractKey) := by
        rintro rfl
        exact hkey ⟨rfl, List.mem_singleton_self _⟩
      simp [reopenedChain, hother]
    | n + 2 => cases h

end AlulaKeeper
