import Mathlib
import AlulaKeeper.Stellar.Snapshot

/-!
# Market events

`event_decode.rs`: a contract event's topics and value, as the keeper reads them.

* `decodeOperation`, `decodeTopic`, `parseObligationFromEventValue`, `RawEvent.decode`.
* `MarketEvent`: what a market publishes, with the obligations it carries.
* `decode_writes`: an event writes to the cache what it says of the obligations.
-/

namespace AlulaKeeper

/-! ## Reading an event -/

/-- `TryFrom<&str>`. -/
def OperationEvent.tryFrom : String → Option OperationEvent
  | "repay_event" => some .repay
  | "borrow_event" => some .borrow
  | "deposit_event" => some .deposit
  | "withdraw_event" => some .withdraw
  | "liquidate_event" => some .liquidate
  | "add_collateral_event" => some .addCollateral
  | "remove_collateral_event" => some .removeCollateral
  | "issue_cover_bad_debt" => some .issueCoverBadDebt
  | "claim_cover_bad_debt_results" => some .claimCoverBadDebtResults
  | _ => none

/-- `stellar_rpc_client::Event`; a topic or value is `none` where its XDR does not decode. -/
structure RawEvent where
  contractId : Address
  ledger : ℕ
  topic : List (Option Val)
  value : Option Val

namespace Val

/-- The parts of a value the key codec looks into. -/
def leaf : Val → ScVal
  | .void => .void
  | .bytes data => .bytes data
  | .symbol name => .symbol name
  | .address a => .address a
  | val => .other val.typeName

/-- A topic, by what the key codec tells apart. -/
def topicVal : Val → ScVal
  | .map (some entries) => .map (some (entries.map fun entry => (entry.1.leaf, entry.2.leaf)))
  | .map none => .map none
  | val => val.leaf

mutual

/-- `scval_display`; `debug` renders the types it passes on to `Debug`. -/
def display (codec : TextCodec) (debug : Val → String) : Val → String
  | .address a => codec.toText a
  | .symbol name => name
  | .u32 n => toString n.toNat
  | .i128 hi lo => toString (i128FromParts hi lo)
  | .map (some entries) => "\x7b" ++ ", ".intercalate (displayEntries codec debug entries) ++ "\x7d"
  | .void => "None"
  | val => debug val

/-- A map's entries, each as `key=value`. -/
def displayEntries (codec : TextCodec) (debug : Val → String) : List (Val × Val) → List String
  | [] => []
  | (key, val) :: entries =>
    (display codec debug key ++ "=" ++ display codec debug val) :: displayEntries codec debug entries

end

end Val

section Reading

variable (codec : TextCodec) (debug : Val → String) (event : RawEvent)

/-- `decode_operation`. -/
def decodeOperation : Option OperationEvent :=
  match event.topic with
  | some (.symbol name) :: _ => OperationEvent.tryFrom name
  | _ => none

/-- `decode_topic`. -/
def decodeTopic (index : ℕ) : String :=
  match event.topic[index]? with
  | none => "<missing>"
  | some (some val) => val.display codec debug
  | some none => "<decode_error>"

/-- `parse_obligation_from_event_value`: a field that is absent or void is a closed obligation. -/
def parseObligationFromEventValue (fieldName : String) (_ : ObligationKey) : ParsedObligation :=
  match event.value.map Val.asMap with
  | some (.ok entries) =>
    match Val.get entries fieldName with
    | none | some .void | some (.vec none) => .deleted
    | some inner =>
      match parseObligation codec inner with
      | .ok obligation => .snapshot obligation
      | .error _ => .error
  | _ => .error

/-- The event as the strategies see it. -/
def RawEvent.decode : SorobanEvent where
  contractId := event.contractId
  ledger := event.ledger
  operation := decodeOperation event
  topic := decodeTopic codec debug event
  topicKey index :=
    (parseObligationKeyFromTopic codec (event.topic.map (Option.map Val.topicVal)) index).toOption
  value := parseObligationFromEventValue codec event

end Reading

/-! ## What a market publishes -/

/-- The key of an account or a contract, with or without a seed. -/
structure ContractKey where
  seed : Option ScBytes
  user : ScAddress
  seed_ne : ∀ bytes ∈ seed, bytes.1 ≠ []
  isUser : user.IsUser
  deriving DecidableEq

theorem ContractKey.seed_ne_none : ∀ bytes ∈ (none : Option ScBytes), bytes.1 ≠ [] := by simp

/-- The key under the keeper's words. -/
def ContractKey.parsed (codec : TextCodec) (key : ContractKey) : ObligationKey := keyOf codec key.seed key.user

/-- The events of a position, of one shape. -/
inductive PositionEvent where
  | deposit
  | borrow
  | addCollateral
  | repay
  | withdraw
  | removeCollateral
  deriving DecidableEq, Repr

/-- The first topic. -/
def PositionEvent.name : PositionEvent → String
  | .deposit => "deposit_event"
  | .borrow => "borrow_event"
  | .addCollateral => "add_collateral_event"
  | .repay => "repay_event"
  | .withdraw => "withdraw_event"
  | .removeCollateral => "remove_collateral_event"

/-- What the event is to the keeper. -/
def PositionEvent.operation : PositionEvent → OperationEvent
  | .deposit => .deposit
  | .borrow => .borrow
  | .addCollateral => .addCollateral
  | .repay => .repay
  | .withdraw => .withdraw
  | .removeCollateral => .removeCollateral

theorem PositionEvent.tryFrom_name (kind : PositionEvent) :
    OperationEvent.tryFrom kind.name = some kind.operation := by
  cases kind <;> rfl

/-- An event, with the obligations it carries; `none` a closed one. -/
inductive MarketEvent where
  | position (kind : PositionEvent) (pool : ScAddress) (key : ContractKey) (obligation : Option ContractObligation)
  | liquidate (liquidator : ScAddress) (isUser : liquidator.IsUser) (borrower : ContractKey)
      (borrowPool collateralPool : ScAddress) (borrowerObligation liquidatorObligation : Option ContractObligation)
  /-- It carries no obligation. -/
  | issueCoverBadDebt (key : ContractKey)
  | claimCoverBadDebtResults (key : ContractKey) (obligation : Option ContractObligation)

/-- An optional obligation of an event. -/
def optionVal : Option ContractObligation → Val
  | some obligation => obligation.encode
  | none => .void

namespace MarketEvent

/-- The topics of an event. -/
def topics : MarketEvent → List Val
  | position kind pool key _ => [.symbol kind.name, .address pool, keyVal key.seed key.user]
  | liquidate liquidator _ borrower borrowPool collateralPool _ _ =>
    [.symbol "liquidate_event", .address liquidator, keyVal borrower.seed borrower.user, .address borrowPool,
      .address collateralPool]
  | issueCoverBadDebt key => [.symbol "issue_cover_bad_debt", keyVal key.seed key.user]
  | claimCoverBadDebtResults key _ => [.symbol "claim_cover_bad_debt_results", keyVal key.seed key.user]

/-- The obligations among the fields of the value. -/
def fields : MarketEvent → List (String × Val)
  | position _ _ _ obligation | claimCoverBadDebtResults _ obligation => [("obligation", optionVal obligation)]
  | liquidate _ _ _ _ _ borrowerObligation liquidatorObligation =>
    [("borrower_obligation", optionVal borrowerObligation),
      ("liquidator_obligation", optionVal liquidatorObligation)]
  | issueCoverBadDebt _ => []

/-- The obligations an event carries, under their keys. -/
def carries : MarketEvent → List (ContractKey × Option ContractObligation)
  | position _ _ key obligation | claimCoverBadDebtResults key obligation => [(key, obligation)]
  | liquidate liquidator isUser borrower _ _ borrowerObligation liquidatorObligation =>
    [(borrower, borrowerObligation), (⟨none, liquidator, by simp, isUser⟩, liquidatorObligation)]
  | issueCoverBadDebt _ => []

/-- The obligations an event names. -/
def keys : MarketEvent → List ContractKey
  | issueCoverBadDebt key => [key]
  | event => event.carries.map Prod.fst

/-- What a reader of the event learns, where `reread` is found under the key of an event that carries no
obligation. -/
def reports (reread : Option ContractObligation) :
    MarketEvent → List (ContractKey × Option ContractObligation)
  | issueCoverBadDebt key => [(key, reread)]
  | event => event.carries

variable {event : MarketEvent} {reread : Option ContractObligation}

theorem reports_keys : (event.reports reread).map Prod.fst = event.keys := by
  cases event <;> rfl

/-- Only an issued request is read from the chain. -/
theorem reports_cases {change : ContractKey × Option ContractObligation} (h : change ∈ event.reports reread) :
    change ∈ event.carries ∨ ∃ key, event = issueCoverBadDebt key ∧ change.2 = reread ∧ change.1 = key := by
  cases event with
  | issueCoverBadDebt key =>
    obtain rfl := List.mem_singleton.mp h
    exact .inr ⟨key, rfl, rfl, rfl⟩
  | position | liquidate | claimCoverBadDebtResults => exact .inl h

end MarketEvent

/-- The event as the node hands it out; its value may hold more. -/
structure Publishes (market : Address) (event : MarketEvent) (raw : RawEvent) : Prop where
  contractId : raw.contractId = market
  topic : raw.topic = event.topics.map some
  value : event.fields ≠ [] → ∃ val, raw.value = some val ∧ Val.Extends (Val.record event.fields) val

/-- What `read_user_obligation` answers. -/
def answerOf (codec : TextCodec) : Option ContractObligation → ChainAnswer
  | some obligation => .found (obligation.parsed codec)
  | none => .doesNotExist

/-! ## What is read -/

section Decoding

variable {codec : TextCodec} {debug : Val → String} {raw : RawEvent} {market : Address} {event : MarketEvent}
  {fields : List (String × Val)} {val : Val} {name : String}

theorem topicVal_keyVal (seed : Option ScBytes) (user : ScAddress) :
    (keyVal seed user).topicVal = keyTopic seed user := by
  cases seed <;> rfl

theorem topicKey_of_topic {key : ContractKey} {index : ℕ}
    (h : raw.topic[index]? = some (some (keyVal key.seed key.user))) :
    (raw.decode codec debug).topicKey index = some (key.parsed codec) := by
  have htopic : (raw.topic.map (Option.map Val.topicVal))[index]? =
      some (some (keyTopic key.seed key.user)) := by
    rw [List.getElem?_map, h, ← topicVal_keyVal]
    rfl
  show (parseObligationKeyFromTopic _ _ _).toOption = _
  rw [parseObligationKeyFromTopic_keyTopic htopic]
  rfl

theorem parse_optionVal {obligation : Option ContractObligation} (key : ObligationKey)
    (hvalue : raw.value = some val) (hext : Val.Extends (Val.record fields) val)
    (hd : (fields.map Prod.fst).Nodup) (hmem : (name, optionVal obligation) ∈ fields) :
    parseObligationFromEventValue codec raw name key =
      match obligation.map (ContractObligation.parsed codec) with
      | some obligation => .snapshot obligation
      | none => .deleted := by
  obtain ⟨entries, rfl, hentries⟩ := hext.holds hd
  obtain ⟨inner, hinner, hinnerExt⟩ := hentries _ hmem
  have hmap : raw.value.map Val.asMap = some (.ok entries) := by
    rw [hvalue]
    rfl
  rw [parseObligationFromEventValue, hmap]
  cases obligation with
  | none =>
    rw [hinnerExt.eq_of_leaf trivial] at hinner
    simp only [hinner]
    rfl
  | some obligation =>
    obtain ⟨map, rfl, hheld⟩ := Val.Extends.holds hinnerExt (by simp [ContractObligation.fields])
    simp only [hinner, parseObligation_of_holds obligation hheld]
    rfl

theorem snapshotWrite_of_value {obligation : Option ContractObligation} (key : ContractKey)
    (hvalue : raw.value = some val) (hext : Val.Extends (Val.record fields) val)
    (hd : (fields.map Prod.fst).Nodup) (hmem : (name, optionVal obligation) ∈ fields) :
    (raw.decode codec debug).snapshotWrite name (key.parsed codec) =
      some (key.parsed codec, obligation.map (ContractObligation.parsed codec)) := by
  have hread : (raw.decode codec debug).value name (key.parsed codec) = _ :=
    parse_optionVal (key.parsed codec) hvalue hext hd hmem
  rw [SorobanEvent.snapshotWrite, hread]
  cases obligation <;> rfl

/-- **An event writes what it reports.** Whatever the market publishes is decoded, and changes the cache by the
obligations it carries, or by the re-read one where it carries none. -/
theorem decode_writes {markets : List Address} (hmarket : market ∈ markets) (h : Publishes market event raw)
    (reread : Option ContractObligation) :
    (raw.decode codec debug).writes markets (answerOf codec reread) =
      some ((event.reports reread).map fun change =>
        (change.1.parsed codec, change.2.map (ContractObligation.parsed codec))) := by
  have hconfigured : (raw.decode codec debug).contractId ∈ markets := by
    show raw.contractId ∈ markets
    rwa [h.contractId]
  have hoperation : ∀ name vals, raw.topic = some (.symbol name) :: vals →
      (raw.decode codec debug).operation = OperationEvent.tryFrom name := by
    intro name vals htopic
    show decodeOperation raw = _
    rw [decodeOperation, htopic]
  rw [SorobanEvent.writes, if_pos hconfigured]
  cases event with
  | position kind pool key obligation =>
    obtain ⟨val, hvalue, hext⟩ := h.value (by simp [MarketEvent.fields])
    have hkey : (raw.decode codec debug).topicKey 2 = some (key.parsed codec) :=
      topicKey_of_topic (by rw [h.topic]; rfl)
    have hwrite : (raw.decode codec debug).snapshotWrite "obligation" (key.parsed codec) = _ :=
      snapshotWrite_of_value key hvalue hext (by simp [MarketEvent.fields]) List.mem_cons_self
    rw [hoperation kind.name _ h.topic, kind.tryFrom_name]
    cases kind <;> simp [PositionEvent.operation, hkey, hwrite, MarketEvent.reports, MarketEvent.carries]
  | liquidate liquidator isUser borrower borrowPool collateralPool borrowerObligation liquidatorObligation =>
    obtain ⟨val, hvalue, hext⟩ := h.value (by simp [MarketEvent.fields])
    have hkey : (raw.decode codec debug).topicKey 2 = some (borrower.parsed codec) :=
      topicKey_of_topic (by rw [h.topic]; rfl)
    have hborrower : (raw.decode codec debug).snapshotWrite "borrower_obligation" (borrower.parsed codec) = _ :=
      snapshotWrite_of_value borrower hvalue hext (by simp [MarketEvent.fields]) List.mem_cons_self
    have hname : (raw.decode codec debug).topic 1 = codec.toText liquidator := by
      show decodeTopic codec debug raw 1 = _
      rw [decodeTopic, h.topic]
      simp [MarketEvent.topics, Val.display]
    have hliquidator : (raw.decode codec debug).snapshotWrite "liquidator_obligation"
        (ContractKey.parsed codec ⟨none, liquidator, by simp, isUser⟩) = _ :=
      snapshotWrite_of_value _ hvalue hext (by simp [MarketEvent.fields])
        (List.mem_cons_of_mem _ List.mem_cons_self)
    have hop : (raw.decode codec debug).operation = some .liquidate := hoperation _ _ h.topic
    have hown : ({ user := (raw.decode codec debug).topic 1, seed := none } : ObligationKey) =
        ContractKey.parsed codec ⟨none, liquidator, by simp, isUser⟩ := by
      rw [hname]
      rfl
    simp only [hop, hkey, hown, hliquidator, Option.bind_eq_bind, Option.bind_some, hborrower]
    rfl
  | issueCoverBadDebt key =>
    have hkey : (raw.decode codec debug).topicKey 1 = some (key.parsed codec) :=
      topicKey_of_topic (by rw [h.topic]; rfl)
    have hop : (raw.decode codec debug).operation = some .issueCoverBadDebt := hoperation _ _ h.topic
    simp only [hop, hkey]
    cases reread <;> rfl
  | claimCoverBadDebtResults key obligation =>
    obtain ⟨val, hvalue, hext⟩ := h.value (by simp [MarketEvent.fields])
    have hkey : (raw.decode codec debug).topicKey 1 = some (key.parsed codec) :=
      topicKey_of_topic (by rw [h.topic]; rfl)
    have hwrite : (raw.decode codec debug).snapshotWrite "obligation" (key.parsed codec) = _ :=
      snapshotWrite_of_value key hvalue hext (by simp [MarketEvent.fields]) List.mem_cons_self
    have hop : (raw.decode codec debug).operation = some .claimCoverBadDebtResults := hoperation _ _ h.topic
    simp only [hop, hkey, Option.bind_eq_bind, Option.bind_some, hwrite]
    rfl

end Decoding

end AlulaKeeper
