import Mathlib
import AlulaKeeper.Lib.Steps
import AlulaKeeper.Lib.Broadcast

/-!
# The reactor

`Engine::run` spawns one task for every executor, strategy and collector, and wires them by two broadcast
channels: collectors send events, strategies answer events with actions, executors execute actions. The channels
are tokio's; they are a parameter, with the laws of `Broadcast.Channels`.

* `Reactor`, `reactorStep`: the tasks and the channels, one step of one task at a time.
* `Moves`: what one step can do.
* `Reactor.Inv`: where every task is in its channel, and what is on its way between the two.
-/

namespace AlulaKeeper

open Broadcast Steps

/-! ## Tasks and channels -/

/-- `Engine`, by the numbers of its components; a capacity is the number of values a channel keeps. -/
structure EngineConfig where
  collectors : ℕ
  strategies : ℕ
  executors : ℕ
  /-- `DEFAULT_CHANNEL_CAPACITY`. -/
  eventChannelCapacity : ℕ := 1024
  actionChannelCapacity : ℕ := 1024

/-- The loop of a strategy. -/
structure StrategyTask (E A : Type) (bus : Channels) where
  /-- Its receiver of events. -/
  receiver : bus.Receiver E
  /-- Actions of the last answer that are not sent yet. -/
  pending : List A
  /-- The calls of `process_event` so far, with their answers. -/
  handled : List (E × List A)
  /-- Its part of `engine_strategy_lagged_events_total`. -/
  lagged : ℕ
  exited : Bool

/-- The loop of an executor. -/
structure ExecutorTask (A : Type) (bus : Channels) where
  receiver : bus.Receiver A
  /-- The calls of `execute` so far; one that fails is only logged. -/
  executed : List A
  /-- Its part of `engine_executor_lagged_actions_total`. -/
  lagged : ℕ
  exited : Bool

variable {E A : Type} {bus : Channels} {config : EngineConfig}

/-- A strategy before its first event. -/
def StrategyTask.subscribed (A : Type) (receiver : bus.Receiver E) : StrategyTask E A bus where
  receiver
  pending := []
  handled := []
  lagged := 0
  exited := false

/-- An executor before its first action. -/
def ExecutorTask.subscribed (receiver : bus.Receiver A) : ExecutorTask A bus where
  receiver
  executed := []
  lagged := 0
  exited := false

/-- The tasks and the channels between them. -/
structure Reactor (E A : Type) (bus : Channels) (config : EngineConfig) where
  events : bus.Channel E config.eventChannelCapacity
  actions : bus.Channel A config.actionChannelCapacity
  /-- The strategies that are subscribed, synced and spawned; the collectors are spawned after the last. -/
  synced : ℕ
  /-- `sync_state` failed: `run` returns its error and drops every task. -/
  failed : Bool
  collecting : Fin config.collectors → Bool
  strategies : Fin config.strategies → StrategyTask E A bus
  executors : Fin config.executors → ExecutorTask A bus
  /-- Values sent when no receiver was left. -/
  sendErrors : ℕ

/-- What the tasks of the engine may do next. -/
inductive ReactorAct (E A : Type) (config : EngineConfig) where
  /-- The next strategy subscribes and syncs. -/
  | syncState (ok : Bool)
  /-- A collector's stream yields an event. -/
  | collect (i : Fin config.collectors) (event : E)
  /-- A collector fails to start, or its stream ends. -/
  | collectorEnds (i : Fin config.collectors)
  /-- A strategy's `recv` resolves; an event is answered. -/
  | strategyRecv (i : Fin config.strategies) (answer : List A)
  | sendAction (i : Fin config.strategies)
  | executorRecv (j : Fin config.executors)

namespace Reactor

/-- The executors are subscribed and spawned first; until a strategy is, it holds the channel's first receiver. -/
def start (E A : Type) (bus : Channels) (config : EngineConfig) : Reactor E A bus config where
  events := bus.channel E _
  actions := bus.channel A _
  synced := 0
  failed := false
  collecting := fun _ => true
  strategies := fun _ => .subscribed A (bus.subscribe (bus.channel E config.eventChannelCapacity))
  executors := fun _ => .subscribed (bus.subscribe (bus.channel A config.actionChannelCapacity))
  sendErrors := 0

variable (s : Reactor E A bus config)

/-- `run` has returned its tasks. -/
def running : Prop := s.synced = config.strategies ∧ s.failed = false

/-- Every sender of events is dropped. -/
def eventsClosed : Prop := s.running ∧ ∀ i, s.collecting i = false

/-- Every sender of actions is dropped. -/
def actionsClosed : Prop := s.running ∧ ∀ i, (s.strategies i).exited = true

instance : Decidable s.running := inferInstanceAs (Decidable (_ ∧ _))
instance : Decidable s.eventsClosed := inferInstanceAs (Decidable (_ ∧ _))
instance : Decidable s.actionsClosed := inferInstanceAs (Decidable (_ ∧ _))

/-- A strategy moves on. -/
def setStrategy (i : Fin config.strategies) (task : StrategyTask E A bus) : Reactor E A bus config :=
  { s with strategies := Function.update s.strategies i task }

/-- An executor moves on. -/
def setExecutor (j : Fin config.executors) (task : ExecutorTask A bus) : Reactor E A bus config :=
  { s with executors := Function.update s.executors j task }

/-- `event_sender.send`; an error is logged. -/
def sendEvent (event : E) : Reactor E A bus config :=
  match bus.send s.events (decide (∃ i, (s.strategies i).exited = false)) event with
  | some events => { s with events }
  | none => { s with sendErrors := s.sendErrors + 1 }

/-- `action_sender.send`; an error is logged. -/
def sendAction (action : A) : Reactor E A bus config :=
  match bus.send s.actions (decide (∃ j, (s.executors j).exited = false)) action with
  | some actions => { s with actions }
  | none => { s with sendErrors := s.sendErrors + 1 }

end Reactor

/-- One step of one task; `none` where it waits. -/
def reactorStep (s : Reactor E A bus config) : ReactorAct E A config → Option (Reactor E A bus config)
  | .syncState ok =>
    if h : s.synced < config.strategies ∧ s.failed = false then
      if ok then
        some { s.setStrategy ⟨s.synced, h.1⟩ (.subscribed A (bus.subscribe s.events)) with
          synced := s.synced + 1 }
      else some { s with failed := true }
    else none
  | .collect i event =>
    if s.running ∧ s.collecting i = true then some (s.sendEvent event) else none
  | .collectorEnds i =>
    if s.running ∧ s.collecting i = true then
      some { s with collecting := Function.update s.collecting i false }
    else none
  | .strategyRecv i answer =>
    let task := s.strategies i
    if i < s.synced ∧ s.failed = false ∧ task.exited = false ∧ task.pending = [] then
      match bus.recv s.events (decide s.eventsClosed) task.receiver with
      | (.value event, receiver) => some (s.setStrategy i { task with
          receiver
          pending := answer
          handled := task.handled ++ [(event, answer)] })
      | (.lagged dropped, receiver) => some (s.setStrategy i { task with
          receiver
          lagged := task.lagged + dropped })
      | (.closed, _) => some (s.setStrategy i { task with exited := true })
      | (.pending, _) => none
    else none
  | .sendAction i =>
    match (s.strategies i).pending with
    | [] => none
    | action :: rest =>
      if s.failed = false then
        some ((s.setStrategy i { s.strategies i with pending := rest }).sendAction action)
      else none
  | .executorRecv j =>
    let task := s.executors j
    if s.failed = false ∧ task.exited = false then
      match bus.recv s.actions (decide s.actionsClosed) task.receiver with
      | (.value action, receiver) => some (s.setExecutor j { task with
          receiver
          executed := task.executed ++ [action] })
      | (.lagged dropped, receiver) => some (s.setExecutor j { task with
          receiver
          lagged := task.lagged + dropped })
      | (.closed, _) => some (s.setExecutor j { task with exited := true })
      | (.pending, _) => none
    else none

/-! ## What a step does -/

/-- The moves of a reactor, with what enables them. -/
inductive Moves (s : Reactor E A bus config) : ReactorAct E A config → Reactor E A bus config → Prop
  | syncs (h : s.synced < config.strategies) (hf : s.failed = false) :
      Moves s (.syncState true)
        { s.setStrategy ⟨s.synced, h⟩ (.subscribed A (bus.subscribe s.events)) with synced := s.synced + 1 }
  | fails (h : s.synced < config.strategies) : Moves s (.syncState false) { s with failed := true }
  | collects (hr : s.running) (i : Fin config.collectors) (hi : s.collecting i = true) (event : E) :
      Moves s (.collect i event) (s.sendEvent event)
  | collectorEnds (hr : s.running) (i : Fin config.collectors) :
      Moves s (.collectorEnds i) { s with collecting := Function.update s.collecting i false }
  | handles (i : Fin config.strategies) (hi : i < s.synced) (hx : (s.strategies i).exited = false)
      (hp : (s.strategies i).pending = []) (event : E) (answer : List A) (receiver : bus.Receiver E)
      (hget : (bus.history s.events)[bus.position (s.strategies i).receiver]? = some event)
      (hnext : bus.position receiver = bus.position (s.strategies i).receiver + 1) :
      Moves s (.strategyRecv i answer) (s.setStrategy i { s.strategies i with
        receiver
        pending := answer
        handled := (s.strategies i).handled ++ [(event, answer)] })
  | strategyLags (i : Fin config.strategies) (hi : i < s.synced) (hx : (s.strategies i).exited = false)
      (answer : List A) (dropped : ℕ) (receiver : bus.Receiver E)
      (hbehind : bus.position (s.strategies i).receiver + config.eventChannelCapacity <
        (bus.history s.events).length)
      (hnext : bus.position receiver = bus.position (s.strategies i).receiver + dropped)
      (hle : bus.position receiver ≤ (bus.history s.events).length) :
      Moves s (.strategyRecv i answer) (s.setStrategy i { s.strategies i with
        receiver
        lagged := (s.strategies i).lagged + dropped })
  | strategyExits (i : Fin config.strategies) (hx : (s.strategies i).exited = false) (answer : List A)
      (hp : (s.strategies i).pending = []) (hclosed : s.eventsClosed)
      (hle : (bus.history s.events).length ≤ bus.position (s.strategies i).receiver) :
      Moves s (.strategyRecv i answer) (s.setStrategy i { s.strategies i with exited := true })
  | sends (i : Fin config.strategies) (action : A) (rest : List A)
      (hp : (s.strategies i).pending = action :: rest) :
      Moves s (.sendAction i) ((s.setStrategy i { s.strategies i with pending := rest }).sendAction action)
  | executes (j : Fin config.executors) (hx : (s.executors j).exited = false) (action : A)
      (receiver : bus.Receiver A)
      (hget : (bus.history s.actions)[bus.position (s.executors j).receiver]? = some action)
      (hnext : bus.position receiver = bus.position (s.executors j).receiver + 1) :
      Moves s (.executorRecv j) (s.setExecutor j { s.executors j with
        receiver
        executed := (s.executors j).executed ++ [action] })
  | executorLags (j : Fin config.executors) (hx : (s.executors j).exited = false) (dropped : ℕ)
      (receiver : bus.Receiver A)
      (hbehind : bus.position (s.executors j).receiver + config.actionChannelCapacity <
        (bus.history s.actions).length)
      (hnext : bus.position receiver = bus.position (s.executors j).receiver + dropped)
      (hle : bus.position receiver ≤ (bus.history s.actions).length) :
      Moves s (.executorRecv j) (s.setExecutor j { s.executors j with
        receiver
        lagged := (s.executors j).lagged + dropped })
  | executorExits (j : Fin config.executors) (hclosed : s.actionsClosed)
      (hle : (bus.history s.actions).length ≤ bus.position (s.executors j).receiver) :
      Moves s (.executorRecv j) (s.setExecutor j { s.executors j with exited := true })

theorem reactorStep_moves {s t : Reactor E A bus config} {a : ReactorAct E A config}
    (h : reactorStep s a = some t) : Moves s a t := by
  cases a with
  | syncState ok =>
    simp only [reactorStep] at h
    split at h
    · rename_i hs
      cases ok with
      | true =>
        obtain rfl := Option.some.inj h
        exact .syncs hs.1 hs.2
      | false =>
        obtain rfl := Option.some.inj h
        exact .fails hs.1
    · cases h
  | collect i event =>
    obtain ⟨⟨hr, hi⟩, rfl⟩ : (s.running ∧ s.collecting i = true) ∧ s.sendEvent event = t := by
      simpa [reactorStep] using h
    exact .collects hr i hi event
  | collectorEnds i =>
    obtain ⟨⟨hr, -⟩, rfl⟩ : (s.running ∧ s.collecting i = true) ∧
        { s with collecting := Function.update s.collecting i false } = t := by
      simpa [reactorStep] using h
    exact .collectorEnds hr i
  | strategyRecv i answer =>
    simp only [reactorStep] at h
    split at h
    swap
    · cases h
    rename_i hs
    obtain ⟨hi, -, hx, hp⟩ := hs
    split at h
    · rename_i event receiver hrecv
      obtain ⟨hget, hnext⟩ := bus.recv_value hrecv
      obtain rfl := Option.some.inj h
      exact .handles i hi hx hp event answer receiver hget hnext
    · rename_i dropped receiver hrecv
      obtain ⟨hbehind, hnext, hle⟩ := bus.recv_lagged hrecv
      obtain rfl := Option.some.inj h
      exact .strategyLags i hi hx answer dropped receiver hbehind hnext hle
    · rename_i receiver hrecv
      obtain ⟨hclosed, hle⟩ := bus.recv_closed hrecv
      obtain rfl := Option.some.inj h
      exact .strategyExits i hx answer hp (of_decide_eq_true hclosed) hle
    · cases h
  | sendAction i =>
    simp only [reactorStep] at h
    split at h
    · cases h
    · rename_i action rest hp
      split at h
      · obtain rfl := Option.some.inj h
        exact .sends i action rest hp
      · cases h
  | executorRecv j =>
    simp only [reactorStep] at h
    split at h
    swap
    · cases h
    rename_i hs
    split at h
    · rename_i action receiver hrecv
      obtain ⟨hget, hnext⟩ := bus.recv_value hrecv
      obtain rfl := Option.some.inj h
      exact .executes j hs.2 action receiver hget hnext
    · rename_i dropped receiver hrecv
      obtain ⟨hbehind, hnext, hle⟩ := bus.recv_lagged hrecv
      obtain rfl := Option.some.inj h
      exact .executorLags j hs.2 dropped receiver hbehind hnext hle
    · rename_i receiver hrecv
      obtain ⟨hclosed, hle⟩ := bus.recv_closed hrecv
      obtain rfl := Option.some.inj h
      exact .executorExits j (of_decide_eq_true hclosed) hle
    · cases h

/-! ## The invariant -/

/-- A strategy follows the event channel, and exits at its end only. -/
structure StrategyTask.Ok (events : List E) (closed : Prop) (task : StrategyTask E A bus) : Prop where
  follows : Follows events (task.handled.map Prod.fst) (bus.position task.receiver) task.lagged
  exited : task.exited = true → closed ∧ task.pending = [] ∧ events.length ≤ bus.position task.receiver

/-- An executor follows the action channel, and exits at its end only. -/
structure ExecutorTask.Ok (actions : List A) (closed : Prop) (task : ExecutorTask A bus) : Prop where
  follows : Follows actions task.executed (bus.position task.receiver) task.lagged
  exited : task.exited = true → closed ∧ actions.length ≤ bus.position task.receiver

theorem StrategyTask.Ok.subscribed {events : List E} {closed : Prop} {receiver : bus.Receiver E}
    (h : bus.position receiver = 0) : (StrategyTask.subscribed A receiver).Ok events closed where
  follows := by
    show Follows events [] (bus.position receiver) 0
    rw [h]
    exact Follows.nil events
  exited := nofun

theorem ExecutorTask.Ok.subscribed {actions : List A} {closed : Prop} {receiver : bus.Receiver A}
    (h : bus.position receiver = 0) : (ExecutorTask.subscribed receiver).Ok actions closed where
  follows := by
    show Follows actions [] (bus.position receiver) 0
    rw [h]
    exact Follows.nil actions
  exited := nofun

namespace Reactor

/-- The answers of every strategy, less those not sent yet, make up the action channel. -/
def Answered (s : Reactor E A bus config) : Prop :=
  ∃ sent : Fin config.strategies → List A, Interleaves sent (bus.history s.actions) ∧
    ∀ i, (s.strategies i).handled.flatMap Prod.snd = sent i ++ (s.strategies i).pending

/-- Where every task is in its channel. -/
structure Inv (s : Reactor E A bus config) : Prop where
  synced_le : s.synced ≤ config.strategies
  /-- No event before every strategy has synced. -/
  quiet : bus.history s.events ≠ [] → s.running
  unsynced : ∀ i : Fin config.strategies, s.synced ≤ i →
    ∃ receiver, bus.position receiver = 0 ∧ s.strategies i = .subscribed A receiver
  strategies : ∀ i, (s.strategies i).Ok (bus.history s.events) s.eventsClosed
  executors : ∀ j, (s.executors j).Ok (bus.history s.actions) s.actionsClosed
  answered : s.Answered
  sendErrors : s.sendErrors = 0

variable {s t : Reactor E A bus config} {i : Fin config.strategies} {j : Fin config.executors}

theorem position_start (α : Type) (capacity : ℕ) :
    bus.position (bus.subscribe (bus.channel α capacity)) = 0 := by
  rw [bus.position_subscribe, bus.history_channel, List.length_nil]

theorem Inv.start : (Reactor.start E A bus config).Inv where
  synced_le := Nat.zero_le _
  quiet h := absurd (bus.history_channel E _) h
  unsynced _ _ := ⟨_, position_start E _, rfl⟩
  strategies _ := .subscribed (position_start E _)
  executors _ := .subscribed (position_start A _)
  answered := by
    refine ⟨fun _ => [], ?_, fun _ => rfl⟩
    show Interleaves _ (bus.history (bus.channel A _))
    rw [bus.history_channel]
    exact Interleaves.nil
  sendErrors := rfl

theorem Inv.executor_live (h : s.Inv) (hx : (s.strategies i).exited = false) (j : Fin config.executors) :
    (s.executors j).exited = false := by
  by_contra hj
  have hall := ((h.executors j).exited (by simpa using hj)).1.2 i
  simp [hx] at hall

theorem Inv.strategy_live (h : s.Inv) {c : Fin config.collectors} (hc : s.collecting c = true)
    (i : Fin config.strategies) : (s.strategies i).exited = false := by
  by_contra hi
  have hall := ((h.strategies i).exited (by simpa using hi)).1.2 c
  simp [hc] at hall

theorem Inv.live_of_pending (h : s.Inv) (hp : (s.strategies i).pending ≠ []) :
    (s.strategies i).exited = false := by
  by_contra hi
  exact hp ((h.strategies i).exited (by simpa using hi)).2.1

theorem Inv.setStrategy (h : s.Inv) (hi : i < s.synced) (hx : (s.strategies i).exited = false)
    {task : StrategyTask E A bus} (hok : task.Ok (bus.history s.events) s.eventsClosed)
    (hsent : ∀ sent, (s.strategies i).handled.flatMap Prod.snd = sent ++ (s.strategies i).pending →
      task.handled.flatMap Prod.snd = sent ++ task.pending) : (s.setStrategy i task).Inv where
  synced_le := h.synced_le
  quiet := h.quiet
  unsynced k hk := by
    have hne : k ≠ i := fun hki => by
      subst hki
      exact absurd hi (not_lt.mpr hk)
    show ∃ receiver, _ ∧ Function.update s.strategies i task k = _
    rw [Function.update_of_ne hne]
    exact h.unsynced k hk
  strategies k := by
    show (Function.update s.strategies i task k).Ok (bus.history s.events) s.eventsClosed
    by_cases hk : k = i
    · subst hk
      simpa using hok
    · simpa [Function.update_of_ne hk] using h.strategies k
  executors k := by
    refine ⟨(h.executors k).follows, fun hexited => ?_⟩
    have hlive := h.executor_live hx k
    exact absurd hexited (by simpa [Reactor.setStrategy] using hlive)
  answered := by
    obtain ⟨sent, hinter, heq⟩ := h.answered
    refine ⟨sent, hinter, fun k => ?_⟩
    by_cases hk : k = i
    · subst hk
      simpa [Reactor.setStrategy] using hsent _ (heq k)
    · simpa [Reactor.setStrategy, Function.update_of_ne hk] using heq k
  sendErrors := h.sendErrors

theorem Inv.setExecutor (h : s.Inv) {task : ExecutorTask A bus}
    (hok : task.Ok (bus.history s.actions) s.actionsClosed) : (s.setExecutor j task).Inv where
  synced_le := h.synced_le
  quiet := h.quiet
  unsynced := h.unsynced
  strategies := h.strategies
  executors k := by
    show (Function.update s.executors j task k).Ok (bus.history s.actions) s.actionsClosed
    by_cases hk : k = j
    · subst hk
      simpa using hok
    · simpa [Function.update_of_ne hk] using h.executors k
  answered := h.answered
  sendErrors := h.sendErrors

/-- A value that a live receiver waits for is kept. -/
theorem sendEvent_of_live (h : (s.strategies i).exited = false) (event : E) :
    ∃ events, s.sendEvent event = { s with events } ∧ bus.history events = bus.history s.events ++ [event] := by
  obtain ⟨events, hsend, hhistory⟩ := bus.send_received s.events event
  refine ⟨events, ?_, hhistory⟩
  have hlive : decide (∃ i, (s.strategies i).exited = false) = true := decide_eq_true ⟨i, h⟩
  rw [sendEvent, hlive, hsend]

theorem sendAction_of_live (h : (s.executors j).exited = false) (action : A) :
    ∃ actions, s.sendAction action = { s with actions } ∧
      bus.history actions = bus.history s.actions ++ [action] := by
  obtain ⟨actions, hsend, hhistory⟩ := bus.send_received s.actions action
  refine ⟨actions, ?_, hhistory⟩
  have hlive : decide (∃ j, (s.executors j).exited = false) = true := decide_eq_true ⟨j, h⟩
  rw [sendAction, hlive, hsend]

theorem Inv.sendEvent (h : s.Inv) (hr : s.running) {c : Fin config.collectors} (hc : s.collecting c = true)
    {event : E} {events : bus.Channel E config.eventChannelCapacity}
    (hhistory : bus.history events = bus.history s.events ++ [event]) : Inv { s with events } where
  synced_le := h.synced_le
  quiet _ := hr
  unsynced := h.unsynced
  strategies i := by
    refine ⟨hhistory ▸ (h.strategies i).follows.append [event], fun hexited => ?_⟩
    have hlive := h.strategy_live hc i
    exact absurd hexited (by simp [hlive])
  executors := h.executors
  answered := h.answered
  sendErrors := h.sendErrors

theorem Inv.sendAction (h : s.Inv) {action : A} {rest : List A}
    (hp : (s.strategies i).pending = action :: rest) {actions : bus.Channel A config.actionChannelCapacity}
    (hhistory : bus.history actions = bus.history s.actions ++ [action]) :
    Inv { s.setStrategy i { s.strategies i with pending := rest } with actions } where
  synced_le := h.synced_le
  quiet := h.quiet
  unsynced k hk := by
    show ∃ receiver, _ ∧ Function.update s.strategies i _ k = _
    obtain ⟨receiver, hposition, hfresh⟩ := h.unsynced k hk
    have hne : k ≠ i := by
      rintro rfl
      simp [hfresh, StrategyTask.subscribed] at hp
    rw [Function.update_of_ne hne]
    exact ⟨receiver, hposition, hfresh⟩
  strategies k := by
    show (Function.update s.strategies i _ k).Ok (bus.history s.events) s.eventsClosed
    by_cases hk : k = i
    · subst hk
      rw [Function.update_self]
      refine ⟨(h.strategies k).follows, fun hexited => ?_⟩
      have hlive := h.live_of_pending (i := k) (by simp [hp])
      exact absurd hexited (by simp [hlive])
    · simpa [Function.update_of_ne hk] using h.strategies k
  executors k := by
    refine ⟨hhistory ▸ (h.executors k).follows.append [action], fun hexited => ?_⟩
    have hlive := h.executor_live (h.live_of_pending (i := i) (by simp [hp])) k
    exact absurd hexited (by simpa [Reactor.setStrategy] using hlive)
  answered := by
    obtain ⟨sent, hinter, heq⟩ := h.answered
    refine ⟨Function.update sent i (sent i ++ [action]), hhistory ▸ hinter.snoc i action, fun k => ?_⟩
    show (Function.update s.strategies i _ k).handled.flatMap Prod.snd =
      _ ++ (Function.update s.strategies i _ k).pending
    by_cases hk : k = i
    · subst hk
      simp [heq k, hp]
    · simpa [Function.update_of_ne hk] using heq k
  sendErrors := h.sendErrors

theorem Inv.unsynced_live (h : s.Inv) (hlt : s.synced < config.strategies) :
    (∀ k, (s.strategies k).exited ≠ true) ∧ ∀ k, (s.executors k).exited ≠ true :=
  ⟨fun k hexited => hlt.ne ((h.strategies k).exited hexited).1.1.1,
    fun k hexited => hlt.ne ((h.executors k).exited hexited).1.1.1⟩

theorem Inv.quiet_of_unsynced (h : s.Inv) (hlt : s.synced < config.strategies) : bus.history s.events = [] := by
  by_contra hne
  exact absurd (h.quiet hne).1 hlt.ne

theorem Inv.syncs (h : s.Inv) (hlt : s.synced < config.strategies) :
    Inv { s.setStrategy ⟨s.synced, hlt⟩ (.subscribed A (bus.subscribe s.events)) with
      synced := s.synced + 1 } := by
  have hquiet := h.quiet_of_unsynced hlt
  obtain ⟨hstrategies, hexecutors⟩ := h.unsynced_live hlt
  have hposition : bus.position (bus.subscribe s.events) = 0 := by
    rw [bus.position_subscribe, hquiet, List.length_nil]
  obtain ⟨_, -, hfresh⟩ := h.unsynced ⟨s.synced, hlt⟩ le_rfl
  refine ⟨hlt, fun hne => absurd hquiet hne, fun k hk => ?_, fun k => ?_, fun k => ?_, ?_, h.sendErrors⟩
  · have hne : k ≠ ⟨s.synced, hlt⟩ := fun heq => by
      subst heq
      exact absurd hk (Nat.not_succ_le_self _)
    show ∃ receiver, _ ∧ Function.update s.strategies _ _ k = _
    rw [Function.update_of_ne hne]
    exact h.unsynced k (Nat.le_of_succ_le hk)
  · show (Function.update s.strategies _ _ k).Ok _ _
    by_cases hk : k = ⟨s.synced, hlt⟩
    · subst hk
      rw [Function.update_self]
      exact .subscribed hposition
    · rw [Function.update_of_ne hk]
      exact ⟨(h.strategies k).follows, fun hexited => absurd hexited (hstrategies k)⟩
  · exact ⟨(h.executors k).follows, fun hexited => absurd hexited (hexecutors k)⟩
  · obtain ⟨sent, hinter, heq⟩ := h.answered
    refine ⟨sent, hinter, fun k => ?_⟩
    show (Function.update s.strategies _ _ k).handled.flatMap Prod.snd =
      sent k ++ (Function.update s.strategies _ _ k).pending
    by_cases hk : k = ⟨s.synced, hlt⟩
    · have hsent := heq k
      rw [hk, hfresh] at hsent
      rw [hk, Function.update_self]
      exact hsent
    · rw [Function.update_of_ne hk]
      exact heq k

theorem Inv.step (hn : 0 < config.strategies) (hm : 0 < config.executors) {a : ReactorAct E A config} (h : s.Inv)
    (hs : reactorStep s a = some t) : t.Inv := by
  cases reactorStep_moves hs with
  | syncs hlt hf => exact h.syncs hlt
  | fails hlt =>
    obtain ⟨hstrategies, hexecutors⟩ := h.unsynced_live hlt
    refine ⟨h.synced_le, fun hne => absurd (h.quiet_of_unsynced hlt) hne, h.unsynced, fun k => ?_, fun k => ?_,
      h.answered, h.sendErrors⟩
    · exact ⟨(h.strategies k).follows, fun hexited => absurd hexited (hstrategies k)⟩
    · exact ⟨(h.executors k).follows, fun hexited => absurd hexited (hexecutors k)⟩
  | collects hr c hc event =>
    obtain ⟨events, hsend, hhistory⟩ := sendEvent_of_live (h.strategy_live hc ⟨0, hn⟩) event
    rw [hsend]
    exact h.sendEvent hr hc hhistory
  | collectorEnds hr c =>
    have hclosed : s.eventsClosed →
        Reactor.eventsClosed { s with collecting := Function.update s.collecting c false } := by
      rintro ⟨hrun, hall⟩
      refine ⟨hrun, fun k => ?_⟩
      by_cases hk : k = c <;> simp [hk, hall]
    refine ⟨h.synced_le, h.quiet, h.unsynced, fun k => ?_, h.executors, h.answered, h.sendErrors⟩
    exact ⟨(h.strategies k).follows, fun hx => ((h.strategies k).exited hx).imp_left hclosed⟩
  | handles i hi hx hp event answer receiver hget hnext =>
    refine h.setStrategy hi hx ⟨?_, fun hexited => absurd hexited (by simp [hx])⟩ fun sent hsent => ?_
    · have htaken := (h.strategies i).follows.take hget
      rw [← hnext] at htaken
      simpa using htaken
    · simpa [hp] using hsent
  | strategyLags i hi hx answer dropped receiver hbehind hnext hle =>
    refine h.setStrategy hi hx ⟨?_, fun hexited => absurd hexited (by simp [hx])⟩ fun sent hsent => hsent
    rw [hnext] at hle ⊢
    exact (h.strategies i).follows.skip hle
  | strategyExits i hx answer hp hclosed hle =>
    have hi : (i : ℕ) < s.synced := by rw [hclosed.1.1]; exact i.2
    exact h.setStrategy hi hx ⟨(h.strategies i).follows, fun _ => ⟨hclosed, hp, hle⟩⟩ fun sent hsent => hsent
  | sends i action rest hp =>
    have hlive := h.executor_live (h.live_of_pending (i := i) (by simp [hp])) ⟨0, hm⟩
    obtain ⟨actions, hsend, hhistory⟩ := sendAction_of_live
      (s := s.setStrategy i { s.strategies i with pending := rest }) hlive action
    rw [hsend]
    exact h.sendAction hp hhistory
  | executes j hx action receiver hget hnext =>
    refine h.setExecutor ⟨?_, fun hexited => absurd hexited (by simp [hx])⟩
    rw [hnext]
    exact (h.executors j).follows.take hget
  | executorLags j hx dropped receiver hbehind hnext hle =>
    refine h.setExecutor ⟨?_, fun hexited => absurd hexited (by simp [hx])⟩
    rw [hnext] at hle ⊢
    exact (h.executors j).follows.skip hle
  | executorExits j hclosed hle =>
    exact h.setExecutor ⟨(h.executors j).follows, fun _ => ⟨hclosed, hle⟩⟩

theorem Inv.of_run (hn : 0 < config.strategies) (hm : 0 < config.executors)
    {guard : Reactor E A bus config → ReactorAct E A config → Prop} {acts : List (ReactorAct E A config)}
    (hrun : Run reactorStep guard (Reactor.start E A bus config) acts s) : s.Inv :=
  hrun.invariant (fun _ _ _ h _ hs => h.step hn hm hs) Inv.start

end Reactor

end AlulaKeeper
