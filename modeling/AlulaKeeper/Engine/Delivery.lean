import Mathlib
import AlulaKeeper.Engine.Reactor

/-!
# What the reactor delivers

* `strategies_follow_events`: strategies handle the events in order, none of them twice, and none before all
  of them have synced.
* `executors_follow_answers`: executors execute the strategies' answers, each strategy's in its order.
* `nothing_lost_within_capacity`: nothing is dropped while no receiver falls behind by a whole channel.
* `reactor_drains`: a run that cannot go on has handled and executed everything.
-/

namespace AlulaKeeper

open Broadcast Steps

variable {E A : Type} {bus : Channels} {config : EngineConfig}

/-! ## Events -/

/-- The event a collector yields. -/
def ReactorAct.event : ReactorAct E A config → Option E
  | .collect _ event => some event
  | _ => none

/-- The events of a run. -/
def collected (acts : List (ReactorAct E A config)) : List E := acts.filterMap ReactorAct.event

namespace Reactor

variable {s t u : Reactor E A bus config} {a : ReactorAct E A config} {acts : List (ReactorAct E A config)}
  {guard : Reactor E A bus config → ReactorAct E A config → Prop}

theorem events_sendAction (action : A) : (s.sendAction action).events = s.events := by
  unfold sendAction
  split <;> rfl

theorem Inv.history_step (hn : 0 < config.strategies) (h : s.Inv) (hs : reactorStep s a = some t) :
    bus.history t.events = bus.history s.events ++ a.event.toList := by
  cases reactorStep_moves hs with
  | collects hr c hc event =>
    obtain ⟨events, hsend, hhistory⟩ := sendEvent_of_live (h.strategy_live hc ⟨0, hn⟩) event
    rw [hsend]
    exact hhistory
  | sends i action rest hp =>
    rw [events_sendAction]
    exact (List.append_nil _).symm
  | syncs | fails | collectorEnds | handles | strategyLags | strategyExits | executes | executorLags
  | executorExits => exact (List.append_nil _).symm

theorem Inv.history_run (hn : 0 < config.strategies) (hm : 0 < config.executors)
    (hrun : Run reactorStep guard s acts u) (h : s.Inv) :
    bus.history u.events = bus.history s.events ++ collected acts := by
  induction hrun with
  | nil s => simp [collected]
  | @cons s t u a acts hg hs hr ih =>
    rw [ih (h.step hn hm hs), h.history_step hn hs]
    cases hevent : a.event <;> simp [collected, hevent]

theorem history_eq_collected (hn : 0 < config.strategies) (hm : 0 < config.executors)
    (hrun : Run reactorStep guard (Reactor.start E A bus config) acts s) :
    bus.history s.events = collected acts := by
  have hhistory := Inv.history_run hn hm hrun Inv.start
  have hstart : bus.history (Reactor.start E A bus config).events = [] := bus.history_channel E _
  rwa [hstart, List.nil_append] at hhistory

end Reactor

/-! ## A run -/

/-- One task of each kind, and channels that keep one value. -/
abbrev smallEngine : EngineConfig where
  collectors := 1
  strategies := 1
  executors := 1
  eventChannelCapacity := 1
  actionChannelCapacity := 1

/-- The second event overwrites the first, and the second of its two actions the first of them. -/
def laggingRun : List (ReactorAct ℕ ℕ smallEngine) :=
  [.syncState true, .collect 0 5, .collect 0 7, .strategyRecv 0 [], .strategyRecv 0 [70, 71], .sendAction 0,
    .sendAction 0, .executorRecv 0, .executorRecv 0, .collectorEnds 0, .strategyRecv 0 [], .executorRecv 0]

theorem run_laggingRun :
    ∃ s, Run reactorStep (fun _ _ => True) (Reactor.start ℕ ℕ ring smallEngine) laggingRun s ∧
      (s.strategies 0).handled = [(7, [70, 71])] ∧ (s.executors 0).executed = [71] ∧
      s.eventsClosed ∧ s.actionsClosed ∧ (s.executors 0).exited = true := by
  have hexec : (exec reactorStep (fun _ _ => True) (Reactor.start ℕ ℕ ring smallEngine) laggingRun).map (fun s =>
      ((s.strategies 0).handled, (s.executors 0).executed, decide s.eventsClosed, decide s.actionsClosed,
        (s.executors 0).exited)) = some ([(7, [70, 71])], [71], true, true, true) := by decide
  obtain ⟨s, hs, hends⟩ := Option.map_eq_some_iff.mp hexec
  simp only [Prod.mk.injEq, decide_eq_true_eq] at hends
  exact ⟨s, .of_exec hs, hends⟩

/-- Two events, each handled and its action executed before the next. -/
def roomyRun : List (ReactorAct ℕ ℕ smallEngine) :=
  [.syncState true, .collect 0 5, .strategyRecv 0 [50], .collect 0 7, .sendAction 0, .executorRecv 0,
    .strategyRecv 0 [70], .sendAction 0, .executorRecv 0]

/-! ## What strategies handle -/

section Strategies

variable {s : Reactor E A bus config} {acts : List (ReactorAct E A config)}
  {guard : Reactor E A bus config → ReactorAct E A config → Prop}

/-- **Strategies follow the events.** In every state a reactor reaches, the events a strategy has handled are,
in the order the collectors yielded them and none of them twice, all of those before its position but the ones
it has counted as dropped; no send has failed; and before every strategy has synced there is no event to handle. -/
theorem strategies_follow_events (hn : 0 < config.strategies) (hm : 0 < config.executors)
    (hrun : Run reactorStep (fun _ _ => True) (Reactor.start E A bus config) acts s) :
    (∀ i, Follows (collected acts) ((s.strategies i).handled.map Prod.fst) (bus.position (s.strategies i).receiver)
        (s.strategies i).lagged) ∧
      (∀ i, (s.strategies i).lagged = 0 →
        (s.strategies i).handled.map Prod.fst = (collected acts).take (bus.position (s.strategies i).receiver)) ∧
      s.sendErrors = 0 ∧
      (s.synced < config.strategies → collected acts = [] ∧ (∀ i, (s.strategies i).handled = []) ∧
        ∀ j, (s.executors j).executed = []) := by
  have hinv := Reactor.Inv.of_run hn hm hrun
  have hhistory := Reactor.history_eq_collected hn hm hrun
  have hfollows : ∀ i, Follows (collected acts) ((s.strategies i).handled.map Prod.fst)
      (bus.position (s.strategies i).receiver) (s.strategies i).lagged := fun i => by
    rw [← hhistory]
    exact (hinv.strategies i).follows
  refine ⟨hfollows, fun i hlagged => ?_, hinv.sendErrors, fun hsynced => ?_⟩
  · have h := hfollows i
    rw [hlagged] at h
    exact h.eq_take
  have hquiet : collected acts = [] := by
    rw [← hhistory]
    by_contra hne
    exact hsynced.ne (hinv.quiet hne).1
  have hhandled : ∀ i, (s.strategies i).handled = [] := fun i => by
    have h := (hfollows i).sublist
    rw [hquiet, List.take_nil, List.sublist_nil, List.map_eq_nil_iff] at h
    exact h
  refine ⟨hquiet, hhandled, fun j => ?_⟩
  obtain ⟨sent, hinter, heq⟩ := hinv.answered
  have hactions : bus.history s.actions = [] := by
    refine List.eq_nil_iff_forall_not_mem.mpr fun action hmem => ?_
    obtain ⟨i, hi⟩ := hinter.exists_mem hmem
    have hnil := heq i
    rw [hhandled i, List.flatMap_nil, eq_comm, List.append_eq_nil_iff] at hnil
    rw [hnil.1] at hi
    exact absurd hi List.not_mem_nil
  have h := (hinv.executors j).follows.sublist
  rwa [hactions, List.take_nil, List.sublist_nil] at h

/-- One event of two is handled, and the other counted. -/
theorem strategies_follow_events_lagging :
    ∃ s, Run reactorStep (fun _ _ => True) (Reactor.start ℕ ℕ ring smallEngine) laggingRun s ∧
      (s.strategies 0).handled = [(7, [70, 71])] ∧
      Follows [5, 7] ((s.strategies 0).handled.map Prod.fst) (ring.position (s.strategies 0).receiver)
        (s.strategies 0).lagged ∧ s.sendErrors = 0 := by
  obtain ⟨s, hrun, hhandled, -⟩ := run_laggingRun
  obtain ⟨hfollows, -, herrors, -⟩ := strategies_follow_events (by decide) (by decide) hrun
  exact ⟨s, hrun, hhandled, hfollows 0, herrors⟩

/-! ## What executors execute -/

/-- **Executors follow the answers.** The actions sent are a shuffle of the strategies' answers, each
strategy's in its order and up to those it has still to send. Every executor executes them in the order sent,
none of them twice, all before its position but the ones it has counted as dropped; so it executes no action
that no strategy answered to an event some collector yielded. -/
theorem executors_follow_answers (hn : 0 < config.strategies) (hm : 0 < config.executors)
    (hrun : Run reactorStep (fun _ _ => True) (Reactor.start E A bus config) acts s) :
    ∃ sent : Fin config.strategies → List A,
      (∀ i, (s.strategies i).handled.flatMap Prod.snd = sent i ++ (s.strategies i).pending) ∧
      Interleaves sent (bus.history s.actions) ∧
      (∀ j, Follows (bus.history s.actions) (s.executors j).executed (bus.position (s.executors j).receiver)
        (s.executors j).lagged) ∧
      ∀ j, ∀ action ∈ (s.executors j).executed,
        ∃ i, ∃ call ∈ (s.strategies i).handled, action ∈ call.2 ∧ call.1 ∈ collected acts := by
  have hinv := Reactor.Inv.of_run hn hm hrun
  have hhistory := Reactor.history_eq_collected hn hm hrun
  obtain ⟨sent, hinter, heq⟩ := hinv.answered
  refine ⟨sent, heq, hinter, fun j => (hinv.executors j).follows, fun j action hmem => ?_⟩
  have hsub := (hinv.executors j).follows.sublist.trans (List.take_sublist _ _)
  obtain ⟨i, hi⟩ := hinter.exists_mem (hsub.subset hmem)
  have hanswer : action ∈ (s.strategies i).handled.flatMap Prod.snd := by
    rw [heq i]
    exact List.mem_append_left _ hi
  obtain ⟨call, hcall, haction⟩ := List.mem_flatMap.mp hanswer
  have hevent : call.1 ∈ bus.history s.events :=
    ((hinv.strategies i).follows.sublist.trans (List.take_sublist _ _)).subset
      (List.mem_map.mpr ⟨call, hcall, rfl⟩)
  exact ⟨i, call, hcall, haction, hhistory ▸ hevent⟩

theorem executors_follow_answers_lagging :
    ∃ s, Run reactorStep (fun _ _ => True) (Reactor.start ℕ ℕ ring smallEngine) laggingRun s ∧
      (s.executors 0).executed = [71] ∧
      ∃ i, ∃ call ∈ (s.strategies i).handled, 71 ∈ call.2 ∧ call.1 ∈ collected laggingRun := by
  obtain ⟨s, hrun, -, hexecuted, -⟩ := run_laggingRun
  obtain ⟨sent, -, -, -, hanswers⟩ := executors_follow_answers (by decide) (by decide) hrun
  exact ⟨s, hrun, hexecuted, hanswers 0 71 (by simp [hexecuted])⟩

/-! ## Nothing lost -/

/-- Values are sent only while no receiver is a whole channel behind. -/
def Reactor.Roomy (s : Reactor E A bus config) : ReactorAct E A config → Prop
  | .collect _ _ =>
    ∀ i, (bus.history s.events).length < bus.position (s.strategies i).receiver + config.eventChannelCapacity
  | .sendAction _ =>
    ∀ j, (bus.history s.actions).length < bus.position (s.executors j).receiver + config.actionChannelCapacity
  | _ => True

instance (s : Reactor E A bus config) : ∀ a, Decidable (s.Roomy a)
  | .collect _ _ | .sendAction _ => inferInstanceAs (Decidable (∀ _, _ < _))
  | .syncState _ | .collectorEnds _ | .strategyRecv _ _ | .executorRecv _ => isTrue trivial

/-- No receiver is more than a channel behind, and none has dropped anything. -/
structure Reactor.Kept (s : Reactor E A bus config) : Prop where
  strategies : ∀ i, (s.strategies i).lagged = 0 ∧
    (bus.history s.events).length ≤ bus.position (s.strategies i).receiver + config.eventChannelCapacity
  executors : ∀ j, (s.executors j).lagged = 0 ∧
    (bus.history s.actions).length ≤ bus.position (s.executors j).receiver + config.actionChannelCapacity

namespace Reactor

variable {t : Reactor E A bus config} {a : ReactorAct E A config}

theorem Kept.start : (Reactor.start E A bus config).Kept where
  strategies _ := by
    refine ⟨rfl, ?_⟩
    show (bus.history (bus.channel E _)).length ≤ _
    simp [bus.history_channel]
  executors _ := by
    refine ⟨rfl, ?_⟩
    show (bus.history (bus.channel A _)).length ≤ _
    simp [bus.history_channel]

theorem Kept.setStrategy (h : s.Kept) (i : Fin config.strategies) {task : StrategyTask E A bus}
    (hlagged : task.lagged = 0)
    (hle : (bus.history s.events).length ≤ bus.position task.receiver + config.eventChannelCapacity) :
    (s.setStrategy i task).Kept where
  strategies k := by
    show (Function.update s.strategies i task k).lagged = 0 ∧
      (bus.history s.events).length ≤ bus.position (Function.update s.strategies i task k).receiver + _
    by_cases hk : k = i
    · subst hk
      simpa using ⟨hlagged, hle⟩
    · simpa [Function.update_of_ne hk] using h.strategies k
  executors := h.executors

theorem Kept.setExecutor (h : s.Kept) (j : Fin config.executors) {task : ExecutorTask A bus}
    (hlagged : task.lagged = 0)
    (hle : (bus.history s.actions).length ≤ bus.position task.receiver + config.actionChannelCapacity) :
    (s.setExecutor j task).Kept where
  strategies := h.strategies
  executors k := by
    show (Function.update s.executors j task k).lagged = 0 ∧
      (bus.history s.actions).length ≤ bus.position (Function.update s.executors j task k).receiver + _
    by_cases hk : k = j
    · subst hk
      simpa using ⟨hlagged, hle⟩
    · simpa [Function.update_of_ne hk] using h.executors k

/-- A send with room for it overwrites no value a receiver waits for. -/
theorem Kept.step (hinv : s.Inv) (hn : 0 < config.strategies) (hm : 0 < config.executors) (h : s.Kept)
    (hroom : s.Roomy a) (hs : reactorStep s a = some t) : t.Kept := by
  cases reactorStep_moves hs with
  | syncs hlt hf =>
    have hkept : (s.setStrategy ⟨s.synced, hlt⟩ (.subscribed A (bus.subscribe s.events))).Kept :=
      h.setStrategy _ rfl (by simp [StrategyTask.subscribed, bus.position_subscribe])
    exact ⟨hkept.strategies, hkept.executors⟩
  | fails hlt => exact ⟨h.strategies, h.executors⟩
  | collects hr c hc event =>
    obtain ⟨events, hsend, hhistory⟩ := sendEvent_of_live (hinv.strategy_live hc ⟨0, hn⟩) event
    rw [hsend]
    refine ⟨fun i => ⟨(h.strategies i).1, ?_⟩, h.executors⟩
    rw [hhistory, List.length_append]
    exact hroom i
  | collectorEnds hr c => exact ⟨h.strategies, h.executors⟩
  | handles i hi hx hp event answer receiver hget hnext =>
    have hle := (h.strategies i).2
    exact h.setStrategy i (h.strategies i).1 (by dsimp only; omega)
  | strategyLags i hi hx answer dropped receiver hbehind hnext hle =>
    exact absurd (h.strategies i).2 (by omega)
  | strategyExits i hx answer hp hclosed hle =>
    exact h.setStrategy i (h.strategies i).1 (h.strategies i).2
  | sends i action rest hp =>
    have hkept : (s.setStrategy i { s.strategies i with pending := rest }).Kept :=
      h.setStrategy i (h.strategies i).1 (h.strategies i).2
    have hlive := hinv.executor_live (hinv.live_of_pending (i := i) (by simp [hp])) ⟨0, hm⟩
    obtain ⟨actions, hsend, hhistory⟩ := sendAction_of_live
      (s := s.setStrategy i { s.strategies i with pending := rest }) hlive action
    rw [hsend]
    refine ⟨hkept.strategies, fun j => ⟨(h.executors j).1, ?_⟩⟩
    rw [hhistory, List.length_append]
    exact hroom j
  | executes j hx action receiver hget hnext =>
    have hle := (h.executors j).2
    exact h.setExecutor j (h.executors j).1 (by dsimp only; omega)
  | executorLags j hx dropped receiver hbehind hnext hle =>
    exact absurd (h.executors j).2 (by omega)
  | executorExits j hclosed hle =>
    exact h.setExecutor j (h.executors j).1 (h.executors j).2

theorem Kept.of_run (hn : 0 < config.strategies) (hm : 0 < config.executors)
    (hrun : Run reactorStep Roomy (Reactor.start E A bus config) acts s) : s.Kept := by
  have hboth : s.Inv ∧ s.Kept := by
    refine hrun.invariant (I := fun s => s.Inv ∧ s.Kept) (fun _ _ _ h hroom hs => ?_) ⟨Inv.start, Kept.start⟩
    exact ⟨h.1.step hn hm hs, h.2.step h.1 hn hm hroom hs⟩
  exact hboth.2

end Reactor

/-- **Nothing is lost within the capacity.** If values are sent only while no receiver is a whole channel
behind, every strategy has handled exactly the events before its position, and every executor executed exactly
the actions before its own. -/
theorem nothing_lost_within_capacity (hn : 0 < config.strategies) (hm : 0 < config.executors)
    (hrun : Run reactorStep Reactor.Roomy (Reactor.start E A bus config) acts s) :
    (∀ i, (s.strategies i).handled.map Prod.fst = (collected acts).take (bus.position (s.strategies i).receiver)) ∧
      ∀ j, (s.executors j).executed = (bus.history s.actions).take (bus.position (s.executors j).receiver) := by
  have hinv := Reactor.Inv.of_run hn hm hrun
  have hkept := Reactor.Kept.of_run hn hm hrun
  have hhistory := Reactor.history_eq_collected hn hm hrun
  constructor
  · intro i
    have h := (hinv.strategies i).follows
    rw [(hkept.strategies i).1, hhistory] at h
    exact h.eq_take
  · intro j
    have h := (hinv.executors j).follows
    rw [(hkept.executors j).1] at h
    exact h.eq_take

theorem nothing_lost_roomy :
    ∃ s, Run reactorStep Reactor.Roomy (Reactor.start ℕ ℕ ring smallEngine) roomyRun s ∧
      (s.strategies 0).handled.map Prod.fst = [5, 7] ∧
      (s.executors 0).executed = (ring.history s.actions).take 2 := by
  have hexec : (exec reactorStep Reactor.Roomy (Reactor.start ℕ ℕ ring smallEngine) roomyRun).map (fun s =>
      (ring.position (s.strategies 0).receiver, ring.position (s.executors 0).receiver)) = some (2, 2) := by
    decide
  obtain ⟨s, hs, hends⟩ := Option.map_eq_some_iff.mp hexec
  obtain ⟨hstrategy, hexecutor⟩ := Prod.mk.inj hends
  obtain ⟨hhandled, hexecuted⟩ := nothing_lost_within_capacity (by decide) (by decide) (Run.of_exec hs)
  refine ⟨s, .of_exec hs, ?_, ?_⟩
  · rw [hhandled 0, hstrategy]
    rfl
  · rw [hexecuted 0, hexecutor]

/-! ## The end of a run -/

namespace Reactor

theorem strategyRecv_isSome {i : Fin config.strategies} (hi : i < s.synced) (hf : s.failed = false)
    (hx : (s.strategies i).exited = false) (hp : (s.strategies i).pending = []) (hclosed : s.eventsClosed) :
    reactorStep s (.strategyRecv i []) ≠ none := by
  have henabled : i < s.synced ∧ s.failed = false ∧ (s.strategies i).exited = false ∧
      (s.strategies i).pending = [] := ⟨hi, hf, hx, hp⟩
  unfold reactorStep
  dsimp only
  rw [if_pos henabled]
  split
  · simp
  · simp
  · simp
  · rename_i hrecv
    exact absurd hclosed (of_decide_eq_false (bus.recv_pending hrecv))

theorem executorRecv_isSome {j : Fin config.executors} (hf : s.failed = false)
    (hx : (s.executors j).exited = false) (hclosed : s.actionsClosed) :
    reactorStep s (.executorRecv j) ≠ none := by
  unfold reactorStep
  dsimp only
  rw [if_pos ⟨hf, hx⟩]
  split
  · simp
  · simp
  · simp
  · rename_i hrecv
    exact absurd hclosed (of_decide_eq_false (bus.recv_pending hrecv))

theorem sendAction_isSome {i : Fin config.strategies} (hf : s.failed = false)
    (hp : (s.strategies i).pending ≠ []) : reactorStep s (.sendAction i) ≠ none := by
  simp only [reactorStep, if_pos hf]
  split
  · exact absurd (by assumption) hp
  · simp

/-- **No deadlock.** A reactor that cannot step has failed to start, or all its tasks have exited. -/
theorem Inv.exited_of_stuck (h : s.Inv) (hstuck : ∀ a, reactorStep s a = none) (hf : s.failed = false) :
    (∀ i, (s.strategies i).exited = true) ∧ ∀ j, (s.executors j).exited = true := by
  have hsynced : s.synced = config.strategies := by
    by_contra hne
    have hlt := lt_of_le_of_ne h.synced_le hne
    have hsome := hstuck (.syncState true)
    simp [reactorStep, hlt, hf] at hsome
  have hclosed : s.eventsClosed := by
    refine ⟨⟨hsynced, hf⟩, fun c => ?_⟩
    by_contra hc
    have hsome := hstuck (.collectorEnds c)
    simp [reactorStep, running, hsynced, hf, hc] at hsome
  have hstrategies : ∀ i, (s.strategies i).exited = true := by
    intro i
    by_contra hx
    have hp : (s.strategies i).pending = [] := by
      by_contra hp
      exact sendAction_isSome hf hp (hstuck _)
    have hi : (i : ℕ) < s.synced := by rw [hsynced]; exact i.2
    exact strategyRecv_isSome hi hf (by simpa using hx) hp hclosed (hstuck _)
  refine ⟨hstrategies, fun j => ?_⟩
  by_contra hx
  exact executorRecv_isSome hf (by simpa using hx) ⟨⟨hsynced, hf⟩, hstrategies⟩ (hstuck _)

theorem Inv.stuck_of_exited (h : s.Inv) (hevents : s.eventsClosed) (hactions : s.actionsClosed)
    (hexecutors : ∀ j, (s.executors j).exited = true) (a : ReactorAct E A config) : reactorStep s a = none := by
  cases a with
  | syncState ok => simp [reactorStep, hevents.1.1]
  | collect i event => simp [reactorStep, hevents.2 i]
  | collectorEnds i => simp [reactorStep, hevents.2 i]
  | strategyRecv i answer => simp [reactorStep, hactions.2 i]
  | sendAction i => simp [reactorStep, ((h.strategies i).exited (hactions.2 i)).2.1]
  | executorRecv j => simp [reactorStep, hexecutors j]

end Reactor

/-- **The reactor drains.** Whatever the order of the steps, a run that cannot go on has failed to start, or
every task has exited; then every strategy has handled every event but those it has counted as dropped, all
answers have been sent, and every executor has executed all of them but those it has counted as dropped. -/
theorem reactor_drains (hn : 0 < config.strategies) (hm : 0 < config.executors)
    (hrun : Run reactorStep (fun _ _ => True) (Reactor.start E A bus config) acts s)
    (hstuck : ∀ a, reactorStep s a = none) :
    s.failed = true ∨
      (∀ i, (s.strategies i).exited = true ∧
        ((s.strategies i).handled.map Prod.fst).Sublist (collected acts) ∧
        (s.strategies i).handled.length + (s.strategies i).lagged = (collected acts).length) ∧
      Interleaves (fun i => (s.strategies i).handled.flatMap Prod.snd) (bus.history s.actions) ∧
      ∀ j, (s.executors j).exited = true ∧ (s.executors j).executed.Sublist (bus.history s.actions) ∧
        (s.executors j).executed.length + (s.executors j).lagged =
          ∑ i, ((s.strategies i).handled.flatMap Prod.snd).length := by
  have hinv := Reactor.Inv.of_run hn hm hrun
  have hhistory := Reactor.history_eq_collected hn hm hrun
  cases hf : s.failed with
  | true => exact .inl rfl
  | false =>
    right
    obtain ⟨hstrategies, hexecutors⟩ := hinv.exited_of_stuck hstuck hf
    obtain ⟨sent, hinter, heq⟩ := hinv.answered
    have hsent : (fun i => (s.strategies i).handled.flatMap Prod.snd) = sent := by
      funext i
      rw [heq i, ((hinv.strategies i).exited (hstrategies i)).2.1, List.append_nil]
    refine ⟨fun i => ?_, hsent ▸ hinter, fun j => ?_⟩
    · have hend := ((hinv.strategies i).exited (hstrategies i)).2.2
      have h := (hinv.strategies i).follows.count_of_le hend
      rw [hhistory, List.length_map] at h
      exact ⟨hstrategies i, h⟩
    · have hend := ((hinv.executors j).exited (hexecutors j)).2
      have h := (hinv.executors j).follows.count_of_le hend
      have hsum : (bus.history s.actions).length = ∑ i, ((s.strategies i).handled.flatMap Prod.snd).length :=
        (hsent ▸ hinter : Interleaves _ _).length
      exact ⟨hexecutors j, h.1, h.2.trans hsum⟩

theorem reactor_drains_lagging :
    ∃ s, Run reactorStep (fun _ _ => True) (Reactor.start ℕ ℕ ring smallEngine) laggingRun s ∧
      (s.strategies 0).handled.length + (s.strategies 0).lagged = 2 := by
  obtain ⟨s, hrun, -, -, hevents, hactions, hexited⟩ := run_laggingRun
  have hexecutors : ∀ j, (s.executors j).exited = true := fun j => by
    obtain rfl := Subsingleton.elim j 0
    exact hexited
  have hinv : s.Inv := Reactor.Inv.of_run (by decide) (by decide) hrun
  have hstuck := hinv.stuck_of_exited hevents hactions hexecutors
  refine ⟨s, hrun, ?_⟩
  obtain hfailed | ⟨hstrategies, -⟩ := reactor_drains (by decide) (by decide) hrun hstuck
  · rw [hevents.1.2] at hfailed
    cases hfailed
  · exact (hstrategies 0).2.2

end Strategies

end AlulaKeeper
