import Mathlib
import AlulaKeeper.Lib.Steps
import AlulaKeeper.Lib.Delivery
import AlulaKeeper.Keeper.Obligations

/-!
# The event cursor

The collector of `collect/stellar_event.rs` and the Liquidator's event handler run in separate tasks. The
collector sends a page of events and then saves the page's cursor; the Liquidator applies an event and then
saves that event's id, in the same row of `storage/cursor.rs`. A crash loses everything but the database.

* `IngestAct`, `ingestStep`: the two tasks' atomic steps, and the crash with its restart.
* `Ingest.Resumable`: the saved cursor is past no event that is still to be applied.
* `ingest_resumable`: it stays so if the collector saves no cursor past an event that still waits in the
  channel, and every re-read of an obligation is answered.

A cursor id stands for the number of events up to it. The RPC serves the events after a cursor in order, so a
page is a range of positions; the channels are one queue that never overflows.
-/

namespace AlulaKeeper

open Steps Delivery

/-! ## The stream -/

/-- The events the RPC has for the collector's filter, from the configured ledger on. -/
structure EventStream where
  startLedger : ℕ
  events : List SorobanEvent
  from_start : ∀ event ∈ events, startLedger ≤ event.ledger

/-- The row of the `event_cursor` table. -/
structure EventCursor where
  ledger : ℕ
  cursorId : ℕ
  deriving DecidableEq, Repr

/-- The collector's position in the stream and the page it is sending. -/
structure SorobanEventCollector where
  lastLedger : ℕ
  lastCursorId : Option ℕ
  /-- Events of the current page that are not sent yet. -/
  page : List ℕ
  /-- `response.cursor`, until it is saved; `none` between polls and where the RPC gave none. -/
  pageCursor : Option ℕ
  deriving DecidableEq, Repr

namespace SorobanEventCollector

/-- `try_new`. -/
def tryNew (startLedger : ℕ) : Option EventCursor → SorobanEventCollector
  | some saved =>
    { lastLedger := saved.ledger, lastCursorId := some saved.cursorId, page := [], pageCursor := none }
  | none => { lastLedger := startLedger, lastCursorId := none, page := [], pageCursor := none }

/-- `EventStart`: the position the next poll starts from. -/
def start (stream : EventStream) (collector : SorobanEventCollector) : ℕ :=
  match collector.lastCursorId with
  | some cursor => cursor
  | none => stream.events.findIdx fun event => collector.lastLedger ≤ event.ledger

end SorobanEventCollector

/-! ## The steps -/

/-- The collector, the queue and the Liquidator, with the saved row. -/
structure Ingest where
  row : Option EventCursor
  cache : Cache
  /-- Positions of the events whose writes have been made. -/
  applied : List ℕ
  collector : SorobanEventCollector
  queue : List ℕ
  /-- The event the Liquidator has handled and whose id it is about to save. -/
  saving : Option ℕ

/-- What the collector, the Liquidator and a restart may do next. -/
inductive IngestAct where
  /-- The RPC answers with the next `count` events, with or without a cursor. -/
  | poll (count : ℕ) (withCursor : Bool)
  | send
  | persist
  /-- The Liquidator handles the next event; `answer` is the chain's, should it re-read. -/
  | handle (answer : ChainAnswer)
  | saveCursor
  /-- The process stops and starts again. -/
  | crash
  deriving DecidableEq, Repr

/-- A start over the database: the collector resumes from the row, the memory is loaded from the table. -/
def Ingest.restart (markets : List Address) (stream : EventStream) (row : Option EventCursor)
    (repo : ObligationsRepo) (applied : List ℕ) : Ingest where
  row
  cache := .syncState markets repo
  applied
  collector := .tryNew stream.startLedger row
  queue := []
  saving := none

/-- One atomic step; `none` where it is not enabled. -/
def ingestStep (markets : List Address) (stream : EventStream) (s : Ingest) :
    IngestAct → Option Ingest
  | .poll count withCursor =>
    let start := s.collector.start stream
    if s.collector.page = [] ∧ s.collector.pageCursor = none ∧ start + count ≤ stream.events.length then
      some { s with collector := { s.collector with
        page := List.range' start count
        pageCursor := if withCursor then some (start + count) else none } }
    else none
  | .send =>
    match s.collector.page with
    | [] => none
    | i :: page => do
      let event ← stream.events[i]?
      return { s with
        queue := s.queue ++ [i]
        collector := { s.collector with page, lastLedger := event.ledger } }
  | .persist =>
    match s.collector.page, s.collector.pageCursor with
    | [], some cursor => some { s with
        row := some { ledger := s.collector.lastLedger, cursorId := cursor }
        collector := { s.collector with lastCursorId := some cursor, pageCursor := none } }
    | _, _ => none
  | .handle answer =>
    match s.queue, s.saving with
    | i :: queue, none => do
      let event ← stream.events[i]?
      let handled := s.cache.handleSorobanEvent markets event answer
      return { s with
        queue
        cache := handled.getD s.cache
        applied := if event.writes markets answer = none then s.applied else i :: s.applied
        saving := if handled.isSome then some i else none }
    | _, _ => none
  | .saveCursor => do
    let i ← s.saving
    let event ← stream.events[i]?
    return { s with row := some { ledger := event.ledger, cursorId := i + 1 }, saving := none }
  | .crash => some (.restart markets stream s.row s.cache.repo s.applied)

/-! ## What must not be lost -/

section Resume

variable {markets : List Address} {stream : EventStream} {s t : Ingest} {act : IngestAct}

/-- The event at a position is decodable and of a configured market. -/
def EventStream.Counts (stream : EventStream) (markets : List Address) (i : ℕ) : Prop :=
  ∃ event, stream.events[i]? = some event ∧ event.Decodable markets

/-- Nothing of the event at a position is left to apply. -/
def EventStream.Done (stream : EventStream) (markets : List Address) (applied : List ℕ) (i : ℕ) : Prop :=
  stream.Counts markets i → i ∈ applied

/-- The saved cursor is past no event that is still to be applied. -/
def Ingest.Resumable (markets : List Address) (stream : EventStream) (s : Ingest) : Prop :=
  ∀ saved ∈ s.row, ∀ i < saved.cursorId, stream.Done markets s.applied i

/-- The collector saves no cursor while an event waits in the channel to be applied, and an event that can
be applied is. -/
def Prompt (markets : List Address) (stream : EventStream) (s : Ingest) : IngestAct → Prop
  | .persist => ∀ i ∈ s.queue, stream.Done markets s.applied i
  | .handle answer => ∀ i event, s.queue.head? = some i → stream.events[i]? = some event →
      event.Decodable markets → event.writes markets answer ≠ none ∨ i ∈ s.applied
  | _ => True

/-- What every run of prompt steps keeps. -/
structure Ingest.Flowing (markets : List Address) (stream : EventStream) (s : Ingest) : Prop where
  row : s.Resumable markets stream
  saving : ∀ i ∈ s.saving, ∀ j < i + 1, stream.Done markets s.applied j
  inOrder : InOrder (stream.Done markets s.applied) (s.queue ++ s.collector.page)
  start : Covers (stream.Done markets s.applied) (s.queue ++ s.collector.page) (s.collector.start stream)
  page : ∀ cursor ∈ s.collector.pageCursor,
    Covers (stream.Done markets s.applied) (s.queue ++ s.collector.page) cursor

/-! ## One step -/

theorem findIdx_le_of_getElem {p : SorobanEvent → Bool} {i : ℕ} {event : SorobanEvent}
    (hi : stream.events[i]? = some event) (hp : p event = true) : stream.events.findIdx p ≤ i := by
  obtain ⟨hlt, rfl⟩ := List.getElem?_eq_some_iff.mp hi
  by_contra hnot
  exact absurd hp (by simpa using List.not_of_lt_findIdx (not_le.mp hnot))

theorem start_tryNew_none (stream : EventStream) :
    (SorobanEventCollector.tryNew stream.startLedger none).start stream = 0 := by
  obtain ⟨startLedger, events, hfrom⟩ := stream
  cases events with
  | nil => rfl
  | cons event events =>
    have := hfrom event List.mem_cons_self
    simp [SorobanEventCollector.tryNew, SorobanEventCollector.start, List.findIdx_cons, this]

theorem flowing_restart {row : Option EventCursor} {repo : ObligationsRepo} {applied : List ℕ}
    (h : (Ingest.restart markets stream row repo applied).Resumable markets stream) :
    (Ingest.restart markets stream row repo applied).Flowing markets stream := by
  have hcollector : (Ingest.restart markets stream row repo applied).collector =
    .tryNew stream.startLedger row := rfl
  refine ⟨h, by simp [Ingest.restart], ?_, ?_, ?_⟩
  · cases row <;> trivial
  · cases row with
    | none =>
      rw [hcollector, start_tryNew_none]
      exact fun j hj => absurd hj (Nat.not_lt_zero j)
    | some saved => exact fun j hj => .inl (h saved rfl j hj)
  · cases row <;> simp [Ingest.restart, SorobanEventCollector.tryNew]

theorem flowing_poll {count : ℕ} {withCursor : Bool} (h : s.Flowing markets stream)
    (hs : ingestStep markets stream s (.poll count withCursor) = some t) :
    t.Flowing markets stream := by
  simp only [ingestStep] at hs
  by_cases hidle : s.collector.page = [] ∧ s.collector.pageCursor = none ∧
      s.collector.start stream + count ≤ stream.events.length
  · rw [if_pos hidle] at hs
    cases hs
    have hinOrder := h.inOrder
    have hstart := h.start
    rw [hidle.1, List.append_nil] at hinOrder hstart
    refine ⟨h.row, h.saving, hinOrder.append_range hstart count, hstart.append _, ?_⟩
    cases withCursor with
    | false => simp
    | true => simpa using hstart.append_range count
  · rw [if_neg hidle] at hs
    cases hs

theorem flowing_send (h : s.Flowing markets stream)
    (hs : ingestStep markets stream s .send = some t) : t.Flowing markets stream := by
  simp only [ingestStep] at hs
  split at hs
  · cases hs
  · rename_i i page hpage
    obtain ⟨event, hevent, hs⟩ := Option.bind_eq_some_iff.mp hs
    cases hs
    have hlist : s.queue ++ [i] ++ page = s.queue ++ s.collector.page := by
      rw [hpage, List.append_assoc, List.singleton_append]
    refine ⟨h.row, h.saving, ?_, ?_, ?_⟩
    · exact hlist ▸ h.inOrder
    · cases hcursor : s.collector.lastCursorId with
      | some cursor =>
        have hstart := h.start
        simp only [SorobanEventCollector.start, hcursor] at hstart ⊢
        exact hlist ▸ hstart
      | none =>
        -- a poll without a cursor starts over from the ledger of the last event sent
        have hinOrder := h.inOrder
        rw [hpage] at hinOrder
        simp only [SorobanEventCollector.start]
        refine ((hinOrder.covers.append [i]).append page).of_le ?_
        exact findIdx_le_of_getElem hevent (by simp)
    · exact hlist ▸ h.page

theorem flowing_persist (h : s.Flowing markets stream) (hp : Prompt markets stream s .persist)
    (hs : ingestStep markets stream s .persist = some t) : t.Flowing markets stream := by
  simp only [ingestStep] at hs
  split at hs
  · rename_i cursor hpage hcursor
    cases hs
    have hcovers := h.page cursor hcursor
    refine ⟨?_, h.saving, h.inOrder, hcovers, by simp⟩
    rintro saved ⟨⟩ i hi
    obtain hdone | hqueue := hcovers i hi
    · exact hdone
    · rw [hpage, List.append_nil] at hqueue
      exact hp i hqueue
  · cases hs

theorem flowing_handle {answer : ChainAnswer} (h : s.Flowing markets stream)
    (hp : Prompt markets stream s (.handle answer))
    (hs : ingestStep markets stream s (.handle answer) = some t) : t.Flowing markets stream := by
  simp only [ingestStep] at hs
  split at hs
  · rename_i i queue hqueue hsaving
    obtain ⟨event, hevent, hs⟩ := Option.bind_eq_some_iff.mp hs
    cases hs
    have hinOrder := h.inOrder
    have hstart := h.start
    have hpage := h.page
    rw [hqueue, List.cons_append] at hinOrder hstart hpage
    set applied := if event.writes markets answer = none then s.applied else i :: s.applied with happ
    have hsub : ∀ j ∈ s.applied, j ∈ applied := by
      intro j hj
      rw [happ]
      split_ifs
      · exact hj
      · exact List.mem_cons_of_mem i hj
    have hdone : ∀ j, stream.Done markets s.applied j → stream.Done markets applied j :=
      fun j hj hcounts => hsub j (hj hcounts)
    have hi : stream.Done markets applied i := by
      rintro ⟨event', hevent', hdec⟩
      rw [hevent, Option.some.injEq] at hevent'
      subst hevent'
      obtain hwrites | hin := hp i event (by rw [hqueue]; rfl) hevent hdec
      · rw [happ, if_neg hwrites]
        exact List.mem_cons_self
      · exact hsub i hin
    refine ⟨fun saved hrow j hj => hdone j (h.row saved hrow j hj), ?_, hinOrder.tail hdone hi,
      hstart.tail hdone hi, fun cursor hcursor => (hpage cursor hcursor).tail hdone hi⟩
    intro k hk j hj
    have hki : k = i := by
      simp only at hk
      split_ifs at hk
      · exact (Option.some.inj hk).symm
      · cases hk
    obtain hlt | rfl := Nat.lt_succ_iff_lt_or_eq.mp (hki ▸ hj)
    · exact hdone j (hinOrder.1 j hlt)
    · exact hi
  · cases hs

theorem flowing_saveCursor (h : s.Flowing markets stream)
    (hs : ingestStep markets stream s .saveCursor = some t) : t.Flowing markets stream := by
  obtain ⟨i, hsaving, hs⟩ := Option.bind_eq_some_iff.mp hs
  obtain ⟨event, hevent, hs⟩ := Option.bind_eq_some_iff.mp hs
  cases hs
  refine ⟨?_, by simp, h.inOrder, h.start, h.page⟩
  rintro saved ⟨⟩
  exact h.saving i hsaving

theorem ingestStep_flowing (h : s.Flowing markets stream) (hp : Prompt markets stream s act)
    (hs : ingestStep markets stream s act = some t) : t.Flowing markets stream := by
  cases act with
  | poll count withCursor => exact flowing_poll h hs
  | send => exact flowing_send h hs
  | persist => exact flowing_persist h hp hs
  | handle answer => exact flowing_handle h hp hs
  | saveCursor => exact flowing_saveCursor h hs
  | crash =>
    cases hs
    exact flowing_restart h.row

/-! ## Draining the stream -/

/-- Every event has been sent and handled. -/
def Ingest.Drained (stream : EventStream) (s : Ingest) : Prop :=
  s.queue = [] ∧ s.collector.page = [] ∧ stream.events.length ≤ s.collector.start stream

theorem done_of_drained (h : s.Flowing markets stream) (hd : s.Drained stream) {i : ℕ}
    (hi : i < stream.events.length) : stream.Done markets s.applied i := by
  obtain ⟨hqueue, hpage, hstart⟩ := hd
  have hcovers := h.start
  rw [hqueue, hpage, List.nil_append, covers_nil] at hcovers
  exact hcovers i (hi.trans_le hstart)

variable (markets) in
theorem run_send {page : List ℕ} (hpage : s.collector.page = page)
    (hevents : ∀ i ∈ page, ∃ event, stream.events[i]? = some event) :
    ∃ acts t, Run (ingestStep markets stream) (Prompt markets stream) s acts t ∧
      t.queue = s.queue ++ page ∧ t.collector.page = [] ∧
      t.collector.pageCursor = s.collector.pageCursor ∧ t.saving = s.saving := by
  induction page generalizing s with
  | nil => exact ⟨[], s, .nil s, by simp, hpage, rfl, rfl⟩
  | cons i page ih =>
    obtain ⟨event, hevent⟩ := hevents i List.mem_cons_self
    let s' : Ingest := { s with
      queue := s.queue ++ [i]
      collector := { s.collector with page, lastLedger := event.ledger } }
    have hs : ingestStep markets stream s .send = some s' := by
      simp only [ingestStep, hpage, hevent]
      rfl
    obtain ⟨acts, t, hrun, hqueue, hsent, hcursor, hsaving⟩ :=
      ih (s := s') rfl fun j hj => hevents j (List.mem_cons_of_mem i hj)
    refine ⟨.send :: acts, t, .cons trivial hs hrun, ?_, hsent, hcursor, hsaving⟩
    rw [hqueue, List.append_assoc, List.singleton_append]

theorem run_handle_one {i : ℕ} {queue : List ℕ} {event : SorobanEvent}
    (hqueue : s.queue = i :: queue) (hsaving : s.saving = none)
    (hevent : stream.events[i]? = some event) :
    ∃ acts t, Run (ingestStep markets stream) (Prompt markets stream) s acts t ∧
      t.queue = queue ∧ t.saving = none ∧ t.collector = s.collector := by
  obtain ⟨answer, hanswer⟩ : ∃ answer, event.Decodable markets → event.writes markets answer ≠ none := by
    by_cases hdec : event.Decodable markets
    · exact hdec.imp fun answer hw _ => hw
    · exact ⟨.failed, fun hd => absurd hd hdec⟩
  have hprompt : Prompt markets stream s (.handle answer) := by
    intro j event' hhead hevent' hdec
    rw [hqueue, List.head?_cons, Option.some.injEq] at hhead
    rw [← hhead, hevent, Option.some.injEq] at hevent'
    exact .inl (hevent' ▸ hanswer (hevent' ▸ hdec))
  obtain ⟨t, hs, htail, hcollector, hsaved⟩ : ∃ t, ingestStep markets stream s (.handle answer) = some t ∧
      t.queue = queue ∧ t.collector = s.collector ∧ (t.saving = some i ∨ t.saving = none) := by
    simp only [ingestStep, hqueue, hsaving, hevent]
    refine ⟨_, rfl, rfl, rfl, ?_⟩
    cases (s.cache.handleSorobanEvent markets event answer).isSome with
    | false => exact .inr rfl
    | true => exact .inl rfl
  obtain hsome | hnone := hsaved
  · let u : Ingest :=
      { t with row := some { ledger := event.ledger, cursorId := i + 1 }, saving := none }
    have hsave : ingestStep markets stream t .saveCursor = some u := by
      simp [ingestStep, hsome, hevent, u]
    exact ⟨[.handle answer, .saveCursor], u, .cons hprompt hs (.cons trivial hsave (.nil u)), htail,
      rfl, hcollector⟩
  · exact ⟨[.handle answer], t, .cons hprompt hs (.nil t), htail, hnone, hcollector⟩

variable (markets) in
theorem run_handle {queue : List ℕ} (hqueue : s.queue = queue) (hsaving : s.saving = none)
    (hevents : ∀ i ∈ queue, ∃ event, stream.events[i]? = some event) :
    ∃ acts t, Run (ingestStep markets stream) (Prompt markets stream) s acts t ∧
      t.queue = [] ∧ t.collector = s.collector := by
  induction queue generalizing s with
  | nil => exact ⟨[], s, .nil s, hqueue, rfl⟩
  | cons i queue ih =>
    obtain ⟨event, hevent⟩ := hevents i List.mem_cons_self
    obtain ⟨acts, u, hrun, hqueue', hsaving', hcollector⟩ := run_handle_one hqueue hsaving hevent
    obtain ⟨acts', t, hrun', hempty, hcollector'⟩ :=
      ih hqueue' hsaving' fun j hj => hevents j (List.mem_cons_of_mem i hj)
    exact ⟨acts ++ acts', t, hrun.append hrun', hempty, hcollector'.trans hcollector⟩

variable (markets) in
theorem run_persist {cursor : ℕ} (hqueue : s.queue = []) (hpage : s.collector.page = [])
    (hcursor : s.collector.pageCursor = some cursor) :
    ∃ t, Run (ingestStep markets stream) (Prompt markets stream) s [.persist] t ∧
      t.queue = [] ∧ t.collector.page = [] ∧ t.collector.start stream = cursor := by
  have hprompt : Prompt markets stream s .persist := by
    intro i hi
    rw [hqueue] at hi
    cases hi
  obtain ⟨t, hs, ht⟩ : ∃ t, ingestStep markets stream s .persist = some t ∧
      t.queue = [] ∧ t.collector.page = [] ∧ t.collector.start stream = cursor := by
    simp only [ingestStep, hpage, hcursor]
    exact ⟨_, rfl, hqueue, rfl, rfl⟩
  exact ⟨t, .cons hprompt hs (.nil t), ht⟩

/-- After a crash the rest of the stream can be drained. -/
theorem run_drain (s : Ingest) :
    ∃ acts t, Run (ingestStep markets stream) (Prompt markets stream) s (.crash :: acts) t ∧
      t.Drained stream := by
  let r := Ingest.restart markets stream s.row s.cache.repo s.applied
  have hcrash : ingestStep markets stream s .crash = some r := rfl
  have hidle : r.collector.page = [] ∧ r.collector.pageCursor = none := by
    have hr : r.collector = .tryNew stream.startLedger s.row := rfl
    rw [hr]
    cases s.row <;> exact ⟨rfl, rfl⟩
  obtain hend | hlt := le_or_gt stream.events.length (r.collector.start stream)
  · exact ⟨[], r, .cons trivial hcrash (.nil r), rfl, hidle.1, hend⟩
  · -- one page with all that is left, then the Liquidator catches up before the cursor is saved
    set start := r.collector.start stream with hstart
    let count := stream.events.length - start
    have hcount : start + count = stream.events.length := Nat.add_sub_of_le hlt.le
    let p : Ingest := { r with collector := { r.collector with
      page := List.range' start count, pageCursor := some (start + count) } }
    have hpoll : ingestStep markets stream r (.poll count true) = some p := by
      simp only [ingestStep]
      rw [if_pos ⟨hidle.1, hidle.2, hcount.le⟩]
      rfl
    have hevents : ∀ i ∈ List.range' start count, ∃ event, stream.events[i]? = some event := by
      intro i hi
      rw [List.mem_range'_1, hcount] at hi
      exact ⟨_, List.getElem?_eq_getElem hi.2⟩
    obtain ⟨sends, q, hsend, hqueue, hpage, hcursor, hsaving⟩ :=
      run_send markets (s := p) rfl hevents
    obtain ⟨handles, u, hhandle, hempty, hcollector⟩ :=
      run_handle markets hqueue hsaving hevents
    obtain ⟨v, hpersist, hqueue', hpage', hcursor'⟩ := run_persist markets hempty
      (hcollector ▸ hpage) (hcollector ▸ hcursor)
    exact ⟨.poll count true :: (sends ++ (handles ++ [.persist])), v, .cons trivial hcrash
      (.cons trivial hpoll (hsend.append (hhandle.append hpersist))), hqueue', hpage',
      hcount.ge.trans hcursor'.ge⟩

/-! ## Runs -/

/-- **No event is lost across a restart** in a run of prompt steps: the saved cursor is never past an event
still to be applied, a restart can drain the stream, and once the stream is drained every event has been
applied. -/
theorem ingest_resumable {repo : ObligationsRepo} {acts : List IngestAct}
    (h : Run (ingestStep markets stream) (Prompt markets stream)
      (.restart markets stream none repo []) acts s) :
    s.Resumable markets stream ∧
      (∃ acts t, Run (ingestStep markets stream) (Prompt markets stream) s (.crash :: acts) t ∧
        t.Drained stream) ∧
      (s.Drained stream →
        ∀ i < stream.events.length, stream.Counts markets i → i ∈ s.applied) := by
  have hflow : s.Flowing markets stream := by
    refine h.invariant (fun s act t hs hp => ingestStep_flowing hs hp) (flowing_restart ?_)
    rintro saved ⟨⟩
  exact ⟨hflow.row, run_drain s, fun hd i hi => done_of_drained hflow hd hi⟩

end Resume

section OneEvent

/-- The stream of the repayment alone. -/
def repayStream : EventStream where
  startLedger := 0
  events := [closingRepay]
  from_start := by simp

theorem repayStream_counts : repayStream.Counts ["MARKET"] 0 :=
  ⟨closingRepay, rfl, .failed, by decide⟩

theorem ingest_resumable_after_repay :
    ∃ s, Run (ingestStep ["MARKET"] repayStream) (Prompt ["MARKET"] repayStream)
      (.restart ["MARKET"] repayStream none bareTable [])
      [.poll 1 true, .send, .handle .failed, .persist, .saveCursor, .crash] s ∧
      s.Drained repayStream ∧ 0 ∈ s.applied := by
  obtain ⟨s, hrun, hd⟩ : ∃ s, Run (ingestStep ["MARKET"] repayStream) (Prompt ["MARKET"] repayStream)
      (.restart ["MARKET"] repayStream none bareTable [])
      [.poll 1 true, .send, .handle .failed, .persist, .saveCursor, .crash] s ∧
      s.Drained repayStream := by
    refine ⟨_, .cons trivial rfl (.cons trivial rfl (.cons ?_ rfl (.cons ?_ rfl (.cons trivial rfl
      (.cons trivial rfl (.nil _)))))), rfl, rfl, le_refl 1⟩
    · rintro i event ⟨⟩ ⟨⟩ -
      exact .inl (by decide)
    · rintro i ⟨⟩
  exact ⟨s, hrun, hd, (ingest_resumable hrun).2.2 hd 0 (by decide) repayStream_counts⟩

/-- The collector saves its page before the Liquidator has handled the event, and the keeper crashes. -/
theorem crash_behind_the_collector_loses_the_repay :
    ∃ s, Run (ingestStep ["MARKET"] repayStream) (fun _ _ => True)
      (.restart ["MARKET"] repayStream none bareTable []) [.poll 1 true, .send, .persist, .crash] s ∧
      s.row = some { ledger := 0, cursorId := 1 } ∧ s.Drained repayStream ∧
      repayStream.Counts ["MARKET"] 0 ∧ s.applied = [] ∧
      s.cache.repo.loadAll "MARKET" bareKey = some bareDebt := by
  refine ⟨_, .cons trivial rfl (.cons trivial rfl (.cons trivial rfl (.cons trivial rfl (.nil _)))),
    rfl, ⟨rfl, rfl, le_refl 1⟩, repayStream_counts, rfl, rfl⟩

end OneEvent

end AlulaKeeper
