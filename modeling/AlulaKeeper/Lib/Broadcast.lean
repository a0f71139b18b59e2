import Mathlib

/-!
# Broadcast channels

Every receiver of a channel sees each value once, in the order of sending, unless it falls more than the
capacity behind.

* `Channels`: the operations of a broadcast channel, and their laws; whoever uses one holds the senders and the
  receivers, so whether one is left is an argument.
* `Ring`, `ring`: channels that keep the last `capacity` values.
* `Follows`: what a receiver has taken is in order a part of what was sent, and all but the values missed.
* `Interleaves`: a list is a shuffle of streams.
-/

namespace Broadcast

/-! ## Channels -/

/-- What a receiver is answered. -/
inductive Received (α : Type) where
  | value (value : α)
  /-- Values missed: the receiver goes on at the oldest value kept. -/
  | lagged (missed : ℕ)
  /-- No sender is left. -/
  | closed
  /-- Nothing to receive yet. -/
  | pending
  deriving DecidableEq, Repr

/-- The operations of a broadcast channel, and their laws. -/
structure Channels where
  /-- A channel of a capacity. -/
  Channel : Type → ℕ → Type
  Receiver : Type → Type
  channel : (α : Type) → (capacity : ℕ) → Channel α capacity
  subscribe : {α : Type} → {capacity : ℕ} → Channel α capacity → Receiver α
  /-- Given whether a receiver is left. -/
  send : {α : Type} → {capacity : ℕ} → Channel α capacity → (received : Bool) → α → Option (Channel α capacity)
  /-- Given whether every sender is dropped. -/
  recv : {α : Type} → {capacity : ℕ} → Channel α capacity → (closed : Bool) → Receiver α →
    Received α × Receiver α
  /-- Every value ever sent, for the laws only. -/
  history : {α : Type} → {capacity : ℕ} → Channel α capacity → List α
  /-- The values a receiver has passed, for the laws only. -/
  position : {α : Type} → Receiver α → ℕ
  history_channel (α : Type) (capacity : ℕ) : history (channel α capacity) = []
  position_subscribe {α : Type} {capacity : ℕ} (c : Channel α capacity) :
    position (subscribe c) = (history c).length
  send_received {α : Type} {capacity : ℕ} (c : Channel α capacity) (value : α) :
    ∃ c', send c true value = some c' ∧ history c' = history c ++ [value]
  recv_value {α : Type} {capacity : ℕ} {c : Channel α capacity} {closed : Bool} {r r' : Receiver α} {value : α}
    (h : recv c closed r = (.value value, r')) :
    (history c)[position r]? = some value ∧ position r' = position r + 1
  recv_lagged {α : Type} {capacity : ℕ} {c : Channel α capacity} {closed : Bool} {r r' : Receiver α} {missed : ℕ}
    (h : recv c closed r = (.lagged missed, r')) :
    position r + capacity < (history c).length ∧ position r' = position r + missed ∧
      position r' ≤ (history c).length
  recv_closed {α : Type} {capacity : ℕ} {c : Channel α capacity} {closed : Bool} {r r' : Receiver α}
    (h : recv c closed r = (.closed, r')) : closed = true ∧ (history c).length ≤ position r
  recv_pending {α : Type} {capacity : ℕ} {c : Channel α capacity} {closed : Bool} {r r' : Receiver α}
    (h : recv c closed r = (.pending, r')) : closed = false

/-! ## Rings -/

/-- The last `capacity` values sent, the first of them at position `base`. -/
structure Ring (α : Type) (capacity : ℕ) where
  base : ℕ
  slots : List α
  /-- Every value ever sent. -/
  history : List α
  base_eq : base = history.length - capacity
  slots_eq : slots = history.drop base

namespace Ring

variable {α : Type} {capacity : ℕ}

/-- A ring nothing has been sent on. -/
def new (α : Type) (capacity : ℕ) : Ring α capacity where
  base := 0
  slots := []
  history := []
  base_eq := by simp
  slots_eq := rfl

theorem length_slots (ring : Ring α capacity) : ring.slots.length = ring.history.length - ring.base := by
  rw [ring.slots_eq, List.length_drop]

/-- Keep a value, in the place of the oldest one if all slots are taken. -/
def send (ring : Ring α capacity) (value : α) : Ring α capacity where
  base := ring.base + (ring.slots.length + 1 - capacity)
  slots := (ring.slots ++ [value]).drop (ring.slots.length + 1 - capacity)
  history := ring.history ++ [value]
  base_eq := by
    have hlength := ring.length_slots
    have hbase := ring.base_eq
    rw [List.length_append, List.length_singleton]
    omega
  slots_eq := by
    have hbase := ring.base_eq
    have hslots : ring.slots ++ [value] = (ring.history ++ [value]).drop ring.base := by
      rw [List.drop_append_of_le_length (by omega), ← ring.slots_eq]
    rw [hslots, List.drop_drop]

/-- The value at a receiver's position, and its next position. -/
def recv (ring : Ring α capacity) (closed : Bool) (next : ℕ) : Received α × ℕ :=
  if next < ring.base then (.lagged (ring.base - next), ring.base)
  else
    match ring.slots[next - ring.base]? with
    | some value => (.value value, next + 1)
    | none => if closed then (.closed, next) else (.pending, next)

variable {ring : Ring α capacity} {closed : Bool} {next next' missed : ℕ} {value : α}

theorem getElem?_slots (h : ring.base ≤ next) : ring.slots[next - ring.base]? = ring.history[next]? := by
  rw [ring.slots_eq, List.getElem?_drop, Nat.add_sub_cancel' h]

/-- What `recv` answers, by what has been sent. -/
theorem recv_eq (ring : Ring α capacity) (closed : Bool) (next : ℕ) :
    ring.recv closed next =
      if next + capacity < ring.history.length then
        (.lagged (ring.history.length - capacity - next), ring.history.length - capacity)
      else match ring.history[next]? with
        | some value => (.value value, next + 1)
        | none => if closed then (.closed, next) else (.pending, next) := by
  have hbase := ring.base_eq
  by_cases hlag : next < ring.base
  · have hbehind : next + capacity < ring.history.length := by omega
    rw [recv, if_pos hlag, if_pos hbehind, hbase]
  · have hnear : ¬ next + capacity < ring.history.length := by omega
    rw [recv, if_neg hlag, if_neg hnear, getElem?_slots (not_lt.mp hlag)]

theorem recv_value (h : ring.recv closed next = (.value value, next')) :
    ring.history[next]? = some value ∧ next' = next + 1 := by
  rw [recv_eq] at h
  split at h
  · cases h
  split at h
  · cases h
    exact ⟨by assumption, rfl⟩
  · split at h <;> cases h

theorem recv_lagged (h : ring.recv closed next = (.lagged missed, next')) :
    next + capacity < ring.history.length ∧ next' = next + missed ∧ next' ≤ ring.history.length := by
  rw [recv_eq] at h
  split at h
  · cases h
    omega
  · split at h
    · cases h
    · split at h <;> cases h

theorem recv_closed (h : ring.recv closed next = (.closed, next')) :
    closed = true ∧ ring.history.length ≤ next := by
  rw [recv_eq] at h
  split at h
  · cases h
  split at h
  · cases h
  · rename_i hnone
    cases closed with
    | true => exact ⟨rfl, List.getElem?_eq_none_iff.mp hnone⟩
    | false => cases h

theorem recv_pending (h : ring.recv closed next = (.pending, next')) : closed = false := by
  rw [recv_eq] at h
  split at h
  · cases h
  split at h
  · cases h
  · cases closed with
    | true => cases h
    | false => rfl

end Ring

/-- Rings as channels; a receiver is its position. -/
def ring : Channels where
  Channel := Ring
  Receiver _ := ℕ
  channel := Ring.new
  subscribe c := c.history.length
  send c received value := if received then some (c.send value) else none
  recv := Ring.recv
  history := Ring.history
  position next := next
  history_channel _ _ := rfl
  position_subscribe _ := rfl
  send_received c value := ⟨c.send value, rfl, rfl⟩
  recv_value := Ring.recv_value
  recv_lagged := Ring.recv_lagged
  recv_closed := Ring.recv_closed
  recv_pending := Ring.recv_pending

/-! ## Receivers -/

section Follows

variable {α : Type} {capacity : ℕ} {history taken : List α} {next lagged : ℕ}

/-- A receiver that has seen a channel from its start: what it has taken is, in order, a part of what was
sent before its position, and the rest of that are the values it has missed. -/
structure Follows (history taken : List α) (next lagged : ℕ) : Prop where
  sublist : taken.Sublist (history.take next)
  count : taken.length + lagged = next
  le : next ≤ history.length

theorem Follows.nil (history : List α) : Follows history [] 0 0 :=
  ⟨List.nil_sublist _, rfl, Nat.zero_le _⟩

theorem Follows.append (h : Follows history taken next lagged) (sent : List α) :
    Follows (history ++ sent) taken next lagged where
  sublist := by
    rw [List.take_append_of_le_length h.le]
    exact h.sublist
  count := h.count
  le := h.le.trans (by simp)

theorem Follows.take {value : α} (h : Follows history taken next lagged)
    (hget : history[next]? = some value) : Follows history (taken ++ [value]) (next + 1) lagged where
  sublist := by
    rw [List.take_add_one, hget]
    exact h.sublist.append (List.Sublist.refl _)
  count := by
    have := h.count
    simp only [List.length_append, List.length_singleton]
    omega
  le := (List.getElem?_eq_some_iff.mp hget).1

theorem Follows.skip {missed : ℕ} (h : Follows history taken next lagged)
    (hle : next + missed ≤ history.length) : Follows history taken (next + missed) (lagged + missed) where
  sublist := h.sublist.trans (List.take_sublist_take_left (Nat.le_add_right _ _))
  count := by
    have := h.count
    omega
  le := hle

theorem Follows.eq_take (h : Follows history taken next 0) : taken = history.take next := by
  refine h.sublist.eq_of_length ?_
  rw [List.length_take, min_eq_left h.le]
  exact h.count

/-- At the end of the history, all but the values missed have been taken. -/
theorem Follows.count_of_le (h : Follows history taken next lagged) (hle : history.length ≤ next) :
    taken.Sublist history ∧ taken.length + lagged = history.length := by
  have hnext := le_antisymm h.le hle
  subst hnext
  exact ⟨by simpa using h.sublist, h.count⟩

end Follows

/-! ## Shuffles -/

section Interleaves

variable {ι α : Type} [DecidableEq ι] {streams : ι → List α} {l : List α}

/-- A list is a shuffle of the streams. -/
def Interleaves (streams : ι → List α) (l : List α) : Prop :=
  ∃ tagged : List (ι × α), tagged.map Prod.snd = l ∧
    ∀ i, (tagged.filter (·.1 = i)).map Prod.snd = streams i

theorem Interleaves.nil : Interleaves (fun _ : ι => ([] : List α)) [] := ⟨[], rfl, fun _ => rfl⟩

theorem Interleaves.snoc (h : Interleaves streams l) (i : ι) (value : α) :
    Interleaves (Function.update streams i (streams i ++ [value])) (l ++ [value]) := by
  obtain ⟨tagged, hl, hstreams⟩ := h
  refine ⟨tagged ++ [(i, value)], by simp [hl], fun j => ?_⟩
  by_cases hj : j = i
  · subst hj
    simp [hstreams]
  · simp [hstreams, Function.update_of_ne hj, Ne.symm hj]

theorem Interleaves.sublist (h : Interleaves streams l) (i : ι) : (streams i).Sublist l := by
  obtain ⟨tagged, rfl, hstreams⟩ := h
  rw [← hstreams]
  exact List.filter_sublist.map _

theorem Interleaves.exists_mem (h : Interleaves streams l) {value : α} (hmem : value ∈ l) :
    ∃ i, value ∈ streams i := by
  obtain ⟨tagged, rfl, hstreams⟩ := h
  obtain ⟨⟨i, value⟩, hp, rfl⟩ := List.mem_map.mp hmem
  refine ⟨i, ?_⟩
  rw [← hstreams]
  exact List.mem_map.mpr ⟨(i, value), List.mem_filter.mpr ⟨hp, by simp⟩, rfl⟩

theorem Interleaves.length [Fintype ι] (h : Interleaves streams l) :
    l.length = ∑ i, (streams i).length := by
  obtain ⟨tagged, rfl, hstreams⟩ := h
  simp only [← hstreams, List.length_map]
  clear hstreams
  induction tagged with
  | nil => simp
  | cons p tagged ih =>
    simp only [List.length_cons, ih, List.filter_cons, decide_eq_true_eq]
    rw [← Finset.add_sum_erase _ _ (Finset.mem_univ p.1), ← Finset.add_sum_erase _ _ (Finset.mem_univ p.1)]
    rw [if_pos rfl, List.length_cons, add_right_comm]
    refine congrArg _ (Finset.sum_congr rfl fun i hi => ?_)
    rw [if_neg (Finset.ne_of_mem_erase hi).symm]

end Interleaves

end Broadcast
