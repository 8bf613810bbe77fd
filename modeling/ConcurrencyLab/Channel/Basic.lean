import ConcurrencyLab.Buffer.Basic

/-!
# Channel calls as mutex-held segments

`channel.c` guards a channel with `MutexLock` and two condition variables: `read`, on which
`channel_send` waits for a free slot, and `write`, on which `channel_receive` waits for a
message.  Between taking the lock and releasing it, by unlocking or inside
`pthread_cond_wait`, a call runs without interference, so the model cuts every call into such
segments.  A `Segment` is what one of them does: the channel after it, the value it stores
through `data`, the notifications it issues before unlocking, and whether it returns or waits.

Every segment of `channel_send` is the same: the closed check at entry is repeated after each
wake-up, and either is followed by one `buffer_add`; the same holds for `channel_receive`.  So
one function per call gives the first segment and every segment after a wake-up (`Call.run`).
`Runs` lists everything a segment can do, and `runs_run` shows that `Call.run` does one of
those things; the facts about return statuses are read off `Runs`.

The flag `closed` is `1` while the channel is open and `0` once it is closed, as in the source.
The `NULL` checks of the non-blocking calls and of `channel_close` are outside the model: a
`Channel` is a valid handle.  `channel_select` is a stub in `channel.c` that returns `SUCCESS`
and touches nothing; `channelSelect` is that stub.
-/

namespace ConcurrencyLab

/-- `enum channel_status`.  `CHANNEL_EMPTY` and `CHANNEL_FULL` share the value `0` in C; the
model keeps the name each `return` statement uses. -/
inductive ChannelStatus
  | channelEmpty
  | channelFull
  | success
  | closedError
  | genError
  | destroyError
  deriving DecidableEq, Repr

/-- The values of `enum channel_status`. -/
def ChannelStatus.toInt : ChannelStatus → Int
  | .channelEmpty => 0
  | .channelFull => 0
  | .success => 1
  | .closedError => -2
  | .genError => -1
  | .destroyError => -3

/-- `channel_t`: the buffer and the flag `closed`.  `MutexLock`, `read` and `write` are the
thread system of `Channel.Threads`; the unused field `data` is left out. -/
@[ext]
structure Channel (α : Type) where
  buffer : Buffer α
  closed : Nat
  closed_le_one : closed ≤ 1

variable {α : Type}

/-- `channel_create`: an open channel over `buffer_create(size)`. -/
def channelCreate [Inhabited α] (size : UInt64) : Channel α where
  buffer := bufferCreate size
  closed := 1
  closed_le_one := Nat.le_refl 1

/-- The condition variables of `channel_t`. -/
inductive Cond
  | read
  | write
  deriving DecidableEq, Repr

/-- A notification issued before unlocking: `pthread_cond_signal` or
`pthread_cond_broadcast`. -/
inductive Wake
  | signal (cond : Cond)
  | broadcast (cond : Cond)
  deriving DecidableEq, Repr

/-- How a segment ends: unlock and return a status, or `pthread_cond_wait` on a condition. -/
inductive Exit
  | ret (status : ChannelStatus)
  | wait (cond : Cond)
  deriving DecidableEq, Repr

/-- One mutex-held segment of a call: the channel after it, the value stored through `data`
(if any), the notifications, and how it ends. -/
structure Segment (α : Type) where
  channel : Channel α
  out : Option α
  wakes : List Wake
  exit : Exit

/-- `channel_send`, one segment: the closed check, then `buffer_add`; a failed add waits on
`read`, a successful one signals `write`. -/
def channelSend (channel : Channel α) (data : α) : Segment α :=
  if channel.closed = 0 then ⟨channel, none, [], .ret .closedError⟩
  else if (bufferAdd channel.buffer data).1 = .bufferError then
    ⟨{ channel with buffer := (bufferAdd channel.buffer data).2 }, none, [], .wait .read⟩
  else
    ⟨{ channel with buffer := (bufferAdd channel.buffer data).2 }, none, [.signal .write],
      .ret .success⟩

/-- `channel_receive`, one segment: the closed check, then `buffer_remove`; a failed remove waits
on `write`, a successful one signals `read`. -/
def channelReceive (channel : Channel α) : Segment α :=
  if channel.closed = 0 then ⟨channel, none, [], .ret .closedError⟩
  else if (bufferRemove channel.buffer).1 = .bufferError then
    ⟨{ channel with buffer := (bufferRemove channel.buffer).2.1 }, (bufferRemove channel.buffer).2.2,
      [], .wait .write⟩
  else
    ⟨{ channel with buffer := (bufferRemove channel.buffer).2.1 }, (bufferRemove channel.buffer).2.2,
      [.signal .read], .ret .success⟩

/-- `channel_non_blocking_send` on a valid handle. -/
def channelNonBlockingSend (channel : Channel α) (data : α) : Segment α :=
  if channel.closed = 0 then ⟨channel, none, [], .ret .closedError⟩
  else if bufferCurrentSize channel.buffer ≥ bufferCapacity channel.buffer then
    ⟨channel, none, [], .ret .channelFull⟩
  else
    ⟨{ channel with buffer := (bufferAdd channel.buffer data).2 }, none, [.signal .write],
      .ret .success⟩

/-- `channel_non_blocking_receive` on a valid handle. -/
def channelNonBlockingReceive (channel : Channel α) : Segment α :=
  if channel.closed = 0 then ⟨channel, none, [], .ret .closedError⟩
  else if bufferCurrentSize channel.buffer = 0 then ⟨channel, none, [], .ret .channelEmpty⟩
  else
    ⟨{ channel with buffer := (bufferRemove channel.buffer).2.1 }, (bufferRemove channel.buffer).2.2,
      [.signal .read], .ret .success⟩

theorem channelNonBlockingSend_of_lt {channel : Channel α} (data : α) (hopen : channel.closed ≠ 0)
    (h : channel.buffer.size < channel.buffer.capacity) :
    channelNonBlockingSend channel data =
      ⟨{ channel with buffer := (bufferAdd channel.buffer data).2 }, none, [.signal .write],
        .ret .success⟩ := by
  simp [channelNonBlockingSend, bufferCurrentSize, bufferCapacity, hopen, Nat.not_le.2 h]

theorem channelNonBlockingReceive_of_pos {channel : Channel α} (hopen : channel.closed ≠ 0)
    (h : 0 < channel.buffer.size) :
    channelNonBlockingReceive channel =
      ⟨{ channel with buffer := (bufferRemove channel.buffer).2.1 },
        (bufferRemove channel.buffer).2.2, [.signal .read], .ret .success⟩ := by
  simp [channelNonBlockingReceive, bufferCurrentSize, hopen, Nat.pos_iff_ne_zero.1 h]

/-- `channel_close` on a valid handle: set the flag and broadcast on both conditions. -/
def channelClose (channel : Channel α) : Segment α :=
  if channel.closed = 0 then ⟨channel, none, [], .ret .closedError⟩
  else
    ⟨{ channel with closed := 0, closed_le_one := Nat.zero_le 1 }, none,
      [.broadcast .write, .broadcast .read], .ret .success⟩

/-- `channel_destroy`: the status it returns; on success the channel is freed. -/
def channelDestroy (channel : Channel α) : ChannelStatus :=
  if channel.closed = 1 then .destroyError else .success

theorem channelDestroy_eq (channel : Channel α) :
    channelDestroy channel = if channel.closed = 0 then .success else .destroyError := by
  have := channel.closed_le_one
  unfold channelDestroy
  split <;> split <;> first | rfl | omega

/-- `enum direction`. -/
inductive Direction
  | send
  | recv
  deriving DecidableEq, Repr

/-- `select_t`: a channel, the operation wanted on it, and the message to send (or the slot for
the one received). -/
structure SelectT (α : Type) where
  channel : Channel α
  dir : Direction
  data : α

/-- `channel_select` as `channel.c` has it: a stub that returns `SUCCESS` and writes nothing, so
`selected_index` comes back as it was passed. -/
def channelSelect (_channelList : List (SelectT α)) (_channelCount : Nat) (selectedIndex : Nat) :
    ChannelStatus × Nat :=
  (.success, selectedIndex)

/-- A call a thread makes on the channel, with its arguments. -/
inductive Call (α : Type)
  | send (data : α)
  | receive
  | nonBlockingSend (data : α)
  | nonBlockingReceive
  | close

/-- The segment a call runs, on entry and again after each wake-up. -/
def Call.run : Call α → Channel α → Segment α
  | .send data, channel => channelSend channel data
  | .receive, channel => channelReceive channel
  | .nonBlockingSend data, channel => channelNonBlockingSend channel data
  | .nonBlockingReceive, channel => channelNonBlockingReceive channel
  | .close, channel => channelClose channel

/-! ## What a segment can do -/

/-- Everything a segment can do, with the state of the channel in which it does it. -/
inductive Runs (channel : Channel α) : Call α → Segment α → Prop
  | closedError {call : Call α} : channel.closed = 0 →
      Runs channel call ⟨channel, none, [], .ret .closedError⟩
  | channelFull {data : α} : channel.closed ≠ 0 →
      channel.buffer.capacity ≤ channel.buffer.size →
      Runs channel (.nonBlockingSend data) ⟨channel, none, [], .ret .channelFull⟩
  | channelEmpty : channel.closed ≠ 0 → channel.buffer.size = 0 →
      Runs channel .nonBlockingReceive ⟨channel, none, [], .ret .channelEmpty⟩
  | sendWaits {data : α} : channel.closed ≠ 0 → channel.buffer.capacity ≤ channel.buffer.size →
      Runs channel (.send data) ⟨channel, none, [], .wait .read⟩
  | receiveWaits : channel.closed ≠ 0 → channel.buffer.size = 0 →
      Runs channel .receive ⟨channel, none, [], .wait .write⟩
  | adds {call : Call α} {data : α} : call = .send data ∨ call = .nonBlockingSend data →
      channel.closed ≠ 0 → channel.buffer.size < channel.buffer.capacity →
      Runs channel call
        ⟨{ channel with buffer := (bufferAdd channel.buffer data).2 }, none, [.signal .write],
          .ret .success⟩
  | removes {call : Call α} : call = .receive ∨ call = .nonBlockingReceive →
      channel.closed ≠ 0 → 0 < channel.buffer.size →
      Runs channel call
        ⟨{ channel with buffer := (bufferRemove channel.buffer).2.1 },
          (bufferRemove channel.buffer).2.2, [.signal .read], .ret .success⟩
  | closes : channel.closed ≠ 0 →
      Runs channel .close
        ⟨{ channel with closed := 0, closed_le_one := Nat.zero_le 1 }, none,
          [.broadcast .write, .broadcast .read], .ret .success⟩

theorem runs_run (call : Call α) (channel : Channel α) : Runs channel call (call.run channel) := by
  by_cases hc : channel.closed = 0
  · cases call <;>
      simpa [Call.run, channelSend, channelReceive, channelNonBlockingSend,
        channelNonBlockingReceive, channelClose, hc] using Runs.closedError hc
  cases call with
  | send data =>
    by_cases h : channel.buffer.size < channel.buffer.capacity
    · simpa [Call.run, channelSend, hc, h] using Runs.adds (.inl rfl) hc h
    · simpa [Call.run, channelSend, hc, h, bufferAdd_of_full _ _ (Nat.not_lt.1 h)] using
        @Runs.sendWaits _ _ data hc (Nat.not_lt.1 h)
  | receive =>
    by_cases h : 0 < channel.buffer.size
    · simpa [Call.run, channelReceive, hc, h] using Runs.removes (.inl rfl) hc h
    · simpa [Call.run, channelReceive, hc, h, bufferRemove_of_empty _ (Nat.eq_zero_of_not_pos h)]
        using Runs.receiveWaits hc (Nat.eq_zero_of_not_pos h)
  | nonBlockingSend data =>
    by_cases h : channel.buffer.size < channel.buffer.capacity
    · rw [Call.run, channelNonBlockingSend_of_lt data hc h]
      exact Runs.adds (.inr rfl) hc h
    · simpa [Call.run, channelNonBlockingSend, bufferCurrentSize, bufferCapacity, hc,
        Nat.not_lt.1 h] using @Runs.channelFull _ _ data hc (Nat.not_lt.1 h)
  | nonBlockingReceive =>
    by_cases h : channel.buffer.size = 0
    · simpa [Call.run, channelNonBlockingReceive, bufferCurrentSize, hc, h] using
        Runs.channelEmpty hc h
    · rw [Call.run, channelNonBlockingReceive_of_pos hc (Nat.pos_of_ne_zero h)]
      exact Runs.removes (.inr rfl) hc (Nat.pos_of_ne_zero h)
  | close => simpa [Call.run, channelClose, hc] using Runs.closes hc

/-- A segment that does not return `SUCCESS` changes neither the channel nor `data`, and
notifies nobody. -/
theorem Runs.unchanged {channel : Channel α} {call : Call α} {seg : Segment α}
    (h : Runs channel call seg) (hs : seg.exit ≠ .ret .success) :
    seg.channel = channel ∧ seg.out = none ∧ seg.wakes = [] := by
  cases h <;> simp_all

/-- No segment changes the number of slots. -/
theorem Runs.capacity_eq {channel : Channel α} {call : Call α} {seg : Segment α}
    (h : Runs channel call seg) : seg.channel.buffer.capacity = channel.buffer.capacity := by
  cases h <;> simp

/-- No segment changes the block of the slots. -/
theorem Runs.bytes_eq {channel : Channel α} {call : Call α} {seg : Segment α}
    (h : Runs channel call seg) : seg.channel.buffer.bytes = channel.buffer.bytes := by
  cases h <;> simp

/-- A status other than `SUCCESS` tells the state the returning segment saw, and a segment that
does not return `SUCCESS` writes neither the channel nor the caller's `data`. -/
theorem run_status_reflects_state (channel : Channel α) (call : Call α) :
    ((call.run channel).exit = .ret .closedError → channel.closed = 0) ∧
    ((call.run channel).exit = .ret .channelFull →
      channel.closed ≠ 0 ∧ channel.buffer.size = channel.buffer.capacity) ∧
    ((call.run channel).exit = .ret .channelEmpty →
      channel.closed ≠ 0 ∧ channel.buffer.size = 0) ∧
    ((call.run channel).exit ≠ .ret .success →
      (call.run channel).channel = channel ∧ (call.run channel).out = none) := by
  have hrun := runs_run call channel
  generalize call.run channel = seg at hrun ⊢
  refine ⟨?_, ?_, ?_, fun hs => (hrun.unchanged hs).imp_right And.left⟩ <;>
    cases hrun <;> intro h <;> cases h
  -- each status comes from one kind of segment, whose guards are the state named
  · assumption
  · exact ⟨‹_›, Nat.le_antisymm channel.buffer.size_le ‹_›⟩
  · exact ⟨‹_›, ‹_›⟩

end ConcurrencyLab
