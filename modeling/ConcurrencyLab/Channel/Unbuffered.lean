import ConcurrencyLab.Channel.Threads

/-!
# Channels of capacity zero

`channel_create(0)` makes a buffer of no slots, and `channel.c` has no other path for a message:
`buffer_add` fails on it, so `channel_send` waits on `read`, and `buffer_remove` fails, so
`channel_receive` waits on `write`.  No send or receive on such a channel ever returns `SUCCESS`
(`unbuffered_never_succeeds`), and a sender and a receiver that meet stay suspended side by side,
with both non-blocking calls reporting a full and an empty channel next to them
(`unbuffered_no_rendezvous`).
-/

namespace ConcurrencyLab

variable {α : Type}

/-- On a channel of no slots only `channel_close` has a segment that returns `SUCCESS`. -/
theorem Runs.close_of_success {channel : Channel α} {call : Call α} {seg : Segment α}
    (h : Runs channel call seg) (hc : channel.buffer.capacity = 0)
    (hs : seg.exit = .ret .success) : call = .close := by
  have := channel.buffer.size_le
  cases h <;> first | rfl | omega | simp at hs

/-- On a channel made by `channel_create(0)` the buffer stays empty and only `channel_close`
returns `SUCCESS`: no send or receive ever does. -/
theorem unbuffered_never_succeeds [Inhabited α] {n : Nat} {s : Sys α} (h : Reachable 0 n s) :
    s.channel.buffer.size = 0 ∧ ∀ r ∈ s.log, r.status = .success → r.call = .close := by
  refine ⟨Nat.le_zero.1 (by simpa [h.capacity_eq] using s.channel.buffer.size_le),
    h.log_forall fun s hs call i d r hr hsucc => ?_⟩
  obtain ⟨status, hexit, rfl⟩ := Exit.mem_log_nil.1 hr
  exact (runs_run call s.channel).close_of_success ((Reachable.capacity_eq hs).trans rfl)
    (hexit.trans (congrArg Exit.ret hsucc))

/-- Two threads, a send and a receive, on a channel of capacity zero: both stay suspended. -/
theorem unbuffered_never_succeeds_send_receive :
    ∃ s : Sys Nat, Reachable 0 2 s ∧ s.channel.buffer.size = 0 ∧
      ∀ r ∈ s.log, r.status = .success → r.call = .close := by
  have h : Reachable (α := Nat) 0 2 _ :=
    .tail (.single (Step.run (i := 0) (.send 7) 0 rfl (.inl rfl) trivial))
      (Step.run (i := 1) .receive 0 rfl (.inl rfl) trivial)
  exact ⟨_, h, unbuffered_never_succeeds h⟩

/-- `channel_create(0)`, then `channel_send` of a message on one thread and `channel_receive`
on another: the channel is open, the sender is suspended on `read` and the receiver on
`write`, neither is woken, and next to them `channel_non_blocking_send` reports a full channel
and `channel_non_blocking_receive` an empty one. -/
theorem unbuffered_no_rendezvous :
    ∃ s : Sys Nat, Reachable 0 2 s ∧ s.channel.closed ≠ 0 ∧
      s.threads = [⟨.waiting .read (.send 7), 0⟩, ⟨.waiting .write .receive, 0⟩] ∧
      ((Call.nonBlockingSend 8).run s.channel).exit = .ret .channelFull ∧
      (Call.nonBlockingReceive.run s.channel).exit = .ret .channelEmpty :=
  ⟨_, .tail (.single (Step.run (i := 0) (.send 7) 0 rfl (.inl rfl) trivial))
    (Step.run (i := 1) .receive 0 rfl (.inl rfl) trivial), by decide, rfl, rfl, rfl⟩

end ConcurrencyLab
