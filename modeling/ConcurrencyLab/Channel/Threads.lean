import ConcurrencyLab.Channel.Basic
import Mathlib.Logic.Relation

/-!
# Threads on one channel

Any number of threads call the operations of one channel.  A thread is idle (outside every
call), suspended in `pthread_cond_wait` on a condition inside a call, or woken and about to take
`MutexLock` back.  A step of the system (`Step`) is one mutex-held segment of one thread, or a
spurious wake-up.  An idle thread may start any call; a woken thread runs the segment of its
call again, which is what `channel_send` and `channel_receive` do after `pthread_cond_wait`.

`pthread_cond_signal` wakes at least one thread suspended on its condition when there is one.
The step names the thread it wakes (`Wake.Picks`); waking further threads is a spurious wake-up,
which the model takes as a step of its own.  `pthread_cond_broadcast` wakes all of them.
Every call that returns appends an entry to the log (`Ret`), with the thread's `data` after
the return.
-/

namespace ConcurrencyLab

variable {α : Type}

/-- The condition a blocking call waits on: `read` in `channel_send`, `write` in
`channel_receive`. -/
def Call.cond? : Call α → Option Cond
  | .send _ => some .read
  | .receive => some .write
  | _ => none

/-- Where a thread is with respect to the channel. -/
inductive Pc (α : Type)
  | idle
  | waiting (cond : Cond) (call : Call α)
  | woken (call : Call α)

/-- A thread: where it is, and the variable it passes as `data` to the receive calls. -/
structure Thread (α : Type) where
  pc : Pc α
  data : α

/-- A call that returned: the thread, the call, its status, and the thread's `data` after it. -/
structure Ret (α : Type) where
  thread : Nat
  call : Call α
  status : ChannelStatus
  data : α

/-- The channel, its threads, and the log of the calls that returned. -/
structure Sys (α : Type) where
  channel : Channel α
  threads : List (Thread α)
  log : List (Ret α)

/-- `channel_create(capacity)`, and `n` idle threads. -/
def Sys.init [Inhabited α] (capacity : UInt64) (n : Nat) : Sys α :=
  ⟨channelCreate capacity, List.replicate n ⟨.idle, default⟩, []⟩

namespace Pc

/-- A thread suspended on `cond` is woken. -/
def wake (cond : Cond) : Pc α → Pc α
  | .waiting c call => if c = cond then .woken call else .waiting c call
  | pc => pc

/-- Suspended on `cond`. -/
def waitsOn (cond : Cond) : Pc α → Bool
  | .waiting c _ => c == cond
  | _ => false

/-- Woken, inside a call that waits on `cond`. -/
def wokenFrom (cond : Cond) : Pc α → Bool
  | .woken call => call.cond? == some cond
  | _ => false

end Pc

/-- The thread, woken if it is suspended on `cond`. -/
def Thread.wake (cond : Cond) (t : Thread α) : Thread α := { t with pc := t.pc.wake cond }

/-- The threads after a notification; a signal wakes the thread `j` picked for it. -/
def Wake.apply (j : Nat) : Wake → List (Thread α) → List (Thread α)
  | .signal cond, threads => threads.modify (Thread.wake cond) j
  | .broadcast cond, threads => threads.map (Thread.wake cond)

/-- A signal on `cond` picks a thread suspended on `cond`, unless no thread is. -/
def Wake.Picks (j : Nat) (threads : List (Thread α)) : Wake → Prop
  | .signal cond => (∃ t, threads[j]? = some t ∧ t.pc.waitsOn cond = true) ∨
      ∀ t ∈ threads, t.pc.waitsOn cond = false
  | .broadcast _ => True

/-- The threads after the notifications of a segment, in order. -/
def applyWakes (j : Nat) : List Wake → List (Thread α) → List (Thread α)
  | [], threads => threads
  | w :: ws, threads => applyWakes j ws (w.apply j threads)

/-- Every signal among the notifications picks as `pthread_cond_signal` may. -/
def PicksAll (j : Nat) : List Wake → List (Thread α) → Prop
  | [], _ => True
  | w :: ws, threads => w.Picks j threads ∧ PicksAll j ws (w.apply j threads)

/-- Where a thread is once its segment ends. -/
def Exit.pc (call : Call α) : Exit → Pc α
  | .ret _ => .idle
  | .wait cond => .waiting cond call

/-- The thread once its segment ends: the value stored through `data`, if any, is in `data`. -/
def Thread.after (t : Thread α) (call : Call α) (seg : Segment α) : Thread α :=
  ⟨seg.exit.pc call, seg.out.getD t.data⟩

@[simp] theorem Thread.after_pc (t : Thread α) (call : Call α) (seg : Segment α) :
    (t.after call seg).pc = seg.exit.pc call := rfl

@[simp] theorem Thread.after_data (t : Thread α) (call : Call α) (seg : Segment α) :
    (t.after call seg).data = seg.out.getD t.data := rfl

/-- The log once a segment ends: a segment that returns appends its call. -/
def Exit.log (log : List (Ret α)) (i : Nat) (call : Call α) (data : α) : Exit → List (Ret α)
  | .ret status => log ++ [⟨i, call, status, data⟩]
  | .wait _ => log

theorem Exit.log_eq_append (log : List (Ret α)) (i : Nat) (call : Call α) (data : α)
    (exit : Exit) : exit.log log i call data = log ++ exit.log [] i call data := by
  cases exit <;> simp [Exit.log]

theorem Exit.mem_log_nil {r : Ret α} {i : Nat} {call : Call α} {data : α} {exit : Exit} :
    r ∈ exit.log [] i call data ↔ ∃ status, exit = .ret status ∧ r = ⟨i, call, status, data⟩ := by
  cases exit <;> simp [Exit.log, eq_comm]

/-- The system once thread `i` (which is `t`) ends the segment `seg` of `call`; `j` is the pick
of its signal. -/
def Sys.afterSegment (s : Sys α) (i : Nat) (t : Thread α) (call : Call α) (j : Nat)
    (seg : Segment α) : Sys α where
  channel := seg.channel
  threads := applyWakes j seg.wakes (s.threads.set i (t.after call seg))
  log := seg.exit.log s.log i call (t.after call seg).data

/-- The steps of the system. -/
inductive Step : Sys α → Sys α → Prop
  /-- An idle thread starts `call`, or a thread woken inside `call` takes the mutex back. -/
  | run {s : Sys α} {i : Nat} {t : Thread α} (call : Call α) (j : Nat) :
      s.threads[i]? = some t → (t.pc = .idle ∨ t.pc = .woken call) →
      PicksAll j (call.run s.channel).wakes (s.threads.set i (t.after call (call.run s.channel))) →
      Step s (s.afterSegment i t call j (call.run s.channel))
  /-- A suspended thread wakes without a notification. -/
  | spurious {s : Sys α} {i : Nat} {t : Thread α} {cond : Cond} {call : Call α} :
      s.threads[i]? = some t → t.pc = .waiting cond call →
      Step s { s with threads := s.threads.set i { t with pc := .woken call } }

/-- The states reachable from `channel_create(capacity)` with `n` threads. -/
def Reachable [Inhabited α] (capacity : UInt64) (n : Nat) (s : Sys α) : Prop :=
  Relation.ReflTransGen Step (Sys.init capacity n) s

/-- A property of the initial state that every step keeps holds in every reachable state. -/
theorem Reachable.rec_on [Inhabited α] {capacity : UInt64} {n : Nat} {P : Sys α → Prop}
    {s : Sys α} (h : Reachable capacity n s) (init : P (Sys.init capacity n))
    (step : ∀ s s', P s → Step s s' → P s') : P s := by
  induction h with
  | refl => exact init
  | tail _ hst ih => exact step _ _ ih hst

/-- Every reachable channel has the slots `channel_create` gave it. -/
theorem Reachable.capacity_eq [Inhabited α] {capacity : UInt64} {n : Nat} {s : Sys α}
    (h : Reachable capacity n s) : s.channel.buffer.capacity = capacity.toNat :=
  h.rec_on (P := fun s => s.channel.buffer.capacity = capacity.toNat) rfl fun s _ ih hst => by
    cases hst with
    | run call => exact (runs_run call s.channel).capacity_eq.trans ih
    | spurious => exact ih

/-- Every reachable channel has the block `channel_create` gave it. -/
theorem Reachable.bytes_eq [Inhabited α] {capacity : UInt64} {n : Nat} {s : Sys α}
    (h : Reachable capacity n s) : s.channel.buffer.bytes = bufferCreateBytes capacity :=
  h.rec_on (P := fun s => s.channel.buffer.bytes = bufferCreateBytes capacity) rfl
    fun s _ ih hst => by
      cases hst with
      | run call => exact (runs_run call s.channel).bytes_eq.trans ih
      | spurious => exact ih

/-- Below `2 ^ 61` slots the block of every reachable channel holds all its slots. -/
theorem Reachable.allocated [Inhabited α] {capacity : UInt64} {n : Nat} {s : Sys α}
    (hc : capacity.toNat < 2 ^ 61) (h : Reachable capacity n s) : s.channel.buffer.Allocated := by
  unfold Buffer.Allocated
  rw [h.capacity_eq, h.bytes_eq]
  exact (bufferCreate_allocated_iff (α := α) capacity).2 hc

/-- What holds of every call that a segment of a reachable state logs holds of every call in the
log of a reachable state. -/
theorem Reachable.log_forall [Inhabited α] {capacity : UInt64} {n : Nat} {P : Ret α → Prop}
    {s : Sys α} (h : Reachable capacity n s)
    (hseg : ∀ s : Sys α, Reachable capacity n s → ∀ (call : Call α) (i : Nat) (data : α),
      ∀ r ∈ (call.run s.channel).exit.log [] i call data, P r) :
    ∀ r ∈ s.log, P r := by
  induction h with
  | refl => simp [Sys.init]
  | @tail s _ hr hst ih =>
    cases hst with
    | spurious => exact ih
    | @run i t call =>
      simp only [Sys.afterSegment]
      rw [Exit.log_eq_append]
      intro r hr'
      rcases List.mem_append.1 hr' with hr' | hr'
      · exact ih r hr'
      · exact hseg s hr call i _ r hr'

end ConcurrencyLab
