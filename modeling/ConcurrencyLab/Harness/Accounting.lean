import ConcurrencyLab.Harness.SendRecv
import ConcurrencyLab.Buffer.Queue
import Mathlib.Algebra.Order.BigOperators.Group.Finset
import Mathlib.Order.Interval.Finset.Nat

/-!
# Every message of the ring is in exactly one place

In every run of `run_stress_send_recv`, whatever the interleaving, each message `msg` that the
main thread has sent so far is in exactly one place: queued in one channel, held in one
worker's `data`, or marked in `msg_check`; and no other non-`NULL` value is anywhere
(`messages_conserved`).  The only assertion of the harness that can fail is the range check of
the loop that takes the messages back, and only on a `NULL` (`only_null_fails_check`): every
call of a worker and of the main thread returns `SUCCESS`, and every message taken back is in
range and new.  The start `NULL`s are counted the same way, so a `NULL` comes back to the main
thread only while some worker has not yet taken its own (`null_taken_back_while_starting`).

All of it is one invariant (`Inv`), kept by every step (`Inv.step`) once `buffer_size` is below
`2 ^ 61`, so that the block of each channel holds its slots.  A segment on an open channel then
moves one message between the channel and a thread
(`Runs.send_of_open`, `Runs.receive_of_open`), and the notifications and spurious wake-ups
change no variable of any thread (`SameVars`).
-/

namespace ConcurrencyLab

variable {α : Type}

/-! ## Segments on an open channel -/

section Open

variable {channel : Channel α} {seg : Segment α}

/-- On an open channel a segment of `channel_send(v)` adds `v` and returns `SUCCESS`, or waits on
`read` and changes nothing. -/
theorem Runs.send_of_open {v : α} (h : Runs channel (.send v) seg) (hopen : channel.closed ≠ 0) :
    (channel.buffer.size < channel.buffer.capacity ∧
      seg = ⟨{ channel with buffer := (bufferAdd channel.buffer v).2 }, none, [.signal .write],
        .ret .success⟩) ∨
    seg = ⟨channel, none, [], .wait .read⟩ := by
  cases h with
  | closedError hc => exact absurd hc hopen
  | sendWaits => exact .inr rfl
  | adds hcall _ hlt =>
    rcases hcall with hv | hv <;> cases hv
    exact .inl ⟨hlt, rfl⟩
  | removes hcall => rcases hcall with hv | hv <;> cases hv

/-- On an open channel a segment of `channel_receive` takes the oldest message and returns
`SUCCESS`, or waits on `write` and changes nothing. -/
theorem Runs.receive_of_open (h : Runs channel .receive seg) (hopen : channel.closed ≠ 0) :
    (0 < channel.buffer.size ∧
      seg = ⟨{ channel with buffer := (bufferRemove channel.buffer).2.1 },
        (bufferRemove channel.buffer).2.2, [.signal .read], .ret .success⟩) ∨
    seg = ⟨channel, none, [], .wait .write⟩ := by
  cases h with
  | closedError hc => exact absurd hc hopen
  | receiveWaits => exact .inr rfl
  | removes _ _ hpos => exact .inl ⟨hpos, rfl⟩
  | adds hcall => rcases hcall with hv | hv <;> cases hv

/-- On an open channel `channel_close` closes it and returns `SUCCESS`. -/
theorem Runs.close_of_open (h : Runs channel .close seg) (hopen : channel.closed ≠ 0) :
    seg = ⟨{ channel with closed := 0, closed_le_one := Nat.zero_le 1 }, none,
      [.broadcast .write, .broadcast .read], .ret .success⟩ := by
  cases h with
  | closedError hc => exact absurd hc hopen
  | closes => rfl
  | adds hcall | removes hcall => rcases hcall with hv | hv <;> cases hv

end Open

/-- A sum over `s` after `w` is changed at `j ∈ s`: the old term leaves and the new one comes
in. -/
theorem sum_update_add {ι β : Type} [DecidableEq ι] (s : Finset ι) (F : β → Nat) (w : ι → β)
    {j : ι} (hj : j ∈ s) (b : β) :
    (∑ i in s, F (Function.update w j b i)) + F (w j) = (∑ i in s, F (w i)) + F b := by
  rw [← Finset.add_sum_erase s _ hj, ← Finset.add_sum_erase s (fun i => F (w i)) hj,
    Finset.sum_congr rfl fun i hi => by rw [Function.update_noteq (Finset.ne_of_mem_erase hi)],
    Function.update_same]
  omega

namespace SendRecv

/-- `next_index` stays in the ring. -/
theorem nextIndex_lt {numChannel index : Nat} (h : index < numChannel) :
    nextIndex numChannel index < numChannel := by
  unfold nextIndex
  split <;> omega

/-- The channels in use: `main_channel`, and `channels[i]` for `i < num_channel`. -/
def Chan.inUse (numChannel : Nat) : Finset Chan :=
  insert .main ((Finset.range numChannel).image .ring)

@[simp] theorem Chan.main_mem_inUse (numChannel : Nat) : Chan.main ∈ Chan.inUse numChannel :=
  Finset.mem_insert_self _ _

@[simp] theorem Chan.ring_mem_inUse {numChannel i : Nat} :
    Chan.ring i ∈ Chan.inUse numChannel ↔ i < numChannel := by
  simp [Chan.inUse]

/-! ## What every reachable state keeps -/

namespace MainPt

/-- How many of the messages `1, …, num_msgs` the main thread has sent. -/
def sent (numMsgs : Nat) : MainPt → Nat
  | sendMsg msg => msg - 1
  | _ => numMsgs

/-- How many start `NULL`s the main thread has sent. -/
def starts (numChannel : Nat) : MainPt → Nat
  | sendMsg _ => 0
  | sendStart i => i
  | _ => numChannel

/-- How many messages the main thread has taken back and marked in `msg_check`. -/
def collected (numMsgs : Nat) : MainPt → Nat
  | sendMsg _ | sendStart _ | store => 0
  | collect msg => msg - 1
  | _ => numMsgs

/-- The counters of the loops are in range. -/
def Bounded (numChannel numMsgs : Nat) : MainPt → Prop
  | sendMsg msg | collect msg => 1 ≤ msg ∧ msg ≤ numMsgs
  | sendStart i | sendStop i | join i | closeRing i | destroyRing i => i < numChannel
  | _ => True

/-- The channels the main thread has closed by the time it is at this point. -/
def Closes (numChannel : Nat) : MainPt → Chan → Prop
  | destroyMain, .main | closeRing _, .main | destroyRing _, .main | finished, .main => True
  | closeRing j, .ring i => i < j
  | destroyRing j, .ring i => i ≤ j
  | finished, .ring i => i < numChannel
  | _, _ => False

/-- The main thread has joined worker `i` by the time it is at this point. -/
def Joined (i : Nat) : MainPt → Prop
  | join j => i < j
  | closeMain | destroyMain | closeRing _ | destroyRing _ | finished => True
  | _ => False

/-- A property of every point a loop head can go to holds at the loop head. -/
theorem loop_cases {i bound : Nat} {body : Nat → MainPt} {after : MainPt} (P : MainPt → Prop)
    (hbody : i < bound → P (body i)) (hafter : bound ≤ i → P after) :
    P (loop i bound body after) := by
  unfold loop
  split
  · exact hbody ‹_›
  · exact hafter (Nat.le_of_not_lt ‹_›)

/-- The points before `main_channel` is closed: no channel is closed there. -/
def Open : MainPt → Prop
  | sendMsg _ | sendStart _ | store | collect _ | sendStop _ | join _ | closeMain | aborted _ => True
  | _ => False

theorem Open.not_closes {numChannel : Nat} {pt : MainPt} (h : pt.Open) (c : Chan) :
    ¬pt.Closes numChannel c := by
  cases pt <;> cases c <;> simp_all [Open, Closes]

/-- The loops up to the joins stay at points where no channel is closed. -/
theorem open_sendStops (numChannel i : Nat) : (sendStops numChannel i).Open :=
  loop_cases Open (fun _ => trivial) fun _ => loop_cases Open (fun _ => trivial) fun _ => trivial

theorem open_collects (numMsgs numChannel msg : Nat) : (collects numMsgs numChannel msg).Open :=
  loop_cases Open (fun _ => trivial) fun _ => open_sendStops _ _

theorem open_sendStarts (numChannel i : Nat) : (sendStarts numChannel i).Open :=
  loop_cases Open (fun _ => trivial) fun _ => trivial

theorem open_sendMsgs (numMsgs numChannel msg : Nat) : (sendMsgs numMsgs numChannel msg).Open :=
  loop_cases Open (fun _ => trivial) fun _ => open_sendStarts _ _

/-- The points of the loops before the first join: no channel is closed, no worker is joined,
and no assertion has failed. -/
structure Running (numChannel : Nat) (pt : MainPt) : Prop where
  isOpen : pt.Open
  ne_aborted : ∀ check, pt ≠ aborted check
  not_joined : ∀ i < numChannel, ¬pt.Joined i

theorem running_sendStops (numChannel i : Nat) : (sendStops numChannel i).Running numChannel :=
  loop_cases (Running numChannel) (fun _ => ⟨trivial, fun _ => nofun, fun _ _ => id⟩) fun _ =>
    loop_cases (Running numChannel)
      (fun _ => ⟨trivial, fun _ => nofun, fun _ _ h => absurd h (Nat.not_lt_zero _)⟩)
      fun hn => ⟨trivial, fun _ => nofun, fun _ hi _ => absurd (Nat.lt_of_lt_of_le hi hn) (Nat.not_lt_zero _)⟩

theorem running_collects (numMsgs numChannel msg : Nat) :
    (collects numMsgs numChannel msg).Running numChannel :=
  loop_cases (Running numChannel) (fun _ => ⟨trivial, fun _ => nofun, fun _ _ => id⟩) fun _ =>
    running_sendStops _ _

theorem running_sendStarts (numChannel i : Nat) : (sendStarts numChannel i).Running numChannel :=
  loop_cases (Running numChannel) (fun _ => ⟨trivial, fun _ => nofun, fun _ _ => id⟩) fun _ =>
    ⟨trivial, fun _ => nofun, fun _ _ => id⟩

theorem running_sendMsgs (numMsgs numChannel msg : Nat) :
    (sendMsgs numMsgs numChannel msg).Running numChannel :=
  loop_cases (Running numChannel) (fun _ => ⟨trivial, fun _ => nofun, fun _ _ => id⟩) fun _ =>
    running_sendStarts _ _

theorem sent_sendStarts (numChannel numMsgs i : Nat) : (sendStarts numChannel i).sent numMsgs = numMsgs :=
  loop_cases (fun pt => pt.sent numMsgs = numMsgs) (fun _ => rfl) fun _ => rfl

theorem sent_sendStops (numChannel numMsgs i : Nat) : (sendStops numChannel i).sent numMsgs = numMsgs :=
  loop_cases (fun pt => pt.sent numMsgs = numMsgs) (fun _ => rfl) fun _ =>
    loop_cases (fun pt => pt.sent numMsgs = numMsgs) (fun _ => rfl) fun _ => rfl

theorem sent_collects (numMsgs numChannel msg : Nat) :
    (collects numMsgs numChannel msg).sent numMsgs = numMsgs :=
  loop_cases (fun pt => pt.sent numMsgs = numMsgs) (fun _ => rfl) fun _ => sent_sendStops _ _ _

theorem starts_sendStops (numChannel i : Nat) : (sendStops numChannel i).starts numChannel = numChannel :=
  loop_cases (fun pt => pt.starts numChannel = numChannel) (fun _ => rfl) fun _ =>
    loop_cases (fun pt => pt.starts numChannel = numChannel) (fun _ => rfl) fun _ => rfl

theorem starts_collects (numMsgs numChannel msg : Nat) :
    (collects numMsgs numChannel msg).starts numChannel = numChannel :=
  loop_cases (fun pt => pt.starts numChannel = numChannel) (fun _ => rfl) fun _ =>
    starts_sendStops _ _

theorem sent_sendMsgs {numMsgs numChannel msg : Nat} (h : msg ≤ numMsgs) :
    (sendMsgs numMsgs numChannel (msg + 1)).sent numMsgs = msg :=
  loop_cases (fun pt => pt.sent numMsgs = msg) (fun _ => rfl) fun hge =>
    loop_cases (fun pt => pt.sent numMsgs = msg) (fun _ => by simp only [sent]; omega)
      fun _ => by simp only [sent]; omega

theorem starts_sendMsgs (numMsgs numChannel msg : Nat) :
    (sendMsgs numMsgs numChannel msg).starts numChannel = 0 :=
  loop_cases (fun pt => pt.starts numChannel = 0) (fun _ => rfl) fun _ =>
    loop_cases (fun pt => pt.starts numChannel = 0) (fun _ => rfl) fun hn => Nat.le_zero.1 hn

theorem starts_sendStarts {numChannel i : Nat} (h : i < numChannel) :
    (sendStarts numChannel (i + 1)).starts numChannel = i + 1 :=
  loop_cases (fun pt => pt.starts numChannel = i + 1) (fun _ => rfl) fun hn => by
    simp only [starts]; omega

theorem collected_sendStarts (numChannel numMsgs i : Nat) :
    (sendStarts numChannel i).collected numMsgs = 0 :=
  loop_cases (fun pt => pt.collected numMsgs = 0) (fun _ => rfl) fun _ => rfl

theorem collected_sendMsgs (numMsgs numChannel msg : Nat) :
    (sendMsgs numMsgs numChannel msg).collected numMsgs = 0 :=
  loop_cases (fun pt => pt.collected numMsgs = 0) (fun _ => rfl) fun _ => collected_sendStarts _ _ _

theorem collected_sendStops (numChannel numMsgs i : Nat) :
    (sendStops numChannel i).collected numMsgs = numMsgs :=
  loop_cases (fun pt => pt.collected numMsgs = numMsgs) (fun _ => rfl) fun _ =>
    loop_cases (fun pt => pt.collected numMsgs = numMsgs) (fun _ => rfl) fun _ => rfl

theorem collected_collects {numMsgs numChannel msg : Nat} (h : msg ≤ numMsgs) :
    (collects numMsgs numChannel (msg + 1)).collected numMsgs = msg :=
  loop_cases (fun pt => pt.collected numMsgs = msg) (fun _ => rfl) fun _ =>
    (collected_sendStops _ _ _).trans (by omega)

theorem bounded_sendMsgs {numMsgs numChannel : Nat} (msg : Nat) :
    (sendMsgs numMsgs numChannel (msg + 1)).Bounded numChannel numMsgs :=
  loop_cases (Bounded numChannel numMsgs) (fun h => ⟨by omega, by omega⟩) fun _ =>
    loop_cases (Bounded numChannel numMsgs) id fun _ => trivial

theorem bounded_sendStarts (numChannel numMsgs i : Nat) :
    (sendStarts numChannel i).Bounded numChannel numMsgs :=
  loop_cases (Bounded numChannel numMsgs) id fun _ => trivial

theorem bounded_joins (numChannel numMsgs i : Nat) : (joins numChannel i).Bounded numChannel numMsgs :=
  loop_cases (Bounded numChannel numMsgs) id fun _ => trivial

theorem bounded_sendStops (numChannel numMsgs i : Nat) :
    (sendStops numChannel i).Bounded numChannel numMsgs :=
  loop_cases (Bounded numChannel numMsgs) id fun _ => bounded_joins _ _ _

theorem bounded_collects {numMsgs numChannel : Nat} (msg : Nat) :
    (collects numMsgs numChannel (msg + 1)).Bounded numChannel numMsgs :=
  loop_cases (Bounded numChannel numMsgs) (fun _ => ⟨by omega, by omega⟩) fun _ =>
    bounded_sendStops _ _ _

theorem bounded_closeRings (numChannel numMsgs i : Nat) :
    (closeRings numChannel i).Bounded numChannel numMsgs :=
  loop_cases (Bounded numChannel numMsgs) id fun _ => trivial

/-- Where a channel is closed every message and every start `NULL` is sent, and every message is
taken back. -/
theorem Closes.counters {numChannel : Nat} {pt : MainPt} {c : Chan} (h : pt.Closes numChannel c)
    (numMsgs : Nat) : pt.sent numMsgs = numMsgs ∧ pt.starts numChannel = numChannel ∧
      pt.collected numMsgs = numMsgs := by
  cases pt <;> cases c <;> first | exact ⟨rfl, rfl, rfl⟩ | cases h

/-- A channel is closed only once every worker is joined. -/
theorem Closes.joined {numChannel : Nat} {pt : MainPt} {c : Chan} (h : pt.Closes numChannel c)
    (i : Nat) : pt.Joined i := by
  -- where a channel is closed every worker is joined; elsewhere `h` is `False`
  cases pt <;> cases c <;> trivial

end MainPt

/-- The variables of a worker at each point: `start` tells which channel it receives from, and
`data` is `NULL` at a receive and a message after one. -/
def Worker.Ok (w : Worker) : Prop :=
  match w.pt with
  | .receiveMain => w.start = true ∧ w.data = 0
  | .receiveMine | .exited => w.start = false ∧ w.data = 0
  | .load | .sendMain | .sendNext => w.data ≠ 0
  | .aborted => False

/-- How many times `v` is queued in the channels in use. -/
def queued (numChannel : Nat) (chan : Chan → Channel Nat) (v : Nat) : Nat :=
  ∑ c in Chan.inUse numChannel, (chan c).buffer.queue.count v

/-- How many workers hold `v` in `data`. -/
def inHand (numChannel : Nat) (worker : Nat → Worker) (v : Nat) : Nat :=
  ∑ i in Finset.range numChannel, if (worker i).data = v then 1 else 0

/-- How many workers have taken their start `NULL`. -/
def leftStart (numChannel : Nat) (worker : Nat → Worker) : Nat :=
  ∑ i in Finset.range numChannel, if (worker i).start then 0 else 1

namespace Harness

/-- What every reachable state of the harness keeps, for channels of `capacity` slots.  The
messages sent so far are each in one place (`conserved`), and so are the start `NULL`s: in
`main_channel`, taken by a worker, or taken back by a failed check (`nulls`). -/
structure Inv (numChannel numMsgs capacity : Nat) (h : Harness) : Prop where
  capacity_eq : ∀ c, (h.chan c).buffer.capacity = capacity
  allocated : ∀ c, (h.chan c).buffer.Allocated
  bounded : h.main.pt.Bounded numChannel numMsgs
  main_data : h.main.data = 0
  main_aborted : ∀ check, h.main.pt = .aborted check → check = .range
  worker_ok : ∀ i < numChannel, (h.worker i).Ok
  closed_iff : ∀ c, (h.chan c).closed = 0 ↔ h.main.pt.Closes numChannel c
  joined : ∀ i < numChannel, h.main.pt.Joined i → (h.worker i).pt = .exited
  conserved : ∀ v, v ≠ 0 → (if 1 ≤ v ∧ v ≤ h.main.pt.sent numMsgs then 1 else 0) =
    queued numChannel h.chan v + inHand numChannel h.worker v + h.main.checked.count v
  nulls : h.main.pt.starts numChannel = leftStart numChannel h.worker +
    (h.chan .main).buffer.queue.count 0 + if h.main.pt = .aborted .range then 1 else 0
  checked_length : (∀ check, h.main.pt ≠ .aborted check) →
    h.main.checked.length = h.main.pt.collected numMsgs
  null_unchecked : 0 ∉ h.main.checked

/-- Two states that differ at most in where the threads are inside their calls. -/
structure SameVars (h h' : Harness) : Prop where
  chan : h'.chan = h.chan
  worker_pt : ∀ i, (h'.worker i).pt = (h.worker i).pt
  worker_start : ∀ i, (h'.worker i).start = (h.worker i).start
  worker_data : ∀ i, (h'.worker i).data = (h.worker i).data
  main_pt : h'.main.pt = h.main.pt
  main_data : h'.main.data = h.main.data
  main_checked : h'.main.checked = h.main.checked

theorem SameVars.trans {h₁ h₂ h₃ : Harness} (h₁₂ : SameVars h₁ h₂) (h₂₃ : SameVars h₂ h₃) :
    SameVars h₁ h₃ :=
  ⟨h₂₃.chan.trans h₁₂.chan, fun i => (h₂₃.worker_pt i).trans (h₁₂.worker_pt i),
    fun i => (h₂₃.worker_start i).trans (h₁₂.worker_start i),
    fun i => (h₂₃.worker_data i).trans (h₁₂.worker_data i), h₂₃.main_pt.trans h₁₂.main_pt,
    h₂₃.main_data.trans h₁₂.main_data, h₂₃.main_checked.trans h₁₂.main_checked⟩

theorem Worker.ok_congr {w w' : Worker} (hpt : w'.pt = w.pt) (hstart : w'.start = w.start)
    (hdata : w'.data = w.data) : w'.Ok ↔ w.Ok := by
  unfold Worker.Ok
  rw [hpt, hstart, hdata]

/-- The invariant reads only the variables of the threads. -/
theorem Inv.of_sameVars {numChannel numMsgs capacity : Nat} {h h' : Harness}
    (hinv : Inv numChannel numMsgs capacity h) (hs : SameVars h h') :
    Inv numChannel numMsgs capacity h' := by
  have hh : inHand numChannel h'.worker = inHand numChannel h.worker := by
    funext v; simp only [inHand, hs.worker_data]
  have hl : leftStart numChannel h'.worker = leftStart numChannel h.worker := by
    simp only [leftStart, hs.worker_start]
  obtain ⟨hcap, halloc, hb, hd, ha, hok, hcl, hj, hcons, hnull, hlen, hz⟩ := hinv
  refine ⟨?_, ?_, ?_, ?_, ?_, ?_, ?_, ?_, ?_, ?_, ?_, ?_⟩
  · rw [hs.chan]; exact hcap
  · rw [hs.chan]; exact halloc
  · rw [hs.main_pt]; exact hb
  · rw [hs.main_data]; exact hd
  · rw [hs.main_pt]; exact ha
  · exact fun i hi => (Worker.ok_congr (hs.worker_pt i) (hs.worker_start i) (hs.worker_data i)).2 (hok i hi)
  · rw [hs.chan, hs.main_pt]; exact hcl
  · exact fun i hi hji => (hs.worker_pt i).trans (hj i hi (hs.main_pt ▸ hji))
  · rw [hs.main_pt, hs.chan, hh, hs.main_checked]; exact hcons
  · rw [hs.main_pt, hs.chan, hl]; exact hnull
  · rw [hs.main_pt, hs.main_checked]; exact hlen
  · rw [hs.main_checked]; exact hz

theorem SameVars.refl (h : Harness) : SameVars h h :=
  ⟨rfl, fun _ => rfl, fun _ => rfl, fun _ => rfl, rfl, rfl, rfl⟩

/-- A notification changes where threads are inside their calls, and nothing else. -/
theorem sameVars_notify (numChannel : Nat) (c : Chan) (who : Who) (h : Harness) (w : Wake) :
    SameVars h (h.notify numChannel c who w) := by
  cases w <;> refine ⟨rfl, fun i => ?_, fun i => ?_, fun i => ?_, ?_, ?_, ?_⟩ <;>
    simp only [notify, Worker.wake, Main.wake] <;> split_ifs <;> rfl

theorem sameVars_notifyAll (numChannel : Nat) (c : Chan) (who : Who) :
    ∀ (ws : List Wake) (h : Harness), SameVars h (h.notifyAll numChannel c who ws)
  | [], h => SameVars.refl h
  | w :: ws, h =>
    (sameVars_notify numChannel c who h w).trans (sameVars_notifyAll numChannel c who ws _)

/-- Moving worker `i` inside its call changes no variable. -/
theorem sameVars_workerPc (h : Harness) (i : Nat) (pc : Pc Nat) :
    SameVars h { h with worker := Function.update h.worker i { h.worker i with pc := pc } } := by
  refine ⟨rfl, fun j => ?_, fun j => ?_, fun j => ?_, rfl, rfl, rfl⟩ <;>
    rcases eq_or_ne j i with rfl | hne <;> simp [Function.update_noteq, *]

/-- Moving the main thread inside its call changes no variable. -/
theorem sameVars_mainPc (h : Harness) (pc : Pc Nat) :
    SameVars h { h with main := { h.main with pc := pc } } :=
  ⟨rfl, fun _ => rfl, fun _ => rfl, fun _ => rfl, rfl, rfl, rfl⟩

/-- A segment of worker `i` that waits changes no variable. -/
theorem sameVars_runWorker_wait (h : Harness) (i : Nat) (c : Chan) (call : Call Nat) (cond : Cond) :
    SameVars h (h.runWorker i c call ⟨h.chan c, none, [], .wait cond⟩) := by
  simpa [runWorker, Worker.afterSegment] using sameVars_workerPc h i (.waiting cond call)

/-- A segment of the main thread that waits changes no variable. -/
theorem sameVars_runMain_wait (numChannel numMsgs : Nat) (h : Harness) (c : Chan) (call : Call Nat)
    (cond : Cond) :
    SameVars h (h.runMain numChannel numMsgs c call ⟨h.chan c, none, [], .wait cond⟩) := by
  simpa [runMain, Main.afterSegment] using sameVars_mainPc h (.waiting cond call)

section Update

variable {numChannel numMsgs capacity : Nat} {h : Harness} {c : Chan} {ch : Channel Nat}

/-- Replacing channel `c` by one with its slots and block keeps the slots and the block of every
channel. -/
theorem Inv.update_block (hinv : Inv numChannel numMsgs capacity h)
    (hcap : ch.buffer.capacity = (h.chan c).buffer.capacity)
    (hbytes : ch.buffer.bytes = (h.chan c).buffer.bytes) (c' : Chan) :
    (Function.update h.chan c ch c').buffer.capacity = capacity ∧
      (Function.update h.chan c ch c').buffer.Allocated := by
  rcases eq_or_ne c' c with rfl | hne
  · rw [Function.update_same, Buffer.Allocated, hcap, hbytes]
    exact ⟨hinv.capacity_eq c', hinv.allocated c'⟩
  · rw [Function.update_noteq hne]
    exact ⟨hinv.capacity_eq c', hinv.allocated c'⟩

/-- A step that changes only worker `i` and the channel `c` keeps the invariant if the channel
keeps its flag, slots and block, the worker's variables fit its new point, and the step only moves
messages between `c` and the worker's `data`, and start `NULL`s out of `main_channel` into the
workers that take them. -/
theorem Inv.update_worker {i : Nat} {w : Worker} (hinv : Inv numChannel numMsgs capacity h)
    (hi : i < numChannel) (hc : c ∈ Chan.inUse numChannel)
    (hcap : ch.buffer.capacity = (h.chan c).buffer.capacity)
    (hbytes : ch.buffer.bytes = (h.chan c).buffer.bytes) (hcl : ch.closed = (h.chan c).closed)
    (hok : w.Ok) (hnj : ¬h.main.pt.Joined i)
    (hx : ∀ v, v ≠ 0 → ch.buffer.queue.count v + (if w.data = v then 1 else 0) =
      (h.chan c).buffer.queue.count v + if (h.worker i).data = v then 1 else 0)
    (hnull : (if w.start then 0 else 1) + (Function.update h.chan c ch .main).buffer.queue.count 0 =
      (if (h.worker i).start then 0 else 1) + (h.chan .main).buffer.queue.count 0) :
    Inv numChannel numMsgs capacity
      { h with chan := Function.update h.chan c ch, worker := Function.update h.worker i w } := by
  have hi' : i ∈ Finset.range numChannel := Finset.mem_range.2 hi
  have hblock := hinv.update_block hcap hbytes
  refine ⟨fun c' => (hblock c').1, fun c' => (hblock c').2, hinv.bounded, hinv.main_data,
    hinv.main_aborted, fun j hj => ?_, fun c' => ?_, fun j hj hjoin => ?_, fun v hv => ?_, ?_,
    hinv.checked_length, hinv.null_unchecked⟩ <;> dsimp only
  · rcases eq_or_ne j i with rfl | hne
    · rwa [Function.update_same]
    · rw [Function.update_noteq hne]; exact hinv.worker_ok j hj
  · rcases eq_or_ne c' c with rfl | hne
    · rw [Function.update_same, hcl, hinv.closed_iff]
    · rw [Function.update_noteq hne, hinv.closed_iff]
  · rcases eq_or_ne j i with rfl | hne
    · exact absurd hjoin hnj
    · rw [Function.update_noteq hne]; exact hinv.joined j hj hjoin
  · have hq := sum_update_add _ (fun ch : Channel Nat => ch.buffer.queue.count v) h.chan hc ch
    have hw := sum_update_add _ (fun w : Worker => if w.data = v then 1 else 0) h.worker hi' w
    have := hinv.conserved v hv
    have := hx v hv
    simp only [queued, inHand] at *
    omega
  · have hl := sum_update_add _ (fun w : Worker => if w.start then 0 else 1) h.worker hi' w
    have := hinv.nulls
    simp only [leftStart] at *
    omega

/-- A step that changes only the main thread and the channel `c` keeps the invariant if the
channel keeps its slots and block, the main thread's new point is in range with `data = NULL`, the flags
and the joins fit it, and the step only moves messages between `c`, the messages sent and
`msg_check`, and start `NULL`s into `main_channel` or out of it into a failed check. -/
theorem Inv.update_main {m : Main} (hinv : Inv numChannel numMsgs capacity h)
    (hc : c ∈ Chan.inUse numChannel) (hcap : ch.buffer.capacity = (h.chan c).buffer.capacity)
    (hbytes : ch.buffer.bytes = (h.chan c).buffer.bytes) (hb : m.pt.Bounded numChannel numMsgs) (hd : m.data = 0)
    (ha : ∀ check, m.pt = .aborted check → check = .range)
    (hcl : ∀ c', (Function.update h.chan c ch c').closed = 0 ↔ m.pt.Closes numChannel c')
    (hj : ∀ i < numChannel, m.pt.Joined i → (h.worker i).pt = .exited)
    (hx : ∀ v, v ≠ 0 → (if 1 ≤ v ∧ v ≤ m.pt.sent numMsgs then 1 else 0) +
      (h.chan c).buffer.queue.count v + h.main.checked.count v =
      (if 1 ≤ v ∧ v ≤ h.main.pt.sent numMsgs then 1 else 0) + ch.buffer.queue.count v +
        m.checked.count v)
    (hnull : m.pt.starts numChannel + (h.chan .main).buffer.queue.count 0 +
      (if h.main.pt = .aborted .range then 1 else 0) =
      h.main.pt.starts numChannel + (Function.update h.chan c ch .main).buffer.queue.count 0 +
        if m.pt = .aborted .range then 1 else 0)
    (hlen : (∀ check, m.pt ≠ .aborted check) → m.checked.length = m.pt.collected numMsgs)
    (hz : 0 ∉ m.checked) :
    Inv numChannel numMsgs capacity { h with chan := Function.update h.chan c ch, main := m } := by
  have hblock := hinv.update_block hcap hbytes
  refine ⟨fun c' => (hblock c').1, fun c' => (hblock c').2, hb, hd, ha, hinv.worker_ok, hcl, hj,
    fun v hv => ?_, ?_, hlen, hz⟩ <;> dsimp only
  · have hq := sum_update_add _ (fun ch : Channel Nat => ch.buffer.queue.count v) h.chan hc ch
    have := hinv.conserved v hv
    have := hx v hv
    simp only [queued] at *
    omega
  · have := hinv.nulls
    omega

/-- `Inv.update_main` for a step from a point where no channel is closed to a running point,
keeping every flag. -/
theorem Inv.update_main_running {m : Main} (hinv : Inv numChannel numMsgs capacity h)
    (hc : c ∈ Chan.inUse numChannel) (hcap : ch.buffer.capacity = (h.chan c).buffer.capacity)
    (hbytes : ch.buffer.bytes = (h.chan c).buffer.bytes) (hcl : ch.closed = (h.chan c).closed) (hold : h.main.pt.Open)
    (hrun : m.pt.Running numChannel) (hb : m.pt.Bounded numChannel numMsgs) (hd : m.data = 0)
    (hx : ∀ v, v ≠ 0 → (if 1 ≤ v ∧ v ≤ m.pt.sent numMsgs then 1 else 0) +
      (h.chan c).buffer.queue.count v + h.main.checked.count v =
      (if 1 ≤ v ∧ v ≤ h.main.pt.sent numMsgs then 1 else 0) + ch.buffer.queue.count v +
        m.checked.count v)
    (hnull : m.pt.starts numChannel + (h.chan .main).buffer.queue.count 0 +
      (if h.main.pt = .aborted .range then 1 else 0) =
      h.main.pt.starts numChannel + (Function.update h.chan c ch .main).buffer.queue.count 0 +
        if m.pt = .aborted .range then 1 else 0)
    (hlen : m.checked.length = m.pt.collected numMsgs) (hz : 0 ∉ m.checked) :
    Inv numChannel numMsgs capacity { h with chan := Function.update h.chan c ch, main := m } := by
  refine hinv.update_main hc hcap hbytes hb hd (fun _ ha => absurd ha (hrun.ne_aborted _))
    (fun c' => ?_)
    (fun i hi hj => absurd hj (hrun.not_joined i hi)) hx hnull (fun _ => hlen) hz
  have hflag : (Function.update h.chan c ch c').closed = (h.chan c').closed := by
    rcases eq_or_ne c' c with rfl | hne
    · rw [Function.update_same, hcl]
    · rw [Function.update_noteq hne]
  rw [hflag, hinv.closed_iff]
  exact iff_of_false (hold.not_closes c') (hrun.isOpen.not_closes c')

/-- A segment that only changes the buffer of its channel leaves every flag as it was. -/
theorem closed_update_buffer (chan : Chan → Channel Nat) (c c' : Chan) (b : Buffer Nat) :
    (Function.update chan c { chan c with buffer := b } c').closed = (chan c').closed := by
  rcases eq_or_ne c' c with rfl | hne
  · rw [Function.update_same]
  · rw [Function.update_noteq hne]

/-- The main thread's send at `sendMsg`, `sendStart` or `sendStop` adds its value to `c`: a
message joins the ones sent, and a `NULL` joins the start `NULL`s or stops a worker. -/
theorem Inv.main_send {v₀ : Nat} (hinv : Inv numChannel numMsgs capacity h)
    (hcall : h.main.call = some (c, .send v₀))
    (hlt : (h.chan c).buffer.size < (h.chan c).buffer.capacity) :
    Inv numChannel numMsgs capacity (h.runMain numChannel numMsgs c (.send v₀)
      ⟨{ h.chan c with buffer := (bufferAdd (h.chan c).buffer v₀).2 }, none, [.signal .write],
        .ret .success⟩) := by
  have hadd := queue_bufferAdd (h.chan c).buffer v₀ hlt (hinv.allocated c)
  have hb := hinv.bounded
  have hlen := hinv.checked_length fun _ ha => by simp [Main.call, ha] at hcall
  have hcount (v : Nat) : ((h.chan c).buffer.queue ++ [v₀]).count v =
      (h.chan c).buffer.queue.count v + if v₀ = v then 1 else 0 := by
    simp [List.count_singleton]
  cases hp : h.main.pt <;>
    simp only [Main.call, hp, Option.some.injEq, Prod.mk.injEq, Call.send.injEq, reduceCtorEq,
      and_false] at hcall <;>
    obtain ⟨rfl, rfl⟩ := hcall <;> rw [hp] at hb hlen
  case sendMsg msg =>
    rw [runMain, show h.main.afterSegment numMsgs numChannel (.send msg) _ =
      { h.main with pc := .idle, pt := .sendMsgs numMsgs numChannel (msg + 1) } by
        simp [Main.afterSegment, Main.ret, hp]]
    refine hinv.update_main_running (Chan.main_mem_inUse _) (by simp) (by simp) rfl (by rw [hp]; trivial)
      (MainPt.running_sendMsgs _ _ _) (MainPt.bounded_sendMsgs msg) hinv.main_data (fun v hv => ?_) ?_
      (hlen.trans (MainPt.collected_sendMsgs _ _ _).symm) hinv.null_unchecked
    · simp only [MainPt.sent_sendMsgs hb.2]
      simp only [hp, MainPt.sent, hadd, hcount]
      split_ifs <;> omega
    · simp only [MainPt.starts_sendMsgs, if_neg ((MainPt.running_sendMsgs _ _ _).ne_aborted _)]
      simp [hp, MainPt.starts, hadd, hcount, Nat.pos_iff_ne_zero.1 hb.1]
  case sendStart i =>
    rw [runMain, show h.main.afterSegment numMsgs numChannel (.send 0) _ =
      { h.main with pc := .idle, pt := .sendStarts numChannel (i + 1) } by
        simp [Main.afterSegment, Main.ret, hp]]
    refine hinv.update_main_running (Chan.main_mem_inUse _) (by simp) (by simp) rfl (by rw [hp]; trivial)
      (MainPt.running_sendStarts _ _) (MainPt.bounded_sendStarts _ _ _) hinv.main_data
      (fun v hv => ?_) ?_ (hlen.trans (MainPt.collected_sendStarts _ _ _).symm) hinv.null_unchecked
    · simp only [MainPt.sent_sendStarts]
      simp [hp, MainPt.sent, hadd, hcount, Ne.symm hv]
    · simp only [MainPt.starts_sendStarts hb, if_neg ((MainPt.running_sendStarts _ _).ne_aborted _)]
      simp [hp, MainPt.starts, hadd, hcount]
      omega
  case sendStop i =>
    rw [runMain, show h.main.afterSegment numMsgs numChannel (.send 0) _ =
      { h.main with pc := .idle, pt := .sendStops numChannel (i + 1) } by
        simp [Main.afterSegment, Main.ret, hp]]
    refine hinv.update_main_running (Chan.ring_mem_inUse.2 hb) (by simp) (by simp) rfl (by rw [hp]; trivial)
      (MainPt.running_sendStops _ _) (MainPt.bounded_sendStops _ _ _) hinv.main_data
      (fun v hv => ?_) ?_ (hlen.trans (MainPt.collected_sendStops _ _ _).symm) hinv.null_unchecked
    · simp only [MainPt.sent_sendStops]
      simp [hp, MainPt.sent, hadd, hcount, Ne.symm hv]
    · simp only [MainPt.starts_sendStops, if_neg ((MainPt.running_sendStops _ _).ne_aborted _)]
      simp [hp, MainPt.starts, Function.update_noteq]

/-- A message queued in one channel in use counts among the queued ones. -/
theorem count_le_queued {chan : Chan → Channel Nat} (hc : c ∈ Chan.inUse numChannel) (v : Nat) :
    (chan c).buffer.queue.count v ≤ queued numChannel chan v :=
  Finset.single_le_sum (f := fun c => (chan c).buffer.queue.count v) (fun _ _ => Nat.zero_le _) hc

/-- The main thread's receive at `collect msg` takes the oldest message `x` of `main_channel`.
A message is in one place only, here `main_channel`, so it passes both checks and is marked in
`msg_check`; a `NULL` fails the range check. -/
theorem Inv.main_collect {msg : Nat} (hinv : Inv numChannel numMsgs capacity h)
    (hp : h.main.pt = .collect msg) (hpos : 0 < (h.chan .main).buffer.size) :
    Inv numChannel numMsgs capacity (h.runMain numChannel numMsgs .main .receive
      ⟨{ h.chan .main with buffer := (bufferRemove (h.chan .main).buffer).2.1 },
        (bufferRemove (h.chan .main).buffer).2.2, [.signal .read], .ret .success⟩) := by
  obtain ⟨x, rest, hq⟩ : ∃ x rest, (h.chan .main).buffer.queue = x :: rest :=
    List.exists_cons_of_ne_nil ((Buffer.queue_eq_nil_iff _).not.2 (Nat.pos_iff_ne_zero.1 hpos))
  have hout : (bufferRemove (h.chan .main).buffer).2.2 = some x := by
    rw [out_bufferRemove _ hpos, hq]; rfl
  have hrem : (bufferRemove (h.chan .main).buffer).2.1.queue = rest := by
    rw [queue_bufferRemove _ hpos, hq]; rfl
  have hcount (v : Nat) : (x :: rest).count v = rest.count v + if x = v then 1 else 0 := by
    simp [List.count_cons]
  have hold : h.main.pt.Open := by rw [hp]; trivial
  have hb : 1 ≤ msg ∧ msg ≤ numMsgs := by have := hinv.bounded; rwa [hp] at this
  have hlen := hinv.checked_length (by rw [hp]; nofun)
  rw [hp] at hlen
  by_cases hx : x = 0
  · rw [runMain, show h.main.afterSegment numMsgs numChannel .receive _ =
        { h.main with pc := .idle, data := 0, pt := .aborted .range } by
          simp only [Main.afterSegment, hout, Option.getD_some]
          simp [Main.ret, hp, hx]]
    refine hinv.update_main (Chan.main_mem_inUse _) (by simp) (by simp) trivial rfl
      (fun _ ha => by cases ha; rfl) (fun c' => ?_) (fun _ _ hj => hj.elim) (fun v hv => ?_) ?_
      (fun hna => absurd rfl (hna .range)) hinv.null_unchecked
    · rw [closed_update_buffer, hinv.closed_iff]
      exact iff_of_false (hold.not_closes c')
        ((show (MainPt.aborted .range).Open from trivial).not_closes c')
    · simp [hp, MainPt.sent, hrem, hq, hx, List.count_cons, Ne.symm hv]
    · simp [hp, MainPt.starts, hrem, hq, hx, Nat.add_assoc]
  · have hin := hinv.conserved x hx
    have hle : (h.chan .main).buffer.queue.count x ≤ queued numChannel h.chan x :=
      count_le_queued (Chan.main_mem_inUse _) x
    rw [hq, hcount, if_pos rfl] at hle
    have hrange : 1 ≤ x ∧ x ≤ numMsgs := by
      by_contra hr
      simp only [hp, MainPt.sent, if_neg hr] at hin
      omega
    have hnew : x ∉ h.main.checked := by
      rw [← List.count_eq_zero]
      simp only [hp, MainPt.sent, if_pos hrange] at hin
      omega
    have hm : h.main.afterSegment numMsgs numChannel .receive
        ⟨{ h.chan .main with buffer := (bufferRemove (h.chan .main).buffer).2.1 },
          (bufferRemove (h.chan .main).buffer).2.2, [.signal .read], .ret .success⟩ =
        { h.main with
          pc := .idle
          data := 0
          pt := .collects numMsgs numChannel (msg + 1)
          checked := x :: h.main.checked } := by
      simp only [Main.afterSegment, hout, Option.getD_some]
      simp [Main.ret, hp, hrange, hnew]
    rw [runMain, hm]
    refine hinv.update_main_running (Chan.main_mem_inUse _) (by simp) (by simp) rfl hold
      (MainPt.running_collects _ _ _) (MainPt.bounded_collects _) rfl (fun v hv => ?_) ?_ ?_ ?_
    · simp only [MainPt.sent_collects]
      simp [hp, MainPt.sent, hrem, hq, hcount, List.count_cons]
      omega
    · simp only [MainPt.starts_collects, if_neg ((MainPt.running_collects _ _ _).ne_aborted _)]
      simp [hp, MainPt.starts, hrem, hq, hcount, hx]
    · dsimp only
      rw [MainPt.collected_collects hb.2, List.length_cons, hlen]
      simp only [MainPt.collected]
      omega
    · simpa [Ne.symm hx] using hinv.null_unchecked

/-- The main thread closes `main_channel` after joining every worker, and each channel of the
ring after the one before: the flags follow the point. -/
theorem Inv.main_close (hinv : Inv numChannel numMsgs capacity h)
    (hcall : h.main.call = some (c, .close)) (hopen : (h.chan c).closed ≠ 0) :
    Inv numChannel numMsgs capacity (h.runMain numChannel numMsgs c .close
      ⟨{ h.chan c with closed := 0, closed_le_one := Nat.zero_le 1 }, none,
        [.broadcast .write, .broadcast .read], .ret .success⟩) := by
  have hb := hinv.bounded
  have hbuf (c' : Chan) : (Function.update h.chan c
      { h.chan c with closed := 0, closed_le_one := Nat.zero_le 1 } c').buffer = (h.chan c').buffer := by
    rcases eq_or_ne c' c with rfl | hne
    · rw [Function.update_same]
    · rw [Function.update_noteq hne]
  cases hp : h.main.pt <;>
    simp only [Main.call, hp, Option.some.injEq, Prod.mk.injEq, reduceCtorEq, and_false,
      and_true] at hcall <;>
    subst hcall <;> rw [hp] at hb <;>
    have hlen := hinv.checked_length (by rw [hp]; nofun) <;> rw [hp] at hlen
  case closeMain =>
    rw [runMain, show h.main.afterSegment numMsgs numChannel .close _ =
        { h.main with pc := .idle, pt := .destroyMain } by simp [Main.afterSegment, Main.ret, hp]]
    refine hinv.update_main (Chan.main_mem_inUse _) (by simp) (by simp) trivial hinv.main_data nofun
      (fun c' => ?_) (fun i hi _ => hinv.joined i hi (by rw [hp]; trivial)) (fun v _ => ?_) ?_
      (fun _ => hlen) hinv.null_unchecked
    · cases c' with
      | main => simp [MainPt.Closes]
      | ring k =>
        rw [Function.update_noteq (show Chan.ring k ≠ .main from nofun), hinv.closed_iff, hp]
        exact iff_of_false id id
    · simp [hbuf, hp, MainPt.sent]
    · simp [hbuf, hp, MainPt.starts]
  case closeRing i =>
    rw [runMain, show h.main.afterSegment numMsgs numChannel .close _ =
        { h.main with pc := .idle, pt := .destroyRing i } by simp [Main.afterSegment, Main.ret, hp]]
    refine hinv.update_main (Chan.ring_mem_inUse.2 hb) (by simp) (by simp) hb hinv.main_data nofun
      (fun c' => ?_) (fun i hi _ => hinv.joined i hi (by rw [hp]; trivial)) (fun v _ => ?_) ?_
      (fun _ => hlen) hinv.null_unchecked
    · cases c' with
      | main =>
        rw [Function.update_noteq (show Chan.main ≠ .ring i from nofun), hinv.closed_iff, hp]
        exact iff_of_true trivial trivial
      | ring k =>
        rcases eq_or_ne k i with rfl | hne
        · simp [MainPt.Closes]
        · rw [Function.update_noteq (by simpa using hne), hinv.closed_iff, hp]
          simp only [MainPt.Closes]
          omega
    · simp [hbuf, hp, MainPt.sent]
    · simp [hbuf, hp, MainPt.starts]

/-- Every segment of the main thread keeps the invariant. -/
theorem Inv.runMain {call : Call Nat} (hinv : Inv numChannel numMsgs capacity h)
    (hcall : h.main.call = some (c, call)) :
    Inv numChannel numMsgs capacity (h.runMain numChannel numMsgs c call (call.run (h.chan c))) := by
  have hopen : (h.chan c).closed ≠ 0 := by
    intro hcl
    have hc := (hinv.closed_iff c).1 hcl
    cases hp : h.main.pt <;>
      simp only [Main.call, hp, Option.some.injEq, Prod.mk.injEq, reduceCtorEq] at hcall <;>
      obtain ⟨rfl, -⟩ := hcall <;> rw [hp] at hc <;> first | exact hc | exact Nat.lt_irrefl _ hc
  cases call with
  | send v₀ =>
    rcases (runs_run (.send v₀) (h.chan c)).send_of_open hopen with ⟨hlt, hseg⟩ | hseg <;> rw [hseg]
    · exact hinv.main_send hcall hlt
    · exact hinv.of_sameVars (sameVars_runMain_wait _ _ _ _ _ _)
  | receive =>
    obtain ⟨msg, hp, rfl⟩ : ∃ msg, h.main.pt = .collect msg ∧ c = .main := by
      cases hp : h.main.pt <;>
        simp only [Main.call, hp, Option.some.injEq, Prod.mk.injEq, reduceCtorEq, and_false,
          false_and] at hcall
      exact ⟨_, rfl, hcall.1.symm⟩
    rcases (runs_run .receive (h.chan .main)).receive_of_open hopen with ⟨hpos, hseg⟩ | hseg <;>
      rw [hseg]
    · exact hinv.main_collect hp hpos
    · exact hinv.of_sameVars (sameVars_runMain_wait _ _ _ _ _ _)
  | close =>
    rw [(runs_run .close (h.chan c)).close_of_open hopen]
    exact hinv.main_close hcall hopen
  | nonBlockingSend | nonBlockingReceive =>
    cases hp : h.main.pt <;> simp [Main.call, hp] at hcall

/-- Worker `i` at a receive point takes the oldest message `x` of `c`: `x` moves from the
channel into `data`, and a `NULL` from `main_channel` ends the worker's start phase. -/
theorem Inv.worker_receive {i : Nat} (hinv : Inv numChannel numMsgs capacity h) (hi : i < numChannel)
    (hc : c ∈ Chan.inUse numChannel) (hnj : ¬h.main.pt.Joined i) (hpos : 0 < (h.chan c).buffer.size)
    (hpt : (h.worker i).pt = .receiveMain ∧ c = .main ∨ (h.worker i).pt = .receiveMine ∧ c = .ring i) :
    Inv numChannel numMsgs capacity (h.runWorker i c .receive
      ⟨{ h.chan c with buffer := (bufferRemove (h.chan c).buffer).2.1 },
        (bufferRemove (h.chan c).buffer).2.2, [.signal .read], .ret .success⟩) := by
  obtain ⟨x, rest, hq⟩ : ∃ x rest, (h.chan c).buffer.queue = x :: rest :=
    List.exists_cons_of_ne_nil ((Buffer.queue_eq_nil_iff _).not.2 (Nat.pos_iff_ne_zero.1 hpos))
  have hout : (bufferRemove (h.chan c).buffer).2.2 = some x := by
    rw [out_bufferRemove _ hpos, hq]; rfl
  have hrem : (bufferRemove (h.chan c).buffer).2.1.queue = rest := by
    rw [queue_bufferRemove _ hpos, hq]; rfl
  have hd : (h.worker i).data = 0 := by
    have hok := hinv.worker_ok i hi
    rcases hpt with ⟨hp, -⟩ | ⟨hp, -⟩ <;> simp only [Worker.Ok, hp] at hok <;> exact hok.2
  have hcount (v : Nat) : (x :: rest).count v = rest.count v + if x = v then 1 else 0 := by
    simp [List.count_cons]
  set w' := (h.worker i).afterSegment .receive
    ⟨{ h.chan c with buffer := (bufferRemove (h.chan c).buffer).2.1 },
      (bufferRemove (h.chan c).buffer).2.2, [.signal .read], .ret .success⟩
  -- the message lands in `data`; only a `NULL` from `main_channel` clears `start`
  have hw' : w'.data = x ∧ w'.Ok ∧ (if w'.start then 0 else 1) =
      (if (h.worker i).start then 0 else 1) + if c = .main ∧ x = 0 then 1 else 0 := by
    have hok := hinv.worker_ok i hi
    have hret : w' = { h.worker i with pc := .idle, data := x }.ret .success := by
      simp only [w', Worker.afterSegment, hout, Option.getD_some]
    rw [hret]
    rcases hpt with ⟨hp, rfl⟩ | ⟨hp, rfl⟩ <;> simp only [Worker.Ok, hp] at hok <;>
      by_cases hx : x = 0 <;> simp [Worker.ret, Worker.Ok, hp, hx, hok]
  refine hinv.update_worker (w := w') hi hc (by simp) (by simp) rfl hw'.2.1 hnj (fun v hv => ?_) ?_
  · rw [hw'.1]
    simp [hrem, hq, hcount, hd, Ne.symm hv]
  · rw [hw'.2.2]
    rcases hpt with ⟨-, rfl⟩ | ⟨-, rfl⟩
    · by_cases hx : x = 0
      · simp [hrem, hq, hcount, hx]; omega
      · simp [hrem, hq, hcount, hx]
    · simp [Function.update_noteq]

/-- Worker `i` at a send point adds its message to `c`: the message moves from `data` into the
channel, and the next turn starts with `data = NULL`. -/
theorem Inv.worker_send {i : Nat} (hinv : Inv numChannel numMsgs capacity h)
    (hi : i < numChannel) (hc : c ∈ Chan.inUse numChannel)
    (hnj : ¬h.main.pt.Joined i) (hlt : (h.chan c).buffer.size < (h.chan c).buffer.capacity)
    (hpt : (h.worker i).pt = .sendMain ∨ (h.worker i).pt = .sendNext) :
    Inv numChannel numMsgs capacity (h.runWorker i c (.send (h.worker i).data)
      ⟨{ h.chan c with buffer := (bufferAdd (h.chan c).buffer (h.worker i).data).2 }, none,
        [.signal .write], .ret .success⟩) := by
  have hd : (h.worker i).data ≠ 0 := by
    have hok := hinv.worker_ok i hi
    rcases hpt with hp | hp <;> simp only [Worker.Ok, hp] at hok <;> exact hok
  have hadd := queue_bufferAdd (h.chan c).buffer (h.worker i).data hlt (hinv.allocated c)
  set w' := (h.worker i).afterSegment (.send (h.worker i).data)
    ⟨{ h.chan c with buffer := (bufferAdd (h.chan c).buffer (h.worker i).data).2 }, none,
      [.signal .write], .ret .success⟩
  -- the message has left `data`, and the worker goes back to the receive its `start` names
  have hw' : w'.data = 0 ∧ w'.start = (h.worker i).start ∧ w'.Ok := by
    rcases hpt with hp | hp <;> cases hs : (h.worker i).start <;>
      simp [w', Worker.afterSegment, Worker.ret, Worker.Ok, hp, hs]
  refine hinv.update_worker (w := w') hi hc (by simp) (by simp) rfl hw'.2.2 hnj (fun v hv => ?_) ?_
  · rw [hw'.1]
    simp [hadd, List.count_singleton, Ne.symm hv]
  · rw [hw'.2.1]
    rcases eq_or_ne c .main with rfl | hne
    · simp [hadd, List.count_singleton, hd]
    · simp [Function.update_noteq hne.symm]

/-- Every segment of every worker keeps the invariant. -/
theorem Inv.runWorker {i : Nat} {call : Call Nat} (hinv : Inv numChannel numMsgs capacity h)
    (hi : i < numChannel)
    (hcall : (h.worker i).call numChannel i = some (c, call)) :
    Inv numChannel numMsgs capacity (h.runWorker i c call (call.run (h.chan c))) := by
  have hnj : ¬h.main.pt.Joined i := fun hj => by
    simp [Worker.call, hinv.joined i hi hj] at hcall
  have hopen : (h.chan c).closed ≠ 0 := fun hcl => hnj (((hinv.closed_iff c).1 hcl).joined i)
  cases hp : (h.worker i).pt <;>
    simp only [Worker.call, hp, Option.some.injEq, Prod.mk.injEq, reduceCtorEq] at hcall <;>
    obtain ⟨rfl, rfl⟩ := hcall
  case receiveMain | receiveMine =>
    rcases (runs_run .receive (h.chan _)).receive_of_open hopen with ⟨hpos, hseg⟩ | hseg <;>
      rw [hseg]
    · exact hinv.worker_receive hi (by simp [hi]) hnj hpos (by simp [hp])
    · exact hinv.of_sameVars (sameVars_runWorker_wait _ _ _ _ _)
  case sendMain | sendNext =>
    rcases (runs_run (.send _) (h.chan _)).send_of_open hopen with ⟨hlt, hseg⟩ | hseg <;>
      rw [hseg]
    · exact hinv.worker_send hi (by simp [nextIndex_lt hi]) hnj hlt (by simp [hp])
    · exact hinv.of_sameVars (sameVars_runWorker_wait _ _ _ _ _)

/-- Worker `i` reads `done` and goes on to the send it names, with its message still in `data`. -/
theorem Inv.load {i : Nat} (hinv : Inv numChannel numMsgs capacity h) (hi : i < numChannel)
    (hp : (h.worker i).pt = .load) :
    Inv numChannel numMsgs capacity
      { h with worker := Function.update h.worker i ((h.worker i).load h.done) } := by
  have hok := hinv.worker_ok i hi
  simp only [Worker.Ok, hp] at hok
  rw [← Function.update_eq_self Chan.main h.chan]
  exact hinv.update_worker hi (Chan.main_mem_inUse _) rfl rfl rfl (by cases h.done <;> exact hok)
    (fun hj => absurd ((hinv.joined i hi hj).symm.trans hp) nofun) (fun _ _ => rfl)
    (by simp [Worker.load])

/-- `Inv.update_main` for a step between calls, which changes no channel and no mark, and moves
the main thread between two points where no assertion has failed and as many messages are sent,
start `NULL`s sent and messages marked. -/
theorem Inv.set_main {m : Main} (hinv : Inv numChannel numMsgs capacity h)
    (hb : m.pt.Bounded numChannel numMsgs) (hd : m.data = 0)
    (hna : ∀ check, m.pt ≠ .aborted check) (hold : ∀ check, h.main.pt ≠ .aborted check)
    (hcl : ∀ c', (h.chan c').closed = 0 ↔ m.pt.Closes numChannel c')
    (hj : ∀ i < numChannel, m.pt.Joined i → (h.worker i).pt = .exited)
    (hsent : m.pt.sent numMsgs = h.main.pt.sent numMsgs)
    (hstarts : m.pt.starts numChannel = h.main.pt.starts numChannel)
    (hcollected : m.pt.collected numMsgs = h.main.pt.collected numMsgs)
    (hchecked : m.checked = h.main.checked) :
    Inv numChannel numMsgs capacity { h with main := m } := by
  rw [← Function.update_eq_self Chan.main h.chan]
  refine hinv.update_main (Chan.main_mem_inUse _) rfl rfl hb hd (fun _ ha => absurd ha (hna _))
    (by simpa using hcl) hj (fun v _ => by rw [hsent, hchecked]) ?_
    (fun _ => by rw [hchecked, hcollected]; exact hinv.checked_length hold)
    (hchecked ▸ hinv.null_unchecked)
  simp [hstarts, hna, hold]

/-- Raising `done` changes no variable of a thread. -/
theorem sameVars_done (h : Harness) (b : Bool) : SameVars h { h with done := b } :=
  ⟨rfl, fun _ => rfl, fun _ => rfl, fun _ => rfl, rfl, rfl, rfl⟩

/-- After the `usleep` the main thread raises `done` and starts taking the messages back. -/
theorem Inv.store (hinv : Inv numChannel numMsgs capacity h) (hp : h.main.pt = .store) :
    Inv numChannel numMsgs capacity
      { h with done := true, main := { h.main with pt := .collects numMsgs numChannel 1 } } := by
  have hrun := MainPt.running_collects numMsgs numChannel 1
  refine (hinv.set_main (m := { h.main with pt := .collects numMsgs numChannel 1 })
    (MainPt.bounded_collects 0) hinv.main_data hrun.ne_aborted
    (by rw [hp]; exact fun _ => nofun) (fun c' => ?_) (fun i hi hj => absurd hj (hrun.not_joined i hi))
    ?_ ?_ ?_ rfl).of_sameVars (sameVars_done _ true)
  · rw [hinv.closed_iff, hp]
    exact iff_of_false ((show MainPt.store.Open from trivial).not_closes c') (hrun.isOpen.not_closes c')
  · rw [MainPt.sent_collects, hp]; rfl
  · rw [MainPt.starts_collects, hp]; rfl
  · rw [hp]; exact MainPt.collected_collects (Nat.zero_le _)

/-- `pthread_join(pid[i])` returns once worker `i` has: the loop goes on to the next worker, or
to `channel_close(main_channel)` after the last. -/
theorem Inv.join {i : Nat} (hinv : Inv numChannel numMsgs capacity h) (hp : h.main.pt = .join i)
    (hexit : (h.worker i).pt = .exited) :
    Inv numChannel numMsgs capacity
      { h with main := { h.main with pt := .joins numChannel (i + 1) } } := by
  have hold : h.main.pt.Open := by rw [hp]; trivial
  have hopen : (MainPt.joins numChannel (i + 1)).Open :=
    MainPt.loop_cases _ (fun _ => trivial) fun _ => trivial
  refine hinv.set_main (MainPt.bounded_joins _ _ _) hinv.main_data
    (MainPt.loop_cases (fun pt => ∀ check, pt ≠ .aborted check) (fun _ _ => nofun) fun _ _ => nofun)
    (by rw [hp]; exact fun _ => nofun)
    (fun c' => by rw [hinv.closed_iff]; exact iff_of_false (hold.not_closes c') (hopen.not_closes c'))
    (fun j hj hjoin => ?_) ?_ ?_ ?_ rfl
  · -- the workers joined are the ones before `i`, and `i` itself
    have hji : (MainPt.joins numChannel (i + 1)).Joined j → j ≤ i :=
      MainPt.loop_cases (fun pt => pt.Joined j → j ≤ i) (fun _ hjn => Nat.le_of_lt_succ hjn)
        fun hn _ => by omega
    rcases Nat.lt_or_eq_of_le (hji hjoin) with hlt | rfl
    · exact hinv.joined j hj (by rw [hp]; exact hlt)
    · exact hexit
  · rw [hp]; exact MainPt.loop_cases (fun pt => pt.sent numMsgs = numMsgs) (fun _ => rfl) fun _ => rfl
  · rw [hp]
    exact MainPt.loop_cases (fun pt => pt.starts numChannel = numChannel) (fun _ => rfl) fun _ => rfl
  · rw [hp]
    exact MainPt.loop_cases (fun pt => pt.collected numMsgs = numMsgs) (fun _ => rfl) fun _ => rfl

/-- The channel of a `channel_destroy` is one the main thread has closed, and the loop closing
the ring goes on at the channel after it, with the same channels closed. -/
theorem Main.destroys_spec {m : Main} {c : Chan} {next : MainPt}
    (hd : m.destroys numChannel = some (c, next)) (hb : m.pt.Bounded numChannel numMsgs) :
    m.pt.Closes numChannel c ∧ (∀ check, m.pt ≠ .aborted check) ∧
      ∃ j ≤ numChannel, next = .closeRings numChannel j ∧
        ∀ c', (MainPt.closeRings numChannel j).Closes numChannel c' ↔ m.pt.Closes numChannel c' := by
  cases hp : m.pt <;>
    simp only [Main.destroys, hp, Option.some.injEq, Prod.mk.injEq, reduceCtorEq] at hd <;>
    obtain ⟨rfl, rfl⟩ := hd <;> rw [hp] at hb
  case destroyMain =>
    refine ⟨trivial, nofun, 0, Nat.zero_le _, rfl, fun c' => ?_⟩
    unfold MainPt.closeRings MainPt.loop
    split <;> cases c' <;> simp [MainPt.Closes]
    omega
  case destroyRing i =>
    have hi : i < numChannel := hb
    refine ⟨Nat.le_refl i, nofun, i + 1, hi, rfl, fun c' => ?_⟩
    unfold MainPt.closeRings MainPt.loop
    split <;> cases c' <;> simp only [MainPt.Closes, iff_self] <;> constructor <;> intro <;> omega

/-- `channel_destroy` of a channel the main thread has closed returns `SUCCESS`, and the main
thread goes on closing the ring. -/
theorem Inv.destroy {c : Chan} {next : MainPt} (hinv : Inv numChannel numMsgs capacity h)
    (hd : h.main.destroys numChannel = some (c, next)) :
    Inv numChannel numMsgs capacity { h with main := { h.main with
      pt := if channelDestroy (h.chan c) = .success then next else .aborted .status } } := by
  obtain ⟨hcloses, hold, j, -, rfl, hflags⟩ := Main.destroys_spec hd hinv.bounded
  rw [channelDestroy_eq, if_pos ((hinv.closed_iff c).2 hcloses), if_pos rfl]
  have hnext : (MainPt.closeRings numChannel j).Closes numChannel .main :=
    MainPt.loop_cases (fun pt => pt.Closes numChannel .main) (fun _ => trivial) fun _ => trivial
  obtain ⟨hs, hst, hcol⟩ := hnext.counters numMsgs
  obtain ⟨hs', hst', hcol'⟩ := hcloses.counters numMsgs
  exact hinv.set_main (MainPt.bounded_closeRings _ _ _) hinv.main_data
    (MainPt.loop_cases (fun pt => ∀ check, pt ≠ .aborted check) (fun _ _ => nofun) fun _ _ => nofun)
    hold (fun c' => (hinv.closed_iff c').trans (hflags c').symm)
    (fun i hi _ => hinv.joined i hi (hcloses.joined i)) (hs.trans hs'.symm) (hst.trans hst'.symm)
    (hcol.trans hcol'.symm) rfl

/-- Every step of the harness keeps the invariant. -/
theorem Inv.step {h' : Harness} (hinv : Inv numChannel numMsgs capacity h)
    (hs : Step numChannel numMsgs h h') : Inv numChannel numMsgs capacity h' := by
  cases hs with
  | worker who hi hcall =>
    exact (hinv.runWorker hi hcall).of_sameVars (sameVars_notifyAll _ _ _ _ _)
  | main who hcall => exact (hinv.runMain hcall).of_sameVars (sameVars_notifyAll _ _ _ _ _)
  | load hi hp => exact hinv.load hi hp
  | store hp => exact hinv.store hp
  | join hp hexit => exact hinv.join hp hexit
  | destroy hd => exact hinv.destroy hd
  | spuriousWorker => exact hinv.of_sameVars (sameVars_workerPc _ _ _)
  | spuriousMain => exact hinv.of_sameVars (sameVars_mainPc _ _)

end Update

/-- A channel made by `channel_create` is empty. -/
@[simp] theorem queue_channelCreate (size : UInt64) :
    (channelCreate size : Channel Nat).buffer.queue = [] :=
  (Buffer.queue_eq_nil_iff _).2 rfl

/-- Just after the threads are created nothing is sent, every channel is open and empty, and every
worker is before its first receive; below `2 ^ 61` slots the block of each channel holds its
slots. -/
theorem Inv.init {bufferSize : UInt64} (hsize : bufferSize.toNat < 2 ^ 61) (numChannel numMsgs : Nat) :
    Inv numChannel numMsgs bufferSize.toNat (init bufferSize numChannel numMsgs) where
  capacity_eq _ := rfl
  allocated _ := (bufferCreate_allocated_iff bufferSize).2 hsize
  bounded := MainPt.bounded_sendMsgs 0
  main_data := rfl
  main_aborted _ ha := absurd ha ((MainPt.running_sendMsgs _ _ _).ne_aborted _)
  worker_ok _ _ := ⟨rfl, rfl⟩
  closed_iff c := iff_of_false Nat.one_ne_zero
    ((MainPt.running_sendMsgs _ _ _).isOpen.not_closes c)
  joined i hi hj := absurd hj ((MainPt.running_sendMsgs _ _ _).not_joined i hi)
  conserved v hv := by
    simp [Harness.init, queued, inHand, MainPt.sent_sendMsgs (Nat.zero_le numMsgs), hv, Ne.symm hv]
  nulls := by
    simp [Harness.init, leftStart, MainPt.starts_sendMsgs, (MainPt.running_sendMsgs _ _ _).ne_aborted]
  checked_length _ := (MainPt.collected_sendMsgs _ _ _).symm
  null_unchecked := List.not_mem_nil 0

/-- Every reachable state of the harness keeps the invariant, for channels of fewer than `2 ^ 61`
slots. -/
theorem Reachable.inv {bufferSize : UInt64} {numChannel numMsgs : Nat} {h : Harness}
    (hsize : bufferSize.toNat < 2 ^ 61) (hr : Reachable bufferSize numChannel numMsgs h) :
    Inv numChannel numMsgs bufferSize.toNat h := by
  induction hr with
  | refl => exact Inv.init hsize _ _
  | tail _ hs ih => exact ih.step hs

end Harness

namespace Harness

/-! ## Runs on fixed inputs -/

/-- While no thread is suspended, every signal may go to any thread: it wakes none. -/
theorem picksAll_of_idle {numChannel : Nat} {c : Chan} {who : Who} :
    ∀ {ws : List Wake} {h : Harness}, (∀ i < numChannel, (h.worker i).pc = .idle) →
      h.main.pc = .idle → PicksAll numChannel c who ws h
  | [], _, _, _ => trivial
  | w :: _, h, hw, hm => by
    refine ⟨?_, picksAll_of_idle (fun i hi => ?_) ?_⟩
    · cases w with
      | signal cond =>
        refine .inr fun x hx => ?_
        cases x with
        | worker i => rw [WaitsOn, hw i hx.1] at hx; exact Bool.false_ne_true hx.2.2
        | main => rw [WaitsOn, hm] at hx; exact Bool.false_ne_true hx.2
      | broadcast => trivial
    · cases w <;> simp only [notify, Worker.wake] <;> split_ifs <;> simp [hw i hi, Pc.wake]
    · cases w <;> simp only [notify, Main.wake] <;> split_ifs <;> simp [hm, Pc.wake]

/-- With one worker, no signal has a thread to wake while worker `0` and the main thread are
outside `pthread_cond_wait`. -/
theorem picksAll_one {c : Chan} {who : Who} {ws : List Wake} {h : Harness}
    (hw : (h.worker 0).pc = .idle) (hm : h.main.pc = .idle) : PicksAll 1 c who ws h :=
  picksAll_of_idle (fun _ hi => Nat.lt_one_iff.1 hi ▸ hw) hm

/-- One worker, one message, one slot: the worker passes the message on around the ring and goes
back to `main_channel` before the main thread sends the start `NULL`, and the main thread, once
`done` is raised, takes that `NULL` back and fails its range check. -/
theorem null_collected_reachable : ∃ h, Reachable 1 1 1 h ∧ h.main.pt = .aborted .range := by
  have hr : Reachable 1 1 1 _ :=
    .tail (.tail (.tail (.tail (.tail (.tail (.single
      (Step.main .main (show _ = some (Chan.main, Call.send 1) from rfl) (.inl rfl) (picksAll_one rfl rfl)))
      (Step.worker (i := 0) .main (by decide) (show _ = some (Chan.main, Call.receive) from rfl)
        (.inl rfl) (picksAll_one rfl rfl)))
      (Step.load (i := 0) (by decide) rfl))
      (Step.worker (i := 0) .main (by decide) (show _ = some (Chan.ring 0, Call.send 1) from rfl)
        (.inl rfl) (picksAll_one rfl rfl)))
      (Step.main .main (show _ = some (Chan.main, Call.send 0) from rfl) (.inl rfl) (picksAll_one rfl rfl)))
      (Step.store rfl))
      (Step.main .main (show _ = some (Chan.main, Call.receive) from rfl) (.inl rfl) (picksAll_one rfl rfl))
  exact ⟨_, hr, rfl⟩

/-- One worker, one message, two slots: the worker takes the message, hands it back once `done` is
raised and then takes its start `NULL`; the main thread checks the message, and the stop `NULL`,
the join and the clean-up of both channels run to the end. -/
theorem finished_reachable : ∃ h, Reachable 2 1 1 h ∧ h.main.pt = .finished := by
  have hr : Reachable 2 1 1 _ :=
    .tail (.tail (.tail (.tail (.tail (.tail (.tail (.tail (.tail (.tail (.tail (.tail (.tail (.tail (.single
      (Step.main .main (show _ = some (Chan.main, Call.send 1) from rfl) (.inl rfl) (picksAll_one rfl rfl)))
      (Step.main .main (show _ = some (Chan.main, Call.send 0) from rfl) (.inl rfl) (picksAll_one rfl rfl)))
      (Step.store rfl))
      (Step.worker (i := 0) .main (by decide) (show _ = some (Chan.main, Call.receive) from rfl)
        (.inl rfl) (picksAll_one rfl rfl)))
      (Step.load (i := 0) (by decide) rfl))
      (Step.worker (i := 0) .main (by decide) (show _ = some (Chan.main, Call.send 1) from rfl)
        (.inl rfl) (picksAll_one rfl rfl)))
      (Step.worker (i := 0) .main (by decide) (show _ = some (Chan.main, Call.receive) from rfl)
        (.inl rfl) (picksAll_one rfl rfl)))
      (Step.main .main (show _ = some (Chan.main, Call.receive) from rfl) (.inl rfl) (picksAll_one rfl rfl)))
      (Step.main .main (show _ = some (Chan.ring 0, Call.send 0) from rfl) (.inl rfl) (picksAll_one rfl rfl)))
      (Step.worker (i := 0) .main (by decide) (show _ = some (Chan.ring 0, Call.receive) from rfl)
        (.inl rfl) (picksAll_one rfl rfl)))
      (Step.join (i := 0) rfl rfl))
      (Step.main .main (show _ = some (Chan.main, Call.close) from rfl) (.inl rfl) (picksAll_one rfl rfl)))
      (Step.destroy (show _ = some (Chan.main, MainPt.closeRings 1 0) from rfl)))
      (Step.main .main (show _ = some (Chan.ring 0, Call.close) from rfl) (.inl rfl) (picksAll_one rfl rfl)))
      (Step.destroy (show _ = some (Chan.ring 0, MainPt.closeRings 1 1) from rfl))
  exact ⟨_, hr, rfl⟩

end Harness

/-! ## What every run keeps -/

section Runs

variable {bufferSize : UInt64} {numChannel numMsgs : Nat} {h : Harness}

/-- Each message the main thread has sent is in exactly one place: queued once in one channel, in
one worker's `data`, or marked in `msg_check`; and no other non-`NULL` value is anywhere. -/
theorem messages_conserved (hsize : bufferSize.toNat < 2 ^ 61)
    (hr : Harness.Reachable bufferSize numChannel numMsgs h) {v : Nat} (hv : v ≠ 0) :
    queued numChannel h.chan v + inHand numChannel h.worker v + h.main.checked.count v =
      if 1 ≤ v ∧ v ≤ h.main.pt.sent numMsgs then 1 else 0 :=
  ((hr.inv hsize).conserved v hv).symm

theorem messages_conserved_null_collected :
    ∃ h, Harness.Reachable 1 1 1 h ∧ h.main.pt = .aborted .range ∧
      queued 1 h.chan 1 + inHand 1 h.worker 1 + h.main.checked.count 1 =
        if 1 ≤ 1 ∧ 1 ≤ h.main.pt.sent 1 then 1 else 0 :=
  let ⟨h, hr, hp⟩ := Harness.null_collected_reachable
  ⟨h, hr, hp, messages_conserved (by decide) hr (by decide)⟩

/-- No assertion of a worker fails, nor a `status` check of the main thread, nor its `msg_check`
test: the only assertion that can fail is the range check, on a `NULL` taken back. -/
theorem only_null_fails_check (hsize : bufferSize.toNat < 2 ^ 61)
    (hr : Harness.Reachable bufferSize numChannel numMsgs h) :
    (∀ i < numChannel, (h.worker i).pt ≠ .aborted) ∧
      ∀ check, h.main.pt = .aborted check → check = .range ∧ h.main.data = 0 := by
  have hinv := hr.inv hsize
  refine ⟨fun i hi ha => ?_, fun check ha => ⟨hinv.main_aborted check ha, hinv.main_data⟩⟩
  have hok := hinv.worker_ok i hi
  simp only [Worker.Ok, ha] at hok

theorem only_null_fails_check_null_collected :
    ∃ h, Harness.Reachable 1 1 1 h ∧ h.main.pt = .aborted .range ∧
      (∀ i < 1, (h.worker i).pt ≠ .aborted) ∧
        ∀ check, h.main.pt = .aborted check → check = .range ∧ h.main.data = 0 :=
  let ⟨h, hr, hp⟩ := Harness.null_collected_reachable
  ⟨h, hr, hp, only_null_fails_check (by decide) hr⟩

/-- The range check fails only while some worker has not yet taken its start `NULL` out of
`main_channel`: the `NULL` taken back is that worker's. -/
theorem null_taken_back_while_starting (hsize : bufferSize.toNat < 2 ^ 61)
    (hr : Harness.Reachable bufferSize numChannel numMsgs h) (hp : h.main.pt = .aborted .range) :
    ∃ i < numChannel, (h.worker i).start = true := by
  have hnull := (hr.inv hsize).nulls
  simp only [hp, MainPt.starts, if_true] at hnull
  by_contra hno
  push_neg at hno
  have hall : leftStart numChannel h.worker = numChannel := by
    rw [leftStart, Finset.sum_congr rfl fun i hi => if_neg (hno i (Finset.mem_range.1 hi))]
    simp
  omega

theorem null_taken_back_while_starting_one_worker :
    ∃ h, Harness.Reachable 1 1 1 h ∧ h.main.pt = .aborted .range ∧
      ∃ i < 1, (h.worker i).start = true :=
  let ⟨h, hr, hp⟩ := Harness.null_collected_reachable
  ⟨h, hr, hp, null_taken_back_while_starting (by decide) hr hp⟩

/-- Once the clean-up is done, `msg_check` marks each message `1, …, num_msgs` exactly once and
nothing else, and no message is left in a channel or with a worker. -/
theorem finished_every_message_checked_once (hsize : bufferSize.toNat < 2 ^ 61)
    (hr : Harness.Reachable bufferSize numChannel numMsgs h) (hp : h.main.pt = .finished)
    {v : Nat} (hv : v ≠ 0) :
    h.main.checked.count v = (if v ≤ numMsgs then 1 else 0) ∧
      queued numChannel h.chan v = 0 ∧ inHand numChannel h.worker v = 0 := by
  have hinv := hr.inv hsize
  have hcons (u : Nat) (hu : u ≠ 0) := hinv.conserved u hu
  simp only [hp, MainPt.sent] at hcons
  -- every mark is of a message `1, …, num_msgs`, and none is marked twice
  have hmem (u : Nat) (hu : u ∈ h.main.checked) : 1 ≤ u ∧ u ≤ numMsgs := by
    have hc := hcons u fun h0 => hinv.null_unchecked (h0 ▸ hu)
    have := List.count_pos_iff.2 hu
    split_ifs at hc with hin
    · exact hin
    · omega
  have hnd : h.main.checked.Nodup := List.nodup_iff_count_le_one.2 fun u => by
    rcases eq_or_ne u 0 with rfl | hu
    · rw [List.count_eq_zero.2 hinv.null_unchecked]; omega
    · have := hcons u hu
      split_ifs at this <;> omega
  have hlen : h.main.checked.length = numMsgs := by
    rw [hinv.checked_length (by rw [hp]; nofun), hp]; rfl
  -- `num_msgs` distinct marks among `num_msgs` messages are all of them
  have hall : h.main.checked.toFinset = Finset.Icc 1 numMsgs :=
    Finset.eq_of_subset_of_card_le (fun u hu => Finset.mem_Icc.2 (hmem u (List.mem_toFinset.1 hu)))
      (by rw [List.toFinset_card_of_nodup hnd, hlen, Nat.card_Icc]; omega)
  have hc := hcons v hv
  by_cases hle : v ≤ numMsgs
  · have hv1 : 1 ≤ v := Nat.one_le_iff_ne_zero.2 hv
    have hin : v ∈ h.main.checked := List.mem_toFinset.1 (hall ▸ Finset.mem_Icc.2 ⟨hv1, hle⟩)
    rw [List.count_eq_one_of_mem hnd hin, if_pos ⟨hv1, hle⟩] at hc
    rw [List.count_eq_one_of_mem hnd hin, if_pos hle]
    omega
  · rw [if_neg fun h => hle h.2] at hc
    rw [if_neg hle]
    omega

theorem finished_every_message_checked_once_one_message :
    ∃ h, Harness.Reachable 2 1 1 h ∧ h.main.pt = .finished ∧
      ∀ v, v ≠ 0 → h.main.checked.count v = (if v ≤ 1 then 1 else 0) ∧
        queued 1 h.chan v = 0 ∧ inHand 1 h.worker v = 0 :=
  let ⟨h, hr, hp⟩ := Harness.finished_reachable
  ⟨h, hr, hp, fun _ hv => finished_every_message_checked_once (by decide) hr hp hv⟩

end Runs

end SendRecv

end ConcurrencyLab
