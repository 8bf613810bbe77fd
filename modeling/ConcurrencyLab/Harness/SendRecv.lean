import ConcurrencyLab.Channel.Threads

/-!
# The ring of `stress_send_recv.c`

`run_stress_send_recv` creates `num_channel` channels of `buffer_size` slots, a ring, and one
more, `main_channel`, and starts one `worker_thread` per channel of the ring.  It sends the
messages `1, …, num_msgs` and then one `NULL` per worker into `main_channel`, sleeps, raises
`done`, takes `num_msgs` messages back out of `main_channel` and checks each, sends one `NULL`
into each channel of the ring, joins the workers, and closes and destroys every channel.  A
worker takes messages from `main_channel` until it gets a `NULL`, then from its own channel until
it gets a `NULL`; every message it takes goes on to the next channel of the ring, or back to
`main_channel` once `done` is raised.

Messages are the pointers `(void*)msg`, here `Nat`, with `NULL` as `0`.  A thread is at a point
of its function, with the variables it keeps across calls, and inside the call at that point as
in `Channel.Threads` (`Pc`): idle before it, suspended in `pthread_cond_wait`, or woken.  A step
(`Harness.Step`) is one mutex-held segment of one call, a step between calls (`atomic_load`,
`atomic_store`, `pthread_join`, `channel_destroy`), or a spurious wake-up.  A notification on a
condition of a channel wakes the threads suspended on that condition of that channel.  A failed
`assert` stops its thread at `aborted`, which names the assertion.  The harness computes
`num_msgs` from `load` in `double`; the model takes it as a parameter, and `usleep` is the time
in which the other threads run.
-/

namespace ConcurrencyLab.SendRecv

/-- The channels of the harness: `channels[i]` of the ring, and `main_channel`. -/
inductive Chan
  | ring (i : Nat)
  | main
  deriving DecidableEq, Repr

/-- `next_index` of `worker_thread`: the channel after `index` in the ring. -/
def nextIndex (numChannel index : Nat) : Nat :=
  if index + 1 ≥ numChannel then 0 else index + 1

/-! ## `worker_thread` -/

/-- Where `worker_thread` is. -/
inductive WorkerPt
  | receiveMain
  | receiveMine
  | load
  | sendMain
  | sendNext
  | exited
  | aborted
  deriving DecidableEq, Repr

/-- A worker: its point, where it is inside the call there, and its variables `start` and
`data`. -/
structure Worker where
  pt : WorkerPt
  pc : Pc Nat
  start : Bool
  data : Nat

namespace Worker

/-- The call at the worker's point and its channel; `index` is the worker's own. -/
def call (numChannel index : Nat) (w : Worker) : Option (Chan × Call Nat) :=
  match w.pt with
  | .receiveMain => some (.main, .receive)
  | .receiveMine => some (.ring index, .receive)
  | .sendMain => some (.main, .send w.data)
  | .sendNext => some (.ring (nextIndex numChannel index), .send w.data)
  | _ => none

/-- The worker once its call returns `status`, the message received (if any) already in `data`:
`assert(status == SUCCESS)`, then the loop body up to the next call.  A `NULL` from
`main_channel` ends the start phase, a `NULL` from its own channel ends the loop, and after a
send the next turn starts with `data = NULL`. -/
def ret (w : Worker) (status : ChannelStatus) : Worker :=
  if status = .success then
    match w.pt with
    | .receiveMain =>
      if w.data = 0 then { w with pt := .receiveMine, start := false } else { w with pt := .load }
    | .receiveMine => if w.data = 0 then { w with pt := .exited } else { w with pt := .load }
    | _ => { w with pt := if w.start then .receiveMain else .receiveMine, data := 0 }
  else { w with pt := .aborted }

/-- `if (atomic_load(&done))`: the message goes back to `main_channel` once `done` is raised,
and on around the ring before. -/
def load (done : Bool) (w : Worker) : Worker :=
  { w with pt := if done then .sendMain else .sendNext }

/-- The worker once a segment of `call` ends. -/
def afterSegment (call : Call Nat) (seg : Segment Nat) (w : Worker) : Worker :=
  match seg.exit with
  | .ret status => { w with pc := .idle, data := seg.out.getD w.data }.ret status
  | .wait cond => { w with pc := .waiting cond call, data := seg.out.getD w.data }

/-- A notification on `cond` of channel `c` wakes the worker if it is suspended on it. -/
def wake (numChannel index : Nat) (c : Chan) (cond : Cond) (w : Worker) : Worker :=
  if (w.call numChannel index).map Prod.fst = some c then { w with pc := w.pc.wake cond } else w

end Worker

/-! ## `run_stress_send_recv` -/

/-- The assertions of `run_stress_send_recv`. -/
inductive Check
  | status
  | range
  | fresh
  deriving DecidableEq, Repr

/-- Where `run_stress_send_recv` is, after the set-up. -/
inductive MainPt
  | sendMsg (msg : Nat)
  | sendStart (i : Nat)
  | store
  | collect (msg : Nat)
  | sendStop (i : Nat)
  | join (i : Nat)
  | closeMain
  | destroyMain
  | closeRing (i : Nat)
  | destroyRing (i : Nat)
  | finished
  | aborted (check : Check)
  deriving DecidableEq, Repr

namespace MainPt

/-- The head of a loop `for (i = …; i < bound; i++)` at `i`: the body's point, or the point
after the loop. -/
def loop (i bound : Nat) (body : Nat → MainPt) (after : MainPt) : MainPt :=
  if i < bound then body i else after

/-- The loop sending the start `NULL`s, at `i`. -/
def sendStarts (numChannel i : Nat) : MainPt := loop i numChannel sendStart store

/-- The loop sending the messages, at `msg`. -/
def sendMsgs (numMsgs numChannel msg : Nat) : MainPt :=
  loop msg (numMsgs + 1) sendMsg (sendStarts numChannel 0)

/-- The loop joining the workers, at `i`. -/
def joins (numChannel i : Nat) : MainPt := loop i numChannel join closeMain

/-- The loop sending the stop `NULL`s, at `i`. -/
def sendStops (numChannel i : Nat) : MainPt := loop i numChannel sendStop (joins numChannel 0)

/-- The loop taking the messages back, at `msg`. -/
def collects (numMsgs numChannel msg : Nat) : MainPt :=
  loop msg (numMsgs + 1) collect (sendStops numChannel 0)

/-- The loop closing and destroying the channels of the ring, at `i`. -/
def closeRings (numChannel i : Nat) : MainPt := loop i numChannel closeRing finished

end MainPt

/-- The main thread: its point, where it is inside the call there, its `data`, and the messages
it has marked in `msg_check`, the latest first. -/
structure Main where
  pt : MainPt
  pc : Pc Nat
  data : Nat
  checked : List Nat

namespace Main

/-- The call at the main thread's point and its channel. -/
def call (m : Main) : Option (Chan × Call Nat) :=
  match m.pt with
  | .sendMsg msg => some (.main, .send msg)
  | .sendStart _ => some (.main, .send 0)
  | .collect _ => some (.main, .receive)
  | .sendStop i => some (.ring i, .send 0)
  | .closeMain => some (.main, .close)
  | .closeRing i => some (.ring i, .close)
  | _ => none

/-- The main thread once its call returns `status`, the message received (if any) already in
`data`: `assert(status == SUCCESS)`, the two checks of a message taken back before it is marked
in `msg_check`, and the loops. -/
def ret (numMsgs numChannel : Nat) (m : Main) (status : ChannelStatus) : Main :=
  if status = .success then
    match m.pt with
    | .sendMsg msg => { m with pt := .sendMsgs numMsgs numChannel (msg + 1) }
    | .sendStart i => { m with pt := .sendStarts numChannel (i + 1) }
    | .collect msg =>
      if ¬(1 ≤ m.data ∧ m.data ≤ numMsgs) then { m with pt := .aborted .range }
      else if m.data ∈ m.checked then { m with pt := .aborted .fresh }
      else
        { m with pt := .collects numMsgs numChannel (msg + 1), data := 0,
                 checked := m.data :: m.checked }
    | .sendStop i => { m with pt := .sendStops numChannel (i + 1) }
    | .closeMain => { m with pt := .destroyMain }
    | .closeRing i => { m with pt := .destroyRing i }
    | _ => m
  else { m with pt := .aborted .status }

/-- The main thread once a segment of `call` ends. -/
def afterSegment (numMsgs numChannel : Nat) (call : Call Nat) (seg : Segment Nat) (m : Main) :
    Main :=
  match seg.exit with
  | .ret status => { m with pc := .idle, data := seg.out.getD m.data }.ret numMsgs numChannel status
  | .wait cond => { m with pc := .waiting cond call, data := seg.out.getD m.data }

/-- The `channel_destroy` at the main thread's point: its channel and the point after it. -/
def destroys (numChannel : Nat) (m : Main) : Option (Chan × MainPt) :=
  match m.pt with
  | .destroyMain => some (.main, .closeRings numChannel 0)
  | .destroyRing i => some (.ring i, .closeRings numChannel (i + 1))
  | _ => none

/-- A notification on `cond` of channel `c` wakes the main thread if it is suspended on it. -/
def wake (c : Chan) (cond : Cond) (m : Main) : Main :=
  if m.call.map Prod.fst = some c then { m with pc := m.pc.wake cond } else m

end Main

/-! ## The harness -/

/-- A thread of the harness: worker `i`, or the main thread. -/
inductive Who
  | worker (i : Nat)
  | main
  deriving DecidableEq, Repr

/-- The channels, the flag `done`, the workers by index, and the main thread. -/
structure Harness where
  chan : Chan → Channel Nat
  done : Bool
  worker : Nat → Worker
  main : Main

namespace Harness

/-- Just after the threads are created: every channel made by `channel_create(buffer_size)`,
`done` false, every worker before its first receive from `main_channel`, and the main thread at
its first loop. -/
def init (bufferSize : UInt64) (numChannel numMsgs : Nat) : Harness where
  chan := fun _ => channelCreate bufferSize
  done := false
  worker := fun _ => ⟨.receiveMain, .idle, true, 0⟩
  main := ⟨.sendMsgs numMsgs numChannel 1, .idle, 0, []⟩

/-- The thread `who` is suspended on `cond` of channel `c`. -/
def WaitsOn (numChannel : Nat) (c : Chan) (cond : Cond) (h : Harness) : Who → Prop
  | .worker i => i < numChannel ∧ ((h.worker i).call numChannel i).map Prod.fst = some c ∧
      (h.worker i).pc.waitsOn cond = true
  | .main => h.main.call.map Prod.fst = some c ∧ h.main.pc.waitsOn cond = true

/-- The harness after a notification on channel `c`: a signal wakes the thread `who` picked for
it, a broadcast every thread suspended on its condition. -/
def notify (numChannel : Nat) (c : Chan) (who : Who) (h : Harness) : Wake → Harness
  | .signal cond =>
    { h with
      worker := fun i => if who = .worker i then (h.worker i).wake numChannel i c cond else h.worker i
      main := if who = .main then h.main.wake c cond else h.main }
  | .broadcast cond =>
    { h with
      worker := fun i => (h.worker i).wake numChannel i c cond
      main := h.main.wake c cond }

/-- A signal picks a thread suspended on its condition, unless no thread is. -/
def Picks (numChannel : Nat) (c : Chan) (who : Who) (h : Harness) : Wake → Prop
  | .signal cond => h.WaitsOn numChannel c cond who ∨ ∀ x, ¬h.WaitsOn numChannel c cond x
  | .broadcast _ => True

/-- The harness after the notifications of a segment on `c`, in order. -/
def notifyAll (numChannel : Nat) (c : Chan) (who : Who) : List Wake → Harness → Harness
  | [], h => h
  | w :: ws, h => notifyAll numChannel c who ws (h.notify numChannel c who w)

/-- Every signal among the notifications picks as `pthread_cond_signal` may. -/
def PicksAll (numChannel : Nat) (c : Chan) (who : Who) : List Wake → Harness → Prop
  | [], _ => True
  | w :: ws, h => h.Picks numChannel c who w ∧ PicksAll numChannel c who ws (h.notify numChannel c who w)

/-- Worker `i` ends the segment `seg` of its call `call` on `c`, before its notifications. -/
def runWorker (i : Nat) (c : Chan) (call : Call Nat) (seg : Segment Nat) (h : Harness) :
    Harness :=
  { h with
    chan := Function.update h.chan c seg.channel
    worker := Function.update h.worker i ((h.worker i).afterSegment call seg) }

/-- The main thread ends the segment `seg` of its call `call` on `c`, before its
notifications. -/
def runMain (numChannel numMsgs : Nat) (c : Chan) (call : Call Nat) (seg : Segment Nat)
    (h : Harness) : Harness :=
  { h with
    chan := Function.update h.chan c seg.channel
    main := h.main.afterSegment numMsgs numChannel call seg }

/-- The steps of the harness. -/
inductive Step (numChannel numMsgs : Nat) : Harness → Harness → Prop
  | worker {h : Harness} {i : Nat} {c : Chan} {call : Call Nat} (who : Who) :
      i < numChannel → (h.worker i).call numChannel i = some (c, call) →
      ((h.worker i).pc = .idle ∨ (h.worker i).pc = .woken call) →
      PicksAll numChannel c who (call.run (h.chan c)).wakes
        (h.runWorker i c call (call.run (h.chan c))) →
      Step numChannel numMsgs h ((h.runWorker i c call (call.run (h.chan c))).notifyAll numChannel c who
        (call.run (h.chan c)).wakes)
  | main {h : Harness} {c : Chan} {call : Call Nat} (who : Who) :
      h.main.call = some (c, call) → (h.main.pc = .idle ∨ h.main.pc = .woken call) →
      PicksAll numChannel c who (call.run (h.chan c)).wakes
        (h.runMain numChannel numMsgs c call (call.run (h.chan c))) →
      Step numChannel numMsgs h ((h.runMain numChannel numMsgs c call (call.run (h.chan c))).notifyAll numChannel c who
        (call.run (h.chan c)).wakes)
  | load {h : Harness} {i : Nat} : i < numChannel → (h.worker i).pt = .load →
      Step numChannel numMsgs h { h with worker := Function.update h.worker i ((h.worker i).load h.done) }
  | store {h : Harness} : h.main.pt = .store →
      Step numChannel numMsgs h { h with done := true, main := { h.main with pt := .collects numMsgs numChannel 1 } }
  | join {h : Harness} {i : Nat} : h.main.pt = .join i → (h.worker i).pt = .exited →
      Step numChannel numMsgs h { h with main := { h.main with pt := .joins numChannel (i + 1) } }
  | destroy {h : Harness} {c : Chan} {next : MainPt} : h.main.destroys numChannel = some (c, next) →
      Step numChannel numMsgs h { h with
        main := { h.main with
          pt := if channelDestroy (h.chan c) = .success then next else .aborted .status } }
  | spuriousWorker {h : Harness} {i : Nat} {cond : Cond} {call : Call Nat} : i < numChannel →
      (h.worker i).pc = .waiting cond call →
      Step numChannel numMsgs h { h with worker := Function.update h.worker i { h.worker i with pc := .woken call } }
  | spuriousMain {h : Harness} {cond : Cond} {call : Call Nat} : h.main.pc = .waiting cond call →
      Step numChannel numMsgs h { h with main := { h.main with pc := .woken call } }

/-- The states of `run_stress_send_recv(buffer_size, num_channel, …)` sending `num_msgs`
messages. -/
def Reachable (bufferSize : UInt64) (numChannel numMsgs : Nat) (h : Harness) : Prop :=
  Relation.ReflTransGen (Step numChannel numMsgs) (init bufferSize numChannel numMsgs) h

end Harness

end ConcurrencyLab.SendRecv
