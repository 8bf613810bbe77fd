import ConcurrencyLab.Buffer.Basic

/-!
# The ring buffer as a FIFO queue

`Buffer.queue` reads the messages out of the slots, oldest first.  While the block holds every
slot (`Buffer.Allocated`), the sum `next + size` stays far below `2 ^ 64`, the slot `buffer_add`
writes is `(next + size) mod capacity` (`pos_eq_mod`) and inside the block, and the one
`buffer_remove` moves `next` to is `(next + 1) mod capacity` (`advance_eq_mod`), so the two calls
append to and pop from the queue (`queue_bufferAdd`, `queue_bufferRemove`).  `queueContract`
turns this into the interface of `buffer.h` for every run from `buffer_create` below `2 ^ 61`
slots.

At `2 ^ 61` slots the block is empty, and the first `buffer_add` succeeds without the message
reaching the buffer's storage (`bufferAdd_outside_block`).
-/
namespace ConcurrencyLab

variable {α : Type}

/-- One subtraction of `c` is reduction modulo `c` below `2 * c`. -/
theorem wrap_eq_mod {x c : Nat} (h : x < 2 * c) : (if x ≥ c then x - c else x) = x % c := by
  split
  · rw [Nat.mod_eq_sub_mod ‹_›, Nat.mod_eq_of_lt (by omega)]
  · rw [Nat.mod_eq_of_lt (by omega)]

theorem mod_ne_of_lt {n i j c : Nat} (hn : n < c) (hij : i < j) (hj : j < c) :
    (n + i) % c ≠ (n + j) % c := by
  rw [← wrap_eq_mod (show n + i < 2 * c by omega), ← wrap_eq_mod (show n + j < 2 * c by omega)]
  split <;> split <;> omega

namespace Buffer

/-- The messages in the buffer, oldest first: the one `i` places behind the oldest sits in
slot `(next + i) mod capacity`. -/
def queue (buffer : Buffer α) : List α :=
  (List.range buffer.size).map fun i => buffer.data ((buffer.next + i) % buffer.capacity)

variable (buffer : Buffer α)

@[simp] theorem length_queue : buffer.queue.length = buffer.size := by
  simp [queue]

theorem queue_eq_nil_iff : buffer.queue = [] ↔ buffer.size = 0 := by
  rw [← List.length_eq_zero, length_queue]

theorem getElem?_queue {i : Nat} (h : i < buffer.size) :
    buffer.queue[i]? = some (buffer.data ((buffer.next + i) % buffer.capacity)) := by
  simp [queue, h]

theorem pos_eq_mod (h : buffer.size < buffer.capacity) (hc : buffer.Allocated) :
    buffer.pos = (buffer.next + buffer.size) % buffer.capacity := by
  have := buffer.next_lt
  have := capacity_lt_of_allocated hc
  unfold pos
  rw [Nat.mod_eq_of_lt (show buffer.next + buffer.size < 2 ^ 64 by omega)]
  exact wrap_eq_mod (by omega)

theorem advance_eq_mod (h : 0 < buffer.size) :
    buffer.advance = (buffer.next + 1) % buffer.capacity :=
  wrap_eq_mod (by have := buffer.next_lt_capacity h; omega)

end Buffer

open Buffer

theorem queue_bufferAdd (buffer : Buffer α) (v : α) (h : buffer.size < buffer.capacity)
    (hc : buffer.Allocated) :
    (bufferAdd buffer v).2.queue = buffer.queue ++ [v] := by
  have hn := buffer.next_lt
  have hd : (bufferAdd buffer v).2.data =
      Function.update buffer.data ((buffer.next + buffer.size) % buffer.capacity) v := by
    rw [bufferAdd_data, if_pos h, store_of_inBlock buffer v (buffer.pos_inBlock hc h),
      pos_eq_mod buffer h hc]
  simp only [queue, bufferAdd_size, bufferAdd_next, bufferAdd_capacity, hd, if_pos h,
    List.range_succ, List.map_append, List.map_singleton, Function.update_same]
  congr 1
  refine List.map_congr_left fun i hi => Function.update_noteq ?_ _ _
  exact mod_ne_of_lt (by omega) (List.mem_range.1 hi) h

theorem queue_bufferRemove (buffer : Buffer α) (h : 0 < buffer.size) :
    (bufferRemove buffer).2.1.queue = buffer.queue.tail := by
  have hnext : (bufferRemove buffer).2.1.next = (buffer.next + 1) % buffer.capacity := by
    rw [bufferRemove_next, if_pos h, advance_eq_mod buffer h]
  obtain ⟨n, hn⟩ : ∃ n, buffer.size = n + 1 := ⟨buffer.size - 1, by omega⟩
  simp only [queue, bufferRemove_size, hnext, bufferRemove_data, bufferRemove_capacity, hn,
    List.range_succ_eq_map, List.map_cons, List.tail_cons, List.map_map, Nat.add_sub_cancel,
    Nat.mod_add_mod]
  refine List.map_congr_left fun i _ => congrArg buffer.data (congrArg (· % _) ?_)
  simp only [Function.comp, Nat.succ_eq_add_one]
  omega

theorem out_bufferRemove (buffer : Buffer α) (h : 0 < buffer.size) :
    (bufferRemove buffer).2.2 = buffer.queue.head? := by
  rw [List.head?_eq_getElem?, getElem?_queue buffer h, bufferRemove_out, if_pos h,
    Nat.add_zero, Nat.mod_eq_of_lt (buffer.next_lt_capacity h)]

/-! ## The interface of `buffer.h` -/

/-- What `buffer_add` and `buffer_remove` promise at a buffer state: each appends to or pops
from `queue` when it can, touching a slot below `capacity`, and changes nothing when it
cannot. -/
structure QueueContract (buffer : Buffer α) : Prop where
  add_ok : ∀ v, buffer.queue.length < buffer.capacity →
    (bufferAdd buffer v).1 = .bufferSuccess ∧ (bufferAdd buffer v).2.queue = buffer.queue ++ [v] ∧
      buffer.pos < buffer.capacity
  add_full : ∀ v, buffer.capacity ≤ buffer.queue.length →
    bufferAdd buffer v = (.bufferError, buffer)
  remove_ok : buffer.queue ≠ [] →
    (bufferRemove buffer).1 = .bufferSuccess ∧ (bufferRemove buffer).2.2 = buffer.queue.head? ∧
      (bufferRemove buffer).2.1.queue = buffer.queue.tail ∧ buffer.next < buffer.capacity
  remove_empty : buffer.queue = [] → bufferRemove buffer = (.bufferError, buffer, none)

theorem queueContract (buffer : Buffer α) (hc : buffer.Allocated) :
    QueueContract buffer where
  add_ok v h := by
    rw [length_queue] at h
    exact ⟨by simp [h], queue_bufferAdd buffer v h hc, buffer.pos_lt h⟩
  add_full v h := bufferAdd_of_full buffer v (by simpa using h)
  remove_ok h := by
    have h : 0 < buffer.size := Nat.pos_of_ne_zero fun h0 => h ((queue_eq_nil_iff buffer).2 h0)
    exact ⟨by simp [h], out_bufferRemove buffer h, queue_bufferRemove buffer h,
      buffer.next_lt_capacity h⟩
  remove_empty h := bufferRemove_of_empty buffer ((queue_eq_nil_iff buffer).1 h)

/-- Every run from `buffer_create` below `2 ^ 61` slots keeps the contract and the bounds of
`buffer_t`. -/
theorem bufferCreate_run_contract [Inhabited α] (capacity : UInt64)
    (hc : capacity.toNat < 2 ^ 61) (calls : List (BufferCall α)) :
    let buffer : Buffer α := runBuffer (bufferCreate capacity) calls
    QueueContract buffer ∧ buffer.capacity = capacity.toNat ∧ buffer.size ≤ capacity.toNat ∧
      (buffer.next < capacity.toNat ∨ capacity.toNat = 0 ∧ buffer.next = 0) := by
  intro buffer
  have hcap : buffer.capacity = capacity.toNat := by simp [buffer]
  have halloc := allocated_runBuffer ((bufferCreate_allocated_iff capacity).2 hc) calls
  have := buffer.size_le
  have := buffer.next_lt
  exact ⟨queueContract buffer halloc, hcap, by omega, by omega⟩

/-- Two adds and a remove on a buffer of two slots keep the contract. -/
theorem bufferCreate_run_contract_two_slots :
    (2 : UInt64).toNat < 2 ^ 61 ∧
      QueueContract (runBuffer (bufferCreate 2 : Buffer Nat) [.add 5, .add 6, .remove]) :=
  ⟨by decide, (bufferCreate_run_contract 2 (by decide) [.add 5, .add 6, .remove]).1⟩

/-- At `2 ^ 61` slots `buffer_add(1)` on a new buffer returns `BUFFER_SUCCESS` and writes slot
`0`, below `capacity` but outside the empty block, so the queue it leaves is not the old queue
with `1` appended. -/
theorem bufferAdd_outside_block :
    let buffer : Buffer Nat := bufferCreate 2305843009213693952
    (bufferAdd buffer 1).1 = .bufferSuccess ∧ buffer.pos < buffer.capacity ∧
      ¬buffer.InBlock buffer.pos ∧ (bufferAdd buffer 1).2.queue ≠ buffer.queue ++ [1] := by
  decide

end ConcurrencyLab
