import Mathlib.Algebra.Group.Nat.Basic
import Mathlib.Logic.Function.Basic

/-!
# The ring buffer

`buffer.c` keeps the messages of a channel in `capacity` slots used as a ring: `next` is the
slot of the oldest message and `size` counts the messages.  The fields are `size_t` values; the
model keeps them as natural numbers below `2 ^ 64` and reduces modulo `2 ^ 64` where the code's
arithmetic can leave that range: the byte count `capacity * sizeof(void*)` of `buffer_create`
and the sum `next + size` in `buffer_add`.

The slots are the block `buffer_create` got from `malloc`, whose size in bytes the model keeps
beside them (`bytes`, `malloc` taken to succeed).  A slot is storage of the buffer only inside
the block (`InBlock`): C leaves a store outside it undefined, and the model does not follow one,
so the block keeps what it held (`Buffer.store`).  The block holds all `capacity` slots exactly
when the byte count does not wrap, below `2 ^ 61` slots (`bufferCreate_allocated_iff`), and
every slot a call then touches lies inside it (`pos_inBlock`, `next_inBlock`).  At `2 ^ 61`
slots `buffer_create` asks for no bytes at all (`bufferCreate_block_empty`).

`Buffer` carries the bounds of every buffer the code builds (`size_le`, `next_lt`), so that
`bufferAdd` and `bufferRemove` prove they keep them; the field lemmas of the two operations are
the only facts later files use.
-/
namespace ConcurrencyLab

/-- `enum buffer_status`. -/
inductive BufferStatus
  | bufferSuccess
  | bufferError
  deriving DecidableEq, Repr

/-- `buffer_t`.  `data` is the content of the slots and `bytes` the size of the block it points
to, which C does not keep; the slots `malloc` leaves uninitialised hold `default`. -/
@[ext]
structure Buffer (α : Type) where
  size : Nat
  next : Nat
  capacity : Nat
  data : Nat → α
  bytes : Nat
  capacity_lt : capacity < 2 ^ 64
  bytes_lt : bytes < 2 ^ 64
  size_le : size ≤ capacity
  next_lt : next < capacity ∨ next = 0

variable {α : Type}

/-- The byte count `buffer_create` passes to `malloc`: `capacity * sizeof(void*)` in `size_t`,
with 8-byte pointers. -/
def bufferCreateBytes (capacity : UInt64) : Nat := capacity.toNat * 8 % 2 ^ 64

/-- `buffer_create`, with `malloc` succeeding: the slots are a block of
`bufferCreateBytes capacity` bytes. -/
def bufferCreate [Inhabited α] (capacity : UInt64) : Buffer α where
  size := 0
  next := 0
  capacity := capacity.toNat
  data := fun _ => default
  bytes := bufferCreateBytes capacity
  capacity_lt := capacity.toNat_lt_size
  bytes_lt := Nat.mod_lt _ (Nat.two_pow_pos 64)
  size_le := Nat.zero_le _
  next_lt := Or.inr rfl

/-- `buffer_capacity`. -/
def bufferCapacity (buffer : Buffer α) : Nat := buffer.capacity

/-- `buffer_current_size`. -/
def bufferCurrentSize (buffer : Buffer α) : Nat := buffer.size

namespace Buffer

/-- Slot `i` lies inside the block: its eight bytes end within `bytes`. -/
def InBlock (buffer : Buffer α) (i : Nat) : Prop := (i + 1) * 8 ≤ buffer.bytes

instance (buffer : Buffer α) (i : Nat) : Decidable (buffer.InBlock i) :=
  inferInstanceAs (Decidable (_ ≤ _))

/-- The block holds every slot below `capacity`. -/
def Allocated (buffer : Buffer α) : Prop := buffer.capacity * 8 ≤ buffer.bytes

instance (buffer : Buffer α) : Decidable buffer.Allocated := inferInstanceAs (Decidable (_ ≤ _))

/-- `data[i] = value`.  A store outside the block is undefined in C; the model leaves the slots
as they were. -/
def store (buffer : Buffer α) (i : Nat) (value : α) : Nat → α :=
  if buffer.InBlock i then Function.update buffer.data i value else buffer.data

theorem store_of_inBlock (buffer : Buffer α) {i : Nat} (value : α) (h : buffer.InBlock i) :
    buffer.store i value = Function.update buffer.data i value :=
  if_pos h

theorem inBlock_of_lt {buffer : Buffer α} (h : buffer.Allocated) {i : Nat}
    (hi : i < buffer.capacity) : buffer.InBlock i :=
  Nat.le_trans (Nat.mul_le_mul_right 8 hi) h

/-- A block of `capacity` slots fits in `size_t` bytes only below `2 ^ 61` slots. -/
theorem capacity_lt_of_allocated {buffer : Buffer α} (h : buffer.Allocated) :
    buffer.capacity < 2 ^ 61 := by
  have := buffer.bytes_lt
  unfold Allocated at h
  omega

/-- The slot `buffer_add` writes: `pos = next + size` in `size_t`, less `capacity` if it
reaches `capacity`. -/
def pos (buffer : Buffer α) : Nat :=
  if (buffer.next + buffer.size) % 2 ^ 64 ≥ buffer.capacity then
    (buffer.next + buffer.size) % 2 ^ 64 - buffer.capacity
  else (buffer.next + buffer.size) % 2 ^ 64

/-- The value of `next` after `buffer_remove`: one slot on, less `capacity` if it reaches
`capacity`. -/
def advance (buffer : Buffer α) : Nat :=
  if buffer.next + 1 ≥ buffer.capacity then buffer.next + 1 - buffer.capacity
  else buffer.next + 1

theorem next_lt_capacity (buffer : Buffer α) (h : 0 < buffer.size) :
    buffer.next < buffer.capacity := by
  have := buffer.size_le
  have := buffer.next_lt
  omega

theorem pos_lt (buffer : Buffer α) (h : buffer.size < buffer.capacity) :
    buffer.pos < buffer.capacity := by
  have := buffer.next_lt
  unfold pos
  split <;> omega

/-- In an empty buffer `buffer_add` writes the slot `next`. -/
theorem pos_of_size_eq_zero (buffer : Buffer α) (h : buffer.size = 0) :
    buffer.pos = buffer.next := by
  have := buffer.next_lt
  have := buffer.capacity_lt
  unfold pos
  rw [h, Nat.add_zero, Nat.mod_eq_of_lt (by omega)]
  split <;> omega

theorem advance_lt (buffer : Buffer α) (h : 0 < buffer.size) :
    buffer.advance < buffer.capacity := by
  have := buffer.next_lt_capacity h
  unfold advance
  split <;> omega

theorem pos_inBlock (buffer : Buffer α) (h : buffer.Allocated)
    (hs : buffer.size < buffer.capacity) : buffer.InBlock buffer.pos :=
  inBlock_of_lt h (buffer.pos_lt hs)

theorem next_inBlock (buffer : Buffer α) (h : buffer.Allocated) (hs : 0 < buffer.size) :
    buffer.InBlock buffer.next :=
  inBlock_of_lt h (buffer.next_lt_capacity hs)

end Buffer

/-- `buffer_add`: the status and the buffer after the call. -/
def bufferAdd (buffer : Buffer α) (data : α) : BufferStatus × Buffer α :=
  if h : buffer.size ≥ buffer.capacity then (.bufferError, buffer)
  else
    (.bufferSuccess,
      { buffer with
        data := buffer.store buffer.pos data
        size := buffer.size + 1
        size_le := by omega })

/-- `buffer_remove`: the status, the buffer after the call, and the value stored through `data`
(`none` when nothing is stored). -/
def bufferRemove (buffer : Buffer α) : BufferStatus × Buffer α × Option α :=
  if h : buffer.size > 0 then
    (.bufferSuccess,
      { buffer with
        size := buffer.size - 1
        next := buffer.advance
        size_le := by have := buffer.size_le; omega
        next_lt := Or.inl (buffer.advance_lt h) },
      some (buffer.data buffer.next))
  else (.bufferError, buffer, none)

/-! ## Field lemmas -/

section Fields

variable (buffer : Buffer α) (v : α)

@[simp] theorem bufferCreate_size [Inhabited α] (c : UInt64) :
    (bufferCreate c : Buffer α).size = 0 := rfl

@[simp] theorem bufferCreate_next [Inhabited α] (c : UInt64) :
    (bufferCreate c : Buffer α).next = 0 := rfl

@[simp] theorem bufferCreate_capacity [Inhabited α] (c : UInt64) :
    (bufferCreate c : Buffer α).capacity = c.toNat := rfl

@[simp] theorem bufferCreate_bytes [Inhabited α] (c : UInt64) :
    (bufferCreate c : Buffer α).bytes = bufferCreateBytes c := rfl

theorem bufferAdd_of_full (h : buffer.capacity ≤ buffer.size) :
    bufferAdd buffer v = (.bufferError, buffer) :=
  dif_pos h

theorem bufferAdd_of_lt (h : buffer.size < buffer.capacity) :
    bufferAdd buffer v = (.bufferSuccess,
      { buffer with data := buffer.store buffer.pos v, size := buffer.size + 1, size_le := h }) :=
  dif_neg (Nat.not_le.2 h)

@[simp] theorem bufferAdd_status :
    (bufferAdd buffer v).1 =
      if buffer.size < buffer.capacity then .bufferSuccess else .bufferError := by
  by_cases h : buffer.size < buffer.capacity
  · rw [bufferAdd_of_lt buffer v h, if_pos h]
  · rw [bufferAdd_of_full buffer v (Nat.not_lt.1 h), if_neg h]

@[simp] theorem bufferAdd_size :
    (bufferAdd buffer v).2.size =
      if buffer.size < buffer.capacity then buffer.size + 1 else buffer.size := by
  by_cases h : buffer.size < buffer.capacity
  · rw [bufferAdd_of_lt buffer v h, if_pos h]
  · rw [bufferAdd_of_full buffer v (Nat.not_lt.1 h), if_neg h]

@[simp] theorem bufferAdd_next : (bufferAdd buffer v).2.next = buffer.next := by
  unfold bufferAdd; split <;> rfl

@[simp] theorem bufferAdd_capacity : (bufferAdd buffer v).2.capacity = buffer.capacity := by
  unfold bufferAdd; split <;> rfl

@[simp] theorem bufferAdd_bytes : (bufferAdd buffer v).2.bytes = buffer.bytes := by
  unfold bufferAdd; split <;> rfl

@[simp] theorem bufferAdd_data :
    (bufferAdd buffer v).2.data =
      if buffer.size < buffer.capacity then buffer.store buffer.pos v else buffer.data := by
  by_cases h : buffer.size < buffer.capacity
  · rw [bufferAdd_of_lt buffer v h, if_pos h]
  · rw [bufferAdd_of_full buffer v (Nat.not_lt.1 h), if_neg h]

theorem bufferRemove_of_empty (h : buffer.size = 0) :
    bufferRemove buffer = (.bufferError, buffer, none) := by
  simp [bufferRemove, h]

@[simp] theorem bufferRemove_status :
    (bufferRemove buffer).1 = if 0 < buffer.size then .bufferSuccess else .bufferError := by
  unfold bufferRemove; split <;> rfl

@[simp] theorem bufferRemove_out :
    (bufferRemove buffer).2.2 = if 0 < buffer.size then some (buffer.data buffer.next) else none := by
  unfold bufferRemove; split <;> rfl

@[simp] theorem bufferRemove_size : (bufferRemove buffer).2.1.size = buffer.size - 1 := by
  unfold bufferRemove; split <;> simp_all

@[simp] theorem bufferRemove_next :
    (bufferRemove buffer).2.1.next = if 0 < buffer.size then buffer.advance else buffer.next := by
  unfold bufferRemove; split <;> rfl

@[simp] theorem bufferRemove_capacity :
    (bufferRemove buffer).2.1.capacity = buffer.capacity := by
  unfold bufferRemove; split <;> rfl

@[simp] theorem bufferRemove_bytes : (bufferRemove buffer).2.1.bytes = buffer.bytes := by
  unfold bufferRemove; split <;> rfl

@[simp] theorem bufferRemove_data : (bufferRemove buffer).2.1.data = buffer.data := by
  unfold bufferRemove; split <;> rfl

end Fields

/-! ## Runs of buffer calls -/

/-- A call of the buffer's interface, as `channel.c` makes them. -/
inductive BufferCall (α : Type)
  | add (data : α)
  | remove

/-- The buffer after one call. -/
def BufferCall.apply : BufferCall α → Buffer α → Buffer α
  | .add data, buffer => (bufferAdd buffer data).2
  | .remove, buffer => (bufferRemove buffer).2.1

/-- The buffer after a sequence of calls, first call first. -/
def runBuffer (buffer : Buffer α) (calls : List (BufferCall α)) : Buffer α :=
  calls.foldl (fun b call => call.apply b) buffer

@[simp] theorem runBuffer_nil (buffer : Buffer α) : runBuffer buffer [] = buffer := rfl

@[simp] theorem runBuffer_cons (buffer : Buffer α) (call : BufferCall α) (calls) :
    runBuffer buffer (call :: calls) = runBuffer (call.apply buffer) calls := rfl

theorem runBuffer_append (buffer : Buffer α) (calls calls' : List (BufferCall α)) :
    runBuffer buffer (calls ++ calls') = runBuffer (runBuffer buffer calls) calls' :=
  List.foldl_append _ _ _ _

@[simp] theorem capacity_apply (call : BufferCall α) (buffer : Buffer α) :
    (call.apply buffer).capacity = buffer.capacity := by
  cases call <;> simp [BufferCall.apply]

@[simp] theorem capacity_runBuffer (buffer : Buffer α) (calls : List (BufferCall α)) :
    (runBuffer buffer calls).capacity = buffer.capacity := by
  induction calls generalizing buffer <;> simp [*]

@[simp] theorem bytes_apply (call : BufferCall α) (buffer : Buffer α) :
    (call.apply buffer).bytes = buffer.bytes := by
  cases call <;> simp [BufferCall.apply]

@[simp] theorem bytes_runBuffer (buffer : Buffer α) (calls : List (BufferCall α)) :
    (runBuffer buffer calls).bytes = buffer.bytes := by
  induction calls generalizing buffer <;> simp [*]

theorem allocated_runBuffer {buffer : Buffer α} (h : buffer.Allocated)
    (calls : List (BufferCall α)) : (runBuffer buffer calls).Allocated := by
  simpa [Buffer.Allocated] using h

/-! ## The block of `buffer_create` -/

/-- The block of `buffer_create(capacity)` holds its `capacity` slots exactly when the byte
count does not wrap, below `2 ^ 61` slots. -/
theorem bufferCreate_allocated_iff [Inhabited α] (capacity : UInt64) :
    (bufferCreate capacity : Buffer α).Allocated ↔ capacity.toNat < 2 ^ 61 := by
  show capacity.toNat * 8 ≤ capacity.toNat * 8 % 2 ^ 64 ↔ _
  omega

/-- Whether the block holds every slot is decided at `buffer_create`; below `2 ^ 61` slots every
slot that `buffer_add` writes and `buffer_remove` reads, in every run, lies inside it. -/
theorem buffer_slots_in_block [Inhabited α] (capacity : UInt64) (calls : List (BufferCall α)) :
    let buffer : Buffer α := runBuffer (bufferCreate capacity) calls
    (buffer.Allocated ↔ capacity.toNat < 2 ^ 61) ∧
    (capacity.toNat < 2 ^ 61 →
      (buffer.size < buffer.capacity → buffer.InBlock buffer.pos) ∧
      (0 < buffer.size → buffer.InBlock buffer.next)) := by
  intro buffer
  have hiff : buffer.Allocated ↔ capacity.toNat < 2 ^ 61 := by
    rw [← bufferCreate_allocated_iff (α := α) capacity]
    simp only [buffer, Buffer.Allocated, capacity_runBuffer, bytes_runBuffer]
  exact ⟨hiff, fun hc => ⟨buffer.pos_inBlock (hiff.2 hc), buffer.next_inBlock (hiff.2 hc)⟩⟩

/-- Two adds and a remove on a buffer of two slots touch only slots of its block. -/
theorem buffer_slots_in_block_two_slots :
    let buffer : Buffer Nat := runBuffer (bufferCreate 2) [.add 5, .add 6, .remove]
    (buffer.size < buffer.capacity → buffer.InBlock buffer.pos) ∧
      (0 < buffer.size → buffer.InBlock buffer.next) :=
  (buffer_slots_in_block 2 [.add 5, .add 6, .remove]).2 (by decide)

/-- At `2 ^ 61` slots the byte count wraps to `0`: `buffer_create` asks `malloc` for no bytes, and
the first `buffer_add` returns `BUFFER_SUCCESS` with its store to slot `0` outside the block. -/
theorem bufferCreate_block_empty :
    let buffer : Buffer Nat := bufferCreate 2305843009213693952
    buffer.capacity = 2 ^ 61 ∧ buffer.bytes = 0 ∧ (bufferAdd buffer 1).1 = .bufferSuccess ∧
      buffer.pos = 0 ∧ ¬buffer.InBlock buffer.pos := by
  decide

end ConcurrencyLab
