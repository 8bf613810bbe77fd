import Mathlib.Algebra.Group.Nat.Basic
import Mathlib.Logic.Function.Basic
import Mathlib.Data.Nat.Defs

/-!
# The topology of `stress.c` and its Floyd–Warshall solution

`create_topology` reads `num_channel` and then `num_channel * num_channel` link distances, row
by row, into `topology`: every value above `inf_distance` (every negative `int` read into the
unsigned `distance_t`) becomes `inf_distance`.  `floyd_warshall` copies `topology` into
`solution` and relaxes it in place, in the loop order `intermediate`, `src`, `dst`.  Both tables
keep entry `(src, dst)` at `src * num_channel + dst`; `distance_t` is `UInt32`, and its sums wrap
as the C code's do.

The `fscanf` calls are the function `values`: `values i` is the `i`-th distance read, as the
`distance_t` the `int` is read into.  A table is its memory, `Nat → UInt32`, with indices as
`Nat`.  Each table is a block of `sizeof(distance_t) * num_channel * num_channel` bytes, a
`size_t` product that wraps silently, as in `buffer_create`; while it does not, every entry the
code touches lies inside the block and its index `src * num_channel + dst` does not wrap either
(`entry_in_block`), and the results about the tables are stated there.

Every entry `create_topology` stores is at most `inf_distance` (`Topology.ofValues`), which is what
keeps the sums of `floyd_warshall` from wrapping (`relax_toNat`).
-/

namespace ConcurrencyLab.Stress

/-- `inf_distance`: no link. -/
def infDistance : UInt32 := 0x7fffffff

@[simp] theorem toNat_infDistance : infDistance.toNat = 2 ^ 31 - 1 := rfl

/-! ## The tables -/

/-- Entry `(src, dst)` of a `num_channel × num_channel` table kept row by row. -/
def getEntry (table : Nat → UInt32) (numChannel src dst : Nat) : UInt32 :=
  table (src * numChannel + dst)

/-- The table with entry `(src, dst)` set to `distance`. -/
def setEntry (table : Nat → UInt32) (numChannel src dst : Nat) (distance : UInt32) :
    Nat → UInt32 :=
  Function.update table (src * numChannel + dst) distance

/-- `get_link_distance`. -/
def getLinkDistance (topology : Nat → UInt32) (numChannel src dst : Nat) : UInt32 :=
  getEntry topology numChannel src dst

/-- `set_link_distance`. -/
def setLinkDistance (topology : Nat → UInt32) (numChannel src dst : Nat) (distance : UInt32) :
    Nat → UInt32 :=
  setEntry topology numChannel src dst distance

/-- `get_solution_distance`. -/
def getSolutionDistance (solution : Nat → UInt32) (numChannel src dst : Nat) : UInt32 :=
  getEntry solution numChannel src dst

/-- `set_solution_distance`. -/
def setSolutionDistance (solution : Nat → UInt32) (numChannel src dst : Nat) (distance : UInt32) :
    Nat → UInt32 :=
  setEntry solution numChannel src dst distance

/-- Two entries of a table are at one index only if they are the same entry. -/
theorem index_inj {numChannel src dst src' dst' : Nat} (hd : dst < numChannel)
    (hd' : dst' < numChannel) (h : src * numChannel + dst = src' * numChannel + dst') :
    src = src' ∧ dst = dst' := by
  have hdiv (s d : Nat) (hd : d < numChannel) : (s * numChannel + d) / numChannel = s := by
    rw [Nat.add_comm, Nat.add_mul_div_right _ _ (by omega), Nat.div_eq_of_lt hd, Nat.zero_add]
  have hmod (s d : Nat) (hd : d < numChannel) : (s * numChannel + d) % numChannel = d := by
    rw [Nat.add_comm, Nat.add_mul_mod_self_right, Nat.mod_eq_of_lt hd]
  exact ⟨by rw [← hdiv src dst hd, h, hdiv src' dst' hd'],
    by rw [← hmod src dst hd, h, hmod src' dst' hd']⟩

/-- Entry `(src, dst)` is among the first `num_channel * num_channel`. -/
theorem index_lt {numChannel src dst : Nat} (hs : src < numChannel) (hd : dst < numChannel) :
    src * numChannel + dst < numChannel * numChannel :=
  calc src * numChannel + dst < src * numChannel + numChannel := by omega
    _ = (src + 1) * numChannel := (Nat.succ_mul _ _).symm
    _ ≤ numChannel * numChannel := Nat.mul_le_mul_right _ hs

/-- The byte count `create_topology` passes to `malloc` for each table:
`sizeof(distance_t) * num_channel * num_channel` in `size_t`. -/
def tableBytes (numChannel : Nat) : Nat := 4 * numChannel * numChannel % 2 ^ 64

/-- While the byte count does not wrap, the four bytes of every entry lie inside the block. -/
theorem entry_in_block {numChannel src dst : Nat} (hN : 4 * numChannel * numChannel < 2 ^ 64)
    (hs : src < numChannel) (hd : dst < numChannel) :
    (src * numChannel + dst + 1) * 4 ≤ tableBytes numChannel := by
  have := index_lt hs hd
  rw [tableBytes, Nat.mod_eq_of_lt hN, Nat.mul_assoc]
  omega

theorem getEntry_setEntry {table : Nat → UInt32} {numChannel src dst src' dst' : Nat}
    (hd : dst < numChannel) (hd' : dst' < numChannel) (distance : UInt32) :
    getEntry (setEntry table numChannel src dst distance) numChannel src' dst' =
      if src' = src ∧ dst' = dst then distance else getEntry table numChannel src' dst' := by
  unfold getEntry setEntry
  split_ifs with h
  · rw [h.1, h.2, Function.update_same]
  · exact Function.update_noteq (fun he => h (index_inj hd' hd he)) _ _

/-! ## `floyd_warshall` -/

/-- The body of the innermost loop of `floyd_warshall`: the path through `intermediate` replaces
the entry `(src, dst)` when its `distance_t` sum is smaller. -/
def relax (numChannel intermediate src dst : Nat) (solution : Nat → UInt32) : Nat → UInt32 :=
  if getSolutionDistance solution numChannel src intermediate +
      getSolutionDistance solution numChannel intermediate dst <
      getSolutionDistance solution numChannel src dst then
    setSolutionDistance solution numChannel src dst
      (getSolutionDistance solution numChannel src intermediate +
        getSolutionDistance solution numChannel intermediate dst)
  else solution

/-- The loop over `dst`, for one `intermediate` and one `src`. -/
def relaxRow (numChannel intermediate src : Nat) (solution : Nat → UInt32) : Nat → UInt32 :=
  (List.range numChannel).foldl (fun solution dst => relax numChannel intermediate src dst solution)
    solution

/-- The loop over `src`, for one `intermediate`. -/
def relaxRound (numChannel intermediate : Nat) (solution : Nat → UInt32) : Nat → UInt32 :=
  (List.range numChannel).foldl (fun solution src => relaxRow numChannel intermediate src solution)
    solution

/-- `memcpy(solution, topology, sizeof(distance_t) * num_channel * num_channel)`. -/
def copyTopology (numChannel : Nat) (topology solution : Nat → UInt32) : Nat → UInt32 :=
  fun i => if i < numChannel * numChannel then topology i else solution i

/-- `floyd_warshall`: the solution it leaves, from the tables it finds. -/
def floydWarshall (numChannel : Nat) (topology solution : Nat → UInt32) : Nat → UInt32 :=
  (List.range numChannel).foldl
    (fun solution intermediate => relaxRound numChannel intermediate solution)
    (copyTopology numChannel topology solution)

theorem getEntry_copyTopology {numChannel src dst : Nat} (hs : src < numChannel)
    (hd : dst < numChannel) (topology solution : Nat → UInt32) :
    getEntry (copyTopology numChannel topology solution) numChannel src dst =
      getEntry topology numChannel src dst := by
  simp only [getEntry, copyTopology, if_pos (index_lt hs hd)]

/-! ## The sums do not wrap below `inf_distance` -/

/-- Every entry of the table is at most `inf_distance`. -/
def Bounded (numChannel : Nat) (table : Nat → UInt32) : Prop :=
  ∀ src < numChannel, ∀ dst < numChannel, getEntry table numChannel src dst ≤ infDistance

/-- Two distances up to `inf_distance` add without wrapping. -/
theorem toNat_add_of_le {a b : UInt32} (ha : a ≤ infDistance) (hb : b ≤ infDistance) :
    (a + b).toNat = a.toNat + b.toNat := by
  have ha' : a.toNat ≤ 2 ^ 31 - 1 := ha
  have hb' : b.toNat ≤ 2 ^ 31 - 1 := hb
  show (a.toNat + b.toNat) % 2 ^ 32 = _
  omega

section Relax

variable {numChannel k src dst : Nat} {solution : Nat → UInt32}

/-- On a bounded table, `relax` at `(k, src, dst)` sets the entry `(src, dst)` to the smaller of
it and the sum through `k`, and leaves every other entry. -/
theorem relax_toNat (hb : Bounded numChannel solution) (hk : k < numChannel)
    (hs : src < numChannel) (hd : dst < numChannel) (src' : Nat) {dst' : Nat}
    (hd' : dst' < numChannel) :
    (getEntry (relax numChannel k src dst solution) numChannel src' dst').toNat =
      if src' = src ∧ dst' = dst then
        min (getEntry solution numChannel src dst).toNat
          ((getEntry solution numChannel src k).toNat + (getEntry solution numChannel k dst).toNat)
      else (getEntry solution numChannel src' dst').toNat := by
  have hsum := toNat_add_of_le (hb src hs k hk) (hb k hk dst hd)
  unfold relax getSolutionDistance setSolutionDistance
  split_ifs with hlt heq heq
  · rw [getEntry_setEntry hd hd', if_pos heq, hsum]
    exact (Nat.min_eq_right (Nat.le_of_lt (hsum ▸ hlt))).symm
  · rw [getEntry_setEntry hd hd', if_neg heq]
  · rw [heq.1, heq.2]
    exact (Nat.min_eq_left (hsum ▸ UInt32.not_lt.1 hlt)).symm
  · rfl

/-- `relax` keeps every entry at most `inf_distance`: it only lowers one. -/
theorem relax_bounded (hb : Bounded numChannel solution) (hk : k < numChannel)
    (hs : src < numChannel) (hd : dst < numChannel) :
    Bounded numChannel (relax numChannel k src dst solution) := by
  intro s' hs' d' hd'
  have h := relax_toNat hb hk hs hd s' hd'
  have hle : (getEntry (relax numChannel k src dst solution) numChannel s' d').toNat ≤
      (getEntry solution numChannel s' d').toNat := by
    rw [h]
    split_ifs with heq
    · rw [heq.1, heq.2]; exact Nat.min_le_left _ _
    · exact Nat.le_refl _
  exact Nat.le_trans hle (hb s' hs' d' hd')

end Relax

/-! ## `create_topology` -/

/-- The distance `create_topology` stores for a value read: anything above `inf_distance`
becomes `inf_distance`. -/
def clampDistance (distance : UInt32) : UInt32 :=
  if distance > infDistance then infDistance else distance

theorem clampDistance_le (distance : UInt32) : clampDistance distance ≤ infDistance := by
  unfold clampDistance
  split_ifs with h
  · exact UInt32.le_refl _
  · exact UInt32.not_lt.1 h

/-- The loop filling `topology`: entry `(src, dst)` is the `(src * num_channel + dst)`-th value
read, clamped. -/
def populate (numChannel : Nat) (values topology : Nat → UInt32) : Nat → UInt32 :=
  (List.range numChannel).foldl (fun topology src =>
    (List.range numChannel).foldl (fun topology dst =>
      setLinkDistance topology numChannel src dst (clampDistance (values (src * numChannel + dst))))
      topology) topology

/-- `create_topology`, from the values read on: the topology it fills and the solution
`floyd_warshall` leaves. -/
def createTopology (numChannel : Nat) (values topology solution : Nat → UInt32) :
    (Nat → UInt32) × (Nat → UInt32) :=
  (populate numChannel values topology,
    floydWarshall numChannel (populate numChannel values topology) solution)

/-- Once the loop over `src` has passed row `src`, entry `(src, dst)` holds its clamped value;
the rows after it are as they were. -/
theorem getEntry_populate_upTo {numChannel : Nat} (values topology : Nat → UInt32) :
    ∀ n ≤ numChannel, ∀ src < numChannel, ∀ dst < numChannel,
      getEntry ((List.range n).foldl (fun topology src =>
        (List.range numChannel).foldl (fun topology dst =>
          setLinkDistance topology numChannel src dst
            (clampDistance (values (src * numChannel + dst)))) topology) topology)
        numChannel src dst =
      if src < n then clampDistance (values (src * numChannel + dst))
      else getEntry topology numChannel src dst := by
  intro n
  induction n with
  | zero => intro _ src _ dst _; rfl
  | succ n ih =>
    intro hn src hs dst hd
    rw [List.range_succ, List.foldl_append, List.foldl_cons, List.foldl_nil]
    -- the row `n`: its entries up to `m` are set, the others are as the rows before left them
    have hrow : ∀ m ≤ numChannel, ∀ t : Nat → UInt32,
        getEntry ((List.range m).foldl (fun topology dst =>
          setLinkDistance topology numChannel n dst
            (clampDistance (values (n * numChannel + dst)))) t) numChannel src dst =
        if src = n ∧ dst < m then clampDistance (values (src * numChannel + dst))
        else getEntry t numChannel src dst := by
      intro m
      induction m with
      | zero => intro _ t; simp
      | succ m ihm =>
        intro hm t
        rw [List.range_succ, List.foldl_append, List.foldl_cons, List.foldl_nil, setLinkDistance,
          getEntry_setEntry (by omega) hd, ihm (by omega)]
        by_cases hsn : src = n
        · subst hsn
          by_cases hdm : dst = m
          · subst hdm; simp
          · simp only [true_and, hdm, if_false]
            exact if_congr (by omega) rfl rfl
        · simp [hsn]
    rw [hrow numChannel (Nat.le_refl _), ih (by omega) src hs dst hd]
    split_ifs <;> first | rfl | omega

/-- `create_topology` stores each value read at its entry, clamped. -/
theorem getLinkDistance_populate {numChannel src dst : Nat} (hs : src < numChannel)
    (hd : dst < numChannel) (values topology : Nat → UInt32) :
    getLinkDistance (populate numChannel values topology) numChannel src dst =
      clampDistance (values (src * numChannel + dst)) := by
  rw [getLinkDistance, populate, getEntry_populate_upTo values topology numChannel
    (Nat.le_refl _) src hs dst hd, if_pos hs]

/-- A topology as `create_topology` leaves it: no entry above `inf_distance`. -/
structure Topology (numChannel : Nat) where
  links : Nat → UInt32
  le_inf : Bounded numChannel links

/-- The topology `create_topology` fills from the values read. -/
def Topology.ofValues (numChannel : Nat) (values topology : Nat → UInt32) :
    Topology numChannel where
  links := populate numChannel values topology
  le_inf src hs dst hd := by
    rw [← getLinkDistance, getLinkDistance_populate hs hd]
    exact clampDistance_le _

end ConcurrencyLab.Stress
