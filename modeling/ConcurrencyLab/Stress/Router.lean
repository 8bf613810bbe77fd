import ConcurrencyLab.Stress.FloydWarshall

/-!
# The update a router makes from a neighbour's vector

Each `router` thread of `stress.c` keeps four distance vectors.  When it takes a neighbour's
vector from its own channel it checks `assert(neighbor_dist != inf_distance)` and runs the loop
over `i`, lowering each entry of `next_state` that the path through that neighbour improves and
setting `changed`.  `takeVector` is that branch, with the neighbour's vector left as it is while
the loop runs.

The rest of `router` is driven by `channel_select`, which `channel.c` leaves a stub: it returns
`SUCCESS` and writes neither `selected_index` nor the `data` of any entry, so no router ever
receives a vector, and `router` reads `selected_index` uninitialised.  The threads of the routers
are not modelled for that reason; what holds of the update itself is that the solution of
`floyd_warshall` is a fixed point of it (`takeVector_solution`).
-/

namespace ConcurrencyLab.Stress

/-- `distance_vector_t`: the router it comes from, its epoch, and one distance per channel. -/
structure DistanceVector where
  src : Nat
  epoch : Nat
  dist : Nat → UInt32

/-- One turn of the loop over `i` in `router`, on the value `entry` read from
`neighbor_state->dist[i]`: `neighbor_dist + entry` replaces `next_state->dist[i]` when it is
smaller, and sets `changed`. -/
def takeEntry (neighborDist entry : UInt32) (acc : DistanceVector × Bool) (i : Nat) :
    DistanceVector × Bool :=
  if neighborDist + entry < acc.1.dist i then
    ({ acc.1 with dist := Function.update acc.1.dist i (neighborDist + entry) }, true)
  else acc

/-- The branch of `router` taking a neighbour's vector into `next_state`, with `neighbor_state`
left as it is while the loop runs: `none` when `assert(neighbor_dist != inf_distance)` fails. -/
def takeVector (numChannel index : Nat) (topology : Nat → UInt32)
    (neighborState nextState : DistanceVector) (changed : Bool) : Option (DistanceVector × Bool) :=
  if getLinkDistance topology numChannel index neighborState.src = infDistance then none
  else
    some ((List.range numChannel).foldl (fun acc i =>
        takeEntry (getLinkDistance topology numChannel index neighborState.src)
          (neighborState.dist i) acc i)
      (nextState, changed))

/-! ## A turn of the loop -/

section Entry

variable {neighborDist : UInt32} {view : Nat → UInt32}

/-- A loop in which no entry gives a smaller sum changes nothing. -/
theorem foldl_takeEntry_of_forall {acc : DistanceVector × Bool} :
    ∀ l : List Nat, (∀ i ∈ l, ¬neighborDist + view i < acc.1.dist i) →
      l.foldl (fun acc i => takeEntry neighborDist (view i) acc i) acc = acc
  | [], _ => rfl
  | i :: l, h => by
    rw [List.foldl_cons, takeEntry, if_neg (h i (List.mem_cons_self _ _))]
    exact foldl_takeEntry_of_forall l fun x hx => h x (List.mem_cons_of_mem _ hx)

variable {numChannel index : Nat} {topology : Nat → UInt32}
  {neighborState nextState : DistanceVector}

/-- Where the `assert` passes and no entry of the neighbour's vector gives a smaller sum,
`takeVector` changes nothing. -/
theorem takeVector_of_forall (changed : Bool)
    (hlink : getLinkDistance topology numChannel index neighborState.src ≠ infDistance)
    (h : ∀ i < numChannel, ¬getLinkDistance topology numChannel index neighborState.src +
      neighborState.dist i < nextState.dist i) :
    takeVector numChannel index topology neighborState nextState changed =
      some (nextState, changed) := by
  rw [takeVector, if_neg hlink, foldl_takeEntry_of_forall _ fun i hi => h i (List.mem_range.1 hi)]

end Entry

/-- Two channels linked both ways with weight `1`, and `0` to themselves, as `create_topology`
reads them row by row. -/
def twoRouters : Topology 2 :=
  Topology.ofValues 2 (fun i => if i = 1 ∨ i = 2 then 1 else 0) fun _ => 0

/-! ## The solution is a fixed point -/

section Solution

variable {numChannel : Nat} {t : Topology numChannel}

/-- The solution of `floyd_warshall` is a fixed point of the update: a router whose
`next_state` holds its row of the solution, taking a neighbour's row, changes nothing. -/
theorem takeVector_solution (solution : Nat → UInt32) {index j epoch epoch' : Nat}
    (changed : Bool) (hindex : index < numChannel) (hj : j < numChannel)
    (hlink : getLinkDistance t.links numChannel index j ≠ infDistance) :
    takeVector numChannel index t.links
        ⟨j, epoch, getSolutionDistance (floydWarshall numChannel t.links solution) numChannel j⟩
        ⟨index, epoch',
          getSolutionDistance (floydWarshall numChannel t.links solution) numChannel index⟩
        changed =
      some (⟨index, epoch',
        getSolutionDistance (floydWarshall numChannel t.links solution) numChannel index⟩,
        changed) := by
  refine takeVector_of_forall changed hlink fun i hi hlt => ?_
  have hsum : (getLinkDistance t.links numChannel index j +
      getSolutionDistance (floydWarshall numChannel t.links solution) numChannel j i).toNat =
      (getLinkDistance t.links numChannel index j).toNat +
        (getSolutionDistance (floydWarshall numChannel t.links solution) numChannel j i).toNat :=
    toNat_add_of_le (t.le_inf index hindex j hj) (floydWarshall_bounded t solution j hj i hi)
  have hlt' : (getLinkDistance t.links numChannel index j +
      getSolutionDistance (floydWarshall numChannel t.links solution) numChannel j i).toNat <
    (getSolutionDistance (floydWarshall numChannel t.links solution) numChannel index i).toNat :=
    hlt
  have htri := floydWarshall_le_link_add t solution hindex hj hi
  omega

theorem takeVector_solution_two_channels :
    takeVector 2 0 twoRouters.links
        ⟨1, 0, getSolutionDistance (floydWarshall 2 twoRouters.links fun _ => 0) 2 1⟩
        ⟨0, 0, getSolutionDistance (floydWarshall 2 twoRouters.links fun _ => 0) 2 0⟩ false =
      some (⟨0, 0, getSolutionDistance (floydWarshall 2 twoRouters.links fun _ => 0) 2 0⟩,
        false) :=
  takeVector_solution (fun _ => 0) false (by decide) (by decide) (by decide)

end Solution

end ConcurrencyLab.Stress
