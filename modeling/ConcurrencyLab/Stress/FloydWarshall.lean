import ConcurrencyLab.Stress.Topology
import Mathlib.Data.List.Nodup

/-!
# `floyd_warshall` computes shortest walks

For every topology `create_topology` can fill, entry `(src, dst)` of the solution `floyd_warshall`
leaves is the weight of a shortest walk from `src` to `dst` over the links, `inf_distance`
counted as the weight it has (`floydWarshall_shortest`, and `createTopology_shortest` from the
values read).  No sum of the loop wraps, since every entry of every table the loop passes
through stays at most `inf_distance` (`floydWarshallBefore_bounded`).

The argument follows the in-place loop as it runs.  Every entry is always the weight of some
walk (`Good.realized`), and after the rounds `0, …, k - 1` no entry is above a walk whose
intermediate channels are distinct and below `k` (`Below`): the relaxation at `(k, src, dst)`
bounds the entry by the two entries through `k`, which round `k` itself only lowers.  A walk
through a channel twice weighs at least the walk without the cycle between, so the bound by
walks without repeats is a bound by every walk.
-/

namespace ConcurrencyLab.Stress

/-- The weight of the walk `src → vs₁ → … → vsₙ → dst` over the links of
`topology`. -/
def walkWeight (topology : Nat → UInt32) (numChannel : Nat) : Nat → List Nat → Nat → Nat
  | src, [], dst => (getLinkDistance topology numChannel src dst).toNat
  | src, v :: vs, dst =>
    (getLinkDistance topology numChannel src v).toNat + walkWeight topology numChannel v vs dst

section Walks

variable (topology : Nat → UInt32) (numChannel : Nat)

theorem walkWeight_append (src : Nat) (l₁ : List Nat) (x : Nat) (l₂ : List Nat) (dst : Nat) :
    walkWeight topology numChannel src (l₁ ++ x :: l₂) dst =
      walkWeight topology numChannel src l₁ x + walkWeight topology numChannel x l₂ dst := by
  induction l₁ generalizing src with
  | nil => rfl
  | cons y l₁ ih => simp only [List.cons_append, walkWeight, List.append_eq, ih, Nat.add_assoc]

/-- Every entry is the weight of a walk through the channels. -/
def Realized (solution : Nat → UInt32) : Prop :=
  ∀ src < numChannel, ∀ dst < numChannel, ∃ vs, (∀ v ∈ vs, v < numChannel) ∧
    walkWeight topology numChannel src vs dst = (getEntry solution numChannel src dst).toNat

/-- No entry is above a walk whose intermediate channels are distinct and below `k`. -/
def Below (k : Nat) (solution : Nat → UInt32) : Prop :=
  ∀ src < numChannel, ∀ dst < numChannel, ∀ vs : List Nat, vs.Nodup →
    (∀ v ∈ vs, v < k) →
      (getEntry solution numChannel src dst).toNat ≤ walkWeight topology numChannel src vs dst

/-- What the relaxation at `(k, src, dst)` leaves: the entry is at most every pair of walks
through `k` whose other intermediate channels are distinct and below `k`. -/
def ThroughBelow (k src dst : Nat) (solution : Nat → UInt32) : Prop :=
  ∀ l₁ l₂ : List Nat, l₁.Nodup → l₂.Nodup → (∀ v ∈ l₁, v < k) →
    (∀ v ∈ l₂, v < k) → (getEntry solution numChannel src dst).toNat ≤
      walkWeight topology numChannel src l₁ k + walkWeight topology numChannel k l₂ dst

end Walks

/-- No entry of `solution'` is above the same entry of `solution`. -/
def Lowered (numChannel : Nat) (solution' solution : Nat → UInt32) : Prop :=
  ∀ src < numChannel, ∀ dst < numChannel,
    (getEntry solution' numChannel src dst).toNat ≤ (getEntry solution numChannel src dst).toNat

/-- The tables of the loop: every entry at most `inf_distance`, and the weight of a walk. -/
structure Good (topology : Nat → UInt32) (numChannel : Nat) (solution : Nat → UInt32) :
    Prop where
  bounded : Bounded numChannel solution
  realized : Realized topology numChannel solution

section Loop

variable {topology : Nat → UInt32} {numChannel k src dst : Nat}

theorem Lowered.refl (solution : Nat → UInt32) : Lowered numChannel solution solution :=
  fun _ _ _ _ => Nat.le_refl _

theorem Lowered.trans {s₁ s₂ s₃ : Nat → UInt32} (h₁₂ : Lowered numChannel s₁ s₂)
    (h₂₃ : Lowered numChannel s₂ s₃) : Lowered numChannel s₁ s₃ :=
  fun s hs d hd => Nat.le_trans (h₁₂ s hs d hd) (h₂₃ s hs d hd)

theorem Below.mono {solution solution' : Nat → UInt32} (h : Below topology numChannel k solution)
    (hl : Lowered numChannel solution' solution) : Below topology numChannel k solution' :=
  fun s hs d hd vs hn hv => Nat.le_trans (hl s hs d hd) (h s hs d hd vs hn hv)

theorem ThroughBelow.mono {solution solution' : Nat → UInt32}
    (h : ThroughBelow topology numChannel k src dst solution)
    (hl : Lowered numChannel solution' solution)
    (hs : src < numChannel) (hd : dst < numChannel) :
    ThroughBelow topology numChannel k src dst solution' :=
  fun l₁ l₂ h₁ h₂ hv₁ hv₂ => Nat.le_trans (hl src hs dst hd) (h l₁ l₂ h₁ h₂ hv₁ hv₂)

variable {solution : Nat → UInt32}

/-- A relaxation only lowers entries. -/
theorem lowered_relax (hb : Bounded numChannel solution) (hk : k < numChannel)
    (hs : src < numChannel) (hd : dst < numChannel) :
    Lowered numChannel (relax numChannel k src dst solution) solution := by
  intro s' _ d' hd'
  rw [relax_toNat hb hk hs hd _ hd']
  split_ifs with heq
  · rw [heq.1, heq.2]; exact Nat.min_le_left _ _
  · exact Nat.le_refl _

/-- A relaxation keeps every entry the weight of a walk: the sum through `k` is the weight of the
two walks joined at `k`. -/
theorem Good.relax (hg : Good topology numChannel solution) (hk : k < numChannel)
    (hs : src < numChannel) (hd : dst < numChannel) :
    Good topology numChannel (relax numChannel k src dst solution) := by
  refine ⟨relax_bounded hg.bounded hk hs hd, fun s' hs' d' hd' => ?_⟩
  rw [relax_toNat hg.bounded hk hs hd _ hd']
  split_ifs with heq
  · obtain ⟨rfl, rfl⟩ := heq
    rcases Nat.le_total (getEntry solution numChannel s' d').toNat
      ((getEntry solution numChannel s' k).toNat + (getEntry solution numChannel k d').toNat)
      with hle | hle
    · rw [Nat.min_eq_left hle]; exact hg.realized s' hs' d' hd'
    · obtain ⟨l₁, hv₁, hw₁⟩ := hg.realized s' hs' k hk
      obtain ⟨l₂, hv₂, hw₂⟩ := hg.realized k hk d' hd'
      refine ⟨l₁ ++ k :: l₂, fun v hv => ?_, ?_⟩
      · rcases List.mem_append.1 hv with hv | hv
        · exact hv₁ v hv
        · rcases List.mem_cons.1 hv with rfl | hv
          · exact hk
          · exact hv₂ v hv
      · rw [Nat.min_eq_right hle, walkWeight_append, hw₁, hw₂]
  · exact hg.realized s' hs' d' hd'

/-- The relaxation at `(k, src, dst)` bounds the entry by the two entries through `k`, and these
by the walks below `k`. -/
theorem throughBelow_relax (hb : Bounded numChannel solution)
    (hup : Below topology numChannel k solution) (hk : k < numChannel) (hs : src < numChannel)
    (hd : dst < numChannel) :
    ThroughBelow topology numChannel k src dst (relax numChannel k src dst solution) := by
  intro l₁ l₂ h₁ h₂ hv₁ hv₂
  rw [relax_toNat hb hk hs hd _ hd, if_pos ⟨rfl, rfl⟩]
  exact Nat.le_trans (Nat.min_le_right _ _)
    (Nat.add_le_add (hup src hs k hk l₁ h₁ hv₁) (hup k hk dst hd l₂ h₂ hv₂))

/-- The loop over `dst` up to `m`: the tables stay good and only get lower, and every entry of
row `src` it has passed is bounded through `k`. -/
theorem relaxRow_upTo (hg : Good topology numChannel solution)
    (hup : Below topology numChannel k solution) (hk : k < numChannel) (hs : src < numChannel) :
    ∀ m ≤ numChannel,
      Good topology numChannel
          ((List.range m).foldl (fun solution dst => relax numChannel k src dst solution)
            solution) ∧
        Lowered numChannel
          ((List.range m).foldl (fun solution dst => relax numChannel k src dst solution) solution)
          solution ∧
        ∀ d < m, ThroughBelow topology numChannel k src d
          ((List.range m).foldl (fun solution dst => relax numChannel k src dst solution) solution)
  | 0, _ => ⟨hg, Lowered.refl _, fun _ h => absurd h (Nat.not_lt_zero _)⟩
  | m + 1, hm => by
    obtain ⟨hg', hl, hq⟩ := relaxRow_upTo hg hup hk hs m (by omega)
    rw [List.range_succ, List.foldl_append, List.foldl_cons, List.foldl_nil]
    have hm' : m < numChannel := by omega
    have hl' := lowered_relax hg'.bounded hk hs hm'
    refine ⟨hg'.relax hk hs hm', hl'.trans hl, fun d hd => ?_⟩
    rcases Nat.lt_succ_iff_lt_or_eq.1 hd with hd | rfl
    · exact (hq d hd).mono hl' hs (by omega)
    · exact throughBelow_relax hg'.bounded (hup.mono hl) hk hs hm'

/-- The loop over `src` up to `n`: every entry of the rows it has passed is bounded through
`k`. -/
theorem relaxRound_upTo (hg : Good topology numChannel solution)
    (hup : Below topology numChannel k solution) (hk : k < numChannel) :
    ∀ n ≤ numChannel,
      Good topology numChannel
          ((List.range n).foldl (fun solution src => relaxRow numChannel k src solution)
            solution) ∧
        Lowered numChannel
          ((List.range n).foldl (fun solution src => relaxRow numChannel k src solution) solution)
          solution ∧
        ∀ s < n, ∀ d < numChannel, ThroughBelow topology numChannel k s d
          ((List.range n).foldl (fun solution src => relaxRow numChannel k src solution) solution)
  | 0, _ => ⟨hg, Lowered.refl _, fun _ h => absurd h (Nat.not_lt_zero _)⟩
  | n + 1, hn => by
    obtain ⟨hg', hl, hq⟩ := relaxRound_upTo hg hup hk n (by omega)
    rw [List.range_succ, List.foldl_append, List.foldl_cons, List.foldl_nil]
    have hn' : n < numChannel := by omega
    obtain ⟨hg'', hl', hq'⟩ :=
      relaxRow_upTo hg' (hup.mono hl) hk hn' numChannel (Nat.le_refl _)
    refine ⟨hg'', hl'.trans hl, fun s hs d hd => ?_⟩
    rcases Nat.lt_succ_iff_lt_or_eq.1 hs with hs | rfl
    · exact (hq s hs d hd).mono hl' (by omega) hd
    · exact hq' d hd

/-- Once every entry is bounded through `k`, no entry is above a walk whose intermediate channels
are distinct and below `k + 1`: such a walk passes `k` at most once. -/
theorem Below.succ (hup : Below topology numChannel k solution)
    (hq : ∀ s < numChannel, ∀ d < numChannel, ThroughBelow topology numChannel k s d solution) :
    Below topology numChannel (k + 1) solution := by
  intro s hs d hd vs hn hv
  by_cases hk : k ∈ vs
  · obtain ⟨l₁, l₂, rfl⟩ := List.append_of_mem hk
    have hn' := List.nodup_middle.1 hn
    rw [List.nodup_cons, List.mem_append, not_or] at hn'
    obtain ⟨⟨hk₁, hk₂⟩, hn₁₂⟩ := hn'
    rw [walkWeight_append]
    refine hq s hs d hd l₁ l₂ (hn₁₂.sublist (List.sublist_append_left _ _))
      (hn₁₂.sublist (List.sublist_append_right _ _)) (fun v hv' => ?_) (fun v hv' => ?_)
    · have := hv v (List.mem_append_left _ hv')
      have : v ≠ k := fun e => hk₁ (e ▸ hv')
      omega
    · have := hv v (List.mem_append_right _ (List.mem_cons_of_mem k hv'))
      have : v ≠ k := fun e => hk₂ (e ▸ hv')
      omega
  · refine hup s hs d hd vs hn fun v hv' => ?_
    have := hv v hv'
    have : v ≠ k := fun e => hk (e ▸ hv')
    omega

end Loop

section Solution

variable {numChannel : Nat}

/-- The rounds up to `n`: the tables stay good, and no entry is above a walk whose intermediate
channels are distinct and below `n`. -/
theorem floydWarshall_upTo (t : Topology numChannel) (solution : Nat → UInt32) :
    ∀ n ≤ numChannel,
      Good t.links numChannel ((List.range n).foldl
          (fun solution k => relaxRound numChannel k solution)
          (copyTopology numChannel t.links solution)) ∧
        Below t.links numChannel n ((List.range n).foldl
          (fun solution k => relaxRound numChannel k solution)
          (copyTopology numChannel t.links solution))
  | 0, _ => by
    -- the copy of the topology: each entry is the direct link
    refine ⟨⟨fun s hs d hd => ?_,
        fun s hs d hd => ⟨[], fun _ h => absurd h (List.not_mem_nil _), ?_⟩⟩,
      fun s hs d hd vs _ hv => ?_⟩ <;>
      simp only [List.range_zero, List.foldl_nil, getEntry_copyTopology hs hd]
    · exact t.le_inf s hs d hd
    · rfl
    · cases vs with
      | nil => exact Nat.le_refl _
      | cons v _ => exact absurd (hv v (List.mem_cons_self _ _)) (Nat.not_lt_zero _)
  | n + 1, hn => by
    obtain ⟨hg, hup⟩ := floydWarshall_upTo t solution n (by omega)
    rw [List.range_succ, List.foldl_append, List.foldl_cons, List.foldl_nil]
    obtain ⟨hg', hl, hq⟩ := relaxRound_upTo hg hup (by omega) numChannel (Nat.le_refl _)
    exact ⟨hg', (hup.mono hl).succ hq⟩

/-- The solution when the body of the innermost loop of `floyd_warshall` is about to run at
`(intermediate, src, dst)`. -/
def floydWarshallBefore (numChannel : Nat) (topology solution : Nat → UInt32)
    (intermediate src dst : Nat) : Nat → UInt32 :=
  (List.range dst).foldl (fun solution dst => relax numChannel intermediate src dst solution)
    ((List.range src).foldl (fun solution src => relaxRow numChannel intermediate src solution)
      ((List.range intermediate).foldl (fun solution k => relaxRound numChannel k solution)
        (copyTopology numChannel topology solution)))

/-- Every table the loop passes through keeps its entries at most `inf_distance`. -/
theorem floydWarshallBefore_bounded (t : Topology numChannel) (solution : Nat → UInt32)
    {k src dst : Nat} (hk : k < numChannel) (hs : src < numChannel) (hd : dst < numChannel) :
    Bounded numChannel (floydWarshallBefore numChannel t.links solution k src dst) := by
  obtain ⟨hg, hup⟩ := floydWarshall_upTo t solution k hk.le
  obtain ⟨hg', hl, -⟩ := relaxRound_upTo hg hup hk src hs.le
  exact (relaxRow_upTo hg' (hup.mono hl) hk hs dst hd.le).1.bounded

/-- A list with a repeat has an element twice. -/
theorem exists_dup_split {α : Type} :
    ∀ {l : List α}, ¬l.Nodup → ∃ a x b c, l = a ++ x :: (b ++ x :: c)
  | [], h => absurd List.nodup_nil h
  | y :: t, h => by
    rw [List.nodup_cons] at h
    by_cases hy : y ∈ t
    · obtain ⟨b, c, rfl⟩ := List.append_of_mem hy
      exact ⟨[], y, b, c, rfl⟩
    · obtain ⟨a, x, b, c, rfl⟩ := exists_dup_split fun hn => h ⟨hy, hn⟩
      exact ⟨y :: a, x, b, c, rfl⟩

/-- A walk weighs at least some walk without repeats through channels of the first. -/
theorem exists_nodup_le (topology : Nat → UInt32) :
    ∀ n (vs : List Nat), vs.length ≤ n → ∀ src dst, ∃ vs', vs'.Nodup ∧
      (∀ v ∈ vs', v ∈ vs) ∧
        walkWeight topology numChannel src vs' dst ≤ walkWeight topology numChannel src vs dst
  | 0, vs, hl, _, _ => by
    rw [List.length_eq_zero.1 (Nat.le_zero.1 hl)]
    exact ⟨[], List.nodup_nil, fun _ h => h, Nat.le_refl _⟩
  | n + 1, vs, hl, src, dst => by
    by_cases hn : vs.Nodup
    · exact ⟨vs, hn, fun _ h => h, Nat.le_refl _⟩
    -- cut the cycle between two visits of one channel
    obtain ⟨a, x, b, c, rfl⟩ := exists_dup_split hn
    obtain ⟨vs', hn', hsub, hle⟩ := exists_nodup_le topology n (a ++ x :: c)
      (by simp only [List.length_append, List.length_cons] at hl ⊢; omega) src dst
    refine ⟨vs', hn', fun v hv => ?_, Nat.le_trans hle ?_⟩
    · rcases List.mem_append.1 (hsub v hv) with h | h
      · exact List.mem_append_left _ h
      · rcases List.mem_cons.1 h with rfl | h
        · exact List.mem_append_right _ (List.mem_cons_self _ _)
        · exact List.mem_append_right _ (List.mem_cons_of_mem _ (List.mem_append_right _
            (List.mem_cons_of_mem _ h)))
    · rw [walkWeight_append, walkWeight_append, walkWeight_append]
      omega

/-- `floyd_warshall` leaves in entry `(src, dst)` the weight of a shortest walk from `src` to
`dst` through the channels: the weight of one walk, and no more than any. -/
theorem floydWarshall_shortest (t : Topology numChannel) (solution : Nat → UInt32)
    {src dst : Nat} (hs : src < numChannel) (hd : dst < numChannel) :
    (∃ vs, (∀ v ∈ vs, v < numChannel) ∧ walkWeight t.links numChannel src vs dst =
        (getSolutionDistance (floydWarshall numChannel t.links solution) numChannel src
          dst).toNat) ∧
      ∀ vs, (∀ v ∈ vs, v < numChannel) →
        (getSolutionDistance (floydWarshall numChannel t.links solution) numChannel src
          dst).toNat ≤ walkWeight t.links numChannel src vs dst := by
  obtain ⟨hg, hup⟩ := floydWarshall_upTo t solution numChannel (Nat.le_refl _)
  refine ⟨hg.realized src hs dst hd, fun vs hv => ?_⟩
  obtain ⟨vs', hn, hsub, hle⟩ := exists_nodup_le t.links _ vs (Nat.le_refl _) src dst
  exact Nat.le_trans (hup src hs dst hd vs' hn fun v h => hv v (hsub v h)) hle

/- Three channels with links `0 → 1 → 2` of weight `1` and `0 → 2` of weight `5`: the walk
through `1` is shorter, and nothing reaches `0`. -/
set_option maxRecDepth 20000 in
example : getSolutionDistance (floydWarshall 3
    (populate 3 (fun i => [0, 1, 5, 0xffffffff, 0, 1, 0xffffffff, 0xffffffff, 0].getD i 0)
      fun _ => 0) fun _ => 0) 3 0 2 = 2 := rfl

set_option maxRecDepth 20000 in
example : getSolutionDistance (floydWarshall 3
    (populate 3 (fun i => [0, 1, 5, 0xffffffff, 0, 1, 0xffffffff, 0xffffffff, 0].getD i 0)
      fun _ => 0) fun _ => 0) 3 2 0 = infDistance := rfl

/-- Every entry of the solution is at most `inf_distance`. -/
theorem floydWarshall_bounded (t : Topology numChannel) (solution : Nat → UInt32) :
    Bounded numChannel (floydWarshall numChannel t.links solution) :=
  (floydWarshall_upTo t solution numChannel (Nat.le_refl _)).1.bounded

/-- The solution is closed under the links: the shortest walk from `src` is no longer than the
link to `j` followed by the shortest walk from `j`. -/
theorem floydWarshall_le_link_add (t : Topology numChannel) (solution : Nat → UInt32)
    {src j dst : Nat} (hs : src < numChannel) (hj : j < numChannel) (hd : dst < numChannel) :
    (getSolutionDistance (floydWarshall numChannel t.links solution) numChannel src dst).toNat ≤
      (getLinkDistance t.links numChannel src j).toNat +
        (getSolutionDistance (floydWarshall numChannel t.links solution) numChannel j
          dst).toNat := by
  obtain ⟨vs, hvs, hw⟩ := (floydWarshall_shortest t solution hj hd).1
  have hwalk := (floydWarshall_shortest t solution hs hd).2 (j :: vs) fun v hv => by
    rcases List.mem_cons.1 hv with rfl | hv
    · exact hj
    · exact hvs v hv
  rwa [walkWeight, hw] at hwalk

/-- From any values read, and while the byte count of the tables does not wrap, every entry
`(src, dst)` lies inside both blocks, no sum `floyd_warshall` forms for it wraps, and
`create_topology` leaves in it the weight of a shortest walk over the links it stored. -/
theorem createTopology_shortest (values topology solution : Nat → UInt32)
    (hN : 4 * numChannel * numChannel < 2 ^ 64) :
    ∀ src < numChannel, ∀ dst < numChannel,
      (src * numChannel + dst + 1) * 4 ≤ tableBytes numChannel ∧
      (∀ k < numChannel,
        (getSolutionDistance (floydWarshallBefore numChannel
            (createTopology numChannel values topology solution).1 solution k src dst) numChannel
            src k +
          getSolutionDistance (floydWarshallBefore numChannel
            (createTopology numChannel values topology solution).1 solution k src dst) numChannel
            k dst).toNat =
        (getSolutionDistance (floydWarshallBefore numChannel
            (createTopology numChannel values topology solution).1 solution k src dst) numChannel
            src k).toNat +
          (getSolutionDistance (floydWarshallBefore numChannel
            (createTopology numChannel values topology solution).1 solution k src dst) numChannel
            k dst).toNat) ∧
      (∃ vs, (∀ v ∈ vs, v < numChannel) ∧
        walkWeight (createTopology numChannel values topology solution).1 numChannel src vs dst =
          (getSolutionDistance (createTopology numChannel values topology solution).2 numChannel
            src dst).toNat) ∧
      ∀ vs, (∀ v ∈ vs, v < numChannel) →
        (getSolutionDistance (createTopology numChannel values topology solution).2 numChannel
            src dst).toNat ≤
          walkWeight (createTopology numChannel values topology solution).1 numChannel src vs
            dst := by
  intro src hs dst hd
  have hb (k : Nat) (hk : k < numChannel) :=
    floydWarshallBefore_bounded (Topology.ofValues numChannel values topology) solution hk hs hd
  exact ⟨entry_in_block hN hs hd,
    fun k hk => toNat_add_of_le (hb k hk src hs k hk) (hb k hk k hk dst hd),
    floydWarshall_shortest (Topology.ofValues numChannel values topology) solution hs hd⟩

/-- Two channels whose value read for the link from `1` to `0` is negative, every other value
`5`: what `create_topology` leaves. -/
def unlinkedTopology : (Nat → UInt32) × (Nat → UInt32) :=
  createTopology 2 (fun i => if i = 2 then 0xffffffff else 5) (fun _ => 0) fun _ => 0

/-- In `unlinkedTopology` the entry `(1, 0)` is `inf_distance`, the weight of the direct
link. -/
theorem createTopology_shortest_unlinked :
    4 * 2 * 2 < 2 ^ 64 ∧ (1 * 2 + 0 + 1) * 4 ≤ tableBytes 2 ∧
      (∀ k < 2,
        (getSolutionDistance (floydWarshallBefore 2 unlinkedTopology.1 (fun _ => 0) k 1 0) 2 1 k +
          getSolutionDistance (floydWarshallBefore 2 unlinkedTopology.1 (fun _ => 0) k 1 0) 2 k
            0).toNat =
        (getSolutionDistance (floydWarshallBefore 2 unlinkedTopology.1 (fun _ => 0) k 1 0) 2 1
            k).toNat +
          (getSolutionDistance (floydWarshallBefore 2 unlinkedTopology.1 (fun _ => 0) k 1 0) 2 k
            0).toNat) ∧
      (∃ vs, (∀ v ∈ vs, v < 2) ∧ walkWeight unlinkedTopology.1 2 1 vs 0 =
        (getSolutionDistance unlinkedTopology.2 2 1 0).toNat) ∧
      ∀ vs, (∀ v ∈ vs, v < 2) →
        (getSolutionDistance unlinkedTopology.2 2 1 0).toNat ≤
          walkWeight unlinkedTopology.1 2 1 vs 0 :=
  ⟨by decide, createTopology_shortest _ (fun _ => 0) (fun _ => 0) (by decide) 1 (by decide) 0
    (by decide)⟩

end Solution

end ConcurrencyLab.Stress
