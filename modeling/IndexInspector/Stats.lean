import IndexInspector.Bytes

/-!
# The statistics aggregator

All three stats entry points of `graph_stats.cpp` run the same loop body over a
stream of node degrees:

```
total_edges += deg; if (deg < degree_min) degree_min = deg;
if (deg > degree_max) degree_max = deg; if (deg < weak_threshold) weak_count++;
```

starting from `degree_min = SIZE_MAX`, and finish with
`(degree_min == SIZE_MAX) ? 0 : degree_min`.  `DegreeAcc.add` is that body, once; the
readers of the two file layouts differ only in where the degrees come from and in how
they fill the remaining fields, and they are defined in their own modules.

`size_t` arithmetic wraps, so `DegreeAcc.add` reduces `total_edges` and `weak_count`
modulo `2 ^ 64`.  For the in-memory entry point the wrap cannot happen: a `Graph`
carries, as a field, that its id arrays are resident in the 64-bit address space.

`GraphStats.Aggregates w ds s` is the specification of the loop: `s` holds the sum,
the least and greatest element and the count below `w` of the degree list `ds`.
`Aggregates.of_ofList` discharges it for the fold whenever the sums fit, and
`Aggregates.mul_degreeMin_le`/`Aggregates.le_mul_degreeMax` are the consistency
bounds `T · min ≤ E ≤ T · max`.
-/

namespace Pipeann

/-- `struct GraphStats`, with the in-class defaults.  `degree_avg` is a `double`,
here a `Float`. -/
structure GraphStats where
  totalNodes : Nat := 0
  activeNodes : Nat := 0
  frozenNodes : Nat := 0
  totalEdges : Nat := 0
  degreeMin : Nat := 0
  degreeAvg : Float := 0.0
  degreeMax : Nat := 0
  weakCount : Nat := 0
  entryPoint : UInt32 := 0
  deriving Repr

/-- An in-memory adjacency list, `std::vector<std::vector<unsigned>>`.  All its id
arrays (four bytes an id) and vector headers (24 bytes each) are resident at once, so
they fit the 64-bit address space. -/
structure Graph where
  nbrs : List (List UInt32)
  resident : 24 * nbrs.length + 4 * (nbrs.map List.length).sum < 2 ^ 64

/-- `std::numeric_limits<size_t>::max()`, the initial `degree_min`. -/
def sizeMax : Nat := 2 ^ 64 - 1

/-! ### The shared loop body -/

/-- The running aggregates of a stats loop. -/
@[ext]
structure DegreeAcc where
  totalEdges : Nat
  degreeMin : Nat
  degreeMax : Nat
  weakCount : Nat

namespace DegreeAcc

/-- The values before the first node: `0, SIZE_MAX, 0, 0`. -/
def init : DegreeAcc := ⟨0, sizeMax, 0, 0⟩

/-- One iteration of the loop body for a node of degree `deg`. -/
def add (weakThreshold : Nat) (acc : DegreeAcc) (deg : Nat) : DegreeAcc where
  totalEdges := (acc.totalEdges + deg) % 2 ^ 64
  degreeMin := if deg < acc.degreeMin then deg else acc.degreeMin
  degreeMax := if deg > acc.degreeMax then deg else acc.degreeMax
  weakCount := if deg < weakThreshold then (acc.weakCount + 1) % 2 ^ 64 else acc.weakCount

/-- `(degree_min == SIZE_MAX) ? 0 : degree_min`. -/
def finalMin (acc : DegreeAcc) : Nat := if acc.degreeMin = sizeMax then 0 else acc.degreeMin

/-- The loop run over a whole degree stream. -/
def ofList (weakThreshold : Nat) (ds : List Nat) : DegreeAcc := ds.foldl (add weakThreshold) init

/-- The body's running minimum and maximum are `min` and `max`. -/
theorem add_eq (w : Nat) (acc : DegreeAcc) (deg : Nat) :
    add w acc deg = ⟨(acc.totalEdges + deg) % 2 ^ 64, min acc.degreeMin deg, max acc.degreeMax deg,
      if deg < w then (acc.weakCount + 1) % 2 ^ 64 else acc.weakCount⟩ := by
  simp only [add, mk.injEq, true_and, and_true]
  constructor <;> split <;> omega

theorem foldl_add_totalEdges (w : Nat) (ds : List Nat) {acc : DegreeAcc}
    (h : acc.totalEdges < 2 ^ 64) :
    (ds.foldl (add w) acc).totalEdges = (acc.totalEdges + ds.sum) % 2 ^ 64 := by
  induction ds generalizing acc with
  | nil => simp; omega
  | cons d ds ih =>
    rw [List.foldl_cons, ih (by simp only [add]; omega)]
    simp only [add, List.sum_cons]; omega

theorem foldl_add_weakCount (w : Nat) (ds : List Nat) {acc : DegreeAcc}
    (h : acc.weakCount < 2 ^ 64) :
    (ds.foldl (add w) acc).weakCount = (acc.weakCount + ds.countP (· < w)) % 2 ^ 64 := by
  induction ds generalizing acc with
  | nil => simp; omega
  | cons d ds ih =>
    rw [List.foldl_cons, ih (by simp only [add]; split <;> omega)]
    simp only [add, List.countP_cons, decide_eq_true_eq]
    split <;> omega

theorem foldl_add_degreeMin (w : Nat) (ds : List Nat) (acc : DegreeAcc) :
    (ds.foldl (add w) acc).degreeMin = ds.foldl min acc.degreeMin := by
  induction ds generalizing acc with
  | nil => rfl
  | cons d ds ih => simp only [List.foldl_cons, ih, add_eq]

theorem foldl_add_degreeMax (w : Nat) (ds : List Nat) (acc : DegreeAcc) :
    (ds.foldl (add w) acc).degreeMax = ds.foldl max acc.degreeMax := by
  induction ds generalizing acc with
  | nil => rfl
  | cons d ds ih => simp only [List.foldl_cons, ih, add_eq]

@[simp] theorem ofList_totalEdges (w : Nat) (ds : List Nat) :
    (ofList w ds).totalEdges = ds.sum % 2 ^ 64 := by
  rw [ofList, foldl_add_totalEdges _ _ (by decide)]; simp [init]

@[simp] theorem ofList_weakCount (w : Nat) (ds : List Nat) :
    (ofList w ds).weakCount = ds.countP (· < w) % 2 ^ 64 := by
  rw [ofList, foldl_add_weakCount _ _ (by decide)]; simp [init]

@[simp] theorem ofList_degreeMin (w : Nat) (ds : List Nat) :
    (ofList w ds).degreeMin = ds.foldl min sizeMax := foldl_add_degreeMin _ _ _

@[simp] theorem ofList_degreeMax (w : Nat) (ds : List Nat) :
    (ofList w ds).degreeMax = ds.foldl max 0 := foldl_add_degreeMax _ _ _

/-- Two steps of the loop body commute. -/
theorem add_add_swap (w : Nat) (acc : DegreeAcc) (a b : Nat) :
    add w (add w acc a) b = add w (add w acc b) a := by
  simp only [add_eq, mk.injEq, min_right_comm, Nat.max_right_comm, true_and, and_true]
  exact ⟨by omega, by split_ifs <;> omega⟩

/-- The loop body commutes with itself, so the result ignores the order of the stream. -/
instance (w : Nat) : RightCommutative (add w) := ⟨add_add_swap w⟩

end DegreeAcc

/-- The running minimum of a fold is below its start and every element, and is one of them. -/
theorem foldl_min_spec (ds : List Nat) (m : Nat) :
    ds.foldl min m ≤ m ∧ (∀ d ∈ ds, ds.foldl min m ≤ d) ∧ (ds.foldl min m = m ∨ ds.foldl min m ∈ ds) := by
  induction ds generalizing m with
  | nil => simp
  | cons d ds ih =>
    obtain ⟨h1, h2, h3⟩ := ih (min m d)
    simp only [List.foldl_cons, List.mem_cons, forall_eq_or_imp]
    refine ⟨by omega, ⟨by omega, h2⟩, ?_⟩
    rcases h3 with h | h
    · rw [h]; omega
    · exact .inr (.inr h)

theorem foldl_max_spec (ds : List Nat) (m : Nat) :
    m ≤ ds.foldl max m ∧ (∀ d ∈ ds, d ≤ ds.foldl max m) ∧ (ds.foldl max m = m ∨ ds.foldl max m ∈ ds) := by
  induction ds generalizing m with
  | nil => simp
  | cons d ds ih =>
    obtain ⟨h1, h2, h3⟩ := ih (max m d)
    simp only [List.foldl_cons, List.mem_cons, forall_eq_or_imp]
    refine ⟨by omega, ⟨by omega, h2⟩, ?_⟩
    rcases h3 with h | h
    · rw [h]; omega
    · exact .inr (.inr h)

/-! ### The specification of the loop -/

/-- `s` holds the aggregates of the degree list `ds` at weak threshold `w`: their sum,
their least and greatest element (0 for an empty list) and the number below `w`. -/
structure GraphStats.Aggregates (w : Nat) (ds : List Nat) (s : GraphStats) : Prop where
  totalEdges_eq : s.totalEdges = ds.sum
  degreeMin_le : ∀ d ∈ ds, s.degreeMin ≤ d
  degreeMin_mem : s.degreeMin ∈ ds ∨ ds = [] ∧ s.degreeMin = 0
  le_degreeMax : ∀ d ∈ ds, d ≤ s.degreeMax
  degreeMax_mem : s.degreeMax ∈ ds ∨ ds = [] ∧ s.degreeMax = 0
  weakCount_eq : s.weakCount = ds.countP (· < w)

/-- **The loop computes its specification** whenever no `size_t` sum wraps and no
degree collides with the `SIZE_MAX` sentinel. -/
theorem GraphStats.Aggregates.of_ofList {w : Nat} {ds : List Nat} {s : GraphStats}
    (hsum : ds.sum < 2 ^ 64) (hlen : ds.length < 2 ^ 64) (hlt : ∀ d ∈ ds, d < sizeMax)
    (he : s.totalEdges = (DegreeAcc.ofList w ds).totalEdges)
    (hmin : s.degreeMin = (DegreeAcc.ofList w ds).finalMin)
    (hmax : s.degreeMax = (DegreeAcc.ofList w ds).degreeMax)
    (hw : s.weakCount = (DegreeAcc.ofList w ds).weakCount) : s.Aggregates w ds := by
  have hcount : ds.countP (· < w) ≤ ds.length := List.countP_le_length _
  simp only [DegreeAcc.ofList_totalEdges, DegreeAcc.ofList_weakCount, DegreeAcc.finalMin,
    DegreeAcc.ofList_degreeMin, DegreeAcc.ofList_degreeMax] at he hmin hmax hw
  obtain ⟨-, hm2, hm3⟩ := foldl_min_spec ds sizeMax
  obtain ⟨-, hM2, hM3⟩ := foldl_max_spec ds 0
  refine ⟨by omega, ?_, ?_, by rwa [hmax], ?_, by omega⟩
  · intro d hd
    have := hm2 d hd
    split at hmin <;> omega
  · cases ds with
    | nil => exact .inr ⟨rfl, by simpa [sizeMax] using hmin⟩
    | cons d l =>
      have hne : List.foldl min sizeMax (d :: l) ≠ sizeMax := by
        have := hm2 d (by simp); have := hlt d (by simp); omega
      rw [hmin, if_neg hne]
      exact .inl (hm3.resolve_left hne)
  · rw [hmax]
    cases ds with
    | nil => exact .inr ⟨rfl, rfl⟩
    | cons d l =>
      rcases hM3 with h | h
      · have hd : d = 0 := by have := hM2 d (by simp); omega
        exact .inl (by rw [h, ← hd]; simp)
      · exact .inl h

theorem GraphStats.Aggregates.mul_degreeMin_le {w : Nat} {ds : List Nat} {s : GraphStats}
    (h : s.Aggregates w ds) : ds.length * s.degreeMin ≤ s.totalEdges := by
  rw [h.totalEdges_eq]
  simpa using List.card_nsmul_le_sum ds s.degreeMin h.degreeMin_le

theorem GraphStats.Aggregates.le_mul_degreeMax {w : Nat} {ds : List Nat} {s : GraphStats}
    (h : s.Aggregates w ds) : s.totalEdges ≤ ds.length * s.degreeMax := by
  rw [h.totalEdges_eq]
  simpa using List.sum_le_card_nsmul ds s.degreeMax h.le_degreeMax

/-! ### `compute_graph_stats` -/

/-- `compute_graph_stats(graph, nd, num_frozen_pts, ep, weak_threshold)`.  Reading
`graph[i]` past the end of `graph` is undefined; the model reads an empty list there,
and every result below is under the caller's contract `nd + num_frozen_pts ≤ |graph|`. -/
def computeGraphStats (graph : Graph) (nd numFrozenPts : Nat) (ep weakThreshold : UInt32) :
    GraphStats :=
  let totalNodes := (nd + numFrozenPts) % 2 ^ 64
  if totalNodes = 0 then
    { totalNodes, activeNodes := nd, frozenNodes := numFrozenPts, entryPoint := ep }
  else
    let acc := (List.range totalNodes).foldl
      (fun acc i => acc.add weakThreshold.toNat (graph.nbrs.getD i []).length) DegreeAcc.init
    { totalNodes, activeNodes := nd, frozenNodes := numFrozenPts, entryPoint := ep
      totalEdges := acc.totalEdges, degreeMin := acc.finalMin
      degreeAvg := acc.totalEdges.toFloat / totalNodes.toFloat
      degreeMax := acc.degreeMax, weakCount := acc.weakCount }

/-- The degree stream of the first `n` entries of an adjacency list. -/
theorem range_map_getD_length (g : List (List UInt32)) {n : Nat} (h : n ≤ g.length) :
    (List.range n).map (fun i => (g.getD i []).length) = (g.take n).map List.length := by
  apply List.ext_getElem (by simp; omega)
  intro i h1 h2
  simp only [List.getElem_map, List.getElem_range, List.getElem_take, List.getD_eq_getElem?_getD,
    List.getElem?_eq_getElem (show i < g.length by simp at h1; omega), Option.getD_some]

/-- On its contract, `compute_graph_stats` folds the loop body over the degrees of the
first `nd + num_frozen_pts` nodes. -/
theorem computeGraphStats_eq (graph : Graph) (nd numFrozenPts : Nat) (ep w : UInt32)
    (hpos : 0 < nd + numFrozenPts) (hle : nd + numFrozenPts ≤ graph.nbrs.length) :
    computeGraphStats graph nd numFrozenPts ep w =
      let T := nd + numFrozenPts
      let acc := DegreeAcc.ofList w.toNat ((graph.nbrs.take T).map List.length)
      { totalNodes := T, activeNodes := nd, frozenNodes := numFrozenPts, entryPoint := ep
        totalEdges := acc.totalEdges, degreeMin := acc.finalMin
        degreeAvg := acc.totalEdges.toFloat / T.toFloat
        degreeMax := acc.degreeMax, weakCount := acc.weakCount } := by
  have hfit := graph.resident
  have hT : (nd + numFrozenPts) % 2 ^ 64 = nd + numFrozenPts := by
    have := (List.take_sublist (nd + numFrozenPts) graph.nbrs).length_le
    omega
  simp only [computeGraphStats, hT, Nat.pos_iff_ne_zero.mp hpos, if_false, DegreeAcc.ofList,
    ← range_map_getD_length _ hle, List.foldl_map]

/-- Every degree of a resident graph, and their sum, are far below `2 ^ 64`. -/
theorem Graph.sum_take_lt (graph : Graph) (T : Nat) :
    ((graph.nbrs.take T).map List.length).sum < 2 ^ 62 := by
  have hfit := graph.resident
  have hsub := (List.take_sublist T graph.nbrs).map List.length
  have := hsub.sum_le_sum (fun _ _ => Nat.zero_le _)
  omega

/-- **`compute_graph_stats` is the degree-distribution aggregator.**  For every
resident graph and every `nd`, `num_frozen_pts` with `0 < T = nd + num_frozen_pts ≤
|graph|` and every threshold, the result counts `T` nodes and aggregates exactly the
degrees of `graph[0..T)`; hence `min · T ≤ total_edges ≤ max · T`, and the result does
not change when `graph[0..T)` is permuted. -/
theorem computeGraphStats_spec (graph : Graph) (nd numFrozenPts : Nat) (ep w : UInt32)
    (hpos : 0 < nd + numFrozenPts) (hle : nd + numFrozenPts ≤ graph.nbrs.length) :
    let T := nd + numFrozenPts
    let ds := (graph.nbrs.take T).map List.length
    let s := computeGraphStats graph nd numFrozenPts ep w
    s.totalNodes = T ∧ s.Aggregates w.toNat ds ∧
      s.degreeMin * T ≤ s.totalEdges ∧ s.totalEdges ≤ s.degreeMax * T ∧
      ∀ graph' : Graph, T ≤ graph'.nbrs.length → (graph'.nbrs.take T).Perm (graph.nbrs.take T) →
        computeGraphStats graph' nd numFrozenPts ep w = s := by
  intro T ds s
  have hsum : ds.sum < 2 ^ 62 := graph.sum_take_lt T
  have hlen : ds.length = T := by simp [ds, T]; omega
  have hagg : s.Aggregates w.toNat ds := by
    rw [show s = _ from computeGraphStats_eq graph nd numFrozenPts ep w hpos hle]
    refine .of_ofList (by omega) (by have := graph.resident; omega) ?_ rfl rfl rfl rfl
    intro d hd
    have := List.single_le_sum (fun _ _ => Nat.zero_le _) d hd
    simp only [sizeMax]; omega
  refine ⟨by simp only [s, computeGraphStats_eq graph nd numFrozenPts ep w hpos hle], hagg,
    by simpa [hlen, Nat.mul_comm] using hagg.mul_degreeMin_le,
    by simpa [hlen, Nat.mul_comm] using hagg.le_mul_degreeMax, ?_⟩
  intro graph' hle' hperm
  show _ = computeGraphStats graph nd numFrozenPts ep w
  simp only [computeGraphStats_eq graph' nd numFrozenPts ep w hpos hle',
    computeGraphStats_eq graph nd numFrozenPts ep w hpos hle, DegreeAcc.ofList,
    (hperm.map List.length).foldl_eq]

/-- The degrees `[0, 1, 2, 3, 1]` of the specification's weak-node example. -/
def weakExample : Graph := ⟨[[], [0], [0, 1], [0, 1, 2], [4]], by decide⟩

theorem weakExample_weakCount : 0 < 5 + 0 ∧ 5 + 0 ≤ weakExample.nbrs.length ∧
    (computeGraphStats weakExample 5 0 0 2).weakCount = 3 :=
  ⟨by decide, by decide, by
    rw [(computeGraphStats_spec weakExample 5 0 0 2 (by decide) (by decide)).2.1.weakCount_eq]
    decide⟩

end Pipeann
