import IndexInspector.Stats
import IndexInspector.Report

/-!
# The sequential graph scanner (layouts A and B)

The persisted graph is a 24-byte header `expected_file_size:u64, width:u32, ep:u32,
num_frozen_pts:u64` at some `offset`, followed by records `degree:u32, ids:u32[degree]`
until a running byte counter `bytes_read`, started at 24, equals
`expected_file_size`.  Three functions of `graph_stats.cpp` walk it, each with its own
copy of the loop

```
while (bytes_read != expected_file_size [&& node_id < num_nodes] && in.good()) {
  in.read(&k, 4); if (!in.good()) break;
  ...body...
  bytes_read += 4 + 4 * k;
}
```

`recordLoop` is that skeleton, once; `statsBody`, `adjacencyBody` and `smallGraphBody`
are the three bodies, each read off its function.  A body returns `ForInStep.done` for
a `break` (or for a failed seek, which the next `in.good()` test turns into one) and
`ForInStep.yield` to continue.  `bytes_read` cannot wrap: it exceeds the stream
position by a constant, and a record that starts inside a file of fewer than `2 ^ 63`
bytes ends below `2 ^ 63 + 2 ^ 34`.

The small-graph printer sizes two vectors by `num_nodes` before its loop.  Past
`max_size()` their constructor throws `std::length_error`: the printer writes nothing,
and `smallGraphFromFileThrows` says when `main` sees the exception.

## The walk

`walk` is the record sequence itself: the degree fields the loop reads when no body
ever breaks.  `recordLoop_eq_foldSteps` is the loop⇄fold characterization — every
walker is `foldSteps` of its body over the walk — and `Laid` records the shape of a
walk: records lie end to end, each degree field inside the file, so every record but
the last lies wholly inside it.  Every fact about the three walkers is a list induction
over a laid walk.
-/

namespace Pipeann

/-- `kGraphHeaderSize`. -/
def kGraphHeaderSize : Nat := 24

/-- The header fields of the persisted graph. -/
structure GraphHeader where
  expectedFileSize : Nat
  width : Nat
  ep : Nat
  numFrozenPts : Nat

/-- The four header reads at `offset`, followed by one `in.good()` test. -/
def readGraphHeader (f : File) (offset : Nat) : Option GraphHeader := do
  let expectedFileSize ← readLE f offset 8
  let width ← readLE f (offset + 8) 4
  let ep ← readLE f (offset + 12) 4
  let numFrozenPts ← readLE f (offset + 16) 8
  pure ⟨expectedFileSize, width, ep, numFrozenPts⟩

/-! ### The loop skeleton and the walk -/

/-- The record loop shared by the three walkers.  `more` is the walker's extra guard,
`body s k idsPos` the rest of an iteration after the degree `k` was read, with the
stream at the record's ids. -/
def recordLoop {σ : Type} (f : File) (expected : Nat) (more : σ → Bool)
    (body : σ → Nat → Nat → ForInStep σ) (s : σ) (bytesRead pos : Nat) : σ :=
  if bytesRead ≠ expected ∧ more s then
    match _hk : readLE f pos 4 with
    | none => s
    | some k =>
      match body s k (pos + 4) with
      | .done s' => s'
      | .yield s' => recordLoop f expected more body s' (bytesRead + 4 + 4 * k) (pos + 4 + 4 * k)
  else s
termination_by f.bytes.length - pos
decreasing_by have := readLE_some_le _hk; omega

/-- A record met by the walk: its degree and the position of its ids. -/
structure Rec where
  degree : Nat
  idsPos : Nat
  deriving Repr, DecidableEq

/-- The records of the persisted graph from position `pos` with counter `bytesRead`:
read a degree, step over `4 + 4 * degree` bytes, until the counter meets `expected` or
a degree read fails. -/
def walk (f : File) (expected bytesRead pos : Nat) : List Rec :=
  if bytesRead ≠ expected then
    match h : readLE f pos 4 with
    | none => []
    | some k => ⟨k, pos + 4⟩ :: walk f expected (bytesRead + 4 + 4 * k) (pos + 4 + 4 * k)
  else []
termination_by f.bytes.length - pos
decreasing_by have := readLE_some_le h; omega

/-- A body run over a list of records, stopping at its first `done` or when `more` fails. -/
def foldSteps {σ : Type} (more : σ → Bool) (body : σ → Nat → Nat → ForInStep σ) :
    σ → List Rec → σ
  | s, [] => s
  | s, r :: rs =>
    if more s then
      match body s r.degree r.idsPos with
      | .done s' => s'
      | .yield s' => foldSteps more body s' rs
    else s

@[simp] theorem foldSteps_nil {σ : Type} (more : σ → Bool) (body : σ → Nat → Nat → ForInStep σ)
    (s : σ) : foldSteps more body s [] = s := rfl

/-- **The loop⇄fold characterization**: each walker folds its body over the walk. -/
theorem recordLoop_eq_foldSteps {σ : Type} (f : File) (expected : Nat) (more : σ → Bool)
    (body : σ → Nat → Nat → ForInStep σ) (s : σ) (bytesRead pos : Nat) :
    recordLoop f expected more body s bytesRead pos =
      foldSteps more body s (walk f expected bytesRead pos) := by
  induction bytesRead, pos using walk.induct f expected generalizing s with
  | case1 br pos hb h =>
    rw [recordLoop, walk]
    split <;> split <;> simp_all [foldSteps]
  | case2 br pos hb k h ih =>
    rw [recordLoop, walk, if_pos hb]
    by_cases hm : more s = true
    · rw [if_pos ⟨hb, hm⟩]
      split
      · rename_i hnone
        cases h.symm.trans hnone
      · rename_i k' h'
        obtain rfl : k' = k := Option.some.inj (h'.symm.trans h)
        simp only [h, foldSteps, hm, if_true]
        split
        · rfl
        · exact ih _
    · rw [if_neg (by simp [hm])]
      split <;> simp [foldSteps, hm]
  | case3 br pos hb =>
    rw [recordLoop, walk]; simp_all [foldSteps]

/-- `rs` are records laid end to end from `pos`, each degree field read from the file. -/
inductive Laid (f : File) : Nat → List Rec → Prop
  | nil (pos : Nat) : Laid f pos []
  | cons (pos k : Nat) (rs : List Rec) :
      readLE f pos 4 = some k → Laid f (pos + 4 + 4 * k) rs → Laid f pos (⟨k, pos + 4⟩ :: rs)

theorem walk_laid (f : File) (expected bytesRead pos : Nat) :
    Laid f pos (walk f expected bytesRead pos) := by
  induction bytesRead, pos using walk.induct f expected with
  | case1 br pos hb h => rw [walk, if_pos hb]; split <;> simp_all [Laid.nil]
  | case2 br pos hb k h ih =>
    rw [walk, if_pos hb]
    split
    · rename_i hnone
      cases h.symm.trans hnone
    · rename_i k' h'
      obtain rfl : k' = k := Option.some.inj (h'.symm.trans h)
      exact .cons _ _ _ h ih
  | case3 br pos hb => rw [walk, if_neg hb]; exact .nil _

/-- A record with a successor lies wholly inside the file. -/
theorem Laid.complete {f : File} {pos : Nat} {r r' : Rec} {rs : List Rec}
    (h : Laid f pos (r :: r' :: rs)) : r.idsPos + 4 * r.degree + 4 ≤ f.bytes.length := by
  cases h with
  | cons _ k _ _ htail =>
    cases htail with
    | cons _ k' _ hk' _ => have := readLE_some_le hk'; simp only; omega

theorem Laid.tail {f : File} {pos : Nat} {r : Rec} {rs : List Rec} (h : Laid f pos (r :: rs)) :
    Laid f (r.idsPos + 4 * r.degree) rs := by
  cases h with
  | cons _ k _ _ htail => simpa [Nat.add_assoc] using htail

theorem Laid.idsPos_le {f : File} {pos : Nat} {r : Rec} {rs : List Rec} (h : Laid f pos (r :: rs)) :
    r.idsPos ≤ f.bytes.length := by
  cases h with
  | cons _ k _ hk _ => have := readLE_some_le hk; simp only; omega

/-! ### `compute_graph_stats_from_file` -/

/-- The body of its loop: aggregate the degree, count the node, then seek past the
ids, `break`ing when the seek fails. -/
def statsBody (s : Nat × DegreeAcc) (k idsPos : Nat) : ForInStep (Nat × DegreeAcc) :=
  let s' := (s.1 + 1, s.2.add 2 k)
  if seekOk (idsPos + 4 * k) then .yield s' else .done s'

/-- The result `compute_graph_stats_from_file` assembles after its loop from the header,
the node count and the accumulators. -/
def fileStats (h : GraphHeader) (nodes : Nat) (acc : DegreeAcc) : GraphStats where
  totalNodes := nodes
  activeNodes := if nodes ≥ h.numFrozenPts then nodes - h.numFrozenPts else 0
  frozenNodes := h.numFrozenPts
  totalEdges := acc.totalEdges
  degreeMin := acc.finalMin
  degreeAvg := if nodes > 0 then acc.totalEdges.toFloat / nodes.toFloat else 0.0
  degreeMax := acc.degreeMax
  weakCount := acc.weakCount
  entryPoint := UInt32.ofNat h.ep

/-- `compute_graph_stats_from_file(path, offset)`; `none` is a file that does not open. -/
def computeGraphStatsFromFile (file : Option File) (offset : Nat) : GraphStats :=
  match file with
  | none => {}
  | some f =>
    if seekOk offset then
      match readGraphHeader f offset with
      | none => {}
      | some h =>
        let r := recordLoop f h.expectedFileSize (fun _ => true) statsBody (0, DegreeAcc.init)
          kGraphHeaderSize (offset + kGraphHeaderSize)
        fileStats h r.1 r.2
    else {}

/-- Over a laid walk the stats loop counts and aggregates every record: a failing seek
can only end the last one. -/
theorem foldSteps_statsBody {f : File} {pos : Nat} {rs : List Rec} (h : Laid f pos rs)
    (n : Nat) (acc : DegreeAcc) :
    foldSteps (fun _ => true) statsBody (n, acc) rs =
      (n + rs.length, (rs.map Rec.degree).foldl (DegreeAcc.add 2) acc) := by
  induction rs generalizing pos n acc with
  | nil => rfl
  | cons r rs ih =>
    cases rs with
    | nil =>
      by_cases hs : seekOk (r.idsPos + 4 * r.degree) = true <;> simp [foldSteps, statsBody, hs]
    | cons r' rs =>
      have hc := h.complete
      have hs : seekOk (r.idsPos + 4 * r.degree) = true := by
        have := f.length_lt; simp only [seekOk, decide_eq_true_eq]; omega
      rw [foldSteps]
      simp only [statsBody, hs, if_true]
      rw [ih h.tail]
      simp only [List.length_cons, List.map_cons, List.foldl_cons]
      congr 1; omega

/-! ### `print_adjacency_sample_from_file` -/

/-- The body of its loop: read the first `to_show` ids (`break` before printing when that
read fails), seek past the rest without a check, and print the line; a failed seek ends
the loop at its next `in.good()` test. -/
def adjacencyBody (f : File) (maxNbrs : Nat) (s : Nat × List NodeLine) (k idsPos : Nat) :
    ForInStep (Nat × List NodeLine) :=
  let t := toShow maxNbrs k
  match (if t > 0 then readU32s f idsPos t else some []) with
  | none => .done s
  | some nbrs =>
    let s' := (s.1 + 1, s.2 ++ [⟨s.1, nbrs, totalOf maxNbrs k, none⟩])
    if k > t ∧ ¬ seekOk (idsPos + 4 * k) then .done s' else .yield s'

/-- `print_adjacency_sample_from_file(path, offset, num_nodes, max_neighbors_per_node, out)`. -/
def printAdjacencySampleFromFile (path : String) (file : Option File)
    (offset numNodes maxNbrs : Nat) : List OutLine :=
  match file with
  | none => [.couldNotOpen path]
  | some f =>
    if seekOk offset then
      match readGraphHeader f offset with
      | none => []
      | some h =>
        .adjacencyHeader numNodes h.ep ::
          (recordLoop f h.expectedFileSize (fun s => s.1 < numNodes) (adjacencyBody f maxNbrs)
            (0, []) kGraphHeaderSize (offset + kGraphHeaderSize)).2.map .node
    else [.seekFailed]

/-- The lines the adjacency sampler prints for a list of records, labelled from `id`:
one per record up to the first whose shown ids run past the end of the file. -/
def adjacencyLines (f : File) (maxNbrs : Nat) : Nat → List Rec → List NodeLine
  | _, [] => []
  | id, r :: rs =>
    match readU32s f r.idsPos (toShow maxNbrs r.degree) with
    | none => []
    | some nbrs => ⟨id, nbrs, totalOf maxNbrs r.degree, none⟩ :: adjacencyLines f maxNbrs (id + 1) rs

theorem readU32s_zero {f : File} {pos : Nat} (h : pos ≤ f.bytes.length) : readU32s f pos 0 = some [] := by
  simp [readU32s, h, leU32s]

theorem foldSteps_adjacencyBody {f : File} {pos : Nat} {rs : List Rec} (h : Laid f pos rs)
    (maxNbrs numNodes : Nat) (lines : List NodeLine) :
    foldSteps (fun s => s.1 < numNodes) (adjacencyBody f maxNbrs) (lines.length, lines) rs =
      let new := (adjacencyLines f maxNbrs lines.length rs).take (numNodes - lines.length)
      ((lines ++ new).length, lines ++ new) := by
  induction rs generalizing pos lines with
  | nil => simp [adjacencyLines]
  | cons r rs ih =>
    have hread : (if toShow maxNbrs r.degree > 0 then readU32s f r.idsPos (toShow maxNbrs r.degree)
        else some []) = readU32s f r.idsPos (toShow maxNbrs r.degree) := by
      split
      · rfl
      · rw [show toShow maxNbrs r.degree = 0 by omega, readU32s_zero h.idsPos_le]
    by_cases hn : lines.length < numNodes
    · obtain ⟨m, hm⟩ : ∃ m, numNodes - lines.length = m + 1 := ⟨numNodes - lines.length - 1, by omega⟩
      simp only [foldSteps, adjacencyBody, hread, adjacencyLines, decide_eq_true_eq, if_pos hn, hm]
      cases hr : readU32s f r.idsPos (toShow maxNbrs r.degree) with
      | none => simp
      | some nbrs =>
        have step := ih h.tail (lines ++ [⟨lines.length, nbrs, totalOf maxNbrs r.degree, none⟩])
        simp only [List.length_append, List.length_singleton, show numNodes - (lines.length + 1) = m by omega]
          at step
        simp only [List.take_succ_cons]
        cases rs with
        | nil =>
          by_cases hc : r.degree > toShow maxNbrs r.degree ∧ ¬seekOk (r.idsPos + 4 * r.degree) = true
          · rw [if_pos hc]; simp [adjacencyLines]
          · rw [if_neg hc]; simp [adjacencyLines]
        | cons r' rs' =>
          have hc := h.complete
          have hs : seekOk (r.idsPos + 4 * r.degree) = true := by
            have := f.length_lt; simp only [seekOk, decide_eq_true_eq]; omega
          simp only [hs, not_true_eq_false, and_false, if_false, step]
          simp
          omega
    · simp [foldSteps, if_neg hn, show numNodes - lines.length = 0 by omega]

/-! ### `print_small_graph_from_file` -/

/-- The loop state: `node_id`, `out_nbrs` and `in_nbrs`. -/
structure SmallGraphScan where
  nodeId : Nat
  outNbrs : List (List UInt32)
  inNbrs : List (List UInt32)

/-- The body of its loop: read all `k` ids (`break` when the read fails), store them in
`out_nbrs[node_id]` and push the reverse edges inside the sample. -/
def smallGraphBody (f : File) (numNodes : Nat) (s : SmallGraphScan) (k idsPos : Nat) :
    ForInStep SmallGraphScan :=
  match (if k > 0 then readU32s f idsPos k else some []) with
  | none => .done s
  | some nbrs =>
    .yield ⟨s.nodeId + 1, s.outNbrs.set s.nodeId nbrs, pushInNbrs numNodes s.nodeId s.inNbrs nbrs⟩

/-- `print_small_graph_from_file(path, offset, num_nodes, max_neighbors_per_node, out)`: the
lines it writes to `out`.  It writes none when its `out_nbrs(num_nodes)` throws, which
`smallGraphFromFileThrows` tells. -/
def printSmallGraphFromFile (path : String) (file : Option File)
    (offset numNodes maxNbrs : Nat) : List OutLine :=
  match file with
  | none => [.couldNotOpen path]
  | some f =>
    if seekOk offset then
      match readGraphHeader f offset with
      | none => []
      | some h =>
        if numNodes > kVectorMaxSize then [] else
        let s := recordLoop f h.expectedFileSize (fun s => s.nodeId < numNodes)
          (smallGraphBody f numNodes) ⟨0, List.replicate numNodes [], List.replicate numNodes []⟩
          kGraphHeaderSize (offset + kGraphHeaderSize)
        let r := shrinkSample numNodes s.nodeId s.outNbrs s.inNbrs
        .smallGraphHeader r.1 h.ep :: (smallGraphLines maxNbrs r.1 r.2.1 r.2.2).map .node
    else [.seekFailed]

/-- Whether `print_small_graph_from_file` throws `std::length_error`: the file opens, the seek
and the header read succeed, and `out_nbrs(num_nodes)` asks for more than `max_size()`. -/
def smallGraphFromFileThrows (file : Option File) (offset numNodes : Nat) : Bool :=
  match file with
  | none => false
  | some f => seekOk offset && (readGraphHeader f offset).isSome && decide (numNodes > kVectorMaxSize)

/-- The id arrays the small graph stores for a list of records: one per record up to
the first whose ids run past the end of the file. -/
def storedIds (f : File) : List Rec → List (List UInt32)
  | [] => []
  | r :: rs =>
    match readU32s f r.idsPos r.degree with
    | none => []
    | some nbrs => nbrs :: storedIds f rs

theorem foldSteps_smallGraphBody {f : File} {pos : Nat} {rs : List Rec} (h : Laid f pos rs)
    (numNodes : Nat) (outs : List (List UInt32)) (hle : outs.length ≤ numNodes) :
    let new := outs ++ (storedIds f rs).take (numNodes - outs.length)
    foldSteps (fun s => s.nodeId < numNodes) (smallGraphBody f numNodes)
        ⟨outs.length, (sampleState numNodes outs).1, (sampleState numNodes outs).2⟩ rs =
      ⟨new.length, (sampleState numNodes new).1, (sampleState numNodes new).2⟩ := by
  induction rs generalizing pos outs with
  | nil => simp [storedIds]
  | cons r rs ih =>
    have hread : (if r.degree > 0 then readU32s f r.idsPos r.degree else some []) =
        readU32s f r.idsPos r.degree := by
      split
      · rfl
      · rw [show r.degree = 0 by omega, readU32s_zero h.idsPos_le]
    by_cases hn : outs.length < numNodes
    · obtain ⟨m, hm⟩ : ∃ m, numNodes - outs.length = m + 1 := ⟨numNodes - outs.length - 1, by omega⟩
      rw [foldSteps]
      simp only [smallGraphBody, hread, storedIds, decide_eq_true_eq, if_pos hn, hm]
      cases hr : readU32s f r.idsPos r.degree with
      | none => simp
      | some nbrs =>
        have hstep := sampleState_snoc numNodes outs nbrs hn
        dsimp only
        rw [show (sampleState numNodes outs).1.set outs.length nbrs
            = (sampleState numNodes (outs ++ [nbrs])).1 from congrArg Prod.fst hstep,
          show pushInNbrs numNodes outs.length (sampleState numNodes outs).2 nbrs
            = (sampleState numNodes (outs ++ [nbrs])).2 from congrArg Prod.snd hstep]
        have := ih h.tail (outs ++ [nbrs]) (by simp; omega)
        simp only [List.length_append, List.length_singleton,
          show numNodes - (outs.length + 1) = m by omega] at this
        rw [this, List.take_succ_cons, List.append_assoc, List.singleton_append]
        simp only [List.length_append, List.length_cons, SmallGraphScan.mk.injEq, and_true]
        omega
    · simp [foldSteps, if_neg hn, show numNodes - outs.length = 0 by omega]

end Pipeann
