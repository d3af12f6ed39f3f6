import IndexInspector.GraphFile

/-!
# The disk-index reader (layout C)

A disk index starts with a header, either tagged (two `int32_t`s, then five `uint64_t`s
at 8) or untagged (the five `uint64_t`s at 0), and holds its records in 4096-byte pages
from offset 4096: page `sec`, slot `j` is node `sec * nnodes_per_sector + j`, at byte
`j * max_node_len` of the page, with its `uint32_t` degree after `n_dims * elem_size`
bytes of coordinates and its ids after that.

The three readers of `graph_stats.cpp` share the header resolver, the geometry test and a
doubly nested loop over pages and slots; they differ in what they do with a slot.  The
loop skeleton is `pageLoop` over `slotLoop`, and the bodies are `diskAdjacencyBody` and
`diskSmallGraphBody` (the stats reader only aggregates the degree).

## Design Notes

* Every `uint64_t`/`size_t` value the code computes from header fields is written with its
  `% 2 ^ 64`: the products `n_dims * esz` and `j * max_node_len`, the sums in the in-page
  tests, the node id and the sector count.  The byte a `memcpy` starts at is the buffer's
  start advanced by such a value, so on a flat 64-bit address space it is that value
  modulo `2 ^ 64`.
* A `memcpy` from outside the 4096-byte buffer is undefined behaviour; `sectorLoad` yields
  `none` there, and a whole run that performs one is `none`.
* `slotLoop` and `pageLoop` are the loops as written; `pageSlots` and `diskSlots` are the
  slots they visit when no `more` guard stops them, and `pageLoop_eq_foldSlots` says each
  reader folds its body over those slots.
* The small-graph printer sizes two vectors by `num_nodes`, clamped to `disk_nnodes`, before
  its loop; past `max_size()` their constructor throws `std::length_error`, the printer
  writes nothing, and `smallGraphFromDiskIndexThrows` says when.
-/

namespace Pipeann

/-- `DiskIndexDataType`. -/
inductive DiskIndexDataType where
  | kFloat
  | kUint8
  | kInt8
  deriving Repr, DecidableEq

/-- `elem_size(t)`, the size of one coordinate. -/
def elemSize : DiskIndexDataType → Nat
  | .kFloat => 4
  | .kUint8 => 1
  | .kInt8 => 1

/-- `kDiskIndexDataOffset`. -/
def kDiskIndexDataOffset : Nat := 4096

/-- `kSectorLen`. -/
def kSectorLen : Nat := 4096

/-- The five header fields `disk_nnodes, disk_ndims, medoid_id_on_file, max_node_len,
nnodes_per_sector`. -/
structure DiskHeader where
  nNodes : Nat
  nDims : Nat
  medoid : Nat
  maxNodeLen : Nat
  nodesPerSector : Nat
  deriving Repr, DecidableEq

/-- The five `uint64_t` reads at `pos`, followed by one `in.good()` test. -/
def readDiskFields (f : File) (pos : Nat) : Option DiskHeader := do
  let nNodes ← readLE f pos 8
  let nDims ← readLE f (pos + 8) 8
  let medoid ← readLE f (pos + 16) 8
  let maxNodeLen ← readLE f (pos + 24) 8
  let nodesPerSector ← readLE f (pos + 32) 8
  pure ⟨nNodes, nDims, medoid, maxNodeLen, nodesPerSector⟩

/-- The header resolver of the three readers: the tagged format when both tag reads succeed
and `meta_npts >= 5` as an `int32_t`, the untagged one at offset 0 otherwise. -/
def readDiskHeader (f : File) : Option DiskHeader :=
  match readLE f 0 4, readLE f 4 4 with
  | some metaNpts, some _ => if toInt32 metaNpts ≥ 5 then readDiskFields f 8 else readDiskFields f 0
  | _, _ => readDiskFields f 0

/-- `nhood_offset_in_node = data_dim * esz`, a `size_t`. -/
def nhoodOffset (h : DiskHeader) (esz : Nat) : Nat := h.nDims * esz % 2 ^ 64

/-- The geometry the readers accept: not `max_node_len < data_dim * esz + sizeof(uint32_t)
|| max_node_len > kSectorLen`. -/
def geometryOk (h : DiskHeader) (esz : Nat) : Bool :=
  !(decide (h.maxNodeLen < (nhoodOffset h esz + 4) % 2 ^ 64) || decide (h.maxNodeLen > kSectorLen))

/-- `n_sectors = (disk_nnodes + nnodes_per_sector - 1) / nnodes_per_sector`, in `uint64_t`
and for `nnodes_per_sector ≥ 1`. -/
def nSectors (h : DiskHeader) : Nat := (h.nNodes + h.nodesPerSector - 1) % 2 ^ 64 / h.nodesPerSector

/-! ### The loop skeleton and the slots -/

/-- A slot a reader reaches: its page buffer, its `node_id`, and the offset of its degree
field in the buffer, `offset_in_sector + nhood_offset_in_node`. -/
structure Slot where
  sector : List UInt8
  nodeId : Nat
  degOff : Nat

/-- The slot loop over page `sec` from slot `j`, with `fuel` slots left: stop at a node id
past `disk_nnodes` or a degree field past the page, else copy the degree and run the body
on the slot. -/
def slotLoop {σ : Type} (h : DiskHeader) (esz : Nat) (sector : List UInt8) (sec : Nat)
    (more : σ → Bool) (body : σ → Slot → Nat → Option σ) : Nat → Nat → σ → Option σ
  | 0, _, s => some s
  | fuel + 1, j, s =>
    if more s then
      let nodeId := (sec * h.nodesPerSector + j) % 2 ^ 64
      let offsetInSector := j * h.maxNodeLen % 2 ^ 64
      if nodeId ≥ h.nNodes then some s
      else if ((offsetInSector + nhoodOffset h esz) % 2 ^ 64 + 4) % 2 ^ 64 > kSectorLen then some s
      else do
        let degOff := (offsetInSector + nhoodOffset h esz) % 2 ^ 64
        let nnbrs ← sectorLoad sector degOff 4
        let s' ← body s ⟨sector, nodeId, degOff⟩ (leNat nnbrs)
        slotLoop h esz sector sec more body fuel (j + 1) s'
    else some s

/-- The page loop from page `sec`, with `fuel` pages left: read the page, `break` when
the read fails, else run the slot loop on it. -/
def pageLoop {σ : Type} (f : File) (h : DiskHeader) (esz : Nat) (more : σ → Bool)
    (body : σ → Slot → Nat → Option σ) : Nat → Nat → σ → Option σ
  | 0, _, s => some s
  | fuel + 1, sec, s =>
    if more s then
      match readPage f (kDiskIndexDataOffset + sec * kSectorLen) with
      | none => some s
      | some sector => do
        let s' ← slotLoop h esz sector sec more body h.nodesPerSector 0 s
        pageLoop f h esz more body fuel (sec + 1) s'
    else some s

/-- The slots of a page the slot loop reaches when no `more` guard stops it. -/
def pageSlots (h : DiskHeader) (esz : Nat) (sector : List UInt8) (sec : Nat) :
    Nat → Nat → List Slot
  | 0, _ => []
  | fuel + 1, j =>
    let nodeId := (sec * h.nodesPerSector + j) % 2 ^ 64
    let offsetInSector := j * h.maxNodeLen % 2 ^ 64
    if nodeId ≥ h.nNodes then []
    else if ((offsetInSector + nhoodOffset h esz) % 2 ^ 64 + 4) % 2 ^ 64 > kSectorLen then []
    else ⟨sector, nodeId, (offsetInSector + nhoodOffset h esz) % 2 ^ 64⟩ ::
      pageSlots h esz sector sec fuel (j + 1)

/-- The slots of a disk index the page loop reaches when no `more` guard stops it. -/
def diskSlots (f : File) (h : DiskHeader) (esz : Nat) : Nat → Nat → List Slot
  | 0, _ => []
  | fuel + 1, sec =>
    match readPage f (kDiskIndexDataOffset + sec * kSectorLen) with
    | none => []
    | some sector => pageSlots h esz sector sec h.nodesPerSector 0 ++ diskSlots f h esz fuel (sec + 1)

/-- A body run over a list of slots while `more` holds, copying each degree first. -/
def foldSlots {σ : Type} (more : σ → Bool) (body : σ → Slot → Nat → Option σ) :
    σ → List Slot → Option σ
  | s, [] => some s
  | s, sl :: sls =>
    if more s then do
      let nnbrs ← sectorLoad sl.sector sl.degOff 4
      let s' ← body s sl (leNat nnbrs)
      foldSlots more body s' sls
    else some s

section Fold

variable {σ : Type} (more : σ → Bool) (body : σ → Slot → Nat → Option σ)

@[simp] theorem foldSlots_nil (s : σ) : foldSlots more body s [] = some s := rfl

theorem foldSlots_of_not_more {s : σ} (hs : more s = false) (sls : List Slot) :
    foldSlots more body s sls = some s := by
  cases sls <;> simp [foldSlots, hs]

theorem foldSlots_append (s : σ) (sls sls' : List Slot) :
    foldSlots more body s (sls ++ sls') = (foldSlots more body s sls).bind
      fun s' => foldSlots more body s' sls' := by
  induction sls generalizing s with
  | nil => rfl
  | cons sl sls ih =>
    by_cases hs : more s = true
    · simp only [List.cons_append, foldSlots, hs, if_true, Option.bind_eq_bind]
      cases sectorLoad sl.sector sl.degOff 4 with
      | none => rfl
      | some d =>
        simp only [Option.some_bind]
        cases body s sl (leNat d) with
        | none => rfl
        | some s' => exact ih s'
    · have hs : more s = false := by simpa using hs
      simp [foldSlots_of_not_more more body hs]

/-- **The loop⇄fold characterization of a page.** -/
theorem slotLoop_eq_foldSlots (h : DiskHeader) (esz : Nat) (sector : List UInt8) (sec : Nat)
    (fuel j : Nat) (s : σ) :
    slotLoop h esz sector sec more body fuel j s =
      foldSlots more body s (pageSlots h esz sector sec fuel j) := by
  induction fuel generalizing j s with
  | zero => rfl
  | succ fuel ih =>
    by_cases hs : more s = true
    · simp only [slotLoop, pageSlots, hs, if_true]
      split
      · rfl
      · split
        · rfl
        · simp only [foldSlots, hs, if_true, ih]
    · have hs : more s = false := by simpa using hs
      simp [slotLoop, hs, foldSlots_of_not_more more body hs]

/-- **The loop⇄fold characterization of a disk index**: each reader folds its body over
the slots of `diskSlots`. -/
theorem pageLoop_eq_foldSlots (f : File) (h : DiskHeader) (esz : Nat) (fuel sec : Nat) (s : σ) :
    pageLoop f h esz more body fuel sec s = foldSlots more body s (diskSlots f h esz fuel sec) := by
  induction fuel generalizing sec s with
  | zero => rfl
  | succ fuel ih =>
    by_cases hs : more s = true
    · simp only [pageLoop, diskSlots, hs, if_true]
      split
      · rfl
      · simp only [slotLoop_eq_foldSlots, foldSlots_append, ih, Option.bind_eq_bind]
    · have hs : more s = false := by simpa using hs
      simp [pageLoop, hs, foldSlots_of_not_more more body hs]

end Fold

/-! ### `compute_graph_stats_from_disk_index` -/

/-- The body of its slot loop: aggregate the degree. -/
def diskStatsBody (acc : DegreeAcc) (_ : Slot) (nnbrs : Nat) : Option DegreeAcc :=
  some (acc.add 2 nnbrs)

/-- The result it assembles after the page loop: the node counts and the entry point come
from the header, the degree figures from the aggregates. -/
def diskStats (h : DiskHeader) (acc : DegreeAcc) : GraphStats where
  totalNodes := h.nNodes
  activeNodes := h.nNodes
  frozenNodes := 0
  totalEdges := acc.totalEdges
  degreeMin := acc.finalMin
  degreeAvg := if h.nNodes > 0 then acc.totalEdges.toFloat / h.nNodes.toFloat else 0.0
  degreeMax := acc.degreeMax
  weakCount := acc.weakCount
  entryPoint := UInt32.ofNat h.medoid

/-- `compute_graph_stats_from_disk_index(path, data_type)`; `none` is a file that does not
open on the input side and an undefined run on the output side. -/
def computeGraphStatsFromDiskIndex (file : Option File) (dataType : DiskIndexDataType) :
    Option GraphStats :=
  match file with
  | none => some {}
  | some f =>
    match readDiskHeader f with
    | none => some {}
    | some h =>
      let esz := elemSize dataType
      if geometryOk h esz then
        if h.nodesPerSector = 0 then
          some { totalNodes := h.nNodes, activeNodes := h.nNodes, frozenNodes := 0,
                 entryPoint := UInt32.ofNat h.medoid }
        else
          (pageLoop f h esz (fun _ => true) diskStatsBody (nSectors h) 0 DegreeAcc.init).map
            (diskStats h)
      else some {}

/-! ### `print_adjacency_sample_from_disk_index` -/

/-- The line it prints for a slot of degree `nnbrs`: the first `to_show` ids when they lie
inside the page and none otherwise, then the total figure. -/
def diskAdjacencyLine (maxNbrs : Nat) (sl : Slot) (nnbrs : Nat) : Option NodeLine := do
  let t := toShow maxNbrs nnbrs
  let nbrBytes := t * 4
  let idsOff := (sl.degOff + 4) % 2 ^ 64
  let shown ← if t > 0 ∧ (idsOff + nbrBytes) % 2 ^ 64 ≤ kSectorLen then
      (sectorLoad sl.sector idsOff nbrBytes).map (leU32s t)
    else some []
  pure ⟨sl.nodeId, shown, totalOf maxNbrs nnbrs, none⟩

/-- The body of its slot loop: print the slot's line and count it. -/
def diskAdjacencyBody (maxNbrs : Nat) (s : Nat × List NodeLine) (sl : Slot) (nnbrs : Nat) :
    Option (Nat × List NodeLine) :=
  (diskAdjacencyLine maxNbrs sl nnbrs).map fun l => (s.1 + 1, s.2 ++ [l])

/-- `print_adjacency_sample_from_disk_index(path, data_type, num_nodes,
max_neighbors_per_node, out)`. -/
def printAdjacencySampleFromDiskIndex (path : String) (file : Option File)
    (dataType : DiskIndexDataType) (numNodes maxNbrs : Nat) : Option (List OutLine) :=
  match file with
  | none => some [.couldNotOpen path]
  | some f =>
    match readDiskHeader f with
    | none => some []
    | some h =>
      let esz := elemSize dataType
      if h.nodesPerSector = 0 then some []
      else if geometryOk h esz then do
        let r ← pageLoop f h esz (fun s => s.1 < numNodes) (diskAdjacencyBody maxNbrs) (nSectors h) 0
          (0, [])
        pure (.adjacencyHeader numNodes h.medoid :: r.2.map .node)
      else some []

/-! ### `print_small_graph_from_disk_index` -/

/-- The ids it stores for a slot of degree `nnbrs`: the degree clamped to the whole ids
that fit before the end of the page, then copied.  The slot test keeps
`idsOff ≤ kSectorLen`, so `kSectorLen - idsOff` does not wrap. -/
def diskStoredIds (sl : Slot) (nnbrs : Nat) : Option (List UInt32) :=
  let idsOff := (sl.degOff + 4) % 2 ^ 64
  let nbrCap := if (idsOff + nnbrs * 4) % 2 ^ 64 > kSectorLen then (kSectorLen - idsOff) / 4 else nnbrs
  if nbrCap > 0 then (sectorLoad sl.sector idsOff (nbrCap * 4)).map (leU32s nbrCap) else some []

/-- The body of its slot loop: store the ids in `out_nbrs[nodes_read]` and push the
reverse edges. -/
def diskSmallGraphBody (numNodes : Nat) (s : SmallGraphScan) (sl : Slot) (nnbrs : Nat) :
    Option SmallGraphScan :=
  (diskStoredIds sl nnbrs).map fun nbrs =>
    ⟨s.nodeId + 1, s.outNbrs.set s.nodeId nbrs, pushInNbrs numNodes s.nodeId s.inNbrs nbrs⟩

/-- `print_small_graph_from_disk_index(path, data_type, num_nodes, max_neighbors_per_node,
out)`: the lines it writes to `out`.  It writes none when its `out_nbrs(num_nodes)` throws,
which `smallGraphFromDiskIndexThrows` tells. -/
def printSmallGraphFromDiskIndex (path : String) (file : Option File)
    (dataType : DiskIndexDataType) (numNodes maxNbrs : Nat) : Option (List OutLine) :=
  match file with
  | none => some [.couldNotOpen path]
  | some f =>
    match readDiskHeader f with
    | none => some []
    | some h =>
      let esz := elemSize dataType
      if h.nodesPerSector = 0 then some []
      else if geometryOk h esz then do
        let n := if numNodes > h.nNodes then h.nNodes else numNodes
        if n > kVectorMaxSize then some [] else
        let s ← pageLoop f h esz (fun s => s.nodeId < n) (diskSmallGraphBody n) (nSectors h) 0
          ⟨0, List.replicate n [], List.replicate n []⟩
        let r := shrinkSample n s.nodeId s.outNbrs s.inNbrs
        pure (.smallGraphHeader r.1 h.medoid :: (smallGraphLines maxNbrs r.1 r.2.1 r.2.2).map .node)
      else some []

/-- Whether `print_small_graph_from_disk_index` throws `std::length_error`: the header reads,
passes the `nnodes_per_sector` and geometry tests, and `out_nbrs(num_nodes)`, with
`num_nodes` clamped to `disk_nnodes`, asks for more than `max_size()`. -/
def smallGraphFromDiskIndexThrows (file : Option File) (dataType : DiskIndexDataType)
    (numNodes : Nat) : Bool :=
  match file with
  | none => false
  | some f =>
    match readDiskHeader f with
    | none => false
    | some h =>
      h.nodesPerSector != 0 && geometryOk h (elemSize dataType) &&
        decide ((if numNodes > h.nNodes then h.nNodes else numNodes) > kVectorMaxSize)

end Pipeann
