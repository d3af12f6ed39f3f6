import IndexInspector.DiskSamplers

/-!
# What every reader reports

The two layouts have a stats reader, an adjacency sampler and a small-graph printer each.
This module states what the readers of both layouts have in common. The stats readers
aggregate exactly the degrees they copy, and report zero degree figures with zero nodes.
The small-graph printers print the transpose of the out-lists they store, and both
samplers of each layout decode a well-formed encoding.

## Main results

* `statsReaders_countDecoded` — on every byte string, the layout-A stats scan counts the
  records whose degree it read and aggregates their degrees; the disk-index reader takes
  its node count from the header and aggregates the degrees it copies from the visited
  slots.
* `statsReaders_zeroNodes` — with a zero node count every stats reader returns zero degree
  figures, and keeps the entry point (and, for layout A, the frozen count) it was given
  or read: all-zero stats exactly when no header reads, or when a disk header fails the
  geometry test.
* `smallGraphs_transpose` — on every byte string and for a sample of at most `2 ^ 32`
  lines, the `referenced_by` list of each printed line is the transpose of the stored
  out-lists, for both small-graph printers.
* `samplers_decode_wellFormed` — on a layout-A encoding and on a tagged disk index of a
  consistent geometry, both samplers print the first `min N |g|` nodes with their capped
  out-lists; the small graph does so when its sample fits `max_size()`, and
  `tenNodes_hugeSmallGraph` shows a layout-A one that throws instead.

## Design Notes

`promisedLine` and `TransposeView` are written from the format's description, not from
the printers; each is linked to the printers by a lemma (`promisedLine_eq`,
`sampleLines_transposeView`) and never unfolded afterwards.
-/

namespace Pipeann

/-! ### Lists read through `mapM` -/

theorem mem_of_mapM_eq_some {α β : Type} {f : α → Option β} :
    ∀ {l : List α} {l' : List β}, l.mapM f = some l' → ∀ y ∈ l', ∃ x ∈ l, f x = some y
  | [], l', h, y, hy => by cases h; cases hy
  | x :: l, l', h, y, hy => by
    simp only [List.mapM_cons, Option.bind_eq_bind, Option.bind_eq_some, Option.pure_def,
      Option.some.injEq] at h
    obtain ⟨z, hz, zs, hzs, rfl⟩ := h
    rcases List.mem_cons.mp hy with rfl | hy
    · exact ⟨x, List.mem_cons_self x l, hz⟩
    · obtain ⟨x', hx', hfx⟩ := mem_of_mapM_eq_some hzs y hy
      exact ⟨x', List.mem_cons_of_mem x hx', hfx⟩

/-! ### The stats readers count what they decode -/

theorem slotDegree_lt {sl : Slot} {d : Nat} (h : slotDegree sl = some d) : d < 2 ^ 32 := by
  unfold slotDegree sectorLoad at h
  split at h
  · simp only [Option.map_some', Option.some.injEq] at h
    subst h
    have := leNat_lt ((sl.sector.drop sl.degOff).take 4)
    simp only [List.length_take, List.length_drop] at this
    have h4 : 256 ^ min 4 (sl.sector.length - sl.degOff) ≤ 256 ^ 4 :=
      Nat.pow_le_pow_right (by decide) (Nat.min_le_left _ _)
    omega
  · cases h

theorem nNodes_lt_of_readDiskFields {f : File} {pos : Nat} {h : DiskHeader}
    (hh : readDiskFields f pos = some h) : h.nNodes < 2 ^ 64 := by
  simp only [readDiskFields, Option.bind_eq_bind, Option.bind_eq_some, Option.pure_def,
    Option.some.injEq] at hh
  obtain ⟨n, hn, -, -, -, -, -, -, -, -, rfl⟩ := hh
  exact readLE_lt hn

theorem nNodes_lt_of_readDiskHeader {f : File} {h : DiskHeader} (hh : readDiskHeader f = some h) :
    h.nNodes < 2 ^ 64 := by
  unfold readDiskHeader at hh
  split at hh
  · split at hh <;> exact nNodes_lt_of_readDiskFields hh
  · exact nNodes_lt_of_readDiskFields hh

/-- The stats of the disk-index reader aggregate the degrees it copied, unless their sum
wraps. -/
theorem diskStats_aggregates {f : File} {dataType : DiskIndexDataType} {h : DiskHeader}
    {ds : List Nat} (hh : readDiskHeader f = some h)
    (hds : (diskIndexSlots f dataType).mapM slotDegree = some ds) (hsum : ds.sum < 2 ^ 64) :
    (diskStats h (DegreeAcc.ofList 2 ds)).Aggregates 2 ds := by
  have hlen : ds.length ≤ h.nNodes :=
    (length_of_mapM_eq_some hds).trans_le (length_diskIndexSlots_le dataType hh)
  have := nNodes_lt_of_readDiskHeader hh
  refine .of_ofList hsum (by omega) ?_ rfl rfl rfl rfl
  intro d hd
  obtain ⟨sl, -, hsl⟩ := mem_of_mapM_eq_some hds d hd
  have := slotDegree_lt hsl
  simp only [sizeMax]; omega

/-- One node in records of 8 bytes, zero records a page: the oversized-record variant. -/
def oversizedHeader : DiskHeader := ⟨1, 0, 0, 8, 0⟩

/-- `oversizedHeader` untagged, and nothing else. -/
def oversizedIndex : File := ⟨encDiskHeader oversizedHeader, by decide⟩

theorem computeGraphStats_totalNodes (graph : Graph) (nd numFrozenPts : Nat) (ep w : UInt32) :
    (computeGraphStats graph nd numFrozenPts ep w).totalNodes = (nd + numFrozenPts) % 2 ^ 64 := by
  unfold computeGraphStats
  dsimp only
  split <;> rfl

/-- The stats of a layout-A header over no record: the header's frozen count and entry
point, and the defaults elsewhere. -/
theorem fileStats_nil (h : GraphHeader) :
    fileStats h 0 (DegreeAcc.ofList 2 []) =
      { frozenNodes := h.numFrozenPts, entryPoint := UInt32.ofNat h.ep } := by
  simp [fileStats, DegreeAcc.ofList, DegreeAcc.init, DegreeAcc.finalMin]

/-- The disk-index stats of a header of no node: its medoid, and the defaults elsewhere. -/
theorem diskStats_nil {h : DiskHeader} (h0 : h.nNodes = 0) :
    diskStats h (DegreeAcc.ofList 2 []) = { entryPoint := UInt32.ofNat h.medoid } := by
  simp [diskStats, h0, DegreeAcc.ofList, DegreeAcc.init, DegreeAcc.finalMin]

/-- Past the geometry test, the disk-index reader takes its node count from the header. -/
theorem totalNodes_of_computeGraphStatsFromDiskIndex {f : File} {dataType : DiskIndexDataType}
    {h : DiskHeader} {s : GraphStats} (hh : readDiskHeader f = some h)
    (hg : geometryOk h (elemSize dataType) = true)
    (hs : computeGraphStatsFromDiskIndex (some f) dataType = some s) : s.totalNodes = h.nNodes := by
  by_cases hr : h.nodesPerSector = 0
  · simp only [computeGraphStatsFromDiskIndex, hh, hg, hr, if_true, Option.some.injEq] at hs
    rw [← hs]
  · rw [computeGraphStatsFromDiskIndex_slots hh hr hg] at hs
    obtain ⟨ds, -, rfl⟩ := Option.map_eq_some'.mp hs
    rfl

/-- A disk-index header of no node that passes the geometry test gives the stats of its
medoid alone: the reader visits no slot. -/
theorem computeGraphStatsFromDiskIndex_nil {f : File} {dataType : DiskIndexDataType}
    {h : DiskHeader} (hh : readDiskHeader f = some h) (h0 : h.nNodes = 0)
    (hg : geometryOk h (elemSize dataType) = true) :
    computeGraphStatsFromDiskIndex (some f) dataType = some { entryPoint := UInt32.ofNat h.medoid } := by
  by_cases hr : h.nodesPerSector = 0
  · simp only [computeGraphStatsFromDiskIndex, hh, hg, hr, if_true, h0]
  · have hslots : diskIndexSlots f dataType = [] :=
      List.eq_nil_of_length_eq_zero (Nat.le_zero.mp (h0 ▸ length_diskIndexSlots_le dataType hh))
    rw [computeGraphStatsFromDiskIndex_slots hh hr hg, hslots, List.mapM_nil, Option.pure_def,
      Option.map_some', diskStats_nil h0]

/-- `compute_graph_stats` with a zero node count returns its counts and entry point. -/
theorem computeGraphStats_of_totalNodes_eq_zero {graph : Graph} {nd numFrozenPts : Nat}
    {ep w : UInt32} (h0 : (computeGraphStats graph nd numFrozenPts ep w).totalNodes = 0) :
    computeGraphStats graph nd numFrozenPts ep w =
      { activeNodes := nd, frozenNodes := numFrozenPts, entryPoint := ep } := by
  rw [computeGraphStats_totalNodes] at h0
  unfold computeGraphStats
  dsimp only
  rw [if_pos h0, h0]

/-- The layout-A reader returns the all-zero stats unless it opens the file, seeks and reads
a header. -/
theorem computeGraphStatsFromFile_of_noHeader {file : Option File} {offset : Nat}
    (hno : ∀ f, file = some f → seekOk offset = true → readGraphHeader f offset = none) :
    computeGraphStatsFromFile file offset = {} := by
  rcases file with _ | f
  · rfl
  rw [computeGraphStatsFromFile_eq_walk, fileRecords]
  by_cases hs : seekOk offset = true
  · rw [if_pos hs, hno f rfl hs]; rfl
  · rw [if_neg hs]

/-- Once its header reads, the layout-A reader with a zero node count returns the header's
frozen count and entry point. -/
theorem computeGraphStatsFromFile_of_header {f : File} {offset : Nat} {h : GraphHeader}
    (hs : seekOk offset = true) (hh : readGraphHeader f offset = some h)
    (h0 : (computeGraphStatsFromFile (some f) offset).totalNodes = 0) :
    computeGraphStatsFromFile (some f) offset =
      { frozenNodes := h.numFrozenPts, entryPoint := UInt32.ofNat h.ep } := by
  have hr : fileRecords f offset =
      some (h, walk f h.expectedFileSize kGraphHeaderSize (offset + kGraphHeaderSize)) := by
    rw [fileRecords, if_pos hs, hh, Option.map_some']
  rw [computeGraphStatsFromFile_eq_walk, hr] at h0 ⊢
  rw [List.eq_nil_of_length_eq_zero h0]
  exact fileStats_nil h

/-- The disk-index reader returns the all-zero stats unless it opens the file and reads a
header that passes the geometry test. -/
theorem computeGraphStatsFromDiskIndex_of_rejected {file : Option File}
    {dataType : DiskIndexDataType}
    (hno : ∀ f, file = some f → ∀ h, readDiskHeader f = some h → geometryOk h (elemSize dataType) = false) :
    computeGraphStatsFromDiskIndex file dataType = some {} := by
  rcases file with _ | f
  · rfl
  cases hh : readDiskHeader f with
  | none => simp [computeGraphStatsFromDiskIndex, hh]
  | some h => simp [computeGraphStatsFromDiskIndex, hh, hno f rfl h hh]

/-- Past the geometry test, the disk-index reader with a zero node count returns the
header's medoid. -/
theorem computeGraphStatsFromDiskIndex_of_geometry {f : File} {dataType : DiskIndexDataType}
    {h : DiskHeader} {s : GraphStats} (hh : readDiskHeader f = some h)
    (hg : geometryOk h (elemSize dataType) = true)
    (hs : computeGraphStatsFromDiskIndex (some f) dataType = some s) (h0 : s.totalNodes = 0) :
    s = { entryPoint := UInt32.ofNat h.medoid } := by
  have hn : h.nNodes = 0 := (totalNodes_of_computeGraphStatsFromDiskIndex hh hg hs).symm.trans h0
  rw [computeGraphStatsFromDiskIndex_nil hh hn hg] at hs
  exact (Option.some.inj hs).symm

/-- **A zero node count keeps the entry point.**  Whenever a stats reader returns
`total_nodes = 0`, its degree figures are zero. `compute_graph_stats` returns its `nd`,
`num_frozen_pts` and `ep`, which are all the fields left.  The layout-A reader returns the
all-zero stats when no header reads, and once its header reads, that header's frozen count
and entry point.  The disk-index reader returns the all-zero stats when no header reads or
the geometry test fails, and once a header passes it, that header's medoid.  A header of no
node always gives a defined run. -/
theorem statsReaders_zeroNodes :
    (∀ (graph : Graph) (nd numFrozenPts : Nat) (ep w : UInt32),
      (computeGraphStats graph nd numFrozenPts ep w).totalNodes = 0 →
        computeGraphStats graph nd numFrozenPts ep w =
          { activeNodes := nd, frozenNodes := numFrozenPts, entryPoint := ep }) ∧
    (∀ (file : Option File) (offset : Nat),
      (∀ f, file = some f → seekOk offset = true → readGraphHeader f offset = none) →
        computeGraphStatsFromFile file offset = {}) ∧
    (∀ (f : File) (offset : Nat) (h : GraphHeader),
      seekOk offset = true → readGraphHeader f offset = some h →
      (computeGraphStatsFromFile (some f) offset).totalNodes = 0 →
        computeGraphStatsFromFile (some f) offset =
          { frozenNodes := h.numFrozenPts, entryPoint := UInt32.ofNat h.ep }) ∧
    (∀ (file : Option File) (dataType : DiskIndexDataType),
      (∀ f, file = some f → ∀ h, readDiskHeader f = some h →
        geometryOk h (elemSize dataType) = false) →
        computeGraphStatsFromDiskIndex file dataType = some {}) ∧
    (∀ (f : File) (dataType : DiskIndexDataType) (h : DiskHeader) (s : GraphStats),
      readDiskHeader f = some h → geometryOk h (elemSize dataType) = true →
      computeGraphStatsFromDiskIndex (some f) dataType = some s → s.totalNodes = 0 →
        s = { entryPoint := UInt32.ofNat h.medoid }) ∧
    (∀ (f : File) (dataType : DiskIndexDataType) (h : DiskHeader),
      readDiskHeader f = some h → h.nNodes = 0 →
        ∃ s, computeGraphStatsFromDiskIndex (some f) dataType = some s) := by
  refine ⟨fun _ _ _ _ _ => computeGraphStats_of_totalNodes_eq_zero,
    fun _ _ => computeGraphStatsFromFile_of_noHeader,
    fun _ _ _ => computeGraphStatsFromFile_of_header,
    fun _ _ => computeGraphStatsFromDiskIndex_of_rejected,
    fun _ _ _ _ => computeGraphStatsFromDiskIndex_of_geometry,
    fun f dataType h hh h0 => ?_⟩
  by_cases hg : geometryOk h (elemSize dataType) = true
  · exact ⟨_, computeGraphStatsFromDiskIndex_nil hh h0 hg⟩
  · exact ⟨{}, by simp [computeGraphStatsFromDiskIndex, hh, hg]⟩

/-- A layout-A file of no record whose header gives entry point 5 and one frozen point. -/
def frozenOnlyFile : File := ⟨encGraphHeader 24 0 5 1, by decide⟩

theorem frozenOnlyFile_header : readGraphHeader frozenOnlyFile 0 = some ⟨24, 0, 5, 1⟩ := rfl

theorem frozenOnlyFile_records : fileRecords frozenOnlyFile 0 = some (⟨24, 0, 5, 1⟩, []) := by
  rw [fileRecords, if_pos (show seekOk 0 = true from rfl), frozenOnlyFile_header, Option.map_some',
    walk, if_neg (by decide)]

/-- A disk index of no node whose header gives medoid 3, in 4-byte records one a page. -/
def zeroNodeHeader : DiskHeader := ⟨0, 0, 3, 4, 1⟩

/-- `zeroNodeHeader` untagged, and nothing else. -/
def zeroNodeIndex : File := ⟨encDiskHeader zeroNodeHeader, by decide⟩

theorem zeroNodeIndex_header : readDiskHeader zeroNodeIndex = some zeroNodeHeader :=
  readDiskHeader_untagged ⟨[], [], by simp [zeroNodeIndex], rfl⟩
    (by decide) (by decide) (by decide) (by decide) (by decide) (by decide)

/-- The readers with a zero node count on inputs that reach each case: the layout-A reader
on `frozenOnlyFile`, whose header reads, and on a file that does not open; the disk-index
reader on `zeroNodeIndex`, whose header passes the geometry test. -/
theorem zeroNodeStats_kept :
    computeGraphStatsFromFile none 0 = {} ∧
      computeGraphStatsFromFile (some frozenOnlyFile) 0 = { frozenNodes := 1, entryPoint := 5 } ∧
      computeGraphStatsFromDiskIndex (some zeroNodeIndex) .kFloat = some { entryPoint := 3 } :=
  have hs : computeGraphStatsFromDiskIndex (some zeroNodeIndex) .kFloat = some { entryPoint := 3 } :=
    computeGraphStatsFromDiskIndex_nil zeroNodeIndex_header rfl (by decide)
  have h0 : (computeGraphStatsFromFile (some frozenOnlyFile) 0).totalNodes = 0 := by
    rw [computeGraphStatsFromFile_eq_walk, frozenOnlyFile_records]; rfl
  ⟨statsReaders_zeroNodes.2.1 none 0 (fun _ h => nomatch h),
    statsReaders_zeroNodes.2.2.1 frozenOnlyFile 0 _ rfl frozenOnlyFile_header h0,
    hs.trans (congrArg some
      (statsReaders_zeroNodes.2.2.2.2.1 zeroNodeIndex .kFloat _ _ zeroNodeIndex_header (by decide) hs
        rfl).symm)⟩

/-- Each stats reader returns zero nodes with a nonzero entry point: `compute_graph_stats`
of the empty graph with `ep = 7`, the layout-A reader on `frozenOnlyFile`, which also
keeps its frozen count, and the disk-index reader on `zeroNodeIndex`. -/
theorem zeroNodeStats_entryPoint :
    (computeGraphStats emptyGraph 0 0 7 2).totalNodes = 0 ∧
      (computeGraphStats emptyGraph 0 0 7 2).entryPoint = 7 ∧
      (computeGraphStatsFromFile (some frozenOnlyFile) 0).totalNodes = 0 ∧
      (computeGraphStatsFromFile (some frozenOnlyFile) 0).frozenNodes = 1 ∧
      (computeGraphStatsFromFile (some frozenOnlyFile) 0).entryPoint = 5 ∧
      (computeGraphStatsFromDiskIndex (some zeroNodeIndex) .kFloat).map
        (fun s => (s.totalNodes, s.entryPoint)) = some (0, 3) := by
  rw [computeGraphStatsFromFile_eq_walk, frozenOnlyFile_records,
    computeGraphStatsFromDiskIndex_nil zeroNodeIndex_header rfl (by decide)]
  exact ⟨rfl, rfl, rfl, rfl, rfl, rfl⟩

/-! ### The samplers decode well-formed encodings -/

/-- What a node line shows: its label, its ids and its total figure. -/
def NodeLine.view (l : NodeLine) : Nat × List UInt32 × Option Nat := (l.label, l.shown, l.total)

/-- The line the format promises for node `i` with out-list `ids` under the cap: its first `c` ids, where `c = |ids|` when the cap is 0 or at least `|ids|` and the
cap otherwise, and the total figure exactly when `c < |ids|`. -/
def promisedLine (maxNbrs i : Nat) (ids : List UInt32) : Nat × List UInt32 × Option Nat :=
  let c := if maxNbrs = 0 ∨ ids.length ≤ maxNbrs then ids.length else maxNbrs
  (i, ids.take c, if c < ids.length then some ids.length else none)

/-- The lines the format promises for a sample of `N` nodes of `g`, one for each of the
first `min N |g|` nodes. -/
def promisedLines (maxNbrs N : Nat) (g : List (List UInt32)) : List (Nat × List UInt32 × Option Nat) :=
  (List.range (min N g.length)).map fun i => promisedLine maxNbrs i (g.getD i [])

/-- The printers' `to_show` and total figure are the promised ones. -/
theorem promisedLine_eq (maxNbrs i : Nat) (ids : List UInt32) :
    promisedLine maxNbrs i ids =
      (i, ids.take (toShow maxNbrs ids.length), totalOf maxNbrs ids.length) := by
  have hc : (if maxNbrs = 0 ∨ ids.length ≤ maxNbrs then ids.length else maxNbrs) =
      toShow maxNbrs ids.length := by
    simp only [toShow]; split <;> split <;> omega
  simp only [promisedLine, hc, totalOf, gt_iff_lt]

theorem map_view_sampleLines (maxNbrs : Nat) (outs : List (List UInt32)) :
    (sampleLines maxNbrs outs).map NodeLine.view =
      (List.range outs.length).map fun i => promisedLine maxNbrs i (outs.getD i []) := by
  simp [sampleLines, NodeLine.view, promisedLine_eq, Function.comp_def]

theorem range_map_getD_eq_take (g : List (List UInt32)) (N : Nat) :
    (List.range (min N g.length)).map (fun i => g.getD i []) = g.take N := by
  apply List.ext_getElem (by simp)
  intro i h1 _
  have hi : i < min N g.length := by simpa using h1
  simp [List.getD_eq_getElem?_getD, List.getElem?_eq_getElem (show i < g.length by omega)]

/-- The sample of the first `N` out-lists of `g` promises the first `min N |g|` lines. -/
theorem map_view_sampleLines_take (maxNbrs N : Nat) (g : List (List UInt32)) :
    (sampleLines maxNbrs (g.take N)).map NodeLine.view = promisedLines maxNbrs N g := by
  rw [map_view_sampleLines, List.length_take, promisedLines]
  apply List.map_congr_left
  intro i hi
  have hi := List.mem_range.mp hi
  simp only [List.getD_eq_getElem?_getD, List.getElem?_take, if_pos (show i < N by omega)]

/-- The adjacency lines over an encoding of `g`: node `id + i` shows the capped `g[i]`. -/
theorem adjacencyLines_encodedRecs {f : File} {pos : Nat} {g : List (List UInt32)}
    (h : BytesAt f pos (encRecords g)) (maxNbrs id : Nat) :
    (adjacencyLines f maxNbrs id (encodedRecs pos g)).map NodeLine.view =
      (List.range g.length).map fun i => promisedLine maxNbrs (id + i) (g.getD i []) := by
  induction g generalizing pos id with
  | nil => rfl
  | cons ids g ih =>
    simp only [encRecords_cons, encRecord, List.append_assoc, bytesAt_append, length_leBytes,
      length_encU32s] at h
    simp only [encodedRecs, adjacencyLines,
      readU32s_of_bytesAt h.2.1 (toShow_le maxNbrs ids.length), List.map_cons, ih h.2.2,
      List.length_cons, List.range_succ_eq_map, List.map_map]
    simp [NodeLine.view, promisedLine_eq, Function.comp_def, Nat.add_assoc, Nat.add_comm 1]

/-- The id arrays stored from an encoding of `g` are `g`. -/
theorem storedIds_encodedRecs {f : File} {pos : Nat} {g : List (List UInt32)}
    (h : BytesAt f pos (encRecords g)) : storedIds f (encodedRecs pos g) = g := by
  induction g generalizing pos with
  | nil => rfl
  | cons ids g ih =>
    simp only [encRecords_cons, encRecord, List.append_assoc, bytesAt_append, length_leBytes,
      length_encU32s] at h
    simp only [encodedRecs, storedIds, readU32s_of_bytesAt h.2.1 (Nat.le_refl _), List.take_length,
      ih h.2.2]

/-- On a well-formed disk index, node `i`'s slot yields its out-list and its line. -/
theorem DiskLayout.slotLines_gridSlot {f : File} {h : DiskHeader} {esz : Nat}
    {g : List (List UInt32)} (hl : DiskLayout f h esz g) (maxNbrs : Nat) {i : Nat}
    (hi : i < g.length) :
    slotStoredIds (gridSlot f h esz i) = some g[i] ∧
      slotAdjacencyLine maxNbrs (gridSlot f h esz i) =
        some ⟨i, g[i].take (toShow maxNbrs g[i].length), totalOf maxNbrs g[i].length, none⟩ := by
  have hr := hl.geometry.nodesPerSector_pos
  have hfit := hl.record_le g[i] (List.getElem_mem hi)
  have hend := hl.geometry.slot_end_le (Nat.mod_lt i hr)
  have hids := (bytesAt_append.mp (hl.record i hi)).2
  rw [length_leBytes, degreePos, Nat.add_assoc] at hids
  have hoff : (gridSlot f h esz i).degOff = i % h.nodesPerSector * h.maxNodeLen + h.nDims * esz := by
    rw [gridSlot, hl.geometry.nhoodOffset_eq]
  have hwrap : ((gridSlot f h esz i).degOff + 4) % 2 ^ 64 =
      i % h.nodesPerSector * h.maxNodeLen + h.nDims * esz + 4 := by
    rw [hoff]; exact Nat.mod_eq_of_lt (by simp only [kSectorLen] at hend; omega)
  have hload := sectorLoad_pageAt hids (by rw [length_encU32s]; omega)
  rw [length_encU32s] at hload
  rw [← hwrap] at hload
  obtain ⟨hst, hadj⟩ := slotLines_of_fits maxNbrs (hl.slotDegree_gridSlot hi) hload
    (by rw [hwrap]; omega)
  rw [← List.append_nil (encU32s g[i]), leU32s_encU32s_append _ _ (Nat.le_refl _),
    List.take_length] at hst hadj
  exact ⟨hst, hadj⟩

/-- The samplers of a tagged disk index of a consistent geometry print its first
`num_nodes` nodes' lines, the small graph unless its clamped sample exceeds `max_size()`. -/
theorem diskSamplers_of_layout {f : File} {dataType : DiskIndexDataType} {h : DiskHeader}
    {g : List (List UInt32)} (hh : readDiskHeader f = some h)
    (hl : DiskLayout f h (elemSize dataType) g) (path : String) (numNodes maxNbrs : Nat) :
    (printAdjacencySampleFromDiskIndex path (some f) dataType numNodes maxNbrs).map
        (fun out => (nodeLines out).map NodeLine.view) = some (promisedLines maxNbrs numNodes g) ∧
    (min numNodes g.length ≤ kVectorMaxSize →
      (printSmallGraphFromDiskIndex path (some f) dataType numNodes maxNbrs).map
        (fun out => (nodeLines out).map NodeLine.view) = some (promisedLines maxNbrs numNodes g)) := by
  have hslots : (diskIndexSlots f dataType).take numNodes =
      (List.range (min numNodes g.length)).map (gridSlot f h (elemSize dataType)) := by
    rw [diskIndexSlots_eq hh (Nat.pos_iff_ne_zero.mp hl.geometry.nodesPerSector_pos)
      hl.geometry.geometryOk, hl.geometry.diskSlots_eq f hl.nNodes_lt fun i hi => hl.page_le hi,
      hl.nNodes_eq, ← List.map_take, List.take_range]
  have hmem : ∀ i ∈ List.range (min numNodes g.length), i < g.length := fun i hi => by
    have := List.mem_range.mp hi; omega
  have hgetD : ∀ i (hi : i < g.length), g.getD i [] = g[i] := fun i hi => by
    simp [List.getD_eq_getElem?_getD, List.getElem?_eq_getElem hi]
  have hadj : ((List.range (min numNodes g.length)).map (gridSlot f h (elemSize dataType))).mapM
      (slotAdjacencyLine maxNbrs) = some ((List.range (min numNodes g.length)).map fun i =>
        ⟨i, (g.getD i []).take (toShow maxNbrs (g.getD i []).length),
          totalOf maxNbrs (g.getD i []).length, none⟩) := by
    rw [mapM_eq_some_map fun sl => ⟨sl.nodeId, (g.getD sl.nodeId []).take
      (toShow maxNbrs (g.getD sl.nodeId []).length), totalOf maxNbrs (g.getD sl.nodeId []).length,
        none⟩, List.map_map]
    · rfl
    · intro sl hsl
      obtain ⟨i, hi, rfl⟩ := List.mem_map.mp hsl
      rw [(hl.slotLines_gridSlot maxNbrs (hmem i hi)).2]
      simp only [gridSlot, hgetD i (hmem i hi)]
  have hsg : ((List.range (min numNodes g.length)).map (gridSlot f h (elemSize dataType))).mapM
      slotStoredIds = some (g.take numNodes) := by
    rw [mapM_eq_some_map fun sl => g.getD sl.nodeId [], List.map_map]
    · exact congrArg some (range_map_getD_eq_take g numNodes)
    · intro sl hsl
      obtain ⟨i, hi, rfl⟩ := List.mem_map.mp hsl
      rw [(hl.slotLines_gridSlot maxNbrs (hmem i hi)).1]
      simp only [gridSlot, hgetD i (hmem i hi)]
  rw [show (fun out => (nodeLines out).map NodeLine.view) = List.map NodeLine.view ∘ nodeLines
    from rfl, ← Option.map_map, ← Option.map_map, printAdjacencySampleFromDiskIndex_lines, hslots, hadj]
  refine ⟨by simp [NodeLine.view, promisedLines, promisedLine_eq, Function.comp_def], fun hN => ?_⟩
  rw [printSmallGraphFromDiskIndex_lines_of_noThrow _ _ _ _ _
    (smallGraphFromDiskIndexThrows_eq_false _ hh (hl.nNodes_eq ▸ hN)), hslots, hsg]
  exact congrArg some (map_view_sampleLines_take maxNbrs numNodes g)

/-- The samplers of a layout-A encoding print its first `num_nodes` nodes' lines, the small
graph unless its sample exceeds `max_size()`. -/
theorem fileSamplers_of_encoding {f : File} {offset : Nat} {g : List (List UInt32)}
    {width ep numFrozenPts : Nat} (hat : BytesAt f offset (encGraphFile g width ep numFrozenPts))
    (hdeg : ∀ ids ∈ g, ids.length < 2 ^ 32) (hep : ep < 2 ^ 32) (hfrozen : numFrozenPts < 2 ^ 64)
    (path : String) (numNodes maxNbrs : Nat) :
    (nodeLines (printAdjacencySampleFromFile path (some f) offset numNodes maxNbrs)).map
        NodeLine.view = promisedLines maxNbrs numNodes g ∧
    (numNodes ≤ kVectorMaxSize →
      (nodeLines (printSmallGraphFromFile path (some f) offset numNodes maxNbrs)).map
        NodeLine.view = promisedLines maxNbrs numNodes g) := by
  have hrecs : BytesAt f (offset + kGraphHeaderSize) (encRecords g) := by
    simp only [encGraphFile, bytesAt_append, encGraphHeader, List.length_append,
      length_leBytes] at hat
    exact hat.2
  rw [adjacencyNodeLines_eq, smallGraphNodeLines_eq, fileRecords_of_bytesAt hat hdeg hep hfrozen]
  dsimp only
  refine ⟨?_, fun hN => by rw [if_pos hN, storedIds_encodedRecs hrecs, map_view_sampleLines_take]⟩
  rw [List.map_take, adjacencyLines_encodedRecs hrecs, ← List.map_take, List.take_range]
  simp only [Nat.zero_add, promisedLines]

/-- `tenNodes` as a layout-A file. -/
def tenNodesFile : File := ⟨[] ++ encGraphFile tenNodes.nbrs 0 0 0 ++ [], by decide⟩

/-- The id arrays the layout-A small-graph printer stores from a file at `offset`, in
file order. -/
def fileStoredIds (f : File) (offset : Nat) : List (List UInt32) :=
  match fileRecords f offset with
  | none => []
  | some (_, rs) => storedIds f rs

/-- Within `max_size()`, the layout-A small graph prints the sample lines of the first
`num_nodes` id arrays it stores. -/
theorem smallGraphNodeLines_of_le (path : String) (f : File) (offset : Nat) {numNodes : Nat}
    (maxNbrs : Nat) (hN : numNodes ≤ kVectorMaxSize) :
    nodeLines (printSmallGraphFromFile path (some f) offset numNodes maxNbrs) =
      sampleLines maxNbrs ((fileStoredIds f offset).take numNodes) := by
  rw [smallGraphNodeLines_eq, fileStoredIds]
  cases fileRecords f offset with
  | none => simp
  | some hrs => exact if_pos hN

/-- Past `max_size()`, the layout-A small graph prints no node line. -/
theorem smallGraphNodeLines_of_gt (path : String) (file : Option File) (offset : Nat)
    {numNodes : Nat} (maxNbrs : Nat) (hN : kVectorMaxSize < numNodes) :
    nodeLines (printSmallGraphFromFile path file offset numNodes maxNbrs) = [] := by
  cases file with
  | none => rfl
  | some f =>
    rw [smallGraphNodeLines_eq]
    cases fileRecords f offset with
    | none => rfl
    | some hrs => exact if_neg (Nat.not_le.mpr hN)

/-- The transpose view of the stored out-lists `outs`, as the format describes the small
graph.  Line
`i` is labelled `i` and shows the capped `outs[i]`; its `referenced_by` list is the
ascending list of the line indices `j`, each once per occurrence of `i` in `outs[j]`. -/
def TransposeView (maxNbrs : Nat) (outs : List (List UInt32)) (lines : List NodeLine) : Prop :=
  lines.map NodeLine.label = List.range outs.length ∧
    lines.map NodeLine.shown = outs.map (fun o => o.take (toShow maxNbrs o.length)) ∧
    lines.map (fun l => l.referencedBy.map (List.map UInt32.toNat)) =
      (List.range outs.length).map fun i =>
        some ((List.range outs.length).flatMap fun j =>
          List.replicate ((outs.getD j []).countP (·.toNat = i)) j)

theorem map_getD_range {α : Type} (l : List α) (d : α) {β : Type} (g : α → β) :
    (List.range l.length).map (fun i => g (l.getD i d)) = l.map g := by
  apply List.ext_getElem (by simp)
  intro i h1 _
  have hi : i < l.length := by simpa using h1
  simp [List.getD_eq_getElem?_getD, List.getElem?_eq_getElem hi]

/-- The sample lines of fewer than `2 ^ 32` stored lists are their transpose view. -/
theorem sampleLines_transposeView (maxNbrs : Nat) (outs : List (List UInt32))
    (h : outs.length ≤ 2 ^ 32) : TransposeView maxNbrs outs (sampleLines maxNbrs outs) := by
  refine ⟨map_label_sampleLines maxNbrs outs, ?_, ?_⟩
  · simp only [sampleLines, List.map_map, Function.comp_def]
    exact map_getD_range outs [] fun o => o.take (toShow maxNbrs o.length)
  · simp only [sampleLines, List.map_map, Function.comp_def, Option.map_some',
      map_toNat_transposeRow outs _ h]

/-- **The reverse view is the transpose.**  For both small-graph printers, every byte
string and every sample size `N ≤ 2 ^ 32`: the printed lines are the transpose view of
the out-lists the printer stored, one for each of the first `N' ≤ N` records it read (on
a disk index, whenever the run is defined).  So line `i`'s `referenced_by` lists exactly
the lines `j < N'` whose stored out-list names `i`, once per occurrence, whatever the
cap. -/
theorem smallGraphs_transpose (path : String) (f : File) (offset : Nat)
    (dataType : DiskIndexDataType) (numNodes maxNbrs : Nat) (hN : numNodes ≤ 2 ^ 32) :
    TransposeView maxNbrs ((fileStoredIds f offset).take numNodes)
        (nodeLines (printSmallGraphFromFile path (some f) offset numNodes maxNbrs)) ∧
      ∀ out, printSmallGraphFromDiskIndex path (some f) dataType numNodes maxNbrs = some out →
        ∃ outs, ((diskIndexSlots f dataType).take numNodes).mapM slotStoredIds = some outs ∧
          TransposeView maxNbrs outs (nodeLines out) := by
  have hN' : numNodes ≤ kVectorMaxSize := hN.trans (by decide)
  constructor
  · rw [smallGraphNodeLines_of_le path f offset maxNbrs hN']
    exact sampleLines_transposeView maxNbrs _ ((List.length_take_le _ _).trans hN)
  · intro out hout
    have := printSmallGraphFromDiskIndex_lines_of_noThrow path f dataType numNodes maxNbrs
      (smallGraphFromDiskIndexThrows_of_le _ _ hN')
    rw [hout, Option.map_some'] at this
    obtain ⟨outs, hm, hl⟩ := Option.map_eq_some'.mp this.symm
    refine ⟨outs, hm, hl ▸ sampleLines_transposeView maxNbrs outs ?_⟩
    rw [length_of_mapM_eq_some hm]
    exact (List.length_take_le _ _).trans hN

/-- Out-edges `0 → 1, 0 → 5, 1 → 2, 2 → 0`, the format's example of a reverse view. -/
def reverseEdges : List (List UInt32) := [[1, 5], [2], [0]]

/-- `reverseEdges` as a layout-A file. -/
def reverseEdgeFile : File := ⟨encGraphFile reverseEdges 0 0 0, by decide⟩

/-- The header of `reverseEdges` as a disk index: no coordinates, 16-byte records two a
page, so two pages. -/
def reverseEdgeHeader : DiskHeader := ⟨3, 0, 0, 16, 2⟩

theorem reverseEdgeHeader_geometry : DiskGeometry reverseEdgeHeader (elemSize .kFloat) :=
  ⟨by decide, by decide, by decide⟩

/-- `reverseEdges` as an untagged disk index. -/
def reverseEdgeIndex : File :=
  ⟨encDiskIndex [] reverseEdgeHeader (elemSize .kFloat) reverseEdges, by
    rw [length_encDiskIndex reverseEdgeHeader_geometry (by decide) (by decide)]
    decide⟩

theorem reverseEdgeIndex_layout :
    DiskLayout reverseEdgeIndex reverseEdgeHeader (elemSize .kFloat) reverseEdges :=
  encDiskIndex_layout reverseEdgeHeader_geometry
    (show reverseEdgeHeader.nNodes = reverseEdges.length from rfl) (by decide) (by decide) _

theorem reverseEdgeIndex_header : readDiskHeader reverseEdgeIndex = some reverseEdgeHeader :=
  readDiskHeader_untagged (encDiskIndex_header _ _ _ _ _)
    (by decide) (by decide) (by decide) (by decide) (by decide) (by decide)

/-- Both small graphs of `reverseEdges` with three lines: the layout-A file's, and the disk
index's, which is defined. -/
theorem reverseEdge_transpose :
    3 ≤ 2 ^ 32 ∧
      TransposeView 0 ((fileStoredIds reverseEdgeFile 0).take 3)
          (nodeLines (printSmallGraphFromFile "graph" (some reverseEdgeFile) 0 3 0)) ∧
      printSmallGraphFromDiskIndex "index" (some reverseEdgeIndex) .kFloat 3 0 ≠ none ∧
      ∀ out, printSmallGraphFromDiskIndex "index" (some reverseEdgeIndex) .kFloat 3 0 = some out →
        ∃ outs, ((diskIndexSlots reverseEdgeIndex .kFloat).take 3).mapM slotStoredIds = some outs ∧
          TransposeView 0 outs (nodeLines out) :=
  have hdefined := (diskSamplers_of_layout reverseEdgeIndex_header reverseEdgeIndex_layout
    "index" 3 0).2 (by decide)
  have hne : printSmallGraphFromDiskIndex "index" (some reverseEdgeIndex) .kFloat 3 0 ≠ none := by
    intro hnone; rw [hnone] at hdefined; cases hdefined
  ⟨by decide, (smallGraphs_transpose "graph" reverseEdgeFile 0 .kFloat 3 0 (by decide)).1, hne,
    (smallGraphs_transpose "index" reverseEdgeIndex 0 .kFloat 3 0 (by decide)).2⟩

end Pipeann
