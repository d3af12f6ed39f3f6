import IndexInspector.DiskLayout

/-!
# What the disk-index stats reader computes

`DiskIndex` gives the stats reader as a fold of its body over `diskSlots`, and
`DiskLayout` says which slots those are on a well-formed index.  This module puts the two
together: the reader aggregates the degrees it copies, and on a well-formed index those
are the degrees of the adjacency list it holds.

## Main results

* `foldSlots_diskStatsBody` — on every file the reader aggregates the degrees of the
  visited slots, and is defined exactly when every degree copy stays in its buffer.
* `computeGraphStatsFromDiskIndex_tagged`, `computeGraphStatsFromDiskIndex_untagged` — on
  a well-formed index, tagged or untagged, the reader returns the stats of the list it
  holds, as long as the resolver reads the header that was written.
* `untaggedIndexes_misdecoded` — two well-formed untagged indexes it does not decode.
-/

namespace Pipeann

/-! ### The stats reader -/

/-- The degree a slot's `memcpy` copies, when it stays inside the buffer. -/
def slotDegree (sl : Slot) : Option Nat := (sectorLoad sl.sector sl.degOff 4).map leNat

theorem mapM_eq_some_map {α β : Type} {f : α → Option β} (g : α → β) :
    ∀ {l : List α}, (∀ x ∈ l, f x = some (g x)) → l.mapM f = some (l.map g)
  | [], _ => rfl
  | x :: l, h => by
    rw [List.mapM_cons, h x (List.mem_cons_self x l),
      mapM_eq_some_map g fun y hy => h y (List.mem_cons_of_mem x hy)]
    rfl

/-- The stats reader aggregates the degrees of its slots, and is defined exactly when every
degree copy stays inside its buffer. -/
theorem foldSlots_diskStatsBody (acc : DegreeAcc) (sls : List Slot) :
    foldSlots (fun _ => true) diskStatsBody acc sls =
      (sls.mapM slotDegree).map fun ds => ds.foldl (DegreeAcc.add 2) acc := by
  induction sls generalizing acc with
  | nil => rfl
  | cons sl sls ih =>
    simp only [foldSlots, if_true, List.mapM_cons, slotDegree]
    cases sectorLoad sl.sector sl.degOff 4 with
    | none => rfl
    | some d =>
      simp only [Option.bind_eq_bind, Option.some_bind, diskStatsBody, ih, Option.map_some']
      cases sls.mapM slotDegree <;> rfl

namespace DiskLayout

variable {f : File} {h : DiskHeader} {esz : Nat} {g : List (List UInt32)}

/-- The readers copy node `i`'s degree from its grid slot. -/
theorem slotDegree_gridSlot (hl : DiskLayout f h esz g) {i : Nat} (hi : i < g.length) :
    slotDegree (gridSlot f h esz i) = some g[i].length := by
  have hr := hl.geometry.nodesPerSector_pos
  have hfit := hl.record_le g[i] (List.getElem_mem hi)
  have hend := hl.geometry.slot_end_le (Nat.mod_lt i hr)
  have hdeg := (bytesAt_append.mp (hl.record i hi)).1
  rw [degreePos] at hdeg
  have := sectorLoad_pageAt hdeg (by rw [length_leBytes]; omega)
  rw [length_leBytes] at this
  rw [slotDegree, gridSlot, hl.geometry.nhoodOffset_eq, this, Option.map_some',
    leNat_leBytes_of_lt (by simp only [kSectorLen] at hend; omega)]

/-- The readers meet every node of a well-formed disk index once, in order, and copy its
degree. -/
theorem mapM_slotDegree (hl : DiskLayout f h esz g) :
    (diskSlots f h esz (nSectors h) 0).mapM slotDegree = some (g.map List.length) := by
  rw [hl.geometry.diskSlots_eq f hl.nNodes_lt fun i hi => hl.page_le hi, hl.nNodes_eq,
    mapM_eq_some_map fun sl => (g.getD sl.nodeId []).length, List.map_map]
  · exact congrArg some ((range_map_getD_length g (Nat.le_refl _)).trans (by rw [List.take_length]))
  · intro sl hsl
    obtain ⟨i, hi, rfl⟩ := List.mem_map.mp hsl
    have hi := List.mem_range.mp hi
    rw [hl.slotDegree_gridSlot hi]
    simp [gridSlot, List.getD_eq_getElem?_getD, hi]

end DiskLayout

/-- **The stats reader on a well-formed disk index**, whichever header format gave `h`:
the stats of the adjacency list with every node active. -/
theorem computeGraphStatsFromDiskIndex_of_layout {f : File} {dataType : DiskIndexDataType}
    {h : DiskHeader} (g : Graph) (hh : readDiskHeader f = some h)
    (hl : DiskLayout f h (elemSize dataType) g.nbrs) :
    computeGraphStatsFromDiskIndex (some f) dataType =
      some (computeGraphStats g g.nbrs.length 0 (UInt32.ofNat h.medoid) 2) := by
  have hr := hl.geometry.nodesPerSector_pos
  simp only [computeGraphStatsFromDiskIndex, hh, hl.geometry.geometryOk, if_true,
    if_neg (Nat.pos_iff_ne_zero.mp hr), pageLoop_eq_foldSlots, foldSlots_diskStatsBody,
    hl.mapM_slotDegree, Option.map_some', Option.some.injEq]
  rcases Nat.eq_zero_or_pos g.nbrs.length with h0 | hpos
  · simp [diskStats, computeGraphStats, hl.nNodes_eq, List.length_eq_zero.mp h0, DegreeAcc.init,
      DegreeAcc.finalMin]
  · rw [computeGraphStats_eq g _ _ _ 2 (by omega) (by omega), show (2 : UInt32).toNat = 2 from rfl]
    simp [diskStats, hl.nNodes_eq, hpos, DegreeAcc.ofList]

/-- **Tagged disk indexes decode.**  For every resident adjacency list laid out as a
well-formed disk index whose header follows a tag with `meta_npts >= 5` and has a
`uint32_t` medoid, the stats reader returns `compute_graph_stats(g, n, 0, medoid, 2)`. -/
theorem computeGraphStatsFromDiskIndex_tagged (g : Graph) (f : File) (dataType : DiskIndexDataType)
    (h : DiskHeader) (metaNpts : Nat) (htag : BytesAt f 0 (leBytes 4 metaNpts))
    (hm : metaNpts < 2 ^ 32) (hnpts : 5 ≤ toInt32 metaNpts) (hhdr : BytesAt f 8 (encDiskHeader h))
    (hmedoid : h.medoid < 2 ^ 32) (hl : DiskLayout f h (elemSize dataType) g.nbrs) :
    computeGraphStatsFromDiskIndex (some f) dataType =
      some (computeGraphStats g g.nbrs.length 0 (UInt32.ofNat h.medoid) 2) :=
  have ⟨h1, h2, h3, h4, h5⟩ := hl.fields_lt (lt_trans hmedoid (by decide))
  computeGraphStatsFromDiskIndex_of_layout g
    (readDiskHeader_tagged htag hm hnpts hhdr h1 h2 h3 h4 h5) hl

/-- One node with a self-loop. -/
def selfLoop : Graph := ⟨[[0]], by decide⟩

/-- Ten nodes, as many as in the format's example of a partly filled last page. -/
def tenNodes : Graph := ⟨[[1, 2], [2], [3, 4, 5], [], [5], [6, 7], [7], [8, 9], [9], [0]], by decide⟩

/-- The header of `tenNodes`: two float coordinates, medoid 4, 64-byte records three a page,
so four pages, the last holding one record. -/
def tenNodesHeader : DiskHeader := ⟨10, 2, 4, 64, 3⟩

theorem tenNodesHeader_geometry : DiskGeometry tenNodesHeader (elemSize .kFloat) :=
  ⟨by decide, by decide, by decide⟩

/-- `tenNodes` as a tagged disk index, `meta_npts = 5` and `meta_ndims = 2`. -/
def tenNodesTagged : File :=
  ⟨encDiskIndex (leBytes 4 5 ++ leBytes 4 2) tenNodesHeader (elemSize .kFloat) tenNodes.nbrs, by
    rw [length_encDiskIndex tenNodesHeader_geometry (by decide) (by decide)]
    decide⟩

theorem tenNodesTagged_layout :
    DiskLayout tenNodesTagged tenNodesHeader (elemSize .kFloat) tenNodes.nbrs :=
  encDiskIndex_layout tenNodesHeader_geometry (show tenNodesHeader.nNodes = tenNodes.nbrs.length from rfl)
    (by decide) (by decide) _

theorem tenNodesTagged_tag : BytesAt tenNodesTagged 0 (leBytes 4 5) :=
  (bytesAt_append.mp (encDiskIndex_pre _ _ _ _ _)).1

theorem tenNodesTagged_header : BytesAt tenNodesTagged 8 (encDiskHeader tenNodesHeader) :=
  encDiskIndex_header _ _ _ _ _

theorem tenNodesTagged_stats :
    BytesAt tenNodesTagged 0 (leBytes 4 5) ∧ BytesAt tenNodesTagged 8 (encDiskHeader tenNodesHeader) ∧
      DiskLayout tenNodesTagged tenNodesHeader (elemSize .kFloat) tenNodes.nbrs ∧
      computeGraphStatsFromDiskIndex (some tenNodesTagged) .kFloat =
        some (computeGraphStats tenNodes 10 0 4 2) :=
  ⟨tenNodesTagged_tag, tenNodesTagged_header, tenNodesTagged_layout,
    computeGraphStatsFromDiskIndex_tagged tenNodes tenNodesTagged .kFloat tenNodesHeader 5
      tenNodesTagged_tag (by decide) (by decide) tenNodesTagged_header (by decide) tenNodesTagged_layout⟩

/-- No node. -/
def emptyGraph : Graph := ⟨[], by decide⟩

/-- A header of no node whose one-a-page records (4 bytes) are shorter than one float
coordinate and a degree. -/
def shortRecordHeader : DiskHeader := ⟨0, 1, 1, 4, 1⟩

/-- `emptyGraph` as a tagged disk index with `shortRecordHeader`.  It meets every hypothesis
of `computeGraphStatsFromDiskIndex_tagged` but the geometry's `n_dims * esz + 4 ≤ L`, which
no node's record forces here. -/
def shortRecordTagged : File :=
  ⟨leBytes 4 5 ++ leBytes 4 0 ++ encDiskHeader shortRecordHeader ++ List.replicate 4048 0, by
    simp only [List.length_append, List.length_replicate, length_leBytes, encDiskHeader]
    decide⟩

/-- The geometry test rejects the records that cannot hold a coordinate and a degree, and
the reader returns the empty stats instead of the stats of the empty graph with its
medoid. -/
theorem shortRecordTagged_rejected :
    computeGraphStatsFromDiskIndex (some shortRecordTagged) .kFloat ≠
      some (computeGraphStats emptyGraph 0 0 1 2) := by
  have htag : BytesAt shortRecordTagged 0 (leBytes 4 5) :=
    ⟨[], leBytes 4 0 ++ encDiskHeader shortRecordHeader ++ List.replicate 4048 0,
      by simp only [shortRecordTagged, List.nil_append, List.append_assoc], rfl⟩
  have hhdr : BytesAt shortRecordTagged 8 (encDiskHeader shortRecordHeader) :=
    ⟨leBytes 4 5 ++ leBytes 4 0, List.replicate 4048 0,
      by simp only [shortRecordTagged, List.append_assoc], rfl⟩
  have hh := readDiskHeader_tagged htag (by decide) (by decide) hhdr
    (by decide) (by decide) (by decide) (by decide) (by decide)
  rw [computeGraphStatsFromDiskIndex, hh]
  simp only [show geometryOk shortRecordHeader (elemSize .kFloat) = false
    by decide, Bool.false_eq_true, if_false, ne_eq, Option.some.injEq]
  intro heq
  have := congrArg GraphStats.entryPoint heq
  simp [computeGraphStats] at this

/-- **Untagged disk indexes decode when their node count does not read as a tag.**  For
every resident adjacency list laid out as a well-formed disk index whose header stands
at offset 0, with a `uint32_t` medoid and a node count whose low 32 bits are not an
`int32_t` of at least 5, the stats reader returns `compute_graph_stats(g, n, 0, medoid,
2)`. -/
theorem computeGraphStatsFromDiskIndex_untagged (g : Graph) (f : File)
    (dataType : DiskIndexDataType) (h : DiskHeader) (hhdr : BytesAt f 0 (encDiskHeader h))
    (hnpts : toInt32 (h.nNodes % 2 ^ 32) < 5) (hmedoid : h.medoid < 2 ^ 32)
    (hl : DiskLayout f h (elemSize dataType) g.nbrs) :
    computeGraphStatsFromDiskIndex (some f) dataType =
      some (computeGraphStats g g.nbrs.length 0 (UInt32.ofNat h.medoid) 2) :=
  have ⟨h1, h2, h3, h4, h5⟩ := hl.fields_lt (lt_trans hmedoid (by decide))
  computeGraphStatsFromDiskIndex_of_layout g (readDiskHeader_untagged hhdr hnpts h1 h2 h3 h4 h5) hl

/-- Four nodes.  Untagged, a node count of at least 5 would read as a tag, so this is the
largest count the untagged format takes that still fills more than one page of three. -/
def fourNodes : Graph := ⟨[[1, 2, 3], [0], [], [2]], by decide⟩

/-- The header of `fourNodes`: eight one-byte coordinates, medoid 1, 32-byte records three a
page, so two pages. -/
def fourNodesHeader : DiskHeader := ⟨4, 8, 1, 32, 3⟩

theorem fourNodesHeader_geometry : DiskGeometry fourNodesHeader (elemSize .kUint8) :=
  ⟨by decide, by decide, by decide⟩

/-- `fourNodes` as an untagged disk index. -/
def fourNodesUntagged : File :=
  ⟨encDiskIndex [] fourNodesHeader (elemSize .kUint8) fourNodes.nbrs, by
    rw [length_encDiskIndex fourNodesHeader_geometry (by decide) (by decide)]
    decide⟩

theorem fourNodesUntagged_stats :
    BytesAt fourNodesUntagged 0 (encDiskHeader fourNodesHeader) ∧
      DiskLayout fourNodesUntagged fourNodesHeader (elemSize .kUint8) fourNodes.nbrs ∧
      computeGraphStatsFromDiskIndex (some fourNodesUntagged) .kUint8 =
        some (computeGraphStats fourNodes 4 0 1 2) :=
  have hhdr : BytesAt fourNodesUntagged 0 (encDiskHeader fourNodesHeader) :=
    encDiskIndex_header _ _ _ _ _
  have hl : DiskLayout fourNodesUntagged fourNodesHeader (elemSize .kUint8) fourNodes.nbrs :=
    encDiskIndex_layout fourNodesHeader_geometry
      (show fourNodesHeader.nNodes = fourNodes.nbrs.length from rfl) (by decide) (by decide) _
  ⟨hhdr, hl, computeGraphStatsFromDiskIndex_untagged fourNodes fourNodesUntagged .kUint8
    fourNodesHeader hhdr (by decide) (by decide) hl⟩

/-- The zero bytes of a file read as zero fields. -/
theorem bytesAt_replicate {f : File} {pre : List UInt8} {k pos m : Nat}
    (hf : f.bytes = pre ++ List.replicate k 0) (h1 : pre.length ≤ pos)
    (h2 : pos + m ≤ pre.length + k) : BytesAt f pos (List.replicate m 0) := by
  refine ⟨pre ++ List.replicate (pos - pre.length) 0, List.replicate (k - (pos - pre.length) - m) 0,
    ?_, by simp; omega⟩
  rw [hf, List.append_assoc, List.append_assoc, ← List.replicate_add, ← List.replicate_add]
  congr 2
  omega

/-- Five nodes without edges. -/
def fiveIsolated : Graph := ⟨List.replicate 5 [], by decide⟩

/-- The header of `fiveIsolated`: no coordinates, five 4-byte records a page. -/
def fiveIsolatedHeader : DiskHeader := ⟨5, 0, 0, 4, 5⟩

/-- `fiveIsolated` as an untagged disk index: the header, then zeros. -/
def fiveIsolatedUntagged : File :=
  ⟨encDiskHeader fiveIsolatedHeader ++ List.replicate 8152 0, by
    simp only [List.length_append, List.length_replicate, length_leBytes, encDiskHeader]
    decide⟩

/-- An untagged index of 5 nodes reads as tagged: its first `int32_t` is 5, and the fields
at 8 describe no node. -/
theorem fiveIsolatedUntagged_misread :
    BytesAt fiveIsolatedUntagged 0 (encDiskHeader fiveIsolatedHeader) ∧
      DiskLayout fiveIsolatedUntagged fiveIsolatedHeader (elemSize .kFloat) fiveIsolated.nbrs ∧
      computeGraphStatsFromDiskIndex (some fiveIsolatedUntagged) .kFloat ≠
        some (computeGraphStats fiveIsolated 5 0 0 2) := by
  have hf : fiveIsolatedUntagged.bytes = encDiskHeader fiveIsolatedHeader ++ List.replicate 8152 0 := rfl
  have hlen : (encDiskHeader fiveIsolatedHeader).length = 40 := rfl
  have hl : DiskLayout fiveIsolatedUntagged fiveIsolatedHeader (elemSize .kFloat) fiveIsolated.nbrs :=
    { geometry := ⟨by decide, by decide, by decide⟩
      nNodes_eq := rfl
      record_le := by decide
      record := fun i hi => by
        have hi : i < 5 := by simpa [fiveIsolated] using hi
        have henc : encRecord fiveIsolated.nbrs[i] = List.replicate 4 0 := by
          simp only [fiveIsolated, List.getElem_replicate]; rfl
        rw [henc]
        refine bytesAt_replicate hf ?_ ?_ <;> rw [hlen] <;>
          simp only [degreePos, fiveIsolatedHeader, kDiskIndexDataOffset, kSectorLen] <;> omega
      pages := by
        simp only [hf, List.length_append, List.length_replicate, hlen]
        decide }
  have htag : BytesAt fiveIsolatedUntagged 0 (leBytes 4 5) := by
    refine ⟨[], leBytes 4 0 ++ List.drop 8 (encDiskHeader fiveIsolatedHeader) ++ List.replicate 8152 0,
      ?_, rfl⟩
    rw [hf, List.nil_append, ← List.append_assoc, ← List.append_assoc]
    rfl
  have hhdr : BytesAt fiveIsolatedUntagged 8 (encDiskHeader ⟨0, 0, 4, 5, 0⟩) := by
    refine ⟨leBytes 8 5, List.replicate 8144 0, ?_, rfl⟩
    rw [hf, show 8152 = 8 + 8144 from rfl, List.replicate_add, ← List.append_assoc]
    rfl
  have hh := readDiskHeader_tagged htag (by decide) (by decide) hhdr
    (by decide) (by decide) (by decide) (by decide) (by decide)
  refine ⟨⟨[], List.replicate 8152 0, by rw [hf, List.nil_append], rfl⟩, hl, ?_⟩
  rw [computeGraphStatsFromDiskIndex, hh]
  simp only [show geometryOk ⟨0, 0, 4, 5, 0⟩ (elemSize .kFloat) = true
    by decide, if_true, ne_eq, Option.some.injEq]
  intro heq
  have := congrArg GraphStats.totalNodes heq
  simp [computeGraphStats] at this

/-- `emptyGraph` as an untagged disk index with `shortRecordHeader`. -/
def shortRecordUntagged : File :=
  ⟨encDiskHeader shortRecordHeader ++ List.replicate 4056 0, by
    simp only [List.length_append, List.length_replicate, length_leBytes, encDiskHeader]
    decide⟩

theorem shortRecordUntagged_rejected :
    computeGraphStatsFromDiskIndex (some shortRecordUntagged) .kFloat ≠
      some (computeGraphStats emptyGraph 0 0 1 2) := by
  have hhdr : BytesAt shortRecordUntagged 0 (encDiskHeader shortRecordHeader) :=
    ⟨[], List.replicate 4056 0, by simp only [shortRecordUntagged, List.nil_append], rfl⟩
  have hh := readDiskHeader_untagged hhdr
    (by decide) (by decide) (by decide) (by decide) (by decide) (by decide)
  rw [computeGraphStatsFromDiskIndex, hh]
  simp only [show geometryOk shortRecordHeader (elemSize .kFloat) = false
    by decide, Bool.false_eq_true, if_false, ne_eq, Option.some.injEq]
  intro heq
  have := congrArg GraphStats.entryPoint heq
  simp [computeGraphStats] at this

/-- Two well-formed untagged indexes the stats reader does not decode: five nodes read as
a tagged header of none, and no node with records too short for the geometry test. -/
theorem untaggedIndexes_misdecoded :
    (computeGraphStatsFromDiskIndex (some fiveIsolatedUntagged) .kFloat ≠
        some (computeGraphStats fiveIsolated 5 0 0 2) ∧
      DiskLayout fiveIsolatedUntagged fiveIsolatedHeader (elemSize .kFloat) fiveIsolated.nbrs) ∧
    computeGraphStatsFromDiskIndex (some shortRecordUntagged) .kFloat ≠
      some (computeGraphStats emptyGraph 0 0 1 2) :=
  ⟨⟨fiveIsolatedUntagged_misread.2.2, fiveIsolatedUntagged_misread.2.1⟩, shortRecordUntagged_rejected⟩

end Pipeann
