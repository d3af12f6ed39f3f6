import IndexInspector.DiskIndex
import IndexInspector.GraphFileLaws

/-!
# Where a well-formed disk index keeps its bytes

A disk index is a header and 4096-byte pages from offset 4096.  This module says where each
byte of a well-formed one lies and which slots the readers visit there, and gives a writer
that lays any adjacency list out that way.

## Main results

* `diskSlots_grid` — under a consistent geometry with every page present, the readers
  visit node `i` at slot `i % records_per_page` of page `i / records_per_page`, for every
  `i < n_nodes` in order: the slots are the grid.
* `sectorLoad_pageAt` — a copy out of a page buffer returns the bytes the file holds
  there.
* `readDiskHeader_tagged`, `readDiskHeader_untagged` — the header resolver on the two
  header formats.
* `encDiskIndex_layout` — the writer's output is a well-formed disk index of its list.

## Design Notes

A well-formed disk index is described by where its bytes lie, not by a writer: `DiskLayout`
names the header fields and each node's degree and ids at its place, and leaves every other
byte (coordinates, padding, page tails, trailing bytes) arbitrary.  The index writer is not
among the sources; `encDiskIndex` follows the format table and writes zeros wherever the
format leaves a byte free.  It serves as the source of concrete indexes of many pages.
-/

namespace Pipeann

/-- The page buffer of page `sec`. -/
def pageAt (f : File) (sec : Nat) : List UInt8 :=
  (f.bytes.drop (kDiskIndexDataOffset + sec * kSectorLen)).take kSectorLen

/-- The slot of node `i` in a consistent geometry: slot `i % records_per_page` of page
`i / records_per_page`. -/
def gridSlot (f : File) (h : DiskHeader) (esz i : Nat) : Slot :=
  ⟨pageAt f (i / h.nodesPerSector), i, i % h.nodesPerSector * h.maxNodeLen + nhoodOffset h esz⟩

/-- A consistent geometry: at least one record a page, the records of a page inside it,
and each record's degree field inside the record. -/
structure DiskGeometry (h : DiskHeader) (esz : Nat) : Prop where
  nodesPerSector_pos : 0 < h.nodesPerSector
  fits : h.nodesPerSector * h.maxNodeLen ≤ kSectorLen
  nhood_le : h.nDims * esz + 4 ≤ h.maxNodeLen

namespace DiskGeometry

variable {h : DiskHeader} {esz : Nat}

theorem maxNodeLen_le (hg : DiskGeometry h esz) : h.maxNodeLen ≤ kSectorLen :=
  le_trans (Nat.le_mul_of_pos_left _ hg.nodesPerSector_pos) hg.fits

theorem nhoodOffset_eq (hg : DiskGeometry h esz) : nhoodOffset h esz = h.nDims * esz := by
  have := hg.nhood_le; have := hg.maxNodeLen_le
  simp only [nhoodOffset, kSectorLen] at *
  omega

/-- A consistent geometry passes the readers' sanity test. -/
theorem geometryOk (hg : DiskGeometry h esz) : geometryOk h esz = true := by
  have := hg.nhood_le; have := hg.maxNodeLen_le
  simp only [Pipeann.geometryOk, hg.nhoodOffset_eq, kSectorLen] at *
  simp only [Bool.not_eq_true', Bool.or_eq_false_iff, decide_eq_false_iff_not]
  omega

/-- The record of slot `j < records_per_page` lies inside the page. -/
theorem slot_end_le (hg : DiskGeometry h esz) {j : Nat} (hj : j < h.nodesPerSector) :
    j * h.maxNodeLen + h.maxNodeLen ≤ kSectorLen := by
  have := Nat.mul_le_mul_right h.maxNodeLen (Nat.succ_le_of_lt hj)
  rw [Nat.succ_mul] at this
  exact le_trans this hg.fits

end DiskGeometry

theorem sectorLoad_pageAt {f : File} {sec a : Nat} {bs : List UInt8}
    (h : BytesAt f (kDiskIndexDataOffset + sec * kSectorLen + a) bs)
    (hin : a + bs.length ≤ kSectorLen) : sectorLoad (pageAt f sec) a bs.length = some bs := by
  have hend := h.le_length
  rw [sectorLoad, if_pos (by rw [pageAt, List.length_take, List.length_drop]; omega), pageAt,
    List.drop_take, List.take_take,
    Nat.min_eq_left (by omega), List.drop_drop, h.take_drop]

theorem readPage_eq_pageAt {f : File} {sec : Nat}
    (h : kDiskIndexDataOffset + (sec + 1) * kSectorLen ≤ f.bytes.length) :
    readPage f (kDiskIndexDataOffset + sec * kSectorLen) = some (pageAt f sec) := by
  rw [readPage, if_pos (by simp only [Nat.succ_mul, kSectorLen] at h ⊢; omega)]; rfl

/-- One round of the page loop over a page that is present: its slots, then the rest. -/
theorem diskSlots_succ_of_page {f : File} {h : DiskHeader} {esz fuel sec : Nat}
    (hpage : kDiskIndexDataOffset + (sec + 1) * kSectorLen ≤ f.bytes.length) :
    diskSlots f h esz (fuel + 1) sec =
      pageSlots h esz (pageAt f sec) sec h.nodesPerSector 0 ++ diskSlots f h esz fuel (sec + 1) := by
  rw [diskSlots, readPage_eq_pageAt hpage]

/-! ### The slots of a consistent geometry -/

section Grid

variable {h : DiskHeader} {esz : Nat} (hg : DiskGeometry h esz)
include hg

/-- On a page whose slots lie inside it, the slot loop visits the slots from `j` on whose
node ids are below `disk_nnodes`. -/
theorem pageSlots_grid (sector : List UInt8) (sec : Nat)
    (hwrap : sec * h.nodesPerSector + h.nodesPerSector < 2 ^ 64) (fuel j : Nat)
    (hfuel : j + fuel = h.nodesPerSector) :
    pageSlots h esz sector sec fuel j =
      (List.range' j (min fuel (h.nNodes - sec * h.nodesPerSector - j))).map
        fun jj => ⟨sector, sec * h.nodesPerSector + jj, jj * h.maxNodeLen + nhoodOffset h esz⟩ := by
  induction fuel generalizing j with
  | zero => simp [pageSlots]
  | succ fuel ih =>
    have hend := hg.slot_end_le (show j < h.nodesPerSector by omega)
    have hnhood := hg.nhood_le
    simp only [kSectorLen] at hend
    rw [pageSlots]
    simp only [Nat.mod_eq_of_lt (show sec * h.nodesPerSector + j < 2 ^ 64 by omega),
      Nat.mod_eq_of_lt (show j * h.maxNodeLen < 2 ^ 64 by omega), hg.nhoodOffset_eq,
      Nat.mod_eq_of_lt (show j * h.maxNodeLen + h.nDims * esz < 2 ^ 64 by omega)]
    by_cases hn : h.nNodes ≤ sec * h.nodesPerSector + j
    · rw [if_pos hn, show h.nNodes - sec * h.nodesPerSector - j = 0 by omega]; rfl
    · rw [if_neg hn, if_neg (by simp only [kSectorLen]; omega),
        ih (j + 1) (by omega),
        show min (fuel + 1) (h.nNodes - sec * h.nodesPerSector - j) =
          min fuel (h.nNodes - sec * h.nodesPerSector - (j + 1)) + 1 by omega,
        List.range'_succ, List.map_cons, hg.nhoodOffset_eq]

/-- Node `sec * records_per_page + jj` of a page sits at slot `jj` of page `sec`. -/
theorem gridSlot_page (f : File) (sec : Nat) {jj : Nat} (hjj : jj < h.nodesPerSector) :
    gridSlot f h esz (sec * h.nodesPerSector + jj) =
      ⟨pageAt f sec, sec * h.nodesPerSector + jj, jj * h.maxNodeLen + nhoodOffset h esz⟩ := by
  have hr := hg.nodesPerSector_pos
  rw [gridSlot, Nat.add_comm, Nat.add_mul_div_right _ _ hr, Nat.add_mul_mod_self_right,
    Nat.div_eq_of_lt hjj, Nat.mod_eq_of_lt hjj, Nat.zero_add]

/-- **The slots of a consistent geometry.**  With the page of every node present, the
page loop from page `sec` with just enough pages left visits node `i` at its grid slot,
for every `i` from `sec * records_per_page` up to `disk_nnodes`, in order. -/
theorem diskSlots_grid (f : File) (hnodes : h.nNodes < 2 ^ 63)
    (hpages : ∀ i < h.nNodes,
      kDiskIndexDataOffset + (i / h.nodesPerSector + 1) * kSectorLen ≤ f.bytes.length)
    (fuel sec : Nat) (hfuel : h.nNodes ≤ (sec + fuel) * h.nodesPerSector)
    (hfuel' : (sec + fuel) * h.nodesPerSector < h.nNodes + h.nodesPerSector) :
    diskSlots f h esz fuel sec =
      (List.range' (sec * h.nodesPerSector) (h.nNodes - sec * h.nodesPerSector)).map
        (gridSlot f h esz) := by
  have hr := hg.nodesPerSector_pos
  have hrle : h.nodesPerSector ≤ kSectorLen :=
    le_trans (Nat.le_mul_of_pos_right _ (by have := hg.nhood_le; omega)) hg.fits
  simp only [kSectorLen] at hrle
  induction fuel generalizing sec with
  | zero => simp [diskSlots, Nat.sub_eq_zero_of_le (by simpa using hfuel)]
  | succ fuel ih =>
    rw [Nat.add_mul, Nat.add_mul, Nat.one_mul] at hfuel hfuel'
    have hsec : sec * h.nodesPerSector < h.nNodes := by omega
    have hpage := hpages _ hsec
    rw [Nat.mul_div_cancel _ hr] at hpage
    have htail := ih (sec + 1) (by rw [Nat.add_mul, Nat.add_mul, Nat.one_mul]; omega)
      (by rw [Nat.add_mul, Nat.add_mul, Nat.one_mul]; omega)
    rw [diskSlots_succ_of_page hpage, pageSlots_grid hg (pageAt f sec) sec (by omega) h.nodesPerSector 0 (by omega), htail,
      Nat.add_mul, Nat.one_mul]
    set m := min h.nodesPerSector (h.nNodes - sec * h.nodesPerSector - 0)
    have hsplit : List.range' (sec * h.nodesPerSector) (h.nNodes - sec * h.nodesPerSector) =
        List.range' (sec * h.nodesPerSector) m ++
          List.range' (sec * h.nodesPerSector + h.nodesPerSector)
            (h.nNodes - (sec * h.nodesPerSector + h.nodesPerSector)) := by
      by_cases hlast : h.nNodes - sec * h.nodesPerSector ≤ h.nodesPerSector
      · rw [show h.nNodes - (sec * h.nodesPerSector + h.nodesPerSector) = 0 by omega,
          List.range'_zero, List.append_nil, show m = h.nNodes - sec * h.nodesPerSector by omega]
      · rw [show m = h.nodesPerSector by omega, List.range'_append_1]
        congr 1; omega
    rw [hsplit, List.map_append]
    refine congrArg (· ++ List.map (gridSlot f h esz) _) ?_
    rw [List.range'_eq_map_range, List.range'_eq_map_range, List.map_map, List.map_map]
    apply List.map_congr_left
    intro jj hjj
    have : jj < h.nodesPerSector := lt_of_lt_of_le (List.mem_range.mp hjj) (min_le_left _ _)
    simp only [Function.comp, Nat.zero_add, gridSlot_page hg f sec this]

end Grid

/-- The grid visits every node of a consistent geometry once, in order, when the pages of
all nodes are present. -/
theorem DiskGeometry.diskSlots_eq {h : DiskHeader} {esz : Nat} (hg : DiskGeometry h esz)
    (f : File) (hnodes : h.nNodes < 2 ^ 63)
    (hpages : ∀ i < h.nNodes,
      kDiskIndexDataOffset + (i / h.nodesPerSector + 1) * kSectorLen ≤ f.bytes.length) :
    diskSlots f h esz (nSectors h) 0 = (List.range h.nNodes).map (gridSlot f h esz) := by
  have hr := hg.nodesPerSector_pos
  have hrle : h.nodesPerSector ≤ kSectorLen :=
    le_trans (Nat.le_mul_of_pos_right _ (by have := hg.nhood_le; omega)) hg.fits
  simp only [kSectorLen] at hrle
  have hq : nSectors h = (h.nNodes + h.nodesPerSector - 1) / h.nodesPerSector := by
    rw [nSectors, Nat.mod_eq_of_lt (by omega)]
  have h1 := Nat.div_mul_le_self (h.nNodes + h.nodesPerSector - 1) h.nodesPerSector
  have h2 := Nat.lt_mul_div_succ (h.nNodes + h.nodesPerSector - 1) hr
  rw [Nat.mul_add, Nat.mul_one, Nat.mul_comm] at h2
  rw [diskSlots_grid hg f hnodes hpages _ 0 (by rw [hq, Nat.zero_add]; omega)
    (by rw [hq, Nat.zero_add]; omega), Nat.zero_mul, Nat.sub_zero, List.range_eq_range']

/-! ### The header -/

/-- The five `uint64_t` header fields as the index writer lays them. -/
def encDiskHeader (h : DiskHeader) : List UInt8 :=
  leBytes 8 h.nNodes ++ leBytes 8 h.nDims ++ leBytes 8 h.medoid ++ leBytes 8 h.maxNodeLen ++
    leBytes 8 h.nodesPerSector

/-- The header the five `uint64_t` reads of `encDiskHeader h` return: each field modulo
`2 ^ 64`. -/
def DiskHeader.readBack (h : DiskHeader) : DiskHeader :=
  ⟨h.nNodes % 2 ^ 64, h.nDims % 2 ^ 64, h.medoid % 2 ^ 64, h.maxNodeLen % 2 ^ 64,
    h.nodesPerSector % 2 ^ 64⟩

theorem DiskHeader.readBack_eq {h : DiskHeader} (h1 : h.nNodes < 2 ^ 64) (h2 : h.nDims < 2 ^ 64)
    (h3 : h.medoid < 2 ^ 64) (h4 : h.maxNodeLen < 2 ^ 64) (h5 : h.nodesPerSector < 2 ^ 64) :
    h.readBack = h := by
  simp only [readBack, Nat.mod_eq_of_lt h1, Nat.mod_eq_of_lt h2, Nat.mod_eq_of_lt h3,
    Nat.mod_eq_of_lt h4, Nat.mod_eq_of_lt h5]

theorem readDiskFields_readBack {f : File} {pos : Nat} {h : DiskHeader}
    (hb : BytesAt f pos (encDiskHeader h)) : readDiskFields f pos = some h.readBack := by
  simp only [encDiskHeader, List.append_assoc, bytesAt_append, length_leBytes, Nat.add_assoc,
    Nat.reduceAdd] at hb
  have hread : ∀ {p n : Nat}, BytesAt f p (leBytes 8 n) → readLE f p 8 = some (n % 2 ^ 64) :=
    fun hp => by rw [← length_leBytes 8, readLE_of_bytesAt hp, leNat_leBytes]; rfl
  rw [readDiskFields, hread hb.1, hread hb.2.1, hread hb.2.2.1, hread hb.2.2.2.1, hread hb.2.2.2.2]
  rfl

theorem readDiskFields_of_bytesAt {f : File} {pos : Nat} {h : DiskHeader}
    (hb : BytesAt f pos (encDiskHeader h)) (h1 : h.nNodes < 2 ^ 64) (h2 : h.nDims < 2 ^ 64)
    (h3 : h.medoid < 2 ^ 64) (h4 : h.maxNodeLen < 2 ^ 64) (h5 : h.nodesPerSector < 2 ^ 64) :
    readDiskFields f pos = some h := by
  rw [readDiskFields_readBack hb, h.readBack_eq h1 h2 h3 h4 h5]

/-- A tagged header: a tag whose first `int32_t` is at least 5, and the fields at 8. -/
theorem readDiskHeader_tagged_readBack {f : File} {h : DiskHeader} {metaNpts : Nat}
    (htag : BytesAt f 0 (leBytes 4 metaNpts)) (hm : metaNpts < 2 ^ 32) (hnpts : 5 ≤ toInt32 metaNpts)
    (hb : BytesAt f 8 (encDiskHeader h)) : readDiskHeader f = some h.readBack := by
  have hend := hb.le_length
  obtain ⟨w, hw⟩ : ∃ w, readLE f 4 4 = some w :=
    Option.ne_none_iff_exists'.mp (by rw [Ne, readLE_eq_none_iff]; omega)
  rw [readDiskHeader, readLE_leBytes htag hm, hw]
  simp only [if_pos hnpts]
  exact readDiskFields_readBack hb

theorem readDiskHeader_tagged {f : File} {h : DiskHeader} {metaNpts : Nat}
    (htag : BytesAt f 0 (leBytes 4 metaNpts)) (hm : metaNpts < 2 ^ 32) (hnpts : 5 ≤ toInt32 metaNpts)
    (hb : BytesAt f 8 (encDiskHeader h)) (h1 : h.nNodes < 2 ^ 64) (h2 : h.nDims < 2 ^ 64)
    (h3 : h.medoid < 2 ^ 64) (h4 : h.maxNodeLen < 2 ^ 64) (h5 : h.nodesPerSector < 2 ^ 64) :
    readDiskHeader f = some h := by
  rw [readDiskHeader_tagged_readBack htag hm hnpts hb, h.readBack_eq h1 h2 h3 h4 h5]

/-- An untagged header whose node count does not read as a tag: its low 32 bits are not
an `int32_t` of at least 5. -/
theorem readDiskHeader_untagged {f : File} {h : DiskHeader} (hb : BytesAt f 0 (encDiskHeader h))
    (hnpts : toInt32 (h.nNodes % 2 ^ 32) < 5) (h1 : h.nNodes < 2 ^ 64) (h2 : h.nDims < 2 ^ 64)
    (h3 : h.medoid < 2 ^ 64) (h4 : h.maxNodeLen < 2 ^ 64) (h5 : h.nodesPerSector < 2 ^ 64) :
    readDiskHeader f = some h := by
  have hend := hb.le_length
  have hlow : BytesAt f 0 (leBytes 4 h.nNodes) := by
    simp only [encDiskHeader, List.append_assoc, show leBytes 8 h.nNodes =
      leBytes 4 h.nNodes ++ leBytes 4 (h.nNodes / 256 ^ 4) from leBytes_add 4 4 _] at hb
    exact (bytesAt_append.mp hb).1
  have h0 := readLE_of_bytesAt hlow
  rw [length_leBytes, leNat_leBytes] at h0
  obtain ⟨w, hw⟩ : ∃ w, readLE f 4 4 = some w :=
    Option.ne_none_iff_exists'.mp (by
      rw [Ne, readLE_eq_none_iff]
      simp only [encDiskHeader, List.length_append, length_leBytes] at hend
      omega)
  rw [readDiskHeader, h0, hw]
  simp only [if_neg (show ¬ toInt32 (h.nNodes % 256 ^ 4) ≥ 5 by simpa using hnpts)]
  exact readDiskFields_of_bytesAt hb h1 h2 h3 h4 h5

/-! ### Well-formed disk indexes -/

/-- Where node `i`'s degree field lies in a disk index: after the coordinates of slot
`i % records_per_page` of page `i / records_per_page`. -/
def degreePos (h : DiskHeader) (esz i : Nat) : Nat :=
  kDiskIndexDataOffset + i / h.nodesPerSector * kSectorLen +
    (i % h.nodesPerSector * h.maxNodeLen + h.nDims * esz)

/-- `f` holds the adjacency list `g` as a disk index with header `h`: a consistent
geometry, each node's degree and ids at its slot and inside its record, and all
`⌈n_nodes / records_per_page⌉` pages.  Every other byte is arbitrary. -/
structure DiskLayout (f : File) (h : DiskHeader) (esz : Nat) (g : List (List UInt32)) : Prop where
  geometry : DiskGeometry h esz
  nNodes_eq : h.nNodes = g.length
  record_le : ∀ ids ∈ g, h.nDims * esz + 4 + 4 * ids.length ≤ h.maxNodeLen
  record : ∀ i (hi : i < g.length), BytesAt f (degreePos h esz i) (encRecord g[i])
  pages : kDiskIndexDataOffset + (h.nNodes + h.nodesPerSector - 1) / h.nodesPerSector * kSectorLen ≤
    f.bytes.length

namespace DiskLayout

variable {f : File} {h : DiskHeader} {esz : Nat} {g : List (List UInt32)}

theorem nodesPerSector_le (hl : DiskLayout f h esz g) : h.nodesPerSector ≤ kSectorLen :=
  le_trans (Nat.le_mul_of_pos_right _ (by have := hl.geometry.nhood_le; omega)) hl.geometry.fits

/-- The page of every node is present. -/
theorem page_le (hl : DiskLayout f h esz g) {i : Nat} (hi : i < h.nNodes) :
    kDiskIndexDataOffset + (i / h.nodesPerSector + 1) * kSectorLen ≤ f.bytes.length := by
  have hr := hl.geometry.nodesPerSector_pos
  have hq : i / h.nodesPerSector + 1 ≤ (h.nNodes + h.nodesPerSector - 1) / h.nodesPerSector := by
    rw [Nat.le_div_iff_mul_le hr, Nat.add_mul, Nat.one_mul]
    have := Nat.div_mul_le_self i h.nodesPerSector
    omega
  have := Nat.mul_le_mul_right kSectorLen hq
  have := hl.pages
  omega

theorem nNodes_lt (hl : DiskLayout f h esz g) : h.nNodes < 2 ^ 63 := by
  have hr := hl.geometry.nodesPerSector_pos
  have hrle := hl.nodesPerSector_le
  set q := (h.nNodes + h.nodesPerSector - 1) / h.nodesPerSector
  have h1 : h.nNodes + h.nodesPerSector - 1 < h.nodesPerSector * q + h.nodesPerSector := by
    simpa [Nat.mul_add] using Nat.lt_mul_div_succ (h.nNodes + h.nodesPerSector - 1) hr
  have h2 : h.nodesPerSector * q ≤ q * kSectorLen := by
    rw [Nat.mul_comm q]; exact Nat.mul_le_mul_right q hrle
  have := hl.pages
  have := f.length_lt
  simp only [kSectorLen, kDiskIndexDataOffset] at *
  omega

end DiskLayout

theorem elemSize_pos (t : DiskIndexDataType) : 0 < elemSize t := by cases t <;> decide

/-- Every header field of a well-formed disk index with a `uint64_t` medoid is a
`uint64_t`. -/
theorem DiskLayout.fields_lt {f : File} {h : DiskHeader} {t : DiskIndexDataType}
    {g : List (List UInt32)} (hl : DiskLayout f h (elemSize t) g) (hmedoid : h.medoid < 2 ^ 64) :
    h.nNodes < 2 ^ 64 ∧ h.nDims < 2 ^ 64 ∧ h.medoid < 2 ^ 64 ∧ h.maxNodeLen < 2 ^ 64 ∧
      h.nodesPerSector < 2 ^ 64 := by
  have := hl.nNodes_lt
  have := hl.nodesPerSector_le
  have := hl.geometry.maxNodeLen_le
  have := hl.geometry.nhood_le
  have := Nat.le_mul_of_pos_right h.nDims (elemSize_pos t)
  simp only [kSectorLen] at *
  omega

/-! ### A writer -/

/-- One record: zero coordinates, the degree and the ids, then zeros up to
`max_node_len`. -/
def encDiskRecord (h : DiskHeader) (esz : Nat) (ids : List UInt32) : List UInt8 :=
  List.replicate (h.nDims * esz) 0 ++ encRecord ids ++
    List.replicate (h.maxNodeLen - (h.nDims * esz + 4 + 4 * ids.length)) 0

/-- One page: its records end to end, then zeros up to `kSectorLen`. -/
def encDiskPage (h : DiskHeader) (esz : Nat) (recs : List (List UInt32)) : List UInt8 :=
  recs.flatMap (encDiskRecord h esz) ++ List.replicate (kSectorLen - recs.length * h.maxNodeLen) 0

/-- The records of page `p`: `records_per_page` of them from node `p * records_per_page`. -/
def pageRecords (h : DiskHeader) (g : List (List UInt32)) (p : Nat) : List (List UInt32) :=
  (g.drop (p * h.nodesPerSector)).take h.nodesPerSector

/-- A disk index of `g`: `pre` (a tag, or nothing), the header, zeros up to
`kDiskIndexDataOffset`, then the `⌈|g| / records_per_page⌉` pages. -/
def encDiskIndex (pre : List UInt8) (h : DiskHeader) (esz : Nat) (g : List (List UInt32)) :
    List UInt8 :=
  pre ++ encDiskHeader h ++ List.replicate (kDiskIndexDataOffset - (pre.length + 40)) 0 ++
    (List.range ((g.length + h.nodesPerSector - 1) / h.nodesPerSector)).flatMap
      fun p => encDiskPage h esz (pageRecords h g p)

theorem length_flatMap_of_length {α : Type} (F : α → List UInt8) {K : Nat} :
    ∀ {xs : List α}, (∀ x ∈ xs, (F x).length = K) → (xs.flatMap F).length = xs.length * K
  | [], _ => by simp
  | y :: xs, hK => by
    rw [List.flatMap_cons, List.length_append, hK y (List.mem_cons_self y xs),
      length_flatMap_of_length F fun z hz => hK z (List.mem_cons_of_mem y hz), List.length_cons,
      Nat.succ_mul, Nat.add_comm]

/-- In a concatenation of pieces of one length `K`, piece `j` starts at `j * K`. -/
theorem flatMap_eq_of_getElem? {α : Type} (F : α → List UInt8) {K : Nat} :
    ∀ {xs : List α}, (∀ x ∈ xs, (F x).length = K) → ∀ {j : Nat} {x : α}, xs[j]? = some x →
      ∃ a b, xs.flatMap F = a ++ F x ++ b ∧ a.length = j * K
  | [], _, _, _, hx => by simp at hx
  | y :: xs, _, 0, x, hx => by
    obtain rfl : y = x := by simpa using hx
    exact ⟨[], xs.flatMap F, by simp, by simp⟩
  | y :: xs, hK, j + 1, x, hx => by
    obtain ⟨a, b, he, hl⟩ := flatMap_eq_of_getElem? F (fun z hz => hK z (List.mem_cons_of_mem y hz))
      (by simpa using hx)
    refine ⟨F y ++ a, b, by simp [he], ?_⟩
    rw [List.length_append, hl, hK y (List.mem_cons_self y xs), Nat.succ_mul, Nat.add_comm]

section Writer

variable {h : DiskHeader} {esz : Nat} {g : List (List UInt32)}

theorem length_encDiskRecord {ids : List UInt32} (hfit : h.nDims * esz + 4 + 4 * ids.length ≤ h.maxNodeLen) :
    (encDiskRecord h esz ids).length = h.maxNodeLen := by
  simp only [encDiskRecord, List.length_append, List.length_replicate, length_encRecord]
  omega

theorem mem_pageRecords {p : Nat} {ids : List UInt32} (hids : ids ∈ pageRecords h g p) : ids ∈ g :=
  List.mem_of_mem_drop (List.mem_of_mem_take hids)

/-- Every page the writer lays is one page long. -/
theorem length_encDiskPage (hg : DiskGeometry h esz)
    (hrec : ∀ ids ∈ g, h.nDims * esz + 4 + 4 * ids.length ≤ h.maxNodeLen) (p : Nat) :
    (encDiskPage h esz (pageRecords h g p)).length = kSectorLen := by
  have hlen : (pageRecords h g p).length ≤ h.nodesPerSector := List.length_take_le _ _
  have := Nat.mul_le_mul_right h.maxNodeLen hlen
  have := hg.fits
  rw [encDiskPage, List.length_append, List.length_replicate,
    length_flatMap_of_length _ fun ids hids => length_encDiskRecord (hrec ids (mem_pageRecords hids))]
  omega

theorem length_encDiskIndex {pre : List UInt8} (hg : DiskGeometry h esz)
    (hrec : ∀ ids ∈ g, h.nDims * esz + 4 + 4 * ids.length ≤ h.maxNodeLen)
    (hpre : pre.length + 40 ≤ kDiskIndexDataOffset) :
    (encDiskIndex pre h esz g).length =
      kDiskIndexDataOffset + (g.length + h.nodesPerSector - 1) / h.nodesPerSector * kSectorLen := by
  rw [encDiskIndex, List.length_append, length_flatMap_of_length _ fun p _ => length_encDiskPage hg hrec p]
  simp only [List.length_append, List.length_replicate, List.length_range, encDiskHeader, length_leBytes]
  omega

/-- Node `i` of the page holding it is its record `i % records_per_page`. -/
theorem getElem?_pageRecords (hr : 0 < h.nodesPerSector) {i : Nat} (hi : i < g.length) :
    (pageRecords h g (i / h.nodesPerSector))[i % h.nodesPerSector]? = some g[i] := by
  rw [pageRecords, List.getElem?_take, if_pos (Nat.mod_lt i hr), List.getElem?_drop,
    Nat.mul_comm, Nat.div_add_mod, List.getElem?_eq_getElem hi]

/-- The writer puts node `i`'s degree and ids at its place. -/
theorem encDiskIndex_record {pre : List UInt8} (hg : DiskGeometry h esz)
    (hrec : ∀ ids ∈ g, h.nDims * esz + 4 + 4 * ids.length ≤ h.maxNodeLen)
    (hpre : pre.length + 40 ≤ kDiskIndexDataOffset) {i : Nat} (hi : i < g.length) :
    ∃ a b, encDiskIndex pre h esz g = a ++ encRecord g[i] ++ b ∧ a.length = degreePos h esz i := by
  have hr := hg.nodesPerSector_pos
  have hpage : i / h.nodesPerSector < (g.length + h.nodesPerSector - 1) / h.nodesPerSector := by
    rw [← Nat.succ_le, Nat.le_div_iff_mul_le hr, Nat.succ_mul]
    have := Nat.div_mul_le_self i h.nodesPerSector
    omega
  obtain ⟨A, B, hpages, hA⟩ := flatMap_eq_of_getElem? (fun p => encDiskPage h esz (pageRecords h g p))
    (fun p _ => length_encDiskPage hg hrec p) (List.getElem?_range hpage)
  obtain ⟨C, D, hrecs, hC⟩ := flatMap_eq_of_getElem? (encDiskRecord h esz)
    (fun ids hids => length_encDiskRecord (hrec ids (mem_pageRecords hids))) (getElem?_pageRecords hr hi)
  refine ⟨pre ++ encDiskHeader h ++ List.replicate (kDiskIndexDataOffset - (pre.length + 40)) 0 ++ A ++
      C ++ List.replicate (h.nDims * esz) 0,
    List.replicate (h.maxNodeLen - (h.nDims * esz + 4 + 4 * g[i].length)) 0 ++ D ++
      List.replicate (kSectorLen - (pageRecords h g (i / h.nodesPerSector)).length * h.maxNodeLen) 0 ++ B,
    ?_, ?_⟩
  · rw [encDiskIndex, hpages, encDiskPage, hrecs, encDiskRecord]
    simp only [List.append_assoc]
  · simp only [List.length_append, List.length_replicate, hA, hC, encDiskHeader, length_leBytes, degreePos]
    omega

/-- **The writer lays out a well-formed disk index.**  For a consistent geometry whose
records hold every node, the writer's output, read as a file, holds `g` with header `h`. -/
theorem encDiskIndex_layout {pre : List UInt8} (hg : DiskGeometry h esz) (hn : h.nNodes = g.length)
    (hrec : ∀ ids ∈ g, h.nDims * esz + 4 + 4 * ids.length ≤ h.maxNodeLen)
    (hpre : pre.length + 40 ≤ kDiskIndexDataOffset)
    (hlen : (encDiskIndex pre h esz g).length < 2 ^ 63) :
    DiskLayout ⟨encDiskIndex pre h esz g, hlen⟩ h esz g where
  geometry := hg
  nNodes_eq := hn
  record_le := hrec
  record := fun _ hi => encDiskIndex_record hg hrec hpre hi
  pages := by rw [length_encDiskIndex hg hrec hpre, hn]

/-- The writer's header stands after `pre`. -/
theorem encDiskIndex_header (pre : List UInt8) (h : DiskHeader) (esz : Nat) (g : List (List UInt32))
    (hlen : (encDiskIndex pre h esz g).length < 2 ^ 63) :
    BytesAt ⟨encDiskIndex pre h esz g, hlen⟩ pre.length (encDiskHeader h) :=
  ⟨pre, _, by simp only [encDiskIndex, List.append_assoc]; exact rfl, rfl⟩

theorem encDiskIndex_pre (pre : List UInt8) (h : DiskHeader) (esz : Nat) (g : List (List UInt32))
    (hlen : (encDiskIndex pre h esz g).length < 2 ^ 63) :
    BytesAt ⟨encDiskIndex pre h esz g, hlen⟩ 0 pre :=
  ⟨[], _, by simp only [encDiskIndex, List.nil_append, List.append_assoc]; exact rfl, rfl⟩

end Writer

end Pipeann
