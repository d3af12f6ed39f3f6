import IndexInspector.DiskIndexLaws

/-!
# What the disk-index samplers print

`DiskIndex` gives each sampler as a fold of its body over `diskSlots`, guarded by its line
counter.  This module first says which slots a reader visits on every file, then gives
both samplers in closed form over those slots, and last compares them.

## Main results

* `mem_diskSlots` — every visited slot lies on a fully read page, has a node id below
  `disk_nnodes` and passed the in-page test; `map_nodeId_diskIndexSlots_sublist` — the node
  ids of the visited slots increase, so there are at most `disk_nnodes` of them.
* `foldSlots_collect` — a run whose guard counts the items its body collects collects the
  items of the first slots; both samplers are such runs.
* `printAdjacencySampleFromDiskIndex_lines` and `printSmallGraphFromDiskIndex_lines` — the
  node lines of each sampler are a map over the first `num_nodes` visited slots.
* `wrapIndex_outOfPage` — a degree offset that wraps passes the in-page test and is copied
  from outside the page buffer.
* `slotLines_of_fits`, `diskSamplers_agree` — the two samplers show the same ids for a
  record whose ids lie inside its page, and label their lines differently.
* `slotStoredIds_of_overrun`, `gapIndex_diverges` — for a record whose ids run past its
  page the small graph keeps the ids that fit, where the adjacency sample can show none;
  on `gapIndex` the two samplers print different lines for the same slots.

## Design Notes

The samplers are undefined (`none`) exactly when a `memcpy` they reach leaves the page
buffer.  The closed forms keep that: they are `mapM`s over the slots, so a reader is defined
iff every slot it reaches yields its line.
-/

namespace Pipeann

/-! ### The slots a reader visits -/

/-- The slots the three readers of a disk index visit when no counter stops them: none
when the header does not read, a page holds no record or the geometry is rejected. -/
def diskIndexSlots (f : File) (dataType : DiskIndexDataType) : List Slot :=
  match readDiskHeader f with
  | none => []
  | some h =>
    if h.nodesPerSector ≠ 0 ∧ geometryOk h (elemSize dataType) = true then
      diskSlots f h (elemSize dataType) (nSectors h) 0
    else []

theorem length_of_readPage {f : File} {pos : Nat} {sector : List UInt8}
    (h : readPage f pos = some sector) : sector.length = kSectorLen := by
  unfold readPage at h
  split at h
  · cases h; simp only [List.length_take, List.length_drop, kSectorLen]; omega
  · cases h

/-- Every slot the slot loop reaches passed its two tests: a node id below `disk_nnodes`,
and a degree field whose end, in `size_t`, is inside the page. -/
theorem mem_pageSlots {h : DiskHeader} {esz : Nat} {sector : List UInt8} {sec fuel j : Nat}
    {sl : Slot} (hsl : sl ∈ pageSlots h esz sector sec fuel j) :
    sl.sector = sector ∧ sl.nodeId < h.nNodes ∧ (sl.degOff + 4) % 2 ^ 64 ≤ kSectorLen := by
  induction fuel generalizing j with
  | zero => cases hsl
  | succ fuel ih =>
    simp only [pageSlots] at hsl
    split at hsl
    · cases hsl
    · split at hsl
      · cases hsl
      · rcases List.mem_cons.mp hsl with rfl | hsl
        · dsimp only; exact ⟨rfl, by omega, by omega⟩
        · exact ih hsl

/-- **What a visited slot is.**  Every slot the page loop reaches lies on a fully read
page, has a node id below `disk_nnodes` and passed the in-page test. -/
theorem mem_diskSlots {f : File} {h : DiskHeader} {esz fuel sec : Nat} {sl : Slot}
    (hsl : sl ∈ diskSlots f h esz fuel sec) :
    sl.sector.length = kSectorLen ∧ sl.nodeId < h.nNodes ∧ (sl.degOff + 4) % 2 ^ 64 ≤ kSectorLen := by
  induction fuel generalizing sec with
  | zero => cases hsl
  | succ fuel ih =>
    simp only [diskSlots] at hsl
    split at hsl
    · cases hsl
    · rcases List.mem_append.mp hsl with hsl | hsl
      · obtain ⟨rfl, hn, hd⟩ := mem_pageSlots hsl
        exact ⟨length_of_readPage ‹_›, hn, hd⟩
      · exact ih hsl

/-- Without wrap-around, the node ids of a page's slots from `j` are consecutive and below
`disk_nnodes`. -/
theorem map_nodeId_pageSlots (h : DiskHeader) (esz : Nat) (sector : List UInt8) (sec : Nat)
    (fuel j : Nat) (hwrap : sec * h.nodesPerSector + j + fuel ≤ 2 ^ 64) :
    ∃ k, k ≤ fuel ∧ k ≤ h.nNodes - (sec * h.nodesPerSector + j) ∧
      (pageSlots h esz sector sec fuel j).map Slot.nodeId =
        List.range' (sec * h.nodesPerSector + j) k := by
  induction fuel generalizing j with
  | zero => exact ⟨0, le_rfl, Nat.zero_le _, rfl⟩
  | succ fuel ih =>
    have hid : (sec * h.nodesPerSector + j) % 2 ^ 64 = sec * h.nodesPerSector + j :=
      Nat.mod_eq_of_lt (by omega)
    simp only [pageSlots, hid]
    split
    · exact ⟨0, by omega, Nat.zero_le _, rfl⟩
    · split
      · exact ⟨0, by omega, Nat.zero_le _, rfl⟩
      · obtain ⟨k, hk, hkn, hids⟩ := ih (j + 1) (by omega)
        refine ⟨k + 1, by omega, by omega, ?_⟩
        rw [List.map_cons, hids, List.range'_succ, Nat.add_assoc]

/-- Without wrap-around, the node ids the page loop visits from page `sec` increase and
lie in `[sec * records_per_page, disk_nnodes)`. -/
theorem map_nodeId_diskSlots_sublist (f : File) (h : DiskHeader) (esz : Nat) (fuel sec : Nat)
    (hwrap : (sec + fuel) * h.nodesPerSector ≤ 2 ^ 64) :
    List.Sublist ((diskSlots f h esz fuel sec).map Slot.nodeId)
      (List.range' (sec * h.nodesPerSector) (h.nNodes - sec * h.nodesPerSector)) := by
  induction fuel generalizing sec with
  | zero => exact List.nil_sublist _
  | succ fuel ih =>
    rw [Nat.add_mul, Nat.add_mul, Nat.one_mul] at hwrap
    rw [diskSlots]
    split
    · exact List.nil_sublist _
    · obtain ⟨k, hk, hkn, hids⟩ := map_nodeId_pageSlots h esz _ sec h.nodesPerSector 0 (by omega)
      have htail := ih (sec + 1) (by rw [Nat.add_mul, Nat.add_mul, Nat.one_mul]; omega)
      rw [Nat.add_mul, Nat.one_mul] at htail
      rw [List.map_append, hids, Nat.add_zero]
      by_cases hlast : sec * h.nodesPerSector + h.nodesPerSector ≤ h.nNodes
      · rw [show h.nNodes - sec * h.nodesPerSector =
            h.nNodes - (sec * h.nodesPerSector + h.nodesPerSector) + h.nodesPerSector by omega,
          ← List.range'_append_1]
        exact (List.range'_sublist_right.mpr hk).append htail
      · rw [show h.nNodes - (sec * h.nodesPerSector + h.nodesPerSector) = 0 by omega,
          List.range'_zero, List.sublist_nil] at htail
        rw [htail, List.append_nil]
        exact List.range'_sublist_right.mpr (by omega)

/-- **Node ids never wrap.**  The node ids of the visited slots increase and lie below
`disk_nnodes`. -/
theorem map_nodeId_diskIndexSlots_sublist {f : File} (dataType : DiskIndexDataType)
    {h : DiskHeader} (hh : readDiskHeader f = some h) :
    List.Sublist ((diskIndexSlots f dataType).map Slot.nodeId) (List.range h.nNodes) := by
  rw [diskIndexSlots, hh]
  dsimp only
  split
  · have hw : (0 + nSectors h) * h.nodesPerSector ≤ 2 ^ 64 := by
      have := Nat.div_mul_le_self ((h.nNodes + h.nodesPerSector - 1) % 2 ^ 64) h.nodesPerSector
      have := Nat.mod_lt (h.nNodes + h.nodesPerSector - 1) (Nat.two_pow_pos 64)
      rw [Nat.zero_add, nSectors]
      omega
    simpa [List.range_eq_range'] using map_nodeId_diskSlots_sublist f h _ _ 0 hw
  · exact List.nil_sublist _

/-! ### The samplers over their slots -/

/-- The line the adjacency sampler prints for a slot, the degree copy included. -/
def slotAdjacencyLine (maxNbrs : Nat) (sl : Slot) : Option NodeLine :=
  (slotDegree sl).bind (diskAdjacencyLine maxNbrs sl)

/-- The ids the small-graph printer stores for a slot, the degree copy included. -/
def slotStoredIds (sl : Slot) : Option (List UInt32) :=
  (slotDegree sl).bind (diskStoredIds sl)

theorem length_of_mapM_eq_some {α β : Type} {f : α → Option β} :
    ∀ {l : List α} {l' : List β}, l.mapM f = some l' → l'.length = l.length
  | [], l', h => by cases h; rfl
  | x :: l, l', h => by
    simp only [List.mapM_cons, Option.bind_eq_bind, Option.bind_eq_some, Option.pure_def,
      Option.some.injEq] at h
    obtain ⟨y, -, ys, hys, rfl⟩ := h
    simp [length_of_mapM_eq_some hys]

theorem getElem_of_mapM_eq_some {α β : Type} {f : α → Option β} :
    ∀ {l : List α} {l' : List β}, l.mapM f = some l' →
      ∀ i (h : i < l.length) (h' : i < l'.length), f l[i] = some l'[i]
  | [], _, _, i, h, _ => absurd h (Nat.not_lt_zero i)
  | x :: l, l', hm, i, h, h' => by
    simp only [List.mapM_cons, Option.bind_eq_bind, Option.bind_eq_some, Option.pure_def,
      Option.some.injEq] at hm
    obtain ⟨y, hy, ys, hys, rfl⟩ := hm
    cases i with
    | zero => exact hy
    | succ i => exact getElem_of_mapM_eq_some hys i (by simpa using h) (by simpa using h')

theorem slotAdjacencyLine_label {maxNbrs : Nat} {sl : Slot} {l : NodeLine}
    (h : slotAdjacencyLine maxNbrs sl = some l) : l.label = sl.nodeId := by
  obtain ⟨d, -, h⟩ := Option.bind_eq_some.mp h
  unfold diskAdjacencyLine at h
  dsimp only at h
  split at h <;>
  · simp only [Option.bind_eq_bind, Option.bind_eq_some, Option.pure_def, Option.some.injEq] at h
    obtain ⟨_, -, rfl⟩ := h
    rfl

/-- **A counted run.**  When the state is a function `st` of the items collected so far,
the guard counts them against `N`, and the body collects the item `line` yields for a
slot, the run collects the items of the first slots until it has `N`, and is defined iff
each of those slots yields its degree and its item. -/
theorem foldSlots_collect {σ β : Type} (more : σ → Bool) (body : σ → Slot → Nat → Option σ)
    (line : Slot → Nat → Option β) (st : List β → σ) (N : Nat)
    (hmore : ∀ xs, more (st xs) = decide (xs.length < N))
    (hbody : ∀ xs sl d, xs.length < N →
      body (st xs) sl d = (line sl d).map fun x => st (xs ++ [x]))
    (xs : List β) (sls : List Slot) :
    foldSlots more body (st xs) sls =
      ((sls.take (N - xs.length)).mapM fun sl => (slotDegree sl).bind (line sl)).map
        fun new => st (xs ++ new) := by
  induction sls generalizing xs with
  | nil => simp only [foldSlots_nil, List.take_nil, List.mapM_nil]; simp
  | cons sl sls ih =>
    by_cases hn : xs.length < N
    · obtain ⟨m, hm⟩ : ∃ m, N - xs.length = m + 1 := ⟨N - xs.length - 1, by omega⟩
      simp only [foldSlots, hmore, decide_eq_true_eq, if_pos hn, hm, List.take_succ_cons,
        List.mapM_cons, Option.bind_eq_bind]
      rw [slotDegree]
      cases sectorLoad sl.sector sl.degOff 4 with
      | none => rfl
      | some d =>
        simp only [Option.map_some', Option.some_bind, hbody xs sl (leNat d) hn]
        cases line sl (leNat d) with
        | none => rfl
        | some x =>
          have := ih (xs ++ [x])
          rw [List.length_append, List.length_singleton, show N - (xs.length + 1) = m by omega] at this
          simp only [Option.map_some', Option.some_bind, this]
          cases (sls.take m).mapM (fun sl => (slotDegree sl).bind (line sl)) <;> simp
    · rw [foldSlots_of_not_more _ _ (by simpa [hmore] using hn), show N - xs.length = 0 by omega,
        List.take_zero, List.mapM_nil]
      simp

/-- The adjacency sampler's run from `lines` prints one line per slot until it has
`num_nodes` of them. -/
theorem foldSlots_diskAdjacencyBody (maxNbrs numNodes : Nat) (lines : List NodeLine)
    (sls : List Slot) :
    foldSlots (fun s => s.1 < numNodes) (diskAdjacencyBody maxNbrs) (lines.length, lines) sls =
      ((sls.take (numNodes - lines.length)).mapM (slotAdjacencyLine maxNbrs)).map
        fun new => ((lines ++ new).length, lines ++ new) :=
  foldSlots_collect _ _ (diskAdjacencyLine maxNbrs) (fun lines => (lines.length, lines)) numNodes
    (fun _ => rfl)
    (fun _ _ _ _ => by simp only [diskAdjacencyBody, List.length_append, List.length_singleton])
    lines sls

/-- The small-graph printer's run from the stored `outs` stores one id array per slot
until it has `n` of them, and keeps the reverse edges in closed form. -/
theorem foldSlots_diskSmallGraphBody (n : Nat) (outs : List (List UInt32)) (sls : List Slot) :
    foldSlots (fun s => s.nodeId < n) (diskSmallGraphBody n)
        ⟨outs.length, (sampleState n outs).1, (sampleState n outs).2⟩ sls =
      ((sls.take (n - outs.length)).mapM slotStoredIds).map fun new =>
        ⟨(outs ++ new).length, (sampleState n (outs ++ new)).1, (sampleState n (outs ++ new)).2⟩ :=
  foldSlots_collect _ (diskSmallGraphBody n) diskStoredIds
    (fun outs => ⟨outs.length, (sampleState n outs).1, (sampleState n outs).2⟩) n (fun _ => rfl)
    (fun xs _ _ hn => by
      simp only [diskSmallGraphBody, ← sampleState_snoc n xs _ hn, List.length_append,
        List.length_singleton])
    outs sls

/-! ### The samplers in closed form -/

theorem diskIndexSlots_eq {f : File} {dataType : DiskIndexDataType} {h : DiskHeader}
    (hh : readDiskHeader f = some h) (hr : h.nodesPerSector ≠ 0)
    (hg : geometryOk h (elemSize dataType) = true) :
    diskIndexSlots f dataType = diskSlots f h (elemSize dataType) (nSectors h) 0 := by
  simp [diskIndexSlots, hh, hr, hg]

theorem length_diskIndexSlots_le {f : File} (dataType : DiskIndexDataType) {h : DiskHeader}
    (hh : readDiskHeader f = some h) : (diskIndexSlots f dataType).length ≤ h.nNodes := by
  simpa using (map_nodeId_diskIndexSlots_sublist dataType hh).length_le

theorem mem_diskIndexSlots {f : File} {dataType : DiskIndexDataType} {sl : Slot}
    (hsl : sl ∈ diskIndexSlots f dataType) :
    sl.sector.length = kSectorLen ∧ (sl.degOff + 4) % 2 ^ 64 ≤ kSectorLen := by
  unfold diskIndexSlots at hsl
  split at hsl
  · cases hsl
  · split at hsl
    · have := mem_diskSlots hsl
      exact ⟨this.1, this.2.2⟩
    · cases hsl

theorem pairwise_nodeId_diskIndexSlots (f : File) (dataType : DiskIndexDataType) :
    ((diskIndexSlots f dataType).map Slot.nodeId).Pairwise (· < ·) := by
  cases hh : readDiskHeader f with
  | none => simp [diskIndexSlots, hh]
  | some h => exact (List.pairwise_lt_range _).sublist (map_nodeId_diskIndexSlots_sublist dataType hh)

/-- **The adjacency sampler in closed form.**  On every file it prints the lines of the
first `num_nodes` visited slots, and is defined iff each of those slots yields its line. -/
theorem printAdjacencySampleFromDiskIndex_lines (path : String) (f : File)
    (dataType : DiskIndexDataType) (numNodes maxNbrs : Nat) :
    (printAdjacencySampleFromDiskIndex path (some f) dataType numNodes maxNbrs).map nodeLines =
      ((diskIndexSlots f dataType).take numNodes).mapM (slotAdjacencyLine maxNbrs) := by
  cases hh : readDiskHeader f with
  | none => simp [printAdjacencySampleFromDiskIndex, diskIndexSlots, hh, List.mapM.loop]
  | some h =>
    by_cases hr : h.nodesPerSector = 0
    · simp [printAdjacencySampleFromDiskIndex, diskIndexSlots, hh, hr, List.mapM.loop]
    by_cases hg : geometryOk h (elemSize dataType) = true
    · have hscan := foldSlots_diskAdjacencyBody maxNbrs numNodes []
        (diskSlots f h (elemSize dataType) (nSectors h) 0)
      simp only [List.length_nil, List.nil_append, Nat.sub_zero] at hscan
      simp only [printAdjacencySampleFromDiskIndex, hh, hr, hg, if_false, if_true,
        pageLoop_eq_foldSlots, hscan, diskIndexSlots_eq hh hr hg]
      cases (List.take numNodes (diskSlots f h (elemSize dataType) (nSectors h) 0)).mapM
        (slotAdjacencyLine maxNbrs) <;> simp
    · simp [printAdjacencySampleFromDiskIndex, diskIndexSlots, hh, hr, hg, List.mapM.loop]

/-- **The small-graph printer in closed form.**  On every file it prints the sample lines
of the id arrays of the first `num_nodes` visited slots, and is defined iff each of those
slots yields its ids, unless `out_nbrs(num_nodes)` throws first. -/
theorem printSmallGraphFromDiskIndex_lines (path : String) (f : File)
    (dataType : DiskIndexDataType) (numNodes maxNbrs : Nat) :
    (printSmallGraphFromDiskIndex path (some f) dataType numNodes maxNbrs).map nodeLines =
      if smallGraphFromDiskIndexThrows (some f) dataType numNodes then some []
      else (((diskIndexSlots f dataType).take numNodes).mapM slotStoredIds).map (sampleLines maxNbrs) := by
  cases hh : readDiskHeader f with
  | none =>
    simp [printSmallGraphFromDiskIndex, smallGraphFromDiskIndexThrows, diskIndexSlots, hh,
      List.mapM.loop]
  | some h =>
    by_cases hr : h.nodesPerSector = 0
    · simp [printSmallGraphFromDiskIndex, smallGraphFromDiskIndexThrows, diskIndexSlots, hh, hr,
        List.mapM.loop]
    by_cases hg : geometryOk h (elemSize dataType) = true
    · set n := if numNodes > h.nNodes then h.nNodes else numNodes with hn
      have hthrows : smallGraphFromDiskIndexThrows (some f) dataType numNodes =
          decide (kVectorMaxSize < n) := by
        simp [smallGraphFromDiskIndexThrows, hh, hr, hg, ← hn]
      rw [hthrows]
      by_cases hN : kVectorMaxSize < n
      · simp only [printSmallGraphFromDiskIndex, hh, hr, hg, if_false, if_true, ← hn,
          if_pos hN, hN, decide_True, Option.map_some', nodeLines_nil]
      have htake : (diskIndexSlots f dataType).take n = (diskIndexSlots f dataType).take numNodes := by
        have := length_diskIndexSlots_le dataType hh
        rw [hn]
        split
        · rw [List.take_of_length_le this, List.take_of_length_le (by omega)]
        · rfl
      have hscan := foldSlots_diskSmallGraphBody n [] (diskIndexSlots f dataType)
      simp only [List.length_nil, sampleState_nil, List.nil_append, Nat.sub_zero, htake] at hscan
      simp only [printSmallGraphFromDiskIndex, hh, hr, hg, if_false, if_true, ← hn, if_neg hN, hN,
        decide_False, Bool.false_eq_true, pageLoop_eq_foldSlots]
      rw [← diskIndexSlots_eq hh hr hg, hscan]
      cases hm : ((diskIndexSlots f dataType).take numNodes).mapM slotStoredIds with
      | none => rfl
      | some outs =>
        have hlen : outs.length ≤ n := by
          rw [length_of_mapM_eq_some hm, ← htake]; exact List.length_take_le _ _
        obtain ⟨-, hlines⟩ := smallGraphLines_shrinkSample maxNbrs n outs hlen
        simp [hlines]
    · simp [printSmallGraphFromDiskIndex, smallGraphFromDiskIndexThrows, diskIndexSlots, hh, hr, hg,
        List.mapM.loop]

/-- A sample within `max_size()` never throws. -/
theorem smallGraphFromDiskIndexThrows_of_le (file : Option File) (dataType : DiskIndexDataType)
    {numNodes : Nat} (hN : numNodes ≤ kVectorMaxSize) :
    smallGraphFromDiskIndexThrows file dataType numNodes = false := by
  cases file with
  | none => rfl
  | some f =>
    simp only [smallGraphFromDiskIndexThrows]
    cases readDiskHeader f with
    | none => rfl
    | some h =>
      have : ¬ (if numNodes > h.nNodes then h.nNodes else numNodes) > kVectorMaxSize := by
        split <;> omega
      simp only [this, decide_False, Bool.and_false]

/-- A small graph that throws has written nothing. -/
theorem printSmallGraphFromDiskIndex_of_throws (path : String) {file : Option File}
    {dataType : DiskIndexDataType} {numNodes : Nat} (maxNbrs : Nat)
    (ht : smallGraphFromDiskIndexThrows file dataType numNodes = true) :
    printSmallGraphFromDiskIndex path file dataType numNodes maxNbrs = some [] := by
  cases file with
  | none => cases ht
  | some f =>
    cases hh : readDiskHeader f with
    | none => simp [smallGraphFromDiskIndexThrows, hh] at ht
    | some h =>
      simp only [smallGraphFromDiskIndexThrows, hh, Bool.and_eq_true, bne_iff_ne, ne_eq,
        decide_eq_true_eq] at ht
      obtain ⟨⟨hr, hg⟩, hN⟩ := ht
      simp only [printSmallGraphFromDiskIndex, hh, if_neg hr, hg, if_true, if_pos hN]

/-- A sample whose clamp to the header's node count is within `max_size()` never throws. -/
theorem smallGraphFromDiskIndexThrows_eq_false {f : File} (dataType : DiskIndexDataType)
    {h : DiskHeader} (hh : readDiskHeader f = some h) {numNodes : Nat}
    (hN : min numNodes h.nNodes ≤ kVectorMaxSize) :
    smallGraphFromDiskIndexThrows (some f) dataType numNodes = false := by
  have : ¬ (if numNodes > h.nNodes then h.nNodes else numNodes) > kVectorMaxSize := by
    split <;> omega
  simp only [smallGraphFromDiskIndexThrows, hh, this, decide_False, Bool.and_false]

/-- The small-graph printer in closed form when it does not throw. -/
theorem printSmallGraphFromDiskIndex_lines_of_noThrow (path : String) (f : File)
    (dataType : DiskIndexDataType) (numNodes maxNbrs : Nat)
    (hN : smallGraphFromDiskIndexThrows (some f) dataType numNodes = false) :
    (printSmallGraphFromDiskIndex path (some f) dataType numNodes maxNbrs).map nodeLines =
      (((diskIndexSlots f dataType).take numNodes).mapM slotStoredIds).map (sampleLines maxNbrs) := by
  rw [printSmallGraphFromDiskIndex_lines, hN, if_neg Bool.false_ne_true]

/-- **The stats reader in closed form**, for a header that passes the geometry test and
a page of at least one record: the degree aggregates of the visited slots, defined iff
every degree copy stays inside its buffer. -/
theorem computeGraphStatsFromDiskIndex_slots {f : File} {dataType : DiskIndexDataType}
    {h : DiskHeader} (hh : readDiskHeader f = some h) (hr : h.nodesPerSector ≠ 0)
    (hg : geometryOk h (elemSize dataType) = true) :
    computeGraphStatsFromDiskIndex (some f) dataType =
      ((diskIndexSlots f dataType).mapM slotDegree).map fun ds => diskStats h (DegreeAcc.ofList 2 ds) := by
  simp only [computeGraphStatsFromDiskIndex, hh, hg, hr, if_true, if_false, pageLoop_eq_foldSlots,
    foldSlots_diskStatsBody, diskIndexSlots_eq hh hr hg, Option.map_map]
  rfl

/-! ### Where the in-page test is not enough -/

/-- One node of `2 ^ 62 - 1` float coordinates in 8-byte records, one a page: the
coordinates' size `n_dims * 4` wraps to `2 ^ 64 - 4`, and the geometry test sees
`(2 ^ 64 - 4) + 4 = 0`. -/
def wrapIndexHeader : DiskHeader := ⟨1, 2 ^ 62 - 1, 0, 8, 1⟩

/-- `wrapIndexHeader` untagged, then one page of zeros. -/
def wrapIndex : File :=
  ⟨encDiskHeader wrapIndexHeader ++ List.replicate 8152 0, by
    simp only [List.length_append, List.length_replicate, length_leBytes, encDiskHeader]
    decide⟩

/-- All three readers pass the geometry test and the in-page test on `wrapIndex`, then
copy the degree from byte `2 ^ 64 - 4` of the page buffer, outside it: each run is
undefined. -/
theorem wrapIndex_outOfPage :
    diskIndexSlots wrapIndex .kFloat = [⟨pageAt wrapIndex 0, 0, 2 ^ 64 - 4⟩] ∧
      computeGraphStatsFromDiskIndex (some wrapIndex) .kFloat = none ∧
      printAdjacencySampleFromDiskIndex "index" (some wrapIndex) .kFloat 1 0 = none ∧
      printSmallGraphFromDiskIndex "index" (some wrapIndex) .kFloat 1 0 = none := by
  have hpage : kDiskIndexDataOffset + (0 + 1) * kSectorLen ≤ wrapIndex.bytes.length := by
    simp only [wrapIndex, List.length_append, List.length_replicate, length_leBytes, encDiskHeader]
    decide
  have hh : readDiskHeader wrapIndex = some wrapIndexHeader :=
    readDiskHeader_untagged ⟨[], List.replicate 8152 0, by simp only [wrapIndex, List.nil_append], rfl⟩
      (by decide) (by decide) (by decide) (by decide) (by decide) (by decide)
  have hslots : diskIndexSlots wrapIndex .kFloat = [⟨pageAt wrapIndex 0, 0, 2 ^ 64 - 4⟩] := by
    rw [diskIndexSlots_eq hh (by decide) (by decide), show nSectors wrapIndexHeader = 1 from rfl]
    rw [diskSlots_succ_of_page hpage, diskSlots]
    simp [pageSlots, wrapIndexHeader, nhoodOffset, kSectorLen, elemSize]
  have hdeg : slotDegree ⟨pageAt wrapIndex 0, 0, 2 ^ 64 - 4⟩ = none := by
    simp [slotDegree, sectorLoad, length_of_readPage (readPage_eq_pageAt hpage), kSectorLen]
  refine ⟨hslots, ?_, ?_, ?_⟩
  · rw [computeGraphStatsFromDiskIndex_slots hh (by decide)
      (show geometryOk wrapIndexHeader (elemSize .kFloat) = true by decide), hslots]
    simp only [List.mapM_cons, hdeg, Option.bind_eq_bind, Option.none_bind, Option.map_none']
  · have := printAdjacencySampleFromDiskIndex_lines "index" wrapIndex .kFloat 1 0
    rw [hslots] at this
    simp only [List.take, List.mapM_cons, slotAdjacencyLine, hdeg, Option.bind_eq_bind,
      Option.none_bind] at this
    exact Option.map_eq_none'.mp this
  · have := printSmallGraphFromDiskIndex_lines_of_noThrow "index" wrapIndex .kFloat 1 0
      (smallGraphFromDiskIndexThrows_of_le _ _ (show 1 ≤ kVectorMaxSize by decide))
    rw [hslots] at this
    simp only [List.take, List.mapM_cons, slotStoredIds, hdeg, Option.bind_eq_bind,
      Option.none_bind, Option.map_none'] at this
    exact Option.map_eq_none'.mp this

/-! ### The two samplers side by side -/

/-- The `d` ids stored after a slot's degree field, as its page holds them. -/
def slotIds (sl : Slot) (d : Nat) : List UInt32 :=
  leU32s d ((sl.sector.drop ((sl.degOff + 4) % 2 ^ 64)).take (4 * d))

/-- **One slot, both samplers.**  For a record whose ids `bs` lie inside its page, the
small-graph printer stores all its ids, and the adjacency sampler shows the first
`to_show` of them with the total figure of its degree. -/
theorem slotLines_of_fits (maxNbrs : Nat) {sl : Slot} {d : Nat} {bs : List UInt8}
    (hdeg : slotDegree sl = some d)
    (hids : sectorLoad sl.sector ((sl.degOff + 4) % 2 ^ 64) (4 * d) = some bs)
    (hfit : (sl.degOff + 4) % 2 ^ 64 + 4 * d ≤ kSectorLen) :
    slotStoredIds sl = some (leU32s d bs) ∧
      slotAdjacencyLine maxNbrs sl =
        some ⟨sl.nodeId, (leU32s d bs).take (toShow maxNbrs d), totalOf maxNbrs d, none⟩ := by
  set a := (sl.degOff + 4) % 2 ^ 64 with ha
  have hin : a + 4 * d ≤ sl.sector.length := by
    unfold sectorLoad at hids
    split at hids
    · assumption
    · cases hids
  have hbs : (sl.sector.drop a).take (4 * d) = bs := by
    rw [sectorLoad, if_pos hin] at hids; exact Option.some.inj hids
  have hload : ∀ k ≤ d, sectorLoad sl.sector a (k * 4) = some (bs.take (4 * k)) := fun k hk => by
    rw [sectorLoad, if_pos (by omega), ← hbs, List.take_take, Nat.min_eq_left (by omega), Nat.mul_comm]
  have hnowrap : ∀ k ≤ d, (a + k * 4) % 2 ^ 64 = a + k * 4 := fun k hk =>
    Nat.mod_eq_of_lt (by simp only [kSectorLen] at hfit; omega)
  have ht := toShow_le maxNbrs d
  constructor
  · simp only [slotStoredIds, hdeg, Option.some_bind, diskStoredIds, ← ha, hnowrap d le_rfl,
      if_neg (show ¬ a + d * 4 > kSectorLen by omega)]
    split
    · rw [hload d le_rfl, Option.map_some', leU32s_take]
    · obtain rfl : d = 0 := by omega
      rfl
  · simp only [slotAdjacencyLine, hdeg, Option.some_bind, diskAdjacencyLine, ← ha,
      hnowrap _ ht, take_leU32s _ ht]
    split
    · rw [hload _ ht, Option.map_some', leU32s_take]; rfl
    · rw [show toShow maxNbrs d = 0 by omega]
      rfl

/-- **One slot, past its page.**  For a record whose ids run past the end of its page, the
small-graph printer stores the `c` whole ids that fit, `c = (4096 - idsOff) / 4`. -/
theorem slotStoredIds_of_overrun {sl : Slot} {d : Nat} {bs : List UInt8}
    (hdeg : slotDegree sl = some d) (hoff : (sl.degOff + 4) % 2 ^ 64 ≤ kSectorLen)
    (hover : kSectorLen < (sl.degOff + 4) % 2 ^ 64 + 4 * d) (hd : d < 2 ^ 32)
    (hids : sectorLoad sl.sector ((sl.degOff + 4) % 2 ^ 64)
      (4 * ((kSectorLen - (sl.degOff + 4) % 2 ^ 64) / 4)) = some bs) :
    slotStoredIds sl = some (leU32s ((kSectorLen - (sl.degOff + 4) % 2 ^ 64) / 4) bs) := by
  set a := (sl.degOff + 4) % 2 ^ 64 with ha
  have hnowrap : (a + d * 4) % 2 ^ 64 = a + d * 4 :=
    Nat.mod_eq_of_lt (by simp only [kSectorLen] at hoff; omega)
  simp only [slotStoredIds, hdeg, Option.some_bind, diskStoredIds, ← ha, hnowrap,
    if_pos (show a + d * 4 > kSectorLen by omega)]
  split
  · rw [Nat.mul_comm, hids, Option.map_some']
  · rw [show (kSectorLen - a) / 4 = 0 by omega] at hids ⊢
    rw [Nat.mul_zero] at hids
    unfold sectorLoad at hids
    split at hids
    · rw [List.take_zero] at hids
      cases hids
      rfl
    · cases hids

/-- Three nodes of 4084 one-byte coordinates in 4096-byte records, two records a page.  A
degree field ends 8 bytes before the end of its page, room for two ids, and the second
record of a page would start at its end, so the in-page test ends each page after one
record. -/
def gapIndexHeader : DiskHeader := ⟨3, 4084, 0, 4096, 2⟩

/-- Page 0 of `gapIndex`: node 0 of degree 3, and the two of its ids that fit. -/
def gapIndexPage0 : List UInt8 := List.replicate 4084 0 ++ leBytes 4 3 ++ encU32s [1, 0]

/-- Page 1 of `gapIndex`: node 2, whose one id is 0. -/
def gapIndexPage1 : List UInt8 := List.replicate 4084 0 ++ encRecord [0] ++ List.replicate 4 0

/-- `gapIndexHeader` untagged, padded to 4096 bytes, then the two pages. -/
def gapIndex : File :=
  ⟨encDiskHeader gapIndexHeader ++ List.replicate 4056 0 ++ gapIndexPage0 ++ gapIndexPage1, by
    simp only [List.length_append, List.length_replicate, length_leBytes, encDiskHeader,
      gapIndexPage0, gapIndexPage1, length_encRecord, length_encU32s, List.length_cons,
      List.length_nil]
    decide⟩

/-- The readers visit node 0 on page 0 and node 2 on page 1: slot 1 of page 0 fails the
in-page test and ends that page. -/
theorem gapIndex_slots :
    diskIndexSlots gapIndex .kUint8 = [⟨pageAt gapIndex 0, 0, 4084⟩, ⟨pageAt gapIndex 1, 2, 4084⟩] := by
  have hlen : gapIndex.bytes.length = 12288 := by
    simp only [gapIndex, List.length_append, List.length_replicate, length_leBytes, encDiskHeader,
      gapIndexPage0, gapIndexPage1, length_encRecord, length_encU32s, List.length_cons,
      List.length_nil]
  have hpage : ∀ sec < 2, kDiskIndexDataOffset + (sec + 1) * kSectorLen ≤ gapIndex.bytes.length :=
    fun sec hsec => by rw [hlen]; simp only [kDiskIndexDataOffset, kSectorLen]; omega
  have hh : readDiskHeader gapIndex = some gapIndexHeader :=
    readDiskHeader_untagged ⟨[], List.replicate 4056 0 ++ gapIndexPage0 ++ gapIndexPage1,
      by simp only [gapIndex, List.nil_append, List.append_assoc], rfl⟩
      (by decide) (by decide) (by decide) (by decide) (by decide) (by decide)
  rw [diskIndexSlots_eq hh (by decide) (by decide), show nSectors gapIndexHeader = 2 from rfl]
  rw [diskSlots_succ_of_page (hpage 0 (by decide)), Nat.zero_add,
    diskSlots_succ_of_page (hpage 1 (by decide)), diskSlots]
  simp [pageSlots, gapIndexHeader, nhoodOffset, kSectorLen, elemSize]

/-- What each sampler makes of the two slots: node 0's ids run past its page, so the
adjacency sample shows none of them and the small graph the two that fit; node 2's one id
fits, and both show it. -/
theorem gapIndex_slotLines :
    slotAdjacencyLine 0 ⟨pageAt gapIndex 0, 0, 4084⟩ = some ⟨0, [], none, none⟩ ∧
      slotStoredIds ⟨pageAt gapIndex 0, 0, 4084⟩ = some [1, 0] ∧
      slotAdjacencyLine 0 ⟨pageAt gapIndex 1, 2, 4084⟩ = some ⟨2, [0], none, none⟩ ∧
      slotStoredIds ⟨pageAt gapIndex 1, 2, 4084⟩ = some [0] := by
  have hpre : (encDiskHeader gapIndexHeader ++ List.replicate 4056 0).length = kDiskIndexDataOffset := by
    simp only [List.length_append, List.length_replicate, length_leBytes, encDiskHeader]; rfl
  have h0 : BytesAt gapIndex (kDiskIndexDataOffset + 0 * kSectorLen + 4084)
      (leBytes 4 3 ++ encU32s [1, 0]) :=
    ⟨encDiskHeader gapIndexHeader ++ List.replicate 4056 0 ++ List.replicate 4084 0, gapIndexPage1,
      by simp only [gapIndex, gapIndexPage0, List.append_assoc],
      by rw [List.length_append, hpre, List.length_replicate]; rfl⟩
  have h1 : BytesAt gapIndex (kDiskIndexDataOffset + 1 * kSectorLen + 4084)
      (leBytes 4 1 ++ encU32s [0]) :=
    ⟨encDiskHeader gapIndexHeader ++ List.replicate 4056 0 ++ gapIndexPage0 ++ List.replicate 4084 0,
      List.replicate 4 0, by simp only [gapIndex, gapIndexPage1, encRecord, List.append_assoc]; rfl,
      by simp only [List.length_append, hpre, List.length_replicate, gapIndexPage0, length_leBytes,
        length_encU32s, List.length_cons, List.length_nil]; rfl⟩
  obtain ⟨hd0, hi0⟩ := bytesAt_append.mp h0
  obtain ⟨hd1, hi1⟩ := bytesAt_append.mp h1
  rw [Nat.add_assoc] at hi0 hi1
  have hdeg0 := sectorLoad_pageAt hd0 (by decide)
  have hids0 := sectorLoad_pageAt hi0 (by decide)
  have hdeg1 := sectorLoad_pageAt hd1 (by decide)
  have hids1 := sectorLoad_pageAt hi1 (by decide)
  simp only [length_leBytes, length_encU32s, List.length_cons, List.length_nil, Nat.reduceAdd,
    Nat.reduceMul] at hdeg0 hids0 hdeg1 hids1
  generalize pageAt gapIndex 0 = p0 at hdeg0 hids0 ⊢
  generalize pageAt gapIndex 1 = p1 at hdeg1 hids1 ⊢
  have hslot0 : slotDegree ⟨p0, 0, 4084⟩ = some 3 := by
    simp only [slotDegree, hdeg0, Option.map_some']; rfl
  have hslot1 : slotDegree ⟨p1, 2, 4084⟩ = some 1 := by
    simp only [slotDegree, hdeg1, Option.map_some']; rfl
  obtain ⟨hst1, hadj1⟩ := slotLines_of_fits 0 hslot1 hids1 (by simp [kSectorLen])
  refine ⟨?_, ?_, hadj1.trans rfl, hst1.trans rfl⟩
  · simp [slotAdjacencyLine, hslot0, diskAdjacencyLine, toShow, totalOf, kSectorLen]
  · have hclamped : sectorLoad p0 ((4084 + 4) % 2 ^ 64) (4 * ((kSectorLen - (4084 + 4) % 2 ^ 64) / 4)) =
        some (encU32s [1, 0]) := by
      simpa only [kSectorLen, Nat.reduceAdd, Nat.reducePow, Nat.reduceMod, Nat.reduceSub,
        Nat.reduceDiv, Nat.reduceMul] using hids0
    rw [slotStoredIds_of_overrun hslot0 (by simp [kSectorLen]) (by simp [kSectorLen]) (by decide)
      hclamped]
    simp only [kSectorLen, Nat.reduceAdd, Nat.reducePow, Nat.reduceMod, Nat.reduceSub, Nat.reduceDiv]
    rfl

/-- **The disk samplers disagree with each other.**  On `gapIndex` with a sample of 3 and
no cap, the adjacency sample prints node 0 with none of its ids, though two of them lie in
its page, and labels node 2 with its id.  The small graph prints node 0 with the two ids
that fit, and labels node 2 with its line index 1. -/
theorem gapIndex_diverges :
    (diskIndexSlots gapIndex .kUint8).map Slot.nodeId = [0, 2] ∧
      (printAdjacencySampleFromDiskIndex "index" (some gapIndex) .kUint8 3 0).map nodeLines =
        some [⟨0, [], none, none⟩, ⟨2, [0], none, none⟩] ∧
      (printSmallGraphFromDiskIndex "index" (some gapIndex) .kUint8 3 0).map nodeLines =
        some [⟨0, [1, 0], none, some [0, 1]⟩, ⟨1, [0], none, some [0]⟩] := by
  obtain ⟨ha0, hs0, ha1, hs1⟩ := gapIndex_slotLines
  rw [printAdjacencySampleFromDiskIndex_lines, printSmallGraphFromDiskIndex_lines, gapIndex_slots,
    smallGraphFromDiskIndexThrows_of_le _ _ (show 3 ≤ kVectorMaxSize by decide)]
  simp only [List.map_cons, List.map_nil, Bool.false_eq_true, if_false, List.take, List.mapM_cons,
    List.mapM_nil, ha0, hs0, ha1, hs1, Option.bind_eq_bind, Option.some_bind, Option.pure_def,
    Option.map_some', true_and]
  decide

end Pipeann
