import IndexInspector.GraphFile

/-!
# What the layout-A walkers compute

`GraphFile` gives each walker as a fold of its body over `walk`.  This module says what
that fold is, first on every byte string and then on the files the layout-A writer
produces.

## Main results

* `computeGraphStatsFromFile_eq_walk` — on every file the stats scan counts the records
  of the walk and aggregates exactly their degrees.
* `adjacencyNodeLines_eq` and `smallGraphNodeLines_eq` — the two printers print a prefix
  of `adjacencyLines` and `sampleLines` of the stored ids of the same walk, the small graph
  unless its vectors exceed `max_size()`.
* `walk_encRecords` — on an encoded adjacency list the walk meets every record and stops
  at the header's expected size, whatever follows the encoding.

## Design Notes

The writer (`save_graph`) is not among the sources, so `encGraphFile` follows the format
table.  Its records are laid by `encodedRecs`, and every statement about encoded files
goes through `walk_encRecords`; nothing here unfolds a walker again.
-/

namespace Pipeann

/-! ### The walkers on every file -/

/-- The records the three walkers meet in a file at `offset`: none when the seek or the
header read fails. -/
def fileRecords (f : File) (offset : Nat) : Option (GraphHeader × List Rec) :=
  if seekOk offset then
    (readGraphHeader f offset).map fun h =>
      (h, walk f h.expectedFileSize kGraphHeaderSize (offset + kGraphHeaderSize))
  else none

theorem fileRecords_laid {f : File} {offset : Nat} {h : GraphHeader} {rs : List Rec}
    (hr : fileRecords f offset = some (h, rs)) : Laid f (offset + kGraphHeaderSize) rs := by
  unfold fileRecords at hr
  split at hr
  · obtain ⟨h', -, hh⟩ := Option.map_eq_some'.mp hr
    cases hh
    exact walk_laid _ _ _ _
  · cases hr

/-- Records laid in a file span at most the rest of it and one more record. -/
theorem Laid.sum_le {f : File} {pos : Nat} {rs : List Rec} (h : Laid f pos rs) :
    (rs.map fun r => 4 + 4 * r.degree).sum ≤ f.bytes.length - pos + 2 ^ 34 := by
  induction h with
  | nil => simp
  | cons pos k rs hk htail ih =>
    cases rs with
    | nil => have := readLE_lt hk; simp; omega
    | cons r' rs =>
      have := (Laid.cons pos k _ hk htail).complete
      simp only [List.map_cons, List.sum_cons] at this ih ⊢
      omega

/-- The stats scan on every file: it counts the records of the walk and aggregates
their degrees. -/
theorem computeGraphStatsFromFile_eq_walk (f : File) (offset : Nat) :
    computeGraphStatsFromFile (some f) offset =
      match fileRecords f offset with
      | none => {}
      | some (h, rs) => fileStats h rs.length (DegreeAcc.ofList 2 (rs.map Rec.degree)) := by
  by_cases hs : seekOk offset
  · simp only [computeGraphStatsFromFile, fileRecords, if_pos hs]
    cases readGraphHeader f offset with
    | none => rfl
    | some h =>
      simp only [Option.map_some', recordLoop_eq_foldSteps]
      rw [foldSteps_statsBody (walk_laid _ _ _ _)]
      simp [DegreeAcc.ofList, List.foldl_map]
  · simp [computeGraphStatsFromFile, fileRecords, hs]

/-- No sum of a scan wraps: the stats of laid records are their aggregates. -/
theorem fileStats_aggregates {f : File} {pos : Nat} {rs : List Rec} (hl : Laid f pos rs)
    (h : GraphHeader) :
    (fileStats h rs.length (DegreeAcc.ofList 2 (rs.map Rec.degree))).Aggregates 2
      (rs.map Rec.degree) := by
  have hspan : 4 * (rs.map Rec.degree).sum + 4 * rs.length ≤
      (rs.map fun r => 4 + 4 * r.degree).sum := by
    clear hl; induction rs <;> simp_all; omega
  have := hl.sum_le
  have := f.length_lt
  refine .of_ofList (by omega) (by simp; omega) ?_ rfl rfl rfl rfl
  intro d hd
  have := List.single_le_sum (fun _ _ => Nat.zero_le _) d hd
  simp only [sizeMax]; omega

/-- The adjacency sampler on every file: the first `num_nodes` lines of
`adjacencyLines` over the walk. -/
theorem adjacencyNodeLines_eq (path : String) (f : File) (offset numNodes maxNbrs : Nat) :
    nodeLines (printAdjacencySampleFromFile path (some f) offset numNodes maxNbrs) =
      match fileRecords f offset with
      | none => []
      | some (_, rs) => (adjacencyLines f maxNbrs 0 rs).take numNodes := by
  by_cases hs : seekOk offset
  · simp only [printAdjacencySampleFromFile, fileRecords, if_pos hs]
    cases readGraphHeader f offset with
    | none => rfl
    | some h =>
      have hscan := foldSteps_adjacencyBody
        (walk_laid f h.expectedFileSize kGraphHeaderSize (offset + kGraphHeaderSize)) maxNbrs numNodes []
      simp only [List.length_nil, List.nil_append, Nat.sub_zero] at hscan
      simp only [Option.map_some', recordLoop_eq_foldSteps, hscan, nodeLines_adjacencyHeader,
        nodeLines_map_node]
  · simp [printAdjacencySampleFromFile, fileRecords, hs]

/-- The small-graph printer on every file: the sample lines of the first `num_nodes`
id arrays the walk stores, or nothing when `out_nbrs(num_nodes)` throws. -/
theorem smallGraphNodeLines_eq (path : String) (f : File) (offset numNodes maxNbrs : Nat) :
    nodeLines (printSmallGraphFromFile path (some f) offset numNodes maxNbrs) =
      match fileRecords f offset with
      | none => []
      | some (_, rs) =>
        if numNodes ≤ kVectorMaxSize then sampleLines maxNbrs ((storedIds f rs).take numNodes)
        else [] := by
  by_cases hs : seekOk offset
  · simp only [printSmallGraphFromFile, fileRecords, if_pos hs]
    cases readGraphHeader f offset with
    | none => rfl
    | some h =>
      by_cases hN : numNodes ≤ kVectorMaxSize
      · have hscan := foldSteps_smallGraphBody
          (walk_laid f h.expectedFileSize kGraphHeaderSize (offset + kGraphHeaderSize)) numNodes []
          (Nat.zero_le _)
        simp only [List.length_nil, sampleState_nil, List.nil_append, Nat.sub_zero] at hscan
        obtain ⟨-, hlines⟩ := smallGraphLines_shrinkSample maxNbrs numNodes _ (List.length_take_le _ _)
        simp only [Option.map_some', if_neg (Nat.not_lt.mpr hN), if_pos hN, recordLoop_eq_foldSteps,
          hscan, nodeLines_smallGraphHeader, nodeLines_map_node]
        exact hlines
      · simp only [Option.map_some', if_pos (Nat.lt_of_not_le hN), if_neg hN, nodeLines_nil]
  · simp [printSmallGraphFromFile, fileRecords, hs]

/-- The small-graph printer throws exactly when the walk is reached and the sample is larger
than `max_size()`. -/
theorem smallGraphFromFileThrows_eq (f : File) (offset numNodes : Nat) :
    smallGraphFromFileThrows (some f) offset numNodes =
      ((fileRecords f offset).isSome && decide (kVectorMaxSize < numNodes)) := by
  by_cases hs : seekOk offset <;> simp [smallGraphFromFileThrows, fileRecords, hs]

theorem smallGraphFromFileThrows_of_le (file : Option File) (offset : Nat) {numNodes : Nat}
    (hN : numNodes ≤ kVectorMaxSize) : smallGraphFromFileThrows file offset numNodes = false := by
  cases file with
  | none => rfl
  | some f => simp [smallGraphFromFileThrows, Nat.not_lt.mpr hN]

/-- A small graph that throws has written nothing. -/
theorem printSmallGraphFromFile_of_throws (path : String) {file : Option File} {offset numNodes : Nat}
    (maxNbrs : Nat) (ht : smallGraphFromFileThrows file offset numNodes = true) :
    printSmallGraphFromFile path file offset numNodes maxNbrs = [] := by
  cases file with
  | none => cases ht
  | some f =>
    simp only [smallGraphFromFileThrows, Bool.and_eq_true, decide_eq_true_eq,
      Option.isSome_iff_exists] at ht
    obtain ⟨⟨hs, h, hh⟩, hN⟩ := ht
    simp only [printSmallGraphFromFile, if_pos hs, hh, if_pos hN]

/-- The degrees the walk reads in a file at `offset`, in file order. -/
def fileDegrees (f : File) (offset : Nat) : List Nat :=
  match fileRecords f offset with
  | none => []
  | some (_, rs) => rs.map Rec.degree

/-! ### What the printers show of the walk -/

theorem map_degree_adjacencyLines (f : File) (maxNbrs id : Nat) (rs : List Rec) :
    (adjacencyLines f maxNbrs id rs).map NodeLine.degree =
      (rs.map Rec.degree).take (adjacencyLines f maxNbrs id rs).length := by
  induction rs generalizing id with
  | nil => rfl
  | cons r rs ih =>
    simp only [adjacencyLines]
    cases hr : readU32s f r.idsPos (toShow maxNbrs r.degree) with
    | none => rfl
    | some nbrs => simp [length_of_readU32s hr, ih]

theorem map_length_storedIds (f : File) (rs : List Rec) :
    (storedIds f rs).map List.length = (rs.map Rec.degree).take (storedIds f rs).length := by
  induction rs with
  | nil => rfl
  | cons r rs ih =>
    simp only [storedIds]
    cases hr : readU32s f r.idsPos r.degree with
    | none => rfl
    | some nbrs => simp [length_of_readU32s hr, ih]

theorem length_adjacencyLines_le (f : File) (maxNbrs id : Nat) (rs : List Rec) :
    (adjacencyLines f maxNbrs id rs).length ≤ rs.length := by
  induction rs generalizing id with
  | nil => exact Nat.le_refl _
  | cons r rs ih =>
    simp only [adjacencyLines]
    split <;> simp [ih]

/-- A record whose ids are all stored has its shown ids in the file too. -/
theorem length_storedIds_le (f : File) (maxNbrs id : Nat) (rs : List Rec) :
    (storedIds f rs).length ≤ (adjacencyLines f maxNbrs id rs).length := by
  induction rs generalizing id with
  | nil => exact Nat.le_refl _
  | cons r rs ih =>
    simp only [storedIds, adjacencyLines]
    cases hr : readU32s f r.idsPos r.degree with
    | none => simp
    | some nbrs =>
      have hshow : readU32s f r.idsPos (toShow maxNbrs r.degree) ≠ none := by
        have := toShow_le maxNbrs r.degree
        rw [Ne, readU32s_eq_none_iff]
        have : ¬ f.bytes.length < r.idsPos + 4 * r.degree := fun hlt => by
          simp [readU32s_eq_none_iff.mpr hlt] at hr
        omega
      obtain ⟨shown, hs⟩ := Option.ne_none_iff_exists'.mp hshow
      simp [hs, ih]

/-- Only the last record of a laid walk can miss ids. -/
theorem Laid.length_le_storedIds {f : File} {pos : Nat} {rs : List Rec} (h : Laid f pos rs) :
    rs.length ≤ (storedIds f rs).length + 1 := by
  induction h with
  | nil => simp
  | cons pos k rs hk htail ih =>
    cases rs with
    | nil => simp
    | cons r' rs =>
      have hc := (Laid.cons pos k _ hk htail).complete
      have hin : readU32s f (pos + 4) k ≠ none := by
        rw [Ne, readU32s_eq_none_iff]; simp only at hc; omega
      obtain ⟨ids, hids⟩ := Option.ne_none_iff_exists'.mp hin
      simp only [storedIds, hids, List.length_cons] at ih ⊢
      omega

/-! ### The three walkers agree -/

/-- A header declaring one record of degree 1, then that degree field and no id. -/
def truncatedRecordFile : File :=
  ⟨leBytes 8 32 ++ leBytes 4 0 ++ leBytes 4 0 ++ leBytes 8 0 ++ leBytes 4 1, by decide⟩

theorem truncatedRecordFile_records :
    fileRecords truncatedRecordFile 0 = some (⟨32, 0, 0, 0⟩, [⟨1, 28⟩]) := by
  simp [fileRecords, readGraphHeader, readLE, seekOk, truncatedRecordFile, kGraphHeaderSize, walk,
    UInt8.size]

/-- One record as the layout-A writer lays it: `degree:u32`, then the ids. -/
def encRecord (ids : List UInt32) : List UInt8 := leBytes 4 ids.length ++ encU32s ids

/-- The records of an adjacency list, end to end. -/
def encRecords (g : List (List UInt32)) : List UInt8 := g.flatMap encRecord

/-- The 24-byte header as the layout-A writer lays it. -/
def encGraphHeader (expectedFileSize width ep numFrozenPts : Nat) : List UInt8 :=
  leBytes 8 expectedFileSize ++ leBytes 4 width ++ leBytes 4 ep ++ leBytes 8 numFrozenPts

/-- The size the header declares: `24 + Σ (4 + 4 · degree)`. -/
def graphFileSize (g : List (List UInt32)) : Nat :=
  kGraphHeaderSize + (g.map fun ids => 4 + 4 * ids.length).sum

/-- A whole layout-A file: the header declaring `graphFileSize g`, then the records. -/
def encGraphFile (g : List (List UInt32)) (width ep numFrozenPts : Nat) : List UInt8 :=
  encGraphHeader (graphFileSize g) width ep numFrozenPts ++ encRecords g

/-- The records an encoding of `g` lays from `pos`. -/
def encodedRecs : Nat → List (List UInt32) → List Rec
  | _, [] => []
  | pos, ids :: g => ⟨ids.length, pos + 4⟩ :: encodedRecs (pos + 4 + 4 * ids.length) g

@[simp] theorem length_encRecord (ids : List UInt32) :
    (encRecord ids).length = 4 + 4 * ids.length := by simp [encRecord]; omega

@[simp] theorem encRecords_nil : encRecords [] = [] := rfl

@[simp] theorem encRecords_cons (ids : List UInt32) (g : List (List UInt32)) :
    encRecords (ids :: g) = encRecord ids ++ encRecords g := rfl

@[simp] theorem length_encRecords (g : List (List UInt32)) :
    (encRecords g).length = (g.map fun ids => 4 + 4 * ids.length).sum := by
  induction g <;> simp [*]

@[simp] theorem length_encodedRecs (pos : Nat) (g : List (List UInt32)) :
    (encodedRecs pos g).length = g.length := by
  induction g generalizing pos <;> simp [encodedRecs, *]

@[simp] theorem map_degree_encodedRecs (pos : Nat) (g : List (List UInt32)) :
    (encodedRecs pos g).map Rec.degree = g.map List.length := by
  induction g generalizing pos <;> simp [encodedRecs, *]

/-- **The walk over an encoding.**  Started with a counter `bytesRead` that the records
bring to `expected`, the walk meets exactly the encoded records, whatever follows them. -/
theorem walk_encRecords {f : File} {g : List (List UInt32)} {pos : Nat}
    (h : BytesAt f pos (encRecords g)) (hdeg : ∀ ids ∈ g, ids.length < 2 ^ 32) (bytesRead : Nat) :
    walk f (bytesRead + (g.map fun ids => 4 + 4 * ids.length).sum) bytesRead pos =
      encodedRecs pos g := by
  induction g generalizing bytesRead pos with
  | nil => rw [walk, if_neg (by simp)]; rfl
  | cons ids g ih =>
    simp only [encRecords_cons, encRecord, List.append_assoc, bytesAt_append,
      length_leBytes, length_encU32s] at h
    have hk : readLE f pos 4 = some ids.length :=
      readLE_leBytes h.1 (hdeg ids (by simp))
    rw [walk, if_pos (by simp)]
    split
    · rename_i hnone
      cases hk.symm.trans hnone
    · rename_i k hk'
      obtain rfl : k = ids.length := Option.some.inj (hk'.symm.trans hk)
      have := ih (by simpa [Nat.add_assoc] using h.2.2) (fun x hx => hdeg x (by simp [hx]))
        (bytesRead + 4 + 4 * ids.length)
      simp only [List.map_cons, List.sum_cons, encodedRecs, Nat.add_assoc] at this ⊢
      rw [this]

/-- The header and records of an encoded file, found at its offset. -/
theorem fileRecords_of_bytesAt {f : File} {offset : Nat} {g : List (List UInt32)}
    {width ep numFrozenPts : Nat} (h : BytesAt f offset (encGraphFile g width ep numFrozenPts))
    (hdeg : ∀ ids ∈ g, ids.length < 2 ^ 32) (hep : ep < 2 ^ 32) (hfrozen : numFrozenPts < 2 ^ 64) :
    fileRecords f offset = some (⟨graphFileSize g, width % 2 ^ 32, ep, numFrozenPts⟩,
      encodedRecs (offset + kGraphHeaderSize) g) := by
  have hend := h.le_length
  have hlt := f.length_lt
  simp only [encGraphFile, encGraphHeader, List.append_assoc, bytesAt_append, length_leBytes] at h
  simp only [encGraphFile, encGraphHeader, List.length_append, length_leBytes,
    length_encRecords] at hend
  have hsize : graphFileSize g < 2 ^ 64 := by simp only [graphFileSize, kGraphHeaderSize]; omega
  have hwidth := readLE_of_bytesAt h.2.1
  rw [length_leBytes, leNat_leBytes] at hwidth
  have hrecs : walk f (graphFileSize g) kGraphHeaderSize (offset + kGraphHeaderSize) =
      encodedRecs (offset + kGraphHeaderSize) g := walk_encRecords h.2.2.2.2 hdeg _
  rw [fileRecords, if_pos (by simp only [seekOk, decide_eq_true_eq]; omega), readGraphHeader,
    readLE_leBytes h.1 hsize, hwidth, readLE_leBytes h.2.2.1 hep, readLE_leBytes h.2.2.2.1 hfrozen]
  simp [hrecs]

/-- **Layout-A stats decoding inverts the writer.**  For every resident adjacency list,
width, entry point and frozen count `f ≤ |g|`, and for every prefix and suffix around
the encoding in a file below `2 ^ 63` bytes, the stats scan at the prefix's end returns
exactly `compute_graph_stats(g, |g| - f, f, ep, 2)`. -/
theorem computeGraphStatsFromFile_encGraphFile (g : Graph) (width numFrozenPts : Nat)
    (ep : UInt32) (p t : List UInt8) (hfrozen : numFrozenPts ≤ g.nbrs.length)
    (hdeg : ∀ ids ∈ g.nbrs, ids.length < 2 ^ 32)
    (hlen : (p ++ encGraphFile g.nbrs width ep.toNat numFrozenPts ++ t).length < 2 ^ 63) :
    computeGraphStatsFromFile (some ⟨p ++ encGraphFile g.nbrs width ep.toNat numFrozenPts ++ t, hlen⟩)
      p.length = computeGraphStats g (g.nbrs.length - numFrozenPts) numFrozenPts ep 2 := by
  have hat : BytesAt ⟨_, hlen⟩ p.length (encGraphFile g.nbrs width ep.toNat numFrozenPts) :=
    ⟨p, t, rfl, rfl⟩
  have hnodes : g.nbrs.length < 2 ^ 64 := by have := g.resident; omega
  rw [computeGraphStatsFromFile_eq_walk,
    fileRecords_of_bytesAt hat hdeg ep.toNat_lt_size (by omega)]
  simp only [length_encodedRecs, map_degree_encodedRecs]
  rcases Nat.eq_zero_or_pos g.nbrs.length with h0 | hpos
  · obtain rfl : numFrozenPts = 0 := by omega
    simp [fileStats, computeGraphStats, List.length_eq_zero.mp h0, DegreeAcc.ofList,
      DegreeAcc.init, DegreeAcc.finalMin]
  · rw [computeGraphStats_eq g _ _ ep 2 (by omega) (by omega), show (2 : UInt32).toNat = 2 from rfl]
    simp [fileStats, Nat.sub_add_cancel hfrozen, hfrozen, hpos]

/-- Three nodes, the last without neighbours. -/
def roundTripExample : Graph := ⟨[[1], [0, 2], []], by decide⟩

theorem roundTripExample_stats : 1 ≤ roundTripExample.nbrs.length ∧
    (∀ ids ∈ roundTripExample.nbrs, ids.length < 2 ^ 32) ∧
    computeGraphStatsFromFile (some ⟨[] ++ encGraphFile roundTripExample.nbrs 32 1 1 ++ [], by decide⟩) 0 =
      computeGraphStats roundTripExample 2 1 1 2 :=
  ⟨by decide, by decide,
    computeGraphStatsFromFile_encGraphFile roundTripExample 32 1 1 [] [] (by decide) (by decide) _⟩

end Pipeann
