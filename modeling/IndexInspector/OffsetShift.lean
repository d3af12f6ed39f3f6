import IndexInspector.GraphFileLaws

/-!
# Where the graph starts does not matter

`compute_graph_stats_from_file`, `print_adjacency_sample_from_file` and
`print_small_graph_from_file` take the `offset` of the header.  `inspect_graph` passes `0`
for a raw graph file and `4096` for a single-file index, whose graph follows a page of
metadata.  This module shows that the offset only moves the reads.  A reader at `offset`
reads what it reads at `0` in the file with its first `offset` bytes removed, and prints the
same lines.

Every read of the three walkers is at `offset` plus a position that depends only on the
bytes from `offset` on.  The one absolute position they test is a seek target, against the
range of `std::streamoff`.  On a laid walk that test can fail only at the last record, where
it ends the loop just as the end of the walk does, so the closed forms of `GraphFileLaws` do
not contain it.

## Main results

* `walk_drop`: the walk in the shortened file is the walk at `offset`, its id positions
  moved back by `offset`.
* `layoutAReaders_drop`: the stats reader at `offset` equals the stats reader at `0` in the
  shortened file.  When the seek to `offset` succeeds, the same holds for the output of the
  two printers.
-/

namespace Pipeann

/-- The file with its first `o` bytes removed. -/
def File.drop (f : File) (o : Nat) : File :=
  ⟨f.bytes.drop o, by rw [List.length_drop]; have := f.length_lt; omega⟩

@[simp] theorem File.drop_bytes (f : File) (o : Nat) : (f.drop o).bytes = f.bytes.drop o := rfl

/-- A record as the walk of the shortened file meets it. -/
def Rec.unshift (o : Nat) (r : Rec) : Rec := ⟨r.degree, r.idsPos - o⟩

@[simp] theorem Rec.unshift_degree (o : Nat) (r : Rec) : (r.unshift o).degree = r.degree := rfl

/-! ### Reads -/

theorem readLE_drop (f : File) (o p : Nat) {n : Nat} (hn : 0 < n) :
    readLE (f.drop o) p n = readLE f (o + p) n := by
  simp only [readLE, File.drop_bytes, List.length_drop, List.drop_drop]
  by_cases h : o + p + n ≤ f.bytes.length
  · rw [if_pos (by omega), if_pos h]
  · rw [if_neg (by omega), if_neg h]

theorem readU32s_drop (f : File) (o p c : Nat) (h : 0 < c ∨ o ≤ f.bytes.length) :
    readU32s (f.drop o) p c = readU32s f (o + p) c := by
  simp only [readU32s, File.drop_bytes, List.length_drop, List.drop_drop]
  by_cases h' : o + p + 4 * c ≤ f.bytes.length
  · rw [if_pos (by omega), if_pos h']
  · rw [if_neg (by omega), if_neg h']

theorem readGraphHeader_drop (f : File) (o p : Nat) :
    readGraphHeader (f.drop o) p = readGraphHeader f (o + p) := by
  simp only [readGraphHeader, readLE_drop f o _ (show 0 < 8 by decide),
    readLE_drop f o _ (show 0 < 4 by decide), Nat.add_assoc]

/-! ### The walk -/

theorem walk_of_read {f : File} {expected bytesRead pos k : Nat} (hb : bytesRead ≠ expected)
    (hk : readLE f pos 4 = some k) :
    walk f expected bytesRead pos =
      ⟨k, pos + 4⟩ :: walk f expected (bytesRead + 4 + 4 * k) (pos + 4 + 4 * k) := by
  rw [walk, if_pos hb]
  split
  · rename_i hnone
    cases hk.symm.trans hnone
  · rename_i k' hk'
    obtain rfl : k' = k := Option.some.inj (hk'.symm.trans hk)
    rfl

theorem walk_of_readFails {f : File} {expected bytesRead pos : Nat}
    (hk : readLE f pos 4 = none) : walk f expected bytesRead pos = [] := by
  rw [walk]
  split
  · split
    · rfl
    · rename_i k hk'
      cases hk.symm.trans hk'
  · rfl

/-- **The walk of the shortened file** is the walk at `o`, each record's ids `o` bytes
nearer the start. -/
theorem walk_drop (f : File) (o expected bytesRead p : Nat) :
    walk (f.drop o) expected bytesRead p =
      (walk f expected bytesRead (o + p)).map (Rec.unshift o) := by
  induction bytesRead, p using walk.induct (f.drop o) expected with
  | case1 br p hb hk =>
    rw [walk_of_readFails hk, walk_of_readFails (by rwa [← readLE_drop f o p (by decide)])]
    rfl
  | case2 br p hb k hk ih =>
    rw [walk_of_read hb hk, walk_of_read hb (by rwa [← readLE_drop f o p (by decide)]), ih,
      List.map_cons, show o + (p + 4 + 4 * k) = o + p + 4 + 4 * k by omega]
    simp only [Rec.unshift, List.cons.injEq, Rec.mk.injEq, true_and, and_true]
    omega
  | case3 br p hb => rw [walk, walk, if_neg hb, if_neg hb]; rfl

theorem fileRecords_drop (f : File) (o : Nat) :
    fileRecords (f.drop o) 0 = (fileRecords f o).map fun r => (r.1, r.2.map (Rec.unshift o)) := by
  by_cases hs : seekOk o = true
  · simp only [fileRecords, if_pos hs, if_pos (show seekOk 0 = true from rfl),
      readGraphHeader_drop, Nat.add_zero, Nat.zero_add, walk_drop, Option.map_map]
    rfl
  · have hnone : readGraphHeader f o = none := by
      have := f.length_lt
      simp only [seekOk, decide_eq_true_eq] at hs
      simp [readGraphHeader, readLE_eq_none_iff.mpr (show f.bytes.length < o + 8 by omega)]
    simp [fileRecords, hs, readGraphHeader_drop, hnone]

/-! ### What the printers read -/

theorem adjacencyLines_drop {f : File} {o pos : Nat} {rs : List Rec} (h : Laid f pos rs)
    (ho : o ≤ pos) (maxNbrs id : Nat) :
    adjacencyLines (f.drop o) maxNbrs id (rs.map (Rec.unshift o)) = adjacencyLines f maxNbrs id rs := by
  induction h generalizing id with
  | nil => rfl
  | cons pos k rs hk _ ih =>
    have := readLE_some_le hk
    simp only [List.map_cons, adjacencyLines, Rec.unshift,
      readU32s_drop f o _ _ (.inr (by omega)), show o + (pos + 4 - o) = pos + 4 by omega]
    split <;> simp [ih (by omega)]

theorem storedIds_drop {f : File} {o pos : Nat} {rs : List Rec} (h : Laid f pos rs)
    (ho : o ≤ pos) : storedIds (f.drop o) (rs.map (Rec.unshift o)) = storedIds f rs := by
  induction h with
  | nil => rfl
  | cons pos k rs hk _ ih =>
    have := readLE_some_le hk
    simp only [List.map_cons, storedIds, Rec.unshift,
      readU32s_drop f o _ _ (.inr (by omega)), show o + (pos + 4 - o) = pos + 4 by omega]
    split <;> simp [ih (by omega)]

/-- The whole output of the adjacency sampler once its seek succeeds. -/
theorem printAdjacencySampleFromFile_walk (path : String) (f : File) {offset : Nat}
    (hs : seekOk offset = true) (numNodes maxNbrs : Nat) :
    printAdjacencySampleFromFile path (some f) offset numNodes maxNbrs =
      match readGraphHeader f offset with
      | none => []
      | some h => .adjacencyHeader numNodes h.ep :: ((adjacencyLines f maxNbrs 0
          (walk f h.expectedFileSize kGraphHeaderSize (offset + kGraphHeaderSize))).take numNodes).map
            .node := by
  simp only [printAdjacencySampleFromFile, if_pos hs]
  cases readGraphHeader f offset with
  | none => rfl
  | some h =>
    have hscan := foldSteps_adjacencyBody
      (walk_laid f h.expectedFileSize kGraphHeaderSize (offset + kGraphHeaderSize)) maxNbrs numNodes []
    simp only [List.length_nil, List.nil_append, Nat.sub_zero] at hscan
    simp only [recordLoop_eq_foldSteps, hscan]

/-- The whole output of the small-graph printer once its seek succeeds. -/
theorem printSmallGraphFromFile_walk (path : String) (f : File) {offset : Nat}
    (hs : seekOk offset = true) (numNodes maxNbrs : Nat) :
    printSmallGraphFromFile path (some f) offset numNodes maxNbrs =
      match readGraphHeader f offset with
      | none => []
      | some h =>
        if numNodes ≤ kVectorMaxSize then
          let outs := (storedIds f (walk f h.expectedFileSize kGraphHeaderSize
            (offset + kGraphHeaderSize))).take numNodes
          .smallGraphHeader outs.length h.ep :: (sampleLines maxNbrs outs).map .node
        else [] := by
  simp only [printSmallGraphFromFile, if_pos hs]
  cases readGraphHeader f offset with
  | none => rfl
  | some h =>
    by_cases hN : numNodes ≤ kVectorMaxSize
    · have hscan := foldSteps_smallGraphBody
        (walk_laid f h.expectedFileSize kGraphHeaderSize (offset + kGraphHeaderSize)) numNodes []
        (Nat.zero_le _)
      simp only [List.length_nil, sampleState_nil, List.nil_append, Nat.sub_zero] at hscan
      obtain ⟨hn, hlines⟩ := smallGraphLines_shrinkSample maxNbrs numNodes
        ((storedIds f (walk f h.expectedFileSize kGraphHeaderSize (offset + kGraphHeaderSize))).take
          numNodes) (List.length_take_le _ _)
      simp only [if_neg (Nat.not_lt.mpr hN), if_pos hN, recordLoop_eq_foldSteps, hscan]
      rw [hlines, hn]
    · simp only [if_pos (Nat.lt_of_not_le hN), if_neg hN]

/-! ### The three readers -/

theorem computeGraphStatsFromFile_drop (f : File) (offset : Nat) :
    computeGraphStatsFromFile (some (f.drop offset)) 0 = computeGraphStatsFromFile (some f) offset := by
  rw [computeGraphStatsFromFile_eq_walk, computeGraphStatsFromFile_eq_walk, fileRecords_drop]
  cases fileRecords f offset with
  | none => rfl
  | some r => simp [List.map_map, Function.comp_def]

theorem printAdjacencySampleFromFile_drop (path : String) (f : File) {offset : Nat}
    (hs : seekOk offset = true) (numNodes maxNbrs : Nat) :
    printAdjacencySampleFromFile path (some (f.drop offset)) 0 numNodes maxNbrs =
      printAdjacencySampleFromFile path (some f) offset numNodes maxNbrs := by
  rw [printAdjacencySampleFromFile_walk path _ (show seekOk 0 = true from rfl),
    printAdjacencySampleFromFile_walk path _ hs, readGraphHeader_drop, Nat.add_zero]
  cases readGraphHeader f offset with
  | none => rfl
  | some h =>
    simp only [Nat.zero_add, walk_drop, adjacencyLines_drop (walk_laid _ _ _ _) (Nat.le_add_right _ _)]

theorem printSmallGraphFromFile_drop (path : String) (f : File) {offset : Nat}
    (hs : seekOk offset = true) (numNodes maxNbrs : Nat) :
    printSmallGraphFromFile path (some (f.drop offset)) 0 numNodes maxNbrs =
      printSmallGraphFromFile path (some f) offset numNodes maxNbrs := by
  rw [printSmallGraphFromFile_walk path _ (show seekOk 0 = true from rfl),
    printSmallGraphFromFile_walk path _ hs, readGraphHeader_drop, Nat.add_zero]
  cases readGraphHeader f offset with
  | none => rfl
  | some h =>
    simp only [Nat.zero_add, walk_drop, storedIds_drop (walk_laid _ _ _ _) (Nat.le_add_right _ _)]

theorem smallGraphFromFileThrows_drop (f : File) {offset : Nat} (hs : seekOk offset = true)
    (numNodes : Nat) :
    smallGraphFromFileThrows (some (f.drop offset)) 0 numNodes =
      smallGraphFromFileThrows (some f) offset numNodes := by
  simp only [smallGraphFromFileThrows, readGraphHeader_drop, Nat.add_zero, hs,
    show seekOk 0 = true from rfl]

/-- **The layout-A readers read relative to their offset.**  On every file, the stats reader
at `offset` reports what it reports at `0` in the file without its first `offset` bytes.
When the seek to `offset` succeeds, the two printers print the same lines there as well. -/
theorem layoutAReaders_drop (path : String) (f : File) (offset numNodes maxNbrs : Nat) :
    computeGraphStatsFromFile (some (f.drop offset)) 0 = computeGraphStatsFromFile (some f) offset ∧
    (seekOk offset = true →
      printAdjacencySampleFromFile path (some (f.drop offset)) 0 numNodes maxNbrs =
        printAdjacencySampleFromFile path (some f) offset numNodes maxNbrs ∧
      printSmallGraphFromFile path (some (f.drop offset)) 0 numNodes maxNbrs =
        printSmallGraphFromFile path (some f) offset numNodes maxNbrs) :=
  ⟨computeGraphStatsFromFile_drop f offset, fun hs =>
    ⟨printAdjacencySampleFromFile_drop path f hs numNodes maxNbrs,
      printSmallGraphFromFile_drop path f hs numNodes maxNbrs⟩⟩

/-- One byte into the truncated-record file the seek succeeds, and the adjacency sampler
prints what it prints at `0` in the file without that byte. -/
theorem truncatedRecordFile_drop :
    seekOk 1 = true ∧
      printAdjacencySampleFromFile "g" (some (truncatedRecordFile.drop 1)) 0 1 1 =
        printAdjacencySampleFromFile "g" (some truncatedRecordFile) 1 1 1 :=
  ⟨rfl, ((layoutAReaders_drop "g" truncatedRecordFile 1 1 1).2 rfl).1⟩

end Pipeann
