import IndexInspector.GraphFileLaws

/-!
# The layout-A record loop, pass by pass

`recordLoop` is the while loop of the three layout-A walkers as one function. Lean accepts
it by well-founded recursion on the bytes after the stream position. This module gives
the same loop as a sequence of passes through its body. `LoopRun` relates a configuration
at the guard test to the positions of the degree reads the loop makes, one per pass, and
to the state the loop exits with. Its four constructors are the four ways a pass can end:

```
while (bytes_read != expected_file_size [&& node_id < num_nodes] && in.good()) {
  in.read(&k, 4); if (!in.good()) break;        -- `readFails`
  ...body...                                    -- `bodyBreaks` on a `break`
  bytes_read += 4 + 4 * k;                      -- `next`
}                                               -- `exit` when the guard fails
```

## Main Definitions

* `LoopRun` — the runs of the record loop, with the positions of their degree reads.
* `BoundedLoop` — what the format's description promises of the loop: it ends, and its
  degree reads march through the file.

## Main results

* `LoopRun.recordLoop_eq` — every run exits with the state `recordLoop` computes.
* `loopRun_exists` — the loop has a run from every configuration, whatever
  `expected_file_size` is: it terminates.
* `LoopRun.chain`, `LoopRun.dropLast_inside`, `LoopRun.length_filter_inside_le` — the
  degree reads of a run lie at least 4 bytes apart. Every read but the last lies inside
  the file, so at most `(len - pos) / 4` of them do. The last read may fail, and that
  pass is the only one more.
* `recordLoops_bounded` — the three walkers' loops, started after the header at
  `offset`, are bounded that way, and `total_nodes ≤ (len - offset - 24) / 4`.

## Design Notes

At every guard test the walkers reach, `in.good()` holds. A failed read or seek `break`s
out of the body. The one exception is the adjacency sampler's unchecked skip: its failure
ends the loop at the next guard test, which its body gives as `.done` after the pass.
The guard here is therefore `bytes_read != expected_file_size` and the walker's own test.
A pass is counted at its degree read, so the passes of a run are the positions in its
trace.
-/

namespace Pipeann

section Runs

variable {σ : Type} (f : File) (expected : Nat) (more : σ → Bool)
  (body : σ → Nat → Nat → ForInStep σ)

/-- `LoopRun f expected more body s bytesRead pos ps s'`: the record loop at its guard
test, with walker state `s`, counter `bytes_read` and stream position `pos`, passes
through its body once for each position of `ps`, where that pass reads its degree, and
exits with walker state `s'`. -/
inductive LoopRun : σ → Nat → Nat → List Nat → σ → Prop
  /-- The guard fails: the loop exits without a pass. -/
  | exit {s : σ} {bytesRead pos : Nat} :
      ¬ (bytesRead ≠ expected ∧ more s = true) → LoopRun s bytesRead pos [] s
  /-- The degree read fails, and the pass `break`s. -/
  | readFails {s : σ} {bytesRead pos : Nat} :
      bytesRead ≠ expected ∧ more s = true → readLE f pos 4 = none →
      LoopRun s bytesRead pos [pos] s
  /-- The degree reads, and the body `break`s. -/
  | bodyBreaks {s s' : σ} {bytesRead pos k : Nat} :
      bytesRead ≠ expected ∧ more s = true → readLE f pos 4 = some k →
      body s k (pos + 4) = .done s' → LoopRun s bytesRead pos [pos] s'
  /-- The degree reads, the body continues, and the counter and the stream step over the
  record. -/
  | next {s s' s'' : σ} {bytesRead pos k : Nat} {ps : List Nat} :
      bytesRead ≠ expected ∧ more s = true → readLE f pos 4 = some k →
      body s k (pos + 4) = .yield s' →
      LoopRun s' (bytesRead + 4 + 4 * k) (pos + 4 + 4 * k) ps s'' →
      LoopRun s bytesRead pos (pos :: ps) s''

variable {f expected more body}

/-! ### The function and its runs -/

theorem recordLoop_of_not_guard {s : σ} {bytesRead pos : Nat}
    (hg : ¬ (bytesRead ≠ expected ∧ more s = true)) :
    recordLoop f expected more body s bytesRead pos = s := by
  rw [recordLoop, if_neg hg]

theorem recordLoop_of_readFails {s : σ} {bytesRead pos : Nat}
    (hg : bytesRead ≠ expected ∧ more s = true) (hk : readLE f pos 4 = none) :
    recordLoop f expected more body s bytesRead pos = s := by
  rw [recordLoop, if_pos hg]
  split
  · rfl
  · rename_i k hk'
    cases hk.symm.trans hk'

theorem recordLoop_of_read {s : σ} {bytesRead pos k : Nat}
    (hg : bytesRead ≠ expected ∧ more s = true) (hk : readLE f pos 4 = some k) :
    recordLoop f expected more body s bytesRead pos =
      match body s k (pos + 4) with
      | .done s' => s'
      | .yield s' => recordLoop f expected more body s' (bytesRead + 4 + 4 * k) (pos + 4 + 4 * k) := by
  rw [recordLoop, if_pos hg]
  split
  · rename_i hnone
    cases hk.symm.trans hnone
  · rename_i k' hk'
    obtain rfl : k' = k := Option.some.inj (hk'.symm.trans hk)
    rfl

/-- **The runs refine the loop function.**  Every run exits with the state `recordLoop`
computes. -/
theorem LoopRun.recordLoop_eq {s s' : σ} {bytesRead pos : Nat} {ps : List Nat}
    (h : LoopRun f expected more body s bytesRead pos ps s') :
    recordLoop f expected more body s bytesRead pos = s' := by
  induction h with
  | exit hg => exact recordLoop_of_not_guard hg
  | readFails hg hk => exact recordLoop_of_readFails hg hk
  | bodyBreaks hg hk hb => rw [recordLoop_of_read hg hk, hb]
  | next hg hk hb _ ih => rw [recordLoop_of_read hg hk, hb]; exact ih

/-- **The loop terminates.**  From every configuration, whatever `expected_file_size`
is, the loop has a run. -/
theorem loopRun_exists (s : σ) (bytesRead pos : Nat) :
    ∃ ps s', LoopRun f expected more body s bytesRead pos ps s' := by
  induction s, bytesRead, pos using recordLoop.induct f expected more body with
  | case1 s bytesRead pos hg hk => exact ⟨_, _, .readFails hg hk⟩
  | case2 s bytesRead pos hg k hk s' hb => exact ⟨_, _, .bodyBreaks hg hk hb⟩
  | case3 s bytesRead pos hg k hk s' hb ih =>
    obtain ⟨ps, s'', hrun⟩ := ih
    exact ⟨_, _, .next hg hk hb hrun⟩
  | case4 s bytesRead pos hg => exact ⟨_, _, .exit hg⟩

/-! ### Where a run reads -/

/-- Every degree read of a run lies at or after the position the run starts from. -/
theorem LoopRun.le_of_mem {s s' : σ} {bytesRead pos : Nat} {ps : List Nat}
    (h : LoopRun f expected more body s bytesRead pos ps s') : ∀ p ∈ ps, pos ≤ p := by
  induction h with
  | exit => simp
  | readFails | bodyBreaks => simp
  | next _ _ _ _ ih =>
    intro p hp
    rcases List.mem_cons.mp hp with rfl | hp
    · exact le_rfl
    · have := ih p hp; omega

/-- The degree reads of a run lie at least 4 bytes apart, in increasing order. -/
theorem LoopRun.chain {s s' : σ} {bytesRead pos : Nat} {ps : List Nat}
    (h : LoopRun f expected more body s bytesRead pos ps s') :
    ps.Chain' fun p q => p + 4 ≤ q := by
  induction h with
  | exit => exact List.chain'_nil
  | readFails | bodyBreaks => exact List.chain'_singleton _
  | next _ _ _ hrun ih =>
    refine List.chain'_cons'.mpr ⟨fun q hq => ?_, ih⟩
    have := hrun.le_of_mem q (List.mem_of_mem_head? hq)
    omega

/-- Every degree read of a run but its last lies inside the file. -/
theorem LoopRun.dropLast_inside {s s' : σ} {bytesRead pos : Nat} {ps : List Nat}
    (h : LoopRun f expected more body s bytesRead pos ps s') :
    ∀ p ∈ ps.dropLast, p + 4 ≤ f.bytes.length := by
  induction h with
  | exit | readFails | bodyBreaks => simp
  | @next _ _ _ _ pos _ ps hg hk _ _ ih =>
    have hin := readLE_some_le hk
    cases ps with
    | nil => simp
    | cons q qs =>
      intro p hp
      rw [List.dropLast_cons₂] at hp
      rcases List.mem_cons.mp hp with rfl | hp
      · exact hin
      · exact ih p hp

/-- At most `(len - pos) / 4` degree reads of a run lie inside the file. -/
theorem LoopRun.length_filter_inside_le {s s' : σ} {bytesRead pos : Nat} {ps : List Nat}
    (h : LoopRun f expected more body s bytesRead pos ps s') :
    (ps.filter fun p => p + 4 ≤ f.bytes.length).length ≤ (f.bytes.length - pos) / 4 := by
  rw [Nat.le_div_iff_mul_le (by decide)]
  induction h with
  | exit => simp
  | @readFails _ _ pos _ hk =>
    have := readLE_eq_none_iff.mp hk
    simp only [List.filter_cons, List.filter_nil, decide_eq_true_eq,
      if_neg (show ¬ pos + 4 ≤ f.bytes.length by omega), List.length_nil, Nat.zero_mul]
    exact Nat.zero_le _
  | bodyBreaks _ hk _ =>
    have := readLE_some_le hk
    simp only [List.filter_cons, List.filter_nil, decide_eq_true_eq, if_pos this,
      List.length_singleton]
    omega
  | next _ hk _ _ ih =>
    have := readLE_some_le hk
    simp only [List.filter_cons, decide_eq_true_eq, if_pos this, List.length_cons]
    omega

/-- A run makes at most `(len - pos) / 4 + 1` passes: one for each read inside the file,
and at most one more. -/
theorem LoopRun.length_le {s s' : σ} {bytesRead pos : Nat} {ps : List Nat}
    (h : LoopRun f expected more body s bytesRead pos ps s') :
    ps.length ≤ (f.bytes.length - pos) / 4 + 1 := by
  induction h with
  | exit => simp
  | readFails | bodyBreaks => simp
  | next _ hk _ _ ih =>
    have := readLE_some_le hk
    simp only [List.length_cons]
    omega

end Runs

/-! ### The three walkers -/

/-- The record loop at a guard test terminates, and every run of it makes its degree reads
from `pos` on, each at least 4 bytes after the one before and, but for the last, inside the
file. At most `(len - pos) / 4` of its reads lie inside the
file and it makes at most one pass more. It exits with the state `recordLoop` computes. -/
def BoundedLoop {σ : Type} (f : File) (expected : Nat) (more : σ → Bool)
    (body : σ → Nat → Nat → ForInStep σ) (s : σ) (bytesRead pos : Nat) : Prop :=
  (∃ ps s', LoopRun f expected more body s bytesRead pos ps s') ∧
    ∀ ps s', LoopRun f expected more body s bytesRead pos ps s' →
      recordLoop f expected more body s bytesRead pos = s' ∧
        (ps.Chain' fun p q => p + 4 ≤ q) ∧ (∀ p ∈ ps, pos ≤ p) ∧
        (∀ p ∈ ps.dropLast, p + 4 ≤ f.bytes.length) ∧
        (ps.filter fun p => p + 4 ≤ f.bytes.length).length ≤ (f.bytes.length - pos) / 4 ∧
        ps.length ≤ (f.bytes.length - pos) / 4 + 1

/-- Every record loop is bounded. -/
theorem boundedLoop {σ : Type} (f : File) (expected : Nat) (more : σ → Bool)
    (body : σ → Nat → Nat → ForInStep σ) (s : σ) (bytesRead pos : Nat) :
    BoundedLoop f expected more body s bytesRead pos :=
  ⟨loopRun_exists s bytesRead pos, fun _ _ h =>
    ⟨h.recordLoop_eq, h.chain, h.le_of_mem, h.dropLast_inside, h.length_filter_inside_le,
      h.length_le⟩⟩

/-- Records laid from `pos` take 4 bytes each of what follows `pos`. -/
theorem Laid.length_le {f : File} {pos : Nat} {rs : List Rec} (h : Laid f pos rs) :
    rs.length ≤ (f.bytes.length - pos) / 4 := by
  rw [Nat.le_div_iff_mul_le (by decide)]
  induction h with
  | nil => exact Nat.zero_le _
  | cons pos k rs hk _ ih =>
    have := readLE_some_le hk
    simp only [List.length_cons]
    omega

/-- **The layout-A record loops are bounded.**  For every byte string and every offset,
and whatever `expected_file_size` the header gives, the loops of
`compute_graph_stats_from_file`, `print_adjacency_sample_from_file` and
`print_small_graph_from_file`, started after the header, terminate. In every run the
degree reads lie at least 4 bytes apart from `offset + 24` on. Every read but the last
lies inside the file, so at most `(len - offset - 24) / 4` of them do, and the loop makes
at most one pass more. The stats scan counts at most `(len - offset - 24) / 4` nodes. -/
theorem recordLoops_bounded (f : File) (offset expected numNodes maxNbrs : Nat) :
    BoundedLoop f expected (fun _ => true) statsBody (0, DegreeAcc.init) kGraphHeaderSize
        (offset + kGraphHeaderSize) ∧
      BoundedLoop f expected (fun s => s.1 < numNodes) (adjacencyBody f maxNbrs) (0, [])
        kGraphHeaderSize (offset + kGraphHeaderSize) ∧
      BoundedLoop f expected (fun s => s.nodeId < numNodes) (smallGraphBody f numNodes)
        ⟨0, List.replicate numNodes [], List.replicate numNodes []⟩ kGraphHeaderSize
        (offset + kGraphHeaderSize) ∧
      (computeGraphStatsFromFile (some f) offset).totalNodes ≤
        (f.bytes.length - (offset + kGraphHeaderSize)) / 4 := by
  refine ⟨boundedLoop .., boundedLoop .., boundedLoop .., ?_⟩
  rw [computeGraphStatsFromFile_eq_walk]
  cases hr : fileRecords f offset with
  | none => exact Nat.zero_le _
  | some hrs => exact (fileRecords_laid hr).length_le

/-- A file that holds only a header, whose `expected_file_size` of 0 the counter never
meets. -/
def headerOnlyFile : File := ⟨encGraphHeader 0 0 0 0, by decide⟩

/-- On `headerOnlyFile` the header reads, and every run of the stats loop makes one pass,
whose degree read at byte 24 fails: no degree field fits in the file. -/
theorem headerOnly_failedPass :
    seekOk 0 = true ∧ readGraphHeader headerOnlyFile 0 = some ⟨0, 0, 0, 0⟩ ∧
      LoopRun headerOnlyFile 0 (fun _ => true) statsBody (0, DegreeAcc.init) kGraphHeaderSize
        (0 + kGraphHeaderSize) [kGraphHeaderSize] (0, DegreeAcc.init) ∧
      (∀ ps s', LoopRun headerOnlyFile 0 (fun _ => true) statsBody (0, DegreeAcc.init)
        kGraphHeaderSize (0 + kGraphHeaderSize) ps s' → ps = [kGraphHeaderSize]) ∧
      readLE headerOnlyFile kGraphHeaderSize 4 = none ∧
      (headerOnlyFile.bytes.length - (0 + kGraphHeaderSize)) / 4 = 0 := by
  have hk : readLE headerOnlyFile (0 + kGraphHeaderSize) 4 = none := by decide
  refine ⟨rfl, rfl, .readFails ⟨by decide, rfl⟩ hk, fun ps s' h => ?_, hk, by decide⟩
  cases h with
  | exit hg => exact absurd ⟨by decide, rfl⟩ hg
  | readFails => rfl
  | bodyBreaks _ hk' => cases hk.symm.trans hk'
  | next _ hk' => cases hk.symm.trans hk'

end Pipeann
