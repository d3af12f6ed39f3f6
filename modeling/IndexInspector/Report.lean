import IndexInspector.Bytes

/-!
# What the printers write

The four printers of `graph_stats.cpp` write line-oriented text.  Their output is
modelled as a list of `OutLine`s, each carrying exactly the values the `<<` chain
inserts, and `OutLine.render` turns a line into its text.  A node line is a
`NodeLine`: its label, the ids it shows, the `, ... (k total)` figure when present,
and, for the small graph, its `referenced_by` list.

Two pieces of the printers are shared and live here.

* `toShow` — the display cap `(max > 0 && k > max) ? max : k` that all four printers
  apply.
* `pushInNbrs` — the reverse-edge loop of both small-graph printers,
  `for (uint32_t v : out) if (v < num_nodes) in_nbrs[v].push_back(node_id)`.
  `inNbrsOf n outs` is its closed form: after the out-lists `outs` have been stored in
  order, slot `i < n` holds `transposeRow outs i`, the line indices `j` repeated once
  per occurrence of `i` in `outs[j]`.  `pushInNbrs_inNbrsOf` is the step lemma.
* `kVectorMaxSize` — the largest sample the small-graph printers can allocate its
  `num_nodes`-sized vectors for.
-/

namespace Pipeann

/-- One node line: `label: [shown..., ... (total total)]`, with a `referenced_by`
segment for the small graph. -/
structure NodeLine where
  label : Nat
  shown : List UInt32
  total : Option Nat
  referencedBy : Option (List UInt32)
  deriving Repr, DecidableEq

/-- One line written to `out`. -/
inductive OutLine where
  | couldNotOpen (path : String)
  | seekFailed
  | adjacencyHeader (numNodes entryPoint : Nat)
  | smallGraphHeader (numNodes entryPoint : Nat)
  | node (line : NodeLine)
  deriving Repr, DecidableEq

/-- The node lines of an output, in order. -/
def nodeLines (out : List OutLine) : List NodeLine :=
  out.filterMap fun | .node l => some l | _ => none

@[simp] theorem nodeLines_nil : nodeLines [] = [] := rfl

@[simp] theorem nodeLines_node (l : NodeLine) (out : List OutLine) :
    nodeLines (.node l :: out) = l :: nodeLines out := rfl

@[simp] theorem nodeLines_couldNotOpen (path : String) (out : List OutLine) :
    nodeLines (.couldNotOpen path :: out) = nodeLines out := rfl

@[simp] theorem nodeLines_seekFailed (out : List OutLine) :
    nodeLines (.seekFailed :: out) = nodeLines out := rfl

@[simp] theorem nodeLines_adjacencyHeader (n ep : Nat) (out : List OutLine) :
    nodeLines (.adjacencyHeader n ep :: out) = nodeLines out := rfl

@[simp] theorem nodeLines_smallGraphHeader (n ep : Nat) (out : List OutLine) :
    nodeLines (.smallGraphHeader n ep :: out) = nodeLines out := rfl

@[simp] theorem nodeLines_map_node (ls : List NodeLine) : nodeLines (ls.map .node) = ls := by
  induction ls <;> simp [*]

/-! ### Rendering -/

/-- The ids of a line, separated by `, `. -/
def joinIds (ids : List UInt32) : String := String.intercalate (", ") (ids.map toString)

/-- The `, ... (k total)` suffix of a capped line. -/
def totalSuffix : Option Nat → String
  | none => ""
  | some k => ", ... (" ++ toString k ++ " total)"

/-- The text of a line, without its `std::endl`. -/
def OutLine.render : OutLine → String
  | .couldNotOpen path => "Could not open file: " ++ path
  | .seekFailed => "Seek failed"
  | .adjacencyHeader n ep =>
    "Adjacency sample (first " ++ toString n ++ " nodes, entry_point=" ++ toString ep ++ "):"
  | .smallGraphHeader n ep =>
    "Small graph (first " ++ toString n ++ " nodes, entry_point=" ++ toString ep ++
      "): out-neighbors and referenced_by within sample"
  | .node ⟨label, shown, total, none⟩ =>
    "  " ++ toString label ++ ": [" ++ joinIds shown ++ totalSuffix total ++ "]"
  | .node ⟨label, shown, total, some refs⟩ =>
    "  " ++ toString label ++ ": out [" ++ joinIds shown ++ totalSuffix total ++
      "]  referenced_by [" ++ joinIds refs ++ "]"

/-! ### The display cap -/

/-- `(max_neighbors_per_node > 0 && k > max_neighbors_per_node) ? max_neighbors_per_node : k`. -/
def toShow (maxNbrs k : Nat) : Nat := if maxNbrs > 0 ∧ k > maxNbrs then maxNbrs else k

theorem toShow_le (maxNbrs k : Nat) : toShow maxNbrs k ≤ k := by
  unfold toShow; split <;> omega

/-- A cap of `0` shows everything. -/
@[simp] theorem toShow_zero (k : Nat) : toShow 0 k = k := by simp [toShow]

/-- The `total` figure of a line showing `toShow maxNbrs k` of `k` ids. -/
def totalOf (maxNbrs k : Nat) : Option Nat := if k > toShow maxNbrs k then some k else none

/-- The degree a line reports: its total when it is capped, else the number of ids it
shows. -/
def NodeLine.degree (l : NodeLine) : Nat := l.total.getD l.shown.length

/-- A line showing `toShow maxNbrs k` ids with the total figure of `k` reports `k`. -/
@[simp] theorem NodeLine.degree_mk {maxNbrs k : Nat} (label : Nat) (shown : List UInt32)
    (refs : Option (List UInt32)) (h : shown.length = toShow maxNbrs k) :
    (NodeLine.mk label shown (totalOf maxNbrs k) refs).degree = k := by
  have := toShow_le maxNbrs k
  unfold NodeLine.degree totalOf
  split
  · rfl
  · simp only [Option.getD_none, h]; omega

/-! ### Reverse edges -/

/-- `for (uint32_t v : out) if (v < num_nodes) in_nbrs[v].push_back(static_cast<uint32_t>(node_id));` -/
def pushInNbrs (numNodes nodeId : Nat) (inNbrs : List (List UInt32)) (out : List UInt32) :
    List (List UInt32) :=
  out.foldl (fun acc v =>
    if v.toNat < numNodes then acc.modify (· ++ [UInt32.ofNat nodeId]) v.toNat else acc) inNbrs

/-- The `referenced_by` list of index `i` once the out-lists `outs` are stored: each
line index `j`, once per occurrence of `i` in `outs[j]`. -/
def transposeRow (outs : List (List UInt32)) (i : Nat) : List UInt32 :=
  (List.range outs.length).flatMap fun j =>
    List.replicate ((outs.getD j []).countP (·.toNat = i)) (UInt32.ofNat j)

/-- The whole `in_nbrs` array of `n` slots after the out-lists `outs`. -/
def inNbrsOf (n : Nat) (outs : List (List UInt32)) : List (List UInt32) :=
  (List.range n).map (transposeRow outs)

@[simp] theorem length_pushInNbrs (n j : Nat) (ins : List (List UInt32)) (out : List UInt32) :
    (pushInNbrs n j ins out).length = ins.length := by
  induction out generalizing ins with
  | nil => rfl
  | cons v out ih => simp only [pushInNbrs, List.foldl_cons] at ih ⊢; rw [ih]; split <;> simp

@[simp] theorem length_inNbrsOf (n : Nat) (outs : List (List UInt32)) :
    (inNbrsOf n outs).length = n := by simp [inNbrsOf]

/-- One push loop appends `j` to slot `i` once per occurrence of `i` in `out`. -/
theorem getElem?_pushInNbrs (n j : Nat) (ins : List (List UInt32)) (out : List UInt32)
    {i : Nat} (hi : i < n) :
    (pushInNbrs n j ins out)[i]? =
      (ins[i]?).map (· ++ List.replicate (out.countP (·.toNat = i)) (UInt32.ofNat j)) := by
  induction out generalizing ins with
  | nil => simp [pushInNbrs]
  | cons v out ih =>
    simp only [pushInNbrs, List.foldl_cons] at ih ⊢
    rw [ih]
    by_cases hv : v.toNat = i
    · subst hv
      rw [if_pos hi, List.getElem?_modify_eq]
      cases ins[v.toNat]? <;> simp [List.replicate_succ]
    · have : (if v.toNat < n then ins.modify (· ++ [UInt32.ofNat j]) v.toNat else ins)[i]? = ins[i]? := by
        split <;> simp [List.getElem?_modify_ne _ _ hv]
      simp [this, hv]

theorem transposeRow_append (outs : List (List UInt32)) (o : List UInt32) (i : Nat) :
    transposeRow (outs ++ [o]) i =
      transposeRow outs i ++ List.replicate (o.countP (·.toNat = i)) (UInt32.ofNat outs.length) := by
  have hcongr : ∀ j ∈ List.range outs.length, (outs ++ [o]).getD j [] = outs.getD j [] := by
    intro j hj
    simp only [List.getD_eq_getElem?_getD, List.getElem?_append_left (List.mem_range.mp hj)]
  have hlast : (outs ++ [o]).getD outs.length [] = o := by simp
  simp only [transposeRow, List.length_append, List.length_singleton, List.range_succ,
    List.flatMap_append, List.flatMap_singleton, hlast]
  congr 1
  apply List.flatMap_congr
  intro j hj
  rw [hcongr j hj]

/-- **The reverse-edge step lemma.**  Pushing the out-list of line `outs.length` into
the closed form gives the closed form of the longer sample. -/
theorem pushInNbrs_inNbrsOf (n : Nat) (outs : List (List UInt32)) (o : List UInt32) :
    pushInNbrs n outs.length (inNbrsOf n outs) o = inNbrsOf n (outs ++ [o]) := by
  apply List.ext_getElem?
  intro i
  by_cases hi : i < n
  · rw [getElem?_pushInNbrs _ _ _ _ hi]
    simp [inNbrsOf, List.getElem?_range hi, transposeRow_append]
  · have h1 : (pushInNbrs n outs.length (inNbrsOf n outs) o).length ≤ i := by simp; omega
    have h2 : (inNbrsOf n (outs ++ [o])).length ≤ i := by simp; omega
    rw [List.getElem?_eq_none h1, List.getElem?_eq_none h2]

/-- With fewer than `2 ^ 32` lines, the `uint32_t` casts of the line indices are exact. -/
theorem map_toNat_transposeRow (outs : List (List UInt32)) (i : Nat)
    (h : outs.length ≤ 2 ^ 32) :
    (transposeRow outs i).map UInt32.toNat =
      (List.range outs.length).flatMap fun j =>
        List.replicate ((outs.getD j []).countP (·.toNat = i)) j := by
  simp only [transposeRow, List.map_flatMap, List.map_replicate]
  apply List.flatMap_congr
  intro j hj
  rw [UInt32.toNat_ofNat_of_lt (by have := List.mem_range.mp hj; simp [UInt32.size]; omega)]

/-! ### The small graph's printing phase -/

/-- `max_size()` of `std::vector<std::vector<uint32_t>>` in libstdc++ on LP64:
`PTRDIFF_MAX / sizeof(std::vector<uint32_t>)`, with 24-byte elements.  Both small-graph
printers size `out_nbrs` and `in_nbrs` by the sample size, and the constructor throws
`std::length_error` for a larger size, before the printer writes anything. -/
def kVectorMaxSize : Nat := (2 ^ 63 - 1) / 24

/-- `if (n_read < num_nodes) { out_nbrs.resize(n_read); in_nbrs.resize(n_read);
num_nodes = n_read; }` -/
def shrinkSample (numNodes nRead : Nat) (outNbrs inNbrs : List (List UInt32)) :
    Nat × List (List UInt32) × List (List UInt32) :=
  if nRead < numNodes then (nRead, outNbrs.take nRead, inNbrs.take nRead)
  else (numNodes, outNbrs, inNbrs)

/-- The printing loop of both small-graph printers:
`i: out [first to_show of out_nbrs[i]] referenced_by [in_nbrs[i]]` for `i < num_nodes`. -/
def smallGraphLines (maxNbrs numNodes : Nat) (outNbrs inNbrs : List (List UInt32)) :
    List NodeLine :=
  (List.range numNodes).map fun i =>
    let out := outNbrs.getD i []
    ⟨i, out.take (toShow maxNbrs out.length), totalOf maxNbrs out.length, some (inNbrs.getD i [])⟩

/-- The scan state after storing the out-lists `outs` of the first `outs.length` lines of
an `n`-line sample: `out_nbrs` filled up to there and `in_nbrs` in closed form. -/
def sampleState (n : Nat) (outs : List (List UInt32)) :
    List (List UInt32) × List (List UInt32) :=
  (outs ++ List.replicate (n - outs.length) [], inNbrsOf n outs)

@[simp] theorem sampleState_nil (n : Nat) :
    sampleState n [] = (List.replicate n [], List.replicate n []) := by
  have : transposeRow [] = fun _ => [] := rfl
  simp [sampleState, inNbrsOf, this]

/-- Storing one more out-list: `out_nbrs[node_id] = nbrs` and the push loop. -/
theorem sampleState_snoc (n : Nat) (outs : List (List UInt32)) (o : List UInt32)
    (h : outs.length < n) :
    ((sampleState n outs).1.set outs.length o,
      pushInNbrs n outs.length (sampleState n outs).2 o) = sampleState n (outs ++ [o]) := by
  simp only [sampleState, pushInNbrs_inNbrsOf, Prod.mk.injEq, and_true, List.length_append,
    List.length_singleton]
  rw [List.set_append_right _ _ (Nat.le_refl _), Nat.sub_self, List.append_assoc]
  obtain ⟨m, hm⟩ : ∃ m, n - outs.length = m + 1 := ⟨n - outs.length - 1, by omega⟩
  rw [hm, show n - (outs.length + 1) = m by omega]
  rfl

/-- The lines a sample with stored out-lists `outs` prints: line `i` shows the capped
`outs[i]` and refers back to `transposeRow outs i`. -/
def sampleLines (maxNbrs : Nat) (outs : List (List UInt32)) : List NodeLine :=
  (List.range outs.length).map fun i =>
    let out := outs.getD i []
    ⟨i, out.take (toShow maxNbrs out.length), totalOf maxNbrs out.length, some (transposeRow outs i)⟩

@[simp] theorem sampleLines_nil (maxNbrs : Nat) : sampleLines maxNbrs [] = [] := rfl

@[simp] theorem length_sampleLines (maxNbrs : Nat) (outs : List (List UInt32)) :
    (sampleLines maxNbrs outs).length = outs.length := by simp [sampleLines]

/-- Sample line `i` is labelled `i`. -/
@[simp] theorem map_label_sampleLines (maxNbrs : Nat) (outs : List (List UInt32)) :
    (sampleLines maxNbrs outs).map NodeLine.label = List.range outs.length := by
  simp [sampleLines, Function.comp_def]

/-- Each sample line reports the length of its stored out-list. -/
theorem map_degree_sampleLines (maxNbrs : Nat) (outs : List (List UInt32)) :
    (sampleLines maxNbrs outs).map NodeLine.degree = outs.map List.length := by
  apply List.ext_getElem (by simp)
  intro i _ h
  have hi : i < outs.length := by simpa using h
  simp [sampleLines, toShow_le, List.getElem?_eq_getElem hi]

/-- **The printing phase in closed form.**  Whether or not the scan stopped early, the
resize and the printing loop print exactly the stored out-lists with their transposes. -/
theorem smallGraphLines_shrinkSample (maxNbrs n : Nat) (outs : List (List UInt32))
    (h : outs.length ≤ n) :
    let r := shrinkSample n outs.length (sampleState n outs).1 (sampleState n outs).2
    r.1 = outs.length ∧ smallGraphLines maxNbrs r.1 r.2.1 r.2.2 = sampleLines maxNbrs outs := by
  have key : ∀ i < outs.length, (inNbrsOf n outs)[i]? = some (transposeRow outs i) := by
    intro i hi
    simp [inNbrsOf, List.getElem?_range (show i < n by omega)]
  simp only [shrinkSample, sampleState]
  split
  · refine ⟨rfl, ?_⟩
    simp only [smallGraphLines, sampleLines, List.take_left' rfl]
    apply List.map_congr_left
    intro i hi
    have hi := List.mem_range.mp hi
    simp [List.getD_eq_getElem?_getD, List.getElem?_take, hi, key i hi]
  · obtain rfl : outs.length = n := by omega
    refine ⟨rfl, ?_⟩
    simp only [smallGraphLines, sampleLines, Nat.sub_self, List.replicate_zero, List.append_nil]
    apply List.map_congr_left
    intro i hi
    simp [List.getD_eq_getElem?_getD, key i (List.mem_range.mp hi)]

end Pipeann
