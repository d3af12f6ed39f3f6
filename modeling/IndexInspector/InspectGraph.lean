import IndexInspector.InspectArgs
import IndexInspector.Readers

/-!
# `main` of `inspect_graph`

After its option loop `main` settles on one input, reads its stats, checks them, prints a
summary line and runs the samplers the options ask for.  `runOptions` is that part of
`main`, and `inspectGraph` is `main` itself.  They are cut where `main` can stop.

* `checkMode`: the three tests on `mode`, one bit for each input option given.
* `readInput`: the `mode` dispatch up to the stats.  A disk index needs a known data type.
  A single-file index needs five readable metadata words, the first `4096` and the second
  greater, and its graph is read at `4096`.  A raw graph file is read at `0`.
* `checkStats`: the three tests on the stats.
* `printResults`: the summary line, then the adjacency section and the small-graph section.
  A section is printed only when its count is not `0`.  The summary line is the one
  `print_graph_report` writes (`printGraphReport`).

Each stop prints one `Diag` to `std::cerr` and returns `1`.  `Diag.render` is its text.  One
more way out is not a `return`: the small-graph printers throw `std::length_error` for a
sample larger than `max_size()`, nothing in `main` catches it, and the process aborts
(`smallGraphThrows`).

## Design Notes

A file system is a function from paths to the bytes of the file the path opens, `none` when
it does not open.  `main` opens a file several times, once in each function it calls, and
every open sees the same bytes.  `std::cerr` and `std::cout` are two lists, `Outcome.cerr`
and `Outcome.cout`: only an abort writes to both, after everything it wrote to `std::cout`,
which `std::endl` has flushed line by line.  The summary line carries the stats
record; the `std::ostream` text of its `double` `degree_avg` is not modelled.  The outer
`Option` of `runOptions` and `inspectGraph` is the one of the disk-index functions: `none` is
a run that copies from outside a page buffer.
-/

namespace Pipeann

/-- `kMetadataSize`: where the graph of a single-file index starts. -/
def kMetadataSize : Nat := 4096

/-- `kMaxReasonableDegree`. -/
def kMaxReasonableDegree : Nat := 10000000

/-- `kMaxReasonableNodes`. -/
def kMaxReasonableNodes : Nat := 500000000

/-! ### What `main` writes -/

/-- The lines `main` writes to `std::cerr`: its own diagnostics, and the message of the
libstdc++ terminate handler for an uncaught `std::length_error`. -/
inductive Diag where
  | badNumber (flag : Flag) (val : String)
  | usage (prog : String)
  | noInput
  | notExactlyOne
  | diskIndexNeedsDataType
  | badDataType (type : String)
  | couldNotOpen (path : String)
  | couldNotReadMetadata (path : String)
  | notUnifiedIndex
  | failedToRead (path : String) (offset : Nat)
  | noNodesRead
  | notRawGraph
  | lengthErrorAbort

/-- The text `main` writes for a diagnostic, newlines included. -/
def Diag.render : Diag → String
  | .badNumber fl v => "Error: " ++ fl.name ++ " requires a positive number (got \"" ++ v ++ "\").\n"
  | .usage prog =>
    "Usage: " ++ prog ++
      " (--graph-file <path> | --index-file <path> | --disk-index <path> --data-type <type>)\n" ++
      "       [--adjacency-sample N] [--max-neighbors M] [--small-graph N]\n" ++
      "  --graph-file <path>   Raw graph file (as written by save_graph at offset 0).\n" ++
      "  --index-file <path>   Single-file unified index (graph at 4KB).\n" ++
      "  --disk-index <path>   On-disk SSD index (*_disk.index). Requires --data-type.\n" ++
      "  --data-type <type>    For --disk-index only: float, uint8, or int8.\n" ++
      "  --adjacency-sample N  Print neighbor lists for first N nodes (default: 0 = off).\n" ++
      "  --max-neighbors M     Cap neighbors per node in adjacency sample (default: 20).\n" ++
      "  --small-graph N       Print first N nodes with out-neighbors and referenced_by " ++
      "(default: 0 = off).\n"
  | .noInput => "Error: provide one of --graph-file, --index-file, or --disk-index.\n"
  | .notExactlyOne => "Error: provide exactly one of --graph-file, --index-file, or --disk-index.\n"
  | .diskIndexNeedsDataType => "Error: --disk-index requires --data-type (float, uint8, or int8).\n"
  | .badDataType t => "Error: --data-type must be float, uint8, or int8 (got \"" ++ t ++ "\").\n"
  | .couldNotOpen path => "Error: could not open " ++ path ++ "\n"
  | .couldNotReadMetadata path => "Error: could not read metadata (5 x uint64) from " ++ path ++ "\n"
  | .notUnifiedIndex =>
    "Error: file does not look like a single-file unified index (expected first 8 bytes = 4096, " ++
      "next 8 bytes > 4096). Use --disk-index for *_disk.index files.\n"
  | .failedToRead path offset =>
    "Error: failed to read graph from " ++ path ++ " at offset " ++ toString offset ++ "\n"
  | .noNodesRead => "Error: no nodes read (empty graph or read error).\n"
  | .notRawGraph =>
    "Error: file does not look like a raw graph. Use --disk-index for *_disk.index files.\n"
  | .lengthErrorAbort =>
    "terminate called after throwing an instance of \x27std::length_error\x27\n" ++
      "  what():  cannot create std::vector larger than max_size()\n"

/-- The lines `main` writes to `std::cout`: the summary of the stats, an empty line before
each sample section, and the lines of the samplers. -/
inductive CoutLine where
  | summary (s : GraphStats)
  | blank
  | sample (l : OutLine)

/-- `print_graph_report(s, out)`: the summary line, without its `std::endl`.  `avg` is the
text `out` writes for the `double` `degree_avg`. -/
def printGraphReport (s : GraphStats) (avg : String) : String :=
  "Graph structure summary: total_nodes=" ++ toString s.totalNodes ++ " active=" ++
    toString s.activeNodes ++ " frozen=" ++ toString s.frozenNodes ++ " total_edges=" ++
    toString s.totalEdges ++ " degree_min=" ++ toString s.degreeMin ++ " degree_avg=" ++ avg ++
    " degree_max=" ++ toString s.degreeMax ++ " weak_count(deg<2)=" ++ toString s.weakCount ++
    " entry_point=" ++ toString s.entryPoint

/-- The text of a line `main` writes to `std::cout`, without its `std::endl`.  `main` writes
the summary with the stream expression of `print_graph_report`, inlined. -/
def CoutLine.render (avg : Float → String) : CoutLine → String
  | .summary s => printGraphReport s (avg s.degreeAvg)
  | .blank => ""
  | .sample l => l.render

/-- How a run of `main` ends: what it wrote to each stream, and its exit status. -/
structure Outcome where
  cerr : List Diag
  cout : List CoutLine
  status : Nat

/-- What a run writes to `std::cout`, each line ended by its `std::endl`. -/
def Outcome.stdout (out : Outcome) (avg : Float → String) : String :=
  String.join (out.cout.map fun l => l.render avg ++ "\n")

/-- What a run writes to `std::cerr`: each diagnostic carries its own newlines. -/
def Outcome.stderr (out : Outcome) : String := String.join (out.cerr.map Diag.render)

/-- A run stopped by a diagnostic. -/
def Outcome.fail (d : Diag) : Outcome := ⟨[d], [], 1⟩

/-- A run that printed `cout` and then returned `0`, or, when `thrown`, was killed by the
`SIGABRT` of `std::abort`, which a shell reports as status `128 + 6`. -/
def Outcome.printed (thrown : Bool) (cout : List CoutLine) : Outcome :=
  if thrown then ⟨[.lengthErrorAbort], cout, 134⟩ else ⟨[], cout, 0⟩

@[simp] theorem Outcome.printed_cout (thrown : Bool) (cout : List CoutLine) :
    (Outcome.printed thrown cout).cout = cout := by
  cases thrown <;> rfl

/-! ### Choosing the input -/

/-- `mode`: `1`, `2` and `4` for a non-empty `--graph-file`, `--index-file` and
`--disk-index`. -/
def Options.mode (o : Options) : Nat :=
  (if o.graphFile = "" then 0 else 1) + (if o.indexFile = "" then 0 else 2) +
    (if o.diskIndexFile = "" then 0 else 4)

/-- The three tests on `mode`. -/
def checkMode (o : Options) : Option Diag :=
  if o.mode = 0 then some .noInput
  else if o.mode ≠ 1 ∧ o.mode ≠ 2 ∧ o.mode ≠ 4 then some .notExactlyOne
  else if o.mode = 4 ∧ o.dataTypeStr = "" then some .diskIndexNeedsDataType
  else none

/-- The `--data-type` names `main` accepts. -/
def parseDataType (s : String) : Option DiskIndexDataType :=
  if s = "float" then some .kFloat
  else if s = "uint8" then some .kUint8
  else if s = "int8" then some .kInt8
  else none

/-- `in.read(meta, sizeof(meta))` of five `uint64_t` at the start of the file, then
`in.good()`, which the `in.close()` of a file opened for reading leaves as it is: `none`
when the file holds fewer than 40 bytes. -/
def readMetadata (f : File) : Option (List Nat) :=
  (List.range 5).mapM fun i => readLE f (8 * i) 8

/-- What `main` has settled on once the stats are read: `s`, `path`, `offset`,
`is_single_file`, `use_disk_index` and `disk_data_type`. -/
structure Reading where
  stats : GraphStats
  path : String
  offset : Nat
  isSingleFile : Bool
  useDiskIndex : Bool
  diskDataType : DiskIndexDataType

/-- The `mode` dispatch of `main`, for a `mode` that passed `checkMode`: the reading, or the
diagnostic that stops the run. -/
def readInput (fs : String → Option File) (o : Options) : Option (Except Diag Reading) :=
  if o.mode = 4 then
    match parseDataType o.dataTypeStr with
    | none => some (.error (.badDataType o.dataTypeStr))
    | some t =>
      (computeGraphStatsFromDiskIndex (fs o.diskIndexFile) t).map fun s =>
        .ok ⟨s, o.diskIndexFile, 0, false, true, t⟩
  else if o.mode = 1 then
    some (.ok ⟨computeGraphStatsFromFile (fs o.graphFile) 0, o.graphFile, 0, false, false, .kFloat⟩)
  else
    match fs o.indexFile with
    | none => some (.error (.couldNotOpen o.indexFile))
    | some f =>
      match readMetadata f with
      | none => some (.error (.couldNotReadMetadata o.indexFile))
      | some meta =>
        if meta.getD 0 0 ≠ kMetadataSize ∨ meta.getD 1 0 ≤ meta.getD 0 0 then
          some (.error .notUnifiedIndex)
        else
          some (.ok ⟨computeGraphStatsFromFile (fs o.indexFile) (meta.getD 0 0), o.indexFile,
            meta.getD 0 0, true, false, .kFloat⟩)

/-- The three tests on the stats. -/
def checkStats (r : Reading) : Option Diag :=
  if r.stats.totalNodes = 0 ∧ r.useDiskIndex = false ∧ r.offset > 0 then
    some (.failedToRead r.path r.offset)
  else if r.stats.totalNodes = 0 then some .noNodesRead
  else if r.useDiskIndex = false ∧ r.isSingleFile = false ∧
      (r.stats.degreeMax > kMaxReasonableDegree ∨ r.stats.totalNodes > kMaxReasonableNodes) then
    some .notRawGraph
  else none

/-! ### Printing -/

/-- A sample section: nothing when its count is `0`, else an empty line and the output of
the disk-index printer or of the file printer, whichever reads the input. -/
def sampleSection (count : Nat) (r : Reading) (disk : Option (List OutLine))
    (file : List OutLine) : Option (List CoutLine) :=
  if count > 0 then (if r.useDiskIndex then disk else some file).map fun ls => .blank :: ls.map .sample
  else some []

/-- Whether the small-graph section throws `std::length_error`. -/
def smallGraphThrows (fs : String → Option File) (o : Options) (r : Reading) : Bool :=
  decide (o.smallGraph > 0) &&
    if r.useDiskIndex then smallGraphFromDiskIndexThrows (fs r.path) r.diskDataType o.smallGraph
    else smallGraphFromFileThrows (fs r.path) r.offset o.smallGraph

/-- The summary line, then the adjacency section and the small-graph section.  When the
small graph throws, its section is the empty line before it, and the run aborts. -/
def printResults (fs : String → Option File) (o : Options) (r : Reading) : Option Outcome := do
  let adj ← sampleSection o.adjacencySample r
    (printAdjacencySampleFromDiskIndex r.path (fs r.path) r.diskDataType o.adjacencySample
      o.maxNeighborsPerNode)
    (printAdjacencySampleFromFile r.path (fs r.path) r.offset o.adjacencySample o.maxNeighborsPerNode)
  let sg ← sampleSection o.smallGraph r
    (printSmallGraphFromDiskIndex r.path (fs r.path) r.diskDataType o.smallGraph o.maxNeighborsPerNode)
    (printSmallGraphFromFile r.path (fs r.path) r.offset o.smallGraph o.maxNeighborsPerNode)
  pure (.printed (smallGraphThrows fs o r) (.summary r.stats :: (adj ++ sg)))

/-! ### `main` -/

/-- `main` after its option loop. -/
def runOptions (fs : String → Option File) (o : Options) : Option Outcome :=
  match checkMode o with
  | some d => some (.fail d)
  | none =>
    match readInput fs o with
    | none => none
    | some (.error d) => some (.fail d)
    | some (.ok r) =>
      match checkStats r with
      | some d => some (.fail d)
      | none => printResults fs o r

/-- `main(argc, argv)` for `argv = prog :: args`, over the file system `fs`. -/
def inspectGraph (fs : String → Option File) (prog : String) (args : List String) :
    Option Outcome :=
  match scanArgs {} args with
  | .usage => some ⟨[.usage prog], [], 0⟩
  | .badNumber fl v => some (.fail (.badNumber fl v))
  | .options o => runOptions fs o

end Pipeann
