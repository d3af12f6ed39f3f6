import IndexInspector.Bytes
import IndexInspector.Stats
import IndexInspector.Report
import IndexInspector.GraphFile
import IndexInspector.GraphFileLaws
import IndexInspector.LoopRuns
import IndexInspector.DiskIndex
import IndexInspector.DiskLayout
import IndexInspector.DiskIndexLaws
import IndexInspector.DiskSamplers
import IndexInspector.Readers
import IndexInspector.InspectArgs
import IndexInspector.OffsetShift
import IndexInspector.InspectGraph
import IndexInspector.InspectGraphLaws
import IndexInspector.SampleGrowth
