import EvmRecorder.SourceMap.Compression
import EvmRecorder.SourceMap.Disassembly
import EvmRecorder.SourceMap.LineTable
import EvmRecorder.SolidityAst.Extraction
import EvmRecorder.StackTracker.Simulation
import EvmRecorder.Recorder.FirstCall
import EvmRecorder.Recorder.FrameExit
import EvmRecorder.Recorder.UnresolvedMarkers
import EvmRecorder.Recorder.Alignment
import EvmRecorder.Recorder.CarryForward
import EvmRecorder.Recorder.StepLocations
import EvmRecorder.Recorder.MappingNames
import EvmRecorder.Recorder.PackedSlots
import EvmRecorder.MultiRecorder.StepLocations
import EvmRecorder.MultiRecorder.CarryForward
import EvmRecorder.MultiRecorder.SpecialEvents
import EvmRecorder.MultiRecorder.LocalParity
import EvmRecorder.MultiRecorder.CallTree
import EvmRecorder.MultiRecorder.Delegation
import EvmRecorder.Recorder.Arguments
import EvmRecorder.SolidityAst.DisplayNames
import EvmRecorder.StackTracker.Declarations
import EvmRecorder.Library.Changes
import EvmRecorder.MultiRecorder.Destuttering
import EvmRecorder.MultiRecorder.CallSites
import EvmRecorder.Recorder.LocalFrames
import EvmRecorder.Recorder.HelperCalls
import EvmRecorder.SourceFetcher.SourceOrder
import EvmRecorder.MemoryTracker.Allocation
import EvmRecorder.MemoryTracker.Bounds
import EvmRecorder.MultiRecorder.CallRanges
import EvmRecorder.SourceMap.TableBounds
import EvmRecorder.SolidityAst.DeclarationOrder
import EvmRecorder.SolidityAst.Scopes
import EvmRecorder.StorageLayout.ArrayElements
import EvmRecorder.Recorder.CompoundNames
import EvmRecorder.Recorder.SlotArithmetic
import EvmRecorder.RevertDecode.ErrorString
import EvmRecorder.RevertDecode.ArgumentTexts
import EvmRecorder.RevertDecode.HeadLayout
import EvmRecorder.RevertDecode.Selectors
import EvmRecorder.StructLog.MemoryDump
import EvmRecorder.StructLog.LogContents
import EvmRecorder.StructLog.MemoryOperands
import EvmRecorder.Model.YulCompile
import EvmRecorder.SourceMap.YulAlignment
import EvmRecorder.Model.CallData
import EvmRecorder.Main.CallData
import EvmRecorder.Library.PathWalk
import EvmRecorder.SourceFetcher.Destinations
import EvmRecorder.Library.Scans
import EvmRecorder.MemoryTracker.DeclarationMatch
import EvmRecorder.MemoryTracker.LatestAllocation
import EvmRecorder.Session.LineTables
import EvmRecorder.Session.Scope
import EvmRecorder.Session.Online
import EvmRecorder.Session.Independence
import EvmRecorder.Inspector.Executions
import EvmRecorder.Session.Callees
import EvmRecorder.Session.OneFrame
import EvmRecorder.MultiRecorder.Calls
import EvmRecorder.YulCompile.Output
import EvmRecorder.Session.MemoryReads
import EvmRecorder.Session.Display
import EvmRecorder.StackTracker.Values
import EvmRecorder.MemoryTracker.Values
import EvmRecorder.Recorder.SlotNames
import EvmRecorder.Session.Provenance
import EvmRecorder.Inspector.Replay
import EvmRecorder.Main.Record
