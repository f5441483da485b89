import ADnED.Tasks.System
import ADnED.Tasks.FrameLocks
import ADnED.Tasks.EventLocks
import ADnED.Driver.HandlerFrame
import ADnED.Tasks.Control
import ADnED.Tasks.Simulation
import ADnED.Tasks.StartStop
import ADnED.Tasks.FrameFollows
import ADnED.Driver.Layout
import ADnED.Driver.Freshness
import ADnED.Tasks.LayoutRuns
import ADnED.Driver.Trace
import ADnED.Driver.Packets
import ADnED.Driver.Regions
import ADnED.Driver.Turns
import ADnED.Driver.Confined
import ADnED.Driver.Counts
import ADnED.Driver.Histogram
import ADnED.Driver.Bins
import ADnED.Driver.Spectrum
import ADnED.Driver.Tables
import ADnED.Driver.Distribution
import ADnED.Driver.AllocSound
import ADnED.Driver.Ledger
import ADnED.Driver.Sequence
import ADnED.Driver.Pulses
import ADnED.Driver.Buffer
import ADnED.Driver.Alike
import ADnED.Tasks.FrameCopies
import ADnED.Channels.Monitors
import ADnED.Channels.Connected
import ADnED.Tasks.Rates
import ADnED.Tasks.Snapshots
import ADnED.Driver.File
import ADnED.Driver.FileData
import ADnED.Tasks.Requests
import ADnED.Tasks.PixelMaps
import ADnED.Tasks.Clears
import ADnED.Tasks.Divisors
import ADnED.Tasks.TOFReset
import ADnED.Driver.MapFormat
import ADnED.Lib.Stores
import ADnED.Plugins.Mask
import ADnED.Plugins.MaskRuns
import ADnED.Plugins.MaskClip
import ADnED.Plugins.MaskPipeline
import ADnED.Plugins.PixelROI
import ADnED.Plugins.PixelROIBlock
import ADnED.Plugins.Axis
import ADnED.Driver.LineBuffer
import ADnED.Lib.Board
import ADnED.Driver.Cells
import ADnED.Tasks.DataFrame
import ADnED.Tasks.History
import ADnED.Tasks.Atomic
import ADnED.Tasks.Frozen
import ADnED.Tasks.Progress
import ADnED.Plugins.Image
import ADnED.Tasks.Conservation
import ADnED.Channels.Listening
import ADnED.Tasks.RateHistory
import ADnED.Tasks.AllocStatus
import ADnED.Plugins.MaskWriteBack
