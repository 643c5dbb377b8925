import ReelMagic.Library.Frames
import ReelMagic.Library.Overlay
import ReelMagic.Parse450.Safety
import ReelMagic.Parse450.Window
import ReelMagic.Parse450.Format
import ReelMagic.Parse450.Theorems
import ReelMagic.Parse450.Images
import ReelMagic.Parse450.Overlay
import ReelMagic.Parse450.EmptySegment
import ReelMagic.Parse450.Output
import ReelMagic.Streamer.Playback
import ReelMagic.Streamer.Handles
import ReelMagic.Streamer.Contiguity
import ReelMagic.Streamer.Submitted
import ReelMagic.Rmprobe.Tables
import ReelMagic.Rmprobe.Calls
import ReelMagic.Rmprobe.WholeLines
import ReelMagic.Rmprobe.ExitStatus
import ReelMagic.Rmprobe.Handles
import ReelMagic.Rmprobe.VideoMode
import ReelMagic.Rmprobe.Rejected
import ReelMagic.Rmprobe.Strbuf
import ReelMagic.Rmsdk.Waitplay
import ReelMagic.Rmsdk.Callback
import ReelMagic.Rmsdk.Init
import ReelMagic.Recorder.Hook
import ReelMagic.Recorder.Transparency
import ReelMagic.Analyze.RoundTrip
import ReelMagic.Analyze.Appends
import ReelMagic.Analyze.Indentation
import ReelMagic.Analyze.Termination
import ReelMagic.Analyze.Session
import ReelMagic.Analyze.Text
import ReelMagic.Recorder.Intcall2f
import ReelMagic.Recorder.Cbshim
import ReelMagic.Rmprobe.Shim
import ReelMagic.Parse450.Truncation
import ReelMagic.Parse450.Placement
import ReelMagic.Streamer.Session
import ReelMagic.Streamer.Logging
import ReelMagic.Streamer.Dots
import ReelMagic.Streamer.RunTest
import ReelMagic.Streamer.Sdk
import ReelMagic.Recorder.Install2f
import ReelMagic.Parse450.Report
import ReelMagic.Player.Recorded
import ReelMagic.Rmprobe.Replay
