import Jalv.Backend.Addressing
import Jalv.Backend.Agreement
import Jalv.Backend.Channels
import Jalv.Backend.Connections
import Jalv.Backend.Hosting
import Jalv.Backend.Internal
import Jalv.Backend.Latency
import Jalv.Backend.LatencyRanges
import Jalv.Backend.Outputs
import Jalv.Backend.Pause
import Jalv.Backend.Playback
import Jalv.Backend.PortAudio
import Jalv.Backend.Position
import Jalv.Backend.Producers
import Jalv.Backend.Properties
import Jalv.Backend.Reporting
import Jalv.Backend.Resume
import Jalv.Backend.Startup
import Jalv.Console.Grammar
import Jalv.Console.Indentation
import Jalv.Console.LineReader
import Jalv.Console.Strict
import Jalv.Control.Number
import Jalv.Event.Capacity
import Jalv.Event.RoundTrip
import Jalv.Gtk.Groups
import Jalv.Host.AllOrNothing
import Jalv.Host.Dispatch
import Jalv.Host.Feedback
import Jalv.Host.PortState
import Jalv.Host.PropertyControls
import Jalv.Host.ReceiveBuffer
import Jalv.Host.Refresh
import Jalv.Host.RingSize
import Jalv.Host.Teardown
import Jalv.Interner.Failure
import Jalv.Interner.Mapper
import Jalv.Interner.SearchBounds
import Jalv.Message.Changes
import Jalv.Process.Alignment
import Jalv.Process.Framing
import Jalv.Process.Updates
import Jalv.Worker.Immediate
import Jalv.Worker.Launch
