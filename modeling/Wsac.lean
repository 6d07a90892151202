import Wsac.Config
import Wsac.Dll.FrameHeader
import Wsac.Codec
import Wsac.Library.Border
import Wsac.Dll.Pipe
import Wsac.Dll.Reads
import Wsac.Dll.FrameReader
import Wsac.Library.Framing
import Wsac.Dll.Growth
import Wsac.Dll.Turn
import Wsac.Dll.Framing
import Wsac.Dll.Resync
import Wsac.Service.FrameSession
import Wsac.Service.Reads
import Wsac.Service.Budget
import Wsac.Service.Growth
import Wsac.Service.Scan
import Wsac.Scanners
import Wsac.Service.Turn
import Wsac.Service.Framing
import Wsac.Service.Resync
import Wsac.Library.View
import Wsac.Service.Blind
import Wsac.Service.Blocks
import Wsac.Service.Walk
import Wsac.Service.Covered
import Wsac.Service.Twins
import Wsac.Service.Parting
import Wsac.Service.Thread
import Wsac.Library.Handshake
import Wsac.Link.Checkpoints
import Wsac.Link.Recovery
import Wsac.Dll.Stops
import Wsac.Dll.Writers
import Wsac.Dll.Loop
import Wsac.Service.Loop
import Wsac.Library.Context
import Wsac.Link.Synchronisation
import Wsac.Library.Machine
import Wsac.Link.Endpoints
import Wsac.Library.Follow
import Wsac.Dll.Chunking
import Wsac.Service.Consumption
import Wsac.Library.Ledger
import Wsac.Service.Readers
import Wsac.Dll.Teardown
import Wsac.Library.Window
import Wsac.Service.Window
import Wsac.Service.Seams
import Wsac.Dll.Sizes
import Wsac.Dll.AntiDebug
import Wsac.Library.Registry
import Wsac.Dll.Host
import Wsac.Service.Connections
import Wsac.Service.Accounting
import Wsac.Library.Emission
import Wsac.Dll.Emissions
import Wsac.Dll.Exchange
import Wsac.Library.Simulation
import Wsac.Link.Relay
import Wsac.Link.Traffic
import Wsac.Link.Wire
import Wsac.Dll.Shutdown
import Wsac.Service.Shutdown
import Wsac.Dll.Disable
import Wsac.Service.Pool
import Wsac.Dll.Draws
import Wsac.Service.Draws
import Wsac.Dll.Course
import Wsac.Dll.Lifetime
import Wsac.Service.Handlers
import Wsac.Link.Payload
import Wsac.Service.Logging
