import TjuTcp.Lib.Run
import TjuTcp.Lib.Loop
import TjuTcp.Lib.Memory
import TjuTcp.Lib.Endian
import TjuTcp.Global
import TjuTcp.Packet
import TjuTcp.Codec
import TjuTcp.Framing
import TjuTcp.Timer
import TjuTcp.Tcp
import TjuTcp.Lib.Reassembly
import TjuTcp.Lib.Arrivals
import TjuTcp.Receive
import TjuTcp.Send
import TjuTcp.Ack
import TjuTcp.Socket
import TjuTcp.Window
import TjuTcp.SendCursors
import TjuTcp.Congestion
import TjuTcp.Segments
import TjuTcp.ZeroWindow
import TjuTcp.FastRetransmit
import TjuTcp.StaleAck
import TjuTcp.Timing
import TjuTcp.Rto
import TjuTcp.RttSample
import TjuTcp.Sampling
import TjuTcp.Interleave
import TjuTcp.LostTimer
import TjuTcp.Lib.Smooth
import TjuTcp.RtoBand
import TjuTcp.Resend
import TjuTcp.Uninterrupted
import TjuTcp.Bounds
import TjuTcp.SendCall
import TjuTcp.Delivery
import TjuTcp.Progress
import TjuTcp.AnyOrder
import TjuTcp.Advertised
import TjuTcp.WindowSizes
import TjuTcp.Flow
import TjuTcp.Conn
import TjuTcp.Control
import TjuTcp.Stream
import TjuTcp.Lib.Simulation
import TjuTcp.Lib.Pipe
import TjuTcp.Pipes
import TjuTcp.Lib.Leads
import TjuTcp.Endpoints
import TjuTcp.Credit
import TjuTcp.Armed
import TjuTcp.CleanUp
import TjuTcp.ClosedWindow
import TjuTcp.Steady
import TjuTcp.Transfer
import TjuTcp.Teardown
import TjuTcp.TeardownEnd
import TjuTcp.FinAck
import TjuTcp.CloseStream
import TjuTcp.OneSided
import TjuTcp.Syn
import TjuTcp.Hash
import TjuTcp.Lib.Filled
import TjuTcp.Counters
import TjuTcp.SynRetrans
import TjuTcp.Lib.Slots
import TjuTcp.Kernel
import TjuTcp.Net
import TjuTcp.Demux
import TjuTcp.Objects
import TjuTcp.Isolation
import TjuTcp.Spares
import TjuTcp.Threads
import TjuTcp.Attempts
import TjuTcp.Connect
import TjuTcp.Accept
import TjuTcp.Lib.Handout
import TjuTcp.Acceptors
import TjuTcp.ServerQueues
import TjuTcp.Session
import TjuTcp.SessionPipes
import TjuTcp.LostAck
import TjuTcp.Fine
import TjuTcp.FineStream
import TjuTcp.Coarse
import TjuTcp.Lock
