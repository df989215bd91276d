import Ngnet.BigEndianBytes
import Ngnet.QmuxVarints
import Ngnet.QmuxErrors
import Ngnet.QmuxCloseCodec
import Ngnet.QmuxRecordFramer
import Ngnet.StatefulPrograms
import Ngnet.QmuxStreams
import Ngnet.QmuxRecordWriter
import Ngnet.QmuxConnection
import Ngnet.QmuxVectoredWrites
import Ngnet.QmuxConnectionSteps
import Ngnet.QmuxOutboundBuffer
import Ngnet.QmuxLocalClose
import Ngnet.QmuxReadAhead
import Ngnet.QmuxHttp3Join
import Ngnet.QmuxHttp3Steps
import Ngnet.QmuxHttp3Credit
import Ngnet.QmuxHttp3Events
import Ngnet.HyperiumCore
import Ngnet.HyperiumHandles
import Ngnet.HyperiumSteps
import Ngnet.HyperiumAcceptQueues
import Ngnet.TreeMapTotals
import Ngnet.HyperiumReceiveCredit
import Ngnet.HyperiumWaiters
import Ngnet.HyperiumDriver
import Ngnet.QuicRetention
import Ngnet.QuicStreamWrites
import Ngnet.QuicTimers
import Ngnet.Http3OutgoingBodies
import Ngnet.InterleavedPrograms
import Ngnet.Http3Heads
import Ngnet.Http3Handles
import Ngnet.Http3Conn
import Ngnet.Http3Driver
import Ngnet.Http3Passes
import Ngnet.Http3Discipline
import Ngnet.Http3HandleSteps
import Ngnet.Http3DriverSteps
import Ngnet.Http3Tracking
import Ngnet.Http3Placement
import Ngnet.Http3Settlement
import Ngnet.Http3Containment
import Ngnet.Http3Lifetimes
import Ngnet.Http3WholeMessages
import Ngnet.Http3RequestStreams
import Ngnet.Http3Abandonment
import Ngnet.OperationTraces
import Ngnet.Http3Operations
import Ngnet.Http3Replay
import Ngnet.Http3WriteOffers
import Ngnet.Http3Polls
import Ngnet.QuicEndpoint
import Ngnet.QuicEndpointHandles
import Ngnet.QuicEndpointDriver
import Ngnet.QuicHandleSteps
import Ngnet.QuicDatagramLedger
import Ngnet.QuicDatagrams
import Ngnet.QuicDatagramRuns
import Ngnet.QuicScriptedHost
import Ngnet.QuicEndpointProtocols
import Ngnet.QuicDatagramPlaces
import Ngnet.QuicEndpointSteps
import Ngnet.QuicConnectionTable
import Ngnet.QuicEvictions
import Ngnet.QuicDialling
import Ngnet.QuicDetaching
import Ngnet.QuicRouting
import Ngnet.QuicAnnouncements
import Ngnet.QuicBlockedPolls
import Ngnet.WakerLists
import Ngnet.QuicHandlePolls
import Ngnet.QuicHandleWakes
import Ngnet.QuicStreamReads
import Ngnet.QuicAddressValidation
import Ngnet.ShortWrites
import Ngnet.Http2Heads
import Ngnet.Http2Drains
import Ngnet.Http2DrainedOctets
import Ngnet.Http2Handles
import Ngnet.Http2Driver
import Ngnet.Http2Passes
import Ngnet.Http2Operations
import Ngnet.Http2Discipline
import Ngnet.Http2Settlement
import Ngnet.Http2ScriptedSession
import Ngnet.ListUpdates
import Ngnet.OriginPool
import Ngnet.PoolSingleFlight
import Ngnet.PoolShutdown
import Ngnet.AxumServer
import Ngnet.QuicHttp3Join
import Ngnet.Histories
import Ngnet.QuicHttp3Endings
import Ngnet.QuicHttp3Timers
import Ngnet.QuicHttp3Stalls
import Ngnet.QuicHyperiumCore
import Ngnet.QuicHyperiumHandles
import Ngnet.QuicHyperiumWaiters
import Ngnet.QmuxCloseGrammar
import Ngnet.MeasuredLoops
import Ngnet.QmuxWriteLoops
import Ngnet.Http3SendAccounting
import Ngnet.QuinnReadBudget
import Ngnet.HyperiumReceiveHalves
import Ngnet.QuicMeters
import Ngnet.QuicHyperiumBooks
import Ngnet.QuicHyperiumWindow
import Ngnet.QuicStreamCredit
import Ngnet.HyperiumDeliveries
import Ngnet.Http3EndHints
import Ngnet.FieldSections
import Ngnet.HeaderMaps
import Ngnet.Http3RequestHeads
import Ngnet.Http3HeadRoundTrips
import Ngnet.Http2RequestHeads
import Ngnet.Http3Observations
import Ngnet.ProgramParts
import Ngnet.QmuxPrefixBytes
import Ngnet.Http2FrameProgress
import Ngnet.Http3BodyPulls
import Ngnet.Http2BodyBridges
import Ngnet.Http2FlushBounds
import Ngnet.Http2Observations
import Ngnet.Http2SessionBodies
import Ngnet.Http2HeadRoundTrips
import Ngnet.IpAddresses
import Ngnet.Origins
import Ngnet.TlsBridge
import Ngnet.BoundedShares
import Ngnet.Http2Consumption
import Ngnet.QmuxRecordDelivery
import Ngnet.QuicOutboundQueue
import Ngnet.Http3HandlerTasks
