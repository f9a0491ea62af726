import WisunModem.Runs
import WisunModem.ByteStore
import WisunModem.OadStorage
import WisunModem.Oad
import WisunModem.OadImage
import WisunModem.OadSession
import WisunModem.OadFlashBounds
import WisunModem.OadServer
import WisunModem.NsSocket
import WisunModem.RingBuffer
import WisunModem.Unsolicited
import WisunModem.Modem
import WisunModem.SocketMoves
import WisunModem.Connection
import WisunModem.Connection
import WisunModem.SocketHandle
import WisunModem.Handlers
import WisunModem.DataEvents
import WisunModem.IpdNotice
import WisunModem.TxPending
import WisunModem.CipsendFrames
import WisunModem.SerialNumber
import WisunModem.TcpSession
import WisunModem.TcpFrames
import WisunModem.TcpReceive
import WisunModem.TcpOffWindow
import WisunModem.TcpWindow
import WisunModem.TcpSending
import WisunModem.TcpAcks
import WisunModem.TcpSend
import WisunModem.TcpDelivery
import WisunModem.Holes
import WisunModem.Datagrams
import WisunModem.Collecting
import WisunModem.Exec
import WisunModem.Mpl
import WisunModem.MplMachine
import WisunModem.MplInvariant
import WisunModem.MplRecord
import WisunModem.MplColours
import WisunModem.MplControl
import WisunModem.MplOnce
import WisunModem.HostileFragments
import WisunModem.SecKeys
import WisunModem.SuppHandshakes
import WisunModem.PaeSupp
import WisunModem.GroupKeys
import WisunModem.AuthHandshakes
import WisunModem.KeyStorage
import WisunModem.AuthCounters
import WisunModem.SuppCounters
import WisunModem.MacIe
import WisunModem.HoppingIe
import WisunModem.BitMask
import WisunModem.ChannelList
import WisunModem.EapolFrames
import WisunModem.RejectedMessages
import WisunModem.GtkTable
import WisunModem.GtkRuns
import WisunModem.RecordCursor
import WisunModem.NvmRecords
import WisunModem.NvmMirror
import WisunModem.GuardedStore
import WisunModem.RoutingHeader
import WisunModem.HopByHop
import WisunModem.SourceRoute
import WisunModem.SourceRouteRuns
import WisunModem.Faults
import WisunModem.RplRanks
import WisunModem.RplRecords
import WisunModem.RplDio
import WisunModem.RplMrhof
import WisunModem.RplOf0
import WisunModem.RplUpward
import WisunModem.RplKept
import WisunModem.RplSelecting
import WisunModem.RplSelectionRun
import WisunModem.RplTidy
import WisunModem.RplMaking
import WisunModem.RplDioTidy
import WisunModem.RplEvents
import WisunModem.RplRuns
import WisunModem.DioRecords
import WisunModem.RplConfigs
import WisunModem.RplLevels
import WisunModem.RplLimits
import WisunModem.RplRuled
import WisunModem.RplRuledDio
import WisunModem.RplRuledSelect
import WisunModem.RplRankLimits
import WisunModem.RadiusIds
import WisunModem.RadiusHolds
import WisunModem.DhcpLeaseRuns
import WisunModem.EapTlsFragments
import WisunModem.EapTlsFlights
import WisunModem.EapTlsSession
import WisunModem.EapTlsRuns
import WisunModem.LlcMessages
import WisunModem.LlcAccounts
import WisunModem.LlcRuns
import WisunModem.DhcpOptions
import WisunModem.DhcpRelay
import WisunModem.DhcpTransparency
import WisunModem.DhcpAnswers
import WisunModem.OadAdmission
import WisunModem.CatArguments
import WisunModem.CatNumbers
import WisunModem.MemoryRelief
import WisunModem.RplEviction
import WisunModem.RplTunnel
import WisunModem.Greatest
import WisunModem.MrhofChoice
import WisunModem.MrhofParents
import WisunModem.MrhofSelection
import WisunModem.MrhofOutcome
import WisunModem.NextHop
import WisunModem.NextHopSearch
import WisunModem.NextHopChoice
import WisunModem.DaoPathControl
import WisunModem.DaoSpans
import WisunModem.DaoAssignment
import WisunModem.DaoPacker
import WisunModem.EapolKey
import WisunModem.KdeCodec
import WisunModem.MplTermination
import WisunModem.TcpEstimator
import WisunModem.EapolMic
import WisunModem.ContextList
import WisunModem.TrickleRuns
import WisunModem.CatMatcher
import WisunModem.CatLookup
import WisunModem.SocketReceive
import WisunModem.CatFormats
import WisunModem.CatRoundTrip
import WisunModem.DaoReceiver
import WisunModem.DaoDelivery
import WisunModem.KeyTimes
import WisunModem.RandomEarlyDetection
import WisunModem.Etx
import WisunModem.EtxEstimator
import WisunModem.DhcpReaders
import WisunModem.DhcpWriters
import WisunModem.RadiusAttributes
import WisunModem.RadiusEap
import WisunModem.RadiusPackets
import WisunModem.RadiusReceive
import WisunModem.RadiusDelivery
