import CxxDeps.Audio.AacSafety
import CxxDeps.Audio.LossFlag
import CxxDeps.Audio.LossSkip
import CxxDeps.Audio.Sender
import CxxDeps.Bfcp.Packet
import CxxDeps.H264.Emulation
import CxxDeps.H264.ExpGolomb
import CxxDeps.H264.Fragments
import CxxDeps.H264.KeyGate
import CxxDeps.H264.Reorder
import CxxDeps.H264.Retransmission
import CxxDeps.H264.RoundTrip
import CxxDeps.H264.SeiScan
import CxxDeps.H264.Splicer
import CxxDeps.H265.RoundTrip
import CxxDeps.H265.Safety
import CxxDeps.Hypertext.Framing
import CxxDeps.Hypertext.RoundTrip
import CxxDeps.Hypertext.UriText
import CxxDeps.Library.Blocks
import CxxDeps.Library.Crc
import CxxDeps.Library.Fips180
import CxxDeps.Library.Rfc1321
import CxxDeps.Ps.Pack
import CxxDeps.Ps.PesFrame
import CxxDeps.Ps.PesRoundTrip
import CxxDeps.Ps.ProgramMap
import CxxDeps.Ps.RoundTrip
import CxxDeps.Ps.Safety
import CxxDeps.Rtp.Compound
import CxxDeps.Rtp.Description
import CxxDeps.Rtp.Feedback
import CxxDeps.Rtp.NackAccuracy
import CxxDeps.Rtp.PortRange
import CxxDeps.Rtp.Report
import CxxDeps.Rtp.SequenceOrder
import CxxDeps.Rtp.Source
import CxxDeps.Rtp.VideoStreams
import CxxDeps.Rtp.Wire
import CxxDeps.Rtsp.Framing
import CxxDeps.Rtsp.Transport
import CxxDeps.Sctp.Access
import CxxDeps.Sctp.Acknowledgement
import CxxDeps.Sctp.Agreement
import CxxDeps.Sctp.Allocation
import CxxDeps.Sctp.Closing
import CxxDeps.Sctp.Damage
import CxxDeps.Sctp.Handshake
import CxxDeps.Sctp.LostMessage
import CxxDeps.Sctp.Precision
import CxxDeps.Sctp.Reassembly
import CxxDeps.Sctp.RoundTrip
import CxxDeps.Sctp.Stability
import CxxDeps.Sctp.StreamTable
import CxxDeps.Sdp.RoundTrip
import CxxDeps.Security.Crc32
import CxxDeps.Security.Md5
import CxxDeps.Security.Sha1
import CxxDeps.Session.Answer
import CxxDeps.Session.DataChannels
import CxxDeps.Session.Demultiplexing
import CxxDeps.Session.Negotiation
import CxxDeps.Session.Transports
import CxxDeps.Sip.AddressText
import CxxDeps.Sip.ConnectionTable
import CxxDeps.Sip.DigestText
import CxxDeps.Sip.GkClient
import CxxDeps.Sip.Registrar
import CxxDeps.Sip.UriText
import CxxDeps.Sip.Via
import CxxDeps.Stun.Authenticity
import CxxDeps.Stun.Codes
import CxxDeps.Stun.LongTerm
import CxxDeps.Stun.RoleConflict
import CxxDeps.Sys.BlockingQueue
import CxxDeps.Sys.FindFirst
import CxxDeps.Sys.Join
import CxxDeps.Sys.PostQueue
import CxxDeps.Sys.RingBuffer
import CxxDeps.Sys.SendingQueue
import CxxDeps.Sys.Utf8
import CxxDeps.Video.Gop
import CxxDeps.Voip.Hangup
import CxxDeps.Voip.Retransmission
import CxxDeps.Vp8.Depacketize
