import Ntr.Config.Acyclic
import Ntr.Config.Billing
import Ntr.Config.ProcessWide
import Ntr.Config.RuleMeaning
import Ntr.Dns.Resolver
import Ntr.Meter.Balance
import Ntr.Meter.Switch
import Ntr.Mux.PacketConn
import Ntr.Mux.Pool
import Ntr.Mux.Tunnel
import Ntr.Mux.Upload
import Ntr.Proto.Connect
import Ntr.Proto.Forward
import Ntr.Proto.Gate
import Ntr.Proto.Headers
import Ntr.Proto.Juicity
import Ntr.Proto.Mtproto
import Ntr.Proto.VlessStream
import Ntr.Rule.Nested
import Ntr.Ruleset.Safety
import Ntr.Ruleset.SrsDomain
import Ntr.Service.FlowNat
import Ntr.Service.KillSwitch
import Ntr.Service.ProcFind
import Ntr.Service.Recorder
import Ntr.Service.Stack
import Ntr.Service.UdpReaders
import Ntr.Snell.Replay
import Ntr.Snell.RoundTrip
import Ntr.Snell.UdpFrame
import Ntr.Snell.V6.Salt
import Ntr.Transport.GrpcPipe
import Ntr.Transport.ObfsTls
import Ntr.Transport.TlsCovert
import Ntr.Transport.TlsMirror
