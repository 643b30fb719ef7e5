import Ovsgw.ActionSet
import Ovsgw.BitFields
import Ovsgw.BpfSnat
import Ovsgw.Conntrack.Established
import Ovsgw.Flow.HashFields
import Ovsgw.Flow.Padding
import Ovsgw.Flow.SetNd
import Ovsgw.OdpActionTextSpec
import Ovsgw.GatewayPrint
import Ovsgw.Ofproto.Groups
import Ovsgw.Ovsdb.MonitorSince
import Ovsgw.Ovsdb.Mutation
import Ovsgw.Ovsdb.ParsedDatum
import Ovsgw.Ovsdb.SortUnique
import Ovsgw.Ovsdb.TransactionSpec
import Ovsgw.OvsdbLogSpec
import Ovsgw.Raft.AppendBounds
import Ovsgw.Raft.Elections
import Ovsgw.Raft.PeerIndexes
import Ovsgw.Raft.RpcCodecSpec
import Ovsgw.Raft.SnapshotFile
import Ovsgw.Raft.Suppression
import Ovsgw.RegLoad
import Ovsgw.Stp.SpanningTree
import Ovsgw.Raft.Completion
