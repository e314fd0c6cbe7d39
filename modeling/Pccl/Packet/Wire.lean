import Pccl.Packet.PacketBuffer
import Pccl.Shared.Reader

set_option autoImplicit false

/-!
What `serialize` writes for each packet and what `deserialize` makes of it. A `deserialize` that gets to
its end returns true; a read that exceeds the buffer throws, which is `none`.
-/

namespace Pccl.Wire

open Buffer Packet Reader

/-- The value of an enumeration as the source keeps it, which need not be one of its enumerators. -/
abbrev Enumeration := BitVec 32

abbrev FixedArray (count : Nat) := { data : List Byte // data.length = count }

abbrev CcoipUuid := FixedArray 16

section Buffers

def write (bytes : Nat) (value : BitVec (8 * bytes)) : List Byte := writeIntegral bytes value.toNat

def read (bytes : Nat) : Reader Byte (BitVec (8 * bytes)) :=
  fun buffer => (readIntegral bytes buffer).map fun (value, rest) => (BitVec.ofNat _ value, rest)

def writeBoolean (value : Bool) : List Byte := write 1 (if value then 1 else 0)

-- Any other byte than zero is true.
def readBoolean : Reader Byte Bool := (fun byte => decide (byte ≠ 0)) <$> read 1

def writeEnumeration (value : Enumeration) : List Byte := write 1 (value.setWidth 8)

def readEnumeration : Reader Byte Enumeration := (fun byte => byte.setWidth 32) <$> read 1

def readFixedArray (count : Nat) : Reader Byte (FixedArray count) := fun buffer =>
  if enough : count ≤ buffer.length then
    some (⟨buffer.take count, List.length_take_of_le enough⟩, buffer.drop count)
  else none

def writeString (text : List Byte) : List Byte := write 8 (BitVec.ofNat 64 text.length) ++ text

def readString : Reader Byte (List Byte) := do
  let length ← read 8
  readBytes length.toNat

variable {A : Type}

def writeList (item : A → List Byte) (items : List A) : List Byte :=
  write 8 (BitVec.ofNat 64 items.length) ++ (items.map item).flatten

def readList (item : Reader Byte A) : Reader Byte (List A) := do
  let length ← read 8
  many item length.toNat

end Buffers

structure EmptyPacket where
deriving DecidableEq, Repr

namespace EmptyPacket

def serialize (_ : EmptyPacket) : List Byte := []

def deserialize : Reader Byte EmptyPacket := pure {}

end EmptyPacket

structure C2MPacketRequestSessionRegistration where
  p2pListenPort : BitVec 16
  sharedStateListenPort : BitVec 16
  bandwidthBenchmarkListenPort : BitVec 16
  peerGroup : BitVec 32
deriving DecidableEq, Repr

namespace C2MPacketRequestSessionRegistration

def serialize (packet : C2MPacketRequestSessionRegistration) : List Byte :=
  [write 2 packet.p2pListenPort, write 2 packet.sharedStateListenPort,
    write 2 packet.bandwidthBenchmarkListenPort, write 4 packet.peerGroup].flatten

def deserialize : Reader Byte C2MPacketRequestSessionRegistration := do
  let p2pListenPort ← read 2
  let sharedStateListenPort ← read 2
  let bandwidthBenchmarkListenPort ← read 2
  let peerGroup ← read 4
  return { p2pListenPort, sharedStateListenPort, bandwidthBenchmarkListenPort, peerGroup }

end C2MPacketRequestSessionRegistration

structure C2MPacketRequestEstablishP2PConnections where
  acceptNewPeers : Bool
deriving DecidableEq, Repr

namespace C2MPacketRequestEstablishP2PConnections

def serialize (packet : C2MPacketRequestEstablishP2PConnections) : List Byte :=
  [writeBoolean packet.acceptNewPeers].flatten

def deserialize : Reader Byte C2MPacketRequestEstablishP2PConnections := do
  let acceptNewPeers ← readBoolean
  return { acceptNewPeers }

end C2MPacketRequestEstablishP2PConnections

structure C2MPacketP2PConnectionsEstablished where
  success : Bool
  failedPeers : List CcoipUuid
deriving DecidableEq, Repr

namespace C2MPacketP2PConnectionsEstablished

def serialize (packet : C2MPacketP2PConnectionsEstablished) : List Byte :=
  [writeBoolean packet.success, writeList Subtype.val packet.failedPeers].flatten

def deserialize : Reader Byte C2MPacketP2PConnectionsEstablished := do
  let success ← readBoolean
  let failedPeers ← readList (readFixedArray 16)
  return { success, failedPeers }

end C2MPacketP2PConnectionsEstablished

structure C2MPacketReportPeerBandwidth where
  toPeerUuid : CcoipUuid
  bandwidthMbitsPerSecond : BitVec 64
deriving DecidableEq, Repr

namespace C2MPacketReportPeerBandwidth

def serialize (packet : C2MPacketReportPeerBandwidth) : List Byte :=
  [packet.toPeerUuid.val, write 8 packet.bandwidthMbitsPerSecond].flatten

def deserialize : Reader Byte C2MPacketReportPeerBandwidth := do
  let toPeerUuid ← readFixedArray 16
  let bandwidthMbitsPerSecond ← read 8
  return { toPeerUuid, bandwidthMbitsPerSecond }

end C2MPacketReportPeerBandwidth

structure SharedStateHashEntry where
  key : List Byte
  hash : BitVec 64
  hashType : Enumeration
  dataSize : BitVec 64
  dataType : Enumeration
  allowContentInequality : Bool
deriving DecidableEq, Repr

namespace SharedStateHashEntry

def serialize (entry : SharedStateHashEntry) : List Byte :=
  [writeString entry.key, write 8 entry.hash, writeEnumeration entry.hashType, write 8 entry.dataSize,
    writeEnumeration entry.dataType, writeBoolean entry.allowContentInequality].flatten

def deserialize : Reader Byte SharedStateHashEntry := do
  let key ← readString
  let hash ← read 8
  let hashType ← readEnumeration
  let dataSize ← read 8
  let dataType ← readEnumeration
  let allowContentInequality ← readBoolean
  return { key, hash, hashType, dataSize, dataType, allowContentInequality }

end SharedStateHashEntry

structure C2MPacketSyncSharedState where
  sharedStateRevision : BitVec 64
  sharedStateSyncStrategy : Enumeration
  sharedStateHashes : List SharedStateHashEntry
deriving DecidableEq, Repr

namespace C2MPacketSyncSharedState

def serialize (packet : C2MPacketSyncSharedState) : List Byte :=
  [write 8 packet.sharedStateRevision, writeEnumeration packet.sharedStateSyncStrategy,
    writeList SharedStateHashEntry.serialize packet.sharedStateHashes].flatten

def deserialize : Reader Byte C2MPacketSyncSharedState := do
  let sharedStateRevision ← read 8
  let sharedStateSyncStrategy ← readEnumeration
  let sharedStateHashes ← readList SharedStateHashEntry.deserialize
  return { sharedStateRevision, sharedStateSyncStrategy, sharedStateHashes }

end C2MPacketSyncSharedState

structure C2MPacketCollectiveCommsInitiate where
  tag : BitVec 64
  dataType : Enumeration
  count : BitVec 64
  op : Enumeration
deriving DecidableEq, Repr

namespace C2MPacketCollectiveCommsInitiate

def serialize (packet : C2MPacketCollectiveCommsInitiate) : List Byte :=
  [write 8 packet.tag, write 8 packet.count, writeEnumeration packet.dataType,
    writeEnumeration packet.op].flatten

def deserialize : Reader Byte C2MPacketCollectiveCommsInitiate := do
  let tag ← read 8
  let count ← read 8
  let dataType ← readEnumeration
  let op ← readEnumeration
  return { tag, dataType, count, op }

end C2MPacketCollectiveCommsInitiate

structure C2MPacketCollectiveCommsComplete where
  tag : BitVec 64
  wasAborted : Bool
deriving DecidableEq, Repr

namespace C2MPacketCollectiveCommsComplete

def serialize (packet : C2MPacketCollectiveCommsComplete) : List Byte :=
  [write 8 packet.tag, writeBoolean packet.wasAborted].flatten

def deserialize : Reader Byte C2MPacketCollectiveCommsComplete := do
  let tag ← read 8
  let wasAborted ← readBoolean
  return { tag, wasAborted }

end C2MPacketCollectiveCommsComplete

structure M2CPacketSessionRegistrationResponse where
  accepted : Bool
  assignedUuid : CcoipUuid
deriving DecidableEq, Repr

namespace M2CPacketSessionRegistrationResponse

def serialize (packet : M2CPacketSessionRegistrationResponse) : List Byte :=
  [writeBoolean packet.accepted, packet.assignedUuid.val].flatten

def deserialize : Reader Byte M2CPacketSessionRegistrationResponse := do
  let accepted ← readBoolean
  let assignedUuid ← readFixedArray 16
  return { accepted, assignedUuid }

end M2CPacketSessionRegistrationResponse

/-- `ccoip_inet_address_t` and the port; both families have their place. -/
structure CcoipSocketAddress where
  protocol : Enumeration
  ipv4 : FixedArray 4
  ipv6 : FixedArray 16
  port : BitVec 16
deriving DecidableEq, Repr

def inetIPv4 : Enumeration := 0

def inetIPv6 : Enumeration := 1

def noIPv4 : FixedArray 4 := ⟨List.replicate 4 0, rfl⟩

def noIPv6 : FixedArray 16 := ⟨List.replicate 16 0, rfl⟩

def writeSocketAddress (address : CcoipSocketAddress) : List Byte :=
  [writeBoolean (address.protocol = inetIPv4),
    if address.protocol = inetIPv4 then address.ipv4.val
    else if address.protocol = inetIPv6 then address.ipv6.val
    else [],
    write 2 address.port].flatten

def readInet (isIPv4 : Bool) : Reader Byte (Enumeration × FixedArray 4 × FixedArray 16) :=
  if isIPv4 then (fun ipv4 => (inetIPv4, ipv4, noIPv6)) <$> readFixedArray 4
  else (fun ipv6 => (inetIPv6, noIPv4, ipv6)) <$> readFixedArray 16

def readSocketAddress : Reader Byte CcoipSocketAddress := do
  let isIPv4 ← readBoolean
  let (protocol, ipv4, ipv6) ← readInet isIPv4
  let port ← read 2
  return { protocol, ipv4, ipv6, port }

structure PeerInfo where
  p2pListenAddr : CcoipSocketAddress
  peerUuid : CcoipUuid
deriving DecidableEq, Repr

namespace PeerInfo

def serialize (info : PeerInfo) : List Byte :=
  [writeSocketAddress info.p2pListenAddr, info.peerUuid.val].flatten

def deserialize : Reader Byte PeerInfo := do
  let p2pListenAddr ← readSocketAddress
  let peerUuid ← readFixedArray 16
  return { p2pListenAddr, peerUuid }

end PeerInfo

structure M2CPacketP2PConnectionInfo where
  unchanged : Bool
  globalWorldSize : BitVec 64
  localWorldSize : BitVec 64
  numDistinctPeerGroups : BitVec 64
  largestPeerGroupWorldSize : BitVec 64
  allPeers : List PeerInfo
deriving DecidableEq, Repr

namespace M2CPacketP2PConnectionInfo

def serialize (packet : M2CPacketP2PConnectionInfo) : List Byte :=
  [writeBoolean packet.unchanged, write 8 packet.globalWorldSize, write 8 packet.localWorldSize,
    write 8 packet.numDistinctPeerGroups, write 8 packet.largestPeerGroupWorldSize,
    if packet.unchanged then [] else writeList PeerInfo.serialize packet.allPeers].flatten

def readPeers (unchanged : Bool) : Reader Byte (List PeerInfo) :=
  -- Where nothing has changed no peers have been written.
  if unchanged then pure [] else readList PeerInfo.deserialize

def deserialize : Reader Byte M2CPacketP2PConnectionInfo := do
  let unchanged ← readBoolean
  let globalWorldSize ← read 8
  let localWorldSize ← read 8
  let numDistinctPeerGroups ← read 8
  let largestPeerGroupWorldSize ← read 8
  let allPeers ← readPeers unchanged
  return { unchanged, globalWorldSize, localWorldSize, numDistinctPeerGroups,
           largestPeerGroupWorldSize, allPeers }

end M2CPacketP2PConnectionInfo

/-- `M2CPacketP2PConnectionsEstablished` and `M2CPacketOptimizeTopologyComplete`, which are written and
read alike. -/
structure RingPacket where
  success : Bool
  ringReduceOrder : List CcoipUuid
deriving DecidableEq, Repr

namespace RingPacket

def serialize (packet : RingPacket) : List Byte :=
  [writeBoolean packet.success, writeList Subtype.val packet.ringReduceOrder].flatten

def deserialize : Reader Byte RingPacket := do
  let success ← readBoolean
  let ringReduceOrder ← readList (readFixedArray 16)
  return { success, ringReduceOrder }

end RingPacket

abbrev M2CPacketP2PConnectionsEstablished := RingPacket

abbrev M2CPacketOptimizeTopologyComplete := RingPacket

structure M2CPacketPeersPendingResponse where
  peersPending : Bool
deriving DecidableEq, Repr

namespace M2CPacketPeersPendingResponse

def serialize (packet : M2CPacketPeersPendingResponse) : List Byte :=
  [writeBoolean packet.peersPending].flatten

def deserialize : Reader Byte M2CPacketPeersPendingResponse := do
  let peersPending ← readBoolean
  return { peersPending }

end M2CPacketPeersPendingResponse

structure BenchmarkRequest where
  fromPeerUuid : CcoipUuid
  toPeerUuid : CcoipUuid
  toPeerBenchmarkEndpoint : CcoipSocketAddress
deriving DecidableEq, Repr

namespace BenchmarkRequest

def serialize (request : BenchmarkRequest) : List Byte :=
  [request.fromPeerUuid.val, request.toPeerUuid.val,
    writeSocketAddress request.toPeerBenchmarkEndpoint].flatten

def deserialize : Reader Byte BenchmarkRequest := do
  let fromPeerUuid ← readFixedArray 16
  let toPeerUuid ← readFixedArray 16
  let toPeerBenchmarkEndpoint ← readSocketAddress
  return { fromPeerUuid, toPeerUuid, toPeerBenchmarkEndpoint }

end BenchmarkRequest

structure M2CPacketOptimizeTopologyResponse where
  bwBenchmarkRequests : List BenchmarkRequest
deriving DecidableEq, Repr

namespace M2CPacketOptimizeTopologyResponse

def serialize (packet : M2CPacketOptimizeTopologyResponse) : List Byte :=
  [writeList BenchmarkRequest.serialize packet.bwBenchmarkRequests].flatten

def deserialize : Reader Byte M2CPacketOptimizeTopologyResponse := do
  let bwBenchmarkRequests ← readList BenchmarkRequest.deserialize
  return { bwBenchmarkRequests }

end M2CPacketOptimizeTopologyResponse

structure M2CPacketSyncSharedState where
  isOutdated : Bool
  distributorAddress : CcoipSocketAddress
  outdatedKeys : List (List Byte)
  expectedHashes : List (BitVec 64)
  expectedHashTypes : List Enumeration
deriving DecidableEq, Repr

namespace M2CPacketSyncSharedState

-- The number of the keys is the only one that is written.
def serialize (packet : M2CPacketSyncSharedState) : List Byte :=
  [writeBoolean packet.isOutdated, writeSocketAddress packet.distributorAddress,
    write 8 (BitVec.ofNat 64 packet.outdatedKeys.length), (packet.outdatedKeys.map writeString).flatten,
    (packet.expectedHashes.map (write 8)).flatten,
    (packet.expectedHashTypes.map writeEnumeration).flatten].flatten

def deserialize : Reader Byte M2CPacketSyncSharedState := do
  let isOutdated ← readBoolean
  let distributorAddress ← readSocketAddress
  let keys ← read 8
  let outdatedKeys ← many readString keys.toNat
  let expectedHashes ← many (read 8) keys.toNat
  let expectedHashTypes ← many readEnumeration keys.toNat
  return { isOutdated, distributorAddress, outdatedKeys, expectedHashes, expectedHashTypes }

end M2CPacketSyncSharedState

structure M2CPacketCollectiveCommsCommence where
  tag : BitVec 64
  seqNr : BitVec 64
deriving DecidableEq, Repr

namespace M2CPacketCollectiveCommsCommence

def serialize (packet : M2CPacketCollectiveCommsCommence) : List Byte :=
  [write 8 packet.tag, write 8 packet.seqNr].flatten

def deserialize : Reader Byte M2CPacketCollectiveCommsCommence := do
  let tag ← read 8
  let seqNr ← read 8
  return { tag, seqNr }

end M2CPacketCollectiveCommsCommence

structure M2CPacketCollectiveCommsComplete where
  tag : BitVec 64
deriving DecidableEq, Repr

namespace M2CPacketCollectiveCommsComplete

def serialize (packet : M2CPacketCollectiveCommsComplete) : List Byte := [write 8 packet.tag].flatten

def deserialize : Reader Byte M2CPacketCollectiveCommsComplete := do
  let tag ← read 8
  return { tag }

end M2CPacketCollectiveCommsComplete

structure M2CPacketCollectiveCommsAbort where
  tag : BitVec 64
  aborted : Bool
deriving DecidableEq, Repr

namespace M2CPacketCollectiveCommsAbort

def serialize (packet : M2CPacketCollectiveCommsAbort) : List Byte :=
  [write 8 packet.tag, writeBoolean packet.aborted].flatten

def deserialize : Reader Byte M2CPacketCollectiveCommsAbort := do
  let tag ← read 8
  let aborted ← readBoolean
  return { tag, aborted }

end M2CPacketCollectiveCommsAbort

structure P2PPacketHello where
  peerUuid : CcoipUuid
  connectionNr : BitVec 32
deriving DecidableEq, Repr

namespace P2PPacketHello

def serialize (packet : P2PPacketHello) : List Byte :=
  [packet.peerUuid.val, write 4 packet.connectionNr].flatten

def deserialize : Reader Byte P2PPacketHello := do
  let peerUuid ← readFixedArray 16
  let connectionNr ← read 4
  return { peerUuid, connectionNr }

end P2PPacketHello

structure C2SPacketRequestSharedState where
  requestedKeys : List (List Byte)
deriving DecidableEq, Repr

namespace C2SPacketRequestSharedState

def serialize (packet : C2SPacketRequestSharedState) : List Byte :=
  [writeList writeString packet.requestedKeys].flatten

def deserialize : Reader Byte C2SPacketRequestSharedState := do
  let requestedKeys ← readList readString
  return { requestedKeys }

end C2SPacketRequestSharedState

structure SharedStateEntry where
  key : List Byte
  sizeBytes : BitVec 64
deriving DecidableEq, Repr

namespace SharedStateEntry

def serialize (entry : SharedStateEntry) : List Byte :=
  [writeString entry.key, write 8 entry.sizeBytes].flatten

def deserialize : Reader Byte SharedStateEntry := do
  let key ← readString
  let sizeBytes ← read 8
  return { key, sizeBytes }

end SharedStateEntry

structure S2CPacketSharedStateResponse where
  status : Enumeration
  revision : BitVec 64
  entries : List SharedStateEntry
deriving DecidableEq, Repr

namespace S2CPacketSharedStateResponse

def serialize (packet : S2CPacketSharedStateResponse) : List Byte :=
  [writeEnumeration packet.status, write 8 packet.revision,
    writeList SharedStateEntry.serialize packet.entries].flatten

def deserialize : Reader Byte S2CPacketSharedStateResponse := do
  let status ← readEnumeration
  let revision ← read 8
  let entries ← readList SharedStateEntry.deserialize
  return { status, revision, entries }

end S2CPacketSharedStateResponse

structure C2BPacketHello where
  peerUuid : CcoipUuid
deriving DecidableEq, Repr

namespace C2BPacketHello

def serialize (packet : C2BPacketHello) : List Byte := [packet.peerUuid.val].flatten

def deserialize : Reader Byte C2BPacketHello := do
  let peerUuid ← readFixedArray 16
  return { peerUuid }

end C2BPacketHello

structure B2CPacketBenchmarkServerIsBusy where
  isBusy : Bool
deriving DecidableEq, Repr

namespace B2CPacketBenchmarkServerIsBusy

def serialize (packet : B2CPacketBenchmarkServerIsBusy) : List Byte :=
  [writeBoolean packet.isBusy].flatten

def deserialize : Reader Byte B2CPacketBenchmarkServerIsBusy := do
  let isBusy ← readBoolean
  return { isBusy }

end B2CPacketBenchmarkServerIsBusy

end Pccl.Wire
