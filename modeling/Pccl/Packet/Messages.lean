import Pccl.Ring.Types

set_option autoImplicit false

namespace Pccl.Packet

abbrev Uuid := Nat

abbrev Tag := BitVec 64

inductive InetAddress where
  | ipv4 (data : BitVec 32)
  | ipv6 (data : BitVec 128)
deriving DecidableEq, Repr

def InetAddress.isLocal : InetAddress → Bool
  -- All of 127.x.x.x, and the loopback address of IPv6.
  | ipv4 data => data.toNat / 2 ^ 24 = 127
  | ipv6 data => data = 1

structure SocketAddress where
  inet : InetAddress
  port : BitVec 16
deriving DecidableEq, Repr

def SocketAddress.isLocal (address : SocketAddress) : Bool := address.inet.isLocal

inductive HashType where
  | simple | crc32
deriving DecidableEq, Repr

inductive SyncStrategy where
  | enforcePopular | rxOnly | txOnly
deriving DecidableEq, Repr

structure SharedStateHashEntry where
  key : String
  hash : BitVec 64
  hashType : HashType
  dataSize : Nat
  dataType : Ring.DataType
  allowContentInequality : Bool
deriving DecidableEq, Repr

/-- A bandwidth is kept as the bits of the `double` that was reported. -/
abbrev Bandwidth := BitVec 64

inductive C2MPacket where
  | requestSessionRegistration (p2pListenPort sharedStateListenPort benchmarkListenPort : BitVec 16)
      (peerGroup : Nat)
  | requestEstablishP2PConnections (acceptNewPeers : Bool)
  | p2pConnectionsEstablished (success : Bool) (failedPeers : List Uuid)
  | checkPeersPending
  | optimizeTopology
  | reportPeerBandwidth (toPeer : Uuid) (bandwidth : Bandwidth)
  | optimizeTopologyWorkComplete
  | syncSharedState (revision : BitVec 64) (strategy : SyncStrategy) (hashes : List SharedStateHashEntry)
  | distSharedStateComplete
  | collectiveCommsInitiate (tag : Tag) (dataType : Ring.DataType) (count : Nat) (op : Ring.ReduceOp)
  | collectiveCommsComplete (tag : Tag) (wasAborted : Bool)
deriving DecidableEq, Repr

structure PeerInfo where
  p2pListenAddr : SocketAddress
  peerUuid : Uuid
deriving DecidableEq, Repr

structure BenchmarkRequest where
  fromPeer : Uuid
  toPeer : Uuid
  endpoint : SocketAddress
deriving DecidableEq, Repr

structure P2PConnectionInfo where
  unchanged : Bool
  globalWorldSize : Nat
  localWorldSize : Nat
  numDistinctPeerGroups : Nat
  largestPeerGroupWorldSize : Nat
  allPeers : List PeerInfo
deriving DecidableEq, Repr

inductive M2CPacket where
  | sessionRegistrationResponse (accepted : Bool) (assignedUuid : Uuid)
  | p2pConnectionInfo (info : P2PConnectionInfo)
  | p2pConnectionsEstablished (success : Bool) (ringReduceOrder : List Uuid)
  | peersPendingResponse (peersPending : Bool)
  | optimizeTopologyResponse (requests : List BenchmarkRequest)
  | optimizeTopologyComplete (success : Bool) (ringReduceOrder : List Uuid)
  | syncSharedState (isOutdated : Bool) (distributor : SocketAddress) (outdatedKeys : List String)
      (expectedHashes : List (BitVec 64)) (expectedHashTypes : List HashType)
  | syncSharedStateComplete
  | collectiveCommsCommence (tag : Tag) (seqNr : BitVec 64)
  | collectiveCommsComplete (tag : Tag)
  | collectiveCommsAbort (tag : Tag) (aborted : Bool)
deriving DecidableEq, Repr

end Pccl.Packet
