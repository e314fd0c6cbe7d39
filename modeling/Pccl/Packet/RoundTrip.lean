import Pccl.Packet.Wire

set_option autoImplicit false

namespace Pccl.Wire

open Buffer Packet Reader

section Fields

theorem reads_write (bytes : Nat) (value : BitVec (8 * bytes)) :
    Reads (read bytes) (write bytes value) value := by
  intro rest
  have fits : value.toNat < 256 ^ bytes := by
    have below := value.isLt
    rwa [Nat.pow_mul] at below
  rw [read, write, readIntegral_writeIntegral bytes _ rest fits, Option.map_some]
  dsimp only
  rw [BitVec.ofNat_toNat, BitVec.setWidth_eq]

theorem reads_boolean (value : Bool) : Reads readBoolean (writeBoolean value) value := by
  have reads := (reads_write 1 (if value then 1 else 0)).map fun byte => decide (byte ≠ 0)
  cases value <;> exact reads

def FitsByte (value : Enumeration) : Prop := value.toNat < 256

theorem reads_enumeration {value : Enumeration} (fits : FitsByte value) :
    Reads readEnumeration (writeEnumeration value) value := by
  have reads := (reads_write 1 (value.setWidth 8)).map fun byte => byte.setWidth 32
  have same : (value.setWidth 8).setWidth 32 = value := by
    apply BitVec.eq_of_toNat_eq
    have small : value.toNat < 2 ^ 8 := fits
    rw [BitVec.toNat_setWidth, BitVec.toNat_setWidth, Nat.mod_eq_of_lt small, Nat.mod_eq_of_lt value.isLt]
  rwa [same] at reads

theorem reads_fixedArray {count : Nat} (array : FixedArray count) :
    Reads (readFixedArray count) array.val array := by
  intro rest
  obtain ⟨data, rfl⟩ := array
  simp [readFixedArray]

def Sizable {A : Type} (items : List A) : Prop := items.length < 2 ^ 64

instance {A : Type} (items : List A) : Decidable (Sizable items) := inferInstanceAs (Decidable (_ < _))

theorem reads_size {A : Type} {items : List A} (sizable : Sizable items) :
    Reads (read 8) (write 8 (BitVec.ofNat 64 items.length)) (BitVec.ofNat 64 items.length) ∧
      (BitVec.ofNat 64 items.length).toNat = items.length := by
  refine ⟨reads_write 8 _, ?_⟩
  rw [BitVec.toNat_ofNat]
  exact Nat.mod_eq_of_lt sizable

theorem reads_string {text : List Byte} (sizable : Sizable text) :
    Reads readString (writeString text) text := by
  obtain ⟨size, same⟩ := reads_size sizable
  refine size.bind fun rest => ?_
  rw [same, readBytes_append text rest _ rfl]

theorem reads_many {A : Type} {item : Reader Byte A} {write : A → List Byte} {items : List A} {count : Nat}
    (length : count = items.length) (each : ∀ value ∈ items, Reads item (write value) value) :
    Reads (many item count) (items.map write).flatten items := by
  subst length
  exact .many items each

theorem reads_list {A : Type} {item : Reader Byte A} {write : A → List Byte} {items : List A}
    (sizable : Sizable items) (each : ∀ value ∈ items, Reads item (write value) value) :
    Reads (readList item) (writeList write items) items := by
  obtain ⟨size, same⟩ := reads_size sizable
  exact size.bind (reads_many same each)

end Fields

section Packets

/-- One of the two families, and nothing in the place of the other. -/
def CcoipSocketAddress.Conventional (address : CcoipSocketAddress) : Prop :=
  address.protocol = inetIPv4 ∧ address.ipv6 = noIPv6 ∨
    address.protocol = inetIPv6 ∧ address.ipv4 = noIPv4

theorem reads_socketAddress {address : CcoipSocketAddress} (conventional : address.Conventional) :
    Reads readSocketAddress (writeSocketAddress address) address := by
  obtain ⟨protocol, ipv4, ipv6, port⟩ := address
  rcases conventional with ⟨family, unused⟩ | ⟨family, unused⟩
  all_goals
    change protocol = _ at family
    subst family
    cases unused
  · refine .cons (reads_boolean true)
      (.cons ((reads_fixedArray ipv4).map fun ipv4 => (inetIPv4, ipv4, noIPv6)) ?_)
    exact .cons (reads_write 2 port) (.pure _)
  · refine .cons (reads_boolean false)
      (.cons ((reads_fixedArray ipv6).map fun ipv6 => (inetIPv6, noIPv4, ipv6)) ?_)
    exact .cons (reads_write 2 port) (.pure _)

def SharedStateHashEntry.Conventional (entry : SharedStateHashEntry) : Prop :=
  Sizable entry.key ∧ FitsByte entry.hashType ∧ FitsByte entry.dataType

theorem reads_hashEntry {entry : SharedStateHashEntry} (conventional : entry.Conventional) :
    Reads SharedStateHashEntry.deserialize entry.serialize entry := by
  obtain ⟨key, hashType, dataType⟩ := conventional
  refine .cons (reads_string key) (.cons (reads_write 8 _) (.cons (reads_enumeration hashType) ?_))
  refine .cons (reads_write 8 _) (.cons (reads_enumeration dataType) (.cons (reads_boolean _) (.pure _)))

theorem reads_peerInfo {info : PeerInfo} (conventional : info.p2pListenAddr.Conventional) :
    Reads PeerInfo.deserialize info.serialize info :=
  .cons (reads_socketAddress conventional) (.cons (reads_fixedArray _) (.pure _))

theorem reads_benchmarkRequest {request : BenchmarkRequest}
    (conventional : request.toPeerBenchmarkEndpoint.Conventional) :
    Reads BenchmarkRequest.deserialize request.serialize request :=
  .cons (reads_fixedArray _) (.cons (reads_fixedArray _) (.cons (reads_socketAddress conventional) (.pure _)))

theorem reads_stateEntry {entry : SharedStateEntry} (sizable : Sizable entry.key) :
    Reads SharedStateEntry.deserialize entry.serialize entry :=
  .cons (reads_string sizable) (.cons (reads_write 8 _) (.pure _))

end Packets

/-- The packets of `ccoip_packets` but for that with the metadata of a quantized chunk. -/
inductive PacketType where
  | c2mRequestSessionRegistration | c2mRequestEstablishP2PConnections | c2mP2PConnectionsEstablished
  | c2mCheckPeersPending | c2mOptimizeTopology | c2mReportPeerBandwidth | c2mOptimizeTopologyWorkComplete
  | c2mSyncSharedState | c2mDistSharedStateComplete | c2mCollectiveCommsInitiate
  | c2mCollectiveCommsComplete
  | m2cSessionRegistrationResponse | m2cP2PConnectionInfo | m2cP2PConnectionsEstablished
  | m2cPeersPendingResponse | m2cOptimizeTopologyResponse | m2cOptimizeTopologyComplete
  | m2cSyncSharedState | m2cSyncSharedStateComplete | m2cCollectiveCommsCommence
  | m2cCollectiveCommsComplete | m2cCollectiveCommsAbort
  | p2pHello | p2pHelloAck
  | c2sRequestSharedState | s2cSharedStateResponse
  | c2bHello | b2cBenchmarkServerIsBusy
deriving DecidableEq, Repr

namespace PacketType

def Value : PacketType → Type
  | c2mRequestSessionRegistration => C2MPacketRequestSessionRegistration
  | c2mRequestEstablishP2PConnections => C2MPacketRequestEstablishP2PConnections
  | c2mP2PConnectionsEstablished => C2MPacketP2PConnectionsEstablished
  | c2mReportPeerBandwidth => C2MPacketReportPeerBandwidth
  | c2mSyncSharedState => C2MPacketSyncSharedState
  | c2mCollectiveCommsInitiate => C2MPacketCollectiveCommsInitiate
  | c2mCollectiveCommsComplete => C2MPacketCollectiveCommsComplete
  | m2cSessionRegistrationResponse => M2CPacketSessionRegistrationResponse
  | m2cP2PConnectionInfo => M2CPacketP2PConnectionInfo
  | m2cP2PConnectionsEstablished => M2CPacketP2PConnectionsEstablished
  | m2cPeersPendingResponse => M2CPacketPeersPendingResponse
  | m2cOptimizeTopologyResponse => M2CPacketOptimizeTopologyResponse
  | m2cOptimizeTopologyComplete => M2CPacketOptimizeTopologyComplete
  | m2cSyncSharedState => M2CPacketSyncSharedState
  | m2cCollectiveCommsCommence => M2CPacketCollectiveCommsCommence
  | m2cCollectiveCommsComplete => M2CPacketCollectiveCommsComplete
  | m2cCollectiveCommsAbort => M2CPacketCollectiveCommsAbort
  | p2pHello => P2PPacketHello
  | c2sRequestSharedState => C2SPacketRequestSharedState
  | s2cSharedStateResponse => S2CPacketSharedStateResponse
  | c2bHello => C2BPacketHello
  | b2cBenchmarkServerIsBusy => B2CPacketBenchmarkServerIsBusy
  | c2mCheckPeersPending | c2mOptimizeTopology | c2mOptimizeTopologyWorkComplete
  | c2mDistSharedStateComplete | m2cSyncSharedStateComplete | p2pHelloAck => EmptyPacket

def serialize : (type : PacketType) → type.Value → List Byte
  | c2mRequestSessionRegistration => C2MPacketRequestSessionRegistration.serialize
  | c2mRequestEstablishP2PConnections => C2MPacketRequestEstablishP2PConnections.serialize
  | c2mP2PConnectionsEstablished => C2MPacketP2PConnectionsEstablished.serialize
  | c2mReportPeerBandwidth => C2MPacketReportPeerBandwidth.serialize
  | c2mSyncSharedState => C2MPacketSyncSharedState.serialize
  | c2mCollectiveCommsInitiate => C2MPacketCollectiveCommsInitiate.serialize
  | c2mCollectiveCommsComplete => C2MPacketCollectiveCommsComplete.serialize
  | m2cSessionRegistrationResponse => M2CPacketSessionRegistrationResponse.serialize
  | m2cP2PConnectionInfo => M2CPacketP2PConnectionInfo.serialize
  | m2cP2PConnectionsEstablished => RingPacket.serialize
  | m2cPeersPendingResponse => M2CPacketPeersPendingResponse.serialize
  | m2cOptimizeTopologyResponse => M2CPacketOptimizeTopologyResponse.serialize
  | m2cOptimizeTopologyComplete => RingPacket.serialize
  | m2cSyncSharedState => M2CPacketSyncSharedState.serialize
  | m2cCollectiveCommsCommence => M2CPacketCollectiveCommsCommence.serialize
  | m2cCollectiveCommsComplete => M2CPacketCollectiveCommsComplete.serialize
  | m2cCollectiveCommsAbort => M2CPacketCollectiveCommsAbort.serialize
  | p2pHello => P2PPacketHello.serialize
  | c2sRequestSharedState => C2SPacketRequestSharedState.serialize
  | s2cSharedStateResponse => S2CPacketSharedStateResponse.serialize
  | c2bHello => C2BPacketHello.serialize
  | b2cBenchmarkServerIsBusy => B2CPacketBenchmarkServerIsBusy.serialize
  | c2mCheckPeersPending | c2mOptimizeTopology | c2mOptimizeTopologyWorkComplete
  | c2mDistSharedStateComplete | m2cSyncSharedStateComplete | p2pHelloAck => EmptyPacket.serialize

def deserialize : (type : PacketType) → Reader Byte type.Value
  | c2mRequestSessionRegistration => C2MPacketRequestSessionRegistration.deserialize
  | c2mRequestEstablishP2PConnections => C2MPacketRequestEstablishP2PConnections.deserialize
  | c2mP2PConnectionsEstablished => C2MPacketP2PConnectionsEstablished.deserialize
  | c2mReportPeerBandwidth => C2MPacketReportPeerBandwidth.deserialize
  | c2mSyncSharedState => C2MPacketSyncSharedState.deserialize
  | c2mCollectiveCommsInitiate => C2MPacketCollectiveCommsInitiate.deserialize
  | c2mCollectiveCommsComplete => C2MPacketCollectiveCommsComplete.deserialize
  | m2cSessionRegistrationResponse => M2CPacketSessionRegistrationResponse.deserialize
  | m2cP2PConnectionInfo => M2CPacketP2PConnectionInfo.deserialize
  | m2cP2PConnectionsEstablished => RingPacket.deserialize
  | m2cPeersPendingResponse => M2CPacketPeersPendingResponse.deserialize
  | m2cOptimizeTopologyResponse => M2CPacketOptimizeTopologyResponse.deserialize
  | m2cOptimizeTopologyComplete => RingPacket.deserialize
  | m2cSyncSharedState => M2CPacketSyncSharedState.deserialize
  | m2cCollectiveCommsCommence => M2CPacketCollectiveCommsCommence.deserialize
  | m2cCollectiveCommsComplete => M2CPacketCollectiveCommsComplete.deserialize
  | m2cCollectiveCommsAbort => M2CPacketCollectiveCommsAbort.deserialize
  | p2pHello => P2PPacketHello.deserialize
  | c2sRequestSharedState => C2SPacketRequestSharedState.deserialize
  | s2cSharedStateResponse => S2CPacketSharedStateResponse.deserialize
  | c2bHello => C2BPacketHello.deserialize
  | b2cBenchmarkServerIsBusy => B2CPacketBenchmarkServerIsBusy.deserialize
  | c2mCheckPeersPending | c2mOptimizeTopology | c2mOptimizeTopologyWorkComplete
  | c2mDistSharedStateComplete | m2cSyncSharedStateComplete | p2pHelloAck => EmptyPacket.deserialize

def Conventional : (type : PacketType) → type.Value → Prop
  | c2mP2PConnectionsEstablished, (packet : C2MPacketP2PConnectionsEstablished) =>
    Sizable packet.failedPeers
  | c2mSyncSharedState, (packet : C2MPacketSyncSharedState) =>
    FitsByte packet.sharedStateSyncStrategy ∧ Sizable packet.sharedStateHashes ∧
      ∀ entry ∈ packet.sharedStateHashes, entry.Conventional
  | c2mCollectiveCommsInitiate, (packet : C2MPacketCollectiveCommsInitiate) =>
    FitsByte packet.dataType ∧ FitsByte packet.op
  | m2cP2PConnectionInfo, (packet : M2CPacketP2PConnectionInfo) =>
    Sizable packet.allPeers ∧ (packet.unchanged → packet.allPeers = []) ∧
      ∀ peer ∈ packet.allPeers, peer.p2pListenAddr.Conventional
  | m2cP2PConnectionsEstablished, (packet : RingPacket)
  | m2cOptimizeTopologyComplete, (packet : RingPacket) => Sizable packet.ringReduceOrder
  | m2cOptimizeTopologyResponse, (packet : M2CPacketOptimizeTopologyResponse) =>
    Sizable packet.bwBenchmarkRequests ∧
      ∀ request ∈ packet.bwBenchmarkRequests, request.toPeerBenchmarkEndpoint.Conventional
  | m2cSyncSharedState, (packet : M2CPacketSyncSharedState) =>
    packet.distributorAddress.Conventional ∧ Sizable packet.outdatedKeys ∧
      packet.expectedHashes.length = packet.outdatedKeys.length ∧
      packet.expectedHashTypes.length = packet.outdatedKeys.length ∧
      (∀ key ∈ packet.outdatedKeys, Sizable key) ∧
      ∀ hashType ∈ packet.expectedHashTypes, FitsByte hashType
  | c2sRequestSharedState, (packet : C2SPacketRequestSharedState) =>
    Sizable packet.requestedKeys ∧ ∀ key ∈ packet.requestedKeys, Sizable key
  | s2cSharedStateResponse, (packet : S2CPacketSharedStateResponse) =>
    FitsByte packet.status ∧ Sizable packet.entries ∧ ∀ entry ∈ packet.entries, Sizable entry.key
  | _, _ => True

theorem reads_deserialize (type : PacketType) (value : type.Value)
    (conventional : type.Conventional value) :
    Reads type.deserialize (type.serialize value) value := by
  cases type with
  | c2mRequestSessionRegistration =>
    refine .cons (reads_write 2 _) (.cons (reads_write 2 _) ?_)
    exact .cons (reads_write 2 _) (.cons (reads_write 4 _) (.pure _))
  | c2mRequestEstablishP2PConnections | m2cPeersPendingResponse | b2cBenchmarkServerIsBusy =>
    exact .cons (reads_boolean _) (.pure _)
  | c2mP2PConnectionsEstablished | m2cP2PConnectionsEstablished | m2cOptimizeTopologyComplete =>
    refine .cons (reads_boolean _) (.cons (reads_list conventional fun uuid _ => ?_) (.pure _))
    exact reads_fixedArray uuid
  | c2mReportPeerBandwidth => exact .cons (reads_fixedArray _) (.cons (reads_write 8 _) (.pure _))
  | c2mSyncSharedState =>
    obtain ⟨strategy, sizable, entries⟩ := conventional
    refine .cons (reads_write 8 _) (.cons (reads_enumeration strategy) (.cons ?_ (.pure _)))
    exact reads_list sizable fun entry present => reads_hashEntry (entries entry present)
  | c2mCollectiveCommsInitiate =>
    refine .cons (reads_write 8 _) (.cons (reads_write 8 _) ?_)
    exact .cons (reads_enumeration conventional.1) (.cons (reads_enumeration conventional.2) (.pure _))
  | c2mCollectiveCommsComplete | m2cCollectiveCommsAbort =>
    exact .cons (reads_write 8 _) (.cons (reads_boolean _) (.pure _))
  | m2cSessionRegistrationResponse => exact .cons (reads_boolean _) (.cons (reads_fixedArray _) (.pure _))
  | m2cP2PConnectionInfo =>
    obtain ⟨unchanged, globalSize, localSize, groups, largest, peers⟩ := value
    obtain ⟨sizable, none, addresses⟩ := conventional
    have rest : Reads (M2CPacketP2PConnectionInfo.readPeers unchanged)
        (if unchanged then [] else writeList PeerInfo.serialize peers) peers := by
      cases unchanged with
      | true =>
        have gone : peers = [] := none rfl
        rw [gone]
        exact .pure _
      | false => exact reads_list sizable fun peer present => reads_peerInfo (addresses peer present)
    refine .cons (reads_boolean _) (.cons (reads_write 8 _) (.cons (reads_write 8 _) ?_))
    exact .cons (reads_write 8 _) (.cons (reads_write 8 _) (.cons rest (.pure _)))
  | m2cOptimizeTopologyResponse =>
    refine .cons (reads_list conventional.1 fun request present => ?_) (.pure _)
    exact reads_benchmarkRequest (conventional.2 request present)
  | m2cSyncSharedState =>
    obtain ⟨address, sizable, hashes, hashTypes, keys, enumerators⟩ := conventional
    obtain ⟨size, same⟩ := reads_size sizable
    refine .cons (reads_boolean _) (.cons (reads_socketAddress address) (.cons size ?_))
    refine .cons (reads_many same fun key present => reads_string (keys key present)) ?_
    refine .cons (reads_many (same.trans hashes.symm) fun hash _ => reads_write 8 hash) ?_
    refine .cons (reads_many (same.trans hashTypes.symm) fun hashType present => ?_) (.pure _)
    exact reads_enumeration (enumerators hashType present)
  | m2cCollectiveCommsCommence => exact .cons (reads_write 8 _) (.cons (reads_write 8 _) (.pure _))
  | m2cCollectiveCommsComplete => exact .cons (reads_write 8 _) (.pure _)
  | p2pHello => exact .cons (reads_fixedArray _) (.cons (reads_write 4 _) (.pure _))
  | c2sRequestSharedState =>
    exact .cons (reads_list conventional.1 fun key present => reads_string (conventional.2 key present))
      (.pure _)
  | s2cSharedStateResponse =>
    obtain ⟨status, sizable, keys⟩ := conventional
    refine .cons (reads_enumeration status) (.cons (reads_write 8 _) (.cons ?_ (.pure _)))
    exact reads_list sizable fun entry present => reads_stateEntry (keys entry present)
  | c2bHello => exact .cons (reads_fixedArray _) (.pure _)
  | _ => exact .pure _

end PacketType

theorem packets_round_trip (type : PacketType) (value : type.Value)
    (conventional : type.Conventional value) (rest : List Byte) :
    type.deserialize (type.serialize value ++ rest) = some (value, rest) :=
  type.reads_deserialize value conventional rest

def Sample.loopback : CcoipSocketAddress := ⟨inetIPv4, ⟨[127, 0, 0, 1], rfl⟩, noIPv6, 48148⟩

def Sample.outdated : M2CPacketSyncSharedState where
  isOutdated := true
  distributorAddress := Sample.loopback
  outdatedKeys := [[104, 105]]
  expectedHashes := [7]
  expectedHashTypes := [1]

theorem packets_round_trip_outdated :
    M2CPacketSyncSharedState.deserialize (Sample.outdated.serialize ++ [1, 2, 3]) =
      some (Sample.outdated, [1, 2, 3]) :=
  packets_round_trip .m2cSyncSharedState Sample.outdated
    ⟨Or.inl ⟨rfl, rfl⟩, by decide, rfl, rfl, by simp [Sample.outdated, Sizable],
      by simp [Sample.outdated, FitsByte]⟩ [1, 2, 3]

end Pccl.Wire
