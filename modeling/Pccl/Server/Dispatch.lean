import Pccl.Packet.RoundTrip
import Pccl.Master.Runs

set_option autoImplicit false

namespace Pccl.Server

open Buffer Packet Wire Reader Master

section Readers

theorem local_readBytes (count : Nat) : Local (readBytes count : Reader Byte (List Byte)) := by
  intro data value rest read
  change (if data.length < count then none else some (data.take count, data.drop count)) = _ at read
  split at read
  next => cases read
  next enough =>
    cases read
    refine ⟨data.take count, (List.take_append_drop count data).symm, fun other => ?_⟩
    exact readBytes_append _ other count (List.length_take_of_le (not_lt.mp enough))

theorem local_read (bytes : Nat) : Local (Wire.read bytes) := by
  intro data value rest read
  obtain ⟨⟨number, left⟩, integral, same⟩ := Option.map_eq_some_iff.mp read
  obtain ⟨⟨front, behind⟩, taken, number_eq⟩ := Option.map_eq_some_iff.mp integral
  cases same
  cases number_eq
  obtain ⟨front', split, reads⟩ := local_readBytes bytes _ _ _ taken
  refine ⟨front', split, fun other => ?_⟩
  have again : readBytes bytes (front' ++ other) = some (front, other) := reads other
  simp [Wire.read, readIntegral, again]

theorem local_readFixedArray (count : Nat) : Local (readFixedArray count) := by
  intro data value rest read
  unfold readFixedArray at read
  split at read
  next enough =>
    cases read
    refine ⟨data.take count, (List.take_append_drop count data).symm, ?_⟩
    exact reads_fixedArray ⟨data.take count, List.length_take_of_le enough⟩
  next => cases read

theorem local_readBoolean : Local readBoolean := (local_read 1).map _

theorem local_readEnumeration : Local readEnumeration := (local_read 1).map _

theorem local_readString : Local readString := (local_read 8).bind fun _ => local_readBytes _

theorem local_readList {A : Type} {item : Reader Byte A} (each : Local item) : Local (readList item) :=
  (local_read 8).bind fun _ => each.many _

theorem local_hashEntry : Local SharedStateHashEntry.deserialize :=
  local_readString.bind fun _ => (local_read 8).bind fun _ => local_readEnumeration.bind fun _ =>
    (local_read 8).bind fun _ => local_readEnumeration.bind fun _ => local_readBoolean.bind fun _ =>
      .pure _

end Readers

inductive ClientPacket where
  | requestSessionRegistration (packet : C2MPacketRequestSessionRegistration)
  | requestEstablishP2PConnections (packet : C2MPacketRequestEstablishP2PConnections)
  | p2pConnectionsEstablished (packet : C2MPacketP2PConnectionsEstablished)
  | checkPeersPending (packet : EmptyPacket)
  | optimizeTopology (packet : EmptyPacket)
  | reportPeerBandwidth (packet : C2MPacketReportPeerBandwidth)
  | optimizeTopologyWorkComplete (packet : EmptyPacket)
  | syncSharedState (packet : C2MPacketSyncSharedState)
  | distSharedStateComplete (packet : EmptyPacket)
  | collectiveCommsInitiate (packet : C2MPacketCollectiveCommsInitiate)
  | collectiveCommsComplete (packet : C2MPacketCollectiveCommsComplete)
deriving DecidableEq, Repr

namespace ClientPacket

def reader : Nat → Option (Reader Byte ClientPacket)
  | 1 => some (requestSessionRegistration <$> C2MPacketRequestSessionRegistration.deserialize)
  | 2 => some (requestEstablishP2PConnections <$> C2MPacketRequestEstablishP2PConnections.deserialize)
  | 3 => some (p2pConnectionsEstablished <$> C2MPacketP2PConnectionsEstablished.deserialize)
  | 4 => some (checkPeersPending <$> EmptyPacket.deserialize)
  | 5 => some (optimizeTopology <$> EmptyPacket.deserialize)
  | 6 => some (reportPeerBandwidth <$> C2MPacketReportPeerBandwidth.deserialize)
  | 7 => some (optimizeTopologyWorkComplete <$> EmptyPacket.deserialize)
  | 8 => some (syncSharedState <$> C2MPacketSyncSharedState.deserialize)
  | 9 => some (distSharedStateComplete <$> EmptyPacket.deserialize)
  | 10 => some (collectiveCommsInitiate <$> C2MPacketCollectiveCommsInitiate.deserialize)
  | 11 => some (collectiveCommsComplete <$> C2MPacketCollectiveCommsComplete.deserialize)
  | _ => none

def packetId : ClientPacket → Nat
  | requestSessionRegistration _ => 1
  | requestEstablishP2PConnections _ => 2
  | p2pConnectionsEstablished _ => 3
  | checkPeersPending _ => 4
  | optimizeTopology _ => 5
  | reportPeerBandwidth _ => 6
  | optimizeTopologyWorkComplete _ => 7
  | syncSharedState _ => 8
  | distSharedStateComplete _ => 9
  | collectiveCommsInitiate _ => 10
  | collectiveCommsComplete _ => 11

theorem packetId_of_reader {number : Nat} {reads : Reader Byte ClientPacket} {data rest : List Byte}
    {packet : ClientPacket} (known : reader number = some reads)
    (read : reads data = some (packet, rest)) : packet.packetId = number := by
  unfold reader at known
  split at known
  all_goals
    cases known
    try
      obtain ⟨value, _, rfl⟩ := map_eq_some read
      rfl

theorem local_reader {number : Nat} {reads : Reader Byte ClientPacket} (known : reader number = some reads) :
    Local reads := by
  unfold reader at known
  split at known <;> cases known <;> refine .map _ ?_
  next =>
    exact (local_read 2).bind fun _ => (local_read 2).bind fun _ => (local_read 2).bind fun _ =>
      (local_read 4).bind fun _ => .pure _
  next => exact local_readBoolean.bind fun _ => .pure _
  next =>
    exact local_readBoolean.bind fun _ => (local_readList (local_readFixedArray 16)).bind fun _ => .pure _
  next => exact .pure _
  next => exact .pure _
  next => exact (local_readFixedArray 16).bind fun _ => (local_read 8).bind fun _ => .pure _
  next => exact .pure _
  next =>
    exact (local_read 8).bind fun _ => local_readEnumeration.bind fun _ =>
      (local_readList local_hashEntry).bind fun _ => .pure _
  next => exact .pure _
  next =>
    exact (local_read 8).bind fun _ => (local_read 8).bind fun _ => local_readEnumeration.bind fun _ =>
      local_readEnumeration.bind fun _ => .pure _
  next => exact (local_read 8).bind fun _ => local_readBoolean.bind fun _ => .pure _

end ClientPacket

/-- What becomes of a value that no enumerator has; the cast of one is undefined. -/
structure Strays where
  hashType : Enumeration → HashType
  syncStrategy : Enumeration → SyncStrategy
  dataType : Enumeration → Ring.DataType
  reduceOp : Enumeration → Ring.ReduceOp

namespace Strays

variable (strays : Strays)

def toHashType (value : Enumeration) : HashType :=
  match value.toNat with
  | 0 => .simple
  | 1 => .crc32
  | _ => strays.hashType value

def toSyncStrategy (value : Enumeration) : SyncStrategy :=
  match value.toNat with
  | 0 => .enforcePopular
  | 1 => .rxOnly
  | 2 => .txOnly
  | _ => strays.syncStrategy value

def toDataType (value : Enumeration) : Ring.DataType :=
  (Ring.DataType.ofCode value.toNat).getD (strays.dataType value)

def toReduceOp (value : Enumeration) : Ring.ReduceOp :=
  match value.toNat with
  | 0 => .set
  | 1 => .sum
  | 2 => .avg
  | 3 => .prod
  | 4 => .max
  | 5 => .min
  | _ => strays.reduceOp value

def toUuid (uuid : CcoipUuid) : Uuid := bigEndian uuid.val

-- One character for each byte, whatever the encoding of the key is.
def toKey (key : List Byte) : String := String.ofList (key.map fun byte => Char.ofNat byte.toNat)

def toHashEntry (entry : Wire.SharedStateHashEntry) : Packet.SharedStateHashEntry where
  key := toKey entry.key
  hash := entry.hash
  hashType := strays.toHashType entry.hashType
  dataSize := entry.dataSize.toNat
  dataType := strays.toDataType entry.dataType
  allowContentInequality := entry.allowContentInequality

def toC2MPacket : ClientPacket → C2MPacket
  | .requestSessionRegistration packet => .requestSessionRegistration packet.p2pListenPort
      packet.sharedStateListenPort packet.bandwidthBenchmarkListenPort packet.peerGroup.toNat
  | .requestEstablishP2PConnections packet => .requestEstablishP2PConnections packet.acceptNewPeers
  | .p2pConnectionsEstablished packet =>
      .p2pConnectionsEstablished packet.success (packet.failedPeers.map toUuid)
  | .checkPeersPending _ => .checkPeersPending
  | .optimizeTopology _ => .optimizeTopology
  | .reportPeerBandwidth packet =>
      .reportPeerBandwidth (toUuid packet.toPeerUuid) packet.bandwidthMbitsPerSecond
  | .optimizeTopologyWorkComplete _ => .optimizeTopologyWorkComplete
  | .syncSharedState packet => .syncSharedState packet.sharedStateRevision
      (strays.toSyncStrategy packet.sharedStateSyncStrategy)
      (packet.sharedStateHashes.map strays.toHashEntry)
  | .distSharedStateComplete _ => .distSharedStateComplete
  | .collectiveCommsInitiate packet => .collectiveCommsInitiate packet.tag
      (strays.toDataType packet.dataType) packet.count.toNat (strays.toReduceOp packet.op)
  | .collectiveCommsComplete packet => .collectiveCommsComplete packet.tag packet.wasAborted

end Strays

inductive Ending where
  | exit (exit : Exit)
  | outOfRange

def onClientRead (environment : Environment) (strays : Strays) (address : SocketAddress)
    (data : List Byte) (master : MasterState) : Except Ending MasterState :=
  match Wire.read 2 data with
  | none => .error .outOfRange
  | some (packetType, rest) =>
    match ClientPacket.reader packetType.toNat with
    | none => finish (kickClient address)
    | some reader =>
      match reader rest with
      | none => .error .outOfRange
      | some (packet, _) => finish (Master.onClientRead environment address (strays.toC2MPacket packet))
where
  finish (handler : MasterM Unit) : Except Ending MasterState :=
    match handler master with
    | .ok (_, next) => .ok next
    | .error exit => .error (.exit exit)

def IsEncoding (encoded : List Byte) : Prop :=
  ∃ packetType payload reader packet, Wire.read 2 encoded = some (packetType, payload) ∧
    ClientPacket.reader packetType.toNat = some reader ∧ reader payload = some (packet, [])

/-- No exception leaves `onClientRead`, and what is no packet gets its sender kicked and changes
nothing. -/
def Contained (environment : Environment) (strays : Strays) (master : MasterState)
    (address : SocketAddress) (data : List Byte) : Prop :=
  onClientRead environment strays address data master ≠ .error .outOfRange ∧
    ((∀ encoded, encoded <+: data → ¬ IsEncoding encoded) →
      onClientRead environment strays address data master =
        .ok { master with kicked := master.kicked ++ [address] })

/-- There is a number, and where it is that of a packet type there is a packet of it. -/
def Legible (data : List Byte) : Prop :=
  ∃ packetType rest, Wire.read 2 data = some (packetType, rest) ∧
    (ClientPacket.reader packetType.toNat = none ∨ ∃ encoded, encoded <+: data ∧ IsEncoding encoded)

theorem encoding_iff {data rest : List Byte} {packetType : BitVec 16} {reader : Reader Byte ClientPacket}
    (number : Wire.read 2 data = some (packetType, rest))
    (known : ClientPacket.reader packetType.toNat = some reader) :
    (∃ encoded, encoded <+: data ∧ IsEncoding encoded) ↔
      ∃ packet behind, reader rest = some (packet, behind) := by
  obtain ⟨two, rfl, reads⟩ := local_read 2 _ _ _ number
  rw [(ClientPacket.local_reader known).succeeds_iff]
  constructor
  · rintro ⟨encoded, front, type, payload, other, packet, first, selected, read⟩
    obtain ⟨same, rfl, again⟩ := local_read 2 _ _ _ first
    obtain ⟨more, split⟩ := front
    rw [List.append_assoc] at split
    have twice := (again (payload ++ more)).symm.trans ((congrArg _ split).trans (reads rest))
    cases twice
    cases known.symm.trans selected
    exact ⟨payload, List.prefix_append _ _, packet, read⟩
  · rintro ⟨taken, ⟨more, rfl⟩, packet, read⟩
    refine ⟨two ++ taken, ⟨more, List.append_assoc _ _ _⟩, ?_⟩
    exact ⟨packetType, taken, reader, packet, reads taken, known, read⟩

section Containment

variable (environment : Environment) (strays : Strays) (master : MasterState) (address : SocketAddress)

theorem onClientRead_cases (data : List Byte) :
    (Legible data ∧ ((∃ encoded, encoded <+: data ∧ IsEncoding encoded) ∧
        onClientRead environment strays address data master ≠ .error .outOfRange ∨
      onClientRead environment strays address data master =
        .ok { master with kicked := master.kicked ++ [address] })) ∨
      ¬ Legible data ∧ onClientRead environment strays address data master = .error .outOfRange := by
  unfold onClientRead
  cases number : Wire.read 2 data with
  | none =>
    refine .inr ⟨?_, rfl⟩
    rintro ⟨packetType, rest, read, _⟩
    cases number.symm.trans read
  | some result =>
    obtain ⟨packetType, rest⟩ := result
    dsimp only
    cases known : ClientPacket.reader packetType.toNat with
    | none => exact .inl ⟨⟨packetType, rest, number, .inl known⟩, .inr rfl⟩
    | some reader =>
      have complete := encoding_iff number known
      dsimp only
      cases read : reader rest with
      | none =>
        refine .inr ⟨?_, rfl⟩
        rintro ⟨again, left, same, unknown | encoded⟩
        · cases number.symm.trans same
          cases known.symm.trans unknown
        · obtain ⟨packet, behind, found⟩ := complete.mp encoded
          cases read.symm.trans found
      | some result =>
        obtain ⟨packet, behind⟩ := result
        have encoded := complete.mpr ⟨packet, behind, read⟩
        refine .inl ⟨⟨packetType, rest, number, .inr encoded⟩, .inl ⟨encoded, ?_⟩⟩
        dsimp only [onClientRead.finish]
        split <;> exact nofun

theorem malformed_contained_iff (data : List Byte) :
    Contained environment strays master address data ↔ Legible data := by
  rcases onClientRead_cases environment strays master address data with
    ⟨legible, ⟨complete, returns⟩ | kicks⟩ | ⟨illegible, throws⟩
  · refine iff_of_true ⟨returns, fun incomplete => ?_⟩ legible
    obtain ⟨encoded, front, encoding⟩ := complete
    exact absurd encoding (incomplete encoded front)
  · refine iff_of_true ⟨?_, fun _ => kicks⟩ legible
    rw [kicks]
    exact nofun
  · exact iff_of_false (fun contained => contained.1 throws) illegible

end Containment

namespace Sample

def strays : Strays := ⟨fun _ => .simple, fun _ => .enforcePopular, fun _ => .uint8, fun _ => .sum⟩

end Sample

theorem truncated_vote_throws :
    ∃ master, run Master.Sample.environment Master.Sample.pair = .ok master ∧
      ¬ Contained Master.Sample.environment Sample.strays master (Master.Sample.address 0) [] ∧
      ¬ Contained Master.Sample.environment Sample.strays master (Master.Sample.address 0) [0, 2] := by
  have serves : (run Master.Sample.environment Master.Sample.pair).passes (fun _ => true) = true := by cbv
  obtain ⟨master, reached, _⟩ := Server.exists_of_passes serves
  exact ⟨master, reached, fun contained => contained.1 rfl, fun contained => contained.1 rfl⟩

end Pccl.Server
