import Pccl.Packet.Messages
import Pccl.Shared.Program
import Pccl.Shared.Table

set_option autoImplicit false

/-!
`CCoIPMasterState` and the fields of `CCoIPMasterHandler`, grouped by what they are about. A map that
the source only reads through `operator[]`, or whose absent entries read as a default, is a function.
Whatever the source logs as a bug ends the process.
-/

namespace Pccl.Master

open Packet

abbrev Group := Nat

inductive ConnectionPhase where
  | registered | accepted
deriving DecidableEq, Repr

inductive ConnectionState where
  | idle
  | voteAcceptNewPeers
  | voteNoNewPeersEstablishP2PConnections
  | connectingToPeers
  | connectingToPeersFailed
  | waitingForOtherPeers
  | voteOptimizeTopology
  | optimizeTopology
  | optimizeTopologyFailed
  | voteCompleteTopologyOptimization
  | voteSyncSharedState
  | distributeSharedState
  | requestSharedState
  | voteCompleteSharedStateSync
  | collectiveCommunicationsRunning
deriving DecidableEq, Repr

inductive CollectiveCommunicationState where
  | voteInitiate | perform | voteComplete
deriving DecidableEq, Repr

structure ClientVariablePorts where
  p2pListenPort : BitVec 16
  sharedDistStateListenPort : BitVec 16
  bandwidthBenchmarkListenPort : BitVec 16
deriving DecidableEq, Repr

structure ClientInfo where
  clientUuid : Uuid
  connectionPhase : ConnectionPhase
  connectionState : ConnectionState
  voteQueryPendingPeers : Bool
  collectiveComsStates : Table Tag CollectiveCommunicationState
  socketAddress : SocketAddress
  variablePorts : ClientVariablePorts
  peerGroup : Group

inductive SharedStateMismatchStatus where
  | successfulMatch
  | keySetMismatch
  | contentHashMismatch
  | revisionOutdated
  | revisionIncrementViolation
deriving DecidableEq, Repr

structure BandwidthPeer where
  address : InetAddress
  group : Group
deriving DecidableEq, Repr

structure BandwidthStore where
  registeredPeers : Table Uuid BandwidthPeer
  bandwidthMap : InetAddress → InetAddress → Option Bandwidth

structure Clients where
  clientUuids : Table SocketAddress Uuid
  uuidClients : Table Uuid SocketAddress
  clientInfo : Table Uuid ClientInfo

structure Votes where
  acceptNewPeers : Finset Uuid
  establishP2PConnections : Finset Uuid
  optimizeTopology : Finset Uuid
  completeTopologyOptimization : Finset Uuid
  syncSharedState : Group → Finset Uuid
  syncSharedStateComplete : Group → Finset Uuid
  sharedStateSyncStrategies : Table Uuid SyncStrategy

structure SharedStateRound where
  mask : List SharedStateHashEntry
  maskCandidates : List (Uuid × List SharedStateHashEntry)
  entries : List (Uuid × List SharedStateHashEntry)
  hashes : Table String (BitVec 64)
  hashTypes : Table String HashType
  statuses : Table Uuid SharedStateMismatchStatus
  dirtyKeys : Uuid → List String

/-- The counter does not wrap here; the low 64 bits are what is sent. -/
structure Collective where
  sequenceNumber : Nat
  abortStates : Group → Tag → Bool

inductive SolutionType where
  | optimal | approximate | improved | noImprovement
deriving DecidableEq, Repr

/-- A task of the thread pool: waiting for a thread, with the solver at work on the ring it has read
(`none` once the solver fails), or done. -/
inductive OptimizationTask where
  | scheduled (moonshot : Bool)
  | solving (moonshot : Bool) (solution : Option (List Uuid × SolutionType))
  | finished
deriving DecidableEq, Repr

structure Topology where
  unreachabilityMap : Uuid → Finset Uuid
  bandwidthStore : BandwidthStore
  ringTopologies : Group → List Uuid
  topologyIsOptimal : Group → Bool
  optimizationTasks : Group → Option OptimizationTask
  solverCalls : Nat

/-- A packet to the client that has `peer` as its uuid and `address` as its address; `operations` is
how many operations had commenced when it was sent. -/
structure Sent where
  peer : Uuid
  address : SocketAddress
  packet : M2CPacket
  operations : Nat
deriving DecidableEq, Repr

/-- One call of `getPeersForClient`: the ring it has read, the peers it has returned and the clients
of the group that were connecting at the time. -/
structure Plan where
  client : Uuid
  group : Group
  ring : List Uuid
  peers : List Uuid
  connecting : List Uuid
deriving DecidableEq, Repr

/-- One list of a round as an election finds it: who has submitted it, whether that client is still
registered in the group, and what its strategy and its status are. -/
structure Voter where
  client : Uuid
  entries : List SharedStateHashEntry
  registered : Bool
  strategy : Option SyncStrategy
  status : Option SharedStateMismatchStatus
deriving DecidableEq, Repr

structure Election where
  group : Group
  voters : List Voter
  mask : List SharedStateHashEntry
deriving DecidableEq, Repr

structure MasterState where
  clients : Clients
  votes : Votes
  sharedState : Group → SharedStateRound
  nextSharedStateRevision : Group → BitVec 64
  collective : Collective
  topology : Topology
  peerDropped : Bool
  previousP2PConnectionInfo : Uuid → List Uuid
  generatedUuids : Nat
  sent : List Sent
  kicked : List SocketAddress
  plans : List Plan
  elections : List Election

/-- The places at which the master logs a bug, and the reads that are undefined. -/
inductive Bug where
  | firstClientConsensus
  | bandwidthPeerRegistered
  | uuidMappingInconsistent
  | clientInfoMappingInconsistent
  | votedToAcceptNewPeers
  | votedToEstablishP2PConnections
  | votedToOptimizeTopology
  | votedToCompleteTopologyOptimization
  | votedToSyncSharedState
  | declaredSyncStrategy
  | votedToCompleteSharedStateSync
  | queryVoteReset
  | ringAfterFailure
  | ringStillDirty
  | syncVoteMismatch
  | syncCompleteVoteMismatch
  | bandwidthNotStored
  | clientNotFound
  | benchmarkPeerNotFound
  | p2pConnectionsEstablishedPhase
  | p2pConnectionsEstablishedCheck
  | topologyOptimizationPhase
  | endTopologyOptimizationPhase
  | solverFailed
  | mismatchStatusMissing
  | sharedStateSyncPhase
  | sharedStateSyncState
  | hashTypeMissing
  | endSharedStateSyncPhase
  | endSharedStateSyncState
  | performCollectiveCommsPhase
  | performCollectiveCommsState
  | collectiveCommsCompletePhase
  | collectiveCommsCompleteState
  | undefinedRead
deriving DecidableEq, Repr

structure Exit where
  bug : Bug
  master : MasterState

abbrev MasterM := Program MasterState Exit

/-- What the master takes from outside: the uuids that are generated, which do not repeat, and the
answers of the TSP solver to the bandwidths and the ring of each call. -/
structure ElectionStats where
  numVotes : Nat
  priority : Int
deriving DecidableEq, Repr

structure Environment where
  generateUuid : Nat → Uuid
  distinct : Function.Injective generateUuid
  solve : Nat → BandwidthStore → List Uuid → Option (List Uuid × SolutionType)
  -- The order in which an election goes through its hash map of candidates.
  order : List (List SharedStateHashEntry × ElectionStats) → List (List SharedStateHashEntry × ElectionStats)
  permutes : ∀ stats, (order stats).Perm stats

def logBug {A : Type} (bug : Bug) : MasterM A := Program.stop fun master => ⟨bug, master⟩

def SharedStateRound.empty : SharedStateRound where
  mask := []
  maskCandidates := []
  entries := []
  hashes := ∅
  hashTypes := ∅
  statuses := ∅
  dirtyKeys _ := []

def MasterState.initial : MasterState where
  clients := ⟨∅, ∅, ∅⟩
  votes := ⟨∅, ∅, ∅, ∅, fun _ => ∅, fun _ => ∅, ∅⟩
  sharedState _ := .empty
  nextSharedStateRevision _ := 0
  collective := ⟨0, fun _ _ => false⟩
  topology := ⟨fun _ => ∅, ⟨∅, fun _ _ => none⟩, fun _ => [], fun _ => false, fun _ => none, 0⟩
  peerDropped := false
  previousP2PConnectionInfo _ := []
  generatedUuids := 0
  sent := []
  kicked := []
  plans := []
  elections := []

namespace MasterState

variable (master : MasterState)

def getClientInfo (uuid : Uuid) : Option ClientInfo := master.clients.clientInfo.lookup uuid

def findClientUUID (address : SocketAddress) : Option Uuid :=
  master.clients.clientUuids.lookup address

def isClientRegistered (address : SocketAddress) : Bool :=
  decide (address ∈ master.clients.clientUuids)

def infos : List ClientInfo := master.clients.clientInfo.values

def getClientEntrySet : List (Uuid × SocketAddress) :=
  master.clients.clientUuids.pairs.map Prod.swap

def uuidsWhere (condition : ClientInfo → Bool) : Finset Uuid :=
  ((master.infos.filter condition).map ClientInfo.clientUuid).toFinset

def connecting (group : Group) : List Uuid :=
  (master.infos.filter fun info =>
    info.peerGroup = group && info.connectionState = .connectingToPeers).map ClientInfo.clientUuid

def getGlobalWorldSize : Nat := master.clients.clientInfo.size

def counted (includeRegistered : Bool) : List ClientInfo :=
  master.infos.filter fun info => includeRegistered || info.connectionPhase = .accepted

def getLocalWorldSize (group : Group) (includeRegistered : Bool) : Nat :=
  (master.counted includeRegistered).countP fun info => info.peerGroup = group

def getNumDistinctPeerGroups (includeRegistered : Bool) : Nat :=
  ((master.counted includeRegistered).map ClientInfo.peerGroup).toFinset.card

def getLargestPeerGroupWorldSize (includeRegistered : Bool) : Nat :=
  ((master.counted includeRegistered).map fun info =>
    master.getLocalWorldSize info.peerGroup includeRegistered).foldl max 0

def getExistingPeerGroups : List Group := master.infos.map ClientInfo.peerGroup

def setClientInfo (clientInfo : Table Uuid ClientInfo) : MasterState :=
  { master with clients := { master.clients with clientInfo } }

def adjustInfo (uuid : Uuid) (change : ClientInfo → ClientInfo) : MasterState :=
  master.setClientInfo (master.clients.clientInfo.adjust uuid change)

def mapInfos (change : ClientInfo → ClientInfo) : MasterState :=
  master.setClientInfo (master.clients.clientInfo.mapValues change)

end MasterState

def ClientInfo.enter (state : ConnectionState) (info : ClientInfo) : ClientInfo :=
  { info with connectionState := state }

def sendPacket (peer : Uuid) (address : SocketAddress) (packet : M2CPacket) : MasterM Unit :=
  modify fun master =>
    { master with sent := master.sent ++ [⟨peer, address, packet, master.collective.sequenceNumber⟩] }

def kickClient (address : SocketAddress) : MasterM Unit :=
  -- The connection is closed; the disconnect is handled when the loop gets to it.
  modify fun master => { master with kicked := master.kicked ++ [address] }

def forEachClient (body : Uuid → SocketAddress → ClientInfo → MasterM Unit) : MasterM Unit := do
  -- A loop of the handler over all clients: each info is looked up when its turn comes.
  let master ← get
  Program.forEach master.getClientEntrySet fun (uuid, address) => do
    let master ← get
    match master.getClientInfo uuid with
    | none => logBug .clientNotFound
    | some info => body uuid address info

def anyClient (condition : ClientInfo → Bool) : MasterM Bool := do
  let master ← get
  let rec scan : List (Uuid × SocketAddress) → MasterM Bool
    | [] => pure false
    | (uuid, _) :: rest =>
      match master.getClientInfo uuid with
      | none => logBug .clientNotFound
      | some info => if condition info then pure true else scan rest
  scan master.getClientEntrySet

end Pccl.Master
