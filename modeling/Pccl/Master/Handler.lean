import Pccl.Master.SharedState
import Pccl.Shared.Machine

set_option autoImplicit false

namespace Pccl.Master

open Packet Program

namespace MasterState

variable (master : MasterState)

def neighbours (ring : List Uuid) (uuid : Uuid) : List ClientInfo :=
  -- The neighbours in the ring; a peer that is missing leaves the list empty.
  if ring.length ≤ 1 then []
  else
    -- A client that is not in the ring is given the neighbours of the first one.
    let index := (ring.idxOf? uuid).getD 0
    let previous := if index = 0 then ring.length - 1 else index - 1
    let next := if index = ring.length - 1 then 0 else index + 1
    match master.getClientInfo (ring.getD previous 0), master.getClientInfo (ring.getD next 0) with
    | some before, some after => if next = previous then [before] else [before, after]
    | _, _ => []

end MasterState

def getPeersForClient (info : ClientInfo) (includeRegistered : Bool) : MasterM (List ClientInfo) := do
  let ring ← getRingTopology info.peerGroup includeRegistered
  let master ← get
  let peers := master.neighbours ring info.clientUuid
  let plan : Plan :=
    ⟨info.clientUuid, info.peerGroup, ring, peers.map ClientInfo.clientUuid,
      master.connecting info.peerGroup⟩
  set { master with plans := master.plans ++ [plan] }
  return peers

def sendP2PConnectionInformationTo (info : ClientInfo) (includeRegistered : Bool) : MasterM Unit := do
  -- The peers are only listed if they differ from those of the last packet.
  let master ← get
  let peers ← getPeersForClient info includeRegistered
  let previous := master.previousP2PConnectionInfo info.clientUuid
  let changed := previous.length ≠ peers.length || peers.any fun peer => peer.clientUuid ∉ previous
  modify fun master =>
    { master with
      previousP2PConnectionInfo := Function.update master.previousP2PConnectionInfo info.clientUuid
        (peers.map ClientInfo.clientUuid) }
  sendPacket info.clientUuid info.socketAddress
    (.p2pConnectionInfo
      { unchanged := !changed
        globalWorldSize := master.getGlobalWorldSize
        localWorldSize := master.getLocalWorldSize info.peerGroup includeRegistered
        numDistinctPeerGroups := master.getNumDistinctPeerGroups includeRegistered
        largestPeerGroupWorldSize := master.getLargestPeerGroupWorldSize includeRegistered
        allPeers :=
          if changed then
            peers.map fun peer =>
              ⟨⟨peer.socketAddress.inet, peer.variablePorts.p2pListenPort⟩, peer.clientUuid⟩
          else [] })

def sendP2PConnectionInformation (includeRegistered : Bool) : MasterM Unit :=
  forEachClient fun _ _ info =>
    when (info.connectionState = .connectingToPeers)
      (sendP2PConnectionInformationTo info includeRegistered)

def startEstablishment (acceptNewPeers : Bool) : MasterM Unit := do
  -- A new round forgets that a peer has left during the one before.
  modify fun master => { master with peerDropped := false }
  transitionToP2PEstablishmentPhase acceptNewPeers
  sendP2PConnectionInformation acceptNewPeers

def checkEstablishP2PConnectionConsensus : MasterM Unit := do
  let master ← get
  when master.acceptNewPeersConsensus (startEstablishment true)
  let master ← get
  when master.noAcceptNewPeersEstablishP2PConnectionsConsensus (startEstablishment false)

def sendP2PConnectionsEstablished (anyFailed : Bool) : MasterM Unit :=
  forEachClient fun uuid address info =>
    when (¬ info.waitsOutside) do
      let master ← get
      let ring ← getRingTopology info.peerGroup false
      sendPacket uuid address
        (.p2pConnectionsEstablished (!master.peerDropped && !anyFailed) ring)

def checkP2PConnectionsEstablished : MasterM Bool := do
  -- `false` if no client waits for the end of a round.
  let anyWaiting ← anyClient fun info =>
    info.connectionState = .waitingForOtherPeers || info.connectionState = .connectingToPeersFailed
  if anyWaiting then
    let master ← get
    when master.p2pConnectionsEstablishConsensus do
      let anyFailed ← anyClient fun info => info.connectionState = .connectingToPeersFailed
      let ended ← transitionToP2PConnectionsEstablishedPhase (anyFailed || master.peerDropped)
      if ended then
        sendP2PConnectionsEstablished anyFailed
        modify fun master => { master with peerDropped := false }
      else
        logBug .p2pConnectionsEstablishedPhase
    return true
  else
    return false

def checkQueryPeersPendingConsensus : MasterM Unit := do
  let master ← get
  when master.queryPendingPeersConsensus do
    forEachClient fun uuid address info =>
      when (info.connectionPhase = .accepted)
        (sendPacket uuid address (.peersPendingResponse master.hasPendingPeers))
    resetVoteQueryPendingPeers

def benchmarkRequests (uuid : Uuid) : List (Uuid × Uuid) → MasterM (List BenchmarkRequest)
  | [] => return []
  | (source, destination) :: rest => do
    if source = uuid then
      match (← get).getClientInfo destination with
      | none => logBug .benchmarkPeerNotFound
      | some info =>
        let requests ← benchmarkRequests uuid rest
        return if info.connectionPhase = .accepted then
          ⟨source, destination,
            ⟨info.socketAddress.inet, info.variablePorts.bandwidthBenchmarkListenPort⟩⟩ :: requests
        else requests
    else
      benchmarkRequests uuid rest

def checkTopologyOptimizationConsensus : MasterM Unit := do
  let master ← get
  when master.optimizeTopologyConsensus do
    let entered ← transitionToTopologyOptimizationPhase
    if entered then
      forEachClient fun uuid address info =>
        when (info.connectionPhase = .accepted) do
          let master ← get
          let requests ← benchmarkRequests uuid (master.getMissingBandwidthEntries uuid)
          sendPacket uuid address (.optimizeTopologyResponse requests)
    else
      logBug .topologyOptimizationPhase

def optimizeGroups (environment : Environment) (groups : List Group) : MasterM Unit :=
  forEach groups fun group => do
    let master ← get
    when (¬ master.topology.topologyIsOptimal group) (performTopologyOptimization environment group)

def checkTopologyOptimizationCompletionConsensus (environment : Environment) : MasterM Unit := do
  let master ← get
  when master.topologyOptimizationCompleteConsensus do
    modify MasterState.markMissingUnreachable
    let ended ← endTopologyOptimizationPhase false
    if ended then
      optimizeGroups environment master.getExistingPeerGroups
      forEachClient fun uuid address info =>
        when (info.connectionPhase = .accepted)
          (sendPacket uuid address (.optimizeTopologyComplete true []))
    else
      logBug .endTopologyOptimizationPhase

def findBestSharedStateTxPeer (group : Group) : MasterM (Option SocketAddress) := do
  -- The first client of the group that distributes.
  let master ← get
  let rec scan : List (Uuid × SocketAddress) → MasterM (Option SocketAddress)
    | [] => return none
    | (uuid, address) :: rest =>
      match master.getClientInfo uuid with
      | none => logBug .clientNotFound
      | some info =>
        if info.takesPart group ∧ info.connectionState = .distributeSharedState then
          return some ⟨address.inet, info.variablePorts.sharedDistStateListenPort⟩
        else scan rest
  scan master.getClientEntrySet

def expectedHashTypes (hashTypes : Table String HashType) : List String → Option (List HashType)
  -- The hash types that go with the keys; a key with a hash has one.
  | [] => some []
  | key :: keys =>
    match hashTypes.lookup key, expectedHashTypes hashTypes keys with
    | some hashType, some rest => some (hashType :: rest)
    | _, _ => none

def unspecifiedAddress : SocketAddress := ⟨.ipv4 0, 0⟩

def sendSyncSharedState (group : Group) (uuid : Uuid) (address : SocketAddress) (info : ClientInfo) :
    MasterM Unit := do
  if info.connectionState = .requestSharedState then
    match ← findBestSharedStateTxPeer group with
    | none => sendPacket uuid address (.syncSharedState true unspecifiedAddress [] [] [])
    | some distributor =>
      let round := (← get).sharedState group
      let keys := round.dirtyKeys uuid
      match expectedHashTypes round.hashTypes keys with
      | none => logBug .hashTypeMissing
      | some hashTypes =>
        sendPacket uuid address
          (.syncSharedState true distributor keys
            (keys.map fun key => (round.hashes.lookup key).getD 0) hashTypes)
  else if info.connectionState = .distributeSharedState then
    sendPacket uuid address (.syncSharedState false unspecifiedAddress [] [] [])
  else
    logBug .sharedStateSyncState

def kickKeySetMismatch (group : Group) : MasterM Bool := do
  let master ← get
  let rec scan : List (Uuid × SocketAddress) → MasterM Bool
    | [] => return false
    | (uuid, address) :: rest =>
      match master.getClientInfo uuid with
      | none => logBug .clientNotFound
      | some info =>
        if info.takesPart group then
          match master.getSharedStateMismatchStatus uuid with
          | none => logBug .mismatchStatusMissing
          | some .keySetMismatch => do
            kickClient address
            return true
          | some _ => scan rest
        else scan rest
  scan master.getClientEntrySet

def kickStrategyViolations (group : Group) : MasterM Unit := do
  -- Whoever only sends but would have to receive is kicked, and then everybody whose strategy is
  -- not to enforce the popular content, if there is anybody whose strategy that is.
  let master ← get
  forEachClient fun uuid address info =>
    when (info.takesPart group ∧ info.connectionState = .requestSharedState ∧
        master.getSharedStateSyncStrategy uuid = some .txOnly)
      (kickClient address)
  let declared := (master.infos.filter (ClientInfo.takesPart group)).map fun info =>
    master.getSharedStateSyncStrategy info.clientUuid
  when (declared.any (· = some .enforcePopular) ∧ declared.any (· ≠ some .enforcePopular)) do
    forEachClient fun uuid address info =>
      when (info.takesPart group ∧
          master.getSharedStateSyncStrategy uuid ≠ some .enforcePopular)
        (kickClient address)

def enterSharedStateSync (group : Group) : MasterM Unit := do
  let entered ← transitionToSharedStateSyncPhase group
  if entered then
    kickStrategyViolations group
    forEachClient fun uuid address info =>
      when (info.takesPart group) (sendSyncSharedState group uuid address info)
  else
    logBug .sharedStateSyncPhase

def checkSyncSharedStateConsensus (environment : Environment) (group : Group) : MasterM Bool := do
  -- `false` if nobody waits, nobody stands for election or the elected list is empty.
  let anyWaiting ← anyClient fun info =>
    info.takesPart group && info.connectionState = .voteSyncSharedState
  if anyWaiting then
    let unanimous ← syncSharedStateConsensus group
    if unanimous then
      let elected ← electSharedStateMask environment group
      if elected then
        let compared ← checkMaskSharedStateMismatches group
        if compared then
          let kicked ← kickKeySetMismatch group
          when (¬ kicked) (enterSharedStateSync group)
          return true
        else
          return false
      else
        return false
    else
      return true
  else
    return false

def checkSyncSharedStateCompleteConsensus (group : Group) : MasterM Unit := do
  let unanimous ← syncSharedStateCompleteConsensus group
  when unanimous do
    let ended ← endSharedStateSyncPhase group
    if ended then
      forEachClient fun uuid address info =>
        when (info.takesPart group) do
          if info.connectionState = .idle then sendPacket uuid address .syncSharedStateComplete
          else logBug .endSharedStateSyncState
    else
      logBug .endSharedStateSyncPhase

def getNextCollectiveOpSeqNr : MasterM Nat := do
  let master ← get
  set { master with
    collective := { master.collective with
      sequenceNumber := master.collective.sequenceNumber + 1 } }
  return master.collective.sequenceNumber

def checkCollectiveCommsInitiateConsensus (group : Group) (tag : Tag) : MasterM Unit := do
  let master ← get
  when (master.collectiveCommsInitiateConsensus group tag) do
    let entered ← transitionToPerformCollectiveCommsPhase group tag
    if entered then
      let seqNr ← getNextCollectiveOpSeqNr
      forEachClient fun uuid address info =>
        when (info.takesPart group) do
          if info.connectionState = .collectiveCommunicationsRunning then
            sendPacket uuid address (.collectiveCommsCommence tag (BitVec.ofNat 64 seqNr))
          else
            logBug .performCollectiveCommsState
    else
      logBug .performCollectiveCommsPhase

def sendCollectiveCommsAbortPackets (group : Group) (tag : Tag) (aborted : Bool) : MasterM Unit :=
  forEachClient fun uuid address info =>
    when (info.takesPart group ∧ info.connectionState = .collectiveCommunicationsRunning)
      (sendPacket uuid address (.collectiveCommsAbort tag aborted))

def checkCollectiveCommsCompleteConsensus (group : Group) (tag : Tag) : MasterM Unit := do
  -- Every operation has one abort packet for each of its clients: an operation that was not
  -- aborted says so when it is complete.
  let master ← get
  when (master.collectiveCommsCompleteConsensus group tag) do
    when (¬ master.isCollectiveCommsOperationAborted group tag)
      (sendCollectiveCommsAbortPackets group tag false)
    let ended ← transitionToCollectiveCommsCompletePhase group tag
    if ended then
      forEachClient fun uuid address info =>
        when (info.takesPart group) do
          if info.connectionState = .idle ∨
              info.connectionState = .collectiveCommunicationsRunning then
            sendPacket uuid address (.collectiveCommsComplete tag)
            modify fun master =>
              master.adjustInfo uuid fun info =>
                { info with collectiveComsStates := info.collectiveComsStates.erase tag }
          else
            logBug .collectiveCommsCompleteState
    else
      logBug .collectiveCommsCompletePhase

section Handlers

variable (environment : Environment) (address : SocketAddress)

def withClient (body : Uuid → MasterM Unit) : MasterM Unit := do
  -- A packet of an address that is not registered gets its sender kicked.
  let master ← get
  match master.findClientUUID address with
  | none => kickClient address
  | some uuid => body uuid

theorem withClient_eq (body : Uuid → MasterM Unit) (master : MasterState) :
    withClient address body master =
      (master.findClientUUID address).elim (kickClient address) body master := by
  rw [withClient, Program.get_bind]
  cases master.findClientUUID address <;> rfl

def kickUnless (counted : Bool) (body : MasterM Unit) : MasterM Unit :=
  -- A vote that is refused gets its sender kicked.
  if counted then body else kickClient address

def handleRequestSessionJoin (ports : ClientVariablePorts) (group : Group) : MasterM Unit := do
  let master ← get
  if master.isClientRegistered address then kickClient address
  else
    let uuid := environment.generateUuid master.generatedUuids
    set { master with generatedUuids := master.generatedUuids + 1 }
    let accepted ← registerClient address ports group uuid
    sendPacket uuid address (.sessionRegistrationResponse accepted uuid)
    let master ← get
    if master.clients.clientUuids.size = 1 then sendP2PConnectionInformation true
    else checkEstablishP2PConnectionConsensus

def handleEstablishP2PConnections (acceptNewPeers : Bool) : MasterM Unit :=
  withClient address fun uuid => do
    let counted ← voteEstablishP2PConnections uuid acceptNewPeers
    kickUnless address counted checkEstablishP2PConnectionConsensus

def handleP2PConnectionsEstablished (success : Bool) (failedPeers : List Uuid) : MasterM Unit :=
  withClient address fun uuid => do
    let counted ← markP2PConnectionsEstablished uuid success failedPeers
    kickUnless address counted do
      let waiting ← checkP2PConnectionsEstablished
      when (¬ waiting) (logBug .p2pConnectionsEstablishedCheck)

def handleCheckPeersPending : MasterM Unit :=
  withClient address fun uuid => do
    let counted ← voteQueryWaitingPeersPending uuid
    kickUnless address counted checkQueryPeersPendingConsensus

def handleOptimizeTopology : MasterM Unit :=
  withClient address fun uuid => do
    let counted ← voteOptimizeTopology uuid
    kickUnless address counted checkTopologyOptimizationConsensus

def handleReportPeerBandwidth (toPeer : Uuid) (bandwidth : Bandwidth) : MasterM Unit :=
  withClient address fun uuid => storePeerBandwidth uuid toPeer bandwidth

def handleOptimizeTopologyWorkComplete : MasterM Unit :=
  withClient address fun uuid => do
    let counted ← voteTopologyOptimizationComplete uuid
    kickUnless address counted (checkTopologyOptimizationCompletionConsensus environment)

def kickGroup (group : Group) : MasterM Unit :=
  forEachClient fun _ address info => when (info.takesPart group) (kickClient address)

def handleSyncSharedState (revision : BitVec 64) (strategy : SyncStrategy)
    (hashes : List SharedStateHashEntry) : MasterM Unit :=
  withClient address fun uuid => do
    match (← get).getClientInfo uuid with
    | none => pure ()
    | some info =>
      let status ← isNewRevisionLegal uuid revision
      if status = .revisionIncrementViolation ∨ status = .keySetMismatch then kickClient address
      else
        let counted ← voteSyncSharedState uuid strategy
        kickUnless address counted do
          voteSharedStateMask uuid hashes
          let resolved ← checkSyncSharedStateConsensus environment info.peerGroup
          when (¬ resolved) (kickGroup info.peerGroup)

def withGroup (uuid : Uuid) (body : Group → MasterM Unit) : MasterM Unit := do
  match (← get).getClientInfo uuid with
  | none => pure ()
  | some info => body info.peerGroup

def handleSyncSharedStateComplete : MasterM Unit :=
  withClient address fun uuid => do
    let counted ← voteDistSharedStateComplete uuid
    kickUnless address counted (withGroup uuid checkSyncSharedStateCompleteConsensus)

def handleCollectiveCommsInitiate (tag : Tag) : MasterM Unit :=
  withClient address fun uuid => do
    let counted ← voteCollectiveCommsInitiate uuid tag
    kickUnless address counted
      (withGroup uuid fun group => checkCollectiveCommsInitiateConsensus group tag)

def abortOperation (group : Group) (tag : Tag) : MasterM Unit := do
  -- The first to report an abort has everybody notified.
  let first ← abortCollectiveCommsOperation group tag
  when first (sendCollectiveCommsAbortPackets group tag true)

def handleCollectiveCommsComplete (tag : Tag) (wasAborted : Bool) : MasterM Unit :=
  withClient address fun uuid => do
    let counted ← voteCollectiveCommsComplete uuid tag
    kickUnless address counted
      (withGroup uuid fun group => do
        when wasAborted (abortOperation group tag)
        checkCollectiveCommsCompleteConsensus group tag)

def recheckOperation (group : Group) (tag : Tag) : MasterM Unit := do
  checkCollectiveCommsInitiateConsensus group tag
  checkCollectiveCommsCompleteConsensus group tag
  let master ← get
  when (master.isCollectiveOperationRunning group tag) (abortOperation group tag)

def recheckVotes (group : Group) : MasterM Unit := do
  checkEstablishP2PConnectionConsensus
  modify fun master => { master with peerDropped := true }
  let _ ← checkP2PConnectionsEstablished
  checkQueryPeersPendingConsensus
  let _ ← checkSyncSharedStateConsensus environment group
  checkSyncSharedStateCompleteConsensus group
  let master ← get
  forEach (master.getOngoingCollectiveCommsOpTags group) (recheckOperation group)

def onClientDisconnect : MasterM Unit := do
  let master ← get
  match master.findClientUUID address with
  | none => pure ()
  | some uuid =>
    match master.getClientInfo uuid with
    | none => logBug .clientNotFound
    | some info =>
      let removed ← unregisterClient address
      when removed (recheckVotes environment info.peerGroup)

def onClientRead (packet : C2MPacket) : MasterM Unit :=
  match packet with
  | .requestSessionRegistration p2p sharedState benchmark group =>
    handleRequestSessionJoin environment address ⟨p2p, sharedState, benchmark⟩ group
  | .requestEstablishP2PConnections acceptNewPeers =>
    handleEstablishP2PConnections address acceptNewPeers
  | .p2pConnectionsEstablished success failedPeers =>
    handleP2PConnectionsEstablished address success failedPeers
  | .checkPeersPending => handleCheckPeersPending address
  | .optimizeTopology => handleOptimizeTopology address
  | .reportPeerBandwidth toPeer bandwidth => handleReportPeerBandwidth address toPeer bandwidth
  | .optimizeTopologyWorkComplete => handleOptimizeTopologyWorkComplete environment address
  | .syncSharedState revision strategy hashes =>
    handleSyncSharedState environment address revision strategy hashes
  | .distSharedStateComplete => handleSyncSharedStateComplete address
  | .collectiveCommsInitiate tag _ _ _ => handleCollectiveCommsInitiate address tag
  | .collectiveCommsComplete tag wasAborted => handleCollectiveCommsComplete address tag wasAborted

end Handlers

/-- A packet that has been read, a connection that is closed, or a step of a background task. -/
inductive Event where
  | read (address : SocketAddress) (packet : C2MPacket)
  | disconnect (address : SocketAddress)
  | background (group : Group)
deriving DecidableEq, Repr

section Run

variable (environment : Environment)

def handle : Event → MasterM Unit
  | .read address packet => onClientRead environment address packet
  | .disconnect address => onClientDisconnect environment address
  | .background group => stepTask environment group

abbrev Server := Except Exit MasterState

def serve (event : Event) (server : Server) : Server := do
  let master ← server
  let (_, next) ← handle environment event master
  return next

def run (events : List Event) : Server :=
  Machine.run (serve environment) events (.ok MasterState.initial)

end Run

end Pccl.Master
