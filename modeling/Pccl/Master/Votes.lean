import Pccl.Master.Topology

set_option autoImplicit false

namespace Pccl.Master

open Packet

/-- The votes that move a client to a state of their own and record it in a set. -/
inductive Ballot where
  | acceptNewPeers
  | establishP2PConnections
  | optimizeTopology
  | completeTopologyOptimization
  | syncSharedState
  | syncSharedStateComplete
deriving DecidableEq, Repr

namespace Ballot

def cast : Ballot → ConnectionState
  | acceptNewPeers => .voteAcceptNewPeers
  | establishP2PConnections => .voteNoNewPeersEstablishP2PConnections
  | optimizeTopology => .voteOptimizeTopology
  | completeTopologyOptimization => .voteCompleteTopologyOptimization
  | syncSharedState => .voteSyncSharedState
  | syncSharedStateComplete => .voteCompleteSharedStateSync

def admits : Ballot → List ConnectionState
  | acceptNewPeers | establishP2PConnections => [.idle, .connectingToPeersFailed]
  | optimizeTopology => [.idle, .optimizeTopologyFailed]
  | completeTopologyOptimization => [.optimizeTopology]
  | syncSharedState => [.idle]
  | syncSharedStateComplete => [.distributeSharedState, .requestSharedState]

def duplicate : Ballot → Bug
  | acceptNewPeers => .votedToAcceptNewPeers
  | establishP2PConnections => .votedToEstablishP2PConnections
  | optimizeTopology => .votedToOptimizeTopology
  | completeTopologyOptimization => .votedToCompleteTopologyOptimization
  | syncSharedState => .votedToSyncSharedState
  | syncSharedStateComplete => .votedToCompleteSharedStateSync

end Ballot

namespace Votes

variable (votes : Votes)

def voters (group : Group) : Ballot → Finset Uuid
  | .acceptNewPeers => votes.acceptNewPeers
  | .establishP2PConnections => votes.establishP2PConnections
  | .optimizeTopology => votes.optimizeTopology
  | .completeTopologyOptimization => votes.completeTopologyOptimization
  | .syncSharedState => votes.syncSharedState group
  | .syncSharedStateComplete => votes.syncSharedStateComplete group

def setVoters (group : Group) (ballot : Ballot) (voters : Finset Uuid) : Votes :=
  match ballot with
  | .acceptNewPeers => { votes with acceptNewPeers := voters }
  | .establishP2PConnections => { votes with establishP2PConnections := voters }
  | .optimizeTopology => { votes with optimizeTopology := voters }
  | .completeTopologyOptimization => { votes with completeTopologyOptimization := voters }
  | .syncSharedState =>
    { votes with syncSharedState := Function.update votes.syncSharedState group voters }
  | .syncSharedStateComplete =>
    { votes with
      syncSharedStateComplete := Function.update votes.syncSharedStateComplete group voters }

def clear (group : Group) (ballot : Ballot) : Votes := votes.setVoters group ballot ∅

def forget (group : Group) (uuid : Uuid) : Votes where
  acceptNewPeers := votes.acceptNewPeers.erase uuid
  establishP2PConnections := votes.establishP2PConnections.erase uuid
  optimizeTopology := votes.optimizeTopology.erase uuid
  completeTopologyOptimization := votes.completeTopologyOptimization.erase uuid
  syncSharedState :=
    Function.update votes.syncSharedState group ((votes.syncSharedState group).erase uuid)
  syncSharedStateComplete :=
    Function.update votes.syncSharedStateComplete group
      ((votes.syncSharedStateComplete group).erase uuid)
  sharedStateSyncStrategies := votes.sharedStateSyncStrategies.erase uuid

end Votes

def vote (ballot : Ballot) (uuid : Uuid) : MasterM Bool := do
  -- The body that the `vote...` functions share; `false` means that the client is to be kicked.
  let master ← get
  match master.getClientInfo uuid with
  | none => return false
  | some info =>
    if info.connectionPhase = .accepted ∧ info.connectionState ∈ ballot.admits then
      let voters := master.votes.voters info.peerGroup ballot
      set (master.adjustInfo uuid (ClientInfo.enter ballot.cast))
      if info.clientUuid ∈ voters then logBug ballot.duplicate
      else
        modify fun master =>
          { master with
            votes := master.votes.setVoters info.peerGroup ballot (insert info.clientUuid voters) }
        return true
    else
      return false

def voteEstablishP2PConnections (uuid : Uuid) (acceptNewPeers : Bool) : MasterM Bool :=
  vote (if acceptNewPeers then .acceptNewPeers else .establishP2PConnections) uuid

def voteOptimizeTopology (uuid : Uuid) : MasterM Bool := vote .optimizeTopology uuid

def voteTopologyOptimizationComplete (uuid : Uuid) : MasterM Bool :=
  vote .completeTopologyOptimization uuid

def voteDistSharedStateComplete (uuid : Uuid) : MasterM Bool := vote .syncSharedStateComplete uuid

def voteSyncSharedState (uuid : Uuid) (strategy : SyncStrategy) : MasterM Bool := do
  let counted ← vote .syncSharedState uuid
  let master ← get
  if counted then
    if uuid ∈ master.votes.sharedStateSyncStrategies then logBug .declaredSyncStrategy
    else
      set { master with
        votes := { master.votes with
          sharedStateSyncStrategies := master.votes.sharedStateSyncStrategies.insert uuid strategy } }
      return true
  else
    return false

def voteQueryWaitingPeersPending (uuid : Uuid) : MasterM Bool := do
  let master ← get
  match master.getClientInfo uuid with
  | none => return false
  | some info =>
    if info.connectionPhase = .accepted ∧ info.voteQueryPendingPeers = false then
      set (master.adjustInfo uuid fun info => { info with voteQueryPendingPeers := true })
      return true
    else
      return false

def ClientInfo.setTag (tag : Tag) (state : CollectiveCommunicationState) (info : ClientInfo) :
    ClientInfo :=
  { info with collectiveComsStates := info.collectiveComsStates.insert tag state }

def voteCollectiveCommsInitiate (uuid : Uuid) (tag : Tag) : MasterM Bool := do
  let master ← get
  match master.getClientInfo uuid with
  | none => return false
  | some info =>
    if info.connectionPhase = .accepted ∧
        (info.connectionState = .idle ∨ info.connectionState = .collectiveCommunicationsRunning) ∧
        tag ∉ info.collectiveComsStates then
      set (master.adjustInfo uuid fun info =>
        (info.setTag tag .voteInitiate).enter .collectiveCommunicationsRunning)
      return true
    else
      return false

def voteCollectiveCommsComplete (uuid : Uuid) (tag : Tag) : MasterM Bool := do
  let master ← get
  match master.getClientInfo uuid with
  | none => return false
  | some info =>
    if info.connectionPhase = .accepted ∧
        info.collectiveComsStates.lookup tag = some .perform then
      set (master.adjustInfo uuid (ClientInfo.setTag tag .voteComplete))
      return true
    else
      return false

namespace MasterState

variable (master : MasterState)

def refusesAddress (address : SocketAddress) : Bool :=
  !master.infos.isEmpty &&
    master.infos.all (fun info => info.socketAddress.isLocal) != address.isLocal

def ballotConsensus (ballot : Ballot) : Bool :=
  -- Clients that are not accepted yet cannot vote and are counted with those that have.
  (master.uuidsWhere fun info =>
    info.connectionState = ballot.cast || info.connectionPhase = .registered).card =
    master.clients.clientUuids.size

def acceptNewPeersConsensus : Bool := master.ballotConsensus .acceptNewPeers

def noAcceptNewPeersEstablishP2PConnectionsConsensus : Bool :=
  master.ballotConsensus .establishP2PConnections

def optimizeTopologyConsensus : Bool := master.ballotConsensus .optimizeTopology

def topologyOptimizationCompleteConsensus : Bool :=
  master.ballotConsensus .completeTopologyOptimization

def queryPendingPeersConsensus : Bool :=
  !master.infos.isEmpty &&
    master.infos.all fun info => info.connectionPhase ≠ .accepted || info.voteQueryPendingPeers

def hasPendingPeers : Bool :=
  master.infos.any fun info => info.connectionPhase = .registered

def collectiveConsensus (group : Group) (tag : Tag) (state : CollectiveCommunicationState) : Bool :=
  let members := master.infos.filter fun info =>
    info.connectionPhase = .accepted && info.peerGroup = group
  (members.countP fun info => info.collectiveComsStates.lookup tag = some state) = members.length

def collectiveCommsInitiateConsensus (group : Group) (tag : Tag) : Bool :=
  master.collectiveConsensus group tag .voteInitiate

def collectiveCommsCompleteConsensus (group : Group) (tag : Tag) : Bool :=
  master.collectiveConsensus group tag .voteComplete

def p2pConnectionsEstablishConsensus : Bool :=
  let voting := master.infos.countP fun info =>
    info.connectionState = .waitingForOtherPeers || info.connectionState = .connectingToPeersFailed
  let connecting := master.infos.countP fun info =>
    info.connectionState = .waitingForOtherPeers || info.connectionState = .connectingToPeers ||
      info.connectionState = .connectingToPeersFailed
  !(voting = 0 && connecting = 0) && voting = connecting

def isCollectiveCommsOperationAborted (group : Group) (tag : Tag) : Bool :=
  master.collective.abortStates group tag

def setAbortState (group : Group) (tag : Tag) (aborted : Bool) : MasterState :=
  { master with
    collective := { master.collective with
      abortStates := Function.update master.collective.abortStates group
        (Function.update (master.collective.abortStates group) tag aborted) } }

def isCollectiveOperationRunning (group : Group) (tag : Tag) : Bool :=
  master.infos.any fun info =>
    info.peerGroup = group && info.collectiveComsStates.lookup tag = some .perform

def getOngoingCollectiveCommsOpTags (group : Group) : List Tag :=
  ((master.infos.filter fun info => info.peerGroup = group).flatMap fun info =>
    info.collectiveComsStates.keys).dedup

end MasterState

def abortCollectiveCommsOperation (group : Group) (tag : Tag) : MasterM Bool := do
  -- `false` if the operation was aborted before.
  let master ← get
  if master.collective.abortStates group tag then return false
  else
    set (master.setAbortState group tag true)
    return true

def onPeerAccepted (info : ClientInfo) : MasterM Unit := do
  let master ← get
  match master.topology.bandwidthStore.registerPeer info.clientUuid info.socketAddress.inet
      info.peerGroup with
  | none => logBug .bandwidthPeerRegistered
  | some bandwidthStore => set (master.setTopology { master.topology with bandwidthStore })

def transitionToP2PEstablishmentPhase (acceptNewPeers : Bool) : MasterM Unit :=
  -- Without new peers only the accepted clients enter the phase.
  modify fun master =>
    let master :=
      master.mapInfos fun info =>
        if acceptNewPeers ∨ info.connectionPhase = .accepted then info.enter .connectingToPeers
        else info
    { master with
      votes := master.votes.clear 0
        (if acceptNewPeers then .acceptNewPeers else .establishP2PConnections) }

def acceptFirstClient (uuid : Uuid) (info : ClientInfo) : MasterM Bool := do
  -- The first client is accepted at once and starts an establishment round of its own.
  modify fun master => master.adjustInfo uuid fun info => { info with connectionPhase := .accepted }
  onPeerAccepted info
  let voted ← voteEstablishP2PConnections uuid true
  let master ← get
  if voted then
    if master.acceptNewPeersConsensus then
      transitionToP2PEstablishmentPhase true
      return true
    else
      logBug .firstClientConsensus
  else
    return false

def registerClient (address : SocketAddress) (ports : ClientVariablePorts) (group : Group)
    (uuid : Uuid) : MasterM Bool := do
  let master ← get
  if master.refusesAddress address ∨ master.isClientRegistered address then return false
  else
    let info : ClientInfo := ⟨uuid, .registered, .idle, false, ∅, address, ports, group⟩
    let clients : Clients :=
      ⟨master.clients.clientUuids.insert address uuid, master.clients.uuidClients.insert uuid address,
        master.clients.clientInfo.insert uuid info⟩
    set { master with clients }
    if clients.clientUuids.size = 1 then acceptFirstClient uuid info else return true

def forgetBandwidth (info : ClientInfo) (uuid : Uuid) : MasterM Unit :=
  -- A peer that the bandwidth store does not know is only reported.
  Program.when (info.connectionPhase = .accepted) do
    modify fun master =>
      master.setTopology
        { master.topology with
          bandwidthStore := (master.topology.bandwidthStore.unregisterPeer uuid).getD
            master.topology.bandwidthStore }

def unregisterClient (address : SocketAddress) : MasterM Bool := do
  let master ← get
  match master.findClientUUID address with
  | none => return false
  | some uuid =>
    if uuid ∈ master.clients.uuidClients then
      match master.getClientInfo uuid with
      | none => logBug .clientInfoMappingInconsistent
      | some info =>
        set { master with
          clients :=
            { clientUuids := master.clients.clientUuids.erase address
              uuidClients := master.clients.uuidClients.erase uuid
              clientInfo := master.clients.clientInfo.erase uuid }
          votes := master.votes.forget info.peerGroup uuid }
        forgetBandwidth info uuid
        return true
    else
      logBug .uuidMappingInconsistent

def registerAccepted (accepted : List ClientInfo) : MasterM Unit :=
  -- The bandwidth store learns of the newly accepted; the clients themselves are already updated.
  Program.forEach accepted onPeerAccepted

section Transitions

def ClientInfo.waitsOutside (info : ClientInfo) : Bool :=
  -- Clients that have registered since the round began are not part of it.
  info.connectionPhase = .registered && info.connectionState = .idle

def ClientInfo.endRound (failure : Bool) (info : ClientInfo) : Option ClientInfo :=
  -- What the end of an establishment round makes of a client; `none` where its state is not one
  -- in which a round can end. A client that has reported a failure itself keeps its phase.
  if info.waitsOutside then some info
  else if info.connectionState = .waitingForOtherPeers then
    some
      { info with
        connectionState := if failure then .connectingToPeersFailed else .idle
        connectionPhase := .accepted }
  else if failure ∧ info.connectionState = .connectingToPeersFailed then some info
  else none

def transitionToP2PConnectionsEstablishedPhase (failure : Bool) : MasterM Bool := do
  let master ← get
  match master.clients.clientInfo.updateAll (ClientInfo.endRound failure) with
  | none => return false
  | some clientInfo =>
    set (master.setClientInfo clientInfo)
    registerAccepted (master.infos.filter fun info =>
      info.connectionPhase = .registered && info.connectionState = .waitingForOtherPeers)
    return true

def ClientInfo.advance (source target : ConnectionState) (info : ClientInfo) : Option ClientInfo :=
  if info.connectionPhase ≠ .accepted then some info
  else if info.connectionState = source then some (info.enter target)
  else none

def transitionToTopologyOptimizationPhase : MasterM Bool := do
  let master ← get
  match master.clients.clientInfo.updateAll
      (ClientInfo.advance .voteOptimizeTopology .optimizeTopology) with
  | none => return false
  | some clientInfo =>
    set { master.setClientInfo clientInfo with votes := master.votes.clear 0 .optimizeTopology }
    return true

def endTopologyOptimizationPhase (failed : Bool) : MasterM Bool := do
  let master ← get
  match master.clients.clientInfo.updateAll
      (ClientInfo.advance .voteCompleteTopologyOptimization
        (if failed then .optimizeTopologyFailed else .idle)) with
  | none => return false
  | some clientInfo =>
    set { master.setClientInfo clientInfo with
      votes := master.votes.clear 0 .completeTopologyOptimization }
    return true

def ClientInfo.takesPart (group : Group) (info : ClientInfo) : Bool :=
  info.connectionPhase = .accepted && info.peerGroup = group

def MasterState.participants (master : MasterState) (group : Group) : List Uuid :=
  (master.infos.filter (ClientInfo.takesPart group)).map ClientInfo.clientUuid

def endSharedStateSyncPhase (group : Group) : MasterM Bool := do
  let master ← get
  match master.clients.clientInfo.updateAll fun info =>
      if info.takesPart group then info.advance .voteCompleteSharedStateSync .idle else some info with
  | none => return false
  | some clientInfo =>
    let votes := master.votes.clear group .syncSharedStateComplete
    set { master.setClientInfo clientInfo with
      sharedState := Function.update master.sharedState group .empty
      votes := { votes with
        sharedStateSyncStrategies :=
          (master.participants group).foldl (fun strategies uuid => strategies.erase uuid)
            votes.sharedStateSyncStrategies } }
    return true

def ClientInfo.moveTag (group : Group) (tag : Tag) (expected : CollectiveCommunicationState)
    (move : ClientInfo → ClientInfo) (info : ClientInfo) : Option ClientInfo :=
  if info.takesPart group then
    if info.connectionState = .collectiveCommunicationsRunning ∧
        info.collectiveComsStates.lookup tag = some expected then
      some (move info)
    else none
  else some info

def transitionToPerformCollectiveCommsPhase (group : Group) (tag : Tag) : MasterM Bool := do
  let master ← get
  match master.clients.clientInfo.updateAll
      (ClientInfo.moveTag group tag .voteInitiate (ClientInfo.setTag tag .perform)) with
  | none => return false
  | some clientInfo =>
    set (master.setClientInfo clientInfo)
    return true

def ClientInfo.eraseTag (tag : Tag) (info : ClientInfo) : ClientInfo :=
  -- The client is idle again once no operation is left.
  let collectiveComsStates := info.collectiveComsStates.erase tag
  { info with
    collectiveComsStates
    connectionState := if collectiveComsStates.entries.isEmpty then .idle else info.connectionState }

def transitionToCollectiveCommsCompletePhase (group : Group) (tag : Tag) : MasterM Bool := do
  let master ← get
  match master.clients.clientInfo.updateAll
      (ClientInfo.moveTag group tag .voteComplete (ClientInfo.eraseTag tag)) with
  | none => return false
  | some clientInfo =>
    set ((master.setClientInfo clientInfo).setAbortState group tag false)
    return true

def resetVoteQueryPendingPeers : MasterM Unit := do
  let master ← get
  match master.clients.clientInfo.updateAll fun info =>
      if info.connectionPhase ≠ .accepted then some info
      else if info.voteQueryPendingPeers then some { info with voteQueryPendingPeers := false }
      else none with
  | none => logBug .queryVoteReset
  | some clientInfo => set (master.setClientInfo clientInfo)

end Transitions

def MasterState.recordFailedPeers (master : MasterState) (uuid : Uuid) (failedPeers : List Uuid) :
    MasterState :=
  -- Only peers that are still registered are recorded as unreachable.
  master.addUnreachable uuid
    (failedPeers.filter fun peer => (master.getClientInfo peer).isSome).toFinset

def MasterState.reroute (master : MasterState) (uuid : Uuid) (info : ClientInfo) :
    Option (List Uuid) :=
  -- A failed connection changes the ring; `none` if there is no way around it and the client is
  -- to be kicked.
  if (master.topology.unreachabilityMap uuid).card = master.clients.clientInfo.size then none
  else master.buildReachableRingTopology info.peerGroup

def markP2PConnectionsEstablished (uuid : Uuid) (success : Bool) (failedPeers : List Uuid) :
    MasterM Bool := do
  let master ← get
  match master.getClientInfo uuid with
  | none => return false
  | some info =>
    if info.connectionState ≠ .connectingToPeers then return false
    else if success then
      set (master.adjustInfo uuid (ClientInfo.enter .waitingForOtherPeers))
      return true
    else
      let master := master.recordFailedPeers uuid failedPeers
      set master
      match master.reroute uuid info with
      | none => return false
      | some ring =>
        match master.setRingTopology info.peerGroup ring false with
        | none => logBug .ringAfterFailure
        | some master =>
          set (master.adjustInfo uuid (ClientInfo.enter .connectingToPeersFailed))
          return true

end Pccl.Master
