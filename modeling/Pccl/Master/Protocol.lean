import Pccl.Master.Handler

set_option autoImplicit false

/-!
What the handlers do to the clients and to their votes, and what they tell them about collective
operations and establishment rounds, as one list of atomic actions. The rest of the state only decides
which actions are taken.
-/

namespace Pccl.Master

open Packet

/-- What a client is told about the operation with a tag. Operations are numbered by how many have
commenced. -/
inductive Signal where
  | commence (operation : Nat)
  | abort (aborted : Bool)
  | complete
deriving DecidableEq, Repr

def signal? (tag : Tag) (operations : Nat) (packet : M2CPacket) : Option Signal :=
  match packet with
  | .collectiveCommsCommence other _ => if other = tag then some (.commence operations) else none
  | .collectiveCommsAbort other aborted => if other = tag then some (.abort aborted) else none
  | .collectiveCommsComplete other => if other = tag then some .complete else none
  | _ => none

def signals (sent : List Sent) (uuid : Uuid) (tag : Tag) : List Signal :=
  sent.filterMap fun entry => if entry.peer = uuid then signal? tag entry.operations entry.packet else none

inductive RoundSignal where
  | info
  | established (success : Bool)
deriving DecidableEq, Repr

def roundSignal? (packet : M2CPacket) : Option RoundSignal :=
  match packet with
  | .p2pConnectionInfo _ => some .info
  | .p2pConnectionsEstablished success _ => some (.established success)
  | _ => none

def roundSignals (sent : List Sent) (uuid : Uuid) : List RoundSignal :=
  sent.filterMap fun entry => if entry.peer = uuid then roundSignal? entry.packet else none

structure Core where
  clients : Clients
  votes : Votes
  collective : Collective
  peerDropped : Bool
  log : Uuid → Tag → List Signal
  rounds : Uuid → List RoundSignal
  generated : Nat

def MasterState.core (master : MasterState) : Core :=
  ⟨master.clients, master.votes, master.collective, master.peerDropped, signals master.sent,
    roundSignals master.sent, master.generatedUuids⟩

/-- The first group is what clients do, the second what the master answers. -/
inductive Action where
  | refuse
  | register (address : SocketAddress) (ports : ClientVariablePorts) (group : Group)
  | leave (address : SocketAddress) (uuid : Uuid)
  | vote (ballot : Ballot) (uuid : Uuid) (strategy : Option SyncStrategy)
  | query (uuid : Uuid)
  | report (uuid : Uuid) (success : Bool)
  | initiate (uuid : Uuid) (tag : Tag)
  | complete (uuid : Uuid) (tag : Tag)
  | acceptFirst (uuid : Uuid)
  | drop
  | startRound (acceptNewPeers : Bool)
  | endRound (failure : Bool)
  | resetQuery
  | startOptimization
  | endOptimization
  | startSync (group : Group) (status : Uuid → Option SharedStateMismatchStatus)
  | endSync (group : Group)
  | commence (group : Group) (tag : Tag)
  | abort (group : Group) (tag : Tag)
  | finish (group : Group) (tag : Tag)

def roundBallot (acceptNewPeers : Bool) : Ballot :=
  if acceptNewPeers then .acceptNewPeers else .establishP2PConnections

namespace Action

def answers : Action → Bool
  | acceptFirst _ | drop | startRound _ | endRound _ | resetQuery | startOptimization
  | endOptimization | startSync _ _ | endSync _ | commence _ _ | abort _ _ | finish _ _ => true
  | _ => false

def calm : Action → Bool
  | resetQuery | startOptimization | endOptimization | startSync _ _ | endSync _ | commence _ _
  | abort _ _ | finish _ _ => true
  | _ => false

def plain : Action → Bool
  | register _ _ _ | leave _ _ => false
  | _ => true

def step : Action → ClientInfo → Option ClientInfo
  -- The loops of the answers, with `none` where the source gives up.
  | startRound acceptNewPeers => fun info =>
    some (if acceptNewPeers ∨ info.connectionPhase = .accepted then info.enter .connectingToPeers
      else info)
  | endRound failure => ClientInfo.endRound failure
  | resetQuery => fun info =>
    if info.connectionPhase ≠ .accepted then some info
    else if info.voteQueryPendingPeers then some { info with voteQueryPendingPeers := false }
    else none
  | startOptimization => ClientInfo.advance .voteOptimizeTopology .optimizeTopology
  | endOptimization => ClientInfo.advance .voteCompleteTopologyOptimization .idle
  | startSync group status => ClientInfo.enterSync status group
  | endSync group => fun info =>
    if info.takesPart group then info.advance .voteCompleteSharedStateSync .idle else some info
  | commence group tag => ClientInfo.moveTag group tag .voteInitiate (ClientInfo.setTag tag .perform)
  | finish group tag => ClientInfo.moveTag group tag .voteComplete (ClientInfo.eraseTag tag)
  | _ => some

def change (action : Action) (uuid : Uuid) (info : ClientInfo) : ClientInfo :=
  match action with
  | acceptFirst client =>
    if uuid = client then
      { info with connectionPhase := .accepted, connectionState := .connectingToPeers }
    else info
  | vote ballot client _ => if uuid = client then info.enter ballot.cast else info
  | query client => if uuid = client then { info with voteQueryPendingPeers := true } else info
  | report client success =>
    if uuid = client then
      info.enter (if success then .waitingForOtherPeers else .connectingToPeersFailed)
    else info
  | initiate client tag =>
    if uuid = client then (info.setTag tag .voteInitiate).enter .collectiveCommunicationsRunning
    else info
  | complete client tag => if uuid = client then info.setTag tag .voteComplete else info
  | action => (action.step info).getD info

end Action

namespace Votes

variable (votes : Votes)

def cast (group : Group) (ballot : Ballot) (uuid : Uuid) (strategy : Option SyncStrategy) : Votes :=
  let votes := votes.setVoters group ballot (insert uuid (votes.voters group ballot))
  match strategy with
  | none => votes
  | some strategy =>
    { votes with
      sharedStateSyncStrategies := votes.sharedStateSyncStrategies.insert uuid strategy }

def forgetStrategies (uuids : List Uuid) : Votes :=
  { votes with
    sharedStateSyncStrategies :=
      uuids.foldl (fun strategies uuid => strategies.erase uuid) votes.sharedStateSyncStrategies }

end Votes

namespace Core

def initial : Core := MasterState.initial.core

variable (core : Core)

def info (uuid : Uuid) : Option ClientInfo := core.clients.clientInfo.lookup uuid

def infos : List ClientInfo := core.clients.clientInfo.values

def participants (group : Group) : List Uuid :=
  (core.infos.filter (ClientInfo.takesPart group)).map ClientInfo.clientUuid

def changeInfos (change : Uuid → ClientInfo → ClientInfo) : Core :=
  { core with
    clients := { core.clients with clientInfo := core.clients.clientInfo.mapKeyed change } }

def setAbort (group : Group) (tag : Tag) (aborted : Bool) : Core :=
  { core with
    collective := { core.collective with
      abortStates := Function.update core.collective.abortStates group
        (Function.update (core.collective.abortStates group) tag aborted) } }

def notify (meant : ClientInfo → Bool) (tag : Tag) (signal : Signal) : Core :=
  { core with
    log := fun uuid other =>
      if other = tag ∧ (core.info uuid).any meant then core.log uuid other ++ [signal]
      else core.log uuid other }

def announce (meant : ClientInfo → Bool) (signal : RoundSignal) : Core :=
  { core with
    rounds := fun uuid =>
      if (core.info uuid).any meant then core.rounds uuid ++ [signal] else core.rounds uuid }

def inform : Core := core.announce (fun info => info.connectionState = .connectingToPeers) .info

def runs (group : Group) (info : ClientInfo) : Bool :=
  info.takesPart group && info.connectionState = .collectiveCommunicationsRunning

def fails : Bool :=
  (core.infos.any fun info => info.connectionState = .connectingToPeersFailed) || core.peerDropped

def castVotes : Action → Votes
  | .vote ballot uuid strategy =>
    match core.info uuid with
    | none => core.votes
    | some info => core.votes.cast info.peerGroup ballot uuid strategy
  | .startRound acceptNewPeers => core.votes.clear 0 (roundBallot acceptNewPeers)
  | .startOptimization => core.votes.clear 0 .optimizeTopology
  | .endOptimization => core.votes.clear 0 .completeTopologyOptimization
  | .startSync group _ => core.votes.clear group .syncSharedState
  | .endSync group =>
    (core.votes.clear group .syncSharedStateComplete).forgetStrategies (core.participants group)
  | _ => core.votes

def move (action : Action) : Core :=
  { core.changeInfos action.change with votes := core.castVotes action }

variable (environment : Environment)

def register (address : SocketAddress) (ports : ClientVariablePorts) (group : Group) : Core :=
  let uuid := environment.generateUuid core.generated
  { core with
    clients :=
      ⟨core.clients.clientUuids.insert address uuid, core.clients.uuidClients.insert uuid address,
        core.clients.clientInfo.insert uuid
          ⟨uuid, .registered, .idle, false, ∅, address, ports, group⟩⟩
    generated := core.generated + 1 }

def leave (address : SocketAddress) (uuid : Uuid) : Core :=
  { core with
    clients :=
      ⟨core.clients.clientUuids.erase address, core.clients.uuidClients.erase uuid,
        core.clients.clientInfo.erase uuid⟩
    votes :=
      match core.info uuid with
      | none => core.votes
      | some info => core.votes.forget info.peerGroup uuid }

def apply : Action → Core
  | .refuse =>
    -- The client that is alone is informed again, whoever was refused.
    let core := { core with generated := core.generated + 1 }
    if core.clients.clientUuids.size = 1 then core.inform else core
  | .register address ports group => core.register environment address ports group
  | .leave address uuid => core.leave address uuid
  | .acceptFirst uuid => (core.move (.acceptFirst uuid)).inform
  | .drop => { core with peerDropped := true }
  | .startRound acceptNewPeers =>
    { core.move (.startRound acceptNewPeers) with peerDropped := false }.inform
  | .endRound failure =>
    { (core.move (.endRound failure)).announce (fun info => !info.waitsOutside)
        (.established !failure) with
      peerDropped := false }
  | .commence group tag =>
    let told := (core.move (.commence group tag)).notify (ClientInfo.takesPart group) tag
      (.commence (core.collective.sequenceNumber + 1))
    { told with
      collective := { told.collective with
        sequenceNumber := core.collective.sequenceNumber + 1 } }
  | .abort group tag =>
    if core.collective.abortStates group tag then core
    else (core.notify (runs group) tag (.abort true)).setAbort group tag true
  | .finish group tag =>
    let told :=
      if core.collective.abortStates group tag then core
      else core.notify (runs group) tag (.abort false)
    ((told.move (.finish group tag)).setAbort group tag false).notify
      (ClientInfo.takesPart group) tag .complete
  | action => core.move action

def Has (uuid : Uuid) (condition : ClientInfo → Prop) : Prop :=
  ∃ info, core.info uuid = some info ∧ condition info

def All (condition : ClientInfo → Prop) : Prop :=
  ∀ uuid info, core.info uuid = some info → condition info

def enabled : Action → Prop
  | .refuse | .drop => True
  | .register address _ _ => address ∉ core.clients.clientUuids
  | .leave address uuid => core.clients.clientUuids.lookup address = some uuid
  | .acceptFirst uuid =>
    core.Has uuid (fun info => info.connectionPhase = .registered ∧ info.connectionState = .idle) ∧
      core.All fun info => info.clientUuid = uuid
  | .vote ballot uuid strategy =>
    (core.Has uuid fun info =>
      info.connectionPhase = .accepted ∧ info.connectionState ∈ ballot.admits) ∧
      (strategy.isSome ↔ ballot = .syncSharedState)
  | .query uuid => core.Has uuid fun info => info.connectionPhase = .accepted
  | .report uuid _ => core.Has uuid fun info => info.connectionState = .connectingToPeers
  | .initiate uuid tag =>
    core.Has uuid fun info =>
      info.connectionPhase = .accepted ∧
        (info.connectionState = .idle ∨ info.connectionState = .collectiveCommunicationsRunning) ∧
        tag ∉ info.collectiveComsStates
  | .complete uuid tag =>
    core.Has uuid fun info =>
      info.connectionPhase = .accepted ∧ info.collectiveComsStates.lookup tag = some .perform
  | .startRound acceptNewPeers =>
    core.All fun info =>
      info.connectionPhase = .accepted → info.connectionState = (roundBallot acceptNewPeers).cast
  | .endRound failure =>
    (core.All fun info => (info.endRound failure).isSome) ∧ failure = core.fails
  | .commence group tag =>
    -- The consensus of a group without members would be one about nothing.
    (∃ uuid, core.Has uuid fun info => info.takesPart group) ∧
      core.All fun info => ((Action.commence group tag).step info).isSome
  | .abort group tag =>
    ∃ uuid, core.Has uuid fun info =>
      info.takesPart group ∧
        (info.collectiveComsStates.lookup tag = some .perform ∨
          info.collectiveComsStates.lookup tag = some .voteComplete)
  | action => core.All fun info => (action.step info).isSome

def Step (action : Action) (next : Core) : Prop :=
  core.enabled action ∧ next = core.apply environment action

end Core

end Pccl.Master
