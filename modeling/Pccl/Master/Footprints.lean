import Pccl.Master.Frames

set_option autoImplicit false

namespace Pccl.Master

open Packet Program

def Ballot.parts : Ballot → Set Part
  | .syncSharedState | .syncSharedStateComplete => {.sync}
  | _ => ∅

theorem Ballot.inSync_cast (ballot : Ballot) {state : ConnectionState}
    (admitted : state ∈ ballot.admits) (out : Part.sync ∉ ballot.parts) :
    ballot.cast.inSync = state.inSync := by
  cases ballot <;> cases state <;>
    simp_all [Ballot.admits, Ballot.cast, Ballot.parts, ConnectionState.inSync]

namespace Touches

variable {parts : Set Part}

section Clients

theorem sendPacket (peer : Uuid) (address : SocketAddress) (packet : M2CPacket) :
    Touches {.told (topic packet)} (sendPacket peer address packet) := by
  refine modify fun master part out => ?_
  cases part with
  | told about =>
    have other : topic packet ≠ about := fun same => out (by simp [same])
    change List.filter _ (_ ++ _) = List.filter _ _
    simp [other]
  | _ => rfl

theorem kickClient (address : SocketAddress) : Touches ∅ (kickClient address) :=
  modify fun _ part _ => by cases part <;> rfl

theorem vote (ballot : Ballot) (uuid : Uuid) : Touches ballot.parts (vote ballot uuid) := by
  refine read fun master => ?_
  cases found : master.getClientInfo uuid with
  | none => exact pure _ master
  | some info =>
    refine (meets_ite _ _ _).mpr ⟨fun admitted => ?_, fun _ => pure _ master⟩
    refine replace ?_ fun _ => ?_
    · refine within_adjustInfo uuid fun other present => ⟨rfl, fun _ => rfl, fun out => ?_⟩
      cases found.symm.trans present
      exact ballot.inSync_cast admitted.2 out
    · refine ite (fun _ => logBug ?_) fun _ => bind (modify fun master part out => ?_) fun _ => pure _
      · cases ballot <;> nofun
      · cases part with
        | strategies => cases ballot <;> rfl
        | _ => rfl

theorem voteSyncSharedState (uuid : Uuid) (strategy : SyncStrategy) :
    Touches {.sync, .strategies} (voteSyncSharedState uuid strategy) := by
  refine bind ((vote .syncSharedState uuid).mono (by simp [Ballot.parts])) fun counted =>
    read fun master => ?_
  refine (meets_ite _ _ _).mpr ⟨fun _ => ?_, fun _ => pure _ master⟩
  refine (meets_ite _ _ _).mpr ⟨fun _ => logBug (by simp [Bug.ofRegistry]) master, fun _ => ?_⟩
  refine replace (fun part out => ?_) fun _ => pure _
  cases part <;> first | rfl | simp at out

theorem adjusts (uuid : Uuid) {admits : ClientInfo → Prop} [DecidablePred admits]
    {change : ClientInfo → ClientInfo} (alike : ∀ info, admits info → info.Alike parts (change info)) :
    Touches parts (do
      let master ← get
      match master.getClientInfo uuid with
      | none => return false
      | some info =>
        if admits info then
          set (master.adjustInfo uuid change)
          return true
        else
          return false : MasterM Bool) := by
  refine read fun master => ?_
  cases found : master.getClientInfo uuid with
  | none => exact pure _ master
  | some info =>
    refine (meets_ite _ _ _).mpr ⟨fun admitted => replace ?_ fun _ => pure _, fun _ => pure _ master⟩
    refine within_adjustInfo uuid fun other present => ?_
    cases found.symm.trans present
    exact alike info admitted

theorem voteQueryWaitingPeersPending (uuid : Uuid) :
    Touches ∅ (voteQueryWaitingPeersPending uuid) :=
  adjusts uuid fun _ _ => ⟨rfl, fun _ => rfl, fun _ => rfl⟩

theorem voteCollectiveCommsInitiate (uuid : Uuid) (tag : Tag) :
    Touches ∅ (voteCollectiveCommsInitiate uuid tag) := by
  refine adjusts uuid fun info admitted => ⟨rfl, fun _ => rfl, fun _ => ?_⟩
  rcases admitted.2.1 with idle | runs
  · rw [idle]
    rfl
  · rw [runs]
    rfl

theorem voteCollectiveCommsComplete (uuid : Uuid) (tag : Tag) :
    Touches ∅ (voteCollectiveCommsComplete uuid tag) :=
  adjusts uuid fun _ _ => ⟨rfl, fun _ => rfl, fun _ => rfl⟩

theorem abortCollectiveCommsOperation (group : Group) (tag : Tag) :
    Touches ∅ (abortCollectiveCommsOperation group tag) := by
  refine read fun master => ?_
  refine (meets_ite _ _ _).mpr ⟨fun _ => pure _ master, fun _ => ?_⟩
  exact replace (fun part _ => by cases part <;> rfl) fun _ => pure _

theorem onPeerAccepted (info : ClientInfo) : Touches {.peers} (onPeerAccepted info) := by
  refine read fun master => ?_
  cases master.topology.bandwidthStore.registerPeer info.clientUuid info.socketAddress.inet
      info.peerGroup with
  | none => exact @logBug Unit {.peers} _ (fun _ => rfl) master
  | some store =>
    refine (meets_set _).mpr fun part out => ?_
    cases part <;> first | rfl | simp at out

theorem transitionToP2PEstablishmentPhase (acceptNewPeers : Bool) :
    Touches {.sync} (transitionToP2PEstablishmentPhase acceptNewPeers) := by
  refine modify fun master => ?_
  refine @within_infos _ master _ (fun _ info => if acceptNewPeers ∨
    info.connectionPhase = .accepted then info.enter .connectingToPeers else info) rfl
    (within_placed ?_ rfl) fun uuid info _ => ⟨?_, fun _ => ?_, fun out => absurd rfl out⟩
  · cases acceptNewPeers <;> rfl
  all_goals split <;> rfl

theorem acceptFirstClient (uuid : Uuid) (info : ClientInfo) :
    Touches {.phases, .sync, .peers} (acceptFirstClient uuid info) := by
  refine bind (modify fun master => ?_) fun _ =>
    bind ((onPeerAccepted info).mono (by simp)) fun _ =>
      bind ((vote .acceptNewPeers uuid).mono (by simp [Ballot.parts])) fun voted => asks fun _ => ?_
  · exact within_adjustInfo uuid fun _ _ => ⟨rfl, fun out => absurd (by simp) out, fun _ => rfl⟩
  · refine ite (fun _ => ite (fun _ => ?_) fun _ => logBug nofun) fun _ => pure _
    exact bind ((transitionToP2PEstablishmentPhase true).mono (by simp)) fun _ => pure _

theorem registerClient (address : SocketAddress) (ports : ClientVariablePorts) (group : Group)
    (uuid : Uuid) :
    Touches {.registry, .phases, .sync, .peers} (registerClient address ports group uuid) := by
  refine read fun master => ?_
  refine (meets_ite _ _ _).mpr ⟨fun _ => pure _ master, fun _ => replace (fun part out => ?_) fun _ => ?_⟩
  · cases part <;> first | rfl | simp at out
  · exact ite (fun _ => (acceptFirstClient uuid _).mono (by simp [Set.subset_def])) fun _ => pure _

theorem forgetBandwidth (info : ClientInfo) (uuid : Uuid) :
    Touches {.peers} (forgetBandwidth info uuid) := by
  refine when (modify fun master part out => ?_)
  cases part <;> first | rfl | simp at out

theorem unregisterClient (address : SocketAddress) :
    Touches {.registry, .phases, .sync, .strategies, .peers} (unregisterClient address) := by
  refine read fun master => ?_
  cases master.findClientUUID address with
  | none => exact pure _ master
  | some uuid =>
    refine (meets_ite _ _ _).mpr ⟨fun _ => ?_, fun _ => logBug (by simp) master⟩
    cases master.getClientInfo uuid with
    | none => exact @logBug Bool {.registry, .phases, .sync, .strategies, .peers} _ (by simp) master
    | some info =>
      refine replace (fun part out => ?_) fun _ =>
        bind ((forgetBandwidth info uuid).mono (by simp)) fun _ => pure _
      cases part <;> first | rfl | simp at out

theorem transition {step : MasterState → ClientInfo → Option ClientInfo}
    {place : MasterState → Table Uuid ClientInfo → MasterState} {rest : MasterState → MasterM Bool}
    (clients : ∀ master infos,
      (place master infos).clients = { master.clients with clientInfo := infos })
    (others : ∀ master infos, Within (infoParts ∪ parts) master (place master infos))
    (alike : ∀ master info moved, step master info = some moved → info.Alike parts moved)
    (touches : ∀ master, Touches parts (rest master)) :
    Touches parts (do
      let master ← get
      match master.clients.clientInfo.updateAll (step master) with
      | none => return false
      | some infos =>
        set (place master infos)
        rest master : MasterM Bool) := by
  refine read fun master => ?_
  cases updated : master.clients.clientInfo.updateAll (step master) with
  | none => exact pure _ master
  | some infos =>
    refine replace ?_ fun _ => touches master
    exact within_updateAll updated (clients master infos) (others master infos) (alike master)

theorem registerAccepted (accepted : List ClientInfo) :
    Touches {.peers} (registerAccepted accepted) :=
  forEach fun info => onPeerAccepted info

theorem transitionToP2PConnectionsEstablishedPhase (failure : Bool) :
    Touches {.phases, .peers} (transitionToP2PConnectionsEstablishedPhase failure) := by
  refine transition (fun _ _ => rfl) (fun _ _ => within_placed rfl rfl) (fun _ info moved is => ?_)
    fun _ => bind ((registerAccepted _).mono (by simp)) fun _ => pure _
  obtain ⟨_, _, rfl⟩ | ⟨waits, rfl⟩ | ⟨_, _, rfl⟩ := ClientInfo.endRound_cases is
  · exact .refl _ _
  · refine ⟨rfl, fun out => absurd (by simp) out, fun _ => ?_⟩
    rw [waits]
    cases failure <;> rfl
  · exact .refl _ _

theorem advance_alike {source target : ConnectionState} {info moved : ClientInfo}
    (is : info.advance source target = some moved)
    (same : Part.sync ∉ parts → target.inSync = source.inSync) : info.Alike parts moved := by
  unfold ClientInfo.advance at is
  split at is
  · cases is
    exact .refl _ _
  · split at is
    · next here =>
      cases is
      exact ⟨rfl, fun _ => rfl, fun out => here ▸ same out⟩
    · cases is

theorem transitionToTopologyOptimizationPhase : Touches ∅ transitionToTopologyOptimizationPhase :=
  transition (fun _ _ => rfl) (fun _ _ => within_placed rfl rfl)
    (fun _ _ _ is => advance_alike is fun _ => rfl) fun _ => pure _

theorem endTopologyOptimizationPhase (failed : Bool) :
    Touches ∅ (endTopologyOptimizationPhase failed) := by
  refine transition (fun _ _ => rfl) (fun _ _ => within_placed rfl rfl)
    (fun _ _ _ is => advance_alike is fun _ => ?_) fun _ => pure _
  cases failed <;> rfl

theorem endSharedStateSyncPhase (group : Group) :
    Touches {.sync, .rounds, .strategies} (endSharedStateSyncPhase group) := by
  refine transition (fun _ _ => rfl) (fun _ _ part out => ?_) (fun _ info moved is => ?_) fun _ => pure _
  · cases part <;> first | rfl | simp [infoParts] at out
  · split at is
    · exact advance_alike is fun out => absurd (by simp) out
    · cases is
      exact .refl _ _

theorem moveTag_alike {group : Group} {tag : Tag} {expected : CollectiveCommunicationState}
    {move : ClientInfo → ClientInfo} {info moved : ClientInfo}
    (is : info.moveTag group tag expected move = some moved)
    (alike : info.connectionState = .collectiveCommunicationsRunning → info.Alike parts (move info)) :
    info.Alike parts moved := by
  unfold ClientInfo.moveTag at is
  split at is
  · split at is
    · next runs =>
      cases is
      exact alike runs.1
    · cases is
  · cases is
    exact .refl _ _

theorem transitionToPerformCollectiveCommsPhase (group : Group) (tag : Tag) :
    Touches ∅ (transitionToPerformCollectiveCommsPhase group tag) :=
  transition (fun _ _ => rfl) (fun _ _ => within_placed rfl rfl)
    (fun _ _ _ is => moveTag_alike is fun _ => ⟨rfl, fun _ => rfl, fun _ => rfl⟩) fun _ => pure _

theorem transitionToCollectiveCommsCompletePhase (group : Group) (tag : Tag) :
    Touches ∅ (transitionToCollectiveCommsCompletePhase group tag) := by
  refine transition (fun _ _ => rfl) (fun _ _ part out => ?_)
    (fun _ info _ is => moveTag_alike is fun runs => ⟨rfl, fun _ => rfl, fun _ => ?_⟩) fun _ => pure _
  · cases part <;> first | rfl | simp [infoParts] at out
  · by_cases last : (info.collectiveComsStates.erase tag).entries.isEmpty <;>
      simp [ClientInfo.eraseTag, last, runs, ConnectionState.inSync]

theorem resetVoteQueryPendingPeers : Touches ∅ resetVoteQueryPendingPeers := by
  refine read fun master => ?_
  split
  · exact @logBug Unit ∅ .queryVoteReset nofun master
  · next infos updated =>
    refine (meets_set _).mpr (within_updateAll updated rfl (within_placed rfl rfl) fun info moved is => ?_)
    split at is
    · cases is
      exact .refl _ _
    · split at is <;> cases is
      exact ⟨rfl, fun _ => rfl, fun _ => rfl⟩

theorem transitionToSharedStateSyncPhase (group : Group) :
    Touches {.sync, .revisions} (transitionToSharedStateSyncPhase group) := by
  have cases_of {status : Uuid → Option SharedStateMismatchStatus} {info moved : ClientInfo}
      (is : info.enterSync status group = some moved) : ∃ state, moved = info.enter state := by
    unfold ClientInfo.enterSync at is
    split at is
    · cases is
      exact ⟨info.connectionState, rfl⟩
    · split at is
      · split at is <;> cases is
        · exact ⟨_, rfl⟩
        · exact ⟨_, rfl⟩
      · split at is <;> cases is
        exact ⟨info.connectionState, rfl⟩
  refine transition (fun _ _ => rfl) (fun _ _ part out => ?_) (fun _ info moved is => ?_) fun _ => pure _
  · cases part <;> first | rfl | simp [infoParts] at out
  · obtain ⟨state, rfl⟩ := cases_of is
    exact ⟨rfl, fun _ => rfl, fun out => absurd (by simp) out⟩

end Clients

section Topology

theorem setRingTopology {master next : MasterState} {group : Group} {ring : List Uuid} {optimal : Bool}
    (changed : master.setRingTopology group ring optimal = some next) :
    Within {.rings} master next := by
  unfold MasterState.setRingTopology at changed
  split at changed
  · cases changed
  · cases changed
    intro part out
    cases part <;> first | rfl | simp at out

theorem getRingTopology (group : Group) (includeRegistered : Bool) :
    Touches {.rings} (getRingTopology group includeRegistered) := by
  refine read fun master => ?_
  cases refreshed : master.refreshRing group includeRegistered with
  | none => exact @logBug _ {.rings} .ringStillDirty nofun master
  | some next =>
    refine replace ?_ fun _ => pure _
    unfold MasterState.refreshRing at refreshed
    split at refreshed
    · exact setRingTopology refreshed
    · cases refreshed
      exact .refl _ _

theorem getPeersForClient (info : ClientInfo) (includeRegistered : Bool) :
    Touches {.rings, .plans} (getPeersForClient info includeRegistered) := by
  refine bind ((getRingTopology _ _).mono (by simp)) fun ring => read fun master => ?_
  refine replace (fun part out => ?_) fun _ => pure _
  cases part <;> first | rfl | simp at out

theorem sendP2PConnectionInformation (includeRegistered : Bool) :
    Touches {.rings, .plans, .told .round} (sendP2PConnectionInformation includeRegistered) := by
  refine forEachClient fun _ _ info => when (asks fun master => ?_)
  refine bind ((getPeersForClient info includeRegistered).mono (by simp [Set.subset_def])) fun peers => ?_
  refine bind (modify fun master part out => ?_) fun _ =>
    (sendPacket _ _ _).mono (by simp [topic])
  cases part <;> first | rfl | simp at out

theorem startEstablishment (acceptNewPeers : Bool) :
    Touches {.sync, .rings, .plans, .told .round} (startEstablishment acceptNewPeers) := by
  refine bind (modify fun master part _ => by cases part <;> rfl) fun _ => ?_
  refine bind ((transitionToP2PEstablishmentPhase acceptNewPeers).mono (by simp)) fun _ => ?_
  exact (sendP2PConnectionInformation acceptNewPeers).mono (by simp [Set.subset_def])

theorem checkEstablishP2PConnectionConsensus :
    Touches {.sync, .rings, .plans, .told .round} checkEstablishP2PConnectionConsensus :=
  asks fun _ => bind (when (startEstablishment true)) fun _ =>
    asks fun _ => when (startEstablishment false)

theorem checkP2PConnectionsEstablished :
    Touches {.phases, .peers, .rings, .told .round} checkP2PConnectionsEstablished := by
  refine bind (anyClient _) fun anyWaiting => ite (fun _ => asks fun master => ?_) fun _ => pure _
  refine bind (when (bind (anyClient _) fun anyFailed => bind
    ((transitionToP2PConnectionsEstablishedPhase _).mono (by simp [Set.subset_def])) fun ended =>
      ite (fun _ => bind (forEachClient fun uuid address info => when (asks fun _ => ?_)) fun _ =>
        modify fun master part _ => by cases part <;> rfl) fun _ => logBug nofun)) fun _ => pure _
  exact bind ((getRingTopology _ _).mono (by simp)) fun ring => (sendPacket _ _ _).mono (by simp [topic])

theorem setTask (group : Group) (task : Option OptimizationTask) :
    Touches {.tasks} (setTask group task) := by
  exact modify fun _ part out => by cases part <;> first | rfl | simp at out

theorem stepTask (environment : Environment) (group : Group) :
    Touches {.rings, .tasks} (stepTask environment group) := by
  have start (moonshot : Bool) : Touches {.rings, .tasks} (startTask environment group moonshot) := by
    refine bind ((getRingTopology _ _).mono (by simp)) fun ring => read fun master => ?_
    refine (meets_ite _ _ _).mpr ⟨fun _ => (setTask group _).mono (by simp) master, fun _ => ?_⟩
    exact replace (fun part _ => by cases part <;> rfl) fun _ => (setTask group _).mono (by simp)
  have finish (moonshot : Bool) (solution : Option (List Uuid × SolutionType)) :
      Touches {.rings, .tasks} (finishTask group moonshot solution) := by
    cases solution with
    | none => exact logBug nofun
    | some found =>
      have placed (master : MasterState) : Within {.rings, .tasks} master
          ((master.setRingTopology group found.1 (found.2 = .optimal)).getD master) := by
        cases changed : master.setRingTopology group found.1 (found.2 = .optimal) with
        | none => exact .refl _ master
        | some next => exact (setRingTopology changed).mono (by simp)
      have done : Touches {.rings, .tasks} (Master.setTask group (some .finished)) :=
        (setTask group _).mono (by simp)
      refine read fun master => ?_
      by_cases improved : hasImproved moonshot found.2
      · simp only [Program.when, improved, if_true]
        exact replace (placed master) fun _ => done
      · simp only [Program.when, improved]
        exact done master
  refine asks fun master => ?_
  rcases master.topology.optimizationTasks group with _ | _ | _ | _
  · exact pure ()
  · exact start _
  · exact finish _ _
  · exact pure ()

theorem performTopologyOptimization (environment : Environment) (group : Group) :
    Touches {.rings, .tasks} (performTopologyOptimization environment group) := by
  have join : Touches {.rings, .tasks} (joinTask environment group) :=
    bind (stepTask environment group) fun _ => stepTask environment group
  refine asks fun master => bind (when (bind join fun _ => (setTask _ _).mono (by simp))) fun _ => ?_
  exact asks fun _ => when (bind ((setTask _ _).mono (by simp)) fun _ => when join)

theorem markMissingUnreachable (master : MasterState) :
    Within {.unreachability} master master.markMissingUnreachable := by
  have folded {Entry : Type} (entries : List Entry) (change : MasterState → Entry → MasterState)
      (within : ∀ master entry, Within {.unreachability} master (change master entry))
      (master : MasterState) : Within {.unreachability} master (entries.foldl change master) := by
    induction entries generalizing master with
    | nil => exact .refl _ _
    | cons entry entries ih => exact (within master entry).trans (ih _)
  have marked (master : MasterState) (entry : Uuid × Uuid) :
      Within {.unreachability} master (master.markBandwidthEntryUnreachable entry) := by
    unfold MasterState.markBandwidthEntryUnreachable
    split
    · split
      · intro part out
        cases part <;> first | rfl | simp at out
      · exact .refl _ _
    · exact .refl _ _
  refine folded _ _ (fun master group => ?_) master
  split
  · exact .refl _ _
  · exact folded _ _ (fun master info => folded _ _ marked master) master

theorem benchmarkRequests (uuid : Uuid) (entries : List (Uuid × Uuid)) :
    Touches ∅ (benchmarkRequests uuid entries) := by
  induction entries with
  | nil => exact pure _
  | cons entry entries ih =>
    refine ite (fun _ => asks fun master => ?_) fun _ => ih
    cases master.getClientInfo entry.2 with
    | none => exact logBug nofun
    | some info => exact bind ih fun _ => pure _

theorem storePeerBandwidth (source destination : Uuid) (bandwidth : Bandwidth) :
    Touches ∅ (storePeerBandwidth source destination bandwidth) := by
  refine read fun master => ?_
  split
  · refine (meets_ite _ _ _).mpr ⟨fun _ => ?_, fun _ => pure () master⟩
    cases stored : master.topology.bandwidthStore.storeBandwidth source destination bandwidth with
    | none => exact @logBug Unit ∅ .bandwidthNotStored nofun master
    | some store =>
      refine (meets_set _).mpr fun part _ => ?_
      cases part with
      | peers =>
        change store.registeredPeers = master.topology.bandwidthStore.registeredPeers
        unfold BandwidthStore.storeBandwidth at stored
        split at stored <;> cases stored
        rfl
      | _ => rfl
  · exact pure () master

theorem markP2PConnectionsEstablished (uuid : Uuid) (success : Bool) (failedPeers : List Uuid) :
    Touches {.rings, .unreachability} (markP2PConnectionsEstablished uuid success failedPeers) := by
  have enters (master : MasterState) (info : ClientInfo) (found : master.getClientInfo uuid = some info)
      (connecting : info.connectionState = .connectingToPeers) (state : ConnectionState)
      (outside : state.inSync = none) :
      Within {.rings, .unreachability} master (master.adjustInfo uuid (ClientInfo.enter state)) := by
    refine within_adjustInfo uuid fun other present => ⟨rfl, fun _ => rfl, fun _ => ?_⟩
    cases found.symm.trans present
    rw [connecting]
    exact outside
  refine read fun master => ?_
  cases found : master.getClientInfo uuid with
  | none => exact pure _ master
  | some info =>
    refine (meets_ite _ _ _).mpr ⟨fun _ => pure _ master, fun connecting => ?_⟩
    refine (meets_ite _ _ _).mpr ⟨fun _ => replace ?_ fun _ => pure _, fun _ => ?_⟩
    · exact enters master info found (not_not.mp connecting) _ rfl
    · have recorded : Within {.rings, .unreachability} master
          (master.recordFailedPeers uuid failedPeers) := by
        intro part out
        cases part <;> first | rfl | simp at out
      refine .write ?_
      cases (master.recordFailedPeers uuid failedPeers).reroute uuid info with
      | none => exact recorded
      | some ring =>
        dsimp only
        cases changed : (master.recordFailedPeers uuid failedPeers).setRingTopology info.peerGroup
            ring false with
        | none => exact ⟨recorded, nofun⟩
        | some next =>
          have placed := (setRingTopology changed).mono
            (show {.rings} ⊆ ({.rings, .unreachability} : Set Part) by simp)
          refine .write ((recorded.trans placed).trans ?_)
          refine enters next info ?_ (not_not.mp connecting) _ rfl
          have same := Keeps.setRingTopology changed
          exact (congrArg (fun core => core.info uuid) same).trans found

end Topology

section SharedState

theorem isNewRevisionLegal (uuid : Uuid) (revision : BitVec 64) :
    Touches {.rounds, .revisions} (isNewRevisionLegal uuid revision) := by
  refine read fun master => ?_
  cases master.getClientInfo uuid with
  | none => exact @logBug _ {.rounds, .revisions} .undefinedRead nofun master
  | some info =>
    refine replace (fun part out => ?_) fun _ => pure _
    cases part <;> first | rfl | simp at out

theorem setRound (master : MasterState) (group : Group) (round : SharedStateRound) :
    Within {.rounds} master (master.setRound group round) := by
  intro part out
  cases part <;> first | rfl | simp at out

theorem voteSharedStateMask (uuid : Uuid) (entries : List SharedStateHashEntry) :
    Touches {.rounds} (voteSharedStateMask uuid entries) := by
  refine modify fun master => ?_
  split
  · exact .refl _ _
  · exact setRound master _ _

theorem electSharedStateMask (environment : Environment) (group : Group) :
    Touches {.rounds} (electSharedStateMask environment group) := by
  refine read fun master => ?_
  dsimp only
  split
  · exact @pure _ {.rounds} _ master
  · refine replace (fun part out => ?_) fun _ => pure _
    cases part <;> first | rfl | simp at out

theorem compareClients (group : Group) (voters : List (Uuid × List SharedStateHashEntry)) :
    Touches {.rounds} (compareClients group voters) := by
  induction voters with
  | nil => exact pure ()
  | cons voter voters ih =>
    refine read fun master => ?_
    cases (master.sharedState group).compareClient voter.1 voter.2 with
    | none => exact @logBug Unit {.rounds} .undefinedRead nofun master
    | some round => exact replace (setRound master group round) fun _ => ih

theorem checkMaskSharedStateMismatches (group : Group) :
    Touches {.rounds} (checkMaskSharedStateMismatches group) :=
  asks fun _ => ite (fun _ => pure _) fun _ => bind (compareClients group _) fun _ => pure _

theorem findBestSharedStateTxPeer (group : Group) : Touches ∅ (findBestSharedStateTxPeer group) := by
  have scan (master : MasterState) (entries : List (Uuid × SocketAddress)) :
      Touches ∅ (findBestSharedStateTxPeer.scan group master entries) := by
    induction entries with
    | nil => exact pure _
    | cons entry entries ih =>
      unfold findBestSharedStateTxPeer.scan
      split
      · exact logBug nofun
      · exact ite (fun _ => pure _) fun _ => ih
  exact asks fun master => scan master _

theorem sendSyncSharedState (group : Group) (uuid : Uuid) (address : SocketAddress)
    (info : ClientInfo) :
    Touches {.told .sync} (sendSyncSharedState group uuid address info) := by
  refine ite (fun _ => bind ((findBestSharedStateTxPeer group).mono (by simp)) fun distributor => ?_)
    fun _ => ite (fun _ => sendPacket _ _ _) fun _ => logBug nofun
  cases distributor with
  | none => exact sendPacket _ _ _
  | some distributor =>
    refine asks fun master => ?_
    dsimp only
    split
    · exact logBug nofun
    · exact sendPacket _ _ _

theorem kickKeySetMismatch (group : Group) : Touches ∅ (kickKeySetMismatch group) := by
  have scan (master : MasterState) (entries : List (Uuid × SocketAddress)) :
      Touches ∅ (kickKeySetMismatch.scan group master entries) := by
    induction entries with
    | nil => exact pure _
    | cons entry entries ih =>
      unfold kickKeySetMismatch.scan
      split
      · exact logBug (by simp [Bug.ofRegistry])
      · refine ite (fun _ => ?_) fun _ => ih
        split
        · exact logBug (by simp [Bug.ofRegistry])
        · exact bind (kickClient _) fun _ => pure _
        · exact ih
  exact asks fun master => scan master _

theorem enterSharedStateSync (group : Group) :
    Touches {.sync, .revisions, .told .sync} (enterSharedStateSync group) := by
  have kicks : Touches ∅ (kickStrategyViolations group) := by
    refine asks fun master => bind (forEachClient fun _ _ _ => when (kickClient _)) fun _ => ?_
    exact when (forEachClient fun _ _ _ => when (kickClient _))
  refine bind ((transitionToSharedStateSyncPhase group).mono (by simp [Set.subset_def])) fun entered =>
    ite (fun _ => bind kicks.widen fun _ =>
      forEachClient fun uuid address info => when ?_) fun _ => logBug nofun
  exact (sendSyncSharedState group uuid address info).mono (by simp)

theorem groupVote (group : Group) (ballot : Ballot) {bug : Bug} (other : bug.ofRegistry = false) :
    Touches ∅ (do
      match (← get).groupConsensus group ballot with
      | none => Master.logBug bug
      | some unanimous => return unanimous : MasterM Bool) := by
  refine asks fun master => ?_
  cases master.groupConsensus group ballot with
  | none => exact logBug (by simp [other])
  | some unanimous => exact pure _

theorem checkSyncSharedStateConsensus (environment : Environment) (group : Group) :
    Touches {.sync, .rounds, .revisions, .told .sync} (checkSyncSharedStateConsensus environment group) := by
  refine bind (anyClient _) fun anyWaiting => ite (fun _ => ?_) fun _ => pure _
  refine bind (groupVote group .syncSharedState rfl).widen fun unanimous =>
    ite (fun _ => ?_) fun _ => pure _
  refine bind ((electSharedStateMask environment group).mono (by simp)) fun elected =>
    ite (fun _ => ?_) fun _ => pure _
  refine bind ((checkMaskSharedStateMismatches group).mono (by simp)) fun compared =>
    ite (fun _ => ?_) fun _ => pure _
  refine bind (kickKeySetMismatch group).widen fun kicked => ?_
  exact bind (when ((enterSharedStateSync group).mono (by simp [Set.subset_def]))) fun _ => pure _

theorem kickGroup (group : Group) : Touches ∅ (kickGroup group) :=
  forEachClient fun _ _ _ => when (kickClient _)

theorem checkSyncSharedStateCompleteConsensus (group : Group) :
    Touches {.sync, .rounds, .strategies, .told .other} (checkSyncSharedStateCompleteConsensus group) := by
  refine bind (groupVote group .syncSharedStateComplete rfl).widen fun unanimous =>
    when (bind ((endSharedStateSyncPhase group).mono (by simp [Set.subset_def])) fun ended =>
      ite (fun _ => forEachClient fun uuid address info => when (ite (fun _ => ?_) fun _ => logBug nofun))
        fun _ => logBug nofun)
  exact (sendPacket _ _ _).mono (by simp [topic])

end SharedState

section Operations

theorem getNextCollectiveOpSeqNr : Touches {.sequence} getNextCollectiveOpSeqNr := by
  refine read fun master => replace (fun part out => ?_) fun _ => pure _
  cases part <;> first | rfl | simp at out

theorem checkCollectiveCommsInitiateConsensus (group : Group) (tag : Tag) :
    Touches {.sequence, .told .commence} (checkCollectiveCommsInitiateConsensus group tag) := by
  refine asks fun master => when (bind
    (transitionToPerformCollectiveCommsPhase group tag).widen fun entered =>
      ite (fun _ => bind (getNextCollectiveOpSeqNr.mono (by simp)) fun number =>
        forEachClient fun uuid address info => when (ite (fun _ => ?_) fun _ => logBug nofun))
        fun _ => logBug nofun)
  exact (sendPacket _ _ _).mono (by simp [topic])

theorem sendCollectiveCommsAbortPackets (group : Group) (tag : Tag) (aborted : Bool) :
    Touches {.told .other} (sendCollectiveCommsAbortPackets group tag aborted) :=
  forEachClient fun _ _ _ => when (sendPacket _ _ _)

theorem checkCollectiveCommsCompleteConsensus (group : Group) (tag : Tag) :
    Touches {.told .other} (checkCollectiveCommsCompleteConsensus group tag) := by
  refine asks fun master => when (bind (when (sendCollectiveCommsAbortPackets group tag false)) fun _ =>
    bind (transitionToCollectiveCommsCompletePhase group tag).widen fun ended =>
      ite (fun _ => forEachClient fun uuid address info =>
        when (ite (fun _ => bind (sendPacket _ _ _) fun _ => modify fun master => ?_)
          fun _ => logBug nofun)) fun _ => logBug nofun)
  exact within_adjustInfo uuid fun _ _ => ⟨rfl, fun _ => rfl, fun _ => rfl⟩

theorem abortOperation (group : Group) (tag : Tag) : Touches {.told .other} (abortOperation group tag) :=
  bind (abortCollectiveCommsOperation group tag).widen fun _ =>
    when (sendCollectiveCommsAbortPackets group tag true)

theorem recheckOperation (group : Group) (tag : Tag) :
    Touches {.sequence, .told .commence, .told .other} (recheckOperation group tag) := by
  refine bind ((checkCollectiveCommsInitiateConsensus group tag).mono (by simp [Set.subset_def])) fun _ =>
    bind ((checkCollectiveCommsCompleteConsensus group tag).mono (by simp)) fun _ =>
      asks fun _ => when ((abortOperation group tag).mono (by simp))

end Operations

section Handlers

variable (address : SocketAddress)

theorem withClient {body : Uuid → MasterM Unit} (touches : ∀ uuid, Touches parts (body uuid)) :
    Touches parts (withClient address body) := by
  refine asks fun master => ?_
  cases master.findClientUUID address with
  | none => exact (kickClient address).widen
  | some uuid => exact touches uuid

theorem kickUnless (counted : Bool) {body : MasterM Unit} (touches : Touches parts body) :
    Touches parts (kickUnless address counted body) :=
  ite (fun _ => touches) fun _ => (kickClient address).widen

theorem withGroup (uuid : Uuid) {body : Group → MasterM Unit}
    (touches : ∀ group, Touches parts (body group)) : Touches parts (withGroup uuid body) := by
  refine asks fun master => ?_
  cases master.getClientInfo uuid with
  | none => exact pure ()
  | some info => exact touches info.peerGroup

theorem handleRequestSessionJoin (environment : Environment) (ports : ClientVariablePorts)
    (group : Group) :
    Touches {.registry, .phases, .sync, .issued, .peers, .rings, .plans, .told .round, .told .other}
      (handleRequestSessionJoin environment address ports group) := by
  refine read fun master => (meets_ite _ _ _).mpr ⟨fun _ => ?_, fun _ => replace (fun part out => ?_)
    fun _ => bind ((registerClient address ports group _).mono (by simp [Set.subset_def])) fun accepted =>
      bind ((sendPacket _ _ _).mono (by simp [topic])) fun _ => asks fun _ => ite (fun _ => ?_) fun _ => ?_⟩
  · exact (kickClient address).widen master
  · cases part <;> first | rfl | simp at out
  · exact (sendP2PConnectionInformation true).mono (by simp [Set.subset_def])
  · exact checkEstablishP2PConnectionConsensus.mono (by simp [Set.subset_def])

theorem handleEstablishP2PConnections (acceptNewPeers : Bool) :
    Touches {.sync, .rings, .plans, .told .round}
      (handleEstablishP2PConnections address acceptNewPeers) := by
  refine withClient address fun uuid => bind ((vote _ uuid).mono ?_) fun counted =>
    kickUnless address counted checkEstablishP2PConnectionConsensus
  cases acceptNewPeers <;> simp [Ballot.parts]

theorem handleP2PConnectionsEstablished (success : Bool) (failedPeers : List Uuid) :
    Touches {.phases, .peers, .rings, .unreachability, .told .round}
      (handleP2PConnectionsEstablished address success failedPeers) := by
  refine withClient address fun uuid => bind
    ((markP2PConnectionsEstablished uuid success failedPeers).mono (by simp [Set.subset_def]))
    fun counted => kickUnless address counted (bind
      (checkP2PConnectionsEstablished.mono (by simp [Set.subset_def])) fun waiting => when (logBug nofun))

theorem checkQueryPeersPendingConsensus : Touches {.told .other} checkQueryPeersPendingConsensus :=
  asks fun _ => when (bind (forEachClient fun _ _ _ => when (sendPacket _ _ _)) fun _ =>
    resetVoteQueryPendingPeers.widen)

theorem handleOptimizeTopology : Touches {.told .other} (handleOptimizeTopology address) := by
  refine withClient address fun uuid => bind ((vote .optimizeTopology uuid).mono (by simp [Ballot.parts]))
    fun counted => kickUnless address counted (asks fun _ => when (bind
      transitionToTopologyOptimizationPhase.widen fun entered =>
        ite (fun _ => forEachClient fun uuid address info => when (asks fun master => bind
          (benchmarkRequests uuid _).widen fun requests => sendPacket _ _ _))
          fun _ => logBug nofun))

theorem handleOptimizeTopologyWorkComplete (environment : Environment) :
    Touches {.rings, .tasks, .unreachability, .told .other}
      (handleOptimizeTopologyWorkComplete environment address) := by
  refine withClient address fun uuid => bind
    ((vote .completeTopologyOptimization uuid).mono (by simp [Ballot.parts])) fun counted =>
      kickUnless address counted (asks fun master => when (bind
        (modify fun master => (markMissingUnreachable master).mono (by simp)) fun _ => bind
          (endTopologyOptimizationPhase false).widen fun ended =>
            ite (fun _ => bind (forEach fun group => asks fun _ => when ?_) fun _ =>
              forEachClient fun _ _ _ => when ((sendPacket _ _ _).mono (by simp [topic])))
              fun _ => logBug nofun))
  exact (performTopologyOptimization environment group).mono (by simp [Set.subset_def])

theorem handleSyncSharedState (environment : Environment) (revision : BitVec 64) (strategy : SyncStrategy)
    (hashes : List SharedStateHashEntry) :
    Touches {.sync, .strategies, .rounds, .revisions, .told .sync}
      (handleSyncSharedState environment address revision strategy hashes) := by
  refine withClient address fun uuid => asks fun master => ?_
  cases master.getClientInfo uuid with
  | none => exact pure ()
  | some info =>
    refine bind ((isNewRevisionLegal uuid revision).mono (by simp [Set.subset_def])) fun status =>
      ite (fun _ => (kickClient address).widen) fun _ => bind
        ((voteSyncSharedState uuid strategy).mono (by simp [Set.subset_def])) fun counted =>
          kickUnless address counted (bind ((voteSharedStateMask uuid hashes).mono (by simp)) fun _ => bind
            ((checkSyncSharedStateConsensus environment info.peerGroup).mono (by simp [Set.subset_def]))
            fun resolved => when (kickGroup info.peerGroup).widen)

theorem handleSyncSharedStateComplete :
    Touches {.sync, .strategies, .rounds, .told .other} (handleSyncSharedStateComplete address) :=
  withClient address fun uuid => bind
    ((vote .syncSharedStateComplete uuid).mono (by simp [Ballot.parts])) fun counted =>
      kickUnless address counted (withGroup uuid fun group =>
        (checkSyncSharedStateCompleteConsensus group).mono (by simp [Set.subset_def]))

def beyondDisconnect : Set Part := {.tasks, .unreachability}

theorem recheckVotes (environment : Environment) (group : Group) :
    Touches beyondDisconnectᶜ (recheckVotes environment group) := by
  have all {A : Type} {program : MasterM A} {parts : Set Part} (touches : Touches parts program)
      (fewer : Part.tasks ∉ parts ∧ Part.unreachability ∉ parts) :
      Touches beyondDisconnectᶜ program := by
    refine touches.mono fun part present out => ?_
    rcases out with rfl | rfl
    · exact fewer.1 present
    · exact fewer.2 present
  refine bind (all checkEstablishP2PConnectionConsensus (by simp)) fun _ => ?_
  refine bind (modify fun master part _ => by cases part <;> rfl) fun _ => ?_
  refine bind (all checkP2PConnectionsEstablished (by simp)) fun _ => ?_
  refine bind (all checkQueryPeersPendingConsensus (by simp)) fun _ => ?_
  refine bind (all (checkSyncSharedStateConsensus environment group) (by simp)) fun _ => ?_
  refine bind (all (checkSyncSharedStateCompleteConsensus group) (by simp)) fun _ => ?_
  exact asks fun _ => forEach fun tag => all (recheckOperation group tag) (by simp)

theorem onClientDisconnect (environment : Environment) :
    Touches beyondDisconnectᶜ (onClientDisconnect environment address) := by
  refine asks fun master => ?_
  cases master.findClientUUID address with
  | none => exact pure ()
  | some uuid =>
    dsimp only
    cases master.getClientInfo uuid with
    | none => exact logBug nofun
    | some info =>
      refine bind ((unregisterClient address).mono ?_) fun removed =>
        when (recheckVotes environment info.peerGroup)
      simp [beyondDisconnect, Set.subset_def]

end Handlers

end Touches

def Event.parts : Event → Set Part
  | .read _ packet =>
    match packet with
    | .requestSessionRegistration _ _ _ _ =>
      {.registry, .phases, .sync, .issued, .peers, .rings, .plans, .told .round, .told .other}
    | .requestEstablishP2PConnections _ => {.sync, .rings, .plans, .told .round}
    | .p2pConnectionsEstablished _ _ => {.phases, .peers, .rings, .unreachability, .told .round}
    | .checkPeersPending | .optimizeTopology | .collectiveCommsComplete _ _ => {.told .other}
    | .reportPeerBandwidth _ _ => ∅
    | .optimizeTopologyWorkComplete => {.rings, .tasks, .unreachability, .told .other}
    | .syncSharedState _ _ _ => {.sync, .strategies, .rounds, .revisions, .told .sync}
    | .distSharedStateComplete => {.sync, .strategies, .rounds, .told .other}
    | .collectiveCommsInitiate _ _ _ _ => {.sequence, .told .commence}
  | .disconnect _ => Touches.beyondDisconnectᶜ
  | .background _ => {.rings, .tasks}

theorem handle_touches (environment : Environment) (event : Event) :
    Touches event.parts (handle environment event) := by
  cases event with
  | background group => exact Touches.stepTask environment group
  | disconnect address => exact Touches.onClientDisconnect address environment
  | read address packet =>
    cases packet with
    | requestSessionRegistration p2p sharedState benchmark group =>
      exact Touches.handleRequestSessionJoin address environment _ group
    | requestEstablishP2PConnections acceptNewPeers =>
      exact Touches.handleEstablishP2PConnections address acceptNewPeers
    | p2pConnectionsEstablished success failedPeers =>
      exact Touches.handleP2PConnectionsEstablished address success failedPeers
    | checkPeersPending =>
      exact .withClient address fun uuid => .bind
        (Touches.voteQueryWaitingPeersPending uuid).widen fun counted =>
          .kickUnless address counted Touches.checkQueryPeersPendingConsensus
    | optimizeTopology => exact Touches.handleOptimizeTopology address
    | reportPeerBandwidth toPeer bandwidth =>
      exact .withClient address fun uuid => .storePeerBandwidth uuid toPeer bandwidth
    | optimizeTopologyWorkComplete =>
      exact Touches.handleOptimizeTopologyWorkComplete address environment
    | syncSharedState revision strategy hashes =>
      exact Touches.handleSyncSharedState address environment revision strategy hashes
    | distSharedStateComplete => exact Touches.handleSyncSharedStateComplete address
    | collectiveCommsInitiate tag =>
      exact .withClient address fun uuid => .bind
        (Touches.voteCollectiveCommsInitiate uuid tag).widen fun counted =>
          .kickUnless address counted (.withGroup uuid fun group =>
            .checkCollectiveCommsInitiateConsensus group tag)
    | collectiveCommsComplete tag wasAborted =>
      exact .withClient address fun uuid => .bind
        (Touches.voteCollectiveCommsComplete uuid tag).widen fun counted =>
          .kickUnless address counted (.withGroup uuid fun group =>
            .bind (.when (.abortOperation group tag)) fun _ =>
              .checkCollectiveCommsCompleteConsensus group tag)

theorem untouched_kept (environment : Environment) (master : MasterState) {part : Part}
    (events : List Event) (out : ∀ event ∈ events, part ∉ event.parts) :
    (Machine.run (serve environment) events (.ok master)).Holds
      (fun next => part.view next = part.view master)
      fun exit => part.view exit.master = part.view master := by
  suffices from_ : ∀ server : Server,
      server.Holds (fun next => part.view next = part.view master)
        (fun exit => part.view exit.master = part.view master) →
      (Machine.run (serve environment) events server).Holds _ _ from from_ _ (.serves rfl)
  induction events with
  | nil => exact fun _ holds => holds
  | cons event events ih =>
    rw [List.forall_mem_cons] at out
    rintro _ (same | same)
    · refine ih out.2 _ (serve_holds ?_)
      refine (handle_touches environment event _).imp (fun _ _ within => ?_) fun _ exit => ?_
      · exact (within part out.1).trans same
      · exact (exit.1 part out.1).trans same
    · exact ih out.2 _ (.stopped same)

theorem untouched_kept_pair :
    let events := [Sample.establish 0 true, Sample.establish 1 true]
    ∃ before after, run Sample.environment Sample.pair = .ok before ∧
      Machine.run (serve Sample.environment) events (.ok before) = .ok after ∧
      Part.registry.view after = Part.registry.view before ∧
      before.getClientEntrySet.length = 2 ∧
      (before.sent.length, after.sent.length) = (8, 10) ∧ before.plans.length < after.plans.length := by
  intro events
  have both : Server.both (fun before after => before.getClientEntrySet.length = 2 ∧
      (before.sent.length, after.sent.length) = (8, 10) ∧ before.plans.length < after.plans.length)
      (run Sample.environment Sample.pair)
      (run Sample.environment (Sample.pair ++ events)) = true := by
    cbv
  obtain ⟨before, after, reached, served, changes⟩ := Server.exists_of_both both
  rw [run, Machine.run_append, ← run, reached] at served
  have kept := @untouched_kept Sample.environment before .registry events (by
    simp [events, Sample.establish, Event.parts])
  rw [served] at kept
  cases kept with | serves kept =>
  exact ⟨before, after, reached, served, kept, of_decide_eq_true changes⟩

end Pccl.Master
