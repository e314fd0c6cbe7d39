import Pccl.Master.States

set_option autoImplicit false

namespace Pccl.Master

open Packet Program

theorem signals_append (sent : List Sent) (entry : Sent) (uuid : Uuid) (tag : Tag) :
    signals (sent ++ [entry]) uuid tag =
      signals sent uuid tag ++
        (if entry.peer = uuid then signal? tag entry.operations entry.packet else none).toList := by
  rw [signals, List.filterMap_append, ← signals]
  congr 1

theorem roundSignals_append (sent : List Sent) (entry : Sent) (uuid : Uuid) :
    roundSignals (sent ++ [entry]) uuid =
      roundSignals sent uuid ++
        (if entry.peer = uuid then roundSignal? entry.packet else none).toList := by
  rw [roundSignals, List.filterMap_append, ← roundSignals]
  congr 1

def Bug.ofProtocol : Bug → Bool
  | firstClientConsensus | votedToAcceptNewPeers | votedToEstablishP2PConnections
  | votedToOptimizeTopology | votedToCompleteTopologyOptimization | votedToSyncSharedState
  | declaredSyncStrategy | votedToCompleteSharedStateSync | syncVoteMismatch
  | syncCompleteVoteMismatch | performCollectiveCommsPhase | performCollectiveCommsState
  | collectiveCommsCompletePhase | collectiveCommsCompleteState
  | p2pConnectionsEstablishedPhase | clientNotFound => true
  | _ => false

def Core.Accounted (core : Core) : Prop :=
  ∀ address uuid, core.clients.clientUuids.lookup address = some uuid → core.info uuid ≠ none

theorem Core.Registry.accounted {environment : Environment} {core : Core}
    (registry : core.Registry environment) : core.Accounted := by
  intro address uuid found absent
  obtain ⟨info, present, _⟩ := registry.info_of address uuid found
  rw [present] at absent
  cases absent

theorem Core.Accounted.changed {core next : Core} (accounted : core.Accounted)
    {change : Uuid → ClientInfo → ClientInfo} (clients : next.clients = (core.changeInfos change).clients) :
    next.Accounted := by
  intro address uuid found absent
  rw [clients] at found
  rw [Core.info, clients] at absent
  exact accounted address uuid found
    (Option.map_eq_none_iff.mp ((Core.info_changeInfos change uuid).symm.trans absent))

def Unseen (core : Core) (exit : Exit) : Prop :=
  exit.master.core = core ∧ (core.Accounted → exit.bug.ofProtocol = false)

/-- The program changes nothing that the protocol speaks about. -/
def Keeps {A : Type} (core : Core) (program : MasterM A) : Prop :=
  Preserves (fun master => master.core = core) (Unseen core) program

namespace Keeps

variable {A B Item : Type} {core : Core}

theorem pure (value : A) : Keeps core (pure value : MasterM A) := Preserves.pure value

theorem bind {program : MasterM A} {next : A → MasterM B} (first : Keeps core program)
    (rest : ∀ value, Keeps core (next value)) : Keeps core (program >>= next) :=
  Preserves.bind first rest

theorem read {next : MasterState → MasterM A}
    (rest : ∀ master, master.core = core → Keeps core (next master)) : Keeps core (get >>= next) :=
  Preserves.read rest

theorem set {next : MasterState} (kept : next.core = core) :
    Keeps core (MonadStateOf.set next : MasterM PUnit) :=
  Preserves.set kept

theorem modify {change : MasterState → MasterState}
    (same : ∀ master, (change master).core = master.core) : Keeps core (modify change : MasterM Unit) :=
  Preserves.modify fun master kept => (same master).trans kept

theorem logBug {bug : Bug} (other : bug.ofProtocol = false) :
    Keeps core (logBug bug : MasterM A) :=
  Preserves.stop fun _ kept => ⟨kept, fun _ => other⟩

theorem logMissing {master later : MasterState} {entry : Uuid × SocketAddress}
    (present : entry ∈ master.getClientEntrySet) (same : master.core = core) (still : later.core = core)
    (missing : later.getClientInfo entry.1 = none) :
    Keeps core (Master.logBug .clientNotFound : MasterM A) := by
  refine Preserves.stop fun _ kept => ⟨kept, fun accounted => ?_⟩
  obtain ⟨pair, known, rfl⟩ := List.mem_map.mp present
  rw [← still] at accounted
  refine absurd missing (accounted pair.1 pair.2 ?_)
  rw [still, ← same]
  exact Table.mem_pairs_iff.mp known

theorem ite {condition : Prop} [Decidable condition] {first second : MasterM A}
    (yes : condition → Keeps core first) (no : ¬ condition → Keeps core second) :
    Keeps core (if condition then first else second) :=
  Preserves.ite yes no

theorem when {condition : Prop} [Decidable condition] {program : MasterM Unit}
    (keeps : Keeps core program) : Keeps core (when condition program) :=
  Preserves.when keeps

theorem forEach {items : List Item} {body : Item → MasterM Unit}
    (keeps : ∀ item, Keeps core (body item)) : Keeps core (forEach items body) :=
  Preserves.forEach keeps

theorem sendPacket {packet : M2CPacket} (other : ∀ tag operations, signal? tag operations packet = none)
    (round : roundSignal? packet = none) (peer : Uuid) (address : SocketAddress) :
    Keeps core (sendPacket peer address packet) := by
  refine modify fun master => ?_
  have log (operations : Nat) :
      signals (master.sent ++ [⟨peer, address, packet, operations⟩]) = signals master.sent := by
    funext uuid tag
    rw [signals_append, other]
    simp
  have rounds (operations : Nat) :
      roundSignals (master.sent ++ [⟨peer, address, packet, operations⟩]) = roundSignals master.sent := by
    funext uuid
    rw [roundSignals_append, round]
    simp
  simp only [MasterState.core, log, rounds]

theorem kickClient (address : SocketAddress) : Keeps core (kickClient address) := modify fun _ => rfl

theorem forEachClient {body : Uuid → SocketAddress → ClientInfo → MasterM Unit}
    (keeps : ∀ uuid address info, Keeps core (body uuid address info)) :
    Keeps core (forEachClient body) := by
  refine read fun start same state at_ => @meets_forEach _ _ _ _ _ _ _
    (fun (_ : List (Uuid × SocketAddress)) (master : MasterState) => master.core = core)
    (fun finished entry rest split master still => ?_) at_
  refine .read ?_
  cases found : master.getClientInfo entry.1 with
  | none => exact logMissing (by rw [← split]; simp) same still found master still
  | some info => exact keeps entry.1 entry.2 info master still

section Topology

theorem refreshRing {master next : MasterState} {group : Group} {includeRegistered : Bool}
    (refreshed : master.refreshRing group includeRegistered = some next) :
    next.core = master.core := by
  unfold MasterState.refreshRing MasterState.setRingTopology at refreshed
  split at refreshed
  · split at refreshed
    · cases refreshed
    · cases refreshed
      rfl
  · cases refreshed
    rfl

theorem getRingTopology (group : Group) (includeRegistered : Bool) :
    Keeps core (getRingTopology group includeRegistered) := by
  refine read fun master same => ?_
  cases refreshed : master.refreshRing group includeRegistered with
  | none => exact logBug rfl
  | some next => exact bind (set ((refreshRing refreshed).trans same)) fun _ => pure _

theorem getPeersForClient (info : ClientInfo) (includeRegistered : Bool) :
    Keeps core (getPeersForClient info includeRegistered) :=
  bind (getRingTopology _ _) fun _ => read fun _ same => bind (set same) fun _ => pure _

theorem setTask (group : Group) (task : Option OptimizationTask) : Keeps core (setTask group task) :=
  modify fun _ => rfl

theorem startTask (environment : Environment) (group : Group) (moonshot : Bool) :
    Keeps core (startTask environment group moonshot) := by
  refine bind (getRingTopology _ _) fun ring => read fun master same => ?_
  refine ite (fun _ => setTask _ _) fun _ => ?_
  exact bind (set same) fun _ => setTask _ _

theorem setRingTopology {master next : MasterState} {group : Group} {ring : List Uuid} {optimal : Bool}
    (changed : master.setRingTopology group ring optimal = some next) : next.core = master.core := by
  unfold MasterState.setRingTopology at changed
  split at changed
  · cases changed
  · cases changed
    rfl

theorem finishTask (group : Group) (moonshot : Bool) (solution : Option (List Uuid × SolutionType)) :
    Keeps core (finishTask group moonshot solution) := by
  cases solution with
  | none => exact logBug rfl
  | some found =>
    refine read fun master same => bind (when (set ?_)) fun _ => setTask _ _
    cases changed : master.setRingTopology group found.1 (found.2 = .optimal) with
    | none => exact same
    | some next => exact (setRingTopology changed).trans same

theorem stepTask (environment : Environment) (group : Group) :
    Keeps core (stepTask environment group) := by
  refine read fun master _ => ?_
  rcases master.topology.optimizationTasks group with _ | _ | _ | _
  · exact pure ()
  · exact startTask environment group _
  · exact finishTask group _ _
  · exact pure ()

theorem performTopologyOptimization (environment : Environment) (group : Group) :
    Keeps core (performTopologyOptimization environment group) := by
  have join : Keeps core (joinTask environment group) :=
    bind (stepTask environment group) fun _ => stepTask environment group
  refine read fun master _ => bind (when (bind join fun _ => setTask _ _)) fun _ => ?_
  exact read fun _ _ => when (bind (setTask _ _) fun _ => when join)

theorem optimizeGroups (environment : Environment) (groups : List Group) :
    Keeps core (optimizeGroups environment groups) :=
  forEach fun group => read fun _ _ => when (performTopologyOptimization environment group)

theorem markBandwidthEntryUnreachable (master : MasterState) (entry : Uuid × Uuid) :
    (master.markBandwidthEntryUnreachable entry).core = master.core := by
  unfold MasterState.markBandwidthEntryUnreachable
  split
  · split <;> rfl
  · rfl

theorem markMissingUnreachable (master : MasterState) :
    master.markMissingUnreachable.core = master.core := by
  have folded {Entry : Type} (entries : List Entry) (change : MasterState → Entry → MasterState)
      (same : ∀ master entry, (change master entry).core = master.core) (master : MasterState) :
      (entries.foldl change master).core = master.core := by
    induction entries generalizing master with
    | nil => rfl
    | cons entry entries ih => exact (ih _).trans (same master entry)
  refine folded _ _ (fun master group => ?_) master
  split
  · rfl
  · exact folded _ _ (fun master info => folded _ _ markBandwidthEntryUnreachable master) master

theorem benchmarkRequests (uuid : Uuid) (entries : List (Uuid × Uuid)) :
    Keeps core (benchmarkRequests uuid entries) := by
  induction entries with
  | nil => exact pure _
  | cons entry entries ih =>
    refine ite (fun _ => read fun master _ => ?_) fun _ => ih
    cases master.getClientInfo entry.2 with
    | none => exact logBug rfl
    | some info => exact bind ih fun _ => pure _

theorem storePeerBandwidth (source destination : Uuid) (bandwidth : Bandwidth) :
    Keeps core (storePeerBandwidth source destination bandwidth) := by
  refine read fun master same => ?_
  split
  · refine ite (fun _ => ?_) fun _ => pure ()
    split
    · exact logBug rfl
    · exact set same
  · exact pure ()

theorem onPeerAccepted (info : ClientInfo) : Keeps core (onPeerAccepted info) := by
  refine read fun master same => ?_
  split
  · exact logBug rfl
  · exact set same

theorem forgetBandwidth (info : ClientInfo) (uuid : Uuid) : Keeps core (forgetBandwidth info uuid) :=
  when (modify fun _ => rfl)

end Topology

section SharedState

theorem isNewRevisionLegal (uuid : Uuid) (revision : BitVec 64) :
    Keeps core (isNewRevisionLegal uuid revision) := by
  refine read fun master same => ?_
  cases master.getClientInfo uuid with
  | none => exact logBug rfl
  | some info => exact bind (set same) fun _ => pure _

theorem voteSharedStateMask (uuid : Uuid) (entries : List SharedStateHashEntry) :
    Keeps core (voteSharedStateMask uuid entries) := by
  refine modify fun master => ?_
  cases master.getClientInfo uuid <;> rfl

theorem electSharedStateMask (environment : Environment) (group : Group) :
    Keeps core (electSharedStateMask environment group) := by
  refine read fun master same => ?_
  dsimp only
  split
  · exact pure _
  · exact bind (set same) fun _ => pure _

theorem compareClients (group : Group) (entries : List (Uuid × List SharedStateHashEntry)) :
    Keeps core (compareClients group entries) := by
  induction entries with
  | nil => exact pure ()
  | cons entry entries ih =>
    refine read fun master same => ?_
    cases (master.sharedState group).compareClient entry.1 entry.2 with
    | none => exact logBug rfl
    | some round => exact bind (set same) fun _ => ih

theorem checkMaskSharedStateMismatches (group : Group) :
    Keeps core (checkMaskSharedStateMismatches group) :=
  read fun _ _ => ite (fun _ => pure _) fun _ => bind (compareClients _ _) fun _ => pure _

theorem findBestSharedStateTxPeer (group : Group) : Keeps core (findBestSharedStateTxPeer group) := by
  have scan (master : MasterState) (same : master.core = core) (entries : List (Uuid × SocketAddress))
      (all : entries ⊆ master.getClientEntrySet) :
      Keeps core (findBestSharedStateTxPeer.scan group master entries) := by
    induction entries with
    | nil => exact pure _
    | cons entry entries ih =>
      have rest := ih fun other present => all (List.mem_cons_of_mem _ present)
      unfold findBestSharedStateTxPeer.scan
      split
      · next missing => exact logMissing (all (by simp)) same same missing
      · exact ite (fun _ => pure _) fun _ => rest
  exact read fun master same => scan master same _ fun _ => id

theorem sendSyncSharedState (group : Group) (uuid : Uuid) (address : SocketAddress)
    (info : ClientInfo) : Keeps core (sendSyncSharedState group uuid address info) := by
  refine ite (fun _ => bind (findBestSharedStateTxPeer group) fun distributor => ?_) fun _ => ?_
  · cases distributor with
    | none => exact sendPacket (fun _ _ => rfl) rfl _ _
    | some distributor =>
      refine read fun master _ => ?_
      dsimp only
      split
      · exact logBug rfl
      · exact sendPacket (fun _ _ => rfl) rfl _ _
  · exact ite (fun _ => sendPacket (fun _ _ => rfl) rfl _ _) fun _ => logBug rfl

theorem kickKeySetMismatch (group : Group) : Keeps core (kickKeySetMismatch group) := by
  have scan (master : MasterState) (same : master.core = core) (entries : List (Uuid × SocketAddress))
      (all : entries ⊆ master.getClientEntrySet) :
      Keeps core (kickKeySetMismatch.scan group master entries) := by
    induction entries with
    | nil => exact pure _
    | cons entry entries ih =>
      have rest := ih fun other present => all (List.mem_cons_of_mem _ present)
      unfold kickKeySetMismatch.scan
      split
      · next missing => exact logMissing (all (by simp)) same same missing
      · refine ite (fun _ => ?_) fun _ => rest
        split
        · exact logBug rfl
        · exact bind (kickClient _) fun _ => pure _
        · exact rest
  exact read fun master same => scan master same _ fun _ => id

theorem kickStrategyViolations (group : Group) : Keeps core (kickStrategyViolations group) := by
  refine read fun master _ => bind (forEachClient fun _ _ _ => when (kickClient _)) fun _ => ?_
  exact when (forEachClient fun _ _ _ => when (kickClient _))

theorem kickGroup (group : Group) : Keeps core (kickGroup group) :=
  forEachClient fun _ _ _ => when (kickClient _)

end SharedState

end Keeps

end Pccl.Master
