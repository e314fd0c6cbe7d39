import Pccl.Master.Footprints

set_option autoImplicit false

namespace Pccl.Master

open Packet Program

/-- The bandwidth store knows the accepted clients, and all clients have the same kind of address. -/
structure Enrolled (master : MasterState) : Prop where
  named : ∀ uuid info, master.getClientInfo uuid = some info → info.clientUuid = uuid
  stored : ∀ uuid peer,
    master.topology.bandwidthStore.registeredPeers.lookup uuid = some peer ↔
      ∃ info, master.getClientInfo uuid = some info ∧ info.connectionPhase = .accepted ∧
        peer = ⟨info.socketAddress.inet, info.peerGroup⟩
  uniform : ∀ uuid info other value, master.getClientInfo uuid = some info →
    master.getClientInfo other = some value →
    info.socketAddress.isLocal = value.socketAddress.isLocal

theorem Enrolled.initial : Enrolled MasterState.initial where
  named _ _ found := by cases found
  stored _ _ := by
    refine iff_of_false nofun ?_
    rintro ⟨_, found, _⟩
    cases found
  uniform _ _ _ _ found := by cases found

structure Accepts (joins : ClientInfo → Prop) (master next : MasterState) : Prop where
  after : ∀ uuid info, master.getClientInfo uuid = some info →
    ∃ later, next.getClientInfo uuid = some later ∧ later.clientUuid = info.clientUuid ∧
      later.socketAddress = info.socketAddress ∧ later.peerGroup = info.peerGroup ∧
      (later.connectionPhase = .accepted ↔ info.connectionPhase = .accepted ∨ joins info)
  before : ∀ uuid later, next.getClientInfo uuid = some later →
    ∃ info, master.getClientInfo uuid = some info

def Apart (parts : Set Part) : Prop :=
  Part.registry ∉ parts ∧ Part.phases ∉ parts ∧ Part.peers ∉ parts

theorem accepts_of_views {master next : MasterState}
    (registry : Part.registry.view next = Part.registry.view master)
    (phases : Part.phases.view next = Part.phases.view master) :
    Accepts (fun _ => False) master next := by
  have kept (uuid : Uuid) := congrFun (congrArg (fun view => view.2.2) registry) uuid
  have phase (uuid : Uuid) := congrFun phases uuid
  simp only [Part.view, MasterState.viewInfo] at kept phase
  refine ⟨fun uuid info found => ?_, fun uuid later found => ?_⟩
  · have same := kept uuid
    rw [found] at same
    obtain ⟨later, present, fields⟩ := Option.map_eq_some_iff.mp same
    have phase := phase uuid
    rw [found, present] at phase
    simp only [Prod.mk.injEq] at fields
    refine ⟨later, present, fields.1, fields.2.1, fields.2.2.2, ?_⟩
    rw [Option.some.inj phase]
    simp
  · have same := kept uuid
    rw [found] at same
    obtain ⟨info, present, _⟩ := Option.map_eq_some_iff.mp same.symm
    exact ⟨info, present⟩

namespace Enrolled

variable {master next : MasterState}

theorem accepted (enrolled : Enrolled master) {joins : ClientInfo → Prop}
    (accepts : Accepts joins master next)
    (learns : ∀ uuid peer,
      next.topology.bandwidthStore.registeredPeers.lookup uuid = some peer ↔
        master.topology.bandwidthStore.registeredPeers.lookup uuid = some peer ∨
          ∃ info, master.getClientInfo uuid = some info ∧ joins info ∧
            peer = ⟨info.socketAddress.inet, info.peerGroup⟩) : Enrolled next := by
  -- What a client of the next state was before.
  have earlier (uuid : Uuid) (later : ClientInfo) (found : next.getClientInfo uuid = some later) :
      ∃ info, master.getClientInfo uuid = some info ∧ later.clientUuid = info.clientUuid ∧
        later.socketAddress = info.socketAddress ∧ later.peerGroup = info.peerGroup ∧
        (later.connectionPhase = .accepted ↔ info.connectionPhase = .accepted ∨ joins info) := by
    obtain ⟨info, present⟩ := accepts.before uuid later found
    obtain ⟨again, is, fields⟩ := accepts.after uuid info present
    cases found.symm.trans is
    exact ⟨info, present, fields⟩
  refine ⟨fun uuid later found => ?_, fun uuid peer => ?_, fun uuid later other value found present => ?_⟩
  · obtain ⟨info, present, named, _⟩ := earlier uuid later found
    rw [named]
    exact enrolled.named uuid info present
  · rw [learns, enrolled.stored]
    constructor
    · rintro (⟨info, found, phase, rfl⟩ | ⟨info, found, joined, rfl⟩)
      all_goals
        obtain ⟨later, present, _, address, group, iff⟩ := accepts.after uuid info found
        exact ⟨later, present, iff.mpr (by simp [*]), by rw [address, group]⟩
    · rintro ⟨later, found, phase, rfl⟩
      obtain ⟨info, present, _, address, group, iff⟩ := earlier uuid later found
      rcases iff.mp phase with accepted | joined
      · exact Or.inl ⟨info, present, accepted, by rw [address, group]⟩
      · exact Or.inr ⟨info, present, joined, by rw [address, group]⟩
  · obtain ⟨first, here, _, address, _⟩ := earlier uuid later found
    obtain ⟨second, there, _, place, _⟩ := earlier other value present
    rw [address, place]
    exact enrolled.uniform uuid first other second here there

theorem within (enrolled : Enrolled master) {parts : Set Part} (apart : Apart parts)
    (within : Within parts master next) : Enrolled next := by
  have peers : next.topology.bandwidthStore.registeredPeers =
      master.topology.bandwidthStore.registeredPeers := within .peers apart.2.2
  refine enrolled.accepted (accepts_of_views (within .registry apart.1) (within .phases apart.2.1))
    fun uuid peer => ?_
  rw [peers]
  simp

end Enrolled

def Enrols {A : Type} (program : MasterM A) : Prop :=
  Preserves Enrolled (fun exit => exit.bug.ofRegistry = false) program

theorem Touches.enrols {A : Type} {parts : Set Part} {program : MasterM A}
    (touches : Touches parts program) (apart : Apart parts) : Enrols program := by
  intro master enrolled
  refine (touches master).imp (fun _ next within => enrolled.within apart within) fun exit left => ?_
  exact Bool.eq_false_iff.mpr fun bug => apart.2.2 (left.2 bug)

section Acceptance

variable {master : MasterState}

theorem onPeerAccepted_meets {info : ClientInfo} {post : Unit → MasterState → Prop}
    {fail : Exit → Prop}
    (fresh : master.topology.bandwidthStore.registeredPeers.lookup info.clientUuid = none)
    (placed : post () (master.setTopology { master.topology with
      bandwidthStore := { master.topology.bandwidthStore with
        registeredPeers := master.topology.bandwidthStore.registeredPeers.insert info.clientUuid
          ⟨info.socketAddress.inet, info.peerGroup⟩ } })) :
    (onPeerAccepted info).Meets master post fail := by
  refine .read ?_
  rw [BandwidthStore.registerPeer, if_neg (AList.lookup_eq_none.mp fresh)]
  exact placed

theorem registerAccepted_meets (accepted : List ClientInfo)
    (distinct : (accepted.map ClientInfo.clientUuid).Nodup)
    (fresh : ∀ info ∈ accepted,
      master.topology.bandwidthStore.registeredPeers.lookup info.clientUuid = none)
    {fail : Exit → Prop} :
    (registerAccepted accepted).Meets master
      (fun _ next => next.clients = master.clients ∧
        ∀ uuid peer, next.topology.bandwidthStore.registeredPeers.lookup uuid = some peer ↔
          master.topology.bandwidthStore.registeredPeers.lookup uuid = some peer ∨
            ∃ info ∈ accepted, info.clientUuid = uuid ∧
              peer = ⟨info.socketAddress.inet, info.peerGroup⟩) fail := by
  induction accepted generalizing master with
  | nil => exact ⟨rfl, by simp⟩
  | cons info accepted ih =>
    obtain ⟨apart, distinct⟩ := List.nodup_cons.mp distinct
    refine (meets_bind _ _).mpr (onPeerAccepted_meets (fresh info List.mem_cons_self) ?_)
    refine (ih distinct fun other present => ?_).imp (fun _ next registered => ?_) fun _ exit => exit
    · have different : other.clientUuid ≠ info.clientUuid :=
        fun same => apart (same ▸ List.mem_map_of_mem present)
      exact (AList.lookup_insert_ne different).trans (fresh other (List.mem_cons_of_mem _ present))
    · refine ⟨registered.1, fun uuid peer => (registered.2 uuid peer).trans ?_⟩
      have own := fresh info List.mem_cons_self
      simp only [MasterState.setTopology, Table.lookup_insert_iff, List.exists_mem_cons_iff]
      by_cases same : uuid = info.clientUuid
      · subst same
        simp [own, eq_comm]
      · simp [same, Ne.symm same]

theorem accepts_endRound {failure : Bool} {next : MasterState}
    (all : master.core.All fun info => (info.endRound failure).isSome)
    (clients : next.clients = { master.clients with
      clientInfo := master.clients.clientInfo.mapValues fun info => (info.endRound failure).getD info }) :
    Accepts (fun info => info.connectionPhase = .registered ∧
      info.connectionState = .waitingForOtherPeers) master next := by
  have infoOf (uuid : Uuid) : next.getClientInfo uuid =
      (master.getClientInfo uuid).map fun info => (info.endRound failure).getD info := by
    rw [MasterState.getClientInfo, clients]
    exact Table.lookup_mapKeyed _ master.clients.clientInfo uuid
  refine ⟨fun uuid info found => ?_, fun uuid later found => ?_⟩
  · obtain ⟨moved, is⟩ := Option.isSome_iff_exists.mp (all uuid info found)
    refine ⟨moved, by rw [infoOf, found, Option.map_some, is]; rfl, ?_⟩
    obtain ⟨_, state, rfl⟩ | ⟨waits, rfl⟩ | ⟨_, state, rfl⟩ := ClientInfo.endRound_cases is
    · simp [state]
    · cases phase : info.connectionPhase <;> simp [waits]
    · simp [state]
  · rw [infoOf] at found
    obtain ⟨info, present, _⟩ := Option.map_eq_some_iff.mp found
    exact ⟨info, present⟩

theorem transitionToP2PConnectionsEstablishedPhase_enrols (failure : Bool) :
    Enrols (transitionToP2PConnectionsEstablishedPhase failure) := by
  intro master enrolled
  refine .read ?_
  rcases updateAll_cases master (ClientInfo.endRound failure) with ⟨stuck, _⟩ | ⟨updated, all⟩
  · rw [stuck]
    exact enrolled
  · rw [updated]
    generalize accepts : (master.infos.filter fun info =>
      info.connectionPhase = .registered && info.connectionState = .waitingForOtherPeers) = accepted
    have member (info : ClientInfo) : info ∈ accepted ↔
        (∃ uuid, master.getClientInfo uuid = some info) ∧ info.connectionPhase = .registered ∧
          info.connectionState = .waitingForOtherPeers := by
      rw [← accepts, List.mem_filter, MasterState.mem_infos, Bool.and_eq_true, decide_eq_true_iff,
        decide_eq_true_iff]
      rfl
    have fresh (info : ClientInfo) (present : info ∈ accepted) :
        master.topology.bandwidthStore.registeredPeers.lookup info.clientUuid = none := by
      obtain ⟨⟨uuid, found⟩, registered, _⟩ := (member info).mp present
      rw [enrolled.named uuid info found, Option.eq_none_iff_forall_ne_some]
      intro peer known
      obtain ⟨other, again, phase, _⟩ := (enrolled.stored uuid peer).mp known
      cases found.symm.trans again
      rw [registered] at phase
      cases phase
    refine .write ?_
    refine Meets.bind (registerAccepted_meets accepted ?_ ?_) fun _ next registered => ?_
    · rw [← accepts]
      exact master.nodup_clientUuid enrolled.named _
    · exact fresh
    · refine enrolled.accepted (accepts_endRound all registered.1) fun uuid peer =>
        (registered.2 uuid peer).trans (or_congr Iff.rfl ?_)
      constructor
      · rintro ⟨info, present, rfl, rfl⟩
        obtain ⟨⟨key, found⟩, joins⟩ := (member info).mp present
        rw [enrolled.named key info found]
        exact ⟨info, found, joins, rfl⟩
      · rintro ⟨info, found, joins, rfl⟩
        exact ⟨info, (member info).mpr ⟨⟨uuid, found⟩, joins⟩, enrolled.named uuid info found, rfl⟩

theorem checkP2PConnectionsEstablished_enrols : Enrols checkP2PConnectionsEstablished := by
  have apart : Apart {.rings, .told .round} := by simp [Apart]
  have none : Apart ∅ := by simp [Apart]
  refine .bind ((Touches.anyClient _).enrols none) fun anyWaiting => .ite (fun _ => ?_) fun _ => .pure _
  refine .read fun master _ => .bind (.when ?_) fun _ => .pure _
  refine .bind ((Touches.anyClient _).enrols none) fun anyFailed => .bind
    (transitionToP2PConnectionsEstablishedPhase_enrols _) fun ended => .ite (fun _ => ?_) fun _ => ?_
  · refine .bind ?_ fun _ => Touches.enrols (.modify fun master part _ => ?_) none
    · refine Touches.enrols (.forEachClient fun _ _ _ => .when (.asks fun _ => .bind
        ((Touches.getRingTopology _ _).mono (by simp)) fun _ => ?_)) apart
      exact (Touches.sendPacket _ _ _).mono (by simp [topic])
    · cases part <;> rfl
  · exact .stop fun _ _ => rfl

theorem acceptFirstClient_enrols {uuid : Uuid} {info : ClientInfo} (enrolled : Enrolled master)
    (found : master.getClientInfo uuid = some info) (registered : info.connectionPhase = .registered) :
    (acceptFirstClient uuid info).Meets master (fun _ next => Enrolled next)
      fun exit => exit.bug.ofRegistry = false := by
  have named := enrolled.named uuid info found
  refine .change ?_
  refine (meets_bind _ _).mpr (onPeerAccepted_meets ?_ ?_)
  · rw [named, Option.eq_none_iff_forall_ne_some]
    intro peer known
    obtain ⟨other, again, phase, _⟩ := (enrolled.stored uuid peer).mp known
    cases found.symm.trans again
    rw [registered] at phase
    cases phase
  · generalize reached : MasterState.setTopology _ _ = middle
    have infoOf (other : Uuid) : middle.getClientInfo other =
        if other = uuid then (master.getClientInfo other).map fun info =>
          { info with connectionPhase := .accepted } else master.getClientInfo other := by
      rw [← reached]
      exact Table.lookup_adjust uuid other _ master.clients.clientInfo
    have accepts : Accepts (fun info => info.clientUuid = uuid) master middle := by
      refine ⟨fun other value present => ?_, fun other later present => ?_⟩
      · rw [infoOf, present, enrolled.named other value present]
        split
        · next same => exact ⟨_, rfl, enrolled.named other value present, by simp [same]⟩
        · next different => exact ⟨value, rfl, enrolled.named other value present, by simp [different]⟩
      · rw [infoOf] at present
        split at present
        · obtain ⟨value, earlier, _⟩ := Option.map_eq_some_iff.mp present
          exact ⟨value, earlier⟩
        · exact ⟨later, present⟩
    have accepted : Enrolled middle := by
      refine enrolled.accepted accepts fun other peer => ?_
      rw [← reached]
      simp only [MasterState.setTopology, MasterState.adjustInfo, MasterState.setClientInfo,
        Table.lookup_insert_iff, named]
      split
      · next same =>
        subst same
        rw [found]
        have unknown : master.topology.bandwidthStore.registeredPeers.lookup other ≠ some peer := by
          intro known
          obtain ⟨_, again, phase, _⟩ := (enrolled.stored other peer).mp known
          cases found.symm.trans again
          rw [registered] at phase
          cases phase
        simp [unknown, named, eq_comm]
      · next different =>
        refine (or_iff_left ?_).symm
        rintro ⟨value, present, same, _⟩
        exact different ((enrolled.named other value present).symm.trans same)
    have rest : Touches {.sync} (do
        let voted ← voteEstablishP2PConnections uuid true
        let master ← get
        if voted then
          if master.acceptNewPeersConsensus then
            transitionToP2PEstablishmentPhase true
            return true
          else logBug .firstClientConsensus
        else return false : MasterM Bool) := by
      refine .bind (Touches.vote .acceptNewPeers uuid).widen fun voted =>
        .asks fun _ => .ite (fun _ => .ite (fun _ => ?_)
          fun _ => .logBug (by simp [Bug.ofRegistry])) fun _ => .pure _
      exact .bind (Touches.transitionToP2PEstablishmentPhase true) fun _ => .pure _
    exact rest.enrols (by simp [Apart]) middle accepted

theorem Enrolled.isLocal_of_welcome (enrolled : Enrolled master) {address : SocketAddress}
    (welcome : ¬ master.refusesAddress address) {uuid : Uuid} {info : ClientInfo}
    (found : master.getClientInfo uuid = some info) :
    info.socketAddress.isLocal = address.isLocal := by
  have present : info ∈ master.infos := (master.mem_infos info).mpr ⟨uuid, found⟩
  have inhabited : master.infos.isEmpty = false := List.isEmpty_eq_false_iff.mpr (List.ne_nil_of_mem present)
  have all : master.infos.all (fun value => value.socketAddress.isLocal) = info.socketAddress.isLocal := by
    cases kind : info.socketAddress.isLocal with
    | true =>
      refine List.all_eq_true.mpr fun value here => ?_
      obtain ⟨other, there⟩ := (master.mem_infos value).mp here
      rw [enrolled.uniform other value uuid info there found, kind]
    | false =>
      refine List.all_eq_false.mpr ⟨info, present, ?_⟩
      simp [kind]
  simpa [MasterState.refusesAddress, inhabited, all] using welcome

theorem registerClient_enrols {address : SocketAddress} {uuid : Uuid} (enrolled : Enrolled master)
    (fresh : master.getClientInfo uuid = none) (ports : ClientVariablePorts) (group : Group) :
    (registerClient address ports group uuid).Meets master (fun _ next => Enrolled next)
      fun exit => exit.bug.ofRegistry = false := by
  refine .read ((meets_ite _ _ _).mpr ⟨fun _ => enrolled, fun free => ?_⟩)
  refine .write ?_
  generalize clients : Clients.mk _ _ _ = registered
  generalize reached : ({ master with clients := registered } : MasterState) = middle
  have infoOf (other : Uuid) : middle.getClientInfo other =
      if other = uuid then some ⟨uuid, .registered, .idle, false, ∅, address, ports, group⟩
      else master.getClientInfo other := by
    rw [← reached, ← clients]
    exact Table.lookup_insert_iff _ _ _ _
  have topology : middle.topology = master.topology := by rw [← reached]
  have joined : Enrolled middle := by
    refine ⟨fun other info found => ?_, fun other peer => ?_, fun other info third value found present => ?_⟩
    · rw [infoOf] at found
      split at found
      · next same =>
        cases found
        exact same.symm
      · exact enrolled.named other info found
    · rw [topology, enrolled.stored, infoOf]
      split
      · next same => simp [same, fresh]
      · exact Iff.rfl
    · have welcome : ¬ master.refusesAddress address := fun refused => free (Or.inl refused)
      rw [infoOf] at found present
      split at found <;> split at present
      · cases found
        cases present
        rfl
      · cases found
        exact (enrolled.isLocal_of_welcome welcome present).symm
      · cases present
        exact enrolled.isLocal_of_welcome welcome found
      · exact enrolled.uniform other info third value found present
  refine (meets_ite _ _ _).mpr ⟨fun _ => ?_, fun _ => joined⟩
  exact acceptFirstClient_enrols joined (by rw [infoOf, if_pos rfl]) rfl

end Acceptance

section Leaving

variable {environment : Environment} {master : MasterState}

theorem unregisterPeer_lookup {store next : BandwidthStore} {uuid : Uuid}
    (removed : store.unregisterPeer uuid = some next) (other : Uuid) :
    next.registeredPeers.lookup other =
      if other = uuid then none else store.registeredPeers.lookup other := by
  have erased : next.registeredPeers = store.registeredPeers.erase uuid := by
    unfold BandwidthStore.unregisterPeer at removed
    split at removed
    · cases removed
    · dsimp only at removed
      split at removed <;> cases removed <;> rfl
  rw [erased, Table.lookup_erase_iff]

theorem unregisterClient_enrols (enrolled : Enrolled master)
    (registry : Core.Registry environment master.core) (address : SocketAddress) :
    (unregisterClient address).Meets master (fun _ next => Enrolled next)
      fun exit => exit.bug.ofRegistry = false := by
  refine .read ?_
  cases known : master.findClientUUID address with
  | none => exact enrolled
  | some uuid =>
    obtain ⟨info, found, _⟩ := registry.info_of address uuid known
    have back : master.clients.uuidClients.lookup uuid = some address :=
      (registry.inverse address uuid).mp known
    have mapped : uuid ∈ master.clients.uuidClients := AList.lookup_isSome.mp (by rw [back]; rfl)
    have lookup : master.getClientInfo uuid = some info := found
    dsimp only
    rw [if_pos mapped, lookup]
    refine .write ?_
    generalize reached : MasterState.mk _ _ _ _ _ _ _ _ _ _ _ _ _ = middle
    have infoOf (other : Uuid) : middle.getClientInfo other =
        if other = uuid then none else master.getClientInfo other := by
      rw [← reached]
      exact Table.lookup_erase_iff master.clients.clientInfo uuid other
    have topology : middle.topology = master.topology := by rw [← reached]
    -- What is left once the bandwidth store has forgotten the client as well.
    have left (next : MasterState) (clients : next.clients = middle.clients)
        (forgets : ∀ other, next.topology.bandwidthStore.registeredPeers.lookup other =
          if other = uuid then none
          else master.topology.bandwidthStore.registeredPeers.lookup other) : Enrolled next := by
      have infoOf (other : Uuid) : next.getClientInfo other =
          if other = uuid then none else master.getClientInfo other := by
        rw [← infoOf, MasterState.getClientInfo, clients, MasterState.getClientInfo]
      have stays {other : Uuid} {value : ClientInfo} (present : next.getClientInfo other = some value) :
          master.getClientInfo other = some value := by
        rw [infoOf] at present
        split at present
        · cases present
        · exact present
      refine ⟨fun other value present => enrolled.named other value (stays present), fun other peer => ?_,
        fun other value third last present again =>
          enrolled.uniform other value third last (stays present) (stays again)⟩
      rw [forgets, infoOf]
      split
      · simp
      · exact enrolled.stored other peer
    have forgotten : (forgetBandwidth info uuid).Meets middle (fun _ next => Enrolled next)
        fun exit => exit.bug.ofRegistry = false := by
      refine (meets_when _ _).mpr ⟨fun _ => meets_modify _ |>.mpr (left _ rfl fun other => ?_),
        fun waiting => left middle rfl fun other => ?_⟩
      · simp only [MasterState.setTopology, topology]
        cases removed : master.topology.bandwidthStore.unregisterPeer uuid with
        | some next => exact unregisterPeer_lookup removed other
        | none =>
          unfold BandwidthStore.unregisterPeer at removed
          split at removed
          · next unknown =>
            split
            · next same => exact same ▸ unknown
            · rfl
          · dsimp only at removed
            split at removed <;> cases removed
      · rw [topology]
        split
        · next same =>
          rw [Option.eq_none_iff_forall_ne_some]
          intro peer stored
          obtain ⟨value, again, accepted, _⟩ := (enrolled.stored other peer).mp stored
          cases lookup.symm.trans (same ▸ again)
          exact waiting accepted
        · rfl
    exact Meets.bind forgotten fun _ next kept => kept

end Leaving

section Handlers

variable (environment : Environment) {master : MasterState}

theorem recheckVotes_enrols (environment : Environment) (group : Group) :
    Enrols (recheckVotes environment group) := by
  have drops : Touches ∅ (modify fun master => { master with peerDropped := true } : MasterM Unit) :=
    .modify fun master part _ => by cases part <;> rfl
  refine .bind (Touches.checkEstablishP2PConnectionConsensus.enrols (by simp [Apart])) fun _ => ?_
  refine .bind (drops.enrols (by simp [Apart])) fun _ => ?_
  refine .bind checkP2PConnectionsEstablished_enrols fun _ => ?_
  refine .bind (Touches.checkQueryPeersPendingConsensus.enrols (by simp [Apart])) fun _ => ?_
  refine .bind ((Touches.checkSyncSharedStateConsensus environment group).enrols (by simp [Apart]))
    fun _ => ?_
  refine .bind ((Touches.checkSyncSharedStateCompleteConsensus group).enrols (by simp [Apart])) fun _ => ?_
  exact .read fun _ _ => .forEach fun tag => (Touches.recheckOperation group tag).enrols (by simp [Apart])

theorem handle_enrols (valid : master.core.Valid environment) (enrolled : Enrolled master)
    (event : Event) :
    (handle environment event).Meets master (fun _ next => Enrolled next)
      fun exit => exit.bug.ofRegistry = false := by
  have usual (apart : Apart event.parts) : Enrols (handle environment event) :=
    (handle_touches environment event).enrols apart
  cases event with
  | background group => exact usual (by simp [Apart, Event.parts]) master enrolled
  | disconnect address =>
    refine .read ?_
    cases master.findClientUUID address with
    | none => exact enrolled
    | some uuid =>
      dsimp only
      cases master.getClientInfo uuid with
      | none => exact rfl
      | some info =>
        refine Meets.bind (unregisterClient_enrols enrolled valid.registry address)
          fun removed middle kept => ?_
        exact Preserves.when (recheckVotes_enrols environment info.peerGroup) middle kept
  | read address packet =>
    cases packet with
    | requestSessionRegistration p2p sharedState benchmark group =>
      refine .read ((meets_ite _ _ _).mpr ⟨fun _ => ?_, fun _ => ?_⟩)
      · exact (Touches.kickClient address).enrols (by simp [Apart]) master enrolled
      · refine .write ?_
        have counted : Within {.issued} master
            { master with generatedUuids := master.generatedUuids + 1 } := fun part out => by
          cases part with
          | issued => exact absurd rfl out
          | _ => rfl
        refine Meets.bind (registerClient_enrols (enrolled.within (by simp [Apart]) counted)
          valid.registry.unused.1 _ group) fun accepted middle kept => ?_
        have rest (uuid : Uuid) : Enrols (do
            sendPacket uuid address (.sessionRegistrationResponse accepted uuid)
            let master ← get
            if master.clients.clientUuids.size = 1 then sendP2PConnectionInformation true
            else checkEstablishP2PConnectionConsensus) := by
          refine .bind ((Touches.sendPacket _ _ _).enrols (by simp [Apart])) fun _ => .read fun _ _ => ?_
          refine .ite (fun _ => ?_) fun _ => ?_
          · exact (Touches.sendP2PConnectionInformation true).enrols (by simp [Apart])
          · exact Touches.checkEstablishP2PConnectionConsensus.enrols (by simp [Apart])
        exact rest _ middle kept
    | p2pConnectionsEstablished success failedPeers =>
      refine .read ?_
      have kicks : Enrols (kickClient address) := (Touches.kickClient address).enrols (by simp [Apart])
      cases master.findClientUUID address with
      | none => exact kicks master enrolled
      | some uuid =>
        refine Preserves.bind ((Touches.markP2PConnectionsEstablished uuid success failedPeers).enrols
          (by simp [Apart])) (fun counted => Preserves.ite (fun _ => ?_) fun _ => kicks) master enrolled
        exact .bind checkP2PConnectionsEstablished_enrols fun _ => .when (.stop fun _ _ => rfl)
    | _ => exact usual (by simp [Apart, Event.parts]) master enrolled

end Handlers

theorem run_enrolled (environment : Environment) (events : List Event) :
    (run environment events).Holds
      (fun master => master.core.Valid environment ∧ Enrolled master)
      fun exit => exit.bug.ofRegistry = false := by
  refine run_holds ⟨.initial environment, .initial⟩ (fun event master holds _ => ?_) events
    (lawful_true events)
  refine ((handle_served holds.1 event).and (handle_enrols environment holds.1 holds.2 event)).imp
    (fun _ next both => ⟨both.1.valid holds.1, both.2⟩) fun exit both => both.2

theorem registry_consistent (environment : Environment) (events : List Event) :
    (run environment events).Holds
      (fun master =>
        (∀ address uuid, master.clients.clientUuids.lookup address = some uuid ↔
          master.clients.uuidClients.lookup uuid = some address) ∧
        (∀ uuid address, master.clients.uuidClients.lookup uuid = some address ↔
          ∃ info, master.clients.clientInfo.lookup uuid = some info ∧ info.socketAddress = address) ∧
        (∀ uuid peer, master.topology.bandwidthStore.registeredPeers.lookup uuid = some peer ↔
          ∃ info, master.clients.clientInfo.lookup uuid = some info ∧
            info.connectionPhase = .accepted ∧
            peer = ⟨info.socketAddress.inet, info.peerGroup⟩) ∧
        ((∀ info ∈ master.infos, info.socketAddress.isLocal = true) ∨
          ∀ info ∈ master.infos, info.socketAddress.isLocal = false))
      fun exit => exit.bug ≠ .uuidMappingInconsistent ∧
        exit.bug ≠ .clientInfoMappingInconsistent ∧ exit.bug ≠ .bandwidthPeerRegistered := by
  refine (run_enrolled environment events).imp (fun master holds => ?_) fun exit other => ?_
  · obtain ⟨valid, enrolled⟩ := holds
    refine ⟨valid.registry.inverse, valid.registry.known, enrolled.stored, ?_⟩
    cases local_ : master.infos.all fun info => info.socketAddress.isLocal with
    | true => exact Or.inl (List.all_eq_true.mp local_)
    | false =>
      obtain ⟨info, present, remote⟩ := List.all_eq_false.mp local_
      obtain ⟨uuid, found⟩ := (master.mem_infos info).mp present
      refine Or.inr fun value here => ?_
      obtain ⟨other, there⟩ := (master.mem_infos value).mp here
      rw [enrolled.uniform other value uuid info there found]
      simpa using remote
  · refine ⟨?_, ?_, ?_⟩ <;> intro bug <;> rw [bug] at other <;> cases other

end Pccl.Master
