import Pccl.Master.Checks

set_option autoImplicit false

namespace Pccl.Master

open Packet Program

def Action.actor? : Action → Option Uuid
  | leave _ uuid | vote _ uuid _ | query uuid | report uuid _ | initiate uuid _ | complete uuid _ =>
    some uuid
  | _ => none

def request? (packet : C2MPacket) (uuid : Uuid) : Option Action :=
  match packet with
  | .requestEstablishP2PConnections acceptNewPeers => some (.vote (roundBallot acceptNewPeers) uuid none)
  | .p2pConnectionsEstablished success _ => some (.report uuid success)
  | .checkPeersPending => some (.query uuid)
  | .optimizeTopology => some (.vote .optimizeTopology uuid none)
  | .optimizeTopologyWorkComplete => some (.vote .completeTopologyOptimization uuid none)
  | .syncSharedState _ strategy _ => some (.vote .syncSharedState uuid (some strategy))
  | .distSharedStateComplete => some (.vote .syncSharedStateComplete uuid none)
  | .collectiveCommsInitiate tag _ _ _ => some (.initiate uuid tag)
  | .collectiveCommsComplete tag _ => some (.complete uuid tag)
  | _ => none

def Core.refuses (core : Core) (address : SocketAddress) : Bool :=
  !core.infos.isEmpty && core.infos.all (fun info => info.socketAddress.isLocal) != address.isLocal

def Event.action? (core : Core) : Event → Option Action
  | .read address (.requestSessionRegistration p2p sharedState benchmark group) =>
    if address ∈ core.clients.clientUuids then none
    else if core.refuses address then some .refuse
    else some (.register address ⟨p2p, sharedState, benchmark⟩ group)
  | .read address packet => (core.clients.clientUuids.lookup address).bind (request? packet)
  | .disconnect address => (core.clients.clientUuids.lookup address).map (.leave address)
  | .background _ => none

theorem Event.action_cases {event : Event} {core : Core} {action : Action}
    (asked : event.action? core = some action) :
    (action = .refuse ∨ ∃ address ports group, action = .register address ports group) ∨
      (∃ address packet uuid, event = .read address packet ∧
        core.clients.clientUuids.lookup address = some uuid ∧ request? packet uuid = some action) ∨
      ∃ address uuid, event = .disconnect address ∧
        core.clients.clientUuids.lookup address = some uuid ∧ action = .leave address uuid := by
  cases event with
  | disconnect address =>
    obtain ⟨uuid, known, rfl⟩ := Option.map_eq_some_iff.mp asked
    exact Or.inr (Or.inr ⟨address, uuid, rfl, known, rfl⟩)
  | background => cases asked
  | read address packet =>
    have requested (asked : (core.clients.clientUuids.lookup address).bind (request? packet) =
        some action) := Option.bind_eq_some_iff.mp asked
    cases packet with
    | requestSessionRegistration =>
      simp only [Event.action?] at asked
      split at asked
      · cases asked
      · split at asked
        · cases asked
          exact Or.inl (Or.inl rfl)
        · cases asked
          exact Or.inl (Or.inr ⟨_, _, _, rfl⟩)
    | _ =>
      obtain ⟨uuid, known, requests⟩ := requested asked
      exact Or.inr (Or.inl ⟨address, _, uuid, rfl, known, requests⟩)

theorem Event.not_answers {event : Event} {core : Core} {action : Action}
    (asked : event.action? core = some action) : action.answers = false := by
  rcases event.action_cases asked with (rfl | ⟨_, _, _, rfl⟩) | ⟨_, packet, _, _, _, requests⟩ |
    ⟨_, _, _, _, rfl⟩
  · rfl
  · rfl
  · cases packet <;> simp only [request?, Option.some.injEq, reduceCtorEq] at requests <;>
      subst requests <;> rfl
  · rfl

namespace Core

variable (environment : Environment)

def FollowsUp : Action → Core → Core → Prop
  | .refuse, core, next =>
    if core.clients.clientUuids.size = 1 then next = core else core.Establishes environment next
  | .register _ _ _, core, next =>
    if core.clients.clientUuids.size = 1 then
      ∃ uuid, core.enabled (.acceptFirst uuid) ∧ next = core.apply environment (.acceptFirst uuid)
    else core.Establishes environment next
  | .vote .acceptNewPeers _ _, core, next | .vote .establishP2PConnections _ _, core, next =>
    core.Establishes environment next
  | .report _ _, core, next => core.Closes environment next
  | .leave _ _, core, next =>
    ∃ middle closed, core.Establishes environment middle ∧
      (middle.apply environment .drop).Closes environment closed ∧ closed.Calm environment next
  | _, core, next => core.Calm environment next

/-- The votes that are looked at after an action. A disconnect is not taken as a reason to look at the
votes about the topology. -/
def Reconsiders (core : Core) (action : Action) (vote : Vote) : Prop :=
  action.raises vote ∧ (∃ uuid, action.actor? = some uuid ∧
      core.Has uuid fun info => vote.concerns info.peerGroup) ∧
    ((∃ address uuid, action = .leave address uuid) → vote.ofTopology = false)

def Served (event : Event) (core next : Core) : Prop :=
  next = core ∨ ∃ action, event.action? core = some action ∧ core.enabled action ∧
    FollowsUp environment action (core.apply environment action) next ∧
      ∀ vote, core.Reconsiders action vote → ¬ next.Unanimous vote

def Closing : Action → Core → Core → Prop
  | .report _ _, core, reached => reached = core
  | .leave _ _, core, reached =>
    ∃ middle, core.Establishes environment middle ∧ reached = middle.apply environment .drop
  | _, _, _ => False

/-- How an event can end the process. -/
inductive Ended (event : Event) (core : Core) (exit : Exit) : Prop
  | early (fatal : Fatal environment core exit)
  | late (action : Action) (asked : event.action? core = some action) (enabled : core.enabled action)
      (fatal : Fatal environment (core.apply environment action) exit)
  | jammed (action : Action) (asked : event.action? core = some action)
      (enabled : core.enabled action) (bug : exit.bug = .p2pConnectionsEstablishedPhase)
      (closing : Closing environment action (core.apply environment action) exit.master.core)
      (jammed : exit.master.core.Jammed)

end Core

section Votes

variable {environment : Environment}

def Takes (environment : Environment) (action : Action) (program : MasterM Bool) : Prop :=
  ∀ master : MasterState, master.core.Valid environment →
    program.Meets master
      (fun counted next =>
        (counted = true ∧ master.core.enabled action ∧
            next.core = master.core.apply environment action) ∨
          (counted = false ∧ next.core = master.core))
      (Unseen master.core)

theorem vote_counts {master : MasterState} {ballot : Ballot} {uuid : Uuid} {info : ClientInfo}
    (found : master.core.info uuid = some info) (named : info.clientUuid = uuid)
    (accepted : info.connectionPhase = .accepted) (admitted : info.connectionState ∈ ballot.admits)
    (fresh : uuid ∉ master.core.votes.voters info.peerGroup ballot) {fail : Exit → Prop} :
    (vote ballot uuid).Meets master
      (fun counted next => counted = true ∧
        next.core = { master.core.changeInfos (Action.vote ballot uuid none).change with
          votes := master.core.votes.cast info.peerGroup ballot uuid none }) fail := by
  have lookup : master.getClientInfo uuid = some info := found
  have free : info.clientUuid ∉ master.votes.voters info.peerGroup ballot := named ▸ fresh
  refine .read ?_
  rw [lookup]
  dsimp only
  rw [if_pos ⟨accepted, admitted⟩]
  refine .write ?_
  rw [if_neg free]
  refine .change ⟨rfl, ?_⟩
  rw [← named]
  rfl

theorem Core.Valid.unvoted {core : Core} (valid : core.Valid environment) {ballot : Ballot}
    {uuid : Uuid} {info : ClientInfo} (found : core.info uuid = some info)
    (admitted : info.connectionState ∈ ballot.admits) :
    uuid ∉ core.votes.voters info.peerGroup ballot := by
  intro voted
  obtain ⟨other, present, casts⟩ := (valid.ballots.voted ballot info.peerGroup uuid).mp voted
  cases found.symm.trans present
  exact ballot.not_isVote_of_admits admitted (casts.1 ▸ ballot.isVote_cast)

theorem vote_meets {master : MasterState} (valid : master.core.Valid environment) (ballot : Ballot)
    (uuid : Uuid) {fail : Exit → Prop} :
    (vote ballot uuid).Meets master
      (fun counted next =>
        (counted = true ∧ ∃ info, master.core.info uuid = some info ∧
            info.connectionPhase = .accepted ∧ info.connectionState ∈ ballot.admits ∧
            next.core = { master.core.changeInfos (Action.vote ballot uuid none).change with
              votes := master.core.votes.cast info.peerGroup ballot uuid none }) ∨
          (counted = false ∧ next.core = master.core)) fail := by
  cases found : master.core.info uuid with
  | none =>
    have absent : master.getClientInfo uuid = none := found
    refine .read ?_
    rw [absent]
    exact Or.inr ⟨rfl, rfl⟩
  | some info =>
    by_cases admitted : info.connectionPhase = .accepted ∧ info.connectionState ∈ ballot.admits
    · refine (vote_counts found (valid.registry.named uuid info found) admitted.1 admitted.2
        (valid.unvoted found admitted.2)).imp (fun _ next counted => ?_) fun _ exit => exit
      exact Or.inl ⟨counted.1, info, rfl, admitted.1, admitted.2, counted.2⟩
    · have lookup : master.getClientInfo uuid = some info := found
      refine .read ?_
      rw [lookup]
      dsimp only
      rw [if_neg admitted]
      exact Or.inr ⟨rfl, rfl⟩

theorem vote_takes (ballot : Ballot) (other : ballot ≠ .syncSharedState) (uuid : Uuid) :
    Takes environment (.vote ballot uuid none) (vote ballot uuid) := by
  intro master valid
  refine (vote_meets valid ballot uuid).imp ?_ fun _ exit => exit
  rintro counted next (⟨rfl, info, found, accepted, admitted, reached⟩ | refused)
  · refine Or.inl ⟨rfl, ⟨⟨info, found, accepted, admitted⟩, by simp [other]⟩, ?_⟩
    rw [reached]
    simp [Core.apply, Core.move, Core.castVotes, found]
  · exact Or.inr refused

theorem voteSyncSharedState_takes (uuid : Uuid) (strategy : SyncStrategy) :
    Takes environment (.vote .syncSharedState uuid (some strategy)) (voteSyncSharedState uuid strategy) := by
  intro master valid
  refine Meets.bind (vote_meets valid .syncSharedState uuid) ?_
  rintro counted next (⟨rfl, info, found, accepted, admitted, reached⟩ | ⟨rfl, same⟩)
  · refine .read ?_
    -- Whoever is idle has not declared anything.
    have fresh : uuid ∉ next.votes.sharedStateSyncStrategies := by
      have votes : next.votes = master.core.votes.cast info.peerGroup .syncSharedState uuid none :=
        congrArg Core.votes reached
      rw [votes]
      intro declared
      obtain ⟨other, present, declares⟩ := (valid.ballots.declared uuid).mp declared
      cases found.symm.trans present
      simp only [Ballot.admits, List.mem_singleton] at admitted
      rw [admitted] at declares
      cases declares
    rw [if_pos rfl, if_neg fresh]
    refine .write (Or.inl ⟨rfl,
      ⟨⟨info, found, accepted, admitted⟩, by simp⟩, ?_⟩)
    change { next.core with votes := { next.core.votes with
      sharedStateSyncStrategies := next.core.votes.sharedStateSyncStrategies.insert uuid strategy } } = _
    rw [reached]
    simp only [Core.apply, Core.move, Core.castVotes, found]
    rfl
  · exact Or.inr ⟨rfl, same⟩

theorem voteQueryWaitingPeersPending_takes (uuid : Uuid) :
    Takes environment (.query uuid) (voteQueryWaitingPeersPending uuid) := by
  intro master valid
  refine .read ?_
  cases found : master.getClientInfo uuid with
  | none => exact Or.inr ⟨rfl, rfl⟩
  | some info =>
    dsimp only
    split
    · next admitted => exact Or.inl ⟨rfl, ⟨info, found, admitted.1⟩, rfl⟩
    · exact Or.inr ⟨rfl, rfl⟩

theorem voteCollectiveCommsInitiate_takes (uuid : Uuid) (tag : Tag) :
    Takes environment (.initiate uuid tag) (voteCollectiveCommsInitiate uuid tag) := by
  intro master valid
  refine .read ?_
  cases found : master.getClientInfo uuid with
  | none => exact Or.inr ⟨rfl, rfl⟩
  | some info =>
    dsimp only
    split
    · next admitted => exact Or.inl ⟨rfl, ⟨info, found, admitted⟩, rfl⟩
    · exact Or.inr ⟨rfl, rfl⟩

theorem voteCollectiveCommsComplete_takes (uuid : Uuid) (tag : Tag) :
    Takes environment (.complete uuid tag) (voteCollectiveCommsComplete uuid tag) := by
  intro master valid
  refine .read ?_
  cases found : master.getClientInfo uuid with
  | none => exact Or.inr ⟨rfl, rfl⟩
  | some info =>
    dsimp only
    split
    · next admitted => exact Or.inl ⟨rfl, ⟨info, found, admitted⟩, rfl⟩
    · exact Or.inr ⟨rfl, rfl⟩

theorem markP2PConnectionsEstablished_takes (uuid : Uuid) (success : Bool) (failedPeers : List Uuid) :
    Takes environment (.report uuid success) (markP2PConnectionsEstablished uuid success failedPeers) := by
  intro master valid
  refine .read ?_
  cases found : master.getClientInfo uuid with
  | none => exact Or.inr ⟨rfl, rfl⟩
  | some info =>
    dsimp only
    split
    · exact Or.inr ⟨rfl, rfl⟩
    · next connecting =>
      have enabled : master.core.enabled (.report uuid success) :=
        ⟨info, found, not_not.mp connecting⟩
      cases success with
      | true => exact Or.inl ⟨rfl, enabled, rfl⟩
      | false =>
        rw [if_neg Bool.false_ne_true]
        refine .write ?_
        cases (master.recordFailedPeers uuid failedPeers).reroute uuid info with
        | none => exact Or.inr ⟨rfl, rfl⟩
        | some ring =>
          dsimp only
          cases changed : (master.recordFailedPeers uuid failedPeers).setRingTopology info.peerGroup
              ring false with
          | none => exact ⟨rfl, fun _ => rfl⟩
          | some next =>
            have same : next.core = (master.recordFailedPeers uuid failedPeers).core :=
              Keeps.setRingTopology changed
            refine Or.inl ⟨rfl, enabled, ?_⟩
            change next.core.move (.report uuid false) = _
            rw [same]
            rfl

end Votes

section Handlers

abbrev Serves (environment : Environment) (event : Event) (master : MasterState)
    (program : MasterM Unit) : Prop :=
  program.Meets master (fun _ next => Core.Served environment event master.core next.core)
    (Core.Ended environment event master.core)

variable {environment : Environment} {event : Event} {master : MasterState}

theorem Keeps.served {program : MasterM Unit} (keeps : Keeps master.core program)
    (valid : master.core.Valid environment) :
    Serves environment event master program :=
  (keeps master rfl).imp (fun _ _ same => Or.inl same) fun _ unseen =>
    .early (unseen.fatal valid.registry)

theorem withClient_served {address : SocketAddress} {packet : C2MPacket}
    (valid : master.core.Valid environment) {body : Uuid → MasterM Unit} {action : Uuid → Action}
    (asks : request? packet = fun uuid => some (action uuid))
    (served : ∀ uuid, master.core.clients.clientUuids.lookup address = some uuid →
      Event.action? master.core (.read address packet) = some (action uuid) →
      Serves environment (.read address packet) master (body uuid)) :
    Serves environment (.read address packet) master (withClient address body) := by
  refine .read ?_
  cases found : master.findClientUUID address with
  | none => exact (Keeps.kickClient address).served valid
  | some uuid =>
    have lookup : master.core.clients.clientUuids.lookup address = some uuid := found
    refine served uuid found ?_
    cases packet with
    | requestSessionRegistration => cases congrFun asks uuid
    | _ => simp [Event.action?, lookup, asks]

theorem Takes.served {address : SocketAddress} {action : Action} {program : MasterM Bool}
    {body : MasterM Unit} (takes : Takes environment action program)
    (valid : master.core.Valid environment) (asked : event.action? master.core = some action)
    (follows : ∀ middle : MasterState, middle.core = master.core.apply environment action →
      master.core.enabled action → middle.core.Valid environment →
      body.Meets middle
        (fun _ next => Core.FollowsUp environment action middle.core next.core ∧
          ∀ vote, master.core.Reconsiders action vote → ¬ next.core.Unanimous vote)
        (Core.Ended environment event master.core)) :
    Serves environment event master (do
      let counted ← program
      kickUnless address counted body : MasterM Unit) := by
  refine Meets.bind ((takes master valid).imp (fun _ _ taken => taken)
    fun _ unseen => .early (unseen.fatal valid.registry)) ?_
  rintro counted middle (⟨rfl, enabled, reached⟩ | ⟨rfl, same⟩)
  · refine (follows middle reached enabled (reached ▸ valid.apply enabled)).imp ?_ fun _ exit => exit
    rintro _ next ⟨follows, settled⟩
    exact Or.inr ⟨action, asked, enabled, reached ▸ follows, settled⟩
  · exact same ▸ Keeps.served (Keeps.kickClient address) (same ▸ valid)

theorem Takes.served_calmly {address : SocketAddress} {action : Action} {program : MasterM Bool}
    {body : MasterM Unit} (takes : Takes environment action program)
    (valid : master.core.Valid environment) (asked : event.action? master.core = some action)
    (calmly : ∀ core next, core.Calm environment next → Core.FollowsUp environment action core next)
    {votes : Set Vote} (resolves : Resolves environment votes body)
    (covers : ∀ vote, action.raises vote → vote ∈ votes) :
    Serves environment event master (do
      let counted ← program
      kickUnless address counted body : MasterM Unit) := by
  refine takes.served valid asked fun middle reached enabled between => ?_
  refine (resolves middle between).imp ?_ fun exit fatal => ?_
  · exact fun _ next settled => ⟨calmly _ _ settled.1, fun vote reconsiders =>
      settled.2 vote (covers vote reconsiders.1)⟩
  · exact .late action asked enabled (reached ▸ fatal)

theorem Takes.served_in_group {address : SocketAddress} {action : Action} {program : MasterM Bool}
    {uuid : Uuid} {body : Group → MasterM Unit} (takes : Takes environment action program)
    (valid : master.core.Valid environment) (asked : event.action? master.core = some action)
    (plain : action.plain)
    (calmly : ∀ core next, core.Calm environment next → Core.FollowsUp environment action core next)
    (actor : action.actor? = some uuid)
    (known : master.core.clients.clientUuids.lookup address = some uuid)
    (votes : Group → Set Vote)
    (resolves : ∀ (middle : MasterState) before info, middle.core.Valid environment →
      middle.core.info uuid = some info → action.Moves uuid before info →
      ResolvesAt environment (votes info.peerGroup) (body info.peerGroup) middle)
    (covers : ∀ group vote, action.raises vote → vote.concerns group → vote ∈ votes group) :
    Serves environment event master (do
      let counted ← program
      kickUnless address counted (withGroup uuid body) : MasterM Unit) := by
  refine takes.served valid asked fun middle reached enabled between => ?_
  obtain ⟨info, found, _⟩ := valid.registry.info_of address uuid known
  obtain ⟨next, present, moves⟩ := @Core.moves_on _ environment _ plain enabled _ _ found
  have lookup : middle.getClientInfo uuid = some next := by
    change middle.core.info uuid = _
    rw [reached, present]
  refine .read ?_
  rw [lookup]
  refine (resolves middle info next between lookup moves).imp ?_ fun exit fatal => ?_
  · refine fun _ last settled => ⟨calmly _ _ settled.1, fun vote reconsiders => settled.2 vote ?_⟩
    rw [moves.keeps.2.2]
    obtain ⟨raises, ⟨_, acts, concerns⟩, _⟩ := reconsiders
    cases actor.symm.trans acts
    exact covers _ vote raises (concerns.of_info found)
  · exact .late action asked enabled (reached ▸ fatal)

namespace Core

variable {core next : Core}

theorem Starts.settled {acceptNewPeers : Bool} (starts : core.Starts environment acceptNewPeers next)
    {vote : Vote} (settles : (Action.startRound acceptNewPeers).settles vote)
    (casts : ∀ info, vote.hasCast info → info.connectionState = (roundBallot acceptNewPeers).cast) :
    ¬ next.Unanimous vote := by
  rcases starts with ⟨enabled, rfl⟩ | ⟨disabled, rfl⟩
  · exact not_unanimous_of_settles rfl enabled settles
  · refine fun unanimous => disabled fun uuid info found accepted => casts info ?_
    exact unanimous.all found accepted (by cases vote <;> first | rfl | cases settles)

theorem Establishes.settled (establishes : core.Establishes environment next)
    (valid : core.Valid environment) :
    ¬ next.Unanimous .acceptNewPeers ∧ ¬ next.Unanimous .establishP2PConnections := by
  obtain ⟨middle, first, second⟩ := establishes
  have settled : ¬ middle.Unanimous .acceptNewPeers :=
    first.settled trivial fun info cast => of_decide_eq_true cast
  refine ⟨fun unanimous => settled ?_, second.settled trivial fun info cast => of_decide_eq_true cast⟩
  exact second.answers.unanimous_before (first.answers.valid valid) unanimous

end Core

theorem handleEstablishP2PConnections_served (valid : master.core.Valid environment)
    (address : SocketAddress) (acceptNewPeers : Bool) :
    Serves environment (.read address (.requestEstablishP2PConnections acceptNewPeers)) master
      (handleEstablishP2PConnections address acceptNewPeers) := by
  refine withClient_served valid rfl fun uuid found is => ?_
  have takes : Takes environment (.vote (roundBallot acceptNewPeers) uuid none)
      (voteEstablishP2PConnections uuid acceptNewPeers) :=
    vote_takes _ (by cases acceptNewPeers <;> simp [roundBallot]) uuid
  refine takes.served valid is fun middle reached enabled between => ?_
  refine (checkEstablishP2PConnectionConsensus_meets between).imp ?_ fun exit fatal =>
    .late _ is enabled (reached ▸ fatal)
  intro _ next establishes
  have settled := establishes.settled between
  refine ⟨by cases acceptNewPeers <;> exact establishes, fun vote reconsiders => ?_⟩
  have raises := reconsiders.1
  cases acceptNewPeers <;> cases vote <;> simp_all [Action.raises, roundBallot]

theorem handleP2PConnectionsEstablished_served (valid : master.core.Valid environment)
    (address : SocketAddress) (success : Bool) (failedPeers : List Uuid) :
    Serves environment (.read address (.p2pConnectionsEstablished success failedPeers)) master
      (handleP2PConnectionsEstablished address success failedPeers) := by
  refine withClient_served valid rfl fun uuid found is => ?_
  refine (markP2PConnectionsEstablished_takes uuid success failedPeers).served valid is
    fun middle reached enabled between => ?_
  refine Meets.bind ((checkP2PConnectionsEstablished_meets between).imp
    (fun _ _ closes => closes) fun exit => ?_) fun waiting next closes => ?_
  · rintro (fatal | ⟨bug, same, jammed⟩)
    · exact .late _ is enabled (reached ▸ fatal)
    · exact .jammed _ is enabled bug (same.trans reached) (same ▸ jammed)
  · refine (meets_when _ _).mpr ⟨fun _ => ?_, fun _ => ⟨closes.1, fun vote reconsiders => ?_⟩⟩
    · have further : (master.core.apply environment (.report uuid success)).Answers environment
          next.core := reached ▸ closes.1.answers
      exact .late _ is enabled (Fatal.after further (.here rfl (.refl _)))
    · exact reconsiders.1.elim

theorem handleCheckPeersPending_served (valid : master.core.Valid environment)
    (address : SocketAddress) :
    Serves environment (.read address .checkPeersPending) master
      (handleCheckPeersPending address) := by
  refine withClient_served valid rfl fun uuid found is => ?_
  refine (voteQueryWaitingPeersPending_takes uuid).served_calmly valid is (fun _ _ calm => calm)
    checkQueryPeersPendingConsensus_resolves fun vote raises => ?_
  cases vote <;> simp_all [Action.raises]

theorem handleOptimizeTopology_served (valid : master.core.Valid environment)
    (address : SocketAddress) :
    Serves environment (.read address .optimizeTopology) master
      (handleOptimizeTopology address) := by
  refine withClient_served valid rfl fun uuid found is => ?_
  refine (vote_takes .optimizeTopology nofun uuid).served_calmly valid is (fun _ _ calm => calm)
    checkTopologyOptimizationConsensus_resolves fun vote raises => ?_
  cases vote <;> simp_all [Action.raises]

theorem handleOptimizeTopologyWorkComplete_served (valid : master.core.Valid environment)
    (address : SocketAddress) :
    Serves environment (.read address .optimizeTopologyWorkComplete) master
      (handleOptimizeTopologyWorkComplete environment address) := by
  refine withClient_served valid rfl fun uuid found is => ?_
  refine (vote_takes .completeTopologyOptimization nofun uuid).served_calmly valid is
    (fun _ _ calm => calm) checkTopologyOptimizationCompletionConsensus_resolves
    fun vote raises => ?_
  cases vote <;> simp_all [Action.raises]

theorem handleReportPeerBandwidth_served (valid : master.core.Valid environment)
    (address : SocketAddress) (toPeer : Uuid) (bandwidth : Bandwidth) :
    Serves environment (.read address (.reportPeerBandwidth toPeer bandwidth)) master
      (handleReportPeerBandwidth address toPeer bandwidth) := by
  refine Keeps.served (.read fun middle _ => ?_) valid
  cases middle.findClientUUID address with
  | none => exact .kickClient address
  | some uuid => exact .storePeerBandwidth uuid toPeer bandwidth

theorem handleSyncSharedState_served (valid : master.core.Valid environment) (address : SocketAddress)
    (revision : BitVec 64) (strategy : SyncStrategy) (hashes : List SharedStateHashEntry) :
    Serves environment (.read address (.syncSharedState revision strategy hashes)) master
      (handleSyncSharedState environment address revision strategy hashes) := by
  refine withClient_served valid rfl fun uuid found is => ?_
  refine .read ?_
  cases master.getClientInfo uuid with
  | none => exact Or.inl rfl
  | some info =>
    refine Meets.bind ((Keeps.isNewRevisionLegal uuid revision master rfl).imp
      (fun _ _ same => same) fun _ unseen => .early (unseen.fatal valid.registry))
      fun status middle same => ?_
    rw [← same] at valid is ⊢
    refine (meets_ite _ _ _).mpr ⟨fun _ => (Keeps.kickClient address).served valid, fun _ => ?_⟩
    have rest : Resolves environment ∅ (do
        voteSharedStateMask uuid hashes
        let resolved ← checkSyncSharedStateConsensus environment info.peerGroup
        when (¬ resolved) (kickGroup info.peerGroup)) := by
      refine .after (fun _ => .voteSharedStateMask uuid hashes) fun _ => ?_
      have kicks (resolved : Bool) :
          Resolves environment ∅ (when (¬ resolved) (kickGroup info.peerGroup)) :=
        .when (.of_keeps fun _ => .kickGroup info.peerGroup)
      exact ((checkSyncSharedStateConsensus_resolves info.peerGroup).bind kicks).mono (by simp)
    refine (voteSyncSharedState_takes uuid strategy).served_calmly valid is (fun _ _ calm => calm) rest
      fun vote raises => ?_
    -- Who votes to synchronize casts none of the votes that are looked at here.
    cases vote <;> simp_all [Action.raises]

theorem handleSyncSharedStateComplete_served (valid : master.core.Valid environment)
    (address : SocketAddress) :
    Serves environment (.read address .distSharedStateComplete) master
      (handleSyncSharedStateComplete address) := by
  refine withClient_served valid rfl fun uuid found is => ?_
  refine (vote_takes .syncSharedStateComplete nofun uuid).served_in_group valid is rfl
    (fun _ _ calm => calm) rfl found (fun group => {.completeSharedStateSync group})
    (fun middle _ info between _ _ =>
      checkSyncSharedStateCompleteConsensus_resolves info.peerGroup middle between)
    fun group vote raises concerns => ?_
  cases vote <;> simp_all [Action.raises, Vote.concerns]

theorem handleCollectiveCommsInitiate_served (valid : master.core.Valid environment)
    (address : SocketAddress) (tag : Tag) (dataType : Ring.DataType) (count : Nat)
    (op : Ring.ReduceOp) :
    Serves environment (.read address (.collectiveCommsInitiate tag dataType count op)) master
      (handleCollectiveCommsInitiate address tag) := by
  refine withClient_served valid rfl fun uuid found is => ?_
  have resolves (middle : MasterState) (before info : ClientInfo) (between : middle.core.Valid environment)
      (present : middle.core.info uuid = some info)
      (moves : (Action.initiate uuid tag).Moves uuid before info) :
      ResolvesAt environment {.collectiveInitiate info.peerGroup tag}
        (checkCollectiveCommsInitiateConsensus info.peerGroup tag) middle := by
    refine checkCollectiveCommsInitiateConsensus_resolves between ⟨uuid, info, present, ?_⟩ tag
    cases moves with
    | skip other => exact absurd rfl other
    | initiate accepted => exact (ClientInfo.takesPart_iff _ _).mpr ⟨accepted, rfl⟩
  refine (voteCollectiveCommsInitiate_takes uuid tag).served_in_group valid is rfl
    (fun _ _ calm => calm) rfl found (fun group => {.collectiveInitiate group tag}) resolves
    fun group vote raises concerns => ?_
  cases vote <;> simp_all [Action.raises, Vote.concerns]

theorem handleCollectiveCommsComplete_served (valid : master.core.Valid environment)
    (address : SocketAddress) (tag : Tag) (wasAborted : Bool) :
    Serves environment (.read address (.collectiveCommsComplete tag wasAborted)) master
      (handleCollectiveCommsComplete address tag wasAborted) := by
  refine withClient_served valid rfl fun uuid found is => ?_
  refine (voteCollectiveCommsComplete_takes uuid tag).served valid is
    fun middle reached enabled between => ?_
  obtain ⟨info, present, accepted, performs⟩ := id enabled
  have after : middle.core.info uuid = some (info.setTag tag .voteComplete) := by
    rw [reached, Core.info_apply _ rfl, present]
    simp [Action.change]
  have lookup : middle.getClientInfo uuid = some (info.setTag tag .voteComplete) := after
  refine .read ?_
  rw [lookup]
  have aborts : middle.core.enabled (.abort info.peerGroup tag) := by
    refine ⟨uuid, _, after, ?_, Or.inr ?_⟩
    · simp [ClientInfo.takesPart, ClientInfo.setTag, accepted]
    · simp [ClientInfo.setTag]
  have first (fail : Exit → Prop) : (when wasAborted (abortOperation info.peerGroup tag)).Meets middle
      (fun _ next => middle.core.Calm environment next.core) fail := by
    refine (meets_when _ _).mpr ⟨fun _ => ?_, fun _ => .refl _⟩
    refine (abortOperation_meets between info.peerGroup tag).imp (fun _ next applied => ?_) fun _ exit => exit
    rw [applied]
    exact .single rfl aborts
  refine Meets.bind (first _) fun _ next calm => ?_
  refine (checkCollectiveCommsCompleteConsensus_resolves info.peerGroup tag next
    (calm.valid between)).imp ?_ fun exit fatal => ?_
  · rintro _ last ⟨further, settled⟩
    refine ⟨calm.trans further, fun vote reconsiders => settled vote ?_⟩
    obtain ⟨raises, ⟨_, ⟨⟩, concerns⟩, _⟩ := reconsiders
    have here := concerns.of_info present
    cases vote <;> simp_all [Action.raises, Vote.concerns]
  · have answers : (master.core.apply environment (.complete uuid tag)).Answers environment next.core :=
      reached ▸ calm.answers
    exact .late _ is enabled (fatal.after answers)

theorem acceptFirstClient_meets (valid : master.core.Valid environment) {uuid : Uuid}
    (enabled : master.core.enabled (.acceptFirst uuid)) (first : ClientInfo) :
    (acceptFirstClient uuid first).Meets master
      (fun ok next => ok = true ∧ next.core = master.core.move (.acceptFirst uuid))
      (fun exit => exit.bug.ofProtocol = false ∧ exit.master.core.log = master.core.log) := by
  obtain ⟨⟨info, found, registered, idle⟩, _⟩ := id enabled
  have named := valid.registry.named uuid info found
  have only (other : Uuid) (value : ClientInfo) (present : master.core.info other = some value) :
      other = uuid := valid.registry.eq_of_acceptFirst enabled present
  -- Nobody has voted for anything yet.
  have nobody (ballot : Ballot) (group : Group) : master.core.votes.voters group ballot = ∅ := by
    refine Finset.eq_empty_of_forall_notMem fun other voted => ?_
    obtain ⟨value, present, casts⟩ := (valid.ballots.voted ballot group other).mp voted
    obtain rfl := only other value present
    cases found.symm.trans present
    have vote := ballot.isVote_cast
    rw [← casts.1, idle] at vote
    cases vote
  let accept (other : Uuid) (value : ClientInfo) : ClientInfo :=
    if other = uuid then { value with connectionPhase := .accepted } else value
  have accepted (middle : MasterState) (at_ : middle.core = master.core.changeInfos accept) :
      middle.core.info uuid = some { info with connectionPhase := .accepted } := by
    rw [at_, Core.info_changeInfos, found]
    simp [accept]
  refine .change ?_
  refine Meets.bind ((Keeps.onPeerAccepted first _ rfl).imp (fun _ _ same => same)
    fun exit unseen => ⟨unseen.2 ?_, ?_⟩) fun _ middle at_ => ?_
  · exact @Core.Accounted.changed _ _ valid.registry.accounted accept rfl
  · rw [unseen.1]
    rfl
  have at_ : middle.core = master.core.changeInfos accept := at_
  have votes : middle.core.votes = master.core.votes := by rw [at_]; rfl
  refine Meets.bind (vote_counts (accepted middle at_) named rfl (by simp [idle, Ballot.admits])
    (by simp [votes, nobody])) ?_
  rintro voted next ⟨rfl, reached⟩
  rw [at_, if_pos rfl] at reached
  have clients : next.core.clients = (master.core.changeInfos fun other value =>
      (Action.vote .acceptNewPeers uuid none).change other (accept other value)).clients := by
    rw [reached]
    simp only [Core.changeInfos, Table.mapKeyed_mapKeyed]
  have registry : Core.Registry environment next.core := by
    refine valid.registry.changed (fun other value present => ?_) clients (fun _ _ => ?_)
      (by rw [reached]; exact le_refl _)
    · obtain rfl := only other value present
      simp [accept, Action.change, ClientInfo.enter]
    · rw [reached]
      exact ⟨fun _ => rfl, rfl⟩
  have consensus : next.acceptNewPeersConsensus := by
    refine (next.ballotConsensus_iff registry .acceptNewPeers).mpr fun other value present _ => ?_
    rw [Core.info, clients] at present
    obtain ⟨before, earlier, rfl⟩ := Option.map_eq_some_iff.mp
      ((Core.info_changeInfos _ other).symm.trans present)
    obtain rfl := only other before earlier
    simp [Action.change, ClientInfo.enter]
  refine .read ?_
  rw [if_pos rfl, if_pos consensus]
  refine .change ⟨rfl, ?_⟩
  change { next.core.changeInfos (fun _ value => if true ∨ value.connectionPhase = .accepted then
      value.enter .connectingToPeers else value) with
    votes := next.core.votes.clear 0 .acceptNewPeers } = _
  rw [reached]
  simp only [Core.move, Core.changeInfos, Table.mapKeyed_mapKeyed, Core.castVotes]
  refine congrArg₂ (fun clientInfo votes => ({ master.core with
    clients := { master.core.clients with clientInfo }, votes } : Core))
    (Table.mapKeyed_congr fun other value present => ?_) ?_
  · obtain rfl := only other value present
    simp [accept, Action.change, ClientInfo.enter]
  · have empty : master.core.votes.acceptNewPeers = ∅ := nobody .acceptNewPeers 0
    simp only [Votes.clear, Votes.cast, Votes.setVoters, ← empty]

theorem afterJoin_meets {action : Action} (asked : event.action? master.core = some action)
    (enabled : master.core.enabled action) (nothing : ∀ vote, ¬ action.raises vote)
    {start : MasterState} {uuid : Uuid} {address : SocketAddress} {accepted : Bool}
    (alone : start.clients.clientUuids.size = 1 → Core.Registry environment start.core ∧
      Core.FollowsUp environment action (master.core.apply environment action) start.core.inform ∧
      (master.core.apply environment action).Answers environment start.core.inform)
    (others : start.clients.clientUuids.size ≠ 1 →
      start.core = master.core.apply environment action ∧ start.core.Valid environment ∧
      ∀ core next, core.clients.clientUuids.size ≠ 1 → core.Establishes environment next →
        Core.FollowsUp environment action core next) :
    (do
      sendPacket uuid address (.sessionRegistrationResponse accepted uuid)
      let master ← get
      if master.clients.clientUuids.size = 1 then sendP2PConnectionInformation true
      else checkEstablishP2PConnectionConsensus : MasterM Unit).Meets start
      (fun _ next => Core.Served environment event master.core next.core)
      (Core.Ended environment event master.core) := by
  have unseen : Keeps start.core (sendPacket uuid address (.sessionRegistrationResponse accepted uuid)) :=
    .sendPacket (fun _ _ => rfl) rfl uuid address
  have tells : (sendPacket uuid address (.sessionRegistrationResponse accepted uuid)).Meets start
      (fun _ next => next.core = start.core) (Core.Ended environment event master.core) :=
    unseen start rfl
  refine Meets.bind tells fun _ middle same => ?_
  have clients : middle.clients = start.clients := congrArg Core.clients same
  refine .read ?_
  rw [clients]
  by_cases one : start.clients.clientUuids.size = 1
  · rw [if_pos one]
    obtain ⟨registry, follows, answers⟩ := alone one
    rw [← same] at registry follows answers
    refine (sendP2PConnectionInformation_meets registry true).imp ?_ fun exit failed => ?_
    · intro _ next informed
      exact Or.inr ⟨action, asked, enabled, informed ▸ follows, fun vote reconsiders =>
        absurd reconsiders.1 (nothing vote)⟩
    · exact .late action asked enabled ⟨failed.1, _, answers, failed.2⟩
  · rw [if_neg one]
    obtain ⟨reached, valid, follows⟩ := others one
    rw [← same] at reached valid
    refine (checkEstablishP2PConnectionConsensus_meets valid).imp ?_ fun exit fatal => ?_
    · intro _ next establishes
      refine Or.inr ⟨action, asked, enabled, ?_, fun vote reconsiders =>
        absurd reconsiders.1 (nothing vote)⟩
      rw [reached] at establishes
      refine follows _ _ ?_ establishes
      rw [← reached, same]
      exact one
    · exact .late action asked enabled (reached ▸ fatal)

theorem registerClient_refuses {start : MasterState} {address : SocketAddress}
    (refused : start.refusesAddress address) (ports : ClientVariablePorts) (group : Group) (uuid : Uuid)
    {fail : Exit → Prop} :
    (registerClient address ports group uuid).Meets start (fun _ next => next = start) fail := by
  refine .read ?_
  rw [if_pos (Or.inl refused)]
  exact rfl

theorem enabled_acceptFirst {core : Core} (valid : core.Valid environment) {address : SocketAddress}
    (ports : ClientVariablePorts) (group : Group) (free : address ∉ core.clients.clientUuids)
    (one : (core.register environment address ports group).clients.clientUuids.size = 1) :
    (core.register environment address ports group).enabled
      (.acceptFirst (environment.generateUuid core.generated)) := by
  have registered := valid.registry.register address ports group free
  have present := (Core.info_register valid.registry address ports group
    (environment.generateUuid core.generated) _).mpr (Or.inl ⟨rfl, rfl⟩)
  refine ⟨⟨_, present, rfl, rfl⟩, fun other info found => ?_⟩
  change info.clientUuid = _
  rw [registered.named other info found]
  exact Table.key_eq_of_size_one (registered.sized ▸ one) found present

theorem registerClient_meets {start : MasterState} {core : Core}
    (at_ : start.core = { core with generated := core.generated + 1 }) (valid : core.Valid environment)
    {address : SocketAddress} (free : address ∉ core.clients.clientUuids)
    (welcome : ¬ core.refuses address) (ports : ClientVariablePorts) (group : Group) :
    (registerClient address ports group (environment.generateUuid core.generated)).Meets start
      (fun _ next => next.core =
        if (core.register environment address ports group).clients.clientUuids.size = 1 then
          (core.register environment address ports group).move
            (.acceptFirst (environment.generateUuid core.generated))
        else core.register environment address ports group)
      (fun exit => exit.bug.ofProtocol = false ∧ exit.master.core.log = core.log) := by
  have clients : start.clients = core.clients := congrArg Core.clients at_
  have accepts : ¬ (start.refusesAddress address ∨ start.isClientRegistered address) := by
    rintro (refused | known)
    · refine welcome ?_
      rw [← refused, MasterState.refusesAddress, MasterState.infos, clients]
      rfl
    · exact free (by simpa [MasterState.isClientRegistered, clients] using known)
  refine .read ?_
  rw [if_neg accepts]
  refine .write ?_
  dsimp only
  rw [clients]
  have size : Table.size (core.clients.clientUuids.insert address
      (environment.generateUuid core.generated)) =
      (core.register environment address ports group).clients.clientUuids.size := rfl
  rw [size]
  generalize arrived : ({ start with clients := _ } : MasterState) = next
  have reached : next.core = core.register environment address ports group := by
    simp only [MasterState.core, Core.mk.injEq] at at_
    obtain ⟨_, votes, collective, dropped, log, rounds, generated⟩ := at_
    simp only [← arrived, MasterState.core, Core.register, votes, collective, dropped, log, rounds,
      generated]
  have enabled : core.enabled (.register address ports group) := free
  have joined : (core.register environment address ports group).Valid environment := valid.apply enabled
  split
  · next one =>
    refine (acceptFirstClient_meets (reached ▸ joined) (reached ▸ enabled_acceptFirst valid ports group
      free one) _).imp (fun _ last accepted => ?_) fun exit failed => ?_
    · rw [accepted.2, reached]
    · exact ⟨failed.1, by rw [failed.2, reached]; rfl⟩
  · exact reached

theorem handleRequestSessionJoin_served (valid : master.core.Valid environment)
    (address : SocketAddress) (p2p sharedState benchmark : BitVec 16) (group : Group) :
    Serves environment (.read address (.requestSessionRegistration p2p sharedState benchmark group)) master
      (handleRequestSessionJoin environment address ⟨p2p, sharedState, benchmark⟩ group) := by
  refine .read ?_
  by_cases known : address ∈ master.core.clients.clientUuids
  · rw [if_pos (show master.isClientRegistered address = true from decide_eq_true known)]
    exact (Keeps.kickClient address).served valid
  rw [if_neg (show ¬ master.isClientRegistered address = true from fun is => known (of_decide_eq_true is))]
  refine .write ?_
  generalize started : ({ master with generatedUuids := master.generatedUuids + 1 } : MasterState) = start
  have at_ : start.core = { master.core with generated := master.core.generated + 1 } := by
    rw [← started]
    rfl
  have sizes : start.clients.clientUuids.size = master.core.clients.clientUuids.size := by
    rw [← started]
    rfl
  by_cases refused : master.core.refuses address
  · have asked : Event.action? master.core
        (.read address (.requestSessionRegistration p2p sharedState benchmark group)) = some .refuse := by
      rw [Event.action?, if_neg known, if_pos refused]
    have enabled : master.core.enabled .refuse := trivial
    refine Meets.bind (registerClient_refuses (by rw [← started]; exact refused) _ group _) ?_
    rintro accepted middle rfl
    refine afterJoin_meets asked enabled (fun _ => id) (fun one => ?_) fun more => ?_
    · have applied : master.core.apply environment .refuse = middle.core.inform := by
        rw [at_]
        exact if_pos (sizes ▸ one)
      have registry : Core.Registry environment middle.core := by
        have same : middle.core.clients = (master.core.changeInfos fun _ info => info).clients := by
          rw [Core.changeInfos_id, at_]
        refine valid.registry.changed (fun _ _ _ => ⟨rfl, rfl⟩) same (fun _ _ => ?_) ?_
        · rw [at_]
          exact ⟨fun _ => rfl, rfl⟩
        · rw [at_]
          exact Nat.le_succ _
      rw [applied]
      refine ⟨registry, ?_, .refl _⟩
      rw [Core.FollowsUp, if_pos (show middle.core.inform.clients.clientUuids.size = 1 from one)]
    · have applied : master.core.apply environment .refuse = middle.core := by
        rw [at_]
        exact if_neg (sizes ▸ more)
      refine ⟨applied.symm, applied ▸ valid.apply enabled, fun core next many establishes => ?_⟩
      rw [Core.FollowsUp, if_neg many]
      exact establishes
  · have asked : Event.action? master.core
        (.read address (.requestSessionRegistration p2p sharedState benchmark group)) =
        some (.register address ⟨p2p, sharedState, benchmark⟩ group) := by
      rw [Event.action?, if_neg known, if_neg refused]
    have enabled : master.core.enabled (.register address ⟨p2p, sharedState, benchmark⟩ group) := known
    refine Meets.bind ((registerClient_meets at_ valid known refused ⟨p2p, sharedState, benchmark⟩
      group).imp (fun _ _ reached => reached) fun exit failed => ?_) fun accepted middle reached => ?_
    · exact .late _ asked enabled (.here failed.1 failed.2)
    have joined := valid.apply enabled
    have size : middle.clients.clientUuids.size = (master.core.register environment address
        ⟨p2p, sharedState, benchmark⟩ group).clients.clientUuids.size := by
      change middle.core.clients.clientUuids.size = _
      rw [reached]
      split <;> rfl
    refine afterJoin_meets asked enabled (fun _ => id) (fun one => ?_) fun more => ?_
    · rw [size] at one
      rw [if_pos one] at reached
      have first := enabled_acceptFirst valid ⟨p2p, sharedState, benchmark⟩ group known one
      have informed : middle.core.inform = (master.core.register environment address
          ⟨p2p, sharedState, benchmark⟩ group).apply environment
          (.acceptFirst (environment.generateUuid master.core.generated)) := by
        rw [reached]
        rfl
      refine ⟨?_, ?_, ?_⟩
      · rw [reached]
        exact joined.registry.midway rfl first rfl (fun _ _ => ⟨fun _ => rfl, rfl⟩) rfl
      · rw [Core.FollowsUp, Core.apply, if_pos one]
        exact ⟨_, first, informed⟩
      · rw [informed]
        exact .single rfl first
    · rw [size] at more
      rw [if_neg more] at reached
      refine ⟨reached, reached ▸ joined, fun core next many establishes => ?_⟩
      rw [Core.FollowsUp, if_neg many]
      exact establishes

theorem unregisterClient_meets (valid : master.core.Valid environment) {address : SocketAddress}
    {uuid : Uuid} (found : master.core.clients.clientUuids.lookup address = some uuid) :
    (unregisterClient address).Meets master
      (fun removed next => removed = true ∧ next.core = master.core.apply environment (.leave address uuid))
      (Fatal environment (master.core.apply environment (.leave address uuid))) := by
  obtain ⟨info, present, _⟩ := valid.registry.info_of address uuid found
  have lookup : master.findClientUUID address = some uuid := found
  have known : uuid ∈ master.clients.uuidClients := by
    have back := (valid.registry.inverse address uuid).mp found
    exact AList.lookup_isSome.mp (Option.isSome_iff_exists.mpr ⟨address, back⟩)
  have here : master.getClientInfo uuid = some info := present
  refine .read ?_
  rw [lookup]
  dsimp only
  rw [if_pos known, here]
  refine .write ?_
  generalize departed : ({ master with clients := _, votes := _ } : MasterState) = next
  have reached : next.core = master.core.apply environment (.leave address uuid) := by
    rw [← departed]
    simp only [Core.apply, Core.leave, present]
    rfl
  have left : (master.core.apply environment (.leave address uuid)).Registry environment :=
    valid.registry.leave address uuid found
  refine Meets.bind ((Keeps.forgetBandwidth info uuid).meets reached left) fun _ last same => ?_
  exact ⟨rfl, same⟩

theorem recheckVotes_meets (valid : master.core.Valid environment) {address : SocketAddress}
    {uuid : Uuid} {info : ClientInfo} (asked : event.action? master.core = some (.leave address uuid))
    (enabled : master.core.enabled (.leave address uuid)) (found : master.core.info uuid = some info)
    {start : MasterState} (reached : start.core = master.core.apply environment (.leave address uuid)) :
    (recheckVotes environment info.peerGroup).Meets start
      (fun _ next => Core.Served environment event master.core next.core)
      (Core.Ended environment event master.core) := by
  have gone : start.core.Valid environment := reached ▸ valid.apply enabled
  have late (exit : Exit) (fatal : Fatal environment start.core exit) :
      Core.Ended environment event master.core exit :=
    .late _ asked enabled (reached ▸ fatal)
  refine Meets.bind ((checkEstablishP2PConnectionConsensus_meets gone).imp
    (fun _ _ establishes => establishes) late) fun _ middle establishes => ?_
  refine .change ?_
  generalize noted : ({ middle with peerDropped := true } : MasterState) = dropped
  have drops : dropped.core = middle.core.apply environment .drop := by
    rw [← noted]
    rfl
  have still : middle.core.enabled .drop := trivial
  have upToHere : start.core.Answers environment dropped.core :=
    establishes.answers.trans (drops ▸ .single rfl still)
  have between := upToHere.valid gone
  refine Meets.bind ((checkP2PConnectionsEstablished_meets between).imp
    (fun _ _ closes => closes.1) fun exit => ?_) fun _ closed closes => ?_
  · rintro (fatal | ⟨bug, same, jammed⟩)
    · exact late exit (fatal.after upToHere)
    · refine .jammed _ asked enabled bug ⟨middle.core, reached ▸ establishes, ?_⟩ (same ▸ jammed)
      rw [same, drops]
  have further : start.core.Answers environment closed.core := upToHere.trans closes.answers
  have rest := (@checkQueryPeersPendingConsensus_resolves environment).bind fun _ =>
    (checkSyncSharedStateConsensus_resolves info.peerGroup).bind fun _ =>
    (checkSyncSharedStateCompleteConsensus_resolves info.peerGroup).bind fun _ =>
    recheckOperations_resolves info.peerGroup
  refine (rest closed (further.valid gone)).imp ?_ fun exit fatal => late exit (fatal.after further)
  rintro _ next ⟨calm, settled⟩
  refine Or.inr ⟨_, asked, enabled, ⟨middle.core, closed.core, reached ▸ establishes, drops ▸ closes,
    calm⟩, fun vote reconsiders unanimous => ?_⟩
  obtain ⟨_, ⟨_, ⟨⟩, concerns⟩, topology⟩ := reconsiders
  have here := concerns.of_info found
  have other := topology ⟨_, _, rfl⟩
  -- What no later answer has made unanimous.
  have early (vote : Vote) (open_ : ¬ middle.core.Unanimous vote) : ¬ next.core.Unanimous vote := by
    intro unanimous
    have answers : middle.core.Answers environment next.core :=
      ((drops ▸ Core.Reaches.single rfl still :
        middle.core.Answers environment dropped.core).trans closes.answers).trans calm.answers
    exact open_ (answers.unanimous_before (establishes.answers.valid gone) unanimous)
  cases vote with
  | acceptNewPeers => exact early _ (establishes.settled gone).1 unanimous
  | establishP2PConnections => exact early _ (establishes.settled gone).2 unanimous
  | optimizeTopology | completeTopologyOptimization => cases other
  | queryPendingPeers => exact settled _ (by simp) unanimous
  | completeSharedStateSync group | collectiveInitiate group tag | collectiveComplete group tag =>
    obtain rfl := of_decide_eq_true here
    exact settled _ (by simp) unanimous

theorem onClientDisconnect_served (valid : master.core.Valid environment) (address : SocketAddress) :
    Serves environment (.disconnect address) master (onClientDisconnect environment address) := by
  refine .read ?_
  cases found : master.findClientUUID address with
  | none => exact Or.inl rfl
  | some uuid =>
    obtain ⟨info, present, _⟩ := valid.registry.info_of address uuid found
    have here : master.getClientInfo uuid = some info := present
    have asked : Event.action? master.core (.disconnect address) = some (.leave address uuid) := by
      change Option.map _ (master.findClientUUID address) = _
      rw [found]
      rfl
    have enabled : master.core.enabled (.leave address uuid) := found
    dsimp only
    rw [here]
    refine Meets.bind ((unregisterClient_meets valid found).imp (fun _ _ left => left)
      fun exit fatal => .late _ asked enabled fatal) ?_
    rintro removed start ⟨rfl, reached⟩
    exact recheckVotes_meets valid asked enabled present reached

theorem handle_served (valid : master.core.Valid environment) (event : Event) :
    Serves environment event master (handle environment event) := by
  cases event with
  | disconnect address => exact onClientDisconnect_served valid address
  | background group => exact (Keeps.stepTask environment group).served valid
  | read address packet =>
    cases packet with
    | requestSessionRegistration p2p sharedState benchmark group =>
      exact handleRequestSessionJoin_served valid address p2p sharedState benchmark group
    | requestEstablishP2PConnections acceptNewPeers =>
      exact handleEstablishP2PConnections_served valid address acceptNewPeers
    | p2pConnectionsEstablished success failedPeers =>
      exact handleP2PConnectionsEstablished_served valid address success failedPeers
    | checkPeersPending => exact handleCheckPeersPending_served valid address
    | optimizeTopology => exact handleOptimizeTopology_served valid address
    | reportPeerBandwidth toPeer bandwidth =>
      exact handleReportPeerBandwidth_served valid address toPeer bandwidth
    | optimizeTopologyWorkComplete => exact handleOptimizeTopologyWorkComplete_served valid address
    | syncSharedState revision strategy hashes =>
      exact handleSyncSharedState_served valid address revision strategy hashes
    | distSharedStateComplete => exact handleSyncSharedStateComplete_served valid address
    | collectiveCommsInitiate tag dataType count op =>
      exact handleCollectiveCommsInitiate_served valid address tag dataType count op
    | collectiveCommsComplete tag wasAborted =>
      exact handleCollectiveCommsComplete_served valid address tag wasAborted

namespace Core

variable {core next : Core}

theorem FollowsUp.answers {action : Action} (follows : FollowsUp environment action core next) :
    core.Answers environment next := by
  have calmly (calm : core.Calm environment next) : core.Answers environment next := calm.answers
  cases action with
  | refuse =>
    simp only [FollowsUp] at follows
    split at follows
    · exact follows ▸ .refl _
    · exact follows.answers
  | register =>
    simp only [FollowsUp] at follows
    split at follows
    · obtain ⟨uuid, enabled, rfl⟩ := follows
      exact .single rfl enabled
    · exact follows.answers
  | leave =>
    obtain ⟨middle, closed, establishes, closes, calm⟩ := follows
    have still : middle.enabled .drop := trivial
    exact ((establishes.answers.trans (.single rfl still)).trans closes.answers).trans calm.answers
  | report => exact Closes.answers follows
  | vote ballot => cases ballot <;> first | exact Establishes.answers follows | exact calmly follows
  | _ => exact calmly follows

theorem Served.valid (served : Served environment event core next) (valid : core.Valid environment) :
    next.Valid environment := by
  rcases served with rfl | ⟨action, _, enabled, follows, _⟩
  · exact valid
  · exact follows.answers.valid (valid.apply enabled)

end Core

end Handlers

end Pccl.Master
