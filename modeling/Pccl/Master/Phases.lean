import Pccl.Master.Runs

set_option autoImplicit false

namespace Pccl.Master

open Packet Program

def asks (condition : Core → Action → Bool) (event : Event) (master : MasterState) : Bool :=
  (event.action? master.core).all (condition master.core)

theorem of_asks {condition : Core → Action → Bool} {event : Event} {master : MasterState}
    (asked : asks condition event master = true) {action : Action}
    (is : event.action? master.core = some action) : condition master.core action = true := by
  simpa [asks, is] using asked

namespace Core

variable {core : Core}

theorem any_infos (condition : ClientInfo → Bool) :
    core.infos.any condition = true ↔ ∃ uuid, core.Has uuid fun info => condition info := by
  simp only [List.any_eq_true, Core.infos, Table.mem_values_iff]
  constructor
  · rintro ⟨info, ⟨uuid, found⟩, holds⟩
    exact ⟨uuid, info, found, holds⟩
  · rintro ⟨uuid, info, found, holds⟩
    exact ⟨info, ⟨uuid, found⟩, holds⟩

end Core

section VoteSets

structure VotesMirrorStates (master : MasterState) : Prop where
  acceptNewPeers : ∀ uuid, uuid ∈ master.votes.acceptNewPeers ↔
    ∃ info, master.getClientInfo uuid = some info ∧ info.connectionState = .voteAcceptNewPeers
  establishP2PConnections : ∀ uuid, uuid ∈ master.votes.establishP2PConnections ↔
    ∃ info, master.getClientInfo uuid = some info ∧
      info.connectionState = .voteNoNewPeersEstablishP2PConnections
  optimizeTopology : ∀ uuid, uuid ∈ master.votes.optimizeTopology ↔
    ∃ info, master.getClientInfo uuid = some info ∧ info.connectionState = .voteOptimizeTopology
  completeTopologyOptimization : ∀ uuid, uuid ∈ master.votes.completeTopologyOptimization ↔
    ∃ info, master.getClientInfo uuid = some info ∧
      info.connectionState = .voteCompleteTopologyOptimization
  syncSharedState : ∀ group uuid, uuid ∈ master.votes.syncSharedState group ↔
    ∃ info, master.getClientInfo uuid = some info ∧ info.peerGroup = group ∧
      info.connectionState = .voteSyncSharedState
  syncSharedStateComplete : ∀ group uuid, uuid ∈ master.votes.syncSharedStateComplete group ↔
    ∃ info, master.getClientInfo uuid = some info ∧ info.peerGroup = group ∧
      info.connectionState = .voteCompleteSharedStateSync
  sharedStateSyncStrategies : ∀ uuid, uuid ∈ master.votes.sharedStateSyncStrategies ↔
    ∃ info, master.getClientInfo uuid = some info ∧
      (info.connectionState = .voteSyncSharedState ∨ info.connectionState = .distributeSharedState ∨
        info.connectionState = .requestSharedState ∨
        info.connectionState = .voteCompleteSharedStateSync)

theorem ConnectionState.declares_iff (state : ConnectionState) :
    state.declares = true ↔ state = .voteSyncSharedState ∨ state = .distributeSharedState ∨
      state = .requestSharedState ∨ state = .voteCompleteSharedStateSync := by
  cases state <;> simp [declares, syncs]

theorem Core.Ballots.mirror {master : MasterState} (ballots : master.core.Ballots) :
    VotesMirrorStates master := by
  have whole (ballot : Ballot) (all : ballot.perGroup = false) (uuid : Uuid) :
      uuid ∈ master.core.votes.voters 0 ballot ↔
        ∃ info, master.getClientInfo uuid = some info ∧ info.connectionState = ballot.cast := by
    refine (ballots.voted ballot 0 uuid).trans ?_
    simp only [Core.Has, ClientInfo.Casts, all, Bool.false_eq_true, false_implies, and_true]
    exact Iff.rfl
  have grouped (ballot : Ballot) (per : ballot.perGroup = true) (group : Group) (uuid : Uuid) :
      uuid ∈ master.core.votes.voters group ballot ↔
        ∃ info, master.getClientInfo uuid = some info ∧ info.peerGroup = group ∧
          info.connectionState = ballot.cast := by
    refine (ballots.voted ballot group uuid).trans (exists_congr fun info => and_congr_right' ?_)
    simp only [ClientInfo.Casts, per, forall_true_left]
    exact and_comm
  refine ⟨whole .acceptNewPeers rfl, whole .establishP2PConnections rfl, whole .optimizeTopology rfl,
    whole .completeTopologyOptimization rfl, grouped .syncSharedState rfl,
    grouped .syncSharedStateComplete rfl, fun uuid => ?_⟩
  exact (ballots.declared uuid).trans (exists_congr fun info =>
    and_congr_right' info.connectionState.declares_iff)

def Bug.ofVotes : Bug → Bool
  | firstClientConsensus | votedToAcceptNewPeers | votedToEstablishP2PConnections
  | votedToOptimizeTopology | votedToCompleteTopologyOptimization | votedToSyncSharedState
  | declaredSyncStrategy | votedToCompleteSharedStateSync | syncVoteMismatch
  | syncCompleteVoteMismatch => true
  | _ => false

theorem Bug.ofVotes_eq_false {bug : Bug}
    (outside : bug.ofProtocol = false ∨ bug = .p2pConnectionsEstablishedPhase) :
    bug.ofVotes = false := by
  rcases outside with other | rfl
  · cases bug <;> first | rfl | cases other
  · rfl

theorem votes_mirror_states (environment : Environment) (events : List Event) :
    (run environment events).Holds VotesMirrorStates fun exit => exit.bug.ofVotes = false :=
  (run_valid events).imp (fun _ valid => valid.ballots.mirror) fun _ => Bug.ofVotes_eq_false

end VoteSets

section Exclusion

def ConnectionState.connects : ConnectionState → Bool
  | connectingToPeers | waitingForOtherPeers => true
  | _ => false

structure PhasesExclude (master : MasterState) : Prop where
  rounds : ∀ uuid info, master.getClientInfo uuid = some info → info.connectionPhase = .accepted →
    (info.connectionState = .connectingToPeers ∨ info.connectionState = .waitingForOtherPeers) →
    ∀ other client, master.getClientInfo other = some client → client.connectionPhase = .accepted →
      client.connectionState = .connectingToPeers ∨ client.connectionState = .waitingForOtherPeers ∨
        client.connectionState = .connectingToPeersFailed
  optimization : ∀ uuid info, master.getClientInfo uuid = some info →
    info.connectionPhase = .accepted → info.connectionState = .optimizeTopology →
    ∀ other client, master.getClientInfo other = some client → client.connectionPhase = .accepted →
      client.connectionState = .optimizeTopology ∨
        client.connectionState = .voteCompleteTopologyOptimization
  sync : ∀ group uuid info, master.getClientInfo uuid = some info →
    info.connectionPhase = .accepted → info.peerGroup = group →
    (info.connectionState = .distributeSharedState ∨ info.connectionState = .requestSharedState) →
    ∀ other client, master.getClientInfo other = some client → client.connectionPhase = .accepted →
      client.peerGroup = group →
      client.connectionState = .distributeSharedState ∨ client.connectionState = .requestSharedState ∨
        client.connectionState = .voteCompleteSharedStateSync
  operations : ∀ group tag uuid info, master.getClientInfo uuid = some info →
    info.connectionPhase = .accepted → info.peerGroup = group →
    info.collectiveComsStates.lookup tag = some .perform →
    ∀ other client, master.getClientInfo other = some client → client.connectionPhase = .accepted →
      client.peerGroup = group →
      client.connectionState = .collectiveCommunicationsRunning ∧
        (client.collectiveComsStates.lookup tag = some .perform ∨
          client.collectiveComsStates.lookup tag = some .voteComplete)

/-- A client whose round has failed for it does not vote for the next one while another accepted
client is still busy with this one. -/
def Core.waitsForRound (core : Core) : Action → Bool
  | .vote ballot uuid _ =>
    !(ballot.cast.awaitsRound &&
      (core.info uuid).any fun info => info.connectionState = .connectingToPeersFailed) ||
      core.infos.all fun info => info.connectionPhase ≠ .accepted || !info.connectionState.connects
  | _ => true

namespace Action.Moves

variable {action : Action} {uuid : Uuid} {info next : ClientInfo} (moves : action.Moves uuid info next)
include moves

theorem connects_before (accepted : next.connectionPhase = .accepted)
    (connects : next.connectionState.connects) :
    (info.connectionPhase = .accepted ∧ info.connectionState.connects ∧
        ∀ failure, action ≠ .endRound failure) ∨
      (∃ acceptNewPeers, action = .startRound acceptNewPeers) ∨ action = .acceptFirst uuid := by
  cases moves with
  | acceptFirst => exact Or.inr (Or.inr rfl)
  | startRound => exact Or.inr (Or.inl ⟨_, rfl⟩)
  | @vote ballot => cases ballot <;> cases connects
  | report connecting => exact Or.inl ⟨accepted, by rw [connecting]; rfl, by simp⟩
  | @endRound failure => cases failure <;> cases connects
  | startSync _ _ target => rcases target with rfl | rfl <;> cases connects
  | startOptimization | endOptimization | endSync | initiate => cases connects
  | skip skips =>
    refine Or.inl ⟨accepted, connects, ?_⟩
    rintro failure rfl
    rcases skips with ⟨_, idle⟩ | ⟨_, failed⟩
    · rw [idle] at connects
      cases connects
    · rw [failed] at connects
      cases connects
  | finish _ runs _ =>
    simp only [ClientInfo.eraseTag, runs] at connects
    split at connects <;> cases connects
  | query | complete | resetQuery | commence => exact Or.inl ⟨accepted, connects, by simp⟩

theorem inRound_after (round : info.connectionState.inRound) :
    next.connectionState.inRound ∨ (∃ failure, action = .endRound failure) ∨
      ∃ ballot strategy, action = .vote ballot uuid strategy ∧ ballot.cast.awaitsRound ∧
        info.connectionState = .connectingToPeersFailed := by
  cases moves with
  | @vote ballot _ strategy _ _ admitted =>
    refine Or.inr (Or.inr ⟨ballot, strategy, rfl, ballot.cast_awaitsRound _ admitted (Or.inl round), ?_⟩)
    cases ballot <;> simp_all [Ballot.admits, ConnectionState.inRound] <;>
      rcases admitted with idle | failed <;> simp_all
  | @report _ success => exact Or.inl (by cases success <;> rfl)
  | startRound | acceptFirst => exact Or.inl rfl
  | endRound => exact Or.inr (Or.inl ⟨_, rfl⟩)
  | skip | query | complete | resetQuery | commence => exact Or.inl round
  | initiate _ state => rcases state with idle | runs <;> simp_all [ConnectionState.inRound]
  | startOptimization _ voted | endOptimization _ voted | startSync _ voted | endSync _ voted =>
    simp_all [ConnectionState.inRound]
  | finish _ runs => simp_all [ConnectionState.inRound]

end Action.Moves

/-- While an accepted client connects, no accepted client has left the round. -/
def Core.Undivided (core : Core) : Prop :=
  ∀ uuid info, core.info uuid = some info → info.connectionPhase = .accepted →
    info.connectionState.connects →
    core.All fun other => other.connectionPhase = .accepted → other.connectionState.inRound

namespace Core.Undivided

variable {environment : Environment} {core next : Core}

theorem apply (valid : core.Valid environment) (undivided : core.Undivided) {action : Action}
    (enabled : core.enabled action) (waits : core.waitsForRound action = true) :
    (core.apply environment action).Undivided := by
  have plain (plain : action.plain) : (core.apply environment action).Undivided := by
    intro uuid next found accepted connects client other present otherAccepted
    obtain ⟨info, before, moves⟩ := moved plain enabled found
    obtain ⟨otherInfo, otherBefore, otherMoves⟩ := moved plain enabled present
    rcases moves.connects_before accepted connects with ⟨was, did, stays⟩ | ⟨b, rfl⟩ | rfl
    · have phase : otherInfo.connectionPhase = .accepted := by
        rcases otherMoves.accepted_before otherAccepted with phase | ⟨_, failure, rfl⟩ | rfl
        · exact phase
        · exact absurd rfl (stays failure)
        · cases valid.registry.eq_of_acceptFirst enabled before
          cases before.symm.trans otherBefore
          exact was
      have round := undivided uuid info before was did client otherInfo otherBefore phase
      rcases otherMoves.inRound_after round with
        still | ⟨failure, rfl⟩ | ⟨ballot, strategy, rfl, awaits, failed⟩
      · exact still
      · exact absurd rfl (stays failure)
      · -- Whoever votes now does not wait for the client that connects.
        have busy : core.infos.all (fun info => info.connectionPhase ≠ .accepted ||
            !info.connectionState.connects) = true := by
          simpa [waitsForRound, awaits, otherBefore, failed] using waits
        have idle := List.all_eq_true.mp busy info (Table.mem_values_iff.mpr ⟨uuid, before⟩)
        simp [was, did] at idle
    · cases otherMoves with
      | skip skips =>
        change b = false ∧ other.connectionPhase = .registered at skips
        rw [skips.2] at otherAccepted
        cases otherAccepted
      | startRound => rfl
    · cases otherMoves with
      | skip different =>
        exact absurd (valid.registry.eq_of_acceptFirst enabled otherBefore) different
      | acceptFirst => rfl
  cases action with
  | register address ports group =>
    intro uuid info found accepted connects client other present otherAccepted
    rcases (info_register valid.registry address ports group uuid info).mp found with ⟨_, rfl⟩ | found
    · cases connects
    · rcases (info_register valid.registry address ports group client other).mp present with
        ⟨_, rfl⟩ | present
      · cases otherAccepted
      · exact undivided uuid info found accepted connects client other present otherAccepted
  | leave address leaver =>
    intro uuid info found accepted connects client other present
    exact undivided uuid info ((info_leave address leaver uuid info).mp found).2 accepted connects client
      other ((info_leave address leaver client other).mp present).2
  | _ => exact plain rfl

theorem answers (answers : core.Answers environment next) (valid : core.Valid environment)
    (undivided : core.Undivided) : next.Undivided := by
  refine (answers.keeps Core.Undivided (fun core action is between enabled holds => ?_)
    valid undivided).2
  exact holds.apply between enabled (by cases action <;> first | rfl | cases is)

theorem served {event : Event} {master : MasterState} (valid : master.core.Valid environment)
    (undivided : master.core.Undivided) (asked : asks Core.waitsForRound event master = true)
    (served : Core.Served environment event master.core next) : next.Undivided := by
  rcases served with rfl | ⟨action, is, enabled, follows, _⟩
  · exact undivided
  · exact (undivided.apply valid enabled (of_asks asked is)).answers follows.answers
      (valid.apply enabled)

end Core.Undivided

theorem Core.Valid.phasesExclude {environment : Environment} {master : MasterState}
    (valid : master.core.Valid environment) (undivided : master.core.Undivided) :
    PhasesExclude master where
  rounds uuid info found accepted connects other client present otherAccepted := by
    have round := undivided uuid info found accepted
      (by rcases connects with state | state <;> rw [state] <;> rfl) other client present otherAccepted
    cases state : client.connectionState <;> simp_all [ConnectionState.inRound]
  optimization uuid info found accepted optimizes other client present otherAccepted := by
    have takes := valid.states.phases .optimization uuid info found
      (by simp [Phase.scope, Phase.concerns, accepted]) (by simp [Phase.takes, optimizes,
        ConnectionState.optimizes]) other client present (by simp [Phase.scope, Phase.concerns,
        otherAccepted])
    cases state : client.connectionState <;> simp_all [Phase.takes, ConnectionState.optimizes]
  sync group uuid info found accepted here syncs other client present otherAccepted there := by
    have takes := valid.states.phases (.sync group) uuid info found
      (by simp [Phase.scope, Phase.concerns, accepted, here]) (by
        rcases syncs with state | state <;> simp [Phase.takes, state, ConnectionState.syncs])
      other client present (by simp [Phase.scope, Phase.concerns, otherAccepted, there])
    cases state : client.connectionState <;> simp_all [Phase.takes, ConnectionState.syncs]
  operations group tag uuid info found accepted here performs other client present otherAccepted
      there := by
    have takes := valid.states.phases (.operation group tag) uuid info found
      (by simp [Phase.scope, Phase.concerns, accepted, here]) (by simp [Phase.takes, performs])
      other client present (by simp [Phase.scope, Phase.concerns, otherAccepted, there])
    have states : client.collectiveComsStates.lookup tag = some .perform ∨
        client.collectiveComsStates.lookup tag = some .voteComplete := by
      simpa [Phase.takes] using takes
    refine ⟨?_, states⟩
    have sound := valid.states.sound other client present
    exact states.elim sound.runs_of_tag sound.runs_of_tag

theorem phases_exclude (environment : Environment) (events : List Event)
    (lawful : Lawful environment (asks Core.waitsForRound) events) :
    (run environment events).Holds PhasesExclude fun _ => True := by
  have initial : Core.initial.Undivided := by
    intro uuid info found
    simp [Core.initial, MasterState.core, MasterState.initial, Core.info] at found
  refine (run_holds_core Core.Undivided initial (fun event master next valid undivided asked served => ?_)
    (fun _ _ _ _ _ _ _ => trivial) events lawful).imp
    (fun _ holds => holds.1.phasesExclude holds.2) fun _ _ => trivial
  exact undivided.served valid asked served

open Sample

theorem phases_exclude_retry :
    (run environment (pair ++ [establish 0 false, establish 1 false,
      report 0 false, report 1 true, establish 0 false])).Holds PhasesExclude
        fun _ => True :=
  phases_exclude _ _ ((lawful_iff _ _ _).mp (by cbv))

theorem phases_overlap :
    ¬ (run environment (pair ++ [establish 0 false, establish 1 false,
      report 0 false, establish 0 false])).Holds PhasesExclude fun _ => True := by
  have overlaps : (run environment (pair ++ [establish 0 false,
      establish 1 false, report 0 false, establish 0 false])).passes (fun master =>
      (master.getClientInfo 0).any (fun info => info.connectionPhase = .accepted &&
        info.connectionState = .voteNoNewPeersEstablishP2PConnections) &&
      (master.getClientInfo 1).any fun info => info.connectionPhase = .accepted &&
        info.connectionState = .connectingToPeers) = true := by
    cbv
  refine Server.not_holds overlaps fun master seen exclude => ?_
  simp only [Bool.and_eq_true, Option.any_eq_true, decide_eq_true_eq] at seen
  obtain ⟨⟨voter, first, accepted, voted⟩, info, second, joined, connecting⟩ := seen
  have states := exclude.rounds 1 info second joined (Or.inl connecting) 0 voter first accepted
  simp [voted] at states

end Exclusion

end Pccl.Master
