import Pccl.Master.States

set_option autoImplicit false

namespace Pccl.Master

open Packet

namespace Ballot

def perGroup : Ballot → Bool
  | syncSharedState | syncSharedStateComplete => true
  | _ => false

theorem cast_injective {first second : Ballot} (same : first.cast = second.cast) : first = second := by
  cases first <;> cases second <;> first | rfl | cases same

theorem isVote_cast (ballot : Ballot) : ballot.cast.isVote := by
  cases ballot <;> rfl

theorem not_isVote_of_admits (ballot : Ballot) {state : ConnectionState}
    (admitted : state ∈ ballot.admits) : ¬ state.isVote := by
  cases ballot <;> cases state <;> simp_all [admits, ConnectionState.isVote]

end Ballot

def ConnectionState.declares : ConnectionState → Bool
  | voteSyncSharedState => true
  | state => state.syncs

theorem Ballot.declares_cast (ballot : Ballot) {state : ConnectionState}
    (other : ballot ≠ .syncSharedState) (admitted : state ∈ ballot.admits) :
    ballot.cast.declares = state.declares := by
  cases ballot <;> cases state <;>
    simp_all [Ballot.admits, Ballot.cast, ConnectionState.declares, ConnectionState.syncs]

namespace Votes

variable (votes : Votes) (group scope : Group) (ballot other : Ballot)

theorem voters_setVoters (voters : Finset Uuid) :
    (votes.setVoters group ballot voters).voters scope other =
      if other = ballot ∧ (ballot.perGroup → scope = group) then voters
      else votes.voters scope other := by
  cases ballot <;> cases other <;>
    simp [setVoters, Votes.voters, Ballot.perGroup, Function.update_apply]

theorem mem_forget (uuid client : Uuid) :
    client ∈ (votes.forget group uuid).voters scope other ↔
      client ∈ votes.voters scope other ∧ (client = uuid → other.perGroup ∧ scope ≠ group) := by
  cases other with
  | syncSharedState | syncSharedStateComplete =>
    simp only [forget, Votes.voters, Ballot.perGroup, Function.update_apply]
    by_cases same : scope = group
    · subst same
      simp [and_comm]
    · simp [same]
  | _ => simp [forget, Votes.voters, Ballot.perGroup, and_comm]

end Votes

def ClientInfo.Casts (ballot : Ballot) (group : Group) (info : ClientInfo) : Prop :=
  info.connectionState = ballot.cast ∧ (ballot.perGroup → info.peerGroup = group)

namespace Action

def clears : Action → Option (Group × Ballot)
  | startRound acceptNewPeers => some (0, roundBallot acceptNewPeers)
  | startOptimization => some (0, .optimizeTopology)
  | endOptimization => some (0, .completeTopologyOptimization)
  | startSync group _ => some (group, .syncSharedState)
  | endSync group => some (group, .syncSharedStateComplete)
  | _ => none

def Clears (action : Action) (ballot : Ballot) (group : Group) : Prop :=
  ∃ scope, action.clears = some (scope, ballot) ∧ (ballot.perGroup → group = scope)

namespace Moves

variable {action : Action} {uuid : Uuid} {info next : ClientInfo} (moves : action.Moves uuid info next)
include moves

theorem casts_iff (sound : info.Sound) (others : ∀ ballot strategy, action ≠ .vote ballot uuid strategy)
    (ballot : Ballot) (group : Group) :
    next.Casts ballot group ↔ info.Casts ballot group ∧ ¬ action.Clears ballot group := by
  -- A client that was and is in no state of a vote.
  have silent (before : ¬ info.connectionState.isVote) (after : ¬ next.connectionState.isVote) :
      next.Casts ballot group ↔ info.Casts ballot group ∧ ¬ action.Clears ballot group :=
    iff_of_false (fun casts => after (casts.1 ▸ ballot.isVote_cast))
      fun casts => before (casts.1.1 ▸ ballot.isVote_cast)
  -- A client that leaves the state of the vote that is answered.
  have answered (scope : Group) (cast : Ballot) (clears : action.clears = some (scope, cast))
      (here : cast.perGroup → info.peerGroup = scope) (before : info.connectionState = cast.cast)
      (after : ¬ next.connectionState.isVote) :
      next.Casts ballot group ↔ info.Casts ballot group ∧ ¬ action.Clears ballot group := by
    refine iff_of_false (fun casts => after (casts.1 ▸ ballot.isVote_cast)) ?_
    rintro ⟨casts, kept⟩
    obtain rfl := Ballot.cast_injective (before.symm.trans casts.1)
    exact kept ⟨scope, clears, fun per => (casts.2 per).symm.trans (here per)⟩
  have kept (same : next.connectionState = info.connectionState) (quiet : action.clears = none) :
      next.Casts ballot group ↔ info.Casts ballot group ∧ ¬ action.Clears ballot group := by
    have noClear : ¬ action.Clears ballot group := by simp [Action.Clears, quiet]
    simp [ClientInfo.Casts, same, moves.keeps.2.2, noClear]
  -- A vote of another group.
  have elsewhere (scope : Group) (cast : Ballot) (clears : action.clears = some (scope, cast))
      (per : cast.perGroup) (away : info.peerGroup ≠ scope) (same : next = info) :
      next.Casts ballot group ↔ info.Casts ballot group ∧ ¬ action.Clears ballot group := by
    subst same
    refine ⟨fun casts => ⟨casts, ?_⟩, fun casts => casts.1⟩
    rintro ⟨other, same, here⟩
    rw [clears] at same
    cases same
    exact away ((casts.2 per).trans (here per))
  cases moves with
  | skip skips =>
    cases action with
    | startRound | startOptimization | endOptimization =>
      have registered : info.connectionPhase = .registered := by
        simp only [Action.skips] at skips
        first | exact skips | exact skips.2
      exact silent (sound.quiet registered) (sound.quiet registered)
    | startSync scope =>
      rcases skips with away | ⟨registered, _⟩
      · exact elsewhere scope .syncSharedState rfl rfl away rfl
      · exact silent (sound.quiet registered) (sound.quiet registered)
    | endSync scope =>
      by_cases away : info.peerGroup = scope
      · have registered : info.connectionPhase = .registered := by
          refine ConnectionPhase.registered_of_ne fun accepted => skips ?_
          exact (info.takesPart_iff scope).mpr ⟨accepted, away⟩
        exact silent (sound.quiet registered) (sound.quiet registered)
      · exact elsewhere scope .syncSharedStateComplete rfl rfl away rfl
    | _ => exact kept rfl rfl
  | acceptFirst _ idle => exact silent (by rw [idle]; decide) (by simp [ConnectionState.isVote])
  | vote => exact absurd rfl (others _ _)
  | @report _ success _ connecting =>
    exact silent (by rw [connecting]; decide)
      (by cases success <;> simp [ClientInfo.enter, ConnectionState.isVote])
  | initiate _ state =>
    refine silent ?_ (by simp [ClientInfo.enter, ConnectionState.isVote])
    rcases state with state | state <;> rw [state] <;> decide
  | @startRound acceptNewPeers _ _ _ voted =>
    have after : ¬ (info.enter .connectingToPeers).connectionState.isVote := by
      simp [ClientInfo.enter, ConnectionState.isVote]
    by_cases accepted : info.connectionPhase = .accepted
    · exact answered 0 (roundBallot acceptNewPeers) rfl
        (by cases acceptNewPeers <;> simp [roundBallot, Ballot.perGroup])
        (voted accepted) after
    · exact silent (sound.quiet (ConnectionPhase.registered_of_ne accepted)) after
  | @endRound failure _ _ waits =>
    exact silent (by rw [waits]; decide) (by cases failure <;> simp [ConnectionState.isVote])
  | startOptimization accepted voted =>
    exact answered 0 .optimizeTopology rfl (by simp [Ballot.perGroup]) voted
      (by simp [ClientInfo.enter, ConnectionState.isVote])
  | endOptimization accepted voted =>
    exact answered 0 .completeTopologyOptimization rfl (by simp [Ballot.perGroup]) voted
      (by simp [ClientInfo.enter, ConnectionState.isVote])
  | @startSync scope _ _ _ _ here voted target =>
    refine answered scope .syncSharedState rfl (fun _ => here) voted ?_
    rcases target with rfl | rfl <;> simp [ClientInfo.enter, ConnectionState.isVote]
  | @endSync scope _ _ part voted =>
    exact answered scope .syncSharedStateComplete rfl (fun _ => ((info.takesPart_iff _).mp part).2)
      voted (by simp [ClientInfo.enter, ConnectionState.isVote])
  | finish part runs =>
    refine silent (by rw [runs]; decide) ?_
    simp only [ClientInfo.eraseTag, runs]
    split <;> simp [ConnectionState.isVote]
  | query | complete | resetQuery | commence => exact kept rfl rfl

theorem declares_iff (sound : info.Sound) :
    next.connectionState.declares ↔
      (info.connectionState.declares ∨ ∃ strategy, action = .vote .syncSharedState uuid strategy) ∧
        ¬ ∃ group, action = .endSync group ∧ info.takesPart group := by
  cases moves with
  | skip skips =>
    cases action with
    | vote ballot client =>
      have different : uuid ≠ client := skips
      simp [Ne.symm different]
    | endSync group =>
      have outside : ¬ info.takesPart group := skips
      simp [outside]
    | _ => simp
  | @vote ballot _ _ _ _ admitted =>
    cases ballot <;> cases state : info.connectionState <;>
      simp_all [Ballot.admits, ClientInfo.enter, Ballot.cast, ConnectionState.declares,
        ConnectionState.syncs]
  | @report _ success _ state | @endRound success _ _ state =>
    cases success <;>
      simp [state, ClientInfo.enter, ConnectionState.declares, ConnectionState.syncs]
  | initiate _ state =>
    rcases state with state | state <;>
      simp [state, ClientInfo.enter, ConnectionState.declares, ConnectionState.syncs]
  | @startRound acceptNewPeers _ _ _ voted =>
    have quiet : info.connectionState.declares = false := by
      by_cases accepted : info.connectionPhase = .accepted
      · rw [voted accepted]
        cases acceptNewPeers <;> rfl
      · have state := (sound.registered (ConnectionPhase.registered_of_ne accepted)).1
        cases state' : info.connectionState <;>
          simp_all [ConnectionState.inRound, ConnectionState.declares, ConnectionState.syncs]
    have after : (info.enter .connectingToPeers).connectionState.declares = false := rfl
    simp [quiet, after]
  | startSync _ voted target =>
    rcases target with rfl | rfl <;>
      simp [voted, ClientInfo.enter, ConnectionState.declares, ConnectionState.syncs]
  | endSync part => simp [part, ClientInfo.enter, ConnectionState.declares, ConnectionState.syncs]
  | finish _ runs =>
    simp only [ClientInfo.eraseTag, runs]
    split <;> simp [ConnectionState.declares, ConnectionState.syncs]
  | acceptFirst _ state | startOptimization _ state | endOptimization _ state =>
    simp [state, ClientInfo.enter, ConnectionState.declares, ConnectionState.syncs]
  | query | complete | resetQuery | commence => simp [ClientInfo.setTag]

end Moves

end Action

namespace Core

variable {core : Core} {environment : Environment}

structure Ballots (core : Core) : Prop where
  voted : ∀ ballot group uuid,
    uuid ∈ core.votes.voters group ballot ↔ core.Has uuid (ClientInfo.Casts ballot group)
  declared : ∀ uuid, uuid ∈ core.votes.sharedStateSyncStrategies ↔
    core.Has uuid fun info => info.connectionState.declares

theorem votes_apply (action : Action) (plain : action.plain) :
    (core.apply environment action).votes = core.castVotes action := by
  cases action with
  | register | leave => cases plain
  | refuse | abort | finish =>
    simp only [apply]
    split <;> rfl
  | _ => rfl

theorem mem_castVotes (action : Action) (others : ∀ ballot uuid strategy, action ≠ .vote ballot uuid strategy)
    (ballot : Ballot) (group : Group) (uuid : Uuid) :
    uuid ∈ (core.castVotes action).voters group ballot ↔
      uuid ∈ core.votes.voters group ballot ∧ ¬ action.Clears ballot group := by
  have cleared (scope : Group) (cast : Ballot) (clears : action.clears = some (scope, cast)) :
      uuid ∈ (core.votes.clear scope cast).voters group ballot ↔
        uuid ∈ core.votes.voters group ballot ∧ ¬ action.Clears ballot group := by
    rw [Votes.clear, Votes.voters_setVoters]
    have same : action.Clears ballot group ↔ ballot = cast ∧ (cast.perGroup → group = scope) := by
      constructor
      · rintro ⟨other, same, here⟩
        rw [clears] at same
        cases same
        exact ⟨rfl, here⟩
      · rintro ⟨rfl, here⟩
        exact ⟨scope, clears, here⟩
    rw [same]
    split <;> simp_all
  cases action with
  | vote => exact absurd rfl (others _ _ _)
  | startRound acceptNewPeers => exact cleared 0 (roundBallot acceptNewPeers) rfl
  | startOptimization => exact cleared 0 .optimizeTopology rfl
  | endOptimization => exact cleared 0 .completeTopologyOptimization rfl
  | startSync scope => exact cleared scope .syncSharedState rfl
  | endSync scope =>
    have kept := cleared scope .syncSharedStateComplete rfl
    cases ballot <;> exact kept
  | _ => simp [castVotes, Action.Clears, Action.clears]

theorem Has.apply_iff {action : Action} (plain : action.plain) (enabled : core.enabled action)
    {uuid : Uuid} {before after : ClientInfo → Prop}
    (step : ∀ info next, core.info uuid = some info → action.Moves uuid info next →
      (after next ↔ before info)) :
    (core.apply environment action).Has uuid after ↔ core.Has uuid before := by
  constructor
  · rintro ⟨next, found, holds⟩
    obtain ⟨info, present, moves⟩ := moved plain enabled found
    exact ⟨info, present, (step info next present moves).mp holds⟩
  · rintro ⟨info, present, holds⟩
    obtain ⟨next, found, moves⟩ := @moves_on core environment _ plain enabled _ _ present
    exact ⟨next, found, (step info next present moves).mpr holds⟩

theorem Ballots.initial : Ballots Core.initial where
  voted ballot group uuid := by
    cases ballot <;>
      simp [Core.initial, MasterState.core, MasterState.initial, Votes.voters, Core.Has, Core.info]
  declared uuid := by
    simp [Core.initial, MasterState.core, MasterState.initial, Core.Has, Core.info]

namespace Ballots

variable (ballots : Ballots core)
include ballots

theorem vote (ballot : Ballot) (client : Uuid) (strategy : Option SyncStrategy)
    (enabled : core.enabled (.vote ballot client strategy)) :
    Ballots (core.apply environment (.vote ballot client strategy)) := by
  obtain ⟨⟨own, present, accepted, admitted⟩, declares⟩ := enabled
  have quiet := ballot.not_isVote_of_admits admitted
  have votes : (core.apply environment (.vote ballot client strategy)).votes =
      core.votes.cast own.peerGroup ballot client strategy := by
    rw [votes_apply _ rfl]
    simp [castVotes, present]
  have voters (scope : Group) (other : Ballot) :
      (core.votes.cast own.peerGroup ballot client strategy).voters scope other =
        if other = ballot ∧ (ballot.perGroup → scope = own.peerGroup) then
          insert client (core.votes.voters own.peerGroup ballot)
        else core.votes.voters scope other := by
    rw [← Votes.voters_setVoters]
    cases strategy <;> cases other <;> rfl
  have sorted : (core.apply environment (.vote ballot client strategy)).info client =
      some (own.enter ballot.cast) := by
    rw [info_apply _ rfl, present]
    simp [Action.change]
  have others (uuid : Uuid) (different : uuid ≠ client) :
      (core.apply environment (.vote ballot client strategy)).info uuid = core.info uuid := by
    rw [info_apply _ rfl]
    cases core.info uuid <;> simp [Action.change, different]
  constructor
  case voted =>
    intro other group uuid
    rw [votes, voters]
    by_cases same : uuid = client
    · subst same
      have out (scope : Group) (cast : Ballot) : uuid ∉ core.votes.voters scope cast := by
        rw [ballots.voted]
        rintro ⟨info, found, casts, _⟩
        rw [present] at found
        cases found
        exact quiet (casts ▸ cast.isVote_cast)
      have castsIff : (core.apply environment (.vote ballot uuid strategy)).Has uuid
          (ClientInfo.Casts other group) ↔ other = ballot ∧ (ballot.perGroup → group = own.peerGroup) := by
        constructor
        · rintro ⟨info, found, casts, here⟩
          rw [sorted] at found
          cases found
          obtain rfl := Ballot.cast_injective casts
          exact ⟨rfl, fun per => (here per).symm⟩
        · rintro ⟨rfl, here⟩
          exact ⟨_, sorted, rfl, fun per => (here per).symm⟩
      rw [castsIff]
      split <;> simp_all
    · have kept : uuid ∈ core.votes.voters group other ↔
          (core.apply environment (.vote ballot client strategy)).Has uuid
            (ClientInfo.Casts other group) := by
        rw [ballots.voted, Core.Has, Core.Has, others uuid same]
      rw [← kept]
      split
      · next here =>
        obtain ⟨rfl, scope⟩ := here
        have sameVoters : core.votes.voters group other = core.votes.voters own.peerGroup other := by
          cases other <;> first | rfl | rw [scope rfl]
        simp [same, sameVoters]
      · rfl
  case declared =>
    intro uuid
    rw [votes]
    have strategies :
        uuid ∈ (core.votes.cast own.peerGroup ballot client strategy).sharedStateSyncStrategies ↔
        (uuid = client ∧ strategy.isSome) ∨ uuid ∈ core.votes.sharedStateSyncStrategies := by
      cases strategy with
      | none => cases ballot <;> simp [Votes.cast, Votes.setVoters]
      | some strategy => cases ballot <;> simp [Votes.cast, Votes.setVoters]
    rw [strategies, ballots.declared, declares]
    by_cases same : uuid = client
    · subst same
      have before : (core.Has uuid fun info => info.connectionState.declares) ↔
          own.connectionState.declares := by simp [Core.Has, present]
      have after : ((core.apply environment (.vote ballot uuid strategy)).Has uuid fun info =>
          info.connectionState.declares) ↔ ballot.cast.declares := by
        simp [Core.Has, sorted, ClientInfo.enter]
      rw [before, after]
      by_cases sync : ballot = .syncSharedState
      · subst sync
        simp [Ballot.cast, ConnectionState.declares]
      · simp [sync, ballot.declares_cast sync admitted]
    · simp [Core.Has, others uuid same, same]

omit ballots in
theorem mem_strategies (action : Action)
    (others : ∀ ballot uuid strategy, action ≠ .vote ballot uuid strategy)
    (registry : Registry environment core) (uuid : Uuid) :
    uuid ∈ (core.castVotes action).sharedStateSyncStrategies ↔
      uuid ∈ core.votes.sharedStateSyncStrategies ∧
        ¬ ∃ group, action = .endSync group ∧ core.Has uuid fun info => info.takesPart group := by
  cases action with
  | vote => exact absurd rfl (others _ _ _)
  | endSync group =>
    have member : uuid ∈ core.participants group ↔ core.Has uuid fun info => info.takesPart group := by
      simp only [participants, List.mem_map, List.mem_filter, Core.infos, Table.mem_values_iff]
      constructor
      · rintro ⟨info, ⟨⟨key, found⟩, part⟩, rfl⟩
        have same : info.clientUuid = key := registry.named key info found
        exact ⟨info, same ▸ found, part⟩
      · rintro ⟨info, found, part⟩
        exact ⟨info, ⟨⟨uuid, found⟩, part⟩, registry.named uuid info found⟩
    simp [castVotes, Votes.forgetStrategies, Table.mem_foldl_erase, Votes.clear, Votes.setVoters, member]
  | startRound acceptNewPeers =>
    cases acceptNewPeers <;> simp [castVotes, Votes.clear, Votes.setVoters, roundBallot]
  | _ => simp [castVotes, Votes.clear, Votes.setVoters]

theorem apply_plain (registry : Registry environment core) (states : States core) (action : Action)
    (plain : action.plain) (enabled : core.enabled action)
    (others : ∀ ballot uuid strategy, action ≠ .vote ballot uuid strategy) :
    Ballots (core.apply environment action) where
  voted ballot group uuid := by
    rw [votes_apply action plain, mem_castVotes action others, ballots.voted]
    by_cases clears : action.Clears ballot group
    · simp only [clears, not_true_eq_false, and_false, false_iff]
      rintro ⟨next, found, casts⟩
      obtain ⟨info, present, moves⟩ := moved plain enabled found
      have := (moves.casts_iff (states.sound uuid info present) (fun _ _ => others _ _ _)
        ballot group).mp casts
      exact this.2 clears
    · simp only [clears, not_false_eq_true, and_true]
      refine (Has.apply_iff plain enabled fun info next present moves => ?_).symm
      simpa [clears] using
        moves.casts_iff (states.sound uuid info present) (fun _ _ => others _ _ _) ballot group
  declared uuid := by
    rw [votes_apply action plain, mem_strategies action others registry, ballots.declared]
    constructor
    · rintro ⟨⟨info, present, declares⟩, kept⟩
      obtain ⟨next, found, moves⟩ := @moves_on core environment _ plain enabled _ _ present
      refine ⟨next, found, (moves.declares_iff (states.sound uuid info present)).mpr ⟨Or.inl declares, ?_⟩⟩
      rintro ⟨group, same, part⟩
      exact kept ⟨group, same, info, present, part⟩
    · rintro ⟨next, found, declares⟩
      obtain ⟨info, present, moves⟩ := moved plain enabled found
      obtain ⟨before | ⟨strategy, same⟩, kept⟩ :=
        (moves.declares_iff (states.sound uuid info present)).mp declares
      · refine ⟨⟨info, present, before⟩, ?_⟩
        rintro ⟨group, same, has⟩
        exact kept ⟨group, same, has.of_info present⟩
      · exact absurd same (others _ _ _)

theorem register (registry : Registry environment core) (address : SocketAddress)
    (ports : ClientVariablePorts) (group : Group) :
    Ballots (core.register environment address ports group) := by
  have same (uuid : Uuid) (condition : ClientInfo → Prop)
      (fresh : ¬ condition ⟨uuid, .registered, .idle, false, ∅, address, ports, group⟩) :
      (core.register environment address ports group).Has uuid condition ↔ core.Has uuid condition := by
    constructor
    · rintro ⟨info, found, holds⟩
      rcases (info_register registry address ports group uuid info).mp found with ⟨_, rfl⟩ | found
      · exact absurd holds fresh
      · exact ⟨info, found, holds⟩
    · rintro ⟨info, found, holds⟩
      exact ⟨info, (info_register registry address ports group uuid info).mpr (Or.inr found), holds⟩
  constructor
  · intro ballot scope uuid
    refine (ballots.voted ballot scope uuid).trans (same uuid _ ?_).symm
    rintro ⟨casts, _⟩
    cases ballot <;> cases casts
  · intro uuid
    exact (ballots.declared uuid).trans (same uuid _ nofun).symm

theorem leave (address : SocketAddress) (uuid : Uuid) {info : ClientInfo}
    (found : core.info uuid = some info) : Ballots (core.leave address uuid) := by
  have has (client : Uuid) (condition : ClientInfo → Prop) :
      (core.leave address uuid).Has client condition ↔ client ≠ uuid ∧ core.Has client condition := by
    simp only [Core.Has, info_leave]
    tauto
  have votes : (core.leave address uuid).votes = core.votes.forget info.peerGroup uuid := by
    simp [Core.leave, found]
  constructor
  · intro ballot group client
    rw [votes, Votes.mem_forget, ballots.voted, has]
    constructor
    · rintro ⟨⟨other, present, casts⟩, kept⟩
      refine ⟨fun same => ?_, other, present, casts⟩
      obtain ⟨per, away⟩ := kept same
      subst same
      rw [found] at present
      cases present
      exact away (casts.2 per).symm
    · rintro ⟨different, holds⟩
      exact ⟨holds, fun same => absurd same different⟩
  · intro client
    rw [votes, has, ← ballots.declared]
    simp [Votes.forget, AList.mem_erase]

theorem apply (registry : Registry environment core) (states : States core) (action : Action)
    (enabled : core.enabled action) : Ballots (core.apply environment action) := by
  cases action with
  | register address ports group => exact ballots.register registry address ports group
  | leave address uuid =>
    obtain ⟨info, found, _⟩ := registry.info_of address uuid enabled
    exact ballots.leave address uuid found
  | vote ballot client strategy => exact ballots.vote ballot client strategy enabled
  | _ => exact ballots.apply_plain registry states _ rfl enabled nofun

end Ballots

end Core

end Pccl.Master
