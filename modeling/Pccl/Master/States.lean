import Pccl.Master.Registry

set_option autoImplicit false

namespace Pccl.Master

open Packet

namespace ConnectionState

def inRound : ConnectionState → Bool
  | connectingToPeers | connectingToPeersFailed | waitingForOtherPeers => true
  | _ => false

def awaitsRound : ConnectionState → Bool
  | voteAcceptNewPeers | voteNoNewPeersEstablishP2PConnections => true
  | _ => false

def isVote : ConnectionState → Bool
  | voteAcceptNewPeers | voteNoNewPeersEstablishP2PConnections | voteOptimizeTopology
  | voteCompleteTopologyOptimization | voteSyncSharedState | voteCompleteSharedStateSync => true
  | _ => false

def optimizes : ConnectionState → Bool
  | optimizeTopology | voteCompleteTopologyOptimization => true
  | _ => false

def syncs : ConnectionState → Bool
  | distributeSharedState | requestSharedState | voteCompleteSharedStateSync => true
  | _ => false

end ConnectionState

theorem Ballot.phase_cast (ballot : Ballot) (state : ConnectionState)
    (admitted : state ∈ ballot.admits) :
    ballot.cast.optimizes = state.optimizes ∧ ballot.cast.syncs = state.syncs := by
  cases ballot <;> cases state <;>
    simp_all [Ballot.admits, Ballot.cast, ConnectionState.optimizes, ConnectionState.syncs]

theorem Ballot.cast_awaitsRound (ballot : Ballot) (state : ConnectionState)
    (admitted : state ∈ ballot.admits) (busy : state.inRound ∨ state.awaitsRound) :
    ballot.cast.awaitsRound := by
  cases ballot <;> cases state <;>
    simp_all [Ballot.admits, Ballot.cast, ConnectionState.inRound, ConnectionState.awaitsRound]

/-- What holds of each client by itself. -/
structure ClientInfo.Sound (info : ClientInfo) : Prop where
  registered : info.connectionPhase = .registered →
    (info.connectionState = .idle ∨ info.connectionState.inRound) ∧ info.voteQueryPendingPeers = false
  running : info.connectionState = .collectiveCommunicationsRunning ↔
    info.collectiveComsStates.entries ≠ []

namespace ClientInfo.Sound

variable {info : ClientInfo} (sound : info.Sound)
include sound

theorem no_tags (idle : info.connectionState ≠ .collectiveCommunicationsRunning) :
    info.collectiveComsStates.entries = [] := by
  by_contra tags
  exact idle (sound.running.mpr tags)

theorem quiet (registered : info.connectionPhase = .registered) : ¬ info.connectionState.isVote := by
  have state := (sound.registered registered).1
  cases at_ : info.connectionState <;> simp_all [ConnectionState.inRound, ConnectionState.isVote]

theorem lookup_none (idle : info.connectionState ≠ .collectiveCommunicationsRunning) (tag : Tag) :
    info.collectiveComsStates.lookup tag = none := by
  rw [AList.lookup_eq_none, AList.mem_keys, AList.keys, sound.no_tags idle]
  simp

theorem runs_of_tag {tag : Tag} {state : CollectiveCommunicationState}
    (found : info.collectiveComsStates.lookup tag = some state) :
    info.connectionState = .collectiveCommunicationsRunning := by
  by_contra idle
  rw [sound.lookup_none idle] at found
  cases found

theorem accepted_of_runs (runs : info.connectionState = .collectiveCommunicationsRunning) :
    info.connectionPhase = .accepted := by
  cases phase : info.connectionPhase with
  | accepted => rfl
  | registered =>
    have := (sound.registered phase).1
    simp [runs, ConnectionState.inRound] at this

theorem enter (state : ConnectionState) (idle : info.connectionState ≠ .collectiveCommunicationsRunning)
    (other : state ≠ .collectiveCommunicationsRunning)
    (fits : info.connectionPhase = .registered → state = .idle ∨ state.inRound) :
    (info.enter state).Sound where
  registered phase := ⟨fits phase, (sound.registered phase).2⟩
  running := by simpa [ClientInfo.enter, other] using sound.no_tags idle

theorem accept (state : ConnectionState) (idle : info.connectionState ≠ .collectiveCommunicationsRunning)
    (other : state ≠ .collectiveCommunicationsRunning) :
    ClientInfo.Sound { info with connectionState := state, connectionPhase := .accepted } where
  registered phase := by simp at phase
  running := by simpa [other] using sound.no_tags idle

omit sound in
theorem setTag (tag : Tag) (state : CollectiveCommunicationState)
    (accepted : info.connectionPhase = .accepted) :
    ((info.setTag tag state).enter .collectiveCommunicationsRunning).Sound where
  registered phase := by simp [ClientInfo.enter, ClientInfo.setTag, accepted] at phase
  running := by simp [ClientInfo.enter, ClientInfo.setTag, AList.entries_insert]

omit sound in
theorem setTag_of_runs (tag : Tag)
    (state : CollectiveCommunicationState) (accepted : info.connectionPhase = .accepted)
    (runs : info.connectionState = .collectiveCommunicationsRunning) : (info.setTag tag state).Sound := by
  have same : info.setTag tag state = (info.setTag tag state).enter .collectiveCommunicationsRunning := by
    simp [ClientInfo.enter, ClientInfo.setTag, ← runs]
  rw [same]
  exact setTag tag state accepted

omit sound in
theorem eraseTag (tag : Tag) (accepted : info.connectionPhase = .accepted)
    (runs : info.connectionState = .collectiveCommunicationsRunning) : (info.eraseTag tag).Sound where
  registered phase := by simp [ClientInfo.eraseTag, accepted] at phase
  running := by
    simp only [ClientInfo.eraseTag, runs]
    split <;> simp_all

end ClientInfo.Sound

theorem Action.Moves.sound {action : Action} {uuid : Uuid} {info next : ClientInfo}
    (moves : action.Moves uuid info next) (sound : info.Sound) : next.Sound := by
  cases moves with
  | skip => exact sound
  | acceptFirst registered idle => exact sound.accept _ (by simp [idle]) (by simp)
  | @vote ballot _ _ _ accepted admitted =>
    refine sound.enter _ ?_ ?_ (by simp [accepted])
    · intro runs
      cases ballot <;> simp [runs, Ballot.admits] at admitted
    · cases ballot <;> simp [Ballot.cast]
  | query accepted => exact ⟨fun phase => by simp_all, sound.running⟩
  | @report _ success _ connecting =>
    refine sound.enter _ (by simp [connecting]) ?_ ?_ <;> cases success <;>
      simp [ConnectionState.inRound]
  | initiate accepted => exact .setTag _ .voteInitiate accepted
  | complete accepted performs =>
    exact .setTag_of_runs _ .voteComplete accepted (sound.runs_of_tag performs)
  | @startRound acceptNewPeers _ _ _ voted =>
    have idle : info.connectionState ≠ .collectiveCommunicationsRunning := by
      intro runs
      have := voted (sound.accepted_of_runs runs)
      cases acceptNewPeers <;> simp [runs, roundBallot, Ballot.cast] at this
    exact sound.enter _ idle (by simp) (by simp [ConnectionState.inRound])
  | endRound waits => exact sound.accept _ (by simp [waits]) (by split <;> simp)
  | resetQuery accepted => exact ⟨fun phase => by simp_all, sound.running⟩
  | startOptimization accepted voted | endOptimization accepted voted =>
    exact sound.enter _ (by simp [voted]) (by simp) (by simp [accepted])
  | startSync here voted target =>
    have accepted : info.connectionPhase ≠ .registered := by
      intro phase
      have := (sound.registered phase).1
      simp [voted, ConnectionState.inRound] at this
    refine sound.enter _ (by simp [voted]) ?_ (fun phase => absurd phase accepted)
    rcases target with rfl | rfl <;> simp
  | endSync part voted =>
    exact sound.enter _ (by simp [voted]) (by simp) (by simp [(info.takesPart_iff _).mp part])
  | commence part runs => exact .setTag_of_runs _ .perform ((info.takesPart_iff _).mp part).1 runs
  | finish part runs => exact .eraseTag _ ((info.takesPart_iff _).mp part).1 runs

inductive Phase where
  | optimization
  | sync (group : Group)
  | operation (group : Group) (tag : Tag)
deriving DecidableEq, Repr

namespace Phase

def concerns (group : Group) : Phase → Bool
  | optimization => true
  | sync scope | operation scope _ => group = scope

def scope (phase : Phase) (info : ClientInfo) : Bool :=
  info.connectionPhase = .accepted && phase.concerns info.peerGroup

def takes (phase : Phase) (info : ClientInfo) : Bool :=
  match phase with
  | optimization => info.connectionState.optimizes
  | sync _ => info.connectionState.syncs
  | operation _ tag =>
    info.collectiveComsStates.lookup tag = some .perform ||
      info.collectiveComsStates.lookup tag = some .voteComplete

def starts : Phase → Action → Prop
  | optimization, action => action = .startOptimization
  | sync group, action => ∃ status, action = .startSync group status
  | operation group tag, action => action = .commence group tag

def ends : Phase → Action → Prop
  | optimization, action => action = .endOptimization
  | sync group, action => action = .endSync group
  | operation group tag, action => action = .finish group tag

variable {phase : Phase} {info : ClientInfo}

theorem scope_iff : phase.scope info = true ↔
    info.connectionPhase = .accepted ∧ phase.concerns info.peerGroup = true := by
  simp [scope]

theorem state_of_takes (sound : info.Sound) (takes : phase.takes info) :
    info.connectionPhase = .accepted ∧ ¬ info.connectionState.inRound ∧
      ¬ info.connectionState.awaitsRound := by
  have state : info.connectionState ≠ .idle ∧ ¬ info.connectionState.inRound ∧
      ¬ info.connectionState.awaitsRound := by
    cases phase with
    | optimization | sync =>
      simp only [Phase.takes] at takes
      cases state : info.connectionState <;>
        simp_all [ConnectionState.optimizes, ConnectionState.syncs, ConnectionState.inRound,
          ConnectionState.awaitsRound]
    | operation group tag =>
      rcases (by simpa [Phase.takes] using takes) with held | held <;>
        simp [sound.runs_of_tag held, ConnectionState.inRound, ConnectionState.awaitsRound]
  refine ⟨?_, state.2⟩
  by_contra other
  rcases (sound.registered (ConnectionPhase.registered_of_ne other)).1 with idle | round
  · exact state.1 idle
  · exact state.2.1 round

end Phase

namespace Action.Moves

variable {action : Action} {uuid : Uuid} {info next : ClientInfo} (moves : action.Moves uuid info next)
include moves

theorem accepted_before (accepted : next.connectionPhase = .accepted) :
    info.connectionPhase = .accepted ∨
      (info.connectionState = .waitingForOtherPeers ∧ ∃ failure, action = .endRound failure) ∨
        action = .acceptFirst uuid := by
  cases moves with
  | acceptFirst => exact Or.inr (Or.inr rfl)
  | endRound waits => exact Or.inr (Or.inl ⟨waits, _, rfl⟩)
  | _ => exact Or.inl accepted

theorem accepted_after (accepted : info.connectionPhase = .accepted) :
    next.connectionPhase = .accepted := by
  cases moves with
  | acceptFirst | endRound => rfl
  | _ => exact accepted

theorem takes_before {phase : Phase} (scope : phase.scope next) (takes : phase.takes next) :
    phase.takes info ∨ phase.starts action := by
  have concerns : phase.concerns info.peerGroup := by
    rw [← moves.keeps.2.2]
    exact (Phase.scope_iff.mp scope).2
  cases phase with
  | optimization =>
    simp only [Phase.takes] at takes ⊢
    cases moves with
    | startOptimization => exact Or.inr rfl
    | @vote ballot _ _ _ _ admitted => exact Or.inl ((ballot.phase_cast _ admitted).1 ▸ takes)
    | @report _ success | @endRound success => cases success <;> cases takes
    | startSync _ _ target => rcases target with rfl | rfl <;> cases takes
    | finish _ runs =>
      simp only [ClientInfo.eraseTag, runs] at takes
      split at takes <;> cases takes
    | acceptFirst | initiate | startRound | endOptimization | endSync => cases takes
    | _ => exact Or.inl takes
  | sync group =>
    simp only [Phase.takes] at takes ⊢
    cases moves with
    | startSync here => exact Or.inr ⟨_, by rw [← here, of_decide_eq_true concerns]⟩
    | @vote ballot _ _ _ _ admitted => exact Or.inl ((ballot.phase_cast _ admitted).2 ▸ takes)
    | @report _ success | @endRound success => cases success <;> cases takes
    | finish _ runs =>
      simp only [ClientInfo.eraseTag, runs] at takes
      split at takes <;> cases takes
    | acceptFirst | initiate | startRound | startOptimization | endOptimization | endSync =>
      cases takes
    | _ => exact Or.inl takes
  | operation group tag =>
    cases moves with
    | @initiate _ other =>
      by_cases same : tag = other <;>
        simp_all [Phase.takes, ClientInfo.enter, ClientInfo.setTag, Table.lookup_insert_iff]
    | @complete _ other _ _ performs =>
      refine Or.inl ?_
      by_cases same : tag = other
      · subst same
        simp [Phase.takes, performs]
      · simpa [Phase.takes, ClientInfo.setTag, Table.lookup_insert_iff, same] using takes
    | @commence ofGroup other _ _ part =>
      by_cases same : tag = other
      · refine Or.inr ?_
        rw [same, ← of_decide_eq_true concerns, ((info.takesPart_iff _).mp part).2]
        rfl
      · refine Or.inl ?_
        simpa [Phase.takes, ClientInfo.setTag, Table.lookup_insert_iff, same] using takes
    | @finish _ other =>
      simp only [Phase.takes, ClientInfo.eraseTag, Table.lookup_erase_iff] at takes ⊢
      split at takes <;> simp_all
    | _ => exact Or.inl takes

theorem takes_after {phase : Phase} (sound : info.Sound) (scope : phase.scope info)
    (takes : phase.takes info) : phase.takes next ∨ phase.ends action := by
  have concerns := (Phase.scope_iff.mp scope).2
  have busy := Phase.state_of_takes sound takes
  cases phase with
  | optimization =>
    simp only [Phase.takes] at takes ⊢
    cases moves with
    | endOptimization => exact Or.inr rfl
    | @vote ballot _ _ _ _ admitted => exact Or.inl ((ballot.phase_cast _ admitted).1.symm ▸ takes)
    | initiate _ state => rcases state with state | state <;> rw [state] at takes <;> cases takes
    | @startRound acceptNewPeers _ _ _ voted =>
      rw [voted busy.1] at takes
      cases acceptNewPeers <;> cases takes
    | acceptFirst _ state | report state | endRound state | startOptimization _ state
    | startSync _ state | endSync _ state | finish _ state =>
      rw [state] at takes
      cases takes
    | _ => exact Or.inl takes
  | sync group =>
    simp only [Phase.takes] at takes ⊢
    cases moves with
    | endSync part =>
      refine Or.inr ?_
      rw [← of_decide_eq_true concerns, ((info.takesPart_iff _).mp part).2]
      rfl
    | @vote ballot _ _ _ _ admitted => exact Or.inl ((ballot.phase_cast _ admitted).2.symm ▸ takes)
    | initiate _ state => rcases state with state | state <;> rw [state] at takes <;> cases takes
    | @startRound acceptNewPeers _ _ _ voted =>
      rw [voted busy.1] at takes
      cases acceptNewPeers <;> cases takes
    | acceptFirst _ state | report state | endRound state | startOptimization _ state
    | endOptimization _ state | startSync _ state | finish _ state =>
      rw [state] at takes
      cases takes
    | _ => exact Or.inl takes
  | operation group tag =>
    cases moves with
    | @initiate _ other _ _ _ fresh =>
      refine Or.inl ?_
      by_cases same : tag = other
      · subst same
        simp [Phase.takes, AList.lookup_eq_none.mpr fresh] at takes
      · simpa [Phase.takes, ClientInfo.enter, ClientInfo.setTag, Table.lookup_insert_iff, same]
          using takes
    | @complete _ other | @commence _ other =>
      refine Or.inl ?_
      by_cases same : tag = other
      · simp [Phase.takes, ClientInfo.setTag, Table.lookup_insert_iff, same]
      · simpa [Phase.takes, ClientInfo.setTag, Table.lookup_insert_iff, same] using takes
    | @finish _ other _ _ part =>
      by_cases same : tag = other
      · refine Or.inr ?_
        rw [same, ← of_decide_eq_true concerns, ((info.takesPart_iff _).mp part).2]
        rfl
      · refine Or.inl ?_
        simpa [Phase.takes, ClientInfo.eraseTag, Table.lookup_erase_iff, same] using takes
    | _ => exact Or.inl takes

theorem takes_of_starts {phase : Phase} (starts : phase.starts action) (scope : phase.scope next) :
    phase.takes next := by
  obtain ⟨accepted, concerns⟩ := Phase.scope_iff.mp scope
  cases phase with
  | optimization =>
    subst starts
    cases moves with
    | skip registered => simp [accepted, Action.skips] at registered
    | startOptimization => rfl
  | sync group =>
    obtain ⟨status, rfl⟩ := starts
    cases moves with
    | skip outside => simp_all [Action.skips, Phase.concerns]
    | startSync _ _ target => rcases target with rfl | rfl <;> rfl
  | operation group tag =>
    subst starts
    cases moves with
    | skip outside => simp_all [Action.skips, Phase.concerns, ClientInfo.takesPart]
    | commence => simp [Phase.takes, ClientInfo.setTag]

theorem not_takes_of_ends {phase : Phase} (ends : phase.ends action) (scope : phase.scope next) :
    ¬ phase.takes next := by
  obtain ⟨accepted, concerns⟩ := Phase.scope_iff.mp scope
  cases phase with
  | optimization =>
    subst ends
    cases moves with
    | skip registered => simp [accepted, Action.skips] at registered
    | endOptimization => exact Bool.false_ne_true
  | sync group =>
    subst ends
    cases moves with
    | skip outside => simp_all [Action.skips, Phase.concerns, ClientInfo.takesPart]
    | endSync => exact Bool.false_ne_true
  | operation group tag =>
    subst ends
    cases moves with
    | skip outside => simp_all [Action.skips, Phase.concerns, ClientInfo.takesPart]
    | finish => simp [Phase.takes, ClientInfo.eraseTag]

theorem off_round (others : action ≠ .acceptFirst uuid)
    (outside : ¬ info.connectionState.inRound)
    (round : next.connectionState.inRound) :
    ∃ acceptNewPeers, action = .startRound acceptNewPeers := by
  cases moves with
  | acceptFirst => exact absurd rfl others
  | startRound => exact ⟨_, rfl⟩
  | @vote ballot => cases ballot <;> cases round
  | report state | endRound state =>
    rw [state] at outside
    exact absurd rfl outside
  | startSync _ _ target => rcases target with rfl | rfl <;> cases round
  | finish _ runs =>
    simp only [ClientInfo.eraseTag, runs] at round
    split at round <;> cases round
  | initiate | startOptimization | endOptimization | endSync => cases round
  | _ => exact absurd round outside

theorem busy_after (busy : info.connectionState.inRound ∨ info.connectionState.awaitsRound) :
    (next.connectionState.inRound ∨ next.connectionState.awaitsRound) ∨ action = .endRound false := by
  cases moves with
  | @vote ballot _ _ _ _ admitted => exact Or.inl (Or.inr (ballot.cast_awaitsRound _ admitted busy))
  | @report _ success => exact Or.inl (Or.inl (by cases success <;> rfl))
  | startRound | acceptFirst => exact Or.inl (Or.inl rfl)
  | @endRound failure =>
    cases failure with
    | false => exact Or.inr rfl
    | true => exact Or.inl (Or.inl rfl)
  | initiate _ state =>
    rcases state with state | state <;>
      simp [state, ConnectionState.inRound, ConnectionState.awaitsRound] at busy
  | startOptimization _ state | endOptimization _ state | startSync _ state | endSync _ state
  | finish _ state =>
    rw [state] at busy
    simp [ConnectionState.inRound, ConnectionState.awaitsRound] at busy
  | _ => exact Or.inl busy

end Action.Moves

namespace Core

variable {core : Core} {environment : Environment}

/-- What holds of the states of the clients whatever has happened. -/
structure States (core : Core) : Prop where
  sound : core.All ClientInfo.Sound
  exclusive : ∀ uuid info, core.info uuid = some info → info.connectionState.inRound →
    core.All fun other => other.connectionPhase = .accepted →
      other.connectionState.inRound ∨ other.connectionState.awaitsRound
  phases : ∀ phase : Phase, ∀ uuid info, core.info uuid = some info → phase.scope info →
    phase.takes info → core.All fun other => phase.scope other → phase.takes other

theorem States.initial : States Core.initial := by
  have nobody (uuid : Uuid) (info : ClientInfo) : Core.initial.info uuid ≠ some info := by
    simp [Core.initial, MasterState.core, MasterState.initial, Core.info]
  exact ⟨fun _ _ found => absurd found (nobody _ _), fun _ _ found => absurd found (nobody _ _),
    fun _ _ _ found => absurd found (nobody _ _)⟩

namespace States

variable (states : States core)
include states

theorem register (registry : Registry environment core) (address : SocketAddress)
    (ports : ClientVariablePorts) (group : Group) :
    States (core.register environment address ports group) where
  sound uuid info found := by
    rcases (info_register registry address ports group uuid info).mp found with ⟨_, rfl⟩ | found
    · exact ⟨fun _ => ⟨Or.inl rfl, rfl⟩, by simp⟩
    · exact states.sound uuid info found
  exclusive uuid info found round other otherInfo otherFound accepted := by
    rcases (info_register registry address ports group uuid info).mp found with ⟨_, rfl⟩ | found
    · cases round
    · rcases (info_register registry address ports group other otherInfo).mp otherFound with
        ⟨_, rfl⟩ | otherFound
      · cases accepted
      · exact states.exclusive uuid info found round other otherInfo otherFound accepted
  phases phase uuid info found scope takes other otherInfo otherFound otherScope := by
    rcases (info_register registry address ports group uuid info).mp found with ⟨_, rfl⟩ | found
    · cases scope
    · rcases (info_register registry address ports group other otherInfo).mp otherFound with
        ⟨_, rfl⟩ | otherFound
      · cases otherScope
      · exact states.phases phase uuid info found scope takes other otherInfo otherFound otherScope

theorem leave (address : SocketAddress) (uuid : Uuid) : States (core.leave address uuid) where
  sound other info found := states.sound other info ((info_leave address uuid other info).mp found).2
  exclusive first info found round second other otherFound :=
    states.exclusive first info ((info_leave address uuid first info).mp found).2 round second other
      ((info_leave address uuid second other).mp otherFound).2
  phases phase first info found scope takes second other otherFound :=
    states.phases phase first info ((info_leave address uuid first info).mp found).2 scope takes second
      other ((info_leave address uuid second other).mp otherFound).2

theorem exclusive_apply (registry : Registry environment core) {action : Action}
    (plain : action.plain) (enabled : core.enabled action) (uuid : Uuid) (info : ClientInfo)
    (found : (core.apply environment action).info uuid = some info)
    (round : info.connectionState.inRound) :
    (core.apply environment action).All fun other => other.connectionPhase = .accepted →
      other.connectionState.inRound ∨ other.connectionState.awaitsRound := by
  intro client other otherFound accepted
  obtain ⟨before, present, moves⟩ := moved plain enabled found
  obtain ⟨otherBefore, otherPresent, otherMoves⟩ := moved plain enabled otherFound
  -- The two actions that change phases, and the one that takes everybody into a round.
  by_cases start : ∃ acceptNewPeers, action = .startRound acceptNewPeers
  · obtain ⟨acceptNewPeers, rfl⟩ := start
    cases otherMoves with
    | skip outside => simp [accepted, Action.skips] at outside
    | startRound => exact Or.inl rfl
  by_cases close : ∃ failure, action = .endRound failure
  · obtain ⟨failure, rfl⟩ := close
    cases otherMoves with
    | skip outside =>
      rcases outside with outside | outside
      · simp [accepted] at outside
      · simp [outside.2, ConnectionState.inRound]
    | endRound =>
      cases failure with
      | true => exact Or.inl rfl
      | false =>
        cases moves with
        | endRound => cases round
        | skip outside => simp_all [Action.skips, ConnectionState.inRound]
  by_cases first : ∃ sole, action = .acceptFirst sole
  · obtain ⟨sole, rfl⟩ := first
    cases otherMoves with
    | acceptFirst => exact Or.inl rfl
    | skip different =>
      have named := registry.named client other otherPresent
      exact absurd (named.symm.trans (enabled.2 client other otherPresent)) different
  have wasInRound : before.connectionState.inRound := by
    by_contra outside
    exact start (moves.off_round (fun same => first ⟨_, same⟩) outside round)
  have wasAccepted : otherBefore.connectionPhase = .accepted := by
    rcases otherMoves.accepted_before accepted with before | ⟨_, ends⟩ | sole
    · exact before
    · exact absurd ends close
    · exact absurd ⟨_, sole⟩ first
  have busy := states.exclusive uuid before present wasInRound client otherBefore otherPresent wasAccepted
  rcases otherMoves.busy_after busy with busy | ends
  · exact busy
  · exact absurd ⟨_, ends⟩ close

theorem phases_apply (registry : Registry environment core) {action : Action}
    (plain : action.plain) (enabled : core.enabled action) (phase : Phase) (uuid : Uuid)
    (info : ClientInfo) (found : (core.apply environment action).info uuid = some info)
    (scope : phase.scope info) (takes : phase.takes info) :
    (core.apply environment action).All fun other => phase.scope other → phase.takes other := by
  intro client other otherFound otherScope
  obtain ⟨before, present, moves⟩ := moved plain enabled found
  obtain ⟨otherBefore, otherPresent, otherMoves⟩ := moved plain enabled otherFound
  have sound := states.sound uuid before present
  rcases moves.takes_before scope takes with tookBefore | starts
  case inr => exact otherMoves.takes_of_starts starts otherScope
  have concerns := (Phase.scope_iff.mp scope).2
  have state := Phase.state_of_takes sound tookBefore
  have scopeBefore : phase.scope before := Phase.scope_iff.mpr ⟨state.1, moves.keeps.2.2 ▸ concerns⟩
  obtain ⟨accepted, otherConcerns⟩ := Phase.scope_iff.mp otherScope
  rcases otherMoves.accepted_before accepted with wasAccepted | ⟨waits, _⟩ | sole
  · have otherScopeBefore : phase.scope otherBefore :=
      Phase.scope_iff.mpr ⟨wasAccepted, otherMoves.keeps.2.2 ▸ otherConcerns⟩
    have otherTook := states.phases phase uuid before present scopeBefore tookBefore client otherBefore
      otherPresent otherScopeBefore
    rcases otherMoves.takes_after (states.sound client otherBefore otherPresent) otherScopeBefore
      otherTook with takes | ends
    · exact takes
    · exact absurd takes (moves.not_takes_of_ends ends scope)
  · -- Whoever is accepted at the end of a round was in it, and then nobody was in the phase.
    have round : otherBefore.connectionState.inRound := by rw [waits]; rfl
    have busy := states.exclusive client otherBefore otherPresent round uuid before present state.1
    simp [state.2] at busy
  · subst sole
    have same : uuid = client :=
      (registry.named uuid before present).symm.trans (enabled.2 uuid before present)
    subst same
    have registered := (enabled.1.of_info present).1
    rw [state.1] at registered
    cases registered

theorem apply (registry : Registry environment core) (action : Action)
    (enabled : core.enabled action) : States (core.apply environment action) := by
  have plain (plain : action.plain) : States (core.apply environment action) := by
    refine ⟨fun uuid info found => ?_, states.exclusive_apply registry plain enabled,
      states.phases_apply registry plain enabled⟩
    obtain ⟨before, present, moves⟩ := moved plain enabled found
    exact moves.sound (states.sound uuid before present)
  cases action with
  | register address ports group => exact states.register registry address ports group
  | leave address uuid => exact states.leave address uuid
  | _ => exact plain rfl

end States

end Core

end Pccl.Master
