import Pccl.Master.Protocol

set_option autoImplicit false

namespace Pccl.Master

open Packet

theorem ClientInfo.endRound_cases {failure : Bool} {info next : ClientInfo}
    (moved : info.endRound failure = some next) :
    (info.connectionPhase = .registered ∧ info.connectionState = .idle ∧ next = info) ∨
      (info.connectionState = .waitingForOtherPeers ∧
        next = { info with
          connectionState := if failure then .connectingToPeersFailed else .idle
          connectionPhase := .accepted }) ∨
      (failure = true ∧ info.connectionState = .connectingToPeersFailed ∧ next = info) := by
  unfold ClientInfo.endRound at moved
  split at moved
  · next outside =>
    cases moved
    simp_all [ClientInfo.waitsOutside]
  · split at moved
    · next waiting =>
      cases moved
      exact Or.inr (Or.inl ⟨waiting, rfl⟩)
    · split at moved <;> cases moved
      next failed => exact Or.inr (Or.inr ⟨failed.1, failed.2, rfl⟩)

theorem ConnectionPhase.registered_of_ne {phase : ConnectionPhase} (other : phase ≠ .accepted) :
    phase = .registered := by
  cases phase with
  | registered => rfl
  | accepted => exact absurd rfl other

theorem ClientInfo.takesPart_iff (info : ClientInfo) (group : Group) :
    info.takesPart group = true ↔ info.connectionPhase = .accepted ∧ info.peerGroup = group := by
  simp [ClientInfo.takesPart]

namespace Action

def skips : Action → Uuid → ClientInfo → Prop
  | acceptFirst client, uuid, _ | vote _ client _, uuid, _ | query client, uuid, _
  | report client _, uuid, _ | initiate client _, uuid, _ | complete client _, uuid, _ => uuid ≠ client
  | startRound acceptNewPeers, _, info => acceptNewPeers = false ∧ info.connectionPhase = .registered
  | endRound failure, _, info =>
    (info.connectionPhase = .registered ∧ info.connectionState = .idle) ∨
      (failure = true ∧ info.connectionState = .connectingToPeersFailed)
  | resetQuery, _, info | startOptimization, _, info | endOptimization, _, info =>
    info.connectionPhase = .registered
  | startSync group _, _, info =>
    info.peerGroup ≠ group ∨
      (info.connectionPhase = .registered ∧ info.connectionState ≠ .voteSyncSharedState)
  | endSync group, _, info | commence group _, _, info | finish group _, _, info =>
    ¬ info.takesPart group
  | _, _, _ => True

/-- All that an action can make of a client. -/
inductive Moves : Action → Uuid → ClientInfo → ClientInfo → Prop
  | skip {action : Action} {uuid : Uuid} {info : ClientInfo} (skips : action.skips uuid info) :
    Moves action uuid info info
  | acceptFirst {uuid : Uuid} {info : ClientInfo} (registered : info.connectionPhase = .registered)
      (idle : info.connectionState = .idle) :
    Moves (.acceptFirst uuid) uuid info
      { info with connectionPhase := .accepted, connectionState := .connectingToPeers }
  | vote {ballot : Ballot} {uuid : Uuid} {strategy : Option SyncStrategy} {info : ClientInfo}
      (accepted : info.connectionPhase = .accepted) (admitted : info.connectionState ∈ ballot.admits) :
    Moves (.vote ballot uuid strategy) uuid info (info.enter ballot.cast)
  | query {uuid : Uuid} {info : ClientInfo} (accepted : info.connectionPhase = .accepted) :
    Moves (.query uuid) uuid info { info with voteQueryPendingPeers := true }
  | report {uuid : Uuid} {success : Bool} {info : ClientInfo}
      (connecting : info.connectionState = .connectingToPeers) :
    Moves (.report uuid success) uuid info
      (info.enter (if success then .waitingForOtherPeers else .connectingToPeersFailed))
  | initiate {uuid : Uuid} {tag : Tag} {info : ClientInfo}
      (accepted : info.connectionPhase = .accepted)
      (state : info.connectionState = .idle ∨ info.connectionState = .collectiveCommunicationsRunning)
      (fresh : tag ∉ info.collectiveComsStates) :
    Moves (.initiate uuid tag) uuid info
      ((info.setTag tag .voteInitiate).enter .collectiveCommunicationsRunning)
  | complete {uuid : Uuid} {tag : Tag} {info : ClientInfo}
      (accepted : info.connectionPhase = .accepted)
      (performs : info.collectiveComsStates.lookup tag = some .perform) :
    Moves (.complete uuid tag) uuid info (info.setTag tag .voteComplete)
  | startRound {acceptNewPeers : Bool} {uuid : Uuid} {info : ClientInfo}
      (joins : acceptNewPeers = true ∨ info.connectionPhase = .accepted)
      (voted : info.connectionPhase = .accepted →
        info.connectionState = (roundBallot acceptNewPeers).cast) :
    Moves (.startRound acceptNewPeers) uuid info (info.enter .connectingToPeers)
  | endRound {failure : Bool} {uuid : Uuid} {info : ClientInfo}
      (waits : info.connectionState = .waitingForOtherPeers) :
    Moves (.endRound failure) uuid info
      { info with
        connectionState := if failure then .connectingToPeersFailed else .idle
        connectionPhase := .accepted }
  | resetQuery {uuid : Uuid} {info : ClientInfo} (accepted : info.connectionPhase = .accepted) :
    Moves .resetQuery uuid info { info with voteQueryPendingPeers := false }
  | startOptimization {uuid : Uuid} {info : ClientInfo}
      (accepted : info.connectionPhase = .accepted)
      (voted : info.connectionState = .voteOptimizeTopology) :
    Moves .startOptimization uuid info (info.enter .optimizeTopology)
  | endOptimization {uuid : Uuid} {info : ClientInfo} (accepted : info.connectionPhase = .accepted)
      (voted : info.connectionState = .voteCompleteTopologyOptimization) :
    Moves .endOptimization uuid info (info.enter .idle)
  | startSync {group : Group} {status : Uuid → Option SharedStateMismatchStatus} {uuid : Uuid}
      {info : ClientInfo} {state : ConnectionState} (here : info.peerGroup = group)
      (voted : info.connectionState = .voteSyncSharedState)
      (target : state = .distributeSharedState ∨ state = .requestSharedState) :
    Moves (.startSync group status) uuid info (info.enter state)
  | endSync {group : Group} {uuid : Uuid} {info : ClientInfo} (part : info.takesPart group)
      (voted : info.connectionState = .voteCompleteSharedStateSync) :
    Moves (.endSync group) uuid info (info.enter .idle)
  | commence {group : Group} {tag : Tag} {uuid : Uuid} {info : ClientInfo}
      (part : info.takesPart group)
      (runs : info.connectionState = .collectiveCommunicationsRunning)
      (voted : info.collectiveComsStates.lookup tag = some .voteInitiate) :
    Moves (.commence group tag) uuid info (info.setTag tag .perform)
  | finish {group : Group} {tag : Tag} {uuid : Uuid} {info : ClientInfo}
      (part : info.takesPart group)
      (runs : info.connectionState = .collectiveCommunicationsRunning)
      (voted : info.collectiveComsStates.lookup tag = some .voteComplete) :
    Moves (.finish group tag) uuid info (info.eraseTag tag)

theorem Moves.keeps {action : Action} {uuid : Uuid} {info next : ClientInfo}
    (moves : action.Moves uuid info next) :
    next.clientUuid = info.clientUuid ∧ next.socketAddress = info.socketAddress ∧
      next.peerGroup = info.peerGroup := by
  cases moves <;> simp [ClientInfo.enter, ClientInfo.setTag, ClientInfo.eraseTag]

theorem plain_of_calm {action : Action} (calm : action.calm) : action.plain := by
  cases action <;> simp_all [Action.calm, Action.plain]

theorem Moves.takesPart {action : Action} {uuid : Uuid} {info next : ClientInfo}
    (moves : action.Moves uuid info next) (calm : action.calm) (group : Group) :
    next.takesPart group = info.takesPart group := by
  cases moves with
  | acceptFirst | vote | query | report | initiate | complete | startRound | endRound => cases calm
  | _ => rfl

end Action

namespace Core

variable {core : Core} {environment : Environment}

theorem Has.of_info {uuid : Uuid} {condition : ClientInfo → Prop} {info : ClientInfo}
    (has : core.Has uuid condition) (found : core.info uuid = some info) : condition info := by
  obtain ⟨other, present, holds⟩ := has
  rw [found] at present
  cases present
  exact holds

theorem advance_cases {source target : ConnectionState} {info : ClientInfo}
    (moved : (info.advance source target).isSome) :
    (info.connectionPhase = .registered ∧ (info.advance source target).getD info = info) ∨
      (info.connectionPhase = .accepted ∧ info.connectionState = source ∧
        (info.advance source target).getD info = info.enter target) := by
  unfold ClientInfo.advance at moved ⊢
  cases phase : info.connectionPhase with
  | registered => simp
  | accepted =>
    by_cases state : info.connectionState = source <;> simp_all

theorem moveTag_cases {group : Group} {tag : Tag} {expected : CollectiveCommunicationState}
    {move : ClientInfo → ClientInfo} {info : ClientInfo}
    (moved : (info.moveTag group tag expected move).isSome) :
    (¬ info.takesPart group ∧ (info.moveTag group tag expected move).getD info = info) ∨
      (info.takesPart group ∧ info.connectionState = .collectiveCommunicationsRunning ∧
        info.collectiveComsStates.lookup tag = some expected ∧
        (info.moveTag group tag expected move).getD info = move info) := by
  unfold ClientInfo.moveTag at moved ⊢
  by_cases part : info.takesPart group
  · rw [if_pos part] at moved ⊢
    split at moved
    · next runs => exact Or.inr ⟨part, runs.1, runs.2, by rw [if_pos runs]; rfl⟩
    · cases moved
  · rw [if_neg part]
    exact Or.inl ⟨part, rfl⟩

theorem moves {action : Action} {uuid : Uuid} {info : ClientInfo} (enabled : core.enabled action)
    (found : core.info uuid = some info) : action.Moves uuid info (action.change uuid info) := by
  -- An action of a single client moves that client or skips.
  have own (client : Uuid) (next : ClientInfo) (others : uuid ≠ client → action.skips uuid info)
      (here : uuid = client → action.Moves uuid info next) :
      action.Moves uuid info (if uuid = client then next else info) := by
    split
    · next same => exact here same
    · next different => exact .skip (others different)
  cases action with
  | acceptFirst client =>
    refine own client _ id ?_
    rintro rfl
    exact .acceptFirst (enabled.1.of_info found).1 (enabled.1.of_info found).2
  | vote ballot client strategy =>
    refine own client _ id ?_
    rintro rfl
    exact .vote (enabled.1.of_info found).1 (enabled.1.of_info found).2
  | query client =>
    refine own client _ id ?_
    rintro rfl
    exact .query (enabled.of_info found)
  | report client success =>
    refine own client _ id ?_
    rintro rfl
    exact .report (enabled.of_info found)
  | initiate client tag =>
    refine own client _ id ?_
    rintro rfl
    obtain ⟨accepted, state, fresh⟩ := enabled.of_info found
    exact .initiate accepted state fresh
  | complete client tag =>
    refine own client _ id ?_
    rintro rfl
    exact .complete (enabled.of_info found).1 (enabled.of_info found).2
  | startRound acceptNewPeers =>
    simp only [Action.change, Action.step, Option.getD_some]
    split
    · next joins => exact .startRound joins (enabled uuid info found)
    · next outside =>
      refine .skip ⟨by simpa using fun accept => outside (Or.inl accept), ?_⟩
      exact ConnectionPhase.registered_of_ne fun accepted => outside (Or.inr accepted)
  | endRound failure =>
    obtain ⟨next, moved⟩ := Option.isSome_iff_exists.mp (enabled.1 uuid info found)
    simp only [Action.change, Action.step, moved, Option.getD_some]
    obtain ⟨registered, idle, rfl⟩ | ⟨waits, rfl⟩ | ⟨failed, state, rfl⟩ :=
      ClientInfo.endRound_cases moved
    · exact .skip (Or.inl ⟨registered, idle⟩)
    · exact .endRound waits
    · exact .skip (Or.inr ⟨failed, state⟩)
  | resetQuery =>
    have moved := enabled uuid info found
    simp only [Action.change, Action.step] at moved ⊢
    by_cases phase : info.connectionPhase = .accepted
    · by_cases voted : info.voteQueryPendingPeers
      · rw [if_neg (not_not.mpr phase), if_pos voted]
        exact .resetQuery phase
      · simp [phase, voted] at moved
    · rw [if_pos phase]
      exact .skip (ConnectionPhase.registered_of_ne phase)
  | startOptimization =>
    have moved := enabled uuid info found
    simp only [Action.change, Action.step] at moved ⊢
    rcases advance_cases moved with ⟨phase, same⟩ | ⟨phase, state, next⟩
    · rw [same]
      exact .skip phase
    · rw [next]
      exact .startOptimization phase state
  | endOptimization =>
    have moved := enabled uuid info found
    simp only [Action.change, Action.step] at moved ⊢
    rcases advance_cases moved with ⟨phase, same⟩ | ⟨phase, state, next⟩
    · rw [same]
      exact .skip phase
    · rw [next]
      exact .endOptimization phase state
  | startSync group status =>
    have moved := enabled uuid info found
    simp only [Action.change, Action.step, ClientInfo.enterSync] at moved ⊢
    by_cases here : info.peerGroup = group
    · by_cases voted : info.connectionState = .voteSyncSharedState
      · simp only [here, voted, ne_eq, not_true_eq_false, if_false, if_true] at moved ⊢
        split at moved
        · cases moved
        · cases moved
        · exact .startSync here voted (Or.inl rfl)
        · exact .startSync here voted (Or.inr rfl)
      · cases phase : info.connectionPhase with
        | accepted => simp [here, voted, phase] at moved
        | registered =>
          simp only [here, voted, ne_eq, not_true_eq_false, reduceCtorEq, if_false, Option.getD_some]
          exact .skip (Or.inr ⟨phase, voted⟩)
    · simp only [here, ne_eq, not_false_eq_true, if_true, Option.getD_some]
      exact .skip (Or.inl here)
  | endSync group =>
    have moved := enabled uuid info found
    simp only [Action.change, Action.step] at moved ⊢
    by_cases part : info.takesPart group
    · rw [if_pos part] at moved ⊢
      rcases advance_cases moved with ⟨phase, _⟩ | ⟨_, state, next⟩
      · simp [ClientInfo.takesPart, phase] at part
      · rw [next]
        exact .endSync part state
    · rw [if_neg part]
      exact .skip part
  | commence group tag =>
    have moved := enabled.2 uuid info found
    simp only [Action.change, Action.step] at moved ⊢
    rcases moveTag_cases moved with ⟨part, same⟩ | ⟨part, runs, voted, next⟩
    · rw [same]
      exact .skip part
    · rw [next]
      exact .commence part runs voted
  | finish group tag =>
    have moved := enabled uuid info found
    simp only [Action.change, Action.step] at moved ⊢
    rcases moveTag_cases moved with ⟨part, same⟩ | ⟨part, runs, voted, next⟩
    · rw [same]
      exact .skip part
    · rw [next]
      exact .finish part runs voted
  | refuse | register | leave | drop | abort => exact .skip trivial

@[simp] theorem info_changeInfos (change : Uuid → ClientInfo → ClientInfo) (uuid : Uuid) :
    (core.changeInfos change).info uuid = (core.info uuid).map (change uuid) :=
  Table.lookup_mapKeyed change core.clients.clientInfo uuid

@[simp] theorem info_move (action : Action) (uuid : Uuid) :
    (core.move action).info uuid = (core.info uuid).map (action.change uuid) :=
  info_changeInfos action.change uuid

@[simp] theorem info_notify (meant : ClientInfo → Bool) (tag : Tag) (signal : Signal) (uuid : Uuid) :
    (core.notify meant tag signal).info uuid = core.info uuid := rfl

@[simp] theorem info_announce (meant : ClientInfo → Bool) (signal : RoundSignal) (uuid : Uuid) :
    (core.announce meant signal).info uuid = core.info uuid := rfl

@[simp] theorem info_inform (uuid : Uuid) : core.inform.info uuid = core.info uuid := rfl

@[simp] theorem info_setAbort (group : Group) (tag : Tag) (aborted : Bool) (uuid : Uuid) :
    (core.setAbort group tag aborted).info uuid = core.info uuid := rfl

theorem changeInfos_id (core : Core) : core.changeInfos (fun _ info => info) = core := by
  simp only [changeInfos, Table.mapKeyed_id]

theorem clients_apply (action : Action) (plain : action.plain) :
    (core.apply environment action).clients = (core.changeInfos action.change).clients := by
  have kept : core.clients = (core.changeInfos fun _ info => info).clients := by
    rw [changeInfos_id]
  cases action with
  | register | leave => cases plain
  | refuse | abort =>
    simp only [apply]
    split <;> exact kept
  | drop => exact kept
  | finish =>
    simp only [apply]
    split <;> rfl
  | _ => rfl

theorem info_apply (action : Action) (plain : action.plain) (uuid : Uuid) :
    (core.apply environment action).info uuid = (core.info uuid).map (action.change uuid) := by
  rw [info, clients_apply action plain]
  exact info_changeInfos action.change uuid

theorem exists_before {action : Action} (plain : action.plain) {uuid : Uuid} {info : ClientInfo}
    (found : (core.apply environment action).info uuid = some info) :
    ∃ before, core.info uuid = some before ∧ action.change uuid before = info := by
  rw [info_apply action plain] at found
  exact Option.map_eq_some_iff.mp found

theorem moved {action : Action} (plain : action.plain) (enabled : core.enabled action) {uuid : Uuid}
    {info : ClientInfo} (found : (core.apply environment action).info uuid = some info) :
    ∃ before, core.info uuid = some before ∧ action.Moves uuid before info := by
  obtain ⟨before, present, rfl⟩ := exists_before plain found
  exact ⟨before, present, moves enabled present⟩

theorem moves_on {action : Action} (plain : action.plain) (enabled : core.enabled action)
    {uuid : Uuid} {info : ClientInfo} (found : core.info uuid = some info) :
    ∃ next, (core.apply environment action).info uuid = some next ∧ action.Moves uuid info next :=
  ⟨_, by rw [info_apply action plain, found]; rfl, moves enabled found⟩

theorem takesPart_apply {action : Action} (calm : action.calm) (enabled : core.enabled action)
    {group : Group} {uuid : Uuid} (member : core.Has uuid fun info => info.takesPart group) :
    (core.apply environment action).Has uuid fun info => info.takesPart group := by
  obtain ⟨info, found, part⟩ := member
  obtain ⟨after, present, moves⟩ := @moves_on _ environment _ (Action.plain_of_calm calm) enabled _ _ found
  exact ⟨after, present, (moves.takesPart calm group).trans part⟩

theorem quiet_apply (action : Action) (uuid : Uuid) (absent : core.info uuid = none) :
    (∀ tag, (core.apply environment action).log uuid tag = core.log uuid tag) ∧
      (core.apply environment action).rounds uuid = core.rounds uuid := by
  cases action with
  | refuse =>
    simp only [apply]
    split
    · refine ⟨fun _ => rfl, if_neg ?_⟩
      change ¬ Option.any _ (core.info uuid) = true
      simp [absent]
    · exact ⟨fun _ => rfl, rfl⟩
  | acceptFirst | startRound | endRound =>
    refine ⟨fun _ => rfl, if_neg ?_⟩
    change ¬ Option.any _ ((core.move _).info uuid) = true
    simp [absent]
  | commence =>
    refine ⟨fun tag => if_neg ?_, rfl⟩
    simp [absent]
  | abort =>
    simp only [apply]
    split
    · exact ⟨fun _ => rfl, rfl⟩
    · exact ⟨fun tag => if_neg (by simp [absent]), rfl⟩
  | finish =>
    simp only [apply]
    split
    · exact ⟨fun tag => if_neg (by simp [absent]), rfl⟩
    · refine ⟨fun tag => (if_neg (by simp [absent])).trans ?_, rfl⟩
      exact if_neg (by simp [absent])
  | _ => exact ⟨fun _ => rfl, rfl⟩

theorem generated_apply (action : Action) (plain : action.plain) :
    core.generated ≤ (core.apply environment action).generated := by
  cases action with
  | register | leave => cases plain
  | refuse => simp only [apply]; split <;> exact Nat.le_succ _
  | abort | finish => simp only [apply]; split <;> exact le_refl _
  | _ => exact le_refl _

/-- The three maps of the clients agree, and every uuid that is or was in use has been generated. -/
structure Registry (environment : Environment) (core : Core) : Prop where
  inverse : ∀ address uuid, core.clients.clientUuids.lookup address = some uuid ↔
    core.clients.uuidClients.lookup uuid = some address
  known : ∀ uuid address, core.clients.uuidClients.lookup uuid = some address ↔
    ∃ info, core.info uuid = some info ∧ info.socketAddress = address
  named : ∀ uuid info, core.info uuid = some info → info.clientUuid = uuid
  sized : core.clients.clientUuids.size = core.clients.clientInfo.size
  issued : ∀ uuid, (core.info uuid ≠ none ∨ (∃ tag, core.log uuid tag ≠ []) ∨ core.rounds uuid ≠ []) →
    ∃ index, index < core.generated ∧ environment.generateUuid index = uuid

theorem Registry.initial : Registry environment Core.initial where
  inverse _ _ := by simp [Core.initial, MasterState.core, MasterState.initial]
  known _ _ := by simp [Core.initial, MasterState.core, MasterState.initial, Core.info]
  named _ _ := by simp [Core.initial, MasterState.core, MasterState.initial, Core.info]
  sized := rfl
  issued _ used := by
    simp [Core.initial, MasterState.core, MasterState.initial, Core.info, signals, roundSignals] at used

namespace Registry

variable (registry : Registry environment core)
include registry

theorem clientInfo_iff (uuid : Uuid) :
    core.info uuid ≠ none ↔ ∃ address, core.clients.uuidClients.lookup uuid = some address := by
  constructor
  · intro present
    obtain ⟨info, found⟩ := Option.ne_none_iff_exists'.mp present
    exact ⟨_, (registry.known uuid _).mpr ⟨info, found, rfl⟩⟩
  · rintro ⟨address, found⟩
    obtain ⟨info, found, _⟩ := (registry.known uuid address).mp found
    simp [found]

theorem unused : core.info (environment.generateUuid core.generated) = none ∧
    (∀ tag, core.log (environment.generateUuid core.generated) tag = []) ∧
    core.rounds (environment.generateUuid core.generated) = [] := by
  have fresh (used : core.info (environment.generateUuid core.generated) ≠ none ∨
      (∃ tag, core.log (environment.generateUuid core.generated) tag ≠ []) ∨
        core.rounds (environment.generateUuid core.generated) ≠ []) : False := by
    obtain ⟨index, bound, same⟩ := registry.issued _ used
    have := environment.distinct same
    omega
  refine ⟨?_, fun tag => ?_, ?_⟩
  · by_contra present
    exact fresh (Or.inl present)
  · by_contra present
    exact fresh (Or.inr (Or.inl ⟨tag, present⟩))
  · by_contra present
    exact fresh (Or.inr (Or.inr present))

theorem changed {change : Uuid → ClientInfo → ClientInfo}
    (keeps : ∀ uuid info, core.info uuid = some info →
      (change uuid info).clientUuid = info.clientUuid ∧
        (change uuid info).socketAddress = info.socketAddress)
    {next : Core} (clients : next.clients = (core.changeInfos change).clients)
    (quiet : ∀ uuid, core.info uuid = none →
      (∀ tag, next.log uuid tag = core.log uuid tag) ∧ next.rounds uuid = core.rounds uuid)
    (generated : core.generated ≤ next.generated) : Registry environment next := by
  have infoOf (uuid : Uuid) : next.info uuid = (core.info uuid).map (change uuid) := by
    rw [Core.info, clients]
    exact info_changeInfos change uuid
  refine ⟨?_, fun uuid address => ?_, fun uuid info found => ?_, ?_, fun uuid used => ?_⟩
  · rw [clients]
    exact registry.inverse
  · rw [infoOf, clients]
    refine (registry.known uuid address).trans ?_
    cases found : core.info uuid with
    | none => simp
    | some info => simp [(keeps uuid info found).2]
  · rw [infoOf] at found
    obtain ⟨before, present, rfl⟩ := Option.map_eq_some_iff.mp found
    rw [(keeps uuid before present).1]
    exact registry.named uuid before present
  · rw [clients]
    simpa [changeInfos] using registry.sized
  · rw [infoOf] at used
    obtain ⟨index, bound, same⟩ := registry.issued uuid (by
      by_cases absent : core.info uuid = none
      · simpa [absent, quiet uuid absent] using used
      · exact Or.inl absent)
    exact ⟨index, lt_of_lt_of_le bound generated, same⟩

theorem apply_plain (action : Action) (plain : action.plain) (enabled : core.enabled action) :
    Registry environment (core.apply environment action) := by
  refine registry.changed (fun uuid info found => ?_) (clients_apply action plain)
    (fun uuid absent => quiet_apply action uuid absent) (generated_apply action plain)
  have kept := (moves enabled found).keeps
  exact ⟨kept.1, kept.2.1⟩

theorem address_of (uuid : Uuid) (info : ClientInfo) (found : core.info uuid = some info) :
    core.clients.clientUuids.lookup info.socketAddress = some uuid :=
  (registry.inverse _ uuid).mpr ((registry.known uuid _).mpr ⟨info, found, rfl⟩)

theorem info_of (address : SocketAddress) (uuid : Uuid)
    (found : core.clients.clientUuids.lookup address = some uuid) :
    ∃ info, core.info uuid = some info ∧ info.socketAddress = address :=
  (registry.known uuid address).mp ((registry.inverse address uuid).mp found)

theorem register (address : SocketAddress) (ports : ClientVariablePorts) (group : Group)
    (free : address ∉ core.clients.clientUuids) :
    Registry environment (core.register environment address ports group) := by
  have unused := registry.unused
  have freeAddress : core.clients.clientUuids.lookup address = none := AList.lookup_eq_none.mpr free
  have freeUuid : core.clients.uuidClients.lookup (environment.generateUuid core.generated) = none := by
    by_contra taken
    exact (registry.clientInfo_iff _).mpr (Option.ne_none_iff_exists'.mp taken) unused.1
  have infoOf (uuid : Uuid) : (core.register environment address ports group).info uuid =
      if uuid = environment.generateUuid core.generated then
        some ⟨environment.generateUuid core.generated, .registered, .idle, false, ∅, address, ports,
          group⟩
      else core.info uuid :=
    Table.lookup_insert_iff _ _ _ _
  constructor
  case inverse =>
    intro other uuid
    simp only [Core.register, Table.lookup_insert_iff]
    by_cases sameAddress : other = address <;>
      by_cases sameUuid : uuid = environment.generateUuid core.generated
    · simp [sameAddress, sameUuid]
    · have absent : core.clients.uuidClients.lookup uuid ≠ some address := by
        rw [Ne, ← registry.inverse, freeAddress]
        simp
      simp [sameAddress, sameUuid, absent, Ne.symm sameUuid]
    · have absent : core.clients.clientUuids.lookup other ≠
          some (environment.generateUuid core.generated) := by
        rw [Ne, registry.inverse, freeUuid]
        simp
      simp [sameAddress, sameUuid, absent, Ne.symm sameAddress]
    · simp [sameAddress, sameUuid, registry.inverse other uuid]
  case known =>
    intro uuid other
    rw [infoOf]
    simp only [Core.register, Table.lookup_insert_iff]
    by_cases sameUuid : uuid = environment.generateUuid core.generated
    · simp [sameUuid]
    · simp [sameUuid, registry.known uuid other]
  case named =>
    intro uuid info found
    rw [infoOf] at found
    by_cases sameUuid : uuid = environment.generateUuid core.generated
    · rw [if_pos sameUuid] at found
      cases found
      exact sameUuid.symm
    · rw [if_neg sameUuid] at found
      exact registry.named uuid info found
  case sized =>
    have freeInfo : environment.generateUuid core.generated ∉ core.clients.clientInfo :=
      AList.lookup_eq_none.mp unused.1
    simp only [Core.register, Table.size_insert _ _ _ free, Table.size_insert _ _ _ freeInfo,
      registry.sized]
  case issued =>
    intro uuid used
    rw [infoOf] at used
    by_cases sameUuid : uuid = environment.generateUuid core.generated
    · exact ⟨core.generated, Nat.lt_succ_self _, sameUuid.symm⟩
    · rw [if_neg sameUuid] at used
      obtain ⟨index, bound, same⟩ := registry.issued uuid used
      exact ⟨index, Nat.lt_succ_of_lt bound, same⟩

theorem leave (address : SocketAddress) (uuid : Uuid)
    (found : core.clients.clientUuids.lookup address = some uuid) :
    Registry environment (core.leave address uuid) := by
  obtain ⟨info, present, here⟩ := registry.info_of address uuid found
  have infoOf (other : Uuid) : (core.leave address uuid).info other =
      if other = uuid then none else core.info other :=
    Table.lookup_erase_iff _ _ _
  constructor
  case inverse =>
    intro other client
    simp only [Core.leave, Table.lookup_erase_iff]
    by_cases sameAddress : other = address <;> by_cases sameUuid : client = uuid
    · simp [sameAddress, sameUuid]
    · have absent : core.clients.uuidClients.lookup client ≠ some address := by
        rw [Ne, ← registry.inverse, found]
        simpa using Ne.symm sameUuid
      simp [sameAddress, sameUuid, absent]
    · have absent : core.clients.clientUuids.lookup other ≠ some uuid := by
        rw [Ne, registry.inverse, (registry.inverse address uuid).mp found]
        simpa using Ne.symm sameAddress
      simp [sameAddress, sameUuid, absent]
    · simp [sameAddress, sameUuid, registry.inverse other client]
  case known =>
    intro client other
    rw [infoOf]
    simp only [Core.leave, Table.lookup_erase_iff]
    by_cases sameUuid : client = uuid
    · simp [sameUuid]
    · simp [sameUuid, registry.known client other]
  case named =>
    intro client other present
    rw [infoOf] at present
    split at present
    · cases present
    · exact registry.named client other present
  case sized =>
    have first := Table.size_erase core.clients.clientUuids address
      (AList.lookup_isSome.mp (by simp [found]))
    have second := Table.size_erase core.clients.clientInfo uuid
      (AList.lookup_isSome.mp (by rw [← Core.info, present]; rfl))
    have same := registry.sized
    simp only [Core.leave]
    omega
  case issued =>
    intro client used
    rw [infoOf] at used
    refine registry.issued client (used.imp_left fun present => ?_)
    split at present
    · exact absurd rfl present
    · exact present

theorem apply (action : Action) (enabled : core.enabled action) :
    Registry environment (core.apply environment action) := by
  cases action with
  | register address ports group => exact registry.register address ports group enabled
  | leave address uuid => exact registry.leave address uuid enabled
  | _ => exact registry.apply_plain _ rfl enabled

theorem eq_of_acceptFirst {uuid other : Uuid} {info : ClientInfo}
    (enabled : core.enabled (.acceptFirst uuid)) (found : core.info other = some info) :
    other = uuid := by
  rw [← registry.named other info found]
  exact enabled.2 other info found

theorem midway {action : Action} (plain : action.plain) (enabled : core.enabled action) {next : Core}
    (clients : next.clients = (core.apply environment action).clients)
    (quiet : ∀ uuid, core.info uuid = none →
      (∀ tag, next.log uuid tag = core.log uuid tag) ∧ next.rounds uuid = core.rounds uuid)
    (generated : next.generated = core.generated) : Registry environment next := by
  refine registry.changed (fun uuid info found => ?_) (clients.trans (clients_apply action plain))
    quiet (le_of_eq generated.symm)
  have kept := (moves enabled found).keeps
  exact ⟨kept.1, kept.2.1⟩

end Registry

theorem info_register (registry : Registry environment core) (address : SocketAddress)
    (ports : ClientVariablePorts) (group : Group) (uuid : Uuid) (info : ClientInfo) :
    (core.register environment address ports group).info uuid = some info ↔
      (uuid = environment.generateUuid core.generated ∧
          info = ⟨uuid, .registered, .idle, false, ∅, address, ports, group⟩) ∨
        core.info uuid = some info := by
  have lookup : (core.register environment address ports group).info uuid =
      if uuid = environment.generateUuid core.generated then
        some ⟨environment.generateUuid core.generated, .registered, .idle, false, ∅, address, ports,
          group⟩
      else core.info uuid :=
    Table.lookup_insert_iff _ _ _ _
  rw [lookup]
  split
  · next same =>
    rw [same, registry.unused.1]
    simp [eq_comm]
  · next different => simp [different]

theorem info_leave (address : SocketAddress) (uuid other : Uuid) (info : ClientInfo) :
    (core.leave address uuid).info other = some info ↔ other ≠ uuid ∧ core.info other = some info := by
  have lookup : (core.leave address uuid).info other = if other = uuid then none else core.info other :=
    Table.lookup_erase_iff _ _ _
  rw [lookup]
  split <;> simp_all

end Core

end Pccl.Master
