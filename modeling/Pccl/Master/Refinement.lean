import Pccl.Master.Transitions

set_option autoImplicit false

namespace Pccl.Master

open Packet Program

section

variable (environment : Environment)

/-- The process ends over something that is not a matter of the protocol, somewhere on the way. -/
def Fatal (core : Core) (exit : Exit) : Prop :=
  exit.bug.ofProtocol = false ∧
    ∃ reached, core.Answers environment reached ∧ exit.master.core.log = reached.log

variable {environment}

theorem Fatal.here {core : Core} {exit : Exit} (other : exit.bug.ofProtocol = false)
    (log : exit.master.core.log = core.log) : Fatal environment core exit :=
  ⟨other, core, .refl core, log⟩

theorem Fatal.after {core middle : Core} {exit : Exit} (answers : core.Answers environment middle)
    (fatal : Fatal environment middle exit) : Fatal environment core exit := by
  obtain ⟨other, reached, further, log⟩ := fatal
  exact ⟨other, reached, answers.trans further, log⟩

theorem Unseen.fatal {core : Core} {exit : Exit} (unseen : Unseen core exit)
    (registry : core.Registry environment) : Fatal environment core exit :=
  .here (unseen.2 registry.accounted) (congrArg Core.log unseen.1)

theorem Keeps.meets {A : Type} {core : Core} {program : MasterM A} (keeps : Keeps core program)
    {master : MasterState} (at_ : master.core = core) (registry : core.Registry environment) :
    program.Meets master (fun _ next => next.core = core) (Fatal environment core) :=
  (keeps master at_).imp (fun _ _ same => same) fun _ unseen => unseen.fatal registry

theorem Keeps.answered {A : Type} {core : Core} {program : MasterM A} {master : MasterState}
    (keeps : Keeps master.core program) {action : Action} (answers : action.answers)
    (enabled : core.enabled action) (applied : master.core = core.apply environment action)
    (registry : core.Registry environment) :
    program.Meets master (fun _ next => next.core = core.apply environment action)
      (Fatal environment core) := by
  refine (keeps master rfl).imp (fun _ _ same => same.trans applied) fun _ unseen => ?_
  exact (unseen.fatal (applied ▸ registry.apply action enabled)).after (applied ▸ .single answers enabled)

end

section Transitions

variable {master : MasterState}

theorem updateAll_cases (master : MasterState) (step : ClientInfo → Option ClientInfo) :
    (master.clients.clientInfo.updateAll step = none ∧
        ¬ master.core.All fun info => (step info).isSome) ∨
      (master.clients.clientInfo.updateAll step =
          some (master.clients.clientInfo.mapValues fun info => (step info).getD info) ∧
        master.core.All fun info => (step info).isSome) := by
  cases updated : master.clients.clientInfo.updateAll step with
  | none =>
    refine Or.inl ⟨rfl, fun all => ?_⟩
    exact absurd (updated.symm.trans (Table.updateAll_eq_some.mpr ⟨all, rfl⟩)) (by simp)
  | some next =>
    obtain ⟨all, rfl⟩ := Table.updateAll_eq_some.mp updated
    exact Or.inr ⟨rfl, all⟩

def Transits (action : Action) (core : Core) (ok : Bool) (next : Core) : Prop :=
  (ok = true ∧ (core.All fun info => (action.step info).isSome) ∧ next = core.move action) ∨
    (ok = false ∧ ¬ (core.All fun info => (action.step info).isSome) ∧ next = core)

theorem Transits.of_enabled {action : Action} {core next : Core} {ok : Bool}
    (transits : Transits action core ok next)
    (all : core.All fun info => (action.step info).isSome) : ok = true ∧ next = core.move action := by
  rcases transits with ⟨done, _, moved⟩ | ⟨_, stuck, _⟩
  · exact ⟨done, moved⟩
  · exact absurd all stuck

variable {fail : Exit → Prop}

theorem meets_transition (action : Action) (place : Table Uuid ClientInfo → MasterState)
    (placed : (place (master.clients.clientInfo.mapValues fun info =>
      (action.step info).getD info)).core = master.core.move action) :
    Meets (match master.clients.clientInfo.updateAll action.step with
      | none => pure false
      | some clientInfo => do
        set (place clientInfo)
        return true : MasterM Bool) master
      (fun ok next => Transits action master.core ok next.core) fail := by
  rcases updateAll_cases master action.step with ⟨none, out⟩ | ⟨some, all⟩
  · rw [none]
    exact Or.inr ⟨rfl, out, rfl⟩
  · rw [some]
    exact Or.inl ⟨rfl, all, placed⟩

theorem transitionToTopologyOptimizationPhase_meets :
    transitionToTopologyOptimizationPhase.Meets master
      (fun ok next => Transits .startOptimization master.core ok next.core) fail :=
  meets_transition .startOptimization _ rfl

theorem endTopologyOptimizationPhase_meets :
    (endTopologyOptimizationPhase false).Meets master
      (fun ok next => Transits .endOptimization master.core ok next.core) fail :=
  meets_transition .endOptimization _ rfl

theorem endSharedStateSyncPhase_meets (group : Group) :
    (endSharedStateSyncPhase group).Meets master
      (fun ok next => Transits (.endSync group) master.core ok next.core) fail :=
  meets_transition (.endSync group) _ rfl

theorem transitionToSharedStateSyncPhase_meets (group : Group) :
    (transitionToSharedStateSyncPhase group).Meets master
      (fun ok next =>
        Transits (.startSync group master.getSharedStateMismatchStatus) master.core ok next.core) fail :=
  meets_transition (.startSync group master.getSharedStateMismatchStatus) _ rfl

theorem transitionToPerformCollectiveCommsPhase_meets (group : Group) (tag : Tag) :
    (transitionToPerformCollectiveCommsPhase group tag).Meets master
      (fun ok next => Transits (.commence group tag) master.core ok next.core) fail :=
  meets_transition (.commence group tag) _ rfl

theorem transitionToCollectiveCommsCompletePhase_meets {group : Group} {tag : Tag}
    (all : master.core.All fun info => ((Action.finish group tag).step info).isSome) :
    (transitionToCollectiveCommsCompletePhase group tag).Meets master
      (fun ok next => ok = true ∧
        next.core = (master.core.move (.finish group tag)).setAbort group tag false) fail := by
  refine .read ?_
  rcases updateAll_cases master (Action.finish group tag).step with ⟨_, out⟩ | ⟨some, _⟩
  · exact absurd all out
  · simp only [Action.step] at some
    rw [some]
    exact ⟨rfl, rfl⟩

theorem resetVoteQueryPendingPeers_meets
    (all : master.core.All fun info => (Action.resetQuery.step info).isSome) :
    resetVoteQueryPendingPeers.Meets master
      (fun _ next => next.core = master.core.move .resetQuery) fail := by
  refine .read ?_
  rcases updateAll_cases master Action.resetQuery.step with ⟨_, out⟩ | ⟨some, _⟩
  · exact absurd all out
  · simp only [Action.step] at some
    rw [some]
    exact (rfl : _ = _)

theorem registerAccepted_keeps {core : Core} (accepted : List ClientInfo) :
    Keeps core (registerAccepted accepted) :=
  .forEach Keeps.onPeerAccepted

theorem transitionToP2PConnectionsEstablishedPhase_meets {environment : Environment}
    (registry : master.core.Registry environment) (failure : Bool) :
    (transitionToP2PConnectionsEstablishedPhase failure).Meets master
      (fun ok next => Transits (.endRound failure) master.core ok next.core)
      (Fatal environment master.core) := by
  refine .read ?_
  rcases updateAll_cases master (Action.endRound failure).step with ⟨none, out⟩ | ⟨some, all⟩
  · simp only [Action.step] at none
    rw [none]
    exact Or.inr ⟨rfl, out, rfl⟩
  · simp only [Action.step] at some
    rw [some]
    refine .write ((meets_bind _ _).mpr ?_)
    refine (registerAccepted_keeps _ _ rfl).imp ?_ fun exit unseen => ?_
    · exact fun _ next same => Or.inl ⟨rfl, all, same⟩
    · refine .here (unseen.2 ?_) (by rw [unseen.1]; rfl)
      exact @Core.Accounted.changed _ _ registry.accounted
        (fun _ info => (info.endRound failure).getD info) rfl

end Transitions

section Rounds

variable {environment : Environment} {master : MasterState} {fail : Exit → Prop}

theorem anyClient_meets (registry : Core.Registry environment master.core)
    (condition : ClientInfo → Bool) :
    (anyClient condition).Meets master
      (fun found next => master = next ∧
        (found = true ↔ ∃ uuid, master.core.Has uuid fun info => condition info)) fail := by
  -- The scan stops at the first client of the list that satisfies the condition.
  have scan (entries : List (Uuid × SocketAddress))
      (known : ∀ uuid ∈ entries.map Prod.fst, ∃ info, master.core.info uuid = some info) :
      (anyClient.scan condition master entries).Meets master
        (fun found next => master = next ∧
          (found = true ↔ ∃ uuid ∈ entries.map Prod.fst, master.core.Has uuid fun info =>
            condition info)) fail := by
    induction entries with
    | nil => exact ⟨rfl, by simp⟩
    | cons entry entries ih =>
      obtain ⟨info, found⟩ := known entry.1 (by simp)
      have lookup : master.getClientInfo entry.1 = some info := found
      have here : (master.core.Has entry.1 fun info => condition info) ↔ condition info :=
        ⟨fun has => has.of_info found, fun holds => ⟨info, found, holds⟩⟩
      unfold anyClient.scan
      rw [lookup]
      dsimp only
      by_cases holds : condition info
      · rw [if_pos holds]
        exact ⟨rfl, by simp [here, holds]⟩
      · rw [if_neg holds]
        refine (ih fun uuid present => known uuid (List.mem_cons_of_mem _ present)).imp ?_
          fun _ exit => exit
        rintro found next ⟨same, iff⟩
        exact ⟨same, by simp [iff, here, holds]⟩
  have all (uuid : Uuid) (present : uuid ∈ master.getClientEntrySet.map Prod.fst) :=
    (mem_getClientEntrySet registry uuid).mp present
  refine .read ((scan _ all).imp ?_ fun _ exit => exit)
  rintro found next ⟨same, iff⟩
  refine ⟨same, iff.trans ⟨fun ⟨uuid, _, has⟩ => ⟨uuid, has⟩, fun ⟨uuid, has⟩ => ?_⟩⟩
  obtain ⟨info, found, _⟩ := id has
  exact ⟨uuid, (mem_getClientEntrySet registry uuid).mpr ⟨info, found⟩, has⟩

namespace Core

variable (environment)

def Starts (acceptNewPeers : Bool) (core next : Core) : Prop :=
  (core.enabled (.startRound acceptNewPeers) ∧
      next = core.apply environment (.startRound acceptNewPeers)) ∨
    (¬ core.enabled (.startRound acceptNewPeers) ∧ next = core)

def Establishes (core next : Core) : Prop :=
  ∃ middle, core.Starts environment true middle ∧ middle.Starts environment false next

def Closable (core : Core) : Prop :=
  (∃ uuid, core.Has uuid fun info =>
      info.connectionState = .waitingForOtherPeers ∨
        info.connectionState = .connectingToPeersFailed) ∧
    core.All fun info => info.connectionState ≠ .connectingToPeers

def Closes (core next : Core) : Prop :=
  (core.Closable ∧ core.enabled (.endRound core.fails) ∧
      next = core.apply environment (.endRound core.fails)) ∨
    (¬ core.Closable ∧ next = core)

def Jammed (core : Core) : Prop := core.Closable ∧ ¬ core.enabled (.endRound core.fails)

variable {environment} {core next : Core}

theorem Starts.answers {acceptNewPeers : Bool} (starts : core.Starts environment acceptNewPeers next) :
    core.Answers environment next := by
  rcases starts with ⟨enabled, rfl⟩ | ⟨_, rfl⟩
  · exact .single rfl enabled
  · exact .refl _

theorem Establishes.answers (establishes : core.Establishes environment next) :
    core.Answers environment next := by
  obtain ⟨middle, first, second⟩ := establishes
  exact first.answers.trans second.answers

theorem Closes.answers (closes : core.Closes environment next) : core.Answers environment next := by
  rcases closes with ⟨_, enabled, rfl⟩ | ⟨_, rfl⟩
  · exact .single rfl enabled
  · exact .refl _

end Core

theorem sendP2PConnectionInformationTo_meets (info : ClientInfo) (includeRegistered : Bool) :
    (sendP2PConnectionInformationTo info includeRegistered).Meets master
      (fun _ next => next.core = master.core.tellRound info.clientUuid .info) (Unseen master.core) := by
  refine .read (Meets.bind
    (Keeps.getPeersForClient info includeRegistered master rfl) fun peers middle at_ => ?_)
  refine .change ?_
  refine (sendPacket_tellsRound rfl (fun _ _ => rfl) _ _).imp ?_ fun _ exit => exit
  intro _ next told
  rw [told, ← at_]
  rfl

theorem sendP2PConnectionInformation_meets (registry : Core.Registry environment master.core)
    (includeRegistered : Bool) :
    (sendP2PConnectionInformation includeRegistered).Meets master
      (fun _ next => next.core = master.core.inform)
      (fun exit => exit.bug.ofProtocol = false ∧ exit.master.core.log = master.core.log) := by
  have accounted {middle : MasterState} (clients : middle.clients = master.clients) :
      middle.core.Accounted := registry.accounted.changed
    (clients.trans (congrArg Core.clients (Core.changeInfos_id master.core).symm))
  refine forEachClient_announce registry fun uuid address info middle found clients log _ => ?_
  have named : info.clientUuid = uuid := registry.named uuid info found
  by_cases connecting : info.connectionState = .connectingToPeers
  · simp only [when, connecting, if_true, decide_true]
    refine (sendP2PConnectionInformationTo_meets info includeRegistered).imp ?_ fun exit unseen => ?_
    · intro _ next told
      rw [told, named]
    · exact ⟨unseen.2 (accounted clients), (congrArg Core.log unseen.1).trans log⟩
  · simp [when, connecting]

theorem startEstablishment_meets (registry : Core.Registry environment master.core)
    {acceptNewPeers : Bool} (enabled : master.core.enabled (.startRound acceptNewPeers)) :
    (startEstablishment acceptNewPeers).Meets master
      (fun _ next => next.core = master.core.apply environment (.startRound acceptNewPeers))
      (Fatal environment master.core) := by
  refine .change (.change ?_)
  have moved : Core.Registry environment
      { master.core.move (.startRound acceptNewPeers) with peerDropped := false } :=
    registry.midway rfl enabled rfl (fun _ _ => ⟨fun _ => rfl, rfl⟩) rfl
  refine (sendP2PConnectionInformation_meets moved _).imp ?_ fun exit failed => ?_
  · exact fun _ _ informed => informed
  · exact ⟨failed.1, _, .single rfl enabled, failed.2⟩

theorem checkEstablishP2PConnectionConsensus_meets (valid : master.core.Valid environment) :
    checkEstablishP2PConnectionConsensus.Meets master
      (fun _ next => master.core.Establishes environment next.core) (Fatal environment master.core) := by
  -- One of the two checks.
  have starts (acceptNewPeers : Bool) (middle : MasterState) (valid : middle.core.Valid environment) :
      (when (middle.ballotConsensus (roundBallot acceptNewPeers))
        (startEstablishment acceptNewPeers)).Meets middle
        (fun _ next => middle.core.Starts environment acceptNewPeers next.core)
        (Fatal environment middle.core) := by
    have unanimous := middle.ballotConsensus_iff valid.registry (roundBallot acceptNewPeers)
    refine (meets_when _ _).mpr ⟨fun consensus => ?_, fun open_ => Or.inr ⟨?_, rfl⟩⟩
    · have enabled : middle.core.enabled (.startRound acceptNewPeers) := unanimous.mp consensus
      exact (startEstablishment_meets valid.registry enabled).imp
        (fun _ _ started => Or.inl ⟨enabled, started⟩) fun _ exit => exit
    · exact fun enabled => open_ (unanimous.mpr enabled)
  refine .read (Meets.bind (starts true master valid) ?_)
  intro _ middle first
  refine .read ?_
  refine (starts false middle (first.answers.valid valid)).imp ?_ fun _ => Fatal.after first.answers
  exact fun _ _ second => ⟨_, first, second⟩

theorem sendP2PConnectionsEstablished_meets (registry : Core.Registry environment master.core)
    (anyFailed : Bool) :
    (sendP2PConnectionsEstablished anyFailed).Meets master
      (fun _ next => next.core = master.core.announce (fun info => !info.waitsOutside)
        (.established !(anyFailed || master.peerDropped)))
      (fun exit => exit.bug.ofProtocol = false ∧
        exit.master.core.log = master.core.log) := by
  have accounted {middle : MasterState} (clients : middle.clients = master.clients) :
      middle.core.Accounted := registry.accounted.changed
    (clients.trans (congrArg Core.clients (Core.changeInfos_id master.core).symm))
  refine forEachClient_announce registry fun uuid address info middle found clients log dropped => ?_
  by_cases outside : info.waitsOutside
  · simp [when, outside]
  · simp only [when, outside, if_true, Bool.not_false]
    refine .read (Meets.bind ((Keeps.getRingTopology _ _ middle rfl).imp
      (fun _ _ same => same) fun exit unseen =>
        ⟨unseen.2 (accounted clients), (congrArg Core.log unseen.1).trans log⟩) ?_)
    intro ring next at_
    rw [← at_]
    refine sendPacket_tellsRound ?_ (fun _ _ => rfl) uuid address
    simp [roundSignal?, dropped, Bool.and_comm]

theorem p2pConnectionsEstablishConsensus_iff :
    master.p2pConnectionsEstablishConsensus = true ↔ master.core.Closable := by
  let voting (info : ClientInfo) : Bool :=
    info.connectionState = .waitingForOtherPeers || info.connectionState = .connectingToPeersFailed
  let connecting (info : ClientInfo) : Bool :=
    info.connectionState = .waitingForOtherPeers || info.connectionState = .connectingToPeers ||
      info.connectionState = .connectingToPeersFailed
  have split : master.infos.countP connecting = master.infos.countP voting +
      master.infos.countP fun info => info.connectionState = .connectingToPeers := by
    induction master.infos with
    | nil => rfl
    | cons info infos ih =>
      simp only [List.countP_cons, ih, connecting, voting]
      cases info.connectionState <;> simp <;> omega
  have none : (master.infos.countP fun info => info.connectionState = .connectingToPeers) = 0 ↔
      master.core.All fun info => info.connectionState ≠ .connectingToPeers := by
    simp [← MasterState.forall_infos, List.countP_eq_zero]
  have some : 0 < master.infos.countP voting ↔ ∃ uuid, master.core.Has uuid fun info =>
      info.connectionState = .waitingForOtherPeers ∨
        info.connectionState = .connectingToPeersFailed := by
    simp only [List.countP_pos_iff, MasterState.mem_infos, Core.Has, voting, Bool.or_eq_true,
      decide_eq_true_eq]
    constructor
    · rintro ⟨info, ⟨uuid, found⟩, state⟩
      exact ⟨uuid, info, found, state⟩
    · rintro ⟨uuid, info, found, state⟩
      exact ⟨info, ⟨uuid, found⟩, state⟩
  have counts : master.p2pConnectionsEstablishConsensus = true ↔
      ¬ (master.infos.countP voting = 0 ∧ master.infos.countP connecting = 0) ∧
        master.infos.countP voting = master.infos.countP connecting := by
    change (!(decide (master.infos.countP voting = 0) && decide (master.infos.countP connecting = 0)) &&
      decide (master.infos.countP voting = master.infos.countP connecting)) = true ↔ _
    rw [Bool.and_eq_true, Bool.not_eq_true', ← Bool.decide_and, decide_eq_false_iff_not,
      decide_eq_true_iff]
  rw [counts, Core.Closable, ← none, ← some, split]
  omega

theorem checkP2PConnectionsEstablished_meets (valid : master.core.Valid environment) :
    checkP2PConnectionsEstablished.Meets master
      (fun waiting next => master.core.Closes environment next.core ∧
        (waiting = true ↔ ∃ uuid, master.core.Has uuid fun info =>
          info.connectionState = .waitingForOtherPeers ∨
            info.connectionState = .connectingToPeersFailed))
      (fun exit => Fatal environment master.core exit ∨
        (exit.bug = .p2pConnectionsEstablishedPhase ∧ exit.master.core = master.core ∧
          master.core.Jammed)) := by
  refine Meets.bind (anyClient_meets valid.registry _) fun anyWaiting middle => ?_
  rintro ⟨rfl, waits⟩
  simp only [Bool.or_eq_true, decide_eq_true_eq] at waits
  cases anyWaiting with
  | false =>
    refine ⟨Or.inr ⟨fun closable => ?_, rfl⟩, waits⟩
    exact absurd (waits.mpr closable.1) Bool.false_ne_true
  | true =>
    refine .read ((meets_bind _ _).mpr ((meets_when _ _).mpr ⟨?_, ?_⟩))
    · intro consensus
      have closable := p2pConnectionsEstablishConsensus_iff.mp consensus
      refine Meets.bind (anyClient_meets valid.registry _) fun anyFailed same => ?_
      rintro ⟨rfl, failed⟩
      have fails : (anyFailed || master.peerDropped) = master.core.fails := by
        refine congrArg (· || master.peerDropped) (Bool.eq_iff_iff.mpr (failed.trans ?_))
        simp only [List.any_eq_true, Core.infos, Table.mem_values_iff]
        constructor
        · rintro ⟨uuid, info, found, state⟩
          exact ⟨info, ⟨uuid, found⟩, state⟩
        · rintro ⟨info, ⟨uuid, found⟩, state⟩
          exact ⟨uuid, info, found, state⟩
      rw [fails]
      refine Meets.bind ((transitionToP2PConnectionsEstablishedPhase_meets valid.registry _).imp
        (fun _ _ transits => transits) fun _ fatal => Or.inl fatal) ?_
      rintro ended next (⟨rfl, all, moved⟩ | ⟨rfl, stuck, same⟩)
      · have enabled : master.core.enabled (.endRound master.core.fails) := ⟨all, rfl⟩
        have registry : Core.Registry environment next.core := by
          rw [moved]
          exact valid.registry.midway rfl enabled rfl (fun _ _ => ⟨fun _ => rfl, rfl⟩) rfl
        have dropped : next.peerDropped = master.peerDropped := congrArg Core.peerDropped moved
        refine (meets_bind _ _).mpr (((sendP2PConnectionsEstablished_meets registry anyFailed).imp
          ?_ fun exit failed => Or.inl ⟨failed.1, _, .single rfl enabled, ?_⟩))
        · intro _ last told
          refine ⟨Or.inl ⟨closable, enabled, ?_⟩, waits⟩
          rw [dropped, fails, moved] at told
          exact congrArg (fun core : Core => { core with peerDropped := false }) told
        · rw [failed.2, moved]
          rfl
      · exact Or.inr ⟨rfl, same, closable, fun enabled => stuck enabled.1⟩
    · intro open_
      exact ⟨Or.inr ⟨fun closable => open_ (p2pConnectionsEstablishConsensus_iff.mpr closable), rfl⟩,
        waits⟩

end Rounds

end Pccl.Master
