import Pccl.Master.States

set_option autoImplicit false

namespace Pccl.Master

open Packet

inductive Vote where
  | acceptNewPeers
  | establishP2PConnections
  | queryPendingPeers
  | optimizeTopology
  | completeTopologyOptimization
  | completeSharedStateSync (group : Group)
  | collectiveInitiate (group : Group) (tag : Tag)
  | collectiveComplete (group : Group) (tag : Tag)
deriving DecidableEq, Repr

namespace Vote

def concerns (group : Group) : Vote → Bool
  | completeSharedStateSync scope | collectiveInitiate scope _ | collectiveComplete scope _ =>
    group = scope
  | _ => true

def inScope (vote : Vote) (info : ClientInfo) : Bool :=
  info.connectionPhase = .accepted && vote.concerns info.peerGroup

def hasCast (vote : Vote) (info : ClientInfo) : Bool :=
  match vote with
  | acceptNewPeers => info.connectionState = .voteAcceptNewPeers
  | establishP2PConnections => info.connectionState = .voteNoNewPeersEstablishP2PConnections
  | queryPendingPeers => info.voteQueryPendingPeers
  | optimizeTopology => info.connectionState = .voteOptimizeTopology
  | completeTopologyOptimization => info.connectionState = .voteCompleteTopologyOptimization
  | completeSharedStateSync _ => info.connectionState = .voteCompleteSharedStateSync
  | collectiveInitiate _ tag => info.collectiveComsStates.lookup tag = some .voteInitiate
  | collectiveComplete _ tag => info.collectiveComsStates.lookup tag = some .voteComplete

theorem cases_of_quiet {vote : Vote} {info : ClientInfo} (cast : vote.hasCast info)
    (quiet : ¬ info.connectionState.isVote) :
    vote = .queryPendingPeers ∨
      ∃ group tag, vote = .collectiveInitiate group tag ∨ vote = .collectiveComplete group tag := by
  cases vote with
  | queryPendingPeers => exact Or.inl rfl
  | collectiveInitiate group tag => exact Or.inr ⟨group, tag, Or.inl rfl⟩
  | collectiveComplete group tag => exact Or.inr ⟨group, tag, Or.inr rfl⟩
  | _ =>
    rw [of_decide_eq_true cast] at quiet
    exact absurd rfl quiet

def ofTopology : Vote → Bool
  | optimizeTopology | completeTopologyOptimization => true
  | _ => false

end Vote

def Core.Unanimous (core : Core) (vote : Vote) : Prop :=
  (∃ uuid, core.Has uuid fun info => vote.inScope info) ∧
    core.All fun info => vote.inScope info → vote.hasCast info

def Action.raises : Action → Vote → Prop
  | vote ballot _ _, .acceptNewPeers => ballot = .acceptNewPeers
  | vote ballot _ _, .establishP2PConnections => ballot = .establishP2PConnections
  | vote ballot _ _, .optimizeTopology => ballot = .optimizeTopology
  | vote ballot _ _, .completeTopologyOptimization => ballot = .completeTopologyOptimization
  | vote ballot _ _, .completeSharedStateSync _ => ballot = .syncSharedStateComplete
  | query _, .queryPendingPeers => True
  | initiate _ tag, .collectiveInitiate _ other => other = tag
  | complete _ tag, .collectiveComplete _ other => other = tag
  | leave _ _, _ => True
  | _, _ => False

def Action.settles : Action → Vote → Prop
  | startRound _, .acceptNewPeers => True
  | startRound _, .establishP2PConnections => True
  | resetQuery, .queryPendingPeers => True
  | startOptimization, .optimizeTopology => True
  | endOptimization, .completeTopologyOptimization => True
  | endSync group, .completeSharedStateSync scope => scope = group
  | commence group tag, .collectiveInitiate scope other => scope = group ∧ other = tag
  | finish group tag, .collectiveComplete scope other => scope = group ∧ other = tag
  | _, _ => False

/-- The change takes nobody out of the scope of the vote and casts it for nobody. -/
def Lowers (vote : Vote) (info next : ClientInfo) : Prop :=
  (vote.inScope info → vote.inScope next) ∧
    (vote.inScope next → vote.hasCast next → vote.inScope info ∧ vote.hasCast info)

namespace Lowers

variable {vote : Vote} {info : ClientInfo}

theorem refl (vote : Vote) (info : ClientInfo) : Lowers vote info info :=
  ⟨id, fun scope cast => ⟨scope, cast⟩⟩

theorem trans {middle next : ClientInfo} (first : Lowers vote info middle)
    (second : Lowers vote middle next) : Lowers vote info next := by
  refine ⟨fun scope => second.1 (first.1 scope), fun scope cast => ?_⟩
  have between := second.2 scope cast
  exact first.2 between.1 between.2

theorem enter (vote : Vote) (info : ClientInfo) (state : ConnectionState)
    (quiet : ¬ state.isVote) :
    Lowers vote info (info.enter state) := by
  refine ⟨id, fun scope cast => ⟨scope, ?_⟩⟩
  rcases Vote.cases_of_quiet cast quiet with rfl | ⟨group, tag, rfl | rfl⟩ <;> exact cast

theorem accept (vote : Vote) (sound : info.Sound) (registered : info.connectionPhase = .registered)
    (state : ConnectionState)
    (quiet : ¬ state.isVote) :
    Lowers vote info { info with connectionState := state, connectionPhase := .accepted } := by
  have query := (sound.registered registered).2
  have tags (tag : Tag) : info.collectiveComsStates.lookup tag = none := by
    refine sound.lookup_none (fun runs => ?_) tag
    simpa [registered] using sound.accepted_of_runs runs
  refine ⟨fun scope => by simp [Vote.inScope, registered] at scope, fun _ cast => ?_⟩
  rcases Vote.cases_of_quiet cast quiet with rfl | ⟨group, tag, rfl | rfl⟩ <;>
    simp [Vote.hasCast, query, tags] at cast

theorem setTag (vote : Vote) (info : ClientInfo) (tag : Tag) (state : CollectiveCommunicationState)
    (initiate : state = .voteInitiate → ∀ group, vote ≠ .collectiveInitiate group tag)
    (complete : state = .voteComplete → ∀ group, vote ≠ .collectiveComplete group tag) :
    Lowers vote info (info.setTag tag state) := by
  refine ⟨id, fun scope cast => ⟨scope, ?_⟩⟩
  cases vote with
  | collectiveInitiate group other | collectiveComplete group other =>
    simp only [Vote.hasCast, ClientInfo.setTag, Table.lookup_insert_iff, decide_eq_true_eq] at cast ⊢
    split at cast
    · next same =>
      subst same
      simp_all
    · exact cast
  | _ => exact cast

theorem eraseTag (vote : Vote) (info : ClientInfo) (tag : Tag) :
    Lowers vote info (info.eraseTag tag) := by
  have erased : Lowers vote info
      { info with collectiveComsStates := info.collectiveComsStates.erase tag } := by
    refine ⟨id, fun scope cast => ⟨scope, ?_⟩⟩
    cases vote with
    | collectiveInitiate group other | collectiveComplete group other =>
      simp only [Vote.hasCast, Table.lookup_erase_iff, decide_eq_true_eq] at cast ⊢
      split at cast
      · cases cast
      · exact cast
    | _ => exact cast
  unfold ClientInfo.eraseTag
  dsimp only
  split
  · exact erased.trans (enter vote _ .idle (by decide))
  · exact erased

end Lowers

theorem Action.Moves.lowers {action : Action} {uuid : Uuid} {info next : ClientInfo}
    (moves : action.Moves uuid info next) (sound : info.Sound) (vote : Vote)
    (unraised : ¬ action.raises vote) : Lowers vote info next := by
  cases moves with
  | skip => exact .refl vote info
  | acceptFirst registered => exact .accept vote sound registered _ (by decide)
  | @vote ballot =>
    refine ⟨id, fun scope cast => ⟨scope, ?_⟩⟩
    cases vote with
    | queryPendingPeers | collectiveInitiate | collectiveComplete => exact cast
    | _ =>
      have state := of_decide_eq_true cast
      cases ballot <;> simp_all [Action.raises, ClientInfo.enter, Ballot.cast]
  | query =>
    refine ⟨id, fun scope cast => ⟨scope, ?_⟩⟩
    cases vote with
    | queryPendingPeers => exact absurd trivial unraised
    | _ => exact cast
  | @report _ success => exact .enter vote info _ (by cases success <;> decide)
  | @initiate _ tag =>
    refine (Lowers.setTag vote info tag .voteInitiate (fun _ group same => ?_) (by simp)).trans
      (.enter vote _ _ (by decide))
    subst same
    exact unraised rfl
  | @complete _ tag =>
    refine .setTag vote info tag .voteComplete (by simp) fun _ group same => ?_
    subst same
    exact unraised rfl
  | startRound | startOptimization | endOptimization | endSync =>
    exact .enter vote info _ (by decide)
  | @endRound failure =>
    have quiet : ¬ (if failure then ConnectionState.connectingToPeersFailed else .idle).isVote := by
      cases failure <;> decide
    cases phase : info.connectionPhase with
    | registered => exact .accept vote sound phase _ quiet
    | accepted => simpa [ClientInfo.enter, ← phase] using Lowers.enter vote info _ quiet
  | resetQuery =>
    refine ⟨id, fun scope cast => ⟨scope, ?_⟩⟩
    cases vote with
    | queryPendingPeers => cases cast
    | _ => exact cast
  | startSync _ _ target => rcases target with rfl | rfl <;> exact .enter vote info _ (by decide)
  | commence => exact .setTag vote info _ .perform (by simp) (by simp)
  | finish => exact .eraseTag vote info _

theorem Action.Moves.withdraws {action : Action} {uuid : Uuid} {info next : ClientInfo}
    (moves : action.Moves uuid info next) {vote : Vote} (settles : action.settles vote)
    (scope : vote.inScope next) : ¬ vote.hasCast next := by
  simp only [Vote.inScope, Bool.and_eq_true, decide_eq_true_eq] at scope
  obtain ⟨accepted, concerns⟩ := scope
  cases moves with
  | skip skips =>
    cases action <;> cases vote <;>
      simp_all [Action.settles, Action.skips, Vote.concerns, ClientInfo.takesPart]
  | startRound | resetQuery | startOptimization | endOptimization | endSync =>
    cases vote <;> simp_all [Action.settles, Vote.hasCast, ClientInfo.enter]
  | commence =>
    cases vote with
    | collectiveInitiate =>
      obtain ⟨rfl, rfl⟩ := settles
      simp [Vote.hasCast, ClientInfo.setTag]
    | _ => cases settles
  | finish =>
    cases vote with
    | collectiveComplete =>
      obtain ⟨rfl, rfl⟩ := settles
      simp [Vote.hasCast, ClientInfo.eraseTag]
    | _ => cases settles
  | _ => cases settles

namespace Core

variable {environment : Environment} {core : Core}

theorem not_unanimous_of_settles {action : Action} (plain : action.plain)
    (enabled : core.enabled action) {vote : Vote} (settles : action.settles vote) :
    ¬ (core.apply environment action).Unanimous vote := by
  rintro ⟨⟨member, next, found, scope⟩, all⟩
  obtain ⟨info, _, moves⟩ := moved plain enabled found
  exact moves.withdraws settles scope (all member next found scope)

theorem unanimous_before (states : States core) {action : Action} (plain : action.plain)
    (enabled : core.enabled action) {vote : Vote} (unraised : ¬ action.raises vote)
    (after : (core.apply environment action).Unanimous vote) : core.Unanimous vote := by
  obtain ⟨⟨member, next, found, scope⟩, all⟩ := after
  obtain ⟨info, present, moves⟩ := moved plain enabled found
  have lowers := moves.lowers (states.sound member info present) vote unraised
  refine ⟨⟨member, info, present, (lowers.2 scope (all member next found scope)).1⟩, ?_⟩
  intro uuid info present scope
  obtain ⟨next, found, moves⟩ := @moves_on core environment _ plain enabled _ _ present
  have lowers := moves.lowers (states.sound uuid info present) vote unraised
  exact (lowers.2 (lowers.1 scope) (all uuid next found (lowers.1 scope))).2

theorem unanimous_register (registry : Registry environment core) {address : SocketAddress}
    {ports : ClientVariablePorts} {group : Group} {vote : Vote}
    (after : (core.register environment address ports group).Unanimous vote) :
    core.Unanimous vote := by
  obtain ⟨⟨member, info, found, scope⟩, all⟩ := after
  refine ⟨⟨member, info, ?_, scope⟩, fun uuid info found => all uuid info ?_⟩
  · rcases (info_register registry address ports group member info).mp found with ⟨_, rfl⟩ | found
    · simp [Vote.inScope] at scope
    · exact found
  · exact (info_register registry address ports group uuid info).mpr (Or.inr found)

theorem unanimous_leave {address : SocketAddress} {uuid : Uuid} {info : ClientInfo} {vote : Vote}
    (found : core.info uuid = some info) (elsewhere : ¬ vote.concerns info.peerGroup)
    (after : (core.leave address uuid).Unanimous vote) : core.Unanimous vote := by
  obtain ⟨⟨member, other, present, scope⟩, all⟩ := after
  refine ⟨⟨member, other, ((info_leave address uuid member other).mp present).2, scope⟩, ?_⟩
  intro client other here scope
  by_cases same : client = uuid
  · subst same
    rw [found] at here
    cases here
    simp [Vote.inScope, elsewhere] at scope
  · exact all client other ((info_leave address uuid client other).mpr ⟨same, here⟩) scope

end Core

end Pccl.Master
