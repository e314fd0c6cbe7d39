import Pccl.Master.Phases

set_option autoImplicit false

namespace Pccl.Master

open Packet Program

namespace Core

variable {environment : Environment} {core next : Core}

theorem unanimous_elsewhere {action : Action} {uuid : Uuid} {info : ClientInfo} {vote : Vote}
    (acts : action.actor? = some uuid) (found : core.info uuid = some info)
    (elsewhere : ¬ vote.concerns info.peerGroup) (enabled : core.enabled action)
    (after : (core.apply environment action).Unanimous vote) : core.Unanimous vote := by
  have plain (plain : action.plain) : core.Unanimous vote := by
    -- Whoever is in the scope of the vote is somebody else and has not moved.
    have still (client : Uuid) (before after : ClientInfo) (present : core.info client = some before)
        (moves : action.Moves client before after)
        (scope : vote.inScope before ∨ vote.inScope after) : after = before := by
      have other : client ≠ uuid := by
        rintro rfl
        cases found.symm.trans present
        rcases scope with scope | scope <;>
          simp [Vote.inScope, moves.keeps.2.2, elsewhere] at scope
      cases moves <;> first | rfl | (cases acts; exact absurd rfl other) | cases acts
    obtain ⟨⟨member, last, present, scope⟩, all⟩ := after
    obtain ⟨info, earlier, moves⟩ := moved plain enabled present
    cases still member info last earlier moves (Or.inr scope)
    refine ⟨⟨member, last, earlier, scope⟩, fun client before present scope => ?_⟩
    obtain ⟨after, later, moves⟩ := @moves_on core environment _ plain enabled _ _ present
    cases still client before after present moves (Or.inl scope)
    exact all client _ later scope
  cases action with
  | leave address leaver =>
    cases acts
    exact unanimous_leave found elsewhere after
  | register => cases acts
  | _ => exact plain rfl

/-- A disconnect does not leave the others with a unanimous vote about the topology. -/
def leavesNoTopologyVote (core : Core) : Action → Bool
  | .leave _ uuid =>
    let others := core.infos.filter fun info =>
      info.connectionPhase = .accepted && info.clientUuid ≠ uuid
    others.isEmpty ||
      !(others.all (fun info => info.connectionState = .voteOptimizeTopology) ||
        others.all fun info => info.connectionState = .voteCompleteTopologyOptimization)
  | _ => true

theorem not_unanimous_of_leave (registry : core.Registry environment) {address : SocketAddress}
    {uuid : Uuid} {vote : Vote} (leaves : core.leavesNoTopologyVote (.leave address uuid) = true)
    (topology : vote.ofTopology = true) : ¬ (core.leave address uuid).Unanimous vote := by
  rintro ⟨⟨member, info, found, scope⟩, all⟩
  have others (other : ClientInfo) : other ∈ core.infos.filter (fun info =>
      info.connectionPhase = .accepted && info.clientUuid ≠ uuid) ↔
      ∃ client, (core.leave address uuid).info client = some other ∧
        other.connectionPhase = .accepted := by
    simp only [List.mem_filter, Core.infos, Table.mem_values_iff, info_leave, Bool.and_eq_true,
      decide_eq_true_eq]
    constructor
    · rintro ⟨⟨client, present⟩, accepted, different⟩
      rw [registry.named client other present] at different
      exact ⟨client, ⟨different, present⟩, accepted⟩
    · rintro ⟨client, ⟨different, present⟩, accepted⟩
      refine ⟨⟨client, present⟩, accepted, ?_⟩
      rw [registry.named client other present]
      exact different
  have accepted : info.connectionPhase = .accepted := by
    simp only [Vote.inScope, Bool.and_eq_true, decide_eq_true_eq] at scope
    exact scope.1
  have cast (other : ClientInfo) (present : other ∈ core.infos.filter (fun info =>
      info.connectionPhase = .accepted && info.clientUuid ≠ uuid)) : vote.hasCast other = true := by
    obtain ⟨client, here, accepted⟩ := (others other).mp present
    refine all client other here ?_
    cases vote <;> simp_all [Vote.ofTopology, Vote.inScope, Vote.concerns]
  have nonempty : (core.infos.filter (fun info =>
      info.connectionPhase = .accepted && info.clientUuid ≠ uuid)) ≠ [] :=
    List.ne_nil_of_mem ((others info).mpr ⟨member, found, accepted⟩)
  simp only [leavesNoTopologyVote, Bool.or_eq_true, List.isEmpty_iff, nonempty, false_or,
    Bool.not_eq_true', Bool.or_eq_false_iff] at leaves
  cases vote with
  | optimizeTopology => exact Bool.false_ne_true (leaves.1.symm.trans (List.all_eq_true.mpr cast))
  | completeTopologyOptimization =>
    exact Bool.false_ne_true (leaves.2.symm.trans (List.all_eq_true.mpr cast))
  | _ => cases topology

theorem unanimous_served {event : Event} {master : MasterState}
    (valid : master.core.Valid environment) (answered : ∀ vote, ¬ master.core.Unanimous vote)
    (asked : asks Core.leavesNoTopologyVote event master = true)
    (served : Core.Served environment event master.core next) (vote : Vote) :
    ¬ next.Unanimous vote := by
  rcases served with rfl | ⟨action, is, enabled, follows, settled⟩
  · exact answered vote
  intro unanimous
  have after := follows.answers.unanimous_before (valid.apply enabled) unanimous
  by_cases raises : action.raises vote
  · -- Who acts casts a vote of its own group.
    have acts : ∃ uuid info, action.actor? = some uuid ∧ master.core.info uuid = some info := by
      cases action with
      | leave address uuid =>
        obtain ⟨info, found, _⟩ := valid.registry.info_of address uuid enabled
        exact ⟨uuid, info, rfl, found⟩
      | vote ballot uuid strategy =>
        obtain ⟨⟨info, found, _⟩, _⟩ := enabled
        exact ⟨uuid, info, rfl, found⟩
      | query uuid | initiate uuid | complete uuid =>
        obtain ⟨info, found, _⟩ := enabled
        exact ⟨uuid, info, rfl, found⟩
      | _ => exact raises.elim
    obtain ⟨uuid, info, acts, found⟩ := acts
    by_cases concerns : vote.concerns info.peerGroup
    · refine settled vote ⟨raises, ⟨uuid, acts, info, found, concerns⟩, ?_⟩ unanimous
      rintro ⟨address, leaver, rfl⟩
      by_contra topology
      exact not_unanimous_of_leave valid.registry (of_asks asked is)
        (by simpa using topology) after
    · exact answered vote (unanimous_elsewhere acts found concerns enabled after)
  · cases action with
    | register => exact answered vote (unanimous_register valid.registry after)
    | leave => exact raises trivial
    | _ => exact answered vote (unanimous_before valid.states rfl enabled raises after)

end Core

theorem unanimous_votes_answered (environment : Environment) (events : List Event)
    (lawful : Lawful environment (asks Core.leavesNoTopologyVote) events) :
    (run environment events).Holds (fun master => ∀ vote, ¬ master.core.Unanimous vote)
      fun _ => True := by
  have initial (vote : Vote) : ¬ Core.initial.Unanimous vote := by
    rintro ⟨⟨uuid, info, found, _⟩, _⟩
    simp [Core.initial, MasterState.core, MasterState.initial, Core.info] at found
  refine (run_holds_core (fun core => ∀ vote, ¬ core.Unanimous vote) initial
    (fun event master next valid answered asked served => ?_)
    (fun _ _ _ _ _ _ _ => trivial) events lawful).imp (fun _ holds => holds.2) fun _ _ => trivial
  exact Core.unanimous_served valid answered asked served

open Sample

theorem unanimous_votes_answered_pair :
    (run environment (pair ++ [.read (address 0) .optimizeTopology,
      .read (address 1) .optimizeTopology, leave 1])).Holds
      (fun master => ∀ vote, ¬ master.core.Unanimous vote) fun _ => True :=
  unanimous_votes_answered _ _ ((lawful_iff _ _ _).mp (by cbv))

theorem unanimous_vote_unanswered :
    ¬ (run environment (pair ++ [.read (address 0) .optimizeTopology,
      leave 1])).Holds (fun master => ∀ vote, ¬ master.core.Unanimous vote) fun _ => True := by
  have waits : (run environment (pair ++ [.read (address 0) .optimizeTopology,
      leave 1])).passes (fun master =>
        master.infos.map (fun info => (info.connectionPhase, info.connectionState)) =
          [(.accepted, .voteOptimizeTopology)]) = true := by
    cbv
  refine Server.not_holds waits fun master seen answered => answered .optimizeTopology ?_
  obtain ⟨info, alone, states⟩ := List.map_eq_singleton_iff.mp (of_decide_eq_true seen)
  rw [Prod.mk.injEq] at states
  obtain ⟨uuid, found⟩ := (master.mem_infos info).mp (by simp [alone])
  refine ⟨⟨uuid, info, found, by simp [Vote.inScope, Vote.concerns, states.1]⟩, ?_⟩
  refine (master.forall_infos _).mp fun other present _ => ?_
  rw [alone, List.mem_singleton] at present
  simp [Vote.hasCast, present, states.2]

end Pccl.Master
