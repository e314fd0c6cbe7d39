import Pccl.Master.Runs

set_option autoImplicit false

namespace Pccl.Master

open Packet Program

namespace MasterState

variable (master : MasterState) (includeRegistered : Bool)

def groups : Finset Group := (master.infos.map ClientInfo.peerGroup).toFinset

def countedGroups : List Group := (master.counted includeRegistered).map ClientInfo.peerGroup

/-- The figures of a packet agree with the sizes of the groups. -/
structure Agrees (info : P2PConnectionInfo) : Prop where
  global : info.globalWorldSize = ∑ group ∈ master.groups, master.getLocalWorldSize group includeRegistered
  distinct : info.numDistinctPeerGroups =
    (master.groups.filter fun group => 0 < master.getLocalWorldSize group includeRegistered).card
  bounds : ∀ group, master.getLocalWorldSize group includeRegistered ≤ info.largestPeerGroupWorldSize
  attained : ∃ group, master.getLocalWorldSize group includeRegistered = info.largestPeerGroupWorldSize

variable {master includeRegistered}

theorem getLocalWorldSize_eq_count (group : Group) :
    master.getLocalWorldSize group includeRegistered =
      (master.countedGroups includeRegistered).count group := by
  rw [getLocalWorldSize, countedGroups, List.count, List.countP_map]
  congr 1

theorem countedGroups_subset : (master.countedGroups includeRegistered).toFinset ⊆ master.groups := by
  intro group present
  rw [List.mem_toFinset, countedGroups, List.mem_map] at present
  obtain ⟨info, counted, rfl⟩ := present
  exact List.mem_toFinset.mpr (List.mem_map_of_mem (List.mem_of_mem_filter counted))

theorem sum_getLocalWorldSize :
    ∑ group ∈ master.groups, master.getLocalWorldSize group includeRegistered =
      (master.counted includeRegistered).length := by
  have total := List.sum_toFinset_count_eq_length (master.countedGroups includeRegistered)
  rw [countedGroups, List.length_map, ← countedGroups] at total
  rw [← total]
  simp only [getLocalWorldSize_eq_count]
  refine (Finset.sum_subset countedGroups_subset fun group _ absent => ?_).symm
  exact List.count_eq_zero_of_not_mem fun present => absent (List.mem_toFinset.mpr present)

theorem getGlobalWorldSize_eq_iff :
    master.getGlobalWorldSize =
        ∑ group ∈ master.groups, master.getLocalWorldSize group includeRegistered ↔
      includeRegistered = true ∨ ∀ info ∈ master.infos, info.connectionPhase = .accepted := by
  have everybody : master.getGlobalWorldSize = master.infos.length := by
    rw [getGlobalWorldSize, infos, Table.values, List.length_map, Table.size]
  rw [sum_getLocalWorldSize, everybody, counted, eq_comm, List.length_filter_eq_length_iff]
  cases includeRegistered <;> simp

theorem getNumDistinctPeerGroups_eq :
    master.getNumDistinctPeerGroups includeRegistered =
      (master.groups.filter fun group => 0 < master.getLocalWorldSize group includeRegistered).card := by
  have same : (master.groups.filter fun group =>
      0 < master.getLocalWorldSize group includeRegistered) =
        (master.countedGroups includeRegistered).toFinset := by
    ext group
    rw [Finset.mem_filter, getLocalWorldSize_eq_count, List.count_pos_iff, List.mem_toFinset]
    exact ⟨And.right, fun present => ⟨countedGroups_subset (List.mem_toFinset.mpr present), present⟩⟩
  rw [same]
  rfl

theorem getLargestPeerGroupWorldSize_spec :
    (∀ group, master.getLocalWorldSize group includeRegistered ≤
      master.getLargestPeerGroupWorldSize includeRegistered) ∧
    ∃ group, master.getLocalWorldSize group includeRegistered =
      master.getLargestPeerGroupWorldSize includeRegistered := by
  obtain ⟨attained, bounds⟩ := List.max?_eq_some_iff.mp (@List.max?_cons' Nat 0 _
    ((master.counted includeRegistered).map fun info =>
      master.getLocalWorldSize info.peerGroup includeRegistered))
  have largest (group : Group) : master.getLocalWorldSize group includeRegistered ≤
      master.getLargestPeerGroupWorldSize includeRegistered := by
    by_cases present : group ∈ master.countedGroups includeRegistered
    · obtain ⟨info, counted, rfl⟩ := List.mem_map.mp present
      exact bounds _ (List.mem_cons_of_mem _ (List.mem_map_of_mem counted))
    · rw [getLocalWorldSize_eq_count, List.count_eq_zero_of_not_mem present]
      exact Nat.zero_le _
  refine ⟨largest, ?_⟩
  rcases List.mem_cons.mp attained with none_ | some_
  · -- Nobody is counted, so every group has the size zero.
    exact ⟨0, Nat.le_antisymm (largest 0) (none_.le.trans (Nat.zero_le _))⟩
  · obtain ⟨info, _, same⟩ := List.mem_map.mp some_
    exact ⟨info.peerGroup, same⟩

end MasterState

section Packets

variable {master : MasterState} {includeRegistered : Bool}

structure Carries (master : MasterState) (includeRegistered : Bool) (entry : Sent)
    (info : P2PConnectionInfo) : Prop where
  packet : entry.packet = .p2pConnectionInfo info
  receiver : ∃ receiver ∈ master.infos, receiver.clientUuid = entry.peer ∧
    info.localWorldSize = master.getLocalWorldSize receiver.peerGroup includeRegistered
  global : info.globalWorldSize = master.getGlobalWorldSize
  distinct : info.numDistinctPeerGroups = master.getNumDistinctPeerGroups includeRegistered
  largest : info.largestPeerGroupWorldSize = master.getLargestPeerGroupWorldSize includeRegistered

theorem Carries.agrees_iff {entry : Sent} {info : P2PConnectionInfo}
    (carries : Carries master includeRegistered entry info) :
    master.Agrees includeRegistered info ↔
      includeRegistered = true ∨ ∀ info ∈ master.infos, info.connectionPhase = .accepted := by
  rw [← MasterState.getGlobalWorldSize_eq_iff, ← carries.global]
  refine ⟨fun agrees => agrees.global, fun global => ⟨global, ?_, ?_, ?_⟩⟩
  · rw [carries.distinct, MasterState.getNumDistinctPeerGroups_eq]
  · rw [carries.largest]
    exact MasterState.getLargestPeerGroupWorldSize_spec.1
  · rw [carries.largest]
    exact MasterState.getLargestPeerGroupWorldSize_spec.2

structure Informed (master : MasterState) (includeRegistered : Bool)
    (visited : List (Uuid × SocketAddress)) (next : MasterState) : Prop where
  clients : next.clients = master.clients
  sent : ∃ fresh, next.sent = master.sent ++ fresh ∧
    (∀ entry ∈ fresh, ∃ info, Carries master includeRegistered entry info) ∧
    (fresh = [] ↔ ∀ client ∈ visited, ∀ info, master.getClientInfo client.1 = some info →
      info.connectionState ≠ .connectingToPeers)

theorem getRingTopology_silent (group : Group) :
    (getRingTopology group includeRegistered).Meets master
      (fun _ next => next.clients = master.clients ∧ next.sent = master.sent)
      fun exit => exit.master = master := by
  refine .read ?_
  cases refreshed : master.refreshRing group includeRegistered with
  | none => exact rfl
  | some next =>
    refine .write ?_
    unfold MasterState.refreshRing MasterState.setRingTopology at refreshed
    split at refreshed
    · split at refreshed
      · cases refreshed
      · cases refreshed
        exact ⟨rfl, rfl⟩
    · cases refreshed
      exact ⟨rfl, rfl⟩

theorem getPeersForClient_silent (info : ClientInfo) :
    (getPeersForClient info includeRegistered).Meets master
      (fun _ next => next.clients = master.clients ∧ next.sent = master.sent)
      fun exit => exit.master = master :=
  Meets.bind (getRingTopology_silent info.peerGroup) fun _ _ silent => silent

theorem sendPacket_sends (peer : Uuid) (address : SocketAddress) (packet : M2CPacket) {fail : Exit → Prop} :
    (sendPacket peer address packet).Meets master
      (fun _ next => next.clients = master.clients ∧ ∃ operations,
        next.sent = master.sent ++ [⟨peer, address, packet, operations⟩]) fail :=
  ⟨rfl, master.collective.sequenceNumber, rfl⟩

theorem sendP2PConnectionInformationTo_sends {info : ClientInfo} (present : info ∈ master.infos) :
    (sendP2PConnectionInformationTo info includeRegistered).Meets master
      (fun _ next => next.clients = master.clients ∧ ∃ entry packet,
        next.sent = master.sent ++ [entry] ∧ Carries master includeRegistered entry packet)
      fun exit => exit.master = master := by
  refine .read ?_
  refine Meets.bind (getPeersForClient_silent info) fun peers last kept => ?_
  refine .change ((sendPacket_sends _ _ _).imp ?_ fun _ none_ => none_)
  rintro _ next ⟨clients, operations, sent⟩
  refine ⟨clients.trans kept.1, _, _, sent.trans (congrArg (· ++ _) kept.2), rfl, ?_, rfl, rfl, rfl⟩
  exact ⟨info, present, rfl, rfl⟩

theorem sendP2PConnectionInformation_informs :
    (sendP2PConnectionInformation includeRegistered).Meets master
      (fun _ next => Informed master includeRegistered master.getClientEntrySet next)
      fun exit => ∃ visited, Informed master includeRegistered visited exit.master := by
  refine .read ?_
  refine meets_forEach (fun finished client rest _ middle informed => ?_) ⟨rfl, [], by simp⟩
  obtain ⟨clients, fresh, sent, carries, silent⟩ := informed
  have same : middle.getClientInfo client.1 = master.getClientInfo client.1 := by
    rw [MasterState.getClientInfo, clients]
    rfl
  refine .read ?_
  cases found : middle.getClientInfo client.1 with
  | none => exact ⟨finished, clients, fresh, sent, carries, silent⟩
  | some info =>
    rw [same] at found
    have more (idle : info.connectionState ≠ .connectingToPeers) :
        fresh = [] ↔ ∀ entry ∈ finished ++ [client], ∀ info, master.getClientInfo entry.1 = some info →
          info.connectionState ≠ .connectingToPeers := by
      rw [silent]
      constructor
      · intro before entry present other known
        rcases List.mem_append.mp present with earlier | now
        · exact before entry earlier other known
        · rw [List.mem_singleton.mp now] at known
          cases found.symm.trans known
          exact idle
      · exact fun all entry present => all entry (List.mem_append_left _ present)
    refine (meets_when _ _).mpr ⟨fun connecting => ?_, fun idle => ⟨clients, fresh, sent, carries, more idle⟩⟩
    have here : info ∈ middle.infos := Table.mem_values_iff.mpr ⟨client.1, same.trans found⟩
    refine (sendP2PConnectionInformationTo_sends here).imp (fun _ next informs => ?_) fun exit ended => ?_
    · obtain ⟨kept, entry, packet, appended, carried⟩ := informs
      have mine : Carries master includeRegistered entry packet := by
        obtain ⟨first, receiver, global, distinct, largest⟩ := carried
        have infos : middle.infos = master.infos := by
          rw [MasterState.infos, clients]
          rfl
        have counted : middle.counted includeRegistered = master.counted includeRegistered := by
          rw [MasterState.counted, infos]
          rfl
        have sizes (group : Group) : middle.getLocalWorldSize group includeRegistered =
            master.getLocalWorldSize group includeRegistered := by
          rw [MasterState.getLocalWorldSize, counted]
          rfl
        refine ⟨first, ?_, global.trans ?_, distinct.trans ?_, largest.trans ?_⟩
        · rw [infos] at receiver
          simpa only [sizes] using receiver
        · rw [MasterState.getGlobalWorldSize, clients]
          rfl
        · rw [MasterState.getNumDistinctPeerGroups, counted]
          rfl
        · rw [MasterState.getLargestPeerGroupWorldSize, counted]
          simp only [sizes]
          rfl
      refine ⟨kept.trans clients, fresh ++ [entry], by rw [appended, sent, List.append_assoc], ?_, ?_⟩
      · intro other present
        rcases List.mem_append.mp present with earlier | now
        · exact carries other earlier
        · exact ⟨packet, List.mem_singleton.mp now ▸ mine⟩
      · refine iff_of_false (by simp) fun all => ?_
        exact all client (by simp) info found connecting
    · exact ⟨finished, ended ▸ clients, fresh, ended ▸ sent, carries, silent⟩

end Packets

theorem world_sizes_agree_iff (master : MasterState) (includeRegistered : Bool) :
    (∀ next, sendP2PConnectionInformation includeRegistered master = .ok ((), next) →
      ∃ fresh, next.sent = master.sent ++ fresh ∧
        ((∀ entry ∈ fresh, ∃ info, entry.packet = .p2pConnectionInfo info ∧
            (∃ receiver ∈ master.infos, receiver.clientUuid = entry.peer ∧
              info.localWorldSize = master.getLocalWorldSize receiver.peerGroup includeRegistered) ∧
            master.Agrees includeRegistered info) ↔
          includeRegistered = true ∨ (∀ info ∈ master.infos, info.connectionPhase = .accepted) ∨
            ∀ client ∈ master.getClientEntrySet, ∀ info, master.getClientInfo client.1 = some info →
              info.connectionState ≠ .connectingToPeers)) ∧
    ∀ exit, sendP2PConnectionInformation includeRegistered master = .error exit →
      (includeRegistered = true ∨ ∀ info ∈ master.infos, info.connectionPhase = .accepted) →
      ∃ fresh, exit.master.sent = master.sent ++ fresh ∧
        ∀ entry ∈ fresh, ∃ info, entry.packet = .p2pConnectionInfo info ∧
          master.Agrees includeRegistered info := by
  have informs := @sendP2PConnectionInformation_informs master includeRegistered
  unfold Meets at informs
  constructor
  · intro next returns
    rw [returns] at informs
    obtain ⟨_, fresh, sent, carries, silent⟩ := informs
    refine ⟨fresh, sent, ?_⟩
    rw [← silent, ← or_assoc]
    constructor
    · intro agree
      cases fresh with
      | nil => exact Or.inr rfl
      | cons entry fresh =>
        obtain ⟨info, packet, _, agrees⟩ := agree entry List.mem_cons_self
        obtain ⟨same, carried⟩ := carries entry List.mem_cons_self
        cases packet.symm.trans carried.packet
        exact Or.inl (carried.agrees_iff.mp agrees)
    · rintro (fine | rfl) entry present
      · obtain ⟨info, carried⟩ := carries entry present
        exact ⟨info, carried.packet, carried.receiver, carried.agrees_iff.mpr fine⟩
      · cases present
  · intro exit ends fine
    rw [ends] at informs
    obtain ⟨_, _, fresh, sent, carries, _⟩ := informs
    refine ⟨fresh, sent, fun entry present => ?_⟩
    obtain ⟨info, carried⟩ := carries entry present
    exact ⟨info, carried.packet, carried.agrees_iff.mpr fine⟩

namespace Sample

def withoutNewcomer : List Event := pair ++ [join 2 0, establish 0 false, establish 1 false]

def tellsThreeAndTwo : M2CPacket → Bool
  | .p2pConnectionInfo info => decide (info.globalWorldSize = 3) && decide (info.localWorldSize = 2)
  | _ => false

end Sample

open Sample

theorem pending_client_counted :
    ∃ master, run environment withoutNewcomer = .ok master ∧
      ∃ entry ∈ master.sent, ∃ info, entry.packet = .p2pConnectionInfo info ∧
        info.globalWorldSize = 3 ∧ info.localWorldSize = 2 ∧
        ∑ group ∈ master.groups, master.getLocalWorldSize group false = 2 := by
  have passes : (run environment withoutNewcomer).passes (fun master =>
      decide ((master.counted false).length = 2) && master.sent.any fun entry =>
        tellsThreeAndTwo entry.packet) = true := by cbv
  obtain ⟨master, reached, checked⟩ := Server.exists_of_passes passes
  simp only [Bool.and_eq_true, decide_eq_true_eq, List.any_eq_true] at checked
  obtain ⟨counted, entry, present, figures⟩ := checked
  refine ⟨master, reached, entry, present, ?_⟩
  unfold tellsThreeAndTwo at figures
  split at figures
  next info packet =>
    simp only [Bool.and_eq_true, decide_eq_true_eq] at figures
    exact ⟨info, packet, figures.1, figures.2, MasterState.sum_getLocalWorldSize.trans counted⟩
  next => cases figures

end Pccl.Master
