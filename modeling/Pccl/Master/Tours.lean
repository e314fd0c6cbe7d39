import Pccl.Master.Reroute

set_option autoImplicit false

namespace Pccl.Master

open Packet Program

section Search

def searchRing (adjacent : Uuid → List Uuid) (remaining : List Uuid) : Option (List Uuid) :=
  match remaining with
  | [] => none
  | [single] => some [single]
  | _ =>
    remaining.findSome? fun start =>
      backtrack adjacent remaining.length start remaining.length start [start]

theorem MasterState.buildReachableRingTopology_eq (master : MasterState) (group : Group) :
    master.buildReachableRingTopology group =
      searchRing (fun peer => (master.eligiblePeers group).filter fun other =>
        peer ≠ other && master.reachable peer other) (master.eligiblePeers group) := by
  unfold buildReachableRingTopology searchRing
  rfl

variable {adjacent : Uuid → List Uuid} {start current : Uuid}

theorem backtrack_complete (rest path : List Uuid) (total depth : Nat)
    (front : path.head? = some current)
    (linked : (path.reverse ++ rest ++ [start]).IsChain fun first second => second ∈ adjacent first)
    (distinct : (path.reverse ++ rest).Nodup) (whole : path.length + rest.length = total)
    (deep : rest.length ≤ depth) :
    (backtrack adjacent total start depth current path).isSome = true := by
  obtain ⟨visited, rfl⟩ := List.head?_eq_some_iff.mp front
  induction rest generalizing current visited depth with
  | nil =>
    have closes : start ∈ adjacent current := by
      rw [List.append_nil, List.reverse_cons, List.append_assoc] at linked
      have last := (List.isChain_append.mp linked).2.1
      exact (List.isChain_cons_cons.mp last).1
    unfold backtrack
    rw [if_pos (by simpa using whole), if_pos closes]
    rfl
  | cons neighbor rest ih =>
    obtain ⟨depth, rfl⟩ : ∃ smaller, depth = smaller + 1 :=
      ⟨depth - 1, by rw [List.length_cons] at deep; omega⟩
    have moved : (current :: visited).reverse ++ neighbor :: rest =
        (neighbor :: current :: visited).reverse ++ rest := by simp
    have next : neighbor ∈ adjacent current := by
      rw [List.reverse_cons, List.append_assoc, List.append_assoc] at linked
      exact (List.isChain_cons_cons.mp (List.isChain_append.mp linked).2.1).1
    have fresh : neighbor ∉ current :: visited := by
      intro known
      have apart := (List.nodup_append.mp distinct).2.2 neighbor (List.mem_reverse.mpr known) neighbor
        List.mem_cons_self
      exact apart rfl
    unfold backtrack
    rw [if_neg (by rw [← whole, List.length_cons, List.length_cons]; omega)]
    simp only
    rw [List.findSome?_isSome_iff]
    refine ⟨neighbor, next, ?_⟩
    rw [if_neg fresh]
    refine ih depth (by rw [List.length_cons] at deep; omega) (current :: visited) rfl ?_ ?_ ?_
    · rw [← moved]
      exact linked
    · rw [← moved]
      exact distinct
    · rw [← whole]
      simp only [List.length_cons]
      omega

theorem searchRing_complete {remaining ring : List Uuid} (pair : 2 ≤ remaining.length)
    (tour : Tour adjacent remaining ring) : (searchRing adjacent remaining).isSome = true := by
  unfold searchRing
  match remaining, pair with
  | first :: second :: others, _ =>
    cases ring with
    | nil => cases tour.whole
    | cons start rest =>
      simp only [List.findSome?_isSome_iff]
      refine ⟨start, tour.known List.mem_cons_self, ?_⟩
      have linked := tour.linked
      rw [Cycle.chain_coe_cons] at linked
      have whole := tour.whole
      rw [List.length_cons] at whole
      refine backtrack_complete rest [start] _ _ rfl (by simpa using linked)
        (by simpa using tour.distinct) ?_ ?_
      · rw [List.length_singleton]
        omega
      · omega

theorem searchRing_tour {remaining ring : List Uuid} (pair : 2 ≤ remaining.length)
    (within : ∀ peer ∈ remaining, adjacent peer ⊆ remaining)
    (found : searchRing adjacent remaining = some ring) : Tour adjacent remaining ring := by
  unfold searchRing at found
  match remaining, pair with
  | first :: second :: others, _ =>
    obtain ⟨start, present, rest⟩ := List.exists_of_findSome?_eq_some found
    exact tour_of_backtrack within
      ⟨rfl, rfl, .singleton start, List.nodup_singleton start, by simpa using present⟩ rest

end Search

namespace MasterState

/-- The eligible peers of a group in a cyclic order in which neighbours reach each other. A single
peer has no neighbours. -/
structure IsRing (master : MasterState) (group : Group) (ring : List Uuid) : Prop where
  distinct : ring.Nodup
  members : ∀ peer, peer ∈ ring ↔ peer ∈ master.eligiblePeers group
  linked : Cycle.Chain (fun first second => first ≠ second → master.reachable first second)
    (ring : Cycle Uuid)

end MasterState

section Decide

variable {master : MasterState} {group : Group} {remaining : List Uuid} {adjacent : Uuid → List Uuid}

theorem neighbours_differ {ring : List Uuid} (distinct : ring.Nodup) (pair : 2 ≤ ring.length) :
    Cycle.Chain (fun first second => first ≠ second) (ring : Cycle Uuid) := by
  match ring, pair with
  | first :: second :: others, _ =>
    rw [Cycle.chain_coe_cons, ← List.cons_append]
    refine List.isChain_append.mpr ⟨List.Pairwise.isChain distinct, .singleton first, ?_⟩
    intro last ends other begins same
    cases begins
    rw [List.getLast?_cons_cons] at ends
    rw [same] at ends
    exact (List.nodup_cons.mp distinct).1 (List.mem_of_getLast? ends)

theorem chain_of_chain {ring : List Uuid} {Near Linked : Uuid → Uuid → Prop} (distinct : ring.Nodup)
    (pair : 2 ≤ ring.length)
    (links : ∀ first ∈ ring, ∀ second ∈ ring, first ≠ second → Near first second →
      Linked first second)
    (chain : Cycle.Chain Near (ring : Cycle Uuid)) : Cycle.Chain Linked (ring : Cycle Uuid) := by
  have differ := neighbours_differ distinct pair
  cases ring with
  | nil => exact Cycle.Chain.nil _
  | cons start rest =>
    have inside (peer : Uuid) (present : peer ∈ start :: (rest ++ [start])) : peer ∈ start :: rest := by
      simp only [List.mem_cons, List.mem_append, List.not_mem_nil, or_false] at present ⊢
      tauto
    rw [Cycle.chain_coe_cons, List.isChain_iff_getElem] at differ chain ⊢
    intro index bound
    exact links _ (inside _ (List.getElem_mem _)) _ (inside _ (List.getElem_mem _))
      (differ index bound) (chain index bound)

section Listed

variable (distinct : remaining.Nodup)
  (listed : ∀ peer, peer ∈ remaining ↔ peer ∈ master.eligiblePeers group)
  (neighbours : ∀ peer ∈ remaining, ∀ other, other ∈ adjacent peer ↔
    other ∈ remaining ∧ peer ≠ other ∧ master.reachable peer other = true)
  (pair : 2 ≤ remaining.length)

include listed neighbours pair

include distinct in
theorem tour_of_isRing {ring : List Uuid} (isRing : master.IsRing group ring) :
    Tour adjacent remaining ring := by
  have members (peer : Uuid) : peer ∈ ring ↔ peer ∈ remaining :=
    (isRing.members peer).trans (listed peer).symm
  have same : ring.Perm remaining := (List.perm_ext_iff_of_nodup isRing.distinct distinct).mpr members
  refine ⟨isRing.distinct, same.subset, same.length_eq, ?_⟩
  refine chain_of_chain isRing.distinct (same.length_eq ▸ pair) ?_ isRing.linked
  intro first here second there apart near
  exact (neighbours first ((members first).mp here) second).mpr
    ⟨(members second).mp there, apart, near apart⟩

theorem isRing_of_tour {ring : List Uuid} (tour : Tour adjacent remaining ring) :
    master.IsRing group ring ∧
      Cycle.Chain (fun first second => master.reachable first second = true) (ring : Cycle Uuid) := by
  have same : ring.Perm remaining :=
    (tour.distinct.subperm tour.known).perm_of_length_le (le_of_eq tour.whole.symm)
  have linked : Cycle.Chain (fun first second => master.reachable first second = true)
      (ring : Cycle Uuid) := by
    refine chain_of_chain tour.distinct (tour.whole.symm ▸ pair) ?_ tour.linked
    intro first here second _ _ near
    exact ((neighbours first (tour.known here) second).mp near).2.2
  exact ⟨⟨tour.distinct, fun peer => same.mem_iff.trans (listed peer),
    linked.imp fun _ _ near _ => near⟩, linked⟩

end Listed

theorem adjacent_iff (peer other : Uuid) :
    other ∈ ((master.eligiblePeers group).filter fun other =>
      peer ≠ other && master.reachable peer other) ↔
    other ∈ master.eligiblePeers group ∧ peer ≠ other ∧ master.reachable peer other = true := by
  simp

theorem searchRing_none (distinct : remaining.Nodup)
    (listed : ∀ peer, peer ∈ remaining ↔ peer ∈ master.eligiblePeers group)
    (neighbours : ∀ peer ∈ remaining, ∀ other, other ∈ adjacent peer ↔
      other ∈ remaining ∧ peer ≠ other ∧ master.reachable peer other = true)
    (pair : 2 ≤ remaining.length) (nothing : searchRing adjacent remaining = none) :
    ¬ ∃ ring, master.IsRing group ring := by
  rintro ⟨ring, isRing⟩
  have found := searchRing_complete pair (tour_of_isRing distinct listed neighbours pair isRing)
  rw [nothing] at found
  cases found

theorem buildReachableRingTopology_decides (master : MasterState) (group : Group)
    (remaining : List Uuid) (adjacent : Uuid → List Uuid) (distinct : remaining.Nodup)
    (listed : ∀ peer, peer ∈ remaining ↔ peer ∈ master.eligiblePeers group)
    (neighbours : ∀ peer ∈ remaining, ∀ other, other ∈ adjacent peer ↔
      other ∈ remaining ∧ peer ≠ other ∧ master.reachable peer other = true) :
    (2 ≤ remaining.length →
      (∀ ring, searchRing adjacent remaining = some ring → master.IsRing group ring ∧
        Cycle.Chain (fun first second => master.reachable first second = true) (ring : Cycle Uuid)) ∧
      (searchRing adjacent remaining = none → ¬ ∃ ring, master.IsRing group ring)) ∧
    (∀ peer, remaining = [peer] → searchRing adjacent remaining = some [peer]) ∧
    (remaining = [] → searchRing adjacent remaining = none) := by
  refine ⟨fun pair => ⟨?_, searchRing_none distinct listed neighbours pair⟩, ?_, ?_⟩
  · intro ring found
    have within (peer : Uuid) (here : peer ∈ remaining) : adjacent peer ⊆ remaining :=
      fun other near => ((neighbours peer here other).mp near).1
    exact isRing_of_tour listed neighbours pair (searchRing_tour pair within found)
  · rintro peer rfl
    rfl
  · rintro rfl
    rfl

end Decide

theorem buildReachableRingTopology_decides_pair :
    ∃ master, run Sample.environment Sample.pair = .ok master ∧
      ∀ ring, searchRing (fun peer => if peer = 0 then [1] else [0]) [0, 1] = some ring →
        master.IsRing 0 ring := by
  have passes : (run Sample.environment Sample.pair).passes (fun master =>
      master.eligiblePeers 0 = [1, 0] && master.reachable 0 1 && master.reachable 1 0) = true := by cbv
  obtain ⟨master, reached, checks⟩ := Server.exists_of_passes passes
  simp only [Bool.and_eq_true, decide_eq_true_eq] at checks
  obtain ⟨⟨eligible, forth⟩, back⟩ := checks
  have decides := buildReachableRingTopology_decides master 0 [0, 1]
    (fun peer => if peer = 0 then [1] else [0]) (by decide)
    (by
      rw [eligible]
      exact fun _ => (List.Perm.swap 1 0 []).mem_iff)
    (by
      intro peer here other
      rcases List.mem_pair.mp here with rfl | rfl
      · constructor
        · intro near
          obtain rfl : other = 1 := by simpa using near
          exact ⟨by decide, by decide, forth⟩
        · rintro ⟨present, apart, _⟩
          rcases List.mem_pair.mp present with rfl | rfl
          · exact absurd rfl apart
          · decide
      · constructor
        · intro near
          obtain rfl : other = 0 := by simpa using near
          exact ⟨by decide, by decide, back⟩
        · rintro ⟨present, apart, _⟩
          rcases List.mem_pair.mp present with rfl | rfl
          · decide
          · exact absurd rfl apart)
  exact ⟨master, reached, fun ring found => ((decides.1 (by decide)).1 ring found).1⟩

section Kicks

namespace MasterState

variable (master : MasterState) (uuid : Uuid) (group : Group)

/-- The test that kicks a client without a search compares its unreachable peers, which may have left
or belong to other groups, with the number of all clients. It is right if it does not apply, or if
the client can reach none of the others it would share a ring with. -/
def CountsRightly : Prop :=
  (master.topology.unreachabilityMap uuid).card ≠ master.clients.clientInfo.size ∨
    (∃ other ∈ master.eligiblePeers group, other ≠ uuid) ∧
      ∀ other ∈ master.eligiblePeers group, other ≠ uuid →
        other ∈ master.topology.unreachabilityMap uuid

variable {master uuid group}

theorem mem_eligiblePeers {environment : Environment}
    (registry : Core.Registry environment master.core) {info : ClientInfo}
    (found : master.getClientInfo uuid = some info)
    (connecting : info.connectionState = .connectingToPeers) :
    uuid ∈ master.eligiblePeers info.peerGroup := by
  refine List.mem_filter.mpr ⟨(mem_getClientEntrySet registry uuid).mpr ⟨info, found⟩, ?_⟩
  simp [found, connecting]

theorem eligiblePeers_nodup {environment : Environment}
    (registry : Core.Registry environment master.core) : (master.eligiblePeers group).Nodup :=
  (getClientEntrySet_nodup registry).filter _

theorem no_ring_of_not_built (distinct : (master.eligiblePeers group).Nodup)
    (some : master.eligiblePeers group ≠ []) (nothing : master.buildReachableRingTopology group = none) :
    ¬ ∃ ring, master.IsRing group ring := by
  rw [buildReachableRingTopology_eq] at nothing
  by_cases pair : 2 ≤ (master.eligiblePeers group).length
  · exact searchRing_none distinct (fun _ => Iff.rfl) (fun peer _ => adjacent_iff peer) pair nothing
  · have positive := List.length_pos_of_ne_nil some
    obtain ⟨peer, alone⟩ :=
      List.length_eq_one_iff.mp (show (master.eligiblePeers group).length = 1 by omega)
    rw [alone] at nothing
    cases nothing

theorem no_ring_of_cut_off (eligible : uuid ∈ master.eligiblePeers group)
    (others : ∃ other ∈ master.eligiblePeers group, other ≠ uuid)
    (cut : ∀ other ∈ master.eligiblePeers group, other ≠ uuid →
      other ∈ master.topology.unreachabilityMap uuid) :
    ¬ ∃ ring, master.IsRing group ring := by
  rintro ⟨ring, isRing⟩
  -- Rotated to begin with the peer, the ring goes on to one that it does not reach.
  obtain ⟨other, known, apart⟩ := others
  have here := (isRing.members uuid).mpr eligible
  have there := (isRing.members other).mpr known
  obtain ⟨before, after, rfl⟩ := List.append_of_mem here
  have turned : ((before ++ uuid :: after : List Uuid) : Cycle Uuid) =
      (uuid :: (after ++ before) : List Uuid) := by
    rw [Cycle.coe_eq_coe]
    exact ⟨before.length, by simp⟩
  have linked := isRing.linked
  have distinct := isRing.distinct
  rw [turned, Cycle.chain_coe_cons] at linked
  cases rest : after ++ before with
  | nil =>
    obtain ⟨rfl, rfl⟩ := List.append_eq_nil_iff.mp rest
    exact apart (by simpa using there)
  | cons second others =>
    rw [rest, List.cons_append] at linked
    have near := (List.isChain_cons_cons.mp linked).1
    have member : second ∈ after ++ before := rest ▸ List.mem_cons_self
    have differ : uuid ≠ second := by
      rintro rfl
      have perm : (before ++ uuid :: after).Perm (uuid :: (after ++ before)) := by
        rw [← List.cons_append]
        exact List.perm_append_comm
      exact (List.nodup_cons.mp (perm.nodup_iff.mp distinct)).1 member
    have present : second ∈ master.eligiblePeers group := by
      rw [← isRing.members]
      simp only [List.mem_append, List.mem_cons] at member ⊢
      tauto
    have blocked := cut second present (Ne.symm differ)
    have reaches := near differ
    simp only [reachable, Bool.and_eq_true, decide_eq_true_eq] at reaches
    exact reaches.1 blocked

end MasterState

theorem kicked_only_without_ring (environment : Environment) (events : List Event)
    (master : MasterState) (reached : run environment events = .ok master) (uuid : Uuid)
    (info : ClientInfo) (failedPeers : List Uuid) (found : master.getClientInfo uuid = some info)
    (connecting : info.connectionState = .connectingToPeers)
    (rightly : (master.recordFailedPeers uuid failedPeers).CountsRightly uuid info.peerGroup)
    (next : MasterState)
    (kicked : markP2PConnectionsEstablished uuid false failedPeers master = .ok (false, next)) :
    next.topology.unreachabilityMap =
        (master.recordFailedPeers uuid failedPeers).topology.unreachabilityMap ∧
      ¬ ∃ ring, next.IsRing info.peerGroup ring := by
  have valid := @run_valid environment events
  rw [reached] at valid
  cases valid with
  | serves valid =>
  have registry : Core.Registry environment (master.recordFailedPeers uuid failedPeers).core :=
    valid.registry
  rw [markP2PConnectionsEstablished_failure failedPeers found connecting] at kicked
  have eligible : uuid ∈ (master.recordFailedPeers uuid failedPeers).eligiblePeers info.peerGroup :=
    MasterState.mem_eligiblePeers registry found connecting
  generalize master.recordFailedPeers uuid failedPeers = recorded at *
  cases rerouted : recorded.reroute uuid info with
  | some ring =>
    rw [rerouted] at kicked
    dsimp only at kicked
    cases set : recorded.setRingTopology info.peerGroup ring false with
    | none =>
      rw [set] at kicked
      cases kicked
    | some set =>
      simp_all
  | none =>
    rw [rerouted] at kicked
    cases kicked
    refine ⟨rfl, ?_⟩
    by_cases counted : (next.topology.unreachabilityMap uuid).card = next.clients.clientInfo.size
    · obtain ⟨others, cut⟩ := rightly.resolve_left fun differs => differs counted
      exact MasterState.no_ring_of_cut_off eligible others cut
    · rw [MasterState.reroute, if_neg counted] at rerouted
      exact MasterState.no_ring_of_not_built (MasterState.eligiblePeers_nodup registry)
        (List.ne_nil_of_mem eligible) rerouted

namespace Sample

def staleFailures : List Event :=
  [join 0 0, report 0 true, join 1 0, join 2 0, join 3 0, join 4 0, establish 0 true,
    .read (address 0) (.p2pConnectionsEstablished false [1, 2]),
    report 1 true, report 2 true, report 3 true, report 4 true,
    leave 1, leave 2, leave 3, establish 0 false, establish 4 false]

end Sample

open Sample

theorem kicked_only_without_ring_pair :
    ∃ master info next, run environment (pair ++
        [establish 0 false, establish 1 false]) = .ok master ∧
      master.getClientInfo 0 = some info ∧ info.connectionState = .connectingToPeers ∧
      markP2PConnectionsEstablished 0 false [1] master = .ok (false, next) ∧
      ¬ ∃ ring, next.IsRing info.peerGroup ring := by
  have passes : (run environment (pair ++
      [establish 0 false, establish 1 false])).passes (fun master =>
        (master.getClientInfo 0).any (fun info => info.connectionState = .connectingToPeers) &&
        ((master.recordFailedPeers 0 [1]).topology.unreachabilityMap 0).card ≠
          (master.recordFailedPeers 0 [1]).clients.clientInfo.size &&
        match markP2PConnectionsEstablished 0 false [1] master with
        | .ok (counted, _) => !counted
        | .error _ => false) = true := by cbv
  obtain ⟨master, reached, checks⟩ := Server.exists_of_passes passes
  simp only [Bool.and_eq_true, decide_eq_true_eq] at checks
  obtain ⟨⟨here, counts⟩, refuses⟩ := checks
  obtain ⟨info, found, state⟩ := (Option.any_eq_true _ _).mp here
  have connecting := of_decide_eq_true state
  split at refuses
  · next counted next kicks =>
    obtain rfl : counted = false := by simpa using refuses
    exact ⟨master, info, next, reached, found, connecting, kicks,
      (kicked_only_without_ring environment _ master reached 0 info [1] found connecting
        (.inl counts) next kicks).2⟩
  · cases refuses

theorem kicked_although_ring_exists :
    ∃ master info next, run environment staleFailures = .ok master ∧
      master.getClientInfo 0 = some info ∧ info.connectionState = .connectingToPeers ∧
      markP2PConnectionsEstablished 0 false [] master = .ok (false, next) ∧
      next.IsRing info.peerGroup [0, 4] := by
  have passes : (run environment staleFailures).passes (fun master =>
      (master.getClientInfo 0).any (fun info => info.connectionState = .connectingToPeers &&
        info.peerGroup = 0) &&
      match markP2PConnectionsEstablished 0 false [] master with
      | .ok (counted, next) => !counted && next.eligiblePeers 0 = [4, 0] && next.reachable 0 4 &&
          next.reachable 4 0
      | .error _ => false) = true := by cbv
  obtain ⟨master, reached, checks⟩ := Server.exists_of_passes passes
  obtain ⟨here, refuses⟩ := (Bool.and_eq_true _ _).mp checks
  obtain ⟨info, found, state⟩ := (Option.any_eq_true _ _).mp here
  simp only [Bool.and_eq_true, decide_eq_true_eq] at state
  split at refuses
  · next counted next kicks =>
    simp only [Bool.and_eq_true, Bool.not_eq_true', decide_eq_true_eq] at refuses
    obtain ⟨⟨⟨rfl, eligible⟩, forth⟩, back⟩ := refuses
    refine ⟨master, info, next, reached, found, state.1, kicks, by decide, ?_, ?_⟩
    · rw [state.2, eligible]
      exact fun _ => (List.Perm.swap 4 0 []).mem_iff
    · simp [forth, back]
  · cases refuses

end Kicks

end Pccl.Master
