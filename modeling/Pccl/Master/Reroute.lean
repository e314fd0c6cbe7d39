import Pccl.Master.Runs

set_option autoImplicit false

namespace Pccl.Master

open Packet Program

section Backtracking

variable {adjacent : Uuid → List Uuid} {peers : List Uuid} {start current : Uuid} {path : List Uuid}

/-- A way from the start to the current peer, which stands in front. -/
structure Walk (adjacent : Uuid → List Uuid) (peers : List Uuid) (start current : Uuid)
    (path : List Uuid) : Prop where
  front : path.head? = some current
  back : path.getLast? = some start
  linked : path.IsChain fun later earlier => later ∈ adjacent earlier
  distinct : path.Nodup
  known : path ⊆ peers

/-- A ring over all peers, each next to one that it can reach. -/
structure Tour (adjacent : Uuid → List Uuid) (peers ring : List Uuid) : Prop where
  distinct : ring.Nodup
  known : ring ⊆ peers
  whole : ring.length = peers.length
  linked : Cycle.Chain (fun first second => second ∈ adjacent first) (ring : Cycle Uuid)

theorem Walk.extend (walk : Walk adjacent peers start current path) {neighbor : Uuid}
    (next : neighbor ∈ adjacent current) (fresh : neighbor ∉ path) (known : neighbor ∈ peers) :
    Walk adjacent peers start neighbor (neighbor :: path) := by
  obtain ⟨rest, rfl⟩ := List.head?_eq_some_iff.mp walk.front
  refine ⟨rfl, ?_, List.isChain_cons_cons.mpr ⟨next, walk.linked⟩,
    List.nodup_cons.mpr ⟨fresh, walk.distinct⟩, List.cons_subset.mpr ⟨known, walk.known⟩⟩
  rw [List.getLast?_cons_cons]
  exact walk.back

theorem Walk.close (walk : Walk adjacent peers start current path) (whole : path.length = peers.length)
    (closes : start ∈ adjacent current) : Tour adjacent peers path.reverse where
  distinct := List.nodup_reverse.mpr walk.distinct
  known peer present := walk.known (List.mem_reverse.mp present)
  whole := by rw [List.length_reverse, whole]
  linked := by
    obtain ⟨rest, turned⟩ : ∃ rest, path.reverse = start :: rest := by
      rw [← List.head?_eq_some_iff, List.head?_reverse]
      exact walk.back
    rw [turned, Cycle.chain_coe_cons, ← List.cons_append, ← turned]
    refine List.isChain_append.mpr ⟨List.isChain_reverse.mpr walk.linked, .singleton start, ?_⟩
    intro last ends first begins
    rw [List.getLast?_reverse, walk.front] at ends
    cases ends
    cases begins
    exact closes

theorem tour_of_backtrack (within : ∀ peer ∈ peers, adjacent peer ⊆ peers) {depth : Nat} {ring : List Uuid}
    (walk : Walk adjacent peers start current path)
    (found : backtrack adjacent peers.length start depth current path = some ring) :
    Tour adjacent peers ring := by
  induction depth generalizing current path with
  | zero =>
    unfold backtrack at found
    split at found
    · next whole =>
      split at found
      · next closes =>
        cases found
        exact walk.close whole closes
      · cases found
    · cases found
  | succ depth ih =>
    unfold backtrack at found
    split at found
    · next whole =>
      split at found
      · next closes =>
        cases found
        exact walk.close whole closes
      · cases found
    · obtain ⟨neighbor, next, rest⟩ := List.exists_of_findSome?_eq_some found
      split at rest
      · cases rest
      · next fresh =>
        have here : current ∈ peers := walk.known (List.mem_of_head? walk.front)
        exact ih (walk.extend next fresh (within current here next)) rest

end Backtracking

namespace MasterState

variable (master : MasterState)

def RingReachable (group : Group) : Prop :=
  Cycle.Chain (fun first second => first ≠ second → master.reachable first second)
    (master.topology.ringTopologies group : Cycle Uuid)

/-- The ring is taken for optimal and has as many peers as there are, all of them eligible. -/
def holdsOptimal (group : Group) : Bool :=
  master.topology.topologyIsOptimal group &&
    (master.eligiblePeers group).length = (master.topology.ringTopologies group).length &&
    (master.topology.ringTopologies group).all fun peer => peer ∈ master.eligiblePeers group

variable {master}

theorem buildReachableRingTopology_spec {group : Group} {ring : List Uuid}
    (built : master.buildReachableRingTopology group = some ring) :
    (master.eligiblePeers group).Perm ring ∧
      Cycle.Chain (fun first second => first ≠ second → master.reachable first second)
        (ring : Cycle Uuid) := by
  unfold buildReachableRingTopology at built
  generalize master.eligiblePeers group = peers at built ⊢
  dsimp only at built
  split at built
  · cases built
  · cases built
    exact ⟨.refl _, by simp⟩
  · obtain ⟨start, present, found⟩ := List.exists_of_findSome?_eq_some built
    have tour := @tour_of_backtrack _ peers start start [start]
      (fun peer _ _ present => List.mem_of_mem_filter present) _ ring
      ⟨rfl, rfl, .singleton start, List.nodup_singleton start, by simpa using present⟩ found
    refine ⟨?_, tour.linked.imp fun first second linked _ => ?_⟩
    · exact ((tour.distinct.subperm tour.known).perm_of_length_le (le_of_eq tour.whole.symm)).symm
    · exact ((Bool.and_eq_true _ _).mp (List.mem_filter.mp linked).2).2

theorem staysOptimal_eq {group : Group} {ring : List Uuid}
    (same : (master.eligiblePeers group).Perm ring) :
    master.staysOptimal group ring = master.holdsOptimal group := by
  simp only [staysOptimal, holdsOptimal, same.length_eq]
  congr 2
  funext peer
  rw [List.contains_eq_mem, decide_eq_decide]
  exact same.mem_iff.symm

end MasterState

theorem markP2PConnectionsEstablished_failure {master : MasterState} {uuid : Uuid} {info : ClientInfo}
    (failedPeers : List Uuid) (found : master.getClientInfo uuid = some info)
    (connecting : info.connectionState = .connectingToPeers) :
    markP2PConnectionsEstablished uuid false failedPeers master =
      match (master.recordFailedPeers uuid failedPeers).reroute uuid info with
      | none => .ok (false, master.recordFailedPeers uuid failedPeers)
      | some ring =>
        match (master.recordFailedPeers uuid failedPeers).setRingTopology info.peerGroup ring false with
        | none => .error ⟨.ringAfterFailure, master.recordFailedPeers uuid failedPeers⟩
        | some next => .ok (true, next.adjustInfo uuid (ClientInfo.enter .connectingToPeersFailed)) := by
  simp only [markP2PConnectionsEstablished, bind, StateT.bind, get, getThe, MonadStateOf.get,
    StateT.get, pure, Except.pure, Except.bind, found, connecting, ne_eq, not_true_eq_false, if_false,
    Bool.false_eq_true]
  cases (master.recordFailedPeers uuid failedPeers).reroute uuid info with
  | none => rfl
  | some ring =>
    dsimp only
    cases (master.recordFailedPeers uuid failedPeers).setRingTopology info.peerGroup ring false <;> rfl

theorem failure_reroutes_iff (master : MasterState) (uuid : Uuid) (info : ClientInfo)
    (failedPeers : List Uuid) (found : master.getClientInfo uuid = some info)
    (connecting : info.connectionState = .connectingToPeers)
    (counted : ∀ next, markP2PConnectionsEstablished uuid false failedPeers master ≠ .ok (false, next)) :
    (∃ next, markP2PConnectionsEstablished uuid false failedPeers master = .ok (true, next) ∧
        next.RingReachable info.peerGroup) ↔
      master.holdsOptimal info.peerGroup = false := by
  generalize recorded : master.recordFailedPeers uuid failedPeers = middle at *
  -- What is recorded says nothing about who is eligible or which ring there is.
  have kept : middle.holdsOptimal info.peerGroup = master.holdsOptimal info.peerGroup := by
    rw [← recorded]
    rfl
  have marks := markP2PConnectionsEstablished_failure failedPeers found connecting
  rw [recorded] at marks
  rw [marks] at counted ⊢
  cases rerouted : middle.reroute uuid info with
  | none =>
    rw [rerouted] at counted
    exact absurd rfl (counted middle)
  | some ring =>
    have built : middle.buildReachableRingTopology info.peerGroup = some ring := by
      unfold MasterState.reroute at rerouted
      split at rerouted
      · cases rerouted
      · exact rerouted
    obtain ⟨same, linked⟩ := MasterState.buildReachableRingTopology_spec built
    dsimp only
    rw [MasterState.setRingTopology, MasterState.staysOptimal_eq same, kept]
    cases master.holdsOptimal info.peerGroup with
    | true => simp
    | false =>
      simp only [Bool.false_eq_true, if_false, iff_true]
      refine ⟨_, rfl, ?_⟩
      change Cycle.Chain _ ((Function.update middle.topology.ringTopologies info.peerGroup ring
        info.peerGroup : List Uuid) : Cycle Uuid)
      rw [Function.update_self]
      exact linked

open Sample

/-- Three clients join the first one, and the four are about to connect to each other. -/
def Sample.quartet : List Event := [join 0 0, report 0 true, join 1 0, join 2 0, join 3 0, establish 0 true]

theorem failure_reroutes_quartet :
    ∃ master info, run environment quartet = .ok master ∧
      master.getClientInfo 0 = some info ∧ info.connectionState = .connectingToPeers ∧
      (∀ next, markP2PConnectionsEstablished 0 false [1] master ≠ .ok (false, next)) ∧
      master.holdsOptimal info.peerGroup = false ∧ master.topology.ringTopologies 0 = [0, 1, 2, 3] ∧
      ∃ next, markP2PConnectionsEstablished 0 false [1] master = .ok (true, next) ∧
        next.RingReachable info.peerGroup ∧ next.topology.ringTopologies 0 = [3, 1, 2, 0] := by
  have passes : (run environment quartet).passes (fun master =>
        ((master.getClientInfo 0).any (fun info => info.connectionState = .connectingToPeers &&
          !master.holdsOptimal info.peerGroup) && master.topology.ringTopologies 0 = [0, 1, 2, 3]) &&
        match markP2PConnectionsEstablished 0 false [1] master with
        | .ok (counted, next) => counted && next.topology.ringTopologies 0 = [3, 1, 2, 0]
        | .error _ => false) = true := by cbv
  obtain ⟨master, reached, checks⟩ := Server.exists_of_passes passes
  simp only [Bool.and_eq_true, decide_eq_true_eq] at checks
  obtain ⟨⟨here, ring⟩, counts⟩ := checks
  obtain ⟨info, found, state⟩ := (Option.any_eq_true _ _).mp here
  simp only [Bool.and_eq_true, decide_eq_true_eq, Bool.not_eq_true'] at state
  have counted (next : MasterState) :
      markP2PConnectionsEstablished 0 false [1] master ≠ .ok (false, next) := by
    intro refused
    rw [refused] at counts
    cases counts
  obtain ⟨next, marks, linked⟩ :=
    (failure_reroutes_iff master 0 info [1] found state.1 counted).mpr state.2
  rw [marks] at counts
  simp only [Bool.true_and, decide_eq_true_eq] at counts
  exact ⟨master, info, reached, found, state.1, counted, state.2, ring, next, marks, linked, counts⟩

theorem optimal_ring_blocks_rerouting :
    ∃ master info exit, run environment (pair ++
        [.read (address 0) .optimizeTopology, .read (address 1) .optimizeTopology,
          .read (address 0) (.reportPeerBandwidth 1 1),
          .read (address 1) (.reportPeerBandwidth 0 1),
          .read (address 0) .optimizeTopologyWorkComplete,
          .read (address 1) .optimizeTopologyWorkComplete,
          establish 0 false, establish 1 false]) = .ok master ∧
      master.getClientInfo 0 = some info ∧ info.connectionState = .connectingToPeers ∧
      markP2PConnectionsEstablished 0 false [] master = .error exit ∧ exit.bug = .ringAfterFailure := by
  have passes : (run environment (pair ++
      [.read (address 0) .optimizeTopology, .read (address 1) .optimizeTopology,
        .read (address 0) (.reportPeerBandwidth 1 1),
        .read (address 1) (.reportPeerBandwidth 0 1),
        .read (address 0) .optimizeTopologyWorkComplete,
        .read (address 1) .optimizeTopologyWorkComplete,
        establish 0 false, establish 1 false])).passes (fun master =>
        (master.getClientInfo 0).any (fun info => info.connectionState = .connectingToPeers) &&
        match markP2PConnectionsEstablished 0 false [] master with
        | .ok _ => false
        | .error exit => exit.bug = .ringAfterFailure) = true := by cbv
  obtain ⟨master, reached, checks⟩ := Server.exists_of_passes passes
  obtain ⟨here, ends⟩ := (Bool.and_eq_true _ _).mp checks
  obtain ⟨info, found, connecting⟩ := (Option.any_eq_true _ _).mp here
  split at ends
  · cases ends
  · next exit stopped =>
    exact ⟨master, info, exit, reached, found, of_decide_eq_true connecting, stopped,
      of_decide_eq_true ends⟩

end Pccl.Master
