import Pccl.Master.Bandwidths
import Pccl.Shared.Interner

set_option autoImplicit false

namespace Pccl.Master

open Packet Interner

structure TspInputGraphEdge (Cost : Type) where
  cost : Cost
  source : Nat
  destination : Nat

structure InputGraph (Cost : Type) where
  edges : List (TspInputGraphEdge Cost)
  peerToId : Table Uuid Nat

/-- libtsp, and what a bandwidth costs as it sees it. -/
structure TspSolver (Cost : Type) where
  cost : Bandwidth → Cost
  asymmetricSolve : List (TspInputGraphEdge Cost) → Option (List Nat × SolutionType)
  asymmetricImproveSolution :
    List (TspInputGraphEdge Cost) → List Nat → Option (List Nat × SolutionType)

section Model

variable {Cost : Type}

def InputGraph.empty : InputGraph Cost := ⟨[], ∅⟩

def InputGraph.addEdge (cost : Cost) (source destination : Uuid) (graph : InputGraph Cost) :
    InputGraph Cost :=
  let peerToId := assign (assign graph.peerToId source) destination
  { edges := graph.edges ++
      [⟨cost, (peerToId.lookup source).getD 0, (peerToId.lookup destination).getD 0⟩]
    peerToId }

def InputGraph.visit (cost : Bandwidth → Cost) (store : BandwidthStore) (source destination : Uuid)
    (graph : InputGraph Cost) : InputGraph Cost :=
  -- A pair without a bandwidth is left out.
  if source = destination then graph
  else
    match store.getBandwidthMbps source destination with
    | none => graph
    | some bandwidth => graph.addEdge (cost bandwidth) source destination

def inputGraph (cost : Bandwidth → Cost) (store : BandwidthStore) (ring : List Uuid) :
    InputGraph Cost :=
  ring.foldl
    (fun graph source =>
      ring.foldl (fun graph destination => graph.visit cost store source destination) graph)
    .empty

def readTour (ids : Table Uuid Nat) (tour : List Nat) : List Uuid :=
  -- A number that no peer has reads as the uuid of zeros.
  tour.map fun id => ((inverse ids).lookup id).getD 0

def initialTour (ids : Table Uuid Nat) (ring : List Uuid) : List Nat :=
  -- A peer without a number gets the number zero.
  ring.map fun peer => (ids.lookup peer).getD 0

variable (solver : TspSolver Cost) (store : BandwidthStore) (ring : List Uuid)

def TspSolver.answer (moonshot : Bool) : Option (List Uuid × SolutionType) :=
  -- The ring that the solver finds, or that it makes of the present one; `none` if it fails,
  -- which ends the process.
  let graph := inputGraph solver.cost store ring
  (if moonshot then
    solver.asymmetricImproveSolution graph.edges (initialTour graph.peerToId ring)
  else solver.asymmetricSolve graph.edges).map fun (tour, kind) => (readTour graph.peerToId tour, kind)

def optimizeTopology (topologyIsOptimal : Bool) : Option (List Uuid × Bool) :=
  if ring.length = 1 then some (ring, topologyIsOptimal)
  else (solver.answer store ring false).map fun (next, kind) => (next, kind = .optimal)

def improveTopologyMoonshot (topologyIsOptimal topologyHasImproved : Bool) :
    Option (List Uuid × Bool × Bool) :=
  if ring.length = 1 then some (ring, topologyIsOptimal, topologyHasImproved)
  else
    (solver.answer store ring true).map fun (next, kind) =>
      (next, kind = .optimal, kind = .improved || kind = .optimal)

theorem solveRing_optimizes (environment : Environment) (call : Nat) (moonshot : Bool)
    (answers : environment.solve call store ring = solver.answer store ring moonshot) :
    ((solveRing environment moonshot call store ring).map fun (next, kind) =>
        (next, decide (kind = .optimal), hasImproved moonshot kind)) =
      if moonshot then improveTopologyMoonshot solver store ring false false
      else (optimizeTopology solver store ring false).map fun (next, optimal) => (next, optimal, true) := by
  unfold solveRing improveTopologyMoonshot optimizeTopology
  rw [answers]
  cases moonshot <;> by_cases single : ring.length = 1 <;>
    simp [single, hasImproved, Function.comp_def]

end Model

section Graph

variable {Cost : Type} {cost : Bandwidth → Cost} {store : BandwidthStore}

def measured (store : BandwidthStore) (link : Uuid × Uuid) : Bool :=
  link.1 ≠ link.2 && (store.getBandwidthMbps link.1 link.2).isSome

def measuredLinks (store : BandwidthStore) (ring : List Uuid) : List (Uuid × Uuid) :=
  (ring.flatMap fun source => ring.map fun destination => (source, destination)).filter
    (measured store)

theorem mem_measuredLinks {ring : List Uuid} {source destination : Uuid} :
    (source, destination) ∈ measuredLinks store ring ↔
      source ∈ ring ∧ destination ∈ ring ∧ source ≠ destination ∧
        (store.getBandwidthMbps source destination).isSome := by
  simp [measuredLinks, measured]
  tauto

structure InputGraph.Records (links : List (Uuid × Uuid)) (graph : InputGraph Cost) : Prop where
  dense : Dense graph.peerToId
  known : ∀ peer, peer ∈ graph.peerToId ↔ ∃ link ∈ links, peer = link.1 ∨ peer = link.2
  edges : (graph.edges.map fun edge => (some edge.source, some edge.destination)) =
    links.map fun link => (graph.peerToId.lookup link.1, graph.peerToId.lookup link.2)

theorem InputGraph.Records.lookup_isSome {links : List (Uuid × Uuid)} {graph : InputGraph Cost}
    (records : graph.Records links) {link : Uuid × Uuid} (present : link ∈ links) :
    ∃ source destination, graph.peerToId.lookup link.1 = some source ∧
      graph.peerToId.lookup link.2 = some destination := by
  have first : link.1 ∈ graph.peerToId := (records.known _).mpr ⟨link, present, Or.inl rfl⟩
  have second : link.2 ∈ graph.peerToId := (records.known _).mpr ⟨link, present, Or.inr rfl⟩
  obtain ⟨source, found⟩ := Option.isSome_iff_exists.mp (AList.lookup_isSome.mpr first)
  obtain ⟨destination, foundToo⟩ := Option.isSome_iff_exists.mp (AList.lookup_isSome.mpr second)
  exact ⟨source, destination, found, foundToo⟩

theorem InputGraph.Records.addEdge {links : List (Uuid × Uuid)} {graph : InputGraph Cost}
    (records : graph.Records links) (value : Cost) (source destination : Uuid) :
    (graph.addEdge value source destination).Records (links ++ [(source, destination)]) := by
  have ids : (graph.addEdge value source destination).peerToId =
      assignAll [source, destination] graph.peerToId := rfl
  have known (peer : Uuid) : peer ∈ (graph.addEdge value source destination).peerToId ↔
      ∃ link ∈ links ++ [(source, destination)], peer = link.1 ∨ peer = link.2 := by
    rw [ids, mem_assignAll, records.known]
    simp [or_comm]
  have own {peer : Uuid} (mine : peer = source ∨ peer = destination) :
      ∃ id, (graph.addEdge value source destination).peerToId.lookup peer = some id := by
    refine Option.isSome_iff_exists.mp (AList.lookup_isSome.mpr ((known peer).mpr ?_))
    exact ⟨(source, destination), by simp, mine⟩
  refine ⟨ids ▸ records.dense.assignAll _, known, ?_⟩
  obtain ⟨first, found⟩ := own (Or.inl rfl)
  obtain ⟨second, foundToo⟩ := own (Or.inr rfl)
  have last : (graph.addEdge value source destination).edges = graph.edges ++
      [⟨value, ((graph.addEdge value source destination).peerToId.lookup source).getD 0,
        ((graph.addEdge value source destination).peerToId.lookup destination).getD 0⟩] := rfl
  rw [last, List.map_append, List.map_append, records.edges, List.map_singleton, List.map_singleton,
    found, foundToo]
  congr 1
  refine List.map_congr_left fun link present => ?_
  obtain ⟨one, two, here, there⟩ := records.lookup_isSome present
  rw [ids, here, there, lookup_assignAll_of_some _ here, lookup_assignAll_of_some _ there]

theorem InputGraph.Records.visit {links : List (Uuid × Uuid)} {graph : InputGraph Cost}
    (records : graph.Records links) (source destination : Uuid) :
    (graph.visit cost store source destination).Records
      (links ++ [(source, destination)].filter (measured store)) := by
  unfold InputGraph.visit
  split
  next same => simpa [measured, same] using records
  next apart =>
    split
    next missing => simpa [measured, missing] using records
    next bandwidth found => simpa [measured, apart, found] using records.addEdge _ source destination

theorem inputGraph_records (ring : List Uuid) :
    (inputGraph cost store ring).Records (measuredLinks store ring) := by
  have inner (source : Uuid) (destinations : List Uuid) (links : List (Uuid × Uuid))
      (graph : InputGraph Cost) (records : graph.Records links) :
      (destinations.foldl (fun graph destination => graph.visit cost store source destination)
        graph).Records
        (links ++ (destinations.map fun destination => (source, destination)).filter
          (measured store)) := by
    induction destinations generalizing links graph with
    | nil => simpa using records
    | cons destination destinations ih =>
      have next := ih _ _ (@InputGraph.Records.visit _ cost store _ _ records source destination)
      rw [List.append_assoc, ← List.filter_append] at next
      exact next
  have outer (sources : List Uuid) (links : List (Uuid × Uuid)) (graph : InputGraph Cost)
      (records : graph.Records links) :
      (sources.foldl (fun graph source =>
        ring.foldl (fun graph destination => graph.visit cost store source destination) graph)
        graph).Records
        (links ++ (sources.flatMap fun source =>
          ring.map fun destination => (source, destination)).filter (measured store)) := by
    induction sources generalizing links graph with
    | nil => simpa using records
    | cons source sources ih =>
      have next := ih _ _ (inner source ring links graph records)
      rw [List.append_assoc, ← List.filter_append] at next
      exact next
  refine outer ring [] .empty ⟨.empty, fun peer => ?_, rfl⟩
  simp [InputGraph.empty]

end Graph

section Edges

variable {Cost : Type} (cost : Bandwidth → Cost) {store : BandwidthStore} {ring : List Uuid}

def InputGraph.HasEdge (graph : InputGraph Cost) (source destination : Uuid) : Prop :=
  ∃ edge ∈ graph.edges, graph.peerToId.lookup source = some edge.source ∧
    graph.peerToId.lookup destination = some edge.destination

theorem hasEdge_iff {source destination : Uuid} :
    (inputGraph cost store ring).HasEdge source destination ↔
      (source, destination) ∈ measuredLinks store ring := by
  have records := @inputGraph_records _ cost store ring
  constructor
  · rintro ⟨edge, present, here, there⟩
    have image : (some edge.source, some edge.destination) ∈
        (measuredLinks store ring).map fun link =>
          ((inputGraph cost store ring).peerToId.lookup link.1,
            (inputGraph cost store ring).peerToId.lookup link.2) := by
      rw [← records.edges]
      exact List.mem_map_of_mem present
    obtain ⟨link, known, same⟩ := List.mem_map.mp image
    obtain ⟨first, second⟩ := Prod.mk.inj same
    have one := records.dense.unique link.1 source _ first here
    have two := records.dense.unique link.2 destination _ second there
    rw [← one, ← two]
    exact known
  · intro known
    have image : ((inputGraph cost store ring).peerToId.lookup source,
        (inputGraph cost store ring).peerToId.lookup destination) ∈
        (inputGraph cost store ring).edges.map fun edge =>
          (some edge.source, some edge.destination) := by
      rw [records.edges]
      exact List.mem_map_of_mem (f := fun link : Uuid × Uuid =>
        ((inputGraph cost store ring).peerToId.lookup link.1,
          (inputGraph cost store ring).peerToId.lookup link.2)) known
    obtain ⟨edge, present, same⟩ := List.mem_map.mp image
    obtain ⟨first, second⟩ := Prod.mk.inj same
    exact ⟨edge, present, first.symm, second.symm⟩

theorem graph_complete_iff (store : BandwidthStore) (group : Group) (ring : List Uuid)
    (populated : store.isBandwidthStoreFullyPopulated = true)
    (registered : ∀ uuid ∈ ring, ∃ peer, store.registeredPeers.lookup uuid = some peer ∧
      peer.group = group) :
    (∀ source ∈ ring, ∀ destination ∈ ring, source ≠ destination →
      (inputGraph cost store ring).HasEdge source destination) ↔
    ∀ first ∈ ring, ∀ second ∈ ring, first ≠ second → ∀ peer other,
      store.registeredPeers.lookup first = some peer → store.registeredPeers.lookup second = some other →
        peer.address = other.address →
          (∀ address, store.HasAddress group address → address = peer.address) ∨
            store.Measured peer.address peer.address := by
  have complete := BandwidthStore.isBandwidthStoreFullyPopulated_iff.mp populated
  have bandwidth {source destination : Uuid} {peer other : BandwidthPeer}
      (here : store.registeredPeers.lookup source = some peer)
      (there : store.registeredPeers.lookup destination = some other) :
      store.getBandwidthMbps source destination = store.bandwidthMap peer.address other.address := by
    simp [BandwidthStore.getBandwidthMbps, here, there]
  constructor
  · intro edges first one second two apart peer other here there same
    have link := (mem_measuredLinks.mp ((hasEdge_iff cost).mp (edges first one second two apart))).2.2.2
    rw [bandwidth here there, ← same] at link
    exact Or.inr link
  · intro shared source here destination there apart
    refine (hasEdge_iff cost).mpr (mem_measuredLinks.mpr ⟨here, there, apart, ?_⟩)
    obtain ⟨peer, found, inGroup⟩ := registered source here
    obtain ⟨other, foundToo, alsoInGroup⟩ := registered destination there
    have one : store.HasAddress group peer.address := ⟨source, peer, found, inGroup, rfl⟩
    have two : store.HasAddress group other.address := ⟨destination, other, foundToo, alsoInGroup, rfl⟩
    rw [bandwidth found foundToo]
    by_cases same : peer.address = other.address
    · rw [← same]
      rcases shared source here destination there apart peer other found foundToo same with only | loop
      · exact complete group _ _ ⟨one, one, fun _ => only⟩
      · exact loop
    · exact complete group _ _ ⟨one, two, fun equal => absurd equal same⟩

end Edges

namespace Sample

def twoSites : BandwidthStore where
  registeredPeers := ⟨[⟨0, ⟨.ipv4 10, 0⟩⟩, ⟨1, ⟨.ipv4 10, 0⟩⟩, ⟨2, ⟨.ipv4 11, 0⟩⟩],
    by simp [List.NodupKeys, List.keys]⟩
  bandwidthMap source destination := if source = destination then none else some 5

/-- The peers that share an address have been measured against each other, too. -/
def measuredSites : BandwidthStore := { twoSites with bandwidthMap := fun _ _ => some 5 }

theorem twoSites_registered (uuid : Uuid) (present : uuid ∈ [0, 1, 2]) :
    ∃ peer, twoSites.registeredPeers.lookup uuid = some peer ∧ peer.group = 0 := by
  fin_cases present
  · exact ⟨⟨.ipv4 10, 0⟩, rfl, rfl⟩
  · exact ⟨⟨.ipv4 10, 0⟩, rfl, rfl⟩
  · exact ⟨⟨.ipv4 11, 0⟩, rfl, rfl⟩

end Sample

theorem graph_complete_iff_measuredSites :
    Sample.measuredSites.isBandwidthStoreFullyPopulated = true ∧
      (Sample.measuredSites.registeredPeers.lookup 0).map BandwidthPeer.address =
        (Sample.measuredSites.registeredPeers.lookup 1).map BandwidthPeer.address ∧
      ∀ source ∈ [0, 1, 2], ∀ destination ∈ [0, 1, 2], source ≠ destination →
        (inputGraph id Sample.measuredSites [0, 1, 2]).HasEdge source destination := by
  refine ⟨by decide, rfl, (graph_complete_iff id Sample.measuredSites 0 [0, 1, 2] (by decide)
    Sample.twoSites_registered).mpr ?_⟩
  intro first one second two apart peer other here there same
  exact Or.inr rfl

theorem shared_address_has_no_edge :
    Sample.twoSites.isBandwidthStoreFullyPopulated = true ∧
      (∀ uuid ∈ [0, 1, 2], ∃ peer, Sample.twoSites.registeredPeers.lookup uuid = some peer ∧
        peer.group = 0) ∧
      ¬ (inputGraph id Sample.twoSites [0, 1, 2]).HasEdge 0 1 := by
  refine ⟨by decide, Sample.twoSites_registered, ?_⟩
  rw [hasEdge_iff, mem_measuredLinks]
  decide

section Tours

variable {Cost : Type}

def nodeIds (edges : List (TspInputGraphEdge Cost)) : List Nat :=
  (edges.flatMap fun edge => [edge.source, edge.destination]).dedup

/-- What a success of libtsp means. -/
structure TspSolver.Permutes (solver : TspSolver Cost) : Prop where
  solve : ∀ edges tour kind, solver.asymmetricSolve edges = some (tour, kind) →
    tour.Perm (nodeIds edges)
  improve : ∀ edges initial tour kind,
    solver.asymmetricImproveSolution edges initial = some (tour, kind) → tour.Perm (nodeIds edges)

/-- Every peer of the ring has a bandwidth to or from another one. -/
def Linked (store : BandwidthStore) (ring : List Uuid) : Prop :=
  ring.length = 1 ∨ ∀ peer ∈ ring, ∃ other ∈ ring, other ≠ peer ∧
    ((store.getBandwidthMbps peer other).isSome ∨ (store.getBandwidthMbps other peer).isSome)

variable (cost : Bandwidth → Cost) {store : BandwidthStore} {ring : List Uuid}

theorem mem_peerToId_iff {peer : Uuid} :
    peer ∈ (inputGraph cost store ring).peerToId ↔
      peer ∈ ring ∧ ∃ other ∈ ring, other ≠ peer ∧
        ((store.getBandwidthMbps peer other).isSome ∨ (store.getBandwidthMbps other peer).isSome) := by
  rw [(@inputGraph_records _ cost store ring).known]
  constructor
  · rintro ⟨⟨source, destination⟩, present, rfl | rfl⟩
    all_goals
      obtain ⟨here, there, apart, bandwidth⟩ := mem_measuredLinks.mp present
    · exact ⟨here, destination, there, apart.symm, Or.inl bandwidth⟩
    · exact ⟨there, source, here, apart, Or.inr bandwidth⟩
  · rintro ⟨here, other, there, apart, outward | inward⟩
    · exact ⟨(peer, other), mem_measuredLinks.mpr ⟨here, there, apart.symm, outward⟩, Or.inl rfl⟩
    · exact ⟨(other, peer), mem_measuredLinks.mpr ⟨there, here, apart, inward⟩, Or.inr rfl⟩

theorem nodeIds_perm :
    (nodeIds (inputGraph cost store ring).edges).Perm
      (List.range (inputGraph cost store ring).peerToId.size) := by
  have records := @inputGraph_records _ cost store ring
  refine (List.perm_ext_iff_of_nodup (List.nodup_dedup _) List.nodup_range).mpr fun id => ?_
  rw [List.mem_dedup, List.mem_range, ← records.dense.filled, List.mem_flatMap]
  constructor
  · rintro ⟨edge, present, mine⟩
    have image := List.mem_map_of_mem
      (f := fun edge : TspInputGraphEdge Cost => (some edge.source, some edge.destination)) present
    rw [records.edges] at image
    obtain ⟨link, _, same⟩ := List.mem_map.mp image
    obtain ⟨first, second⟩ := Prod.mk.inj same
    rcases List.mem_pair.mp mine with rfl | rfl
    · exact ⟨link.1, first⟩
    · exact ⟨link.2, second⟩
  · rintro ⟨peer, found⟩
    have known : peer ∈ (inputGraph cost store ring).peerToId :=
      AList.lookup_isSome.mp (Option.isSome_iff_exists.mpr ⟨id, found⟩)
    obtain ⟨link, present, mine⟩ := (records.known peer).mp known
    obtain ⟨edge, among, first, second⟩ := (hasEdge_iff cost).mpr present
    rcases mine with rfl | rfl
    · exact ⟨edge, among, List.mem_pair.mpr (Or.inl (Option.some.inj (found.symm.trans first)))⟩
    · exact ⟨edge, among, List.mem_pair.mpr (Or.inr (Option.some.inj (found.symm.trans second)))⟩

theorem readTour_perm {tour : List Nat}
    (permutes : tour.Perm (nodeIds (inputGraph cost store ring).edges)) :
    (readTour (inputGraph cost store ring).peerToId tour).Perm
      (inputGraph cost store ring).peerToId.keys := by
  have dense := (@inputGraph_records _ cost store ring).dense
  have all := permutes.trans (nodeIds_perm cost)
  -- What a number of the tour is read as.
  have read {id : Nat} (present : id ∈ tour) : ∃ peer,
      (inputGraph cost store ring).peerToId.lookup peer = some id ∧
        ((inverse (inputGraph cost store ring).peerToId).lookup id).getD 0 = peer := by
    obtain ⟨peer, found⟩ := (dense.filled id).mpr (List.mem_range.mp (all.mem_iff.mp present))
    rw [(dense.lookup_inverse peer id).mpr found]
    exact ⟨peer, found, rfl⟩
  have distinct : (readTour (inputGraph cost store ring).peerToId tour).Nodup := by
    refine List.Nodup.map_on (fun first here second there same => ?_)
      (all.nodup_iff.mpr List.nodup_range)
    obtain ⟨peer, found, value⟩ := read here
    obtain ⟨other, foundToo, valueToo⟩ := read there
    have agree : peer = other := value.symm.trans (same.trans valueToo)
    exact Option.some.inj (found.symm.trans (agree ▸ foundToo))
  refine (List.perm_ext_iff_of_nodup distinct (AList.keys_nodup _)).mpr fun peer => ?_
  rw [readTour, List.mem_map, ← AList.mem_keys]
  constructor
  · rintro ⟨id, present, value⟩
    obtain ⟨other, found, same⟩ := read present
    rw [← value, same]
    exact AList.lookup_isSome.mp (Option.isSome_iff_exists.mpr ⟨id, found⟩)
  · intro known
    obtain ⟨id, found⟩ := Option.isSome_iff_exists.mp (AList.lookup_isSome.mpr known)
    refine ⟨id, all.mem_iff.mpr (List.mem_range.mpr ((dense.filled id).mp ⟨peer, found⟩)), ?_⟩
    rw [(dense.lookup_inverse peer id).mpr found]
    rfl

theorem keys_perm_iff (several : ring.length ≠ 1) (distinct : ring.Nodup) :
    (inputGraph cost store ring).peerToId.keys.Perm ring ↔ Linked store ring := by
  rw [List.perm_ext_iff_of_nodup (AList.keys_nodup _) distinct]
  simp only [← AList.mem_keys, mem_peerToId_iff]
  constructor
  · exact fun agree => Or.inr fun peer present => ((agree peer).mpr present).2
  · rintro (single | linked) peer
    · exact absurd single several
    · exact ⟨And.left, fun present => ⟨present, linked peer present⟩⟩

theorem initialTour_perm_iff (several : ring.length ≠ 1) (distinct : ring.Nodup) :
    (initialTour (inputGraph cost store ring).peerToId ring).Perm
      (nodeIds (inputGraph cost store ring).edges) ↔ Linked store ring := by
  have records := @inputGraph_records _ cost store ring
  have ids := @nodeIds_perm _ cost store ring
  constructor
  · intro tour
    -- As many numbers as there are peers in the ring, so every peer has one.
    rw [← keys_perm_iff cost several distinct]
    have subset : (inputGraph cost store ring).peerToId.keys ⊆ ring := fun peer known =>
      ((mem_peerToId_iff cost).mp (AList.mem_keys.mpr known)).1
    refine (List.subperm_of_subset (AList.keys_nodup _) subset).perm_of_length_le ?_
    have lengths := (tour.trans ids).length_eq
    rw [initialTour, List.length_map, List.length_range] at lengths
    rw [lengths]
    simp [AList.keys, List.keys, Table.size]
  · intro linked
    have known {peer : Uuid} (present : peer ∈ ring) :
        ∃ id, (inputGraph cost store ring).peerToId.lookup peer = some id := by
      refine Option.isSome_iff_exists.mp (AList.lookup_isSome.mpr ((mem_peerToId_iff cost).mpr ?_))
      exact ⟨present, (linked.resolve_left several) peer present⟩
    have unique : (initialTour (inputGraph cost store ring).peerToId ring).Nodup := by
      refine List.Nodup.map_on (fun first here second there same => ?_) distinct
      obtain ⟨id, found⟩ := known here
      obtain ⟨other, foundToo⟩ := known there
      rw [found, foundToo, Option.getD_some, Option.getD_some] at same
      exact records.dense.unique first second id found (same ▸ foundToo)
    refine ((List.perm_ext_iff_of_nodup unique List.nodup_range).mpr fun id => ?_).trans ids.symm
    rw [initialTour, List.mem_map, List.mem_range, ← records.dense.filled]
    constructor
    · rintro ⟨peer, present, rfl⟩
      obtain ⟨id, found⟩ := known present
      exact ⟨peer, by rw [found, Option.getD_some]⟩
    · rintro ⟨peer, found⟩
      have numbered : peer ∈ (inputGraph cost store ring).peerToId :=
        AList.lookup_isSome.mp (Option.isSome_iff_exists.mpr ⟨id, found⟩)
      exact ⟨peer, ((mem_peerToId_iff cost).mp numbered).1, by rw [found, Option.getD_some]⟩

end Tours

theorem optimization_keeps_peers_iff {Cost : Type} (solver : TspSolver Cost) (permutes : solver.Permutes)
    (store : BandwidthStore) (ring : List Uuid) (distinct : ring.Nodup) :
    (∀ wasOptimal next optimal, optimizeTopology solver store ring wasOptimal = some (next, optimal) →
      (next.Perm ring ↔ Linked store ring)) ∧
    ∀ wasOptimal hadImproved next optimal improved,
      improveTopologyMoonshot solver store ring wasOptimal hadImproved =
        some (next, optimal, improved) →
      (next.Perm ring ∧ (ring.length ≠ 1 →
          (initialTour (inputGraph solver.cost store ring).peerToId ring).Perm
            (nodeIds (inputGraph solver.cost store ring).edges)) ↔
        Linked store ring) := by
  by_cases single : ring.length = 1
  · have linked : Linked store ring := Or.inl single
    constructor
    · intro wasOptimal next optimal returns
      rw [optimizeTopology, if_pos single] at returns
      cases returns
      exact iff_of_true (List.Perm.refl _) linked
    · intro wasOptimal hadImproved next optimal improved returns
      rw [improveTopologyMoonshot, if_pos single] at returns
      cases returns
      exact iff_of_true ⟨List.Perm.refl _, absurd single⟩ linked
  · have keeps (tour : List Nat)
        (permuted : tour.Perm (nodeIds (inputGraph solver.cost store ring).edges)) :
        (readTour (inputGraph solver.cost store ring).peerToId tour).Perm ring ↔ Linked store ring := by
      rw [← keys_perm_iff solver.cost single distinct]
      exact (readTour_perm solver.cost permuted).congr_left ring
    constructor
    · intro wasOptimal next optimal returns
      rw [optimizeTopology, if_neg single] at returns
      obtain ⟨⟨ring, kind⟩, answered, same⟩ := Option.map_eq_some_iff.mp returns
      obtain ⟨⟨tour, _⟩, solved, read⟩ := Option.map_eq_some_iff.mp answered
      cases same
      cases read
      exact keeps tour (permutes.solve _ _ _ solved)
    · intro wasOptimal hadImproved next optimal improved returns
      rw [improveTopologyMoonshot, if_neg single] at returns
      obtain ⟨⟨ring, kind⟩, answered, same⟩ := Option.map_eq_some_iff.mp returns
      obtain ⟨⟨tour, _⟩, solved, read⟩ := Option.map_eq_some_iff.mp answered
      cases same
      cases read
      rw [keeps tour (permutes.improve _ _ _ _ solved), initialTour_perm_iff solver.cost single distinct]
      exact ⟨And.left, fun linked => ⟨linked, fun _ => linked⟩⟩

namespace Sample

def anyTour : TspSolver Bandwidth where
  cost := id
  asymmetricSolve edges := some (nodeIds edges, .approximate)
  asymmetricImproveSolution edges _ := some (nodeIds edges, .noImprovement)

theorem anyTour_permutes : anyTour.Permutes where
  solve edges tour kind solved := by
    cases solved
    exact List.Perm.refl _
  improve edges initial tour kind solved := by
    cases solved
    exact List.Perm.refl _

def unmeasuredPeer : BandwidthStore where
  registeredPeers := ⟨[⟨0, ⟨.ipv4 10, 0⟩⟩, ⟨1, ⟨.ipv4 11, 0⟩⟩, ⟨2, ⟨.ipv4 12, 0⟩⟩],
    by simp [List.NodupKeys, List.keys]⟩
  bandwidthMap source destination :=
    if source = .ipv4 10 ∧ destination = .ipv4 11 then some 5 else none

end Sample

open Sample

theorem optimization_keeps_peers_iff_twoSites :
    ∃ next, optimizeTopology anyTour twoSites [0, 2] false = some (next, false) ∧
      next.Perm [0, 2] := by
  have keeps := (optimization_keeps_peers_iff anyTour anyTour_permutes twoSites
    [0, 2] (by decide)).1
  refine ⟨[2, 0], by decide, (keeps false [2, 0] false (by decide)).mpr (Or.inr ?_)⟩
  decide

theorem unmeasured_peer_is_lost :
    [0, 1, 2].Nodup ∧
      optimizeTopology anyTour unmeasuredPeer [0, 1, 2] false = some ([0, 1], false) ∧
      improveTopologyMoonshot anyTour unmeasuredPeer [0, 1, 2] false false =
        some ([0, 1], false, false) ∧
      initialTour (inputGraph id unmeasuredPeer [0, 1, 2]).peerToId [0, 1, 2] = [0, 1, 0] := by
  refine ⟨by decide, by decide, by decide, by decide⟩

end Pccl.Master
