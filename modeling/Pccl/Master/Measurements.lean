import Pccl.Master.Topology
import Pccl.Shared.Machine

set_option autoImplicit false

namespace Pccl.Master

open Packet

structure MeasurementStore where
  registeredPeers : Table Uuid BandwidthPeer
  bandwidthMap : Table InetAddress (Table InetAddress Bandwidth)

inductive StoreCall where
  | registerPeer (peer : Uuid) (address : InetAddress) (group : Group)
  | storeBandwidth (source destination : Uuid) (bandwidth : Bandwidth)
  | unregisterPeer (peer : Uuid)
deriving DecidableEq, Repr

namespace MeasurementStore

def initial : MeasurementStore := ⟨∅, ∅⟩

variable (store : MeasurementStore)

def registerPeer (peer : Uuid) (address : InetAddress) (group : Group) : Option MeasurementStore :=
  if peer ∈ store.registeredPeers then none
  else some { store with registeredPeers := store.registeredPeers.insert peer ⟨address, group⟩ }

-- `operator[]` makes an empty row where there is none.
def storeBandwidth (source destination : Uuid) (bandwidth : Bandwidth) : Option MeasurementStore :=
  match store.registeredPeers.lookup source, store.registeredPeers.lookup destination with
  | some first, some second =>
    let row := (store.bandwidthMap.lookup first.address).getD ∅
    some { store with
      bandwidthMap := store.bandwidthMap.insert first.address (row.insert second.address bandwidth) }
  | _, _ => none

def entry (source destination : InetAddress) : Option Bandwidth :=
  (store.bandwidthMap.lookup source).bind fun row => row.lookup destination

def getBandwidthMbps (source destination : Uuid) : Option Bandwidth :=
  match store.registeredPeers.lookup source, store.registeredPeers.lookup destination with
  | some first, some second => store.entry first.address second.address
  | _, _ => none

def unregisterPeer (peer : Uuid) : Option MeasurementStore :=
  match store.registeredPeers.lookup peer with
  | none => none
  | some removed =>
    let registeredPeers : Table Uuid BandwidthPeer := store.registeredPeers.erase peer
    if registeredPeers.values.any fun other => other.address = removed.address then
      some { store with registeredPeers }
    else
      let rows : Table InetAddress (Table InetAddress Bandwidth) :=
        store.bandwidthMap.erase removed.address
      some ⟨registeredPeers, rows.mapValues fun row => row.erase removed.address⟩

def answer : StoreCall → MeasurementStore → Option MeasurementStore
  | .registerPeer peer address group, store => store.registerPeer peer address group
  | .storeBandwidth source destination bandwidth, store =>
    store.storeBandwidth source destination bandwidth
  | .unregisterPeer peer, store => store.unregisterPeer peer

-- A call that is refused leaves the store as it is.
def call (request : StoreCall) (store : MeasurementStore) : MeasurementStore :=
  (answer request store).getD store

def run (calls : List StoreCall) : MeasurementStore := Machine.run call calls initial

/-- The store as the master is modelled with it: which rows are empty does not show. -/
def view : BandwidthStore := ⟨store.registeredPeers, store.entry⟩

variable {store}

section Refinement

theorem registerPeer_view (peer : Uuid) (address : InetAddress) (group : Group) :
    (store.registerPeer peer address group).map view =
      store.view.registerPeer peer address group := by
  unfold registerPeer BandwidthStore.registerPeer
  by_cases known : peer ∈ store.registeredPeers
  · rw [if_pos known, if_pos (show peer ∈ store.view.registeredPeers from known)]
    rfl
  · rw [if_neg known, if_neg (show peer ∉ store.view.registeredPeers from known)]
    rfl

theorem entry_storeBandwidth {source destination : Uuid} {first second : BandwidthPeer}
    {bandwidth : Bandwidth} {next : MeasurementStore}
    (found : store.registeredPeers.lookup source = some first)
    (foundToo : store.registeredPeers.lookup destination = some second)
    (stored : store.storeBandwidth source destination bandwidth = some next)
    (start stop : InetAddress) :
    next.entry start stop =
      if start = first.address ∧ stop = second.address then some bandwidth else store.entry start stop := by
  rw [storeBandwidth, found, foundToo] at stored
  cases stored
  unfold entry
  rw [Table.lookup_insert_iff]
  by_cases row : start = first.address
  · subst row
    rw [if_pos rfl, Option.bind_some, Table.lookup_insert_iff]
    by_cases column : stop = second.address
    · simp [column]
    · -- The rest of the row is as it was, or the row is new.
      simp only [column, if_false, and_false]
      cases store.bandwidthMap.lookup first.address <;> rfl
  · simp [row]

theorem storeBandwidth_view (source destination : Uuid) (bandwidth : Bandwidth) :
    (store.storeBandwidth source destination bandwidth).map view =
      store.view.storeBandwidth source destination bandwidth := by
  unfold BandwidthStore.storeBandwidth
  cases found : store.registeredPeers.lookup source with
  | none => simp [storeBandwidth, view, found]
  | some first =>
    cases foundToo : store.registeredPeers.lookup destination with
    | none => simp [storeBandwidth, view, found, foundToo]
    | some second =>
      obtain ⟨next, stored⟩ : ∃ next, store.storeBandwidth source destination bandwidth = some next := by
        simp [storeBandwidth, found, foundToo]
      have peers : next.registeredPeers = store.registeredPeers := by
        simp only [storeBandwidth, found, foundToo, Option.some.injEq] at stored
        rw [← stored]
      simp only [stored, Option.map_some, view, found, foundToo, peers]
      congr 2
      funext start stop
      rw [entry_storeBandwidth found foundToo stored]
      by_cases row : start = first.address
      · subst row
        by_cases column : stop = second.address <;> simp [column]
      · simp [row]

def Shared (store : MeasurementStore) (peer : Uuid) (address : InetAddress) : Prop :=
  ∃ uuid other, uuid ≠ peer ∧ store.registeredPeers.lookup uuid = some other ∧ other.address = address

theorem shared_iff (store : MeasurementStore) (peer : Uuid) (address : InetAddress) :
    (Table.values (store.registeredPeers.erase peer)).any (fun other => other.address = address) = true ↔
      store.Shared peer address := by
  simp only [List.any_eq_true, Table.mem_values_iff, Table.lookup_erase_iff, decide_eq_true_eq]
  constructor
  · rintro ⟨other, ⟨uuid, present⟩, same⟩
    split at present
    next => cases present
    next apart => exact ⟨uuid, other, apart, present, same⟩
  · rintro ⟨uuid, other, apart, present, same⟩
    exact ⟨other, ⟨uuid, by rw [if_neg apart, present]⟩, same⟩

theorem unregisterPeer_spec {peer : Uuid} {removed : BandwidthPeer}
    (found : store.registeredPeers.lookup peer = some removed) :
    ∃ next, store.unregisterPeer peer = some next ∧
      next.registeredPeers = store.registeredPeers.erase peer ∧
      (store.Shared peer removed.address → next.bandwidthMap = store.bandwidthMap) ∧
      (¬ store.Shared peer removed.address → next.bandwidthMap =
        Table.mapValues (fun row => row.erase removed.address)
          (store.bandwidthMap.erase removed.address)) := by
  simp only [unregisterPeer, found, ← shared_iff]
  split
  next shared => exact ⟨_, rfl, rfl, fun _ => rfl, absurd shared⟩
  next alone => exact ⟨_, rfl, rfl, fun shared => absurd shared alone, fun _ => rfl⟩

theorem entry_without {next : MeasurementStore} {address : InetAddress}
    (rows : next.bandwidthMap = Table.mapValues (fun row => row.erase address)
      (store.bandwidthMap.erase address)) (source destination : InetAddress) :
    next.entry source destination =
      if source = address ∨ destination = address then none else store.entry source destination := by
  unfold entry
  rw [rows, Table.lookup_mapValues, Table.lookup_erase_iff]
  by_cases row : source = address
  · simp [row]
  · cases store.bandwidthMap.lookup source with
    | none => simp [row]
    | some columns => simp [row, Table.lookup_erase_iff]

theorem unregisterPeer_view (peer : Uuid) :
    (store.unregisterPeer peer).map view = store.view.unregisterPeer peer := by
  unfold BandwidthStore.unregisterPeer
  cases found : store.registeredPeers.lookup peer with
  | none => simp [unregisterPeer, view, found]
  | some removed =>
    obtain ⟨next, left, peers, kept, dropped⟩ := unregisterPeer_spec found
    have there : store.view.registeredPeers.lookup peer = some removed := found
    rw [left, there, Option.map_some]
    by_cases shared : store.Shared peer removed.address
    · refine Eq.trans ?_ (if_pos ((shared_iff store peer removed.address).mpr shared)).symm
      rw [view, peers]
      congr 2
      funext source destination
      rw [entry, kept shared]
      rfl
    · refine Eq.trans ?_ (if_neg fun used => shared ((shared_iff store peer removed.address).mp used)).symm
      rw [view, peers]
      congr 2
      funext source destination
      exact entry_without (dropped shared) source destination

def answerViewed : StoreCall → BandwidthStore → Option BandwidthStore
  | .registerPeer peer address group, store => store.registerPeer peer address group
  | .storeBandwidth source destination bandwidth, store =>
    store.storeBandwidth source destination bandwidth
  | .unregisterPeer peer, store => store.unregisterPeer peer

def callViewed (request : StoreCall) (store : BandwidthStore) : BandwidthStore :=
  (answerViewed request store).getD store

theorem answer_view (request : StoreCall) (store : MeasurementStore) :
    (answer request store).map view = answerViewed request store.view := by
  cases request with
  | registerPeer peer address group => exact registerPeer_view peer address group
  | storeBandwidth source destination bandwidth => exact storeBandwidth_view source destination bandwidth
  | unregisterPeer peer => exact unregisterPeer_view peer

theorem call_view (request : StoreCall) (store : MeasurementStore) :
    (call request store).view = callViewed request store.view := by
  rw [callViewed, ← answer_view, Option.getD_map]
  rfl

theorem run_view (calls : List StoreCall) :
    let store := Machine.run callViewed calls MasterState.initial.topology.bandwidthStore
    (run calls).view = store ∧
      ∀ request, (answer request (run calls)).map view = answerViewed request store := by
  have from_ (store : MeasurementStore) :
      (Machine.run call calls store).view = Machine.run callViewed calls store.view := by
    induction calls generalizing store with
    | nil => rfl
    | cons request calls ih =>
      rw [Machine.run_cons, Machine.run_cons, ih, call_view]
  have same : (run calls).view = Machine.run callViewed calls _ := from_ initial
  exact ⟨same, fun request => (answer_view request (run calls)).trans (congrArg _ same)⟩

end Refinement

section Ownership

def Used (store : MeasurementStore) (address : InetAddress) : Prop :=
  ∃ uuid peer, store.registeredPeers.lookup uuid = some peer ∧ peer.address = address

structure Owned (store : MeasurementStore) : Prop where
  rows : ∀ source, source ∈ store.bandwidthMap → store.Used source
  columns : ∀ source destination bandwidth, store.entry source destination = some bandwidth →
    store.Used destination

theorem Owned.registerPeer (owned : store.Owned) {peer : Uuid} {address : InetAddress} {group : Group}
    {next : MeasurementStore} (registered : store.registerPeer peer address group = some next) :
    next.Owned := by
  unfold MeasurementStore.registerPeer at registered
  split at registered
  next => cases registered
  next fresh =>
    cases registered
    have keeps {place : InetAddress} (used : store.Used place) :
        Used { store with registeredPeers := store.registeredPeers.insert peer ⟨address, group⟩ } place := by
      obtain ⟨uuid, other, found, same⟩ := used
      refine ⟨uuid, other, ?_, same⟩
      rw [Table.lookup_insert_iff, if_neg ?_, found]
      rintro rfl
      exact fresh (AList.lookup_isSome.mp (Option.isSome_iff_exists.mpr ⟨other, found⟩))
    exact ⟨fun source present => keeps (owned.rows source present),
      fun source destination bandwidth present => keeps (owned.columns source destination bandwidth present)⟩

theorem Owned.storeBandwidth (owned : store.Owned) {source destination : Uuid} {bandwidth : Bandwidth}
    {next : MeasurementStore} (stored : store.storeBandwidth source destination bandwidth = some next) :
    next.Owned := by
  cases found : store.registeredPeers.lookup source with
  | none => simp [MeasurementStore.storeBandwidth, found] at stored
  | some first =>
    cases foundToo : store.registeredPeers.lookup destination with
    | none => simp [MeasurementStore.storeBandwidth, found, foundToo] at stored
    | some second =>
      have entries := entry_storeBandwidth found foundToo stored
      simp only [MeasurementStore.storeBandwidth, found, foundToo, Option.some.injEq] at stored
      have peers : next.registeredPeers = store.registeredPeers := by rw [← stored]
      have same (address : InetAddress) : next.Used address ↔ store.Used address := by
        rw [Used, Used, peers]
      constructor
      · intro start present
        rw [same]
        rw [← stored] at present
        rcases AList.mem_insert _ |>.mp present with rfl | known
        · exact ⟨source, first, found, rfl⟩
        · exact owned.rows start known
      · intro start stop value present
        rw [same]
        rw [entries] at present
        split at present
        next ends =>
          rw [ends.2]
          exact ⟨destination, second, foundToo, rfl⟩
        next => exact owned.columns start stop value present

theorem Owned.unregisterPeer (owned : store.Owned) {peer : Uuid} {next : MeasurementStore}
    (left : store.unregisterPeer peer = some next) : next.Owned := by
  cases found : store.registeredPeers.lookup peer with
  | none => simp [MeasurementStore.unregisterPeer, found] at left
  | some removed =>
    obtain ⟨again, same, peers, kept, dropped⟩ := unregisterPeer_spec found
    cases left.symm.trans same
    -- An address stays in use unless it was the removed peer's alone.
    have keeps {address : InetAddress} (used : store.Used address)
        (stays : address = removed.address → store.Shared peer removed.address) : next.Used address := by
      obtain ⟨uuid, other, present, mine⟩ := used
      by_cases self : uuid = peer
      · subst self
        cases found.symm.trans present
        obtain ⟨uuid, other, apart, present, equal⟩ := stays mine.symm
        refine ⟨uuid, other, ?_, equal.trans mine⟩
        rw [peers, Table.lookup_erase_iff, if_neg apart, present]
      · refine ⟨uuid, other, ?_, mine⟩
        rw [peers, Table.lookup_erase_iff, if_neg self, present]
    by_cases shared : store.Shared peer removed.address
    · constructor
      · intro source present
        rw [kept shared] at present
        exact keeps (owned.rows source present) fun _ => shared
      · intro source destination bandwidth present
        rw [entry, kept shared] at present
        exact keeps (owned.columns source destination bandwidth present) fun _ => shared
    · constructor
      · intro source present
        rw [dropped shared, Table.mem_mapValues, AList.mem_erase] at present
        exact keeps (owned.rows source present.2) fun mine => absurd mine present.1
      · intro source destination bandwidth present
        rw [entry_without (dropped shared)] at present
        split at present
        next => cases present
        next apart =>
          exact keeps (owned.columns source destination bandwidth present) fun mine =>
            absurd (Or.inr mine) apart

theorem call_owned (request : StoreCall) (store : MeasurementStore) (owned : store.Owned) :
    (call request store).Owned := by
  rw [call]
  cases result : answer request store with
  | none => exact owned
  | some next =>
    cases request with
    | registerPeer => exact owned.registerPeer result
    | storeBandwidth => exact owned.storeBandwidth result
    | unregisterPeer => exact owned.unregisterPeer result

theorem initial_owned : initial.Owned where
  rows _ present := by cases present
  columns _ _ _ present := by cases present

theorem run_owned (calls : List StoreCall) : (run calls).Owned :=
  @Machine.run_preserves _ _ call (fun _ _ => True) Owned
    (fun request store owned _ => call_owned request store owned) calls initial initial_owned
    (Machine.always_of_forall (fun _ _ => trivial) _ _)

end Ownership

theorem unregistering_forgets (calls : List StoreCall) (peer : Uuid) :
    (∀ source, source ∈ (run calls).bandwidthMap → (run calls).Used source) ∧
    (∀ source destination bandwidth, (run calls).entry source destination = some bandwidth →
      (run calls).Used source ∧ (run calls).Used destination) ∧
    match (run calls).registeredPeers.lookup peer with
    | none => run (calls ++ [.unregisterPeer peer]) = run calls
    | some removed =>
      ((run calls).Shared peer removed.address → ∀ source destination,
        (run (calls ++ [.unregisterPeer peer])).entry source destination =
          (run calls).entry source destination) ∧
      (¬ (run calls).Shared peer removed.address → ∀ source destination,
        (run (calls ++ [.unregisterPeer peer])).entry source destination =
          if source = removed.address ∨ destination = removed.address then none
          else (run calls).entry source destination) ∧
      ∀ first second, first ≠ peer → second ≠ peer →
        (run (calls ++ [.unregisterPeer peer])).getBandwidthMbps first second =
          (run calls).getBandwidthMbps first second := by
  have owned := run_owned calls
  refine ⟨owned.rows, fun source destination bandwidth present => ⟨?_, ?_⟩, ?_⟩
  · obtain ⟨row, found, _⟩ := Option.bind_eq_some_iff.mp present
    exact owned.rows source (AList.lookup_isSome.mp (Option.isSome_iff_exists.mpr ⟨row, found⟩))
  · exact owned.columns source destination bandwidth present
  have last : run (calls ++ [.unregisterPeer peer]) = ((run calls).unregisterPeer peer).getD (run calls) :=
    Machine.run_append call calls [.unregisterPeer peer] initial
  rw [last]
  generalize run calls = store at owned
  cases found : store.registeredPeers.lookup peer with
  | none => simp [MeasurementStore.unregisterPeer, found]
  | some removed =>
    obtain ⟨next, left, peers, kept, dropped⟩ := unregisterPeer_spec found
    have same (shared : store.Shared peer removed.address) (source destination : InetAddress) :
        next.entry source destination = store.entry source destination := by
      rw [entry, kept shared, entry]
    rw [left, Option.getD_some]
    refine ⟨same, fun alone => entry_without (dropped alone), fun first second one two => ?_⟩
    unfold getBandwidthMbps
    rw [peers, Table.lookup_erase_iff, Table.lookup_erase_iff, if_neg one, if_neg two]
    cases here : store.registeredPeers.lookup first with
    | none => rfl
    | some source =>
      cases there : store.registeredPeers.lookup second with
      | none => rfl
      | some destination =>
        by_cases shared : store.Shared peer removed.address
        · exact same shared source.address destination.address
        · -- Nobody who stays has the address.
          refine (entry_without (dropped shared) source.address destination.address).trans (if_neg ?_)
          rintro (equal | equal)
          · exact shared ⟨first, source, one, here, equal⟩
          · exact shared ⟨second, destination, two, there, equal⟩

end MeasurementStore

end Pccl.Master
