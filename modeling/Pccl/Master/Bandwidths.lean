import Pccl.Master.Topology

set_option autoImplicit false

namespace Pccl.Master

open Packet

namespace BandwidthStore

variable (store : BandwidthStore)

def HasAddress (group : Group) (address : InetAddress) : Prop :=
  ∃ uuid peer, store.registeredPeers.lookup uuid = some peer ∧ peer.group = group ∧
    peer.address = address

/-- A measurement from one address to another is needed: between any two of a group, or from the only
one to itself. -/
def Needs (group : Group) (source destination : InetAddress) : Prop :=
  store.HasAddress group source ∧ store.HasAddress group destination ∧
    (source = destination → ∀ address, store.HasAddress group address → address = source)

def Measured (source destination : InetAddress) : Prop :=
  (store.bandwidthMap source destination).isSome = true

def Complete : Prop :=
  ∀ group source destination, store.Needs group source destination →
    store.Measured source destination

variable {store}

section Addresses

variable {group : Group}

theorem mem_groupAddresses {address : InetAddress} :
    address ∈ store.groupAddresses group ↔ store.HasAddress group address := by
  simp only [groupAddresses, List.mem_dedup, List.mem_map, List.mem_filter, Table.mem_values_iff,
    decide_eq_true_eq, HasAddress]
  constructor
  · rintro ⟨peer, ⟨⟨uuid, found⟩, same⟩, rfl⟩
    exact ⟨uuid, peer, found, same, rfl⟩
  · rintro ⟨uuid, peer, found, same, rfl⟩
    exact ⟨peer, ⟨⟨uuid, found⟩, same⟩, rfl⟩

theorem groupAddresses_nodup : (store.groupAddresses group).Nodup := List.nodup_dedup _

theorem representatives_spec :
    ((store.addressRepresentativesForGroup group).map Prod.fst).Nodup ∧
      (∀ address, address ∈ (store.addressRepresentativesForGroup group).map Prod.fst ↔
        store.HasAddress group address) ∧
      ∀ address uuid, (address, uuid) ∈ store.addressRepresentativesForGroup group →
        ∃ peer, store.registeredPeers.lookup uuid = some peer ∧ peer.address = address ∧
          peer.group = group := by
  have loop (visited rest : List (Uuid × BandwidthPeer)) (found : List (InetAddress × Uuid))
      (distinct : (found.map Prod.fst).Nodup)
      (addresses : ∀ address, address ∈ found.map Prod.fst ↔
        ∃ entry ∈ visited, entry.2.group = group ∧ entry.2.address = address)
      (owners : ∀ address uuid, (address, uuid) ∈ found →
        ∃ peer, (uuid, peer) ∈ visited ∧ peer.address = address ∧ peer.group = group) :
      let all := rest.foldl (fun representatives entry =>
        if entry.2.group = group ∧ entry.2.address ∉ representatives.map Prod.fst then
          representatives ++ [(entry.2.address, entry.1)]
        else representatives) found
      (all.map Prod.fst).Nodup ∧
        (∀ address, address ∈ all.map Prod.fst ↔
          ∃ entry ∈ visited ++ rest, entry.2.group = group ∧ entry.2.address = address) ∧
        ∀ address uuid, (address, uuid) ∈ all →
          ∃ peer, (uuid, peer) ∈ visited ++ rest ∧ peer.address = address ∧ peer.group = group := by
    induction rest generalizing visited found with
    | nil =>
      rw [List.append_nil]
      exact ⟨distinct, addresses, owners⟩
    | cons entry rest ih =>
      obtain ⟨uuid, peer⟩ := entry
      have more := ih (visited ++ [(uuid, peer)])
      simp only [List.append_assoc, List.singleton_append] at more
      rw [List.foldl_cons]
      by_cases new : peer.group = group ∧ peer.address ∉ found.map Prod.fst
      · simp only [new, not_false_eq_true, and_self, if_true]
        apply more
        · rw [List.map_append, List.map_singleton]
          exact List.nodup_append.mpr ⟨distinct, List.nodup_singleton _, by
            intro one known other mine same
            rw [List.mem_singleton] at mine
            rw [same, mine] at known
            exact new.2 known⟩
        · intro address
          rw [List.map_append, List.mem_append, addresses]
          simp [or_and_right, exists_or, new.1, eq_comm]
        · intro address other present
          rcases List.mem_append.mp present with old | mine
          · obtain ⟨owner, known, same⟩ := owners address other old
            exact ⟨owner, List.mem_append_left _ known, same⟩
          · obtain ⟨rfl, rfl⟩ := Prod.mk.inj (List.mem_singleton.mp mine)
            exact ⟨peer, by simp, rfl, new.1⟩
      · simp only [new, if_false]
        apply more _ distinct
        · intro address
          rw [addresses]
          constructor
          · rintro ⟨entry, known, same⟩
            exact ⟨entry, List.mem_append_left _ known, same⟩
          · rintro ⟨entry, known, inGroup, rfl⟩
            rcases List.mem_append.mp known with old | mine
            · exact ⟨entry, old, inGroup, rfl⟩
            · obtain rfl := List.mem_singleton.mp mine
              exact (addresses _).mp (by
                by_contra absent
                exact new ⟨inGroup, absent⟩)
        · intro address other present
          obtain ⟨owner, known, same⟩ := owners address other present
          exact ⟨owner, List.mem_append_left _ known, same⟩
  obtain ⟨distinct, addresses, owners⟩ := loop [] store.registeredPeers.pairs []
    List.nodup_nil (by simp) (by simp)
  refine ⟨distinct, ?_, ?_⟩
  · intro address
    rw [HasAddress]
    refine (addresses address).trans ?_
    simp [Table.mem_pairs_iff]
  · intro address uuid present
    obtain ⟨peer, known, same⟩ := owners address uuid present
    exact ⟨peer, Table.mem_pairs_iff.mp (by simpa using known), same⟩

theorem length_eq_one_iff (addresses : List InetAddress) (distinct : addresses.Nodup)
    (members : ∀ address, address ∈ addresses ↔ store.HasAddress group address)
    (own : InetAddress) (present : store.HasAddress group own) :
    addresses.length = 1 ↔ ∀ address, store.HasAddress group address → address = own := by
  have here := (members own).mpr present
  constructor
  · intro one address has
    obtain ⟨only, rfl⟩ := List.length_eq_one_iff.mp one
    rw [List.mem_singleton.mp ((members address).mpr has), List.mem_singleton.mp here]
  · intro only
    have all : ∀ address ∈ addresses, address = own := fun address known =>
      only address ((members address).mp known)
    have same : addresses = List.replicate addresses.length own := List.eq_replicate_iff.mpr ⟨rfl, all⟩
    rw [same, List.nodup_replicate] at distinct
    have positive := List.length_pos_of_mem here
    omega

end Addresses

section Completeness

theorem groupAddresses_length_iff (group : Group) (own : InetAddress)
    (present : store.HasAddress group own) :
    (store.groupAddresses group).length = 1 ↔
      ∀ address, store.HasAddress group address → address = own :=
  length_eq_one_iff _ groupAddresses_nodup (fun _ => mem_groupAddresses) own present

theorem representatives_length_iff (group : Group) (own : InetAddress)
    (present : store.HasAddress group own) :
    (store.addressRepresentativesForGroup group).length = 1 ↔
      ∀ address, store.HasAddress group address → address = own := by
  obtain ⟨distinct, addresses, _⟩ := @representatives_spec store group
  rw [← length_eq_one_iff _ distinct addresses own present, List.length_map]

theorem count_eq_iff (addresses : List InetAddress) (distinct : addresses.Nodup)
    (address : InetAddress) (present : address ∈ addresses) (measured : InetAddress → Bool) :
    (addresses.countP fun destination => destination ≠ address && measured destination) =
        addresses.length - 1 ↔
      ∀ destination ∈ addresses, destination ≠ address → measured destination = true := by
  have counted : (addresses.countP fun destination =>
      destination ≠ address && measured destination) = (addresses.erase address).countP measured := by
    rw [distinct.erase_eq_filter, List.countP_filter]
    congr 1
    funext destination
    rw [Bool.and_comm]
    simp [bne, beq_eq_decide]
  rw [counted, ← List.length_erase_of_mem present, List.countP_eq_length]
  simp only [distinct.mem_erase_iff, and_imp]
  exact forall_congr' fun destination => forall_comm

theorem isBandwidthStoreFullyPopulated_iff :
    store.isBandwidthStoreFullyPopulated = true ↔ store.Complete := by
  have groups (group : Group) :
      group ∈ (store.registeredPeers.values.map BandwidthPeer.group).dedup ↔
        ∃ address, store.HasAddress group address := by
    simp only [List.mem_dedup, List.mem_map, Table.mem_values_iff, HasAddress]
    constructor
    · rintro ⟨peer, ⟨uuid, found⟩, same⟩
      exact ⟨peer.address, uuid, peer, found, same, rfl⟩
    · rintro ⟨_, uuid, peer, found, same, _⟩
      exact ⟨peer, ⟨uuid, found⟩, same⟩
  simp only [isBandwidthStoreFullyPopulated, List.all_eq_true, groups]
  constructor
  · rintro counted group source destination ⟨here, there, loops⟩
    have complete := counted group ⟨source, here⟩
    by_cases single : (store.groupAddresses group).length = 1
    · rw [if_pos single, List.all_eq_true] at complete
      have only := (groupAddresses_length_iff group source here).mp single
      rw [only destination there]
      exact complete source (mem_groupAddresses.mpr here)
    · rw [if_neg single, List.all_eq_true] at complete
      have row := complete source (mem_groupAddresses.mpr here)
      rw [decide_eq_true_eq, count_eq_iff _ groupAddresses_nodup _ (mem_groupAddresses.mpr here)] at row
      refine row destination (mem_groupAddresses.mpr there) fun same => single ?_
      exact (groupAddresses_length_iff group source here).mpr (loops same.symm)
  · rintro complete group ⟨own, present⟩
    by_cases single : (store.groupAddresses group).length = 1
    · rw [if_pos single, List.all_eq_true]
      intro address known
      have here := mem_groupAddresses.mp known
      exact complete group address address
        ⟨here, here, fun _ => (groupAddresses_length_iff group address here).mp single⟩
    · rw [if_neg single, List.all_eq_true]
      intro address known
      rw [decide_eq_true_eq, count_eq_iff _ groupAddresses_nodup _ known]
      intro destination there apart
      exact complete group address destination
        ⟨mem_groupAddresses.mp known, mem_groupAddresses.mp there,
          fun same => absurd same.symm apart⟩

theorem needs_of_mem_missing {peer : Uuid} {entry : Uuid × Uuid}
    (missing : entry ∈ store.getMissingBandwidthEntries peer) :
    ∃ group first second, store.registeredPeers.lookup entry.1 = some first ∧
      store.registeredPeers.lookup entry.2 = some second ∧
      store.Needs group first.address second.address ∧
      ¬ store.Measured first.address second.address ∧ first.group = second.group := by
  unfold getMissingBandwidthEntries at missing
  cases found : store.registeredPeers.lookup peer with
  | none => simp [found] at missing
  | some self =>
    obtain ⟨_, addresses, owners⟩ := @representatives_spec store self.group
    have here : store.HasAddress self.group self.address := ⟨peer, self, found, rfl, rfl⟩
    simp only [found] at missing
    by_cases single : (store.addressRepresentativesForGroup self.group).length = 1
    · rw [if_pos single] at missing
      split_ifs at missing with measured
      · cases missing
      · obtain rfl := List.mem_singleton.mp missing
        exact ⟨self.group, self, self, found, found,
          ⟨here, here, fun _ => (representatives_length_iff _ _ here).mp single⟩, measured, rfl⟩
    · rw [if_neg single] at missing
      simp only [List.mem_flatMap, List.mem_filter, Prod.exists, decide_eq_true_eq,
        List.mem_append] at missing
      obtain ⟨address, other, ⟨known, apart⟩, wanted⟩ := missing
      obtain ⟨owner, registered, rfl, grouped⟩ := owners address other known
      have there : store.HasAddress self.group owner.address :=
        (addresses _).mp (List.mem_map_of_mem known)
      rcases wanted with inbound | outbound
      · split_ifs at inbound with measured
        · cases inbound
        · obtain rfl := List.mem_singleton.mp inbound
          exact ⟨self.group, owner, self, registered, found,
            ⟨there, here, fun same => absurd same apart⟩, measured, grouped⟩
      · split_ifs at outbound with measured
        · cases outbound
        · obtain rfl := List.mem_singleton.mp outbound
          exact ⟨self.group, self, owner, found, registered,
            ⟨here, there, fun same => absurd same.symm apart⟩, measured, grouped.symm⟩

theorem mem_missing_of_needs {peer : Uuid} {self : BandwidthPeer} {destination : InetAddress}
    (found : store.registeredPeers.lookup peer = some self)
    (needs : store.Needs self.group self.address destination)
    (unmeasured : ¬ store.Measured self.address destination) :
    ∃ other owner, (peer, other) ∈ store.getMissingBandwidthEntries peer ∧
      store.registeredPeers.lookup other = some owner ∧ owner.address = destination := by
  obtain ⟨here, there, loops⟩ := needs
  obtain ⟨_, addresses, owners⟩ := @representatives_spec store self.group
  simp only [getMissingBandwidthEntries, found]
  by_cases single : (store.addressRepresentativesForGroup self.group).length = 1
  · have same := (representatives_length_iff _ _ here).mp single destination there
    subst same
    rw [if_pos single, if_neg (by exact unmeasured)]
    exact ⟨peer, self, List.mem_singleton.mpr rfl, found, rfl⟩
  · have apart : destination ≠ self.address := by
      rintro rfl
      exact single ((representatives_length_iff _ _ here).mpr (loops rfl))
    obtain ⟨⟨address, other⟩, known, same⟩ := List.mem_map.mp ((addresses destination).mpr there)
    obtain rfl : address = destination := same
    obtain ⟨owner, registered, equal, _⟩ := owners address other known
    rw [if_neg single]
    refine ⟨other, owner, ?_, registered, equal⟩
    simp only [List.mem_flatMap, List.mem_filter, decide_eq_true_eq]
    refine ⟨(address, other), ⟨known, apart⟩, List.mem_append_right _ ?_⟩
    rw [if_neg (by exact unmeasured)]
    exact List.mem_singleton.mpr rfl

end Completeness

section Reports

variable (store)

def storeAll (reports : List (Uuid × Uuid × Bandwidth)) : Option BandwidthStore :=
  reports.foldlM (fun store (source, destination, bandwidth) =>
    store.storeBandwidth source destination bandwidth) store

/-- The same store as a hash table may list it another time. -/
structure Reorders (other store : BandwidthStore) : Prop where
  peers : other.registeredPeers.entries.Perm store.registeredPeers.entries
  bandwidths : other.bandwidthMap = store.bandwidthMap

variable {store}

theorem Reorders.lookup {other : BandwidthStore} (reorders : other.Reorders store) (uuid : Uuid) :
    other.registeredPeers.lookup uuid = store.registeredPeers.lookup uuid :=
  AList.perm_lookup reorders.peers

theorem Reorders.needs {other : BandwidthStore} (reorders : other.Reorders store) (group : Group)
    (source destination : InetAddress) :
    other.Needs group source destination ↔ store.Needs group source destination := by
  simp only [Needs, HasAddress, reorders.lookup]

theorem Reorders.measured {other : BandwidthStore} (reorders : other.Reorders store)
    (source destination : InetAddress) :
    other.Measured source destination ↔ store.Measured source destination := by
  rw [Measured, Measured, reorders.bandwidths]

theorem storeBandwidth_spec {source destination : Uuid} {first second : BandwidthPeer}
    (bandwidth : Bandwidth) (found : store.registeredPeers.lookup source = some first)
    (foundToo : store.registeredPeers.lookup destination = some second) :
    ∃ next, store.storeBandwidth source destination bandwidth = some next ∧
      next.registeredPeers = store.registeredPeers ∧
      ∀ start stop, next.Measured start stop ↔
        start = first.address ∧ stop = second.address ∨ store.Measured start stop := by
  simp only [storeBandwidth, found, foundToo]
  refine ⟨_, rfl, rfl, ?_⟩
  intro start stop
  by_cases row : start = first.address
  · subst row
    by_cases column : stop = second.address
    · subst column
      simp [Measured]
    · simp [Measured, column]
  · simp [Measured, row]

theorem storeAll_spec (reports : List (Uuid × Uuid × Bandwidth))
    (registered : ∀ source destination bandwidth, (source, destination, bandwidth) ∈ reports →
      source ∈ store.registeredPeers ∧ destination ∈ store.registeredPeers) :
    ∃ next, store.storeAll reports = some next ∧
      next.registeredPeers = store.registeredPeers ∧
      (∀ source destination, store.Measured source destination →
        next.Measured source destination) ∧
      ∀ source destination bandwidth, (source, destination, bandwidth) ∈ reports →
        ∀ first second, store.registeredPeers.lookup source = some first →
          store.registeredPeers.lookup destination = some second →
          next.Measured first.address second.address := by
  induction reports generalizing store with
  | nil => exact ⟨store, rfl, rfl, fun _ _ measured => measured, fun _ _ _ none => by cases none⟩
  | cons report reports ih =>
    obtain ⟨source, destination, bandwidth⟩ := report
    obtain ⟨here, there⟩ := registered source destination bandwidth List.mem_cons_self
    obtain ⟨first, found⟩ := Option.isSome_iff_exists.mp (AList.lookup_isSome.mpr here)
    obtain ⟨second, foundToo⟩ := Option.isSome_iff_exists.mp (AList.lookup_isSome.mpr there)
    obtain ⟨middle, stored, samePeers, measured⟩ := storeBandwidth_spec bandwidth found foundToo
    obtain ⟨next, all, same, kept, reported⟩ := @ih middle (by
      rw [samePeers]
      exact fun source destination bandwidth later =>
        registered source destination bandwidth (List.mem_cons_of_mem _ later))
    refine ⟨next, ?_, same.trans samePeers, ?_, ?_⟩
    · rw [storeAll, List.foldlM_cons]
      simp only [stored]
      exact all
    · intro start stop before
      exact kept start stop ((measured start stop).mpr (.inr before))
    · intro start stop value present one two foundOne foundTwo
      rcases List.mem_cons.mp present with now | later
      · cases now
        cases foundOne.symm.trans found
        cases foundTwo.symm.trans foundToo
        exact kept _ _ ((measured _ _).mpr (.inl ⟨rfl, rfl⟩))
      · rw [samePeers] at reported
        exact reported start stop value later one two foundOne foundTwo

end Reports

theorem completeness_agrees (store : BandwidthStore) (view : Uuid → BandwidthStore)
    (reorders : ∀ peer, (view peer).Reorders store) :
    (store.isBandwidthStoreFullyPopulated = true ↔
      ∀ peer ∈ store.registeredPeers, (view peer).getMissingBandwidthEntries peer = []) ∧
    ∀ reports : List (Uuid × Uuid × Bandwidth),
      (∀ source destination, (∃ bandwidth, (source, destination, bandwidth) ∈ reports) ↔
        source ∈ store.registeredPeers ∧
          (source, destination) ∈ (view source).getMissingBandwidthEntries source) →
      ∃ next, store.storeAll reports = some next ∧ next.isBandwidthStoreFullyPopulated = true := by
  -- A needed measurement that is not there is told to a peer at its source.
  have told (group : Group) (source destination : InetAddress)
      (needs : store.Needs group source destination)
      (unmeasured : ¬ store.Measured source destination) :
      ∃ peer self other owner, store.registeredPeers.lookup peer = some self ∧
        self.address = source ∧ (peer, other) ∈ (view peer).getMissingBandwidthEntries peer ∧
        store.registeredPeers.lookup other = some owner ∧ owner.address = destination := by
    obtain ⟨peer, self, found, rfl, rfl⟩ := needs.1
    have same := (reorders peer).lookup
    obtain ⟨other, owner, missing, registered, equal⟩ :=
      @mem_missing_of_needs (view peer) peer self destination (by rw [same, found])
        (((reorders peer).needs _ _ _).mpr needs)
        (fun measured => unmeasured (((reorders peer).measured _ _).mp measured))
    rw [same] at registered
    exact ⟨peer, self, other, owner, found, rfl, missing, registered, equal⟩
  constructor
  · rw [isBandwidthStoreFullyPopulated_iff]
    constructor
    · intro complete peer _
      apply List.eq_nil_iff_forall_not_mem.mpr
      intro entry missing
      obtain ⟨group, first, second, _, _, needs, unmeasured, _⟩ := needs_of_mem_missing missing
      rw [(reorders peer).needs] at needs
      exact unmeasured (((reorders peer).measured _ _).mpr (complete group _ _ needs))
    · intro nothing group source destination needs
      by_contra unmeasured
      obtain ⟨peer, self, other, _, found, _, missing, _⟩ := told group _ _ needs unmeasured
      have registered : peer ∈ store.registeredPeers :=
        AList.lookup_isSome.mp (Option.isSome_iff_exists.mpr ⟨self, found⟩)
      rw [nothing peer registered] at missing
      cases missing
  · intro reports exactly
    obtain ⟨next, stored, same, kept, reported⟩ := @storeAll_spec store reports (by
      intro source destination bandwidth present
      obtain ⟨registered, missing⟩ := (exactly source destination).mp ⟨bandwidth, present⟩
      obtain ⟨_, _, second, _, foundToo, _⟩ := needs_of_mem_missing missing
      rw [(reorders source).lookup] at foundToo
      exact ⟨registered, AList.lookup_isSome.mp (Option.isSome_iff_exists.mpr ⟨second, foundToo⟩)⟩)
    refine ⟨next, stored, isBandwidthStoreFullyPopulated_iff.mpr ?_⟩
    intro group source destination needs
    have needed : store.Needs group source destination := by
      simpa only [Needs, HasAddress, same] using needs
    by_cases measured : store.Measured source destination
    · exact kept _ _ measured
    · obtain ⟨peer, self, other, owner, found, rfl, missing, registered, rfl⟩ :=
        told group _ _ needed measured
      have present : peer ∈ store.registeredPeers :=
        AList.lookup_isSome.mp (Option.isSome_iff_exists.mpr ⟨self, found⟩)
      obtain ⟨bandwidth, stored⟩ := (exactly peer other).mpr ⟨present, missing⟩
      exact reported peer other bandwidth stored self owner found registered

def threePeers : BandwidthStore where
  registeredPeers := ⟨[⟨0, ⟨.ipv4 10, 0⟩⟩, ⟨1, ⟨.ipv4 11, 0⟩⟩, ⟨2, ⟨.ipv4 10, 1⟩⟩],
    by simp [List.NodupKeys, List.keys]⟩
  bandwidthMap _ _ := none

def threePeersReversed : BandwidthStore where
  registeredPeers := ⟨[⟨2, ⟨.ipv4 10, 1⟩⟩, ⟨1, ⟨.ipv4 11, 0⟩⟩, ⟨0, ⟨.ipv4 10, 0⟩⟩],
    by simp [List.NodupKeys, List.keys]⟩
  bandwidthMap _ _ := none

theorem completeness_agrees_threePeers :
    (threePeers.isBandwidthStoreFullyPopulated = true ↔
      ∀ peer ∈ threePeers.registeredPeers, threePeersReversed.getMissingBandwidthEntries peer = []) ∧
    ∃ next, threePeers.storeAll [(0, 1, 5), (2, 2, 7), (1, 0, 6)] = some next ∧
      next.isBandwidthStoreFullyPopulated = true := by
  obtain ⟨agree, completes⟩ := completeness_agrees threePeers (fun _ => threePeersReversed)
    fun _ => ⟨List.reverse_perm threePeers.registeredPeers.entries, rfl⟩
  refine ⟨agree, completes [(0, 1, 5), (2, 2, 7), (1, 0, 6)] ?_⟩
  intro source destination
  have asked : source ∈ threePeers.registeredPeers ↔ source = 0 ∨ source = 1 ∨ source = 2 := by
    simp [AList.mem_keys, AList.keys, List.keys, threePeers]
  constructor
  · rintro ⟨bandwidth, present⟩
    simp only [List.mem_cons, Prod.mk.injEq, List.not_mem_nil, or_false] at present
    rcases present with ⟨rfl, rfl, _⟩ | ⟨rfl, rfl, _⟩ | ⟨rfl, rfl, _⟩
    · exact ⟨asked.mpr (by decide), by decide⟩
    · exact ⟨asked.mpr (by decide), by decide⟩
    · exact ⟨asked.mpr (by decide), by decide⟩
  · rintro ⟨registered, missing⟩
    have first : threePeersReversed.getMissingBandwidthEntries 0 = [(1, 0), (0, 1)] := by decide
    have second : threePeersReversed.getMissingBandwidthEntries 1 = [(0, 1), (1, 0)] := by decide
    have third : threePeersReversed.getMissingBandwidthEntries 2 = [(2, 2)] := by decide
    rcases asked.mp registered with rfl | rfl | rfl
    · obtain rfl : destination = 1 := by simpa [first] using missing
      exact ⟨5, by decide⟩
    · obtain rfl : destination = 0 := by simpa [second] using missing
      exact ⟨6, by decide⟩
    · obtain rfl : destination = 2 := by simpa [third] using missing
      exact ⟨7, by decide⟩

end BandwidthStore

end Pccl.Master
