import Pccl.Client.Pools

set_option autoImplicit false

namespace Pccl.Client

open Packet Connections

namespace Connections

/-- Every address belongs to one pool, and every pool has its address in the table except for those of
the peers that have failed. -/
structure Addressed (failed : List Uuid) (connections : Connections) : Prop where
  apart : ∀ first second one two target, connections.p2pConnectionsTx.lookup first = some one →
    connections.p2pConnectionsTx.lookup second = some two → address one = some target →
    address two = some target → first = second
  mapped : ∀ target uuid, connections.socketAddrToUuid.lookup target = some uuid →
    ∃ pool, connections.p2pConnectionsTx.lookup uuid = some pool ∧ address pool = some target
  registered : ∀ uuid pool, connections.p2pConnectionsTx.lookup uuid = some pool → uuid ∉ failed →
    ∃ target, address pool = some target ∧ connections.socketAddrToUuid.lookup target = some uuid

def Avoids (connections : Connections) (peer : PeerInfo) : Prop :=
  ∀ uuid pool, connections.p2pConnectionsTx.lookup uuid = some pool →
    (uuid = peer.peerUuid ↔ address pool = some peer.p2pListenAddr)

theorem address_of_same {target : SocketAddress} {pool : List TxSocket}
    (same : ∀ socket ∈ pool, socket.connectSockAddr = target) {found : SocketAddress}
    (here : address pool = some found) : found = target := by
  obtain ⟨socket, first, rfl⟩ := Option.map_eq_some_iff.mp here
  exact same socket (List.mem_of_head? first)

theorem Addressed.open {failed : List Uuid} {connections : Connections}
    (addressed : Addressed failed connections) (peer : PeerInfo)
    (missing : peer.peerUuid ∉ connections.p2pConnectionsTx) (avoids : connections.Avoids peer)
    (pool : List TxSocket) (same : ∀ socket ∈ pool, socket.connectSockAddr = peer.p2pListenAddr) :
    Addressed (failed ++ [peer.peerUuid])
      { connections with
        p2pConnectionsTx := connections.p2pConnectionsTx.insert peer.peerUuid pool } := by
  have different (uuid : Uuid) (old : List TxSocket)
      (found : connections.p2pConnectionsTx.lookup uuid = some old) : uuid ≠ peer.peerUuid := by
    rintro rfl
    exact missing (AList.lookup_isSome.mp (by simp [found]))
  -- The new pool can only have the address that no other pool has.
  have separate (uuid : Uuid) (old : List TxSocket) (target : SocketAddress)
      (found : connections.p2pConnectionsTx.lookup uuid = some old)
      (here : address pool = some target) : address old ≠ some target := by
    intro there
    rw [address_of_same same here] at there
    exact different uuid old found ((avoids uuid old found).mpr there)
  constructor
  · intro first second one two target
    simp only [Table.lookup_insert_iff]
    intro foundOne foundTwo here there
    split at foundOne <;> split at foundTwo
    · next left right => rw [left, right]
    · obtain rfl := Option.some.inj foundOne
      exact absurd there (separate second two target foundTwo here)
    · obtain rfl := Option.some.inj foundTwo
      exact absurd here (separate first one target foundOne there)
    · exact addressed.apart first second one two target foundOne foundTwo here there
  · intro target uuid found
    obtain ⟨old, opened, here⟩ := addressed.mapped target uuid found
    refine ⟨old, ?_, here⟩
    rw [Table.lookup_insert_iff, if_neg (different uuid old opened), opened]
  · intro uuid old found fine
    rw [List.mem_append, List.mem_singleton, not_or] at fine
    rw [Table.lookup_insert_iff, if_neg fine.2] at found
    exact addressed.registered uuid old found fine.1

theorem Addressed.register {failed : List Uuid} {connections : Connections} {uuid : Uuid}
    (addressed : Addressed (failed ++ [uuid]) connections) {pool : List TxSocket}
    (opened : connections.p2pConnectionsTx.lookup uuid = some pool) {target : SocketAddress}
    (here : address pool = some target) (unused : connections.socketAddrToUuid.lookup target = none) :
    Addressed failed
      { connections with socketAddrToUuid := connections.socketAddrToUuid.insert target uuid } := by
  refine ⟨addressed.apart, fun other owner found => ?_, fun owner old found fine => ?_⟩
  · rw [Table.lookup_insert_iff] at found
    split at found
    · next same =>
      cases found
      exact ⟨pool, opened, same ▸ here⟩
    · exact addressed.mapped other owner found
  · by_cases new : owner = uuid
    · subst new
      cases opened.symm.trans found
      exact ⟨target, here, by simp⟩
    · obtain ⟨other, there, known⟩ := addressed.registered owner old found (by simp [fine, new])
      refine ⟨other, there, ?_⟩
      rw [Table.lookup_insert_iff, if_neg, known]
      rintro rfl
      rw [unused] at known
      cases known

theorem Addressed.close {failed : List Uuid} {connections : Connections}
    (addressed : Addressed failed connections) (peers : List PeerInfo) (still : List Uuid)
    (covered : ∀ uuid ∈ failed, lists peers uuid = true → uuid ∈ still) :
    Addressed still (connections.closeUnlistedTx peers) := by
  have open_listed {uuid : Uuid} {pool : List TxSocket}
      (found : (connections.closeUnlistedTx peers).p2pConnectionsTx.lookup uuid = some pool) :
      lists peers uuid = true ∧ connections.p2pConnectionsTx.lookup uuid = some pool := by
    rw [lookup_tx_closeUnlistedTx] at found
    split at found
    · next listed => exact ⟨listed, found⟩
    · cases found
  constructor
  · intro first second one two target foundOne foundTwo
    exact addressed.apart first second one two target (open_listed foundOne).2 (open_listed foundTwo).2
  · intro target uuid found
    obtain ⟨known, all⟩ := (lookup_address_closeUnlistedTx _ _ _ _).mp found
    obtain ⟨pool, opened, here⟩ := addressed.mapped target uuid known
    refine ⟨pool, ?_, here⟩
    rw [lookup_tx_closeUnlistedTx, if_pos (all uuid pool opened here), opened]
  · intro uuid pool found fine
    obtain ⟨listed, opened⟩ := open_listed found
    obtain ⟨target, here, known⟩ := addressed.registered uuid pool opened
      fun failed => fine (covered uuid failed listed)
    refine ⟨target, here, (lookup_address_closeUnlistedTx _ _ _ _).mpr ⟨known, ?_⟩⟩
    intro other otherPool otherOpened there
    rw [addressed.apart other uuid otherPool pool target otherOpened opened there here]
    exact listed

def withPeer (connections : Connections) (peer : PeerInfo) (pool : List TxSocket) : Connections :=
  { connections with
    p2pConnectionsTx := connections.p2pConnectionsTx.insert peer.peerUuid pool
    socketAddrToUuid := connections.socketAddrToUuid.insert peer.p2pListenAddr peer.peerUuid }

section Connecting

variable {poolSize : Nat} (positive : 0 < poolSize) (attempts : Uuid → Nat → Attempt)

def Reachable (poolSize : Nat) (attempts : Uuid → Nat → Attempt) (uuid : Uuid) : Prop :=
  ∀ nr < poolSize, ∃ connection, attempts uuid nr = .answered connection

theorem poolFor_address (peer : PeerInfo) :
    ∀ socket ∈ poolFor poolSize attempts peer, socket.connectSockAddr = peer.p2pListenAddr :=
  connectPool_address peer _ poolSize [] (by simp)

include positive in
theorem address_poolFor (peer : PeerInfo)
    (connected : (connectPool peer (attempts peer.peerUuid) poolSize []).1 = true) :
    address (poolFor poolSize attempts peer) = some peer.p2pListenAddr := by
  have length := connectPool_length peer _ poolSize [] connected
  cases found : address (poolFor poolSize attempts peer) with
  | none =>
    have empty : poolFor poolSize attempts peer = [] := by simpa [address] using found
    rw [poolFor] at empty
    rw [empty, List.length_nil] at length
    omega
  | some target => rw [address_of_same (poolFor_address attempts peer) found]

theorem unused_address {failed : List Uuid} {connections : Connections}
    (addressed : Addressed failed connections) (peer : PeerInfo)
    (missing : peer.peerUuid ∉ connections.p2pConnectionsTx) (avoids : connections.Avoids peer) :
    connections.socketAddrToUuid.lookup peer.p2pListenAddr = none := by
  cases known : connections.socketAddrToUuid.lookup peer.p2pListenAddr with
  | none => rfl
  | some uuid =>
    obtain ⟨pool, opened, here⟩ := addressed.mapped _ uuid known
    obtain rfl := (avoids uuid pool opened).mpr here
    exact absurd (AList.lookup_isSome.mp (by simp [opened])) missing

theorem establishPeer_addressed {failed : List Uuid} {connections : Connections}
    (addressed : Addressed failed connections) (peer : PeerInfo)
    (missing : peer.peerUuid ∉ connections.p2pConnectionsTx) (avoids : connections.Avoids peer) :
    connections.establishPeer poolSize attempts peer =
      if (connectPool peer (attempts peer.peerUuid) poolSize []).1 then
        (true, connections.withPeer peer (poolFor poolSize attempts peer))
      else
        (false,
          { connections with
            p2pConnectionsTx := connections.p2pConnectionsTx.insert peer.peerUuid
              (poolFor poolSize attempts peer) }) := by
  have unused : peer.p2pListenAddr ∉ connections.socketAddrToUuid :=
    AList.lookup_eq_none.mp (unused_address addressed peer missing avoids)
  simp only [establishPeer, missing, if_false, registerPeer, unused, poolFor, withPeer]

structure Tracked (poolSize : Nat) (attempts : Uuid → Nat → Attempt) (peers : List PeerInfo)
    (stale failed : List Uuid) (after : Connections) : Prop where
  addressed : Addressed (stale ++ failed) after
  blamed : ∀ uuid ∈ failed, uuid ∈ peers.map PeerInfo.peerUuid
  reached : ∀ peer ∈ peers, Reachable poolSize attempts peer.peerUuid → peer.peerUuid ∉ failed
  planned : failed = [] → ∀ peer ∈ peers, ∃ pool,
    after.p2pConnectionsTx.lookup peer.peerUuid = some pool ∧ address pool = some peer.p2pListenAddr

theorem Tracked.cons {stale failed : List Uuid} {after : Connections} {peer : PeerInfo}
    {peers : List PeerInfo} (tracked : Tracked poolSize attempts peers stale failed after)
    (new : peer.peerUuid ∉ peers.map PeerInfo.peerUuid) {pool : List TxSocket}
    (found : after.p2pConnectionsTx.lookup peer.peerUuid = some pool)
    (here : address pool = some peer.p2pListenAddr) :
    Tracked poolSize attempts (peer :: peers) stale failed after := by
  refine ⟨tracked.addressed, fun uuid member => ?_, fun other member reachable => ?_,
    fun none other member => ?_⟩
  · exact List.mem_cons_of_mem _ (tracked.blamed uuid member)
  · rcases List.mem_cons.mp member with rfl | later
    · exact fun failed => new (tracked.blamed _ failed)
    · exact tracked.reached other later reachable
  · rcases List.mem_cons.mp member with rfl | later
    · exact ⟨pool, found, here⟩
    · exact tracked.planned none other later

include positive in
theorem connectPeers_tracked {stale : List Uuid} (peers : List PeerInfo) (connections : Connections)
    (addressed : Addressed stale connections) (avoids : ∀ peer ∈ peers, connections.Avoids peer)
    (addresses : (peers.map PeerInfo.p2pListenAddr).Nodup) (uuids : (peers.map PeerInfo.peerUuid).Nodup) :
    Tracked poolSize attempts peers stale (connectPeers poolSize attempts peers connections).1
      (connectPeers poolSize attempts peers connections).2 := by
  induction peers generalizing connections with
  | nil => exact ⟨by simpa [connectPeers] using addressed, by simp [connectPeers], by simp, by simp⟩
  | cons peer peers ih =>
    rw [List.map_cons, List.nodup_cons] at addresses uuids
    have avoids_peer := avoids peer (List.mem_cons_self ..)
    have avoids_rest (other : PeerInfo) (later : other ∈ peers) := avoids other (List.mem_cons_of_mem _ later)
    unfold connectPeers
    by_cases present : peer.peerUuid ∈ connections.p2pConnectionsTx
    · simp only [present, if_true]
      obtain ⟨pool, found⟩ := Option.isSome_iff_exists.mp (AList.lookup_isSome.mpr present)
      have kept := (connectPeers_opened poolSize attempts peers connections).kept _ present
      exact (ih connections addressed avoids_rest addresses.2 uuids.2).cons attempts uuids.1
        (kept.trans found) ((avoids_peer _ _ found).mp rfl)
    · have opened := addressed.open peer present avoids_peer (poolFor poolSize attempts peer)
        (poolFor_address attempts peer)
      have unused := unused_address addressed peer present avoids_peer
      simp only [present, if_false, establishPeer_addressed attempts addressed peer present avoids_peer]
      by_cases connected : (connectPool peer (attempts peer.peerUuid) poolSize []).1 = true
      · have here := address_poolFor positive attempts peer connected
        simp only [connected, if_true]
        have registered : Addressed stale (connections.withPeer peer (poolFor poolSize attempts peer)) :=
          opened.register (AList.lookup_insert _) here unused
        -- The addresses and the uuids of the rest are others.
        have still (other : PeerInfo) (later : other ∈ peers) :
            (connections.withPeer peer (poolFor poolSize attempts peer)).Avoids other := by
          intro uuid pool found
          rw [withPeer, Table.lookup_insert_iff] at found
          split at found
          · next same =>
            cases found
            subst same
            rw [here, Option.some.injEq]
            constructor
            · intro same
              exact absurd (List.mem_map.mpr ⟨other, later, same.symm⟩) uuids.1
            · intro same
              exact absurd (List.mem_map.mpr ⟨other, later, same.symm⟩) addresses.1
          · exact avoids_rest other later uuid pool found
        have kept := (connectPeers_opened poolSize attempts peers
          (connections.withPeer peer (poolFor poolSize attempts peer))).kept peer.peerUuid
          ((AList.mem_insert _).mpr (.inl rfl))
        exact (ih _ registered still addresses.2 uuids.2).cons attempts uuids.1
          (kept.trans (AList.lookup_insert _)) here
      · simp only [connected, Bool.false_eq_true, if_false]
        refine ⟨opened, by simp, fun other member reachable => ?_, by simp⟩
        rw [List.mem_singleton]
        rcases List.mem_cons.mp member with rfl | later
        · exact absurd (connectPool_connected other _ poolSize []
            (fun nr within => reachable nr (by simpa using within))) connected
        · exact fun same => uuids.1 (List.mem_map.mpr ⟨other, later, same⟩)

end Connecting

end Connections

def Call.distinct (call : Call) : Bool :=
  decide (call.packet.allPeers.map PeerInfo.p2pListenAddr).Nodup &&
    decide (call.packet.allPeers.map PeerInfo.peerUuid).Nodup

/-- A listed peer has the address of a pool if and only if it is the pool of that peer. -/
def Call.avoidsPools (call : Call) (session : Session) : Bool :=
  call.packet.allPeers.all fun peer =>
    session.connections.p2pConnectionsTx.pairs.all fun entry =>
      (entry.1 = peer.peerUuid) == (address entry.2 = some peer.p2pListenAddr)

def Call.fits (call : Call) (session : Session) : Bool :=
  call.heeds session && call.distinct && call.avoidsPools session

theorem Call.avoids_of_avoidsPools {call : Call} {session : Session}
    (avoids : call.avoidsPools session = true) (peer : PeerInfo) (listed : peer ∈ call.packet.allPeers) :
    session.connections.Avoids peer := by
  intro uuid pool found
  have both := List.all_eq_true.mp (List.all_eq_true.mp avoids peer listed) (uuid, pool)
    (Table.mem_pairs_iff.mpr found)
  simpa using both

structure Session.Addressed (session : Session) : Prop where
  addressed : session.connections.Addressed session.failed
  planned : session.failed = [] → ∀ peer ∈ session.plan, ∃ pool,
    session.connections.p2pConnectionsTx.lookup peer.peerUuid = some pool ∧
      address pool = some peer.p2pListenAddr
  listed : ∀ uuid ∈ session.connections.p2pConnectionsTx, lists session.plan uuid = true

theorem Session.Addressed.establish {poolSize : Nat} (positive : 0 < poolSize) {session : Session}
    (addressed : session.Addressed) (call : Call) (fits : call.fits session = true) :
    (session.establish poolSize call).Addressed ∧
      ∀ peer ∈ call.packet.allPeers, Reachable poolSize call.attempts peer.peerUuid →
        peer.peerUuid ∉ (session.establish poolSize call).failed := by
  obtain ⟨⟨heeds, distinct⟩, avoids⟩ : (call.heeds session = true ∧ call.distinct = true) ∧
      call.avoidsPools session = true := by
    simpa only [Call.fits, Bool.and_eq_true] using fits
  have failed := Session.failed_establish poolSize call session
  cases same : call.packet.unchanged with
  | true =>
    obtain ⟨connections, plan⟩ := Session.establish_unchanged poolSize call session same
    rw [same, if_pos rfl] at failed
    refine ⟨⟨?_, ?_, ?_⟩, by simp [failed]⟩
    · rw [failed, connections, ← Call.heeds_unchanged heeds same]
      exact addressed.addressed
    · rw [connections, plan]
      exact fun _ => addressed.planned (Call.heeds_unchanged heeds same)
    · rw [connections, plan]
      exact addressed.listed
  | false =>
    simp only [Call.distinct, Bool.and_eq_true, decide_eq_true_eq] at distinct
    have tracked := connectPeers_tracked positive call.attempts call.packet.allPeers session.connections
      addressed.addressed (Call.avoids_of_avoidsPools avoids) distinct.1 distinct.2
    have lookup := Session.tx_establish poolSize call session same
    have plan : (session.establish poolSize call).plan = call.packet.allPeers := by
      simp [Session.establish, same]
    rw [same, if_neg (by simp)] at failed
    rw [← failed] at tracked
    refine ⟨⟨?_, fun none peer member => ?_, fun uuid present => ?_⟩, tracked.reached⟩
    · have closed := tracked.addressed.close call.packet.allPeers (session.establish poolSize call).failed
        fun uuid member listed => (List.mem_append.mp member).resolve_left (Call.heeds_listed heeds listed)
      have rx : (session.establish poolSize call).connections =
          ((connectPeers poolSize call.attempts call.packet.allPeers session.connections).2.closeUnlistedTx
            call.packet.allPeers).closeUnlistedRx call.packet.allPeers := by
        simp [Session.establish, establishP2PConnections, same]
      rw [rx]
      exact ⟨closed.apart, closed.mapped, closed.registered⟩
    · rw [plan] at member
      rw [lookup, if_pos ((lists_iff _ _).mpr ⟨peer, member, rfl⟩)]
      exact tracked.planned none peer member
    · rw [← AList.lookup_isSome, lookup] at present
      rw [plan]
      split at present
      · assumption
      · cases present

theorem Session.Addressed.agrees {session : Session} (addressed : session.Addressed)
    (none : session.failed = []) :
    (∀ target uuid, session.connections.socketAddrToUuid.lookup target = some uuid ↔
      ∃ peer ∈ session.plan, peer.peerUuid = uuid ∧ peer.p2pListenAddr = target) ∧
    ∀ uuid, uuid ∈ session.connections.p2pConnectionsTx ↔
      ∃ peer ∈ session.plan, peer.peerUuid = uuid := by
  have planned := addressed.planned none
  refine ⟨fun target uuid => ⟨fun known => ?_, ?_⟩, fun uuid => ⟨fun present => ?_, ?_⟩⟩
  · obtain ⟨pool, opened, here⟩ := addressed.addressed.mapped target uuid known
    have listed := addressed.listed uuid (AList.lookup_isSome.mp (by simp [opened]))
    obtain ⟨peer, member, rfl⟩ := (lists_iff _ _).mp listed
    obtain ⟨same, found, there⟩ := planned peer member
    cases opened.symm.trans found
    exact ⟨peer, member, rfl, Option.some.inj (there.symm.trans here)⟩
  · rintro ⟨peer, member, rfl, rfl⟩
    obtain ⟨pool, found, here⟩ := planned peer member
    obtain ⟨target, there, known⟩ := addressed.addressed.registered _ pool found (by simp [none])
    cases here.symm.trans there
    exact known
  · exact (lists_iff _ _).mp (addressed.listed uuid present)
  · rintro ⟨peer, member, rfl⟩
    obtain ⟨pool, found, _⟩ := planned peer member
    exact AList.lookup_isSome.mp (by simp [found])

theorem addresses_follow_plans (poolSize : Nat) (positive : 0 < poolSize) (calls : List Call) (call : Call)
    (fitting : Machine.Always (Session.establish poolSize) (fun call session => call.fits session)
      (calls ++ [call]) {})
    (report : Report)
    (sent : (Session.run poolSize (calls ++ [call])).reports.getLast? = some report) :
    (∀ peer ∈ call.packet.allPeers, Reachable poolSize call.attempts peer.peerUuid →
      peer.peerUuid ∉ report.failedPeers) ∧
    (report.success = true →
      (∀ target uuid,
        (Session.run poolSize (calls ++ [call])).connections.socketAddrToUuid.lookup target = some uuid ↔
          ∃ peer ∈ (Session.run poolSize (calls ++ [call])).plan,
            peer.peerUuid = uuid ∧ peer.p2pListenAddr = target) ∧
      ∀ uuid, uuid ∈ (Session.run poolSize (calls ++ [call])).connections.p2pConnectionsTx ↔
        ∃ peer ∈ (Session.run poolSize (calls ++ [call])).plan, peer.peerUuid = uuid) := by
  have initial : Session.Addressed {} := by
    refine ⟨⟨?_, ?_, ?_⟩, ?_, ?_⟩ <;> simp
  obtain ⟨early, fits, _⟩ := Machine.always_append fitting
  have keeps (call : Call) (session : Session) (addressed : session.Addressed)
      (fits : call.fits session = true) : (session.establish poolSize call).Addressed :=
    (addressed.establish positive call fits).1
  have before : (Session.run poolSize calls).Addressed :=
    Machine.run_preserves keeps calls {} initial early
  obtain ⟨after, reached⟩ := before.establish positive call fits
  have last : Session.run poolSize (calls ++ [call]) =
      (Session.run poolSize calls).establish poolSize call := by
    rw [Session.run, Machine.run_append]
    rfl
  rw [last] at sent ⊢
  have failed : ((Session.run poolSize calls).establish poolSize call).failed = report.failedPeers := by
    simp [Session.failed, sent]
  rw [failed] at reached
  exact ⟨reached, fun success => after.agrees (Session.success_establish _ _ _ report sent success)⟩

namespace Sample

def reaching (peers : List PeerInfo) : Call := ⟨⟨false, 0, 0, 0, 0, peers⟩, fun _ nr => .answered nr⟩

end Sample

open Sample

theorem addresses_follow_plans_change :
    peer 2 ∈ (reaching [peer 1, peer 2]).packet.allPeers ∧
      (Session.run 2 [reaching [peer 1], reaching [peer 1,
        peer 2]]).connections.socketAddrToUuid.lookup (Master.Sample.address 2) = some 2 := by
  refine ⟨by decide, ?_⟩
  have follows := addresses_follow_plans 2 (by decide) [reaching [peer 1]]
    (reaching [peer 1, peer 2]) (by decide) ⟨true, []⟩ (by decide)
  exact ((follows.2 rfl).1 (Master.Sample.address 2) 2).mpr ⟨peer 2, by decide, rfl, rfl⟩

theorem reused_address_fails :
    let first := reaching [peer 1]
    let second := reaching [⟨Master.Sample.address 1, 2⟩]
    first.distinct = true ∧ second.distinct = true ∧ Reachable 1 second.attempts 2 ∧
      (Session.run 1 [first]).reports.getLast? = some ⟨true, []⟩ ∧
      (Session.run 1 [first, second]).reports.getLast? = some ⟨false, [2]⟩ ∧
      (Session.run 1 [first, second, second]).reports.getLast? = some ⟨true, []⟩ ∧
      2 ∈ (Session.run 1 [first, second, second]).connections.p2pConnectionsTx ∧
      (Session.run 1 [first, second, second]).connections.socketAddrToUuid.lookup
        (Master.Sample.address 1) = none := by
  refine ⟨by decide, by decide, fun nr _ => ⟨nr, rfl⟩, ?_⟩
  decide

end Pccl.Client
