import Pccl.Packet.Messages
import Pccl.Shared.Machine
import Pccl.Shared.Table

set_option autoImplicit false

namespace Pccl.Client

open Packet

structure TxSocket where
  connectSockAddr : SocketAddress
  connection : Nat
deriving DecidableEq, Repr

/-- What becomes of one connection to a peer: no connection, no acknowledgement, or a socket. -/
inductive Attempt where
  | refused
  | unanswered
  | answered (connection : Nat)
deriving DecidableEq, Repr

structure Connections where
  p2pConnectionsTx : Table Uuid (List TxSocket) := ∅
  -- A slot that the listener has made room for and not filled is a null pointer.
  p2pConnectionsRx : Table Uuid (List (Option Nat)) := ∅
  socketAddrToUuid : Table SocketAddress Uuid := ∅

namespace Connections

variable (connections : Connections)

def registerPeer (address : SocketAddress) (uuid : Uuid) : Bool × Connections :=
  if address ∈ connections.socketAddrToUuid then (false, connections)
  else
    (true,
      { connections with socketAddrToUuid := connections.socketAddrToUuid.insert address uuid })

def unregisterPeer (address : SocketAddress) : Connections :=
  -- An address that is not there is only logged by the caller.
  { connections with socketAddrToUuid := connections.socketAddrToUuid.erase address }

def connectPool (peer : PeerInfo) (attempts : Nat → Attempt) :
    Nat → List TxSocket → Bool × List TxSocket
  -- The pool is in its table before the first connection is made, and it stays there when one
  -- fails.
  | 0, sockets => (true, sockets)
  | remaining + 1, sockets =>
    match attempts sockets.length with
    | .refused | .unanswered => (false, sockets)
    | .answered connection =>
      connectPool peer attempts remaining (sockets ++ [⟨peer.p2pListenAddr, connection⟩])

def establishPeer (poolSize : Nat) (attempts : Uuid → Nat → Attempt) (peer : PeerInfo) :
    Bool × Connections :=
  if peer.peerUuid ∈ connections.p2pConnectionsTx then (false, connections)
  else
    let (connected, sockets) := connectPool peer (attempts peer.peerUuid) poolSize []
    let opened : Connections :=
      { connections with
        p2pConnectionsTx := connections.p2pConnectionsTx.insert peer.peerUuid sockets }
    if connected then opened.registerPeer peer.p2pListenAddr peer.peerUuid else (false, opened)

def connectPeers (poolSize : Nat) (attempts : Uuid → Nat → Attempt) :
    List PeerInfo → Connections → List Uuid × Connections
  -- The peers after the first one that fails are not tried.
  | [], connections => ([], connections)
  | peer :: peers, connections =>
    if peer.peerUuid ∈ connections.p2pConnectionsTx then connectPeers poolSize attempts peers connections
    else
      match connections.establishPeer poolSize attempts peer with
      | (true, next) => connectPeers poolSize attempts peers next
      | (false, next) => ([peer.peerUuid], next)

def closeTx (connections : Connections) (entry : Uuid × List TxSocket) : Connections :=
  let unregistered :=
    match entry.2.head? with
    | some socket => connections.unregisterPeer socket.connectSockAddr
    | none => connections
  { unregistered with p2pConnectionsTx := unregistered.p2pConnectionsTx.erase entry.1 }

def lists (peers : List PeerInfo) (uuid : Uuid) : Bool := peers.any fun peer => peer.peerUuid = uuid

def closeUnlistedTx (peers : List PeerInfo) : Connections :=
  (connections.p2pConnectionsTx.pairs.filter fun entry => !lists peers entry.1).foldl closeTx
    connections

def closeUnlistedRx (peers : List PeerInfo) : Connections :=
  { connections with
    p2pConnectionsRx :=
      (connections.p2pConnectionsRx.keys.filter fun uuid => !lists peers uuid).foldl
        (fun table uuid => table.erase uuid) connections.p2pConnectionsRx }

end Connections

structure Report where
  success : Bool
  failedPeers : List Uuid
deriving DecidableEq, Repr

structure Call where
  packet : P2PConnectionInfo
  attempts : Uuid → Nat → Attempt

def establishP2PConnections (poolSize : Nat) (call : Call) (connections : Connections) :
    Report × Connections :=
  if call.packet.unchanged then (⟨true, []⟩, connections)
  else
    let (failedPeers, connected) :=
      Connections.connectPeers poolSize call.attempts call.packet.allPeers connections
    (⟨failedPeers.isEmpty, failedPeers⟩,
      (connected.closeUnlistedTx call.packet.allPeers).closeUnlistedRx call.packet.allPeers)

/-- The client with what it has sent, and the peers of the last packet that has listed any. -/
structure Session where
  connections : Connections := {}
  plan : List PeerInfo := []
  reports : List Report := []

def Session.establish (poolSize : Nat) (call : Call) (session : Session) : Session :=
  let (report, connections) := establishP2PConnections poolSize call session.connections
  { connections
    plan := if call.packet.unchanged then session.plan else call.packet.allPeers
    reports := session.reports ++ [report] }

def Session.run (poolSize : Nat) (calls : List Call) : Session :=
  Machine.run (Session.establish poolSize) calls {}

def Session.failed (session : Session) : List Uuid :=
  (session.reports.getLast?.map Report.failedPeers).getD []

namespace Connections

/-- The network has answered every hello of the pool during the calls. -/
def Handshaken (calls : List Call) (uuid : Uuid) (pool : List TxSocket) : Prop :=
  ∃ call ∈ calls, ∀ nr socket, pool[nr]? = some socket →
    call.attempts uuid nr = .answered socket.connection

theorem Handshaken.later {calls : List Call} {uuid : Uuid} {pool : List TxSocket} {call : Call}
    (handshaken : Handshaken calls uuid pool) : Handshaken (calls ++ [call]) uuid pool := by
  obtain ⟨call, member, answered⟩ := handshaken
  exact ⟨call, List.mem_append_left _ member, answered⟩

theorem connectPool_answered (peer : PeerInfo) (attempts : Nat → Attempt) (remaining : Nat)
    (sockets : List TxSocket)
    (answered : ∀ nr socket, sockets[nr]? = some socket → attempts nr = .answered socket.connection)
    (nr : Nat) (socket : TxSocket)
    (found : (connectPool peer attempts remaining sockets).2[nr]? = some socket) :
    attempts nr = .answered socket.connection := by
  induction remaining generalizing sockets with
  | zero => exact answered nr socket found
  | succ remaining ih =>
    unfold connectPool at found
    split at found
    · exact answered nr socket found
    · exact answered nr socket found
    · next connection reply =>
      refine ih _ (fun other opened there => ?_) found
      rw [List.getElem?_append] at there
      split at there
      · exact answered other opened there
      · next beyond =>
        rw [List.getElem?_singleton] at there
        split at there
        · next first =>
          obtain rfl := Option.some.inj there
          have last : other = sockets.length := by omega
          rw [last, reply]
        · cases there

theorem connectPool_address (peer : PeerInfo) (attempts : Nat → Attempt) (remaining : Nat)
    (sockets : List TxSocket)
    (same : ∀ socket ∈ sockets, socket.connectSockAddr = peer.p2pListenAddr) :
    ∀ socket ∈ (connectPool peer attempts remaining sockets).2,
      socket.connectSockAddr = peer.p2pListenAddr := by
  induction remaining generalizing sockets with
  | zero => exact same
  | succ remaining ih =>
    unfold connectPool
    split
    · exact same
    · exact same
    · next connection _ =>
      refine ih _ fun socket member => ?_
      rcases List.mem_append.mp member with old | new
      · exact same socket old
      · rw [List.mem_singleton.mp new]

theorem connectPool_length (peer : PeerInfo) (attempts : Nat → Attempt) (remaining : Nat)
    (sockets : List TxSocket) (connected : (connectPool peer attempts remaining sockets).1 = true) :
    (connectPool peer attempts remaining sockets).2.length = sockets.length + remaining := by
  induction remaining generalizing sockets with
  | zero => rfl
  | succ remaining ih =>
    unfold connectPool at connected ⊢
    split at connected
    · cases connected
    · cases connected
    · rw [ih _ connected, List.length_append, List.length_singleton]
      omega

theorem connectPool_connected (peer : PeerInfo) (attempts : Nat → Attempt) (remaining : Nat)
    (sockets : List TxSocket)
    (answers : ∀ nr, nr < sockets.length + remaining → ∃ connection, attempts nr = .answered connection) :
    (connectPool peer attempts remaining sockets).1 = true := by
  induction remaining generalizing sockets with
  | zero => rfl
  | succ remaining ih =>
    obtain ⟨connection, reply⟩ := answers sockets.length (by omega)
    unfold connectPool
    rw [reply]
    refine ih _ fun nr within => answers nr ?_
    rw [List.length_append, List.length_singleton] at within
    omega

def address (pool : List TxSocket) : Option SocketAddress :=
  pool.head?.map TxSocket.connectSockAddr

theorem lookup_tx_closeTx (connections : Connections) (entries : List (Uuid × List TxSocket))
    (uuid : Uuid) :
    (entries.foldl closeTx connections).p2pConnectionsTx.lookup uuid =
      if uuid ∈ entries.map Prod.fst then none else connections.p2pConnectionsTx.lookup uuid := by
  induction entries generalizing connections with
  | nil => simp
  | cons entry entries ih =>
    have closed : (closeTx connections entry).p2pConnectionsTx =
        connections.p2pConnectionsTx.erase entry.1 := by
      unfold closeTx
      cases entry.2.head? <;> rfl
    rw [List.foldl_cons, ih, closed, Table.lookup_erase_iff, List.map_cons]
    by_cases here : uuid = entry.1 <;>
      simp only [here, List.mem_cons, true_or, false_or, ite_self, if_true, if_false]

theorem lookup_address_closeTx (connections : Connections) (entries : List (Uuid × List TxSocket))
    (target : SocketAddress) :
    (entries.foldl closeTx connections).socketAddrToUuid.lookup target =
      if some target ∈ entries.map (fun entry => address entry.2) then none
      else connections.socketAddrToUuid.lookup target := by
  induction entries generalizing connections with
  | nil => simp
  | cons entry entries ih =>
    have closed : (closeTx connections entry).socketAddrToUuid.lookup target =
        if some target = address entry.2 then none
        else connections.socketAddrToUuid.lookup target := by
      unfold closeTx address
      cases entry.2.head? with
      | none => simp
      | some socket => simp [unregisterPeer, Table.lookup_erase_iff]
    rw [List.foldl_cons, ih, closed, List.map_cons]
    by_cases here : some target = address entry.2 <;>
      simp only [here, List.mem_cons, true_or, false_or, ite_self, if_true, if_false]

theorem lookup_tx_closeUnlistedTx (connections : Connections) (peers : List PeerInfo) (uuid : Uuid) :
    (connections.closeUnlistedTx peers).p2pConnectionsTx.lookup uuid =
      if lists peers uuid then connections.p2pConnectionsTx.lookup uuid else none := by
  rw [closeUnlistedTx, lookup_tx_closeTx]
  cases listed : lists peers uuid with
  | true => simp [listed]
  | false =>
    cases found : connections.p2pConnectionsTx.lookup uuid with
    | none => simp
    | some pool => simp [listed, found, Table.mem_pairs_iff]

theorem lookup_address_closeUnlistedTx (connections : Connections) (peers : List PeerInfo)
    (target : SocketAddress) (uuid : Uuid) :
    (connections.closeUnlistedTx peers).socketAddrToUuid.lookup target = some uuid ↔
      connections.socketAddrToUuid.lookup target = some uuid ∧
        ∀ other pool, connections.p2pConnectionsTx.lookup other = some pool →
          address pool = some target → lists peers other = true := by
  rw [closeUnlistedTx, lookup_address_closeTx]
  split
  · next closed =>
    obtain ⟨⟨other, pool⟩, member, same⟩ := List.mem_map.mp closed
    obtain ⟨found, unlisted⟩ := List.mem_filter.mp member
    simp only [Bool.not_eq_true'] at unlisted
    simp only [reduceCtorEq, false_iff, not_and]
    intro _ all
    rw [all other pool (Table.mem_pairs_iff.mp found) same] at unlisted
    cases unlisted
  · next stays =>
    refine ⟨fun found => ⟨found, fun other pool opened same => ?_⟩, fun both => both.1⟩
    by_contra unlisted
    refine stays (List.mem_map.mpr ⟨(other, pool), List.mem_filter.mpr ⟨?_, ?_⟩, same⟩)
    · exact Table.mem_pairs_iff.mpr opened
    · simpa using unlisted

theorem rx_closeUnlistedTx (connections : Connections) (peers : List PeerInfo) :
    (connections.closeUnlistedTx peers).p2pConnectionsRx = connections.p2pConnectionsRx := by
  have closes (entries : List (Uuid × List TxSocket)) (start : Connections) :
      (entries.foldl closeTx start).p2pConnectionsRx = start.p2pConnectionsRx := by
    induction entries generalizing start with
    | nil => rfl
    | cons entry entries ih =>
      rw [List.foldl_cons, ih]
      unfold closeTx
      cases entry.2.head? <;> rfl
  exact closes _ connections

theorem lookup_rx_closeUnlistedRx (connections : Connections) (peers : List PeerInfo) (uuid : Uuid)
    (listed : lists peers uuid = true) :
    (connections.closeUnlistedRx peers).p2pConnectionsRx.lookup uuid =
      connections.p2pConnectionsRx.lookup uuid := by
  rw [closeUnlistedRx, Table.lookup_foldl_erase, if_neg]
  simp [listed]

theorem registerPeer_pools (connections : Connections) (address : SocketAddress) (uuid : Uuid) :
    (connections.registerPeer address uuid).2.p2pConnectionsTx = connections.p2pConnectionsTx ∧
      (connections.registerPeer address uuid).2.p2pConnectionsRx = connections.p2pConnectionsRx := by
  unfold registerPeer
  split <;> exact ⟨rfl, rfl⟩

theorem lists_iff (peers : List PeerInfo) (uuid : Uuid) :
    lists peers uuid = true ↔ ∃ peer ∈ peers, peer.peerUuid = uuid := by
  simp [lists]

section Connecting

variable (poolSize : Nat) (attempts : Uuid → Nat → Attempt)

def poolFor (peer : PeerInfo) : List TxSocket :=
  (connectPool peer (attempts peer.peerUuid) poolSize []).2

theorem tx_establishPeer (connections : Connections) (peer : PeerInfo)
    (missing : peer.peerUuid ∉ connections.p2pConnectionsTx) :
    (connections.establishPeer poolSize attempts peer).2.p2pConnectionsTx =
      connections.p2pConnectionsTx.insert peer.peerUuid (poolFor poolSize attempts peer) := by
  simp only [establishPeer, missing, if_false, registerPeer, poolFor]
  split
  · split <;> rfl
  · rfl

theorem establishPeer_connected (connections : Connections) (peer : PeerInfo)
    (missing : peer.peerUuid ∉ connections.p2pConnectionsTx)
    (established : (connections.establishPeer poolSize attempts peer).1 = true) :
    (connectPool peer (attempts peer.peerUuid) poolSize []).1 = true := by
  simp only [establishPeer, missing, if_false] at established
  split at established
  · assumption
  · cases established

theorem poolFor_answered (peer : PeerInfo) (nr : Nat) (socket : TxSocket)
    (found : (poolFor poolSize attempts peer)[nr]? = some socket) :
    attempts peer.peerUuid nr = .answered socket.connection :=
  connectPool_answered peer _ poolSize [] (by simp) nr socket found

def Answered (uuid : Uuid) (pool : List TxSocket) : Prop :=
  pool.length = poolSize ∧
    ∀ nr socket, pool[nr]? = some socket → attempts uuid nr = .answered socket.connection

structure Opened (peers : List PeerInfo) (before : Connections) (failed : List Uuid)
    (after : Connections) : Prop where
  kept : ∀ uuid ∈ before.p2pConnectionsTx,
    after.p2pConnectionsTx.lookup uuid = before.p2pConnectionsTx.lookup uuid
  answered : ∀ uuid pool, after.p2pConnectionsTx.lookup uuid = some pool →
    uuid ∉ before.p2pConnectionsTx → uuid ∉ failed → Answered poolSize attempts uuid pool
  listed : failed = [] → ∀ peer ∈ peers, peer.peerUuid ∈ after.p2pConnectionsTx

theorem connectPeers_opened (peers : List PeerInfo) (connections : Connections) :
    Opened poolSize attempts peers connections
      (connectPeers poolSize attempts peers connections).1
      (connectPeers poolSize attempts peers connections).2 := by
  induction peers generalizing connections with
  | nil =>
    refine ⟨fun _ _ => rfl, fun uuid pool found missing _ => ?_, by simp⟩
    exact absurd (AList.lookup_isSome.mp (by simp [connectPeers] at found; simp [found])) missing
  | cons peer peers ih =>
    unfold connectPeers
    by_cases present : peer.peerUuid ∈ connections.p2pConnectionsTx
    · simp only [present, if_true]
      obtain ⟨kept, answered, listed⟩ := ih connections
      refine ⟨kept, answered, fun none other member => ?_⟩
      rcases List.mem_cons.mp member with rfl | later
      · exact AList.lookup_isSome.mp (by rw [kept _ present]; exact AList.lookup_isSome.mpr present)
      · exact listed none other later
    · simp only [present, if_false]
      have inserted := tx_establishPeer poolSize attempts connections peer present
      have connected := establishPeer_connected poolSize attempts connections peer present
      rcases outcome : connections.establishPeer poolSize attempts peer with ⟨established, next⟩
      rw [outcome] at inserted connected
      have lookup_next (uuid : Uuid) : next.p2pConnectionsTx.lookup uuid =
          if uuid = peer.peerUuid then some (poolFor poolSize attempts peer)
          else connections.p2pConnectionsTx.lookup uuid := by
        rw [inserted, Table.lookup_insert_iff]
      have kept_next (uuid : Uuid) (before : uuid ∈ connections.p2pConnectionsTx) :
          next.p2pConnectionsTx.lookup uuid = connections.p2pConnectionsTx.lookup uuid := by
        rw [lookup_next, if_neg]
        rintro rfl
        exact present before
      cases established with
      | true =>
        have mem_next (uuid : Uuid) : uuid ∈ next.p2pConnectionsTx ↔
            uuid = peer.peerUuid ∨ uuid ∈ connections.p2pConnectionsTx := by
          rw [inserted, AList.mem_insert]
        obtain ⟨kept, answered, listed⟩ := ih next
        refine ⟨fun uuid before => ?_, fun uuid pool found missing tried => ?_, fun none other member => ?_⟩
        · rw [kept uuid ((mem_next uuid).mpr (.inr before)), kept_next uuid before]
        · by_cases opened : uuid = peer.peerUuid
          · -- The pool of the first peer has been opened here and is left alone by the rest.
            rw [kept uuid ((mem_next uuid).mpr (.inl opened)), lookup_next, if_pos opened] at found
            obtain rfl := Option.some.inj found
            subst opened
            refine ⟨?_, poolFor_answered poolSize attempts peer⟩
            have length := connectPool_length peer _ poolSize [] (connected rfl)
            simpa [poolFor] using length
          · refine answered uuid pool found (fun after => ?_) tried
            exact ((mem_next uuid).mp after).elim opened missing
        · rcases List.mem_cons.mp member with rfl | later
          · have there : other.peerUuid ∈ next.p2pConnectionsTx := (mem_next _).mpr (.inl rfl)
            rw [← AList.lookup_isSome, kept _ there]
            exact AList.lookup_isSome.mpr there
          · exact listed none other later
      | false =>
        refine ⟨kept_next, fun uuid pool found missing tried => ?_, by simp⟩
        rw [lookup_next, if_neg (fun same => tried (by simp [same]))] at found
        exact absurd (AList.lookup_isSome.mp (by simp [found])) missing

end Connecting

end Connections

end Pccl.Client
