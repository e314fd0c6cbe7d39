import Pccl.Server.Framing
import Pccl.Packet.Messages
import Pccl.Shared.Table

set_option autoImplicit false

namespace Pccl.Server

open Buffer Packet

/-- `ServerSocketState`; the handles are numbered as they are accepted, and `delivered` is what the read
callbacks have been called with, each payload with the handle it was read from. -/
structure ServerSocket where
  sockaddrToUvstream : Table SocketAddress Nat
  uvstreamToSockaddr : Table Nat SocketAddress
  currentRecvBuffers : SocketAddress → RecvBuffer
  closing : Nat → Bool
  accepted : Nat
  delivered : List (Nat × List Byte)
  torn : List SocketAddress

inductive SocketEvent where
  | connect (address : SocketAddress)
  | read (stream : Nat) (data : List Byte)
  | close (stream : Nat)
deriving DecidableEq, Repr

namespace ServerSocket

def initial : ServerSocket := ⟨∅, ∅, fun _ => .empty, fun _ => false, 0, [], []⟩

variable (server : ServerSocket)

def onNewConnection (address : SocketAddress) : ServerSocket :=
  { server with
    sockaddrToUvstream := server.sockaddrToUvstream.insert address server.accepted
    uvstreamToSockaddr := server.uvstreamToSockaddr.insert server.accepted address
    accepted := server.accepted + 1 }

def closeClientConnection (address : SocketAddress) : ServerSocket :=
  match server.sockaddrToUvstream.lookup address with
  | none => server
  | some stream => { server with closing := Function.update server.closing stream true }

def onClientRead (stream : Nat) (data : List Byte) : ServerSocket :=
  match server.uvstreamToSockaddr.lookup stream with
  | none => server
  | some address =>
    -- libuv reads nothing from a handle that is closing.
    if server.closing stream then server
    else
      let connection := Connection.onClientRead ⟨server.currentRecvBuffers address, [], false⟩ data
      let next := { server with
        currentRecvBuffers := Function.update server.currentRecvBuffers address connection.current
        delivered := server.delivered ++ connection.dispatched.map (Prod.mk stream) }
      if connection.closed then next.closeClientConnection address else next

def onClientClose (stream : Nat) : ServerSocket :=
  match server.uvstreamToSockaddr.lookup stream with
  | none => server
  | some address =>
    { server with
      sockaddrToUvstream := server.sockaddrToUvstream.erase address
      uvstreamToSockaddr := server.uvstreamToSockaddr.erase stream
      torn := if server.currentRecvBuffers address = .empty then server.torn else address :: server.torn }

def step : SocketEvent → ServerSocket → ServerSocket
  | .connect address, server => server.onNewConnection address
  | .read stream data, server => server.onClientRead stream data
  | .close stream, server => server.onClientClose stream

def run (events : List SocketEvent) : ServerSocket := Machine.run step events initial

def deliveredTo (stream : Nat) : List (List Byte) :=
  (server.delivered.filter fun entry => entry.1 = stream).map Prod.snd

end ServerSocket

def readsOf (stream : Nat) (events : List SocketEvent) : List (List Byte) :=
  events.filterMap fun event =>
    match event with
    | .read other data => if other = stream then some data else none
    | _ => none

/-- Two connections that are open at a time come from different addresses, and only open ones are read
from and closed. -/
def Possible (event : SocketEvent) (server : ServerSocket) : Prop :=
  match event with
  | .connect address => server.sockaddrToUvstream.lookup address = none
  | .read stream _ => server.uvstreamToSockaddr.lookup stream ≠ none
  | .close stream => server.uvstreamToSockaddr.lookup stream ≠ none

/-- A connection does not come from an address of which one has been closed inside a packet. -/
def Untorn (event : SocketEvent) (server : ServerSocket) : Prop :=
  match event with
  | .connect address => address ∉ server.torn
  | _ => True

instance (event : SocketEvent) (server : ServerSocket) : Decidable (Possible event server) :=
  match event with
  | .connect _ => inferInstanceAs (Decidable (_ = _))
  | .read _ _ => inferInstanceAs (Decidable (_ ≠ _))
  | .close _ => inferInstanceAs (Decidable (_ ≠ _))

instance (event : SocketEvent) (server : ServerSocket) : Decidable (Untorn event server) :=
  match event with
  | .connect _ => inferInstanceAs (Decidable (_ ∉ _))
  | .read _ _ => inferInstanceAs (Decidable True)
  | .close _ => inferInstanceAs (Decidable True)

section History

variable {earlier dispatched : List (List Byte)}

theorem readLoop_after (turns : Nat) (current : RecvBuffer) (dispatched : List (List Byte))
    (closed : Bool) (data : List Byte) :
    Connection.readLoop turns ⟨current, earlier ++ dispatched, closed⟩ data =
      let next := Connection.readLoop turns ⟨current, dispatched, closed⟩ data
      { next with dispatched := earlier ++ next.dispatched } := by
  induction turns generalizing current dispatched data with
  | zero => rfl
  | succ turns ih =>
    unfold Connection.readLoop
    by_cases none_ : data = []
    · simp [none_]
    · rw [if_neg none_, if_neg none_]
      cases length : Connection.readLength current data with
      | none => rfl
      | some found =>
        simp only [Connection.insert]
        split
        · simpa using ih .empty _ _
        · exact ih _ _ _

theorem onClientRead_after (current : RecvBuffer) (data : List Byte) :
    Connection.onClientRead ⟨current, earlier, false⟩ data =
      let next := Connection.onClientRead ⟨current, [], false⟩ data
      { next with dispatched := earlier ++ next.dispatched } := by
  simpa [Connection.onClientRead] using
    @readLoop_after earlier (data.length + 1) current [] false data

end History

@[simp] theorem readsOf_connect (stream : Nat) (events : List SocketEvent) (address : SocketAddress) :
    readsOf stream (events ++ [.connect address]) = readsOf stream events := by
  simp [readsOf]

@[simp] theorem readsOf_close (stream other : Nat) (events : List SocketEvent) :
    readsOf stream (events ++ [.close other]) = readsOf stream events := by
  simp [readsOf]

theorem readsOf_read (stream : Nat) (events : List SocketEvent) (data : List Byte) :
    readsOf stream (events ++ [.read stream data]) = readsOf stream events ++ [data] := by
  simp [readsOf]

theorem readsOf_read_of_ne {stream other : Nat} (apart : other ≠ stream) (events : List SocketEvent)
    (data : List Byte) :
    readsOf stream (events ++ [.read other data]) = readsOf stream events := by
  simp [readsOf, apart]

theorem receive_concat (reads : List (List Byte)) (data : List Byte) :
    Connection.receive (reads ++ [data]) = (Connection.receive reads).onClientRead data := by
  rw [Connection.receive, Machine.run_append]
  rfl

def Mutual (streams : Table Nat SocketAddress) (addresses : Table SocketAddress Nat) : Prop :=
  ∀ stream address, streams.lookup stream = some address ↔ addresses.lookup address = some stream

namespace Mutual

variable {streams : Table Nat SocketAddress} {addresses : Table SocketAddress Nat} {stream : Nat}
  {address : SocketAddress}

theorem insert (mutually : Mutual streams addresses) (new : streams.lookup stream = none)
    (free : addresses.lookup address = none) :
    Mutual (streams.insert stream address) (addresses.insert address stream) := by
  intro other place
  rw [Table.lookup_insert_iff, Table.lookup_insert_iff]
  by_cases here : other = stream
  · by_cases there : place = address
    · simp [here, there]
    · have nobody := mt (mutually stream place).mpr (by simp [new])
      simp [here, there, nobody, Ne.symm there]
  · by_cases there : place = address
    · have nobody := mt (mutually other address).mp (by simp [free])
      simp [here, there, nobody, Ne.symm here]
    · simp [here, there, mutually other place]

theorem erase (mutually : Mutual streams addresses) (known : streams.lookup stream = some address) :
    Mutual (streams.erase stream) (addresses.erase address) := by
  intro other place
  have back := (mutually stream address).mp known
  rw [Table.lookup_erase_iff, Table.lookup_erase_iff]
  by_cases here : other = stream
  · by_cases there : place = address
    · simp [here, there]
    · have elsewhere := mt (mutually stream place).mpr (by simp [known, Ne.symm there])
      simp [here, there, elsewhere]
  · by_cases there : place = address
    · have somebody := mt (mutually other address).mp (by simp [back, Ne.symm here])
      simp [here, there, somebody]
    · simp [here, there, mutually other place]

theorem apart (mutually : Mutual streams addresses) (known : streams.lookup stream = some address)
    {other : Nat} {place : SocketAddress} (also : streams.lookup other = some place)
    (distinct : other ≠ stream) : place ≠ address := by
  rintro rfl
  have first := (mutually stream place).mp known
  have second := (mutually other place).mp also
  rw [first] at second
  exact distinct (Option.some.inj second).symm

end Mutual

structure Separated (events : List SocketEvent) (server : ServerSocket) : Prop where
  mutually : Mutual server.uvstreamToSockaddr server.sockaddrToUvstream
  live : ∀ stream address, server.uvstreamToSockaddr.lookup stream = some address →
    stream < server.accepted ∧ Connection.receive (readsOf stream events) =
      ⟨server.currentRecvBuffers address, server.deliveredTo stream, server.closing stream⟩
  own : ∀ stream, server.deliveredTo stream = (Connection.receive (readsOf stream events)).dispatched
  unused : ∀ address, server.sockaddrToUvstream.lookup address = none → address ∉ server.torn →
    server.currentRecvBuffers address = .empty
  new : ∀ stream, server.accepted ≤ stream → readsOf stream events = [] ∧ server.closing stream = false

theorem Separated.initial : Separated [] .initial where
  mutually := by simp [Mutual, ServerSocket.initial]
  live := by simp [ServerSocket.initial]
  own _ := rfl
  unused _ _ _ := rfl
  new _ _ := ⟨rfl, rfl⟩

section Steps

variable {events : List SocketEvent} {server : ServerSocket} {stream : Nat} {address : SocketAddress}

theorem Separated.connect (separated : Separated events server)
    (free : server.sockaddrToUvstream.lookup address = none) (whole : address ∉ server.torn) :
    Separated (events ++ [.connect address]) (server.onNewConnection address) := by
  have unknown : server.uvstreamToSockaddr.lookup server.accepted = none := by
    refine Option.eq_none_iff_forall_ne_some.mpr fun other known => ?_
    exact (separated.live _ _ known).1.false
  have nothing := separated.new server.accepted le_rfl
  refine ⟨separated.mutually.insert unknown free, fun stream other known => ?_, fun stream => ?_,
    fun other away => ?_, fun stream later => ?_⟩
  · change (server.uvstreamToSockaddr.insert server.accepted address).lookup stream = _ at known
    rw [Table.lookup_insert_iff] at known
    rw [readsOf_connect]
    split at known
    next here =>
      -- The new connection has read nothing, and its buffer is as good as new.
      cases known
      subst here
      refine ⟨Nat.lt_succ_self _, ?_⟩
      have delivered := separated.own server.accepted
      rw [nothing.1] at delivered ⊢
      change Connection.initial = ⟨server.currentRecvBuffers address, server.deliveredTo server.accepted,
        server.closing server.accepted⟩
      rw [separated.unused address free whole, delivered, nothing.2]
      rfl
    next =>
      obtain ⟨before, same⟩ := separated.live stream other known
      exact ⟨Nat.lt_succ_of_lt before, same⟩
  · rw [readsOf_connect]
    exact separated.own stream
  · change (server.sockaddrToUvstream.insert address server.accepted).lookup other = none at away
    rw [Table.lookup_insert_iff] at away
    split at away
    · cases away
    · exact separated.unused other away
  · rw [readsOf_connect]
    exact separated.new stream (Nat.le_of_succ_le later)

theorem Separated.close (separated : Separated events server)
    (known : server.uvstreamToSockaddr.lookup stream = some address) :
    Separated (events ++ [.close stream]) (server.onClientClose stream) := by
  unfold ServerSocket.onClientClose
  rw [known]
  refine ⟨separated.mutually.erase known, fun other place also => ?_, fun other => ?_,
    fun place away whole => ?_, fun other later => ?_⟩
  · change (server.uvstreamToSockaddr.erase stream).lookup other = _ at also
    rw [Table.lookup_erase_iff] at also
    split at also
    · cases also
    · rw [readsOf_close]
      exact separated.live other place also
  · rw [readsOf_close]
    exact separated.own other
  · change (server.sockaddrToUvstream.erase address).lookup place = none at away
    rw [Table.lookup_erase_iff] at away
    dsimp only at whole
    split at whole
    next empty =>
      split at away
      next here => exact here ▸ empty
      next => exact separated.unused place away whole
    next =>
      obtain ⟨elsewhere, untorn⟩ := not_or.mp (mt List.mem_cons.mpr whole)
      rw [if_neg elsewhere] at away
      exact separated.unused place away untorn
  · rw [readsOf_close]
    exact separated.new other later

theorem onClientRead_eq (mutually : Mutual server.uvstreamToSockaddr server.sockaddrToUvstream)
    (known : server.uvstreamToSockaddr.lookup stream = some address)
    (open_ : server.closing stream = false) (data : List Byte) :
    server.onClientRead stream data =
      let connection := Connection.onClientRead ⟨server.currentRecvBuffers address, [], false⟩ data
      { server with
        currentRecvBuffers := Function.update server.currentRecvBuffers address connection.current
        delivered := server.delivered ++ connection.dispatched.map (Prod.mk stream)
        closing := Function.update server.closing stream connection.closed } := by
  have back := (mutually stream address).mp known
  have going : ¬ server.closing stream = true := by simp [open_]
  unfold ServerSocket.onClientRead
  rw [known]
  dsimp only
  rw [if_neg going]
  split
  next closed =>
    rw [ServerSocket.closeClientConnection]
    simp only [back, closed]
  next still =>
    have same : Function.update server.closing stream false = server.closing := by
      rw [← open_, Function.update_eq_self]
    simp only [Bool.eq_false_iff.mpr still, same]

theorem deliveredTo_append (payloads : List (List Byte)) (other : Nat) :
    ServerSocket.deliveredTo
        { server with delivered := server.delivered ++ payloads.map (Prod.mk stream) } other =
      server.deliveredTo other ++ if stream = other then payloads else [] := by
  by_cases here : stream = other
  · simp [ServerSocket.deliveredTo, List.filter_map, Function.comp_def, here]
  · simp [ServerSocket.deliveredTo, List.filter_map, Function.comp_def, here]

theorem Separated.read (separated : Separated events server)
    (known : server.uvstreamToSockaddr.lookup stream = some address) (data : List Byte) :
    Separated (events ++ [.read stream data]) (server.onClientRead stream data) := by
  obtain ⟨before, same⟩ := separated.live stream address known
  cases closing : server.closing stream with
  | true =>
    -- Nothing is read from the handle, and a closed connection does not read either.
    have idle : server.onClientRead stream data = server := by
      unfold ServerSocket.onClientRead
      rw [known]
      exact if_pos closing
    have still : Connection.receive (readsOf stream events ++ [data]) =
        Connection.receive (readsOf stream events) := by
      rw [receive_concat, same, closing]
      rfl
    have reads (other : Nat) : Connection.receive (readsOf other (events ++ [.read stream data])) =
        Connection.receive (readsOf other events) := by
      by_cases here : stream = other
      · subst here
        rw [readsOf_read, still]
      · rw [readsOf_read_of_ne here]
    rw [idle]
    refine ⟨separated.mutually, fun other place also => ?_, fun other => ?_, separated.unused,
      fun other later => ?_⟩
    · rw [reads]
      exact separated.live other place also
    · rw [reads]
      exact separated.own other
    · rw [readsOf_read_of_ne (by omega)]
      exact separated.new other later
  | false =>
    rw [onClientRead_eq separated.mutually known closing data]
    have extended : Connection.receive (readsOf stream events ++ [data]) =
        let next := Connection.onClientRead ⟨server.currentRecvBuffers address, [], false⟩ data
        { next with dispatched := server.deliveredTo stream ++ next.dispatched } := by
      rw [receive_concat, same, closing]
      exact onClientRead_after _ data
    generalize Connection.onClientRead ⟨server.currentRecvBuffers address, [], false⟩ data = next
      at extended ⊢
    have delivered (other : Nat) : ServerSocket.deliveredTo
        { server with
          currentRecvBuffers := Function.update server.currentRecvBuffers address next.current
          delivered := server.delivered ++ next.dispatched.map (Prod.mk stream)
          closing := Function.update server.closing stream next.closed } other =
        server.deliveredTo other ++ if stream = other then next.dispatched else [] :=
      @deliveredTo_append server stream next.dispatched other
    refine ⟨separated.mutually, fun other place also => ?_, fun other => ?_, fun place away whole => ?_,
      fun other later => ?_⟩
    · rw [delivered]
      by_cases here : stream = other
      · subst here
        cases known.symm.trans also
        exact ⟨before, by simp [readsOf_read, extended]⟩
      · obtain ⟨earlier, unchanged⟩ := separated.live other place also
        have elsewhere := separated.mutually.apart known also (Ne.symm here)
        refine ⟨earlier, ?_⟩
        rw [readsOf_read_of_ne here, unchanged]
        simp [here, Ne.symm here, elsewhere]
    · rw [delivered]
      by_cases here : stream = other
      · subst here
        simp [readsOf_read, extended]
      · rw [readsOf_read_of_ne here, if_neg here, List.append_nil]
        exact separated.own other
    · have elsewhere : place ≠ address := by
        rintro rfl
        rw [(separated.mutually stream place).mp known] at away
        cases away
      change Function.update server.currentRecvBuffers address next.current place = _
      rw [Function.update_of_ne elsewhere]
      exact separated.unused place away whole
    · have later' : server.accepted ≤ other := later
      have here : other ≠ stream := by omega
      change _ ∧ Function.update server.closing stream next.closed other = false
      rw [readsOf_read_of_ne (Ne.symm here), Function.update_of_ne here]
      exact separated.new other later

end Steps

theorem run_separated (events : List SocketEvent)
    (lawful : Machine.Always ServerSocket.step
      (fun event server => Possible event server ∧ Untorn event server) events .initial) :
    Separated events (ServerSocket.run events) := by
  induction events using List.reverseRecOn with
  | nil => exact .initial
  | append_singleton events event ih =>
    obtain ⟨before, last, _⟩ := Machine.always_append lawful
    have separated := ih before
    change Possible event (ServerSocket.run events) ∧ Untorn event (ServerSocket.run events) at last
    rw [ServerSocket.run, Machine.run_append]
    change Separated _ (ServerSocket.step event (ServerSocket.run events))
    obtain ⟨possible, untorn⟩ := last
    cases event with
    | connect address => exact separated.connect possible untorn
    | read stream data =>
      obtain ⟨address, known⟩ := Option.ne_none_iff_exists'.mp possible
      exact separated.read known data
    | close stream =>
      obtain ⟨address, known⟩ := Option.ne_none_iff_exists'.mp possible
      exact separated.close known

theorem payloads_of_own_bytes (events : List SocketEvent)
    (lawful : Machine.Always ServerSocket.step
      (fun event server => Possible event server ∧ Untorn event server) events .initial) (stream : Nat) :
    (ServerSocket.run events).deliveredTo stream =
        (Connection.receive (readsOf stream events)).dispatched ∧
      ∀ address, (ServerSocket.run events).uvstreamToSockaddr.lookup stream = some address →
        readsOf stream events = [] →
          (ServerSocket.run events).currentRecvBuffers address = .empty := by
  have separated := run_separated events lawful
  refine ⟨separated.own stream, fun address known nothing => ?_⟩
  have same := (separated.live stream address known).2
  rw [nothing] at same
  exact (congrArg Connection.current same).symm

namespace Sample

def peer : SocketAddress := ⟨.ipv4 (BitVec.ofNat 32 (2 ^ 25)), 5000⟩

def reconnecting : List SocketEvent :=
  [.connect peer, .read 0 (frame [7, 8]), .close 0, .connect peer,
    .read 1 (frame [1, 2] ++ [0, 0, 0, 0, 0, 0, 0, 5, 9])]

def tornConnection : List SocketEvent :=
  [.connect peer, .read 0 [0, 0, 0, 0, 0, 0, 0, 5, 9, 9], .close 0, .connect peer, .read 1 (frame [1, 2])]

end Sample

open Sample

theorem payloads_of_own_bytes_reconnecting :
    (ServerSocket.run reconnecting).deliveredTo 1 = [[1, 2]] := by
  have own := (payloads_of_own_bytes reconnecting (by decide +kernel) 1).1
  rw [own]
  decide +kernel

theorem bytes_inherited :
    Machine.Always ServerSocket.step Possible tornConnection .initial ∧
      (ServerSocket.run tornConnection).deliveredTo 1 = [[9, 9, 0, 0, 0]] ∧
      (Connection.receive (readsOf 1 tornConnection)).dispatched = [[1, 2]] := by
  decide +kernel

end Pccl.Server
