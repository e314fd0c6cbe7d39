import Pccl.Shared.Machine
import Pccl.Packet.Wire

set_option autoImplicit false

/-!
The receive thread of a `QueuedSocket` files packets, which all have a packet id, and any number of
threads take them out. A scan of the queue holds the mutex. A thread that has found nothing waits and
then scans again from the front. Nothing on the way to the caller catches the exception of a
`deserialize` that reads past the end of its packet.
-/

namespace Pccl.Socket

open Packet Buffer

/-- The exception of a read past the end of a buffer. -/
structure OutOfRange where
deriving DecidableEq

structure ReceivedPacket where
  number : Nat
  data : List Byte
deriving DecidableEq

def ReceivedPacket.hasId (packet : ReceivedPacket) (packetId : Nat) : Bool :=
  (readIntegral 2 packet.data).any fun read => read.1 = packetId

/-- A call of `receiveMatchingPacket` or, if it is not matching, of `receivePacket`. -/
structure Request where
  packetId : Nat
  matching : Bool
  noWait : Bool
deriving DecidableEq

/-- What a call has taken out of the queue and how it ended. -/
structure Return (Value : Type) where
  thread : Nat
  request : Request
  taken : Option ReceivedPacket
  result : Except OutOfRange (Option Value)

structure QueuedSocket (Value : Type) where
  running : Bool := true
  recvQueue : List ReceivedPacket := []
  callers : Nat → Option Request := fun _ => none
  arrivals : List (List Byte) := []
  returns : List (Return Value) := []

inductive SocketEvent (Value : Type)
  | receive (data : List Byte)
  | interrupt
  | call (thread : Nat) (request : Request)
  -- What the predicate says may have changed since the last scan of the call.
  | scan (thread : Nat) (predicate : Value → Bool)

namespace QueuedSocket

variable {Value : Type} (deserialize : Nat → Reader Byte Value)

def parsePacket (packetId : Nat) (data : List Byte) : Except OutOfRange (Option Value) :=
  match readIntegral 2 data with
  | none => .error ⟨⟩
  | some (actualPacketId, buffer) =>
    if actualPacketId ≠ packetId then .ok none
    else
      -- No `deserialize` of a packet returns false: it reads the packet or throws.
      match deserialize packetId buffer with
      | none => .error ⟨⟩
      | some (packet, _) => .ok (some packet)

def wants (request : Request) (predicate : Value → Bool) (packet : ReceivedPacket) :
    Except OutOfRange Bool :=
  if !packet.hasId request.packetId then .ok false
  else if request.matching then
    (parsePacket deserialize request.packetId packet.data).map fun parsed => parsed.any predicate
  else .ok true

def pollNext (wanted : ReceivedPacket → Except OutOfRange Bool) :
    List ReceivedPacket → Except OutOfRange (Option (ReceivedPacket × List ReceivedPacket))
  | [] => .ok none
  | packet :: queue =>
    match wanted packet with
    | .error thrown => .error thrown
    | .ok true => .ok (some (packet, queue))
    | .ok false =>
      (pollNext wanted queue).map fun found => found.map fun found => (found.1, packet :: found.2)

def finish (socket : QueuedSocket Value) (thread : Nat) (request : Request)
    (taken : Option ReceivedPacket) (result : Except OutOfRange (Option Value)) : QueuedSocket Value :=
  { socket with
    callers := Function.update socket.callers thread none
    returns := socket.returns ++ [⟨thread, request, taken, result⟩] }

def step (event : SocketEvent Value) (socket : QueuedSocket Value) : QueuedSocket Value :=
  match event with
  | .receive data =>
    { socket with
      recvQueue := socket.recvQueue ++ [⟨socket.arrivals.length, data⟩]
      arrivals := socket.arrivals ++ [data] }
  | .interrupt => { socket with running := false }
  | .call thread request =>
    match socket.callers thread with
    | some _ => socket
    | none =>
      if socket.running then
        { socket with callers := Function.update socket.callers thread (some request) }
      else socket.finish thread request none (.ok none)
  | .scan thread predicate =>
    match socket.callers thread with
    | none => socket
    | some request =>
      match pollNext (wants deserialize request predicate) socket.recvQueue with
      -- The predicate has thrown in the middle of the scan, so nothing has been erased.
      | .error thrown => socket.finish thread request none (.error thrown)
      | .ok (some (packet, recvQueue)) =>
        { socket with recvQueue }.finish thread request (some packet)
          (parsePacket deserialize request.packetId packet.data)
      | .ok none =>
        if request.noWait || !socket.running then socket.finish thread request none (.ok none)
        else socket

def run (events : List (SocketEvent Value)) : QueuedSocket Value := Machine.run (step deserialize) events {}

def remaining (arrivals : List (List Byte)) (taken : List Nat) : List ReceivedPacket :=
  (arrivals.mapIdx ReceivedPacket.mk).filter fun packet => packet.number ∉ taken

theorem mem_remaining {arrivals : List (List Byte)} {taken : List Nat} {packet : ReceivedPacket} :
    packet ∈ remaining arrivals taken ↔
      arrivals[packet.number]? = some packet.data ∧ packet.number ∉ taken := by
  obtain ⟨number, data⟩ := packet
  simp [remaining, List.mem_mapIdx, List.getElem?_eq_some_iff]

theorem remaining_concat {arrivals : List (List Byte)} {taken : List Nat}
    (known : ∀ number ∈ taken, number < arrivals.length) (data : List Byte) :
    remaining (arrivals ++ [data]) taken = remaining arrivals taken ++ [⟨arrivals.length, data⟩] := by
  have fresh : arrivals.length ∉ taken := fun present => Nat.lt_irrefl _ (known _ present)
  simp [remaining, fresh]

theorem erase_remaining {arrivals : List (List Byte)} {taken : List Nat} {packet : ReceivedPacket}
    (present : packet ∈ remaining arrivals taken) :
    (remaining arrivals taken).erase packet = remaining arrivals (taken ++ [packet.number]) := by
  have numbers : (arrivals.mapIdx ReceivedPacket.mk).map ReceivedPacket.number =
      List.range arrivals.length := by
    apply List.ext_getElem <;> simp
  have distinct : (arrivals.mapIdx ReceivedPacket.mk).Nodup :=
    .of_map ReceivedPacket.number (numbers ▸ List.nodup_range)
  rw [remaining, (distinct.filter _).erase_eq_filter, List.filter_filter, remaining]
  refine List.filter_congr fun other member => ?_
  -- A packet is known by its number.
  have same : other = packet ↔ other.number = packet.number := by
    refine ⟨congrArg _, fun number => ?_⟩
    have here : other ∈ remaining arrivals [] := by simpa [remaining] using member
    have data := (number ▸ (mem_remaining.mp here).1).symm.trans (mem_remaining.mp present).1
    cases other
    cases packet
    simp_all
  rw [Bool.eq_iff_iff]
  simp [same, and_comm]

theorem pollNext_eq (wanted : ReceivedPacket → Except OutOfRange Bool) (queue : List ReceivedPacket) :
    pollNext wanted queue =
      match queue.find? fun packet => wanted packet ≠ .ok false with
      | some packet => (wanted packet).map fun _ => some (packet, queue.erase packet)
      | none => .ok none := by
  induction queue with
  | nil => rfl
  | cons packet queue ih =>
    cases wish : wanted packet with
    | error thrown => simp [pollNext, wish, Except.map]
    | ok found =>
      cases found with
      | true => simp [pollNext, wish, Except.map]
      | false =>
        simp only [pollNext, wish, ih, List.find?_cons, ne_eq, not_true_eq_false, decide_false]
        cases first : queue.find? fun packet => decide (¬ wanted packet = .ok false) with
        | none => rfl
        | some other =>
          have different : packet ≠ other := by
            rintro rfl
            simpa [wish] using List.find?_some first
          cases last : wanted other <;> simp [last, Except.map, different]

def taken (socket : QueuedSocket Value) : List Nat :=
  socket.returns.filterMap fun entry => entry.taken.map ReceivedPacket.number

def untaken (socket : QueuedSocket Value) : List ReceivedPacket := remaining socket.arrivals socket.taken

structure Ordered (socket : QueuedSocket Value) : Prop where
  queue : socket.recvQueue = socket.untaken
  once : socket.taken.Nodup
  known : ∀ number ∈ socket.taken, number < socket.arrivals.length

variable {deserialize} {socket : QueuedSocket Value}

theorem taken_finish (thread : Nat) (request : Request) (packet : Option ReceivedPacket)
    (result : Except OutOfRange (Option Value)) :
    (socket.finish thread request packet result).taken =
      socket.taken ++ (packet.map ReceivedPacket.number).toList := by
  cases packet <;> simp [taken, finish]

theorem Ordered.finish_none (ordered : socket.Ordered) (thread : Nat) (request : Request)
    (result : Except OutOfRange (Option Value)) : (socket.finish thread request none result).Ordered := by
  have same : (socket.finish thread request none result).taken = socket.taken := by simp [taken_finish]
  exact ⟨ordered.queue.trans (congrArg (remaining socket.arrivals) same.symm), same ▸ ordered.once,
    same ▸ ordered.known⟩

theorem Ordered.take (ordered : socket.Ordered) (thread : Nat) (request : Request)
    {packet : ReceivedPacket} (present : packet ∈ socket.untaken)
    (result : Except OutOfRange (Option Value)) :
    (({ socket with recvQueue := socket.untaken.erase packet }).finish thread request (some packet)
      result).Ordered := by
  obtain ⟨arrived, free⟩ := mem_remaining.mp present
  have grown : (({ socket with recvQueue := socket.untaken.erase packet }).finish thread request
      (some packet) result).taken = socket.taken ++ [packet.number] := taken_finish _ _ _ _
  refine ⟨(erase_remaining present).trans (congrArg (remaining socket.arrivals) grown.symm), ?_, ?_⟩
  · rw [grown, ← List.concat_eq_append]
    exact ordered.once.concat free
  · rw [grown]
    intro number member
    rcases List.mem_append.mp member with earlier | now
    · exact ordered.known number earlier
    · rw [List.mem_singleton.mp now]
      exact (List.getElem?_eq_some_iff.mp arrived).1

-- A scan ends at the first packet that the call does not pass over.
theorem Ordered.scan (ordered : socket.Ordered) {thread : Nat} {request : Request}
    (calls : socket.callers thread = some request) (predicate : Value → Bool) :
    step deserialize (.scan thread predicate) socket =
      match socket.untaken.find? fun packet => wants deserialize request predicate packet ≠ .ok false with
      | some packet =>
        match wants deserialize request predicate packet with
        | .error thrown => socket.finish thread request none (.error thrown)
        | .ok _ =>
          { socket with recvQueue := socket.untaken.erase packet }.finish thread request (some packet)
            (parsePacket deserialize request.packetId packet.data)
      | none =>
        if request.noWait || !socket.running then socket.finish thread request none (.ok none)
        else socket := by
  simp only [QueuedSocket.step, calls, pollNext_eq, ordered.queue]
  cases socket.untaken.find? fun packet =>
      decide (wants deserialize request predicate packet ≠ .ok false) with
  | none => rfl
  | some packet =>
    cases wish : wants deserialize request predicate packet <;> simp [wish, Except.map]

theorem Ordered.step (ordered : socket.Ordered) (event : SocketEvent Value) :
    (step deserialize event socket).Ordered := by
  cases event with
  | receive data =>
    refine ⟨?_, ordered.once, fun number present => ?_⟩
    · refine Eq.trans ?_ (remaining_concat ordered.known data).symm
      exact congrArg (· ++ _) ordered.queue
    · exact (ordered.known number present).trans (by simp [QueuedSocket.step])
  | interrupt => exact ⟨ordered.queue, ordered.once, ordered.known⟩
  | call thread request =>
    simp only [QueuedSocket.step]
    split
    next => exact ordered
    next =>
      split
      next => exact ⟨ordered.queue, ordered.once, ordered.known⟩
      next => exact ordered.finish_none thread request _
  | scan thread predicate =>
    cases calls : socket.callers thread with
    | none => simpa only [QueuedSocket.step, calls] using ordered
    | some request =>
      rw [ordered.scan calls]
      split
      next packet first =>
        split
        next => exact ordered.finish_none thread request _
        next => exact ordered.take thread request (List.mem_of_find?_eq_some first) _
      next =>
        split
        next => exact ordered.finish_none thread request _
        next => exact ordered

theorem run_ordered (deserialize : Nat → Reader Byte Value) (events : List (SocketEvent Value)) :
    (run deserialize events).Ordered := by
  have keeps (event : SocketEvent Value) (socket : QueuedSocket Value) (ordered : socket.Ordered)
      (_ : True) : (QueuedSocket.step deserialize event socket).Ordered := ordered.step event
  exact Machine.run_preserves keeps events {} ⟨rfl, List.nodup_nil, by simp [taken]⟩
    (Machine.always_of_forall (fun _ _ => trivial) _ _)

variable (deserialize) in
/-- The packet has the id that the call asks for and, where the call has a predicate, satisfies it. -/
def qualifies (request : Request) (predicate : Value → Bool) (packet : ReceivedPacket) : Bool :=
  packet.hasId request.packetId && (!request.matching ||
    (parsePacket deserialize request.packetId packet.data).toOption.any fun parsed => parsed.any predicate)

variable (deserialize) in
/-- The call takes the earliest packet left that qualifies and returns it, or else takes nothing. -/
def Delivers (socket next : QueuedSocket Value) (thread : Nat) (request : Request)
    (predicate : Value → Bool) : Prop :=
  match socket.untaken.find? (qualifies deserialize request predicate) with
  | some packet =>
    next.recvQueue = socket.untaken.erase packet ∧
      ∃ value, parsePacket deserialize request.packetId packet.data = .ok (some value) ∧
        next.returns = socket.returns ++ [⟨thread, request, some packet, .ok (some value)⟩]
  | none =>
    next.recvQueue = socket.untaken ∧
      (next.returns = socket.returns ∨
        next.returns = socket.returns ++ [⟨thread, request, none, .ok none⟩])

variable (deserialize) in
def Legible (data : List Byte) : Prop :=
  ∀ packetId buffer, readIntegral 2 data = some (packetId, buffer) → (deserialize packetId buffer).isSome

theorem Legible.parsePacket {packet : ReceivedPacket} (legible : Legible deserialize packet.data)
    {packetId : Nat} (has : packet.hasId packetId) :
    ∃ value, parsePacket deserialize packetId packet.data = .ok (some value) := by
  obtain ⟨⟨actualPacketId, buffer⟩, read, same⟩ := (Option.any_eq_true _ _).mp has
  obtain rfl : actualPacketId = packetId := of_decide_eq_true same
  obtain ⟨⟨value, rest⟩, parsed⟩ := Option.isSome_iff_exists.mp (legible _ buffer read)
  exact ⟨value, by simp [QueuedSocket.parsePacket, read, parsed]⟩

theorem Legible.wants {packet : ReceivedPacket} (legible : Legible deserialize packet.data)
    (request : Request) (predicate : Value → Bool) :
    wants deserialize request predicate packet = .ok (qualifies deserialize request predicate packet) := by
  cases has : packet.hasId request.packetId with
  | false => simp [QueuedSocket.wants, qualifies, has]
  | true =>
    obtain ⟨value, parsed⟩ := legible.parsePacket has
    cases matching : request.matching <;>
      simp [QueuedSocket.wants, qualifies, has, matching, parsed, Except.map, Except.toOption]

theorem Ordered.delivers (ordered : socket.Ordered) {thread : Nat} {request : Request}
    (calls : socket.callers thread = some request) (predicate : Value → Bool)
    (legible : ∀ data ∈ socket.arrivals, Legible deserialize data) :
    Delivers deserialize socket (QueuedSocket.step deserialize (.scan thread predicate) socket) thread
      request predicate := by
  have readable (packet : ReceivedPacket) (present : packet ∈ socket.untaken) :
      Legible deserialize packet.data :=
    legible _ (List.mem_of_getElem? (mem_remaining.mp present).1)
  have stops : socket.untaken.find? (fun packet => wants deserialize request predicate packet ≠ .ok false) =
      socket.untaken.find? (qualifies deserialize request predicate) := by
    refine List.find?_congr fun packet present => ?_
    rw [(readable packet present).wants]
    cases qualifies deserialize request predicate packet <;> rfl
  rw [ordered.scan calls, stops, Delivers]
  cases first : socket.untaken.find? (qualifies deserialize request predicate) with
  | some packet =>
    have among := readable packet (List.mem_of_find?_eq_some first)
    have has : packet.hasId request.packetId := by
      have holds := List.find?_some first
      simp only [qualifies, Bool.and_eq_true] at holds
      exact holds.1
    obtain ⟨value, parsed⟩ := among.parsePacket has
    simp only [among.wants, parsed]
    exact ⟨rfl, value, rfl, rfl⟩
  | none =>
    simp only
    split
    next => exact ⟨ordered.queue, Or.inr rfl⟩
    next => exact ⟨ordered.queue, Or.inl rfl⟩

theorem run_receive (deserialize : Nat → Reader Byte Value) (arrivals : List (List Byte)) :
    run deserialize (arrivals.map .receive) =
      { recvQueue := arrivals.mapIdx ReceivedPacket.mk, arrivals } := by
  induction arrivals using List.reverseRecOn with
  | nil => rfl
  | append_singleton earlier data ih =>
    rw [List.map_append, run, Machine.run_append, ← run, ih]
    simp [Machine.run, step]

theorem run_concat (deserialize : Nat → Reader Byte Value) (events : List (SocketEvent Value))
    (event : SocketEvent Value) :
    run deserialize (events ++ [event]) = step deserialize event (run deserialize events) :=
  Machine.run_append _ _ _ _

/-- A call that no packet satisfies comes across every packet with its id. -/
theorem Ordered.throws (ordered : socket.Ordered) {thread packetId : Nat} {noWait : Bool}
    (calls : socket.callers thread = some ⟨packetId, true, noWait⟩) {packet : ReceivedPacket}
    (present : packet ∈ socket.untaken) {buffer : List Byte}
    (read : readIntegral 2 packet.data = some (packetId, buffer))
    (throws : deserialize packetId buffer = none) :
    ∃ thrown, QueuedSocket.step deserialize (.scan thread fun _ => false) socket =
      socket.finish thread ⟨packetId, true, noWait⟩ none (.error thrown) := by
  have never (other : ReceivedPacket) :
      wants deserialize ⟨packetId, true, noWait⟩ (fun _ => false) other ≠ .ok true := by
    cases has : other.hasId packetId <;> cases parsed : parsePacket deserialize packetId other.data <;>
      simp [wants, has, parsed, Except.map]
  have stops : wants deserialize ⟨packetId, true, noWait⟩ (fun _ => false) packet ≠ .ok false := by
    simp [wants, ReceivedPacket.hasId, parsePacket, read, throws, Except.map]
  rw [ordered.scan calls]
  split
  next other first =>
    split
    next thrown _ => exact ⟨thrown, rfl⟩
    next found wish =>
      have ended := List.find?_some first
      cases found <;> simp_all
  next none => exact absurd stops (by simpa using List.find?_eq_none.mp none packet present)

theorem legible_of_delivers {arrivals : List (List Byte)}
    (delivers : ∀ events, (run deserialize events).arrivals = arrivals →
      ∀ thread request predicate, (run deserialize events).callers thread = some request →
        Delivers deserialize (run deserialize events) (run deserialize (events ++ [.scan thread predicate]))
          thread request predicate)
    (data : List Byte) (present : data ∈ arrivals) : Legible deserialize data := by
  intro packetId buffer read
  cases throws : deserialize packetId buffer with
  | some => rfl
  | none =>
    -- All packets arrive, and then a call asks for one with this id that satisfies the empty predicate.
    let events : List (SocketEvent Value) := arrivals.map .receive ++ [.call 0 ⟨packetId, true, true⟩]
    have reached : run deserialize events =
        { recvQueue := arrivals.mapIdx ReceivedPacket.mk, arrivals,
          callers := Function.update (fun _ => none) 0 (some ⟨packetId, true, true⟩) } := by
      simp [events, run_concat, run_receive, step]
    have ordered := run_ordered deserialize events
    have calls : (run deserialize events).callers 0 = some ⟨packetId, true, true⟩ := by simp [reached]
    obtain ⟨number, found⟩ := List.getElem?_of_mem present
    have among : ⟨number, data⟩ ∈ (run deserialize events).untaken :=
      mem_remaining.mpr ⟨by simpa [reached] using found, by simp [reached, taken]⟩
    obtain ⟨thrown, ends⟩ := ordered.throws calls among read throws
    have claimed := delivers events (by simp [reached]) 0 _ (fun _ => false) calls
    rw [run_concat deserialize events, ends, Delivers] at claimed
    split at claimed
    next =>
      obtain ⟨_, value, _, returned⟩ := claimed
      simp [finish] at returned
    next => simp [finish] at claimed

theorem packets_delivered_iff_legible (deserialize : Nat → Reader Byte Value) :
    (∀ events, (run deserialize events).taken.Nodup ∧
      (run deserialize events).recvQueue = (run deserialize events).untaken) ∧
    ∀ arrivals, (∀ events, (run deserialize events).arrivals = arrivals →
      ∀ thread request predicate, (run deserialize events).callers thread = some request →
        Delivers deserialize (run deserialize events) (run deserialize (events ++ [.scan thread predicate]))
          thread request predicate) ↔
      ∀ data ∈ arrivals, Legible deserialize data := by
  refine ⟨fun events => ⟨(run_ordered deserialize events).once, (run_ordered deserialize events).queue⟩,
    fun arrivals => ⟨legible_of_delivers, ?_⟩⟩
  rintro legible events rfl thread request predicate calls
  rw [run_concat]
  exact (run_ordered deserialize events).delivers calls predicate legible

theorem truncated_abort_throws :
    let deserialize := fun _ => Wire.M2CPacketCollectiveCommsAbort.deserialize
    let truncated := writeIntegral 2 11 ++ Wire.write 8 7
    let whole := writeIntegral 2 11 ++ Wire.M2CPacketCollectiveCommsAbort.serialize ⟨7, true⟩
    let matching := run deserialize [.receive truncated, .receive whole, .call 0 ⟨11, true, true⟩,
      .scan 0 fun packet => packet.tag = 7]
    let plain := run deserialize [.receive truncated, .receive whole, .call 0 ⟨11, false, true⟩,
      .scan 0 fun _ => true]
    matching.recvQueue = [⟨0, truncated⟩, ⟨1, whole⟩] ∧
      matching.returns.map (fun entry => (entry.taken, entry.result)) = [(none, .error ⟨⟩)] ∧
      plain.recvQueue = [⟨1, whole⟩] ∧
      plain.returns.map (fun entry => (entry.taken, entry.result)) =
        [(some ⟨0, truncated⟩, .error ⟨⟩)] := by
  decide

end QueuedSocket

end Pccl.Socket
