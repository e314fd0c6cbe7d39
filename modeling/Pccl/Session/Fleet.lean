import Pccl.Client.AllReduceTask
import Pccl.Master.Operations

set_option autoImplicit false

/-!
What the master sends a client about a tag is on its way until it arrives in the queue of the client,
from which the task of the tag takes it. What a task sends is on its way until the master reads it.
-/

namespace Pccl.Master

open Packet

def Signal.packet (tag : Tag) : Signal → M2CPacket
  | .commence operation => .collectiveCommsCommence tag (BitVec.ofNat 64 operation)
  | .abort aborted => .collectiveCommsAbort tag aborted
  | .complete => .collectiveCommsComplete tag

def Signal.isAbort : Signal → Bool
  | .abort _ => true
  | _ => false

def Server.sent : Server → List Sent
  | .ok master => master.sent
  | .error exit => exit.master.sent

end Pccl.Master

namespace Pccl.Session

open Buffer Packet Client Master Pccl.Ring

structure Call where
  launch : Launch
  task : Task

def Call.step (event : TaskEvent) (call : Call) : Call :=
  { call with task := taskStep call.launch event call.task }

def awaits : TaskPc → Signal → Bool
  | .awaitCommence, .commence _ | .awaitAbort, .abort _ | .awaitComplete, .complete => true
  | _, _ => false

/-- A client as far as one tag is concerned. `operation` and `outcomes` are not part of the program:
the last operation that the client was told about, and what became of the promises of the tasks that
have received the end of their operation. -/
structure Endpoint where
  call : Option Call
  queue : List Signal
  arrived : Nat
  outbox : List C2MPacket
  lost : Bool
  operation : Nat
  outcomes : List (Nat × Bool)

namespace Endpoint

def idle : Endpoint := ⟨none, [], 0, [], false, 0, []⟩

variable (endpoint : Endpoint)

def resting : Bool := endpoint.call.all fun call => call.task.pc = .finished

def start (launch : Launch) : Endpoint :=
  -- A tag is used again when the last task with it has finished.
  if endpoint.resting then { endpoint with call := some ⟨launch, launch.start⟩ } else endpoint

def send (delivered : Bool) : Endpoint :=
  match endpoint.call with
  | none => endpoint
  | some call =>
    match call.launch.outgoing call.task with
    | none => endpoint
    | some packet =>
      { endpoint with
        call := some (call.step (.sent delivered))
        outbox := endpoint.outbox ++ if delivered then [packet] else [] }

def arrive (log : List Signal) : Endpoint :=
  match log[endpoint.arrived]? with
  | none => endpoint
  | some signal =>
    { endpoint with queue := endpoint.queue ++ [signal], arrived := endpoint.arrived + 1 }

def receive (tag : Tag) : Endpoint :=
  -- `receiveMatchingPacket`: the first packet in the queue that matches. Once the connection is
  -- lost there is none.
  match endpoint.call with
  | none => endpoint
  | some call =>
    if endpoint.lost then { endpoint with call := some (call.step (.received none)) }
    else
      match endpoint.queue.find? (awaits call.task.pc) with
      | none => endpoint
      | some signal =>
        let next := call.step (.received (some (signal.packet tag)))
        let taken :=
          { endpoint with
            call := some next
            queue := endpoint.queue.eraseP (awaits call.task.pc) }
        match signal with
        | .commence operation => { taken with operation }
        | .abort _ => taken
        | .complete =>
          { taken with
            outcomes := endpoint.outcomes ++ next.task.promise.toList.map (endpoint.operation, ·) }

def exchange (observed : Observation) (inbox : List (List Byte)) : Endpoint :=
  -- The ring looks at its sockets. It sees an abort packet that is in the queue, and takes it if
  -- it returns on its account.
  match endpoint.call with
  | none => endpoint
  | some call =>
    match call.task.pc with
    | .ring _ _ =>
      let abortPacket := !endpoint.lost && endpoint.queue.any Signal.isAbort
      let next := call.step (.exchanged { observed with abortPacket } inbox)
      { endpoint with
        call := some next
        queue :=
          if next.task.pc = .complete ∧ next.task.abortReceived then
            endpoint.queue.eraseP Signal.isAbort
          else endpoint.queue }
    | _ => endpoint

end Endpoint

def amend (endpoints : Uuid → Tag → Endpoint) (uuid : Uuid) (tag : Tag) (endpoint : Endpoint) :
    Uuid → Tag → Endpoint :=
  Function.update endpoints uuid (Function.update (endpoints uuid) tag endpoint)

structure Fleet where
  server : Server
  endpoints : Uuid → Tag → Endpoint

inductive FleetEvent where
  | master (event : Event)
  | launch (uuid : Uuid) (launch : Launch)
  | send (uuid : Uuid) (tag : Tag) (delivered : Bool)
  | deliver (uuid : Uuid) (tag : Tag)
  | arrive (uuid : Uuid) (tag : Tag)
  | receive (uuid : Uuid) (tag : Tag)
  | exchange (uuid : Uuid) (tag : Tag) (observed : Observation) (inbox : List (List Byte))
  | lose (uuid : Uuid) (tag : Tag)

def ofTask (master : MasterState) : Event → Bool
  | .read address (.collectiveCommsInitiate _ _ _ _)
  | .read address (.collectiveCommsComplete _ _) => address ∈ master.clients.clientUuids
  | _ => false

namespace Fleet

def initial : Fleet := ⟨.ok MasterState.initial, fun _ _ => .idle⟩

variable (environment : Environment) (fleet : Fleet)

def update (uuid : Uuid) (tag : Tag) (change : Endpoint → Endpoint) : Fleet :=
  { fleet with endpoints := amend fleet.endpoints uuid tag (change (fleet.endpoints uuid tag)) }

def deliver (uuid : Uuid) (tag : Tag) : Fleet :=
  -- The master reads the first packet that a task has sent, as long as the client is registered.
  match fleet.server, (fleet.endpoints uuid tag).outbox with
  | .ok master, packet :: outbox =>
    match master.clients.uuidClients.lookup uuid with
    | none => fleet
    | some address =>
      { fleet.update uuid tag fun endpoint => { endpoint with outbox } with
        server := serve environment (.read address packet) (.ok master) }
  | _, _ => fleet

def step (event : FleetEvent) (fleet : Fleet) : Fleet :=
  match event with
  | .master event =>
    match fleet.server with
    | .ok master =>
      if ofTask master event then fleet else { fleet with server := serve environment event (.ok master) }
    | .error _ => fleet
  | .launch uuid launch => fleet.update uuid launch.cfg.tag fun endpoint => endpoint.start launch
  | .send uuid tag delivered => fleet.update uuid tag fun endpoint => endpoint.send delivered
  | .deliver uuid tag => fleet.deliver environment uuid tag
  | .arrive uuid tag =>
    fleet.update uuid tag fun endpoint => endpoint.arrive (signals fleet.server.sent uuid tag)
  | .receive uuid tag => fleet.update uuid tag fun endpoint => endpoint.receive tag
  | .exchange uuid tag observed inbox =>
    fleet.update uuid tag fun endpoint => endpoint.exchange observed inbox
  | .lose uuid tag => fleet.update uuid tag fun endpoint => { endpoint with lost := true }

def run (events : List FleetEvent) : Fleet := Machine.run (step environment) events initial

end Fleet

end Pccl.Session
