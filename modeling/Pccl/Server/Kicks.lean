import Pccl.Server.Framing
import Pccl.Server.Dispatch

set_option autoImplicit false

namespace Pccl.Server

open Buffer Packet Wire Master

structure Handled where
  address : SocketAddress
  kicked : Bool
  before : MasterState
  after : MasterState

/-- The thread of the server socket: `kicked` are the clients for which `kickClient` has been called
since their last disconnect, and `handled` tells what has been dispatched. -/
structure ServerThread where
  server : Except Ending MasterState
  connections : SocketAddress → Connection
  kicked : List SocketAddress
  handled : List Handled

inductive ThreadEvent where
  | received (address : SocketAddress) (data : List Byte)
  | closed (address : SocketAddress)
  | background (group : Group)
deriving DecidableEq, Repr

def Connection.completes (connection : Connection) (data : List Byte) : List (List Byte) :=
  (connection.onClientRead data).dispatched.drop connection.dispatched.length

namespace ServerThread

def initial : ServerThread := ⟨.ok MasterState.initial, fun _ => .initial, [], []⟩

variable (environment : Environment) (strays : Strays)

def dispatch (address : SocketAddress) (thread : ServerThread) (payload : List Byte) : ServerThread :=
  match thread.server with
  | .error _ => thread
  | .ok master =>
    match onClientRead environment strays address payload master with
    | .error ending => { thread with server := .error ending }
    | .ok next =>
      { thread with
        server := .ok next
        kicked := thread.kicked ++ next.kicked.drop master.kicked.length
        handled := thread.handled ++ [⟨address, decide (address ∈ thread.kicked), master, next⟩] }

def callMaster (handler : MasterM Unit) (thread : ServerThread) : ServerThread :=
  match thread.server with
  | .error _ => thread
  | .ok master =>
    match handler master with
    | .error exit => { thread with server := .error (.exit exit) }
    | .ok (_, next) =>
      { thread with
        server := .ok next
        kicked := thread.kicked ++ next.kicked.drop master.kicked.length }

-- The receive buffer of an address outlives its connection.
def reopen (address : SocketAddress) (thread : ServerThread) : ServerThread :=
  { thread with
    connections := Function.update thread.connections address
      { thread.connections address with closed := false }
    kicked := thread.kicked.filter (· ≠ address) }

def step : ThreadEvent → ServerThread → ServerThread
  | .received address data, thread =>
    if address ∈ thread.kicked then thread
    else
      let connection := thread.connections address
      (connection.completes data).foldl (dispatch environment strays address)
        { thread with
          connections := Function.update thread.connections address (connection.onClientRead data) }
  | .closed address, thread => callMaster (onClientDisconnect environment address) (thread.reopen address)
  | .background group, thread => callMaster (stepTask environment group) thread

def run (events : List ThreadEvent) : ServerThread :=
  Machine.run (step environment strays) events initial

end ServerThread

def Uninfluenced (before after : MasterState) : Prop :=
  after.votes = before.votes ∧ after.clients = before.clients ∧ after.sharedState = before.sharedState ∧
    after.topology.bandwidthStore = before.topology.bandwidthStore ∧ after.collective = before.collective

def announcesRegistration (payload : List Byte) : Bool :=
  (Wire.read 2 payload).any fun read => read.1 = 1

/-- A read completes no more than one packet, or it is from somebody who is not registered and does
not ask to be. -/
def separate (event : ThreadEvent) (thread : ServerThread) : Bool :=
  match event with
  | .received address data =>
    let completed := (thread.connections address).completes data
    decide (completed.length ≤ 1) || match thread.server with
      | .error _ => true
      | .ok master => decide (master.findClientUUID address = none) &&
          completed.all fun payload => !announcesRegistration payload
  | _ => true

theorem onClientRead_stranger (environment : Environment) {address : SocketAddress}
    {packet : C2MPacket} {master : MasterState} (stranger : master.findClientUUID address = none)
    (other : ∀ p2p sharedState benchmark group,
      packet ≠ .requestSessionRegistration p2p sharedState benchmark group) :
    Master.onClientRead environment address packet master =
      .ok ((), { master with kicked := master.kicked ++ [address] }) := by
  have kicks (body : Uuid → MasterM Unit) : withClient address body master =
      .ok ((), { master with kicked := master.kicked ++ [address] }) := by
    rw [withClient_eq, stranger]
    rfl
  cases packet with
  | requestSessionRegistration p2p sharedState benchmark group =>
    exact absurd rfl (other p2p sharedState benchmark group)
  | _ => exact kicks _

theorem dispatch_stranger (environment : Environment) (strays : Strays) {address : SocketAddress}
    {payload : List Byte} {master next : MasterState} (stranger : master.findClientUUID address = none)
    (other : announcesRegistration payload = false)
    (returns : onClientRead environment strays address payload master = .ok next) :
    next = { master with kicked := master.kicked ++ [address] } := by
  unfold onClientRead at returns
  cases number : Wire.read 2 payload with
  | none =>
    rw [number] at returns
    cases returns
  | some result =>
    obtain ⟨packetType, rest⟩ := result
    rw [number] at returns
    dsimp only at returns
    cases known : ClientPacket.reader packetType.toNat with
    | none =>
      rw [known] at returns
      cases returns
      rfl
    | some reader =>
      rw [known] at returns
      dsimp only at returns
      cases read : reader rest with
      | none =>
        rw [read] at returns
        cases returns
      | some result =>
        obtain ⟨packet, behind⟩ := result
        have id := ClientPacket.packetId_of_reader known read
        have handled : Master.onClientRead environment address (strays.toC2MPacket packet) master =
            .ok ((), { master with kicked := master.kicked ++ [address] }) := by
          apply onClientRead_stranger environment stranger
          intro p2p sharedState benchmark group same
          have one : packetType = 1 := by
            cases packet <;> cases same
            exact BitVec.eq_of_toNat_eq id.symm
          simp [announcesRegistration, number, one] at other
        rw [read] at returns
        dsimp only [onClientRead.finish] at returns
        rw [handled] at returns
        cases returns
        rfl

section Inert

variable (environment : Environment) (strays : Strays)

def ServerThread.Inert (thread : ServerThread) : Prop :=
  ∀ entry ∈ thread.handled, entry.kicked → Uninfluenced entry.before entry.after

theorem callMaster_handled (handler : MasterM Unit) (thread : ServerThread) :
    (thread.callMaster handler).handled = thread.handled := by
  unfold ServerThread.callMaster
  split
  · rfl
  · split <;> rfl

theorem dispatch_inert {address : SocketAddress} {thread : ServerThread} {payload : List Byte}
    (inert : thread.Inert)
    (harmless : ∀ master next, thread.server = .ok master →
      onClientRead environment strays address payload master = .ok next → address ∈ thread.kicked →
        Uninfluenced master next) :
    (thread.dispatch environment strays address payload).Inert := by
  unfold ServerThread.dispatch
  split
  next => exact inert
  next master serves =>
    split
    next => exact inert
    next next_ returns =>
      intro entry present kicked
      rcases List.mem_append.mp present with earlier | now
      · exact inert entry earlier kicked
      · cases List.mem_singleton.mp now
        exact harmless master next_ serves returns (of_decide_eq_true kicked)

theorem dispatches_inert {address : SocketAddress} (payloads : List (List Byte)) (thread : ServerThread)
    (inert : thread.Inert)
    (stranger : ∀ master, thread.server = .ok master → master.findClientUUID address = none ∧
      ∀ payload ∈ payloads, announcesRegistration payload = false) :
    (payloads.foldl (ServerThread.dispatch environment strays address) thread).Inert := by
  induction payloads generalizing thread with
  | nil => exact inert
  | cons payload payloads ih =>
    refine ih _ ?_ ?_
    · refine dispatch_inert environment strays inert fun master next serves returns _ => ?_
      obtain ⟨unknown, others⟩ := stranger master serves
      rw [dispatch_stranger environment strays unknown (others _ List.mem_cons_self) returns]
      exact ⟨rfl, rfl, rfl, rfl, rfl⟩
    · intro later serves
      unfold ServerThread.dispatch at serves
      split at serves
      next ended =>
        cases ended.symm.trans serves
      next master before =>
        obtain ⟨unknown, others⟩ := stranger master before
        split at serves
        next => cases serves
        next next_ returns =>
          cases serves
          rw [dispatch_stranger environment strays unknown (others _ List.mem_cons_self) returns]
          exact ⟨unknown, fun payload present => others payload (List.mem_cons_of_mem _ present)⟩

theorem step_inert (event : ThreadEvent) (thread : ServerThread) (inert : thread.Inert)
    (separated : separate event thread = true) :
    (ServerThread.step environment strays event thread).Inert := by
  cases event with
  | closed address =>
    change (ServerThread.callMaster _ _).Inert
    unfold ServerThread.Inert
    rw [callMaster_handled]
    exact inert
  | background group =>
    change (ServerThread.callMaster _ _).Inert
    unfold ServerThread.Inert
    rw [callMaster_handled]
    exact inert
  | received address data =>
    unfold ServerThread.step
    dsimp only
    split
    next => exact inert
    next welcome =>
      rcases Bool.or_eq_true_iff.mp separated with few | strange
      · -- The only packet of the read finds its sender not kicked.
        cases completed : (thread.connections address).completes data with
        | nil => exact inert
        | cons payload more =>
          have none_else : more = [] := by
            have short := of_decide_eq_true few
            rw [completed, List.length_cons] at short
            exact List.eq_nil_of_length_eq_zero (by omega)
          subst none_else
          exact dispatch_inert environment strays inert fun _ _ _ _ kicked => absurd kicked welcome
      · refine dispatches_inert environment strays _ _ inert fun master serves => ?_
        change thread.server = .ok master at serves
        rw [serves] at strange
        obtain ⟨unknown, others⟩ := Bool.and_eq_true_iff.mp strange
        refine ⟨of_decide_eq_true unknown, fun payload present => ?_⟩
        simpa using List.all_eq_true.mp others payload present

theorem kicked_influence_nothing (events : List ThreadEvent)
    (separated : Machine.Always (ServerThread.step environment strays)
      (fun event thread => separate event thread) events .initial) :
    ∀ entry ∈ (ServerThread.run environment strays events).handled, entry.kicked →
      Uninfluenced entry.before entry.after :=
  Machine.run_preserves (step_inert environment strays) events .initial
    (fun _ present => by cases present) separated

end Inert

namespace Sample

def vote : List Byte := [0, 2, 1]

def registration : List Byte := [0, 1, 0, 0, 0, 0, 0, 0, 0, 0, 0, 0]

def established : List Byte := [0, 3, 1, 0, 0, 0, 0, 0, 0, 0, 0]

def unknownPacket : List Byte := [0, 99]

def strangers : List ThreadEvent :=
  [.received (Master.Sample.address 0) (frame registration),
    .received (Master.Sample.address 1) (frame vote ++ frame vote)]

def lateReport : List ThreadEvent :=
  [.received (Master.Sample.address 0) (frame registration),
    .received (Master.Sample.address 0) (frame unknownPacket ++ frame established)]

end Sample

open Sample

theorem kicked_influence_nothing_strangers :
    (∃ entry ∈ (ServerThread.run Master.Sample.environment strays strangers).handled,
        entry.kicked) ∧
      ∀ entry ∈ (ServerThread.run Master.Sample.environment strays strangers).handled,
        entry.kicked → Uninfluenced entry.before entry.after := by
  have late : ((ServerThread.run Master.Sample.environment strays
      strangers).handled.any Handled.kicked) = true := by cbv
  have separated : Machine.checks (ServerThread.step Master.Sample.environment strays) separate
      strangers .initial = true := by cbv
  exact ⟨List.any_eq_true.mp late, kicked_influence_nothing Master.Sample.environment strays
    strangers ((Machine.checks_iff _ _).mp separated)⟩

theorem kicked_client_reports :
    ∃ entry ∈ (ServerThread.run Master.Sample.environment strays lateReport).handled,
      entry.kicked ∧ ¬ Uninfluenced entry.before entry.after := by
  have moved : ((ServerThread.run Master.Sample.environment strays
      lateReport).handled.any fun entry => entry.kicked &&
        ((entry.before.getClientInfo 0).map ClientInfo.connectionState == some .connectingToPeers) &&
        ((entry.after.getClientInfo 0).map ClientInfo.connectionState == some .idle)) = true := by cbv
  obtain ⟨entry, present, check⟩ := List.any_eq_true.mp moved
  simp only [Bool.and_eq_true, beq_iff_eq] at check
  obtain ⟨⟨kicked, connecting⟩, idle⟩ := check
  refine ⟨entry, present, kicked, fun uninfluenced => ?_⟩
  have same : entry.after.getClientInfo 0 = entry.before.getClientInfo 0 := by
    rw [MasterState.getClientInfo, MasterState.getClientInfo, uninfluenced.2.1]
  rw [same, connecting] at idle
  cases idle

end Pccl.Server
