import Pccl.Client.Addresses

set_option autoImplicit false

/-!
Every client has a main thread, which connects to the peers of its plan and reports to the master, and
a listener, which acknowledges the connections of other clients and installs their sockets. The master
sends the plans of a round and, when all reports are there, the verdict.
-/

namespace Pccl.Master.MasterState

open Packet

variable {master : MasterState} {ring : List Uuid} {uuid : Uuid}

def Registers (master : MasterState) (uuid : Uuid) : Prop :=
  ∃ info, master.getClientInfo uuid = some info ∧ info.clientUuid = uuid

theorem neighbours_eq (distinct : ring.Nodup) (registers : ∀ uuid ∈ ring, master.Registers uuid)
    (member : uuid ∈ ring) :
    (master.neighbours ring uuid).map ClientInfo.clientUuid =
      if ring.length ≤ 1 then [] else [ring.prev uuid member, ring.next uuid member].dedup := by
  obtain ⟨index, inside, rfl⟩ := List.getElem_of_mem member
  unfold neighbours
  split
  next => rfl
  next several =>
    have found : ring.idxOf? ring[index] = some index :=
      List.idxOf?_eq_some_iff.mpr ⟨inside, rfl, fun other less same =>
        absurd (distinct.getElem_inj_iff.mp same) less.ne⟩
    have positive : 0 < ring.length := Nat.zero_lt_of_lt inside
    have before : (index + (ring.length - 1)) % ring.length =
        if index = 0 then ring.length - 1 else index - 1 := by
      split
      next zero => simp [zero]
      next more =>
        rw [show index + (ring.length - 1) = (index - 1) + ring.length by omega, Nat.add_mod_right,
          Nat.mod_eq_of_lt (by omega)]
    have after : (index + 1) % ring.length = if index = ring.length - 1 then 0 else index + 1 := by
      split
      next last => rw [last, Nat.sub_add_cancel positive, Nat.mod_self]
      next less => exact Nat.mod_eq_of_lt (by omega)
    rw [found, List.prev_getElem ring distinct index inside, List.next_getElem ring distinct index inside]
    simp only [Option.getD_some, ← before, ← after]
    have one := Nat.mod_lt (index + (ring.length - 1)) positive
    have two := Nat.mod_lt (index + 1) positive
    obtain ⟨left, here, named⟩ := registers _ (List.getElem_mem one)
    obtain ⟨right, there, called⟩ := registers _ (List.getElem_mem two)
    rw [List.getD_eq_getElem _ _ one, List.getD_eq_getElem _ _ two, here, there]
    by_cases same : (index + 1) % ring.length = (index + (ring.length - 1)) % ring.length
    · simp [same, named]
    · have apart : ring[(index + (ring.length - 1)) % ring.length] ≠ ring[(index + 1) % ring.length] :=
        fun equal => same (distinct.getElem_inj_iff.mp equal).symm
      simp [same, named, called, apart]

end Pccl.Master.MasterState

namespace Pccl.Client

open Packet Connections

structure Hello where
  peerUuid : Uuid
  connectionNr : Nat
  connection : Nat
deriving DecidableEq, Repr

inductive Notice where
  | info (unchanged : Bool) (allPeers : List PeerInfo)
  | established (success : Bool)
deriving DecidableEq, Repr

inductive Stage where
  -- It has asked for a round, or has just been registered.
  | voted
  | connecting (peers : List PeerInfo)
  | dialling (peer : PeerInfo) (peers : List PeerInfo)
  | awaiting (peer : PeerInfo) (connection : Nat) (peers : List PeerInfo)
  | closingTx (failed : List Uuid)
  | closingRx (failed : List Uuid)
  | reported
  | confirmed
deriving DecidableEq, Repr

structure Party where
  connections : Connections := {}
  stage : Stage := .voted
  inbox : Option Notice := none
  -- The peers of the packet in work, and those of the last report.
  listed : List PeerInfo := []
  failed : List Uuid := []
  -- How many connections it has opened, and those that have been acknowledged.
  opened : Nat := 0
  acks : List Nat := []
  -- Connections that its listener has not taken up, and the one that it has only acknowledged.
  backlog : List Hello := []
  holding : Option Hello := none
  left : Bool := false

/-- The neighbours of a client in its ring know each other. -/
structure Round where
  participants : List Uuid
  plan : Uuid → List PeerInfo
  distinct : ∀ uuid ∈ participants, ((plan uuid).map PeerInfo.peerUuid).Nodup
  symmetric : ∀ uuid ∈ participants, ∀ other, lists (plan uuid) other = true →
    other ∈ participants ∧ lists (plan other) uuid = true

/-- The peers of a client as the master sends them, from a ring that it is in. -/
def planOf (master : Master.MasterState) (ring : List Uuid) (uuid : Uuid) : List PeerInfo :=
  (master.neighbours ring uuid).map fun peer =>
    ⟨⟨peer.socketAddress.inet, peer.variablePorts.p2pListenPort⟩, peer.clientUuid⟩

structure Rings (master : Master.MasterState) (participants : List Uuid) (ringOf : Uuid → List Uuid) :
    Prop where
  distinct : ∀ uuid ∈ participants, (ringOf uuid).Nodup
  own : ∀ uuid ∈ participants, uuid ∈ ringOf uuid
  shared : ∀ uuid ∈ participants, ∀ other ∈ ringOf uuid, other ∈ participants ∧ ringOf other = ringOf uuid
  registers : ∀ uuid ∈ participants, master.Registers uuid

namespace Rings

variable {master : Master.MasterState} {participants : List Uuid} {ringOf : Uuid → List Uuid}
  (rings : Rings master participants ringOf) {uuid : Uuid} (member : uuid ∈ participants)
include rings

theorem peers_eq : (planOf master (ringOf uuid) uuid).map PeerInfo.peerUuid =
    if (ringOf uuid).length ≤ 1 then []
    else [(ringOf uuid).prev uuid (rings.own uuid member),
      (ringOf uuid).next uuid (rings.own uuid member)].dedup := by
  rw [← Master.MasterState.neighbours_eq (rings.distinct uuid member)
    (fun other among => rings.registers other (rings.shared uuid member other among).1), planOf, List.map_map]
  rfl

theorem peers_distinct (uuid : Uuid) (member : uuid ∈ participants) :
    ((planOf master (ringOf uuid) uuid).map PeerInfo.peerUuid).Nodup := by
  rw [rings.peers_eq member]
  split
  · exact List.nodup_nil
  · exact List.nodup_dedup _

theorem lists_iff {other : Uuid} : lists (planOf master (ringOf uuid) uuid) other = true ↔
    1 < (ringOf uuid).length ∧ (other = (ringOf uuid).prev uuid (rings.own uuid member) ∨
      other = (ringOf uuid).next uuid (rings.own uuid member)) := by
  have named : lists (planOf master (ringOf uuid) uuid) other = true ↔
      other ∈ (planOf master (ringOf uuid) uuid).map PeerInfo.peerUuid := by
    simp [lists]
  rw [named, rings.peers_eq member]
  by_cases single : (ringOf uuid).length ≤ 1
  · simp [single]
  · simp [single, not_le.mp single, List.mem_dedup]

theorem peers_symmetric (uuid : Uuid) (member : uuid ∈ participants) (other : Uuid)
    (listed : lists (planOf master (ringOf uuid) uuid) other = true) :
    other ∈ participants ∧ lists (planOf master (ringOf other) other) uuid = true := by
  obtain ⟨several, neighbour⟩ := (rings.lists_iff member).mp listed
  have distinct := rings.distinct uuid member
  have among : other ∈ ringOf uuid := by
    rcases neighbour with rfl | rfl
    · exact List.prev_mem _ _ _
    · exact List.next_mem _ _ _
  obtain ⟨takes, same⟩ := rings.shared uuid member other among
  refine ⟨takes, (rings.lists_iff takes).mpr ?_⟩
  simp only [same]
  refine ⟨several, ?_⟩
  rcases neighbour with rfl | rfl
  · exact Or.inr (List.next_prev _ distinct _ _).symm
  · exact Or.inl (List.prev_next _ distinct _ _).symm

end Rings

/-- The round that the master starts when each participant is in its ring. -/
def Round.ofRings {master : Master.MasterState} {participants : List Uuid} {ringOf : Uuid → List Uuid}
    (rings : Rings master participants ringOf) : Round where
  participants
  plan uuid := planOf master (ringOf uuid) uuid
  distinct := rings.peers_distinct
  symmetric := rings.peers_symmetric

structure System where
  parties : Uuid → Party := fun _ => {}
  -- The master has previous_p2p_connection_info and the reports of the round.
  plans : Uuid → List PeerInfo := fun _ => []
  participants : List Uuid := []
  reports : Uuid → Option Bool := fun _ => none
  -- The copies of p2p_connections_rx that the collective operations are launched with.
  copies : Uuid → Table Uuid (List (Option Nat)) := fun _ => ∅

def installSlot (slots : List (Option Nat)) (hello : Hello) : List (Option Nat) :=
  -- `connection_pool.resize(connection_nr + 1)` and the assignment to the last slot.
  let resized := slots.take (hello.connectionNr + 1) ++
    List.replicate (hello.connectionNr + 1 - slots.length) none
  resized.set hello.connectionNr (some hello.connection)

def Connections.installRx (connections : Connections) (hello : Hello) : Connections :=
  { connections with
    p2pConnectionsRx := connections.p2pConnectionsRx.insert hello.peerUuid
      (installSlot ((connections.p2pConnectionsRx.lookup hello.peerUuid).getD []) hello) }

def samePeers (previous plan : List PeerInfo) : Bool :=
  previous.length = plan.length && plan.all fun peer => lists previous peer.peerUuid

inductive Action where
  -- The master.
  | start (round : Round)
  | conclude
  -- The main thread; what it waits for has come or has failed.
  | advance (uuid : Uuid) (answered : Bool)
  | launch (uuid : Uuid)
  -- The listener.
  | accept (uuid : Uuid)
  | reject (uuid : Uuid)
  | install (uuid : Uuid)
  | leave (uuid : Uuid)

namespace System

variable (system : System)

def put (uuid : Uuid) (party : Party) : System :=
  { system with parties := Function.update system.parties uuid party }

def pool (uuid other : Uuid) : List TxSocket :=
  ((system.parties uuid).connections.p2pConnectionsTx.lookup other).getD []

def setPool (uuid : Uuid) (other : Uuid) (sockets : List TxSocket) (stage : Stage) : System :=
  let party := system.parties uuid
  system.put uuid
    { party with
      stage
      connections :=
        { party.connections with
          p2pConnectionsTx := party.connections.p2pConnectionsTx.insert other sockets } }

def report (uuid : Uuid) (party : Party) (failed : List Uuid) : System :=
  { system.put uuid { party with stage := .reported, failed } with
    reports := Function.update system.reports uuid (some failed.isEmpty) }

def dial (uuid : Uuid) (peer : PeerInfo) (peers : List PeerInfo) : System :=
  let party := system.parties uuid
  let dialled := system.put uuid
    { party with stage := .awaiting peer party.opened peers, opened := party.opened + 1 }
  let target := dialled.parties peer.peerUuid
  let hello : Hello := ⟨uuid, (system.pool uuid peer.peerUuid).length, party.opened⟩
  dialled.put peer.peerUuid { target with backlog := target.backlog ++ [hello] }

/-- One step of `establishP2PConnections` and of its callers. A thread that has to wait stays where it
is. -/
def advance (poolSize : Uuid → Nat) (uuid : Uuid) (answered : Bool) : System :=
  let party := system.parties uuid
  match party.stage with
  | .voted =>
    match party.inbox with
    | some (.info true _) => system.report uuid { party with inbox := none } []
    | some (.info false allPeers) =>
      system.put uuid { party with inbox := none, listed := allPeers, stage := .connecting allPeers }
    | _ => system
  | .connecting [] => system.put uuid { party with stage := .closingTx [] }
  | .connecting (peer :: peers) =>
    if peer.peerUuid ∈ party.connections.p2pConnectionsTx then
      system.put uuid { party with stage := .connecting peers }
    else system.setPool uuid peer.peerUuid [] (.dialling peer peers)
  | .dialling peer peers =>
    if (system.pool uuid peer.peerUuid).length < poolSize uuid then
      if answered then system.dial uuid peer peers
      else system.put uuid { party with stage := .closingTx [peer.peerUuid] }
    else
      match party.connections.registerPeer peer.p2pListenAddr peer.peerUuid with
      | (true, connections) => system.put uuid { party with connections, stage := .connecting peers }
      | (false, _) => system.put uuid { party with stage := .closingTx [peer.peerUuid] }
  | .awaiting peer connection peers =>
    if answered then
      if connection ∈ party.acks then
        system.setPool uuid peer.peerUuid
          (system.pool uuid peer.peerUuid ++ [⟨peer.p2pListenAddr, connection⟩]) (.dialling peer peers)
      else system
    else system.put uuid { party with stage := .closingTx [peer.peerUuid] }
  | .closingTx failed =>
    system.put uuid
      { party with
        connections := party.connections.closeUnlistedTx party.listed
        stage := .closingRx failed }
  | .closingRx failed =>
    system.report uuid { party with connections := party.connections.closeUnlistedRx party.listed } failed
  | .reported =>
    match party.inbox with
    | some (.established success) =>
      system.put uuid { party with inbox := none, stage := if success then .confirmed else .voted }
    | _ => system
  | .confirmed => system.put uuid { party with stage := .voted }

def ready (uuid : Uuid) : Bool :=
  (system.parties uuid).stage = .voted && (system.parties uuid).inbox = none

def start (round : Round) : System :=
  -- A round starts when nobody is missing who has taken part in the last one.
  if (system.participants.all fun uuid => (system.parties uuid).left || system.ready uuid) &&
      round.participants.all fun uuid => !(system.parties uuid).left && system.ready uuid then
    let packet (uuid : Uuid) : Notice :=
      if samePeers (system.plans uuid) (round.plan uuid) then .info true []
      else .info false (round.plan uuid)
    { system with
      parties := fun uuid =>
        if uuid ∈ round.participants then { system.parties uuid with inbox := some (packet uuid) }
        else system.parties uuid
      plans := fun uuid => if uuid ∈ round.participants then round.plan uuid else system.plans uuid
      participants := round.participants
      reports := fun _ => none }
  else system

def conclude : System :=
  -- The verdict is sent when all of those that are still there have reported.
  if system.participants.all fun uuid =>
      (system.parties uuid).left ||
        ((system.parties uuid).stage = .reported && (system.parties uuid).inbox = none) then
    let success := system.participants.all fun uuid =>
      !(system.parties uuid).left && system.reports uuid = some true
    { system with
      parties := fun uuid =>
        if uuid ∈ system.participants ∧ (system.parties uuid).left = false then
          { system.parties uuid with inbox := some (.established success) }
        else system.parties uuid }
  else system

def accept (uuid : Uuid) : System :=
  -- The acknowledgement is sent before the socket is installed.
  let party := system.parties uuid
  match party.holding, party.backlog with
  | none, hello :: backlog =>
    let accepted := system.put uuid { party with holding := some hello, backlog }
    let sender := accepted.parties hello.peerUuid
    accepted.put hello.peerUuid { sender with acks := sender.acks ++ [hello.connection] }
  | _, _ => system

def reject (uuid : Uuid) : System :=
  -- No hello packet arrives, or the acknowledgement cannot be sent.
  let party := system.parties uuid
  match party.holding, party.backlog with
  | none, _ :: backlog => system.put uuid { party with backlog }
  | _, _ => system

def install (uuid : Uuid) : System :=
  let party := system.parties uuid
  match party.holding with
  | some hello =>
    system.put uuid { party with holding := none, connections := party.connections.installRx hello }
  | none => system

def launch (uuid : Uuid) : System :=
  let party := system.parties uuid
  if party.stage = .confirmed then
    { system with
      copies := Function.update system.copies uuid party.connections.p2pConnectionsRx }
  else system

def step (poolSize : Uuid → Nat) (action : Action) (system : System) : System :=
  match action with
  | .start round => system.start round
  | .conclude => system.conclude
  | .advance uuid answered =>
    if (system.parties uuid).left then system else system.advance poolSize uuid answered
  | .launch uuid => if (system.parties uuid).left then system else system.launch uuid
  | .accept uuid => if (system.parties uuid).left then system else system.accept uuid
  | .reject uuid => if (system.parties uuid).left then system else system.reject uuid
  | .install uuid => if (system.parties uuid).left then system else system.install uuid
  | .leave uuid => system.put uuid { system.parties uuid with left := true }

def run (poolSize : Uuid → Nat) (actions : List Action) : System :=
  Machine.run (step poolSize) actions {}

end System

end Pccl.Client
