import Pccl.Master.Rejections

set_option autoImplicit false

namespace Pccl.Master

open Packet Program

def ConnectionState.inSync : ConnectionState → Option ConnectionState
  | voteSyncSharedState => some voteSyncSharedState
  | distributeSharedState => some distributeSharedState
  | requestSharedState => some requestSharedState
  | voteCompleteSharedStateSync => some voteCompleteSharedStateSync
  | _ => none

inductive Topic where
  | round | sync | commence | other
deriving DecidableEq

def topic : M2CPacket → Topic
  | .p2pConnectionInfo _ | .p2pConnectionsEstablished _ _ => .round
  | .syncSharedState _ _ _ _ _ => .sync
  | .collectiveCommsCommence _ _ => .commence
  | _ => .other

inductive Part where
  | registry
  | phases
  | sync
  | strategies
  | rounds
  | revisions
  | sequence
  | issued
  | peers
  | rings
  | tasks
  | unreachability
  | plans
  | told (topic : Topic)
deriving DecidableEq

namespace MasterState

variable (master : MasterState)

def viewInfo {View : Type} (view : ClientInfo → View) (uuid : Uuid) : Option View :=
  (master.getClientInfo uuid).map view

def told (about : Topic) : List Sent := master.sent.filter fun entry => topic entry.packet = about

end MasterState

namespace Part

def View : Part → Type
  | registry => Table SocketAddress Uuid × Table Uuid SocketAddress ×
      (Uuid → Option (Uuid × SocketAddress × ClientVariablePorts × Group))
  | phases => Uuid → Option ConnectionPhase
  | sync => Uuid → Option (Option ConnectionState)
  | strategies => Table Uuid SyncStrategy
  | rounds => (Group → SharedStateRound) × List Election
  | revisions => Group → BitVec 64
  | sequence => Nat
  | issued => Nat
  | peers => Table Uuid BandwidthPeer
  | rings => (Group → List Uuid) × (Group → Bool)
  | tasks => Group → Option OptimizationTask
  | unreachability => Uuid → Finset Uuid
  | plans => List Plan × (Uuid → List Uuid)
  | told _ => List Sent

def view : (part : Part) → MasterState → part.View
  | registry, master => (master.clients.clientUuids, master.clients.uuidClients,
      master.viewInfo fun info =>
        (info.clientUuid, info.socketAddress, info.variablePorts, info.peerGroup))
  | phases, master => master.viewInfo ClientInfo.connectionPhase
  | sync, master => master.viewInfo fun info => info.connectionState.inSync
  | strategies, master => master.votes.sharedStateSyncStrategies
  | rounds, master => (master.sharedState, master.elections)
  | revisions, master => master.nextSharedStateRevision
  | sequence, master => master.collective.sequenceNumber
  | issued, master => master.generatedUuids
  | peers, master => master.topology.bandwidthStore.registeredPeers
  | rings, master => (master.topology.ringTopologies, master.topology.topologyIsOptimal)
  | tasks, master => master.topology.optimizationTasks
  | unreachability, master => master.topology.unreachabilityMap
  | plans, master => (master.plans, master.previousP2PConnectionInfo)
  | told about, master => master.told about

end Part

def Within (parts : Set Part) (master next : MasterState) : Prop :=
  ∀ part, part ∉ parts → part.view next = part.view master

theorem Within.refl (parts : Set Part) (master : MasterState) : Within parts master master :=
  fun _ _ => rfl

theorem Within.trans {parts : Set Part} {master middle next : MasterState}
    (first : Within parts master middle) (second : Within parts middle next) :
    Within parts master next :=
  fun part out => (second part out).trans (first part out)

theorem Within.mono {parts more : Set Part} {master next : MasterState} (fewer : parts ⊆ more)
    (within : Within parts master next) : Within more master next :=
  fun part out => within part fun present => out (fewer present)

def Bug.ofRegistry : Bug → Bool
  | uuidMappingInconsistent | clientInfoMappingInconsistent | bandwidthPeerRegistered => true
  | _ => false

/-- The program changes nothing but the given parts, whether it returns or not. Where the peers of the
bandwidth store are not touched, no bug of the registry is logged. -/
def Touches {A : Type} (parts : Set Part) (program : MasterM A) : Prop :=
  ∀ master, program.Meets master (fun _ next => Within parts master next) fun exit =>
    Within parts master exit.master ∧ (exit.bug.ofRegistry → Part.peers ∈ parts)

namespace Touches

variable {A B Item : Type} {parts more : Set Part}

theorem mono {program : MasterM A} (touches : Touches parts program) (fewer : parts ⊆ more) :
    Touches more program := fun master =>
  (touches master).imp (fun _ _ within => within.mono fewer) fun _ exit =>
    ⟨exit.1.mono fewer, fun bug => fewer (exit.2 bug)⟩

theorem widen {program : MasterM A} (touches : Touches ∅ program) : Touches parts program :=
  touches.mono (Set.empty_subset _)

theorem pure (value : A) : Touches parts (pure value : MasterM A) := fun master => .refl parts master

theorem bind {program : MasterM A} {next : A → MasterM B} (first : Touches parts program)
    (rest : ∀ value, Touches parts (next value)) : Touches parts (program >>= next) := by
  intro master
  refine Meets.bind (first master) fun value middle within => ?_
  exact (rest value middle).imp (fun _ _ further => within.trans further) fun _ exit =>
    ⟨within.trans exit.1, exit.2⟩

theorem read {next : MasterState → MasterM A}
    (rest : ∀ master, (next master).Meets master (fun _ last => Within parts master last) fun exit =>
      Within parts master exit.master ∧ (exit.bug.ofRegistry → Part.peers ∈ parts)) :
    Touches parts (get >>= next) :=
  fun master => (meets_bind _ _).mpr (rest master)

theorem asks {next : MasterState → MasterM A} (rest : ∀ master, Touches parts (next master)) :
    Touches parts (get >>= next) :=
  read fun master => rest master master

theorem modify {change : MasterState → MasterState}
    (within : ∀ master, Within parts master (change master)) :
    Touches parts (modify change : MasterM Unit) :=
  fun master => within master

theorem logBug {bug : Bug} (other : bug.ofRegistry → Part.peers ∈ parts) :
    Touches parts (logBug bug : MasterM A) :=
  fun master => ⟨.refl parts master, other⟩

theorem ite {condition : Prop} [Decidable condition] {first second : MasterM A}
    (yes : condition → Touches parts first) (no : ¬ condition → Touches parts second) :
    Touches parts (if condition then first else second) := by
  split
  · next holds => exact yes holds
  · next fails => exact no fails

theorem when {condition : Prop} [Decidable condition] {program : MasterM Unit}
    (touches : Touches parts program) : Touches parts (when condition program) :=
  ite (fun _ => touches) fun _ => pure ()

theorem forEach {items : List Item} {body : Item → MasterM Unit}
    (each : ∀ item, Touches parts (body item)) : Touches parts (forEach items body) := by
  induction items with
  | nil => exact pure ()
  | cons item items ih => exact bind (each item) fun _ => ih

theorem forEachClient {body : Uuid → SocketAddress → ClientInfo → MasterM Unit}
    (each : ∀ uuid address info, Touches parts (body uuid address info)) :
    Touches parts (forEachClient body) := by
  refine asks fun _ => forEach fun entry => asks fun master => ?_
  cases master.getClientInfo entry.1 with
  | none => exact logBug nofun
  | some info => exact each entry.1 entry.2 info

theorem anyClient (condition : ClientInfo → Bool) : Touches parts (anyClient condition) := by
  have scan (master : MasterState) (entries : List (Uuid × SocketAddress)) :
      Touches parts (anyClient.scan condition master entries) := by
    induction entries with
    | nil => exact pure _
    | cons entry entries ih =>
      unfold anyClient.scan
      split
      · exact logBug nofun
      · exact ite (fun _ => pure _) fun _ => ih
  exact asks fun master => scan master _

theorem replace {master next : MasterState} (within : Within parts master next)
    {rest : PUnit → MasterM A} (touches : ∀ value, Touches parts (rest value)) :
    (set next >>= rest : MasterM A).Meets master (fun _ last => Within parts master last) fun exit =>
      Within parts master exit.master ∧ (exit.bug.ofRegistry → Part.peers ∈ parts) := by
  refine .write ?_
  exact (touches ⟨⟩ next).imp (fun _ _ further => within.trans further) fun _ exit =>
    ⟨within.trans exit.1, exit.2⟩

end Touches

section Infos

variable {parts : Set Part} {master next : MasterState}

def infoParts : Set Part := {.registry, .phases, .sync}

structure ClientInfo.Alike (parts : Set Part) (info moved : ClientInfo) : Prop where
  registry : (moved.clientUuid, moved.socketAddress, moved.variablePorts, moved.peerGroup) =
    (info.clientUuid, info.socketAddress, info.variablePorts, info.peerGroup)
  phase : Part.phases ∉ parts → moved.connectionPhase = info.connectionPhase
  sync : Part.sync ∉ parts → moved.connectionState.inSync = info.connectionState.inSync

theorem ClientInfo.Alike.refl (parts : Set Part) (info : ClientInfo) : info.Alike parts info :=
  ⟨rfl, fun _ => rfl, fun _ => rfl⟩

theorem within_infos {change : Uuid → ClientInfo → ClientInfo}
    (infos : next.clients = { master.clients with
      clientInfo := master.clients.clientInfo.mapKeyed change })
    (others : Within (infoParts ∪ parts) master next)
    (alike : ∀ uuid info, master.getClientInfo uuid = some info →
      info.Alike parts (change uuid info)) : Within parts master next := by
  have viewed {View : Type} (view : ClientInfo → View)
      (same : ∀ uuid info, master.getClientInfo uuid = some info →
        view (change uuid info) = view info) : next.viewInfo view = master.viewInfo view := by
    funext uuid
    rw [MasterState.viewInfo, MasterState.getClientInfo, infos, Table.lookup_mapKeyed, Option.map_map,
      MasterState.viewInfo, MasterState.getClientInfo]
    cases found : master.clients.clientInfo.lookup uuid with
    | none => rfl
    | some info => exact congrArg some (same uuid info found)
  intro part out
  by_cases about : part ∈ infoParts
  · rcases about with rfl | rfl | rfl
    · have seen := viewed (fun info => (info.clientUuid, info.socketAddress, info.variablePorts,
        info.peerGroup)) fun uuid info found => (alike uuid info found).registry
      simp only [Part.view, seen, infos]
      rfl
    · exact viewed _ fun uuid info found => (alike uuid info found).phase out
    · exact viewed _ fun uuid info found => (alike uuid info found).sync out
  · exact others part (by simp [about, out])

theorem within_placed {infos : Table Uuid ClientInfo}
    (strategies : next.votes.sharedStateSyncStrategies = master.votes.sharedStateSyncStrategies)
    (placed : next = { master.setClientInfo infos with votes := next.votes }) :
    Within (infoParts ∪ parts) master next := by
  intro part out
  rw [placed]
  cases part with
  | registry | phases | sync => exact absurd (by simp [infoParts]) out
  | strategies => exact strategies
  | _ => rfl

theorem within_adjustInfo (uuid : Uuid) {change : ClientInfo → ClientInfo}
    (alike : ∀ info, master.getClientInfo uuid = some info → info.Alike parts (change info)) :
    Within parts master (master.adjustInfo uuid change) := by
  refine @within_infos parts master _ (fun other info => if other = uuid then change info else info) rfl
    (within_placed rfl rfl) fun other info found => ?_
  split
  · next same => exact alike info (same ▸ found)
  · exact .refl parts info

theorem within_updateAll {step : ClientInfo → Option ClientInfo} {infos : Table Uuid ClientInfo}
    (updated : master.clients.clientInfo.updateAll step = some infos)
    (clients : next.clients = { master.clients with clientInfo := infos })
    (others : Within (infoParts ∪ parts) master next)
    (alike : ∀ info moved, step info = some moved → info.Alike parts moved) :
    Within parts master next := by
  obtain ⟨all, rfl⟩ := Table.updateAll_eq_some.mp updated
  refine within_infos clients others fun uuid info found => alike _ _ ?_
  obtain ⟨moved, is⟩ := Option.isSome_iff_exists.mp (all uuid info found)
  rw [is]
  rfl

end Infos

end Pccl.Master
