import Pccl.Master.State

set_option autoImplicit false

namespace Pccl.Master

open Packet

namespace BandwidthStore

variable (store : BandwidthStore)

def registerPeer (peer : Uuid) (address : InetAddress) (group : Group) : Option BandwidthStore :=
  -- `none` if the peer is registered already.
  if peer ∈ store.registeredPeers then none
  else some { store with registeredPeers := store.registeredPeers.insert peer ⟨address, group⟩ }

def storeBandwidth (source destination : Uuid) (bandwidth : Bandwidth) : Option BandwidthStore :=
  -- `none` if one of the peers is not registered.
  match store.registeredPeers.lookup source, store.registeredPeers.lookup destination with
  | some first, some second =>
    some { store with
      bandwidthMap := Function.update store.bandwidthMap first.address
        (Function.update (store.bandwidthMap first.address) second.address (some bandwidth)) }
  | _, _ => none

def getBandwidthMbps (source destination : Uuid) : Option Bandwidth :=
  match store.registeredPeers.lookup source, store.registeredPeers.lookup destination with
  | some first, some second => store.bandwidthMap first.address second.address
  | _, _ => none

def addressRepresentativesForGroup (group : Group) : List (InetAddress × Uuid) :=
  -- The distinct addresses of a group, each with the first peer that has it.
  store.registeredPeers.pairs.foldl
    (fun representatives (uuid, peer) =>
      if peer.group = group ∧ peer.address ∉ representatives.map Prod.fst then
        representatives ++ [(peer.address, uuid)]
      else representatives)
    []

def getMissingBandwidthEntries (peer : Uuid) : List (Uuid × Uuid) :=
  match store.registeredPeers.lookup peer with
  | none => []
  | some self =>
    let representatives := store.addressRepresentativesForGroup self.group
    if representatives.length = 1 then
      if (store.bandwidthMap self.address self.address).isSome then [] else [(peer, peer)]
    else
      (representatives.filter fun other => other.1 ≠ self.address).flatMap fun (address, other) =>
        (if (store.bandwidthMap address self.address).isSome then [] else [(other, peer)]) ++
          (if (store.bandwidthMap self.address address).isSome then [] else [(peer, other)])

def groupAddresses (group : Group) : List InetAddress :=
  ((store.registeredPeers.values.filter fun peer => peer.group = group).map
    BandwidthPeer.address).dedup

def isBandwidthStoreFullyPopulated : Bool :=
  (store.registeredPeers.values.map BandwidthPeer.group).dedup.all fun group =>
    let addresses := store.groupAddresses group
    if addresses.length = 1 then
      addresses.all fun address => (store.bandwidthMap address address).isSome
    else
      addresses.all fun address =>
        (addresses.countP fun destination =>
          destination ≠ address && (store.bandwidthMap address destination).isSome) =
          addresses.length - 1

def unregisterPeer (peer : Uuid) : Option BandwidthStore :=
  -- `none` if the peer is not registered.
  match store.registeredPeers.lookup peer with
  | none => none
  | some removed =>
    let registeredPeers : Table Uuid BandwidthPeer := store.registeredPeers.erase peer
    if registeredPeers.values.any fun other => other.address = removed.address then
      some { store with registeredPeers }
    else
      some
        { registeredPeers
          bandwidthMap := fun source destination =>
            if source = removed.address ∨ destination = removed.address then none
            else store.bandwidthMap source destination }

end BandwidthStore

namespace MasterState

variable (master : MasterState)

def setTopology (topology : Topology) : MasterState := { master with topology }

def eligiblePeers (group : Group) : List Uuid :=
  (master.getClientEntrySet.map Prod.fst).filter fun uuid =>
    match master.getClientInfo uuid with
    | none => false
    | some info =>
      (info.connectionPhase = .accepted || info.connectionState = .connectingToPeers) &&
        info.peerGroup = group

-- The comparison of the source is lexicographic over the bytes of the uuids, which are numbers here.
def buildBasicRingTopology (group : Group) : List Uuid :=
  (master.eligiblePeers group).insertionSort (· ≤ ·)

def reachable (first second : Uuid) : Bool :=
  second ∉ master.topology.unreachabilityMap first &&
    first ∉ master.topology.unreachabilityMap second

end MasterState

def backtrack (adjacent : Uuid → List Uuid) (total : Nat) (start : Uuid) :
    (depth : Nat) → (current : Uuid) → (path : List Uuid) → Option (List Uuid)
  -- Backtracking: `path` holds the visited peers with the current one in front and the start at
  -- the end. It never gets longer than `total`, which bounds the depth.
  | depth, current, path =>
    if path.length = total then
      if start ∈ adjacent current then some path.reverse else none
    else
      match depth with
      | 0 => none
      | depth + 1 =>
        (adjacent current).findSome? fun neighbor =>
          if neighbor ∈ path then none
          else backtrack adjacent total start depth neighbor (neighbor :: path)

namespace MasterState

variable (master : MasterState)

def buildReachableRingTopology (group : Group) : Option (List Uuid) :=
  let remaining := master.eligiblePeers group
  match remaining with
  | [] => none
  | [single] => some [single]
  | _ =>
    let adjacent := fun peer => remaining.filter fun other => peer ≠ other && master.reachable peer other
    remaining.findSome? fun start =>
      backtrack adjacent remaining.length start remaining.length start [start]

def staysOptimal (group : Group) (newTopology : List Uuid) : Bool :=
  master.topology.topologyIsOptimal group &&
    newTopology.length = (master.topology.ringTopologies group).length &&
    (master.topology.ringTopologies group).all fun peer => newTopology.contains peer

def setRingTopology (group : Group) (newTopology : List Uuid) (optimal : Bool) :
    Option MasterState :=
  -- `none` where the source returns false because the present ring is optimal.
  if master.staysOptimal group newTopology then none
  else
    some (master.setTopology
      { master.topology with
        ringTopologies := Function.update master.topology.ringTopologies group newTopology
        topologyIsOptimal := Function.update master.topology.topologyIsOptimal group optimal })

def isTopologyDirty (group : Group) (localWorldSize : Nat) : Bool :=
  (master.topology.ringTopologies group).length ≠ localWorldSize ||
    (master.topology.ringTopologies group).any fun peer => peer ∉ master.clients.clientInfo

def refreshRing (group : Group) (includeRegistered : Bool) : Option MasterState :=
  if master.isTopologyDirty group (master.getLocalWorldSize group includeRegistered) then
    master.setRingTopology group (master.buildBasicRingTopology group) false
  else
    some master

end MasterState

def getRingTopology (group : Group) (includeRegistered : Bool) : MasterM (List Uuid) := do
  let master ← get
  match master.refreshRing group includeRegistered with
  | none => logBug .ringStillDirty
  | some next =>
    set next
    return next.topology.ringTopologies group

namespace MasterState

variable (master : MasterState)

def getMissingBandwidthEntries (peer : Uuid) : List (Uuid × Uuid) :=
  -- The missing entries that no report or earlier optimization has ruled out.
  match master.getClientInfo peer with
  | none => []
  | some _ =>
    (master.topology.bandwidthStore.getMissingBandwidthEntries peer).filter fun entry =>
      entry.2 ∉ master.topology.unreachabilityMap entry.1

def addUnreachable (peer : Uuid) (unreachable : Finset Uuid) : MasterState :=
  master.setTopology
    { master.topology with
      unreachabilityMap := Function.update master.topology.unreachabilityMap peer
        (master.topology.unreachabilityMap peer ∪ unreachable) }

def markBandwidthEntryUnreachable (entry : Uuid × Uuid) : MasterState :=
  -- A group that does not match is only warned about.
  match master.getClientInfo entry.1, master.getClientInfo entry.2 with
  | some source, some destination =>
    if source.peerGroup = destination.peerGroup then master.addUnreachable entry.1 {entry.2}
    else master
  | _, _ => master

def markMissingUnreachable : MasterState :=
  master.getExistingPeerGroups.foldl
    (fun master group =>
      if master.topology.bandwidthStore.isBandwidthStoreFullyPopulated then master
      else
        (master.infos.filter fun info =>
            info.connectionPhase = .accepted && info.peerGroup = group).foldl
          (fun master info =>
            (master.getMissingBandwidthEntries info.clientUuid).foldl
              markBandwidthEntryUnreachable master)
          master)
    master

end MasterState

def storePeerBandwidth (source destination : Uuid) (bandwidth : Bandwidth) : MasterM Unit := do
  let master ← get
  match master.getClientInfo source, master.getClientInfo destination with
  | some first, some second =>
    if first.peerGroup = second.peerGroup then
      match master.topology.bandwidthStore.storeBandwidth source destination bandwidth with
      | none => logBug .bandwidthNotStored
      | some bandwidthStore => set (master.setTopology { master.topology with bandwidthStore })
    else
      pure ()
  | _, _ => pure ()

section Optimization

variable (environment : Environment)

def solveRing (moonshot : Bool) (call : Nat) (store : BandwidthStore) (ring : List Uuid) :
    Option (List Uuid × SolutionType) :=
  -- `OptimizeTopology` and `ImproveTopologyMoonshot`: a ring of one peer is not given to the
  -- solver.
  if ring.length = 1 then some (ring, if moonshot then .noImprovement else .approximate)
  else environment.solve call store ring

def setTask (group : Group) (task : Option OptimizationTask) : MasterM Unit :=
  modify fun master =>
    master.setTopology
      { master.topology with
        optimizationTasks := Function.update master.topology.optimizationTasks group task }

def startTask (group : Group) (moonshot : Bool) : MasterM Unit := do
  -- A thread takes the task: it reads the ring and, unless that is optimal, starts the solver.
  let ring ← getRingTopology group false
  let master ← get
  if master.topology.topologyIsOptimal group then setTask group (some .finished)
  else
    let solution := solveRing environment moonshot master.topology.solverCalls
      master.topology.bandwidthStore ring
    set (master.setTopology { master.topology with solverCalls := master.topology.solverCalls + 1 })
    setTask group (some (.solving moonshot solution))

def hasImproved (moonshot : Bool) (kind : SolutionType) : Bool :=
  !moonshot || kind = .improved || kind = .optimal

def finishTask (group : Group) (moonshot : Bool) (solution : Option (List Uuid × SolutionType)) :
    MasterM Unit := do
  match solution with
  | none => logBug .solverFailed
  | some (ring, kind) =>
    let master ← get
    -- A ring that has become optimal in the meantime makes the result stale.
    Program.when (hasImproved moonshot kind) do
      set ((master.setRingTopology group ring (kind = .optimal)).getD master)
    setTask group (some .finished)

def stepTask (group : Group) : MasterM Unit := do
  let master ← get
  match master.topology.optimizationTasks group with
  | some (.scheduled moonshot) => startTask environment group moonshot
  | some (.solving moonshot solution) => finishTask group moonshot solution
  | _ => pure ()

def joinTask (group : Group) : MasterM Unit := do
  -- A task is waited for: it still has to start, to finish or nothing to do.
  stepTask environment group
  stepTask environment group

def performTopologyOptimization (group : Group) : MasterM Unit := do
  let master ← get
  let moonshot := (master.topology.optimizationTasks group).isSome
  Program.when moonshot do
    joinTask environment group
    setTask group none
  let master ← get
  Program.when (¬ master.topology.topologyIsOptimal group) do
    setTask group (some (.scheduled moonshot))
    Program.when (¬ moonshot) (joinTask environment group)

end Optimization

end Pccl.Master
