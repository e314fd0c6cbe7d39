import Pccl.Master.Bandwidths
import Pccl.Master.Enrolment

set_option autoImplicit false

namespace Pccl.Master

open Packet Program

theorem enrolled_of_run {environment : Environment} {events : List Event} {master : MasterState}
    (reached : run environment events = .ok master) : Enrolled master := by
  have holds := run_enrolled environment events
  rw [reached] at holds
  cases holds with
  | serves holds => exact holds.2

section Reports

variable {master : MasterState}

theorem Enrolled.lookup_of_info (enrolled : Enrolled master) {uuid : Uuid} {info : ClientInfo}
    (found : master.getClientInfo uuid = some info) :
    master.topology.bandwidthStore.registeredPeers.lookup uuid =
      if info.connectionPhase = .accepted then some ⟨info.socketAddress.inet, info.peerGroup⟩ else none := by
  split
  next accepted => exact (enrolled.stored uuid _).mpr ⟨info, found, accepted, rfl⟩
  next waiting =>
    refine Option.eq_none_iff_forall_ne_some.mpr fun peer present => waiting ?_
    obtain ⟨other, again, accepted, _⟩ := (enrolled.stored uuid peer).mp present
    cases found.symm.trans again
    exact accepted

def MasterState.prematureReport (master : MasterState) (source destination : Uuid) : Prop :=
  ∃ first second, master.getClientInfo source = some first ∧
    master.getClientInfo destination = some second ∧ first.peerGroup = second.peerGroup ∧
    ¬ (first.connectionPhase = .accepted ∧ second.connectionPhase = .accepted)

theorem storePeerBandwidth_spec (enrolled : Enrolled master) (source destination : Uuid)
    (bandwidth : Bandwidth) :
    (master.prematureReport source destination ∧
      storePeerBandwidth source destination bandwidth master = .error ⟨.bandwidthNotStored, master⟩) ∨
    ¬ master.prematureReport source destination ∧
      (storePeerBandwidth source destination bandwidth master = .ok ((), master) ∨
        ∃ store, master.topology.bandwidthStore.storeBandwidth source destination bandwidth = some store ∧
          storePeerBandwidth source destination bandwidth master =
            .ok ((), master.setTopology { master.topology with bandwidthStore := store })) := by
  rw [storePeerBandwidth, get_bind]
  cases here : master.getClientInfo source with
  | none =>
    refine Or.inr ⟨?_, Or.inl rfl⟩
    rintro ⟨first, second, found, _⟩
    cases here.symm.trans found
  | some first =>
    cases there : master.getClientInfo destination with
    | none =>
      refine Or.inr ⟨?_, Or.inl rfl⟩
      rintro ⟨_, second, _, found, _⟩
      cases there.symm.trans found
    | some second =>
      dsimp only
      by_cases same : first.peerGroup = second.peerGroup
      · rw [if_pos same]
        have stored : master.topology.bandwidthStore.storeBandwidth source destination bandwidth = none ↔
            ¬ (first.connectionPhase = .accepted ∧ second.connectionPhase = .accepted) := by
          unfold BandwidthStore.storeBandwidth
          rw [enrolled.lookup_of_info here, enrolled.lookup_of_info there]
          by_cases one : first.connectionPhase = .accepted <;>
            by_cases two : second.connectionPhase = .accepted <;> simp [one, two]
        cases result : master.topology.bandwidthStore.storeBandwidth source destination bandwidth with
        | none => exact Or.inl ⟨⟨first, second, here, there, same, stored.mp result⟩, rfl⟩
        | some store =>
          refine Or.inr ⟨?_, Or.inr ⟨store, rfl, rfl⟩⟩
          rintro ⟨_, _, found, foundToo, _, early⟩
          cases here.symm.trans found
          cases there.symm.trans foundToo
          cases (stored.mpr early).symm.trans result
      · rw [if_neg same]
        refine Or.inr ⟨?_, Or.inl rfl⟩
        rintro ⟨_, _, found, foundToo, grouped, _⟩
        cases here.symm.trans found
        cases there.symm.trans foundToo
        exact same grouped

end Reports

theorem reports_storable_iff (environment : Environment) (events : List Event) {master : MasterState}
    (reached : run environment events = .ok master) {address : SocketAddress} {uuid : Uuid}
    (known : master.findClientUUID address = some uuid) (toPeer : Uuid) (bandwidth : Bandwidth) :
    ((run environment (events ++ [.read address (.reportPeerBandwidth toPeer bandwidth)]) = .ok master ∨
        ∃ store, master.topology.bandwidthStore.storeBandwidth uuid toPeer bandwidth = some store ∧
          run environment (events ++ [.read address (.reportPeerBandwidth toPeer bandwidth)]) =
            .ok (master.setTopology { master.topology with bandwidthStore := store })) ↔
      ∀ first second, master.getClientInfo uuid = some first → master.getClientInfo toPeer = some second →
        first.peerGroup = second.peerGroup →
          first.connectionPhase = .accepted ∧ second.connectionPhase = .accepted) ∧
    ∀ exit, run environment (events ++ [.read address (.reportPeerBandwidth toPeer bandwidth)]) =
      .error exit → exit.bug = .bandwidthNotStored := by
  have handled : handle environment (.read address (.reportPeerBandwidth toPeer bandwidth)) master =
      storePeerBandwidth uuid toPeer bandwidth master := by
    refine (withClient_eq address _ master).trans ?_
    rw [known]
    rfl
  have fine : ¬ master.prematureReport uuid toPeer ↔
      ∀ first second, master.getClientInfo uuid = some first → master.getClientInfo toPeer = some second →
        first.peerGroup = second.peerGroup →
          first.connectionPhase = .accepted ∧ second.connectionPhase = .accepted := by
    constructor
    · intro fits first second here there same
      by_contra early
      exact fits ⟨first, second, here, there, same, early⟩
    · rintro all ⟨first, second, here, there, same, early⟩
      exact early (all first second here there same)
  rw [run_concat reached, serve_ok, handled, ← fine]
  rcases storePeerBandwidth_spec (enrolled_of_run reached) uuid toPeer bandwidth with
    ⟨early, fails⟩ | ⟨fits, ignored | ⟨store, stored, returns⟩⟩
  · rw [fails]
    refine ⟨iff_of_false ?_ (not_not.mpr early), fun exit same => ?_⟩
    · rintro (same | ⟨_, _, same⟩) <;> cases same
    · cases same
      rfl
  · rw [ignored]
    exact ⟨iff_of_true (Or.inl rfl) fits, fun _ same => by cases same⟩
  · rw [returns]
    exact ⟨iff_of_true (Or.inr ⟨store, stored, rfl⟩) fits, fun _ same => by cases same⟩

namespace Sample

def reportBandwidth (client : Nat) (toPeer : Uuid) : Event :=
  .read (address client) (.reportPeerBandwidth toPeer 5)

end Sample

theorem reports_storable_pair :
    ∃ master, run Sample.environment Sample.pair = .ok master ∧
      ∃ store, run Sample.environment (Sample.pair ++ [Sample.reportBandwidth 0 1]) =
        .ok (master.setTopology { master.topology with bandwidthStore := store }) := by
  have both : (run Sample.environment Sample.pair).passes (fun master =>
      master.findClientUUID (Sample.address 0) = some 0 &&
        (master.getClientInfo 0).all (fun info => info.connectionPhase = .accepted) &&
        (master.getClientInfo 1).all fun info => info.connectionPhase = .accepted) = true := by cbv
  obtain ⟨master, reached, checked⟩ := Server.exists_of_passes both
  simp only [Bool.and_eq_true, decide_eq_true_eq] at checked
  obtain ⟨⟨known, first⟩, second⟩ := checked
  have stored := (reports_storable_iff Sample.environment Sample.pair reached known 1 5).1.mpr
    fun one two here there _ => by
      rw [here] at first
      rw [there] at second
      exact ⟨by simpa using first, by simpa using second⟩
  refine ⟨master, reached, ?_⟩
  rcases stored with ignored | ⟨store, _, returns⟩
  · exact ⟨master.topology.bandwidthStore, ignored⟩
  · exact ⟨store, returns⟩

theorem early_report_ends_master :
    ∃ exit, run Sample.environment [Sample.join 0 0, Sample.report 0 true, Sample.join 1 0,
        Sample.reportBandwidth 1 0] = .error exit ∧ exit.bug = .bandwidthNotStored := by
  have fails : (run Sample.environment [Sample.join 0 0, Sample.report 0 true, Sample.join 1 0,
      Sample.reportBandwidth 1 0]).fails (fun exit => exit.bug = .bandwidthNotStored) = true := by cbv
  obtain ⟨exit, ended, bug⟩ := Server.exists_of_fails fails
  exact ⟨exit, ended, of_decide_eq_true bug⟩

section Marking

variable {master middle next : MasterState}

structure Marks (master next : MasterState) : Prop where
  clients : next.clients = master.clients
  store : next.topology.bandwidthStore = master.topology.bandwidthStore
  grows : ∀ peer, master.topology.unreachabilityMap peer ⊆ next.topology.unreachabilityMap peer

theorem Marks.refl (master : MasterState) : Marks master master :=
  ⟨rfl, rfl, fun _ => Finset.Subset.refl _⟩

theorem Marks.trans (first : Marks master middle) (second : Marks middle next) : Marks master next :=
  ⟨second.clients.trans first.clients, second.store.trans first.store,
    fun peer => (first.grows peer).trans (second.grows peer)⟩

theorem Marks.missing_nil (marks : Marks master next) {peer : Uuid}
    (nothing : master.getMissingBandwidthEntries peer = []) :
    next.getMissingBandwidthEntries peer = [] := by
  have same : next.getClientInfo peer = master.getClientInfo peer := by
    rw [MasterState.getClientInfo, marks.clients]
    rfl
  unfold MasterState.getMissingBandwidthEntries at nothing ⊢
  rw [same, marks.store]
  cases found : master.getClientInfo peer with
  | none => rfl
  | some info =>
    rw [found] at nothing
    refine List.filter_eq_nil_iff.mpr fun entry present fresh => ?_
    have marked := List.filter_eq_nil_iff.mp nothing entry present
    simp only [decide_eq_true_eq, not_not] at marked fresh
    exact fresh (marks.grows entry.1 marked)

theorem mark_marks (master : MasterState) (entry : Uuid × Uuid) :
    Marks master (master.markBandwidthEntryUnreachable entry) := by
  unfold MasterState.markBandwidthEntryUnreachable
  split
  · split
    · refine ⟨rfl, rfl, fun peer => ?_⟩
      change _ ⊆ Function.update master.topology.unreachabilityMap entry.1 _ peer
      by_cases here : peer = entry.1
      · subst here
        rw [Function.update_self]
        exact Finset.subset_union_left
      · rw [Function.update_of_ne here]
    · exact .refl master
  · exact .refl master

section Folds

variable {Item : Type} {step : MasterState → Item → MasterState}

theorem foldl_marks (marks : ∀ master item, Marks master (step master item)) (items : List Item)
    (master : MasterState) : Marks master (items.foldl step master) := by
  induction items generalizing master with
  | nil => exact .refl master
  | cons item items ih => exact (marks master item).trans (ih _)

theorem foldl_settles (marks : ∀ master item, Marks master (step master item)) {items : List Item}
    {item : Item} (present : item ∈ items) {peer : Uuid}
    (settles : ∀ middle, Marks master middle → (step middle item).getMissingBandwidthEntries peer = []) :
    (items.foldl step master).getMissingBandwidthEntries peer = [] := by
  induction items generalizing master with
  | nil => cases present
  | cons first items ih =>
    rcases List.mem_cons.mp present with rfl | later
    · exact (foldl_marks marks items _).missing_nil (settles master (.refl master))
    · exact ih later fun middle after => settles middle ((marks master first).trans after)

end Folds

/-- Both clients of an entry that may be missing can be found, and they are of one group. -/
def Markable (master : MasterState) : Prop :=
  ∀ peer, ∀ entry ∈ master.topology.bandwidthStore.getMissingBandwidthEntries peer,
    ∃ source destination, master.getClientInfo entry.1 = some source ∧
      master.getClientInfo entry.2 = some destination ∧ source.peerGroup = destination.peerGroup

theorem Enrolled.markable (enrolled : Enrolled master) : Markable master := by
  intro peer entry missing
  obtain ⟨_, first, second, here, there, _, _, grouped⟩ := BandwidthStore.needs_of_mem_missing missing
  obtain ⟨source, found, _, rfl⟩ := (enrolled.stored entry.1 first).mp here
  obtain ⟨destination, foundToo, _, rfl⟩ := (enrolled.stored entry.2 second).mp there
  exact ⟨source, destination, found, foundToo, grouped⟩

theorem Marks.markable (marks : Marks master next) (markable : Markable master) : Markable next := by
  intro peer entry missing
  rw [marks.store] at missing
  rw [MasterState.getClientInfo, MasterState.getClientInfo, marks.clients]
  exact markable peer entry missing

theorem markAll_settles (markable : Markable master) (peer : Uuid) :
    ((master.getMissingBandwidthEntries peer).foldl MasterState.markBandwidthEntryUnreachable
      master).getMissingBandwidthEntries peer = [] := by
  -- Every entry is in the map at the end, since it is put there at its turn.
  have marked (entries : List (Uuid × Uuid)) (master : MasterState) (markable : Markable master)
      (among : ∀ entry ∈ entries, ∃ peer,
        entry ∈ master.topology.bandwidthStore.getMissingBandwidthEntries peer) :
      ∀ entry ∈ entries, entry.2 ∈ (entries.foldl MasterState.markBandwidthEntryUnreachable
        master).topology.unreachabilityMap entry.1 := by
    induction entries generalizing master with
    | nil => simp
    | cons first entries ih =>
      intro entry present
      have marks := mark_marks master first
      rcases List.mem_cons.mp present with rfl | later
      · obtain ⟨owner, missing⟩ := among entry List.mem_cons_self
        obtain ⟨source, destination, found, foundToo, grouped⟩ := markable owner entry missing
        refine (foldl_marks mark_marks entries _).grows entry.1 ?_
        simp [MasterState.markBandwidthEntryUnreachable, found, foundToo, grouped,
          MasterState.addUnreachable, MasterState.setTopology]
      · refine ih _ (marks.markable markable) (fun other there => ?_) entry later
        rw [marks.store]
        exact among other (List.mem_cons_of_mem _ there)
  have marks := foldl_marks mark_marks (master.getMissingBandwidthEntries peer) master
  generalize ended : (master.getMissingBandwidthEntries peer).foldl
    MasterState.markBandwidthEntryUnreachable master = last at marks
  have same : last.getClientInfo peer = master.getClientInfo peer := by
    rw [MasterState.getClientInfo, marks.clients]
    rfl
  unfold MasterState.getMissingBandwidthEntries
  rw [same, marks.store]
  cases found : master.getClientInfo peer with
  | none => rfl
  | some info =>
    refine List.filter_eq_nil_iff.mpr fun entry present fresh => ?_
    simp only [decide_eq_true_eq] at fresh
    have missing : entry ∈ master.getMissingBandwidthEntries peer := by
      unfold MasterState.getMissingBandwidthEntries
      rw [found]
      exact List.mem_filter.mpr ⟨present, decide_eq_true fun before => fresh (marks.grows entry.1 before)⟩
    refine fresh (ended ▸ marked _ master markable (fun other there => ⟨peer, ?_⟩) entry missing)
    unfold MasterState.getMissingBandwidthEntries at there
    rw [found] at there
    exact (List.mem_filter.mp there).1

theorem markMissingUnreachable_settles (markable : Markable master) {peer : Uuid} {info : ClientInfo}
    (found : master.getClientInfo peer = some info) (named : info.clientUuid = peer)
    (accepted : info.connectionPhase = .accepted) :
    Marks master master.markMissingUnreachable ∧
      master.markMissingUnreachable.getMissingBandwidthEntries peer = [] := by
  have inner (master : MasterState) (info : ClientInfo) :
      Marks master ((master.getMissingBandwidthEntries info.clientUuid).foldl
        MasterState.markBandwidthEntryUnreachable master) :=
    foldl_marks mark_marks _ master
  have turn (master : MasterState) (group : Group) :
      Marks master (if master.topology.bandwidthStore.isBandwidthStoreFullyPopulated then master
        else (master.infos.filter fun info =>
            info.connectionPhase = .accepted && info.peerGroup = group).foldl
          (fun master info => (master.getMissingBandwidthEntries info.clientUuid).foldl
            MasterState.markBandwidthEntryUnreachable master) master) := by
    split
    · exact .refl master
    · exact foldl_marks inner _ master
  have present : info ∈ master.infos := (master.mem_infos info).mpr ⟨peer, found⟩
  refine ⟨foldl_marks turn _ master, foldl_settles turn (List.mem_map_of_mem present) fun middle after => ?_⟩
  split
  next populated =>
    -- A complete store misses nothing.
    unfold MasterState.getMissingBandwidthEntries
    split
    next => rfl
    next =>
      refine List.filter_eq_nil_iff.mpr fun entry missing => ?_
      obtain ⟨group, first, second, _, _, needs, unmeasured, _⟩ :=
        BandwidthStore.needs_of_mem_missing missing
      have complete := BandwidthStore.isBandwidthStoreFullyPopulated_iff.mp populated
      exact absurd (complete group _ _ needs) unmeasured
  next =>
    have still : info ∈ middle.infos := by
      rw [MasterState.infos, after.clients]
      exact present
    refine foldl_settles inner (List.mem_filter.mpr ⟨still, by simp [accepted]⟩) fun last marks => ?_
    rw [named]
    exact markAll_settles ((after.trans marks).markable markable) peer

end Marking

section Completion

def KeepsBandwidths {A : Type} (program : MasterM A) : Prop :=
  ∀ store, program.Preserves (fun master => master.topology.bandwidthStore = store) fun _ => True

namespace KeepsBandwidths

theorem getRingTopology (group : Group) (includeRegistered : Bool) :
    KeepsBandwidths (getRingTopology group includeRegistered) := by
  refine fun store => .read fun master holds => ?_
  cases refreshed : master.refreshRing group includeRegistered with
  | none => exact .stop fun _ _ => trivial
  | some next =>
    refine .bind (.set ?_) fun _ => .pure _
    unfold MasterState.refreshRing MasterState.setRingTopology at refreshed
    split at refreshed
    · split at refreshed
      · cases refreshed
      · cases refreshed
        exact holds
    · cases refreshed
      exact holds

theorem setTask (group : Group) (task : Option OptimizationTask) : KeepsBandwidths (setTask group task) :=
  fun _ => .modify fun _ holds => holds

theorem stepTask (environment : Environment) (group : Group) :
    KeepsBandwidths (stepTask environment group) := by
  refine fun store => .read fun master _ => ?_
  rcases master.topology.optimizationTasks group with _ | moonshot | ⟨moonshot, solution⟩ | _
  · exact .pure _
  · refine .bind (getRingTopology group false store) fun ring => .read fun master holds => ?_
    exact .ite (fun _ => setTask group _ store) fun _ => .bind (.set holds) fun _ => setTask group _ store
  · cases solution with
    | none => exact .stop fun _ _ => trivial
    | some found =>
      refine .read fun master holds => .bind (.when (.set ?_)) fun _ => setTask group _ store
      unfold MasterState.setRingTopology
      split <;> exact holds
  · exact .pure _

theorem optimizeGroups (environment : Environment) (groups : List Group) :
    KeepsBandwidths (optimizeGroups environment groups) := by
  refine fun store => .forEach fun group => .read fun _ _ => .when (.read fun _ _ => ?_)
  have join : (joinTask environment group).Preserves
      (fun master => master.topology.bandwidthStore = store) fun _ => True :=
    .bind (stepTask environment group store) fun _ => stepTask environment group store
  refine .bind (.when (.bind join fun _ => setTask group _ store)) fun _ => .read fun _ _ => ?_
  exact .when (.bind (setTask group _ store) fun _ => .when join)

theorem endTopologyOptimizationPhase (failed : Bool) :
    KeepsBandwidths (endTopologyOptimizationPhase failed) := by
  refine fun store => .read fun master holds => ?_
  cases master.clients.clientInfo.updateAll _ with
  | none => exact .pure _
  | some clientInfo => exact .bind (.set holds) fun _ => .pure _

theorem sendPacket (uuid : Uuid) (address : SocketAddress) (packet : M2CPacket) :
    KeepsBandwidths (sendPacket uuid address packet) :=
  fun _ => .modify fun _ holds => holds

theorem forEachClient {body : Uuid → SocketAddress → ClientInfo → MasterM Unit}
    (each : ∀ uuid address info, KeepsBandwidths (body uuid address info)) :
    KeepsBandwidths (forEachClient body) := by
  refine fun store => .read fun _ _ => .forEach fun entry => .read fun master _ => ?_
  cases master.getClientInfo entry.1 with
  | none => exact .stop fun _ _ => trivial
  | some info => exact each entry.1 entry.2 info store

end KeepsBandwidths

variable {environment : Environment} {master next : MasterState}

theorem getMissingBandwidthEntries_congr {peer : Uuid}
    (registry : Part.registry.view next = Part.registry.view master)
    (unreachability : Part.unreachability.view next = Part.unreachability.view master)
    (store : next.topology.bandwidthStore = master.topology.bandwidthStore) :
    next.getMissingBandwidthEntries peer = master.getMissingBandwidthEntries peer := by
  have infos := congrFun (congrArg (fun view => view.2.2) registry) peer
  simp only [Part.view, MasterState.viewInfo] at infos
  have map : next.topology.unreachabilityMap = master.topology.unreachabilityMap := unreachability
  unfold MasterState.getMissingBandwidthEntries
  rw [store, map]
  cases found : master.getClientInfo peer with
  | none =>
    rw [found, Option.map_none, Option.map_eq_none_iff] at infos
    rw [infos]
  | some info =>
    rw [found, Option.map_some] at infos
    obtain ⟨later, present, _⟩ := Option.map_eq_some_iff.mp infos
    rw [present]

def Benchmarked (master : MasterState) : Prop :=
  ∀ peer info, master.getClientInfo peer = some info → info.connectionPhase = .accepted →
    master.getMissingBandwidthEntries peer = []

theorem checkTopologyOptimizationCompletionConsensus_settles (enrolled : Enrolled master)
    (unanimous : master.topologyOptimizationCompleteConsensus = true) :
    (checkTopologyOptimizationCompletionConsensus environment).Meets master
      (fun _ next => Benchmarked next) fun _ => True := by
  have marked : Benchmarked master.markMissingUnreachable := by
    intro peer info found accepted
    have before : master.getClientInfo peer = some info := by
      have same : master.markMissingUnreachable.clients.clientInfo = master.clients.clientInfo := by
        have kept := congrArg Core.clients (Keeps.markMissingUnreachable master)
        exact congrArg Clients.clientInfo kept
      rw [← found, MasterState.getClientInfo, MasterState.getClientInfo, same]
    exact (markMissingUnreachable_settles enrolled.markable before
      (enrolled.named peer info before) accepted).2
  refine .read ?_
  refine (meets_when _ _).mpr ⟨fun _ => ?_, absurd unanimous⟩
  refine .change ?_
  generalize master.markMissingUnreachable = middle at marked
  -- The rest of the round touches neither the clients nor what is marked.
  let rest : MasterM Unit := do
    let ended ← endTopologyOptimizationPhase false
    if ended then
      optimizeGroups environment master.getExistingPeerGroups
      forEachClient fun uuid address info =>
        when (info.connectionPhase = .accepted)
          (sendPacket uuid address (.optimizeTopologyComplete true []))
    else
      logBug .endTopologyOptimizationPhase
  have touches : Touches {.rings, .tasks, .told .other} rest := by
    refine .bind (Touches.endTopologyOptimizationPhase false).widen fun ended =>
      .ite (fun _ => .bind (.forEach fun group => .asks fun _ => .when ?_) fun _ =>
        .forEachClient fun _ _ _ => .when ((Touches.sendPacket _ _ _).mono (by simp [topic])))
        fun _ => .logBug (by simp [Bug.ofRegistry])
    exact (Touches.performTopologyOptimization environment group).mono (by simp [Set.subset_def])
  have keeps : KeepsBandwidths rest := fun store =>
    .bind (KeepsBandwidths.endTopologyOptimizationPhase false store) fun ended =>
      .ite (fun _ => .bind (KeepsBandwidths.optimizeGroups environment _ store) fun _ =>
        KeepsBandwidths.forEachClient
          (fun _ _ _ store => .when (KeepsBandwidths.sendPacket _ _ _ store)) store)
        fun _ => .stop fun _ _ => trivial
  refine ((touches middle).and (keeps _ middle rfl)).imp (fun _ next both => ?_) fun _ _ => trivial
  obtain ⟨within, store⟩ := both
  intro peer info found accepted
  have registry := within .registry (by simp)
  have phase := congrFun (within .phases (by simp)) peer
  simp only [Part.view, MasterState.viewInfo, found, Option.map_some] at phase
  obtain ⟨earlier, present, same⟩ := Option.map_eq_some_iff.mp phase.symm
  rw [getMissingBandwidthEntries_congr registry (within .unreachability (by simp)) store]
  exact marked peer earlier present (same.trans accepted)

end Completion

def MasterState.lastToComplete (master : MasterState) (uuid : Uuid) : Bool :=
  match voteTopologyOptimizationComplete uuid master with
  | .ok (true, middle) => middle.topologyOptimizationCompleteConsensus
  | _ => false

def MasterState.completesOptimization (master : MasterState) (event : Event) : Prop :=
  ∃ address uuid, event = .read address .optimizeTopologyWorkComplete ∧
    master.findClientUUID address = some uuid ∧ master.lastToComplete uuid = true

theorem MasterState.vote_of_last {master : MasterState} {uuid : Uuid}
    (last : master.lastToComplete uuid = true) :
    ∃ middle, voteTopologyOptimizationComplete uuid master = .ok (true, middle) ∧
      middle.topologyOptimizationCompleteConsensus = true := by
  unfold MasterState.lastToComplete at last
  split at last
  next middle voted => exact ⟨middle, voted, last⟩
  next => cases last

theorem handle_last {environment : Environment} {master middle : MasterState} {address : SocketAddress}
    {uuid : Uuid} (known : master.findClientUUID address = some uuid)
    (voted : voteTopologyOptimizationComplete uuid master = .ok (true, middle)) :
    handle environment (.read address .optimizeTopologyWorkComplete) master =
      checkTopologyOptimizationCompletionConsensus environment middle := by
  refine (withClient_eq address _ master).trans ?_
  rw [known, Option.elim]
  change (StateT.bind _ _ : MasterM Unit) master = _
  simp only [StateT.bind, bind, Except.bind, voted]
  rfl

theorem no_benchmark_left (environment : Environment) (events : List Event) {master next : MasterState}
    (reached : run environment events = .ok master) {event : Event}
    (completes : master.completesOptimization event)
    (handled : run environment (events ++ [event]) = .ok next) (peer : Uuid) (info : ClientInfo)
    (found : next.getClientInfo peer = some info) (accepted : info.connectionPhase = .accepted) :
    next.getMissingBandwidthEntries peer = [] := by
  obtain ⟨address, uuid, rfl, known, last⟩ := completes
  obtain ⟨middle, voted, unanimous⟩ := MasterState.vote_of_last last
  have enrolled : Enrolled middle := by
    have votes : Enrols (voteTopologyOptimizationComplete uuid) :=
      (Touches.vote .completeTopologyOptimization uuid).enrols (by simp [Apart, Ballot.parts])
    have kept := votes master (enrolled_of_run reached)
    rw [Meets, voted] at kept
    exact kept
  have settles := @checkTopologyOptimizationCompletionConsensus_settles environment middle enrolled unanimous
  rw [run_concat reached, serve_ok, handle_last known voted] at handled
  unfold Meets at settles
  split at handled
  next pair last returns =>
    cases handled
    rw [returns] at settles
    exact settles peer info found accepted
  next => cases handled

namespace Sample

def optimize (client : Nat) : Event := .read (address client) .optimizeTopology

def workComplete (client : Nat) : Event := .read (address client) .optimizeTopologyWorkComplete

def benchmarking : List Event := pair ++ [optimize 0, optimize 1, workComplete 0]

end Sample

open Sample

theorem no_benchmark_left_pair :
    ∃ master next, run environment benchmarking = .ok master ∧
      master.getMissingBandwidthEntries 0 = [(1, 0), (0, 1)] ∧
      run environment (benchmarking ++ [workComplete 1]) = .ok next ∧
      next.getMissingBandwidthEntries 0 = [] := by
  have both : Server.both (fun master next =>
      master.findClientUUID (address 1) = some 1 && master.lastToComplete 1 &&
        master.getMissingBandwidthEntries 0 = [(1, 0), (0, 1)] &&
        (next.getClientInfo 0).any fun info => info.connectionPhase = .accepted)
      (run environment benchmarking)
      (run environment (benchmarking ++ [workComplete 1])) = true := by cbv
  obtain ⟨master, next, reached, handled, checked⟩ := Server.exists_of_both both
  simp only [Bool.and_eq_true, decide_eq_true_eq, Option.any_eq_true] at checked
  obtain ⟨⟨⟨known, last⟩, missing⟩, info, found, accepted⟩ := checked
  exact ⟨master, next, reached, missing, handled, no_benchmark_left environment
    benchmarking reached ⟨address 1, 1, rfl, known, last⟩ handled 0 info found accepted⟩

end Pccl.Master
