import Pccl.Master.Silent
import Pccl.Master.Ballots
import Pccl.Master.Unanimity

set_option autoImplicit false

namespace Pccl.Master

open Packet Program

namespace MasterState

variable (master : MasterState)

theorem mem_infos (info : ClientInfo) :
    info ∈ master.infos ↔ ∃ uuid, master.core.info uuid = some info :=
  Table.mem_values_iff

theorem forall_infos (condition : ClientInfo → Prop) :
    (∀ info ∈ master.infos, condition info) ↔ master.core.All condition := by
  constructor
  · exact fun all uuid info found => all info ((mem_infos master info).mpr ⟨uuid, found⟩)
  · intro all info present
    obtain ⟨uuid, found⟩ := (mem_infos master info).mp present
    exact all uuid info found

theorem map_clientUuid
    (named : ∀ uuid info, master.getClientInfo uuid = some info → info.clientUuid = uuid) :
    master.infos.map ClientInfo.clientUuid = master.clients.clientInfo.keys := by
  simp only [infos, Table.values, List.map_map, AList.keys, List.keys]
  refine List.map_congr_left fun entry present => ?_
  exact named entry.1 entry.2 (Table.lookup_iff_mem.mpr present)

theorem nodup_clientUuid
    (named : ∀ uuid info, master.getClientInfo uuid = some info → info.clientUuid = uuid)
    (condition : ClientInfo → Bool) :
    ((master.infos.filter condition).map ClientInfo.clientUuid).Nodup :=
  (List.filter_sublist.map _).nodup
    (master.map_clientUuid named ▸ master.clients.clientInfo.keys_nodup)

theorem card_uuidsWhere {environment : Environment} (registry : Core.Registry environment master.core)
    (condition : ClientInfo → Bool) :
    (master.uuidsWhere condition).card = master.infos.countP condition := by
  have distinct := master.nodup_clientUuid registry.named condition
  rw [uuidsWhere, List.toFinset_card_of_nodup distinct, List.length_map, List.countP_eq_length_filter]

theorem ballotConsensus_iff {environment : Environment}
    (registry : Core.Registry environment master.core) (ballot : Ballot) :
    master.ballotConsensus ballot = true ↔
      master.core.All fun info =>
        info.connectionPhase = .accepted → info.connectionState = ballot.cast := by
  have total : master.clients.clientUuids.size = master.infos.length := by
    rw [infos, Table.values, List.length_map]
    exact registry.sized
  rw [ballotConsensus, decide_eq_true_iff, card_uuidsWhere master registry, total,
    List.countP_eq_length, forall_infos]
  refine forall₃_congr fun _ info _ => ?_
  cases phase : info.connectionPhase <;> simp [phase]

theorem collectiveConsensus_iff (group : Group) (tag : Tag) (state : CollectiveCommunicationState) :
    master.collectiveConsensus group tag state = true ↔
      master.core.All fun info =>
        info.takesPart group → info.collectiveComsStates.lookup tag = some state := by
  rw [collectiveConsensus, decide_eq_true_iff, List.countP_eq_length, ← forall_infos]
  simp [ClientInfo.takesPart]

theorem queryPendingPeersConsensus_iff :
    master.queryPendingPeersConsensus = true ↔
      master.infos ≠ [] ∧
        master.core.All fun info =>
          info.connectionPhase = .accepted → info.voteQueryPendingPeers = true := by
  rw [queryPendingPeersConsensus, Bool.and_eq_true, List.all_eq_true, forall_infos]
  refine and_congr (by simp) (forall₃_congr fun _ info _ => ?_)
  cases phase : info.connectionPhase <;> simp [phase]

end MasterState

namespace Core

variable (environment : Environment)

/-- What holds of every state of the protocol. -/
structure Valid (core : Core) : Prop where
  registry : core.Registry environment
  states : core.States
  ballots : core.Ballots

theorem Valid.initial : Valid environment Core.initial :=
  ⟨Registry.initial, States.initial, Ballots.initial⟩

variable {environment} in
theorem Valid.apply {core : Core} (valid : core.Valid environment) {action : Action}
    (enabled : core.enabled action) : (core.apply environment action).Valid environment :=
  ⟨valid.registry.apply action enabled, valid.states.apply valid.registry action enabled,
    valid.ballots.apply valid.registry valid.states action enabled⟩

end Core

theorem MasterState.groupConsensus_cases {environment : Environment} (master : MasterState)
    (valid : master.core.Valid environment) (ballot : Ballot) (perGroup : ballot.perGroup)
    (group : Group) :
    ∃ unanimous, master.groupConsensus group ballot = some unanimous ∧
      (unanimous = true ↔ master.core.All fun info =>
        info.takesPart group → info.connectionState = ballot.cast) := by
  -- The size of the set of voters is the number of the clients that have voted.
  have counted : (master.infos.filter fun info => info.peerGroup = group).countP
      (fun info => info.connectionState = ballot.cast) = (master.votes.voters group ballot).card := by
    have voters : master.votes.voters group ballot = master.uuidsWhere fun info =>
        info.connectionState = ballot.cast && info.peerGroup = group := by
      ext uuid
      refine (valid.ballots.voted ballot group uuid).trans ?_
      simp only [MasterState.uuidsWhere, List.mem_toFinset, List.mem_map, List.mem_filter,
        MasterState.mem_infos, Core.Has, ClientInfo.Casts, perGroup, forall_true_left,
        Bool.and_eq_true, decide_eq_true_eq]
      constructor
      · rintro ⟨info, found, casts⟩
        exact ⟨info, ⟨⟨uuid, found⟩, casts⟩, valid.registry.named uuid info found⟩
      · rintro ⟨info, ⟨⟨other, found⟩, casts⟩, rfl⟩
        rw [valid.registry.named other info found]
        exact ⟨info, found, casts⟩
    rw [voters, card_uuidsWhere master valid.registry, List.countP_filter]
  refine ⟨_, if_pos counted, ?_⟩
  rw [decide_eq_true_iff, ← forall_infos]
  -- Clients that are not accepted have not voted.
  have quiet (info : ClientInfo) (present : info ∈ master.infos)
      (voted : info.connectionState = ballot.cast) : info.connectionPhase = .accepted := by
    obtain ⟨uuid, found⟩ := (mem_infos master info).mp present
    by_contra other
    refine (valid.states.sound uuid info found).quiet (ConnectionPhase.registered_of_ne other) ?_
    exact voted ▸ ballot.isVote_cast
  have counts (infos : List ClientInfo) (fewer : ∀ info ∈ infos,
      info.connectionState = ballot.cast → info.connectionPhase = .accepted) :
      ((infos.countP fun info => info.connectionState = ballot.cast) =
          infos.countP fun info => info.connectionPhase = .accepted) ↔
        ∀ info ∈ infos, info.connectionPhase = .accepted → info.connectionState = ballot.cast := by
    have bound : ∀ infos : List ClientInfo, (∀ info ∈ infos,
        info.connectionState = ballot.cast → info.connectionPhase = .accepted) →
        (infos.countP fun info => info.connectionState = ballot.cast) ≤
          infos.countP fun info => info.connectionPhase = .accepted :=
      fun infos fewer => List.countP_mono_left fun info present voted => by
        simpa using fewer info present (by simpa using voted)
    induction infos with
    | nil => simp
    | cons info infos ih =>
      have rest := ih fun info present => fewer info (List.mem_cons_of_mem _ present)
      have below := bound infos fun info present => fewer info (List.mem_cons_of_mem _ present)
      have first := fewer info (by simp)
      by_cases voted : info.connectionState = ballot.cast
      · simp [voted, first voted, rest]
      · by_cases accepted : info.connectionPhase = .accepted
        · simp [voted, accepted]
          omega
        · simp [voted, accepted, rest]
  rw [counts _ fun info present => quiet info (List.mem_of_mem_filter present)]
  simp only [List.mem_filter, decide_eq_true_eq, ClientInfo.takesPart_iff]
  exact ⟨fun all info present both => all info ⟨present, both.2⟩ both.1,
    fun all info present accepted => all info present.1 ⟨accepted, present.2⟩⟩

namespace Core

variable (environment : Environment)

def Reaches (kind : Action → Bool) : Core → Core → Prop :=
  Relation.ReflTransGen fun core next =>
    ∃ action : Action, kind action ∧ core.Step environment action next

abbrev Answers : Core → Core → Prop := Reaches environment Action.answers

abbrev Calm : Core → Core → Prop := Reaches environment Action.calm

namespace Reaches

variable {environment} {kind : Action → Bool} {core middle next : Core}

theorem refl (core : Core) : core.Reaches environment kind core := Relation.ReflTransGen.refl

theorem trans (first : core.Reaches environment kind middle)
    (second : middle.Reaches environment kind next) : core.Reaches environment kind next :=
  Relation.ReflTransGen.trans first second

theorem single {action : Action} (is : kind action) (enabled : core.enabled action) :
    core.Reaches environment kind (core.apply environment action) :=
  Relation.ReflTransGen.single ⟨action, is, enabled, rfl⟩

theorem keeps (reaches : core.Reaches environment kind next) (invariant : Core → Prop)
    (step : ∀ core action, kind action → core.Valid environment → core.enabled action →
      invariant core → invariant (core.apply environment action))
    (valid : core.Valid environment) (holds : invariant core) :
    next.Valid environment ∧ invariant next := by
  induction reaches with
  | refl => exact ⟨valid, holds⟩
  | tail _ last ih =>
    obtain ⟨action, is, enabled, rfl⟩ := last
    exact ⟨ih.1.apply enabled, step _ action is ih.1 enabled ih.2⟩

theorem answers (calm : core.Calm environment next) : core.Answers environment next := by
  refine Relation.ReflTransGen.mono (fun first second => ?_) _ _ calm
  rintro ⟨action, is, step⟩
  exact ⟨action, by cases action <;> simp_all [Action.answers, Action.calm], step⟩

theorem valid (reaches : core.Reaches environment kind next) (valid : core.Valid environment) :
    next.Valid environment :=
  (reaches.keeps (fun _ => True) (fun _ _ _ _ _ _ => trivial) valid trivial).1

theorem unanimous_before (answers : core.Answers environment next) (valid : core.Valid environment)
    {vote : Vote} (after : next.Unanimous vote) : core.Unanimous vote := by
  refine (answers.keeps (fun middle => middle.Unanimous vote → core.Unanimous vote)
    (fun middle action answer between enabled holds after => holds ?_) valid id).2 after
  have unraised : ¬ action.raises vote := by cases action <;> simp_all [Action.answers, Action.raises]
  have plain : action.plain := by cases action <;> simp_all [Action.answers, Action.plain]
  exact Core.unanimous_before between.states plain enabled unraised after

end Reaches

end Core

section Loops

variable {environment : Environment} {master : MasterState}

theorem mem_getClientEntrySet (registry : Core.Registry environment master.core) (uuid : Uuid) :
    uuid ∈ master.getClientEntrySet.map Prod.fst ↔ ∃ info, master.core.info uuid = some info := by
  simp only [MasterState.getClientEntrySet, List.map_map, List.mem_map, Function.comp_apply,
    Prod.exists, Prod.fst_swap, exists_eq_right]
  constructor
  · rintro ⟨address, present⟩
    obtain ⟨info, found, _⟩ := registry.info_of address uuid (Table.mem_pairs_iff.mp present)
    exact ⟨info, found⟩
  · rintro ⟨info, found⟩
    exact ⟨info.socketAddress, Table.mem_pairs_iff.mpr (registry.address_of uuid info found)⟩

theorem getClientEntrySet_nodup (registry : Core.Registry environment master.core) :
    (master.getClientEntrySet.map Prod.fst).Nodup := by
  have distinct : master.clients.clientUuids.pairs.Nodup :=
    (Table.pairs_nodup master.clients.clientUuids).of_map
  simp only [MasterState.getClientEntrySet, List.map_map]
  refine distinct.map_on fun first here second there same => ?_
  have firstClient := (registry.inverse first.1 first.2).mp (Table.mem_pairs_iff.mp here)
  have secondClient := (registry.inverse second.1 second.2).mp (Table.mem_pairs_iff.mp there)
  change first.2 = second.2 at same
  rw [same, secondClient] at firstClient
  exact Prod.ext (Option.some.inj firstClient.symm) same

theorem forEachClient_reaches (registry : Core.Registry environment master.core)
    {body : Uuid → SocketAddress → ClientInfo → MasterM Unit} {fail : Exit → Prop}
    (reached : List Uuid → Core) (start : reached [] = master.core)
    (same : ∀ finished, (reached finished).clients = master.clients)
    (step : ∀ finished uuid address info middle, master.core.info uuid = some info →
      uuid ∉ finished → middle.core = reached finished →
      (body uuid address info).Meets middle (fun _ next => next.core = reached (finished ++ [uuid])) fail) :
    (forEachClient body).Meets master
      (fun _ next => next.core = reached (master.getClientEntrySet.map Prod.fst)) fail := by
  have nodup := getClientEntrySet_nodup registry
  refine (meets_bind _ _).mpr ?_
  rw [meets_get]
  refine @meets_forEach _ _ _ _ _ _ _
    (fun (finished : List (Uuid × SocketAddress)) (next : MasterState) =>
      next.core = reached (finished.map Prod.fst)) ?_ start.symm
  rintro finished ⟨uuid, address⟩ rest split middle at_
  have present : uuid ∈ master.getClientEntrySet.map Prod.fst := by simp [← split]
  obtain ⟨info, found⟩ := (mem_getClientEntrySet registry uuid).mp present
  have fresh : uuid ∉ finished.map Prod.fst := by
    rw [← split, List.map_append, List.nodup_append] at nodup
    exact fun before => nodup.2.2 uuid before uuid (by simp) rfl
  have lookup : middle.getClientInfo uuid = some info := by
    have kept : middle.clients = master.clients := (congrArg Core.clients at_).trans (same _)
    rw [MasterState.getClientInfo, kept]
    exact found
  rw [List.map_append, List.map_singleton]
  refine (meets_bind _ _).mpr ?_
  rw [meets_get, lookup]
  exact step _ uuid address info middle found fresh at_

def Core.tell (core : Core) (uuid : Uuid) (tag : Tag) (signal : Signal) : Core :=
  { core with
    log := fun client other =>
      if client = uuid ∧ other = tag then core.log client other ++ [signal]
      else core.log client other }

def Core.tellRound (core : Core) (uuid : Uuid) (signal : RoundSignal) : Core :=
  { core with
    rounds := fun client =>
      if client = uuid then core.rounds client ++ [signal] else core.rounds client }

def Core.notified (core : Core) (meant : ClientInfo → Bool) (tag : Tag) (signal : Signal)
    (uuids : List Uuid) : Core :=
  { core with
    log := fun uuid other =>
      if other = tag ∧ uuid ∈ uuids ∧ (core.info uuid).any meant then core.log uuid other ++ [signal]
      else core.log uuid other }

def Core.announced (core : Core) (meant : ClientInfo → Bool) (signal : RoundSignal)
    (uuids : List Uuid) : Core :=
  { core with
    rounds := fun uuid =>
      if uuid ∈ uuids ∧ (core.info uuid).any meant then core.rounds uuid ++ [signal]
      else core.rounds uuid }

theorem Core.notified_concat (core : Core) (meant : ClientInfo → Bool) (tag : Tag) (signal : Signal)
    (uuids : List Uuid) {uuid : Uuid} {info : ClientInfo} (found : core.info uuid = some info)
    (fresh : uuid ∉ uuids) :
    core.notified meant tag signal (uuids ++ [uuid]) =
      if meant info then (core.notified meant tag signal uuids).tell uuid tag signal
      else core.notified meant tag signal uuids := by
  cases answer : meant info <;>
    simp only [Bool.false_eq_true, if_true, if_false, notified, tell] <;> congr 1 <;>
    funext client other <;> by_cases here : client = uuid
  · subst here
    simp [found, answer]
  · simp [here]
  · subst here
    by_cases same : other = tag <;> simp [same, fresh, found, answer]
  · simp [here]

theorem Core.announced_concat (core : Core) (meant : ClientInfo → Bool) (signal : RoundSignal)
    (uuids : List Uuid) {uuid : Uuid} {info : ClientInfo} (found : core.info uuid = some info)
    (fresh : uuid ∉ uuids) :
    core.announced meant signal (uuids ++ [uuid]) =
      if meant info then (core.announced meant signal uuids).tellRound uuid signal
      else core.announced meant signal uuids := by
  cases answer : meant info <;>
    simp only [Bool.false_eq_true, if_true, if_false, announced, tellRound] <;> congr 1 <;>
    funext client <;> by_cases here : client = uuid
  · subst here
    simp [found, answer]
  · simp [here]
  · subst here
    simp [fresh, found, answer]
  · simp [here]

theorem forEachClient_notify (registry : Core.Registry environment master.core)
    {body : Uuid → SocketAddress → ClientInfo → MasterM Unit} {meant : ClientInfo → Bool} {tag : Tag}
    {signal : Signal} {fail : Exit → Prop}
    (tells : ∀ uuid address info middle, master.core.info uuid = some info →
      middle.clients = master.clients → middle.collective = master.collective →
      (body uuid address info).Meets middle
        (fun _ next =>
          next.core = if meant info then middle.core.tell uuid tag signal else middle.core) fail) :
    (forEachClient body).Meets master
      (fun _ next => next.core = master.core.notify meant tag signal) fail := by
  have all : master.core.notified meant tag signal (master.getClientEntrySet.map Prod.fst) =
      master.core.notify meant tag signal := by
    simp only [Core.notify, Core.notified]
    congr 1
    funext uuid other
    have member := mem_getClientEntrySet registry uuid
    cases found : master.core.info uuid with
    | none => simp
    | some info => simp [member.mpr ⟨info, found⟩]
  rw [← all]
  refine forEachClient_reaches registry _ (by simp [Core.notified]) (fun _ => rfl) ?_
  intro finished uuid address info middle found fresh at_
  have clients : middle.clients = master.clients := congrArg Core.clients at_
  have collective : middle.collective = master.collective := congrArg Core.collective at_
  refine (tells uuid address info middle found clients collective).imp ?_ fun _ exit => exit
  intro _ next reached
  rw [reached, at_, Core.notified_concat _ _ _ _ _ found fresh]

theorem forEachClient_announce (registry : Core.Registry environment master.core)
    {body : Uuid → SocketAddress → ClientInfo → MasterM Unit} {meant : ClientInfo → Bool}
    {signal : RoundSignal} {fail : Exit → Prop}
    (tells : ∀ uuid address info middle, master.core.info uuid = some info →
      middle.clients = master.clients → middle.core.log = master.core.log →
      middle.peerDropped = master.peerDropped →
      (body uuid address info).Meets middle
        (fun _ next =>
          next.core = if meant info then middle.core.tellRound uuid signal else middle.core) fail) :
    (forEachClient body).Meets master
      (fun _ next => next.core = master.core.announce meant signal) fail := by
  have all : master.core.announced meant signal (master.getClientEntrySet.map Prod.fst) =
      master.core.announce meant signal := by
    simp only [Core.announce, Core.announced]
    congr 1
    funext uuid
    have member := mem_getClientEntrySet registry uuid
    cases found : master.core.info uuid with
    | none => simp
    | some info => simp [member.mpr ⟨info, found⟩]
  rw [← all]
  refine forEachClient_reaches registry _ (by simp [Core.announced]) (fun _ => rfl) ?_
  intro finished uuid address info middle found fresh at_
  have clients : middle.clients = master.clients := congrArg Core.clients at_
  have log : middle.core.log = master.core.log := by rw [at_]; rfl
  have dropped : middle.peerDropped = master.peerDropped := congrArg Core.peerDropped at_
  refine (tells uuid address info middle found clients log dropped).imp ?_ fun _ exit => exit
  intro _ next reached
  rw [reached, at_, Core.announced_concat _ _ _ _ found fresh]

theorem sendPacket_tells {packet : M2CPacket} {tag : Tag} {signal : Signal}
    (speaks : ∀ other, signal? other master.collective.sequenceNumber packet =
      if other = tag then some signal else none)
    (round : roundSignal? packet = none) (uuid : Uuid) (address : SocketAddress)
    {fail : Exit → Prop} :
    (sendPacket uuid address packet).Meets master
      (fun _ next => next.core = master.core.tell uuid tag signal) fail := by
  have log : signals (master.sent ++
      [⟨uuid, address, packet, master.collective.sequenceNumber⟩]) =
      (master.core.tell uuid tag signal).log := by
    funext client other
    have turned : uuid = client ↔ client = uuid := eq_comm
    rw [signals_append, speaks, Core.tell]
    by_cases here : client = uuid <;> by_cases same : other = tag <;>
      simp [turned, here, same, MasterState.core]
  have rounds : roundSignals (master.sent ++
      [⟨uuid, address, packet, master.collective.sequenceNumber⟩]) = roundSignals master.sent := by
    funext client
    rw [roundSignals_append, round]
    simp
  simp only [sendPacket, meets_modify, MasterState.core, log, rounds]
  rfl

theorem sendPacket_tellsRound {packet : M2CPacket} {signal : RoundSignal}
    (speaks : roundSignal? packet = some signal)
    (other : ∀ tag operations, signal? tag operations packet = none) (uuid : Uuid)
    (address : SocketAddress) {fail : Exit → Prop} :
    (sendPacket uuid address packet).Meets master
      (fun _ next => next.core = master.core.tellRound uuid signal) fail := by
  have log : signals (master.sent ++
      [⟨uuid, address, packet, master.collective.sequenceNumber⟩]) = signals master.sent := by
    funext client tag
    rw [signals_append, other]
    simp
  have rounds : roundSignals (master.sent ++
      [⟨uuid, address, packet, master.collective.sequenceNumber⟩]) =
      (master.core.tellRound uuid signal).rounds := by
    funext client
    have turned : uuid = client ↔ client = uuid := eq_comm
    rw [roundSignals_append, speaks, Core.tellRound]
    by_cases here : client = uuid <;> simp [turned, here, MasterState.core]
  simp only [sendPacket, meets_modify, MasterState.core, log, rounds]
  rfl

end Loops

end Pccl.Master
