import Pccl.Master.Refinement

set_option autoImplicit false

namespace Pccl.Master

open Packet Program

section

variable (environment : Environment)

/-- The program answers calmly, and when it returns none of the votes is unanimous. -/
abbrev ResolvesAt {A : Type} (votes : Set Vote) (program : MasterM A) (master : MasterState) : Prop :=
  program.Meets master
    (fun _ next => master.core.Calm environment next.core ∧
      ∀ vote ∈ votes, ¬ next.core.Unanimous vote)
    (Fatal environment master.core)

def Resolves {A : Type} (votes : Set Vote) (program : MasterM A) : Prop :=
  ∀ master : MasterState, master.core.Valid environment → ResolvesAt environment votes program master

end

section

variable {environment : Environment} {A B : Type} {votes others : Set Vote} {master : MasterState}

theorem ResolvesAt.bind {program : MasterM A} {next : A → MasterM B}
    (first : ResolvesAt environment votes program master) (valid : master.core.Valid environment)
    (rest : ∀ value (middle : MasterState), master.core.Calm environment middle.core →
      ResolvesAt environment others (next value) middle) :
    ResolvesAt environment (votes ∪ others) (program >>= next) master := by
  refine Meets.bind first ?_
  rintro value middle ⟨calm, settled⟩
  refine (rest value middle calm).imp ?_ fun _ fatal => fatal.after calm.answers
  rintro _ last ⟨further, resolved⟩
  refine ⟨calm.trans further, ?_⟩
  rintro vote (earlier | later) unanimous
  · exact settled vote earlier (further.answers.unanimous_before (calm.valid valid) unanimous)
  · exact resolved vote later unanimous

theorem ResolvesAt.mono {program : MasterM A} (resolves : ResolvesAt environment votes program master)
    (fewer : others ⊆ votes) : ResolvesAt environment others program master :=
  resolves.imp
    (fun _ _ settled => ⟨settled.1, fun vote present => settled.2 vote (fewer present)⟩) fun _ exit => exit

theorem ResolvesAt.check (action : Action) (calm : action.calm) {condition : Prop}
    [Decidable condition] {body : MasterM Unit}
    (fires : condition → master.core.enabled action ∧
      body.Meets master (fun _ next => next.core = master.core.apply environment action)
        (Fatal environment master.core))
    (settles : ∀ vote ∈ votes, action.settles vote)
    (notices : ∀ vote ∈ votes, master.core.Unanimous vote → condition) :
    ResolvesAt environment votes (when condition body) master := by
  refine (meets_when _ _).mpr ⟨fun holds => ?_, fun open_ => ?_⟩
  · obtain ⟨enabled, meets⟩ := fires holds
    refine meets.imp (fun _ next applied => ?_) fun _ exit => exit
    rw [applied]
    refine ⟨.single calm enabled, fun vote present => ?_⟩
    exact Core.not_unanimous_of_settles (Action.plain_of_calm calm) enabled (settles vote present)
  · exact ⟨.refl _, fun vote present unanimous => open_ (notices vote present unanimous)⟩

end

namespace Resolves

variable {environment : Environment} {A B Item : Type} {votes others : Set Vote}

theorem of_keeps {program : MasterM A} (keeps : ∀ core, Keeps core program) :
    Resolves environment ∅ program := by
  intro master valid
  refine ((keeps master.core).meets rfl valid.registry).imp (fun _ next same => ?_) fun _ exit => exit
  rw [same]
  exact ⟨.refl _, by simp⟩

theorem bind {program : MasterM A} {next : A → MasterM B} (first : Resolves environment votes program)
    (rest : ∀ value, Resolves environment others (next value)) :
    Resolves environment (votes ∪ others) (program >>= next) :=
  fun master valid => (first master valid).bind valid fun value middle calm =>
    rest value middle (calm.valid valid)

theorem pure (value : A) : Resolves environment ∅ (Pure.pure value : MasterM A) :=
  of_keeps fun _ => .pure value

theorem mono {program : MasterM A} (resolves : Resolves environment votes program)
    (fewer : others ⊆ votes) : Resolves environment others program :=
  fun master valid => (resolves master valid).mono fewer

theorem ite {condition : Prop} [Decidable condition] {first second : MasterM A}
    (yes : condition → Resolves environment votes first)
    (no : ¬ condition → Resolves environment votes second) :
    Resolves environment votes (if condition then first else second) := by
  split
  · next holds => exact yes holds
  · next fails => exact no fails

theorem after {program : MasterM A} {next : A → MasterM B} (keeps : ∀ core, Keeps core program)
    (rest : ∀ value, Resolves environment votes (next value)) :
    Resolves environment votes (program >>= next) :=
  ((of_keeps keeps).bind rest).mono (by simp)

theorem when {condition : Prop} [Decidable condition] {program : MasterM Unit}
    (resolves : Resolves environment ∅ program) : Resolves environment ∅ (when condition program) :=
  ite (fun _ => resolves) fun _ => pure ()

theorem check (action : Action) (calm : action.calm) {condition : MasterState → Bool}
    {body : MasterState → MasterM Unit}
    (fires : ∀ master : MasterState, master.core.Valid environment → condition master →
      master.core.enabled action ∧
        (body master).Meets master (fun _ next => next.core = master.core.apply environment action)
          (Fatal environment master.core))
    (settles : ∀ vote ∈ votes, action.settles vote)
    (notices : ∀ master : MasterState, master.core.Valid environment → ∀ vote ∈ votes,
      master.core.Unanimous vote → condition master) :
    Resolves environment votes
      (do let master ← get; Program.when (condition master) (body master) : MasterM Unit) :=
  fun master valid => .read (ResolvesAt.check action calm (fires master valid) settles (notices master valid))

end Resolves

section Checks

variable {environment : Environment}

theorem Core.Unanimous.all {core : Core} {vote : Vote} (unanimous : core.Unanimous vote) {uuid : Uuid}
    {info : ClientInfo} (found : core.info uuid = some info) (accepted : info.connectionPhase = .accepted)
    (concerns : vote.concerns info.peerGroup) : vote.hasCast info :=
  unanimous.2 uuid info found (by simp [Vote.inScope, accepted, concerns])

theorem checkQueryPeersPendingConsensus_resolves :
    Resolves environment {.queryPendingPeers} checkQueryPeersPendingConsensus := by
  refine Resolves.check .resetQuery rfl (fun master valid consensus => ?_) ?_ ?_
  · have voted := ((MasterState.queryPendingPeersConsensus_iff master).mp consensus).2
    have all : master.core.All fun info => (Action.resetQuery.step info).isSome := by
      intro uuid info found
      by_cases accepted : info.connectionPhase = .accepted
      · simp [Action.step, accepted, voted uuid info found accepted]
      · simp [Action.step, accepted]
    refine ⟨all, Meets.bind ((Keeps.forEachClient fun _ _ _ => .when
      (.sendPacket (fun _ _ => rfl) rfl _ _)).meets rfl valid.registry) fun _ middle same => ?_⟩
    refine (resetVoteQueryPendingPeers_meets (same ▸ all)).imp (fun _ next moved => ?_) fun _ exit => exit
    rw [moved, same]
    rfl
  · rintro vote rfl
    trivial
  · rintro master valid vote rfl unanimous
    refine (MasterState.queryPendingPeersConsensus_iff master).mpr ⟨?_, ?_⟩
    · obtain ⟨uuid, info, found, _⟩ := unanimous.1
      exact List.ne_nil_of_mem ((MasterState.mem_infos master info).mpr ⟨uuid, found⟩)
    · exact fun uuid info found accepted => unanimous.all found accepted rfl

theorem all_advance {core : Core} {ballot : Ballot} {target : ConnectionState}
    (voted : core.All fun info => info.connectionPhase = .accepted → info.connectionState = ballot.cast) :
    core.All fun info => (info.advance ballot.cast target).isSome := by
  intro uuid info found
  by_cases accepted : info.connectionPhase = .accepted
  · simp [ClientInfo.advance, accepted, voted uuid info found accepted]
  · simp [ClientInfo.advance, accepted]

theorem checkTopologyOptimizationConsensus_resolves :
    Resolves environment {.optimizeTopology} checkTopologyOptimizationConsensus := by
  refine Resolves.check .startOptimization rfl (fun master valid consensus => ?_) ?_ ?_
  · have voted := (master.ballotConsensus_iff valid.registry .optimizeTopology).mp consensus
    have all : master.core.enabled .startOptimization := all_advance voted
    refine ⟨all, Meets.bind transitionToTopologyOptimizationPhase_meets fun entered middle transits => ?_⟩
    obtain ⟨rfl, moved⟩ := transits.of_enabled all
    rw [if_pos rfl]
    refine Keeps.answered (.forEachClient fun uuid _ _ => ?_) rfl all moved valid.registry
    refine .when (.read fun _ _ => .bind (.benchmarkRequests uuid _) fun _ => ?_)
    exact .sendPacket (fun _ _ => rfl) rfl _ _
  · rintro vote rfl
    trivial
  · rintro master valid vote rfl unanimous
    refine (master.ballotConsensus_iff valid.registry .optimizeTopology).mpr
      fun uuid info found accepted => ?_
    exact of_decide_eq_true (unanimous.all found accepted rfl)

theorem checkTopologyOptimizationCompletionConsensus_resolves :
    Resolves environment {.completeTopologyOptimization}
      (checkTopologyOptimizationCompletionConsensus environment) := by
  refine Resolves.check .endOptimization rfl (fun master valid consensus => ?_) ?_ ?_
  · have voted := (master.ballotConsensus_iff valid.registry .completeTopologyOptimization).mp consensus
    have all : master.core.enabled .endOptimization := all_advance voted
    have kept := Keeps.markMissingUnreachable master
    refine ⟨all, .change ?_⟩
    refine Meets.bind endTopologyOptimizationPhase_meets fun ended middle transits => ?_
    rw [kept] at transits
    obtain ⟨rfl, moved⟩ := transits.of_enabled all
    refine Keeps.answered (.bind (.optimizeGroups environment _) fun _ => ?_) rfl all moved valid.registry
    exact .forEachClient fun _ _ _ => .when (.sendPacket (fun _ _ => rfl) rfl _ _)
  · rintro vote rfl
    trivial
  · rintro master valid vote rfl unanimous
    refine (master.ballotConsensus_iff valid.registry .completeTopologyOptimization).mpr
      fun uuid info found accepted => ?_
    exact of_decide_eq_true (unanimous.all found accepted rfl)

theorem checkSyncSharedStateCompleteConsensus_resolves (group : Group) :
    Resolves environment {.completeSharedStateSync group}
      (checkSyncSharedStateCompleteConsensus group) := by
  intro master valid
  obtain ⟨unanimous, counted, iff⟩ :=
    master.groupConsensus_cases valid .syncSharedStateComplete rfl group
  refine (meets_bind _ _).mpr (.read ?_)
  rw [counted]
  refine (meets_when _ _).mpr ⟨fun holds => ?_, fun open_ => ⟨.refl _, ?_⟩⟩
  · have voted := iff.mp holds
    have all : master.core.enabled (.endSync group) := by
      intro uuid info found
      by_cases part : info.takesPart group
      · have state := voted uuid info found part
        simp_all [Action.step, ClientInfo.advance, ClientInfo.takesPart, Ballot.cast]
      · simp [Action.step, part]
    refine Meets.bind (endSharedStateSyncPhase_meets group) fun ended middle transits => ?_
    obtain ⟨rfl, moved⟩ := transits.of_enabled all
    rw [if_pos rfl]
    refine (Keeps.answered (.forEachClient fun uuid _ info => .when ?_) rfl all moved valid.registry).imp
      (fun _ next applied => ?_) fun _ exit => exit
    · exact .ite (fun _ => .sendPacket (fun _ _ => rfl) rfl _ _) fun _ => .logBug rfl
    · rw [applied]
      refine ⟨.single rfl all, ?_⟩
      rintro vote rfl
      exact Core.not_unanimous_of_settles rfl all rfl
  · rintro vote rfl agreed
    refine open_ (iff.mpr fun uuid info found part => ?_)
    have member := (ClientInfo.takesPart_iff info group).mp part
    exact of_decide_eq_true (agreed.all found member.1 (by simp [Vote.concerns, member.2]))

theorem enterSharedStateSync_resolves (group : Group) :
    Resolves environment ∅ (enterSharedStateSync group) := by
  intro master valid
  refine Meets.bind (transitionToSharedStateSyncPhase_meets group) ?_
  rintro entered middle (⟨rfl, all, moved⟩ | ⟨rfl, _, same⟩)
  · have enabled : master.core.enabled (.startSync group master.getSharedStateMismatchStatus) := all
    rw [if_pos rfl]
    refine (Keeps.answered (.bind (.kickStrategyViolations group) fun _ => .forEachClient
      fun uuid address info => .when (.sendSyncSharedState group uuid address info)) rfl enabled moved
        valid.registry).imp
        (fun _ next applied => ?_) fun _ exit => exit
    rw [applied]
    exact ⟨.single rfl enabled, by simp⟩
  · exact .here rfl (same ▸ .refl _)

theorem checkSyncSharedStateConsensus_resolves (group : Group) :
    Resolves environment ∅ (checkSyncSharedStateConsensus environment group) := by
  intro master valid
  refine Meets.bind (anyClient_meets valid.registry _) fun anyWaiting _ => ?_
  rintro ⟨rfl, _⟩
  cases anyWaiting with
  | false => exact ⟨.refl _, by simp⟩
  | true =>
    obtain ⟨unanimous, counted, _⟩ := master.groupConsensus_cases valid .syncSharedState rfl group
    refine (meets_bind _ _).mpr (.read ?_)
    rw [counted]
    cases unanimous with
    | false => exact ⟨.refl _, by simp⟩
    | true =>
      have rest : Resolves environment ∅ (do
          let elected ← electSharedStateMask environment group
          if elected then
            let compared ← checkMaskSharedStateMismatches group
            if compared then
              let kicked ← kickKeySetMismatch group
              when (¬ kicked) (enterSharedStateSync group)
              return true
            else return false
          else return false) := by
        refine .after (fun _ => .electSharedStateMask environment group) fun elected =>
          .ite (fun _ => ?_) fun _ => .pure _
        refine .after (fun _ => .checkMaskSharedStateMismatches group) fun compared =>
          .ite (fun _ => ?_) fun _ => .pure _
        refine .after (fun _ => .kickKeySetMismatch group) fun kicked => ?_
        exact (Resolves.bind (.when (enterSharedStateSync_resolves group)) fun _ => .pure _).mono (by simp)
      exact rest master valid

theorem sendCollectiveCommsAbortPackets_meets {master : MasterState} {fail : Exit → Prop}
    (registry : Core.Registry environment master.core) (group : Group) (tag : Tag) (aborted : Bool) :
    (sendCollectiveCommsAbortPackets group tag aborted).Meets master
      (fun _ next => next.core = master.core.notify (Core.runs group) tag (.abort aborted)) fail := by
  refine forEachClient_notify registry fun uuid address info middle found _ _ => ?_
  by_cases runs : info.takesPart group ∧ info.connectionState = .collectiveCommunicationsRunning
  · simp only [when, Core.runs, runs, decide_true, Bool.and_self, if_true]
    exact sendPacket_tells (fun other => by simp [signal?, eq_comm]) rfl uuid address
  · simp [when, Core.runs, runs]

theorem runs_of_commence {core : Core} {group : Group} {tag : Tag} {uuid : Uuid} {info : ClientInfo}
    (enabled : core.enabled (.commence group tag))
    (found : (core.apply environment (.commence group tag)).info uuid = some info)
    (part : info.takesPart group) : info.connectionState = .collectiveCommunicationsRunning := by
  obtain ⟨before, _, moves⟩ := Core.moved rfl enabled found
  cases moves with
  | skip outside => exact absurd part outside
  | commence _ runs _ => exact runs

theorem runs_of_finish {core : Core} {group : Group} {tag : Tag} {uuid : Uuid} {info : ClientInfo}
    (enabled : core.enabled (.finish group tag))
    (found : (core.apply environment (.finish group tag)).info uuid = some info)
    (part : info.takesPart group) :
    (info.connectionState = .idle ∨ info.connectionState = .collectiveCommunicationsRunning) ∧
      tag ∉ info.collectiveComsStates := by
  obtain ⟨before, _, moves⟩ := Core.moved rfl enabled found
  cases moves with
  | skip outside => exact absurd part outside
  | finish _ runs _ =>
    refine ⟨?_, by simp [ClientInfo.eraseTag, AList.mem_erase]⟩
    by_cases last : (before.collectiveComsStates.erase tag).entries = [] <;>
      simp [ClientInfo.eraseTag, last, runs]

def Core.Inhabited (core : Core) (group : Group) : Prop :=
  ∃ uuid, core.Has uuid fun info => info.takesPart group

theorem Core.Inhabited.calmly {core next : Core} {group : Group} (inhabited : core.Inhabited group)
    (valid : core.Valid environment) (calm : core.Calm environment next) : next.Inhabited group := by
  refine (calm.keeps (Core.Inhabited · group) (fun core action is _ enabled => ?_) valid inhabited).2
  rintro ⟨uuid, member⟩
  exact ⟨uuid, takesPart_apply is enabled member⟩

theorem checkCollectiveCommsInitiateConsensus_resolves {master : MasterState}
    (valid : master.core.Valid environment) {group : Group} (inhabited : master.core.Inhabited group)
    (tag : Tag) :
    ResolvesAt environment {.collectiveInitiate group tag}
      (checkCollectiveCommsInitiateConsensus group tag) master := by
  refine .read (ResolvesAt.check (.commence group tag) rfl (fun consensus => ?_) ?_ ?_)
  · have voted := (master.collectiveConsensus_iff group tag .voteInitiate).mp consensus
    have all : master.core.enabled (.commence group tag) := by
      refine ⟨inhabited, fun uuid info found => ?_⟩
      by_cases part : info.takesPart group
      · have vote := voted uuid info found part
        simp [Action.step, ClientInfo.moveTag, part, vote,
          (valid.states.sound uuid info found).runs_of_tag vote]
      · simp [Action.step, ClientInfo.moveTag, part]
    refine ⟨all, Meets.bind (transitionToPerformCollectiveCommsPhase_meets group tag) ?_⟩
    intro entered middle transits
    obtain ⟨rfl, moved⟩ := transits.of_enabled all.2
    rw [if_pos rfl]
    refine (meets_bind _ _).mpr (.read ?_)
    refine .write (meets_pure _ |>.mpr ?_)
    -- The number of the operation has been drawn, and nobody has been told it yet.
    generalize drawn : ({ middle with collective := { middle.collective with
      sequenceNumber := middle.collective.sequenceNumber + 1 } } : MasterState) = start
    have reached : start.core = { master.core.move (.commence group tag) with
        collective := { master.core.collective with
          sequenceNumber := master.core.collective.sequenceNumber + 1 } } := by
      rw [← drawn]
      change { middle.core with collective := { middle.core.collective with
        sequenceNumber := middle.core.collective.sequenceNumber + 1 } } = _
      rw [moved]
      rfl
    have registry : Core.Registry environment start.core := by
      rw [reached]
      exact valid.registry.midway rfl all rfl (fun _ _ => ⟨fun _ => rfl, rfl⟩) rfl
    refine (@forEachClient_notify environment start registry _ (ClientInfo.takesPart group) tag
      (.commence (master.core.collective.sequenceNumber + 1)) _ ?_).imp ?_ fun _ exit => exit
    · intro uuid address info next found _ collective
      by_cases part : info.takesPart group
      · have runs := @runs_of_commence environment _ group tag uuid info all
          (by rw [← found, reached]; rfl) part
        simp only [when, part, runs, if_true]
        refine sendPacket_tells (fun other => ?_) rfl uuid address
        have number : next.collective.sequenceNumber = master.core.collective.sequenceNumber + 1 :=
          (congrArg Collective.sequenceNumber (collective.trans (congrArg Core.collective reached)))
        simp [signal?, number, eq_comm]
      · simp [when, part]
    · intro _ next told
      rw [told, reached]
      rfl
  · rintro vote rfl
    exact ⟨rfl, rfl⟩
  · rintro vote rfl unanimous
    refine (master.collectiveConsensus_iff group tag .voteInitiate).mpr fun uuid info found part => ?_
    have member := (ClientInfo.takesPart_iff info group).mp part
    exact of_decide_eq_true (unanimous.all found member.1 (by simp [Vote.concerns, member.2]))

theorem checkCollectiveCommsCompleteConsensus_resolves (group : Group) (tag : Tag) :
    Resolves environment {.collectiveComplete group tag}
      (checkCollectiveCommsCompleteConsensus group tag) := by
  refine Resolves.check (.finish group tag) rfl (fun master valid consensus => ?_) ?_ ?_
  · have voted := (master.collectiveConsensus_iff group tag .voteComplete).mp consensus
    have all : master.core.enabled (.finish group tag) := by
      intro uuid info found
      by_cases part : info.takesPart group
      · have vote := voted uuid info found part
        simp [Action.step, ClientInfo.moveTag, part, vote,
          (valid.states.sound uuid info found).runs_of_tag vote]
      · simp [Action.step, ClientInfo.moveTag, part]
    -- An operation that was not aborted says so first.
    generalize said : (if master.core.collective.abortStates group tag then master.core
      else master.core.notify (Core.runs group) tag (.abort false)) = told
    have clients : told.clients = master.core.clients := by rw [← said]; split <;> rfl
    have quiet (uuid : Uuid) (absent : master.core.info uuid = none) :
        (∀ tag, told.log uuid tag = master.core.log uuid tag) ∧
          told.rounds uuid = master.core.rounds uuid := by
      rw [← said]
      split
      · exact ⟨fun _ => rfl, rfl⟩
      · simp [Core.notify, absent]
    have generated : told.generated = master.core.generated := by rw [← said]; split <;> rfl
    have first : (when (¬ master.isCollectiveCommsOperationAborted group tag)
        (sendCollectiveCommsAbortPackets group tag false)).Meets master
        (fun _ next => next.core = told) (Fatal environment master.core) := by
      rw [← said]
      by_cases aborted : master.collective.abortStates group tag
      · simp [when, MasterState.isCollectiveCommsOperationAborted, aborted, MasterState.core]
      · simp only [when, MasterState.isCollectiveCommsOperationAborted, aborted]
        refine (sendCollectiveCommsAbortPackets_meets valid.registry group tag false).imp
          (fun _ next told => ?_) fun _ exit => exit
        rw [told, MasterState.core]
        simp [aborted]
    refine ⟨all, Meets.bind first fun _ middle at_ => ?_⟩
    have still : middle.core.All fun info => ((Action.finish group tag).step info).isSome := by
      rw [at_]
      intro uuid info found
      exact all uuid info (by rw [← found, Core.info, Core.info, clients])
    refine Meets.bind (transitionToCollectiveCommsCompletePhase_meets still) ?_
    rintro ended start ⟨rfl, reached⟩
    rw [at_] at reached
    have applied : master.core.apply environment (.finish group tag) =
        start.core.notify (ClientInfo.takesPart group) tag .complete := by
      rw [reached, ← said]
      rfl
    have registry : Core.Registry environment start.core := by
      rw [reached]
      refine valid.registry.midway rfl all ?_ quiet generated
      rw [applied, reached]
      rfl
    rw [if_pos rfl, applied]
    refine forEachClient_notify registry fun uuid address info next found kept _ => ?_
    by_cases part : info.takesPart group
    · obtain ⟨state, erased⟩ := @runs_of_finish environment _ group tag uuid info all
        (by rw [applied]; exact found) part
      simp only [when, part, if_pos state, if_true]
      have tells : (sendPacket uuid address (.collectiveCommsComplete tag)).Meets next
          (fun _ last => last.core = next.core.tell uuid tag .complete) (Fatal environment master.core) :=
        sendPacket_tells (fun other => by simp [signal?, eq_comm]) rfl uuid address
      refine Meets.bind tells fun _ last at_ => ?_
      rw [meets_modify, ← at_]
      have same : last.clients.clientInfo.adjust uuid (fun info =>
          { info with collectiveComsStates := info.collectiveComsStates.erase tag }) =
          last.clients.clientInfo := by
        refine Table.adjust_of_fixed _ _ _ fun other present => ?_
        have clients : last.clients = start.clients := (congrArg Core.clients at_).trans kept
        rw [clients] at present
        cases found.symm.trans present
        -- The transition has already erased the tag.
        have same : info.collectiveComsStates.erase tag = info.collectiveComsStates :=
          AList.ext (List.kerase_of_notMem_keys erased)
        simp only [same]
      simp only [MasterState.core, MasterState.adjustInfo, MasterState.setClientInfo, same]
    · simp [when, part]
  · rintro vote rfl
    exact ⟨rfl, rfl⟩
  · rintro master valid vote rfl unanimous
    refine (master.collectiveConsensus_iff group tag .voteComplete).mpr fun uuid info found part => ?_
    have member := (ClientInfo.takesPart_iff info group).mp part
    exact of_decide_eq_true (unanimous.all found member.1 (by simp [Vote.concerns, member.2]))

theorem abortOperation_meets {master : MasterState} (valid : master.core.Valid environment)
    (group : Group) (tag : Tag) {fail : Exit → Prop} :
    (abortOperation group tag).Meets master
      (fun _ next => next.core = master.core.apply environment (.abort group tag)) fail := by
  refine (meets_bind _ _).mpr (.read ?_)
  by_cases aborted : master.collective.abortStates group tag
  · rw [if_pos aborted]
    have same : master.core.apply environment (.abort group tag) = master.core := if_pos aborted
    simp [same]
  · rw [if_neg aborted]
    have applied : master.core.apply environment (.abort group tag) =
        (master.core.setAbort group tag true).notify (Core.runs group) tag (.abort true) :=
      if_neg aborted
    rw [applied]
    refine .write (meets_pure _ |>.mpr ((meets_when _ _).mpr ⟨?_, ?_⟩))
    · intro _
      have still : master.core.enabled .drop := trivial
      have registry : Core.Registry environment (master.core.setAbort group tag true) :=
        valid.registry.midway rfl still rfl (fun _ _ => ⟨fun _ => rfl, rfl⟩) rfl
      exact sendCollectiveCommsAbortPackets_meets registry group tag true
    · intro impossible
      exact absurd rfl impossible

theorem recheckOperation_resolves {master : MasterState} (valid : master.core.Valid environment)
    {group : Group} (inhabited : master.core.Inhabited group) (tag : Tag) :
    ResolvesAt environment {.collectiveInitiate group tag, .collectiveComplete group tag}
      (recheckOperation group tag) master := by
  have abort : Resolves environment ∅ (do
      let master ← get
      when (master.isCollectiveOperationRunning group tag) (abortOperation group tag)) := by
    intro master valid
    refine .read ((meets_when _ _).mpr
      ⟨fun running => ?_, fun _ => ⟨.refl _, by simp⟩⟩)
    have enabled : master.core.enabled (.abort group tag) := by
      simp only [MasterState.isCollectiveOperationRunning, List.any_eq_true, MasterState.mem_infos,
        Bool.and_eq_true, decide_eq_true_eq] at running
      obtain ⟨info, ⟨uuid, found⟩, here, performs⟩ := running
      have sound := valid.states.sound uuid info found
      refine ⟨uuid, info, found, ?_, Or.inl performs⟩
      exact (ClientInfo.takesPart_iff info group).mpr
        ⟨sound.accepted_of_runs (sound.runs_of_tag performs), here⟩
    refine (abortOperation_meets valid group tag).imp (fun _ next applied => ?_) fun _ exit => exit
    rw [applied]
    exact ⟨.single rfl enabled, by simp⟩
  have rest := (checkCollectiveCommsCompleteConsensus_resolves group tag).bind fun _ => abort
  refine ((checkCollectiveCommsInitiateConsensus_resolves valid inhabited tag).bind valid
    fun _ middle calm => rest middle (calm.valid valid)).mono ?_
  rintro vote (rfl | rfl) <;> simp

theorem ongoing_of_unanimous {master : MasterState} {group : Group} {tag : Tag} {vote : Vote}
    (about : vote = .collectiveInitiate group tag ∨ vote = .collectiveComplete group tag)
    (unanimous : master.core.Unanimous vote) :
    tag ∈ master.getOngoingCollectiveCommsOpTags group := by
  obtain ⟨uuid, info, found, scope⟩ := unanimous.1
  have cast := unanimous.2 uuid info found scope
  simp only [Vote.inScope, Bool.and_eq_true, decide_eq_true_eq] at scope
  simp only [MasterState.getOngoingCollectiveCommsOpTags, List.mem_dedup, List.mem_flatMap,
    List.mem_filter, MasterState.mem_infos, decide_eq_true_eq]
  refine ⟨info, ⟨⟨uuid, found⟩, ?_⟩, ?_⟩
  · rcases about with rfl | rfl <;> simpa [Vote.concerns] using scope.2
  · rcases about with rfl | rfl <;>
      exact AList.mem_keys.mpr (AList.lookup_isSome.mp (by rw [of_decide_eq_true cast]; rfl))

theorem inhabited_of_ongoing {master : MasterState} (valid : master.core.Valid environment)
    {group : Group} {tag : Tag} (ongoing : tag ∈ master.getOngoingCollectiveCommsOpTags group) :
    master.core.Inhabited group := by
  simp only [MasterState.getOngoingCollectiveCommsOpTags, List.mem_dedup, List.mem_flatMap,
    List.mem_filter, MasterState.mem_infos, decide_eq_true_eq] at ongoing
  obtain ⟨info, ⟨⟨uuid, found⟩, here⟩, present⟩ := ongoing
  have sound := valid.states.sound uuid info found
  obtain ⟨state, held⟩ := Option.isSome_iff_exists.mp (AList.lookup_isSome.mpr (AList.mem_keys.mp present))
  exact ⟨uuid, info, found, (info.takesPart_iff group).mpr
    ⟨sound.accepted_of_runs (sound.runs_of_tag held), here⟩⟩

theorem recheckEach_resolves {group : Group} (tags : List Tag) {master : MasterState}
    (valid : master.core.Valid environment) (inhabited : master.core.Inhabited group) :
    ResolvesAt environment
      {vote | ∃ tag ∈ tags, vote = .collectiveInitiate group tag ∨ vote = .collectiveComplete group tag}
      (forEach tags (recheckOperation group)) master := by
  induction tags generalizing master with
  | nil => exact ⟨.refl _, by simp⟩
  | cons tag tags ih =>
    refine ((recheckOperation_resolves valid inhabited tag).bind valid fun _ middle calm =>
      ih (calm.valid valid) (inhabited.calmly valid calm)).mono ?_
    rintro vote ⟨other, present, about⟩
    rcases List.mem_cons.mp present with rfl | later
    · exact Or.inl about
    · exact Or.inr ⟨other, later, about⟩

theorem recheckOperations_resolves (group : Group) :
    Resolves environment
      {vote | ∃ tag, vote = .collectiveInitiate group tag ∨ vote = .collectiveComplete group tag}
      (do
        let master ← get
        forEach (master.getOngoingCollectiveCommsOpTags group) (recheckOperation group)) := by
  intro master valid
  refine .read ?_
  have each : ResolvesAt environment
      {vote | ∃ tag ∈ master.getOngoingCollectiveCommsOpTags group,
        vote = .collectiveInitiate group tag ∨ vote = .collectiveComplete group tag}
      (forEach (master.getOngoingCollectiveCommsOpTags group) (recheckOperation group)) master := by
    cases tags : master.getOngoingCollectiveCommsOpTags group with
    | nil => exact ⟨.refl _, by simp⟩
    | cons tag rest =>
      have ongoing : tag ∈ master.getOngoingCollectiveCommsOpTags group := by simp [tags]
      exact recheckEach_resolves _ valid (inhabited_of_ongoing valid ongoing)
  refine each.imp ?_ fun _ exit => exit
  rintro _ next ⟨calm, settled⟩
  refine ⟨calm, ?_⟩
  rintro vote ⟨tag, about⟩ unanimous
  refine settled vote ⟨tag, ?_, about⟩ unanimous
  exact ongoing_of_unanimous about (calm.answers.unanimous_before valid unanimous)

end Checks

end Pccl.Master
