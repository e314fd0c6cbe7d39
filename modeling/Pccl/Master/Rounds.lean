import Pccl.Master.Establishment

set_option autoImplicit false

namespace Pccl.Master

open Packet Program

namespace Core

variable {environment : Environment} {core : Core}

def others (core : Core) (uuid : Uuid) : List ClientInfo :=
  core.infos.filter fun info => info.clientUuid ≠ uuid

theorem mem_others (registry : core.Registry environment) (uuid : Uuid) (info : ClientInfo) :
    info ∈ core.others uuid ↔ ∃ client, client ≠ uuid ∧ core.info client = some info := by
  simp only [others, List.mem_filter, Core.infos, Table.mem_values_iff, decide_eq_true_eq]
  constructor
  · rintro ⟨⟨client, found⟩, different⟩
    exact ⟨client, registry.named client info found ▸ different, found⟩
  · rintro ⟨client, different, found⟩
    exact ⟨⟨client, found⟩, (registry.named client info found).symm ▸ different⟩

end Core

def votesAlike (acceptNewPeers : Bool) (infos : List ClientInfo) : Bool :=
  infos.all fun info =>
    info.connectionPhase ≠ .accepted || info.connectionState = (roundBallot acceptNewPeers).cast

theorem Core.enabled_startRound_leave {environment : Environment} {core : Core}
    (registry : core.Registry environment) (address : SocketAddress) (uuid : Uuid)
    (acceptNewPeers : Bool) :
    (core.leave address uuid).enabled (.startRound acceptNewPeers) ↔
      votesAlike acceptNewPeers (core.others uuid) = true := by
  simp only [votesAlike, List.all_eq_true, mem_others registry, Bool.or_eq_true, decide_eq_true_eq]
  constructor
  · rintro enabled info ⟨client, other, found⟩
    exact Decidable.not_or_of_imp
      (enabled client info ((info_leave address uuid client info).mpr ⟨other, found⟩))
  · intro alike client info found accepted
    have before := (info_leave address uuid client info).mp found
    exact (alike info ⟨client, before⟩).resolve_left (not_not.mpr accepted)

section Closing

/-- The round would be closed although somebody has already voted for the next one. -/
def Core.jams (core : Core) : Action → Bool
  | .report uuid _ =>
    (core.others uuid).all (fun info => info.connectionState ≠ .connectingToPeers) &&
      (core.others uuid).any fun info => info.connectionState.awaitsRound
  | .leave _ uuid =>
    (core.others uuid).all (fun info => info.connectionState ≠ .connectingToPeers) &&
      (core.others uuid).any (fun info => info.connectionState = .waitingForOtherPeers ||
        info.connectionState = .connectingToPeersFailed) &&
      (core.others uuid).any (fun info => info.connectionState.awaitsRound) &&
      !votesAlike true (core.others uuid) && !votesAlike false (core.others uuid)
  | _ => false

namespace Core

variable {environment : Environment} {core : Core}

theorem Jammed.awaits (valid : core.Valid environment) (jammed : core.Jammed) :
    ∃ uuid, core.Has uuid fun info => info.connectionState.awaitsRound := by
  obtain ⟨⟨⟨waiter, info, found, waits⟩, connecting⟩, stuck⟩ := jammed
  have round : info.connectionState.inRound := by
    rcases waits with state | state <;> rw [state] <;> rfl
  by_contra nobody
  refine stuck ⟨fun uuid other present => ?_, rfl⟩
  have free : ¬ other.connectionState.awaitsRound := fun awaits => nobody ⟨uuid, other, present, awaits⟩
  have failure (failed : other.connectionState = .connectingToPeersFailed) : core.fails = true :=
    fails_iff.mpr (Or.inl ((establishment_any _).mpr ⟨uuid, other, present,
      (ConnectionState.progress_iff _).2.2.mpr failed⟩))
  -- Everybody else waits for the end of the round, has failed, or is not admitted to it.
  have states : other.waitsOutside ∨ other.connectionState.inRound := by
    by_cases accepted : other.connectionPhase = .accepted
    · exact Or.inr ((valid.states.exclusive waiter info found round uuid other present
        accepted).resolve_right free)
    · have registered := ConnectionPhase.registered_of_ne accepted
      rcases ((valid.states.sound uuid other present).registered registered).1 with idle | round
      · exact Or.inl (by simp [ClientInfo.waitsOutside, registered, idle])
      · exact Or.inr round
  rcases states with outside | round
  · simp [ClientInfo.endRound, outside]
  · have idle := connecting uuid other present
    cases state : other.connectionState <;>
      simp_all [ConnectionState.inRound, ClientInfo.endRound, ClientInfo.waitsOutside]

theorem not_awaits_of_startRound (valid : core.Valid environment) {acceptNewPeers : Bool}
    (enabled : core.enabled (.startRound acceptNewPeers)) {uuid : Uuid} {info : ClientInfo}
    (found : (core.apply environment (.startRound acceptNewPeers)).info uuid = some info) :
    ¬ info.connectionState.awaitsRound := by
  obtain ⟨before, present, moves⟩ := moved rfl enabled found
  cases moves with
  | skip skips =>
    have quiet := (valid.states.sound uuid info present).quiet skips.2
    cases state : info.connectionState <;>
      simp_all [ConnectionState.awaitsRound, ConnectionState.isVote]
  | startRound => exact Bool.false_ne_true

theorem jams_of_report (valid : core.Valid environment) {uuid : Uuid} {success : Bool}
    (enabled : core.enabled (.report uuid success))
    (jammed : (core.apply environment (.report uuid success)).Jammed) :
    core.jams (.report uuid success) = true := by
  -- The others have not moved.
  have still (client : Uuid) (info : ClientInfo) (other : client ≠ uuid)
      (found : core.info client = some info) :
      (core.apply environment (.report uuid success)).info client = some info := by
    rw [info_apply _ rfl, found]
    exact congrArg some (if_neg other)
  obtain ⟨awaiter, info, found, awaits⟩ := jammed.awaits (valid.apply enabled)
  obtain ⟨before, present, moves⟩ := moved rfl enabled found
  simp only [jams, Bool.and_eq_true, List.all_eq_true, List.any_eq_true, decide_eq_true_eq]
  refine ⟨fun info present => ?_, ?_⟩
  · obtain ⟨client, other, found⟩ := (mem_others valid.registry uuid info).mp present
    exact jammed.1.2 client info (still client info other found)
  · cases moves with
    | skip other => exact ⟨info, (mem_others valid.registry uuid info).mpr ⟨awaiter, other, present⟩, awaits⟩
    | report => cases success <;> cases awaits

theorem jams_of_leave (valid : core.Valid environment) {address : SocketAddress} {uuid : Uuid}
    (enabled : core.enabled (.leave address uuid)) {middle : Core}
    (establishes : (core.leave address uuid).Establishes environment middle)
    (jammed : (middle.apply environment .drop).Jammed) : core.jams (.leave address uuid) = true := by
  have left : (core.leave address uuid).Valid environment := valid.apply enabled
  have still : middle.enabled .drop := trivial
  have between := establishes.answers.valid left
  obtain ⟨awaiter, info, found, awaits⟩ := jammed.awaits (between.apply still)
  obtain ⟨started, first, second⟩ := establishes
  have mem (info : ClientInfo) : info ∈ core.others uuid ↔
      ∃ client, (core.leave address uuid).info client = some info := by
    simp only [mem_others valid.registry, info_leave]
  have alike (acceptNewPeers : Bool) (open_ : ¬ (core.leave address uuid).enabled
      (.startRound acceptNewPeers)) : votesAlike acceptNewPeers (core.others uuid) = false := by
    rw [enabled_startRound_leave valid.registry] at open_
    exact Bool.eq_false_iff.mpr open_
  -- After the start of a round nobody waits for one.
  rcases second with ⟨starts, rfl⟩ | ⟨closedLate, rfl⟩
  · exact absurd awaits (not_awaits_of_startRound (first.answers.valid left) starts found)
  rcases first with ⟨starts, rfl⟩ | ⟨closedEarly, rfl⟩
  · exact absurd awaits (not_awaits_of_startRound left starts found)
  obtain ⟨⟨⟨waiter, other, present, waits⟩, connecting⟩, _⟩ := jammed
  simp only [jams, Bool.and_eq_true, List.all_eq_true, List.any_eq_true, decide_eq_true_eq,
    Bool.or_eq_true, Bool.not_eq_true']
  refine ⟨⟨⟨⟨fun info present => ?_, other, (mem other).mpr ⟨waiter, present⟩, waits⟩, info,
    (mem info).mpr ⟨awaiter, found⟩, awaits⟩, alike true closedEarly⟩, alike false closedLate⟩
  obtain ⟨client, found⟩ := (mem info).mp present
  exact connecting client info found

end Core

theorem rounds_close (environment : Environment) (events : List Event)
    (lawful : Lawful environment (asks fun core action => !core.jams action) events) :
    (run environment events).Holds (fun _ => True) fun exit =>
      exit.bug ≠ .p2pConnectionsEstablishedPhase := by
  refine (run_holds_core (fun _ => True) trivial (fun _ _ _ _ _ _ _ => trivial)
    (fun event master exit valid _ asked ended same => ?_) events lawful).imp (fun _ _ => trivial)
    fun _ other => other
  cases ended with
  | early fatal | late _ _ _ fatal =>
    have outside := fatal.1
    rw [same] at outside
    cases outside
  | jammed action is enabled _ closing jammed =>
    have fine := of_asks asked is
    rw [Bool.not_eq_true'] at fine
    refine Bool.false_ne_true (fine.symm.trans ?_)
    cases action with
    | report uuid success => exact Core.jams_of_report valid enabled (closing ▸ jammed)
    | leave address uuid =>
      obtain ⟨middle, establishes, at_⟩ := closing
      exact Core.jams_of_leave valid enabled establishes (at_ ▸ jammed)
    | _ => exact closing.elim

open Sample

theorem rounds_close_retry :
    (run environment (pair ++ [establish 0 false, establish 1 false,
      report 0 false, report 1 true, establish 0 false,
      establish 1 false])).Holds (fun _ => True) fun exit =>
        exit.bug ≠ .p2pConnectionsEstablishedPhase :=
  rounds_close _ _ ((lawful_iff _ _ _).mp (by cbv))

theorem round_jams :
    ¬ (run environment (pair ++ [establish 0 false, establish 1 false,
      report 0 false, establish 0 false, report 1 true])).Holds (fun _ => True)
        fun exit => exit.bug ≠ .p2pConnectionsEstablishedPhase := by
  have ends : (run environment (pair ++ [establish 0 false,
      establish 1 false, report 0 false, establish 0 false,
      report 1 true])).fails (fun exit => exit.bug = .p2pConnectionsEstablishedPhase) = true := by
    cbv
  exact Server.not_holds_of_fails ends fun exit same => not_not.mpr (of_decide_eq_true same)

end Closing

section Survivors

def told (before after : MasterState) (uuid : Uuid) : List RoundSignal :=
  (roundSignals after.sent uuid).drop (roundSignals before.sent uuid).length

/-- Clients that have not been accepted yet do not report failures. -/
def Core.sparesNewcomers (core : Core) : Action → Bool
  | .report uuid success => success || (core.info uuid).all fun info => info.connectionPhase = .accepted
  | _ => true

namespace Establishment

variable {rounds next : Establishment}

def Informs (rounds next : Establishment) : Prop :=
  ∀ uuid, ∃ infos : List RoundSignal,
    next.told uuid = rounds.told uuid ++ infos ∧ ∀ signal ∈ infos, signal = .info

theorem Informs.of_told (same : next.told = rounds.told) : rounds.Informs next :=
  fun uuid => ⟨[], by simp [same], by simp⟩

theorem Informs.inform (rounds : Establishment) : rounds.Informs rounds.inform := by
  intro uuid
  refine ⟨_, told_announce _ _ uuid, fun signal present => ?_⟩
  split at present
  · simpa using present
  · cases present

theorem Informs.trans {last : Establishment} (first : rounds.Informs next)
    (second : next.Informs last) : rounds.Informs last := by
  intro uuid
  obtain ⟨early, told, infos⟩ := first uuid
  obtain ⟨late, later, more⟩ := second uuid
  refine ⟨early ++ late, by rw [later, told, List.append_assoc], fun signal present => ?_⟩
  exact (List.mem_append.mp present).elim (infos signal) (more signal)

theorem informs_act (act : Act) : rounds.Informs (rounds.act act) := by
  cases act with
  | remind => exact .inform rounds
  | _ => exact .of_told rfl

theorem informs_start (acceptNewPeers : Bool) : rounds.Informs (rounds.start acceptNewPeers) :=
  Informs.trans (.of_told rfl) (.inform _)

theorem Turn.informs {checks : Bool} (turn : rounds.Turn checks next) :
    rounds.Informs next ∨ ∃ failure, rounds.Ends failure ∧ next = rounds.finish failure := by
  cases turn with
  | rests => exact Or.inl (.of_told rfl)
  | first client => exact Or.inl (Informs.trans (.of_told rfl) (.inform _))
  | starts acceptNewPeers => exact Or.inl ((informs_start acceptNewPeers).trans (.of_told rfl))
  | restarts =>
    exact Or.inl (((informs_start true).trans (informs_start false)).trans (.of_told rfl))
  | ends failure _ ends => exact Or.inr ⟨failure, ends, rfl⟩

theorem Turn.established {act : Act} {checks : Bool} (turn : (rounds.act act).Turn checks next)
    {uuid : Uuid} {success : Bool}
    (news : .established success ∈ (next.told uuid).drop (rounds.told uuid).length) :
    (rounds.act act).Ends (!success) ∧ next = (rounds.act act).finish (!success) := by
  obtain ⟨infos, told, all⟩ := @informs_act rounds act uuid
  rcases turn.informs with informs | ⟨failure, ends, rfl⟩
  · obtain ⟨more, later, rest⟩ := informs uuid
    rw [later, told, List.append_assoc, List.drop_left, List.mem_append] at news
    cases news.elim (all _) (rest _)
  · rw [told_finish, told, List.append_assoc, List.drop_left, List.mem_append] at news
    have same : success = !failure := by
      rcases news with early | late
      · cases all _ early
      · split at late
        · simpa using late
        · cases late
    rw [same, Bool.not_not]
    exact ⟨ends, rfl⟩

/-- Newcomers have not failed, and those that wait outside have not been told anything. -/
structure Welcoming (rounds : Establishment) : Prop where
  newcomers : rounds.All fun standing => standing.accepted = false → standing.progress ≠ some .failed
  untold : ∀ uuid, rounds.clients uuid = some .outside → rounds.told uuid = []

namespace Welcoming

theorem inform (welcoming : rounds.Welcoming) : rounds.inform.Welcoming where
  newcomers := welcoming.newcomers
  untold uuid outside := by
    refine (if_neg ?_).trans (welcoming.untold uuid outside)
    change rounds.clients uuid = _ at outside
    simp [outside, Standing.outside]

theorem start (welcoming : rounds.Welcoming) (acceptNewPeers : Bool) :
    (rounds.start acceptNewPeers).Welcoming := by
  refine @inform { rounds.start acceptNewPeers with told := rounds.told }
    ⟨fun uuid next found => ?_, fun uuid found => ?_⟩
  · obtain ⟨standing, present, ⟨_, rfl⟩ | ⟨_, _, rfl⟩⟩ := start_cases found
    · exact fun _ => nofun
    · exact welcoming.newcomers uuid _ present
  · obtain ⟨standing, present, ⟨_, same⟩ | ⟨_, _, rfl⟩⟩ := start_cases found
    · cases congrArg Standing.progress same
    · exact welcoming.untold uuid present

theorem act (welcoming : rounds.Welcoming) {act : Act} (admits : rounds.Admits act)
    (spares : ∀ uuid, act = .report uuid false →
      ∃ standing, rounds.clients uuid = some standing ∧ standing.accepted = true) :
    (rounds.act act).Welcoming := by
  cases act with
  | rest => exact welcoming
  | remind => exact welcoming.inform
  | join client =>
    refine ⟨fun uuid standing found => ?_, fun uuid found => ?_⟩
    · rcases join_cases found with ⟨_, rfl⟩ | ⟨_, known⟩
      · exact fun _ => nofun
      · exact welcoming.newcomers uuid standing known
    · rcases join_cases found with ⟨rfl, _⟩ | ⟨_, known⟩
      · exact admits.2
      · exact welcoming.untold uuid known
  | leave client =>
    exact ⟨fun uuid standing found => welcoming.newcomers uuid standing (leave_cases found).2,
      fun uuid found => welcoming.untold uuid (leave_cases found).2⟩
  | retry client =>
    obtain ⟨voter, present, accepted, _⟩ := admits
    refine ⟨fun uuid next found => ?_, fun uuid found => ?_⟩
    · obtain ⟨standing, known, ⟨rfl, rfl⟩ | ⟨_, rfl⟩⟩ := setProgress_cases found
      · exact fun _ => nofun
      · exact welcoming.newcomers uuid _ known
    · obtain ⟨standing, known, ⟨rfl, same⟩ | ⟨_, rfl⟩⟩ := setProgress_cases found
      · cases present.symm.trans known
        rw [Standing.outside, Standing.mk.injEq, accepted] at same
        cases same.1
      · exact welcoming.untold uuid known
  | report client success =>
    refine ⟨fun uuid next found => ?_, fun uuid found => ?_⟩
    · obtain ⟨standing, known, ⟨rfl, rfl⟩ | ⟨_, rfl⟩⟩ := setProgress_cases found
      · cases success with
        | true => exact fun _ => by simp
        | false =>
          obtain ⟨reporter, present, accepted⟩ := spares uuid rfl
          cases present.symm.trans known
          simp [accepted]
      · exact welcoming.newcomers uuid _ known
    · obtain ⟨standing, known, ⟨rfl, same⟩ | ⟨_, rfl⟩⟩ := setProgress_cases found
      · cases congrArg Standing.progress same
      · exact welcoming.untold uuid known

theorem finish (welcoming : rounds.Welcoming) (failure : Bool) : (rounds.finish failure).Welcoming where
  newcomers uuid next found := by
    obtain ⟨standing, present, ⟨_, rfl⟩ | ⟨_, rfl⟩⟩ := finish_cases found
    · simp
    · exact welcoming.newcomers uuid _ present
  untold uuid found := by
    have unmeant : ¬ ((rounds.finish failure).clients uuid).any (fun standing => standing ≠ .outside) := by
      simp [found]
    obtain ⟨standing, present, ⟨_, same⟩ | ⟨_, rfl⟩⟩ := finish_cases found
    · cases same
    · exact (if_neg unmeant).trans (welcoming.untold uuid present)

theorem turn (welcoming : rounds.Welcoming) {checks : Bool} (turn : rounds.Turn checks next) :
    next.Welcoming := by
  have ignored (rounds : Establishment) (dropped : Bool) (welcoming : rounds.Welcoming) :
      { rounds with peerDropped := dropped }.Welcoming := ⟨welcoming.newcomers, welcoming.untold⟩
  cases turn with
  | rests => exact welcoming
  | first client present alone =>
    have only {uuid : Uuid} {next : Standing} (found : (rounds.first client).clients uuid = some next) :
        next = ⟨true, some .connecting⟩ := by
      obtain ⟨standing, known, same⟩ := Option.map_eq_some_iff.mp found
      exact same.symm.trans (if_pos (alone uuid standing known))
    refine @inform { rounds.first client with told := rounds.told }
      ⟨fun uuid next found => ?_, fun uuid found => ?_⟩
    · simp [only found]
    · cases only found
  | starts acceptNewPeers => exact ignored _ _ (welcoming.start acceptNewPeers)
  | restarts => exact ignored _ _ ((welcoming.start true).start false)
  | ends failure => exact welcoming.finish failure

end Welcoming

end Establishment

theorem Core.initial_welcoming : Core.initial.establishment.Welcoming where
  newcomers _ _ found := by cases found
  untold _ found := by cases found

theorem Core.Does.spares {environment : Environment} {event : Event} {master : MasterState} {next : Core}
    {act : Establishment.Act} (does : master.core.Does environment event next act)
    (asked : asks Core.sparesNewcomers event master) (client : Uuid) (is : act = .report client false) :
    ∃ standing, master.core.establishment.clients client = some standing ∧
      standing.accepted = true := by
  subst is
  obtain ⟨reports, reporter, found, _⟩ := does
  have accepted := of_asks asked reports
  simp only [Core.sparesNewcomers, found, Bool.false_or, Option.all_some, decide_eq_true_eq] at accepted
  exact ⟨_, congrArg (Option.map ClientInfo.standing) found,
    reporter.connectionPhase.admitted_iff.mpr accepted⟩

theorem vote_of_failed {environment : Environment} {master : MasterState}
    (valid : master.core.Valid environment) {uuid : Uuid} {info : ClientInfo}
    (found : master.getClientInfo uuid = some info) (accepted : info.connectionPhase = .accepted)
    (failed : info.connectionState = .connectingToPeersFailed) (acceptNewPeers : Bool) :
    ∃ next, voteEstablishP2PConnections uuid acceptNewPeers master = .ok (true, next) := by
  let ballot : Ballot := if acceptNewPeers then .acceptNewPeers else .establishP2PConnections
  have admitted : info.connectionState ∈ ballot.admits := by
    cases acceptNewPeers <;> simp [ballot, Ballot.admits, failed]
  obtain ⟨counted, next, returns, rfl, _⟩ := (@vote_counts master ballot uuid info found
    (valid.registry.named uuid info found) accepted admitted (valid.unvoted found admitted)
    fun _ => False).returns
  exact ⟨next, returns⟩

theorem survivors_may_retry (environment : Environment) (events : List Event) (event : Event)
    (before after : MasterState)
    (lawful : Lawful environment (asks Core.sparesNewcomers) (events ++ [event]))
    (reached : run environment events = .ok before)
    (served : run environment (events ++ [event]) = .ok after)
    (fails : ∃ uuid, RoundSignal.established false ∈ told before after uuid) (uuid : Uuid)
    (participant : RoundSignal.info ∈ roundSignals before.sent uuid) (info : ClientInfo)
    (registered : after.getClientInfo uuid = some info) :
    (info.connectionPhase = .accepted ∧ info.connectionState = .connectingToPeersFailed) ∧
      ∀ acceptNewPeers, ∃ next,
        voteEstablishP2PConnections uuid acceptNewPeers after = .ok (true, next) := by
  obtain ⟨valid, welcoming, asked, serves⟩ := run_served (fun core => core.establishment.Welcoming)
    Core.initial_welcoming (fun event master next valid welcoming asked serves => by
      obtain ⟨act, does, turn⟩ := serves.turn valid
      exact (welcoming.act (does.admits valid) (does.spares asked)).turn turn) lawful reached served
  obtain ⟨act, does, turn⟩ := serves.turn valid
  have acted := welcoming.act (does.admits valid) (does.spares asked)
  obtain ⟨client, failed⟩ := fails
  obtain ⟨ends, reached⟩ := turn.established failed
  have here : after.core.establishment.clients uuid = some info.standing :=
    congrArg (Option.map ClientInfo.standing) registered
  rw [reached] at here
  -- Whoever waits outside has never been told whom to connect to.
  have standing : info.standing = ⟨true, some .failed⟩ := by
    obtain ⟨standing, known, ⟨_, same⟩ | ⟨_, same⟩⟩ := Establishment.finish_cases here
    · exact same
    · rw [same]
      rcases ends.ready uuid standing known with rfl | waiting | failed
      · obtain ⟨infos, news, _⟩ := @Establishment.informs_act before.core.establishment act uuid
        change _ = roundSignals before.sent uuid ++ infos at news
        rw [acted.untold uuid known] at news
        exact absurd (List.append_eq_nil_iff.mp news.symm).1 (List.ne_nil_of_mem participant)
      · contradiction
      · have accepted : standing.accepted = true := by
          by_contra newcomer
          exact acted.newcomers uuid standing known (by simpa using newcomer) failed
        rw [← accepted, ← failed]
  have accepted : info.connectionPhase = .accepted :=
    info.connectionPhase.admitted_iff.mp (congrArg Standing.accepted standing)
  have failed : info.connectionState = .connectingToPeersFailed :=
    (ConnectionState.progress_iff _).2.2.mp (congrArg Standing.progress standing)
  exact ⟨⟨accepted, failed⟩, vote_of_failed (serves.valid valid) registered accepted failed⟩

open Sample

theorem survivors_may_retry_pair :
    ∃ before after,
      run environment (pair ++ [establish 0 false, establish 1 false,
        report 0 false]) = .ok before ∧
      run environment (pair ++ [establish 0 false, establish 1 false,
        report 0 false] ++ [report 1 true]) = .ok after ∧
      ∃ info, after.getClientInfo 1 = some info ∧
        (info.connectionPhase = .accepted ∧ info.connectionState = .connectingToPeersFailed) ∧
        ∀ acceptNewPeers, ∃ next,
          voteEstablishP2PConnections 1 acceptNewPeers after = .ok (true, next) := by
  have fails : Server.both (fun before after =>
      decide (RoundSignal.established false ∈ told before after 1) &&
        decide (RoundSignal.info ∈ roundSignals before.sent 1) && (after.getClientInfo 1).isSome)
      (run environment (pair ++ [establish 0 false, establish 1 false,
        report 0 false]))
      (run environment (pair ++ [establish 0 false, establish 1 false,
        report 0 false] ++ [report 1 true])) = true := by
    cbv
  obtain ⟨before, after, reached, served, seen⟩ := Server.exists_of_both fails
  simp only [Bool.and_eq_true, decide_eq_true_eq, Option.isSome_iff_exists] at seen
  obtain ⟨⟨failed, informed⟩, info, registered⟩ := seen
  refine ⟨before, after, reached, served, info, registered, ?_⟩
  exact survivors_may_retry _ _ _ before after ((lawful_iff _ _ _).mp (by cbv)) reached served
    ⟨1, failed⟩ 1 informed info registered

theorem survivor_may_not_retry :
    ∃ before after,
      run environment [join 0 0, report 0 true, join 1 0,
        establish 0 true, report 1 false] = .ok before ∧
      run environment ([join 0 0, report 0 true, join 1 0,
        establish 0 true, report 1 false] ++ [report 0 true]) = .ok after ∧
      RoundSignal.established false ∈ told before after 1 ∧
      RoundSignal.info ∈ roundSignals before.sent 1 ∧
      ∃ info, after.getClientInfo 1 = some info ∧ info.connectionPhase = .registered ∧
        ∀ acceptNewPeers, voteEstablishP2PConnections 1 acceptNewPeers after = .ok (false, after) := by
  have fails : Server.both (fun before after =>
      decide (RoundSignal.established false ∈ told before after 1) &&
        decide (RoundSignal.info ∈ roundSignals before.sent 1) &&
        (after.getClientInfo 1).any fun info => info.connectionPhase = .registered)
      (run environment [join 0 0, report 0 true, join 1 0,
        establish 0 true, report 1 false])
      (run environment ([join 0 0, report 0 true, join 1 0,
        establish 0 true, report 1 false] ++ [report 0 true])) = true := by
    cbv
  obtain ⟨before, after, reached, served, seen⟩ := Server.exists_of_both fails
  simp only [Bool.and_eq_true, decide_eq_true_eq, Option.any_eq_true] at seen
  obtain ⟨⟨failed, informed⟩, info, found, registered⟩ := seen
  refine ⟨before, after, reached, served, failed, informed, info, found, registered, ?_⟩
  intro acceptNewPeers
  have refused : (voteEstablishP2PConnections 1 acceptNewPeers).Meets after
      (fun counted next => counted = false ∧ next = after) fun _ => False := by
    refine .read ?_
    simp [found, registered]
  obtain ⟨_, _, returns, rfl, rfl⟩ := refused.returns
  exact returns

end Survivors

end Pccl.Master
