import Pccl.Master.Rounds

set_option autoImplicit false

namespace Pccl.Master

open Packet Program

namespace Establishment

def Inhabited (rounds : Establishment) : Prop :=
  rounds.Any (fun _ => True) → rounds.Any fun standing => standing.accepted = true

/-- While a round is active, all accepted clients take part in it. -/
structure Orderly (active : Prop) (rounds : Establishment) : Prop where
  newcomers : rounds.All fun standing => standing.accepted = false → standing.progress ≠ some .failed
  connects : rounds.All fun standing =>
    standing.progress = some .connecting ∨ standing.progress = some .waiting → active
  together : active → rounds.All fun standing => standing.accepted = true → standing.progress ≠ none

structure Rest (rounds : Establishment) : Prop where
  inhabited : rounds.Inhabited
  orderly : rounds.Orderly rounds.Active

/-- What is asked of the clients: no vote for the next round during a round, no failures of newcomers,
and newcomers are not left alone. -/
def Keeps (rounds : Establishment) : Act → Prop
  | .retry uuid => rounds.clients uuid = some ⟨true, some .failed⟩ → ¬ rounds.Active
  | .report uuid success => success = true ∨ rounds.clients uuid = some ⟨true, some .connecting⟩
  | .leave uuid => (rounds.act (.leave uuid)).Inhabited
  | _ => True

variable {rounds next : Establishment}

theorem Orderly.congr {active : Prop} (orderly : rounds.Orderly active)
    (same : next.clients = rounds.clients) : next.Orderly active where
  newcomers uuid standing found := orderly.newcomers uuid standing (same ▸ found)
  connects uuid standing found := orderly.connects uuid standing (same ▸ found)
  together holds uuid standing found := orderly.together holds uuid standing (same ▸ found)

theorem Orderly.not_active_of_voter {active : Prop} (orderly : rounds.Orderly active) {uuid : Uuid}
    {standing : Standing} (found : rounds.clients uuid = some standing)
    (accepted : standing.accepted = true) (voted : standing.progress = none) : ¬ active :=
  fun holds => orderly.together holds uuid standing found accepted voted

theorem Orderly.idle_of_voted {active : Prop} (orderly : rounds.Orderly active)
    (voted : rounds.All fun standing => standing.accepted = true → standing.progress = none)
    (someone : rounds.Any fun standing => standing.accepted = true) :
    rounds.All fun standing => standing.progress = none := by
  obtain ⟨voter, other, present, accepted⟩ := someone
  have idle := orderly.not_active_of_voter present accepted (voted voter other present accepted)
  intro uuid standing found
  cases progress : standing.progress with
  | none => rfl
  | some step =>
    cases step with
    | connecting => exact absurd (orderly.connects uuid standing found (Or.inl progress)) idle
    | waiting => exact absurd (orderly.connects uuid standing found (Or.inr progress)) idle
    | failed =>
      cases joined : standing.accepted with
      | true => cases (voted uuid standing found joined).symm.trans progress
      | false => exact absurd progress (orderly.newcomers uuid standing found joined)

namespace Rest

theorem act (rest : rounds.Rest) {act : Act} (admits : rounds.Admits act) (keeps : rounds.Keeps act) :
    (rounds.act act).Orderly rounds.Active := by
  have orderly := rest.orderly
  cases act with
  | rest | remind => exact orderly.congr rfl
  | join client =>
    refine ⟨fun uuid standing found => ?_, fun uuid standing found => ?_, fun holds uuid standing found => ?_⟩
    · rcases join_cases found with ⟨_, rfl⟩ | ⟨_, known⟩
      · exact fun _ => nofun
      · exact orderly.newcomers uuid standing known
    · rcases join_cases found with ⟨_, rfl⟩ | ⟨_, known⟩
      · rintro (state | state) <;> cases state
      · exact orderly.connects uuid standing known
    · rcases join_cases found with ⟨_, rfl⟩ | ⟨_, known⟩
      · exact nofun
      · exact orderly.together holds uuid standing known
  | leave client =>
    exact ⟨fun uuid standing found => orderly.newcomers uuid standing (leave_cases found).2,
      fun uuid standing found => orderly.connects uuid standing (leave_cases found).2,
      fun holds uuid standing found => orderly.together holds uuid standing (leave_cases found).2⟩
  | retry client =>
    obtain ⟨voter, present, accepted, state⟩ := admits
    have idle : ¬ rounds.Active := by
      rcases state with voted | failed
      · exact orderly.not_active_of_voter present accepted voted
      · refine keeps (present.trans ?_)
        rw [← accepted, ← failed]
    refine ⟨fun uuid standing found => ?_, fun uuid standing found => ?_, fun holds => absurd holds idle⟩
    · obtain ⟨before, known, ⟨_, rfl⟩ | ⟨_, rfl⟩⟩ := setProgress_cases found
      · exact fun _ => nofun
      · exact orderly.newcomers uuid _ known
    · obtain ⟨before, known, ⟨_, rfl⟩ | ⟨_, rfl⟩⟩ := setProgress_cases found
      · rintro (state | state) <;> cases state
      · exact orderly.connects uuid _ known
  | report client success =>
    obtain ⟨accepted, present⟩ := admits
    refine ⟨fun uuid standing found => ?_, fun uuid standing found => ?_, fun holds uuid standing found => ?_⟩
    · obtain ⟨before, known, ⟨rfl, rfl⟩ | ⟨_, rfl⟩⟩ := setProgress_cases found
      · rcases keeps with rfl | joined
        · simp
        · cases joined.symm.trans known
          exact nofun
      · exact orderly.newcomers uuid _ known
    · exact fun _ => ⟨client, _, present, rfl⟩
    · obtain ⟨before, known, ⟨_, rfl⟩ | ⟨_, rfl⟩⟩ := setProgress_cases found
      · exact fun _ => nofun
      · exact orderly.together holds uuid _ known

end Rest

theorem first_cases {client uuid : Uuid} {standing : Standing}
    (alone : ∀ uuid standing, rounds.clients uuid = some standing → uuid = client)
    (found : (rounds.first client).clients uuid = some standing) :
    uuid = client ∧ standing = ⟨true, some .connecting⟩ := by
  obtain ⟨before, known, same⟩ := Option.map_eq_some_iff.mp found
  exact ⟨alone uuid before known, same.symm.trans (if_pos (alone uuid before known))⟩

theorem Rest.first {client : Uuid} {standing : Standing}
    (present : rounds.clients client = some standing)
    (alone : ∀ uuid standing, rounds.clients uuid = some standing → uuid = client) :
    (rounds.first client).Rest := by
  have there : (rounds.first client).clients client = some ⟨true, some .connecting⟩ := by
    change (rounds.clients client).map _ = _
    simp [present]
  refine ⟨fun _ => ⟨client, _, there, rfl⟩, ⟨fun uuid next found => ?_, fun uuid next found => ?_,
    fun _ uuid next found => ?_⟩⟩
  · obtain ⟨_, rfl⟩ := first_cases alone found
    exact nofun
  · exact fun _ => ⟨client, _, there, rfl⟩
  · obtain ⟨_, rfl⟩ := first_cases alone found
    exact fun _ => nofun

theorem clients_of_restarts (inhabited : rounds.Inhabited)
    (nobody : rounds.All fun standing => standing.accepted = false) (uuid : Uuid) :
    rounds.clients uuid = none := by
  by_contra present
  obtain ⟨standing, found⟩ := Option.ne_none_iff_exists'.mp present
  obtain ⟨client, other, known, accepted⟩ := inhabited ⟨uuid, standing, found, trivial⟩
  exact Bool.false_ne_true ((nobody client other known).symm.trans accepted)

theorem Orderly.rest {active : Prop} (orderly : rounds.Orderly active) (inhabited : rounds.Inhabited)
    {checks : Bool} (kept : checks = false → active → rounds.Active)
    (turn : rounds.Turn checks next) : next.Rest := by
  cases turn with
  | rests open_ =>
    -- If nobody is connecting any more, nobody waits either, or the round would be over.
    have waits (uuid : Uuid) (standing : Standing) (found : rounds.clients uuid = some standing)
        (waiting : standing.progress = some .waiting) : rounds.Active := by
      cases checks with
      | false => exact kept rfl (orderly.connects uuid standing found (Or.inr waiting))
      | true =>
        by_contra idle
        exact open_ rfl ⟨⟨uuid, standing, found, Or.inl waiting⟩,
          fun client other known connecting => idle ⟨client, other, known, connecting⟩⟩
    refine ⟨inhabited, orderly.newcomers, fun uuid standing found state => ?_, fun busy => ?_⟩
    · exact state.elim (fun connecting => ⟨uuid, standing, found, connecting⟩) (waits uuid standing found)
    · obtain ⟨uuid, standing, found, connecting⟩ := busy
      exact orderly.together (orderly.connects uuid standing found (Or.inl connecting))
  | first client present alone => exact Rest.first present alone
  | starts acceptNewPeers voted someone =>
    obtain ⟨voter, standing, present, accepted⟩ := id someone
    have idle := orderly.not_active_of_voter present accepted (voted voter standing present accepted)
    refine ⟨fun _ => ?_, fun uuid standing found => ?_, fun _ _ _ _ => active_start someone,
      fun _ uuid standing found => ?_⟩
    · refine ⟨voter, { standing with progress := some .connecting }, ?_, accepted⟩
      change (rounds.clients voter).map _ = _
      simp [present, accepted]
    · obtain ⟨before, known, ⟨_, rfl⟩ | ⟨_, _, rfl⟩⟩ := start_cases found
      · exact fun _ => nofun
      · exact orderly.newcomers uuid _ known
    · obtain ⟨before, known, ⟨_, rfl⟩ | ⟨_, newcomer, rfl⟩⟩ := start_cases found
      · exact fun _ => nofun
      · simp [newcomer]
  | restarts nobody =>
    have none (uuid : Uuid) : ((rounds.start true).start false).clients uuid = none := by
      change ((rounds.clients uuid).map _).map _ = _
      rw [clients_of_restarts inhabited nobody]
      rfl
    have absurd {conclusion : Prop} {uuid : Uuid} {standing : Standing}
        (found : ((rounds.start true).start false).clients uuid = some standing) : conclusion := by
      rw [none] at found
      cases found
    exact ⟨fun ⟨_, _, found, _⟩ => absurd found, ⟨fun _ _ found => absurd found,
      fun _ _ found => absurd found, fun _ _ _ found => absurd found⟩⟩
  | ends failure _ ends =>
    have after {uuid : Uuid} {standing : Standing}
        (found : (rounds.finish failure).clients uuid = some standing) :
        standing = .outside ∨ (standing.accepted = true ∧
          (standing.progress = none ∨ standing.progress = some .failed)) := by
      obtain ⟨before, known, ⟨_, rfl⟩ | ⟨other, rfl⟩⟩ := finish_cases found
      · cases failure <;> simp
      · rcases ends.ready uuid _ known with outside | waiting | failed
        · exact Or.inl outside
        · exact absurd waiting other
        · refine Or.inr ⟨?_, Or.inr failed⟩
          by_contra newcomer
          exact orderly.newcomers uuid _ known (by simpa using newcomer) failed
    have idle : ¬ (rounds.finish failure).Active := by
      rintro ⟨uuid, standing, found, connecting⟩
      rcases after found with rfl | ⟨_, state | state⟩
      · cases connecting
      · cases state.symm.trans connecting
      · cases state.symm.trans connecting
    refine ⟨fun _ => ?_, fun uuid standing found => ?_, fun uuid standing found state => ?_,
      fun busy => absurd busy idle⟩
    · obtain ⟨⟨uuid, standing, found, state⟩, _⟩ := ends.closable
      obtain ⟨next, moved⟩ : ∃ next, (rounds.finish failure).clients uuid = some next :=
        ⟨_, congrArg (Option.map _) found⟩
      refine ⟨uuid, next, moved, ?_⟩
      obtain ⟨before, known, ⟨_, rfl⟩ | ⟨other, rfl⟩⟩ := finish_cases moved
      · rfl
      · cases found.symm.trans known
        rcases after moved with rfl | ⟨accepted, _⟩
        · rcases state with state | state <;> cases state
        · exact accepted
    · rcases after found with rfl | ⟨accepted, _⟩
      · exact fun _ => nofun
      · simp [accepted]
    · rcases after found with rfl | ⟨_, progress | progress⟩
      · rcases state with state | state <;> cases state
      · rw [progress] at state
        rcases state with state | state <;> cases state
      · rw [progress] at state
        rcases state with state | state <;> cases state

theorem active_act {act : Act} (admits : rounds.Admits act) (quiet : act.checks = false)
    (busy : rounds.Active) : (rounds.act act).Active := by
  obtain ⟨uuid, standing, found, connecting⟩ := busy
  have other {client : Uuid} (elsewhere : rounds.clients client ≠ some standing) : uuid ≠ client := by
    rintro rfl
    exact elsewhere found
  cases act with
  | rest | remind => exact ⟨uuid, standing, found, connecting⟩
  | join client =>
    refine ⟨uuid, standing, (Function.update_of_ne (other ?_) _ _).trans found, connecting⟩
    rw [admits.1]
    exact nofun
  | retry client =>
    obtain ⟨voter, present, _, state⟩ := admits
    refine ⟨uuid, standing, ?_, connecting⟩
    refine (congrArg (Option.map _) found).trans (congrArg some (if_neg (other fun same => ?_)))
    cases present.symm.trans same
    rcases state with state | state <;> cases state.symm.trans connecting
  | report | leave => cases quiet

theorem isConnecting_of_progress {uuid : Uuid} {standing : Standing}
    (found : rounds.clients uuid = some standing) :
    rounds.isConnecting uuid = true ↔ standing.progress = some .connecting := by
  simp [isConnecting, found]

theorem connecting_act {act : Act} {uuid : Uuid} {standing : Standing}
    (found : (rounds.act act).clients uuid = some standing)
    (connecting : standing.progress = some .connecting) : rounds.clients uuid = some standing := by
  cases act with
  | rest | remind => exact found
  | join client =>
    rcases join_cases found with ⟨_, rfl⟩ | ⟨_, known⟩
    · cases connecting
    · exact known
  | leave client => exact (leave_cases found).2
  | retry client =>
    obtain ⟨before, known, ⟨_, rfl⟩ | ⟨_, rfl⟩⟩ := setProgress_cases found
    · cases connecting
    · exact known
  | report client success =>
    obtain ⟨before, known, ⟨_, rfl⟩ | ⟨_, rfl⟩⟩ := setProgress_cases found
    · cases success <;> cases connecting
    · exact known

theorem Turn.gone {checks : Bool} (turn : rounds.Turn checks next) {uuid : Uuid}
    (gone : rounds.clients uuid = none) : next.clients uuid = none := by
  cases turn with
  | rests => exact gone
  | restarts => exact congrArg (Option.map _) (congrArg (Option.map _) gone)
  | _ => exact congrArg (Option.map _) gone

namespace Rest

variable {act : Act}

theorem inhabited_act (rest : rounds.Rest) (admits : rounds.Admits act) (keeps : rounds.Keeps act)
    (joins : ∀ uuid, act = .join uuid → rounds.Any fun _ => True) : (rounds.act act).Inhabited := by
  -- Nobody stops being accepted.
  have still (client : Uuid) (progress : Option Progress) :
      (rounds.setProgress client progress).Inhabited := by
    rintro ⟨uuid, next, found, _⟩
    obtain ⟨before, known, _⟩ := setProgress_cases found
    obtain ⟨accepted, standing, present, holds⟩ := rest.inhabited ⟨uuid, before, known, trivial⟩
    refine ⟨accepted, _, congrArg (Option.map _) present, ?_⟩
    dsimp only
    split <;> exact holds
  cases act with
  | rest | remind => exact rest.inhabited
  | join client =>
    intro _
    obtain ⟨uuid, standing, found, accepted⟩ := rest.inhabited (joins client rfl)
    refine ⟨uuid, standing, (Function.update_of_ne ?_ _ _).trans found, accepted⟩
    rintro rfl
    cases admits.1.symm.trans found
  | retry client => exact still client none
  | report client success => exact still client _
  | leave client => exact keeps

end Rest

structure Steps (act : Act) (rounds next : Establishment) : Prop where
  admits : rounds.Admits act
  keeps : rounds.Keeps act
  joins : ∀ uuid, act = .join uuid → rounds.Any (fun _ => True) ∨ next = (rounds.act act).first uuid
  turn : (rounds.act act).Turn act.checks next

theorem Rest.cases_of_steps {act : Act} (rest : rounds.Rest) (steps : rounds.Steps act next) :
    (rounds.act act).Inhabited ∨
      ∃ client, act = .join client ∧ next = (rounds.act act).first client ∧
        ¬ rounds.Any (fun _ => True) ∧ (rounds.act act).clients client = some .outside ∧
        ∀ uuid standing, (rounds.act act).clients uuid = some standing → uuid = client := by
  by_cases somebody : ∀ uuid, act = .join uuid → rounds.Any fun _ => True
  · exact Or.inl (rest.inhabited_act steps.admits steps.keeps somebody)
  · simp only [not_forall] at somebody
    obtain ⟨client, rfl, nobody⟩ := somebody
    refine Or.inr ⟨client, rfl, (steps.joins client rfl).resolve_left nobody, nobody,
      Function.update_self _ _ _, fun uuid standing found => ?_⟩
    rcases join_cases found with ⟨same, _⟩ | ⟨_, known⟩
    · exact same
    · exact absurd ⟨uuid, standing, known, trivial⟩ nobody

namespace Steps

variable {act : Act}

theorem rest (steps : rounds.Steps act next) (rest : rounds.Rest) : next.Rest := by
  rcases rest.cases_of_steps steps with inhabited | ⟨client, _, rfl, _, present, alone⟩
  · exact (rest.act steps.admits steps.keeps).rest inhabited (active_act steps.admits) steps.turn
  · exact Rest.first present alone

theorem reported {client : Uuid} {success : Bool} (steps : rounds.Steps (.report client success) next)
    (rest : rounds.Rest) {standing : Standing} (found : next.clients client = some standing) :
    standing.progress ≠ some .connecting := by
  have orderly := rest.act steps.admits steps.keeps
  have inhabited := rest.inhabited_act steps.admits steps.keeps nofun
  obtain ⟨accepted, present⟩ := steps.admits
  have reports {standing : Standing}
      (found : (rounds.act (.report client success)).clients client = some standing) :
      standing.progress = some .waiting ∨ standing.progress = some .failed := by
    obtain ⟨before, _, ⟨_, rfl⟩ | ⟨other, _⟩⟩ := setProgress_cases found
    · cases success <;> simp
    · exact absurd rfl other
  cases steps.turn with
  | rests => rcases reports found with state | state <;> simp [state]
  | first first outside alone =>
    obtain ⟨rfl, _⟩ := first_cases alone found
    rcases reports outside with state | state <;> cases state
  | starts acceptNewPeers voted someone =>
    obtain ⟨voter, other, known, joined⟩ := someone
    exact absurd ⟨client, _, present, rfl⟩
      (orderly.not_active_of_voter known joined (voted voter other known joined))
  | restarts nobody =>
    have gone := clients_of_restarts inhabited nobody client
    have there : (rounds.act (.report client success)).clients client ≠ none := by
      change (rounds.clients client).map _ ≠ none
      simp [present]
    exact absurd gone there
  | ends failure =>
    obtain ⟨before, known, ⟨_, rfl⟩ | ⟨_, rfl⟩⟩ := finish_cases found
    · cases failure <;> simp
    · rcases reports known with state | state <;> simp [state]

theorem isConnecting_act (steps : rounds.Steps act next) (rest : rounds.Rest) {uuid : Uuid}
    (later : next.isConnecting uuid = true) :
    (rounds.act act).isConnecting uuid = rounds.isConnecting uuid := by
  have still (same : (rounds.act act).clients uuid = rounds.clients uuid) :
      (rounds.act act).isConnecting uuid = rounds.isConnecting uuid := by
    rw [isConnecting, same, isConnecting]
  obtain ⟨standing, found, connecting⟩ := (Option.any_eq_true _ _).mp later
  have admits := steps.admits
  cases act with
  | rest | remind => exact still rfl
  | join client =>
    by_cases same : uuid = client
    · subst same
      simp [isConnecting, Establishment.act, admits.1, Standing.outside]
    · exact still (Function.update_of_ne same _ _)
  | leave client =>
    refine still (Function.update_of_ne ?_ _ _)
    rintro rfl
    cases (steps.turn.gone (Function.update_self _ _ _)).symm.trans found
  | retry client =>
    by_cases same : uuid = client
    · subst same
      obtain ⟨voter, present, _, progress⟩ := admits
      have idle : rounds.isConnecting uuid = false := by
        rcases progress with progress | progress <;> simp [isConnecting, present, progress]
      rw [idle]
      simp [isConnecting, Establishment.act, setProgress, change, present]
    · refine still (Option.ext fun standing => ?_)
      simp [Establishment.act, setProgress, change, same]
  | report client success =>
    have other : uuid ≠ client := by
      rintro rfl
      exact steps.reported rest found (of_decide_eq_true connecting)
    refine still (Option.ext fun standing => ?_)
    simp [Establishment.act, setProgress, change, other]

end Steps

end Establishment

def Core.keepsOrder (core : Core) : Action → Bool
  | .vote _ uuid _ =>
    !((core.info uuid).any fun info => info.connectionState = .connectingToPeersFailed) ||
      core.infos.all fun info => info.connectionState ≠ .connectingToPeers
  | .report uuid success => success || (core.info uuid).all fun info => info.connectionPhase = .accepted
  | .leave _ uuid =>
    (core.others uuid).isEmpty || (core.others uuid).any fun info => info.connectionPhase = .accepted
  | _ => true

namespace Core

variable {environment : Environment} {core next : Core} {event : Event} {act : Establishment.Act}

theorem active_iff : core.establishment.Active ↔
    ∃ uuid, core.Has uuid fun info => info.connectionState = .connectingToPeers := by
  rw [Establishment.Active, establishment_any]
  simp only [ClientInfo.standing, ConnectionState.progress_iff]

theorem Does.keeps (does : core.Does environment event next act) (valid : core.Valid environment)
    (order : ∀ action, event.action? core = some action → core.keepsOrder action = true) :
    core.establishment.Keeps act := by
  cases act with
  | rest | remind | join => trivial
  | retry uuid =>
    obtain ⟨ballot, strategy, asked, _⟩ := does
    intro failed busy
    obtain ⟨info, found, standing⟩ := Option.map_eq_some_iff.mp failed
    obtain ⟨client, other, present, connecting⟩ := active_iff.mp busy
    have state : info.connectionState = .connectingToPeersFailed :=
      (ConnectionState.progress_iff _).2.2.mp (congrArg Standing.progress standing)
    have idle : core.infos.all (fun info => info.connectionState ≠ .connectingToPeers) = true := by
      simpa [keepsOrder, found, state] using order _ asked
    have quiet := List.all_eq_true.mp idle other (Table.mem_values_iff.mpr ⟨client, present⟩)
    simp [connecting] at quiet
  | report uuid success =>
    obtain ⟨asked, info, found, connecting⟩ := does
    refine (Bool.or_eq_true _ _ |>.mp (order _ asked)).imp_right fun accepted => ?_
    rw [found, Option.all_some, decide_eq_true_eq] at accepted
    refine (congrArg (Option.map ClientInfo.standing) found).trans ?_
    simp [ClientInfo.standing, accepted, connecting, ConnectionPhase.admitted,
      ConnectionState.progress?]
  | leave uuid =>
    obtain ⟨address, asked, _⟩ := does
    have mem := mem_others valid.registry uuid
    rintro ⟨client, standing, found, _⟩
    obtain ⟨different, known⟩ := Establishment.leave_cases found
    obtain ⟨info, present, rfl⟩ := Option.map_eq_some_iff.mp known
    have stays : ((core.others uuid).any fun info => info.connectionPhase = .accepted) = true := by
      refine (Bool.or_eq_true _ _ |>.mp (order _ asked)).resolve_left fun empty => ?_
      rw [List.isEmpty_iff] at empty
      exact List.ne_nil_of_mem ((mem info).mpr ⟨client, different, present⟩) empty
    obtain ⟨other, among, accepted⟩ := List.any_eq_true.mp stays
    obtain ⟨holder, elsewhere, known⟩ := (mem other).mp among
    refine ⟨holder, other.standing, (Function.update_of_ne elsewhere _ _).trans ?_, ?_⟩
    · exact congrArg (Option.map ClientInfo.standing) known
    · exact other.connectionPhase.admitted_iff.mpr (of_decide_eq_true accepted)

theorem Served.steps (served : Core.Served environment event core next) (valid : core.Valid environment)
    (order : ∀ action, event.action? core = some action → core.keepsOrder action = true) :
    ∃ act, core.Does environment event next act ∧
      core.establishment.Steps act next.establishment := by
  obtain ⟨act, does, turn⟩ := served.turn valid
  refine ⟨act, does, does.admits valid, does.keeps valid order, fun uuid is => ?_, turn⟩
  subst is
  exact does.2

theorem initial_rest : Core.initial.establishment.Rest where
  inhabited := by rintro ⟨_, _, found, _⟩; cases found
  orderly := ⟨fun _ _ found => (by cases found), fun _ _ found => (by cases found),
    fun _ _ _ found => (by cases found)⟩

end Core

section Observations

def MasterState.isConnecting (master : MasterState) (uuid : Uuid) : Bool :=
  (master.getClientInfo uuid).any fun info => info.connectionState = .connectingToPeers

def Event.report? (master : MasterState) : Event → Option (Uuid × Bool)
  | .read address (.p2pConnectionsEstablished success _) =>
    (master.findClientUUID address).map fun uuid => (uuid, success)
  | _ => none

def recorded (event : Event) (before after : MasterState) : Option (Uuid × Bool) :=
  (event.report? before).filter fun report => before.isConnecting report.1 && !after.isConnecting report.1

theorem isConnecting_eq (master : MasterState) (uuid : Uuid) :
    master.isConnecting uuid = master.core.establishment.isConnecting uuid := by
  change (master.core.info uuid).any _ = ((master.core.info uuid).map ClientInfo.standing).any _
  rw [Option.any_map, Bool.eq_iff_iff]
  simp only [Option.any_eq_true, decide_eq_true_eq, ClientInfo.standing, ConnectionState.progress_iff]

theorem recorded_iff {environment : Environment} {event : Event} {before after : MasterState}
    {act : Establishment.Act} (does : before.core.Does environment event after.core act)
    (steps : before.core.establishment.Steps act after.core.establishment)
    (rest : before.core.establishment.Rest) (uuid : Uuid) (success : Bool) :
    recorded event before after = some (uuid, success) ↔ act = .report uuid success := by
  simp only [recorded, Option.filter_eq_some_iff, Bool.and_eq_true, Bool.not_eq_true', isConnecting_eq]
  constructor
  · rintro ⟨reports, connecting, stopped⟩
    have asked : event.action? before.core = some (.report uuid success) := by
      cases event with
      | read address packet =>
        cases packet with
        | p2pConnectionsEstablished success failedPeers =>
          obtain ⟨client, known, same⟩ := Option.map_eq_some_iff.mp reports
          cases same
          exact Option.bind_eq_some_iff.mpr ⟨uuid, known, rfl⟩
        | _ => cases reports
      | _ => cases reports
    cases act with
    | rest =>
      rw [does _ asked rfl, connecting] at stopped
      cases stopped
    | remind => cases does.1.symm.trans asked
    | join =>
      obtain ⟨⟨_, _, _, _, other⟩, _⟩ := does
      cases other.symm.trans asked
    | retry =>
      obtain ⟨_, _, other, _⟩ := does
      cases other.symm.trans asked
    | report =>
      cases does.1.symm.trans asked
      rfl
    | leave =>
      obtain ⟨_, other, _⟩ := does
      cases other.symm.trans asked
  · rintro rfl
    refine ⟨?_, ?_, ?_⟩
    · rcases event.action_cases does.1 with (same | ⟨_, _, _, same⟩) | ⟨address, packet, client, rfl,
        known, requests⟩ | ⟨_, _, _, _, same⟩
      · cases same
      · cases same
      · cases packet with
        | p2pConnectionsEstablished =>
          cases requests
          exact Option.map_eq_some_iff.mpr ⟨uuid, known, rfl⟩
        | _ => cases requests
      · cases same
    · obtain ⟨accepted, present⟩ := steps.admits
      exact (Establishment.isConnecting_of_progress present).mpr rfl
    · rw [Bool.eq_false_iff]
      intro connecting
      obtain ⟨standing, found, connects⟩ := (Option.any_eq_true _ _).mp connecting
      exact steps.reported rest found (of_decide_eq_true connects)

end Observations

end Pccl.Master
