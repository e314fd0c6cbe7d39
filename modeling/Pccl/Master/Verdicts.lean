import Pccl.Master.Orderly

set_option autoImplicit false

namespace Pccl.Master

open Packet Program

/-- The last round that has started, as somebody sees it who watches the clients. -/
structure Round where
  participants : Finset Uuid
  succeeded : Finset Uuid
  left : Bool
deriving DecidableEq

namespace Round

def none : Round := ⟨∅, ∅, false⟩

def Succeeds (round : Round) : Prop := round.participants ⊆ round.succeeded ∧ round.left = false

instance (round : Round) : Decidable round.Succeeds := inferInstanceAs (Decidable (_ ∧ _))

def report (round : Round) (report : Option (Uuid × Bool)) : Round :=
  match report with
  | some (uuid, true) => { round with succeeded := insert uuid round.succeeded }
  | _ => round

def leave (round : Round) (leaver : Option Uuid) : Round :=
  { round with left := round.left || leaver.any fun uuid => uuid ∈ round.participants }

def enter (round : Round) (entered : Finset Uuid) : Round :=
  if entered = ∅ then round else ⟨entered, ∅, false⟩

end Round

def departed (event : Event) (before after : MasterState) : Option Uuid :=
  match event with
  | .disconnect address =>
    (before.findClientUUID address).filter fun uuid => (after.getClientInfo uuid).isNone
  | _ => none

def entered (before after : MasterState) : Finset Uuid :=
  after.uuidsWhere fun info =>
    after.isConnecting info.clientUuid && !before.isConnecting info.clientUuid

def Round.observe (event : Event) (before after : MasterState) (round : Round) : Round :=
  ((round.report (recorded event before after)).leave (departed event before after)).enter
    (entered before after)

namespace Establishment

/-- What the watcher knows of the clients, in a round or not. -/
structure Tracks (active : Prop) (rounds : Establishment) (round : Round) : Prop where
  took : ∀ uuid standing progress, rounds.clients uuid = some standing →
    standing.progress = some progress → (progress = .failed → active) →
    uuid ∈ round.participants ∧ (uuid ∈ round.succeeded ↔ progress = .waiting)
  departed : active → ∀ uuid ∈ round.participants, round.left = true ∨
    ∃ standing, rounds.clients uuid = some standing ∧ standing.progress ≠ none
  dropped : active → rounds.peerDropped = round.left
  closed : ¬ active → rounds.Any (fun standing => standing.progress = some .failed) → ¬ round.Succeeds

def Blames (rounds : Establishment) (next : Establishment) : Act → Prop
  | .join _ => ¬ rounds.Any (fun _ => True) → rounds.peerDropped = false
  | .leave uuid =>
    (rounds.Active → ∃ standing, rounds.clients uuid = some standing ∧ standing.progress ≠ none) ∧
      ∀ client, next.isConnecting client = true → rounds.isConnecting client = true
  | _ => True

variable {rounds next : Establishment} {round : Round} {active : Prop}

def Act.note (act : Act) (round : Round) : Round :=
  match act with
  | .report uuid success => round.report (some (uuid, success))
  | .leave uuid => round.leave (some uuid)
  | _ => round

namespace Tracks

theorem of_busy {later : Establishment} (tracks : rounds.Tracks active round)
    (before : ∀ uuid standing, later.clients uuid = some standing → standing.progress ≠ none →
      rounds.clients uuid = some standing)
    (departed : active → ∀ uuid ∈ round.participants, round.left = true ∨
      ∃ standing, later.clients uuid = some standing ∧ standing.progress ≠ none)
    (dropped : active → later.peerDropped = rounds.peerDropped) : later.Tracks active round where
  took uuid standing progress found state :=
    tracks.took uuid standing progress (before uuid standing found (by simp [state])) state
  departed := departed
  dropped busy := (dropped busy).trans (tracks.dropped busy)
  closed idle := fun ⟨uuid, standing, found, state⟩ =>
    tracks.closed idle ⟨uuid, standing, before uuid standing found (by simp [state]), state⟩

theorem leave {client : Uuid} (tracks : rounds.Tracks rounds.Active round)
    (blames : rounds.Active → ∃ standing, rounds.clients client = some standing ∧
      standing.progress ≠ none) :
    (rounds.act (.leave client)).Tracks rounds.Active (round.leave (some client)) := by
  refine ⟨fun uuid standing progress found => tracks.took uuid standing progress (leave_cases found).2,
    fun busy uuid took => ?_, fun busy => ?_, fun idle ⟨uuid, standing, found, progress⟩ => ?_⟩
  · by_cases same : uuid = client
    · subst same
      exact Or.inl (Bool.or_eq_true _ _ |>.mpr (Or.inr (decide_eq_true took)))
    · refine (tracks.departed busy uuid took).imp (fun left => ?_) fun ⟨standing, found, progress⟩ => ?_
      · simp [Round.leave, left]
      · exact ⟨standing, (Function.update_of_ne same _ _).trans found, progress⟩
  · -- During a round only participants leave.
    obtain ⟨standing, found, state⟩ := blames busy
    obtain ⟨progress, state⟩ := Option.ne_none_iff_exists'.mp state
    have took := (tracks.took client standing progress found state fun _ => busy).1
    simp [Round.leave, Establishment.act, drop, took]
  · rintro ⟨all, left⟩
    refine tracks.closed idle ⟨uuid, standing, (leave_cases found).2, progress⟩ ⟨all, ?_⟩
    exact (Bool.or_eq_false_iff.mp left).1

theorem report {client : Uuid} {success : Bool} (tracks : rounds.Tracks rounds.Active round)
    (admits : rounds.Admits (.report client success)) :
    (rounds.act (.report client success)).Tracks rounds.Active
      (round.report (some (client, success))) := by
  obtain ⟨accepted, present⟩ := admits
  have busy : rounds.Active := ⟨client, _, present, rfl⟩
  have before := tracks.took client _ _ present rfl nofun
  have participants : (round.report (some (client, success))).participants = round.participants := by
    cases success <;> rfl
  have left : (round.report (some (client, success))).left = round.left := by cases success <;> rfl
  have succeeded (uuid : Uuid) : uuid ∈ (round.report (some (client, success))).succeeded ↔
      (uuid = client ∧ success = true) ∨ uuid ∈ round.succeeded := by
    cases success <;> simp [Round.report]
  refine ⟨fun uuid next progress found state alive => ?_, fun _ uuid took => ?_, fun _ => ?_,
    fun idle => absurd busy idle⟩
  · rw [participants, succeeded]
    obtain ⟨standing, known, ⟨rfl, rfl⟩ | ⟨other, rfl⟩⟩ := setProgress_cases found
    · cases Option.some.inj state
      refine ⟨before.1, ?_⟩
      cases success <;> simp [before.2]
    · have took := tracks.took uuid _ progress known state alive
      exact ⟨took.1, by simpa [other] using took.2⟩
  · rw [left]
    rw [participants] at took
    refine (tracks.departed busy uuid took).imp_right fun ⟨standing, found, state⟩ => ?_
    refine ⟨_, congrArg (Option.map _) found, ?_⟩
    dsimp only
    split
    · simp
    · exact state
  · exact (tracks.dropped busy).trans left.symm

theorem act {act : Act} (tracks : rounds.Tracks rounds.Active round) (rest : rounds.Rest)
    (admits : rounds.Admits act) (keeps : rounds.Keeps act) (blames : rounds.Blames next act) :
    (rounds.act act).Tracks rounds.Active (act.note round) := by
  cases act with
  | rest | remind => exact tracks.of_busy (fun _ _ found _ => found) tracks.departed fun _ => rfl
  | leave client => exact tracks.leave blames.1
  | report client success => exact tracks.report admits
  | join client =>
    refine tracks.of_busy (fun uuid standing found state => ?_) (fun busy uuid took => ?_) fun _ => rfl
    · rcases join_cases found with ⟨_, rfl⟩ | ⟨_, known⟩
      · exact absurd rfl state
      · exact known
    · refine (tracks.departed busy uuid took).imp_right fun ⟨standing, found, state⟩ => ?_
      refine ⟨standing, (Function.update_of_ne ?_ _ _).trans found, state⟩
      rintro rfl
      cases admits.1.symm.trans found
  | retry client =>
    have idle : ¬ rounds.Active := by
      obtain ⟨voter, present, accepted, state⟩ := admits
      rcases state with voted | failed
      · exact rest.orderly.not_active_of_voter present accepted voted
      · exact keeps (present.trans (by rw [← accepted, ← failed]))
    refine tracks.of_busy (fun uuid standing found state => ?_) (fun busy => absurd busy idle)
      fun _ => rfl
    obtain ⟨before, known, ⟨_, rfl⟩ | ⟨_, rfl⟩⟩ := setProgress_cases found
    · exact absurd rfl state
    · exact known

theorem verdict (tracks : rounds.Tracks active round) (orderly : rounds.Orderly active)
    {failure : Bool} (ends : rounds.Ends failure) : failure = false ↔ round.Succeeds := by
  by_cases busy : active
  · constructor
    · rintro rfl
      have fine : ¬ (rounds.Any (fun standing => standing.progress = some .failed) ∨
          rounds.peerDropped = true) := fun bad => Bool.false_ne_true (ends.verdict.mpr bad)
      have left : round.left = false := by
        rw [← tracks.dropped busy, Bool.eq_false_iff]
        exact fun dropped => fine (Or.inr dropped)
      refine ⟨fun uuid took => ?_, left⟩
      obtain ⟨standing, found, state⟩ := (tracks.departed busy uuid took).resolve_left (by simp [left])
      rcases ends.ready uuid standing found with rfl | waiting | failed
      · exact absurd rfl state
      · exact (tracks.took uuid standing _ found waiting nofun).2.mpr rfl
      · exact absurd ⟨uuid, standing, found, failed⟩ fun any => fine (Or.inl any)
    · rintro ⟨all, left⟩
      by_contra failed
      rcases ends.verdict.mp (by simpa using failed) with ⟨uuid, standing, found, state⟩ | dropped
      · obtain ⟨took, succeeded⟩ := tracks.took uuid standing _ found state fun _ => busy
        cases succeeded.mp (all took)
      · rw [tracks.dropped busy, left] at dropped
        cases dropped
  · -- A round that has failed before is closed again.
    obtain ⟨⟨uuid, standing, found, waiting | failed⟩, _⟩ := ends.closable
    · exact absurd (orderly.connects uuid standing found (Or.inr waiting)) busy
    · have any : rounds.Any fun standing => standing.progress = some .failed :=
        ⟨uuid, standing, found, failed⟩
      have bad := ends.verdict.mpr (Or.inl any)
      simp [bad, tracks.closed busy any]

theorem rests (tracks : rounds.Tracks active round) (back : rounds.Active → active)
    (failed : rounds.Any (fun standing => standing.progress = some .failed) → (active → rounds.Active)) :
    rounds.Tracks rounds.Active round where
  took uuid standing progress found state alive :=
    tracks.took uuid standing progress found state fun is => back (alive is)
  departed busy := tracks.departed (back busy)
  dropped busy := tracks.dropped (back busy)
  closed idle any := tracks.closed (fun busy => idle (failed any busy)) any

theorem starts {entered : Finset Uuid} (dropped : next.peerDropped = false)
    (known : ∀ uuid standing, next.clients uuid = some standing →
      (standing.progress = some .connecting ∧ uuid ∈ entered) ∨ standing.progress = none)
    (present : ∀ uuid ∈ entered, ∃ standing, next.clients uuid = some standing ∧
      standing.progress = some .connecting) (someone : entered ≠ ∅) :
    next.Tracks next.Active (round.enter entered) := by
  rw [Round.enter, if_neg someone]
  refine ⟨fun uuid standing progress found state _ => ?_, fun _ uuid took => Or.inr ?_, fun _ => dropped,
    fun _ ⟨uuid, standing, found, state⟩ => ?_⟩
  · rcases known uuid standing found with ⟨connecting, took⟩ | idle
    · cases connecting.symm.trans state
      exact ⟨took, by simp⟩
    · cases idle.symm.trans state
  · obtain ⟨standing, found, connecting⟩ := present uuid took
    exact ⟨standing, found, by simp [connecting]⟩
  · rcases known uuid standing found with ⟨connecting, _⟩ | idle
    · cases connecting.symm.trans state
    · cases idle.symm.trans state

theorem finish (tracks : rounds.Tracks active round) (orderly : rounds.Orderly active) {failure : Bool}
    (ends : rounds.Ends failure) : (rounds.finish failure).Tracks (rounds.finish failure).Active round := by
  have after (uuid : Uuid) (next : Standing) (found : (rounds.finish failure).clients uuid = some next) :
      next.progress = none ∨ (next.progress = some .failed ∧ failure = true) := by
    obtain ⟨standing, known, ⟨_, rfl⟩ | ⟨other, rfl⟩⟩ := finish_cases found
    · cases failure <;> simp
    · rcases ends.ready uuid _ known with rfl | waiting | failed
      · exact Or.inl rfl
      · exact absurd waiting other
      · exact Or.inr ⟨failed, ends.verdict.mpr (Or.inl ⟨uuid, _, known, failed⟩)⟩
  have idle : ¬ (rounds.finish failure).Active := by
    rintro ⟨uuid, next, found, connecting⟩
    rcases after uuid next found with state | ⟨state, _⟩ <;> cases state.symm.trans connecting
  refine ⟨fun uuid next progress found state alive => ?_, fun busy => absurd busy idle,
    fun busy => absurd busy idle, fun _ ⟨uuid, next, found, state⟩ => ?_⟩
  · rcases after uuid next found with rests | ⟨failed, _⟩
    · cases rests.symm.trans state
    · cases failed.symm.trans state
      exact absurd (alive rfl) idle
  · rcases after uuid next found with rests | ⟨_, failed⟩
    · cases rests.symm.trans state
    · exact fun succeeds => by simpa [failed] using (tracks.verdict orderly ends).mpr succeeds

theorem turn (tracks : rounds.Tracks active round) (orderly : rounds.Orderly active)
    (inhabited : rounds.Inhabited) {checks : Bool} (kept : checks = false → active → rounds.Active)
    {entered : Finset Uuid}
    (mem : ∀ uuid, uuid ∈ entered ↔ next.isConnecting uuid = true ∧ rounds.isConnecting uuid = false)
    (quiet : checks = true → active ∨ entered = ∅) (turn : rounds.Turn checks next) :
    next.Tracks next.Active (round.enter entered) := by
  have nobody (none : ∀ uuid, next.isConnecting uuid = true → rounds.isConnecting uuid = true) :
      round.enter entered = round := by
    refine if_pos (Finset.eq_empty_of_forall_notMem fun uuid took => ?_)
    obtain ⟨connecting, idle⟩ := (mem uuid).mp took
    exact Bool.false_ne_true (idle.symm.trans (none uuid connecting))
  cases turn with
  | rests open_ =>
    rw [nobody fun _ connecting => connecting]
    refine tracks.rests (fun ⟨uuid, standing, found, connecting⟩ =>
      orderly.connects uuid standing found (Or.inl connecting)) fun ⟨uuid, standing, found, failed⟩ => ?_
    cases checks with
    | false => exact kept rfl
    | true =>
      intro _
      by_contra idle
      exact open_ rfl ⟨⟨uuid, standing, found, Or.inr failed⟩,
        fun client other known connecting => idle ⟨client, other, known, connecting⟩⟩
  | first client present alone =>
    -- Somebody else has been accepted.
    obtain ⟨uuid, standing, found, accepted⟩ := inhabited ⟨client, _, present, trivial⟩
    obtain rfl := alone uuid standing found
    cases present.symm.trans found
    cases accepted
  | starts acceptNewPeers voted someone =>
    have idle := orderly.idle_of_voted voted someone
    have entering (uuid : Uuid) :
        uuid ∈ entered ↔ (rounds.start acceptNewPeers).isConnecting uuid = true := by
      refine (mem uuid).trans ⟨And.left, fun connecting => ⟨connecting, ?_⟩⟩
      rw [Bool.eq_false_iff]
      intro before
      obtain ⟨standing, found, connects⟩ := (Option.any_eq_true _ _).mp before
      rw [decide_eq_true_iff, idle uuid standing found] at connects
      cases connects
    have nonempty : entered ≠ ∅ := by
      obtain ⟨uuid, standing, found, connecting⟩ := @active_start rounds acceptNewPeers someone
      exact Finset.ne_empty_of_mem ((entering uuid).mpr ((isConnecting_of_progress found).mpr connecting))
    have unchecked : checks = false := by
      obtain ⟨voter, other, present, accepted⟩ := id someone
      have ended := orderly.not_active_of_voter present accepted (voted voter other present accepted)
      rw [Bool.eq_false_iff]
      exact fun checked => nonempty ((quiet checked).resolve_left ended)
    refine starts unchecked (fun uuid next found => ?_) (fun uuid took => ?_) nonempty
    · have connecting := @isConnecting_of_progress (rounds.start acceptNewPeers) uuid next found
      obtain ⟨standing, known, ⟨_, rfl⟩ | ⟨_, _, rfl⟩⟩ := start_cases found
      · exact Or.inl ⟨rfl, (entering uuid).mpr (connecting.mpr rfl)⟩
      · exact Or.inr (idle uuid _ known)
    · obtain ⟨standing, found, connects⟩ := (Option.any_eq_true _ _).mp ((entering uuid).mp took)
      exact ⟨standing, found, of_decide_eq_true connects⟩
  | restarts none =>
    have gone (uuid : Uuid) : ((rounds.start true).start false).clients uuid = Option.none := by
      change ((rounds.clients uuid).map _).map _ = _
      rw [clients_of_restarts inhabited none]
      rfl
    have absurd {conclusion : Prop} {uuid : Uuid} {standing : Standing}
        (found : ((rounds.start true).start false).clients uuid = some standing) : conclusion := by
      cases (gone uuid).symm.trans found
    rw [nobody fun uuid connecting => by
      obtain ⟨standing, found, _⟩ := (Option.any_eq_true _ _).mp connecting
      exact absurd found]
    exact ⟨fun _ _ _ found => absurd found, fun ⟨_, _, found, _⟩ => absurd found,
      fun ⟨_, _, found, _⟩ => absurd found, fun _ ⟨_, _, found, _⟩ => absurd found⟩
  | ends failure _ ends =>
    rw [nobody fun _ => isConnecting_finish]
    exact tracks.finish orderly ends

theorem step {act : Act} (tracks : rounds.Tracks rounds.Active round) (rest : rounds.Rest)
    (steps : rounds.Steps act next) (blames : rounds.Blames next act) {entered : Finset Uuid}
    (mem : ∀ uuid, uuid ∈ entered ↔ next.isConnecting uuid = true ∧ rounds.isConnecting uuid = false) :
    next.Tracks next.Active ((act.note round).enter entered) := by
  have acted := tracks.act rest steps.admits steps.keeps blames
  have since (uuid : Uuid) : uuid ∈ entered ↔
      next.isConnecting uuid = true ∧ (rounds.act act).isConnecting uuid = false := by
    refine (mem uuid).trans (and_congr_right fun connecting => ?_)
    rw [steps.isConnecting_act rest connecting]
  rcases rest.cases_of_steps steps with inhabited | ⟨client, rfl, rfl, nobody, present, alone⟩
  · refine acted.turn (rest.act steps.admits steps.keeps) inhabited (active_act steps.admits) since ?_
      steps.turn
    intro checked
    cases act with
    | report client success =>
      obtain ⟨accepted, present⟩ := steps.admits
      exact Or.inl ⟨client, _, present, rfl⟩
    | leave client =>
      refine Or.inr (Finset.eq_empty_of_forall_notMem fun uuid took => ?_)
      obtain ⟨connecting, idle⟩ := (mem uuid).mp took
      exact Bool.false_ne_true (idle.symm.trans (blames.2 uuid connecting))
    | _ => cases checked
  · have there : ((rounds.act (.join client)).first client).clients client =
        some ⟨true, some .connecting⟩ := by
      change ((rounds.act (.join client)).clients client).map _ = _
      simp [present]
    have first : client ∈ entered := by
      refine (mem client).mpr ⟨(isConnecting_of_progress there).mpr rfl, ?_⟩
      simp [isConnecting, steps.admits.1]
    refine starts (blames nobody) (fun uuid standing found => ?_) (fun uuid took => ?_)
      (Finset.ne_empty_of_mem first)
    · obtain ⟨rfl, rfl⟩ := first_cases alone found
      exact Or.inl ⟨rfl, first⟩
    · obtain ⟨standing, found, connects⟩ := (Option.any_eq_true _ _).mp ((mem uuid).mp took).1
      exact ⟨standing, found, of_decide_eq_true connects⟩

end Tracks

end Establishment

/-- The first client finds no trace of somebody who has left before it, during a round only
participants leave, and no round starts because somebody leaves. -/
def Core.keepsBlame (core : Core) : Action → Bool
  | .register _ _ _ => !core.infos.isEmpty || !core.peerDropped
  | .leave _ uuid =>
    (core.infos.all (fun info => info.connectionState ≠ .connectingToPeers) ||
        (core.info uuid).any fun info => info.connectionState.inRound) &&
      ((core.others uuid).isEmpty ||
        (!votesAlike true (core.others uuid) && !votesAlike false (core.others uuid)))
  | _ => true

def Core.judgesFairly (core : Core) (action : Action) : Bool :=
  core.keepsOrder action && core.keepsBlame action

theorem Core.Does.blames {environment : Environment} {event : Event} {core next : Core}
    {act : Establishment.Act} (does : core.Does environment event next act)
    (valid : core.Valid environment)
    (turn : (core.establishment.act act).Turn act.checks next.establishment)
    (blame : ∀ action, event.action? core = some action → core.keepsBlame action = true) :
    core.establishment.Blames next.establishment act := by
  cases act with
  | join client =>
    obtain ⟨⟨_, address, ports, group, asked⟩, _⟩ := does
    intro nobody
    have empty : core.infos.isEmpty = true := by
      rw [List.isEmpty_iff]
      by_contra some
      obtain ⟨info, present⟩ := List.exists_mem_of_ne_nil _ some
      obtain ⟨uuid, found⟩ := Table.mem_values_iff.mp present
      exact nobody ((establishment_any _).mpr ⟨uuid, info, found, trivial⟩)
    have blame : core.peerDropped = false := by simpa [keepsBlame, empty] using blame _ asked
    exact blame
  | leave uuid =>
    obtain ⟨address, asked, enabled, quiet⟩ := does
    obtain ⟨during, alone⟩ := Bool.and_eq_true _ _ |>.mp (blame _ asked)
    refine ⟨fun busy => ?_, ?_⟩
    · obtain ⟨client, other, present, connecting⟩ := active_iff.mp busy
      rcases Bool.or_eq_true _ _ |>.mp during with idle | round
      · have still := List.all_eq_true.mp idle other (Table.mem_values_iff.mpr ⟨client, present⟩)
        simp [connecting] at still
      · obtain ⟨info, found, round⟩ := (Option.any_eq_true _ _).mp round
        refine ⟨info.standing, congrArg (Option.map ClientInfo.standing) found, ?_⟩
        change info.connectionState.progress? ≠ none
        cases state : info.connectionState <;>
          simp_all [ConnectionState.inRound, ConnectionState.progress?]
    · have mem := mem_others valid.registry uuid
      rcases Bool.or_eq_true _ _ |>.mp alone with empty | open_
      · -- Nobody is left.
        rw [List.isEmpty_iff] at empty
        have gone (client : Uuid) :
            (core.establishment.act (.leave uuid)).clients client = none := by
          refine Option.eq_none_iff_forall_ne_some.mpr fun standing found => ?_
          obtain ⟨other, known⟩ := Establishment.leave_cases found
          obtain ⟨info, present, _⟩ := Option.map_eq_some_iff.mp known
          exact List.ne_nil_of_mem ((mem info).mpr ⟨client, other, present⟩) empty
        intro client connecting
        obtain ⟨standing, found, _⟩ := (Option.any_eq_true _ _).mp connecting
        cases (turn.gone (gone client)).symm.trans found
      · refine quiet fun acceptNewPeers enabled => ?_
        have alike := (enabled_startRound_leave valid.registry address uuid acceptNewPeers).mp enabled
        simp only [Bool.and_eq_true, Bool.not_eq_true'] at open_
        cases acceptNewPeers
        · exact Bool.false_ne_true (open_.2.symm.trans alike)
        · exact Bool.false_ne_true (open_.1.symm.trans alike)
  | _ => trivial

theorem mem_entered {environment : Environment} {before after : MasterState}
    (registry : after.core.Registry environment) (uuid : Uuid) :
    uuid ∈ entered before after ↔
      after.core.establishment.isConnecting uuid = true ∧
        before.core.establishment.isConnecting uuid = false := by
  simp only [entered, MasterState.uuidsWhere, List.mem_toFinset, List.mem_map, List.mem_filter,
    MasterState.mem_infos, Bool.and_eq_true, Bool.not_eq_true', isConnecting_eq]
  constructor
  · rintro ⟨info, ⟨_, entered⟩, rfl⟩
    exact entered
  · rintro entered
    obtain ⟨standing, found, _⟩ := (Option.any_eq_true _ _).mp entered.1
    obtain ⟨info, present, _⟩ := Option.map_eq_some_iff.mp found
    obtain rfl := registry.named uuid info present
    exact ⟨info, ⟨⟨_, present⟩, entered⟩, rfl⟩

theorem departed_iff {environment : Environment} {event : Event} {before after : MasterState}
    {act : Establishment.Act} (does : before.core.Does environment event after.core act)
    (steps : before.core.establishment.Steps act after.core.establishment)
    (valid : before.core.Valid environment) (uuid : Uuid) :
    departed event before after = some uuid ↔ act = .leave uuid := by
  constructor
  · intro departs
    cases event with
    | disconnect address =>
      obtain ⟨known, gone⟩ := Option.filter_eq_some_iff.mp departs
      have asked : Event.action? before.core (.disconnect address) = some (.leave address uuid) :=
        Option.map_eq_some_iff.mpr ⟨uuid, known, rfl⟩
      cases act with
      | rest =>
        obtain ⟨info, found, _⟩ := valid.registry.info_of address uuid known
        have still : after.core.info uuid = some info := does _ asked rfl ▸ found
        cases (Option.isNone_iff_eq_none.mp gone).symm.trans still
      | remind => cases does.1.symm.trans asked
      | join =>
        obtain ⟨⟨_, _, _, _, other⟩, _⟩ := does
        cases other.symm.trans asked
      | retry =>
        obtain ⟨_, _, other, _⟩ := does
        cases other.symm.trans asked
      | report => cases does.1.symm.trans asked
      | leave =>
        obtain ⟨_, other, _⟩ := does
        cases other.symm.trans asked
        rfl
    | _ => cases departs
  · rintro rfl
    obtain ⟨address, asked, known, _⟩ := does
    have gone : (after.core.info uuid).map ClientInfo.standing = Option.none :=
      steps.turn.gone (Function.update_self _ _ _)
    rcases event.action_cases asked with (same | ⟨_, _, _, same⟩) | ⟨_, packet, _, _, _, requests⟩ |
      ⟨_, _, rfl, _, same⟩
    · cases same
    · cases same
    · cases packet <;> cases requests
    · cases same
      exact Option.filter_eq_some_iff.mpr
        ⟨known, Option.isNone_iff_eq_none.mpr (Option.map_eq_none_iff.mp gone)⟩

theorem note_eq {environment : Environment} {event : Event} {before after : MasterState}
    {act : Establishment.Act} (does : before.core.Does environment event after.core act)
    (steps : before.core.establishment.Steps act after.core.establishment)
    (rest : before.core.establishment.Rest) (valid : before.core.Valid environment) (round : Round) :
    (round.report (recorded event before after)).leave (departed event before after) =
      act.note round := by
  have reports := recorded_iff does steps rest
  have leaves := departed_iff does steps valid
  have same (none : ∀ uuid, act ≠ .leave uuid) (round : Round) :
      round.leave (departed event before after) = round := by
    have nobody : departed event before after = Option.none :=
      Option.eq_none_iff_forall_ne_some.mpr fun uuid left => none uuid ((leaves uuid).mp left)
    simp [nobody, Round.leave]
  have silent (none : ∀ uuid success, act ≠ .report uuid success) :
      round.report (recorded event before after) = round := by
    have nothing : recorded event before after = Option.none :=
      Option.eq_none_iff_forall_ne_some.mpr fun report made =>
        none report.1 report.2 ((reports report.1 report.2).mp made)
    simp [nothing, Round.report]
  cases act with
  | report uuid success =>
    rw [same nofun, (reports uuid success).mpr rfl]
    rfl
  | leave uuid =>
    rw [silent nofun, (leaves uuid).mpr rfl]
    rfl
  | _ =>
    rw [same nofun, silent nofun]
    rfl

structure Judged (core : Core) (round : Round) : Prop where
  rest : core.establishment.Rest
  tracks : core.establishment.Tracks core.establishment.Active round

theorem Judged.initial : Judged Core.initial .none where
  rest := Core.initial_rest
  tracks := ⟨fun _ _ _ found => (by cases found), fun _ _ took => (by cases took), fun _ => rfl,
    fun _ ⟨_, _, found, _⟩ => (by cases found)⟩

section Judging

variable {environment : Environment} {event : Event} {before after : MasterState} {round : Round}

theorem Judged.served (judged : Judged before.core round) (valid : before.core.Valid environment)
    (asked : asks Core.judgesFairly event before)
    (served : Core.Served environment event before.core after.core) :
    Judged after.core (round.observe event before after) := by
  have rules (action : Action) (is : event.action? before.core = some action) :=
    Bool.and_eq_true _ _ |>.mp (of_asks asked is)
  obtain ⟨act, does, steps⟩ := served.steps valid fun action is => (rules action is).1
  have blames := does.blames valid steps.turn fun action is => (rules action is).2
  refine ⟨steps.rest judged.rest, ?_⟩
  rw [Round.observe, note_eq does steps judged.rest valid]
  exact judged.tracks.step judged.rest steps blames (mem_entered (served.valid valid).registry)

theorem Judged.verdict (judged : Judged before.core round) (valid : before.core.Valid environment)
    (asked : asks Core.judgesFairly event before)
    (served : Core.Served environment event before.core after.core) {uuid : Uuid} {success : Bool}
    (news : .established success ∈ told before after uuid) :
    success = true ↔ (round.observe event before after).Succeeds := by
  have rules (action : Action) (is : event.action? before.core = some action) :=
    Bool.and_eq_true _ _ |>.mp (of_asks asked is)
  obtain ⟨act, does, steps⟩ := served.steps valid fun action is => (rules action is).1
  have blames := does.blames valid steps.turn fun action is => (rules action is).2
  obtain ⟨ends, reached⟩ := steps.turn.established news
  have acted := judged.tracks.act judged.rest steps.admits steps.keeps blames
  -- Nobody starts to connect at the end of a round.
  have nobody : entered before after = ∅ := by
    refine Finset.eq_empty_of_forall_notMem fun client took => ?_
    obtain ⟨connecting, idle⟩ := (mem_entered (served.valid valid).registry client).mp took
    rw [← steps.isConnecting_act judged.rest connecting] at idle
    rw [reached] at connecting
    exact Bool.false_ne_true (idle.symm.trans (Establishment.isConnecting_finish connecting))
  rw [Round.observe, note_eq does steps judged.rest valid, nobody, Round.enter, if_pos rfl,
    ← acted.verdict (judged.rest.act steps.admits steps.keeps) ends]
  simp

end Judging

theorem rounds_judged (environment : Environment) (events : List Event) (event : Event)
    (before after : MasterState)
    (lawful : Lawful environment (asks Core.judgesFairly) (events ++ [event]))
    (reached : run environment events = .ok before)
    (served : run environment (events ++ [event]) = .ok after) (uuid : Uuid) (success : Bool)
    (news : .established success ∈ told before after uuid) :
    success = true ↔ (watch environment Round.observe (events ++ [event]) .none).Succeeds := by
  obtain ⟨valid, judged, asked, serves, same⟩ := @watch_served environment
    (asks Core.judgesFairly) _ _ Judged _ .initial
    (fun _ _ _ _ valid judged asked served => Judged.served judged valid asked served) _ _ _ _ lawful
    reached served
  rw [same]
  exact judged.verdict valid asked serves news

open Sample

theorem rounds_judged_pair :
    ∃ before after,
      run environment (pair ++ [establish 0 false, establish 1 false,
        report 0 true]) = .ok before ∧
      run environment (pair ++ [establish 0 false, establish 1 false,
        report 0 true] ++ [report 1 true]) = .ok after ∧
      (.established true ∈ told before after 0 ∧
        (true = true ↔ (watch environment Round.observe (pair ++ [establish 0 false,
          establish 1 false, report 0 true] ++ [report 1 true]) .none).Succeeds)) := by
  have ends : Server.both (fun before after => .established true ∈ told before after 0)
      (run environment (pair ++ [establish 0 false, establish 1 false,
        report 0 true]))
      (run environment (pair ++ [establish 0 false, establish 1 false,
        report 0 true] ++ [report 1 true])) = true := by
    cbv
  obtain ⟨before, after, reached, served, news⟩ := Server.exists_of_both ends
  have news := of_decide_eq_true news
  exact ⟨before, after, reached, served, news, rounds_judged _ _ _ before after
    ((lawful_iff _ _ _).mp (by cbv)) reached served 0 true news⟩

theorem round_misjudged :
    ∃ before after,
      run environment [join 0 0, report 0 true, leave 0,
        join 1 0] = .ok before ∧
      run environment ([join 0 0, report 0 true, leave 0,
        join 1 0] ++ [report 1 true]) = .ok after ∧
      .established false ∈ told before after 1 ∧
      (watch environment Round.observe ([join 0 0, report 0 true, leave 0,
        join 1 0] ++ [report 1 true]) .none).Succeeds := by
  have ends : Server.both (fun before after => .established false ∈ told before after 1)
      (run environment [join 0 0, report 0 true, leave 0, join 1 0])
      (run environment ([join 0 0, report 0 true, leave 0,
        join 1 0] ++ [report 1 true])) = true := by
    cbv
  have succeeds : decide (watch environment Round.observe ([join 0 0,
      report 0 true, leave 0, join 1 0] ++ [report 1 true]) .none).Succeeds =
      true := by
    cbv
  obtain ⟨before, after, reached, served, news⟩ := Server.exists_of_both ends
  exact ⟨before, after, reached, served, of_decide_eq_true news, of_decide_eq_true succeeds⟩

end Pccl.Master
