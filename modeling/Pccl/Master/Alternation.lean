import Pccl.Master.Orderly

set_option autoImplicit false

namespace Pccl.Master

open Packet Program

inductive Moment where
  | entered
  | told (signal : RoundSignal)
  | reported
deriving DecidableEq, Repr

inductive Stage where
  | resting
  | entered
  | informed
  | reported
deriving DecidableEq, Repr

def Stage.follow : Stage → Moment → Option Stage
  | resting, .entered => some entered
  | entered, .told .info => some informed
  | informed, .reported => some reported
  | reported, .told (.established _) => some resting
  | _, _ => none

def Stage.follows (stage : Stage) (moments : List Moment) : Option Stage := moments.foldlM follow stage

theorem Stage.follows_append (stage : Stage) (first second : List Moment) :
    stage.follows (first ++ second) = (stage.follows first).bind fun next => next.follows second := by
  simp [follows, List.foldlM_append, bind]

def moments (event : Event) (before after : MasterState) (uuid : Uuid) : List Moment :=
  (if (recorded event before after).any fun report => report.1 = uuid then [.reported] else []) ++
    (if after.isConnecting uuid && !before.isConnecting uuid then [.entered] else []) ++
    (told before after uuid).map .told

def history (environment : Environment) (events : List Event) : Uuid → List Moment :=
  watch environment (fun event before after history uuid => history uuid ++ moments event before after uuid)
    events fun _ => []

def Standing.Matches (active : Prop) (standing : Standing) (stage : Stage) : Prop :=
  match standing.progress with
  | none => stage = .resting
  | some .connecting => stage = .informed
  | some .waiting => stage = .reported
  | some .failed => (active → stage = .reported) ∧ (¬ active → stage = .resting)

namespace Establishment

def changes (rounds next : Establishment) (uuid : Uuid) : List Moment :=
  (if next.isConnecting uuid && !rounds.isConnecting uuid then [.entered] else []) ++
    ((next.told uuid).drop (rounds.told uuid).length).map .told

structure Linked (active : Prop) (rounds : Establishment) (stage : Uuid → Stage) : Prop where
  there : ∀ uuid standing, rounds.clients uuid = some standing → standing.Matches active (stage uuid)
  untold : ∀ uuid, rounds.told uuid = [] → stage uuid = .resting
  settled : ∀ uuid, stage uuid ≠ .entered

/-- The rules by which no packet of a round is sent twice. -/
def Paces (rounds : Establishment) : Act → Prop
  | .remind => ¬ rounds.Active
  | .leave uuid => rounds.Active ∨ ∀ client standing, client ≠ uuid →
      rounds.clients client = some standing → standing.progress ≠ some .failed
  | _ => True

variable {rounds next : Establishment} {stage : Uuid → Stage}

theorem told_inform_of_idle (idle : ¬ rounds.Active) : rounds.inform.told = rounds.told := by
  funext uuid
  refine if_neg fun meant => idle ?_
  obtain ⟨standing, found, connecting⟩ := (Option.any_eq_true _ _).mp meant
  exact ⟨uuid, standing, found, of_decide_eq_true connecting⟩

theorem told_act {act : Act} (paces : rounds.Paces act) : (rounds.act act).told = rounds.told := by
  cases act with
  | remind => exact told_inform_of_idle paces
  | _ => rfl

def Act.reporter? : Act → Option Uuid
  | report uuid _ => some uuid
  | _ => none

def Act.advance (act : Act) (stage : Uuid → Stage) (uuid : Uuid) : Stage :=
  if act.reporter? = some uuid then .reported else stage uuid

namespace Linked

theorem act {act : Act} (linked : rounds.Linked rounds.Active stage) (admits : rounds.Admits act)
    (keeps : rounds.Keeps act) (paces : rounds.Paces act) :
    (rounds.act act).Linked rounds.Active (act.advance stage) := by
  have quiet (same : act.advance stage = stage) (there : ∀ uuid standing,
      (rounds.act act).clients uuid = some standing → standing.Matches rounds.Active (stage uuid)) :
      (rounds.act act).Linked rounds.Active (act.advance stage) := by
    rw [same]
    exact ⟨there, fun uuid => told_act paces ▸ linked.untold uuid, linked.settled⟩
  cases act with
  | rest | remind => exact quiet rfl linked.there
  | join client =>
    refine quiet rfl fun uuid standing found => ?_
    rcases join_cases found with ⟨rfl, rfl⟩ | ⟨_, known⟩
    · exact linked.untold uuid admits.2
    · exact linked.there uuid standing known
  | leave client =>
    exact quiet rfl fun uuid standing found => linked.there uuid standing (leave_cases found).2
  | retry client =>
    refine quiet rfl fun uuid next found => ?_
    obtain ⟨standing, known, ⟨rfl, rfl⟩ | ⟨_, rfl⟩⟩ := setProgress_cases found
    · obtain ⟨voter, present, accepted, state⟩ := admits
      cases present.symm.trans known
      have matched := linked.there uuid standing known
      rcases state with voted | failed
      · simpa [Standing.Matches, voted] using matched
      · have idle : ¬ rounds.Active := keeps (known.trans (by rw [← accepted, ← failed]))
        simpa [Standing.Matches, failed, idle] using matched
    · exact linked.there uuid _ known
  | report client success =>
    obtain ⟨accepted, present⟩ := admits
    have busy : rounds.Active := ⟨client, _, present, rfl⟩
    refine ⟨fun uuid next found => ?_, fun uuid empty => ?_, fun uuid => ?_⟩
    · obtain ⟨standing, known, ⟨rfl, rfl⟩ | ⟨other, rfl⟩⟩ := setProgress_cases found
      · cases success <;> simp [Standing.Matches, Act.advance, Act.reporter?, busy]
      · simpa [Act.advance, Act.reporter?, Ne.symm other] using linked.there uuid _ known
    · have resting := linked.untold uuid empty
      have other : uuid ≠ client := by
        rintro rfl
        cases (linked.there uuid _ present : stage uuid = .informed).symm.trans resting
      simpa [Act.advance, Act.reporter?, Ne.symm other] using resting
    · simp only [Act.advance]
      split
      · exact nofun
      · exact linked.settled uuid

theorem follows_report {act : Act} (linked : rounds.Linked rounds.Active stage)
    (admits : rounds.Admits act) (uuid : Uuid) :
    (stage uuid).follows (if act.reporter? = some uuid then [.reported] else []) =
      some (act.advance stage uuid) := by
  by_cases reports : act.reporter? = some uuid
  · have informed : stage uuid = .informed := by
      cases act with
      | report client success =>
        cases reports
        obtain ⟨accepted, present⟩ := admits
        exact linked.there uuid _ present
      | _ => cases reports
    simp [Stage.follows, Act.advance, reports, informed, Stage.follow]
  · simp [Stage.follows, Act.advance, reports]

theorem follows_same {uuid : Uuid} (told : next.told uuid = rounds.told uuid)
    (outside : next.isConnecting uuid = true → rounds.isConnecting uuid = true) :
    (stage uuid).follows (rounds.changes next uuid) = some (stage uuid) := by
  have still : (next.isConnecting uuid && !rounds.isConnecting uuid) = false := by
    cases connecting : next.isConnecting uuid with
    | false => rfl
    | true => simp [outside connecting]
  simp [changes, told, still, Stage.follows]

theorem follows_start {uuid : Uuid} (told : next.told uuid = rounds.told uuid ++ [.info])
    (connects : next.isConnecting uuid = true) (idle : rounds.isConnecting uuid = false)
    (resting : stage uuid = .resting) :
    (stage uuid).follows (rounds.changes next uuid) = some .informed := by
  simp [changes, told, connects, idle, Stage.follows, resting, Stage.follow]

theorem follows_end {uuid : Uuid} {success : Bool}
    (told : next.told uuid = rounds.told uuid ++ [.established success])
    (outside : next.isConnecting uuid = false) (reported : stage uuid = .reported) :
    (stage uuid).follows (rounds.changes next uuid) = some .resting := by
  simp [changes, told, outside, Stage.follows, reported, Stage.follow]

section Turns

variable {active : Prop}

def moveTo (meant : Uuid → Bool) (target : Stage) (stage : Uuid → Stage) (uuid : Uuid) : Stage :=
  if meant uuid then target else stage uuid

theorem moveTo_settled {meant : Uuid → Bool} {target : Stage} (settled : ∀ uuid, stage uuid ≠ .entered)
    (other : target ≠ .entered) (uuid : Uuid) : moveTo meant target stage uuid ≠ .entered := by
  unfold moveTo
  split
  · exact other
  · exact settled uuid

theorem starts (linked : rounds.Linked active stage)
    (told : ∀ uuid, next.told uuid = rounds.told uuid ++ if next.isConnecting uuid then [.info] else [])
    (known : ∀ uuid standing, next.clients uuid = some standing →
      (standing.progress = some .connecting ∨ standing.progress = none) ∧
        stage uuid = .resting ∧ rounds.isConnecting uuid = false) :
    (∀ uuid, (stage uuid).follows (rounds.changes next uuid) =
        some (moveTo next.isConnecting .informed stage uuid)) ∧
      next.Linked next.Active (moveTo next.isConnecting .informed stage) := by
  refine ⟨fun uuid => ?_, fun uuid standing found => ?_, fun uuid empty => ?_,
    moveTo_settled linked.settled (by decide)⟩
  · by_cases connects : next.isConnecting uuid = true
    · obtain ⟨standing, found, _⟩ := (Option.any_eq_true _ _).mp connects
      obtain ⟨_, resting, idle⟩ := known uuid standing found
      rw [moveTo, if_pos connects]
      exact follows_start ((told uuid).trans (by rw [if_pos connects])) connects idle resting
    · rw [moveTo, if_neg connects]
      exact follows_same ((told uuid).trans (by simp [connects])) fun later => absurd later connects
  · have connects := isConnecting_of_progress found
    obtain ⟨progress, resting, _⟩ := known uuid standing found
    rcases progress with progress | progress
    · simp [moveTo, connects.mpr progress, Standing.Matches, progress]
    · have idle : next.isConnecting uuid = false := by
        rw [Bool.eq_false_iff, ne_eq, connects, progress]
        exact nofun
      simpa [moveTo, idle, Standing.Matches, progress] using resting
  · rw [told, List.append_eq_nil_iff] at empty
    rw [moveTo, if_neg fun connects => by simp [connects] at empty]
    exact linked.untold uuid empty.1

theorem rests (linked : rounds.Linked active stage)
    (failed : rounds.Any (fun standing => standing.progress = some .failed) → (active ↔ rounds.Active)) :
    rounds.Linked rounds.Active stage := by
  refine ⟨fun uuid standing found => ?_, linked.untold, linked.settled⟩
  have matched := linked.there uuid standing found
  cases progress : standing.progress with
  | none => simpa [Standing.Matches, progress] using matched
  | some step =>
    cases step with
    | connecting | waiting => simpa [Standing.Matches, progress] using matched
    | failed =>
      simpa [Standing.Matches, progress, failed ⟨uuid, standing, found, progress⟩] using matched

theorem first (linked : rounds.Linked active stage) {client : Uuid}
    (present : rounds.clients client = some .outside)
    (alone : ∀ uuid standing, rounds.clients uuid = some standing → uuid = client) :
    ∃ stages : Uuid → Stage,
      (∀ uuid, (stage uuid).follows (rounds.changes (rounds.first client) uuid) = some (stages uuid)) ∧
        (rounds.first client).Linked (rounds.first client).Active stages := by
  refine ⟨_, linked.starts (fun uuid => told_announce _ _ uuid) fun uuid standing found => ?_⟩
  obtain ⟨rfl, rfl⟩ := first_cases alone found
  refine ⟨Or.inl rfl, linked.there uuid _ present, ?_⟩
  simp [isConnecting, present, Standing.outside]

theorem start (linked : rounds.Linked active stage) (orderly : rounds.Orderly active)
    (acceptNewPeers : Bool)
    (voted : rounds.All fun standing => standing.accepted = true → standing.progress = none)
    (someone : rounds.Any fun standing => standing.accepted = true) :
    ∃ stages : Uuid → Stage,
      (∀ uuid, (stage uuid).follows (rounds.changes (rounds.start acceptNewPeers) uuid) =
        some (stages uuid)) ∧
        (rounds.start acceptNewPeers).Linked (rounds.start acceptNewPeers).Active stages := by
  have idle := orderly.idle_of_voted voted someone
  refine ⟨_, linked.starts (fun uuid => told_announce _ _ uuid) fun uuid next found => ?_⟩
  obtain ⟨standing, known, change⟩ := start_cases found
  have progress := idle uuid standing known
  refine ⟨?_, ?_, by simp [isConnecting, known, progress]⟩
  · rcases change with ⟨_, rfl⟩ | ⟨_, _, rfl⟩
    · exact Or.inl rfl
    · exact Or.inr progress
  · simpa [Standing.Matches, progress] using linked.there uuid standing known

theorem restart (linked : rounds.Linked active stage) (gone : ∀ uuid, rounds.clients uuid = none) :
    (∀ uuid, (stage uuid).follows (rounds.changes ((rounds.start true).start false) uuid) =
        some (stage uuid)) ∧
      ((rounds.start true).start false).Linked ((rounds.start true).start false).Active stage := by
  have started (rounds : Establishment) (gone : ∀ uuid, rounds.clients uuid = none)
      (acceptNewPeers : Bool) : (∀ uuid, (rounds.start acceptNewPeers).clients uuid = none) ∧
        (rounds.start acceptNewPeers).told = rounds.told := by
    have clients (uuid : Uuid) : (rounds.start acceptNewPeers).clients uuid = none := by
      change (rounds.clients uuid).map _ = _
      rw [gone]
      rfl
    refine ⟨clients, funext fun uuid => (told_announce _ _ uuid).trans ?_⟩
    change _ ++ (if ((rounds.start acceptNewPeers).clients uuid).any _ then _ else _) = _
    rw [clients]
    exact List.append_nil _
  have first := started rounds gone true
  have second := started (rounds.start true) first.1 false
  have told : ((rounds.start true).start false).told = rounds.told := second.2.trans first.2
  refine ⟨fun uuid => follows_same (congrFun told uuid) ?_, fun uuid standing found => ?_,
    fun uuid empty => linked.untold uuid ((congrFun told uuid).symm.trans empty), linked.settled⟩
  · simp [isConnecting, second.1]
  · cases (second.1 uuid).symm.trans found

theorem finish (linked : rounds.Linked active stage) (busy : active) (failure : Bool)
    (ready : rounds.All fun standing =>
      standing = .outside ∨ standing.progress = some .waiting ∨ standing.progress = some .failed) :
    ∃ stages : Uuid → Stage,
      (∀ uuid, (stage uuid).follows (rounds.changes (rounds.finish failure) uuid) =
        some (stages uuid)) ∧
        (rounds.finish failure).Linked (rounds.finish failure).Active stages := by
  have after {uuid : Uuid} {next : Standing}
      (found : (rounds.finish failure).clients uuid = some next) :
      (next = .outside ∧ rounds.clients uuid = some .outside) ∨
        (next ≠ .outside ∧ stage uuid = .reported ∧
          (next.progress = none ∨ next.progress = some .failed)) := by
    obtain ⟨standing, known, ⟨waiting, rfl⟩ | ⟨other, rfl⟩⟩ := finish_cases found
    · have reported : stage uuid = .reported := by
        simpa [Standing.Matches, waiting] using linked.there uuid standing known
      exact Or.inr ⟨by simp [Standing.outside], reported, by cases failure <;> simp⟩
    · rcases ready uuid _ known with rfl | waiting | failed
      · exact Or.inl ⟨rfl, known⟩
      · exact absurd waiting other
      · have matched := linked.there uuid _ known
        simp only [Standing.Matches, failed] at matched
        refine Or.inr ⟨fun same => ?_, matched.1 busy, Or.inr failed⟩
        rw [same] at failed
        cases failed
  have idle : ¬ (rounds.finish failure).Active := by
    rintro ⟨uuid, next, found, connects⟩
    rcases after found with ⟨rfl, _⟩ | ⟨_, _, state | state⟩
    · cases connects
    · cases state.symm.trans connects
    · cases state.symm.trans connects
  have outside (uuid : Uuid) : (rounds.finish failure).isConnecting uuid = false := by
    rw [Bool.eq_false_iff]
    intro connecting
    obtain ⟨next, found, connects⟩ := (Option.any_eq_true _ _).mp connecting
    exact idle ⟨uuid, next, found, of_decide_eq_true connects⟩
  let meant (uuid : Uuid) : Bool :=
    ((rounds.finish failure).clients uuid).any fun standing => standing ≠ .outside
  have told (uuid : Uuid) : (rounds.finish failure).told uuid = rounds.told uuid ++
      if meant uuid then [.established !failure] else [] := told_finish failure uuid
  refine ⟨moveTo meant .resting stage, fun uuid => ?_, fun uuid next found => ?_, fun uuid empty => ?_,
    moveTo_settled linked.settled (by decide)⟩
  · by_cases concerned : meant uuid = true
    · obtain ⟨next, found, different⟩ := (Option.any_eq_true _ _).mp concerned
      rw [moveTo, if_pos concerned]
      refine follows_end ((told uuid).trans (by rw [if_pos concerned])) (outside uuid) ?_
      rcases after found with ⟨same, _⟩ | ⟨_, reported, _⟩
      · exact absurd same (of_decide_eq_true different)
      · exact reported
    · rw [moveTo, if_neg concerned]
      exact follows_same ((told uuid).trans (by rw [if_neg concerned, List.append_nil]))
        fun connecting => absurd connecting (Bool.eq_false_iff.mp (outside uuid))
  · rcases after found with ⟨rfl, known⟩ | ⟨different, _, state⟩
    · have unmeant : meant uuid = false := by simp [meant, found]
      simpa [moveTo, unmeant, Standing.Matches, Standing.outside] using linked.there uuid _ known
    · have concerned : meant uuid = true := by simp [meant, found, different]
      rcases state with state | state <;> simp [moveTo, concerned, Standing.Matches, state, idle]
  · rw [told, List.append_eq_nil_iff] at empty
    rw [moveTo, if_neg fun concerned => by simp [concerned] at empty]
    exact linked.untold uuid empty.1

theorem turn (linked : rounds.Linked active stage) (orderly : rounds.Orderly active)
    (inhabited : rounds.Inhabited) {checks : Bool} (kept : checks = false → (active ↔ rounds.Active))
    (closes : checks = true → rounds.Closable → active) (turn : rounds.Turn checks next) :
    ∃ stages : Uuid → Stage,
      (∀ uuid, (stage uuid).follows (rounds.changes next uuid) = some (stages uuid)) ∧
        next.Linked next.Active stages := by
  cases turn with
  | rests open_ =>
    refine ⟨stage, fun uuid => follows_same rfl id, linked.rests fun failed => ?_⟩
    -- Whoever has failed is still in a round if and only if somebody is connecting.
    cases checks with
    | false => exact kept rfl
    | true =>
      have busy : rounds.Active := by
        by_contra idle
        obtain ⟨uuid, standing, found, progress⟩ := failed
        exact open_ rfl ⟨⟨uuid, standing, found, Or.inr progress⟩,
          fun client other known connecting => idle ⟨client, other, known, connecting⟩⟩
      obtain ⟨client, other, known, connecting⟩ := id busy
      exact ⟨fun _ => busy, fun _ => orderly.connects client other known (Or.inl connecting)⟩
  | first client present alone => exact linked.first present alone
  | starts acceptNewPeers voted someone =>
    obtain ⟨stages, follows, there, untold, settled⟩ := linked.start orderly acceptNewPeers voted someone
    exact ⟨stages, follows, there, untold, settled⟩
  | restarts nobody =>
    obtain ⟨follows, there, untold, settled⟩ := linked.restart (clients_of_restarts inhabited nobody)
    exact ⟨stage, follows, there, untold, settled⟩
  | ends failure checked ends =>
    exact linked.finish (closes checked ends.closable) failure ends.ready

end Turns

end Linked

theorem Linked.step {act : Act} (linked : rounds.Linked rounds.Active stage) (rest : rounds.Rest)
    (steps : rounds.Steps act next) (paces : rounds.Paces act) :
    ∃ stages : Uuid → Stage,
      (∀ uuid, (stage uuid).follows ((if act.reporter? = some uuid then [.reported] else []) ++
        rounds.changes next uuid) = some (stages uuid)) ∧ next.Linked next.Active stages := by
  have acted := linked.act steps.admits steps.keeps paces
  have kept (quiet : act.checks = false) : rounds.Active ↔ (rounds.act act).Active := by
    refine ⟨active_act steps.admits quiet, fun ⟨uuid, standing, found, connecting⟩ => ?_⟩
    exact ⟨uuid, standing, connecting_act found connecting, connecting⟩
  have closes (checked : act.checks = true) (closable : (rounds.act act).Closable) : rounds.Active := by
    cases act with
    | report client success =>
      obtain ⟨accepted, present⟩ := steps.admits
      exact ⟨client, _, present, rfl⟩
    | leave client =>
      refine paces.elim id fun none => ?_
      obtain ⟨⟨uuid, standing, found, waiting | failed⟩, _⟩ := closable
      · exact rest.orderly.connects uuid standing (leave_cases found).2 (Or.inr waiting)
      · exact absurd failed (none uuid standing (leave_cases found).1 (leave_cases found).2)
    | _ => cases checked
  have turned : ∃ stages : Uuid → Stage,
      (∀ uuid, (act.advance stage uuid).follows ((rounds.act act).changes next uuid) =
        some (stages uuid)) ∧ next.Linked next.Active stages := by
    rcases rest.cases_of_steps steps with inhabited | ⟨client, _, rfl, _, present, alone⟩
    · exact acted.turn (rest.act steps.admits steps.keeps) inhabited kept closes steps.turn
    · exact acted.first present alone
  obtain ⟨stages, follows, later⟩ := turned
  refine ⟨stages, fun uuid => ?_, later⟩
  -- What has changed since before the act has changed since after it.
  have same : rounds.changes next uuid = (rounds.act act).changes next uuid := by
    have entered : (next.isConnecting uuid && !rounds.isConnecting uuid) =
        (next.isConnecting uuid && !(rounds.act act).isConnecting uuid) := by
      cases connecting : next.isConnecting uuid with
      | false => rfl
      | true => rw [steps.isConnecting_act rest connecting]
    rw [changes, changes, entered, told_act paces]
  rw [Stage.follows_append, linked.follows_report steps.admits, Option.bind_some, same]
  exact follows uuid

theorem Turn.grows {checks : Bool} (turn : rounds.Turn checks next) (uuid : Uuid) :
    rounds.told uuid <+: next.told uuid := by
  rcases turn.informs with informs | ⟨failure, _, rfl⟩
  · obtain ⟨infos, told, _⟩ := informs uuid
    exact told ▸ List.prefix_append _ _
  · exact told_finish failure uuid ▸ List.prefix_append _ _

end Establishment

/-- A client that is alone and connecting is not told again whom to connect to because somebody is
refused, and a failed round is not closed again because somebody leaves after it. -/
def Core.keepsPace (core : Core) : Action → Bool
  | .refuse =>
    core.clients.clientUuids.size ≠ 1 ||
      core.infos.all fun info => info.connectionState ≠ .connectingToPeers
  | .leave _ uuid =>
    core.infos.any (fun info => info.connectionState = .connectingToPeers) ||
      (core.others uuid).all fun info => info.connectionState ≠ .connectingToPeersFailed
  | _ => true

def Core.takesTurns (core : Core) (action : Action) : Bool := core.keepsOrder action && core.keepsPace action

theorem Core.Does.paces {environment : Environment} {event : Event} {core next : Core}
    {act : Establishment.Act} (does : core.Does environment event next act)
    (valid : core.Valid environment)
    (pace : ∀ action, event.action? core = some action → core.keepsPace action = true) :
    core.establishment.Paces act := by
  cases act with
  | remind =>
    intro busy
    obtain ⟨uuid, info, found, connecting⟩ := active_iff.mp busy
    have idle : core.infos.all (fun info => info.connectionState ≠ .connectingToPeers) = true := by
      simpa [keepsPace, does.2] using pace _ does.1
    have quiet := List.all_eq_true.mp idle info (Table.mem_values_iff.mpr ⟨uuid, found⟩)
    simp [connecting] at quiet
  | leave uuid =>
    obtain ⟨address, asked, _⟩ := does
    rcases Bool.or_eq_true _ _ |>.mp (pace _ asked) with busy | none
    · obtain ⟨client, info, found, connecting⟩ := (any_infos _).mp busy
      exact Or.inl (active_iff.mpr ⟨client, info, found, of_decide_eq_true connecting⟩)
    · refine Or.inr fun client standing other known failed => ?_
      obtain ⟨info, found, rfl⟩ := Option.map_eq_some_iff.mp known
      have fine := List.all_eq_true.mp none info
        ((mem_others valid.registry uuid info).mpr ⟨client, other, found⟩)
      exact of_decide_eq_true fine ((ConnectionState.progress_iff _).2.2.mp failed)
  | _ => trivial

def Moment.signal? : Moment → Option RoundSignal
  | told signal => some signal
  | _ => none

/-- The history of every client goes from stage to stage. -/
structure Courses (core : Core) (history : Uuid → List Moment) : Prop where
  rest : core.establishment.Rest
  linked : ∃ stage, core.establishment.Linked core.establishment.Active stage ∧
    ∀ uuid, Stage.resting.follows (history uuid) = some (stage uuid)
  sent : ∀ uuid, (history uuid).filterMap Moment.signal? = core.rounds uuid

theorem Courses.initial : Courses Core.initial fun _ => [] where
  rest := Core.initial_rest
  linked := ⟨fun _ => .resting, ⟨fun _ _ found => (by cases found), fun _ _ => rfl, fun _ => nofun⟩,
    fun _ => rfl⟩
  sent _ := rfl

theorem Courses.served {environment : Environment} {event : Event} {before after : MasterState}
    {history : Uuid → List Moment} (courses : Courses before.core history)
    (valid : before.core.Valid environment)
    (asked : asks Core.takesTurns event before)
    (served : Core.Served environment event before.core after.core) :
    Courses after.core fun uuid => history uuid ++ moments event before after uuid := by
  have rules (action : Action) (is : event.action? before.core = some action) :=
    Bool.and_eq_true _ _ |>.mp (of_asks asked is)
  obtain ⟨act, does, steps⟩ := served.steps valid fun action is => (rules action is).1
  have paces := does.paces valid fun action is => (rules action is).2
  obtain ⟨stage, linked, follows⟩ := courses.linked
  obtain ⟨stages, moves, later⟩ := linked.step courses.rest steps paces
  have reports (uuid : Uuid) : ((recorded event before after).any fun report => report.1 = uuid) = true ↔
      act.reporter? = some uuid := by
    simp only [Option.any_eq_true, decide_eq_true_eq, Prod.exists]
    constructor
    · rintro ⟨client, success, report, rfl⟩
      rw [(recorded_iff does steps courses.rest client success).mp report]
      rfl
    · intro reporter
      cases act with
      | report client success =>
        cases reporter
        exact ⟨uuid, success, (recorded_iff does steps courses.rest uuid success).mpr rfl, rfl⟩
      | _ => cases reporter
  have same (uuid : Uuid) : moments event before after uuid =
      (if act.reporter? = some uuid then [.reported] else []) ++
        before.core.establishment.changes after.core.establishment uuid := by
    rw [moments, isConnecting_eq, isConnecting_eq, List.append_assoc]
    refine congrArg₂ _ ?_ rfl
    by_cases reporter : act.reporter? = some uuid
    · rw [if_pos reporter, if_pos ((reports uuid).mpr reporter)]
    · rw [if_neg reporter, if_neg fun reported => reporter ((reports uuid).mp reported)]
  refine ⟨steps.rest courses.rest, ⟨stages, later, fun uuid => ?_⟩, fun uuid => ?_⟩
  · rw [Stage.follows_append, follows, Option.bind_some, same]
    exact moves uuid
  · have grows : before.core.rounds uuid <+: after.core.rounds uuid := by
      have grows := steps.turn.grows uuid
      rwa [Establishment.told_act paces] at grows
    have news : (moments event before after uuid).filterMap Moment.signal? = told before after uuid := by
      rw [moments, List.filterMap_append, List.filterMap_append, List.filterMap_map]
      have silent (condition : Bool) (moment : Moment) (other : moment.signal? = none) :
          (if condition then [moment] else []).filterMap Moment.signal? = [] := by
        cases condition <;> simp [other]
      rw [silent _ _ rfl, silent _ _ rfl, List.nil_append, List.nil_append]
      exact List.filterMap_some
    rw [List.filterMap_append, courses.sent, news]
    exact List.prefix_iff_eq_append.mp grows

theorem packets_alternate (environment : Environment) (events : List Event)
    (lawful : Lawful environment (asks Core.takesTurns) events) (uuid : Uuid) :
    (∃ stage, Stage.resting.follows (history environment events uuid) = some stage ∧
        stage ≠ .entered) ∧
      ∀ master, run environment events = .ok master →
        (history environment events uuid).filterMap Moment.signal? = roundSignals master.sent uuid := by
  obtain ⟨follows, linked⟩ := @watch_holds environment (asks Core.takesTurns) _ _ Courses
    (fun history => ∀ uuid, ∃ stage, Stage.resting.follows (history uuid) = some stage ∧
      stage ≠ .entered) _ .initial
    (fun _ _ _ _ valid courses asked served => Courses.served courses valid asked served)
    (fun core history courses uuid => by
      obtain ⟨stage, linked, follows⟩ := courses.linked
      exact ⟨stage uuid, follows uuid, linked.settled uuid⟩) events lawful
  exact ⟨follows uuid, fun master reached => (linked master reached).sent uuid⟩

open Sample

theorem packets_alternate_retry :
    (∃ stage, Stage.resting.follows (history environment (pair ++
          [establish 0 false, establish 1 false, report 0 false,
            report 1 true, establish 0 false, establish 1 false]) 0) = some stage ∧
        stage ≠ .entered) ∧
      ∀ master, run environment (pair ++
          [establish 0 false, establish 1 false, report 0 false,
            report 1 true, establish 0 false, establish 1 false]) = .ok master →
        (history environment (pair ++
          [establish 0 false, establish 1 false, report 0 false,
            report 1 true, establish 0 false, establish 1 false]) 0).filterMap
          Moment.signal? = roundSignals master.sent 0 :=
  packets_alternate _ _ ((lawful_iff _ _ _).mp (by cbv)) 0

theorem packets_repeat :
    Stage.resting.follows (history environment (pair ++
      [establish 0 false, establish 1 false, report 0 false,
        report 1 true, join 2 0, leave 2]) 0) = none := by
  cbv

end Pccl.Master
