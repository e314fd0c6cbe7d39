import Pccl.Master.Phases

set_option autoImplicit false

namespace Pccl.Master

open Packet Program

inductive Progress where
  | connecting
  | waiting
  | failed
deriving DecidableEq, Repr

structure Standing where
  accepted : Bool
  progress : Option Progress
deriving DecidableEq, Repr

def Standing.outside : Standing := ⟨false, none⟩

structure Establishment where
  clients : Uuid → Option Standing
  told : Uuid → List RoundSignal
  peerDropped : Bool

namespace Establishment

variable (rounds : Establishment)

def change (step : Uuid → Standing → Standing) : Establishment :=
  { rounds with clients := fun uuid => (rounds.clients uuid).map (step uuid) }

def announce (meant : Standing → Bool) (signal : RoundSignal) : Establishment :=
  { rounds with
    told := fun uuid =>
      if (rounds.clients uuid).any meant then rounds.told uuid ++ [signal] else rounds.told uuid }

def inform : Establishment := rounds.announce (fun standing => standing.progress = some .connecting) .info

def drop : Establishment := { rounds with peerDropped := true }

def start (acceptNewPeers : Bool) : Establishment :=
  { rounds.change fun _ standing =>
      if acceptNewPeers || standing.accepted then { standing with progress := some .connecting }
      else standing with
    peerDropped := false }.inform

def first (client : Uuid) : Establishment :=
  (rounds.change fun uuid standing =>
    if uuid = client then ⟨true, some .connecting⟩ else standing).inform

def finish (failure : Bool) : Establishment :=
  { (rounds.change fun _ standing =>
      if standing.progress = some .waiting then ⟨true, if failure then some .failed else none⟩
      else standing).announce (fun standing => standing ≠ .outside) (.established !failure) with
    peerDropped := false }

/-- What clients do. A failed client that votes for the next round has left this one. -/
inductive Act where
  | rest
  | remind
  | join (uuid : Uuid)
  | retry (uuid : Uuid)
  | report (uuid : Uuid) (success : Bool)
  | leave (uuid : Uuid)

def setProgress (client : Uuid) (progress : Option Progress) : Establishment :=
  rounds.change fun uuid standing => if uuid = client then { standing with progress } else standing

def act : Act → Establishment
  | .rest => rounds
  | .remind => rounds.inform
  | .join uuid => { rounds with clients := Function.update rounds.clients uuid (some .outside) }
  | .retry uuid => rounds.setProgress uuid none
  | .report uuid success => rounds.setProgress uuid (some (if success then .waiting else .failed))
  | .leave uuid => { rounds with clients := Function.update rounds.clients uuid none }.drop

def Admits : Act → Prop
  | .join uuid => rounds.clients uuid = none ∧ rounds.told uuid = []
  | .retry uuid =>
    ∃ standing, rounds.clients uuid = some standing ∧ standing.accepted = true ∧
      (standing.progress = none ∨ standing.progress = some .failed)
  | .report uuid _ => ∃ accepted, rounds.clients uuid = some ⟨accepted, some .connecting⟩
  | .leave uuid => ∃ standing, rounds.clients uuid = some standing
  | _ => True

def Act.checks : Act → Bool
  -- The end of a round is only looked for after a report or a disconnect.
  | report _ _ | leave _ => true
  | _ => false

def All (condition : Standing → Prop) : Prop :=
  ∀ uuid standing, rounds.clients uuid = some standing → condition standing

def Any (condition : Standing → Prop) : Prop :=
  ∃ uuid standing, rounds.clients uuid = some standing ∧ condition standing

def Closable : Prop :=
  rounds.Any (fun standing => standing.progress = some .waiting ∨ standing.progress = some .failed) ∧
    rounds.All fun standing => standing.progress ≠ some .connecting

def Active : Prop := rounds.Any fun standing => standing.progress = some .connecting

def isConnecting (uuid : Uuid) : Bool :=
  (rounds.clients uuid).any fun standing => standing.progress = some .connecting

section Cases

variable {rounds} {uuid client : Uuid} {next : Standing}

theorem setProgress_cases {progress : Option Progress}
    (found : (rounds.setProgress client progress).clients uuid = some next) :
    ∃ standing, rounds.clients uuid = some standing ∧
      ((uuid = client ∧ next = { standing with progress }) ∨ (uuid ≠ client ∧ next = standing)) := by
  obtain ⟨standing, present, rfl⟩ := Option.map_eq_some_iff.mp found
  refine ⟨standing, present, ?_⟩
  by_cases same : uuid = client
  · exact Or.inl ⟨same, if_pos same⟩
  · exact Or.inr ⟨same, if_neg same⟩

theorem join_cases (found : (rounds.act (.join client)).clients uuid = some next) :
    (uuid = client ∧ next = .outside) ∨ (uuid ≠ client ∧ rounds.clients uuid = some next) := by
  change Function.update rounds.clients client _ uuid = _ at found
  rw [Function.update_apply] at found
  split at found
  · next same =>
    cases found
    exact Or.inl ⟨same, rfl⟩
  · next different => exact Or.inr ⟨different, found⟩

theorem leave_cases (found : (rounds.act (.leave client)).clients uuid = some next) :
    uuid ≠ client ∧ rounds.clients uuid = some next := by
  change Function.update rounds.clients client _ uuid = _ at found
  rw [Function.update_apply] at found
  split at found
  · cases found
  · next different => exact ⟨different, found⟩

theorem start_cases {acceptNewPeers : Bool}
    (found : (rounds.start acceptNewPeers).clients uuid = some next) :
    ∃ standing, rounds.clients uuid = some standing ∧
      (((acceptNewPeers = true ∨ standing.accepted = true) ∧
          next = { standing with progress := some .connecting }) ∨
        (acceptNewPeers = false ∧ standing.accepted = false ∧ next = standing)) := by
  obtain ⟨standing, present, rfl⟩ := Option.map_eq_some_iff.mp found
  refine ⟨standing, present, ?_⟩
  by_cases joins : (acceptNewPeers || standing.accepted) = true
  · exact Or.inl ⟨Bool.or_eq_true _ _ |>.mp joins, if_pos joins⟩
  · have stays := Bool.or_eq_false_iff.mp (Bool.eq_false_iff.mpr joins)
    exact Or.inr ⟨stays.1, stays.2, if_neg joins⟩

theorem finish_cases {failure : Bool} (found : (rounds.finish failure).clients uuid = some next) :
    ∃ standing, rounds.clients uuid = some standing ∧
      ((standing.progress = some .waiting ∧ next = ⟨true, if failure then some .failed else none⟩) ∨
        (standing.progress ≠ some .waiting ∧ next = standing)) := by
  obtain ⟨standing, present, rfl⟩ := Option.map_eq_some_iff.mp found
  refine ⟨standing, present, ?_⟩
  by_cases waits : standing.progress = some .waiting
  · exact Or.inl ⟨waits, if_pos waits⟩
  · exact Or.inr ⟨waits, if_neg waits⟩

theorem active_start {acceptNewPeers : Bool}
    (someone : rounds.Any fun standing => standing.accepted = true) :
    (rounds.start acceptNewPeers).Active := by
  obtain ⟨uuid, standing, found, accepted⟩ := someone
  refine ⟨uuid, { standing with progress := some .connecting }, ?_, rfl⟩
  change (rounds.clients uuid).map _ = _
  simp [found, accepted]

theorem isConnecting_leave (connecting : (rounds.act (.leave client)).isConnecting uuid = true) :
    rounds.isConnecting uuid = true := by
  obtain ⟨standing, found, connects⟩ := (Option.any_eq_true _ _).mp connecting
  exact (Option.any_eq_true _ _).mpr ⟨standing, (leave_cases found).2, connects⟩

theorem isConnecting_finish {failure : Bool}
    (connecting : (rounds.finish failure).isConnecting uuid = true) :
    rounds.isConnecting uuid = true := by
  obtain ⟨next, found, connects⟩ := (Option.any_eq_true _ _).mp connecting
  obtain ⟨standing, present, ⟨_, rfl⟩ | ⟨_, rfl⟩⟩ := finish_cases found
  · cases failure <;> simp at connects
  · exact (Option.any_eq_true _ _).mpr ⟨_, present, connects⟩

theorem told_announce (meant : Standing → Bool) (signal : RoundSignal) (uuid : Uuid) :
    (rounds.announce meant signal).told uuid = rounds.told uuid ++
      if (rounds.clients uuid).any meant then [signal] else [] := by
  simp only [announce]
  split <;> simp

theorem told_finish (failure : Bool) (uuid : Uuid) :
    (rounds.finish failure).told uuid = rounds.told uuid ++
      if ((rounds.finish failure).clients uuid).any (fun standing => standing ≠ .outside) then
        [.established !failure]
      else [] :=
  told_announce _ _ uuid

end Cases

structure Ends (failure : Bool) : Prop where
  closable : rounds.Closable
  ready : rounds.All fun standing =>
    standing = .outside ∨ standing.progress = some .waiting ∨ standing.progress = some .failed
  verdict : failure = true ↔
    rounds.Any (fun standing => standing.progress = some .failed) ∨ rounds.peerDropped = true

/-- How the master answers. A round that starts because somebody leaves is taken for one that somebody
has left. Where nobody has been accepted, the votes for both kinds of rounds count as unanimous. -/
inductive Turn (checks : Bool) (rounds : Establishment) : Establishment → Prop
  | rests (open_ : checks = true → ¬ rounds.Closable) : Turn checks rounds rounds
  | first (client : Uuid) (present : rounds.clients client = some .outside)
      (alone : ∀ uuid standing, rounds.clients uuid = some standing → uuid = client) :
    Turn checks rounds (rounds.first client)
  | starts (acceptNewPeers : Bool)
      (voted : rounds.All fun standing => standing.accepted = true → standing.progress = none)
      (someone : rounds.Any fun standing => standing.accepted = true) :
    Turn checks rounds { rounds.start acceptNewPeers with peerDropped := checks }
  | restarts (nobody : rounds.All fun standing => standing.accepted = false) :
    Turn checks rounds { (rounds.start true).start false with peerDropped := checks }
  | ends (failure : Bool) (checked : checks = true) (ends : rounds.Ends failure) :
    Turn checks rounds (rounds.finish failure)

end Establishment

def ConnectionState.progress? : ConnectionState → Option Progress
  | connectingToPeers => some .connecting
  | waitingForOtherPeers => some .waiting
  | connectingToPeersFailed => some .failed
  | _ => none

theorem ConnectionState.progress_iff (state : ConnectionState) :
    (state.progress? = some .connecting ↔ state = .connectingToPeers) ∧
      (state.progress? = some .waiting ↔ state = .waitingForOtherPeers) ∧
      (state.progress? = some .failed ↔ state = .connectingToPeersFailed) := by
  cases state <;> simp [progress?]

def ConnectionPhase.admitted : ConnectionPhase → Bool
  | registered => false
  | accepted => true

@[simp] theorem ConnectionPhase.admitted_iff (phase : ConnectionPhase) :
    phase.admitted = true ↔ phase = .accepted := by
  cases phase <;> simp [admitted]

def ClientInfo.standing (info : ClientInfo) : Standing :=
  ⟨info.connectionPhase.admitted, info.connectionState.progress?⟩

def Core.establishment (core : Core) : Establishment where
  clients uuid := (core.info uuid).map ClientInfo.standing
  told := core.rounds
  peerDropped := core.peerDropped

theorem ClientInfo.standing_outside_iff {info : ClientInfo} (sound : info.Sound) :
    info.standing = .outside ↔ info.waitsOutside = true := by
  have registered := sound.registered
  cases phase : info.connectionPhase <;> cases state : info.connectionState <;>
    simp_all [ClientInfo.standing, Standing.outside, ClientInfo.waitsOutside,
      ConnectionState.progress?, ConnectionState.inRound, ConnectionPhase.admitted]

namespace Action

def advance (action : Action) (uuid : Uuid) (standing : Standing) : Standing :=
  match action with
  | acceptFirst client => if uuid = client then ⟨true, some .connecting⟩ else standing
  | vote _ client _ => if uuid = client then { standing with progress := none } else standing
  | report client success =>
    if uuid = client then
      { standing with progress := some (if success then .waiting else .failed) }
    else standing
  | startRound acceptNewPeers =>
    if acceptNewPeers || standing.accepted then { standing with progress := some .connecting }
    else standing
  | endRound failure =>
    if standing.progress = some .waiting then ⟨true, if failure then some .failed else none⟩
    else standing
  | _ => standing

theorem Moves.standing {action : Action} {uuid : Uuid} {info next : ClientInfo}
    (moves : action.Moves uuid info next) : next.standing = action.advance uuid info.standing := by
  cases moves with
  | skip skips =>
    cases action with
    | acceptFirst | vote | report => exact (if_neg skips).symm
    | startRound => simp [advance, ClientInfo.standing, skips.1, skips.2, ConnectionPhase.admitted]
    | endRound =>
      rcases skips with ⟨_, idle⟩ | ⟨_, failed⟩
      · simp [advance, ClientInfo.standing, idle, ConnectionState.progress?]
      · simp [advance, ClientInfo.standing, failed, ConnectionState.progress?]
    | _ => rfl
  | acceptFirst => simp [advance, ClientInfo.standing, ConnectionState.progress?, ConnectionPhase.admitted]
  | @vote ballot =>
    cases ballot <;> simp [advance, ClientInfo.standing, ClientInfo.enter, Ballot.cast,
      ConnectionState.progress?]
  | @report _ success =>
    cases success <;> simp [advance, ClientInfo.standing, ClientInfo.enter, ConnectionState.progress?]
  | @startRound acceptNewPeers _ _ joins =>
    have joins : (acceptNewPeers || info.standing.accepted) = true := by
      simpa [ClientInfo.standing] using joins
    simp only [advance, joins, if_true]
    rfl
  | @endRound failure _ _ waits =>
    cases failure <;> simp [advance, ClientInfo.standing, waits, ConnectionState.progress?,
      ConnectionPhase.admitted]
  | initiate _ state =>
    rcases state with state | state <;>
      simp [advance, ClientInfo.standing, state, ClientInfo.enter, ClientInfo.setTag,
        ConnectionState.progress?]
  | startOptimization _ voted | endOptimization _ voted | endSync _ voted =>
    simp [advance, ClientInfo.standing, voted, ClientInfo.enter, ConnectionState.progress?]
  | startSync _ voted target =>
    rcases target with rfl | rfl <;>
      simp [advance, ClientInfo.standing, voted, ClientInfo.enter, ConnectionState.progress?]
  | finish _ runs =>
    simp only [advance, ClientInfo.standing, runs, ClientInfo.eraseTag]
    split <;> rfl
  | query | complete | resetQuery | commence => rfl

end Action

namespace Core

variable {environment : Environment} {core next : Core}

theorem establishment_clients {action : Action} (plain : action.plain) (enabled : core.enabled action)
    (uuid : Uuid) :
    (core.apply environment action).establishment.clients uuid =
      (core.establishment.clients uuid).map (action.advance uuid) := by
  change ((core.apply environment action).info uuid).map _ = ((core.info uuid).map _).map _
  cases found : core.info uuid with
  | none => rw [info_apply action plain, found]; rfl
  | some info =>
    obtain ⟨next, present, moves⟩ := @moves_on core environment action plain enabled uuid info found
    rw [present]
    exact congrArg some moves.standing

theorem establishment_announce (core : Core) (meant : ClientInfo → Bool) (seen : Standing → Bool)
    (signal : RoundSignal)
    (same : ∀ uuid info, core.info uuid = some info → meant info = seen info.standing) :
    (core.announce meant signal).establishment = core.establishment.announce seen signal := by
  have told (uuid : Uuid) : (core.info uuid).any meant = (core.establishment.clients uuid).any seen := by
    change _ = ((core.info uuid).map ClientInfo.standing).any seen
    cases found : core.info uuid with
    | none => rfl
    | some info => exact same uuid info found
  simp only [Core.announce, Core.establishment, Establishment.announce, Establishment.mk.injEq,
    and_true]
  refine ⟨rfl, funext fun uuid => ?_⟩
  rw [told uuid]
  rfl

theorem establishment_inform (core : Core) :
    core.inform.establishment = core.establishment.inform := by
  refine establishment_announce core _ _ .info fun uuid info _ => ?_
  cases state : info.connectionState <;> simp [ClientInfo.standing, state, ConnectionState.progress?]

theorem establishment_silent {action : Action} (plain : action.plain) (enabled : core.enabled action)
    (still : ∀ uuid standing, action.advance uuid standing = standing)
    (rounds : (core.apply environment action).rounds = core.rounds)
    (dropped : (core.apply environment action).peerDropped = core.peerDropped) :
    (core.apply environment action).establishment = core.establishment := by
  have clients : (core.apply environment action).establishment.clients =
      core.establishment.clients := by
    funext uuid
    rw [establishment_clients plain enabled, funext (still uuid)]
    exact Option.map_id'
  simp only [Core.establishment, Establishment.mk.injEq] at clients ⊢
  exact ⟨clients, rounds, dropped⟩

theorem Reaches.establishment (calm : core.Calm environment next) (valid : core.Valid environment) :
    next.establishment = core.establishment := by
  refine (calm.keeps (fun middle => middle.establishment = core.establishment)
    (fun middle action is between enabled holds => ?_) valid rfl).2
  rw [← holds]
  have plain : action.plain := by cases action <;> first | rfl | cases is
  refine establishment_silent plain enabled ?_ ?_ ?_
  · intro uuid standing
    cases action <;> first | rfl | cases is
  · cases action with
    | abort | finish =>
      simp only [Core.apply]
      split <;> rfl
    | _ => first | rfl | cases is
  · cases action with
    | abort | finish =>
      simp only [Core.apply]
      split <;> rfl
    | _ => first | rfl | cases is

theorem establishment_startRound {acceptNewPeers : Bool}
    (enabled : core.enabled (.startRound acceptNewPeers)) :
    (core.apply environment (.startRound acceptNewPeers)).establishment =
      core.establishment.start acceptNewPeers := by
  refine (establishment_inform _).trans (congrArg Establishment.inform ?_)
  simp only [Core.establishment, Establishment.change, Establishment.mk.injEq, and_true]
  exact ⟨funext (@establishment_clients environment core (.startRound acceptNewPeers) rfl enabled), rfl⟩

theorem establishment_acceptFirst {client : Uuid} (enabled : core.enabled (.acceptFirst client)) :
    (core.apply environment (.acceptFirst client)).establishment = core.establishment.first client := by
  refine (establishment_inform _).trans (congrArg Establishment.inform ?_)
  simp only [Core.establishment, Establishment.change, Establishment.mk.injEq]
  exact ⟨funext (@establishment_clients environment core (.acceptFirst client) rfl enabled), rfl, rfl⟩

theorem establishment_endRound {failure : Bool} (valid : core.Valid environment)
    (enabled : core.enabled (.endRound failure)) :
    (core.apply environment (.endRound failure)).establishment = core.establishment.finish failure := by
  have clients := funext (@establishment_clients environment core (.endRound failure) rfl enabled)
  have announced := establishment_announce (core.move (.endRound failure))
    (fun info => !info.waitsOutside) (fun standing => standing ≠ .outside) (.established !failure)
    fun uuid info found => by
      have sound := (valid.apply enabled).states.sound uuid info found
      rw [Bool.eq_iff_iff]
      simp [ClientInfo.standing_outside_iff sound]
  have moved : (core.move (.endRound failure)).establishment =
      core.establishment.change fun _ standing =>
        if standing.progress = some .waiting then ⟨true, if failure then some .failed else none⟩
        else standing := by
    simp only [Core.establishment, Establishment.change, Establishment.mk.injEq]
    exact ⟨clients, rfl, rfl⟩
  rw [moved] at announced
  exact congrArg (fun rounds : Establishment => { rounds with peerDropped := false }) announced

theorem establishment_setProgress {action : Action} {client : Uuid} {progress : Option Progress}
    (plain : action.plain) (enabled : core.enabled action)
    (advances : ∀ uuid standing, action.advance uuid standing =
      if uuid = client then { standing with progress } else standing)
    (rounds : (core.apply environment action).rounds = core.rounds)
    (dropped : (core.apply environment action).peerDropped = core.peerDropped) :
    (core.apply environment action).establishment = core.establishment.setProgress client progress := by
  have clients := funext (@establishment_clients environment core action plain enabled)
  simp only [Core.establishment, Establishment.setProgress, Establishment.change,
    Establishment.mk.injEq] at clients ⊢
  refine ⟨clients.trans (funext fun uuid => ?_), rounds, dropped⟩
  rw [funext (advances uuid)]

theorem establishment_register (registry : Registry environment core) (address : SocketAddress)
    (ports : ClientVariablePorts) (group : Group) :
    (core.register environment address ports group).establishment =
      core.establishment.act (.join (environment.generateUuid core.generated)) := by
  simp only [Core.establishment, Establishment.act, Establishment.mk.injEq]
  refine ⟨funext fun uuid => ?_, rfl, rfl⟩
  by_cases fresh : uuid = environment.generateUuid core.generated
  · have found := (info_register registry address ports group uuid _).mpr (Or.inl ⟨fresh, rfl⟩)
    rw [found, fresh, Function.update_self]
    rfl
  · rw [Function.update_of_ne fresh]
    refine congrArg (Option.map ClientInfo.standing) (Option.ext fun info => ?_)
    rw [info_register registry]
    simp [fresh]

theorem establishment_leave (address : SocketAddress) (uuid : Uuid) :
    ((core.leave address uuid).apply environment .drop).establishment =
      core.establishment.act (.leave uuid) := by
  have clients (other : Uuid) : (core.leave address uuid).info other =
      Function.update core.info uuid none other := by
    refine Option.ext fun info => ?_
    rw [info_leave, Function.update_apply]
    split <;> simp_all
  simp only [Core.establishment, Establishment.act, Establishment.drop, Establishment.mk.injEq]
  refine ⟨funext fun other => ?_, rfl, rfl⟩
  change ((core.leave address uuid).info other).map _ = _
  rw [clients other, Function.update_apply, Function.update_apply]
  split <;> rfl

theorem establishment_any (condition : Standing → Prop) :
    core.establishment.Any condition ↔ ∃ uuid, core.Has uuid fun info => condition info.standing := by
  simp only [Establishment.Any, Core.establishment, Option.map_eq_some_iff]
  constructor
  · rintro ⟨uuid, _, ⟨info, found, rfl⟩, holds⟩
    exact ⟨uuid, info, found, holds⟩
  · rintro ⟨uuid, info, found, holds⟩
    exact ⟨uuid, _, ⟨info, found, rfl⟩, holds⟩

theorem establishment_all (condition : Standing → Prop) :
    core.establishment.All condition ↔ core.All fun info => condition info.standing := by
  simp only [Establishment.All, Core.establishment, Option.map_eq_some_iff]
  constructor
  · exact fun all uuid info found => all uuid _ ⟨info, found, rfl⟩
  · rintro all uuid _ ⟨info, found, rfl⟩
    exact all uuid info found

theorem establishment_closable : core.establishment.Closable ↔ core.Closable := by
  simp only [Establishment.Closable, establishment_any, establishment_all, Core.Closable,
    ClientInfo.standing, ConnectionState.progress_iff, ne_eq]

theorem fails_iff :
    core.fails = true ↔ core.establishment.Any (fun standing => standing.progress = some .failed) ∨
      core.establishment.peerDropped = true := by
  rw [fails, Bool.or_eq_true, any_infos, establishment_any]
  simp only [ClientInfo.standing, ConnectionState.progress_iff, decide_eq_true_eq]
  exact Iff.rfl

theorem Establishes.establishment (establishes : core.Establishes environment next) :
    next = core ∨
      (∃ acceptNewPeers,
        core.establishment.All (fun standing => standing.accepted = true → standing.progress = none) ∧
        core.establishment.Any (fun standing => standing.accepted = true) ∧
        next.establishment = core.establishment.start acceptNewPeers) ∨
      (core.establishment.All (fun standing => standing.accepted = false) ∧
        next.establishment = (core.establishment.start true).start false) := by
  obtain ⟨middle, first, second⟩ := establishes
  have voted (acceptNewPeers : Bool) (enabled : core.enabled (.startRound acceptNewPeers)) :
      core.establishment.All fun standing => standing.accepted = true → standing.progress = none := by
    refine (establishment_all _).mpr fun uuid info found accepted => ?_
    have state := enabled uuid info found (info.connectionPhase.admitted_iff.mp accepted)
    cases acceptNewPeers <;> simp [ClientInfo.standing, state, roundBallot, Ballot.cast,
      ConnectionState.progress?]
  by_cases someone : core.establishment.Any fun standing => standing.accepted = true
  · rcases first with ⟨enabled, rfl⟩ | ⟨_, rfl⟩
    · -- Whoever was accepted is connecting now and has not voted for another round.
      refine Or.inr (Or.inl ⟨true, voted true enabled, someone, ?_⟩)
      rcases second with ⟨again, _⟩ | ⟨_, rfl⟩
      · obtain ⟨uuid, info, found, accepted⟩ := (establishment_any _).mp someone
        obtain ⟨moved, present, moves⟩ :=
          @moves_on core environment (.startRound true) rfl enabled uuid info found
        have state := again uuid moved present (moves.accepted_after
          (info.connectionPhase.admitted_iff.mp accepted))
        have standing := congrArg Standing.progress moves.standing
        simp [ClientInfo.standing, state, Action.advance, roundBallot, Ballot.cast,
          ConnectionState.progress?] at standing
      · exact establishment_startRound enabled
    · rcases second with ⟨enabled, rfl⟩ | ⟨_, rfl⟩
      · exact Or.inr (Or.inl ⟨false, voted false enabled, someone, establishment_startRound enabled⟩)
      · exact Or.inl rfl
  · have nobody : core.All fun info => info.connectionPhase ≠ .accepted := fun uuid info found accepted =>
      someone ((establishment_any _).mpr ⟨uuid, info, found, info.connectionPhase.admitted_iff.mpr accepted⟩)
    have early : core.enabled (.startRound true) := fun uuid info found accepted =>
      absurd accepted (nobody uuid info found)
    have late : (core.apply environment (.startRound true)).enabled (.startRound false) := by
      intro uuid info found accepted
      obtain ⟨before, present, moves⟩ := moved rfl early found
      rcases moves.accepted_before accepted with was | ⟨_, _, ends⟩ | first
      · exact absurd was (nobody uuid before present)
      · cases ends
      · cases first
    rcases first with ⟨_, rfl⟩ | ⟨closed, _⟩
    · rcases second with ⟨_, rfl⟩ | ⟨closed, _⟩
      · refine Or.inr (Or.inr ⟨(establishment_all _).mpr fun uuid info found => ?_, ?_⟩)
        · exact Bool.eq_false_iff.mpr fun accepted =>
            nobody uuid info found (info.connectionPhase.admitted_iff.mp accepted)
        · rw [establishment_startRound late, establishment_startRound early]
      · exact absurd late closed
    · exact absurd early closed

theorem Establishes.same (establishes : core.Establishes environment next)
    (closed : ∀ acceptNewPeers, ¬ core.enabled (.startRound acceptNewPeers)) : next = core := by
  obtain ⟨middle, ⟨enabled, _⟩ | ⟨_, rfl⟩, ⟨late, _⟩ | ⟨_, rfl⟩⟩ := establishes
  · exact absurd enabled (closed true)
  · exact absurd enabled (closed true)
  · exact absurd late (closed false)
  · rfl

theorem Closes.turn (valid : core.Valid environment) (closes : core.Closes environment next) :
    core.establishment.Turn true next.establishment := by
  rcases closes with ⟨closable, enabled, rfl⟩ | ⟨open_, rfl⟩
  · rw [establishment_endRound valid enabled]
    refine .ends core.fails rfl ⟨establishment_closable.mpr closable, ?_, fails_iff⟩
    refine (establishment_all _).mpr fun uuid info found => ?_
    obtain ⟨moved, ends⟩ := Option.isSome_iff_exists.mp (enabled.1 uuid info found)
    rw [ClientInfo.standing_outside_iff (valid.states.sound uuid info found)]
    rcases ClientInfo.endRound_cases ends with ⟨registered, idle, _⟩ | ⟨waiting, _⟩ | ⟨_, failed, _⟩
    · exact Or.inl (by simp [ClientInfo.waitsOutside, registered, idle])
    · exact Or.inr (Or.inl ((ConnectionState.progress_iff _).2.1.mpr waiting))
    · exact Or.inr (Or.inr ((ConnectionState.progress_iff _).2.2.mpr failed))
  · exact .rests fun _ closable => open_ (establishment_closable.mp closable)

end Core

theorem Core.Closes.isConnecting {environment : Environment} {core next : Core} {uuid : Uuid}
    (closes : core.Closes environment next) (valid : core.Valid environment)
    (connecting : next.establishment.isConnecting uuid) : core.establishment.isConnecting uuid := by
  rcases closes with ⟨_, enabled, rfl⟩ | ⟨_, rfl⟩
  · rw [establishment_endRound valid enabled] at connecting
    exact Establishment.isConnecting_finish connecting
  · exact connecting

def Action.mayClose : Action → Bool
  | report _ _ | leave _ _ => true
  | _ => false

/-- What an event is to the rounds. A report that the master does not count changes nothing. -/
def Core.Does (environment : Environment) (event : Event) (core next : Core) :
    Establishment.Act → Prop
  | .rest => ∀ action, event.action? core = some action → action.mayClose = true → next = core
  | .remind => event.action? core = some .refuse ∧ core.clients.clientUuids.size = 1
  | .join uuid =>
    (uuid = environment.generateUuid core.generated ∧
        ∃ address ports group, event.action? core = some (.register address ports group)) ∧
      (core.establishment.Any (fun _ => True) ∨
        next.establishment = (core.establishment.act (.join uuid)).first uuid)
  | .retry uuid =>
    ∃ ballot strategy, event.action? core = some (.vote ballot uuid strategy) ∧
      core.enabled (.vote ballot uuid strategy)
  | .report uuid success =>
    event.action? core = some (.report uuid success) ∧ core.enabled (.report uuid success)
  | .leave uuid =>
    ∃ address, event.action? core = some (.leave address uuid) ∧ core.enabled (.leave address uuid) ∧
      ((∀ acceptNewPeers, ¬ (core.leave address uuid).enabled (.startRound acceptNewPeers)) →
        ∀ client, next.establishment.isConnecting client → core.establishment.isConnecting client)

theorem Core.Does.admits {environment : Environment} {event : Event} {core next : Core}
    {act : Establishment.Act} (does : core.Does environment event next act)
    (valid : core.Valid environment) : core.establishment.Admits act := by
  cases act with
  | rest | remind => trivial
  | join uuid =>
    obtain ⟨⟨rfl, _⟩, _⟩ := does
    have unused := valid.registry.unused
    exact ⟨congrArg (Option.map ClientInfo.standing) unused.1, unused.2.2⟩
  | retry uuid =>
    obtain ⟨ballot, _, _, ⟨info, found, accepted, admitted⟩, _⟩ := does
    refine ⟨info.standing, congrArg (Option.map ClientInfo.standing) found,
      info.connectionPhase.admitted_iff.mpr accepted, ?_⟩
    change info.connectionState.progress? = none ∨ _
    cases ballot <;> cases state : info.connectionState <;>
      simp_all [Ballot.admits, ConnectionState.progress?, ClientInfo.standing]
  | report uuid success =>
    obtain ⟨_, info, found, connecting⟩ := does
    refine ⟨info.connectionPhase.admitted, ?_⟩
    change (core.info uuid).map _ = _
    simp [found, ClientInfo.standing, connecting, ConnectionState.progress?]
  | leave uuid =>
    obtain ⟨address, _, known, _⟩ := does
    obtain ⟨info, found, _⟩ := valid.registry.info_of address uuid known
    exact ⟨info.standing, congrArg (Option.map ClientInfo.standing) found⟩

namespace Core

variable {environment : Environment} {core next : Core} {event : Event}

theorem somebody_of_more (registry : Registry environment core) {address : SocketAddress}
    (ports : ClientVariablePorts) (group : Group) (free : address ∉ core.clients.clientUuids)
    (more : (core.register environment address ports group).clients.clientUuids.size ≠ 1) :
    core.establishment.Any fun _ => True := by
  have size : (core.register environment address ports group).clients.clientUuids.size =
      core.clients.clientUuids.size + 1 := Table.size_insert _ _ _ free
  have nonempty : core.clients.clientInfo.entries ≠ [] := by
    intro empty
    have zero : core.clients.clientInfo.size = 0 := by rw [Table.size, empty]; rfl
    rw [size, registry.sized, zero] at more
    exact more rfl
  obtain ⟨entry, present⟩ := List.exists_mem_of_ne_nil _ nonempty
  exact (establishment_any _).mpr ⟨entry.1, entry.2, Table.lookup_iff_mem.mpr present, trivial⟩

/-- A round that has just started is not over. -/
theorem Closes.continues {closed : Core} (closes : (core.apply environment .drop).Closes environment closed)
    {rounds : Establishment} (at_ : core.establishment = rounds)
    (busy : (∃ uuid standing, rounds.clients uuid = some standing) → rounds.Active) :
    closed.establishment = rounds.drop := by
  have dropped : (core.apply environment .drop).establishment = rounds.drop :=
    congrArg Establishment.drop at_
  rcases closes with ⟨closable, _⟩ | ⟨_, rfl⟩
  · rw [← establishment_closable, dropped] at closable
    obtain ⟨⟨uuid, standing, found, _⟩, idle⟩ := closable
    obtain ⟨client, other, present, connecting⟩ := busy ⟨uuid, standing, found⟩
    exact absurd connecting (idle client other present)
  · exact dropped

theorem Establishes.turn {middle closed : Core} (valid : core.Valid environment)
    (establishes : core.Establishes environment middle)
    (closes : (middle.apply environment .drop).Closes environment closed) :
    (core.apply environment .drop).establishment.Turn true closed.establishment := by
  have still : middle.enabled .drop := trivial
  rcases establishes.establishment with rfl | ⟨acceptNewPeers, voted, someone, starts⟩ | ⟨nobody, starts⟩
  · exact closes.turn (valid.apply still)
  · rw [closes.continues starts fun _ => Establishment.active_start someone]
    exact .starts acceptNewPeers voted someone
  · rw [closes.continues starts]
    · exact .restarts nobody
    · rintro ⟨client, standing, found⟩
      refine ⟨client, standing, found, ?_⟩
      obtain ⟨middle, present, rfl⟩ := Option.map_eq_some_iff.mp found
      obtain ⟨first, _, rfl⟩ := Option.map_eq_some_iff.mp present
      simp

theorem Served.turn (valid : core.Valid environment)
    (served : Core.Served environment event core next) :
    ∃ act, core.Does environment event next act ∧
      (core.establishment.act act).Turn act.checks next.establishment := by
  rcases served with rfl | ⟨action, asked, enabled, follows, _⟩
  · exact ⟨.rest, fun _ _ _ => rfl, .rests fun checks => by cases checks⟩
  have acted : (core.apply environment action).Valid environment := valid.apply enabled
  have opens {rounds : Establishment} (at_ : (core.apply environment action).establishment = rounds)
      (establishes : (core.apply environment action).Establishes environment next) :
      rounds.Turn false next.establishment := by
    subst at_
    rcases establishes.establishment with rfl | ⟨_, voted, someone, starts⟩ | ⟨nobody, starts⟩
    · exact .rests (by simp)
    · exact starts ▸ .starts _ voted someone
    · exact starts ▸ .restarts nobody
  have calmly {rounds : Establishment}
      (at_ : (core.apply environment action).establishment = rounds)
      (calm : (core.apply environment action).Calm environment next) :
      rounds.Turn false next.establishment := by
    rw [calm.establishment acted, at_]
    exact .rests (by simp)
  have unseen (still : ∀ uuid standing, action.advance uuid standing = standing) (plain : action.plain)
      (rounds : (core.apply environment action).rounds = core.rounds)
      (dropped : (core.apply environment action).peerDropped = core.peerDropped)
      (other : action.mayClose = false)
      (calm : (core.apply environment action).Calm environment next) :
      ∃ act, core.Does environment event next act ∧
        (core.establishment.act act).Turn act.checks next.establishment := by
    refine ⟨.rest, fun requested is closes => ?_, calmly
      (establishment_silent plain enabled still rounds dropped) calm⟩
    cases asked.symm.trans is
    exact absurd (other.symm.trans closes) Bool.false_ne_true
  cases action with
  | refuse =>
    by_cases alone : core.clients.clientUuids.size = 1
    · have reminded : (core.apply environment .refuse).establishment =
          core.establishment.act .remind := by
        simp only [Core.apply, alone, if_true]
        exact establishment_inform _
      have same : next = core.apply environment .refuse := by
        simpa [FollowsUp, Core.apply, alone, Core.inform, Core.announce] using follows
      exact ⟨.remind, ⟨asked, alone⟩, same ▸ reminded ▸ .rests fun checks => by cases checks⟩
    · have same : (core.apply environment .refuse).establishment = core.establishment := by
        simp only [Core.apply, alone, if_false]
        rfl
      have establishes : (core.apply environment .refuse).Establishes environment next := by
        simpa [FollowsUp, Core.apply, alone] using follows
      refine ⟨.rest, fun _ is closes => ?_, opens same establishes⟩
      cases asked.symm.trans is
      cases closes
  | register address ports group =>
    have joined := establishment_register valid.registry address ports group
    by_cases alone : (core.apply environment (.register address ports group)).clients.clientUuids.size = 1
    · rw [FollowsUp, if_pos alone] at follows
      obtain ⟨client, first, rfl⟩ := follows
      have found := (info_register valid.registry address ports group
        (environment.generateUuid core.generated) _).mpr (Or.inl ⟨rfl, rfl⟩)
      obtain rfl := acted.registry.eq_of_acceptFirst first found
      have reached := @establishment_acceptFirst environment _ _ first
      refine ⟨.join _, ⟨⟨rfl, address, ports, group, asked⟩, Or.inr (joined ▸ reached)⟩, ?_⟩
      rw [reached, ← joined]
      refine .first _ ((congrArg (Option.map ClientInfo.standing) found).trans rfl) ?_
      intro uuid standing present
      obtain ⟨other, known, _⟩ := Option.map_eq_some_iff.mp present
      exact acted.registry.eq_of_acceptFirst first known
    · rw [FollowsUp, if_neg alone] at follows
      exact ⟨.join _, ⟨⟨rfl, address, ports, group, asked⟩,
        Or.inl (somebody_of_more valid.registry ports group enabled alone)⟩, opens joined follows⟩
  | vote ballot uuid strategy =>
    have voted := @establishment_setProgress environment core (.vote ballot uuid strategy) uuid none rfl
      enabled (fun _ _ => rfl) rfl rfl
    refine ⟨.retry uuid, ⟨ballot, strategy, asked, enabled⟩, ?_⟩
    cases ballot with
    | acceptNewPeers | establishP2PConnections => exact opens voted follows
    | _ => exact calmly voted follows
  | report uuid success =>
    refine ⟨.report uuid success, ⟨asked, enabled⟩, ?_⟩
    have reported := @establishment_setProgress environment core (.report uuid success) uuid
      (some (if success then .waiting else .failed)) rfl enabled (fun _ _ => rfl) rfl rfl
    have closes : (core.apply environment (.report uuid success)).Closes environment next := follows
    change (core.establishment.setProgress _ _).Turn true _
    exact reported ▸ closes.turn acted
  | leave address uuid =>
    obtain ⟨middle, closed, establishes, closes, calm⟩ := follows
    have left := @establishment_leave environment core address uuid
    have still : middle.enabled .drop := trivial
    have between : (middle.apply environment .drop).Valid environment :=
      (establishes.answers.valid acted).apply still
    have later := calm.establishment (closes.answers.valid between)
    refine ⟨.leave uuid, ⟨address, asked, enabled, fun quiet client connecting => ?_⟩, ?_⟩
    · obtain rfl := establishes.same quiet
      rw [later] at connecting
      exact Establishment.isConnecting_leave (left ▸ closes.isConnecting between connecting)
    rw [later, ← left]
    exact establishes.turn acted closes
  | query | initiate | complete => exact unseen (fun _ _ => rfl) rfl rfl rfl rfl follows
  | _ => cases event.not_answers asked

end Core

end Pccl.Master
