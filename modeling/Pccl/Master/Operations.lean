import Pccl.Master.Enrolment
import Pccl.Master.Phases

set_option autoImplicit false

namespace Pccl.Master

open Packet Program

def ClientInfo.busy (tag : Tag) (info : ClientInfo) : Bool :=
  (Phase.operation info.peerGroup tag).takes info

namespace Action

def tells : Action → Bool
  | commence _ _ | abort _ _ | finish _ _ => true
  | _ => false

theorem Moves.busy {action : Action} {uuid : Uuid} {info next : ClientInfo}
    (moves : action.Moves uuid info next) (sound : info.Sound) (quiet : action.tells = false)
    (tag : Tag) : next.busy tag = info.busy tag := by
  have group : next.peerGroup = info.peerGroup := moves.keeps.2.2
  have within (client : ClientInfo) (accepted : client.connectionPhase = .accepted)
      (same : client.peerGroup = info.peerGroup) :
      (Phase.operation info.peerGroup tag).scope client :=
    Phase.scope_iff.mpr ⟨accepted, by simp [Phase.concerns, same]⟩
  rw [ClientInfo.busy, ClientInfo.busy, group, Bool.eq_iff_iff]
  constructor
  · intro takes
    have accepted := (Phase.state_of_takes (moves.sound sound) takes).1
    refine (moves.takes_before (within next accepted group) takes).resolve_right ?_
    rintro rfl
    cases quiet
  · intro takes
    have accepted := (Phase.state_of_takes sound takes).1
    refine (moves.takes_after sound (within info accepted rfl) takes).resolve_right ?_
    rintro rfl
    cases quiet

end Action

namespace ClientInfo

variable (info : ClientInfo) (tag other : Tag)

theorem busy_perform : (info.setTag tag .perform).busy other = (other = tag || info.busy other) := by
  by_cases same : other = tag <;>
    simp [busy, Phase.takes, setTag, Table.lookup_insert_iff, same]

theorem busy_eraseTag : (info.eraseTag tag).busy other = (other ≠ tag && info.busy other) := by
  by_cases same : other = tag <;>
    simp [busy, Phase.takes, eraseTag, Table.lookup_erase_iff, same]

variable {info tag} in
theorem Sound.takesPart_of_busy (sound : info.Sound) (busy : info.busy tag) :
    info.takesPart info.peerGroup :=
  (info.takesPart_iff _).mpr ⟨(Phase.state_of_takes sound busy).1, rfl⟩

end ClientInfo

def pastSignals (operations : List (Nat × Bool)) : List Signal :=
  operations.flatMap fun operation => [.commence operation.1, .abort operation.2, .complete]

def begun (number : Nat) (aborted : Bool) : List Signal :=
  .commence number :: if aborted then [.abort true] else []

def Settled (decided : Nat → Option Bool) (log : List Signal) : Prop :=
  ∃ operations, (∀ operation ∈ operations, decided operation.1 = some operation.2) ∧
    log = pastSignals operations

namespace Settled

variable {decided : Nat → Option Bool} {log : List Signal}

theorem nil : Settled decided [] := ⟨[], nofun, rfl⟩

theorem concat (settled : Settled decided log) {number : Nat} {aborted : Bool}
    (verdict : decided number = some aborted) :
    Settled decided (log ++ [.commence number, .abort aborted, .complete]) := by
  obtain ⟨operations, decisions, rfl⟩ := settled
  refine ⟨operations ++ [(number, aborted)], fun operation present => ?_, by simp [pastSignals]⟩
  rcases List.mem_append.mp present with present | present
  · exact decisions operation present
  · cases List.mem_singleton.mp present
    exact verdict

theorem mono (settled : Settled decided log) {later : Nat → Option Bool}
    (keeps : ∀ number, decided number ≠ none → later number = decided number) : Settled later log := by
  obtain ⟨operations, decisions, rfl⟩ := settled
  refine ⟨operations, fun operation present => ?_, rfl⟩
  have verdict := decisions operation present
  rw [keeps operation.1 (by simp [verdict]), verdict]

theorem between (settled : Settled decided log) {rest : List Signal} (open_ : .complete ∉ rest)
    {before middle after : List Signal} {number : Nat}
    (split : log ++ rest = before ++ .commence number :: middle ++ .complete :: after)
    (first : .complete ∉ middle) :
    ∃ aborted, decided number = some aborted ∧ middle = [.abort aborted] := by
  obtain ⟨operations, decisions, rfl⟩ := settled
  induction operations generalizing before with
  | nil =>
    refine absurd ?_ open_
    rw [show rest = before ++ .commence number :: middle ++ .complete :: after from split]
    simp
  | cons operation operations ih =>
    have verdict := decisions operation (by simp)
    simp only [pastSignals, List.flatMap_cons, List.cons_append, List.nil_append, List.append_assoc] at split
    -- The first operation is the one that is looked for, or the split is further back.
    rcases before with _ | ⟨_, _ | ⟨_, _ | ⟨_, before⟩⟩⟩ <;>
      simp only [List.nil_append, List.cons_append, List.cons.injEq, reduceCtorEq, false_and, and_false]
        at split
    · obtain ⟨same, split⟩ := split
      cases same
      rcases middle with _ | ⟨_, _ | ⟨_, middle⟩⟩ <;>
        simp only [List.nil_append, List.cons_append, List.cons.injEq, reduceCtorEq, false_and] at split
      · exact ⟨operation.2, verdict, by rw [← split.1]⟩
      · rw [← split.2.1] at first
        simp at first
    · refine @ih before (fun other present => decisions other (List.mem_cons_of_mem _ present)) ?_
      simpa [pastSignals] using split.2.2.2

end Settled

theorem complete_notMem_begun (number : Nat) (aborted : Bool) : .complete ∉ begun number aborted := by
  cases aborted <;> simp [begun]

namespace Core

variable {core next : Core} {environment : Environment} {decided : Nat → Option Bool}
  {current : Group → Tag → Nat}

/-- The numbers of the operations: those that are over have a verdict, and no two groups or tags perform
the same one. -/
structure Numbering (core : Core) (decided : Nat → Option Bool) (current : Group → Tag → Nat) : Prop where
  running : ∀ uuid info tag, core.info uuid = some info → info.busy tag →
    decided (current info.peerGroup tag) = none ∧
      current info.peerGroup tag ≤ core.collective.sequenceNumber
  apart : ∀ uuid info tag other value label, core.info uuid = some info → info.busy tag →
    core.info other = some value → value.busy label →
    current info.peerGroup tag = current value.peerGroup label →
    info.peerGroup = value.peerGroup ∧ tag = label
  numbered : ∀ number, decided number ≠ none → number ≤ core.collective.sequenceNumber

/-- The books of the operations: the verdicts on those that are over, and which one a group performs
with a tag. -/
structure Ledger (core : Core) (decided : Nat → Option Bool) (current : Group → Tag → Nat) : Prop
    extends Numbering core decided current where
  idle : ∀ uuid info tag, core.info uuid = some info → info.busy tag = false →
    Settled decided (core.log uuid tag)
  busy : ∀ uuid info tag, core.info uuid = some info → info.busy tag →
    ∃ log, Settled decided log ∧ core.log uuid tag =
      log ++ begun (current info.peerGroup tag) (core.collective.abortStates info.peerGroup tag)
  gone : ∀ uuid tag, core.info uuid = none →
    ∃ log rest, Settled decided log ∧ .complete ∉ rest ∧ core.log uuid tag = log ++ rest
  flagged : ∀ group tag, core.collective.abortStates group tag →
    ∃ uuid, core.Has uuid fun info => info.peerGroup = group ∧ info.busy tag

theorem info_initial (uuid : Uuid) : Core.initial.info uuid = none := by
  simp [Core.initial, MasterState.core, MasterState.initial, Core.info]

theorem Numbering.initial : Core.initial.Numbering (fun _ => none) fun _ _ => 0 := by
  refine ⟨?_, ?_, fun number known => absurd rfl known⟩ <;>
    intro uuid info tag <;>
    simp [info_initial]

theorem Ledger.initial : Core.initial.Ledger (fun _ => none) fun _ _ => 0 := by
  refine ⟨.initial, ?_, ?_, fun uuid tag _ => ⟨[], [], .nil, by simp, rfl⟩, fun group tag flag => ?_⟩
  · intro uuid info tag
    simp [info_initial]
  · intro uuid info tag
    simp [info_initial]
  · cases flag

theorem Numbering.changed (numbering : core.Numbering decided current)
    (earlier : ∀ uuid info tag, next.info uuid = some info → info.busy tag →
      ∃ before, core.info uuid = some before ∧ info.peerGroup = before.peerGroup ∧ before.busy tag)
    (collective : next.collective = core.collective) : next.Numbering decided current := by
  refine ⟨fun uuid info tag found busy => ?_,
    fun uuid info tag other value label found busy there active => ?_,
    ?_⟩
  · obtain ⟨before, present, group, was⟩ := earlier uuid info tag found busy
    rw [collective, group]
    exact numbering.running uuid before tag present was
  · obtain ⟨before, present, group, was⟩ := earlier uuid info tag found busy
    obtain ⟨former, known, place, took⟩ := earlier other value label there active
    rw [group, place]
    exact numbering.apart uuid before tag other former label present was known took
  · rw [collective]
    exact numbering.numbered

theorem untold_apply {action : Action} (quiet : action.tells = false) :
    (core.apply environment action).log = core.log ∧
      (core.apply environment action).collective = core.collective := by
  cases action with
  | commence | abort | finish => cases quiet
  | refuse =>
    simp only [apply]
    split <;> exact ⟨rfl, rfl⟩
  | _ => exact ⟨rfl, rfl⟩

namespace Ledger

variable (ledger : core.Ledger decided current)
include ledger

theorem log_eq (uuid : Uuid) (tag : Tag) :
    ∃ log rest, Settled decided log ∧ .complete ∉ rest ∧ core.log uuid tag = log ++ rest := by
  cases found : core.info uuid with
  | none => exact ledger.gone uuid tag found
  | some info =>
    cases busy : info.busy tag with
    | false => exact ⟨_, [], ledger.idle uuid info tag found busy, by simp, by simp⟩
    | true =>
      obtain ⟨log, settled, told⟩ := ledger.busy uuid info tag found busy
      exact ⟨log, _, settled, complete_notMem_begun _ _, told⟩

theorem changed
    (infos : ∀ uuid info, next.info uuid = some info →
      (core.info uuid = none ∧ (∀ tag, info.busy tag = false) ∧ ∀ tag, core.log uuid tag = []) ∨
        ∃ before, core.info uuid = some before ∧ info.peerGroup = before.peerGroup ∧
          ∀ tag, info.busy tag = before.busy tag)
    (members : ∀ uuid info tag, core.info uuid = some info → info.busy tag →
      core.collective.abortStates info.peerGroup tag →
      ∃ other, next.Has other fun value => value.peerGroup = info.peerGroup ∧ value.busy tag)
    (log : next.log = core.log) (collective : next.collective = core.collective) :
    next.Ledger decided current := by
  -- Whoever is busy was there before.
  have earlier (uuid : Uuid) (info : ClientInfo) (tag : Tag) (found : next.info uuid = some info)
      (busy : info.busy tag) : ∃ before, core.info uuid = some before ∧
        info.peerGroup = before.peerGroup ∧ before.busy tag := by
    rcases infos uuid info found with ⟨_, none, _⟩ | ⟨before, present, group, tags⟩
    · simp [none tag] at busy
    · exact ⟨before, present, group, tags tag ▸ busy⟩
  refine ⟨ledger.toNumbering.changed earlier collective, fun uuid info tag found quiet => ?_,
    fun uuid info tag found busy => ?_, fun uuid tag _ => ?_, fun group tag flag => ?_⟩
  · rw [log]
    rcases infos uuid info found with ⟨_, _, empty⟩ | ⟨before, present, _, tags⟩
    · rw [empty tag]
      exact .nil
    · exact ledger.idle uuid before tag present (tags tag ▸ quiet)
  · obtain ⟨before, present, group, was⟩ := earlier uuid info tag found busy
    rw [log, collective, group]
    exact ledger.busy uuid before tag present was
  · rw [log]
    exact ledger.log_eq uuid tag
  · rw [collective] at flag
    obtain ⟨uuid, info, found, rfl, busy⟩ := ledger.flagged group tag flag
    exact members uuid info tag found busy flag

theorem register (registry : Registry environment core) (address : SocketAddress)
    (ports : ClientVariablePorts) (group : Group) :
    (core.register environment address ports group).Ledger decided current := by
  have infos := info_register registry address ports group
  refine ledger.changed (fun uuid info found => ?_) (fun uuid info tag found busy _ => ?_) rfl rfl
  · rcases (infos uuid info).mp found with ⟨rfl, rfl⟩ | present
    · exact Or.inl ⟨registry.unused.1, fun tag => rfl, registry.unused.2.1⟩
    · exact Or.inr ⟨info, present, rfl, fun _ => rfl⟩
  · exact ⟨uuid, info, (infos uuid info).mpr (Or.inr found), rfl, busy⟩

theorem leave (states : core.States) (address : SocketAddress) {uuid : Uuid} {info : ClientInfo}
    (found : core.info uuid = some info)
    (stays : ∀ tag, info.busy tag → core.collective.abortStates info.peerGroup tag →
      ∃ other, other ≠ uuid ∧ core.Has other fun value => value.takesPart info.peerGroup) :
    (core.leave address uuid).Ledger decided current := by
  have infos := @info_leave core address uuid
  refine ledger.changed (fun client value present => ?_) (fun client value tag present busy flag => ?_)
    rfl rfl
  · exact Or.inr ⟨value, ((infos client value).mp present).2, rfl, fun _ => rfl⟩
  by_cases same : client = uuid
  · subst same
    cases found.symm.trans present
    obtain ⟨other, different, member, there, part⟩ := stays tag busy flag
    obtain ⟨accepted, group⟩ := (member.takesPart_iff _).mp part
    -- All the others of the group perform the operation as well.
    have phase := states.phases (.operation info.peerGroup tag) client info found
      (Phase.scope_iff.mpr
        ⟨(Phase.state_of_takes (states.sound client info found) busy).1, by simp [Phase.concerns]⟩)
      busy other member there
      (Phase.scope_iff.mpr ⟨accepted, by simp [Phase.concerns, group]⟩)
    exact ⟨other, member, (infos other member).mpr ⟨different, there⟩, group, phase⟩
  · exact ⟨client, value, (infos client value).mpr ⟨same, present⟩, rfl, busy⟩

theorem quiet (states : core.States) {action : Action} (plain : action.plain)
    (enabled : core.enabled action) (quiet : action.tells = false) :
    (core.apply environment action).Ledger decided current := by
  refine ledger.changed (fun uuid info found => ?_) (fun uuid info tag found busy _ => ?_)
    (untold_apply quiet).1 (untold_apply quiet).2
  · obtain ⟨before, present, moves⟩ := moved plain enabled found
    exact Or.inr ⟨before, present, moves.keeps.2.2,
      moves.busy (states.sound uuid before present) quiet⟩
  · obtain ⟨next, present, moves⟩ := @moves_on _ environment _ plain enabled _ _ found
    exact ⟨uuid, next, present, moves.keeps.2.2,
      (moves.busy (states.sound uuid info found) quiet tag).trans busy⟩

end Ledger

def assign (current : Group → Tag → Nat) (group : Group) (tag : Tag) (number : Nat) :
    Group → Tag → Nat :=
  Function.update current group (Function.update (current group) tag number)

theorem assign_apply (current : Group → Tag → Nat) (group : Group) (tag : Tag) (number : Nat)
    (place : Group) (label : Tag) :
    assign current group tag number place label =
      if place = group ∧ label = tag then number else current place label := by
  unfold assign
  by_cases here : place = group
  · subst here
    by_cases same : label = tag <;> simp [same]
  · simp [here]

structure Tells (core next : Core) (group : Group) (tag : Tag) (told : List Signal)
    (performs aborted : Bool) : Prop where
  infos : ∀ uuid info, next.info uuid = some info →
    ∃ before, core.info uuid = some before ∧ info.peerGroup = before.peerGroup ∧
      ∀ other, info.busy other =
        if before.takesPart group ∧ other = tag then performs else before.busy other
  stay : ∀ uuid info, core.info uuid = some info → ∃ after, next.info uuid = some after
  log : ∀ uuid other, next.log uuid other = core.log uuid other ++
    if other = tag ∧ (core.info uuid).any (ClientInfo.takesPart group) then told else []
  aborts : next.collective.abortStates = Function.update core.collective.abortStates group
    (Function.update (core.collective.abortStates group) tag aborted)
  grows : core.collective.sequenceNumber ≤ next.collective.sequenceNumber

namespace Tells

variable {group : Group} {tag : Tag} {told : List Signal} {performs aborted : Bool}
  (tells : core.Tells next group tag told performs aborted)
include tells

theorem abortStates (place : Group) (label : Tag) :
    next.collective.abortStates place label =
      if place = group ∧ label = tag then aborted else core.collective.abortStates place label := by
  rw [tells.aborts]
  by_cases here : place = group
  · subst here
    by_cases same : label = tag <;> simp [same]
  · simp [here]

theorem busy_after (states : core.States) {uuid : Uuid} {info : ClientInfo} {label : Tag}
    (found : next.info uuid = some info) (busy : info.busy label) :
    ∃ before, core.info uuid = some before ∧ info.peerGroup = before.peerGroup ∧
      ((before.takesPart group ∧ before.peerGroup = group ∧ label = tag ∧ performs) ∨
        (before.busy label ∧ ¬ (before.peerGroup = group ∧ label = tag))) := by
  obtain ⟨before, present, same, tags⟩ := tells.infos uuid info found
  refine ⟨before, present, same, ?_⟩
  rw [tags] at busy
  by_cases member : before.takesPart group ∧ label = tag
  · rw [if_pos member] at busy
    exact Or.inl ⟨member.1, ((before.takesPart_iff _).mp member.1).2, member.2, busy⟩
  · rw [if_neg member] at busy
    refine Or.inr ⟨busy, fun here => member ⟨?_, here.2⟩⟩
    rw [← here.1]
    exact (states.sound uuid before present).takesPart_of_busy busy

theorem numbering (states : core.States) (numbering : core.Numbering decided current)
    {later : Nat → Option Bool} {number : Nat}
    (numbered : ∀ operation, later operation ≠ none → operation ≤ next.collective.sequenceNumber)
    (fresh : performs → later number = none ∧ number ≤ next.collective.sequenceNumber)
    (others : ∀ uuid info label, core.info uuid = some info → info.busy label →
      ¬ (info.peerGroup = group ∧ label = tag) →
      later (current info.peerGroup label) = none ∧
        (performs → current info.peerGroup label ≠ number)) :
    next.Numbering later (assign current group tag number) := by
  refine ⟨fun uuid info label found active => ?_,
    fun uuid info label other value mark found active there working equal => ?_, numbered⟩
  · obtain ⟨before, present, same, ⟨part, here, rfl, performs⟩ | ⟨was, elsewhere⟩⟩ :=
      tells.busy_after states found active
    · rw [assign_apply, if_pos ⟨same.trans here, rfl⟩]
      exact fresh performs
    · rw [assign_apply, same, if_neg elsewhere]
      exact ⟨(others uuid before label present was elsewhere).1,
        (numbering.running uuid before label present was).2.trans tells.grows⟩
  · obtain ⟨before, present, same, first⟩ := tells.busy_after states found active
    obtain ⟨former, known, place, second⟩ := tells.busy_after states there working
    rw [assign_apply, assign_apply, same, place] at equal
    rw [same, place]
    rcases first with ⟨_, here, rfl, performs⟩ | ⟨was, elsewhere⟩ <;>
      rcases second with ⟨_, near, rfl, performs⟩ | ⟨took, apart⟩
    · exact ⟨here.trans near.symm, rfl⟩
    · rw [if_pos ⟨here, rfl⟩, if_neg apart] at equal
      exact absurd equal.symm ((others other former mark known took apart).2 performs)
    · rw [if_neg elsewhere, if_pos ⟨near, rfl⟩] at equal
      exact absurd equal ((others uuid before label present was elsewhere).2 performs)
    · rw [if_neg elsewhere, if_neg apart] at equal
      exact numbering.apart uuid before label other former mark present was known took equal

theorem ledger (states : core.States) (ledger : core.Ledger decided current)
    {later : Nat → Option Bool} {number : Nat}
    (numbering : next.Numbering later (assign current group tag number))
    (keeps : ∀ operation, decided operation ≠ none → later operation = decided operation)
    (settles : ∀ uuid info, core.info uuid = some info → info.takesPart group →
      if performs then ∃ log, Settled later log ∧ core.log uuid tag ++ told = log ++ begun number aborted
      else Settled later (core.log uuid tag ++ told))
    (flagged : aborted → performs ∧ ∃ uuid, core.Has uuid fun info => info.takesPart group) :
    next.Ledger later (assign current group tag number) := by
  refine ⟨numbering, fun uuid info label found quiet => ?_, fun uuid info label found active => ?_,
    fun uuid label absent => ?_, fun place label flag => ?_⟩
  · obtain ⟨before, present, same, tags⟩ := tells.infos uuid info found
    rw [tags] at quiet
    rw [tells.log, present, Option.any_some]
    by_cases member : before.takesPart group ∧ label = tag
    · rw [if_pos member] at quiet
      obtain ⟨part, rfl⟩ := member
      have settles := settles uuid before present part
      rw [quiet] at settles
      simpa [part] using settles
    · rw [if_neg member] at quiet
      rw [if_neg fun told => member ⟨told.2, told.1⟩, List.append_nil]
      exact (ledger.idle uuid before label present quiet).mono keeps
  · obtain ⟨before, present, same, ⟨part, here, rfl, performs⟩ | ⟨was, elsewhere⟩⟩ :=
      tells.busy_after states found active
    · have settles := settles uuid before present part
      rw [performs] at settles
      obtain ⟨log, settled, split⟩ := settles
      refine ⟨log, settled, ?_⟩
      rw [tells.log, present, Option.any_some, if_pos ⟨rfl, part⟩, split, assign_apply,
        tells.abortStates, if_pos ⟨same.trans here, rfl⟩, if_pos ⟨same.trans here, rfl⟩]
    · obtain ⟨log, settled, split⟩ := ledger.busy uuid before label present was
      refine ⟨log, settled.mono keeps, ?_⟩
      rw [tells.log, present, Option.any_some, assign_apply, tells.abortStates, same, if_neg elsewhere,
        if_neg elsewhere, split, if_neg, List.append_nil]
      exact fun told => elsewhere ⟨((before.takesPart_iff _).mp told.2).2, told.1⟩
  · have was : core.info uuid = none := by
      cases found : core.info uuid with
      | none => rfl
      | some info =>
        obtain ⟨after, there⟩ := tells.stay uuid info found
        rw [absent] at there
        cases there
    obtain ⟨log, rest, settled, open_, split⟩ := ledger.gone uuid label was
    refine ⟨log, rest, settled.mono keeps, open_, ?_⟩
    rw [tells.log, was, if_neg (by simp), List.append_nil, split]
  · rw [tells.abortStates] at flag
    by_cases here : place = group ∧ label = tag
    · obtain ⟨rfl, rfl⟩ := here
      rw [if_pos ⟨rfl, rfl⟩] at flag
      obtain ⟨performs, uuid, before, present, part⟩ := flagged flag
      obtain ⟨after, there⟩ := tells.stay uuid before present
      obtain ⟨again, found, same, tags⟩ := tells.infos uuid after there
      cases present.symm.trans found
      refine ⟨uuid, after, there, same.trans ((before.takesPart_iff _).mp part).2, ?_⟩
      rw [tags, if_pos ⟨part, rfl⟩]
      exact performs
    · rw [if_neg here] at flag
      obtain ⟨uuid, before, present, rfl, was⟩ := ledger.flagged place label flag
      obtain ⟨after, there⟩ := tells.stay uuid before present
      obtain ⟨again, found, same, tags⟩ := tells.infos uuid after there
      cases present.symm.trans found
      refine ⟨uuid, after, there, same, ?_⟩
      rw [tags, if_neg fun member => here ⟨((before.takesPart_iff _).mp member.1).2, member.2⟩]
      exact was

end Tells

theorem log_notify (core : Core) (meant : ClientInfo → Bool) (tag : Tag) (signal : Signal) (uuid : Uuid)
    (other : Tag) :
    (core.notify meant tag signal).log uuid other = core.log uuid other ++
      if other = tag ∧ (core.info uuid).any meant then [signal] else [] := by
  simp only [notify]
  split <;> simp

theorem any_congr {meant others : ClientInfo → Bool} {uuid : Uuid}
    (same : ∀ info, core.info uuid = some info → meant info = others info) :
    (core.info uuid).any meant = (core.info uuid).any others := by
  cases found : core.info uuid with
  | none => rfl
  | some info => exact same info found

section Telling

variable {group : Group} {tag : Tag}

theorem tells_commence (enabled : core.enabled (.commence group tag)) :
    core.Tells (core.apply environment (.commence group tag)) group tag
      [.commence (core.collective.sequenceNumber + 1)] true (core.collective.abortStates group tag) where
  infos uuid info found := by
    obtain ⟨before, present, moves⟩ := moved rfl enabled found
    refine ⟨before, present, moves.keeps.2.2, fun other => ?_⟩
    cases moves with
    | skip outside => rw [if_neg fun member => outside member.1]
    | commence part =>
      rw [ClientInfo.busy_perform]
      by_cases same : other = tag <;> simp [same, part]
  stay uuid info found := by
    obtain ⟨next, present, _⟩ := @moves_on _ environment _ rfl enabled _ _ found
    exact ⟨next, present⟩
  log uuid other := by
    refine (log_notify _ _ _ _ uuid other).trans ?_
    rw [info_move, Option.any_map, any_congr fun info found => ?_]
    · rfl
    · exact (moves enabled found).takesPart rfl group
  aborts := by
    rw [Function.update_eq_self, Function.update_eq_self]
    rfl
  grows := Nat.le_succ _

theorem performs_of_enabled (states : core.States) (enabled : core.enabled (.abort group tag))
    {uuid : Uuid} {info : ClientInfo} (found : core.info uuid = some info) (part : info.takesPart group) :
    info.busy tag ∧ runs group info := by
  obtain ⟨client, member, present, there, performs⟩ := enabled
  have scope (other : ClientInfo) (part : other.takesPart group) :
      (Phase.operation group tag).scope other := by
    obtain ⟨accepted, here⟩ := (other.takesPart_iff _).mp part
    exact Phase.scope_iff.mpr ⟨accepted, by simp [Phase.concerns, here]⟩
  have busy : info.busy tag := states.phases (.operation group tag) client member present
    (scope member there) (by simpa [Phase.takes] using performs) uuid info found (scope info part)
  refine ⟨busy, ?_⟩
  rcases (by simpa [ClientInfo.busy, Phase.takes] using busy) with held | held <;>
    simp [runs, part, (states.sound uuid info found).runs_of_tag held]

theorem tells_abort (states : core.States) (enabled : core.enabled (.abort group tag))
    (first : core.collective.abortStates group tag = false) :
    core.Tells (core.apply environment (.abort group tag)) group tag [.abort true] true true := by
  have applied : core.apply environment (.abort group tag) =
      (core.notify (runs group) tag (.abort true)).setAbort group tag true := by
    simp [apply, first]
  rw [applied]
  refine ⟨fun uuid info found => ⟨info, found, rfl, fun other => ?_⟩, fun uuid info found => ⟨info, found⟩,
    fun uuid other => ?_, rfl, le_refl _⟩
  · split
    · next member => rw [member.2, (performs_of_enabled states enabled found member.1).1]
    · rfl
  · refine (log_notify _ _ _ _ uuid other).trans ?_
    rw [any_congr fun info found => ?_]
    cases part : info.takesPart group with
    | true => exact (performs_of_enabled states enabled found part).2
    | false => simp [runs, part]

theorem tells_finish (enabled : core.enabled (.finish group tag)) :
    core.Tells (core.apply environment (.finish group tag)) group tag
      ((if core.collective.abortStates group tag then [] else [.abort false]) ++ [.complete])
      false false where
  infos uuid info found := by
    obtain ⟨before, present, moves⟩ := moved rfl enabled found
    refine ⟨before, present, moves.keeps.2.2, fun other => ?_⟩
    cases moves with
    | skip outside => rw [if_neg fun member => outside member.1]
    | finish part =>
      rw [ClientInfo.busy_eraseTag]
      by_cases same : other = tag <;> simp [same, part]
  stay uuid info found := by
    obtain ⟨next, present, _⟩ := @moves_on _ environment _ rfl enabled _ _ found
    exact ⟨next, present⟩
  log uuid other := by
    have running : (core.info uuid).any (runs group) = (core.info uuid).any (ClientInfo.takesPart group) := by
      refine any_congr fun info found => ?_
      obtain ⟨next, _, moves⟩ := @moves_on _ environment _ rfl enabled _ _ found
      cases moves with
      | skip outside => simp [runs, show ¬ info.takesPart group from outside]
      | finish part state => simp [runs, part, state]
    have members : ((core.move (.finish group tag)).info uuid).any (ClientInfo.takesPart group) =
        (core.info uuid).any (ClientInfo.takesPart group) := by
      rw [info_move, Option.any_map]
      refine any_congr fun info found => ?_
      exact (moves enabled found).takesPart rfl group
    cases flag : core.collective.abortStates group tag with
    | true =>
      simp only [apply, flag, if_true]
      refine (log_notify _ _ _ _ uuid other).trans ?_
      rw [info_setAbort, members]
      rfl
    | false =>
      simp only [apply, flag, Bool.false_eq_true, if_false]
      refine (log_notify _ _ _ _ uuid other).trans ?_
      change (core.notify _ _ _).log uuid other ++ _ = _
      rw [log_notify, running, List.append_assoc, info_setAbort]
      change _ ++ (_ ++ if other = tag ∧ ((core.move _).info uuid).any _ then _ else _) = _
      rw [members]
      split <;> rfl
  aborts := by
    simp only [apply]
    split <;> rfl
  grows := by
    simp only [apply]
    split <;> exact le_refl _

theorem busy_of_finish (enabled : core.enabled (.finish group tag)) {uuid : Uuid} {info : ClientInfo}
    (found : core.info uuid = some info) (part : info.takesPart group) : info.busy tag := by
  obtain ⟨next, moves⟩ : ∃ next, Action.Moves _ uuid info next := ⟨_, moves enabled found⟩
  cases moves with
  | skip outside => exact absurd part outside
  | finish _ _ voted => simp [ClientInfo.busy, Phase.takes, voted]

section Numbers

variable (states : core.States) (numbering : core.Numbering decided current)
include states numbering

theorem Numbering.commence (enabled : core.enabled (.commence group tag)) :
    (core.apply environment (.commence group tag)).Numbering decided
      (assign current group tag (core.collective.sequenceNumber + 1)) := by
  refine (tells_commence enabled).numbering states numbering
    (fun operation known => Nat.le_succ_of_le (numbering.numbered operation known))
    (fun _ => ⟨?_, le_refl _⟩)
    (fun uuid info label found busy _ => ⟨(numbering.running uuid info label found busy).1, fun _ => ?_⟩)
  · by_contra known
    have bound := numbering.numbered _ known
    omega
  · have bound := (numbering.running uuid info label found busy).2
    omega

theorem Numbering.abort (enabled : core.enabled (.abort group tag)) :
    (core.apply environment (.abort group tag)).Numbering decided current := by
  cases flag : core.collective.abortStates group tag with
  | true => simpa [apply, flag] using numbering
  | false =>
    have tells := @tells_abort _ environment _ _ states enabled flag
    obtain ⟨client, member, present, part, _⟩ := id enabled
    have busy := (performs_of_enabled states enabled present part).1
    have here := ((member.takesPart_iff _).mp part).2
    have unchanged : assign current group tag (current group tag) = current := by simp [assign]
    rw [← unchanged]
    refine tells.numbering states numbering ?_ (fun _ => ?_)
      (fun uuid info label found active elsewhere =>
        ⟨(numbering.running uuid info label found active).1, fun _ same => elsewhere ?_⟩)
    · exact fun operation known => (numbering.numbered operation known).trans tells.grows
    · have running := numbering.running client member tag present busy
      rw [here] at running
      exact ⟨running.1, running.2.trans tells.grows⟩
    · have apart := numbering.apart uuid info label client member tag found active present busy
      rw [here] at apart
      exact apart same

theorem Numbering.finish (enabled : core.enabled (.finish group tag)) :
    ∃ later, (∀ operation, decided operation ≠ none → later operation = decided operation) ∧
      (∀ uuid info, core.info uuid = some info → info.takesPart group →
        later (current group tag) = some (core.collective.abortStates group tag)) ∧
      (core.apply environment (.finish group tag)).Numbering later (assign current group tag 0) := by
  have tells := @tells_finish _ environment _ _ enabled
  by_cases members : ∃ uuid, core.Has uuid fun info => info.takesPart group
  · obtain ⟨client, member, present, part⟩ := members
    have here := ((member.takesPart_iff _).mp part).2
    have busy := busy_of_finish enabled present part
    have running := numbering.running client member tag present busy
    rw [here] at running
    refine ⟨Function.update decided (current group tag) (some (core.collective.abortStates group tag)),
      fun operation known => ?_, fun _ _ _ _ => Function.update_self _ _ _,
      tells.numbering states numbering (fun operation known => ?_) nofun
        (fun uuid info label found active elsewhere => ⟨?_, nofun⟩)⟩
    · refine Function.update_of_ne ?_ _ _
      rintro rfl
      exact known running.1
    · by_cases same : operation = current group tag
      · exact same ▸ running.2.trans tells.grows
      · rw [Function.update_of_ne same] at known
        exact (numbering.numbered operation known).trans tells.grows
    · rw [Function.update_of_ne fun same => elsewhere ?_]
      · exact (numbering.running uuid info label found active).1
      · have apart := numbering.apart uuid info label client member tag found active present busy
        rw [here] at apart
        exact apart same
  · exact ⟨decided, fun _ _ => rfl, fun uuid info found part => absurd ⟨uuid, info, found, part⟩ members,
      tells.numbering states numbering
        (fun operation known => (numbering.numbered operation known).trans tells.grows) nofun
        (fun uuid info label found active _ => ⟨(numbering.running uuid info label found active).1, nofun⟩)⟩

end Numbers

variable (states : core.States) (ledger : core.Ledger decided current)
include states ledger

theorem Ledger.unflagged (enabled : core.enabled (.commence group tag)) :
    core.collective.abortStates group tag = false := by
  by_contra flag
  obtain ⟨uuid, info, found, rfl, busy⟩ := ledger.flagged group tag (by simpa using flag)
  have part := (states.sound uuid info found).takesPart_of_busy busy
  obtain ⟨next, moves⟩ : ∃ next, Action.Moves _ uuid info next := ⟨_, moves enabled found⟩
  cases moves with
  | skip outside => exact outside part
  | commence _ _ voted => simp [ClientInfo.busy, Phase.takes, voted] at busy

theorem Ledger.commence (enabled : core.enabled (.commence group tag)) :
    ∃ decided current, (core.apply environment (.commence group tag)).Ledger decided current := by
  have silent := ledger.unflagged states enabled
  refine ⟨_, _, (tells_commence enabled).ledger states ledger
    (ledger.toNumbering.commence states enabled) (fun _ _ => rfl)
    (fun uuid info found part => ?_) (fun flag => ?_)⟩
  · refine ⟨core.log uuid tag, ledger.idle uuid info tag found ?_, by rw [silent]; rfl⟩
    obtain ⟨next, _, moves⟩ := @moves_on _ environment _ rfl enabled _ _ found
    cases moves with
    | skip outside => exact absurd part outside
    | commence _ _ voted => simp [ClientInfo.busy, Phase.takes, voted]
  · rw [silent] at flag
    cases flag

theorem Ledger.abort (enabled : core.enabled (.abort group tag)) :
    ∃ decided current, (core.apply environment (.abort group tag)).Ledger decided current := by
  cases flag : core.collective.abortStates group tag with
  | true =>
    refine ⟨decided, current, ?_⟩
    simpa [apply, flag] using ledger
  | false =>
    have unchanged : assign current group tag (current group tag) = current := by simp [assign]
    obtain ⟨client, member, present, part, _⟩ := id enabled
    have numbering := @Numbering.abort _ environment _ _ _ _ states ledger.toNumbering enabled
    rw [← unchanged] at numbering
    refine ⟨_, _, (tells_abort states enabled flag).ledger states ledger numbering (fun _ _ => rfl)
      (fun uuid info found part => ?_) (fun _ => ⟨rfl, client, member, present, part⟩)⟩
    obtain ⟨log, settled, told⟩ := ledger.busy uuid info tag found
      (performs_of_enabled states enabled found part).1
    refine ⟨log, settled, ?_⟩
    rw [told, ((info.takesPart_iff _).mp part).2, flag]
    simp [begun]

theorem Ledger.finish (enabled : core.enabled (.finish group tag)) :
    ∃ decided current, (core.apply environment (.finish group tag)).Ledger decided current := by
  obtain ⟨later, keeps, verdict, numbering⟩ :=
    @Numbering.finish _ environment _ _ _ _ states ledger.toNumbering enabled
  refine ⟨_, _, (tells_finish enabled).ledger states ledger numbering keeps
    (fun uuid info found part => ?_) nofun⟩
  obtain ⟨log, settled, told⟩ := ledger.busy uuid info tag found (busy_of_finish enabled found part)
  rw [((info.takesPart_iff _).mp part).2] at told
  have whole := (settled.mono keeps).concat (verdict uuid info found part)
  rw [told]
  cases flag : core.collective.abortStates group tag <;> rw [flag] at whole <;>
    simpa [begun] using whole

end Telling

def MayLeave (core : Core) (uuid : Uuid) : Prop :=
  ∀ info tag, core.info uuid = some info → info.busy tag →
    core.collective.abortStates info.peerGroup tag →
    ∃ other, other ≠ uuid ∧ core.Has other fun value => value.takesPart info.peerGroup

def Booked (core : Core) : Prop := ∃ decided current, core.Ledger decided current

theorem Booked.apply (booked : core.Booked) (valid : core.Valid environment) {action : Action}
    (enabled : core.enabled action)
    (may : ∀ address uuid, action = .leave address uuid → core.MayLeave uuid) :
    (core.apply environment action).Booked := by
  obtain ⟨decided, current, ledger⟩ := booked
  cases action with
  | register address ports group =>
    exact ⟨decided, current, ledger.register valid.registry address ports group⟩
  | leave address uuid =>
    obtain ⟨info, found, _⟩ := valid.registry.info_of address uuid enabled
    exact ⟨decided, current, ledger.leave valid.states address found fun tag busy flag =>
      may address uuid rfl info tag found busy flag⟩
  | commence => exact ledger.commence valid.states enabled
  | abort => exact ledger.abort valid.states enabled
  | finish => exact ledger.finish valid.states enabled
  | _ => exact ⟨decided, current, ledger.quiet valid.states rfl enabled rfl⟩

theorem Booked.answers (booked : core.Booked) (valid : core.Valid environment)
    (answers : core.Answers environment next) : next.Booked :=
  (answers.keeps Booked (fun core action answer valid enabled booked =>
    booked.apply valid enabled fun address uuid same => by subst same; cases answer) valid booked).2

/-- The last member of a group does not leave while one of its operations has been aborted. -/
def staysWithAborted (core : Core) : Action → Bool
  | .leave _ uuid => (core.info uuid).all fun info =>
    (info.collectiveComsStates.keys.all fun tag => !core.collective.abortStates info.peerGroup tag) ||
      core.infos.any fun other => other.takesPart info.peerGroup && other.clientUuid ≠ uuid
  | _ => true

theorem mayLeave_of_stays (registry : Registry environment core) {address : SocketAddress} {uuid : Uuid}
    (stays : core.staysWithAborted (.leave address uuid)) : core.MayLeave uuid := by
  intro info tag found busy flag
  have known : tag ∈ info.collectiveComsStates.keys := by
    rw [← AList.mem_keys, ← AList.lookup_isSome]
    rcases (by simpa [ClientInfo.busy, Phase.takes] using busy) with held | held <;> simp [held]
  simp only [staysWithAborted, found, Option.all_some, Bool.or_eq_true] at stays
  rcases stays with quiet | stays
  · have := List.all_eq_true.mp quiet tag known
    simp [flag] at this
  · obtain ⟨other, value, present, holds⟩ := (any_infos _).mp stays
    simp only [Bool.and_eq_true, decide_eq_true_eq] at holds
    refine ⟨other, ?_, value, present, holds.1⟩
    rw [← registry.named other value present]
    exact holds.2

theorem Booked.served {event : Event} {master : MasterState} (valid : master.core.Valid environment)
    (booked : master.core.Booked) (asked : asks staysWithAborted event master) {action : Action}
    (is : event.action? master.core = some action) (enabled : master.core.enabled action) :
    (master.core.apply environment action).Booked := by
  refine booked.apply valid enabled fun address uuid same => ?_
  subst same
  exact mayLeave_of_stays valid.registry (of_asks asked is)

end Core

/-- Whoever was told that an operation commences and completes was told in between, once and the same
as everybody else, whether it was aborted. -/
def ToldOnce (sent : List Sent) : Prop :=
  ∃ verdict : Nat → Bool, ∀ uuid tag before operation middle after,
    signals sent uuid tag = before ++ .commence operation :: middle ++ .complete :: after →
    .complete ∉ middle → middle = [.abort (verdict operation)]

theorem Core.Booked.toldOnce {core : Core} (booked : core.Booked) {sent : List Sent}
    (log : signals sent = core.log) : ToldOnce sent := by
  obtain ⟨decided, current, ledger⟩ := booked
  refine ⟨fun operation => (decided operation).getD false, ?_⟩
  intro uuid tag before operation middle after split first
  obtain ⟨past, rest, settled, open_, told⟩ := ledger.log_eq uuid tag
  rw [log, told] at split
  obtain ⟨aborted, verdict, only⟩ := settled.between open_ split first
  simp [only, verdict]

theorem aborts_told_once (environment : Environment) (events : List Event)
    (lawful : Lawful environment (asks Core.staysWithAborted) events) :
    (run environment events).Holds (fun master => ToldOnce master.sent)
      fun exit => ToldOnce exit.master.sent := by
  have ends {core : Core} {exit : Exit} (valid : core.Valid environment) (booked : core.Booked)
      (fatal : Fatal environment core exit) : ToldOnce exit.master.sent := by
    obtain ⟨_, reached, answers, log⟩ := fatal
    exact (booked.answers valid answers).toldOnce log
  refine (run_holds_core Core.Booked ⟨_, _, .initial⟩ ?_ ?_ events lawful).imp
    (fun master holds => holds.2.toldOnce rfl) fun exit told => told
  · intro event master next valid booked asked served
    rcases served with rfl | ⟨action, is, enabled, follows, _⟩
    · exact booked
    · exact (booked.served valid asked is enabled).answers (valid.apply enabled) follows.answers
  · intro event master exit valid booked asked ended
    cases ended with
    | early fatal => exact ends valid booked fatal
    | late action is enabled fatal =>
      exact ends (valid.apply enabled) (booked.served valid asked is enabled) fatal
    | jammed action is enabled bug closing jammed =>
      have applied := booked.served valid asked is enabled
      cases action with
      | report => exact applied.toldOnce (congrArg Core.log closing)
      | leave address uuid =>
        obtain ⟨middle, establishes, reached⟩ := closing
        have later := applied.answers (valid.apply enabled) establishes.answers
        exact later.toldOnce (congrArg Core.log reached)
      | _ => cases closing

namespace Sample

def initiate (client : Nat) (tag : Tag) : Event :=
  .read (address client) (.collectiveCommsInitiate tag .uint8 1 .sum)

def complete (client : Nat) (tag : Tag) (wasAborted : Bool) : Event :=
  .read (address client) (.collectiveCommsComplete tag wasAborted)

end Sample

open Sample

theorem aborts_told_once_pair :
    Lawful environment (asks Core.staysWithAborted) (pair ++
        [initiate 0 7, initiate 1 7, leave 1, complete 0 7 true]) ∧
      (run environment (pair ++
        [initiate 0 7, initiate 1 7, leave 1, complete 0 7 true])).Holds
        (fun master => ToldOnce master.sent) fun exit => ToldOnce exit.master.sent := by
  have lawful : Lawful environment (asks Core.staysWithAborted) (pair ++
      [initiate 0 7, initiate 1 7, leave 1, complete 0 7 true]) :=
    (lawful_iff _ _ _).mp (by cbv)
  exact ⟨lawful, aborts_told_once _ _ lawful⟩

theorem stale_flag_silences :
    ¬ (run environment (pair ++
      [initiate 0 7, initiate 1 7, leave 1, leave 0, join 2 0,
        report 2 true, establish 2 false, report 2 true, initiate 2 7,
        complete 2 7 false])).Holds
      (fun master => ToldOnce master.sent) fun exit => ToldOnce exit.master.sent := by
  have silent : (run environment (pair ++
      [initiate 0 7, initiate 1 7, leave 1, leave 0, join 2 0,
        report 2 true, establish 2 false, report 2 true, initiate 2 7,
        complete 2 7 false])).passes
      (fun master => signals master.sent 2 7 = [.commence 2, .complete]) = true := by cbv
  refine Server.not_holds silent fun master told once => ?_
  obtain ⟨verdict, once⟩ := once
  have only := once 2 7 [] 2 [] [] (by simpa using told) (by simp)
  cases only

end Pccl.Master
