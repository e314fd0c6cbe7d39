import Pccl.Ring.AllReduce
import Pccl.Session.Tasks

set_option autoImplicit false

namespace Pccl.Session

open Buffer Packet Client Master Program

namespace Endpoint

theorem inbox_append {endpoint : Endpoint} {log : List Signal} (arrived : endpoint.arrived ≤ log.length)
    (told : List Signal) : endpoint.inbox (log ++ told) = endpoint.inbox log ++ told := by
  simp [inbox, List.drop_append_of_le_length arrived]

end Endpoint

namespace Follows

variable {decided later : Nat → Option Bool} {tag : Tag} {place next : Place} {log told : List Signal}
  {endpoint : Endpoint} (follows : Follows decided tag place log endpoint)
include follows

theorem mono (keeps : ∀ operation, decided operation ≠ none → later operation = decided operation) :
    Follows later tag place log endpoint := by
  have same {operation : Nat} {verdict : Bool} (known : decided operation = some verdict) :
      later operation = some verdict := by
    rw [keeps operation (by simp [known]), known]
  have ends (ends : endpoint.Ends (endpoint.inbox log) decided) :
      endpoint.Ends (endpoint.inbox log) later := by
    obtain ⟨verdict, known, rest⟩ := ends
    exact ⟨verdict, same known, rest⟩
  refine ⟨fun outcome member => same (follows.outcomes outcome member), follows.arrived, follows.unread,
    follows.launched, follows.posted, fun kept => ?_⟩
  have stands := follows.stands kept
  cases place with
  | outside | free => exact stands.imp ends id
  | _ => exact stands

theorem moves
    (silent : endpoint.lost = false → endpoint.outbox = [] ∨ ∀ operation, .commence operation ∉ told)
    (stands : endpoint.lost = false → endpoint.Stands (endpoint.inbox log) decided place →
      endpoint.Stands (endpoint.inbox log ++ told) decided next) :
    Follows decided tag next (log ++ told) endpoint := by
  refine ⟨follows.outcomes, follows.arrived.trans (by simp), fun empty => ?_,
    follows.launched, fun kept => ?_, fun kept => ?_⟩
  · exact follows.unread (List.append_eq_nil_iff.mp empty).1
  · rw [Endpoint.inbox_append follows.arrived]
    rcases silent kept with empty | silent
    · exact Or.inl empty
    · rcases follows.posted kept with empty | ⟨initiating, unopened⟩ | completing
      · exact Or.inl empty
      · refine Or.inr (Or.inl ⟨initiating, fun operation member => ?_⟩)
        exact (List.mem_append.mp member).elim (unopened operation) (silent operation)
      · exact Or.inr (Or.inr completing)
  · rw [Endpoint.inbox_append follows.arrived]
    exact stands kept (follows.stands kept)

theorem leaves : Follows decided tag .outside log endpoint := by
  have moved := @moves decided tag place .outside log [] endpoint follows (fun _ => Or.inr (by simp))
    fun _ stands => ?_
  · simpa using moved
  rw [List.append_nil]
  have quiet {aborted : Bool} (quiet : Endpoint.Quiet (endpoint.inbox log) aborted) :
      Endpoint.Quiet (endpoint.inbox log) true :=
    quiet.imp id fun told => ⟨told.1, rfl⟩
  cases place with
  | outside => exact stands
  | free => exact stands.imp id fun empty => Or.inr (Or.inl empty)
  | voting => exact Or.inr (Or.inr (Or.inl stands.1))
  | performing operation =>
    rcases stands with ⟨posted, awaits, unread⟩ | attends
    · exact Or.inr (Or.inl ⟨operation, posted, awaits, unread.imp id fun told => ⟨told.1, rfl⟩⟩)
    · exact Or.inr (Or.inr (quiet attends.quiet))
  | voted => exact Or.inr (Or.inr (quiet stands.1.quiet))

theorem joins (fresh : log = []) : Follows decided tag .free log endpoint := by
  have empty : endpoint.inbox log = [] := by simp [Endpoint.inbox, follows.unread fresh, fresh]
  exact ⟨follows.outcomes, follows.arrived, follows.unread, follows.launched,
    follows.posted, fun _ => Or.inr empty⟩

end Follows

section Told

variable {decided : Nat → Option Bool} {tag : Tag} {log : List Signal} {endpoint : Endpoint}

theorem Follows.commences (follows : Follows decided tag .voting log endpoint) (operation : Nat)
    (aborted : Bool) :
    Follows decided tag (.performing operation aborted) (log ++ [.commence operation]) endpoint := by
  refine follows.moves (fun kept => Or.inl (follows.stands kept).2.1) fun _ stands => ?_
  obtain ⟨empty, posted, awaits⟩ := stands
  exact Or.inl ⟨posted, awaits, Or.inl (by rw [empty]; rfl)⟩

theorem Endpoint.Attends.aborts {inbox : List Signal} {operation : Nat}
    (attends : endpoint.Attends inbox operation false) :
    endpoint.Attends (inbox ++ [.abort true]) operation true := by
  rcases attends with ⟨current, rfl | ⟨_, flag⟩, heard⟩
  · refine ⟨current, Or.inr ⟨rfl, rfl⟩, fun call present taken => ?_⟩
    cases (heard call present taken).1
  · cases flag

theorem Follows.aborts {operation : Nat}
    (follows : Follows decided tag (.performing operation false) log endpoint) :
    Follows decided tag (.performing operation true) (log ++ [.abort true]) endpoint := by
  refine follows.moves (fun _ => Or.inr (by simp)) fun _ stands => ?_
  rcases stands with ⟨posted, awaits, one | ⟨_, flag⟩⟩ | attends
  · exact Or.inl ⟨posted, awaits, Or.inr ⟨by rw [one]; rfl, rfl⟩⟩
  · cases flag
  · exact Or.inr attends.aborts

theorem Follows.aborts_voted {operation : Nat}
    (follows : Follows decided tag (.voted operation false) log endpoint) :
    Follows decided tag (.voted operation true) (log ++ [.abort true]) endpoint := by
  refine follows.moves (fun _ => Or.inr (by simp)) fun _ stands => ?_
  obtain ⟨attends, posted, call, present, voted, _⟩ := stands
  exact ⟨attends.aborts, posted, call, present, voted, fun _ => rfl⟩

theorem Follows.finishes {operation : Nat} {aborted : Bool}
    (follows : Follows decided tag (.voted operation aborted) log endpoint)
    (verdict : decided operation = some aborted) :
    Follows decided tag .free
      (log ++ ((if aborted then [] else [.abort false]) ++ [.complete])) endpoint := by
  refine follows.moves (fun _ => Or.inr ?_) fun _ stands => Or.inl ?_
  · cases aborted <;> simp
  obtain ⟨⟨current, quiet, heard⟩, posted, call, present, voted, vote⟩ := stands
  refine ⟨aborted, current ▸ verdict, posted, call, present, vote, ?_⟩
  cases pc : call.task.pc with
  | awaitAbort =>
    refine Or.inl ⟨rfl, ?_⟩
    rcases quiet with empty | ⟨one, rfl⟩
    · rw [empty]
      cases aborted <;> simp
    · rw [one]
      exact Or.inl rfl
  | awaitComplete =>
    obtain ⟨rfl, empty, known⟩ := heard call present (Or.inr pc)
    exact Or.inr ⟨rfl, known, by rw [empty]; rfl⟩
  | _ =>
    rw [pc] at voted
    cases voted

theorem Follows.posts {place next : Place} (follows : Follows decided tag place log endpoint)
    {packet : C2MPacket} {outbox : List C2MPacket} (first : endpoint.outbox = packet :: outbox)
    (stands : endpoint.lost = false → endpoint.outbox = [packet] →
      (place = .outside ∧ Endpoint.Quiet (endpoint.inbox log) true) ∨
        (place = .free ∧ endpoint.inbox log = []) ∨
        (∃ operation aborted, place = .performing operation aborted ∧
          endpoint.Attends (endpoint.inbox log) operation aborted) →
      Endpoint.Stands (endpoint.inbox log) { endpoint with outbox := [] } decided next) :
    Follows decided tag next log { endpoint with outbox } := by
  have only (kept : endpoint.lost = false) : endpoint.outbox = [packet] ∧ outbox = [] := by
    rcases follows.posted kept with empty | ⟨⟨_, _, _, _, _, _, one⟩, _⟩ | ⟨_, _, _, one⟩
    · rw [first] at empty
      cases empty
    all_goals
      rw [first] at one ⊢
      cases one
      exact ⟨rfl, rfl⟩
  refine ⟨follows.outcomes, follows.arrived, follows.unread, follows.launched,
    fun kept => Or.inl (only kept).2, fun kept => ?_⟩
  obtain ⟨one, rfl⟩ := only kept
  refine stands kept one ((follows.stands kept).of_not_waiting fun waiting => ?_)
  rw [waiting.1] at one
  cases one

theorem Follows.ignored {place : Place} (follows : Follows decided tag place log endpoint)
    {packet : C2MPacket} {outbox : List C2MPacket} (first : endpoint.outbox = packet :: outbox) :
    Follows decided tag place log { endpoint with outbox } := by
  refine follows.posts first fun _ _ stands => ?_
  rcases stands with ⟨rfl, quiet⟩ | ⟨rfl, empty⟩ | ⟨operation, aborted, rfl, attends⟩
  · exact Or.inr (Or.inr quiet)
  · exact Or.inr empty
  · exact Or.inr ⟨attends.current, attends.quiet, attends.heard⟩

theorem Follows.initiates (follows : Follows decided tag .free log endpoint) {dataType : Ring.DataType}
    {count : Nat} {op : Ring.ReduceOp} {outbox : List C2MPacket}
    (first : endpoint.outbox = .collectiveCommsInitiate tag dataType count op :: outbox) :
    Follows decided tag .voting log { endpoint with outbox } := by
  refine follows.posts first fun kept one stands => ?_
  rcases stands with ⟨home, _⟩ | ⟨_, empty⟩ | ⟨_, _, home, _⟩
  · cases home
  · rcases follows.posted kept with none | ⟨⟨call, present, pc, _⟩, _⟩ | ⟨_, _, _, other⟩
    · rw [one] at none
      cases none
    · exact ⟨empty, rfl, call, present, pc⟩
    · rw [one] at other
      cases other
  · cases home

theorem Follows.completes {operation : Nat} {aborted wasAborted : Bool}
    (follows : Follows decided tag (.performing operation aborted) log endpoint)
    {outbox : List C2MPacket}
    (first : endpoint.outbox = .collectiveCommsComplete tag wasAborted :: outbox)
    (heeded : wasAborted = true → aborted = true) :
    Follows decided tag (.voted operation aborted) log { endpoint with outbox } := by
  refine follows.posts first fun kept one stands => ?_
  rcases stands with ⟨home, _⟩ | ⟨home, _⟩ | ⟨_, _, home, attends⟩
  · cases home
  · cases home
  · cases home
    rcases follows.posted kept with none | ⟨⟨_, _, _, _, _, _, other⟩, _⟩ | ⟨call, present, voted, vote⟩
    · rw [one] at none
      cases none
    · rw [one] at other
      cases other
    · rw [one] at vote
      cases vote
      exact ⟨⟨attends.current, attends.quiet, attends.heard⟩, rfl, call, present, voted, heeded⟩

end Told

def placeOf (operation : Nat) (aborted : Bool) : Option CollectiveCommunicationState → Place
  | none => .free
  | some .voteInitiate => .voting
  | some .perform => .performing operation aborted
  | some .voteComplete => .voted operation aborted

def place (core : Core) (current : Group → Tag → Nat) (uuid : Uuid) (tag : Tag) : Place :=
  match core.info uuid with
  | none => .outside
  | some info =>
    placeOf (current info.peerGroup tag) (core.collective.abortStates info.peerGroup tag)
      (info.collectiveComsStates.lookup tag)

/-- The master is where all the watched tasks take it to be. -/
structure Linked (watched : Uuid → Tag → Prop) (core : Core) (endpoints : Uuid → Tag → Endpoint)
    (decided : Nat → Option Bool) (current : Group → Tag → Nat) : Prop where
  numbering : core.Numbering decided current
  follows : ∀ uuid tag, watched uuid tag →
    Follows decided tag (place core current uuid tag) (core.log uuid tag) (endpoints uuid tag)

def Agreeing (watched : Uuid → Tag → Prop) (core : Core) (endpoints : Uuid → Tag → Endpoint) : Prop :=
  ∃ decided current, Linked watched core endpoints decided current

def stirs : Master.Action → Uuid → Tag → Prop
  | .initiate client label, uuid, tag | .complete client label, uuid, tag => uuid = client ∧ tag = label
  | _, _, _ => False

section Places

variable {core : Core} {environment : Environment} {current : Group → Tag → Nat} {uuid : Uuid} {tag : Tag}

theorem place_of_none (absent : core.info uuid = none) : place core current uuid tag = .outside := by
  simp [place, absent]

theorem place_of_some {info : ClientInfo} (found : core.info uuid = some info) :
    place core current uuid tag =
      placeOf (current info.peerGroup tag) (core.collective.abortStates info.peerGroup tag)
        (info.collectiveComsStates.lookup tag) := by
  simp [place, found]

theorem placeOf_of_busy {info : ClientInfo} {first second : Nat} {before after : Bool}
    (same : info.busy tag → first = second ∧ before = after) :
    placeOf first before (info.collectiveComsStates.lookup tag) =
      placeOf second after (info.collectiveComsStates.lookup tag) := by
  cases held : info.collectiveComsStates.lookup tag with
  | none => rfl
  | some state =>
    cases state with
    | voteInitiate => rfl
    | perform | voteComplete =>
      obtain ⟨rfl, rfl⟩ := same (by simp [ClientInfo.busy, Phase.takes, held])
      rfl

theorem lookup_of_moves {action : Master.Action} {info next : ClientInfo}
    (moves : action.Moves uuid info next)
    (quiet : action.tells = false) (unmoved : ¬ stirs action uuid tag) :
    next.collectiveComsStates.lookup tag = info.collectiveComsStates.lookup tag := by
  cases moves with
  | initiate | complete =>
    have other : tag ≠ _ := fun same => unmoved ⟨rfl, same⟩
    simp [ClientInfo.setTag, ClientInfo.enter, other]
  | commence | finish => cases quiet
  | _ => rfl

variable {decided : Nat → Option Bool} {endpoint : Endpoint}

theorem follows_quiet (valid : core.Valid environment) {action : Master.Action}
    (enabled : core.enabled action)
    (quiet : action.tells = false) (unmoved : ¬ stirs action uuid tag)
    (follows : Follows decided tag (place core current uuid tag) (core.log uuid tag) endpoint) :
    Follows decided tag (place (core.apply environment action) current uuid tag)
      ((core.apply environment action).log uuid tag) endpoint := by
  obtain ⟨log, collective⟩ := @Core.untold_apply core environment action quiet
  rw [log]
  have same {info next : ClientInfo} (found : core.info uuid = some info)
      (present : (core.apply environment action).info uuid = some next)
      (group : next.peerGroup = info.peerGroup)
      (held : next.collectiveComsStates.lookup tag = info.collectiveComsStates.lookup tag) :
      place (core.apply environment action) current uuid tag = place core current uuid tag := by
    rw [place_of_some found, place_of_some present, group, held, collective]
  cases after : (core.apply environment action).info uuid with
  | none =>
    rw [place_of_none after]
    exact follows.leaves
  | some next =>
    cases action with
    | register address ports group =>
      rcases (Core.info_register valid.registry address ports group uuid next).mp after with
        ⟨rfl, fresh⟩ | present
      · have free : place (core.apply environment (.register address ports group)) current
            (environment.generateUuid core.generated) tag = .free := by
          rw [place_of_some after, fresh]
          rfl
        rw [free]
        exact follows.joins (valid.registry.unused.2.1 tag)
      · rw [same present after rfl rfl]
        exact follows
    | leave address client =>
      rw [same ((Core.info_leave address client uuid next).mp after).2 after rfl rfl]
      exact follows
    | _ =>
      obtain ⟨before, present, moves⟩ := Core.moved rfl enabled after
      rw [same present after moves.keeps.2.2 (lookup_of_moves moves quiet unmoved)]
      exact follows

theorem numbering_quiet (valid : core.Valid environment) {action : Master.Action}
    (enabled : core.enabled action) (quiet : action.tells = false)
    (numbering : core.Numbering decided current) :
    (core.apply environment action).Numbering decided current := by
  refine numbering.changed (fun uuid info tag found busy => ?_) (Core.untold_apply quiet).2
  cases action with
  | register address ports group =>
    rcases (Core.info_register valid.registry address ports group uuid info).mp found with
      ⟨rfl, rfl⟩ | present
    · cases busy
    · exact ⟨info, present, rfl, busy⟩
  | leave address client =>
    exact ⟨info, ((Core.info_leave address client uuid info).mp found).2, rfl, busy⟩
  | _ =>
    obtain ⟨before, present, moves⟩ := Core.moved rfl enabled found
    exact ⟨before, present, moves.keeps.2.2,
      moves.busy (valid.states.sound uuid before present) quiet tag ▸ busy⟩

variable {group : Group} {label : Tag}

theorem follows_untold {next : Core} {told : List Signal} {performs aborted : Bool} {number : Nat}
    (states : core.States) (tells : core.Tells next group label told performs aborted)
    (outside : ∀ info, core.info uuid = some info → ¬ (info.takesPart group ∧ tag = label))
    (same : ∀ info after, core.info uuid = some info → next.info uuid = some after →
      after.collectiveComsStates.lookup tag = info.collectiveComsStates.lookup tag)
    (follows : Follows decided tag (place core current uuid tag) (core.log uuid tag) endpoint) :
    Follows decided tag (place next (Core.assign current group label number) uuid tag)
      (next.log uuid tag) endpoint := by
  have log : next.log uuid tag = core.log uuid tag := by
    rw [tells.log, if_neg, List.append_nil]
    rintro ⟨here, part⟩
    obtain ⟨info, found, part⟩ := Option.any_eq_true _ _ |>.mp part
    exact outside info found ⟨part, here⟩
  have still : place next (Core.assign current group label number) uuid tag =
      place core current uuid tag := by
    cases after : next.info uuid with
    | none =>
      have before : core.info uuid = none := by
        by_contra present
        obtain ⟨info, found⟩ := Option.ne_none_iff_exists'.mp present
        obtain ⟨_, there⟩ := tells.stay uuid info found
        rw [after] at there
        cases there
      rw [place_of_none before, place_of_none after]
    | some info =>
      obtain ⟨before, found, group', _⟩ := tells.infos uuid info after
      rw [place_of_some found, place_of_some after, same before info found after, group',
        Core.assign_apply, tells.abortStates]
      refine placeOf_of_busy fun busy => ?_
      -- Whoever is busy with the operation of a group takes part in it.
      have elsewhere : ¬ (before.peerGroup = group ∧ tag = label) := by
        rintro ⟨rfl, here⟩
        exact outside before found ⟨(states.sound uuid before found).takesPart_of_busy busy, here⟩
      rw [if_neg elsewhere, if_neg elsewhere]
      exact ⟨rfl, rfl⟩
  rw [log, still]
  exact follows

theorem log_of_told {next : Core} {told : List Signal} {performs aborted : Bool}
    (tells : core.Tells next group label told performs aborted) {info : ClientInfo}
    (found : core.info uuid = some info) (part : info.takesPart group) :
    next.log uuid label = core.log uuid label ++ told := by
  rw [tells.log, if_pos ⟨rfl, by simp [found, part]⟩]

theorem follows_commence (states : core.States) (enabled : core.enabled (.commence group label))
    (follows : Follows decided tag (place core current uuid tag) (core.log uuid tag) endpoint) :
    Follows decided tag
      (place (core.apply environment (.commence group label))
        (Core.assign current group label (core.collective.sequenceNumber + 1)) uuid tag)
      ((core.apply environment (.commence group label)).log uuid tag) endpoint := by
  have tells := @Core.tells_commence core environment _ _ enabled
  by_cases told : ∃ info, core.info uuid = some info ∧ info.takesPart group ∧ tag = label
  · obtain ⟨info, found, part, rfl⟩ := told
    obtain ⟨next, present, moves⟩ := @Core.moves_on _ environment _ rfl enabled _ _ found
    cases moves with
    | skip outside => exact absurd part outside
    | commence _ _ voted =>
      have here := ((info.takesPart_iff _).mp part).2
      rw [place_of_some found, voted] at follows
      rw [log_of_told tells found part, place_of_some present, Core.assign_apply, if_pos ⟨here, rfl⟩]
      simpa [ClientInfo.setTag, placeOf] using follows.commences _ _
  · refine follows_untold states tells (fun info found part => told ⟨info, found, part⟩)
      (fun info after found present => ?_) follows
    obtain ⟨_, again, moves⟩ := Core.moved rfl enabled present
    cases found.symm.trans again
    cases moves with
    | skip => rfl
    | commence part =>
      have other : tag ≠ label := fun same => told ⟨info, found, part, same⟩
      simp [ClientInfo.setTag, other]

theorem follows_abort (states : core.States) (enabled : core.enabled (.abort group label))
    (follows : Follows decided tag (place core current uuid tag) (core.log uuid tag) endpoint) :
    Follows decided tag (place (core.apply environment (.abort group label)) current uuid tag)
      ((core.apply environment (.abort group label)).log uuid tag) endpoint := by
  cases flag : core.collective.abortStates group label with
  | true => simpa [Core.apply, flag] using follows
  | false =>
    have tells := @Core.tells_abort core environment _ _ states enabled flag
    have infos : (core.apply environment (.abort group label)).info uuid = core.info uuid := by
      simp [Core.apply, flag]
    by_cases told : ∃ info, core.info uuid = some info ∧ info.takesPart group ∧ tag = label
    · obtain ⟨info, found, part, rfl⟩ := told
      have here := ((info.takesPart_iff _).mp part).2
      have busy := (Core.performs_of_enabled states enabled found part).1
      rw [place_of_some found, here, flag] at follows
      rw [log_of_told tells found part, place_of_some (infos.trans found), tells.abortStates, here,
        if_pos ⟨rfl, rfl⟩]
      rcases (by simpa [ClientInfo.busy, Phase.takes] using busy) with held | held
      · rw [held] at follows ⊢
        exact follows.aborts
      · rw [held] at follows ⊢
        exact follows.aborts_voted
    · have unchanged : Core.assign current group label (current group label) = current := by
        simp [Core.assign]
      rw [← unchanged]
      refine follows_untold states tells (fun info found part => told ⟨info, found, part⟩)
        (fun info after found present => ?_) follows
      cases found.symm.trans (infos ▸ present)
      rfl

theorem follows_finish (states : core.States) (enabled : core.enabled (.finish group label))
    {later : Nat → Option Bool}
    (keeps : ∀ operation, decided operation ≠ none → later operation = decided operation)
    (verdict : ∀ uuid info, core.info uuid = some info → info.takesPart group →
      later (current group label) = some (core.collective.abortStates group label))
    (follows : Follows decided tag (place core current uuid tag) (core.log uuid tag) endpoint) :
    Follows later tag
      (place (core.apply environment (.finish group label)) (Core.assign current group label 0) uuid tag)
      ((core.apply environment (.finish group label)).log uuid tag) endpoint := by
  have tells := @Core.tells_finish core environment _ _ enabled
  have follows := follows.mono keeps
  by_cases told : ∃ info, core.info uuid = some info ∧ info.takesPart group ∧ tag = label
  · obtain ⟨info, found, part, rfl⟩ := told
    obtain ⟨next, present, moves⟩ := @Core.moves_on _ environment _ rfl enabled _ _ found
    cases moves with
    | skip outside => exact absurd part outside
    | finish _ _ voted =>
      have here := ((info.takesPart_iff _).mp part).2
      rw [place_of_some found, voted, here] at follows
      rw [log_of_told tells found part, place_of_some present]
      simpa [ClientInfo.eraseTag, placeOf] using follows.finishes (verdict uuid info found part)
  · refine follows_untold states tells (fun info found part => told ⟨info, found, part⟩)
      (fun info after found present => ?_) follows
    obtain ⟨_, again, moves⟩ := Core.moved rfl enabled present
    cases found.symm.trans again
    cases moves with
    | skip => rfl
    | finish part =>
      have other : tag ≠ label := fun same => told ⟨info, found, part, same⟩
      simp [ClientInfo.eraseTag, other]

end Places

theorem amend_apply (endpoints : Uuid → Tag → Endpoint) (uuid : Uuid) (tag : Tag) (endpoint : Endpoint)
    (other : Uuid) (label : Tag) :
    amend endpoints uuid tag endpoint other label =
      if other = uuid ∧ label = tag then endpoint else endpoints other label := by
  unfold amend
  by_cases here : other = uuid
  · subst here
    by_cases same : label = tag <;> simp [same]
  · simp [here]

section Actions

variable {watched : Uuid → Tag → Prop} {core next : Core} {environment : Environment}
  {endpoints : Uuid → Tag → Endpoint}

theorem Agreeing.amend (agreeing : Agreeing watched core endpoints) {uuid : Uuid} {tag : Tag}
    {endpoint : Endpoint}
    (goes : watched uuid tag → ∀ decided place,
      Follows decided tag place (core.log uuid tag) (endpoints uuid tag) →
        Follows decided tag place (core.log uuid tag) endpoint) :
    Agreeing watched core (amend endpoints uuid tag endpoint) := by
  obtain ⟨decided, current, linked⟩ := agreeing
  refine ⟨decided, current, linked.numbering, fun other label watches => ?_⟩
  rw [amend_apply]
  split
  · next here =>
    obtain ⟨rfl, rfl⟩ := here
    exact goes watches _ _ (linked.follows other label watches)
  · exact linked.follows other label watches

theorem Agreeing.apply (agreeing : Agreeing watched core endpoints) (valid : core.Valid environment)
    {action : Master.Action} (enabled : core.enabled action)
    (unmoved : ∀ uuid tag, ¬ stirs action uuid tag) :
    Agreeing watched (core.apply environment action) endpoints := by
  obtain ⟨decided, current, linked⟩ := agreeing
  have quiet (quiet : action.tells = false) : Agreeing watched (core.apply environment action) endpoints :=
    ⟨decided, current, numbering_quiet valid enabled quiet linked.numbering, fun uuid tag watches =>
      follows_quiet valid enabled quiet (unmoved uuid tag) (linked.follows uuid tag watches)⟩
  cases action with
  | commence group tag =>
    exact ⟨_, _, linked.numbering.commence valid.states enabled, fun uuid tag watches =>
      follows_commence valid.states enabled (linked.follows uuid tag watches)⟩
  | abort group tag =>
    exact ⟨_, _, linked.numbering.abort valid.states enabled, fun uuid tag watches =>
      follows_abort valid.states enabled (linked.follows uuid tag watches)⟩
  | finish group tag =>
    obtain ⟨later, keeps, verdict, numbering⟩ := linked.numbering.finish valid.states enabled
    exact ⟨_, _, numbering, fun uuid tag watches =>
      follows_finish valid.states enabled keeps verdict (linked.follows uuid tag watches)⟩
  | _ => exact quiet rfl

theorem Agreeing.answers (agreeing : Agreeing watched core endpoints) (valid : core.Valid environment)
    (answers : core.Answers environment next) : Agreeing watched next endpoints := by
  refine (answers.keeps (fun core => Agreeing watched core endpoints) ?_ valid agreeing).2
  intro core action answer valid enabled agreeing
  refine agreeing.apply valid enabled fun uuid tag => ?_
  cases action with
  | initiate | complete => cases answer
  | _ => exact id

theorem Agreeing.acts (agreeing : Agreeing watched core endpoints) (valid : core.Valid environment)
    {action : Master.Action} (enabled : core.enabled action) (quiet : action.tells = false) {uuid : Uuid}
    {tag : Tag} {endpoint : Endpoint}
    (unmoved : ∀ other label, ¬ (other = uuid ∧ label = tag) → ¬ stirs action other label)
    (goes : ∀ decided current,
      Follows decided tag (place core current uuid tag) (core.log uuid tag) (endpoints uuid tag) →
        Follows decided tag (place (core.apply environment action) current uuid tag)
          (core.log uuid tag) endpoint) :
    Agreeing watched (core.apply environment action) (Session.amend endpoints uuid tag endpoint) := by
  obtain ⟨decided, current, linked⟩ := agreeing
  refine ⟨decided, current, numbering_quiet valid enabled quiet linked.numbering,
    fun other label watches => ?_⟩
  rw [amend_apply]
  split
  · next here =>
    obtain ⟨rfl, rfl⟩ := here
    rw [(Core.untold_apply quiet).1]
    exact goes _ _ (linked.follows other label watches)
  · next elsewhere =>
    exact follows_quiet valid enabled quiet (unmoved other label elsewhere)
      (linked.follows other label watches)

variable {uuid : Uuid} {tag : Tag} {outbox : List C2MPacket}

theorem Agreeing.initiate (agreeing : Agreeing watched core endpoints) (valid : core.Valid environment)
    (enabled : core.enabled (.initiate uuid tag)) {dataType : Ring.DataType} {count : Nat}
    {op : Ring.ReduceOp}
    (first : (endpoints uuid tag).outbox = .collectiveCommsInitiate tag dataType count op :: outbox) :
    Agreeing watched (core.apply environment (.initiate uuid tag))
      (Session.amend endpoints uuid tag { endpoints uuid tag with outbox }) := by
  refine agreeing.acts valid enabled rfl (fun _ _ elsewhere => elsewhere) fun decided current follows => ?_
  obtain ⟨info, found, accepted, state, fresh⟩ := id enabled
  obtain ⟨next, present, moves⟩ := @Core.moves_on _ environment _ rfl enabled _ _ found
  have absent : info.collectiveComsStates.lookup tag = none := AList.lookup_eq_none.mpr fresh
  rw [place_of_some found, absent] at follows
  rw [place_of_some present]
  cases moves with
  | skip other => exact absurd rfl other
  | initiate => simpa [ClientInfo.setTag, ClientInfo.enter, placeOf] using follows.initiates first

theorem Agreeing.complete (agreeing : Agreeing watched core endpoints) (valid : core.Valid environment)
    (enabled : core.enabled (.complete uuid tag)) {wasAborted : Bool}
    (first : (endpoints uuid tag).outbox = .collectiveCommsComplete tag wasAborted :: outbox)
    (heeded : wasAborted = true → ∀ info, core.info uuid = some info →
      core.collective.abortStates info.peerGroup tag = true) :
    Agreeing watched (core.apply environment (.complete uuid tag))
      (Session.amend endpoints uuid tag { endpoints uuid tag with outbox }) := by
  refine agreeing.acts valid enabled rfl (fun _ _ elsewhere => elsewhere) fun decided current follows => ?_
  obtain ⟨info, found, accepted, performs⟩ := id enabled
  obtain ⟨next, present, moves⟩ := @Core.moves_on _ environment _ rfl enabled _ _ found
  rw [place_of_some found, performs] at follows
  rw [place_of_some present]
  cases moves with
  | skip other => exact absurd rfl other
  | complete =>
    rw [(Core.untold_apply rfl).2]
    simpa [ClientInfo.setTag, placeOf] using
      follows.completes first fun aborted => heeded aborted info found

end Actions

section Votes

variable {watched : Uuid → Tag → Prop} {environment : Environment} {uuid : Uuid} {tag : Tag}

theorem aborts_of_complete {core : Core} {info : ClientInfo} (found : core.info uuid = some info)
    (enabled : core.enabled (.complete uuid tag)) : core.enabled (.abort info.peerGroup tag) := by
  obtain ⟨accepted, performs⟩ := enabled.of_info found
  exact ⟨uuid, info, found, (info.takesPart_iff _).mpr ⟨accepted, rfl⟩, Or.inl performs⟩

theorem abort_complete (core : Core) (group : Group) :
    (core.apply environment (.complete uuid tag)).apply environment (.abort group tag) =
      (core.apply environment (.abort group tag)).apply environment (.complete uuid tag) := by
  have members (other : Uuid) : ((core.move (.complete uuid tag)).info other).any (Core.runs group) =
      (core.info other).any (Core.runs group) := by
    rw [Core.info_move, Option.any_map]
    congr 1
    funext info
    simp only [Master.Action.change]
    split <;> rfl
  cases flag : core.collective.abortStates group tag with
  | true =>
    have before : core.apply environment (.abort group tag) = core := by simp [Core.apply, flag]
    have after : (core.apply environment (.complete uuid tag)).collective.abortStates group tag = true := by
      rw [(Core.untold_apply rfl).2, flag]
    rw [before]
    exact if_pos after
  | false =>
    have before : core.apply environment (.abort group tag) =
        (core.notify (Core.runs group) tag (.abort true)).setAbort group tag true := by
      simp [Core.apply, flag]
    have after : (core.move (.complete uuid tag)).collective.abortStates group tag = false := flag
    rw [before]
    change (if (core.move (.complete uuid tag)).collective.abortStates group tag then _
      else ((core.move (.complete uuid tag)).notify (Core.runs group) tag (.abort true)).setAbort
        group tag true) = _
    rw [after, if_neg Bool.false_ne_true]
    simp only [Core.notify, members]
    rfl

def heed (environment : Environment) (core : Core) (uuid : Uuid) (group : Group) (tag : Tag)
    (wasAborted : Bool) : Core :=
  if wasAborted then (core.apply environment (.complete uuid tag)).apply environment (.abort group tag)
  else core.apply environment (.complete uuid tag)

theorem info_abort (core : Core) (group : Group) (other : Uuid) :
    (core.apply environment (.abort group tag)).info other = core.info other := by
  simp only [Core.apply]
  split <;> rfl

theorem complete_after_abort {core : Core} (enabled : core.enabled (.complete uuid tag)) (group : Group) :
    (core.apply environment (.abort group tag)).enabled (.complete uuid tag) := by
  simpa only [Core.enabled, Core.Has, info_abort] using enabled

theorem Agreeing.heed {core : Core} {endpoints : Uuid → Tag → Endpoint}
    (agreeing : Agreeing watched core endpoints)
    (valid : core.Valid environment) {info : ClientInfo} (found : core.info uuid = some info)
    (enabled : core.enabled (.complete uuid tag)) {wasAborted : Bool} {outbox : List C2MPacket}
    (first : (endpoints uuid tag).outbox = .collectiveCommsComplete tag wasAborted :: outbox) :
    (heed environment core uuid info.peerGroup tag wasAborted).Valid environment ∧
      Agreeing watched (heed environment core uuid info.peerGroup tag wasAborted)
        (Session.amend endpoints uuid tag { endpoints uuid tag with outbox }) := by
  cases wasAborted with
  | false => exact ⟨valid.apply enabled, agreeing.complete valid enabled first nofun⟩
  | true =>
    have aborts := aborts_of_complete found enabled
    have votes := @complete_after_abort environment _ _ _ enabled info.peerGroup
    have flag : (core.apply environment (.abort info.peerGroup tag)).collective.abortStates
        info.peerGroup tag = true := by
      simp only [Core.apply]
      split
      · next flag => exact flag
      · simp [Core.setAbort]
    simp only [Session.heed, if_true]
    rw [abort_complete]
    refine ⟨(valid.apply aborts).apply votes, ?_⟩
    refine (agreeing.apply valid aborts fun _ _ => id).complete (valid.apply aborts) votes first
      fun _ other present => ?_
    rw [info_abort] at present
    cases found.symm.trans present
    exact flag

theorem handleCollectiveCommsComplete_heeds {master : MasterState}
    (valid : master.core.Valid environment) {address : SocketAddress}
    (known : master.core.clients.clientUuids.lookup address = some uuid) (wasAborted : Bool) :
    (handleCollectiveCommsComplete address tag wasAborted).Meets master
      (fun _ next => next.core = master.core ∨ ∃ info, master.core.info uuid = some info ∧
        master.core.enabled (.complete uuid tag) ∧
        (heed environment master.core uuid info.peerGroup tag wasAborted).Answers environment next.core)
      (fun exit => Fatal environment master.core exit ∨ ∃ info, master.core.info uuid = some info ∧
        master.core.enabled (.complete uuid tag) ∧
        Fatal environment (heed environment master.core uuid info.peerGroup tag wasAborted) exit) := by
  have named : master.findClientUUID address = some uuid := known
  refine .read ?_
  rw [named]
  refine Meets.bind ((voteCollectiveCommsComplete_takes uuid tag master valid).imp (fun _ _ taken => taken)
    fun _ unseen => Or.inl (unseen.fatal valid.registry)) ?_
  rintro counted middle (⟨rfl, enabled, reached⟩ | ⟨rfl, same⟩)
  · obtain ⟨info, found, accepted, performs⟩ := id enabled
    have between : middle.core.Valid environment := reached ▸ valid.apply enabled
    have after : middle.getClientInfo uuid = some (info.setTag tag .voteComplete) := by
      change middle.core.info uuid = _
      rw [reached, Core.info_apply _ rfl, found]
      simp [Master.Action.change]
    refine .read ?_
    rw [after]
    have aborts : middle.core.enabled (.abort info.peerGroup tag) := by
      refine ⟨uuid, _, after, ?_, Or.inr ?_⟩
      · simp [ClientInfo.takesPart, ClientInfo.setTag, accepted]
      · simp [ClientInfo.setTag]
    have heeds (fail : Exit → Prop) : (when wasAborted (abortOperation info.peerGroup tag)).Meets middle
        (fun _ next => next.core.Valid environment ∧
          next.core = heed environment master.core uuid info.peerGroup tag wasAborted) fail := by
      refine (meets_when _ _).mpr ⟨fun aborted => ?_, fun kept => ?_⟩
      · refine (abortOperation_meets between info.peerGroup tag).imp (fun _ next applied => ?_)
          fun _ exit => exit
        rw [applied]
        exact ⟨between.apply aborts, by rw [reached]; exact (if_pos aborted).symm⟩
      · exact ⟨between, reached.trans (if_neg kept).symm⟩
    refine Meets.bind (heeds _) fun _ next heeded => ?_
    refine (checkCollectiveCommsCompleteConsensus_resolves info.peerGroup tag next heeded.1).imp
      (fun _ last settled => ?_) fun exit fatal => ?_
    · exact Or.inr ⟨info, found, enabled, heeded.2 ▸ settled.1.answers⟩
    · exact Or.inr ⟨info, found, enabled, heeded.2 ▸ fatal⟩
  · refine (Keeps.kickClient address middle rfl).imp (fun _ next kept => Or.inl (kept.trans same))
      fun exit unseen => Or.inl (same ▸ unseen.fatal (same ▸ valid.registry))

end Votes

section Runs

variable (environment : Environment) (watched : Uuid → Tag → Prop)

def Reaches (endpoints : Uuid → Tag → Endpoint) (server : Server) : Prop :=
  server.Holds (fun master => master.core.Valid environment ∧ Agreeing watched master.core endpoints)
    fun exit => ∃ core : Core, core.log = signals exit.master.sent ∧ Agreeing watched core endpoints

variable {environment watched} {endpoints : Uuid → Tag → Endpoint} {master : MasterState}

theorem Agreeing.fatal {core : Core} (agreeing : Agreeing watched core endpoints)
    (valid : core.Valid environment)
    {exit : Exit} (fatal : Fatal environment core exit) :
    ∃ core : Core, core.log = signals exit.master.sent ∧ Agreeing watched core endpoints := by
  obtain ⟨_, reached, answers, log⟩ := fatal
  exact ⟨reached, log.symm, agreeing.answers valid answers⟩

theorem serve_reaches (valid : master.core.Valid environment)
    (agreeing : Agreeing watched master.core endpoints)
    (event : Event)
    (acts : ∀ action, event.action? master.core = some action → master.core.enabled action →
      Agreeing watched (master.core.apply environment action) endpoints) :
    Reaches environment watched endpoints (serve environment event (.ok master)) := by
  refine serve_holds ((handle_served valid event).imp (fun _ next served => ?_) fun exit ended => ?_)
  · refine ⟨served.valid valid, ?_⟩
    rcases served with same | ⟨action, is, enabled, follows, _⟩
    · exact same ▸ agreeing
    · exact (acts action is enabled).answers (valid.apply enabled) follows.answers
  · cases ended with
    | early fatal => exact agreeing.fatal valid fatal
    | late action is enabled fatal => exact (acts action is enabled).fatal (valid.apply enabled) fatal
    | jammed action is enabled _ closing _ =>
      have applied := acts action is enabled
      cases action with
      | report => exact ⟨_, (congrArg Core.log closing).symm, applied⟩
      | leave address uuid =>
        obtain ⟨middle, establishes, reached⟩ := closing
        have later := applied.answers (valid.apply enabled) establishes.answers
        exact ⟨middle, (congrArg Core.log reached).symm, later⟩
      | _ => cases closing

theorem Reaches.amend {server : Server} (reaches : Reaches environment watched endpoints server) {uuid : Uuid}
    {tag : Tag} {endpoint : Endpoint}
    (goes : watched uuid tag → ∀ decided place,
      Follows decided tag place (signals server.sent uuid tag) (endpoints uuid tag) →
        Follows decided tag place (signals server.sent uuid tag) endpoint) :
    Reaches environment watched (Session.amend endpoints uuid tag endpoint) server := by
  cases reaches with
  | serves holds => exact .serves ⟨holds.1, holds.2.amend goes⟩
  | stopped ends =>
    obtain ⟨core, log, agreeing⟩ := ends
    refine .stopped ⟨core, log, agreeing.amend ?_⟩
    rw [log]
    exact goes

theorem deliver_reaches {fleet : Fleet} (reaches : Reaches environment watched fleet.endpoints fleet.server)
    {uuid : Uuid} {tag : Tag} (writes : (fleet.endpoints uuid tag).Writes tag) :
    Reaches environment watched (fleet.deliver environment uuid tag).endpoints
      (fleet.deliver environment uuid tag).server := by
  unfold Fleet.deliver
  split
  · next master packet outbox served first =>
    rw [served] at reaches
    obtain ⟨valid, agreeing⟩ :
        master.core.Valid environment ∧ Agreeing watched master.core fleet.endpoints := by
      cases reaches with
      | serves holds => exact holds
    have ignored : Agreeing watched master.core
        (amend fleet.endpoints uuid tag { fleet.endpoints uuid tag with outbox }) :=
      agreeing.amend fun _ _ _ follows => follows.ignored first
    split
    · rw [served]
      exact .serves ⟨valid, agreeing⟩
    · next address registered =>
      have known := (valid.registry.inverse address uuid).mpr registered
      rcases writes.letters packet (by rw [first]; simp) with
        ⟨dataType, count, op, rfl⟩ | ⟨wasAborted, rfl⟩
      · refine serve_reaches valid ignored _ fun action is enabled => ?_
        have asked : some (Master.Action.initiate uuid tag) = some action := by
          simpa [Event.action?, known, request?] using is
        cases asked
        exact agreeing.initiate valid enabled first
      · refine serve_holds ((handleCollectiveCommsComplete_heeds valid known wasAborted).imp
          (fun _ next heeds => ?_) fun exit ends => ?_)
        · rcases heeds with same | ⟨info, found, enabled, answers⟩
          · exact same ▸ ⟨valid, ignored⟩
          · obtain ⟨voted, heeded⟩ := agreeing.heed valid found enabled first
            exact ⟨answers.valid voted, heeded.answers voted answers⟩
        · rcases ends with fatal | ⟨info, found, enabled, fatal⟩
          · exact ignored.fatal valid fatal
          · obtain ⟨voted, heeded⟩ := agreeing.heed valid found enabled first
            exact heeded.fatal voted fatal
  · exact reaches

theorem unmoved_of_other {event : Event} {action : Master.Action}
    (is : event.action? master.core = some action) (other : ofTask master event = false) (uuid : Uuid)
    (tag : Tag) : ¬ stirs action uuid tag := by
  rcases event.action_cases is with (rfl | ⟨_, _, _, rfl⟩) | ⟨address, packet, client, rfl, known, asked⟩ |
    ⟨_, _, _, _, rfl⟩
  · exact id
  · exact id
  · have registered : address ∈ master.clients.clientUuids :=
      AList.lookup_isSome.mp (Option.isSome_iff_exists.mpr ⟨client, known⟩)
    cases packet with
    | collectiveCommsInitiate | collectiveCommsComplete => simp [ofTask, registered] at other
    | _ => cases asked <;> exact id
  · exact id

theorem step_reaches {fleet : Fleet} (reaches : Reaches environment watched fleet.endpoints fleet.server)
    (writes : ∀ uuid tag, (fleet.endpoints uuid tag).Writes tag) (event : FleetEvent)
    (rings : ∀ uuid launch, event = .launch uuid launch → watched uuid launch.cfg.tag →
      2 ≤ launch.ringOrder.length) :
    Reaches environment watched (fleet.step environment event).endpoints
      (fleet.step environment event).server := by
  cases event with
  | master event =>
    dsimp only [Fleet.step]
    split
    · next master served =>
      split
      · exact reaches
      · next other =>
        rw [served] at reaches
        obtain ⟨valid, agreeing⟩ :
            master.core.Valid environment ∧ Agreeing watched master.core fleet.endpoints := by
          cases reaches with
          | serves holds => exact holds
        refine serve_reaches valid agreeing event fun action is enabled => ?_
        exact agreeing.apply valid enabled (unmoved_of_other is (Bool.eq_false_of_not_eq_true other))
    · exact reaches
  | launch uuid launch =>
    exact reaches.amend fun watches _ _ follows => follows.start rfl (rings uuid launch rfl watches)
  | send uuid tag delivered => exact reaches.amend fun _ _ _ follows => follows.send delivered
  | deliver uuid tag => exact deliver_reaches reaches (writes uuid tag)
  | arrive uuid tag => exact reaches.amend fun _ _ _ follows => follows.arrive
  | receive uuid tag => exact reaches.amend fun _ _ _ follows => follows.receive
  | exchange uuid tag observed inbox =>
    exact reaches.amend fun _ _ _ follows => follows.exchange observed inbox
  | lose uuid tag => exact reaches.amend fun _ _ _ follows => follows.lose

theorem amend_writes (writes : ∀ uuid tag, (endpoints uuid tag).Writes tag) {uuid : Uuid} {tag : Tag}
    {endpoint : Endpoint} (goes : endpoint.Writes tag) (other : Uuid) (label : Tag) :
    (amend endpoints uuid tag endpoint other label).Writes label := by
  rw [amend_apply]
  split
  · next here =>
    obtain ⟨rfl, rfl⟩ := here
    exact goes
  · exact writes other label

theorem step_writes {fleet : Fleet} (writes : ∀ uuid tag, (fleet.endpoints uuid tag).Writes tag)
    (event : FleetEvent) (uuid : Uuid) (tag : Tag) :
    ((fleet.step environment event).endpoints uuid tag).Writes tag := by
  cases event with
  | master event =>
    dsimp only [Fleet.step]
    split
    · split <;> exact writes uuid tag
    · exact writes uuid tag
  | launch client launch => exact amend_writes writes ((writes client _).start rfl) uuid tag
  | send client label delivered => exact amend_writes writes ((writes client label).send delivered) uuid tag
  | deliver client label =>
    dsimp only [Fleet.step, Fleet.deliver]
    split
    · next master packet outbox served first =>
      split
      · exact writes uuid tag
      · have read : ({ fleet.endpoints client label with outbox } : Endpoint).Writes label :=
          (writes client label).fewer rfl (first ▸ List.subset_cons_self _ _)
        exact amend_writes writes read uuid tag
    · exact writes uuid tag
  | arrive client label => exact amend_writes writes ((writes client label).arrive _) uuid tag
  | receive client label => exact amend_writes writes (writes client label).receive uuid tag
  | exchange client label observed inbox =>
    exact amend_writes writes ((writes client label).exchange observed inbox) uuid tag
  | lose client label =>
    have lost : ({ fleet.endpoints client label with lost := true } : Endpoint).Writes label :=
      (writes client label).fewer rfl (List.Subset.refl _)
    exact amend_writes writes lost uuid tag

structure Fleet.Sound (environment : Environment) (watched : Uuid → Tag → Prop) (fleet : Fleet) : Prop where
  writes : ∀ uuid tag, (fleet.endpoints uuid tag).Writes tag
  reaches : Reaches environment watched fleet.endpoints fleet.server

theorem follows_idle (decided : Nat → Option Bool) (tag : Tag) (log : List Signal) (silent : log = []) :
    Follows decided tag .outside log .idle where
  outcomes _ member := by cases member
  arrived := Nat.zero_le _
  unread _ := rfl
  launched _ present := by cases present
  posted _ := Or.inl rfl
  stands _ := Or.inr (Or.inr (Or.inl (by rw [silent]; rfl)))

theorem Agreeing.initial : Agreeing watched Core.initial fun _ _ => .idle := by
  refine ⟨fun _ => none, fun _ _ => 0, .initial, fun uuid tag _ => ?_⟩
  rw [place_of_none (Core.info_initial uuid)]
  exact follows_idle _ tag _ rfl

theorem Fleet.Sound.initial : Fleet.initial.Sound environment watched := by
  have start : Reaches environment watched (fun _ _ => Endpoint.idle) (.ok MasterState.initial) :=
    .serves ⟨.initial environment, .initial⟩
  refine ⟨fun uuid tag => ⟨fun call present => ?_, fun packet member => ?_⟩, start⟩
  · cases present
  · cases member

theorem run_sound (environment : Environment) (watched : Uuid → Tag → Prop) (events : List FleetEvent)
    (rings : ∀ uuid launch, .launch uuid launch ∈ events → watched uuid launch.cfg.tag →
      2 ≤ launch.ringOrder.length) :
    (Fleet.run environment events).Sound environment watched := by
  let allowed (event : FleetEvent) (_ : Fleet) : Prop :=
    ∀ uuid launch, event = .launch uuid launch → watched uuid launch.cfg.tag → 2 ≤ launch.ringOrder.length
  have always (events : List FleetEvent) (fleet : Fleet)
      (rings : ∀ uuid launch, .launch uuid launch ∈ events → watched uuid launch.cfg.tag →
        2 ≤ launch.ringOrder.length) :
      Machine.Always (Fleet.step environment) allowed events fleet := by
    induction events generalizing fleet with
    | nil => trivial
    | cons event events ih =>
      refine ⟨fun uuid launch same => rings uuid launch (same ▸ List.mem_cons_self), ih _ ?_⟩
      exact fun uuid launch member => rings uuid launch (List.mem_cons_of_mem _ member)
  have keeps (event : FleetEvent) (fleet : Fleet) (sound : fleet.Sound environment watched)
      (rings : allowed event fleet) : (fleet.step environment event).Sound environment watched :=
    ⟨step_writes sound.writes event, step_reaches sound.reaches sound.writes event rings⟩
  exact Machine.run_preserves keeps events _ .initial (always events _ rings)

theorem Fleet.Sound.agreeing {fleet : Fleet} (sound : fleet.Sound environment watched) :
    ∃ core, Agreeing watched core fleet.endpoints := by
  obtain ⟨server, endpoints⟩ := fleet
  cases sound.reaches with
  | serves holds => exact ⟨_, holds.2⟩
  | stopped ends =>
    obtain ⟨core, _, agreeing⟩ := ends
    exact ⟨core, agreeing⟩

theorem outcomes_agree (environment : Environment) (events : List FleetEvent) (uuid other : Uuid)
    (tag label : Tag)
    (rings : ∀ client launch, .launch client launch ∈ events →
      (client = uuid ∧ launch.cfg.tag = tag) ∨ (client = other ∧ launch.cfg.tag = label) →
      2 ≤ launch.ringOrder.length)
    (operation : Nat) (promise another : Bool)
    (first : (operation, promise) ∈ ((Fleet.run environment events).endpoints uuid tag).outcomes)
    (second : (operation, another) ∈ ((Fleet.run environment events).endpoints other label).outcomes) :
    promise = another := by
  obtain ⟨core, decided, current, linked⟩ := (run_sound environment
    (fun client name => (client = uuid ∧ name = tag) ∨ (client = other ∧ name = label)) events
    rings).agreeing
  have verdict := (linked.follows uuid tag (Or.inl ⟨rfl, rfl⟩)).outcomes _ first
  have again := (linked.follows other label (Or.inr ⟨rfl, rfl⟩)).outcomes _ second
  rw [verdict] at again
  simpa using again

end Runs

namespace Sample

def launch (client : Uuid) : Launch where
  cfg := ⟨2, 2, .int16, .int16, .none, .sum, 7, Ring.constantKernel .int16 .int16⟩
  ringOrder := [0, 1]
  uuid := client
  inPlace := false
  sendbuff := [1, 0, 2, 0]
  recvbuff := [0, 0, 0, 0]
  chunkSize := 64
  world := by decide
  aliased := nofun

def exchange (client : Uuid) (inbox : List (List Byte)) : FleetEvent :=
  .exchange client 7 ⟨1, true, false⟩ inbox

def broken : List FleetEvent :=
  Master.Sample.pair.map .master ++
    [.launch 0 (launch 0), .send 0 7 true, .deliver 0 7, .launch 1 (launch 1), .send 1 7 true, .deliver 1 7,
      .arrive 0 7, .receive 0 7, exchange 0 [], exchange 0 [[20, 0]], exchange 0 [], exchange 0 [],
      exchange 0 [[11, 0]], exchange 0 [], .send 0 7 true, .deliver 0 7,
      .arrive 1 7, .receive 1 7, .exchange 1 7 ⟨0, false, false⟩ [], .send 1 7 true, .deliver 1 7,
      .arrive 0 7, .receive 0 7, .arrive 0 7, .receive 0 7,
      .arrive 1 7, .receive 1 7, .arrive 1 7, .receive 1 7]

end Sample

open Sample

theorem outcomes_agree_broken :
    (∀ uuid launch, .launch uuid launch ∈ broken → 2 ≤ launch.ringOrder.length) ∧
      (1, false) ∈ ((Fleet.run Master.Sample.environment broken).endpoints 0 7).outcomes ∧
      (1, false) ∈ ((Fleet.run Master.Sample.environment broken).endpoints 1 7).outcomes ∧
      ∀ promise,
        (1, promise) ∈ ((Fleet.run Master.Sample.environment broken).endpoints 1 7).outcomes →
          false = promise := by
  have rings (uuid : Uuid) (launch : Launch) (member : .launch uuid launch ∈ broken) :
      2 ≤ launch.ringOrder.length := by
    simp [broken, Master.Sample.pair, exchange] at member
    rcases member with ⟨_, rfl⟩ | ⟨_, rfl⟩ <;> exact le_refl 2
  have first : (1, false) ∈
      ((Fleet.run Master.Sample.environment broken).endpoints 0 7).outcomes := by decide +kernel
  exact ⟨rings, first, by decide +kernel, fun promise second =>
    outcomes_agree _ _ 0 1 7 7 (fun client launch member _ => rings client launch member) 1 false promise
      first second⟩

end Pccl.Session
