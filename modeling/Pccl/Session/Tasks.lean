import Pccl.Ring.Endings
import Pccl.Session.Fleet

set_option autoImplicit false

namespace Pccl.Ring

open Buffer

def Unaborted (state : RankState) : Prop := ∀ success, state.outcome ≠ .returned success true

theorem Unaborted.of_ending {call : Call} {state : RankState} (ending : Ending call false state) :
    Unaborted state := by
  intro success returned
  cases ending with
  | running outcome => cases outcome.symm.trans returned
  | terminated outcome => cases outcome.symm.trans returned
  | finished outcome => cases outcome.symm.trans returned
  | broken before gaveUp =>
    rw [gaveUp] at returned
    cases returned
  | aborted _ _ told => cases told

end Pccl.Ring

namespace Pccl.Session

open Buffer Packet Client Master
open Pccl.Ring (Observation RankState Unaborted)

def waits : TaskPc → Bool
  | .awaitCommence | .awaitAbort | .awaitComplete => true
  | _ => false

def hasVoted : TaskPc → Bool
  | .awaitAbort | .awaitComplete => true
  | _ => false

def Call.Heard (call : Call) : Prop :=
  (call.task.pc = .complete ∧ call.task.abortReceived = true) ∨ call.task.pc = .awaitComplete

/-- Where a client stands in the operation with a tag, as the master sees it. -/
inductive Place where
  | outside
  | free
  | voting
  | performing (operation : Nat) (aborted : Bool)
  | voted (operation : Nat) (aborted : Bool)

namespace Endpoint

def At (condition : Call → Prop) (endpoint : Endpoint) : Prop :=
  ∃ call, endpoint.call = some call ∧ condition call

def inbox (log : List Signal) (endpoint : Endpoint) : List Signal :=
  endpoint.queue ++ log.drop endpoint.arrived

variable (inbox : List Signal) (endpoint : Endpoint)

def Posted (tag : Tag) : Prop :=
  endpoint.outbox = [] ∨
    (endpoint.At (fun call => call.task.pc = .awaitCommence ∧
        ∃ dataType count op, endpoint.outbox = [.collectiveCommsInitiate tag dataType count op]) ∧
      ∀ operation, .commence operation ∉ inbox) ∨
    endpoint.At fun call => hasVoted call.task.pc = true ∧
      endpoint.outbox = [.collectiveCommsComplete tag (call.launch.wasAborted call.task)]

def Opens (operation : Nat) (aborted : Bool) : Prop :=
  endpoint.outbox = [] ∧ endpoint.At (fun call => call.task.pc = .awaitCommence) ∧
    (inbox = [.commence operation] ∨ (inbox = [.commence operation, .abort true] ∧ aborted = true))

def Quiet (aborted : Bool) : Prop := inbox = [] ∨ (inbox = [.abort true] ∧ aborted = true)

structure Attends (operation : Nat) (aborted : Bool) : Prop where
  current : endpoint.operation = operation
  quiet : Quiet inbox aborted
  heard : ∀ call, endpoint.call = some call → call.Heard →
    aborted = true ∧ inbox = [] ∧ call.task.aborted = true

/-- The operation is over and the task has yet to learn it. A task that finds no verdict in its queue
waits for it in vain. -/
def Ends (decided : Nat → Option Bool) : Prop :=
  ∃ verdict, decided endpoint.operation = some verdict ∧ endpoint.outbox = [] ∧
    endpoint.At fun call => (call.launch.wasAborted call.task = true → verdict = true) ∧
      ((call.task.pc = .awaitAbort ∧ (inbox = [.abort verdict, .complete] ∨ inbox = [.complete])) ∨
        (call.task.pc = .awaitComplete ∧ call.task.aborted = verdict ∧ inbox = [.complete]))

def Stands (decided : Nat → Option Bool) : Place → Prop
  | .outside =>
    Ends inbox endpoint decided ∨ (∃ operation, Opens inbox endpoint operation true) ∨ Quiet inbox true
  | .free => Ends inbox endpoint decided ∨ inbox = []
  | .voting =>
    inbox = [] ∧ endpoint.outbox = [] ∧ endpoint.At fun call => call.task.pc = .awaitCommence
  | .performing operation aborted =>
    Opens inbox endpoint operation aborted ∨ Attends inbox endpoint operation aborted
  | .voted operation aborted =>
    Attends inbox endpoint operation aborted ∧ endpoint.outbox = [] ∧
      endpoint.At fun call => hasVoted call.task.pc = true ∧
        (call.launch.wasAborted call.task = true → aborted = true)

end Endpoint

/-- A client whose connection is lost receives nothing any more. -/
structure Follows (decided : Nat → Option Bool) (tag : Tag) (place : Place) (log : List Signal)
    (endpoint : Endpoint) : Prop where
  outcomes : ∀ outcome ∈ endpoint.outcomes, decided outcome.1 = some !outcome.2
  arrived : endpoint.arrived ≤ log.length
  unread : log = [] → endpoint.queue = []
  launched : ∀ call, endpoint.call = some call →
    call.launch.cfg.tag = tag ∧ 2 ≤ call.launch.ringOrder.length ∧
      ∀ position rank, call.task.pc = .ring position rank → rank.outcome = .running
  posted : endpoint.lost = false → endpoint.Posted (endpoint.inbox log) tag
  stands : endpoint.lost = false → endpoint.Stands (endpoint.inbox log) decided place

/-- What the task of a tag sends is about this tag. -/
structure Endpoint.Writes (tag : Tag) (endpoint : Endpoint) : Prop where
  labelled : ∀ call, endpoint.call = some call → call.launch.cfg.tag = tag
  letters : ∀ packet ∈ endpoint.outbox,
    (∃ dataType count op, packet = .collectiveCommsInitiate tag dataType count op) ∨
      ∃ wasAborted, packet = .collectiveCommsComplete tag wasAborted

namespace Endpoint

variable {decided : Nat → Option Bool} {place : Place} {inbox rest : List Signal} {tag : Tag}
  {endpoint next : Endpoint}

theorem Stands.congr (stands : endpoint.Stands inbox decided place) (call : next.call = endpoint.call)
    (outbox : next.outbox = endpoint.outbox) (operation : next.operation = endpoint.operation) :
    next.Stands inbox decided place := by
  have attends {number : Nat} {aborted : Bool} (attends : endpoint.Attends inbox number aborted) :
      next.Attends inbox number aborted :=
    ⟨operation.trans attends.current, attends.quiet, call ▸ attends.heard⟩
  cases place with
  | performing =>
    refine stands.imp (fun opens => ?_) attends
    simpa only [Opens, At, call, outbox] using opens
  | voted =>
    refine ⟨attends stands.1, ?_⟩
    simpa only [At, call, outbox] using stands.2
  | _ => simpa only [Stands, Ends, Opens, At, call, outbox, operation] using stands

theorem at_iff {call : Call} (present : endpoint.call = some call) {condition : Call → Prop} :
    endpoint.At condition ↔ condition call := by
  simp [At, present]

theorem At.not_active {condition : Call → Prop} (at_ : endpoint.At condition)
    (active : ∀ call, endpoint.call = some call → waits call.task.pc = false)
    (waiting : ∀ call, condition call → waits call.task.pc = true) : False := by
  obtain ⟨call, present, holds⟩ := at_
  simpa [active call present] using waiting call holds

def Waiting (endpoint : Endpoint) : Prop :=
  endpoint.outbox = [] ∧ endpoint.At fun call => waits call.task.pc = true

theorem Opens.waiting {operation : Nat} {aborted : Bool}
    (opens : endpoint.Opens inbox operation aborted) : endpoint.Waiting := by
  obtain ⟨posted, ⟨call, present, pc⟩, _⟩ := opens
  exact ⟨posted, call, present, congrArg waits pc⟩

theorem Ends.waiting (ends : endpoint.Ends inbox decided) : endpoint.Waiting := by
  obtain ⟨_, _, posted, call, present, _, ⟨pc, _⟩ | ⟨pc, _⟩⟩ := ends <;>
    exact ⟨posted, call, present, congrArg waits pc⟩

theorem waits_of_hasVoted {pc : TaskPc} (voted : hasVoted pc = true) : waits pc = true := by
  cases pc <;> first | rfl | cases voted

theorem Posted.of_active (posted : endpoint.Posted inbox tag)
    (active : ∀ call, endpoint.call = some call → waits call.task.pc = false) : endpoint.outbox = [] := by
  rcases posted with empty | ⟨initiating, _⟩ | completing
  · exact empty
  · exact (initiating.not_active active fun call holds => by rw [holds.1]; rfl).elim
  · exact (completing.not_active active fun call holds => waits_of_hasVoted holds.1).elim

theorem Stands.of_not_waiting (stands : endpoint.Stands inbox decided place)
    (busy : ¬ endpoint.Waiting) :
    (place = .outside ∧ Quiet inbox true) ∨ (place = .free ∧ inbox = []) ∨
      ∃ operation aborted, place = .performing operation aborted ∧
        endpoint.Attends inbox operation aborted := by
  cases place with
  | outside =>
    rcases stands with ends | ⟨_, opens⟩ | held
    · exact absurd ends.waiting busy
    · exact absurd opens.waiting busy
    · exact Or.inl ⟨rfl, held⟩
  | free =>
    rcases stands with ends | empty
    · exact absurd ends.waiting busy
    · exact Or.inr (Or.inl ⟨rfl, empty⟩)
  | voting =>
    obtain ⟨_, posted, call, present, pc⟩ := stands
    exact absurd ⟨posted, call, present, congrArg waits pc⟩ busy
  | performing operation aborted =>
    rcases stands with opens | attends
    · exact absurd opens.waiting busy
    · exact Or.inr (Or.inr ⟨operation, aborted, rfl, attends⟩)
  | voted =>
    obtain ⟨_, posted, call, present, voted, _⟩ := stands
    exact absurd ⟨posted, call, present, waits_of_hasVoted voted⟩ busy

theorem not_waiting_of_active
    (active : ∀ call, endpoint.call = some call → waits call.task.pc = false) : ¬ endpoint.Waiting :=
  fun waiting => waiting.2.not_active active fun _ holds => holds

theorem Stands.quiet (stands : endpoint.Stands inbox decided place)
    (active : ∀ call, endpoint.call = some call → waits call.task.pc = false) : Quiet inbox true := by
  rcases stands.of_not_waiting (not_waiting_of_active active) with
    ⟨_, quiet⟩ | ⟨_, empty⟩ | ⟨_, _, _, attends⟩
  · exact quiet
  · exact Or.inl empty
  · exact attends.quiet.imp id fun told => ⟨told.1, rfl⟩

theorem Stands.active (stands : endpoint.Stands inbox decided place)
    (active : ∀ call, endpoint.call = some call → waits call.task.pc = false)
    (same : next.operation = endpoint.operation) (shrinks : rest = inbox ∨ rest = [])
    (heard : ∀ operation aborted, endpoint.Attends inbox operation aborted →
      ∀ call, next.call = some call → call.Heard →
        aborted = true ∧ rest = [] ∧ call.task.aborted = true) :
    next.Stands rest decided place := by
  have quiet {aborted : Bool} (quiet : Quiet inbox aborted) : Quiet rest aborted := by
    rcases shrinks with rfl | rfl
    · exact quiet
    · exact Or.inl rfl
  rcases stands.of_not_waiting (not_waiting_of_active active) with
    ⟨rfl, held⟩ | ⟨rfl, rfl⟩ | ⟨operation, aborted, rfl, attends⟩
  · exact Or.inr (Or.inr (quiet held))
  · exact Or.inr (shrinks.elim id id)
  · exact Or.inr ⟨same.trans attends.current, quiet attends.quiet, heard operation aborted attends⟩

end Endpoint

section Steps

variable {position : Nat} {rank : RankState} {task : Task}

theorem afterExchange_running {place : Nat} {state : RankState}
    (pc : (afterExchange position rank task).pc = .ring place state) : state.outcome = .running := by
  unfold afterExchange at pc
  cases outcome : rank.outcome with
  | running =>
    simp only [outcome] at pc
    cases pc
    exact outcome
  | returned success abortReceived =>
    simp only [outcome] at pc
    cases pc
  | terminated =>
    simp only [outcome] at pc
    cases pc

theorem afterExchange_waits : waits (afterExchange position rank task).pc = false := by
  unfold afterExchange
  cases rank.outcome <;> rfl

theorem afterExchange_heard {launch : Launch}
    (heard : Call.Heard ⟨launch, afterExchange position rank task⟩) :
    ¬ Unaborted rank ∧ (afterExchange position rank task).aborted = true := by
  unfold afterExchange at heard ⊢
  cases outcome : rank.outcome with
  | running =>
    simp only [outcome] at heard
    rcases heard with ⟨pc, _⟩ | pc <;> cases pc
  | returned success abortReceived =>
    simp only [outcome] at heard
    rcases heard with ⟨_, rfl⟩ | pc
    · exact ⟨fun unaborted => unaborted success outcome, rfl⟩
    · cases pc
  | terminated =>
    simp only [outcome] at heard
    rcases heard with ⟨pc, _⟩ | pc <;> cases pc

theorem commenced_running {launch : Launch} {place : Nat} {state : RankState}
    (pc : (commenced launch task).pc = .ring place state) : state.outcome = .running := by
  unfold commenced at pc
  split at pc
  · cases pc
  split at pc
  · cases pc
  · exact afterExchange_running pc

theorem commenced_unheard {launch : Launch} : ¬ Call.Heard ⟨launch, commenced launch task⟩ := by
  unfold commenced
  intro heard
  split at heard
  · rcases heard with ⟨_, taken⟩ | pc
    · cases taken
    · cases pc
  split at heard
  · rcases heard with ⟨_, taken⟩ | pc
    · cases taken
    · cases pc
  · exact (afterExchange_heard heard).1 (.of_ending Ring.Ending.startRank)

end Steps

namespace Follows

variable {decided : Nat → Option Bool} {tag : Tag} {place : Place} {log : List Signal}
  {endpoint : Endpoint}

theorem acts (follows : Follows decided tag place log endpoint)
    (active : ∀ call, endpoint.call = some call → waits call.task.pc = false) {call : Call}
    {outbox : List C2MPacket} {queue : List Signal}
    (launched : call.launch.cfg.tag = tag ∧ 2 ≤ call.launch.ringOrder.length ∧
      ∀ position rank, call.task.pc = .ring position rank → rank.outcome = .running)
    (unread : endpoint.queue = [] → queue = [])
    (shrinks : endpoint.lost = false →
      queue ++ log.drop endpoint.arrived = endpoint.inbox log ∨ queue ++ log.drop endpoint.arrived = [])
    (posted : endpoint.lost = false →
      Endpoint.Posted (queue ++ log.drop endpoint.arrived)
        { endpoint with call := some call, outbox, queue } tag)
    (heard : endpoint.lost = false → ∀ operation aborted,
      endpoint.Attends (endpoint.inbox log) operation aborted → call.Heard →
        aborted = true ∧ queue ++ log.drop endpoint.arrived = [] ∧ call.task.aborted = true) :
    Follows decided tag place log { endpoint with call := some call, outbox, queue } where
  outcomes := follows.outcomes
  arrived := follows.arrived
  unread empty := unread (follows.unread empty)
  launched other same := by
    cases same
    exact launched
  posted := posted
  stands kept := by
    refine (follows.stands kept).active active rfl (shrinks kept) fun operation aborted attends => ?_
    intro other same
    cases same
    exact heard kept operation aborted attends

theorem start (follows : Follows decided tag place log endpoint) {launch : Launch}
    (labelled : launch.cfg.tag = tag) (ring : 2 ≤ launch.ringOrder.length) :
    Follows decided tag place log (endpoint.start launch) := by
  unfold Endpoint.start
  split
  · next resting =>
    have active (call : Call) (present : endpoint.call = some call) : waits call.task.pc = false := by
      have finished : call.task.pc = .finished := by simpa [Endpoint.resting, present] using resting
      rw [finished]
      rfl
    refine follows.acts active ⟨labelled, ring, fun _ _ pc => nomatch pc⟩ id (fun _ => Or.inl rfl)
      (fun kept => Or.inl ((follows.posted kept).of_active active)) ?_
    rintro _ _ _ _ (⟨pc, _⟩ | pc) <;> cases pc
  · exact follows

theorem send (follows : Follows decided tag place log endpoint) (delivered : Bool) :
    Follows decided tag place log (endpoint.send delivered) := by
  unfold Endpoint.send
  cases present : endpoint.call with
  | none => exact follows
  | some call =>
    obtain ⟨labelled, ring, _⟩ := follows.launched call present
    have active (idle : waits call.task.pc = false) (other : Call) (same : endpoint.call = some other) :
        waits other.task.pc = false := by
      cases present.symm.trans same
      exact idle
    cases pc : call.task.pc with
    | initiate =>
      simp only [Launch.outgoing, pc]
      have active := active (by rw [pc]; rfl)
      refine follows.acts active ⟨labelled, ring, fun _ _ still => ?_⟩ id (fun _ => Or.inl rfl)
        (fun kept => ?_) ?_
      · cases delivered <;> simp [Call.step, taskStep, pc, stepInitiate, reduceReturned] at still
      · have empty := (follows.posted kept).of_active active
        cases delivered with
        | false => exact Or.inl (by simp [empty])
        | true =>
          refine Or.inr (Or.inl ⟨⟨_, rfl, by simp [Call.step, taskStep, pc, stepInitiate],
            call.launch.cfg.dataType, call.launch.cfg.count, call.launch.cfg.op,
            by simp [empty, labelled]⟩, fun operation => ?_⟩)
          change _ ∉ endpoint.inbox log
          rcases (follows.stands kept).quiet active with none | ⟨one, _⟩
          · simp [none]
          · simp [one]
      · intro _ _ _ _ heard
        cases delivered <;>
          simp [Call.Heard, Call.step, taskStep, pc, stepInitiate, reduceReturned] at heard
    | complete =>
      simp only [Launch.outgoing, pc]
      have active := active (by rw [pc]; rfl)
      refine follows.acts active ⟨labelled, ring, fun _ _ still => ?_⟩ id (fun _ => Or.inl rfl)
        (fun kept => ?_) ?_
      · cases delivered <;> simp [Call.step, taskStep, pc, stepComplete, setPromise] at still
        split at still <;> cases still
      · have empty := (follows.posted kept).of_active active
        cases delivered with
        | false => exact Or.inl (by simp [empty])
        | true =>
          refine Or.inr (Or.inr ⟨_, rfl, ?_, ?_⟩)
          · simp only [Call.step, taskStep, pc, stepComplete]
            split <;> rfl
          · simp [empty, labelled, Call.step, taskStep, pc, stepComplete, Launch.wasAborted]
      · intro kept operation aborted attends heard
        -- The task goes on to wait for the end if it has heard of an abort.
        have before : call.task.abortReceived = true := by
          cases delivered with
          | false => simp [Call.Heard, Call.step, taskStep, pc, stepComplete, setPromise] at heard
          | true =>
            by_contra unheard
            simp [Call.Heard, Call.step, taskStep, pc, stepComplete, unheard] at heard
        obtain ⟨flag, empty, known⟩ := attends.heard call present (Or.inl ⟨pc, before⟩)
        refine ⟨flag, empty, ?_⟩
        cases delivered <;> simpa [Call.step, taskStep, pc, stepComplete, setPromise] using known
    | _ =>
      simp only [Launch.outgoing, pc]
      exact follows

theorem exchange (follows : Follows decided tag place log endpoint) (observed : Observation)
    (inbox : List (List Byte)) : Follows decided tag place log (endpoint.exchange observed inbox) := by
  unfold Endpoint.exchange
  cases present : endpoint.call with
  | none => exact follows
  | some call =>
    obtain ⟨labelled, ring, running⟩ := follows.launched call present
    dsimp only
    cases pc : call.task.pc with
    | ring position rank =>
      dsimp only
      have active (other : Call) (same : endpoint.call = some other) : waits other.task.pc = false := by
        cases present.symm.trans same
        rw [pc]
        rfl
      generalize seen : (!endpoint.lost && endpoint.queue.any Signal.isAbort) = abortPacket
      have stepped : call.step (.exchanged { observed with abortPacket } inbox) =
          { call with
            task := afterExchange position
              (Ring.stepRank call.launch.cfg (Ring.Net.plan call.launch.cfg) (call.launch.call position)
                { observed with abortPacket } inbox rank).state call.task } := by
        simp [Call.step, taskStep, pc, stepExchange]
      rw [stepped]
      generalize reached : (Ring.stepRank call.launch.cfg (Ring.Net.plan call.launch.cfg)
        (call.launch.call position) { observed with abortPacket } inbox rank).state = state
      -- The ring returns on account of the abort packet in the queue only.
      have taken (heard : Call.Heard ⟨call.launch, afterExchange position state call.task⟩) :
          endpoint.queue.any Signal.isAbort = true := by
        have aborted := (afterExchange_heard heard).1
        by_contra none
        have silent : abortPacket = false := by
          rw [← seen, Bool.eq_false_of_not_eq_true none, Bool.and_false]
        have ending := @Ring.Ending.stepRank call.launch.cfg (Ring.Net.plan call.launch.cfg)
          (call.launch.call position) _ ⟨observed.arrived, observed.socketOpen, abortPacket⟩ inbox
          (running position rank pc)
        rw [reached, silent] at ending
        exact aborted (.of_ending ending)
      have emptied (kept : endpoint.lost = false) (some : endpoint.queue.any Signal.isAbort = true) :
          endpoint.inbox log = [.abort true] ∧
            endpoint.queue.eraseP Signal.isAbort ++ log.drop endpoint.arrived = [] := by
        rcases (follows.stands kept).quiet active with none | ⟨one, _⟩
        · rw [(List.append_eq_nil_iff.mp none).1] at some
          cases some
        · refine ⟨one, ?_⟩
          unfold Endpoint.inbox at one
          cases queue : endpoint.queue with
          | nil => simp [queue] at some
          | cons signal queue' =>
            rw [queue, List.cons_append, List.cons.injEq, List.append_eq_nil_iff] at one
            obtain ⟨rfl, rfl, passed⟩ := one
            simp [passed, Signal.isAbort]
      refine follows.acts active ⟨labelled, ring, fun _ _ still => afterExchange_running still⟩
        (fun empty => ?_) (fun kept => ?_)
        (fun kept => Or.inl ((follows.posted kept).of_active active)) ?_
      · split
        · simp [empty]
        · exact empty
      · split
        · next heard => exact Or.inr (emptied kept (taken (Or.inl heard))).2
        · exact Or.inl rfl
      · intro kept operation aborted attends heard
        have told := emptied kept (taken heard)
        refine ⟨?_, ?_, (afterExchange_heard heard).2⟩
        · rcases attends.quiet with empty | ⟨_, flag⟩
          · rw [told.1] at empty
            cases empty
          · exact flag
        · rcases heard with heard | pc
          · rw [if_pos heard]
            exact told.2
          · have idle := @afterExchange_waits position state call.task
            rw [pc] at idle
            cases idle
    | _ => exact follows

theorem inbox_take {wanted : Signal → Bool} {signal : Signal}
    (found : endpoint.queue.find? wanted = some signal) :
    (endpoint.inbox log).find? wanted = some signal ∧
      endpoint.queue.eraseP wanted ++ log.drop endpoint.arrived = (endpoint.inbox log).eraseP wanted := by
  constructor
  · simp [Endpoint.inbox, List.find?_append, found]
  · exact (List.eraseP_append_left (List.find?_some found) _ (List.mem_of_find?_eq_some found)).symm

section Receiving

variable (follows : Follows decided tag place log endpoint) (kept : endpoint.lost = false) {call : Call}
  (present : endpoint.call = some call)
include follows kept present

theorem of_commence (pc : call.task.pc = .awaitCommence) {operation : Nat}
    (first : (endpoint.inbox log).find? (awaits .awaitCommence) = some (.commence operation)) :
    ∃ aborted, endpoint.Opens (endpoint.inbox log) operation aborted ∧
      ((place = .outside ∧ aborted = true) ∨ place = .performing operation aborted) := by
  have stands := follows.stands kept
  have unopened {aborted : Bool} (quiet : Endpoint.Quiet (endpoint.inbox log) aborted) : False := by
    rcases quiet with empty | ⟨one, _⟩
    · simp [empty] at first
    · simp [one, awaits] at first
  have opened {number : Nat} {aborted : Bool}
      (opens : endpoint.Opens (endpoint.inbox log) number aborted) : number = operation := by
    rcases opens.2.2 with one | ⟨two, _⟩
    · simpa [one, awaits] using first
    · simpa [two, awaits] using first
  have unfinished (ends : endpoint.Ends (endpoint.inbox log) decided) : False := by
    obtain ⟨_, _, _, at_⟩ := ends
    rcases ((Endpoint.at_iff present).mp at_).2 with ⟨elsewhere, _⟩ | ⟨elsewhere, _⟩ <;>
      cases pc.symm.trans elsewhere
  cases place with
  | outside =>
    rcases stands with ends | ⟨number, opens⟩ | quiet
    · exact (unfinished ends).elim
    · exact ⟨true, opened opens ▸ opens, Or.inl ⟨rfl, rfl⟩⟩
    · exact (unopened quiet).elim
  | free =>
    rcases stands with ends | empty
    · exact (unfinished ends).elim
    · exact (@unopened true (Or.inl empty)).elim
  | voting => exact (@unopened true (Or.inl stands.1)).elim
  | performing number aborted =>
    rcases stands with opens | attends
    · cases opened opens
      exact ⟨aborted, opens, Or.inr rfl⟩
    · exact (unopened attends.quiet).elim
  | voted => exact (unopened stands.1.quiet).elim

theorem receiveCommence (pc : call.task.pc = .awaitCommence) {operation : Nat}
    (found : endpoint.queue.find? (awaits .awaitCommence) = some (.commence operation)) :
    Follows decided tag place log
      { endpoint with
        call := some { call with task := commenced call.launch call.task }
        queue := endpoint.queue.eraseP (awaits .awaitCommence)
        operation } := by
  obtain ⟨labelled, ring, _⟩ := follows.launched call present
  obtain ⟨first, rest⟩ := @inbox_take log endpoint _ _ found
  obtain ⟨aborted, ⟨posted, _, unread⟩, stands⟩ := follows.of_commence kept present pc first
  have quiet : Endpoint.Quiet ((endpoint.inbox log).eraseP (awaits .awaitCommence)) aborted := by
    rcases unread with one | ⟨two, flag⟩
    · rw [one]
      exact Or.inl rfl
    · rw [two]
      exact Or.inr ⟨rfl, flag⟩
  refine ⟨follows.outcomes, follows.arrived, fun empty => ?_, fun other same => ?_,
    fun _ => Or.inl posted, fun _ => ?_⟩
  · simp [follows.unread empty]
  · cases same
    exact ⟨labelled, ring, fun _ _ => commenced_running⟩
  · change Endpoint.Stands (_ ++ _) _ decided place
    rw [rest]
    rcases stands with ⟨rfl, rfl⟩ | rfl
    · exact Or.inr (Or.inr quiet)
    · refine Or.inr ⟨rfl, quiet, fun other same heard => ?_⟩
      cases same
      exact (commenced_unheard heard).elim

theorem receiveAbort (pc : call.task.pc = .awaitAbort) {aborted : Bool}
    (found : endpoint.queue.find? (awaits .awaitAbort) = some (.abort aborted)) :
    Follows decided tag place log
      { endpoint with
        call := some { call with task := { call.task with aborted, pc := .awaitComplete } }
        queue := endpoint.queue.eraseP (awaits .awaitAbort) } := by
  obtain ⟨labelled, ring, _⟩ := follows.launched call present
  obtain ⟨first, rest⟩ := @inbox_take log endpoint _ _ found
  have taken {flag : Bool} (quiet : Endpoint.Quiet (endpoint.inbox log) flag) :
      aborted = true ∧ flag = true ∧ (endpoint.inbox log).eraseP (awaits .awaitAbort) = [] := by
    rcases quiet with empty | ⟨one, told⟩
    · simp [empty] at first
    · exact ⟨by simpa [one, awaits, eq_comm] using first, told, by rw [one]; rfl⟩
  have attends {operation : Nat} {flag : Bool}
      (attends : endpoint.Attends (endpoint.inbox log) operation flag) :
      Endpoint.Attends ((endpoint.inbox log).eraseP (awaits .awaitAbort))
        { endpoint with
          call := some { call with task := { call.task with aborted, pc := .awaitComplete } }
          queue := endpoint.queue.eraseP (awaits .awaitAbort) } operation flag := by
    obtain ⟨told, flagged, empty⟩ := taken attends.quiet
    refine ⟨attends.current, Or.inl empty, fun other same _ => ?_⟩
    cases same
    exact ⟨flagged, empty, told⟩
  have ends (ends : endpoint.Ends (endpoint.inbox log) decided) :
      Endpoint.Ends ((endpoint.inbox log).eraseP (awaits .awaitAbort))
        { endpoint with
          call := some { call with task := { call.task with aborted, pc := .awaitComplete } }
          queue := endpoint.queue.eraseP (awaits .awaitAbort) } decided := by
    obtain ⟨verdict, known, posted, at_⟩ := ends
    obtain ⟨voted, ⟨_, inbox | inbox⟩ | ⟨elsewhere, _⟩⟩ := (Endpoint.at_iff present).mp at_
    · rw [inbox] at first ⊢
      have told : some (Signal.abort verdict) = some (.abort aborted) := first
      cases told
      exact ⟨aborted, known, posted, _, rfl, voted, Or.inr ⟨rfl, rfl, rfl⟩⟩
    · simp [inbox, awaits] at first
    · cases pc.symm.trans elsewhere
  refine ⟨follows.outcomes, follows.arrived, fun empty => ?_, fun other same => ?_,
    fun _ => ?_, fun _ => ?_⟩
  · simp [follows.unread empty]
  · cases same
    exact ⟨labelled, ring, fun _ _ still => nomatch still⟩
  · rcases follows.posted kept with empty | ⟨initiating, _⟩ | completing
    · exact Or.inl empty
    · cases pc.symm.trans ((Endpoint.at_iff present).mp initiating).1
    · exact Or.inr (Or.inr ⟨_, rfl, rfl, ((Endpoint.at_iff present).mp completing).2⟩)
  · change Endpoint.Stands (_ ++ _) _ decided place
    rw [rest]
    have stands := follows.stands kept
    have unopened {operation : Nat} {flag : Bool}
        (opens : endpoint.Opens (endpoint.inbox log) operation flag) : False := by
      cases pc.symm.trans ((Endpoint.at_iff present).mp opens.2.1)
    cases place with
    | outside =>
      rcases stands with ended | ⟨_, opens⟩ | quiet
      · exact Or.inl (ends ended)
      · exact (unopened opens).elim
      · exact Or.inr (Or.inr (Or.inl (taken quiet).2.2))
    | free =>
      rcases stands with ended | empty
      · exact Or.inl (ends ended)
      · simp [empty] at first
    | voting => simp [stands.1] at first
    | performing =>
      rcases stands with opens | attending
      · exact (unopened opens).elim
      · exact Or.inr (attends attending)
    | voted =>
      obtain ⟨attending, posted, at_⟩ := stands
      exact ⟨attends attending, posted, _, rfl, rfl, ((Endpoint.at_iff present).mp at_).2⟩

theorem receiveComplete (pc : call.task.pc = .awaitComplete)
    (found : endpoint.queue.find? (awaits .awaitComplete) = some .complete) :
    Follows decided tag place log
      { endpoint with
        call := some { call with task := setPromise (call.task.success && !call.task.aborted) call.task }
        queue := endpoint.queue.eraseP (awaits .awaitComplete)
        outcomes := endpoint.outcomes ++
          [(endpoint.operation, call.task.success && !call.task.aborted)] } := by
  obtain ⟨labelled, ring, _⟩ := follows.launched call present
  obtain ⟨first, rest⟩ := @inbox_take log endpoint _ _ found
  have stands := follows.stands kept
  have unfinished {flag : Bool} (quiet : Endpoint.Quiet (endpoint.inbox log) flag) : False := by
    rcases quiet with empty | ⟨one, _⟩
    · simp [empty] at first
    · simp [one, awaits] at first
  have unopened {operation : Nat} {flag : Bool}
      (opens : endpoint.Opens (endpoint.inbox log) operation flag) : False := by
    cases pc.symm.trans ((Endpoint.at_iff present).mp opens.2.1)
  -- Only an operation that is over has an end.
  obtain ⟨ends, home⟩ : endpoint.Ends (endpoint.inbox log) decided ∧ (place = .outside ∨ place = .free) := by
    cases place with
    | outside =>
      rcases stands with ended | ⟨_, opens⟩ | quiet
      · exact ⟨ended, Or.inl rfl⟩
      · exact (unopened opens).elim
      · exact (unfinished quiet).elim
    | free =>
      rcases stands with ended | empty
      · exact ⟨ended, Or.inr rfl⟩
      · exact (@unfinished true (Or.inl empty)).elim
    | voting => exact (@unfinished true (Or.inl stands.1)).elim
    | performing =>
      rcases stands with opens | attends
      · exact (unopened opens).elim
      · exact (unfinished attends.quiet).elim
    | voted => exact (unfinished stands.1.quiet).elim
  obtain ⟨verdict, known, posted, at_⟩ := ends
  obtain ⟨voted, ⟨elsewhere, _⟩ | ⟨_, told, inbox⟩⟩ := (Endpoint.at_iff present).mp at_
  · cases pc.symm.trans elsewhere
  have empty : endpoint.queue.eraseP (awaits .awaitComplete) ++ log.drop endpoint.arrived = [] := by
    rw [rest, inbox]
    rfl
  refine ⟨fun outcome member => ?_, follows.arrived, fun nothing => ?_,
    fun other same => ?_, fun _ => Or.inl posted, fun _ => ?_⟩
  · rcases List.mem_append.mp member with old | new
    · exact follows.outcomes outcome old
    · cases List.mem_singleton.mp new
      -- Without an abort the task has succeeded, or it would have reported otherwise.
      rw [known, told]
      cases verdict with
      | true => simp
      | false =>
        have success : call.task.success = true := by
          by_contra failed
          have large : 1 < call.launch.ringOrder.length := ring
          simp [Launch.wasAborted, failed, large] at voted
        simp [success]
  · simp [follows.unread nothing]
  · cases same
    exact ⟨labelled, ring, fun _ _ still => nomatch still⟩
  · change Endpoint.Stands (_ ++ _) _ decided place
    rw [empty]
    rcases home with rfl | rfl
    · exact Or.inr (Or.inr (Or.inl rfl))
    · exact Or.inr rfl

end Receiving

theorem arrive (follows : Follows decided tag place log endpoint) :
    Follows decided tag place log (endpoint.arrive log) := by
  unfold Endpoint.arrive
  cases next : log[endpoint.arrived]? with
  | none => exact follows
  | some signal =>
    obtain ⟨more, is⟩ := List.getElem?_eq_some_iff.mp next
    -- The packet is still in front of the client, only nearer.
    have same : Endpoint.inbox log
        { endpoint with queue := endpoint.queue ++ [signal], arrived := endpoint.arrived + 1 } =
        endpoint.inbox log := by
      simp [Endpoint.inbox, List.drop_eq_getElem_cons more, is]
    refine ⟨follows.outcomes, more, fun empty => ?_, follows.launched,
      fun kept => same ▸ follows.posted kept, fun kept => same ▸ (follows.stands kept).congr rfl rfl rfl⟩
    rw [empty] at more
    cases more

theorem receive (follows : Follows decided tag place log endpoint) :
    Follows decided tag place log (endpoint.receive tag) := by
  unfold Endpoint.receive
  cases present : endpoint.call with
  | none => exact follows
  | some call =>
    obtain ⟨labelled, ring, running⟩ := follows.launched call present
    dsimp only
    split
    · next lost =>
      refine ⟨follows.outcomes, follows.arrived, follows.unread, fun other same => ?_,
        fun kept => ?_, fun kept => ?_⟩
      · cases same
        refine ⟨labelled, ring, fun position rank still => running position rank ?_⟩
        cases pc : call.task.pc <;>
          simp [Call.step, taskStep, pc, stepInitiate, stepCommence, stepExchange, stepComplete, stepAbort,
            stepVerdict, reduceReturned, setPromise] at still ⊢
        exact still
      · cases lost.symm.trans kept
      · cases lost.symm.trans kept
    · next kept =>
      have kept := Bool.eq_false_of_not_eq_true kept
      cases found : endpoint.queue.find? (awaits call.task.pc) with
      | none => exact follows
      | some signal =>
        have wanted := List.find?_some found
        cases pc : call.task.pc with
        | awaitCommence =>
          rw [pc] at found wanted
          cases signal with
          | commence operation =>
            have commences := follows.receiveCommence kept present pc found
            simpa [Call.step, taskStep, pc, stepCommence, Signal.packet, labelled] using commences
          | _ => cases wanted
        | awaitAbort =>
          rw [pc] at found wanted
          cases signal with
          | abort aborted =>
            have told := follows.receiveAbort kept present pc found
            simpa [Call.step, taskStep, pc, stepAbort, Signal.packet, labelled] using told
          | _ => cases wanted
        | awaitComplete =>
          rw [pc] at found wanted
          cases signal with
          | complete =>
            have ended := follows.receiveComplete kept present pc found
            simpa [Call.step, taskStep, pc, stepVerdict, Signal.packet, labelled, setPromise] using ended
          | _ => cases wanted
        | _ =>
          rw [pc] at wanted
          cases signal <;> cases wanted

theorem lose (follows : Follows decided tag place log endpoint) :
    Follows decided tag place log { endpoint with lost := true } :=
  ⟨follows.outcomes, follows.arrived, follows.unread, follows.launched, nofun, nofun⟩

end Follows

namespace Endpoint.Writes

variable {tag : Tag} {endpoint : Endpoint} (writes : endpoint.Writes tag)
include writes

theorem start {launch : Launch} (labelled : launch.cfg.tag = tag) : (endpoint.start launch).Writes tag := by
  unfold Endpoint.start
  split
  · refine ⟨fun call same => ?_, writes.letters⟩
    cases same
    exact labelled
  · exact writes

theorem outgoing {call : Call} (present : endpoint.call = some call) {packet : C2MPacket}
    (sends : call.launch.outgoing call.task = some packet) :
    (∃ dataType count op, packet = .collectiveCommsInitiate tag dataType count op) ∨
      ∃ wasAborted, packet = .collectiveCommsComplete tag wasAborted := by
  rw [← writes.labelled call present]
  cases pc : call.task.pc <;> simp only [Launch.outgoing, pc] at sends <;> cases sends
  · exact Or.inl ⟨_, _, _, rfl⟩
  · exact Or.inr ⟨_, rfl⟩

theorem step {call : Call} (present : endpoint.call = some call) {next : Endpoint} (event : TaskEvent)
    (steps : next.call = some (call.step event)) (outbox : next.outbox = endpoint.outbox) :
    next.Writes tag := by
  refine ⟨fun other same => ?_, outbox ▸ writes.letters⟩
  cases steps.symm.trans same
  exact writes.labelled call present

theorem send (delivered : Bool) : (endpoint.send delivered).Writes tag := by
  unfold Endpoint.send
  cases present : endpoint.call with
  | none => exact writes
  | some call =>
    dsimp only
    cases sends : call.launch.outgoing call.task with
    | none => exact writes
    | some packet =>
      refine ⟨fun other same => ?_, fun other member => ?_⟩
      · cases same
        exact writes.labelled call present
      · rcases List.mem_append.mp member with old | new
        · exact writes.letters other old
        · cases delivered with
          | true => exact List.mem_singleton.mp new ▸ writes.outgoing present sends
          | false => cases new

theorem fewer {next : Endpoint} (same : next.call = endpoint.call) (fewer : next.outbox ⊆ endpoint.outbox) :
    next.Writes tag :=
  ⟨same ▸ writes.labelled, fun packet member => writes.letters packet (fewer member)⟩

theorem arrive (log : List Signal) : (endpoint.arrive log).Writes tag := by
  unfold Endpoint.arrive
  split <;> exact writes.fewer rfl (List.Subset.refl _)

theorem receive : (endpoint.receive tag).Writes tag := by
  unfold Endpoint.receive
  cases present : endpoint.call with
  | none => exact writes
  | some call =>
    dsimp only
    split
    · exact writes.step present _ rfl rfl
    · split
      · exact writes
      · split <;> exact writes.step present _ rfl rfl

theorem exchange (observed : Observation) (inbox : List (List Byte)) :
    (endpoint.exchange observed inbox).Writes tag := by
  unfold Endpoint.exchange
  cases present : endpoint.call with
  | none => exact writes
  | some call =>
    dsimp only
    split
    · exact writes.step present _ rfl rfl
    · exact writes

end Endpoint.Writes

end Pccl.Session
