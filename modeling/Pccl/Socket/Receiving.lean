import Pccl.Ring.Machine
import Pccl.Packet.Messages

set_option autoImplicit false

namespace Pccl.Socket

open Packet Buffer

structure ReceiveQueueEntry where
  tag : Tag
  streamCtr : BitVec 64
  data : List Byte

structure Receiver where
  running : Bool
  receiveQueues : Tag → Option (List ReceiveQueueEntry)
  tagged : ∀ tag queue, receiveQueues tag = some queue → ∀ entry ∈ queue, entry.tag = tag

namespace Receiver

def init : Receiver := ⟨true, fun _ => none, nofun⟩

def push (socket : Receiver) (entry : ReceiveQueueEntry) : Receiver where
  running := socket.running
  receiveQueues tag :=
    if tag = entry.tag then some ((socket.receiveQueues tag).getD [] ++ [entry])
    else socket.receiveQueues tag
  tagged tag queue found := by
    split at found
    · next own =>
      cases found
      cases before : socket.receiveQueues tag with
      | none => simp [own]
      | some queue => simpa [own, or_imp, forall_and] using own ▸ socket.tagged tag queue before
    · exact socket.tagged tag queue found

def pop (socket : Receiver) (tag : Tag) : Receiver where
  running := socket.running
  receiveQueues other :=
    if other = tag then (socket.receiveQueues other).map List.tail else socket.receiveQueues other
  tagged other queue found entry member := by
    split at found
    · obtain ⟨before, here, rfl⟩ := Option.map_eq_some_iff.mp found
      exact socket.tagged other before here entry (List.mem_of_mem_tail member)
    · exact socket.tagged other queue found entry member

end Receiver

/-- How a round of a loop ends; `LOG(BUG)` exits. -/
inductive Round (Result : Type)
  | returns (result : Result)
  | exits
  | retries

section Loops

variable {Result : Type}

def receiveRound (closed empty : Round Result) (accept : List Byte → Round Result) (tag : Tag)
    (targetStreamCtr : BitVec 64) (socket : Receiver) : Receiver × Round Result :=
  if socket.running then
    match socket.receiveQueues tag with
    | none => (socket, .retries)
    | some [] => (socket, empty)
    | some (entry :: _) =>
      (socket.pop tag,
        if entry.tag ≠ tag then .exits
        else if entry.streamCtr ≠ targetStreamCtr then .retries
        else accept entry.data)
  else (socket, closed)

def acceptUpTo (capacity : Nat) (data : List Byte) : Round (Option (List Byte)) :=
  if capacity < data.length then .retries else .returns (some data)

def receiveBytesInplace (tag : Tag) (targetStreamCtr : BitVec 64) (capacity : Nat) :
    Receiver → Receiver × Round (Option (List Byte)) :=
  receiveRound (.returns none) (.returns (some [])) (acceptUpTo capacity) tag targetStreamCtr

def receiveBytes (modeRx : Bool) (tag : Tag) (targetStreamCtr : BitVec 64) (noWait : Bool) :
    Receiver → Receiver × Round (Option (List Byte)) :=
  if modeRx then
    receiveRound (.returns none) (if noWait then .returns none else .retries)
      (fun data => .returns (some data)) tag targetStreamCtr
  else fun socket => (socket, .returns none)

def loop (round : Receiver → Receiver × Round Result) : Nat → Receiver → Receiver × Round Result
  | 0, socket => (socket, .retries)
  | rounds + 1, socket =>
    match round socket with
    | (next, .retries) => loop round rounds next
    | ended => ended

def Returns (round : Receiver → Receiver × Round Result) (socket : Receiver) : Prop :=
  ∃ rounds result, (loop round rounds socket).2 = .returns result

def frames (targetStreamCtr : BitVec 64) (queue : List ReceiveQueueEntry) : List (List Byte) :=
  (queue.filter fun entry => entry.streamCtr = targetStreamCtr).map ReceiveQueueEntry.data

def scan (empty : Result) (accept : List Byte → Round Result) :
    List (List Byte) → Result × List (List Byte)
  | [] => (empty, [])
  | frame :: frames =>
    match accept frame with
    | .returns result => (result, frames)
    | _ => scan empty accept frames

/-- What a call does to the queue of its tag. Entries of other streams, and those it does not accept,
are dropped until it accepts one or the queue is empty. -/
inductive Drops (targetStreamCtr : BitVec 64) (accept : List Byte → Round Result) (empty : Result) :
    List ReceiveQueueEntry → Result → List ReceiveQueueEntry → Prop
  | all {queue : List ReceiveQueueEntry}
      (passed : ∀ entry ∈ queue, entry.streamCtr = targetStreamCtr → accept entry.data = .retries) :
    Drops targetStreamCtr accept empty queue empty []
  | takes {skipped rest : List ReceiveQueueEntry} {entry : ReceiveQueueEntry} {result : Result}
      (passed : ∀ entry ∈ skipped, entry.streamCtr = targetStreamCtr → accept entry.data = .retries)
      (fresh : entry.streamCtr = targetStreamCtr) (accepts : accept entry.data = .returns result) :
    Drops targetStreamCtr accept empty (skipped ++ entry :: rest) result rest

variable {closed : Round Result} {accept : List Byte → Round Result} {socket : Receiver} {tag : Tag}
  {targetStreamCtr : BitVec 64}

theorem Drops.cons {empty result : Result} {queue rest : List ReceiveQueueEntry} {entry : ReceiveQueueEntry}
    (passes : entry.streamCtr = targetStreamCtr → accept entry.data = .retries)
    (drops : Drops targetStreamCtr accept empty queue result rest) :
    Drops targetStreamCtr accept empty (entry :: queue) result rest := by
  cases drops with
  | all passed => exact .all (List.forall_mem_cons.mpr ⟨passes, passed⟩)
  | @takes skipped _ _ _ passed fresh accepts =>
    exact @Drops.takes _ _ _ _ (entry :: skipped) _ _ _ (List.forall_mem_cons.mpr ⟨passes, passed⟩) fresh
      accepts

theorem scan_frames_append {empty : Result} {skipped : List ReceiveQueueEntry}
    (passed : ∀ entry ∈ skipped, entry.streamCtr = targetStreamCtr → accept entry.data = .retries)
    (queue : List ReceiveQueueEntry) :
    scan empty accept (frames targetStreamCtr (skipped ++ queue)) =
      scan empty accept (frames targetStreamCtr queue) := by
  induction skipped with
  | nil => rfl
  | cons entry skipped ih =>
    obtain ⟨first, others⟩ := List.forall_mem_cons.mp passed
    by_cases fresh : entry.streamCtr = targetStreamCtr
    · simpa [frames, fresh, scan, first fresh] using ih others
    · simpa [frames, fresh] using ih others

theorem Drops.scan {empty result : Result} {queue rest : List ReceiveQueueEntry}
    (drops : Drops targetStreamCtr accept empty queue result rest) :
    scan empty accept (frames targetStreamCtr queue) = (result, frames targetStreamCtr rest) := by
  cases drops with
  | all passed =>
    have skipped := @scan_frames_append _ _ _ empty _ passed []
    rwa [List.append_nil] at skipped
  | takes passed fresh accepts =>
    rw [scan_frames_append passed]
    simp [frames, fresh, Socket.scan, accepts]

theorem loop_receiveRound (empty : Result) (accepts : ∀ data, accept data ≠ .exits)
    (running : socket.running = true) {queue : List ReceiveQueueEntry}
    (found : socket.receiveQueues tag = some queue) :
    ∃ next result rest,
      loop (receiveRound closed (.returns empty) accept tag targetStreamCtr) (queue.length + 1) socket =
        (next, .returns result) ∧
      next.receiveQueues = Function.update socket.receiveQueues tag (some rest) ∧
      Drops targetStreamCtr accept empty queue result rest := by
  induction queue generalizing socket with
  | nil =>
    refine ⟨socket, empty, [], ?_, ?_, .all (by simp)⟩
    · simp [loop, receiveRound, running, found]
    · rw [← found, Function.update_eq_self]
  | cons entry queue ih =>
    have own : entry.tag = tag := socket.tagged tag _ found entry List.mem_cons_self
    have popped : (socket.pop tag).receiveQueues =
        Function.update socket.receiveQueues tag (some queue) := by
      funext other
      by_cases same : other = tag <;> simp [Receiver.pop, same, found]
    obtain ⟨next, result, rest, loops, left, drops⟩ :=
      @ih (socket.pop tag) running (by rw [popped, Function.update_self])
    rw [popped, Function.update_idem] at left
    by_cases fresh : entry.streamCtr = targetStreamCtr
    · cases taken : accept entry.data with
      | exits => exact absurd taken (accepts _)
      | returns result =>
        refine ⟨socket.pop tag, result, queue, ?_, popped,
          @Drops.takes _ _ _ _ [] _ _ _ (by simp) fresh taken⟩
        simp [loop, receiveRound, running, found, own, fresh, taken]
      | retries =>
        refine ⟨next, result, rest, ?_, left, drops.cons fun _ => taken⟩
        simpa [loop, receiveRound, running, found, own, fresh, taken] using loops
    · refine ⟨next, result, rest, ?_, left, drops.cons fun same => absurd same fresh⟩
      simpa [loop, receiveRound, running, found, own, fresh] using loops

theorem loop_receiveRound_missing {empty : Round Result} (running : socket.running = true)
    (missing : socket.receiveQueues tag = none) (rounds : Nat) :
    loop (receiveRound closed empty accept tag targetStreamCtr) rounds socket = (socket, .retries) := by
  induction rounds with
  | zero => rfl
  | succ rounds ih => simpa [loop, receiveRound, running, missing] using ih

theorem returns_receiveRound_iff (empty : Result) (accepts : ∀ data, accept data ≠ .exits)
    (running : socket.running = true) :
    Returns (receiveRound closed (.returns empty) accept tag targetStreamCtr) socket ↔
      (socket.receiveQueues tag).isSome := by
  cases found : socket.receiveQueues tag with
  | none => simp [Returns, loop_receiveRound_missing running found]
  | some queue =>
    obtain ⟨next, result, rest, loops, _⟩ := loop_receiveRound empty accepts running found
    simp only [Option.isSome_some, iff_true]
    exact ⟨_, _, congrArg Prod.snd loops⟩

end Loops

theorem acceptUpTo_ne_exits (capacity : Nat) (data : List Byte) : acceptUpTo capacity data ≠ .exits := by
  rw [acceptUpTo]
  split <;> nofun

theorem scan_acceptUpTo (capacity : Nat) (waiting : List (List Byte)) :
    scan (some []) (acceptUpTo capacity) waiting =
      (some ((Ring.receiveBytesInplace capacity waiting).1.getD []),
        (Ring.receiveBytesInplace capacity waiting).2) := by
  induction waiting with
  | nil => rfl
  | cons frame waiting ih =>
    by_cases large : capacity < frame.length
    · simpa [scan, acceptUpTo, Ring.receiveBytesInplace, large] using ih
    · simp [scan, acceptUpTo, Ring.receiveBytesInplace, large]

theorem receiveBytesInplace_takes {socket : Receiver} (running : socket.running = true) {tag : Tag}
    {queue : List ReceiveQueueEntry} (found : socket.receiveQueues tag = some queue)
    (targetStreamCtr : BitVec 64) (capacity : Nat) :
    ∃ next result rest,
      loop (receiveBytesInplace tag targetStreamCtr capacity) (queue.length + 1) socket =
        (next, .returns result) ∧
      next.receiveQueues = Function.update socket.receiveQueues tag (some rest) ∧
      Drops targetStreamCtr (acceptUpTo capacity) (some []) queue result rest ∧
      let received := Ring.receiveBytesInplace capacity (frames targetStreamCtr queue)
      result = some (received.1.getD []) ∧ frames targetStreamCtr rest = received.2 := by
  obtain ⟨next, result, rest, loops, left, drops⟩ :=
    @loop_receiveRound _ (.returns none) _ _ _ targetStreamCtr (some [])
      (acceptUpTo_ne_exits capacity) running _ found
  have scanned := drops.scan.symm.trans (scan_acceptUpTo capacity (frames targetStreamCtr queue))
  exact ⟨next, result, rest, loops, left, drops, congrArg Prod.fst scanned, congrArg Prod.snd scanned⟩

/-- An entry of an earlier stream and two of the present one. -/
def Sample.receiver : Receiver :=
  ((Receiver.init.push ⟨7, 4, [9]⟩).push ⟨7, 5, [1, 2]⟩).push ⟨7, 5, [3]⟩

theorem receiveBytesInplace_takes_first : ∃ next rest,
    loop (receiveBytesInplace 7 5 16) 4 Sample.receiver = (next, .returns (some [1, 2])) ∧
      next.receiveQueues 7 = some rest ∧ rest.map ReceiveQueueEntry.data = [[3]] := by
  obtain ⟨next, result, rest, loops, left, _, taken, _⟩ :=
    @receiveBytesInplace_takes Sample.receiver rfl 7 _ rfl 5 16
  cases taken
  have there : next.receiveQueues 7 = some rest := by rw [left, Function.update_self]
  have remains : ((loop (receiveBytesInplace 7 5 16) 4 Sample.receiver).1.receiveQueues 7).map
      (List.map ReceiveQueueEntry.data) = some [[3]] := rfl
  change loop (receiveBytesInplace 7 5 16) 4 Sample.receiver = _ at loops
  rw [loops, there] at remains
  exact ⟨next, rest, loops, there, Option.some.inj remains⟩

theorem returns_receiveBytes_iff {socket : Receiver} (running : socket.running = true) (tag : Tag)
    (targetStreamCtr : BitVec 64) (modeRx : Bool) :
    Returns (receiveBytes modeRx tag targetStreamCtr true) socket ↔
      modeRx = false ∨ (socket.receiveQueues tag).isSome := by
  cases modeRx with
  | false => exact iff_of_true ⟨1, none, rfl⟩ (Or.inl rfl)
  | true =>
    simp only [Bool.true_eq_false, false_or, receiveBytes, if_true]
    exact returns_receiveRound_iff none (fun _ => nofun) running

theorem polls_return_iff (socket : Receiver) (running : socket.running = true) (tag : Tag)
    (targetStreamCtr : BitVec 64) (capacity : Nat) (modeRx : Bool) :
    (Returns (receiveBytesInplace tag targetStreamCtr capacity) socket ↔
        (socket.receiveQueues tag).isSome) ∧
      (Returns (receiveBytes modeRx tag targetStreamCtr true) socket ↔
        modeRx = false ∨ (socket.receiveQueues tag).isSome) :=
  ⟨returns_receiveRound_iff _ (acceptUpTo_ne_exits capacity) running,
    returns_receiveBytes_iff running tag targetStreamCtr modeRx⟩

theorem polls_return_first_packet :
    Returns (receiveBytesInplace 7 5 16) Sample.receiver ∧
      Returns (receiveBytes true 7 5 true) Sample.receiver :=
  ⟨(polls_return_iff _ rfl 7 5 16 true).1.mpr rfl, (polls_return_iff _ rfl 7 5 16 true).2.mpr (Or.inr rfl)⟩

theorem polls_of_unseen_tag :
    Receiver.init.running = true ∧ ¬ Returns (receiveBytesInplace 7 0 16) Receiver.init ∧
      ¬ Returns (receiveBytes true 7 0 true) Receiver.init := by
  refine ⟨rfl, fun returned => ?_, fun returned => ?_⟩
  · cases (returns_receiveRound_iff _ (acceptUpTo_ne_exits 16) rfl).mp returned
  · simpa [Receiver.init] using (returns_receiveBytes_iff rfl 7 0 true).mp returned

end Pccl.Socket
