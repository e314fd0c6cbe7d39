import Pccl.Packet.PacketBuffer
import Pccl.Shared.Machine

set_option autoImplicit false

namespace Pccl.Server

open Buffer Packet

/-- `current_recv_buffers` of one client; all bits of the expected length are set while there is none. -/
structure RecvBuffer where
  expectedLength : BitVec 64
  buffer : List Byte
deriving DecidableEq, Repr

def noLength : BitVec 64 := -1

def RecvBuffer.empty : RecvBuffer := ⟨noLength, []⟩

/-- One client: the packets that the read callbacks have been called with, and whether the connection
has been closed, after which nothing is read from it any more. -/
structure Connection where
  current : RecvBuffer
  dispatched : List (List Byte)
  closed : Bool
deriving DecidableEq, Repr

namespace Connection

def initial : Connection := ⟨.empty, [], false⟩

def readLength (current : RecvBuffer) (data : List Byte) : Option (RecvBuffer × List Byte) :=
  if current.expectedLength = noLength then
    (readIntegral 8 data).map fun (length, rest) =>
      ({ current with expectedLength := BitVec.ofNat 64 length }, rest)
  else some (current, data)

def insert (connection : Connection) (data : List Byte) : Connection × List Byte :=
  let current := connection.current
  let count := min data.length
    (current.expectedLength - BitVec.ofNat 64 current.buffer.length).toNat
  let buffer := current.buffer ++ data.take count
  if BitVec.ofNat 64 buffer.length = current.expectedLength then
    ({ connection with current := .empty, dispatched := connection.dispatched ++ [buffer] },
      data.drop count)
  else
    ({ connection with current := { current with buffer } }, data.drop count)

def readLoop : Nat → Connection → List Byte → Connection
  -- Every turn but the first uses up a byte.
  | 0, connection, _ => connection
  | turns + 1, connection, data =>
    if data = [] then connection
    else
      match readLength connection.current data with
      | none => { connection with closed := true }
      | some (current, rest) =>
        let inserted := { connection with current }.insert rest
        readLoop turns inserted.1 inserted.2

def onClientRead (connection : Connection) (data : List Byte) : Connection :=
  if connection.closed then connection else readLoop (data.length + 1) connection data

def receive (reads : List (List Byte)) : Connection :=
  Machine.run (fun data connection => connection.onClientRead data) reads initial

end Connection

def frame (payload : List Byte) : List Byte := writeIntegral 8 payload.length ++ payload

def starts : Nat → List (List Byte) → List Nat
  | _, [] => []
  | position, piece :: pieces => position :: starts (position + piece.length) pieces

def WholeLengths (packets reads : List (List Byte)) : Prop :=
  ∀ cut ∈ starts 0 reads, ∀ field ∈ starts 0 (packets.map frame), ¬ (field < cut ∧ cut < field + 8)

instance (packets reads : List (List Byte)) : Decidable (WholeLengths packets reads) :=
  inferInstanceAs (Decidable (∀ _ ∈ _, ∀ _ ∈ _, _))

def Sized (payload : List Byte) : Prop := 2 ≤ payload.length ∧ payload.length ≤ 2 ^ 63

instance (payload : List Byte) : Decidable (Sized payload) := inferInstanceAs (Decidable (_ ∧ _))

@[simp] theorem length_frame (payload : List Byte) : (frame payload).length = 8 + payload.length := by
  simp [frame]

theorem le_of_mem_starts {position start : Nat} {pieces : List (List Byte)}
    (present : start ∈ starts position pieces) : position ≤ start := by
  induction pieces generalizing position with
  | nil => simp [starts] at present
  | cons piece pieces ih =>
    rcases List.mem_cons.mp present with rfl | later
    · exact le_rfl
    · exact (Nat.le_add_right _ _).trans (ih later)

/-- Where the connection is in the stream: between two packets, or in a payload of which `back` is
still to come. The packets of `todo` come after that. -/
inductive Reached (packets : List (List Byte)) : Connection → List (List Byte) → List Byte → Prop
  | between (finished todo : List (List Byte)) (split : finished ++ todo = packets) :
      Reached packets ⟨.empty, finished, false⟩ todo []
  | inside (finished todo : List (List Byte)) (front back : List Byte)
      (split : finished ++ (front ++ back) :: todo = packets) (more : back ≠ []) :
      Reached packets ⟨⟨BitVec.ofNat 64 (front ++ back).length, front⟩, finished, false⟩ todo back

section Turn

variable {finished : List (List Byte)} {front back data : List Byte}

theorem ofNat_ne_noLength {length : Nat} (small : length ≤ 2 ^ 63) :
    BitVec.ofNat 64 length ≠ noLength := by
  intro same
  have values := congrArg BitVec.toNat same
  have all : noLength.toNat = 2 ^ 64 - 1 := by decide
  rw [all, BitVec.toNat_ofNat] at values
  omega

theorem missing_eq (sized : Sized (front ++ back)) :
    (BitVec.ofNat 64 (front ++ back).length - BitVec.ofNat 64 front.length).toNat = back.length := by
  have small := sized.2
  rw [List.length_append] at small
  rw [List.length_append, BitVec.toNat_sub, BitVec.toNat_ofNat, BitVec.toNat_ofNat]
  omega

theorem insert_short (sized : Sized (front ++ back)) (short : data.length < back.length) :
    Connection.insert ⟨⟨BitVec.ofNat 64 (front ++ back).length, front⟩, finished, false⟩ data =
      (⟨⟨BitVec.ofNat 64 (front ++ back).length, front ++ data⟩, finished, false⟩, []) := by
  have partly : BitVec.ofNat 64 (front ++ data).length ≠ BitVec.ofNat 64 (front ++ back).length := by
    intro same
    have values := congrArg BitVec.toNat same
    have small := sized.2
    simp only [List.length_append, BitVec.toNat_ofNat] at values small
    omega
  simp only [Connection.insert, missing_eq sized, min_eq_left short.le, List.take_length,
    List.drop_length, if_neg partly]

theorem insert_whole (sized : Sized (front ++ back)) (rest : List Byte) :
    Connection.insert ⟨⟨BitVec.ofNat 64 (front ++ back).length, front⟩, finished, false⟩ (back ++ rest) =
      (⟨.empty, finished ++ [front ++ back], false⟩, rest) := by
  have enough : min (back ++ rest).length back.length = back.length := by simp
  simp only [Connection.insert, missing_eq sized, enough, List.take_left, List.drop_left, if_true]

theorem readLength_frame {payload : List Byte} (sized : Sized payload) (rest : List Byte) :
    Connection.readLength .empty (writeIntegral 8 payload.length ++ rest) =
      some (⟨BitVec.ofNat 64 payload.length, []⟩, rest) := by
  have fits : payload.length < 256 ^ 8 := lt_of_le_of_lt sized.2 (by norm_num)
  have due : RecvBuffer.empty.expectedLength = noLength := rfl
  rw [Connection.readLength, if_pos due, readIntegral_writeIntegral 8 _ rest fits]
  rfl

theorem readLength_short (short : data.length < 8) : Connection.readLength .empty data = none := by
  have due : RecvBuffer.empty.expectedLength = noLength := rfl
  rw [Connection.readLength, if_pos due, readIntegral, readBytes, if_pos short]
  rfl

theorem readLoop_nil (turns : Nat) (connection : Connection) :
    Connection.readLoop turns connection [] = connection := by
  cases turns <;> rfl

end Turn

/-- What a read has made of a connection that had read `position` bytes before. Either it has got to
another place, past length fields that lie before that, or its end is inside a length field. -/
def Advanced (packets : List (List Byte)) (position : Nat) (fields : List Nat) (later : List Byte)
    (connection : Connection) : Prop :=
  (∃ todo back passed, Reached packets connection todo back ∧
    back ++ (todo.map frame).flatten = later ∧
    fields = passed ++ starts (position + back.length) (todo.map frame) ∧
    ∀ field ∈ passed, field + 8 ≤ position) ∨
  connection.closed = true ∧ later ≠ [] ∧ ∃ field ∈ fields, field < position ∧ position < field + 8

theorem Advanced.past {packets : List (List Byte)} {position field : Nat} {fields : List Nat}
    {later : List Byte} {connection : Connection}
    (advanced : Advanced packets position fields later connection) (before : field + 8 ≤ position) :
    Advanced packets position (field :: fields) later connection := by
  rcases advanced with ⟨todo, back, passed, reached, stream, rfl, all⟩ | ⟨closed, more, other, present, cut⟩
  · refine Or.inl ⟨todo, back, field :: passed, reached, stream, rfl, ?_⟩
    rintro other (_ | ⟨_, present⟩)
    · exact before
    · exact all other present
  · exact Or.inr ⟨closed, more, other, List.mem_cons_of_mem _ present, cut⟩

section Loop

variable {packets : List (List Byte)} (sized : ∀ payload ∈ packets, Sized payload)

include sized in
theorem insert_advances {finished todo : List (List Byte)} {front back data later : List Byte}
    (split : finished ++ (front ++ back) :: todo = packets) (more : back ≠ [])
    (stream : back ++ (todo.map frame).flatten = data ++ later) :
    (∃ back', Connection.insert ⟨⟨BitVec.ofNat 64 (front ++ back).length, front⟩, finished, false⟩ data =
        (⟨⟨BitVec.ofNat 64 (front ++ back).length, front ++ data⟩, finished, false⟩, []) ∧
        back = data ++ back' ∧ back' ≠ [] ∧ back' ++ (todo.map frame).flatten = later) ∨
      ∃ rest, Connection.insert ⟨⟨BitVec.ofNat 64 (front ++ back).length, front⟩, finished, false⟩ data =
        (⟨.empty, finished ++ [front ++ back], false⟩, rest) ∧ data = back ++ rest ∧
        (todo.map frame).flatten = rest ++ later := by
  have fits : Sized (front ++ back) := sized _ (by simp [← split])
  rcases List.append_eq_append_iff.mp stream with ⟨rest, rfl, after⟩ | ⟨back', rfl, after⟩
  · exact Or.inr ⟨rest, insert_whole fits rest, rfl, after⟩
  · by_cases last : back' = []
    · subst last
      rw [List.append_nil] at fits ⊢
      have whole := @insert_whole finished front data fits []
      rw [List.append_nil] at whole
      exact Or.inr ⟨[], whole, by simp, by simpa using after.symm⟩
    · have short : data.length < (data ++ back').length := by
        simpa using List.length_pos_iff.mpr last
      exact Or.inl ⟨back', insert_short fits short, rfl, last, after.symm⟩

include sized in
theorem readLoop_advances (turns : Nat) {connection : Connection} {todo : List (List Byte)}
    {back data later : List Byte} (position : Nat) (reached : Reached packets connection todo back)
    (stream : back ++ (todo.map frame).flatten = data ++ later) (enough : data.length < turns) :
    Advanced packets (position + data.length) (starts (position + back.length) (todo.map frame)) later
      (Connection.readLoop turns connection data) := by
  induction turns generalizing connection todo back data position with
  | zero => omega
  | succ turns ih =>
    -- What follows a length field, or goes on with a payload.
    have inserts (finished todo : List (List Byte)) (front back data : List Byte) (position : Nat)
        (split : finished ++ (front ++ back) :: todo = packets) (more : back ≠ [])
        (stream : back ++ (todo.map frame).flatten = data ++ later) (enough : data.length ≤ turns) :
        Advanced packets (position + data.length) (starts (position + back.length) (todo.map frame))
          later (Connection.readLoop turns
            (Connection.insert ⟨⟨BitVec.ofNat 64 (front ++ back).length, front⟩, finished, false⟩ data).1
            (Connection.insert
              ⟨⟨BitVec.ofNat 64 (front ++ back).length, front⟩, finished, false⟩ data).2) := by
      rcases insert_advances sized split more stream with
        ⟨back', inserted, rfl, more', after⟩ | ⟨rest, inserted, rfl, after⟩
      · rw [inserted, readLoop_nil, ← List.append_assoc]
        rw [← List.append_assoc] at split
        refine Or.inl ⟨todo, back', [], .inside finished todo (front ++ data) back' split more', after, ?_,
          by simp⟩
        rw [List.nil_append, List.length_append, Nat.add_assoc]
      · rw [inserted, List.length_append, ← Nat.add_assoc]
        have shorter : rest.length < turns := by
          have some := List.length_pos_iff.mpr more
          rw [List.length_append] at enough
          omega
        exact ih (position + back.length)
          (.between (finished ++ [front ++ back]) todo (by simpa using split)) after shorter
    by_cases nothing : data = []
    · subst nothing
      rw [readLoop_nil]
      exact Or.inl ⟨todo, back, [], reached, stream, rfl, by simp⟩
    · rw [Connection.readLoop, if_neg nothing]
      cases reached with
      | inside finished todo front back split more =>
        have fits : Sized (front ++ back) := sized _ (by simp [← split])
        have due : Connection.readLength ⟨BitVec.ofNat 64 (front ++ back).length, front⟩ data =
            some (⟨BitVec.ofNat 64 (front ++ back).length, front⟩, data) :=
          if_neg (ofNat_ne_noLength fits.2)
        rw [due]
        exact inserts finished todo front back data position split more stream (by omega)
      | between finished todo split =>
        cases todo with
        | nil => simp [nothing] at stream
        | cons payload todo =>
          have fits : Sized payload := sized _ (by simp [← split])
          have some : 0 < data.length := List.length_pos_iff.mpr nothing
          rw [List.nil_append, List.map_cons, List.flatten_cons, frame, List.append_assoc] at stream
          have total := congrArg List.length stream
          simp only [List.length_append, length_writeIntegral] at total
          by_cases short : data.length < 8
          · rw [readLength_short short]
            refine Or.inr ⟨rfl, ?_, position, by simp [starts], by omega, by omega⟩
            rintro rfl
            simp only [List.length_nil] at total
            omega
          · obtain ⟨rest, rfl, after⟩ : ∃ rest, data = writeIntegral 8 payload.length ++ rest ∧
                payload ++ (todo.map frame).flatten = rest ++ later := by
              rcases List.append_eq_append_iff.mp stream with ⟨rest, same, after⟩ | ⟨rest, same, after⟩
              · exact ⟨rest, same, after⟩
              · have lengths := congrArg List.length same
                rw [List.length_append, length_writeIntegral] at lengths
                have none : rest = [] := List.length_eq_zero_iff.mp (by omega)
                subst none
                exact ⟨[], by simpa using same.symm, by simpa using after.symm⟩
            rw [readLength_frame fits]
            rw [List.length_append, length_writeIntegral] at enough ⊢
            have more : payload ≠ [] := by
              rintro rfl
              exact absurd fits.1 (by simp)
            have went := inserts finished todo [] payload rest (position + 8) split more after (by omega)
            have fields : starts (position + 0) ((payload :: todo).map frame) =
                position :: starts (position + 8 + payload.length) (todo.map frame) := by
              rw [List.map_cons, starts, length_frame, ← Nat.add_assoc]
              rfl
            rw [← Nat.add_assoc, List.length_nil, fields]
            exact went.past (Nat.le_add_right _ _)

theorem run_closed (reads : List (List Byte)) {connection : Connection} (closed : connection.closed = true) :
    (Machine.run (fun data connection => connection.onClientRead data) reads connection).closed = true := by
  have stays (read : List Byte) (connection : Connection) (closed : connection.closed = true) :
      (connection.onClientRead read).closed = true := by
    rwa [Connection.onClientRead, if_pos closed]
  exact Machine.run_stays stays reads connection closed

include sized in
theorem run_dispatches_iff (reads : List (List Byte)) {connection : Connection}
    {todo : List (List Byte)} {back : List Byte} (position : Nat)
    (reached : Reached packets connection todo back) (nonempty : ∀ read ∈ reads, read ≠ [])
    (stream : reads.flatten = back ++ (todo.map frame).flatten) :
    Machine.run (fun data connection => connection.onClientRead data) reads connection =
        ⟨.empty, packets, false⟩ ↔
      ∀ cut ∈ starts position reads, ∀ field ∈ starts (position + back.length) (todo.map frame),
        ¬ (field < cut ∧ cut < field + 8) := by
  induction reads generalizing connection todo back position with
  | nil =>
    refine iff_of_true ?_ (by simp [starts])
    cases reached with
    | inside finished todo front back split more => simp [more] at stream
    | between finished todo split =>
      cases todo with
      | nil =>
        rw [List.append_nil] at split
        rw [split]
        rfl
      | cons payload todo =>
        have lengths := congrArg List.length stream
        simp only [List.flatten_nil, List.nil_append, List.map_cons, List.flatten_cons, List.length_append,
          length_frame, List.length_nil] at lengths
        omega
  | cons read reads ih =>
    have running : connection.closed = false := by cases reached <;> rfl
    have advanced := readLoop_advances sized (read.length + 1) position reached stream.symm (by simp)
    rw [Machine.run_cons, Connection.onClientRead, running, if_neg (by simp)]
    rcases advanced with
      ⟨todo', back', passed, reached, after, fields, all⟩ | ⟨closed, more, field, present, cut⟩
    · rw [ih (position + read.length) reached (fun other present => nonempty other (by simp [present]))
        after.symm, fields, starts]
      constructor
      · rintro whole cut (_ | ⟨_, later⟩) field present
        · have beyond : position + back.length ≤ field := le_of_mem_starts (fields ▸ present)
          omega
        · rcases List.mem_append.mp present with before | ahead
          · have far := all field before
            have there := le_of_mem_starts later
            omega
          · exact whole cut later field ahead
      · exact fun whole cut later field present =>
          whole cut (List.mem_cons_of_mem _ later) field (List.mem_append_right _ present)
    · refine iff_of_false (fun same => ?_) fun whole => ?_
      · have still := run_closed reads closed
        rw [same] at still
        cases still
      · cases reads with
        | nil => simp at more
        | cons next reads =>
          exact whole (position + read.length) (by simp [starts]) field present cut

end Loop

theorem packets_arrive_iff (packets reads : List (List Byte)) (sized : ∀ payload ∈ packets, Sized payload)
    (nonempty : ∀ read ∈ reads, read ≠ [])
    (stream : reads.flatten = (packets.map frame).flatten) :
    Connection.receive reads = ⟨.empty, packets, false⟩ ↔ WholeLengths packets reads := by
  have iff := run_dispatches_iff sized reads 0 (.between [] packets rfl) nonempty (by simpa using stream)
  rw [List.length_nil, Nat.zero_add] at iff
  exact iff

theorem packets_arrive_in_three_reads :
    Connection.receive [[0, 0, 0, 0, 0, 0, 0, 2], [0, 4, 0, 0, 0, 0, 0, 0, 0, 3, 0], [9, 1]] =
      ⟨.empty, [[0, 4], [0, 9, 1]], false⟩ :=
  (packets_arrive_iff [[0, 4], [0, 9, 1]] _ (by decide) (by decide) (by decide)).mpr (by decide)

theorem split_length_closes :
    (∀ payload ∈ [[(0 : Byte), 4]], Sized payload) ∧
      (∀ read ∈ [[(0 : Byte), 0, 0], [0, 0, 0, 0, 2, 0, 4]], read ≠ []) ∧
      [[(0 : Byte), 0, 0], [0, 0, 0, 0, 2, 0, 4]].flatten = ([[(0 : Byte), 4]].map frame).flatten ∧
      (Connection.receive [[0, 0, 0], [0, 0, 0, 0, 2, 0, 4]]).closed = true ∧
      (Connection.receive [[0, 0, 0], [0, 0, 0, 0, 2, 0, 4]]).dispatched = [] := by
  decide

end Pccl.Server
