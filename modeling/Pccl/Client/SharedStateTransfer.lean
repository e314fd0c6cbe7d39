import Pccl.Packet.RoundTrip

set_option autoImplicit false

/-!
A peer whose shared state is outdated asks the distributor for some keys. The answer is a packet that
lists the sizes, and the contents after it, one behind the other and without any frame. Both sides are
here, with the stream between them; what never arrives and what is refused are both `none`.
-/

namespace Pccl.Client

open Buffer Packet Wire

inductive DeviceType where
  | cpu | cuda
deriving DecidableEq, Repr

structure CcoipSharedStateEntry where
  key : List Byte
  deviceType : DeviceType
  data : List Byte
  allowContentInequality : Bool
deriving DecidableEq, Repr

structure CcoipSharedState where
  revision : BitVec 64
  entries : List CcoipSharedStateEntry
deriving DecidableEq, Repr

section Distributor

-- `uv_buf_init` takes the length as an `unsigned int`.
def sendRawPacket (buffer : List Byte) : List Byte := buffer.take (buffer.length % 2 ^ 32)

def sendLtvPacket (packetId : BitVec 16) (contents : List Byte) : List Byte :=
  sendRawPacket (write 8 (BitVec.ofNat 64 (contents.length + 2)) ++ write 2 packetId ++ contents)

def sharedStateResponseId : BitVec 16 := 1

def statusSuccess : Enumeration := 1

def statusSharedStateNotDistributed : Enumeration := 2

def statusUnknownSharedStateKey : Enumeration := 4

def CcoipSharedState.find (state : CcoipSharedState) (key : List Byte) : Option CcoipSharedStateEntry :=
  state.entries.find? fun entry => entry.key = key

def CcoipSharedState.findAll (state : CcoipSharedState) :
    List (List Byte) → Option (List CcoipSharedStateEntry)
  | [] => some []
  | key :: keys =>
    match state.find key, state.findAll keys with
    | some entry, some entries => some (entry :: entries)
    | _, _ => none

def CcoipSharedStateEntry.announced (entry : CcoipSharedStateEntry) : SharedStateEntry :=
  ⟨entry.key, BitVec.ofNat 64 entry.data.length⟩

def handleSharedStateRequest (syncing : Bool) (state : CcoipSharedState)
    (requestedKeys : List (List Byte)) : List Byte :=
  let answer : S2CPacketSharedStateResponse × List CcoipSharedStateEntry :=
    if syncing then
      match state.findAll requestedKeys with
      | none => (⟨statusUnknownSharedStateKey, state.revision, []⟩, [])
      | some entries =>
        (⟨statusSuccess, state.revision, entries.map CcoipSharedStateEntry.announced⟩, entries)
    else (⟨statusSharedStateNotDistributed, 0, []⟩, [])
  sendLtvPacket sharedStateResponseId answer.1.serialize ++
    (answer.2.map fun entry => sendRawPacket entry.data).flatten

end Distributor

section Requester

-- `recv` of no bytes returns 0, which is taken for the end of the stream.
def receiveRawData (count : Nat) (stream : List Byte) : Option (List Byte × List Byte) :=
  if count = 0 then none else readBytes count stream

def receiveLtvPacket {A : Type} (packetId : BitVec 16) (deserialize : Reader Byte A)
    (stream : List Byte) : Option (A × List Byte) := do
  -- Packets of more than 64 MiB are refused.
  let (length, stream) ← Wire.read 8 stream
  if length.toNat > 64 * 1024 * 1024 then none
  else
    let (data, stream) ← receiveRawData length.toNat stream
    let (actualPacketId, data) ← Wire.read 2 data
    if actualPacketId ≠ packetId then none
    else
      let (packet, _) ← deserialize data
      return (packet, stream)

structure HashFunctions where
  simplehashCpu : List Byte → BitVec 64
  simplehashCuda : List Byte → BitVec 64
  crc32 : List Byte → BitVec 64

def ccoipHashSimple : Enumeration := 0

def ccoipHashCrc32 : Enumeration := 1

def HashFunctions.accepts (functions : HashFunctions) (deviceType : DeviceType) (hashType : Enumeration)
    (expectedHash : BitVec 64) (data : List Byte) : Bool :=
  -- The check of an entry that has been received; a CRC32 of device memory ends the process.
  if hashType = ccoipHashSimple then
    match deviceType with
    | .cuda => functions.simplehashCuda data = expectedHash
    | .cpu => functions.simplehashCpu data = expectedHash
  else if hashType = ccoipHashCrc32 then
    match deviceType with
    | .cuda => false
    | .cpu => functions.crc32 data = expectedHash
  else true

def checkHash (functions : HashFunctions) (response : M2CPacketSyncSharedState) (i : Nat)
    (entry : CcoipSharedStateEntry) (data : List Byte) : Bool :=
  -- A hash without a type is read beyond the end of a vector.
  entry.allowContentInequality ||
    match response.expectedHashes[i]?, response.expectedHashTypes[i]? with
    | none, _ => true
    | some _, none => false
    | some expectedHash, some hashType => functions.accepts entry.deviceType hashType expectedHash data

def lastOf {A : Type} (key : A → List Byte) (name : List Byte) : List A → Option A
  | [] => none
  | item :: items =>
    match lastOf key name items with
    | some later => some later
    | none => if key item = name then some item else none

def writeLast (name data : List Byte) : List CcoipSharedStateEntry → List CcoipSharedStateEntry
  | [] => []
  | entry :: entries =>
    if (lastOf CcoipSharedStateEntry.key name entries).isSome then entry :: writeLast name data entries
    else if entry.key = name then { entry with data } :: entries
    else entry :: entries

def receiveEntries (functions : HashFunctions) (response : M2CPacketSyncSharedState)
    (newEntries : List SharedStateEntry) :
    Nat → List (List Byte) → List CcoipSharedStateEntry → List Byte →
      Option (List CcoipSharedStateEntry × List Byte)
  | _, [], entries, stream => some (entries, stream)
  | i, key :: keys, entries, stream =>
    match lastOf CcoipSharedStateEntry.key key entries with
    | none => none
    | some entry =>
      match lastOf SharedStateEntry.key key newEntries with
      | none => receiveEntries functions response newEntries (i + 1) keys entries stream
      | some newEntry =>
        if newEntry.sizeBytes ≠ BitVec.ofNat 64 entry.data.length then none
        else
          match receiveRawData entry.data.length stream with
          | none => none
          | some (data, rest) =>
            if checkHash functions response i entry data then
              receiveEntries functions response newEntries (i + 1) keys (writeLast key data entries) rest
            else none

def syncSharedState (functions : HashFunctions) (response : M2CPacketSyncSharedState)
    (state : CcoipSharedState) (stream : List Byte) : Option (CcoipSharedState × List Byte) := do
  let (answer, stream) ← receiveLtvPacket sharedStateResponseId
    S2CPacketSharedStateResponse.deserialize stream
  if answer.status ≠ statusSuccess then none
  else
    let (entries, stream) ← receiveEntries functions response answer.entries 0 response.outdatedKeys
      state.entries stream
    return (⟨answer.revision, entries⟩, stream)

end Requester

section Maps

variable {A : Type} {key : A → List Byte} {name : List Byte}

theorem lastOf_eq_none {items : List A} :
    lastOf key name items = none ↔ ∀ item ∈ items, key item ≠ name := by
  induction items with
  | nil => simp [lastOf]
  | cons item items ih =>
    simp only [lastOf, List.forall_mem_cons]
    cases found : lastOf key name items with
    | none => simpa using fun _ => ih.mp found
    | some later => simpa [found] using fun _ => ih

theorem lastOf_mem {items : List A} {item : A} (found : lastOf key name items = some item) :
    item ∈ items ∧ key item = name := by
  induction items with
  | nil => cases found
  | cons first items ih =>
    rw [lastOf] at found
    split at found
    next later there =>
      cases found
      exact ⟨List.mem_cons_of_mem _ (ih there).1, (ih there).2⟩
    next =>
      split at found
      next here =>
        cases found
        exact ⟨List.mem_cons_self, here⟩
      next => cases found

theorem lastOf_map {item : List Byte → A} (named : ∀ name, key (item name) = name)
    {names : List (List Byte)} (present : name ∈ names) :
    lastOf key name (names.map item) = some (item name) := by
  induction names with
  | nil => cases present
  | cons first names ih =>
    rw [List.map_cons, lastOf]
    by_cases later : name ∈ names
    · rw [ih later]
    · have none_ : lastOf key name (names.map item) = none := by
        refine lastOf_eq_none.mpr fun other among => ?_
        obtain ⟨made, there, rfl⟩ := List.mem_map.mp among
        rw [named]
        exact fun same => later (same ▸ there)
      have here : first = name := (List.mem_cons.mp present).resolve_right later |>.symm
      rw [none_, here, if_pos (named name)]

end Maps

section Writing

variable {name data : List Byte}

theorem lastOf_keys {entries others : List CcoipSharedStateEntry}
    (same : others.map CcoipSharedStateEntry.key = entries.map CcoipSharedStateEntry.key) :
    lastOf CcoipSharedStateEntry.key name others = none ↔
      lastOf CcoipSharedStateEntry.key name entries = none := by
  have keyed (entries : List CcoipSharedStateEntry) : lastOf CcoipSharedStateEntry.key name entries = none ↔
      name ∉ entries.map CcoipSharedStateEntry.key := by
    rw [lastOf_eq_none]
    simp
  rw [keyed, keyed, same]

theorem writeLast_of_none {entries : List CcoipSharedStateEntry}
    (nowhere : lastOf CcoipSharedStateEntry.key name entries = none) :
    writeLast name data entries = entries := by
  cases entries with
  | nil => rfl
  | cons entry entries =>
    have other := lastOf_eq_none.mp nowhere entry List.mem_cons_self
    have rest : lastOf CcoipSharedStateEntry.key name entries = none :=
      lastOf_eq_none.mpr fun item among => lastOf_eq_none.mp nowhere item (List.mem_cons_of_mem _ among)
    simp [writeLast, rest, other]

theorem writeLast_cons (entry : CcoipSharedStateEntry) (entries : List CcoipSharedStateEntry) :
    writeLast name data (entry :: entries) =
      (if entry.key = name ∧ lastOf CcoipSharedStateEntry.key name entries = none
        then { entry with data } else entry) :: writeLast name data entries := by
  rw [writeLast]
  cases found : lastOf CcoipSharedStateEntry.key name entries with
  | some later => simp
  | none =>
    rw [writeLast_of_none found]
    by_cases here : entry.key = name <;> simp [here]

theorem writeLast_keys (entries : List CcoipSharedStateEntry) :
    (writeLast name data entries).map CcoipSharedStateEntry.key =
      entries.map CcoipSharedStateEntry.key := by
  induction entries with
  | nil => rfl
  | cons entry entries ih =>
    rw [writeLast_cons, List.map_cons, List.map_cons, ih]
    split <;> rfl

theorem lastOf_writeLast (other : List Byte) (entries : List CcoipSharedStateEntry) :
    lastOf CcoipSharedStateEntry.key other (writeLast name data entries) =
      (lastOf CcoipSharedStateEntry.key other entries).map fun entry =>
        if other = name then { entry with data } else entry := by
  induction entries with
  | nil => rfl
  | cons entry entries ih =>
    rw [writeLast_cons, lastOf, lastOf, ih]
    cases found : lastOf CcoipSharedStateEntry.key other entries with
    | some later => rfl
    | none =>
      simp only [Option.map_none]
      by_cases same : other = name
      · subst same
        by_cases here : entry.key = other <;> simp [here, found]
      · have keyed : (if entry.key = name ∧ lastOf CcoipSharedStateEntry.key name entries = none
            then { entry with data } else entry).key = entry.key := by
          split <;> rfl
        by_cases here : entry.key = other <;> simp [here, same, keyed]

theorem mem_writeLast {entries : List CcoipSharedStateEntry} {entry : CcoipSharedStateEntry}
    (among : entry ∈ writeLast name data entries) :
    entry ∈ entries ∨ entry.key = name ∧ entry.data = data := by
  induction entries with
  | nil => cases among
  | cons first entries ih =>
    rw [writeLast_cons] at among
    rcases List.mem_cons.mp among with here | later
    · split at here
      next written => exact Or.inr ⟨here ▸ written.1, here ▸ rfl⟩
      next => exact Or.inl (here ▸ List.mem_cons_self)
    · rcases ih later with before | now
      · exact Or.inl (List.mem_cons_of_mem _ before)
      · exact Or.inr now

def settled (contents : List Byte → List Byte) (keys : List (List Byte)) :
    List CcoipSharedStateEntry → List CcoipSharedStateEntry
  | [] => []
  | entry :: entries =>
    (if entry.key ∈ keys ∧ lastOf CcoipSharedStateEntry.key entry.key entries = none
      then { entry with data := contents entry.key } else entry) :: settled contents keys entries

variable (contents : List Byte → List Byte)

theorem settled_nil (entries : List CcoipSharedStateEntry) : settled contents [] entries = entries := by
  induction entries with
  | nil => rfl
  | cons entry entries ih => simp [settled, ih]

theorem settled_cons (key : List Byte) (keys : List (List Byte)) (entries : List CcoipSharedStateEntry) :
    settled contents (key :: keys) entries =
      settled contents keys (writeLast key (contents key) entries) := by
  induction entries with
  | nil => rfl
  | cons entry entries ih =>
    rw [writeLast_cons, settled, settled, ih]
    refine congrArg₂ List.cons ?_ rfl
    have kept (name : List Byte) := @lastOf_keys name _ _ (@writeLast_keys key (contents key) entries)
    by_cases here : entry.key = key
    · subst here
      by_cases last : lastOf CcoipSharedStateEntry.key entry.key entries = none
      · simp [last, kept]
      · simp [last, kept]
    · simp [here, kept]

theorem settled_iff (keys : List (List Byte)) (entries : List CcoipSharedStateEntry) :
    (∀ entry ∈ settled contents keys entries, entry.key ∈ keys → entry.data = contents entry.key) ↔
      ∀ before entry after, entries = before ++ entry :: after → entry.key ∈ keys →
        (∃ later ∈ after, later.key = entry.key) → entry.data = contents entry.key := by
  induction entries with
  | nil => simp [settled]
  | cons first entries ih =>
    have later : lastOf CcoipSharedStateEntry.key first.key entries = none ↔
        ¬ ∃ later ∈ entries, later.key = first.key := by
      rw [lastOf_eq_none]
      simp
    rw [settled, List.forall_mem_cons, ih]
    constructor
    · rintro ⟨here, there⟩ before entry after split among superseded
      cases before with
      | nil =>
        obtain ⟨rfl, rfl⟩ := List.cons_eq_cons.mp split
        rw [if_neg (fun both => later.mp both.2 superseded)] at here
        exact here among
      | cons other before =>
        obtain ⟨rfl, rest⟩ := List.cons_eq_cons.mp split
        exact there before entry after rest among superseded
    · intro all
      refine ⟨?_, fun before entry after split => all (first :: before) entry after (by simp [split])⟩
      split
      next written => exact fun _ => rfl
      next kept =>
        intro among
        refine all [] first entries rfl among ?_
        by_contra none_
        exact kept ⟨among, later.mpr none_⟩

end Writing

section Receiving

variable {functions : HashFunctions} {response : M2CPacketSyncSharedState}
  {newEntries : List SharedStateEntry} (contents : List Byte → List Byte)

theorem receiveRawData_eq_some {count : Nat} {stream data rest : List Byte} :
    receiveRawData count stream = some (data, rest) ↔
      0 < count ∧ data.length = count ∧ stream = data ++ rest := by
  rw [receiveRawData, readBytes]
  constructor
  · intro received
    split at received
    · cases received
    next some_ =>
      split at received
      · cases received
      next enough =>
        cases received
        exact ⟨Nat.pos_of_ne_zero some_, by simp; omega, (List.take_append_drop _ _).symm⟩
  · rintro ⟨some_, rfl, rfl⟩
    simp [some_.ne']

/-- What the loop counts on: the sizes of all keys have been announced, and the requester has entries of
those sizes. -/
structure Prepared (newEntries : List SharedStateEntry) (keys : List (List Byte))
    (entries : List CcoipSharedStateEntry) : Prop where
  announced : ∀ key ∈ keys, lastOf SharedStateEntry.key key newEntries =
    some ⟨key, BitVec.ofNat 64 (contents key).length⟩
  present : ∀ key ∈ keys, lastOf CcoipSharedStateEntry.key key entries ≠ none
  sized : ∀ entry ∈ entries, entry.key ∈ keys → entry.data.length = (contents entry.key).length

variable {contents} {entries : List CcoipSharedStateEntry} {key : List Byte} {keys : List (List Byte)}

theorem Prepared.tail (prepared : Prepared contents newEntries (key :: keys) entries) {data : List Byte}
    (length : data.length = (contents key).length) :
    Prepared contents newEntries keys (writeLast key data entries) := by
  refine ⟨fun name among => prepared.announced name (List.mem_cons_of_mem _ among),
    fun name among => ?_, fun entry among inside => ?_⟩
  · rw [ne_eq, lastOf_keys (writeLast_keys entries)]
    exact prepared.present name (List.mem_cons_of_mem _ among)
  · rcases mem_writeLast among with before | ⟨here, written⟩
    · exact prepared.sized entry before (List.mem_cons_of_mem _ inside)
    · rw [written, here, length]

theorem receiveEntries_cons (prepared : Prepared contents newEntries (key :: keys) entries) (i : Nat)
    (stream : List Byte) :
    ∃ entry, lastOf CcoipSharedStateEntry.key key entries = some entry ∧
      receiveEntries functions response newEntries i (key :: keys) entries stream =
        match receiveRawData (contents key).length stream with
        | none => none
        | some (data, rest) =>
          if checkHash functions response i entry data then
            receiveEntries functions response newEntries (i + 1) keys (writeLast key data entries) rest
          else none := by
  obtain ⟨entry, found⟩ := Option.ne_none_iff_exists'.mp (prepared.present key List.mem_cons_self)
  obtain ⟨among, keyed⟩ := lastOf_mem found
  have length := prepared.sized entry among (by simp [keyed])
  rw [keyed] at length
  refine ⟨entry, found, ?_⟩
  rw [receiveEntries, found]
  simp only [prepared.announced key List.mem_cons_self, length, ne_eq, not_true_eq_false, if_false]

theorem receiveEntries_length (prepared : Prepared contents newEntries keys entries) {i : Nat}
    {stream rest : List Byte} {result : List CcoipSharedStateEntry}
    (received : receiveEntries functions response newEntries i keys entries stream = some (result, rest)) :
    stream.length = (keys.map fun key => (contents key).length).sum + rest.length ∧
      ∀ key ∈ keys, 0 < (contents key).length := by
  induction keys generalizing i entries stream with
  | nil =>
    cases received
    simp
  | cons key keys ih =>
    obtain ⟨entry, found, turn⟩ := @receiveEntries_cons functions response _ _ _ _ _ prepared i stream
    rw [turn] at received
    split at received
    · cases received
    next data left raw =>
      obtain ⟨some_, length, rfl⟩ := receiveRawData_eq_some.mp raw
      split at received
      · obtain ⟨sum, positive⟩ := ih (prepared.tail length) received
        refine ⟨?_, List.forall_mem_cons.mpr ⟨some_, positive⟩⟩
        rw [List.length_append, sum, length, List.map_cons, List.sum_cons, Nat.add_assoc]
      · cases received

def Hashed (functions : HashFunctions) (response : M2CPacketSyncSharedState)
    (contents : List Byte → List Byte) (i : Nat) (keys : List (List Byte))
    (entries : List CcoipSharedStateEntry) : Prop :=
  ∀ j key entry, keys[j]? = some key → lastOf CcoipSharedStateEntry.key key entries = some entry →
    checkHash functions response (i + j) entry (contents key) = true

theorem hashed_cons {i : Nat} {entry : CcoipSharedStateEntry}
    (found : lastOf CcoipSharedStateEntry.key key entries = some entry) :
    Hashed functions response contents i (key :: keys) entries ↔
      checkHash functions response i entry (contents key) = true ∧
        Hashed functions response contents (i + 1) keys (writeLast key (contents key) entries) := by
  -- Neither the device of an entry nor what it allows is written.
  have checks (j : Nat) (name : List Byte) : (∀ other, lastOf CcoipSharedStateEntry.key name
        (writeLast key (contents key) entries) = some other →
      checkHash functions response j other (contents name) = true) ↔
      ∀ other, lastOf CcoipSharedStateEntry.key name entries = some other →
        checkHash functions response j other (contents name) = true := by
    rw [lastOf_writeLast]
    cases lastOf CcoipSharedStateEntry.key name entries with
    | none => simp
    | some last =>
      by_cases same : name = key
      · simp [same, checkHash]
      · simp [same]
  constructor
  · intro hashed
    refine ⟨hashed 0 key entry rfl found, fun j name other at_ => ?_⟩
    refine (checks _ name).mpr (fun last there => ?_) other
    have later := hashed (j + 1) name last (by simpa using at_) there
    rwa [show i + 1 + j = i + (j + 1) by omega]
  · rintro ⟨first, rest⟩ j name other at_ there
    cases j with
    | zero =>
      cases at_
      cases found.symm.trans there
      exact first
    | succ j =>
      have later := (checks (i + 1 + j) name).mp fun last where_ =>
        rest j name last (by simpa using at_) where_
      have now := later other there
      rwa [show i + 1 + j = i + (j + 1) by omega] at now

theorem receiveEntries_eq_iff (prepared : Prepared contents newEntries keys entries)
    (positive : ∀ key ∈ keys, 0 < (contents key).length) (i : Nat) (rest : List Byte)
    (result : List CcoipSharedStateEntry × List Byte) :
    receiveEntries functions response newEntries i keys entries ((keys.map contents).flatten ++ rest) =
        some result ↔
      Hashed functions response contents i keys entries ∧
        result = (settled contents keys entries, rest) := by
  induction keys generalizing i entries with
  | nil =>
    have nothing : Hashed functions response contents i [] entries := fun j key entry at_ => by
      simp at at_
    simp [receiveEntries, settled_nil, nothing, eq_comm]
  | cons key keys ih =>
    obtain ⟨entry, found, turn⟩ := @receiveEntries_cons functions response _ _ _ _ _ prepared i
      (((key :: keys).map contents).flatten ++ rest)
    have raw : receiveRawData (contents key).length (((key :: keys).map contents).flatten ++ rest) =
        some (contents key, (keys.map contents).flatten ++ rest) :=
      receiveRawData_eq_some.mpr ⟨positive key List.mem_cons_self, rfl, by simp⟩
    rw [turn, raw, hashed_cons found, settled_cons]
    dsimp only
    by_cases checked : checkHash functions response i entry (contents key) = true
    · rw [if_pos checked, ih (prepared.tail rfl)
        fun name among => positive name (List.mem_cons_of_mem _ among)]
      simp [checked]
    · simp [checked]

end Receiving

section Packets

theorem sendRawPacket_of_lt {buffer : List Byte} (small : buffer.length < 2 ^ 32) :
    sendRawPacket buffer = buffer := by
  rw [sendRawPacket, Nat.mod_eq_of_lt small, List.take_length]

theorem length_sendRawPacket (buffer : List Byte) :
    (sendRawPacket buffer).length = buffer.length % 2 ^ 32 := by
  rw [sendRawPacket, List.length_take, min_eq_left (Nat.mod_le _ _)]

@[simp] theorem length_write (bytes : Nat) (value : BitVec (8 * bytes)) :
    (write bytes value).length = bytes :=
  length_writeIntegral bytes _

theorem receiveLtvPacket_sendLtvPacket {A : Type} (packetId : BitVec 16) {deserialize : Reader Byte A}
    {contents : List Byte} {value : A} (reads : Reader.Reads deserialize contents value)
    (small : contents.length + 2 ≤ 64 * 1024 * 1024) (rest : List Byte) :
    receiveLtvPacket packetId deserialize (sendLtvPacket packetId contents ++ rest) =
      some (value, rest) := by
  have length : (BitVec.ofNat 64 (contents.length + 2)).toNat = contents.length + 2 := by
    rw [BitVec.toNat_ofNat]
    omega
  have whole : sendLtvPacket packetId contents =
      write 8 (BitVec.ofNat 64 (contents.length + 2)) ++ (write 2 packetId ++ contents) := by
    rw [sendLtvPacket, sendRawPacket_of_lt, List.append_assoc]
    rw [List.length_append, List.length_append, length_write, length_write]
    omega
  have raw : receiveRawData (contents.length + 2) (write 2 packetId ++ contents ++ rest) =
      some (write 2 packetId ++ contents, rest) :=
    receiveRawData_eq_some.mpr ⟨by omega, by simp [Nat.add_comm], rfl⟩
  have contents_ : deserialize contents = some (value, []) := by simpa using reads []
  rw [whole, List.append_assoc, receiveLtvPacket, reads_write 8 _ (write 2 packetId ++ contents ++ rest)]
  simp only [Option.bind_eq_bind, Option.bind_some, length, raw, reads_write 2 packetId contents,
    if_neg (Nat.not_lt.mpr small), ne_eq, not_true_eq_false, if_false, contents_]
  rfl

/-- A packet that `QueuedSocket` has let through and `deserialize` has made. -/
structure Received (response : M2CPacketSyncSharedState) : Prop where
  conventional : PacketType.Conventional .m2cSyncSharedState response
  small : response.serialize.length + 2 ≤ 64 * 1024 * 1024

def answerTo (distributor : CcoipSharedState) (contents : List Byte → List Byte)
    (keys : List (List Byte)) : S2CPacketSharedStateResponse :=
  ⟨statusSuccess, distributor.revision, keys.map fun key => ⟨key, BitVec.ofNat 64 (contents key).length⟩⟩

theorem Received.answer_small {response : M2CPacketSyncSharedState} (received : Received response)
    (distributor : CcoipSharedState) (contents : List Byte → List Byte) :
    (answerTo distributor contents response.outdatedKeys).serialize.length + 2 ≤ 64 * 1024 * 1024 := by
  obtain ⟨address, _, hashes, hashTypes, _⟩ := received.conventional
  have addressed : 7 ≤ (writeSocketAddress response.distributorAddress).length := by
    rcases address with ⟨family, _⟩ | ⟨family, _⟩
    · simp [writeSocketAddress, writeBoolean, family, response.distributorAddress.ipv4.property]
    · simp [writeSocketAddress, writeBoolean, family, inetIPv4, inetIPv6,
        response.distributorAddress.ipv6.property]
  have bound := received.small
  simp [M2CPacketSyncSharedState.serialize, writeBoolean, writeEnumeration, List.length_flatten,
    List.map_map, Function.comp_def, writeString, List.sum_map_add, hashes, hashTypes] at bound
  simp [answerTo, S2CPacketSharedStateResponse.serialize, writeEnumeration, writeList,
    SharedStateEntry.serialize, List.length_flatten, List.map_map, Function.comp_def, writeString,
    List.sum_map_add]
  -- The answer spends sixteen bytes on a key besides its name, and the packet seventeen.
  rcases Nat.eq_zero_or_pos response.outdatedKeys.length with none_ | some_
  · simp [List.length_eq_zero_iff.mp none_]
  · omega

theorem Received.reads_answer {response : M2CPacketSyncSharedState} (received : Received response)
    (distributor : CcoipSharedState) (contents : List Byte → List Byte) :
    Reader.Reads S2CPacketSharedStateResponse.deserialize
      (answerTo distributor contents response.outdatedKeys).serialize
      (answerTo distributor contents response.outdatedKeys) := by
  obtain ⟨_, sizable, _, _, keys, _⟩ := received.conventional
  refine PacketType.reads_deserialize .s2cSharedStateResponse
    (answerTo distributor contents response.outdatedKeys) ⟨?_, ?_, fun entry among => ?_⟩
  · exact show (1 : BitVec 32).toNat < 256 by decide
  · simpa [Sizable, answerTo] using sizable
  · obtain ⟨key, there, rfl⟩ := List.mem_map.mp among
    exact keys key there

end Packets

section Transfer

def CcoipSharedState.contents (state : CcoipSharedState) (key : List Byte) : List Byte :=
  ((state.find key).map CcoipSharedStateEntry.data).getD []

theorem CcoipSharedState.contents_eq {state : CcoipSharedState} {key : List Byte}
    {source : CcoipSharedStateEntry} (found : state.find key = some source) :
    state.contents key = source.data := by
  rw [CcoipSharedState.contents, found]
  rfl

structure Holding (keys : List (List Byte)) (distributor requester : CcoipSharedState) : Prop where
  distributed : ∀ key ∈ keys, ∃ source, distributor.find key = some source
  requested : ∀ key ∈ keys, ∃ entry ∈ requester.entries, entry.key = key
  sized : ∀ key ∈ keys, ∀ source, distributor.find key = some source →
    ∀ entry ∈ requester.entries, entry.key = key → entry.data.length = source.data.length

variable {functions : HashFunctions} {response : M2CPacketSyncSharedState}
  {distributor requester : CcoipSharedState} {keys : List (List Byte)}

theorem handleSharedStateRequest_eq
    (distributed : ∀ key ∈ keys, ∃ source, distributor.find key = some source) :
    handleSharedStateRequest true distributor keys =
      sendLtvPacket sharedStateResponseId (answerTo distributor distributor.contents keys).serialize ++
        (keys.map fun key => sendRawPacket (distributor.contents key)).flatten := by
  have found : ∃ entries, distributor.findAll keys = some entries ∧
      entries.map CcoipSharedStateEntry.announced =
        keys.map (fun key => ⟨key, BitVec.ofNat 64 (distributor.contents key).length⟩) ∧
      (entries.map fun entry => sendRawPacket entry.data) =
        keys.map fun key => sendRawPacket (distributor.contents key) := by
    induction keys with
    | nil => exact ⟨[], rfl, rfl, rfl⟩
    | cons key keys ih =>
      obtain ⟨source, here⟩ := distributed key List.mem_cons_self
      obtain ⟨entries, rest, announced, sent⟩ :=
        ih fun name among => distributed name (List.mem_cons_of_mem _ among)
      have keyed : source.key = key := by simpa using List.find?_some here
      refine ⟨source :: entries, by simp [CcoipSharedState.findAll, here, rest], ?_, ?_⟩
      · simp [announced, CcoipSharedStateEntry.announced, keyed, CcoipSharedState.contents_eq here]
      · simp [sent, CcoipSharedState.contents_eq here]
  obtain ⟨entries, all, announced, sent⟩ := found
  simp only [handleSharedStateRequest, if_true, all, announced, sent]
  rfl

theorem Holding.prepared (holding : Holding keys distributor requester) :
    Prepared distributor.contents (answerTo distributor distributor.contents keys).entries keys
      requester.entries := by
  refine ⟨fun key among => ?_, fun key among nowhere => ?_, fun entry among inside => ?_⟩
  · exact lastOf_map (fun _ => rfl) among
  · obtain ⟨entry, there, keyed⟩ := holding.requested key among
    exact lastOf_eq_none.mp nowhere entry there keyed
  · obtain ⟨source, found⟩ := holding.distributed entry.key inside
    rw [CcoipSharedState.contents_eq found]
    exact holding.sized entry.key inside source found entry among rfl

theorem syncSharedState_eq (received : Received response)
    (holding : Holding response.outdatedKeys distributor requester) :
    syncSharedState functions response requester
        (handleSharedStateRequest true distributor response.outdatedKeys) =
      (receiveEntries functions response
        (answerTo distributor distributor.contents response.outdatedKeys).entries 0 response.outdatedKeys
        requester.entries (response.outdatedKeys.map fun key =>
          sendRawPacket (distributor.contents key)).flatten).map
        fun (entries, rest) => (⟨distributor.revision, entries⟩, rest) := by
  rw [handleSharedStateRequest_eq holding.distributed, syncSharedState,
    receiveLtvPacket_sendLtvPacket _ (received.reads_answer distributor distributor.contents)
      (received.answer_small distributor distributor.contents)]
  have succeeded : ¬ (answerTo distributor distributor.contents response.outdatedKeys).status ≠
      statusSuccess := not_not.mpr rfl
  simp only [Option.bind_eq_bind, Option.bind_some, if_neg succeeded]
  cases receiveEntries functions response
    (answerTo distributor distributor.contents response.outdatedKeys).entries 0 response.outdatedKeys
    requester.entries (response.outdatedKeys.map fun key =>
      sendRawPacket (distributor.contents key)).flatten with
  | none => rfl
  | some result => rfl

theorem eq_of_sum_eq {A : Type} {first second : A → Nat} {items : List A}
    (below : ∀ item ∈ items, first item ≤ second item)
    (sums : (items.map first).sum = (items.map second).sum) :
    ∀ item ∈ items, first item = second item := by
  induction items with
  | nil => simp
  | cons item items ih =>
    have rest := List.sum_le_sum fun other among => below other (List.mem_cons_of_mem item among)
    have here := below item List.mem_cons_self
    rw [List.map_cons, List.map_cons, List.sum_cons, List.sum_cons] at sums
    refine List.forall_mem_cons.mpr ⟨by omega, ih (fun other among => ?_) (by omega)⟩
    exact below other (List.mem_cons_of_mem _ among)

theorem small_of_received (prepared : Prepared distributor.contents
      (answerTo distributor distributor.contents keys).entries keys requester.entries)
    {result : List CcoipSharedStateEntry}
    (receives : receiveEntries functions response
      (answerTo distributor distributor.contents keys).entries 0 keys requester.entries
      (keys.map fun key => sendRawPacket (distributor.contents key)).flatten = some (result, [])) :
    ∀ key ∈ keys, 0 < (distributor.contents key).length ∧
      (distributor.contents key).length < 2 ^ 32 := by
  obtain ⟨sums, positive⟩ := receiveEntries_length prepared receives
  rw [List.length_flatten, List.map_map, List.length_nil, Nat.add_zero] at sums
  intro key among
  refine ⟨positive key among, ?_⟩
  have whole := eq_of_sum_eq (fun name _ => ?_) sums key among
  · rw [Function.comp_apply, length_sendRawPacket] at whole
    exact whole ▸ Nat.mod_lt _ (by norm_num)
  · rw [Function.comp_apply, length_sendRawPacket]
    exact Nat.mod_le _ _

theorem streams_line_up_iff (functions : HashFunctions) (received : Received response)
    (holding : Holding response.outdatedKeys distributor requester) :
    (∃ state, syncSharedState functions response requester
        (handleSharedStateRequest true distributor response.outdatedKeys) = some (state, []) ∧
      ∀ entry ∈ state.entries, entry.key ∈ response.outdatedKeys →
        (distributor.find entry.key).map CcoipSharedStateEntry.data = some entry.data) ↔
    (∀ key ∈ response.outdatedKeys, ∀ source, distributor.find key = some source →
      0 < source.data.length ∧ source.data.length < 2 ^ 32) ∧
    (∀ i key entry source, response.outdatedKeys[i]? = some key →
      lastOf CcoipSharedStateEntry.key key requester.entries = some entry →
      distributor.find key = some source → checkHash functions response i entry source.data = true) ∧
    ∀ before entry after, requester.entries = before ++ entry :: after →
      entry.key ∈ response.outdatedKeys → (∃ later ∈ after, later.key = entry.key) →
      (distributor.find entry.key).map CcoipSharedStateEntry.data = some entry.data := by
  have data (key : List Byte) (among : key ∈ response.outdatedKeys) (bytes : List Byte) :
      (distributor.find key).map CcoipSharedStateEntry.data = some bytes ↔
        bytes = distributor.contents key := by
    obtain ⟨source, found⟩ := holding.distributed key among
    rw [CcoipSharedState.contents_eq found, found, Option.map_some, Option.some_inj, eq_comm]
  have hashed : Hashed functions response distributor.contents 0 response.outdatedKeys requester.entries ↔
      ∀ i key entry source, response.outdatedKeys[i]? = some key →
        lastOf CcoipSharedStateEntry.key key requester.entries = some entry →
        distributor.find key = some source → checkHash functions response i entry source.data = true := by
    constructor
    · intro hashed i key entry source at_ last found
      rw [← CcoipSharedState.contents_eq found]
      simpa using hashed i key entry at_ last
    · intro checks i key entry at_ last
      obtain ⟨source, found⟩ := holding.distributed key (List.mem_of_getElem? at_)
      rw [CcoipSharedState.contents_eq found, Nat.zero_add]
      exact checks i key entry source at_ last found
  have sized : (∀ key ∈ response.outdatedKeys, 0 < (distributor.contents key).length ∧
        (distributor.contents key).length < 2 ^ 32) ↔
      ∀ key ∈ response.outdatedKeys, ∀ source, distributor.find key = some source →
        0 < source.data.length ∧ source.data.length < 2 ^ 32 := by
    refine forall₂_congr fun key among => ?_
    obtain ⟨source, found⟩ := holding.distributed key among
    simp [CcoipSharedState.contents_eq found, found]
  have superseded := settled_iff distributor.contents response.outdatedKeys requester.entries
  rw [syncSharedState_eq received holding, ← hashed, ← sized]
  -- Where nothing is cut off, the stream is the contents one after the other.
  have uncut (small : ∀ key ∈ response.outdatedKeys, 0 < (distributor.contents key).length ∧
      (distributor.contents key).length < 2 ^ 32) : (response.outdatedKeys.map fun key =>
        sendRawPacket (distributor.contents key)).flatten =
      (response.outdatedKeys.map distributor.contents).flatten ++ [] := by
    rw [List.append_nil]
    exact congrArg List.flatten
      (List.map_congr_left fun key among => sendRawPacket_of_lt (small key among).2)
  constructor
  · rintro ⟨state, received_, equal⟩
    obtain ⟨⟨entries, rest⟩, receives, same⟩ := Option.map_eq_some_iff.mp received_
    cases same
    have small := small_of_received holding.prepared receives
    rw [uncut small, receiveEntries_eq_iff holding.prepared fun key among => (small key among).1]
      at receives
    obtain ⟨checks, ⟨⟩⟩ := receives
    refine ⟨small, checks, fun before entry after split among later => (data _ among _).mpr ?_⟩
    exact superseded.mp (fun settled_ there inside => (data _ inside _).mp (equal settled_ there inside))
      before entry after split among later
  · rintro ⟨small, checks, earlier⟩
    refine ⟨⟨distributor.revision, settled distributor.contents response.outdatedKeys requester.entries⟩,
      Option.map_eq_some_iff.mpr ⟨(_, []), ?_, rfl⟩, fun entry there inside => (data _ inside _).mpr ?_⟩
    · rw [uncut small, receiveEntries_eq_iff holding.prepared fun key among => (small key among).1]
      exact ⟨checks, rfl⟩
    · refine superseded.mpr (fun before first after split among later => ?_) entry there inside
      exact (data _ among _).mp (earlier before first after split among later)

end Transfer

namespace Sample

def hashFunctions : HashFunctions := ⟨fun data => data.length, fun data => data.length, fun _ => 0⟩

def outdatedTwice : M2CPacketSyncSharedState where
  isOutdated := true
  distributorAddress := Wire.Sample.loopback
  outdatedKeys := [[104], [105], [104]]
  expectedHashes := [2, 3, 2]
  expectedHashTypes := [0, 0, 0]

def distributor : CcoipSharedState :=
  ⟨7, [⟨[105], .cpu, [1, 2, 3], false⟩, ⟨[104], .cuda, [8, 9], false⟩]⟩

def requester : CcoipSharedState :=
  ⟨3, [⟨[104], .cpu, [0, 0], false⟩, ⟨[106], .cpu, [5], false⟩, ⟨[105], .cpu, [0, 0, 0], true⟩]⟩

def oneKey : M2CPacketSyncSharedState where
  isOutdated := true
  distributorAddress := Wire.Sample.loopback
  outdatedKeys := [[104]]
  expectedHashes := [0]
  expectedHashTypes := [0]

def filled (size : Nat) (byte : Byte) : CcoipSharedState :=
  ⟨0, [⟨[104], .cpu, List.replicate size byte, true⟩]⟩

end Sample

open Sample

theorem streams_line_up_twice :
    ∃ state, syncSharedState hashFunctions outdatedTwice requester
        (handleSharedStateRequest true distributor outdatedTwice.outdatedKeys) =
        some (state, []) := by
  have received : Received outdatedTwice := ⟨⟨Or.inl ⟨rfl, rfl⟩, by decide, rfl, rfl,
    by simp [outdatedTwice, Sizable], by simp [outdatedTwice, FitsByte]⟩, by decide⟩
  have holding : Holding outdatedTwice.outdatedKeys distributor requester := by
    refine ⟨?_, by decide, ?_⟩
    · simp [outdatedTwice, distributor, CcoipSharedState.find]
    · simp [outdatedTwice, distributor, requester, CcoipSharedState.find]
  refine ((streams_line_up_iff hashFunctions received holding).mpr ⟨?_, ?_, ?_⟩).imp
    fun _ both => both.1
  · simp [outdatedTwice, distributor, CcoipSharedState.find]
  · intro i key entry source at_ last found
    have inside : i < 3 := (List.getElem?_eq_some_iff.mp at_).1
    interval_cases i <;> cases at_ <;> cases last <;> cases found <;> decide
  · intro before entry after split _ later
    have distinct : (requester.entries.map CcoipSharedStateEntry.key).Nodup := by decide
    rw [split, List.map_append, List.map_cons] at distinct
    obtain ⟨other, among, same⟩ := later
    have apart := (List.nodup_cons.mp (List.nodup_append.mp distinct).2.1).1
    exact absurd (List.mem_map.mpr ⟨other, among, same⟩) apart

theorem holding_filled (size : Nat) :
    Holding oneKey.outdatedKeys (filled size 1) (filled size 0) := by
  refine ⟨?_, ?_, ?_⟩
  · simp [oneKey, filled, CcoipSharedState.find]
  · simp [oneKey, filled]
  · simp [oneKey, filled, CcoipSharedState.find]

theorem four_gibibytes_do_not_arrive :
    Received oneKey ∧
      Holding oneKey.outdatedKeys (filled (2 ^ 32) 1) (filled (2 ^ 32) 0) ∧
      syncSharedState hashFunctions oneKey (filled (2 ^ 32) 0)
        (handleSharedStateRequest true (filled (2 ^ 32) 1) oneKey.outdatedKeys) = none := by
  have received : Received oneKey := ⟨⟨Or.inl ⟨rfl, rfl⟩, by decide, rfl, rfl,
    by simp [oneKey, Sizable], by simp [oneKey, FitsByte]⟩, by decide⟩
  have holding := holding_filled (2 ^ 32)
  refine ⟨received, holding, ?_⟩
  generalize large : 2 ^ 32 = size at holding ⊢
  rw [syncSharedState_eq received holding, Option.map_eq_none_iff]
  refine Option.eq_none_iff_forall_ne_some.mpr fun result receives => ?_
  obtain ⟨sums, _⟩ := receiveEntries_length holding.prepared receives
  have found : (filled size 1).find [104] =
      some ⟨[104], .cpu, List.replicate size 1, true⟩ := by
    simp [filled, CcoipSharedState.find]
  have length : ((filled size 1).contents [104]).length = size := by
    rw [CcoipSharedState.contents_eq found, List.length_replicate]
  have one : oneKey.outdatedKeys = [[104]] := rfl
  rw [one] at sums
  simp only [List.map_cons, List.map_nil, List.flatten_cons, List.flatten_nil, List.append_nil,
    length_sendRawPacket, length, List.sum_cons, List.sum_nil] at sums
  omega

end Pccl.Client
