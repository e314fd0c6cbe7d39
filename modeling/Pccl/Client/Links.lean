import Pccl.Client.Parties

set_option autoImplicit false

namespace Pccl.Client

open Packet Connections

def slotsOf (pool : List TxSocket) : List (Option Nat) := pool.map fun socket => some socket.connection

theorem installSlot_slotsOf (pool : List TxSocket) (hello : Hello)
    (next : hello.connectionNr = pool.length) :
    installSlot (slotsOf pool) hello = slotsOf pool ++ [some hello.connection] := by
  have length : (slotsOf pool).length = pool.length := by simp [slotsOf]
  unfold installSlot
  rw [next, List.take_of_length_le (by omega), length, Nat.add_sub_cancel_left, List.replicate_one]
  dsimp only
  rw [List.set_append_right _ _ (by omega), length, Nat.sub_self]
  rfl

theorem installSlot_zero (slots : List (Option Nat)) (hello : Hello) (first : hello.connectionNr = 0) :
    installSlot slots hello = [some hello.connection] := by
  unfold installSlot
  rw [first]
  cases slots <;> simp

/-- The outgoing pool of a client at one end, and the connections that its peer has not taken up and
the slots that it has or is about to have at the other end. -/
structure Link (uuid : Uuid) (pool : List TxSocket) (awaited : Option Nat) (acks : List Nat)
    (backlog : List Hello) (slots : Option (List (Option Nat))) : Prop where
  joined : awaited = none → pool ≠ [] → backlog = [] ∧ slots = some (slotsOf pool)
  queued : ∀ connection, awaited = some connection →
    backlog = [] ∨ backlog.getLast? = some ⟨uuid, pool.length, connection⟩
  alone : ∀ connection, awaited = some connection → pool ≠ [] →
    backlog = [] ∨ backlog = [⟨uuid, pool.length, connection⟩]
  before : ∀ connection, awaited = some connection → connection ∉ acks → pool ≠ [] →
    slots = some (slotsOf pool)
  after : ∀ connection, awaited = some connection → connection ∈ acks →
    backlog = [] ∧ slots = some (slotsOf pool ++ [some connection])

namespace Link

variable {uuid : Uuid} {pool : List TxSocket} {acks : List Nat} {backlog : List Hello}
  {slots : Option (List (Option Nat))} {awaited : Option Nat}

theorem empty (uuid : Uuid) (acks : List Nat) (backlog : List Hello)
    (slots : Option (List (Option Nat))) : Link uuid [] none acks backlog slots :=
  ⟨fun _ some => absurd rfl some, nofun, nofun, nofun, nofun⟩

theorem dial (link : Link uuid pool none acks backlog slots) {connection : Nat}
    (fresh : connection ∉ acks) :
    Link uuid pool (some connection) acks (backlog ++ [⟨uuid, pool.length, connection⟩]) slots := by
  refine ⟨nofun, fun other same => ?_, fun other same some => ?_, fun _ _ _ some => ?_,
    fun other same member => ?_⟩
  · cases same
    exact .inr (by simp)
  · cases same
    exact .inr (by rw [(link.joined rfl some).1, List.nil_append])
  · exact (link.joined rfl some).2
  · cases same
    exact absurd member fresh

theorem acknowledged {connection : Nat} (link : Link uuid pool (some connection) acks backlog slots)
    (answered : connection ∈ acks) (address : SocketAddress) :
    Link uuid (pool ++ [⟨address, connection⟩]) none acks backlog slots := by
  obtain ⟨empty, full⟩ := link.after connection rfl answered
  refine ⟨fun _ _ => ⟨empty, ?_⟩, nofun, nofun, nofun, nofun⟩
  rw [full]
  simp [slotsOf]

theorem drop {hello : Hello} (link : Link uuid pool awaited acks (hello :: backlog) slots) :
    Link uuid pool awaited acks backlog slots := by
  refine ⟨fun none some => ?_, fun connection same => ?_, fun connection same some => ?_, link.before,
    fun connection same answered => ?_⟩
  · cases (link.joined none some).1
  · rcases link.queued connection same with empty | last
    · cases empty
    · cases backlog with
      | nil => exact .inl rfl
      | cons next rest => exact .inr (by simpa using last)
  · rcases link.alone connection same some with empty | single
    · cases empty
    · exact .inl (List.cons.inj single).2
  · cases (link.after connection same answered).1

theorem accept {hello : Hello} (link : Link uuid pool awaited acks (hello :: backlog) slots)
    (sorted : ((hello :: backlog).map Hello.connection).Pairwise (· < ·)) :
    Link uuid pool awaited (acks ++ [hello.connection]) backlog
      (some (installSlot (slots.getD []) hello)) := by
  have dropped := link.drop
  refine ⟨fun none some => ?_, dropped.queued, dropped.alone, fun connection same unanswered some => ?_,
    fun connection same answered => ?_⟩
  · cases (link.joined none some).1
  · rw [List.mem_append, List.mem_singleton, not_or] at unanswered
    rcases link.alone connection same some with empty | single
    · cases empty
    · cases single
      exact absurd rfl unanswered.2
  · rw [List.mem_append, List.mem_singleton] at answered
    by_cases earlier : connection ∈ acks
    · cases (link.after connection same earlier).1
    · obtain rfl := answered.resolve_left earlier
      -- The awaited connection is the last one, and those after the first one are later.
      have last : backlog = [] := by
        cases backlog with
        | nil => rfl
        | cons next rest =>
          rcases link.queued _ same with empty | last
          · cases empty
          · have member : (⟨uuid, pool.length, hello.connection⟩ : Hello) ∈ next :: rest := by
              rw [List.getLast?_cons_cons] at last
              exact List.mem_of_getLast? last
            have later := (List.pairwise_cons.mp sorted).1 hello.connection
              (List.mem_map.mpr ⟨_, member, rfl⟩)
            exact absurd later (lt_irrefl _)
      subst last
      have number : hello.connectionNr = pool.length := by
        rcases link.queued _ same with empty | last
        · cases empty
        · exact congrArg Hello.connectionNr (Option.some.inj last)
      refine ⟨rfl, congrArg some ?_⟩
      by_cases first : pool = []
      · subst first
        exact installSlot_zero _ hello number
      · rw [link.before _ same earlier first, Option.getD_some, installSlot_slotsOf pool hello number]

theorem congr_acks {others : List Nat} (link : Link uuid pool awaited acks backlog slots)
    (same : ∀ connection, awaited = some connection → (connection ∈ others ↔ connection ∈ acks)) :
    Link uuid pool awaited others backlog slots := by
  refine ⟨link.joined, link.queued, link.alone, fun connection now unanswered => ?_,
    fun connection now answered => ?_⟩
  · exact link.before connection now ((same connection now).not.mp unanswered)
  · exact link.after connection now ((same connection now).mp answered)

end Link

def Stage.awaitedAt (stage : Stage) (uuid : Uuid) : Option Nat :=
  match stage with
  | .awaiting peer connection _ => if peer.peerUuid = uuid then some connection else none
  | _ => none

theorem Stage.awaitedAt_of_resting {stage : Stage} (resting : stage.working = false) (uuid : Uuid) :
    stage.awaitedAt uuid = none := by
  cases stage <;> first | rfl | cases resting

namespace Party

def helloes (party : Party) (uuid : Uuid) : List Hello :=
  party.backlog.filter fun hello => hello.peerUuid = uuid

def settled (party : Party) : Connections :=
  match party.holding with
  | some hello => party.connections.installRx hello
  | none => party.connections

def slots (party : Party) (uuid : Uuid) : Option (List (Option Nat)) :=
  party.settled.p2pConnectionsRx.lookup uuid

def wire (party : Party) :
    Table Uuid (List TxSocket) × Table Uuid (List (Option Nat)) × Nat × List Nat × List Hello ×
      Option Hello :=
  (party.connections.p2pConnectionsTx, party.connections.p2pConnectionsRx, party.opened, party.acks,
    party.backlog, party.holding)

def numbers (party : Party) : Nat × List Nat × List Hello := (party.opened, party.acks, party.backlog)

theorem numbers_congr {party other : Party} (same : other.wire = party.wire) :
    other.numbers = party.numbers := by
  simp only [wire, Prod.mk.injEq] at same
  simp only [numbers, same]

theorem slots_congr {party other : Party} (same : other.wire = party.wire) (uuid : Uuid) :
    other.slots uuid = party.slots uuid := by
  simp only [wire, Prod.mk.injEq] at same
  obtain ⟨-, rx, -, -, -, holding⟩ := same
  unfold slots settled
  rw [holding]
  cases party.holding with
  | none => exact congrArg (AList.lookup uuid) rx
  | some hello => simp only [installRx, rx]

end Party

namespace System

variable {poolSize : Uuid → Nat} {system : System}

structure Numbered (system : System) : Prop where
  sorted : ∀ uuid other,
    (((system.parties other).helloes uuid).map Hello.connection).Pairwise (· < ·)
  opened : ∀ uuid other, ∀ hello ∈ (system.parties other).helloes uuid,
    hello.connection < (system.parties uuid).opened
  acked : ∀ uuid, ∀ connection ∈ (system.parties uuid).acks, connection < (system.parties uuid).opened
  awaited : ∀ uuid other connection, (system.parties uuid).stage.awaitedAt other = some connection →
    connection < (system.parties uuid).opened ∧
      ∀ another, ∀ hello ∈ (system.parties another).helloes uuid,
        hello.connection = connection → another = other

/-- Two clients that list each other agree on the connections from one to the other. -/
def Linked (system : System) : Prop :=
  ∀ uuid other, lists (system.plans uuid) other = true → lists (system.plans other) uuid = true →
    other ∉ (system.parties uuid).failing →
    ∀ pool, (system.parties uuid).connections.p2pConnectionsTx.lookup other = some pool →
      Link uuid pool ((system.parties uuid).stage.awaitedAt other) (system.parties uuid).acks
        ((system.parties other).helloes uuid) ((system.parties other).slots uuid)

theorem parties_put (system : System) (uuid other : Uuid) (party : Party) :
    (system.put uuid party).parties other = if other = uuid then party else system.parties other :=
  Function.update_apply _ _ _ _

theorem Numbered.congr (numbered : system.Numbered) {next : System}
    (same : ∀ uuid, (next.parties uuid).numbers = (system.parties uuid).numbers)
    (waits : ∀ uuid other connection, (next.parties uuid).stage.awaitedAt other = some connection →
      (system.parties uuid).stage.awaitedAt other = some connection) : next.Numbered := by
  simp only [Party.numbers, Prod.mk.injEq] at same
  have helloes (uuid other : Uuid) :
      (next.parties other).helloes uuid = (system.parties other).helloes uuid := by
    simp only [Party.helloes, (same other).2.2]
  constructor
  · intro uuid other
    rw [helloes]
    exact numbered.sorted uuid other
  · intro uuid other
    rw [helloes, (same uuid).1]
    exact numbered.opened uuid other
  · intro uuid
    rw [(same uuid).2.1, (same uuid).1]
    exact numbered.acked uuid
  · intro uuid other connection now
    obtain ⟨bound, only⟩ := numbered.awaited uuid other connection (waits uuid other connection now)
    refine ⟨by rw [(same uuid).1]; exact bound, fun another => ?_⟩
    rw [helloes]
    exact only another

theorem Linked.congr (linked : system.Linked) {next : System}
    (same : ∀ uuid, (next.parties uuid).wire = (system.parties uuid).wire)
    (waits : ∀ uuid other, lists (next.plans uuid) other = true → lists (next.plans other) uuid = true →
      other ∉ (next.parties uuid).failing →
      other ∈ (system.parties uuid).connections.p2pConnectionsTx →
      lists (system.plans uuid) other = true ∧ lists (system.plans other) uuid = true ∧
        other ∉ (system.parties uuid).failing ∧
        (next.parties uuid).stage.awaitedAt other = (system.parties uuid).stage.awaitedAt other) :
    next.Linked := by
  intro uuid other here there fine pool found
  have slots := Party.slots_congr (same other) uuid
  have near := same uuid
  have far := same other
  simp only [Party.wire, Prod.mk.injEq] at near far
  rw [near.1] at found
  obtain ⟨listed, back, old, awaited⟩ := waits uuid other here there fine
    (AList.lookup_isSome.mp (by simp [found]))
  have link := linked uuid other listed back old pool found
  rw [awaited, near.2.2.2.1, slots, Party.helloes, far.2.2.2.2.1]
  exact link

theorem Numbered.put (numbered : system.Numbered) (uuid : Uuid) {party : Party}
    (same : party.numbers = (system.parties uuid).numbers)
    (waits : ∀ other connection, party.stage.awaitedAt other = some connection →
      (system.parties uuid).stage.awaitedAt other = some connection) :
    (system.put uuid party).Numbered := by
  refine numbered.congr (fun another => ?_) fun another other connection => ?_ <;> rw [parties_put] <;> split
  · next here =>
    subst here
    exact same
  · rfl
  · next here =>
    subst here
    exact waits other connection
  · exact id

theorem Linked.put (linked : system.Linked) (uuid : Uuid) {party : Party}
    (backlog : party.backlog = (system.parties uuid).backlog)
    (slots : ∀ near, lists (system.plans uuid) near = true →
      party.slots near = (system.parties uuid).slots near)
    (links : ∀ far, lists (system.plans uuid) far = true → lists (system.plans far) uuid = true →
      far ∉ party.failing → ∀ pool, party.connections.p2pConnectionsTx.lookup far = some pool →
      Link uuid pool (party.stage.awaitedAt far) party.acks ((system.parties far).helloes uuid)
        ((system.parties far).slots uuid)) :
    (system.put uuid party).Linked := by
  intro near far here there okay pool found
  have helloes : ((system.put uuid party).parties far).helloes near = (system.parties far).helloes near := by
    rw [parties_put]
    split
    · next same =>
      subst same
      rw [Party.helloes, backlog, Party.helloes]
    · rfl
  have same_slots : ((system.put uuid party).parties far).slots near = (system.parties far).slots near := by
    rw [parties_put]
    split
    · next same =>
      subst same
      exact slots near there
    · rfl
  rw [helloes, same_slots]
  rw [parties_put] at found okay ⊢
  split at found
  · next same =>
    subst same
    rw [if_pos rfl] at okay ⊢
    exact links far here there okay pool found
  · next different =>
    rw [if_neg different] at okay ⊢
    exact linked near far here there okay pool found

theorem Linked.move (linked : system.Linked) (uuid : Uuid) {party : Party}
    (same : party.wire = (system.parties uuid).wire)
    (waits : ∀ other, lists (system.plans uuid) other = true → other ∉ party.failing →
      other ∉ (system.parties uuid).failing ∧
        party.stage.awaitedAt other = (system.parties uuid).stage.awaitedAt other) :
    (system.put uuid party).Linked := by
  have equal := same
  simp only [Party.wire, Prod.mk.injEq] at equal
  refine linked.put uuid equal.2.2.2.2.1 (fun near _ => Party.slots_congr same near) ?_
  intro far here there okay pool found
  obtain ⟨fine, awaited⟩ := waits far here okay
  rw [equal.1] at found
  rw [awaited, equal.2.2.2.1]
  exact linked uuid far here there fine pool found

theorem Linked.setPool (linked : system.Linked) (uuid target : Uuid) (sockets : List TxSocket)
    (stage : Stage) (fine : (system.parties uuid).failing = [])
    (waits : ∀ other, other ≠ target →
      stage.awaitedAt other = (system.parties uuid).stage.awaitedAt other)
    (link : lists (system.plans uuid) target = true → lists (system.plans target) uuid = true →
      Link uuid sockets (stage.awaitedAt target) (system.parties uuid).acks
        ((system.parties target).helloes uuid) ((system.parties target).slots uuid)) :
    (system.setPool uuid target sockets stage).Linked := by
  refine linked.put uuid rfl (fun near _ => ?_) fun far here there _ pool found => ?_
  · unfold Party.slots Party.settled
    cases (system.parties uuid).holding <;> rfl
  · rw [Table.lookup_insert_iff] at found
    split at found
    · next now =>
      subst now
      cases found
      exact link here there
    · next different =>
      rw [waits far different]
      exact linked uuid far here there (by rw [fine]; simp) pool found

theorem Linked.closeTx (linked : system.Linked) (uuid : Uuid) {failed : List Uuid}
    (closing : (system.parties uuid).stage = .closingTx failed) :
    (system.put uuid
      { system.parties uuid with
        connections := (system.parties uuid).connections.closeUnlistedTx (system.parties uuid).listed
        stage := .closingRx failed }).Linked := by
  refine linked.put uuid rfl (fun near _ => ?_) fun far here there okay pool found => ?_
  · unfold Party.slots Party.settled
    cases (system.parties uuid).holding <;> simp only [installRx, rx_closeUnlistedTx]
  · rw [lookup_tx_closeUnlistedTx] at found
    split at found
    · have link := linked uuid far here there (by simpa [Party.failing, closing] using okay) pool found
      simpa [closing, Stage.awaitedAt] using link
    · cases found

theorem slots_closeUnlistedRx (party : Party) (stage : Stage) (failed : List Uuid) (uuid : Uuid)
    (listed : lists party.listed uuid = true) :
    Party.slots
      { party with
        connections := party.connections.closeUnlistedRx party.listed, stage, failed } uuid =
      party.slots uuid := by
  have lookup := lookup_rx_closeUnlistedRx party.connections party.listed uuid listed
  unfold Party.slots Party.settled
  cases party.holding with
  | none => exact lookup
  | some hello =>
    simp only [installRx, Table.lookup_insert_iff]
    split
    · next same =>
      subst same
      rw [lookup]
    · exact lookup

theorem Linked.closeRx (linked : system.Linked) (uuid : Uuid) {failed : List Uuid}
    (closing : (system.parties uuid).stage = .closingRx failed)
    (listed : (system.parties uuid).listed = system.plans uuid) :
    (system.put uuid
      { system.parties uuid with
        connections := (system.parties uuid).connections.closeUnlistedRx (system.parties uuid).listed
        stage := .reported
        failed }).Linked := by
  refine linked.put uuid rfl (fun near there => ?_) fun far here there okay pool found => ?_
  · exact slots_closeUnlistedRx _ _ _ near (by rw [listed]; exact there)
  · have link := linked uuid far here there (by simpa [Party.failing, closing] using okay) pool found
    simpa [closing, Stage.awaitedAt] using link

theorem Linked.install (linked : system.Linked) (uuid : Uuid) : (system.install uuid).Linked := by
  cases holding : (system.parties uuid).holding with
  | none => simpa only [System.install, holding] using linked
  | some hello =>
    simp only [System.install, holding]
    refine linked.put uuid rfl (fun near _ => ?_) fun far here there okay pool found => ?_
    · simp only [Party.slots, Party.settled, holding]
    · exact linked uuid far here there okay pool found

theorem parties_dial (system : System) (uuid other : Uuid) (peer : PeerInfo) (peers : List PeerInfo) :
    (system.dial uuid peer peers).parties other =
      { system.parties other with
        stage :=
          if other = uuid then .awaiting peer (system.parties uuid).opened peers
          else (system.parties other).stage
        opened :=
          if other = uuid then (system.parties uuid).opened + 1 else (system.parties other).opened
        backlog :=
          if other = peer.peerUuid then
            (system.parties other).backlog ++
              [⟨uuid, (system.pool uuid peer.peerUuid).length, (system.parties uuid).opened⟩]
          else (system.parties other).backlog } := by
  simp only [System.dial, parties_put]
  by_cases target : other = peer.peerUuid <;> by_cases same : other = uuid
  · subst same
    simp [← target]
  · rw [← target]
    simp [same]
  · subst same
    simp [target]
  · simp [target, same]

theorem helloes_dial (system : System) (uuid near far : Uuid) (peer : PeerInfo) (peers : List PeerInfo) :
    ((system.dial uuid peer peers).parties far).helloes near =
      if far = peer.peerUuid ∧ near = uuid then
        (system.parties far).helloes near ++
          [⟨uuid, (system.pool uuid peer.peerUuid).length, (system.parties uuid).opened⟩]
      else (system.parties far).helloes near := by
  rw [parties_dial]
  unfold Party.helloes
  by_cases target : far = peer.peerUuid <;> by_cases same : near = uuid
  · simp [target, same]
  · simp [target, same, Ne.symm same]
  · simp [target]
  · simp [target]

theorem Numbered.put_quiet (numbered : system.Numbered) (uuid : Uuid) {party : Party}
    (same : party.numbers = (system.parties uuid).numbers)
    (quiet : ∀ other, party.stage.awaitedAt other = none) : (system.put uuid party).Numbered := by
  refine numbered.put uuid same fun other connection now => ?_
  rw [quiet] at now
  cases now

theorem Numbered.dial (numbered : system.Numbered) (uuid : Uuid) (peer : PeerInfo)
    (peers : List PeerInfo) : (system.dial uuid peer peers).Numbered := by
  have opened_le (near : Uuid) : (system.parties near).opened ≤
      ((system.dial uuid peer peers).parties near).opened := by
    rw [parties_dial]
    dsimp only
    split
    · next same => exact same ▸ Nat.le_succ _
    · exact le_rfl
  have opened_new : ((system.dial uuid peer peers).parties uuid).opened =
      (system.parties uuid).opened + 1 := by
    rw [parties_dial]
    simp
  constructor
  · intro near far
    rw [helloes_dial]
    split
    · next both =>
      obtain ⟨rfl, rfl⟩ := both
      rw [List.map_append, List.pairwise_append]
      refine ⟨numbered.sorted _ _, by simp, fun old member new last => ?_⟩
      obtain ⟨hello, present, rfl⟩ := List.mem_map.mp member
      rw [List.map_singleton, List.mem_singleton] at last
      rw [last]
      exact numbered.opened _ _ hello present
    · exact numbered.sorted near far
  · intro near far hello member
    rw [helloes_dial] at member
    split at member
    · next both =>
      obtain ⟨rfl, rfl⟩ := both
      rw [List.mem_append, List.mem_singleton] at member
      rw [opened_new]
      rcases member with old | rfl
      · exact Nat.lt_succ_of_lt (numbered.opened _ _ hello old)
      · exact Nat.lt_succ_self _
    · exact (numbered.opened near far hello member).trans_le (opened_le near)
  · intro near connection member
    refine (numbered.acked near connection ?_).trans_le (opened_le near)
    rw [parties_dial] at member
    exact member
  · intro near far connection now
    rw [parties_dial] at now
    dsimp only at now
    by_cases same : near = uuid
    · subst same
      rw [if_pos rfl, Stage.awaitedAt] at now
      split at now
      · next target =>
        cases now
        refine ⟨by rw [opened_new]; exact Nat.lt_succ_self _, fun another hello member equal => ?_⟩
        rw [helloes_dial] at member
        split at member
        · next both => exact both.1.trans target
        · exact absurd equal (numbered.opened near another hello member).ne
      · cases now
    · rw [if_neg same] at now
      obtain ⟨bound, only⟩ := numbered.awaited near far connection now
      refine ⟨bound.trans_le (opened_le near), fun another => ?_⟩
      rw [helloes_dial, if_neg (fun both => same both.2)]
      exact only another

theorem Linked.dial (linked : system.Linked) (numbered : system.Numbered) (uuid : Uuid) (peer : PeerInfo)
    (peers : List PeerInfo) (dialling : (system.parties uuid).stage = .dialling peer peers) :
    (system.dial uuid peer peers).Linked := by
  intro near far here there okay pool found
  have slots : ((system.dial uuid peer peers).parties far).slots near = (system.parties far).slots near := by
    rw [parties_dial]
    rfl
  rw [slots, helloes_dial]
  rw [parties_dial] at found okay ⊢
  dsimp only at found ⊢
  by_cases same : near = uuid
  · subst same
    have link := linked near far here there (by simp [Party.failing, dialling]) pool found
    simp only [dialling, Stage.awaitedAt] at link
    by_cases target : far = peer.peerUuid
    · subst target
      have length : (system.pool near peer.peerUuid).length = pool.length := by
        rw [System.pool, found, Option.getD_some]
      simp only [if_true, and_self, Stage.awaitedAt, length]
      exact link.dial fun member => lt_irrefl _ (numbered.acked near _ member)
    · simpa [target, Stage.awaitedAt, eq_comm] using link
  · simp only [same, if_false, and_false] at okay ⊢
    exact linked near far here there okay pool found

theorem parties_accept (system : System) (uuid other : Uuid) {hello : Hello} {backlog : List Hello}
    (idle : (system.parties uuid).holding = none)
    (next : (system.parties uuid).backlog = hello :: backlog) :
    (system.accept uuid).parties other =
      { system.parties other with
        holding := if other = uuid then some hello else (system.parties other).holding
        backlog := if other = uuid then backlog else (system.parties other).backlog
        acks :=
          if other = hello.peerUuid then (system.parties other).acks ++ [hello.connection]
          else (system.parties other).acks } := by
  simp only [System.accept, idle, next, parties_put]
  by_cases sender : other = hello.peerUuid <;> by_cases same : other = uuid
  · subst same
    simp [← sender]
  · rw [← sender]
    simp [same]
  · subst same
    simp [sender]
  · simp [sender, same]

theorem helloes_cons {party : Party} {hello : Hello} {backlog : List Hello}
    (next : party.backlog = hello :: backlog) (uuid : Uuid) :
    party.helloes uuid =
      if hello.peerUuid = uuid then
        hello :: backlog.filter fun hello => hello.peerUuid = uuid
      else backlog.filter fun hello => hello.peerUuid = uuid := by
  unfold Party.helloes
  rw [next, List.filter_cons]
  by_cases same : hello.peerUuid = uuid <;> simp [same]

section Listening

variable {uuid : Uuid} {hello : Hello} {backlog : List Hello}
  (next : (system.parties uuid).backlog = hello :: backlog)

include next

theorem helloes_rest (near far : Uuid) (party : Party)
    (rest : party.backlog = if far = uuid then backlog else (system.parties far).backlog) :
    (system.parties far).helloes near =
      if far = uuid ∧ near = hello.peerUuid then hello :: party.helloes near else party.helloes near := by
  by_cases same : far = uuid
  · subst same
    rw [helloes_cons next, Party.helloes, rest, if_pos rfl]
    by_cases sender : near = hello.peerUuid
    · simp [sender]
    · simp [sender, Ne.symm sender]
  · simp only [same, if_false, false_and] at rest ⊢
    rw [Party.helloes, Party.helloes, rest]

theorem Numbered.shorten (numbered : system.Numbered) {after : System}
    (backlogs : ∀ far, (after.parties far).backlog =
      if far = uuid then backlog else (system.parties far).backlog)
    (opened : ∀ near, (after.parties near).opened = (system.parties near).opened)
    (stages : ∀ near, (after.parties near).stage = (system.parties near).stage)
    (acks : ∀ near, ∀ connection ∈ (after.parties near).acks,
      connection ∈ (system.parties near).acks ∨ near = hello.peerUuid ∧ connection = hello.connection) :
    after.Numbered := by
  have helloes (near far : Uuid) := helloes_rest next near far _ (backlogs far)
  have subset (near far : Uuid) (other : Hello) (member : other ∈ (after.parties far).helloes near) :
      other ∈ (system.parties far).helloes near := by
    rw [helloes]
    split
    · exact List.mem_cons_of_mem _ member
    · exact member
  constructor
  · intro near far
    have sorted := numbered.sorted near far
    rw [helloes] at sorted
    split at sorted
    · exact (List.pairwise_cons.mp sorted).2
    · exact sorted
  · intro near far other member
    rw [opened]
    exact numbered.opened near far other (subset near far other member)
  · intro near connection member
    rw [opened]
    rcases acks near connection member with old | ⟨rfl, rfl⟩
    · exact numbered.acked near connection old
    · refine numbered.opened hello.peerUuid uuid hello ?_
      rw [helloes, if_pos ⟨rfl, rfl⟩]
      exact List.mem_cons_self ..
  · intro near far connection now
    rw [stages] at now
    obtain ⟨bound, only⟩ := numbered.awaited near far connection now
    rw [opened]
    exact ⟨bound, fun another other member => only another other (subset near another other member)⟩

theorem Numbered.accept (numbered : system.Numbered) (idle : (system.parties uuid).holding = none) :
    (system.accept uuid).Numbered := by
  refine numbered.shorten next (fun far => ?_) (fun near => ?_) (fun near => ?_) fun near connection => ?_ <;>
    rw [parties_accept system uuid _ idle next]
  dsimp only
  split
  · next sender =>
    rw [List.mem_append, List.mem_singleton]
    exact Or.imp_right fun same => ⟨sender, same⟩
  · exact .inl

theorem slots_accept (idle : (system.parties uuid).holding = none) (near far : Uuid) :
    ((system.accept uuid).parties far).slots near =
      if far = uuid ∧ near = hello.peerUuid then
        some (installSlot (((system.parties far).slots near).getD []) hello)
      else (system.parties far).slots near := by
  rw [parties_accept system uuid far idle next]
  by_cases same : far = uuid
  · subst same
    simp only [Party.slots, Party.settled, if_true, true_and, idle, installRx, Table.lookup_insert_iff]
    split
    · next sender => rw [sender]
    · rfl
  · simp only [same, if_false, false_and]
    rfl

theorem Linked.accept (linked : system.Linked) (numbered : system.Numbered)
    (idle : (system.parties uuid).holding = none) : (system.accept uuid).Linked := by
  intro near far here there okay pool found
  have accepted (other : Uuid) := parties_accept system uuid other idle next
  have helloes := helloes_rest next near far ((system.accept uuid).parties far) (by rw [accepted])
  have plans : (system.accept uuid).plans = system.plans := by
    simp only [System.accept, idle, next]
    rfl
  rw [plans] at here there
  rw [slots_accept next idle]
  rw [accepted near] at found okay ⊢
  have link := linked near far here there okay pool found
  rw [helloes] at link
  by_cases sender : near = hello.peerUuid
  · by_cases same : far = uuid
    · have sorted := numbered.sorted near far
      rw [helloes] at sorted
      simp only [same, sender, and_self, if_true] at link sorted ⊢
      exact link.accept sorted
    · -- The acknowledgement is for a connection that is not awaited from this peer.
      simp only [same, sender, false_and, if_false, if_true] at link ⊢
      refine link.congr_acks fun connection now => ?_
      rw [List.mem_append, List.mem_singleton, or_iff_left]
      rintro rfl
      obtain ⟨_, only⟩ := numbered.awaited hello.peerUuid far hello.connection now
      refine same (only uuid hello ?_ rfl).symm
      rw [helloes_cons next, if_pos rfl]
      exact List.mem_cons_self ..
  · simp only [sender, and_false, if_false] at link ⊢
    exact link

theorem Numbered.reject (numbered : system.Numbered) (idle : (system.parties uuid).holding = none) :
    (system.reject uuid).Numbered := by
  have rejected (other : Uuid) : (system.reject uuid).parties other =
      if other = uuid then { system.parties uuid with backlog } else system.parties other := by
    simp only [System.reject, idle, next, parties_put]
  refine numbered.shorten next (fun far => ?_) (fun near => ?_) (fun near => ?_) fun near connection => ?_ <;>
    rw [rejected] <;> split
  · rfl
  · rfl
  · next same => rw [same]
  · rfl
  · next same => rw [same]
  · rfl
  · next same =>
    rw [same]
    exact .inl
  · exact .inl

theorem Linked.reject (linked : system.Linked) (idle : (system.parties uuid).holding = none) :
    (system.reject uuid).Linked := by
  have rejected (other : Uuid) : (system.reject uuid).parties other =
      { system.parties other with
        backlog := if other = uuid then backlog else (system.parties other).backlog } := by
    simp only [System.reject, idle, next, parties_put]
    split
    · next same => rw [same, idle]
    · rfl
  intro near far here there okay pool found
  have helloes := helloes_rest next near far ((system.reject uuid).parties far) (by rw [rejected])
  have plans : (system.reject uuid).plans = system.plans := by
    simp only [System.reject, idle, next]
    rfl
  have slots : ((system.reject uuid).parties far).slots near = (system.parties far).slots near := by
    rw [rejected]
    rfl
  rw [plans] at here there
  rw [slots]
  rw [rejected near] at found okay ⊢
  have link := linked near far here there okay pool found
  rw [helloes] at link
  split at link
  · exact link.drop
  · exact link

end Listening

end System

end Pccl.Client
