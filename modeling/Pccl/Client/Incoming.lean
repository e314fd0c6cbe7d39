import Pccl.Client.Links

set_option autoImplicit false

namespace Pccl.Client

open Packet Connections

def Party.Settled (party : Party) : Prop :=
  party.stage.working = false ∧ party.failed = [] ∧
    ∀ unchanged peers, party.inbox ≠ some (.info unchanged peers)

def Party.Approved (party : Party) : Prop :=
  party.left = false ∧ (party.stage = .confirmed ∨ party.inbox = some (.established true))

namespace System

structure Invariant (poolSize : Uuid → Nat) (system : System) : Prop where
  sound : ∀ uuid, (system.parties uuid).Sound (poolSize uuid) (system.plans uuid)
  numbered : system.Numbered
  linked : system.Linked
  symmetric : ∀ uuid ∈ system.participants, ∀ other, lists (system.plans uuid) other = true →
    other ∈ system.participants ∧ lists (system.plans other) uuid = true
  reported : ∀ uuid, system.reports uuid = some true → (system.parties uuid).Settled
  approved : ∀ uuid, (system.parties uuid).Approved → uuid ∈ system.participants ∧
    ∀ other ∈ system.participants, system.reports other = some true

variable {poolSize : Uuid → Nat} {system : System}

theorem Invariant.initial : Invariant poolSize {} := by
  refine ⟨fun uuid => ?_, ?_, ?_, nofun, nofun, fun uuid approved => ?_⟩
  · refine ⟨nofun, ?_, nofun, nofun, ?_, ?_, nofun⟩ <;> simp [lists]
  · refine ⟨?_, ?_, ?_, ?_⟩ <;> simp [Party.helloes, Stage.awaitedAt]
  · intro uuid other listed
    simp [lists] at listed
  · rcases approved.2 with stage | inbox
    · cases stage
    · cases inbox

theorem Invariant.put (invariant : system.Invariant poolSize) (uuid : Uuid) {party : Party}
    (sound : party.Sound (poolSize uuid) (system.plans uuid)) (numbered : (system.put uuid party).Numbered)
    (linked : (system.put uuid party).Linked)
    (settled : (system.parties uuid).Settled → party.Settled)
    (approved : party.Approved → (system.parties uuid).Approved) :
    (system.put uuid party).Invariant poolSize := by
  refine ⟨fun other => ?_, numbered, linked, invariant.symmetric, fun other said => ?_, fun other knows => ?_⟩
  · rw [parties_put]
    split
    · next same =>
      subst same
      exact sound
    · exact invariant.sound other
  · have before := invariant.reported other said
    rw [parties_put]
    split
    · next same =>
      subst same
      exact settled before
    · exact before
  · rw [parties_put] at knows
    split at knows
    · next same =>
      subst same
      exact invariant.approved other (approved knows)
    · exact invariant.approved other knows

theorem Invariant.report (invariant : system.Invariant poolSize) (uuid : Uuid) {party : Party}
    {failed : List Uuid}
    (sound : Party.Sound (poolSize uuid) (system.plans uuid) { party with stage := .reported, failed })
    (numbered : (system.put uuid { party with stage := .reported, failed }).Numbered)
    (linked : (system.put uuid { party with stage := .reported, failed }).Linked)
    (inbox : party.inbox = none) (unsettled : ¬ (system.parties uuid).Settled) :
    (system.report uuid party failed).Invariant poolSize := by
  have parties (other : Uuid) : (system.report uuid party failed).parties other =
      if other = uuid then { party with stage := .reported, failed } else system.parties other :=
    parties_put system uuid other _
  have reports (other : Uuid) : (system.report uuid party failed).reports other =
      if other = uuid then some failed.isEmpty else system.reports other :=
    Function.update_apply _ _ _ _
  refine ⟨fun other => ?_, ⟨numbered.sorted, numbered.opened, numbered.acked, numbered.awaited⟩, linked,
    invariant.symmetric, fun other said => ?_, fun other knows => ?_⟩
  · rw [parties]
    split
    · next same =>
      subst same
      exact sound
    · exact invariant.sound other
  · rw [reports] at said
    rw [parties]
    split at said
    · next same =>
      rw [if_pos same]
      refine ⟨rfl, ?_, fun _ _ told => ?_⟩
      · simpa using said
      · rw [inbox] at told
        cases told
    · next different =>
      rw [if_neg different]
      exact invariant.reported other said
  · rw [parties] at knows
    split at knows
    · -- A client that reports does not know the verdict.
      rcases knows.2 with stage | told
      · cases stage
      · dsimp only at told
        rw [inbox] at told
        cases told
    · obtain ⟨member, all⟩ := invariant.approved other knows
      refine ⟨member, fun another present => ?_⟩
      rw [reports, if_neg, all another present]
      rintro rfl
      exact unsettled (invariant.reported another (all another present))

theorem not_settled_of_working {party : Party} (working : party.stage.working = true) :
    ¬ party.Settled := by
  intro settled
  rw [settled.1] at working
  cases working

theorem Invariant.move (invariant : system.Invariant poolSize) (uuid : Uuid) {party : Party}
    (same : party.wire = (system.parties uuid).wire)
    (quiet : ∀ other, party.stage.awaitedAt other = none)
    (waits : ∀ other, lists (system.plans uuid) other = true → other ∉ party.failing →
      other ∉ (system.parties uuid).failing ∧ (system.parties uuid).stage.awaitedAt other = none) :
    (system.put uuid party).Numbered ∧ (system.put uuid party).Linked := by
  refine ⟨invariant.numbered.put_quiet uuid (Party.numbers_congr same) quiet,
    invariant.linked.move uuid same fun other listed fine => ?_⟩
  obtain ⟨old, none⟩ := waits other listed fine
  exact ⟨old, (quiet other).trans none.symm⟩

theorem Invariant.work (invariant : system.Invariant poolSize) (uuid : Uuid) {party : Party}
    (sound : party.Sound (poolSize uuid) (system.plans uuid))
    (numbered : (system.put uuid party).Numbered) (linked : (system.put uuid party).Linked)
    (before : (system.parties uuid).stage.working = true) (after : party.stage.working = true) :
    (system.put uuid party).Invariant poolSize := by
  refine invariant.put uuid sound numbered linked
    (fun settled => absurd settled (not_settled_of_working before)) fun approved => ?_
  rcases approved.2 with confirmed | told
  · rw [confirmed] at after
    cases after
  · rw [(sound.busy after).2] at told
    cases told

section Advancing

variable (invariant : system.Invariant poolSize) (uuid : Uuid) {answered : Bool}

include invariant

theorem Invariant.receive (stage : (system.parties uuid).stage = .voted) {unchanged : Bool}
    {allPeers : List PeerInfo} (inbox : (system.parties uuid).inbox = some (.info unchanged allPeers)) :
    (system.advance poolSize uuid answered).Invariant poolSize := by
  have sound := invariant.sound uuid
  obtain ⟨_, forgiven, heeded⟩ := sound.told unchanged allPeers inbox
  have unsettled : ¬ (system.parties uuid).Settled := fun settled => settled.2.2 _ _ inbox
  have quiet (other : Uuid) : (system.parties uuid).stage.awaitedAt other = none := by
    simp [stage, Stage.awaitedAt]
  cases unchanged with
  | true =>
    simp only [System.advance, stage, inbox]
    obtain ⟨numbered, linked⟩ := @Invariant.move _ _ invariant uuid
      { system.parties uuid with inbox := none, stage := .reported, failed := [] } rfl (fun _ => rfl)
      fun other _ _ => ⟨by simp [Party.failing, stage, forgiven rfl], quiet other⟩
    exact invariant.report uuid (sound.receive_unchanged inbox) numbered linked rfl unsettled
  | false =>
    simp only [System.advance, stage, inbox]
    obtain ⟨numbered, linked⟩ := @Invariant.move _ _ invariant uuid
      { system.parties uuid with inbox := none, listed := allPeers, stage := .connecting allPeers } rfl
      (fun _ => rfl) fun other listed _ => by
        refine ⟨fun failed => ?_, quiet other⟩
        simp only [Party.failing, stage] at failed
        rw [(heeded rfl).2 other failed] at listed
        cases listed
    refine invariant.put uuid (sound.receive_changed inbox) numbered linked
      (fun settled => absurd settled unsettled) fun approved => ?_
    rcases approved.2 with confirmed | told
    · cases confirmed
    · cases told

theorem Invariant.look {peers : List PeerInfo} (stage : (system.parties uuid).stage = .connecting peers) :
    (system.advance poolSize uuid answered).Invariant poolSize := by
  have sound := invariant.sound uuid
  have working : (system.parties uuid).stage.working = true := by simp [stage, Stage.working]
  have quiet (other : Uuid) : (system.parties uuid).stage.awaitedAt other = none := by
    simp [stage, Stage.awaitedAt]
  have failing : (system.parties uuid).failing = [] := by simp [Party.failing, stage]
  cases peers with
  | nil =>
    simp only [System.advance, stage]
    obtain ⟨numbered, linked⟩ := @Invariant.move _ _ invariant uuid
      { system.parties uuid with stage := .closingTx [] } rfl (fun _ => rfl)
      fun other _ _ => ⟨by simp [failing], quiet other⟩
    exact invariant.work uuid (sound.finish stage) numbered linked working rfl
  | cons peer peers =>
    simp only [System.advance, stage]
    split
    · next present =>
      obtain ⟨numbered, linked⟩ := @Invariant.move _ _ invariant uuid
        { system.parties uuid with stage := .connecting peers } rfl (fun _ => rfl)
        fun other _ _ => ⟨by simp [failing], quiet other⟩
      exact invariant.work uuid (sound.skip stage present) numbered linked working rfl
    · have none : ([] : List TxSocket).length ≤ poolSize uuid := Nat.zero_le _
      have opened := sound.dialling peer peers none working failing (by simp [stage, Stage.current])
        fun other later => by
          simp only [stage, Stage.remaining, lists, List.any_cons, Bool.or_eq_true,
            decide_eq_true_eq] at later
          exact later.imp_left Eq.symm
      refine invariant.work uuid opened ?_ ?_ working rfl
      · exact invariant.numbered.put_quiet uuid rfl fun _ => rfl
      · exact invariant.linked.setPool uuid peer.peerUuid [] (.dialling peer peers) failing
          (fun other _ => (quiet other).symm) fun _ _ => .empty _ _ _ _

theorem Invariant.fail {target : Uuid} (working : (system.parties uuid).stage.working = true)
    (current : (system.parties uuid).stage.current = some target)
    (failing : (system.parties uuid).failing = []) :
    (system.put uuid { system.parties uuid with stage := .closingTx [target] }).Invariant poolSize := by
  have quiet (other : Uuid) (different : other ≠ target) :
      (system.parties uuid).stage.awaitedAt other = none := by
    unfold Stage.awaitedAt
    cases stage : (system.parties uuid).stage with
    | awaiting peer connection peers =>
      rw [stage, Stage.current] at current
      exact if_neg fun same => different (same.symm.trans (Option.some.inj current))
    | _ => rfl
  obtain ⟨numbered, linked⟩ := @Invariant.move _ _ invariant uuid
    { system.parties uuid with stage := .closingTx [target] } rfl (fun _ => rfl)
    fun other _ fine => ⟨by simp [failing], quiet other (by simpa [Party.failing] using fine)⟩
  exact invariant.work uuid ((invariant.sound uuid).fail working current failing) numbered linked working rfl

theorem Invariant.dial {peer : PeerInfo} {peers : List PeerInfo}
    (stage : (system.parties uuid).stage = .dialling peer peers)
    (room : (system.pool uuid peer.peerUuid).length < poolSize uuid) :
    (system.dial uuid peer peers).Invariant poolSize := by
  have working : (system.parties uuid).stage.working = true := by simp [stage, Stage.working]
  have view (other : Uuid) : ((system.dial uuid peer peers).parties other).view =
      if other = uuid then
        Party.view
          { system.parties uuid with stage := .awaiting peer (system.parties uuid).opened peers }
      else (system.parties other).view := by
    rw [parties_dial]
    split
    · next same =>
      subst same
      rfl
    · rfl
  refine ⟨fun other => ?_, invariant.numbered.dial uuid peer peers,
    invariant.linked.dial invariant.numbered uuid peer peers stage, invariant.symmetric,
    fun other said => ?_, fun other knows => ?_⟩
  · have seen := view other
    split at seen
    · next same =>
      subst same
      exact ((invariant.sound other).dialled stage _ room).congr seen
    · exact (invariant.sound other).congr seen
  · have settled := invariant.reported other said
    have different : other ≠ uuid := by
      rintro rfl
      exact not_settled_of_working working settled
    rw [parties_dial]
    simpa only [Party.Settled, different, if_false] using settled
  · rw [parties_dial] at knows
    by_cases same : other = uuid
    · subst same
      obtain ⟨_, confirmed | told⟩ := knows
      · simp at confirmed
      · rw [((invariant.sound other).busy working).2] at told
        cases told
    · exact invariant.approved other (by simpa only [Party.Approved, same, if_false] using knows)

theorem Invariant.connect {peer : PeerInfo} {peers : List PeerInfo}
    (stage : (system.parties uuid).stage = .dialling peer peers) :
    (system.advance poolSize uuid answered).Invariant poolSize := by
  have sound := invariant.sound uuid
  have working : (system.parties uuid).stage.working = true := by simp [stage, Stage.working]
  have current : (system.parties uuid).stage.current = some peer.peerUuid := by simp [stage, Stage.current]
  have failing : (system.parties uuid).failing = [] := by simp [Party.failing, stage]
  simp only [System.advance, stage]
  split
  · next room =>
    split
    · exact invariant.dial uuid stage room
    · exact invariant.fail uuid working current failing
  · next full =>
    obtain ⟨tx, rx⟩ := registerPeer_pools (system.parties uuid).connections peer.p2pListenAddr peer.peerUuid
    split
    · next connections registered =>
      rw [registered] at tx rx
      dsimp only at tx rx
      obtain ⟨numbered, linked⟩ := @Invariant.move _ _ invariant uuid
        { system.parties uuid with connections, stage := .connecting peers }
        (by simp only [Party.wire, tx, rx]) (fun _ => rfl)
        fun other _ _ => ⟨by simp [failing], by simp [stage, Stage.awaitedAt]⟩
      exact invariant.work uuid (sound.registered stage full tx) numbered linked working rfl
    · exact invariant.fail uuid working current failing

theorem Invariant.acknowledge {peer : PeerInfo} {connection : Nat} {peers : List PeerInfo}
    (stage : (system.parties uuid).stage = .awaiting peer connection peers) :
    (system.advance poolSize uuid answered).Invariant poolSize := by
  have sound := invariant.sound uuid
  have working : (system.parties uuid).stage.working = true := by simp [stage, Stage.working]
  have current : (system.parties uuid).stage.current = some peer.peerUuid := by simp [stage, Stage.current]
  have failing : (system.parties uuid).failing = [] := by simp [Party.failing, stage]
  simp only [System.advance, stage]
  split
  · split
    · next answered =>
      obtain ⟨pool, found, _⟩ := sound.growing _ current
      have grown : system.pool uuid peer.peerUuid = pool := by rw [System.pool, found, Option.getD_some]
      have room := sound.room peer connection peers stage pool found
      rw [grown]
      have opened := @Party.Sound.dialling _ _ _ sound peer peers (pool ++ [⟨peer.p2pListenAddr, connection⟩])
        (by simpa using room) working failing (fun other now => Option.some.inj (now.symm.trans current))
        fun other later => .inr (by simpa [stage, Stage.remaining] using later)
      refine invariant.work uuid opened ?_ ?_ working rfl
      · exact invariant.numbered.put_quiet uuid rfl fun _ => rfl
      · refine invariant.linked.setPool uuid peer.peerUuid _ (.dialling peer peers) failing
          (fun other different => ?_) fun here there => ?_
        · simp [stage, Stage.awaitedAt, Ne.symm different]
        · have link := invariant.linked uuid peer.peerUuid here there (by simp [failing]) pool found
          simp only [stage, Stage.awaitedAt, if_true] at link
          exact link.acknowledged answered peer.p2pListenAddr
    · exact invariant
  · exact invariant.fail uuid working current failing

theorem Invariant.close {failed : List Uuid} (stage : (system.parties uuid).stage = .closingTx failed) :
    (system.advance poolSize uuid answered).Invariant poolSize := by
  simp only [System.advance, stage]
  refine invariant.work uuid ((invariant.sound uuid).closeTx stage) ?_ (invariant.linked.closeTx uuid stage)
    (by simp [stage, Stage.working]) rfl
  exact invariant.numbered.put_quiet uuid rfl fun _ => rfl

theorem Invariant.finish {failed : List Uuid} (stage : (system.parties uuid).stage = .closingRx failed) :
    (system.advance poolSize uuid answered).Invariant poolSize := by
  have sound := invariant.sound uuid
  have working : (system.parties uuid).stage.working = true := by simp [stage, Stage.working]
  obtain ⟨listed, inbox⟩ := sound.busy working
  simp only [System.advance, stage]
  refine invariant.report uuid (sound.conclude stage) ?_ (invariant.linked.closeRx uuid stage listed) inbox
    (not_settled_of_working working)
  exact invariant.numbered.put_quiet uuid rfl fun _ => rfl

theorem Invariant.rest (resting : (system.parties uuid).stage.working = false)
    (fresh : ∀ unchanged peers, (system.parties uuid).inbox ≠ some (.info unchanged peers))
    {inbox : Option Notice} (still : ∀ unchanged peers, inbox ≠ some (.info unchanged peers))
    {stage : Stage} (resting' : stage.working = false)
    (approved : Party.Approved { system.parties uuid with inbox, stage } →
      (system.parties uuid).Approved) :
    (system.put uuid { system.parties uuid with inbox, stage }).Invariant poolSize := by
  obtain ⟨numbered, linked⟩ := @Invariant.move _ _ invariant uuid
    { system.parties uuid with inbox, stage } rfl (Stage.awaitedAt_of_resting resting')
    fun other _ fine => by
      rw [Party.failing_of_resting resting'] at fine
      rw [Party.failing_of_resting resting]
      exact ⟨fine, Stage.awaitedAt_of_resting resting other⟩
  refine invariant.put uuid ((invariant.sound uuid).rest resting fresh inbox still stage resting') numbered
    linked (fun settled => ⟨resting', settled.2.1, still⟩) approved

theorem Invariant.verdict (stage : (system.parties uuid).stage = .reported) :
    (system.advance poolSize uuid answered).Invariant poolSize := by
  simp only [System.advance, stage]
  split
  · next success told =>
    refine invariant.rest uuid (by simp [stage, Stage.working]) (by simp [told])
      (fun _ _ news => by cases news) ?_ fun approved => ?_
    · cases success <;> rfl
    · obtain ⟨here, confirmed | later⟩ := approved
      · cases success with
        | true => exact ⟨here, .inr told⟩
        | false => cases confirmed
      · cases later
  · exact invariant

theorem Invariant.vote (stage : (system.parties uuid).stage = .confirmed) :
    (system.advance poolSize uuid answered).Invariant poolSize := by
  have sound := invariant.sound uuid
  have fresh (unchanged : Bool) (peers : List PeerInfo) :
      (system.parties uuid).inbox ≠ some (.info unchanged peers) := by
    intro told
    have voted := (sound.told unchanged peers told).1
    rw [stage] at voted
    cases voted
  simp only [System.advance, stage]
  refine invariant.rest uuid (by simp [stage, Stage.working]) fresh fresh rfl fun approved => ?_
  exact ⟨approved.1, .inl stage⟩

theorem Invariant.advance : (system.advance poolSize uuid answered).Invariant poolSize := by
  cases stage : (system.parties uuid).stage with
  | voted =>
    cases inbox : (system.parties uuid).inbox with
    | none => simpa only [System.advance, stage, inbox] using invariant
    | some notice =>
      cases notice with
      | established success => simpa only [System.advance, stage, inbox] using invariant
      | info unchanged allPeers => exact invariant.receive uuid stage inbox
  | connecting peers => exact invariant.look uuid stage
  | dialling peer peers => exact invariant.connect uuid stage
  | awaiting peer connection peers => exact invariant.acknowledge uuid stage
  | closingTx failed => exact invariant.close uuid stage
  | closingRx failed => exact invariant.finish uuid stage
  | reported => exact invariant.verdict uuid stage
  | confirmed => exact invariant.vote uuid stage

end Advancing

theorem Invariant.listen (invariant : system.Invariant poolSize) {after : System}
    (numbered : after.Numbered) (linked : after.Linked)
    (views : ∀ uuid, (after.parties uuid).view = (system.parties uuid).view)
    (lefts : ∀ uuid, (after.parties uuid).left = false → (system.parties uuid).left = false)
    (plans : after.plans = system.plans) (participants : after.participants = system.participants)
    (reports : after.reports = system.reports) : after.Invariant poolSize := by
  have fields (uuid : Uuid) := views uuid
  simp only [Party.view, Prod.mk.injEq] at fields
  refine ⟨fun uuid => ?_, numbered, linked, ?_, fun uuid said => ?_, fun uuid knows => ?_⟩
  · rw [plans]
    exact (invariant.sound uuid).congr (views uuid)
  · rw [plans, participants]
    exact invariant.symmetric
  · rw [reports] at said
    obtain ⟨resting, fine, fresh⟩ := invariant.reported uuid said
    rw [Party.Settled, (fields uuid).2.1, (fields uuid).2.2.1, (fields uuid).2.2.2.2]
    exact ⟨resting, fine, fresh⟩
  · rw [participants, reports]
    refine invariant.approved uuid ⟨lefts uuid knows.1, ?_⟩
    rw [← (fields uuid).2.1, ← (fields uuid).2.2.1]
    exact knows.2

theorem Invariant.accept (invariant : system.Invariant poolSize) (uuid : Uuid) :
    (system.accept uuid).Invariant poolSize := by
  cases idle : (system.parties uuid).holding with
  | some held => simpa only [System.accept, idle] using invariant
  | none =>
    cases next : (system.parties uuid).backlog with
    | nil => simpa only [System.accept, idle, next] using invariant
    | cons hello backlog =>
      have accepted (other : Uuid) := parties_accept system uuid other idle next
      have rest : (system.accept uuid).plans = system.plans ∧
          (system.accept uuid).participants = system.participants ∧
          (system.accept uuid).reports = system.reports := by
        simp only [System.accept, idle, next]
        exact ⟨rfl, rfl, rfl⟩
      refine invariant.listen (invariant.numbered.accept next idle)
        (invariant.linked.accept next invariant.numbered idle) (fun other => ?_) (fun other => ?_)
        rest.1 rest.2.1 rest.2.2 <;> rw [accepted]
      · rfl
      · exact id

theorem Invariant.put_quiet (invariant : system.Invariant poolSize) (uuid : Uuid) {party : Party}
    (numbered : (system.put uuid party).Numbered) (linked : (system.put uuid party).Linked)
    (view : party.view = (system.parties uuid).view)
    (left : party.left = false → (system.parties uuid).left = false) :
    (system.put uuid party).Invariant poolSize := by
  refine invariant.listen numbered linked (fun other => ?_) (fun other => ?_) rfl rfl rfl <;>
    rw [parties_put] <;> split
  · next same =>
    subst same
    exact view
  · rfl
  · next same =>
    subst same
    exact left
  · exact id

theorem Invariant.reject (invariant : system.Invariant poolSize) (uuid : Uuid) :
    (system.reject uuid).Invariant poolSize := by
  cases idle : (system.parties uuid).holding with
  | some held => simpa only [System.reject, idle] using invariant
  | none =>
    cases next : (system.parties uuid).backlog with
    | nil => simpa only [System.reject, idle, next] using invariant
    | cons hello backlog =>
      have numbered := invariant.numbered.reject next idle
      have linked := invariant.linked.reject next idle
      simp only [System.reject, idle, next] at numbered linked ⊢
      exact invariant.put_quiet uuid numbered linked rfl id

theorem Invariant.install (invariant : system.Invariant poolSize) (uuid : Uuid) :
    (system.install uuid).Invariant poolSize := by
  have linked := invariant.linked.install uuid
  cases holding : (system.parties uuid).holding with
  | none => simpa only [System.install, holding] using invariant
  | some hello =>
    simp only [System.install, holding] at linked ⊢
    exact invariant.put_quiet uuid (invariant.numbered.put uuid rfl fun _ _ => id) linked rfl id

theorem Invariant.leave (invariant : system.Invariant poolSize) (uuid : Uuid) :
    (system.put uuid { system.parties uuid with left := true }).Invariant poolSize :=
  invariant.put_quiet uuid (invariant.numbered.put uuid rfl fun _ _ => id)
    (invariant.linked.move uuid rfl fun _ _ fine => ⟨fine, rfl⟩) rfl nofun

theorem Invariant.launch (invariant : system.Invariant poolSize) (uuid : Uuid) :
    (system.launch uuid).Invariant poolSize := by
  unfold System.launch
  dsimp only
  split
  · exact ⟨invariant.sound, ⟨invariant.numbered.sorted, invariant.numbered.opened,
      invariant.numbered.acked, invariant.numbered.awaited⟩, invariant.linked, invariant.symmetric,
      invariant.reported, invariant.approved⟩
  · exact invariant

def send (system : System) (chosen : Uuid → Prop) [DecidablePred chosen] (notice : Uuid → Notice) :
    Uuid → Party :=
  fun uuid =>
    if chosen uuid then { system.parties uuid with inbox := some (notice uuid) } else system.parties uuid

section Sending

variable {chosen : Uuid → Prop} [DecidablePred chosen] {notice : Uuid → Notice} {after : System}
  (parties : after.parties = system.send chosen notice)

include parties

theorem wire_send (uuid : Uuid) : (after.parties uuid).wire = (system.parties uuid).wire := by
  rw [parties, System.send]
  split <;> rfl

theorem stage_send (uuid : Uuid) : (after.parties uuid).stage = (system.parties uuid).stage := by
  rw [parties, System.send]
  split <;> rfl

theorem failing_send (uuid : Uuid) : (after.parties uuid).failing = (system.parties uuid).failing := by
  rw [parties, System.send]
  split <;> rfl

theorem Numbered.send (numbered : system.Numbered) : after.Numbered := by
  refine numbered.congr (fun uuid => Party.numbers_congr (wire_send parties uuid))
    fun uuid other connection => ?_
  rw [stage_send parties]
  exact id

theorem Linked.send (linked : system.Linked)
    (plans : ∀ uuid other, lists (after.plans uuid) other = true → lists (after.plans other) uuid = true →
      other ∈ (system.parties uuid).connections.p2pConnectionsTx →
      lists (system.plans uuid) other = true ∧ lists (system.plans other) uuid = true) : after.Linked := by
  refine linked.congr (wire_send parties) fun uuid other here there fine present => ?_
  obtain ⟨listed, back⟩ := plans uuid other here there present
  rw [failing_send parties] at fine
  exact ⟨listed, back, fine, by rw [stage_send parties]⟩

end Sending

theorem Invariant.conclude (invariant : system.Invariant poolSize) :
    system.conclude.Invariant poolSize := by
  unfold System.conclude
  split
  · next all =>
    rw [List.all_eq_true] at all
    have waiting (uuid : Uuid) (sent : uuid ∈ system.participants ∧ (system.parties uuid).left = false) :
        (system.parties uuid).stage = .reported ∧ (system.parties uuid).inbox = none := by
      simpa [sent.2] using all uuid sent.1
    refine ⟨fun uuid => ?_, Numbered.send rfl invariant.numbered,
      Linked.send rfl invariant.linked fun _ _ here there _ => ⟨here, there⟩, invariant.symmetric,
      fun uuid said => ?_, fun uuid knows => ?_⟩
    · dsimp only
      split
      · next sent =>
        obtain ⟨stage, inbox⟩ := waiting uuid sent
        exact (invariant.sound uuid).rest (by simp [stage, Stage.working]) (by simp [inbox]) _
          (fun _ _ news => by cases news) _ (by simp [stage, Stage.working])
      · exact invariant.sound uuid
    · have settled := invariant.reported uuid said
      dsimp only
      split
      · exact ⟨settled.1, settled.2.1, fun _ _ news => by cases news⟩
      · exact settled
    · dsimp only at knows ⊢
      split at knows
      · next sent =>
        obtain ⟨_, confirmed | told⟩ := knows
        · dsimp only at confirmed
          rw [(waiting uuid sent).1] at confirmed
          cases confirmed
        · refine ⟨sent.1, fun other member => ?_⟩
          have success := Notice.established.inj (Option.some.inj told)
          simpa using (Bool.and_eq_true _ _).mp (List.all_eq_true.mp success other member) |>.2
      · exact invariant.approved uuid knows
  · exact invariant

/-- A packet after a failed attempt lists its peers without the one that has failed, and a peer for
which there still is a pool has listed the client until now. -/
def continues (system : System) (round : Round) (uuid : Uuid) : Bool :=
  ((system.parties uuid).failed.isEmpty ||
    (!samePeers (system.plans uuid) (round.plan uuid) &&
      (system.parties uuid).failed.all fun other => !lists (round.plan uuid) other)) &&
  (round.plan uuid).all fun peer =>
    peer.peerUuid ∉ (system.parties uuid).connections.p2pConnectionsTx ||
      lists (system.plans peer.peerUuid) uuid

theorem Invariant.start (invariant : system.Invariant poolSize) (round : Round)
    (continued : ∀ uuid ∈ round.participants, system.continues round uuid = true) :
    (system.start round).Invariant poolSize := by
  unfold System.start
  split
  · next guard =>
    simp only [Bool.and_eq_true, List.all_eq_true, Bool.or_eq_true, Bool.not_eq_true', ready,
      decide_eq_true_eq] at guard
    obtain ⟨olds, news⟩ := guard
    -- The peers of a plan take part themselves.
    have planned (uuid other : Uuid)
        (listed :
          lists (if uuid ∈ round.participants then round.plan uuid else system.plans uuid) other = true)
        (back :
          lists (if other ∈ round.participants then round.plan other else system.plans other) uuid = true)
        (present : other ∈ (system.parties uuid).connections.p2pConnectionsTx) :
        lists (system.plans uuid) other = true ∧ lists (system.plans other) uuid = true := by
      by_cases member : uuid ∈ round.participants
      · rw [if_pos member] at listed
        obtain ⟨_, stage, inbox⟩ := news uuid member
        have fresh : ¬ (system.parties uuid).renewed := by simp [Party.renewed, inbox]
        refine ⟨(invariant.sound uuid).tidy (by simp [stage, Stage.closed]) fresh other present, ?_⟩
        have remembered := ((Bool.and_eq_true _ _).mp (continued uuid member)).2
        obtain ⟨peer, found, rfl⟩ := (lists_iff _ _).mp listed
        simpa [present] using List.all_eq_true.mp remembered peer found
      · rw [if_neg member] at listed
        by_cases there : other ∈ round.participants
        · rw [if_pos there] at back
          exact absurd (round.symmetric other there uuid back).1 member
        · rw [if_neg there] at back
          exact ⟨listed, back⟩
    refine ⟨fun uuid => ?_, Numbered.send rfl invariant.numbered, Linked.send rfl invariant.linked planned,
      fun uuid member other listed => ?_, (fun _ said => by cases said), fun uuid knows => ?_⟩
    · dsimp only
      split
      · next member =>
        obtain ⟨_, stage, inbox⟩ := news uuid member
        refine (invariant.sound uuid).start stage inbox (round.distinct uuid member) ?_
        have heeds := ((Bool.and_eq_true _ _).mp (continued uuid member)).1
        simpa using heeds
      · exact invariant.sound uuid
    · dsimp only at member listed ⊢
      rw [if_pos member] at listed
      obtain ⟨there, back⟩ := round.symmetric uuid member other listed
      rw [if_pos there]
      exact ⟨there, back⟩
    · -- Nobody knows of a verdict any more.
      dsimp only at knows
      have voted : ¬ ((system.parties uuid).stage = .voted ∧ (system.parties uuid).inbox = none ∧
          (system.parties uuid).Approved) := by
        rintro ⟨stage, inbox, _, confirmed | told⟩
        · rw [stage] at confirmed
          cases confirmed
        · rw [inbox] at told
          cases told
      split at knows
      · next member =>
        obtain ⟨_, stage, _⟩ := news uuid member
        obtain ⟨_, confirmed | told⟩ := knows
        · dsimp only at confirmed
          rw [stage] at confirmed
          cases confirmed
        · dsimp only at told
          split at told <;> cases told
      · have member := (invariant.approved uuid knows).1
        obtain left | ⟨stage, inbox⟩ := olds uuid member
        · rw [knows.1] at left
          cases left
        · exact absurd ⟨stage, inbox, knows⟩ voted
  · exact invariant

/-- What the schedule has to respect: rounds go on from those before, and no operation is launched
between the acknowledgement and the installation of a socket. -/
def orderly (action : Action) (system : System) : Bool :=
  match action with
  | .start round => round.participants.all (system.continues round)
  | .launch uuid => (system.parties uuid).holding = none
  | _ => true

theorem Invariant.step (invariant : system.Invariant poolSize) (action : Action)
    (fine : orderly action system = true) : (System.step poolSize action system).Invariant poolSize := by
  cases action <;> simp only [System.step] <;> try split
  all_goals first | exact invariant | skip
  · next round => exact invariant.start round fun uuid member => List.all_eq_true.mp fine uuid member
  · exact invariant.conclude
  · exact invariant.advance _
  · exact invariant.launch _
  · exact invariant.accept _
  · exact invariant.reject _
  · exact invariant.install _
  · exact invariant.leave _

end System

theorem System.Invariant.agrees {poolSize : Uuid → Nat} {system : System}
    (invariant : system.Invariant poolSize) {uuid peer : Uuid} (approved : (system.parties uuid).Approved)
    (neighbour : lists (system.plans uuid) peer = true) (positive : 0 < poolSize peer)
    (idle : (system.parties uuid).holding = none) :
    ∃ pool, (system.parties peer).connections.p2pConnectionsTx.lookup uuid = some pool ∧
      pool.length = poolSize peer ∧
      (system.parties uuid).connections.p2pConnectionsRx.lookup peer = some (slotsOf pool) := by
  obtain ⟨member, all⟩ := invariant.approved uuid approved
  obtain ⟨present, listed⟩ := invariant.symmetric uuid member peer neighbour
  obtain ⟨resting, fine, fresh⟩ := invariant.reported peer (all peer present)
  have failing : (system.parties peer).failing = [] := (Party.failing_of_resting resting).trans fine
  have sound := invariant.sound peer
  have covered := sound.covered failing (not_exists.mpr (fresh false)) uuid listed
  rw [(Stage.at_rest resting).2.1] at covered
  obtain ⟨pool, found⟩ := Option.isSome_iff_exists.mp
    (AList.lookup_isSome.mpr (covered.resolve_left (by simp [lists])))
  have length := sound.complete uuid pool found listed (by simp [failing])
    (by simp [(Stage.at_rest resting).1])
  have link := invariant.linked peer uuid listed neighbour (by simp [failing]) pool found
  have full : pool ≠ [] := by
    rintro rfl
    rw [List.length_nil] at length
    omega
  obtain ⟨_, slots⟩ := link.joined (Stage.awaitedAt_of_resting resting uuid) full
  rw [Party.slots, Party.settled, idle] at slots
  exact ⟨pool, found, length, slots⟩

theorem launch_finds_connections (poolSize : Uuid → Nat) (positive : ∀ uuid, 0 < poolSize uuid)
    (actions : List Action) (uuid : Uuid)
    (orderly : Machine.Always (System.step poolSize) (fun action system => System.orderly action system)
      (actions ++ [.launch uuid]) {})
    (here : ((System.run poolSize actions).parties uuid).left = false)
    (confirmed : ((System.run poolSize actions).parties uuid).stage = .confirmed)
    (peer : Uuid) (neighbour : lists ((System.run poolSize actions).plans uuid) peer = true) :
    ∃ pool slots,
      ((System.run poolSize (actions ++ [.launch uuid])).parties peer).connections.p2pConnectionsTx.lookup
        uuid = some pool ∧
      ((System.run poolSize (actions ++ [.launch uuid])).copies uuid).lookup peer = some slots ∧
      pool.length = poolSize peer ∧ slots.length = pool.length ∧
      ∀ seqNr, ∃ socket, pool[seqNr % pool.length]? = some socket ∧
        slots[seqNr % slots.length]? = some (some socket.connection) := by
  obtain ⟨early, idle, _⟩ := Machine.always_append orderly
  have keeps (action : Action) (system : System) (invariant : system.Invariant poolSize)
      (fine : System.orderly action system = true) :
      (System.step poolSize action system).Invariant poolSize := invariant.step action fine
  have invariant : (System.run poolSize actions).Invariant poolSize :=
    Machine.run_preserves keeps actions {} .initial early
  have last : System.run poolSize (actions ++ [.launch uuid]) =
      System.step poolSize (.launch uuid) (System.run poolSize actions) := by
    rw [System.run, Machine.run_append]
    rfl
  obtain ⟨pool, found, length, slots⟩ := invariant.agrees ⟨here, .inl confirmed⟩ neighbour (positive peer)
    (of_decide_eq_true idle)
  have same : (slotsOf pool).length = pool.length := by simp [slotsOf]
  refine ⟨pool, slotsOf pool, ?_, ?_, length, same, fun seqNr => ?_⟩
  · rw [last]
    simpa [System.step, System.launch, here, confirmed] using found
  · rw [last]
    simpa [System.step, System.launch, here, confirmed] using slots
  · have within : seqNr % pool.length < pool.length := Nat.mod_lt _ (by rw [length]; exact positive peer)
    refine ⟨pool[seqNr % pool.length], List.getElem?_eq_getElem within, ?_⟩
    rw [same, slotsOf, List.getElem?_map, List.getElem?_eq_getElem within]
    rfl

namespace Sample

def round : Round where
  participants := [0, 1]
  plan uuid := if uuid = 0 then [peer 1] else [peer 0]
  distinct := by decide
  symmetric := by
    intro uuid member other listed
    simp only [List.mem_cons, List.not_mem_nil, or_false] at member
    rcases member with rfl | rfl <;> simp_all [lists, peer]

def connects (uuid : Uuid) (acknowledge : List Action) : List Action :=
  List.replicate 3 (.advance uuid true) ++ acknowledge ++ List.replicate 5 (.advance uuid true)

def confirms (acknowledge : List Action) : List Action :=
  [.start round] ++ connects 0 acknowledge ++ connects 1 [.accept 0, .install 0] ++
    [.conclude, .advance 0 true, .advance 1 true]

end Sample

open Sample

theorem launch_finds_connections_pair :
    ∃ pool slots,
      ((System.run (fun _ => 1) (confirms [.accept 1, .install 1] ++ [.launch 1])).parties
        0).connections.p2pConnectionsTx.lookup 1 = some pool ∧
      ((System.run (fun _ => 1) (confirms [.accept 1, .install 1] ++ [.launch 1])).copies
        1).lookup 0 = some slots ∧
      pool.length = 1 ∧ slots.length = pool.length ∧
      ∀ seqNr, ∃ socket, pool[seqNr % pool.length]? = some socket ∧
        slots[seqNr % slots.length]? = some (some socket.connection) :=
  launch_finds_connections (fun _ => 1) (by simp) _ 1 (by decide) (by decide) (by decide) 0 (by decide)

theorem launch_before_install :
    let before := System.run (fun _ => 1) (confirms [.accept 1])
    let after := System.run (fun _ => 1) (confirms [.accept 1] ++ [.launch 1])
    (before.parties 1).left = false ∧ (before.parties 1).stage = .confirmed ∧
      lists (before.plans 1) 0 = true ∧
      (after.parties 0).connections.p2pConnectionsTx.lookup 1 = some [⟨Master.Sample.address 1, 0⟩] ∧
      (after.copies 1).lookup 0 = none := by
  decide

end Pccl.Client
