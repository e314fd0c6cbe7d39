import Pccl.Master.Operations

set_option autoImplicit false

namespace Pccl.Master

open Packet Program

def Numbered (sent : List Sent) : Prop :=
  ∀ entry ∈ sent, ∀ tag number, entry.packet = .collectiveCommsCommence tag number →
    0 < entry.operations ∧ number = BitVec.ofNat 64 (entry.operations - 1)

theorem numbered_of_told {master next : MasterState} (numbered : Numbered master.sent)
    (same : next.told .commence = master.told .commence) : Numbered next.sent := by
  intro entry present tag number packet
  have told : entry ∈ next.told .commence :=
    List.mem_filter.mpr ⟨present, by rw [packet]; rfl⟩
  rw [same] at told
  exact numbered entry (List.mem_of_mem_filter told) tag number packet

def Numbers {A : Type} (program : MasterM A) : Prop :=
  Preserves (fun master => Numbered master.sent) (fun exit => Numbered exit.master.sent) program

theorem Touches.numbers {A : Type} {parts : Set Part} {program : MasterM A}
    (touches : Touches parts program) (apart : Part.told .commence ∉ parts) : Numbers program :=
  fun master numbered => (touches master).imp
    (fun _ _ within => numbered_of_told numbered (within _ apart))
    fun _ exit => numbered_of_told numbered (exit.1 _ apart)

theorem Numbered.send {sent : List Sent} (numbered : Numbered sent) {entry : Sent}
    (next : ∀ tag number, entry.packet = .collectiveCommsCommence tag number →
      0 < entry.operations ∧ number = BitVec.ofNat 64 (entry.operations - 1)) :
    Numbered (sent ++ [entry]) := by
  intro other present
  rcases List.mem_append.mp present with earlier | last
  · exact numbered other earlier
  · cases List.mem_singleton.mp last
    exact next

namespace Core

variable {core next : Core} {environment : Environment}

/-- The operation with this number has been announced to the accepted clients of one group, of which
there are some, and to nobody else. -/
structure Announces (core : Core) (number : Nat) (group : Group) (tag : Tag) : Prop where
  inhabited : core.Inhabited group
  all : core.All fun info => info.takesPart group → .commence number ∈ core.log info.clientUuid tag
  only : ∀ uuid label, .commence number ∈ core.log uuid label →
    label = tag ∧ core.Has uuid fun info => info.takesPart group

def Drawn (core : Core) : Prop :=
  ∀ uuid tag number, .commence number ∈ core.log uuid tag → number ≤ core.collective.sequenceNumber

def AnnouncedSince (count : Nat) (core : Core) : Prop :=
  ∀ number, count < number → number ≤ core.collective.sequenceNumber →
    ∃ group tag, core.Announces number group tag

theorem sequenceNumber_apply (action : Action)
    (other : ∀ group tag, action ≠ .commence group tag) :
    (core.apply environment action).collective.sequenceNumber = core.collective.sequenceNumber := by
  cases action with
  | commence group tag => exact absurd rfl (other group tag)
  | refuse | abort | finish =>
    simp only [apply]
    split <;> rfl
  | _ => rfl

theorem log_apply (action : Action) (uuid : Uuid) (tag : Tag) :
    core.log uuid tag ⊆ (core.apply environment action).log uuid tag := by
  have notified (core : Core) (meant : ClientInfo → Bool) (other : Tag) (signal : Signal) :
      core.log uuid tag ⊆ (core.notify meant other signal).log uuid tag := by
    rw [log_notify]
    exact List.subset_append_left _ _
  cases action with
  | refuse =>
    simp only [apply]
    split <;> exact List.Subset.refl _
  | commence group other =>
    exact notified (core.move (.commence group other)) (ClientInfo.takesPart group) other _
  | abort =>
    simp only [apply]
    split
    · exact List.Subset.refl _
    · exact notified _ _ _ _
  | finish group other =>
    have completed (told : Core) (heard : core.log uuid tag ⊆ told.log uuid tag) :
        core.log uuid tag ⊆ (((told.move (.finish group other)).setAbort group other false).notify
          (ClientInfo.takesPart group) other .complete).log uuid tag :=
      List.Subset.trans heard (notified ((told.move (.finish group other)).setAbort group other false) _ _ _)
    simp only [apply]
    split
    · exact completed core (List.Subset.refl _)
    · exact completed _ (notified core _ _ _)
  | _ => exact List.Subset.refl _

theorem commence_mem_notify {meant : ClientInfo → Bool} {label tag : Tag} {signal : Signal} {uuid : Uuid}
    {number : Nat} (heard : .commence number ∈ (core.notify meant label signal).log uuid tag) :
    .commence number ∈ core.log uuid tag ∨
      signal = .commence number ∧ tag = label ∧ (core.info uuid).any meant := by
  rw [log_notify] at heard
  rcases List.mem_append.mp heard with before | now
  · exact Or.inl before
  · split at now
    · next told => exact Or.inr ⟨(List.mem_singleton.mp now).symm, told⟩
    · cases now

theorem commence_mem_apply {action : Action} {uuid : Uuid} {tag : Tag} {number : Nat}
    (enabled : core.enabled action)
    (heard : .commence number ∈ (core.apply environment action).log uuid tag) :
    .commence number ∈ core.log uuid tag ∨
      number = core.collective.sequenceNumber + 1 ∧
        ∃ group, action = .commence group tag ∧ core.Has uuid fun info => info.takesPart group := by
  -- Only the packets of a commencement commence anything.
  have other {core : Core} {meant : ClientInfo → Bool} {label : Tag} {signal : Signal}
      (heard : .commence number ∈ (core.notify meant label signal).log uuid tag)
      (quiet : signal ≠ .commence number) : .commence number ∈ core.log uuid tag :=
    (commence_mem_notify heard).resolve_right fun told => quiet told.1
  cases action with
  | refuse =>
    simp only [apply] at heard
    split at heard <;> exact Or.inl heard
  | commence group label =>
    rw [(tells_commence enabled).log] at heard
    rcases List.mem_append.mp heard with before | now
    · exact Or.inl before
    · split at now
      · next told =>
        obtain ⟨rfl, member⟩ := told
        cases List.mem_singleton.mp now
        exact Or.inr ⟨rfl, group, rfl, (Option.any_eq_true _ _).mp member⟩
      · cases now
  | abort =>
    simp only [apply] at heard
    split at heard
    · exact Or.inl heard
    · exact Or.inl (other heard (by simp))
  | finish group label =>
    have before := other heard (by simp)
    split at before
    · exact Or.inl before
    · exact Or.inl (other before (by simp))
  | _ => exact Or.inl heard

theorem sequenceNumber_le_apply (action : Action) :
    core.collective.sequenceNumber ≤ (core.apply environment action).collective.sequenceNumber := by
  by_cases commences : ∃ group tag, action = .commence group tag
  · obtain ⟨group, tag, rfl⟩ := commences
    exact Nat.le_succ _
  · exact (sequenceNumber_apply action fun group tag same => commences ⟨group, tag, same⟩).ge

theorem Drawn.initial : Core.initial.Drawn := by
  intro uuid tag number heard
  cases heard

theorem Drawn.apply (drawn : core.Drawn) {action : Action} (enabled : core.enabled action) :
    (core.apply environment action).Drawn := by
  intro uuid tag number heard
  rcases commence_mem_apply enabled heard with before | ⟨rfl, group, rfl, _⟩
  · exact (drawn uuid tag number before).trans (sequenceNumber_le_apply action)
  · exact le_refl _

theorem Drawn.served {event : Event} (drawn : core.Drawn) (valid : core.Valid environment)
    (served : Served environment event core next) : next.Drawn := by
  rcases served with rfl | ⟨action, _, enabled, follows, _⟩
  · exact drawn
  · exact (follows.answers.keeps Drawn (fun _ _ _ _ enabled drawn => drawn.apply enabled)
      (valid.apply enabled) (drawn.apply enabled)).2

theorem Announces.apply {number : Nat} {group : Group} {tag : Tag} {action : Action}
    (announces : core.Announces number group tag) (calm : action.calm) (enabled : core.enabled action)
    (known : number ≤ core.collective.sequenceNumber) :
    (core.apply environment action).Announces number group tag := by
  refine ⟨?_, fun uuid info found part => ?_, fun uuid label heard => ?_⟩
  · obtain ⟨uuid, member⟩ := announces.inhabited
    exact ⟨uuid, takesPart_apply calm enabled member⟩
  · obtain ⟨before, present, moves⟩ := moved (Action.plain_of_calm calm) enabled found
    rw [moves.takesPart calm group] at part
    rw [moves.keeps.1]
    exact log_apply action _ tag (announces.all uuid before present part)
  · rcases commence_mem_apply enabled heard with before | ⟨rfl, _⟩
    · obtain ⟨same, member⟩ := announces.only uuid label before
      exact ⟨same, takesPart_apply calm enabled member⟩
    · omega

theorem announces_commence {group : Group} {tag : Tag} (valid : core.Valid environment)
    (drawn : core.Drawn) (enabled : core.enabled (.commence group tag)) :
    (core.apply environment (.commence group tag)).Announces (core.collective.sequenceNumber + 1)
      group tag := by
  refine ⟨?_, fun uuid info found part => ?_, fun uuid label heard => ?_⟩
  · obtain ⟨uuid, member⟩ := enabled.1
    exact ⟨uuid, takesPart_apply rfl enabled member⟩
  · obtain ⟨before, present, moves⟩ := moved rfl enabled found
    rw [moves.takesPart rfl group] at part
    rw [moves.keeps.1, valid.registry.named uuid before present, (tells_commence enabled).log, present]
    simp [part]
  · rcases commence_mem_apply enabled heard with before | ⟨_, other, same, member⟩
    · have bound := drawn uuid label _ before
      omega
    · cases same
      exact ⟨rfl, takesPart_apply rfl enabled member⟩

theorem AnnouncedSince.apply {count : Nat} {action : Action} (announced : core.AnnouncedSince count)
    (calm : action.calm) (valid : core.Valid environment) (drawn : core.Drawn)
    (enabled : core.enabled action) : (core.apply environment action).AnnouncedSince count := by
  intro number after known
  by_cases old : number ≤ core.collective.sequenceNumber
  · obtain ⟨group, tag, announces⟩ := announced number after old
    exact ⟨group, tag, announces.apply calm enabled old⟩
  · by_cases commences : ∃ group tag, action = .commence group tag
    · obtain ⟨group, tag, rfl⟩ := commences
      have latest : number = core.collective.sequenceNumber + 1 := by
        change number ≤ core.collective.sequenceNumber + 1 at known
        omega
      exact ⟨group, tag, latest ▸ announces_commence valid drawn enabled⟩
    · rw [sequenceNumber_apply action fun group tag same => commences ⟨group, tag, same⟩] at known
      exact absurd known old

theorem Starts.sequenceNumber {acceptNewPeers : Bool}
    (starts : core.Starts environment acceptNewPeers next) :
    next.collective.sequenceNumber = core.collective.sequenceNumber := by
  rcases starts with ⟨_, rfl⟩ | ⟨_, rfl⟩ <;> rfl

theorem Establishes.sequenceNumber (establishes : core.Establishes environment next) :
    next.collective.sequenceNumber = core.collective.sequenceNumber := by
  obtain ⟨middle, first, second⟩ := establishes
  exact second.sequenceNumber.trans first.sequenceNumber

theorem Closes.sequenceNumber (closes : core.Closes environment next) :
    next.collective.sequenceNumber = core.collective.sequenceNumber := by
  rcases closes with ⟨_, _, rfl⟩ | ⟨_, rfl⟩ <;> rfl

end Core

namespace Sample

def solo : List Event := [join 0 0, report 0 true]

def operation : List Event := [initiate 0 7, complete 0 7 false]

def settled : MasterState :=
  match run environment solo with
  | .ok master => master
  | .error _ => MasterState.initial

def between (sent : List Sent) (count : Nat) (aborts : Group → Tag → Bool) : MasterState :=
  { settled with
    sent
    collective := ⟨count, Function.update aborts 0 (Function.update (aborts 0) 7 false)⟩ }

def commenced (count : Nat) : Sent :=
  ⟨0, address 0, .collectiveCommsCommence 7 (BitVec.ofNat 64 count), count + 1⟩

end Sample

open Sample

end Pccl.Master
