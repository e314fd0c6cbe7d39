import Mathlib

set_option autoImplicit false

namespace Pccl

abbrev Reader (Symbol A : Type) := StateT (List Symbol) Option A

namespace Reader

variable {Symbol A B : Type}

def Reads (reader : Reader Symbol A) (written : List Symbol) (value : A) : Prop :=
  ∀ rest, reader (written ++ rest) = some (value, rest)

def many (item : Reader Symbol A) : Nat → Reader Symbol (List A)
  | 0 => pure []
  | count + 1 => do
    let first ← item
    let rest ← many item count
    return first :: rest

theorem map_eq_some {reader : Reader Symbol A} {change : A → B} {data rest : List Symbol} {result : B}
    (read : (change <$> reader) data = some (result, rest)) :
    ∃ value, reader data = some (value, rest) ∧ change value = result := by
  change (reader data).bind (fun read => some (change read.1, read.2)) = _ at read
  obtain ⟨⟨value, left⟩, first, same⟩ := Option.bind_eq_some_iff.mp read
  cases same
  exact ⟨value, first, rfl⟩

namespace Reads

theorem pure (value : A) : Reads (Pure.pure value : Reader Symbol A) [] value := fun _ => rfl

theorem bind {reader : Reader Symbol A} {next : A → Reader Symbol B} {first second : List Symbol}
    {value : A} {result : B} (reads : Reads reader first value) (then_ : Reads (next value) second result) :
    Reads (reader >>= next) (first ++ second) result := by
  intro rest
  change (reader (first ++ second ++ rest)).bind (fun read => next read.1 read.2) = _
  rw [List.append_assoc, reads]
  exact then_ rest

theorem map {reader : Reader Symbol A} {written : List Symbol} {value : A} (change : A → B)
    (reads : Reads reader written value) : Reads (change <$> reader) written (change value) := by
  intro rest
  change (reader (written ++ rest)).bind (fun read => some (change read.1, read.2)) = _
  rw [reads]
  rfl

theorem cons {reader : Reader Symbol A} {next : A → Reader Symbol B} {piece : List Symbol}
    {pieces : List (List Symbol)} {value : A} {result : B} (reads : Reads reader piece value)
    (then_ : Reads (next value) pieces.flatten result) :
    Reads (reader >>= next) (piece :: pieces).flatten result :=
  reads.bind then_

theorem many {item : Reader Symbol A} {write : A → List Symbol} (values : List A)
    (each : ∀ value ∈ values, Reads item (write value) value) :
    Reads (Reader.many item values.length) (values.map write).flatten values := by
  induction values with
  | nil => exact pure []
  | cons value values ih =>
    have rest := ih fun other present => each other (List.mem_cons_of_mem _ present)
    refine (each value List.mem_cons_self).bind ?_
    rw [← List.append_nil (values.map write).flatten]
    exact rest.bind (pure _)

end Reads

def Local (reader : Reader Symbol A) : Prop :=
  ∀ data value rest, reader data = some (value, rest) →
    ∃ taken, data = taken ++ rest ∧ Reads reader taken value

namespace Local

theorem pure (value : A) : Local (Pure.pure value : Reader Symbol A) := by
  rintro data value rest ⟨⟩
  exact ⟨[], rfl, Reads.pure value⟩

theorem bind {reader : Reader Symbol A} {next : A → Reader Symbol B} (first : Local reader)
    (second : ∀ value, Local (next value)) : Local (reader >>= next) := by
  intro data result rest read
  change (reader data).bind (fun read => next read.1 read.2) = _ at read
  obtain ⟨⟨value, middle⟩, one, two⟩ := Option.bind_eq_some_iff.mp read
  obtain ⟨taken, rfl, reads⟩ := first _ _ _ one
  obtain ⟨more, rfl, further⟩ := second value _ _ _ two
  exact ⟨taken ++ more, (List.append_assoc _ _ _).symm, reads.bind further⟩

theorem map {reader : Reader Symbol A} (change : A → B) (first : Local reader) :
    Local (change <$> reader) := by
  intro data result rest read
  obtain ⟨value, one, rfl⟩ := map_eq_some read
  obtain ⟨taken, same, reads⟩ := first _ _ _ one
  exact ⟨taken, same, reads.map change⟩

theorem many {item : Reader Symbol A} (each : Local item) (count : Nat) :
    Local (Reader.many item count) := by
  induction count with
  | zero => exact pure []
  | succ count ih => exact each.bind fun _ => ih.bind fun _ => pure _

theorem succeeds_iff {reader : Reader Symbol A} (local_ : Local reader) (data : List Symbol) :
    (∃ value rest, reader data = some (value, rest)) ↔
      ∃ taken, taken <+: data ∧ ∃ value, reader taken = some (value, []) := by
  constructor
  · rintro ⟨value, rest, read⟩
    obtain ⟨taken, rfl, reads⟩ := local_ _ _ _ read
    have whole := reads []
    rw [List.append_nil] at whole
    exact ⟨taken, List.prefix_append _ _, value, whole⟩
  · rintro ⟨taken, ⟨rest, rfl⟩, value, read⟩
    obtain ⟨same, split, reads⟩ := local_ _ _ _ read
    rw [List.append_nil] at split
    subst split
    exact ⟨value, rest, reads rest⟩

end Local

end Reader

end Pccl
