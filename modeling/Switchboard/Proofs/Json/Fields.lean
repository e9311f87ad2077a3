import Mathlib.Data.List.Nodup
import Switchboard.Proofs.Json.Restored

/-!
# `Switchboard.Proofs.Json.Fields`: records written field by field

A record is written with a member for each field that has a value, in the order of its shape. Read
again, each field gets its value and no other (`Shape.exists_written`). What a record holds after it
was read from any text comes from a value of this text (`Shape.get_of_read`).
-/

set_option autoImplicit false

namespace Switchboard.Json

namespace Reader

variable {α : Type}

/-- Reads the value of a member that may be left out. -/
def ifGiven (reader : Reader (Option α)) (room : Nat) : Option Outline → Except Fault (Option α)
  | none => .ok none
  | some value => reader room value

/-- A value that can be read is read where it is given. -/
theorem ifGiven_map {reader : Reader (Option α)} {room : Nat} {value? : Option α}
    {outline : α → Outline}
    (accepted : ∀ value ∈ value?, reader room (outline value) = .ok (some value)) :
    reader.ifGiven room (value?.map outline) = .ok value? := by
  cases value? with
  | none => rfl
  | some value => exact accepted value rfl

end Reader

namespace Shape

variable {ρ α : Type} {shape : Shape ρ} {room : Nat}

/-! ### Records that are written -/

/-- The texts of the members for those fields that have a value, given the texts of the values. -/
def textsOf : List (Field ρ) → List (Option (List Char)) → List (List Char)
  | field :: fields, some text :: texts => memberText field.name text :: textsOf fields texts
  | _ :: fields, none :: texts => textsOf fields texts
  | _, _ => []

/-- The members for those fields that have a value. -/
def membersOf : List (Field ρ) → List (Option Outline) → List (List Char × Outline)
  | field :: fields, some value :: values =>
    (quoteInside field.name.toList, value) :: membersOf fields values
  | _ :: fields, none :: values => membersOf fields values
  | _, _ => []

/-- Reads the values of some fields into a record. -/
def readFields (room : Nat) (record : ρ) :
    List (Field ρ) → List (Option Outline) → Except Fault ρ
  | field :: fields, some value :: values => do
    let put ← field.read room value
    readFields room (put record) fields values
  | _ :: fields, none :: values => readFields room record fields values
  | _, _ => .ok record

variable {fields : List (Field ρ)} {values : List (Option Outline)}

/-- The text of each member stands for the member. -/
theorem written_membersOf {texts : List (Option (List Char))}
    (written : List.Forall₂ (Option.Rel Written) texts values) :
    List.Forall₂ WrittenMember (textsOf fields texts) (membersOf fields values) := by
  induction fields generalizing texts values with
  | nil => exact .nil
  | cons field fields ih =>
    cases written with
    | nil => exact .nil
    | cons first others =>
      cases first with
      | some first => exact .cons (.intro field.name first) (ih others)
      | none => exact ih others

/-- The first member for a field is read into this field. -/
theorem readMember_of_fresh {field : Field ρ} (known : shape.field? field.name = some field)
    {given : List String} (fresh : field.name ∉ given) (record : ρ) (value : Outline) :
    shape.readMember room ⟨record, given⟩ (quoteInside field.name.toList, value) =
      (field.read room value).map fun put => ⟨put record, field.name :: given⟩ := by
  rw [readMember, readInside_quoteInside]
  simp only [bind, Except.bind, known, List.contains_eq_mem, fresh]
  cases field.read room value <;> rfl

/-- A record is complete once its required fields are there. -/
theorem finish_eq_ok {done : Partial ρ}
    (complete : ∀ field ∈ shape.fields, field.required → field.name ∈ done.given) :
    shape.finish done = .ok done.record :=
  finish_eq_ok_iff.mpr ⟨complete, rfl⟩

/-- Once the members of a record are read into their fields, no required field is missing. -/
theorem finish_membersOf (known : ∀ field ∈ fields, shape.field? field.name = some field)
    (distinct : (fields.map Field.name).Nodup) {given : List String}
    (fresh : ∀ field ∈ fields, field.name ∉ given)
    (enough : ∀ field ∈ shape.fields, field.required → field.name ∈ given ∨
      ∃ value, (field, some value) ∈ fields.zip values) (record : ρ) :
    ((membersOf fields values).foldlM (shape.readMember room) ⟨record, given⟩ >>= shape.finish) =
      readFields room record fields values := by
  -- Fields that were given grow along the list, which is why `given` varies in the induction.
  induction fields generalizing values given record with
  | nil => exact finish_eq_ok (by simpa using enough)
  | cons field fields ih =>
    obtain ⟨known, others⟩ := List.forall_mem_cons.mp known
    obtain ⟨fresh, later⟩ := List.forall_mem_cons.mp fresh
    obtain ⟨once, distinct⟩ := List.nodup_cons.mp distinct
    cases values with
    | nil => exact finish_eq_ok (by simpa using enough)
    | cons value? values =>
      cases value? with
      | none =>
        refine ih others distinct later (fun required inside needed => ?_) record
        rcases enough required inside needed with before | ⟨value, listed⟩
        · exact .inl before
        · exact .inr ⟨value, by simpa using listed⟩
      | some value =>
        rw [membersOf, List.foldlM_cons, readMember_of_fresh known fresh, readFields]
        cases field.read room value with
        | error fault => rfl
        | ok put =>
          -- No later field has the name that was given just now, and it counts as given from here
          -- on.
          refine ih others distinct (fun other listed => ?_) (fun required inside needed => ?_) _
          · have differ : other.name ≠ field.name := by
              intro same
              exact once (same ▸ List.mem_map_of_mem listed)
            simpa [differ] using later other listed
          · rcases enough required inside needed with before | ⟨value, listed⟩
            · exact .inl (List.mem_cons_of_mem _ before)
            · rcases List.mem_cons.mp listed with same | listed
              · exact .inl (by simp [(Prod.mk.inj same).1])
              · exact .inr ⟨value, listed⟩

/-- A field is found under its name if the names are distinct. -/
theorem field?_of_mem (distinct : (shape.fields.map Field.name).Nodup) {field : Field ρ}
    (listed : field ∈ shape.fields) : shape.field? field.name = some field := by
  have named : (shape.field? field.name).isSome :=
    List.find?_isSome.mpr ⟨field, listed, beq_self_eq_true _⟩
  obtain ⟨other, found⟩ := Option.isSome_iff_exists.mp named
  have inside := List.mem_of_find?_eq_some found
  have same : other.name = field.name := by simpa using List.find?_some found
  rw [found, List.inj_on_of_nodup_map distinct inside listed same]

/-- A record is read from what is written for it, field by field. -/
theorem exists_written (distinct : (shape.fields.map Field.name).Nodup)
    {texts : List (Option (List Char))} (written : List.Forall₂ (Option.Rel Written) texts values)
    (enough : ∀ field ∈ shape.fields, field.required →
      ∃ value, (field, some value) ∈ shape.fields.zip values) :
    ∃ outline, Written (objectText (textsOf shape.fields texts)) outline ∧
      outline ≠ .scalar .null ∧ ∀ room, shape.read (room + 1) outline =
        readFields room shape.blank shape.fields values := by
  obtain ⟨source, object⟩ := written_object (written_membersOf written)
  refine ⟨_, object, by simp, fun room => ?_⟩
  rw [← finish_membersOf (fun _ => field?_of_mem distinct) distinct (fun _ _ => List.not_mem_nil)
    (fun field listed required => .inr (enough field listed required)) shape.blank]
  simp only [read, requireClosed, Option.isSome_some]
  rfl

/-- The texts of an optional value. -/
theorem written_map {value? : Option α} {text : α → List Char} {outline : α → Outline}
    (written : ∀ value ∈ value?, Written (text value) (outline value)) :
    Option.Rel Written (value?.map text) (value?.map outline) := by
  cases value? with
  | none => exact .none
  | some value => exact .some (written value rfl)

section
variable {β : Type} {name : String} {required : Bool} {reader : Reader β} {put : β → ρ → ρ}

/-- A value is put into its field. -/
theorem readFields_some (value : Outline) (record : ρ) :
    readFields room record (⟨name, required, fun room value => put <$> reader room value⟩ :: fields)
        (some value :: values) =
      reader room value >>= fun result => readFields room (put result record) fields values := by
  show ((put <$> reader room value) >>= fun put => readFields room (put record) fields values) = _
  cases reader room value <;> rfl

/-- A value that may be left out is put into its field as well if the record has none before. -/
theorem readFields_given {reader : Reader (Option β)} {put : Option β → ρ → ρ} {record : ρ}
    (absent : put none record = record) (value? : Option Outline) :
    readFields room record (⟨name, required, fun room value => put <$> reader room value⟩ :: fields)
        (value? :: values) =
      reader.ifGiven room value? >>= fun result =>
        readFields room (put result record) fields values := by
  cases value? with
  | none =>
    rw [Reader.ifGiven]
    exact congrArg (readFields room · fields values) absent.symm
  | some value => exact readFields_some value record

end

/-! ### Records that were read -/

/-- A part of the record that only one field sets is left as it was, or set from one of the
items. -/
theorem get_of_readItems {name : String} {get : ρ → α} {closed : Bool}
    (keeps : ∀ field ∈ fields, field.name ≠ name → ∀ value put,
      field.read room value = .ok put → ∀ record, get (put record) = get record)
    {items : List Outline} {record result : ρ} {index : Nat}
    (read : shape.readItems room closed record index fields items = .ok result) :
    get result = get record ∨ ∃ value ∈ items, ∃ field ∈ fields, field.name = name ∧
      ∃ put before, field.read room value = .ok put ∧ get result = get (put before) := by
  -- Items and fields are gone through side by side.
  induction fields generalizing items record index with
  | nil =>
    cases items with
    | nil =>
      unfold readItems at read
      split at read
      · exact .inl (congrArg get (Except.ok.inj read).symm)
      · cases read
    | cons => cases read
  | cons field fields ih =>
    obtain ⟨first, others⟩ := List.forall_mem_cons.mp keeps
    cases items with
    | nil =>
      unfold readItems at read
      split at read
      · cases read
      · split at read
        · cases read
        · rcases ih others read with kept | ⟨value, listed, -⟩
          · exact .inl kept
          · cases listed
    | cons item items =>
      obtain ⟨put, head, read⟩ := bind_eq_ok read
      rcases ih others read with kept | ⟨value, listed, other, known, set⟩
      · by_cases same : field.name = name
        · exact .inr ⟨item, List.mem_cons_self, field, List.mem_cons_self, same, put, record, head,
            kept⟩
        · exact .inl (kept.trans (first same item put head record))
      · exact .inr ⟨value, List.mem_cons_of_mem _ listed, other, List.mem_cons_of_mem _ known, set⟩

/-- A part of the record that only one field sets is blank, or read for this field from one of the
values in the object or the array. -/
theorem get_of_read (strict : shape.strict) {name : String} {get : ρ → α}
    (keeps : ∀ field ∈ shape.fields, field.name ≠ name → ∀ value put,
      field.read room value = .ok put → ∀ record, get (put record) = get record)
    {outline : Outline} {record : ρ} (read : shape.read (room + 1) outline = .ok record) :
    get record = get shape.blank ∨
      ∃ value ∈ outline.contents, ∃ field ∈ shape.fields, field.name = name ∧
        ∃ put before, field.read room value = .ok put ∧ get record = get (put before) := by
  match outline with
  | .object members source? =>
    obtain ⟨done, fold, -, rfl⟩ := read_object read
    rcases get_of_foldlM strict keeps fold with
      ⟨-, kept⟩ | ⟨member, listed, put, before, gives, set, -⟩
    · exact .inl kept
    · obtain ⟨field, known, called, accepted⟩ := gives.listed
      exact .inr ⟨member.2, List.mem_map_of_mem listed, field, known, called, put, before, accepted,
        set⟩
  | .array items source? => exact get_of_readItems keeps read
  | .scalar _ | .broken => cases read

end Shape

end Switchboard.Json
