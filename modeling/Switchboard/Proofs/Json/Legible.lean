import Switchboard.Proofs.Json.Embedding
import Switchboard.Proofs.Json.Grammar
import Switchboard.Proofs.Json.Record

/-!
# `Switchboard.Proofs.Json.Legible`: what is accepted as a record and also as a value

A record keeps more texts than there are values: its readers need not look at a number's size, at
nesting or at the escapes of a string. `Reader.Legible` says of a reader that all it accepts is the
text of a value as well. It holds of the plain readers and is kept by the ways to compose them, up
to strict records (`Shape.legible_read`).
-/

set_option autoImplicit false

namespace Switchboard.Json

variable {ρ α β : Type} {room room' : Nat}

namespace Reader

/-- A whole text is read if it holds one value of the kind and no more. -/
theorem run_eq_ok_iff {reader : Reader α} {text : List Char} {result : α} :
    reader.run text = .ok result ↔
      reader maxNesting (Document.ofText text).root = .ok result ∧
        (Document.ofText text).alone := by
  unfold run
  dsimp only
  split <;> rename_i read
  · split <;> simp_all
  · simp [read]

/-- A value does not depend on the lexemes that it was read from. -/
theorem value_eq_of_alike {again value : Outline} (alike : again.Alike value) (room : Nat) :
    Reader.value room again = Reader.value room value := by
  cases alike with
  | same => rfl
  | array items source source' => cases room <;> rfl
  | object members source source' => cases room <;> rfl

/-- Whether all that a reader accepts on one level is a value on another one. -/
def Legible (reader : Reader α) (room room' : Nat) : Prop :=
  ∀ outline result, reader room outline = .ok result →
    ∃ value, Reader.value room' outline = .ok value

/-- The values of a level are the values of this level. -/
theorem legible_value : Reader.value.Legible room room := fun _ value read => ⟨value, read⟩

/-- A string is a value on every level. -/
theorem legible_string : string.Legible room room' := by
  intro outline text read
  unfold string stringAs at read
  split at read
  case h_1 inside =>
    refine ⟨.string text, ?_⟩
    simp only [Reader.value, Outline.toValueWith, Scalar.toValue, read]
    rfl
  case h_2 => cases read

/-- What is made of a value has no say in whether it was one. -/
theorem Legible.map {reader : Reader α} (legible : reader.Legible room room') (f : α → β) :
    Legible (Reader.map f reader) room room' := by
  intro outline result read
  obtain ⟨result, read, -⟩ := map_eq_ok read
  exact legible outline result read

/-- The missing value is a value as well. -/
theorem Legible.optional {reader : Reader α} (legible : reader.Legible room room') :
    (Reader.optional reader).Legible room room' := by
  intro outline result read
  unfold Reader.optional at read
  split at read
  case h_1 => exact ⟨.null, rfl⟩
  case h_2 =>
    obtain ⟨result, read, -⟩ := map_eq_ok read
    exact legible outline result read

/-- An array is a value if its items are. -/
theorem value_array {items : List Outline} {source? : Option (List Lexeme)}
    (closed : source?.isSome)
    (readable : ∀ item ∈ items, ∃ value, Reader.value room item = .ok value) :
    ∃ value, Reader.value (room + 1) (.array items source?) = .ok value := by
  obtain ⟨values, read⟩ := exists_toValuesWith readable
  refine ⟨.array values, ?_⟩
  simp only [Reader.value, Outline.toValueWith, read, requireClosed, closed]
  rfl

/-- An object of the usual kind is a value if its members are. -/
theorem value_object {members : List (List Char × Outline)} {source? : Option (List Lexeme)}
    (closed : source?.isSome) (usual : isEmbedding members = false)
    (readable : ∀ member ∈ members, (∃ name, readInside member.1 = .ok name) ∧
      ∃ value, Reader.value room member.2 = .ok value) :
    ∃ values, toMembersWith Value.parse room members = .ok values ∧
      Reader.value (room + 1) (.object members source?) = .ok (Value.ofMembers values) := by
  obtain ⟨values, read⟩ := exists_toMembersWith readable
  refine ⟨values, read, ?_⟩
  simp only [Reader.value, Outline.toValueWith, usual, read, requireClosed, closed]
  rfl

/-- The members of an object that is a value have values. -/
theorem exists_of_value_object {members : List (List Char × Outline)}
    {source? : Option (List Lexeme)} (usual : isEmbedding members = false) {value : Value}
    (read : Reader.value (room + 1) (.object members source?) = .ok value) :
    ∃ entries, toMembersWith Value.parse room members = .ok entries := by
  simp only [Reader.value, Outline.toValueWith, usual] at read
  obtain ⟨_, read, -⟩ := bind_eq_ok read
  obtain ⟨entries, read, -⟩ := map_eq_ok read
  exact ⟨entries, read⟩

/-- A list is a value one level above its items. -/
theorem Legible.list {reader : Reader α} (legible : reader.Legible room room') :
    (Reader.list reader).Legible (room + 1) (room' + 1) := by
  intro outline results read
  unfold Reader.list at read
  split at read
  case h_1 items source? =>
    obtain ⟨values, items, read⟩ := bind_eq_ok read
    obtain ⟨_, closed, -⟩ := bind_eq_ok read
    refine value_array (isSome_of_requireClosed closed) fun item listed => ?_
    obtain ⟨result, read⟩ := exists_of_mapM items listed
    exact legible item result read
  case h_2 => cases read

end Reader

namespace Shape

variable {shape : Shape ρ}

/-- Members of a strict record embed no text, unless a field has the name for it. -/
theorem not_isEmbedding {members : List (List Char × Outline)}
    (given : ∀ member ∈ members, ∃ name put, shape.Gives room member name put)
    (usual : ∀ field ∈ shape.fields, field.name ≠ embeddedName) : isEmbedding members = false := by
  match members with
  | [] => rfl
  | (name, value) :: rest =>
    obtain ⟨called, put, gives⟩ := given _ List.mem_cons_self
    obtain ⟨field, known, rfl, -⟩ := gives.listed
    have named := gives.named
    unfold readInside at named
    split at named
    case h_1 text unquoted =>
      refine beq_eq_false_iff_ne.mpr fun embeds => usual field known ?_
      obtain rfl := Option.some.inj (unquoted.symm.trans embeds)
      exact (Except.ok.inj named).symm.trans String.ofList_toList
    case h_2 => cases named

/-- Items that are read as the fields of a record are values. -/
theorem legible_readItems {fields : List (Field ρ)}
    (legible : ∀ field ∈ fields, field.read.Legible room room') {closed : Bool} {record : ρ}
    {index : Nat} {items : List Outline} {result : ρ}
    (read : shape.readItems room closed record index fields items = .ok result) :
    closed ∧ ∀ item ∈ items, ∃ value, Reader.value room' item = .ok value := by
  induction fields generalizing record index items with
  | nil =>
    cases items with
    | nil =>
      -- Fields without items are left as they are, as long as none of them is required.
      unfold readItems at read
      split at read
      · exact ⟨‹_›, List.forall_mem_nil _⟩
      · cases read
    | cons => cases read
  | cons field fields ih =>
    obtain ⟨first, others⟩ := List.forall_mem_cons.mp legible
    cases items with
    | nil =>
      unfold readItems at read
      split at read
      · cases read
      · split at read
        · cases read
        · exact ih others read
    | cons item items =>
      obtain ⟨put, head, read⟩ := bind_eq_ok read
      obtain ⟨closed, readable⟩ := ih others read
      exact ⟨closed, List.forall_mem_cons.mpr ⟨first item put head, readable⟩⟩

/-- A strict record of fields that are values is one itself. -/
theorem legible_read (strict : shape.strict)
    (legible : ∀ field ∈ shape.fields, field.read.Legible room room')
    (usual : ∀ field ∈ shape.fields, field.name ≠ embeddedName) :
    shape.read.Legible (room + 1) (room' + 1) := by
  intro outline record read
  match outline with
  | .object members source? =>
    obtain ⟨done, fold, closed, -⟩ := read_object read
    have given (member) (listed : member ∈ members) :
        ∃ name put, shape.Gives room member name put := by
      obtain ⟨name, put, gives, -⟩ := gives_of_foldlM strict fold listed
      exact ⟨name, put, gives⟩
    have readable (member) (listed : member ∈ members) :
        (∃ name, readInside member.1 = .ok name) ∧
          ∃ value, Reader.value room' member.2 = .ok value := by
      obtain ⟨name, put, gives⟩ := given member listed
      obtain ⟨field, known, -, accepted⟩ := gives.listed
      exact ⟨⟨name, gives.named⟩, legible field known member.2 put accepted⟩
    obtain ⟨values, -, read⟩ :=
      Reader.value_object closed (not_isEmbedding given usual) readable
    exact ⟨_, read⟩
  | .array items source? =>
    obtain ⟨closed, readable⟩ := legible_readItems legible read
    exact Reader.value_array closed readable
  | .scalar _ | .broken => cases read

end Shape

end Switchboard.Json
