import Switchboard.Rpc.Inbound
import Switchboard.Proofs.Json.Legible

/-!
# `Switchboard.Proofs.Rpc.Request`: requests as values

Each field of a request sets its own part of it (`Request.frame_put`). All members of a request are
values but its parameters, which are kept as they are written, so that a request is a value exactly
if its parameters are (`Request.legible_iff`), and its id is then the one of this value
(`Request.id_eq`).
-/

set_option autoImplicit false

namespace Switchboard.Rpc

open Json

namespace Request

/-- Whether the parameters of a request can be read as the value of a member. -/
def legible (request : Request) : Bool :=
  request.params.all fun params =>
    (Reader.value (maxNesting - 1) (Document.ofText params.toList).root).isOk

/-- All fields of a request but the parameters are values. -/
theorem legible_field {field : Json.Field Request} (known : field ∈ shape.fields)
    (other : field.name ≠ "params") (room : Nat) : field.read.Legible room room := by
  simp only [shape, List.mem_cons, List.not_mem_nil, or_false] at known
  rcases known with rfl | rfl | rfl | rfl | rfl | rfl
  · exact Reader.legible_string.map _
  · exact Reader.legible_value.map _
  · exact Reader.legible_string.map _
  · exact absurd rfl other
  · exact (Reader.legible_string.map _).optional.map _
  · exact Reader.legible_string.optional.map _

/-- What stands for the parameters of a request. -/
theorem params_eq {room : Nat} {value : Outline} {params : Option String}
    (read : Reader.optional (.map String.ofList .sourceText) room value = .ok params) :
    value = .scalar .null ∧ params = none ∨
      ∃ text, value.text? = some text ∧ params = some (String.ofList text) := by
  unfold Reader.optional at read
  split at read
  case h_1 =>
    obtain rfl := Except.ok.inj read
    exact .inl ⟨rfl, rfl⟩
  case h_2 =>
    obtain ⟨_, inner, rfl⟩ := map_eq_ok read
    obtain ⟨text, innermost, rfl⟩ := map_eq_ok inner
    unfold Reader.sourceText at innermost
    split at innermost
    case h_1 written =>
      obtain rfl := Except.ok.inj innermost
      exact .inr ⟨_, written, rfl⟩
    case h_2 => cases innermost

/-- The member for the id sets the id to its value. -/
theorem id_of_gives {room : Nat} {member : List Char × Outline} {put : Request → Request}
    (gives : shape.Gives room member "id" put) :
    ∃ id, Reader.value room member.2 = .ok id ∧ ∀ request, (put request).id = id := by
  obtain ⟨field, found, read⟩ := gives.read
  obtain rfl := Option.some.inj found
  obtain ⟨id, accepted, rfl⟩ := map_eq_ok read
  exact ⟨id, accepted, fun _ => rfl⟩

/-- The member for the parameters sets them to its text. -/
theorem params_of_gives {room : Nat} {member : List Char × Outline} {put : Request → Request}
    (gives : shape.Gives room member "params" put) :
    ∃ params, Reader.optional (.map String.ofList .sourceText) room member.2 = .ok params ∧
      ∀ request, (put request).params = params := by
  obtain ⟨field, found, read⟩ := gives.read
  obtain rfl := Option.some.inj found
  obtain ⟨params, accepted, rfl⟩ := map_eq_ok read
  exact ⟨params, accepted, fun _ => rfl⟩

variable {line : List Char} {members : List (List Char × Outline)}
  {source? : Option (List Lexeme)} {done : Shape.Partial Request} {room : Nat}

/-- Two requests that differ at most in the part that the field of a name sets. -/
structure AgreeOutside (name : String) (request request' : Request) : Prop where
  version : name ≠ "jsonrpc" → request'.version = request.version
  id : name ≠ "id" → request'.id = request.id
  method : name ≠ "method" → request'.method = request.method
  params : name ≠ "params" → request'.params = request.params
  scope : name ≠ "scope" → request'.scope = request.scope
  origin : name ≠ "origin" → request'.origin = request.origin

/-- Each field sets its own part of a request. -/
theorem frame_put {field : Json.Field Request} (known : field ∈ shape.fields) {value : Outline}
    {put : Request → Request} (read : field.read room value = .ok put) (request : Request) :
    AgreeOutside field.name request (put request) := by
  simp only [shape, List.mem_cons, List.not_mem_nil, or_false] at known
  rcases known with rfl | rfl | rfl | rfl | rfl | rfl
  all_goals
    obtain ⟨_, -, rfl⟩ := map_eq_ok read
    constructor <;> simp [Field.must, Field.may]

/-- The members of a request are values exactly if its parameters are legible. -/
theorem legible_iff (document : Document.ofText line = ⟨.object members source?, true⟩)
    (read : members.foldlM (shape.readMember (maxNesting - 1)) ⟨shape.blank, []⟩ = .ok done) :
    done.record.legible ↔
      ∀ member ∈ members, ∃ value, Reader.value (maxNesting - 1) member.2 = .ok value := by
  have value (member) (listed : member ∈ members) (other : readInside member.1 ≠ .ok "params") :
      ∃ value, Reader.value (maxNesting - 1) member.2 = .ok value := by
    obtain ⟨name, put, gives, -⟩ := Shape.gives_of_foldlM rfl read listed
    obtain ⟨field, known, rfl, accepted⟩ := gives.listed
    exact legible_field known (fun same => other (same ▸ gives.named)) _ member.2 put accepted
  have keeps (field) (known : field ∈ shape.fields) (other : field.name ≠ "params") (value put)
      (read : field.read (maxNesting - 1) value = .ok put) (request) :
      (put request).params = request.params := (frame_put known read request).params other
  -- There may be no parameters, or null in their place, or a text that is read once more.
  rcases Shape.get_of_foldlM rfl keeps read with
    ⟨unnamed, none⟩ | ⟨member, listed, put, record, gives, set, only⟩
  · refine iff_of_true ?_ fun member listed => value member listed (unnamed member listed)
    rw [legible, none]
    rfl
  · obtain ⟨params, accepted, puts⟩ := params_of_gives gives
    have only (readable : ∃ value, Reader.value (maxNesting - 1) member.2 = .ok value) (other)
        (inside : other ∈ members) :
        ∃ value, Reader.value (maxNesting - 1) other.2 = .ok value := by
      by_cases named : readInside other.1 = .ok "params"
      · exact only other inside named ▸ readable
      · exact value other inside named
    rw [legible, set, puts]
    rcases params_eq accepted with ⟨null, rfl⟩ | ⟨text, written, rfl⟩
    · exact iff_of_true rfl (only ⟨.null, null ▸ rfl⟩)
    · obtain ⟨text', again, written', document, alike⟩ := Document.ofText_member document listed
      obtain rfl := Option.some.inj (written.symm.trans written')
      simp only [Option.all_some, String.toList_ofList, document, isOk_iff,
        Reader.value_eq_of_alike alike]
      exact ⟨only, fun all => all member listed⟩

/-- The id of a request is the value of its member of this name. -/
theorem id_eq (read : members.foldlM (shape.readMember room) ⟨shape.blank, []⟩ = .ok done)
    {entries : List (String × Value)}
    (same : toMembersWith Value.parse room members = .ok entries) :
    done.record.id = ((Value.ofMembers entries).member? "id").getD .null := by
  have keeps (field) (known : field ∈ shape.fields) (other : field.name ≠ "id") (value put)
      (read : field.read room value = .ok put) (request) : (put request).id = request.id :=
    (frame_put known read request).id other
  obtain ⟨given, made⟩ := entries_of_toMembersWith same
  rw [Value.ofMembers, Value.member?]
  -- Either no member has the name, or exactly one has, as names given twice are refused.
  rcases Shape.get_of_foldlM rfl keeps read with
    ⟨unnamed, kept⟩ | ⟨member, listed, put, record, gives, set, only⟩
  · have absent (entry) (inside : entry ∈ entries) : entry.1 ≠ "id" := by
      rintro same
      obtain ⟨member, listed, named, -⟩ := made entry inside
      exact unnamed member listed (same ▸ named)
    rw [Members.get?_ofList_eq_none absent, kept]
    rfl
  · obtain ⟨entry, inside, named, value⟩ := given member listed
    have called : entry.1 = "id" := Except.ok.inj (named.symm.trans gives.named)
    have found := Members.get?_ofList_of_forall inside called fun other inside' same => by
      obtain ⟨member', listed', named', value'⟩ := made other inside'
      obtain rfl := only member' listed' (same ▸ named')
      exact Except.ok.inj (value'.symm.trans value)
    obtain ⟨id, accepted, puts⟩ := id_of_gives gives
    rw [found, set, puts]
    exact Except.ok.inj (accepted.symm.trans value)

end Request

/-- Session parameters are legible. -/
theorem SessionParams.legible_of_read {request : Request} {params : String}
    {session : SessionParams} (given : request.params = some params)
    (read : SessionParams.read params = .ok session) : request.legible := by
  obtain ⟨read, -⟩ := Reader.run_eq_ok_iff.mp read
  have legible : ∀ field ∈ shape.fields, field.read.Legible 126 125 := by
    intro field known
    simp only [shape, List.mem_cons, List.not_mem_nil, or_false] at known
    rcases known with rfl | rfl
    · exact Reader.legible_string.optional.map _
    · exact Reader.legible_string.list.map _
  rw [Request.legible, given, Option.all_some, isOk_iff]
  exact Shape.legible_read rfl legible (by decide) _ _ read

end Switchboard.Rpc
