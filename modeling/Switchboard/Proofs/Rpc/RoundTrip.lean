import Switchboard.Proofs.Json.Fields
import Switchboard.Proofs.Rpc.Request
import Switchboard.Rpc.Response

/-!
# `Switchboard.Proofs.Rpc.RoundTrip`: messages read from their own wire form

A message is written as an object and read back field by field (`Request.read_encode`,
`Response.read_encode`). All fields come back as they were but for two things that JSON itself does
not know of. An object that starts with the name that embeds a text is taken for this text, and the
members of an object are written in order, whichever came first before. And where a value may be
absent, null is read as nothing.

So a request comes back as itself exactly if its id has no such object and leaves room for the
message around it, and no request ever comes back as another one
(`Request.read_encode_iff_unmarked`). A response comes back as itself exactly if none of its values
has such an object and neither its result nor the data of its error is null
(`Response.read_encode_iff_present`).
-/

set_option autoImplicit false

namespace Switchboard.Rpc

open Json

/-- The outline of a string. -/
def stringOutline (text : String) : Outline := .scalar (.string (quoteInside text.toList))

/-- A quoted text spells the outline of the text. -/
theorem written_string (text : String) : Written (quote text.toList) (stringOutline text) :=
  written_quote text.toList

/-- The text is read back from its outline. -/
theorem string_stringOutline (room : Nat) (text : String) :
    Reader.string room (stringOutline text) = .ok text :=
  readInside_quoteInside text

/-- The outline of a text is not null. -/
theorem stringOutline_ne_null (text : String) : stringOutline text ≠ .scalar .null := by
  simp [stringOutline]

namespace Request

variable {request : Request}

/-- Parameters that spell a value other than null. -/
structure SpelledBy (params : String) (outline : Outline) : Prop where
  written : Written params.toList outline
  text : outline.text? = some params.toList
  given : outline ≠ .scalar .null

/-- Parameters are read back from what spells them. -/
theorem SpelledBy.read {params : String} {outline : Outline} (spelled : SpelledBy params outline)
    (room : Nat) :
    Reader.optional (.map String.ofList .sourceText) room outline = .ok (some params) := by
  have source : Reader.sourceText room outline = .ok params.toList := by
    rw [Reader.sourceText, spelled.text]
  rw [Reader.optional_eq spelled.given, Reader.map, source]
  exact congrArg (Except.ok ∘ some) String.ofList_toList

/-- A request is written as an object, field by field. -/
theorem encode_eq (request : Request) :
    request.encode.toList = objectText (Shape.textsOf shape.fields
      [some (quote request.version.toList), some request.id.text,
       some (quote request.method.toList), request.params.map String.toList,
       request.scope.map fun scope => quote scope.text.toList,
       request.origin.map fun origin => quote origin.toList]) := by
  obtain ⟨version, id, method, params, scope, origin⟩ := request
  rw [encode, String.toList_ofList]
  cases params <;> cases scope <;> cases origin <;> rfl

/-- A request is read from its wire form as soon as its id is. -/
theorem read_encode {id params : Outline} (valued : Written request.id.text id)
    (spelled : ∀ text ∈ request.params, SpelledBy text params) :
    Request.read request.encode =
      (fun id => { request with id }) <$> Reader.value (maxNesting - 1) id := by
  have written : List.Forall₂ (Option.Rel Written)
      [some (quote request.version.toList), some request.id.text,
       some (quote request.method.toList), request.params.map String.toList,
       request.scope.map fun scope => quote scope.text.toList,
       request.origin.map fun origin => quote origin.toList]
      [some (stringOutline request.version), some id, some (stringOutline request.method),
       request.params.map fun _ => params, request.scope.map fun scope => stringOutline scope.text,
       request.origin.map stringOutline] :=
    .cons (.some (written_string _)) <| .cons (.some valued) <| .cons (.some (written_string _)) <|
    .cons (Shape.written_map fun text given => (spelled text given).written) <|
    .cons (Shape.written_map fun scope _ => written_string scope.text) <|
    .cons (Shape.written_map fun origin _ => written_string origin) .nil
  obtain ⟨outline, whole, -, reads⟩ :=
    shape.exists_written (by decide) written (by simp [shape, Field.must, Field.may])
  -- None of the optional fields is written as null, which would be read as no field at all.
  have params : Reader.ifGiven (.optional (.map String.ofList .sourceText)) 126
      (request.params.map fun _ => params) = .ok request.params :=
    Reader.ifGiven_map fun text given => (spelled text given).read 126
  have scope : Reader.ifGiven (.optional (.map Scope.mk .string)) 126
      (request.scope.map fun scope => stringOutline scope.text) = .ok request.scope :=
    Reader.ifGiven_map fun scope _ => by
      rw [Reader.optional_eq (stringOutline_ne_null _), Reader.map, string_stringOutline]
      rfl
  have origin : Reader.ifGiven (.optional .string) 126 (request.origin.map stringOutline) =
      .ok request.origin :=
    Reader.ifGiven_map fun origin _ => by
      rw [Reader.optional_eq (stringOutline_ne_null _), string_stringOutline]
      rfl
  rw [Request.read, encode_eq, whole.run_eq, show maxNesting = 126 + 1 from rfl, reads]
  simp only [shape, Field.must, Field.may, Shape.readFields_some, Shape.readFields_given,
    string_stringOutline, params, scope, origin]
  cases Reader.value 126 id <;> rfl

/-! ### Requests that were read -/

variable {text : String}

/-- The parameters of a request that was read spell a value wherever they are written. -/
theorem exists_spelledBy (read : Request.read text = .ok request) :
    ∃ outline, ∀ params ∈ request.params, SpelledBy params outline := by
  obtain ⟨read, alone⟩ := Reader.run_eq_ok_iff.mp read
  have keeps (field) (known : field ∈ shape.fields) (other : field.name ≠ "params") (value put)
      (read : field.read 126 value = .ok put) (request) : (put request).params = request.params :=
    (frame_put known read request).params other
  rcases Shape.get_of_read rfl keeps read with
    none | ⟨value, inside, field, known, named, put, before, puts, set⟩
  · refine ⟨.broken, fun params given => ?_⟩
    rw [none] at given
    cases given
  · have found := Shape.field?_of_mem (by decide) known
    rw [named] at found
    obtain rfl := Option.some.inj found
    obtain ⟨params?, accepted, rfl⟩ := map_eq_ok puts
    have document : Document.ofText text.toList = ⟨(Document.ofText text.toList).root, true⟩ := by
      rw [← alone]
    obtain ⟨spelling, spells, stretch⟩ := Document.exists_spelling document inside
    obtain ⟨again, written, source, alike⟩ := spells.written stretch
    refine ⟨again, fun params given => ?_⟩
    rw [set] at given
    -- Null would have been taken for no parameters.
    rcases params_eq accepted with ⟨-, rfl⟩ | ⟨params', source', rfl⟩
    · cases given
    · obtain rfl := Option.some.inj given
      obtain rfl := Option.some.inj (spells.text?.symm.trans source')
      refine ⟨?_, ?_, ?_⟩
      · rwa [String.toList_ofList]
      · rwa [String.toList_ofList]
      · rintro rfl
        cases alike
        cases accepted

/-- The id of a request that was read is as values are read. -/
theorem parsed_id (read : Request.read text = .ok request) : request.id.Parsed := by
  obtain ⟨read, -⟩ := Reader.run_eq_ok_iff.mp read
  have keeps (field) (known : field ∈ shape.fields) (other : field.name ≠ "id") (value put)
      (read : field.read 126 value = .ok put) (request) : (put request).id = request.id :=
    (frame_put known read request).id other
  rcases Shape.get_of_read rfl keeps read with
    none | ⟨value, inside, field, known, named, put, before, puts, set⟩
  · rw [none]
    rfl
  · have found := Shape.field?_of_mem (by decide) known
    rw [named] at found
    obtain rfl := Option.some.inj found
    obtain ⟨id, accepted, rfl⟩ := map_eq_ok puts
    rw [set]
    exact parsed_of_value ((Document.short_ofText text.toList).contents inside) accepted

/-- A request without doubles in its id is read back from its own wire form exactly if no object in
the id starts with the name that embeds a text and the id is not nested too deeply. No other request
is ever read from it. -/
theorem read_encode_iff_unmarked (read : Request.read text = .ok request)
    (exact : request.id.Exact) :
    (Request.read request.encode = .ok request ↔
      request.id.Unmarked ∧ request.id.depth < maxNesting) ∧
    ∀ again, Request.read request.encode = .ok again → again = request := by
  have parsed := parsed_id read
  obtain ⟨params, spelled⟩ := exists_spelledBy read
  obtain ⟨id, depicts⟩ := exists_depicts exact parsed.ordered
  rw [read_encode depicts.written spelled]
  constructor
  · rw [← Nat.le_sub_one_iff_lt (by decide), ← depicts.read_iff]
    constructor
    · intro same
      obtain ⟨value, accepted, same⟩ := map_eq_ok same
      rw [accepted, ← same]
    · intro accepted
      rw [accepted]
      rfl
  · intro again same
    obtain ⟨value, accepted, rfl⟩ := map_eq_ok same
    rw [depicts.only parsed _ _ accepted]

/-- A request as an array, with blanks in its parameters and with the names in its id out of
order. -/
def arrayLine : String :=
  "[\"2.0\", \x7b\"b\":[null], \"a\":\"\\u000a\"\x7d, \"m\", \x7b \"x\" : 1.50 \x7d, null, \"o\"]"

/-- The request that this line spells. -/
def arrayRequest : Request where
  id := .object [("a", .string "\n"), ("b", .array [.null])]
  method := "m"
  params := some "\x7b \"x\" : 1.50 \x7d"
  origin := some "o"

/-- A request that was sent as an array comes back the same. -/
theorem read_encode_arrayRequest :
    Request.read arrayLine = .ok arrayRequest ∧
      Request.read arrayRequest.encode = .ok arrayRequest := by
  have sent : Request.read arrayLine = .ok arrayRequest := by decide +kernel
  exact ⟨sent, (read_encode_iff_unmarked sent (by decide)).1.mpr (by decide)⟩

/-- A request with the name that embeds a text behind another one in its id. -/
def markedLine : String :=
  "\x7b\"jsonrpc\":\"2.0\",\"id\":\x7b\"z\":2,\"$serde_json::private::RawValue\":\"1\"\x7d," ++
    "\"method\":\"m\"\x7d"

/-- The request that this line spells, in which that name comes first. -/
def markedRequest : Request where
  id := .object [(embeddedName, .string "1"), ("z", .number (.ofNat 2))]
  method := "m"

/-- Putting the names of an id in order may bring the one that embeds a text to the front. -/
theorem not_forall_read_encode :
    ¬ ∀ text request, Request.read text = .ok request → request.id.Exact →
      Request.read request.encode = .ok request := by
  intro all
  have sent : Request.read markedLine = .ok markedRequest := by decide +kernel
  have refused : Request.read markedRequest.encode = .error .malformed := by decide +kernel
  rw [all markedLine markedRequest sent (by decide)] at refused
  cases refused

end Request

/-! ### Values that may be absent -/

section
variable {outline? : Option Outline} {value? : Option Value}

/-- The text of a value that may be absent spells its outline. -/
theorem rel_written (depict : Option.Rel Depicts outline? value?) :
    Option.Rel Written (value?.map Value.text) outline? := by
  cases depict with
  | none => exact .none
  | some depicts => exact .some depicts.written

/-- A value that may be absent has an outline. -/
theorem exists_rel_depicts (exact : ∀ value ∈ value?, value.Exact)
    (ordered : ∀ value ∈ value?, value.Ordered) :
    ∃ outline?, Option.Rel Depicts outline? value? := by
  cases value? with
  | none => exact ⟨_, .none⟩
  | some value =>
    obtain ⟨outline, depicts⟩ := exists_depicts (exact value rfl) (ordered value rfl)
    exact ⟨_, .some depicts⟩

/-- A value that may be absent comes back if it is unmarked and not null. -/
theorem ifGiven_eq_ok_iff (depict : Option.Rel Depicts outline? value?) {room : Nat}
    (shallow : ∀ value ∈ value?, value.depth ≤ room) :
    Reader.ifGiven (.optional .value) room outline? = .ok value? ↔
      (∀ value ∈ value?, value.Unmarked) ∧ value? ≠ some .null := by
  cases depict with
  | none => simp [Reader.ifGiven]
  | @some outline value depicts =>
    rw [Reader.ifGiven, depicts.optional]
    by_cases null : value = .null
    · simp [null]
    · have read := depicts.read_iff room
      rw [and_iff_left (shallow value rfl)] at read
      have whole : some <$> Reader.value room outline = .ok (some value) ↔
          Reader.value room outline = .ok value := by
        cases Reader.value room outline <;> simp
      simp [null, whole, read]

/-- An unmarked value that may be absent comes back, where null counts as absent. -/
theorem ifGiven_of_unmarked (depict : Option.Rel Depicts outline? value?) {room : Nat}
    (shallow : ∀ value ∈ value?, value.depth ≤ room) (unmarked : ∀ value ∈ value?, value.Unmarked) :
    Reader.ifGiven (.optional .value) room outline? = .ok (value?.filter (· != .null)) := by
  cases depict with
  | none => rfl
  | @some outline value depicts =>
    rw [Reader.ifGiven, depicts.optional, (depicts.read_iff room).mpr
      ⟨unmarked value rfl, shallow value rfl⟩]
    -- What is left of a value is the value itself, unless it is null.
    by_cases null : value = .null
    · simp [null, Option.filter]
    · simp [null, Option.filter]

end

namespace ErrorObject

variable {error : ErrorObject}

/-- An error is written as an object, field by field. -/
theorem text_eq (error : ErrorObject) :
    error.text = objectText (Shape.textsOf shape.fields
      [some (Number.integerText error.code.toInt), some (quote error.message.toList),
       error.data.map Value.text]) := by
  obtain ⟨code, message, data⟩ := error
  cases data <;> rfl

/-- An error is read from what is written for it as soon as its data is. -/
theorem exists_outline {data? : Option Outline} (depict : Option.Rel Depicts data? error.data) :
    ∃ outline, Written error.text outline ∧ outline ≠ .scalar .null ∧
      ∀ room, shape.read (room + 1) outline =
        (fun data => { error with data }) <$> Reader.ifGiven (.optional .value) room data? := by
  -- Codes are signed numbers, and what is written covers them.
  have inRange : leastInteger ≤ error.code.toInt ∧ error.code.toInt ≤ greatestInteger := by
    have low := error.code.le_toInt
    have high := error.code.toInt_lt
    unfold leastInteger greatestInteger
    omega
  have code := written_number (.integer error.code.toInt inRange)
  have written : List.Forall₂ (Option.Rel Written)
      [some (Number.integerText error.code.toInt), some (quote error.message.toList),
       error.data.map Value.text]
      [some (.scalar (.number (Number.integerText error.code.toInt))),
       some (stringOutline error.message), data?] :=
    .cons (.some code) <| .cons (.some (written_string _)) <| .cons (rel_written depict) .nil
  obtain ⟨outline, whole, given, reads⟩ :=
    shape.exists_written (by decide) written (by simp [shape, Field.must, Field.may])
  -- The code is read back as it is; the message is, as any text.
  have coded (room : Nat) : Reader.int64 room
      (.scalar (.number (Number.integerText error.code.toInt))) = .ok error.code := by
    have high : error.code.toInt ≤ Int64.maxValue.toInt := by
      have high := error.code.toInt_lt
      have greatest : Int64.maxValue.toInt = 9223372036854775807 := by decide
      omega
    simp only [Reader.int64, Number.ofWritten?_integerText inRange, if_pos high, Int64.ofInt_toInt]
  refine ⟨outline, error.text_eq ▸ whole, given, fun room => ?_⟩
  rw [reads]
  simp only [shape, Field.must, Field.may, Shape.readFields_some, Shape.readFields_given, coded,
    string_stringOutline]
  cases Reader.ifGiven (.optional .value) room data? <;> rfl

end ErrorObject

namespace Response

variable {response : Response}

/-- The values in a response: its id, its result and the data of its error. -/
def values (response : Response) : List Value :=
  response.id :: (response.result.toList ++ (response.error.bind ErrorObject.data).toList)

/-- The response in which null stands for nothing. -/
def withoutNulls (response : Response) : Response :=
  { response with
    result := response.result.filter (· != .null)
    error := response.error.map fun error => { error with data := error.data.filter (· != .null) } }

/-- A response is written as an object, field by field. -/
theorem encode_eq (response : Response) :
    response.encode.toList = objectText (Shape.textsOf shape.fields
      [some (quote response.version.toList), some response.id.text,
       response.result.map Value.text, response.error.map ErrorObject.text]) := by
  obtain ⟨version, id, result, error⟩ := response
  rw [encode, String.toList_ofList]
  cases result <;> cases error <;> rfl

/-- The values of a response without doubles, in order and not nested too deeply. -/
structure Plain (response : Response) : Prop where
  exact : ∀ value ∈ response.values, value.Exact
  ordered : ∀ value ∈ response.values, value.Ordered
  shallow : ∀ value ∈ response.values, value.depth ≤ 100

/-- The error of a response is written, and it is read back as its data is. -/
theorem exists_error {data? : Option Outline}
    (detailed : Option.Rel Depicts data? (response.error.bind ErrorObject.data))
    (shallow : ∀ value ∈ response.error.bind ErrorObject.data, value.depth ≤ 100) :
    ∃ error?, Option.Rel Written (response.error.map ErrorObject.text) error? ∧
      (Reader.ifGiven (.optional ErrorObject.shape.read) 126 error? = .ok response.error ↔
        (∀ value ∈ response.error.bind ErrorObject.data, value.Unmarked) ∧
          response.error.bind ErrorObject.data ≠ some .null) ∧
      ((∀ value ∈ response.error.bind ErrorObject.data, value.Unmarked) →
        Reader.ifGiven (.optional ErrorObject.shape.read) 126 error? =
          .ok response.withoutNulls.error) := by
  rw [withoutNulls]
  cases failed : response.error with
  | none => exact ⟨none, .none, by simp [Reader.ifGiven], fun _ => rfl⟩
  | some error =>
    rw [failed, Option.bind_some] at detailed shallow
    have room : ∀ value ∈ error.data, value.depth ≤ 125 := fun value given =>
      (shallow value given).trans (by decide)
    obtain ⟨outline, written, given, reads⟩ := ErrorObject.exists_outline detailed
    refine ⟨some outline, .some written, ?_, fun unmarked => ?_⟩
    · rw [Option.bind_some, ← ifGiven_eq_ok_iff detailed room, Reader.ifGiven,
        Reader.optional_eq given, reads]
      cases Reader.ifGiven (.optional .value) 125 data? with
      | error fault => simp
      | ok data =>
        -- Code and message are read as they were, so that the data decides.
        show Except.ok (some { error with data }) = .ok (some error) ↔ _
        exact ⟨fun same => congrArg (Except.ok ∘ ErrorObject.data)
          (Option.some.inj (Except.ok.inj same)), fun same => by rw [Except.ok.inj same]⟩
    · rw [Reader.ifGiven, Reader.optional_eq given, reads,
        ifGiven_of_unmarked detailed room unmarked]
      rfl

/-- A response is read from its wire form as its id, its result and its error are. -/
theorem read_encode {id : Outline} {result? error? : Option Outline}
    (identified : Written response.id.text id)
    (answered : Option.Rel Written (response.result.map Value.text) result?)
    (failed : Option.Rel Written (response.error.map ErrorObject.text) error?) :
    Response.read response.encode = (do
      let id ← Reader.value 126 id
      let result ← Reader.ifGiven (.optional .value) 126 result?
      let error ← Reader.ifGiven (.optional ErrorObject.shape.read) 126 error?
      .ok { response with id, result, error }) := by
  have written : List.Forall₂ (Option.Rel Written)
      [some (quote response.version.toList), some response.id.text,
       response.result.map Value.text, response.error.map ErrorObject.text]
      [some (stringOutline response.version), some id, result?, error?] :=
    .cons (.some (written_string _)) <| .cons (.some identified) <| .cons answered <|
    .cons failed .nil
  obtain ⟨outline, whole, -, reads⟩ :=
    shape.exists_written (by decide) written (by simp [shape, Field.must, Field.may])
  rw [Response.read, encode_eq, whole.run_eq, show maxNesting = 126 + 1 from rfl, reads]
  simp only [shape, Field.must, Field.may, Shape.readFields_some, Shape.readFields_given,
    string_stringOutline]
  -- Fields are read in the order of the shape, and the first that fails is the fault of the whole.
  cases Reader.value 126 id with
  | error fault => rfl
  | ok id =>
    cases Reader.ifGiven (.optional .value) 126 result? with
    | error fault => rfl
    | ok result => cases Reader.ifGiven (.optional ErrorObject.shape.read) 126 error? <;> rfl

/-- A response comes back as itself if and only if each of its parts does. -/
theorem parts_eq_ok_iff {id : Except Fault Value} {result : Except Fault (Option Value)}
    {error : Except Fault (Option ErrorObject)} :
    (do
      let id ← id
      let result ← result
      let error ← error
      .ok { response with id, result, error }) = .ok response ↔
      id = .ok response.id ∧ result = .ok response.result ∧ error = .ok response.error := by
  constructor
  · intro same
    obtain ⟨id', first, same⟩ := bind_eq_ok same
    obtain ⟨result', second, same⟩ := bind_eq_ok same
    obtain ⟨error', third, same⟩ := bind_eq_ok same
    rw [← Except.ok.inj same]
    exact ⟨first, second, third⟩
  · rintro ⟨rfl, rfl, rfl⟩
    rfl

/-- A response is read back from its own wire form exactly if no object in it starts with the name
that embeds a text and neither its result nor the data of its error is null. A null in one of these
places is read as nothing. -/
theorem read_encode_iff_present (plain : response.Plain) :
    (Response.read response.encode = .ok response ↔
      (∀ value ∈ response.values, value.Unmarked) ∧ response.result ≠ some .null ∧
        response.error.bind ErrorObject.data ≠ some .null) ∧
    ((∀ value ∈ response.values, value.Unmarked) →
      Response.read response.encode = .ok response.withoutNulls) := by
  have all {P : Value → Prop} : (∀ value ∈ response.values, P value) ↔ P response.id ∧
      (∀ value ∈ response.result, P value) ∧
        ∀ value ∈ response.error.bind ErrorObject.data, P value := by
    simp only [values, List.forall_mem_cons, List.forall_mem_append, Option.mem_toList,
      Option.mem_def]
  obtain ⟨idExact, resultExact, dataExact⟩ := all.mp plain.exact
  obtain ⟨idOrdered, resultOrdered, dataOrdered⟩ := all.mp plain.ordered
  obtain ⟨idShallow, resultShallow, dataShallow⟩ := all.mp plain.shallow
  obtain ⟨id, identified⟩ := exists_depicts idExact idOrdered
  obtain ⟨result?, answered⟩ := exists_rel_depicts resultExact resultOrdered
  obtain ⟨data?, detailed⟩ := exists_rel_depicts dataExact dataOrdered
  obtain ⟨error?, failed, readError, readErrorUnmarked⟩ := exists_error detailed dataShallow
  -- The message around a value takes one level, and the error around its data another one.
  have room : ∀ value ∈ response.result, value.depth ≤ 126 := fun value given =>
    (resultShallow value given).trans (by decide)
  have readId : Reader.value 126 id = .ok response.id ↔ response.id.Unmarked :=
    (identified.read_iff 126).trans (and_iff_left (by omega))
  have readResult := ifGiven_eq_ok_iff answered room
  rw [read_encode identified.written (rel_written answered) failed, all]
  constructor
  · rw [parts_eq_ok_iff, readId, readResult, readError]
    tauto
  · rintro ⟨id, result, data⟩
    rw [readId.mpr id, ifGiven_of_unmarked answered room result, readErrorUnmarked data]
    rfl

/-- Only a response whose whole answer is null is complete on one side of the wire and not on the
other. -/
theorem isComplete_withoutNulls (response : Response) :
    response.withoutNulls.isComplete = response.isComplete ↔
      ¬ (response.result = some .null ∧ response.error = none) := by
  obtain ⟨_, _, result, error⟩ := response
  cases error with
  | some error => simp [withoutNulls, isComplete]
  | none =>
    cases result with
    | none => simp [withoutNulls, isComplete]
    | some result =>
      by_cases null : result = .null
      · simp [withoutNulls, isComplete, Option.filter, null]
      · simp [withoutNulls, isComplete, Option.filter, null]

/-- The answer to a request that failed, with data and with characters that have to be escaped. -/
def failedAnswer : Response :=
  ((forRequest ⟨"2.0", .array [.null, .string "a/b"], "m", none, none, none⟩).setFailure
    (.invalidScope "\"")).setErrorData (.object [("at", .string "\n"), ("by", .null)])

/-- The answer to a request that failed comes back the same. -/
theorem read_encode_failedAnswer : Response.read failedAnswer.encode = .ok failedAnswer := by
  have plain : failedAnswer.Plain := ⟨by decide, by decide, by decide⟩
  exact (read_encode_iff_present plain).1.mpr ⟨by decide, by decide, by decide⟩

/-- The answer null to a request. -/
def nullAnswer : Response := (forRequest ⟨"2.0", .null, "m", none, none, none⟩).setResult .null

/-- A response that answers with null is complete, and what is read from it is not. -/
theorem not_forall_read_encode_response :
    ¬ ∀ response : Response, response.Plain →
      ∃ again, Response.read response.encode = .ok again ∧
        again.isComplete = response.isComplete := by
  intro all
  have plain : nullAnswer.Plain := ⟨by decide, by decide, by decide⟩
  have lost : Response.read nullAnswer.encode = .ok { nullAnswer with result := none } := by
    decide +kernel
  obtain ⟨again, read, same⟩ := all nullAnswer plain
  rw [lost] at read
  obtain rfl := Except.ok.inj read
  cases same

end Response

end Switchboard.Rpc
