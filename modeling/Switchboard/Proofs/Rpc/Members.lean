import Switchboard.Proofs.Json.Members
import Switchboard.Proofs.Rpc.Request

/-!
# `Switchboard.Proofs.Rpc.Members`: requests from members in any order

`Request.Admissible` says which members make up a request, and `Request.MadeOf` which request they
make up. Neither looks at the order of the members, at the blanks around them or at how their names
are written. `Request.reads_members` says that an object text is read as a request exactly if its
members are admissible, and that every other text with the same members is then read as the same
request. No other text that starts with a brace is read as a request
(`Request.read_eq_ok_iff_of_brace`).
-/

set_option autoImplicit false

namespace Switchboard.Rpc.Request

open Json

/-! ### The members of a request -/

/-- The names that a member of a request may have, and the values that it may have then. -/
inductive Admitted : String → List Char → Prop
  | version {text : List Char} {content : String} (string : Quotes text content) :
      Admitted "jsonrpc" text
  | id {text : List Char} {value : Value} (decodes : Decodes (maxNesting - 1) text value) :
      Admitted "id" text
  | method {text : List Char} {content : String} (string : Quotes text content) :
      Admitted "method" text
  | params (text : List Char) : Admitted "params" text
  | scope {text : List Char} (string : text = nullText ∨ ∃ content, Quotes text content) :
      Admitted "scope" text
  | origin {text : List Char} (string : text = nullText ∨ ∃ content, Quotes text content) :
      Admitted "origin" text

/-- Members that make up a request: no two of one name, all of them known and of the right kind,
and a version and a method among them. -/
structure Admissible (members : List Member) : Prop where
  distinct : (members.map Member.name).Nodup
  admitted : ∀ member ∈ members, Admitted member.name member.value
  version : "jsonrpc" ∈ members.map Member.name
  method : "method" ∈ members.map Member.name

/-- A text as it stands. -/
def Raw (text : List Char) (raw : String) : Prop :=
  ∃ source, text = source ∧ String.ofList source = raw

/-- A string that names a scope. -/
def NamesScope (text : List Char) (scope : Scope) : Prop :=
  ∃ content, Quotes text content ∧ (⟨content⟩ : Scope) = scope

/-- The request that members make up. -/
structure MadeOf (members : List Member) (request : Request) : Prop where
  version : Given members "jsonrpc" Quotes request.version
  id : GivenOr members "id" (Decodes (maxNesting - 1)) .null request.id
  method : Given members "method" Quotes request.method
  params : GivenOr members "params" (OrNull Raw) none request.params
  scope : GivenOr members "scope" (OrNull NamesScope) none request.scope
  origin : GivenOr members "origin" (OrNull Quotes) none request.origin

variable {members members' : List Member} {text text' : List Char} {request request' : Request}

/-- The order of the members does not matter for whether a request is admitted. -/
theorem Admissible.perm (admissible : Admissible members) (same : members.Perm members') :
    Admissible members' := by
  have names := same.map Member.name
  exact {
    distinct := names.nodup_iff.mp admissible.distinct
    admitted := fun member listed => admissible.admitted member (same.mem_iff.mpr listed)
    version := names.mem_iff.mp admissible.version
    method := names.mem_iff.mp admissible.method }

/-- The order of the members does not matter for the request they make up. -/
theorem MadeOf.perm (made : MadeOf members request) (same : members.Perm members') :
    MadeOf members' request where
  version := made.version.perm same
  id := made.id.perm same
  method := made.method.perm same
  params := made.params.perm same
  scope := made.scope.perm same
  origin := made.origin.perm same

/-- A text is kept as one text only. -/
theorem rightUnique_raw : Relator.RightUnique Raw := by
  rintro text _ _ ⟨_, rfl, rfl⟩ ⟨_, rfl, rfl⟩
  rfl

/-- A text names one scope only. -/
theorem rightUnique_namesScope : Relator.RightUnique NamesScope := by
  rintro text _ _ ⟨_, quotes, rfl⟩ ⟨_, quotes', rfl⟩
  rw [rightUnique_quotes quotes quotes']

/-- Members of different names make up one request at most. -/
theorem MadeOf.unique (distinct : (members.map Member.name).Nodup) (made : MadeOf members request)
    (made' : MadeOf members request') : request = request' := by
  have version := made.version.unique distinct rightUnique_quotes made'.version
  have id := made.id.unique distinct (rightUnique_decodes _) made'.id
  have method := made.method.unique distinct rightUnique_quotes made'.method
  have params := made.params.unique distinct (rightUnique_orNull rightUnique_raw) made'.params
  have scope := made.scope.unique distinct (rightUnique_orNull rightUnique_namesScope) made'.scope
  have origin := made.origin.unique distinct (rightUnique_orNull rightUnique_quotes) made'.origin
  cases request
  cases request'
  simp_all

/-! ### Reading members -/

/-- A value that may be missing can be read if it is null or can be read. -/
theorem exists_orNull_iff {α : Type} {reads : List Char → α → Prop} :
    (∃ value?, OrNull reads text value?) ↔ text = nullText ∨ ∃ value, reads text value := by
  constructor
  · rintro ⟨_, _ | ⟨-, given⟩⟩
    · exact .inl rfl
    · exact .inr ⟨_, given⟩
  · intro either
    by_cases null : text = nullText
    · exact ⟨none, null ▸ .null⟩
    · obtain ⟨value, given⟩ := either.resolve_left null
      exact ⟨some value, .given null given⟩

/-- The reader of parameters keeps the text of the value. -/
theorem follows_params {room : Nat} :
    (Reader.optional (.map String.ofList .sourceText)).Follows room (OrNull Raw) :=
  (Reader.follows_sourceText.map String.ofList).optional

/-- The reader of scopes takes what is quoted. -/
theorem follows_scope {room : Nat} :
    (Reader.optional (.map Scope.mk .string)).Follows room (OrNull NamesScope) :=
  (Reader.follows_string.map Scope.mk).optional

/-- Every string names a scope. -/
theorem exists_namesScope_iff : (∃ scope, NamesScope text scope) ↔ ∃ content, Quotes text content :=
  ⟨fun ⟨_, content, quotes, _⟩ => ⟨content, quotes⟩,
    fun ⟨content, quotes⟩ => ⟨⟨content⟩, content, quotes, rfl⟩⟩

/-- A member is taken for a field exactly if it is admitted. -/
theorem gives_iff {member : Member} {one : List Char × Outline} (stands : member.Spelled one) :
    (∃ put, shape.Gives (maxNesting - 1) one member.name put) ↔
      Admitted member.name member.value := by
  constructor
  · rintro ⟨put, gives⟩
    obtain ⟨field, known, named, read⟩ := gives.listed
    rw [← named]
    simp only [shape, List.mem_cons, List.not_mem_nil, or_false] at known
    rcases known with rfl | rfl | rfl | rfl | rfl | rfl
    all_goals obtain ⟨value, accepted, -⟩ := map_eq_ok read
    · exact .version ((Reader.follows_string.iff stands value).mp accepted)
    · exact .id ((Reader.follows_value.iff stands value).mp accepted)
    · exact .method ((Reader.follows_string.iff stands value).mp accepted)
    · exact .params member.value
    · have given := exists_orNull_iff.mp ⟨value, (follows_scope.iff stands value).mp accepted⟩
      exact .scope (given.imp_right exists_namesScope_iff.mp)
    · have given := exists_orNull_iff.mp
        ⟨value, (Reader.follows_string.optional.iff stands value).mp accepted⟩
      exact .origin given
  · intro admitted
    generalize named : member.name = name, whole : member.value = text at admitted
    rw [← named]
    subst whole
    cases admitted with
    | version string =>
      exact ⟨_, Shape.gives_of_follows rfl Reader.follows_string stands named string⟩
    | id decodes =>
      exact ⟨_, Shape.gives_of_follows rfl Reader.follows_value stands named decodes⟩
    | method string =>
      exact ⟨_, Shape.gives_of_follows rfl Reader.follows_string stands named string⟩
    | params =>
      obtain ⟨params, given⟩ : ∃ params, OrNull Raw member.value params :=
        exists_orNull_iff.mpr (.inr ⟨_, member.value, rfl, rfl⟩)
      exact ⟨_, Shape.gives_of_follows rfl follows_params stands named given⟩
    | scope string =>
      obtain ⟨scope, given⟩ : ∃ scope, OrNull NamesScope member.value scope :=
        exists_orNull_iff.mpr (string.imp_right exists_namesScope_iff.mpr)
      exact ⟨_, Shape.gives_of_follows rfl follows_scope stands named given⟩
    | origin string =>
      obtain ⟨origin, given⟩ := exists_orNull_iff.mpr string
      exact ⟨_, Shape.gives_of_follows rfl Reader.follows_string.optional stands named given⟩

section
variable {spelled : List (List Char × Outline)} {source : List Lexeme}

/-- An object is read as a request if its members are admissible. -/
theorem exists_read_iff_admissible (each : List.Forall₂ Member.Spelled members spelled) :
    (∃ request, shape.read maxNesting (.object spelled (some source)) = .ok request) ↔
      Admissible members := by
  rw [show maxNesting = maxNesting - 1 + 1 from rfl, Shape.exists_read_iff rfl gives_iff each]
  constructor
  · rintro ⟨distinct, admitted, required⟩
    exact ⟨distinct, admitted, required (shape.fields[0]) (by simp) rfl,
      required (shape.fields[2]) (by simp) rfl⟩
  · rintro ⟨distinct, admitted, version, method⟩
    refine ⟨distinct, admitted, fun field known required => ?_⟩
    simp only [shape, List.mem_cons, List.not_mem_nil, or_false] at known
    rcases known with rfl | rfl | rfl | rfl | rfl | rfl
    · exact version
    · cases required
    · exact method
    all_goals cases required

/-- The request that is read from an object is made of its members. -/
theorem madeOf_of_read (each : List.Forall₂ Member.Spelled members spelled)
    (read : shape.read maxNesting (.object spelled (some source)) = .ok request) :
    MadeOf members request := by
  obtain ⟨-, -, version, method⟩ := (exists_read_iff_admissible each).mp ⟨request, read⟩
  -- Each part is set by the field of its name alone, which is what `frame_put` says of the others.
  constructor
  case version =>
    have part : GivenOr members "jsonrpc" Quotes shape.blank.version request.version :=
      Shape.part_of_members rfl rfl (fun _ _ => rfl) (fun _ known other _ _ accepted before =>
        (frame_put known accepted before).version other) Reader.follows_string each read
    exact part.given version
  case id =>
    exact Shape.part_of_members rfl rfl (fun _ _ => rfl) (fun _ known other _ _ accepted before =>
      (frame_put known accepted before).id other) Reader.follows_value each read
  case method =>
    have part : GivenOr members "method" Quotes shape.blank.method request.method :=
      Shape.part_of_members rfl rfl (fun _ _ => rfl) (fun _ known other _ _ accepted before =>
        (frame_put known accepted before).method other) Reader.follows_string each read
    exact part.given method
  case params =>
    exact Shape.part_of_members rfl rfl (fun _ _ => rfl) (fun _ known other _ _ accepted before =>
      (frame_put known accepted before).params other) follows_params each read
  case scope =>
    exact Shape.part_of_members rfl rfl (fun _ _ => rfl) (fun _ known other _ _ accepted before =>
      (frame_put known accepted before).scope other) follows_scope each read
  case origin =>
    exact Shape.part_of_members rfl rfl (fun _ _ => rfl) (fun _ known other _ _ accepted before =>
      (frame_put known accepted before).origin other) Reader.follows_string.optional each read

end

/-- What is read from an object text depends on its members alone. -/
theorem read_of_objectText {text : String} (object : ObjectText members text.toList) :
    ((∃ request, read text = .ok request) ↔ Admissible members) ∧
      ∀ request, read text = .ok request → MadeOf members request := by
  obtain ⟨spelled, source, document, each⟩ := object.exists_object
  have read_iff (request : Request) : read text = .ok request ↔
      shape.read maxNesting (.object spelled (some source)) = .ok request := by
    rw [read, Reader.run_eq_ok_iff, document]
    simp
  simp only [read_iff]
  exact ⟨exists_read_iff_admissible each, fun request => madeOf_of_read each⟩

/-- A text that starts with a brace spells a request exactly if it is an object whose members make
up this request. -/
theorem read_eq_ok_iff_of_brace {text : String}
    (brace : (text.toList.dropWhile isGap).head? = some '\x7b') :
    read text = .ok request ↔ ∃ members, ObjectText members text.toList ∧ Admissible members ∧
      MadeOf members request := by
  constructor
  · intro accepted
    obtain ⟨outline, alone⟩ := Reader.run_eq_ok_iff.mp accepted
    -- A member whose name stands for nothing would have been refused.
    have named : ∀ spelled source,
        (Document.ofText text.toList).root = .object spelled (some source) →
          ∀ one ∈ spelled, ∃ name, readInside one.1 = .ok name := by
      intro spelled source root one listed
      rw [root] at outline
      obtain ⟨done, fold, -⟩ := Shape.read_object_iff.mp outline
      obtain ⟨name, put, gives, -⟩ := Shape.gives_of_foldlM rfl fold listed
      exact ⟨name, gives.named⟩
    obtain ⟨members, object⟩ := exists_objectText alone brace named
    obtain ⟨admissible, made⟩ := read_of_objectText object
    exact ⟨members, object, admissible.mp ⟨request, accepted⟩, made request accepted⟩
  · rintro ⟨members, object, admissible, made⟩
    obtain ⟨accepted, read_made⟩ := read_of_objectText object
    obtain ⟨other, read⟩ := accepted.mpr admissible
    rw [read, (read_made other read).unique admissible.distinct made]

/-- An object text is read as a request exactly if its members are admissible. Every text with the
same members is then read as the same request, in whatever order they are, with whatever blanks
around their names and values, and whichever strings are written for the names. -/
theorem reads_members {text : String} (object : ObjectText members text.toList) :
    ((∃ request, read text = .ok request) ↔ Admissible members) ∧
      ∀ request, read text = .ok request → MadeOf members request ∧
        ∀ (members' : List Member) (text' : String), members.Perm members' →
          ObjectText members' text'.toList → read text' = .ok request := by
  obtain ⟨accepted, made⟩ := read_of_objectText object
  refine ⟨accepted, fun request first => ⟨made request first, ?_⟩⟩
  intro members' text' same object'
  -- The members make up one request only, so what is read from the other text can be no other.
  have admissible := (accepted.mp ⟨request, first⟩).perm same
  obtain ⟨accepted', made'⟩ := read_of_objectText object'
  obtain ⟨request', again⟩ := accepted'.mpr admissible
  rw [again, ((made request first).perm same).unique admissible.distinct (made' request' again)]

/-- The members of a call that passes a list. -/
def callMembers : List Member :=
  [⟨"jsonrpc", quote "2.0".toList, .string ⟨inside_quoteInside _⟩⟩,
   ⟨"method", quote "eth_call".toList, .string ⟨inside_quoteInside _⟩⟩,
   ⟨"params", ['[', '\t', ']'], .array ⟨['\t'], rfl⟩ [] (List.forall_mem_nil _)⟩]

/-- A call is read, and as the same request when its members stand the other way round with blanks
everywhere. -/
theorem reads_members_backwards :
    Admissible callMembers ∧
      read ("\n\x7b\n\"params\"\n:\n[\t]\n,\n\"method\"\n:\n\"eth_call\"\n,\n" ++
        "\"jsonrpc\"\n:\n\"2.0\"\n\x7d\n") =
        .ok { method := "eth_call", params := some "[\t]" } := by
  have compact : ObjectText callMembers
      "\x7b\"jsonrpc\":\"2.0\",\"method\":\"eth_call\",\"params\":[\t]\x7d".toList :=
    objectText_spaced .none callMembers
  have spaced : ObjectText callMembers.reverse
      ("\n\x7b\n\"params\"\n:\n[\t]\n,\n\"method\"\n:\n\"eth_call\"\n,\n" ++
        "\"jsonrpc\"\n:\n\"2.0\"\n\x7d\n").toList :=
    objectText_spaced ⟨['\n'], rfl⟩ callMembers.reverse
  have first : read "\x7b\"jsonrpc\":\"2.0\",\"method\":\"eth_call\",\"params\":[\t]\x7d" =
      .ok { method := "eth_call", params := some "[\t]" } := by
    decide +kernel
  obtain ⟨accepted, same⟩ := reads_members compact
  exact ⟨accepted.mp ⟨_, first⟩, (same _ first).2 _ _ (List.reverse_perm _).symm spaced⟩

end Switchboard.Rpc.Request
