import Mathlib.Data.List.ModifyLast
import Switchboard.Json.Outline
import Switchboard.Proofs.Json.Lexing

/-!
# `Switchboard.Proofs.Json.Grammar`: what runs of lexemes spell

`Spells` says which runs of lexemes spell which values, and `Opened` how far a container that is
still open was read. Reading a text to its end finds what its lexemes spell
(`spells_of_readFrom`), and what a run spells is read from it wherever a value is due
(`Spells.reads`). Together they say that each value inside a text is read again from its own text
(`Document.ofText_member`).

The lexemes of a run stand last one first, as in a `Frame`.
-/

set_option autoImplicit false

namespace Switchboard.Json

/-! ### The grammar -/

/-- What is due where a value may start. -/
def Due.admitsValue : Due → Bool
  | .value | .valueOrClose => true
  | _ => false

/-- What is due where a name may start. -/
def Due.admitsName : Due → Bool
  | .name | .nameOrClose => true
  | _ => false

/-- What is due where a container may be closed. -/
def Due.admitsClose : Due → Bool
  | .valueOrClose | .nameOrClose | .commaOrClose => true
  | _ => false

mutual

/-- A run of lexemes, last one first, and the value that it spells. -/
inductive Spells : List Lexeme → Outline → Prop
  | scalar {lexeme : Lexeme} {value : Scalar} (token : lexeme.token = .scalar value) :
      Spells [lexeme] (.scalar value)
  | array {source : List Lexeme} {items : List Outline} {due : Due} {lexeme : Lexeme}
      (opened : Opened (.array source items) due) (closes : due.admitsClose)
      (token : lexeme.token = .closeArray) :
      Spells (lexeme :: source) (.array items.reverse (some (lexeme :: source).reverse))
  | object {source : List Lexeme} {members : List (List Char × Outline)} {due : Due}
      {lexeme : Lexeme} (opened : Opened (.object source members) due) (closes : due.admitsClose)
      (token : lexeme.token = .closeObject) :
      Spells (lexeme :: source) (.object members.reverse (some (lexeme :: source).reverse))

/-- An open container that its lexemes lead to, and what is due in it then. -/
inductive Opened : Frame → Due → Prop
  | array {lexeme : Lexeme} (token : lexeme.token = .openArray) :
      Opened (.array [lexeme] []) .valueOrClose
  | item {source : List Lexeme} {items : List Outline} {due : Due} {spelling : List Lexeme}
      {value : Outline} (opened : Opened (.array source items) due) (admits : due.admitsValue)
      (spells : Spells spelling value) :
      Opened (.array (spelling ++ source) (value :: items)) .commaOrClose
  | nextItem {source : List Lexeme} {items : List Outline} {lexeme : Lexeme}
      (opened : Opened (.array source items) .commaOrClose) (token : lexeme.token = .comma) :
      Opened (.array (lexeme :: source) items) .value
  | object {lexeme : Lexeme} (token : lexeme.token = .openObject) :
      Opened (.object [lexeme] []) .nameOrClose
  | name {source : List Lexeme} {members : List (List Char × Outline)} {due : Due}
      {lexeme : Lexeme} {name : List Char} (opened : Opened (.object source members) due)
      (admits : due.admitsName) (token : lexeme.token = .scalar (.string name)) :
      Opened (.member (lexeme :: source) members name) .colon
  | colon {source : List Lexeme} {members : List (List Char × Outline)} {name : List Char}
      {lexeme : Lexeme} (opened : Opened (.member source members name) .colon)
      (token : lexeme.token = .colon) :
      Opened (.member (lexeme :: source) members name) .value
  | member {source : List Lexeme} {members : List (List Char × Outline)} {name : List Char}
      {spelling : List Lexeme} {value : Outline}
      (opened : Opened (.member source members name) .value) (spells : Spells spelling value) :
      Opened (.object (spelling ++ source) ((name, value) :: members)) .commaOrClose
  | nextMember {source : List Lexeme} {members : List (List Char × Outline)} {lexeme : Lexeme}
      (opened : Opened (.object source members) .commaOrClose) (token : lexeme.token = .comma) :
      Opened (.object (lexeme :: source) members) .name

end

namespace Frame

/-- The lexemes of a container so far, last one first. -/
def source : Frame → List Lexeme
  | array source _ | object source _ | member source _ _ => source

/-- The values in an open container so far, last one first. -/
def contents : Frame → List Outline
  | array _ items => items
  | object _ members | member _ members _ => members.map Prod.snd

end Frame

/-- The values directly inside a value. -/
def Outline.contents : Outline → List Outline
  | .array items _ => items
  | .object members _ => members.map Prod.snd
  | .scalar _ | .broken => []

/-! ### What is read is spelled -/

namespace Builder

/-- Whether in each of the containers a value is due. -/
def AwaitValue (frames : List Frame) : Prop :=
  ∀ frame ∈ frames, ∃ due, Opened frame due ∧ due.admitsValue

/-- A state that the lexemes read so far lead to: in the innermost container something is due, in
each other one a value. -/
def Sound (builder : Builder) : Prop :=
  match builder.frames with
  | [] => builder.due = .value
  | frame :: outer =>
    Opened frame builder.due ∧ AwaitValue outer

/-- The lexemes read so far, last one first. -/
def lexemes (builder : Builder) : List Lexeme := builder.frames.flatMap Frame.source

/-- What a state may lead to after the given lexemes. -/
def Leads (read : List Lexeme) : Progress → Prop
  | .more builder => builder.Sound ∧ builder.lexemes = read
  | .finished root => Spells read root
  | .fault => True

variable {frame : Frame} {frames : List Frame} {due : Due} {lexeme : Lexeme}

/-- A complete value goes into the innermost container or is the root. -/
theorem leads_deliver {value : Outline} {spelling : List Lexeme} (spells : Spells spelling value)
    (awaited : AwaitValue frames) :
    Leads (spelling ++ frames.flatMap Frame.source) (deliver frames value spelling) := by
  -- Without a container around it the value is the root.
  cases frames with
  | nil => simpa [deliver, Leads] using spells
  | cons frame outer =>
    obtain ⟨⟨due, opened, admits⟩, others⟩ := List.forall_mem_cons.mp awaited
    cases frame with
    | array source items =>
      exact ⟨⟨.item opened admits spells, others⟩, List.append_assoc ..⟩
    | object source members => cases opened <;> cases admits
    | member source members name =>
      cases opened with
      | name => cases admits
      | colon opened token =>
        exact ⟨⟨.member (.colon opened token) spells, others⟩, List.append_assoc ..⟩

/-- A lexeme where a value is due begins one. -/
theorem leads_beginValue (awaited : AwaitValue frames) :
    Leads (lexeme :: frames.flatMap Frame.source) (beginValue frames lexeme) := by
  unfold beginValue
  split
  · exact leads_deliver (.scalar ‹_›) awaited
  · exact ⟨⟨.array ‹_›, awaited⟩, rfl⟩
  · exact ⟨⟨.object ‹_›, awaited⟩, rfl⟩
  · trivial

/-- A lexeme where a container may be closed closes it. -/
theorem leads_close (opened : Opened frame due) (closes : due.admitsClose)
    (awaited : AwaitValue frames) :
    Leads (lexeme :: (frame :: frames).flatMap Frame.source) (close (frame :: frames) lexeme) := by
  unfold close
  split
  case h_1 token same =>
    cases same
    exact leads_deliver (.array opened closes token) awaited
  case h_2 token same =>
    cases same
    exact leads_deliver (.object opened closes token) awaited
  case h_3 => trivial

/-- A lexeme where a name is due begins a member. -/
theorem leads_beginMember (opened : Opened frame due) (admits : due.admitsName)
    (awaited : AwaitValue frames) :
    Leads (lexeme :: (frame :: frames).flatMap Frame.source)
      (beginMember (frame :: frames) lexeme) := by
  unfold beginMember
  -- Only a string can be a name.
  split
  case h_1 token same =>
    cases same
    exact ⟨⟨.name opened admits token, awaited⟩, rfl⟩
  case h_2 => trivial

/-- A comma is followed by the next item or member. -/
theorem leads_separate (opened : Opened frame .commaOrClose) (comma : lexeme.token = .comma)
    (awaited : AwaitValue frames) :
    Leads (lexeme :: (frame :: frames).flatMap Frame.source)
      (separate (frame :: frames) lexeme) := by
  cases frame with
  | array => exact ⟨⟨.nextItem opened comma, awaited⟩, rfl⟩
  | object => exact ⟨⟨.nextMember opened comma, awaited⟩, rfl⟩
  | member => trivial

/-- What each lexeme leads to. -/
theorem leads_step {builder : Builder} (sound : builder.Sound) (lexeme : Lexeme) :
    Leads (lexeme :: builder.lexemes) (builder.step lexeme) := by
  obtain ⟨frames, due⟩ := builder
  -- With no container open only a value can be due; else the cases are those of what is due.
  cases frames with
  | nil =>
    obtain rfl : due = .value := sound
    have awaited : AwaitValue [] := List.forall_mem_nil _
    exact leads_beginValue awaited
  | cons frame frames =>
    obtain ⟨opened, awaited⟩ := sound
    have within (admits : due.admitsValue) : AwaitValue (frame :: frames) :=
      List.forall_mem_cons.mpr ⟨⟨due, opened, admits⟩, awaited⟩
    cases due with
    | value => exact leads_beginValue (within rfl)
    | valueOrClose =>
      by_cases token : lexeme.token = .closeArray
      · simp only [step, token]
        exact leads_close opened rfl awaited
      · simp only [step]
        exact leads_beginValue (within rfl)
    | nameOrClose =>
      by_cases token : lexeme.token = .closeObject
      · simp only [step, token]
        exact leads_close opened rfl awaited
      · simp only [step]
        exact leads_beginMember opened rfl awaited
    | name => exact leads_beginMember opened rfl awaited
    | colon =>
      by_cases token : lexeme.token = .colon
      · simp only [step, token]
        cases opened with
        | name opened admits named =>
          exact ⟨⟨.colon (.name opened admits named) token, awaited⟩, rfl⟩
      · simp only [step]
        trivial
    | commaOrClose =>
      by_cases token : lexeme.token = .comma
      · simp only [step, token]
        exact leads_separate opened token awaited
      · simp only [step]
        exact leads_close opened rfl awaited

end Builder

/-- A text that holds one value and no more is what its lexemes spell. -/
theorem spells_of_readFrom {builder : Builder} (sound : builder.Sound) {complete : Bool}
    {lexemes : List Lexeme} {root : Outline}
    (read : Document.readFrom builder complete lexemes = ⟨root, true⟩) :
    Spells (lexemes.reverse ++ builder.lexemes) root := by
  induction lexemes generalizing builder with
  | nil => cases read
  | cons lexeme rest ih =>
    have leads := Builder.leads_step sound lexeme
    unfold Document.readFrom at read
    split at read
    case h_1 after step =>
      rw [step] at leads
      obtain ⟨sound, lexemes⟩ := leads
      have spells := ih sound read
      rwa [lexemes, List.append_cons, ← List.reverse_cons] at spells
    case h_2 found step =>
      rw [step] at leads
      obtain ⟨rfl, alone⟩ := Document.mk.inj read
      have nothing : rest = [] := List.isEmpty_iff.mp (Bool.and_eq_true_iff.mp alone).1
      subst nothing
      exact leads
    case h_3 => cases read

/-! ### What is spelled is read -/

namespace Document

variable {frames : List Frame} {builder after : Builder} {due : Due} {complete : Bool}
  {lexeme : Lexeme} {rest : List Lexeme} {value : Outline} {spelling : List Lexeme}

/-- Goes on reading after a value was handed on. -/
def resume (complete : Bool) (rest : List Lexeme) : Progress → Document
  | .more builder => readFrom builder complete rest
  | .finished root => ⟨root, rest.isEmpty && complete⟩
  | .fault => ⟨.broken, false⟩

/-- Reading goes on with the state behind a lexeme. -/
theorem readFrom_of_more (step : builder.step lexeme = .more after) :
    readFrom builder complete (lexeme :: rest) = readFrom after complete rest := by
  rw [readFrom, step]

/-- Reading goes on with what the delivery of a value leads to. -/
theorem readFrom_of_deliver (step : builder.step lexeme = Builder.deliver frames value spelling) :
    readFrom builder complete (lexeme :: rest) =
      resume complete rest (Builder.deliver frames value spelling) := by
  rw [readFrom, step]
  cases frames <;> rfl

end Document

namespace Builder

variable {frames : List Frame} {due : Due} {lexeme : Lexeme}

/-- Where a value is due, any lexeme but a closing bracket begins it. -/
theorem step_of_admitsValue (admits : due.admitsValue) (token : lexeme.token ≠ .closeArray) :
    step ⟨frames, due⟩ lexeme = beginValue frames lexeme := by
  cases due with
  | value => rfl
  | valueOrClose => simp [step]
  | _ => cases admits

/-- Where a name is due, a string begins a member. -/
theorem step_of_admitsName {name : List Char} (admits : due.admitsName)
    (token : lexeme.token = .scalar (.string name)) :
    step ⟨frames, due⟩ lexeme = beginMember frames lexeme := by
  cases due with
  | name => rfl
  | nameOrClose => simp [step, token]
  | _ => cases admits

/-- A closing bracket delivers the array. -/
theorem step_closeArray {source : List Lexeme} {items : List Outline}
    (opened : Opened (.array source items) due) (closes : due.admitsClose)
    (token : lexeme.token = .closeArray) :
    step ⟨.array source items :: frames, due⟩ lexeme =
      deliver frames (.array items.reverse (some (lexeme :: source).reverse))
        (lexeme :: source) := by
  cases opened with
  | array | item => simp [step, token, close]
  | nextItem => cases closes

/-- A closing brace delivers the object. -/
theorem step_closeObject {source : List Lexeme} {members : List (List Char × Outline)}
    (opened : Opened (.object source members) due) (closes : due.admitsClose)
    (token : lexeme.token = .closeObject) :
    step ⟨.object source members :: frames, due⟩ lexeme =
      deliver frames (.object members.reverse (some (lexeme :: source).reverse))
        (lexeme :: source) := by
  cases opened with
  | object | member => simp [step, token, close]
  | nextMember => cases closes

end Builder

mutual

/-- What a run spells is read from it wherever a value is due. -/
theorem Spells.reads {spelling : List Lexeme} {value : Outline} (spells : Spells spelling value)
    (frames : List Frame) {due : Due} (admits : due.admitsValue) (complete : Bool)
    (rest : List Lexeme) :
    Document.readFrom ⟨frames, due⟩ complete (spelling.reverse ++ rest) =
      Document.resume complete rest (Builder.deliver frames value spelling) := by
  -- Both statements are for any open containers around, which a value inside another one needs.
  match spells with
  | .scalar token =>
    refine Document.readFrom_of_deliver ?_
    rw [Builder.step_of_admitsValue admits (by simp [token]), Builder.beginValue, token]
  | .array opened closes token =>
    rw [List.reverse_cons, List.append_assoc, ← List.reverse_cons]
    refine (opened.reads frames admits complete _).trans (Document.readFrom_of_deliver ?_)
    exact Builder.step_closeArray opened closes token
  | .object opened closes token =>
    rw [List.reverse_cons, List.append_assoc, ← List.reverse_cons]
    refine (opened.reads frames admits complete _).trans (Document.readFrom_of_deliver ?_)
    exact Builder.step_closeObject opened closes token

/-- The lexemes of an open container lead into it. -/
theorem Opened.reads {frame : Frame} {awaits : Due} (opened : Opened frame awaits)
    (frames : List Frame) {due : Due} (admits : due.admitsValue) (complete : Bool)
    (rest : List Lexeme) :
    Document.readFrom ⟨frames, due⟩ complete (frame.source.reverse ++ rest) =
      Document.readFrom ⟨frame :: frames, awaits⟩ complete rest := by
  -- What was read before the last piece leads into the container as it was, and from there the last
  -- piece leads on.
  match opened with
  | .array token =>
    refine Document.readFrom_of_more ?_
    rw [Builder.step_of_admitsValue admits (by simp [token]), Builder.beginValue, token]
  | .object token =>
    refine Document.readFrom_of_more ?_
    rw [Builder.step_of_admitsValue admits (by simp [token]), Builder.beginValue, token]
  | .item opened within spells =>
    rw [Frame.source, List.reverse_append, List.append_assoc]
    exact (opened.reads frames admits complete _).trans (spells.reads _ within complete rest)
  | .nextItem opened token =>
    rw [Frame.source, List.reverse_cons, List.append_assoc]
    refine (opened.reads frames admits complete _).trans (Document.readFrom_of_more ?_)
    simp [Builder.step, token, Builder.separate]
  | .name opened within token =>
    rw [Frame.source, List.reverse_cons, List.append_assoc]
    refine (opened.reads frames admits complete _).trans (Document.readFrom_of_more ?_)
    simp [Builder.step_of_admitsName within token, Builder.beginMember, token]
  | .colon opened token =>
    rw [Frame.source, List.reverse_cons, List.append_assoc]
    refine (opened.reads frames admits complete _).trans (Document.readFrom_of_more ?_)
    simp [Builder.step, token, Frame.note]
  | .member opened spells =>
    rw [Frame.source, List.reverse_append, List.append_assoc]
    exact (opened.reads frames admits complete _).trans (spells.reads _ rfl complete rest)
  | .nextMember opened token =>
    rw [Frame.source, List.reverse_cons, List.append_assoc]
    refine (opened.reads frames admits complete _).trans (Document.readFrom_of_more ?_)
    simp [Builder.step, token, Builder.separate]

end

/-! ### Values inside a text -/

/-- The values in an open container are spelled by stretches of its lexemes. -/
theorem Opened.exists_spelling {frame : Frame} {due : Due} (opened : Opened frame due)
    {value : Outline} (listed : value ∈ frame.contents) :
    ∃ spelling, Spells spelling value ∧ spelling <:+: frame.source := by
  match opened with
  | .array _ | .object _ => cases listed
  | .nextItem opened _ | .name opened _ _ | .colon opened _ | .nextMember opened _ =>
    obtain ⟨spelling, spells, inside⟩ := opened.exists_spelling listed
    exact ⟨spelling, spells, List.infix_cons inside⟩
  | .item opened _ spells | .member opened spells =>
    rcases List.mem_cons.mp listed with rfl | listed
    · exact ⟨_, spells, (List.prefix_append ..).isInfix⟩
    · obtain ⟨spelling, spells, inside⟩ := opened.exists_spelling listed
      exact ⟨spelling, spells, inside.trans (List.suffix_append ..).isInfix⟩

/-- The text that is kept of a value is the text of its lexemes. -/
theorem Spells.text? {spelling : List Lexeme} {value : Outline} (spells : Spells spelling value) :
    value.text? = some (sourceText spelling.reverse) := by
  cases spells with
  | scalar token => simp [Outline.text?, sourceText, token, Token.source]
  | array | object => rfl

/-- Whether two values differ at most in the lexemes that they were read from. -/
inductive Outline.Alike : Outline → Outline → Prop
  | same (value : Outline) : Alike value value
  | array (items : List Outline) (source source' : List Lexeme) :
      Alike (.array items (some source)) (.array items (some source'))
  | object (members : List (List Char × Outline)) (source source' : List Lexeme) :
      Alike (.object members (some source)) (.object members (some source'))

/-- An open container has at least its opening lexeme. -/
theorem Opened.source_ne_nil {frame : Frame} {due : Due} (opened : Opened frame due) :
    frame.source ≠ [] := by
  match opened with
  | .array _ | .nextItem _ _ | .object _ | .name _ _ _ | .colon _ _ | .nextMember _ _ =>
    simp [Frame.source]
  | .item opened _ _ | .member opened _ =>
    exact List.append_ne_nil_of_right_ne_nil _ opened.source_ne_nil

/-- A value has at least one lexeme. -/
theorem Spells.ne_nil {spelling : List Lexeme} {value : Outline}
    (spells : Spells spelling value) : spelling ≠ [] := by
  cases spells <;> simp

/-- The run without the blanks before its first lexeme. -/
def bareRun (run : List Lexeme) : List Lexeme := run.modifyLast Lexeme.bare

/-- Lexemes that follow keep the blanks before them. -/
theorem bareRun_append (spelling : List Lexeme) {source : List Lexeme} (nonempty : source ≠ []) :
    bareRun (spelling ++ source) = spelling ++ bareRun source :=
  List.modifyLast_append_of_right_ne_nil Lexeme.bare spelling source nonempty

/-- A lexeme that follows keeps the blanks before it. -/
theorem bareRun_cons (lexeme : Lexeme) {source : List Lexeme} (nonempty : source ≠ []) :
    bareRun (lexeme :: source) = lexeme :: bareRun source :=
  bareRun_append [lexeme] nonempty

/-- The container without the blanks before it. -/
def Frame.bare : Frame → Frame
  | array source items => array (bareRun source) items
  | object source members => object (bareRun source) members
  | member source members name => member (bareRun source) members name

/-- A container may be opened without blanks before it. -/
theorem Opened.bare {frame : Frame} {due : Due} (opened : Opened frame due) :
    Opened frame.bare due := by
  -- The first lexeme of the container is the last one of its source, at the bottom of the
  -- recursion.
  match opened with
  | .array token => exact .array token
  | .object token => exact .object token
  | .item opened admits spells =>
    rw [Frame.bare, bareRun_append]
    · exact opened.bare.item admits spells
    · exact opened.source_ne_nil
  | .nextItem opened token =>
    rw [Frame.bare, bareRun_cons]
    · exact opened.bare.nextItem token
    · exact opened.source_ne_nil
  | .name opened admits token =>
    rw [Frame.bare, bareRun_cons]
    · exact opened.bare.name admits token
    · exact opened.source_ne_nil
  | .colon opened token =>
    rw [Frame.bare, bareRun_cons]
    · exact opened.bare.colon token
    · exact opened.source_ne_nil
  | .member opened spells =>
    rw [Frame.bare, bareRun_append]
    · exact opened.bare.member spells
    · exact opened.source_ne_nil
  | .nextMember opened token =>
    rw [Frame.bare, bareRun_cons]
    · exact opened.bare.nextMember token
    · exact opened.source_ne_nil

/-- The blanks before a value are no part of it. -/
theorem Spells.bare {spelling : List Lexeme} {value : Outline} (spells : Spells spelling value) :
    ∃ again, Spells (bareRun spelling) again ∧ again.Alike value := by
  cases spells with
  | scalar token => exact ⟨_, .scalar token, .same _⟩
  | array opened closes token =>
    rw [bareRun_cons]
    · exact ⟨_, .array opened.bare closes token, .array ..⟩
    · exact opened.source_ne_nil
  | object opened closes token =>
    rw [bareRun_cons]
    · exact ⟨_, .object opened.bare closes token, .object ..⟩
    · exact opened.source_ne_nil

/-- What a stretch of lexemes spells is also spelled without the blanks before the first one. -/
theorem Spells.exists_bare {spelling : List Lexeme} {value : Outline}
    (spells : Spells spelling value) :
    ∃ first run again, spelling.reverse = first :: run ∧
      Spells (first.bare :: run).reverse again ∧ again.Alike value := by
  obtain ⟨again, bare, alike⟩ := spells.bare
  obtain ⟨first, run, split⟩ := List.exists_cons_of_ne_nil
    (fun nothing => spells.ne_nil (List.reverse_eq_nil_iff.mp nothing))
  have reversed : bareRun spelling = (first.bare :: run).reverse := by
    rw [← List.reverse_reverse spelling, split, List.reverse_cons, List.reverse_cons,
      bareRun_append _ (List.cons_ne_nil _ _)]
    rfl
  exact ⟨first, run, again, split, reversed ▸ bare, alike⟩

/-- The text of a stretch of lexemes that spells a value is read as this value. -/
theorem Spells.ofText {spelling : List Lexeme} {value : Outline} (spells : Spells spelling value)
    {text : List Char} (inside : spelling.reverse <:+: (lex text).lexemes) :
    ∃ again, Document.ofText (sourceText spelling.reverse) = ⟨again, true⟩ ∧
      again.Alike value := by
  -- The text starts with the first token, so what is read lacks the blanks before it.
  obtain ⟨first, run, again, split, bare, alike⟩ := spells.exists_bare
  refine ⟨again, ?_, alike⟩
  rw [split] at inside ⊢
  have read := bare.reads [] (rfl : Due.value.admitsValue) true []
  rw [List.reverse_reverse, List.append_nil] at read
  rw [Document.ofText, lex_sourceText inside]
  exact read

/-- A value inside a text is spelled by a stretch of the text's lexemes. -/
theorem Document.exists_spelling {text : List Char} {root : Outline}
    (read : Document.ofText text = ⟨root, true⟩) {value : Outline}
    (inside : value ∈ root.contents) :
    ∃ spelling, Spells spelling value ∧ spelling.reverse <:+: (lex text).lexemes := by
  have sound : Builder.start.Sound := rfl
  have whole := spells_of_readFrom sound read
  rw [show Builder.start.lexemes = [] from rfl, List.append_nil] at whole
  generalize reversed : (lex text).lexemes.reverse = run at whole
  -- A stretch of the reversed run is one of the run, read backwards.
  have stretch {spelling source : List Lexeme} {lexeme : Lexeme} (run : run = lexeme :: source)
      (part : spelling <:+: source) : spelling.reverse <:+: (lex text).lexemes := by
    rw [← List.reverse_infix, List.reverse_reverse, reversed, run]
    exact List.infix_cons part
  cases whole with
  | scalar token => cases inside
  | array opened closes token =>
    obtain ⟨spelling, spells, part⟩ := opened.exists_spelling (List.mem_reverse.mp inside)
    exact ⟨spelling, spells, stretch rfl part⟩
  | object opened closes token =>
    rw [Outline.contents, List.map_reverse] at inside
    obtain ⟨spelling, spells, part⟩ := opened.exists_spelling (List.mem_reverse.mp inside)
    exact ⟨spelling, spells, stretch rfl part⟩

/-- Each value inside an object is read again from its own text. -/
theorem Document.ofText_member {text : List Char} {members : List (List Char × Outline)}
    {source? : Option (List Lexeme)} (read : Document.ofText text = ⟨.object members source?, true⟩)
    {member : List Char × Outline} (listed : member ∈ members) :
    ∃ written again, member.2.text? = some written ∧ Document.ofText written = ⟨again, true⟩ ∧
      again.Alike member.2 := by
  have inside : member.2 ∈ (Outline.object members source?).contents := List.mem_map_of_mem listed
  obtain ⟨spelling, spells, stretch⟩ := Document.exists_spelling read inside
  obtain ⟨again, read, alike⟩ := spells.ofText stretch
  exact ⟨_, again, spells.text?, read, alike⟩

end Switchboard.Json
