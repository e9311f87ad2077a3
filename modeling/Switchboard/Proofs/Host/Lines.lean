import Switchboard.Host.Serve
import Switchboard.Proofs.Rpc.Response
import Switchboard.Proofs.Text.Utf8

/-!
# `Switchboard.Proofs.Host.Lines`: an input is answered line by line

A stage that is given a proper response leaves one, and settles it where it ends well
(`Stage.Settles`). So every response of a host is settled, whatever it was asked
(`Host.settled_respond`).

An input is cut behind every line feed (`Segmented`). What is but blank text is passed over
(`Blank`), and every other segment is answered by one line, in the state that the answers before it
have left (`Host.Converses`, `Host.serve_closed`). A response is written without line feeds, so that
the lines of the output are the responses.
-/

set_option autoImplicit false

namespace Switchboard

open Rpc

/-! ### Responses of a host -/

namespace Stage

variable {ε μ : Type}

/-- Whether a stage keeps a response proper, and settles it unless it fails. -/
def Settles (stage : Stage ε μ) : Prop :=
  ∀ request response world, response.Proper →
    (stage request response world).response.Proper ∧
      ((stage request response world).result = .ok () →
        (stage request response world).response.Settled)

/-- The last stage settles the response. -/
theorem settles_methodNotFound : (methodNotFound : Stage ε μ).Settles := by
  intro request response world proper
  unfold methodNotFound
  dsimp only
  split
  case isTrue complete => exact ⟨proper, fun _ => ⟨proper, complete⟩⟩
  case isFalse =>
    have settled := proper.setFailure (.methodNotFound request.method)
    exact ⟨settled.toProper, fun _ => settled⟩

/-- A dispatch settles the response if all handlers do. -/
theorem Settles.dispatch {behaviour : Behaviour ε μ} {next : Stage ε μ} (settles : next.Settles)
    (handlers : ∀ middleware, (behaviour.handle middleware next).Settles) :
    (dispatch behaviour next).Settles := by
  intro request response world proper
  unfold Stage.dispatch
  dsimp only
  split
  · exact handlers _ request response world proper
  · exact settles request response world proper

end Stage

/-- A preset settles the response in front of a stage that does. -/
theorem Preset.settles_handle {ε μ : Type} {pool : ε → Pool} {preset : Preset} {next : Stage ε μ}
    (settles : next.Settles) : (handle pool preset next).Settles := by
  intro request response world proper
  unfold handle
  split
  · exact ⟨proper, fun ended => by cases ended⟩
  case h_2 result _ =>
    have settled := proper.setResult result
    exact ⟨settled.toProper, fun _ => settled⟩
  · exact settles request response world proper

namespace Host

/-- Every request that is understood is answered. -/
theorem settled_handle (host : Host) (inbound : Inbound) : (host.handle inbound).1.Settled := by
  have proper := Response.proper_forRequest inbound.request
  cases inbound with
  | call request =>
    have settles : (Stage.dispatch Preset.behaviour Stage.methodNotFound).Settles :=
      Stage.settles_methodNotFound.dispatch fun _ =>
        Preset.settles_handle Stage.settles_methodNotFound
    obtain ⟨kept, ended⟩ := settles request (.forRequest request) host.world proper
    simp only [handle, withWorld, Pipeline.handle]
    split
    case h_1 well => exact ended well
    case h_2 failure _ => exact kept.setFailure failure
  | connect request domain scopes =>
    simp only [handle]
    split
    · exact proper.setResult _
    · exact proper.setFailure _
  | revoke request domain => exact proper.setResult _

/-- A refusal is a settled response. -/
theorem settled_refusal (id : Json.Value) (failure : Failure) : (refusal id failure).Settled :=
  Response.Proper.setFailure ⟨rfl, by simp⟩ failure

/-- Every text is answered. -/
theorem settled_respond (host : Host) (line : String) : (host.respond line).1.Settled := by
  unfold respond
  split
  · exact host.settled_handle _
  · exact settled_refusal _ _

end Host

/-! ### Segments -/

/-- Bytes cut behind every line feed. What follows the last one is a segment too, if there is
anything. -/
inductive Segmented : Bytes → List Bytes → Prop
  | nil : Segmented [] []
  | rest {bytes : Bytes} (nonempty : bytes ≠ []) (unended : lineFeed ∉ bytes) :
    Segmented bytes [bytes]
  | line {body bytes : Bytes} {segments : List Bytes} (unended : lineFeed ∉ body)
    (others : Segmented bytes segments) :
    Segmented (body ++ lineFeed :: bytes) ((body ++ [lineFeed]) :: segments)

/-- One more byte in front is a line of its own or belongs to the first line. -/
theorem Source.lines_cons (b : UInt8) (bytes : Bytes) :
    lines ⟨b :: bytes, .closed⟩ =
      if b = lineFeed then [b] :: lines ⟨bytes, .closed⟩
      else match lines ⟨bytes, .closed⟩ with
        | [] => [[b]]
        | segment :: segments => (b :: segment) :: segments := by
  unfold lines
  rw [split]
  generalize split bytes = cut
  obtain ⟨front, last⟩ := cut
  cases front <;> cases last <;> grind

/-- The lines of an input are its segments. -/
theorem segmented_lines (bytes : Bytes) : Segmented bytes (Source.lines ⟨bytes, .closed⟩) := by
  induction bytes with
  | nil => exact .nil
  | cons b bytes ih =>
    rw [Source.lines_cons]
    by_cases ends : b = lineFeed
    case pos =>
      rw [if_pos ends, ends]
      exact .line List.not_mem_nil ih
    -- Another byte goes in front of the first segment.
    rw [if_neg ends]
    have other {front : Bytes} (unended : lineFeed ∉ front) : lineFeed ∉ b :: front :=
      List.not_mem_cons_of_ne_of_not_mem (Ne.symm ends) unended
    generalize Source.lines ⟨bytes, .closed⟩ = segments at ih ⊢
    cases ih with
    | nil => exact .rest (List.cons_ne_nil _ _) (other List.not_mem_nil)
    | rest nonempty unended => exact .rest (List.cons_ne_nil _ _) (other unended)
    | line unended others => exact .line (other unended) others

/-- A text without a line feed is one line. -/
theorem lines_of_unended {bytes : Bytes} (nonempty : bytes ≠ []) (unended : lineFeed ∉ bytes) :
    Source.lines ⟨bytes, .closed⟩ = [bytes] := by
  induction bytes with
  | nil => exact absurd rfl nonempty
  | cons b bytes ih =>
    have other := List.ne_of_not_mem_cons unended
    have unended := List.not_mem_of_not_mem_cons unended
    rw [Source.lines_cons, if_neg (Ne.symm other)]
    cases bytes with
    | nil => rfl
    | cons second more => rw [ih (List.cons_ne_nil _ _) unended]

/-- A line feed ends the first line. -/
theorem lines_append {body : Bytes} (unended : lineFeed ∉ body) (bytes : Bytes) :
    Source.lines ⟨body ++ lineFeed :: bytes, .closed⟩ =
      (body ++ [lineFeed]) :: Source.lines ⟨bytes, .closed⟩ := by
  induction body with
  | nil => rw [List.nil_append, Source.lines_cons, if_pos rfl, List.nil_append]
  | cons b body ih =>
    have other := List.ne_of_not_mem_cons unended
    have unended := List.not_mem_of_not_mem_cons unended
    rw [List.cons_append, Source.lines_cons, if_neg (Ne.symm other), ih unended]
    rfl

/-- There is one way to cut an input, and a closed one is answered in these segments. -/
theorem segmented_iff {bytes : Bytes} {segments : List Bytes} :
    Segmented bytes segments ↔ segments = Source.lines ⟨bytes, .closed⟩ := by
  constructor
  · intro cut
    induction cut with
    | nil => rfl
    | rest nonempty unended => exact (lines_of_unended nonempty unended).symm
    | line unended others ih => rw [lines_append unended, ih]
  · rintro rfl
    exact segmented_lines bytes

/-- An empty line is a segment, and so is what stands behind the last line. -/
example : Source.lines ⟨[0x7B, lineFeed, lineFeed, 0x7D], .closed⟩ =
    [[0x7B, lineFeed], [lineFeed], [0x7D]] := by
  decide

/-! ### Blank segments -/

/-- The bytes of a text are decoded to it. -/
theorem decode_bytesOf (text : String) :
    Text.Utf8.decode (bytesOf text) = .ok text.toList := by
  rw [Text.Utf8.decode_eq_ok_iff, String.ofList_toList]
  rfl

/-- Whether a segment is but blank text. -/
def Blank (segment : Bytes) : Prop :=
  ∃ text : String, bytesOf text = segment ∧ Text.trim text.toList = []

/-- A segment is blank if it can be decoded to a text that trims to nothing. -/
theorem blank_iff {segment : Bytes} :
    Blank segment ↔ ∃ text, Text.Utf8.decode segment = .ok text ∧ Text.trim text = [] := by
  constructor
  · rintro ⟨text, rfl, blank⟩
    exact ⟨text.toList, decode_bytesOf text, blank⟩
  · rintro ⟨text, read, blank⟩
    refine ⟨String.ofList text, Text.Utf8.decode_eq_ok_iff.mp read, ?_⟩
    rw [String.toList_ofList]
    exact blank

instance (segment : Bytes) : Decidable (Blank segment) :=
  match read : Text.Utf8.decode segment with
  | .ok text =>
    decidable_of_iff (Text.trim text = []) <| by
      rw [blank_iff, read]
      simp
  | .error _ =>
    .isFalse <| by
      rw [blank_iff, read]
      simp

/-! ### Answers -/

namespace Host

variable {host next last : Host} {segment : Bytes} {segments : List Bytes} {response : Response}
  {responses : List Response}

/-- How a host answers a segment: a text without the blanks around it is taken for a request, and
what is no text is refused. -/
structure Answers (host : Host) (segment : Bytes) (response : Response) (next : Host) : Prop where
  text : ∀ text : String, bytesOf text = segment →
    (response, next) = host.respond (String.ofList (Text.trim text.toList))
  other : (∀ text : String, bytesOf text ≠ segment) → next = host ∧
    ∃ fault, Text.Utf8.decode segment = .error fault ∧
      response = reject (.badRequest ("request is not utf-8: " ++ fault.message))

/-- Segments are answered one after another, each in the state that the answers before it have
left. -/
inductive Converses : Host → List Bytes → List Response → Host → Prop
  | done (host : Host) : Converses host [] [] host
  | answer {host next last : Host} {segment : Bytes} {segments : List Bytes}
    {response : Response} {responses : List Response} (first : host.Answers segment response next)
    (others : Converses next segments responses last) :
    Converses host (segment :: segments) (response :: responses) last

/-- A blank line is not answered. -/
theorem respondToLine_blank (host : Host) (blank : Blank segment) :
    host.respondToLine segment = none := by
  obtain ⟨text, read, trimmed⟩ := blank_iff.mp blank
  unfold respondToLine
  rw [read]
  dsimp only
  rw [trimmed]

/-- Any other text is answered as a request. -/
theorem respondToLine_text (host : Host) {text : List Char}
    (read : Text.Utf8.decode segment = .ok text) (asks : Text.trim text ≠ []) :
    host.respondToLine segment = some (host.respond (String.ofList (Text.trim text))) := by
  unfold respondToLine
  rw [read]
  dsimp only
  split
  case h_1 trimmed => exact absurd trimmed asks
  case h_2 => rfl

/-- What is no text is refused. -/
theorem respondToLine_other (host : Host) {fault : Text.Utf8.Fault}
    (read : Text.Utf8.decode segment = .error fault) :
    host.respondToLine segment =
      some (reject (.badRequest ("request is not utf-8: " ++ fault.message)), host) := by
  unfold respondToLine
  rw [read]

/-- A segment that is not blank is answered. -/
theorem exists_answers (host : Host) (asks : ¬Blank segment) :
    ∃ response next, host.respondToLine segment = some (response, next) ∧
      host.Answers segment response next ∧ response.Settled := by
  cases read : Text.Utf8.decode segment with
  | ok text =>
    -- A text of blanks only would make the segment blank.
    have visible : Text.trim text ≠ [] := fun trimmed =>
      asks (blank_iff.mpr ⟨text, read, trimmed⟩)
    have written : bytesOf (String.ofList text) = segment := Text.Utf8.decode_eq_ok_iff.mp read
    have responds := host.respondToLine_text read visible
    have settled := host.settled_respond (String.ofList (Text.trim text))
    rcases answer : host.respond (String.ofList (Text.trim text)) with ⟨response, next⟩
    rw [answer] at responds settled
    refine ⟨response, next, responds, ⟨?_, fun other => absurd written (other _)⟩, settled⟩
    rintro text rfl
    obtain rfl := Except.ok.inj ((decode_bytesOf text).symm.trans read)
    exact answer.symm
  | error fault =>
    refine ⟨_, _, host.respondToLine_other read, ⟨?_, fun _ => ⟨rfl, _, read, rfl⟩⟩,
      settled_refusal _ _⟩
    rintro text rfl
    rw [decode_bytesOf] at read
    cases read

/-- The line that answers a segment. -/
def replyLine (response : Response) : Bytes := bytesOf response.encode ++ [lineFeed]

/-- Lines are answered one after another, in the order in which they come. -/
theorem serveLines_closed (host : Host) (message : String) (served : Nat) (segments : List Bytes) :
    ∃ responses last, host.Converses (segments.filter (¬Blank ·)) responses last ∧
      (∀ response ∈ responses, response.Settled) ∧
      host.serveLines ⟨none, message⟩ .closed served segments =
        ⟨.ok (served + responses.length), responses.flatMap replyLine, last⟩ := by
  -- An answer changes the host, and the rest is answered by the host that it leaves.
  induction segments generalizing host served with
  | nil => exact ⟨[], host, .done host, by simp, rfl⟩
  | cons segment segments ih =>
    by_cases blank : Blank segment
    case pos =>
      rw [serveLines, respondToLine_blank host blank,
        List.filter_cons_of_neg (by simpa using blank)]
      exact ih host served
    obtain ⟨response, next, responds, answers, settled⟩ := host.exists_answers blank
    obtain ⟨responses, last, converses, all, rest⟩ := ih next (served + 1)
    refine ⟨response :: responses, last, ?_, List.forall_mem_cons.mpr ⟨settled, all⟩, ?_⟩
    · rw [List.filter_cons_of_pos (by simpa using blank)]
      exact .answer answers converses
    · simp only [serveLines, responds, Sink.write, rest, List.length_cons, List.flatMap_cons]
      rw [Nat.add_assoc, Nat.add_comm 1]
      rfl

/-- A response is written without control characters. -/
theorem visible_bytesOf_encode (response : Response) :
    ∀ byte ∈ bytesOf response.encode, 0x20 ≤ byte := by
  intro byte member
  unfold bytesOf at member
  rw [Text.Utf8.toList_toUTF8] at member
  obtain ⟨c, inside, written⟩ := List.mem_flatMap.mp member
  exact Text.Utf8.visible_of_mem_encode (response.visible_encode c inside) written

/-- The lines of the output are the responses. -/
theorem segmented_replyLines (responses : List Response) :
    Segmented (responses.flatMap replyLine) (responses.map replyLine) := by
  induction responses with
  | nil => exact .nil
  | cons response responses ih =>
    -- A line feed in a response would end its line too early.
    have unended : lineFeed ∉ bytesOf response.encode := fun member =>
      absurd (visible_bytesOf_encode response lineFeed member) (by decide)
    rw [List.flatMap_cons, List.map_cons, replyLine, List.append_assoc]
    exact .line unended ih

/-- There are as many responses as segments. -/
theorem Converses.length_eq (converses : host.Converses segments responses last) :
    responses.length = segments.length := by
  induction converses with
  | done => rfl
  | answer first others ih => simp [ih]

/-- No line is cut from bytes without one of its own. -/
theorem length_split_le (bytes : Bytes) :
    (Source.split bytes).1.length + (Source.split bytes).2.length ≤ bytes.length := by
  fun_induction Source.split <;> grind

/-- There are no more lines than bytes. -/
theorem length_lines_le (source : Source) : source.lines.length ≤ source.bytes.length := by
  have few := length_split_le source.bytes
  unfold Source.lines
  cases source.ending with
  | broken why => exact (Nat.le_add_right _ _).trans few
  | closed =>
    cases last : (Source.split source.bytes).2 with
    | nil =>
      simp only [last, List.isEmpty_nil, if_true]
      exact (Nat.le_add_right _ _).trans few
    | cons byte rest =>
      -- What follows the last line feed is a line of its own here.
      rw [last, List.length_cons] at few
      simp only [last, List.isEmpty_cons, Bool.false_eq_true, if_false, List.length_append,
        List.length_singleton]
      omega

/-- Each line adds at most one to the number of answers. -/
theorem served_le_of_serveLines (host : Host) (sink : Sink) (ending : Ending) {before served : Nat}
    (segments : List Bytes)
    (ok : (host.serveLines sink ending before segments).result = .ok served) :
    served ≤ before + segments.length := by
  induction segments generalizing host sink before with
  | nil =>
    cases ending with
    | closed => exact (Except.ok.inj ok).ge
    | broken why => cases ok
  | cons segment rest ih =>
    rw [List.length_cons]
    unfold serveLines at ok
    split at ok
    · exact (ih _ _ ok).trans (by omega)
    · split at ok
      · cases ok
      · exact (ih _ _ ok).trans (by omega)

/-- A host never answers more lines than its input has bytes. So the number of answers fits into 64
bits as long as the length of the input does. -/
theorem served_le_length (host : Host) (source : Source) (sink : Sink) {served : Nat}
    (ok : (host.serve source sink).result = .ok served) : served ≤ source.bytes.length := by
  have few := host.served_le_of_serveLines sink source.ending source.lines ok
  rw [Nat.zero_add] at few
  exact few.trans (length_lines_le source)

end Host

end Switchboard
