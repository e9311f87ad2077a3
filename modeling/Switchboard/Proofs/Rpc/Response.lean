import Switchboard.Proofs.Json.Written
import Switchboard.Rpc.Response

/-!
# `Switchboard.Proofs.Rpc.Response`: responses on the wire

Whoever answers replaces what was there before, so that no response has both a result and an error
(`Response.Proper`), and a response that was answered has one of them (`Response.Settled`). Such a
response is written as a JSON object of three members, whatever texts it holds
(`Response.Settled.spellsResponse`), and without control characters (`Response.visible_encode`).
-/

set_option autoImplicit false

namespace Switchboard.Rpc

open Json

/-! ### Responses in the making -/

namespace Response

/-- A response of the protocol's version without two answers. -/
structure Proper (response : Response) : Prop where
  version : response.version = Rpc.version
  single : ¬(response.result.isSome ∧ response.error.isSome)

/-- A response of the protocol's version with one answer. -/
structure Settled (response : Response) : Prop extends Proper response where
  complete : response.isComplete

/-- A response that was just made for a request is proper. -/
theorem proper_forRequest (request : Request) : (forRequest request).Proper where
  version := rfl
  single both := absurd both.1 (by simp [forRequest])

variable {response : Response}

/-- A response is settled once a result is set. -/
theorem Proper.setResult (proper : response.Proper) (result : Value) :
    (response.setResult result).Settled where
  version := proper.version
  single both := absurd both.2 (by simp [Response.setResult])
  complete := rfl

/-- A response is settled once a failure is set. -/
theorem Proper.setFailure (proper : response.Proper) (failure : Failure) :
    (response.setFailure failure).Settled where
  version := proper.version
  single both := absurd both.1 (by simp [Response.setFailure])
  complete := rfl

/-- A settled response has a result or an error, and not both. -/
theorem Settled.cases (settled : response.Settled) :
    (∃ result, response.result = some result ∧ response.error = none) ∨
      ∃ error, response.result = none ∧ response.error = some error := by
  have complete := settled.complete
  have single := settled.single
  unfold isComplete at complete
  cases answered : response.result with
  | none =>
    rw [answered] at complete
    obtain ⟨error, failed⟩ := Option.isSome_iff_exists.mp complete
    exact .inr ⟨error, rfl, failed⟩
  | some result =>
    cases failed : response.error with
    | none => exact .inl ⟨result, rfl, rfl⟩
    | some error => simp [answered, failed] at single

end Response

/-! ### The wire form -/

namespace ErrorObject

/-- The code of an error is written as a number is. -/
theorem exists_number (error : ErrorObject) :
    ∃ number : Number, number.text = Number.integerText error.code.toInt := by
  have low := error.code.le_toInt
  have high := error.code.toInt_lt
  exact ⟨.integer error.code.toInt (by unfold leastInteger greatestInteger; omega), rfl⟩

/-- The text of an error spells an object. -/
theorem exists_written_text (error : ErrorObject) : ∃ outline, Written error.text outline := by
  obtain ⟨number, same⟩ := error.exists_number
  have code := WrittenMember.intro "code" (written_number number)
  have message := WrittenMember.intro "message" (written_quote error.message.toList)
  rw [same] at code
  unfold text
  cases error.data with
  | none =>
    obtain ⟨_, written⟩ := written_object (.cons code (.cons message .nil))
    exact ⟨_, written⟩
  | some data =>
    obtain ⟨outline, value⟩ := Json.exists_written_text data
    have more := WrittenMember.intro "data" value
    obtain ⟨_, written⟩ := written_object (.cons code (.cons message (.cons more .nil)))
    exact ⟨_, written⟩

/-- The text of an error has no control characters. -/
theorem visible_text (error : ErrorObject) : Visible error.text := by
  obtain ⟨number, same⟩ := error.exists_number
  have code : Visible (memberText "code" (Number.integerText error.code.toInt)) := by
    rw [← same]
    exact visible_memberText "code" fun _ member => visible_of_mem_number member
  have message := visible_memberText "message" (visible_quote error.message.toList)
  refine visible_objectText (List.forall_mem_append.mpr ⟨by simp [code, message], ?_⟩)
  intro member present
  exact visible_of_mem_optional
    (fun data => visible_memberText "data" (Json.visible_text data)) present

end ErrorObject

/-- A text that spells a response: a JSON object with the version, an id, and a result or an
error. -/
def SpellsResponse (text : List Char) : Prop :=
  ∃ id answer outcome source?, (answer = "result" ∨ answer = "error") ∧
    Document.ofText text = ⟨.object [
      ("jsonrpc".toList, .scalar (.string version.toList)),
      ("id".toList, id),
      (answer.toList, outcome)] source?, true⟩

namespace Response

/-- No response is written with a control character. -/
theorem visible_encode (response : Response) : Visible response.encode.toList := by
  rw [encode, String.toList_ofList]
  have version := visible_memberText "jsonrpc" (visible_quote response.version.toList)
  have id := visible_memberText "id" (visible_text response.id)
  refine visible_objectText (List.forall_mem_append.mpr ⟨List.forall_mem_append.mpr ⟨?_, ?_⟩, ?_⟩)
  · simp [version, id]
  · intro member present
    exact visible_of_mem_optional (fun result => visible_memberText "result" (visible_text result))
      present
  · intro member present
    exact visible_of_mem_optional (fun error => visible_memberText "error" error.visible_text)
      present

/-- The names of the members need no escapes. -/
theorem quoteInside_names : ∀ name ∈ ["jsonrpc", "id", "result", "error", Rpc.version],
    quoteInside name.toList = name.toList := by
  decide

/-- Whatever values and texts are in it, a settled response spells one. -/
theorem Settled.spellsResponse {response : Response} (settled : response.Settled) :
    SpellsResponse response.encode.toList := by
  obtain ⟨id, valued⟩ := exists_written_text response.id
  have first := WrittenMember.intro "jsonrpc" (written_quote Rpc.version.toList)
  have second := WrittenMember.intro "id" valued
  rw [quoteInside_names _ (by decide)] at first second
  rw [quoteInside_names _ (by decide)] at first
  rw [encode, String.toList_ofList, memberTexts, settled.version]
  -- Version and id come first in both cases, and behind them the result or the error.
  rcases settled.cases with ⟨result, answered, none⟩ | ⟨error, none, failed⟩
  · obtain ⟨outcome, written⟩ := exists_written_text result
    have third := WrittenMember.intro "result" written
    rw [quoteInside_names _ (by decide)] at third
    obtain ⟨source, object⟩ := written_object (.cons first (.cons second (.cons third .nil)))
    refine ⟨id, "result", outcome, some source, .inl rfl, ?_⟩
    rw [answered, none]
    exact object.ofText
  · obtain ⟨outcome, written⟩ := error.exists_written_text
    have third := WrittenMember.intro "error" written
    rw [quoteInside_names _ (by decide)] at third
    obtain ⟨source, object⟩ := written_object (.cons first (.cons second (.cons third .nil)))
    refine ⟨id, "error", outcome, some source, .inr rfl, ?_⟩
    rw [none, failed]
    exact object.ofText

end Response

end Switchboard.Rpc
