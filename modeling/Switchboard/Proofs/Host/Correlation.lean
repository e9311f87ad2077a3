import Mathlib.Data.List.Basic
import Switchboard.Host.Basic
import Switchboard.Proofs.Rpc.Request

/-!
# `Switchboard.Proofs.Host.Correlation`: which request a response belongs to

A request that is understood gets its id back whoever answers it (`Host.id_handle`). For one that
is refused the id is read a second time, from the whole line as one value. All members of a request
are values but the parameters, which are kept unread, so that the second reading succeeds exactly
if the parameters can be read (`Host.idOf_eq`).
-/

set_option autoImplicit false

namespace Switchboard

open Rpc Json

/-! ### Requests that are understood -/

namespace Stage

variable {ε μ : Type}

/-- Whether a stage leaves the id of the response alone. -/
def KeepsId (stage : Stage ε μ) : Prop :=
  ∀ request response world, (stage request response world).response.id = response.id

/-- The last stage keeps the id. -/
theorem keepsId_methodNotFound : (methodNotFound : Stage ε μ).KeepsId := by
  intro request response world
  unfold methodNotFound
  dsimp only
  split <;> rfl

/-- A dispatch keeps the id if all handlers do. -/
theorem KeepsId.dispatch {behaviour : Behaviour ε μ} {next : Stage ε μ} (keeps : next.KeepsId)
    (handlers : ∀ middleware, (behaviour.handle middleware next).KeepsId) :
    (dispatch behaviour next).KeepsId := by
  intro request response world
  unfold Stage.dispatch
  dsimp only
  split
  · exact handlers _ request response world
  · exact keeps request response world

end Stage

/-- A preset keeps the id in front of a stage that does. -/
theorem Preset.keepsId_handle {ε μ : Type} {pool : ε → Pool} {preset : Preset} {next : Stage ε μ}
    (keeps : next.KeepsId) : (handle pool preset next).KeepsId := by
  intro request response world
  unfold handle
  split
  · rfl
  · rfl
  · exact keeps request response world

/-- Whoever answers a request that was understood, the response has its id. -/
theorem Host.id_handle (host : Host) (inbound : Inbound) :
    (host.handle inbound).1.id = inbound.request.id := by
  cases inbound with
  | call request =>
    have keeps : (Stage.dispatch Preset.behaviour Stage.methodNotFound).KeepsId :=
      Stage.keepsId_methodNotFound.dispatch fun _ =>
        Preset.keepsId_handle Stage.keepsId_methodNotFound
    have kept := keeps request (.forRequest request) host.world
    simp only [Host.handle, withWorld, Pipeline.handle]
    split <;> exact kept
  | connect request domain scopes =>
    simp only [Host.handle]
    split <;> rfl
  | revoke request domain => rfl

namespace Rpc

/-- What was understood of a request is about that request. -/
theorem Inbound.request_of_ofRequest {request : Request} {inbound : Inbound}
    (understood : ofRequest request = .ok inbound) : inbound.request = request := by
  unfold ofRequest at understood
  split at understood
  · obtain ⟨params, -, understood⟩ := bind_eq_ok understood
    obtain ⟨scopes, -, understood⟩ := bind_eq_ok understood
    split at understood
    · cases understood
    · obtain ⟨domain, -, understood⟩ := bind_eq_ok understood
      obtain rfl := Except.ok.inj understood
      rfl
  · split at understood
    · dsimp only at understood
      split at understood
      all_goals
        obtain ⟨origin?, -, understood⟩ := bind_eq_ok understood
        obtain ⟨domain, -, understood⟩ := bind_eq_ok understood
        obtain rfl := Except.ok.inj understood
        rfl
    · obtain rfl := Except.ok.inj understood
      rfl

/-- What a line asks for is asked by the request that it spells. -/
theorem Inbound.read_of_decode {line : String} {inbound : Inbound}
    (understood : decode line = .ok inbound) : Request.read line = .ok inbound.request := by
  obtain ⟨request, read, understood⟩ := bind_eq_ok understood
  split at understood
  · cases understood
  · rw [request_of_ofRequest understood]
    exact mapError_eq_ok read

end Rpc

/-! ### Requests that are refused -/

/-- The id that is read from the text of a request. -/
theorem Host.idOf_eq {line : String} {request : Request} {members : List (List Char × Outline)}
    {source? : Option (List Lexeme)}
    (object : (Document.ofText line.toList).root = .object members source?)
    (accepted : Request.read line = .ok request) :
    Host.idOf line = if request.legible then request.id else .null := by
  obtain ⟨read, alone⟩ := Reader.run_eq_ok_iff.mp accepted
  have document : Document.ofText line.toList = ⟨.object members source?, true⟩ := by
    rw [← object, ← alone]
  rw [object] at read
  obtain ⟨done, fold, closed, rfl⟩ := Shape.read_object read
  have given (member) (listed : member ∈ members) :
      ∃ name put, Request.shape.Gives (maxNesting - 1) member name put := by
    obtain ⟨name, put, gives, -⟩ := Shape.gives_of_foldlM rfl fold listed
    exact ⟨name, put, gives⟩
  have usual : isEmbedding members = false := Shape.not_isEmbedding given (by decide)
  have legible := Request.legible_iff document fold
  -- The second reading is of the same members, now as values.
  unfold Host.idOf
  rw [Value.parse_eq]
  by_cases readable : done.record.legible
  · rw [if_pos readable]
    have values := legible.mp readable
    obtain ⟨entries, same, parsed⟩ := Reader.value_object closed usual fun member listed => by
      obtain ⟨name, put, gives⟩ := given member listed
      exact ⟨⟨name, gives.named⟩, values member listed⟩
    have whole : Reader.value.run line.toList = .ok (Value.ofMembers entries) :=
      Reader.run_eq_ok_iff.mpr ⟨object ▸ parsed, alone⟩
    rw [whole, Request.id_eq fold same]
  · rw [if_neg readable]
    cases parsed : Reader.value.run line.toList with
    | error => rfl
    | ok value =>
      obtain ⟨whole, -⟩ := Reader.run_eq_ok_iff.mp parsed
      rw [object] at whole
      obtain ⟨entries, same⟩ := Reader.exists_of_value_object usual whole
      refine absurd (legible.mpr fun member listed => ?_) readable
      obtain ⟨entry, -, -, value⟩ := (entries_of_toMembersWith same).1 member listed
      exact ⟨entry.2, value⟩

/-- A request of another method is understood. -/
theorem Rpc.Inbound.decode_call {line : String} {request : Request}
    (accepted : Request.read line = .ok request) (supported : request.version = version)
    (other : ¬(request.method = connectMethod ∨ request.method = revokeMethod)) :
    decode line = .ok (.call request) := by
  obtain ⟨connects, revokes⟩ := not_or.mp other
  simp [decode, accepted, Except.mapError, bind, Except.bind, supported, ofRequest, connects,
    revokes]

/-- Whether a value is an object. -/
def Json.Outline.isObject : Outline → Bool
  | .object _ _ => true
  | _ => false

/-- The response to a request has its id, unless the request is refused and its parameters are not
legible. That happens only for its version or for parameters of the host's own methods that are no
session parameters. -/
theorem Host.id_respond (host : Host) {line : String} {request : Request}
    (object : (Document.ofText line.toList).root.isObject)
    (accepted : Request.read line = .ok request) :
    ((host.respond line).1.id =
      if (Inbound.decode line).isOk || request.legible then request.id else .null) ∧
    ((host.respond line).1.id ≠ request.id → request.version ≠ version ∨
      (request.method = connectMethod ∨ request.method = revokeMethod) ∧
        ∃ params fault, request.params = some params ∧
          SessionParams.read params = .error fault) := by
  have kept : (host.respond line).1.id =
      if (Inbound.decode line).isOk || request.legible then request.id else .null := by
    unfold respond
    cases decoded : Inbound.decode line with
    | ok inbound =>
      obtain rfl := Except.ok.inj (accepted.symm.trans (Inbound.read_of_decode decoded))
      exact id_handle host inbound
    | error failure =>
      cases root : (Document.ofText line.toList).root with
      | object members source? => exact idOf_eq root accepted
      | scalar _ | array _ _ | broken => rw [root] at object; cases object
  refine ⟨kept, fun lost => ?_⟩
  rw [kept] at lost
  obtain ⟨refused, illegible⟩ : (Inbound.decode line).isOk = false ∧ request.legible = false := by
    simpa using fun answered => lost (if_pos answered)
  by_cases supported : request.version = version
  case neg => exact .inl supported
  -- In a supported version calls are understood, and session parameters are legible.
  refine .inr ⟨Decidable.not_not.mp fun other => ?_, ?_⟩
  · rw [Inbound.decode_call accepted supported other] at refused
    cases refused
  · cases given : request.params with
    | none => simp [Request.legible, given] at illegible
    | some params =>
      cases read : SessionParams.read params with
      | error fault => exact ⟨params, fault, rfl, read⟩
      | ok session => simp [SessionParams.legible_of_read given read] at illegible

/-- A host without scopes. -/
def Host.idle : Host := ⟨⟨1, .strict, [], []⟩, .empty, ⟨.empty .strict, {}⟩⟩

/-- A request of an earlier version with parameters that are a value. -/
def legibleLine : String :=
  "\x7b\"jsonrpc\": \"1.0\", \"id\": 7, \"method\": \"m\", \"params\": [1]\x7d"

/-- A line of the wrong version can be read as an object, and its id is kept. -/
theorem Host.id_respond_legible :
    (Document.ofText legibleLine.toList).root.isObject ∧
      Request.read legibleLine = .ok ⟨"1.0", Value.ofNat 7, "m", some "[1]", none, none⟩ ∧
      (Inbound.decode legibleLine).isOk = false ∧
      (idle.respond legibleLine).1.id = Value.ofNat 7 := by
  have object : (Document.ofText legibleLine.toList).root.isObject := by decide +kernel
  have accepted : Request.read legibleLine =
      .ok ⟨"1.0", Value.ofNat 7, "m", some "[1]", none, none⟩ := by decide +kernel
  refine ⟨object, accepted, by decide +kernel, ?_⟩
  rw [(idle.id_respond object accepted).1]
  decide +kernel

/-- A request of an earlier version with a number among its parameters that is too large to be a
value. -/
def illegibleLine : String :=
  "\x7b\"jsonrpc\": \"1.0\", \"id\": 7, \"method\": \"m\", \"params\": 1e400\x7d"

/-- The id of a request that is refused may be lost. -/
theorem Host.id_respond_lost :
    ¬∀ (host : Host) (line : String) (request : Request),
      (Document.ofText line.toList).root.isObject → Request.read line = .ok request →
        (host.respond line).1.id = request.id := by
  intro kept
  have accepted : Request.read illegibleLine =
      .ok ⟨"1.0", Value.ofNat 7, "m", some "1e400", none, none⟩ := by decide +kernel
  have lost : (idle.respond illegibleLine).1.id = .null := by decide +kernel
  have same := kept idle illegibleLine _ (by decide +kernel) accepted
  rw [lost] at same
  cases same

end Switchboard
