import Switchboard.Proofs.Success
import Switchboard.Rpc.Inbound

/-!
# `Switchboard.Proofs.Rpc.Inbound`: what the decoder of lines sees to

A line that is not understood is refused with a failure of the one who sent it, and never with an
internal one (`failsWith_decode`). Domains that are connected have a name (`ne_empty_of_decode`).
-/

set_option autoImplicit false

namespace Switchboard.Rpc.Inbound

/-- A failure that is not the host's own. -/
abbrev IsForeign (failure : Failure) : Prop := failure.code ≠ .internal

/-- Parameters that cannot be read are not the host's fault. -/
theorem failsWith_sessionParams (request : Request) :
    FailsWith IsForeign (sessionParams request) := by
  unfold sessionParams
  cases request.params with
  | none => exact .error (by simp [Failure.code])
  | some params => exact .mapError (fun fault => by simp [Failure.code]) _

/-- A domain that is not named is not the host's fault. -/
theorem failsWith_sessionDomain (request : Request) (origin? : Option String) :
    FailsWith IsForeign (sessionDomain request origin?) := by
  unfold sessionDomain
  cases origin?.or request.origin with
  | none => exact .error (by simp [Failure.code])
  | some origin =>
    dsimp only
    split
    · exact .error (by simp [Failure.code])
    · exact .ok _

/-- A text that is no scope is not the host's fault. -/
theorem failsWith_parseOrFail (text : String) : FailsWith IsForeign (Scope.parseOrFail text) :=
  .mapError (fun defect => by simp [Failure.ofDefect, Failure.code]) _

/-- A request that is refused is not the host's fault. -/
theorem failsWith_ofRequest (request : Request) : FailsWith IsForeign (ofRequest request) := by
  unfold ofRequest
  split
  · -- A connection fails over its parameters, one of its scopes or its domain.
    refine (failsWith_sessionParams request).bind fun params => ?_
    refine (FailsWith.mapM failsWith_parseOrFail params.scopes).bind fun scopes => ?_
    split
    · exact .error (by simp [Failure.code])
    · exact (failsWith_sessionDomain request params.origin).bind fun domain => .ok _
  · split
    · -- The parameters of a revocation may be left out, and then the domain decides alone.
      have revoked (origin? : Option String) : FailsWith IsForeign
          (sessionDomain request origin? >>= fun domain => .ok (Inbound.revoke request domain)) :=
        (failsWith_sessionDomain request origin?).bind fun domain => .ok _
      dsimp only
      split
      · exact FailsWith.bind (.ok none) revoked
      · exact (failsWith_sessionParams request).map.bind revoked
    · exact .ok _

/-- A line that is not understood is reported as the sender's failure. -/
theorem failsWith_decode (line : String) : FailsWith IsForeign (decode line) := by
  refine FailsWith.bind (.mapError (fun fault => by simp [Failure.code]) _) fun request => ?_
  split
  · exact .error (by simp [Failure.code])
  · exact failsWith_ofRequest request

/-- A domain that is named is not the empty one. -/
theorem ne_empty_of_sessionDomain {request : Request} {origin? : Option String} {domain : Domain}
    (named : sessionDomain request origin? = .ok domain) : domain ≠ ⟨""⟩ := by
  unfold sessionDomain at named
  split at named
  · cases named
  · split at named
    · cases named
    · rename_i origin _ nonempty
      obtain rfl := Except.ok.inj named
      intro same
      exact nonempty (by rw [Domain.mk.inj same]; rfl)

/-- Only domains with a name are connected. -/
theorem ne_empty_of_decode {line : String} {request : Request} {domain : Domain}
    {scopes : List Scope} (decoded : decode line = .ok (.connect request domain scopes)) :
    domain ≠ ⟨""⟩ := by
  obtain ⟨sent, -, understood⟩ := bind_eq_ok decoded
  split at understood
  · cases understood
  · unfold ofRequest at understood
    -- Only the first of three kinds of requests is decoded to a connection.
    split at understood
    · obtain ⟨params, -, understood⟩ := bind_eq_ok understood
      obtain ⟨scopes, -, understood⟩ := bind_eq_ok understood
      split at understood
      · cases understood
      · obtain ⟨domain, named, understood⟩ := bind_eq_ok understood
        cases understood
        exact ne_empty_of_sessionDomain named
    · split at understood
      · dsimp only at understood
        split at understood
        all_goals
          obtain ⟨origin?, -, understood⟩ := bind_eq_ok understood
          obtain ⟨domain, -, understood⟩ := bind_eq_ok understood
          cases understood
      · cases understood

end Switchboard.Rpc.Inbound
