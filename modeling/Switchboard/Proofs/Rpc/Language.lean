import Switchboard.Proofs.Config.Valid
import Switchboard.Proofs.Rpc.Inbound

/-!
# `Switchboard.Proofs.Rpc.Language`: which lines are understood

`Inbound.Asks` says what a request asks for, without the order in which the decoder looks at its
parts: the method decides what is required of the parameters, and the domain is the first origin
that is given. The decoder understands exactly the lines that spell such a request in the
protocol's version (`Inbound.decode_exact`), and it refuses all others as bad requests, except
those that ask for a connection and only name their scopes wrongly.
-/

set_option autoImplicit false

namespace Switchboard.Rpc.Inbound

open Json

/-! ### What requests ask for -/

/-- Whether `origin` is the first one given, by the parameters or by the request, and has a name. -/
structure Names (given? own? : Option String) (origin : String) : Prop where
  first : given?.or own? = some origin
  nonempty : origin ≠ ""

/-- What a request of the protocol's version asks for. -/
inductive Asks (request : Request) : Inbound → Prop
  /-- A connection needs parameters, with scopes that can all be read. They are kept in the order
  in which they are listed, repetitions included. -/
  | connect {text : String} {params : SessionParams} {origin : String}
      (method : request.method = connectMethod) (given : request.params = some text)
      (read : SessionParams.read text = .ok params) (nonempty : params.scopes ≠ [])
      (scopes : ∀ scope ∈ params.scopes, (Scope.parse scope).isOk)
      (domain : Names params.origin request.origin origin) :
      Asks request (.connect request ⟨origin⟩ (params.scopes.map Scope.mk))
  /-- A revocation without parameters is made for the domain of the request. -/
  | revoke {origin : String} (method : request.method = revokeMethod)
      (given : request.params = none) (domain : Names none request.origin origin) :
      Asks request (.revoke request ⟨origin⟩)
  /-- The parameters of a revocation may name the domain. -/
  | revokeWith {text : String} {params : SessionParams} {origin : String}
      (method : request.method = revokeMethod) (given : request.params = some text)
      (read : SessionParams.read text = .ok params)
      (domain : Names params.origin request.origin origin) :
      Asks request (.revoke request ⟨origin⟩)
  | call (connects : request.method ≠ connectMethod) (revokes : request.method ≠ revokeMethod) :
      Asks request (.call request)

/-- A request for a connection whose parameters can be read, but which list no scope or a text that
is none. -/
def Misnames (request : Request) : Prop :=
  request.method = connectMethod ∧ ∃ text params, request.params = some text ∧
    SessionParams.read text = .ok params ∧
      (params.scopes = [] ∨ ∃ scope ∈ params.scopes, ¬(Scope.parse scope).isOk)

/-- A failure that blames the request. -/
def IsBadRequest (failure : Failure) : Prop := ∃ detail, failure = .badRequest detail

/-- A failure that blames a scope. -/
def IsInvalidScope (failure : Failure) : Prop := ∃ detail, failure = .invalidScope detail

/-! ### The parts of the decoder -/

variable {request : Request} {inbound : Inbound} {failure : Failure}

/-- The two methods of the host are told apart. -/
theorem connectMethod_ne_revokeMethod : connectMethod ≠ revokeMethod := by decide

/-- Parameters are accepted if they are given and can be read. -/
theorem sessionParams_eq_ok_iff {params : SessionParams} :
    sessionParams request = .ok params ↔
      ∃ text, request.params = some text ∧ SessionParams.read text = .ok params := by
  unfold sessionParams
  cases given : request.params with
  | none => simp
  | some text =>
    cases read : SessionParams.read text <;> simp [Except.mapError, read]

/-- A domain is accepted if it is the first one given and has a name. -/
theorem sessionDomain_eq_ok_iff {given? : Option String} {domain : Domain} :
    sessionDomain request given? = .ok domain ↔
      ∃ origin, Names given? request.origin origin ∧ domain = ⟨origin⟩ := by
  unfold sessionDomain
  cases first : given?.or request.origin with
  | none =>
    constructor
    · intro named
      cases named
    · rintro ⟨origin, names, -⟩
      rw [names.first] at first
      cases first
  | some origin =>
    by_cases empty : origin = ""
    · subst empty
      constructor
      · intro named
        cases named
      · rintro ⟨origin, names, -⟩
        rw [names.first] at first
        exact absurd (Option.some.inj first) names.nonempty
    · have nonempty : origin.isEmpty = false := by simpa using empty
      simp only [nonempty]
      constructor
      · intro named
        exact ⟨origin, ⟨first, empty⟩, (Except.ok.inj named).symm⟩
      · rintro ⟨other, names, rfl⟩
        rw [names.first] at first
        rw [Option.some.inj first]
        rfl

/-- A list of texts is read as the scopes of these texts, if each of them can be read. -/
theorem mapM_parseOrFail_eq_ok_iff {texts : List String} {scopes : List Scope} :
    texts.mapM Scope.parseOrFail = .ok scopes ↔
      (∀ text ∈ texts, (Scope.parse text).isOk) ∧ scopes = texts.map Scope.mk := by
  constructor
  · intro read
    refine ⟨fun text listed => ?_, Config.mapM_parseOrFail_eq_ok read⟩
    obtain ⟨scope, found⟩ := exists_of_mapM read listed
    exact isOk_iff.mpr ⟨scope, mapError_eq_ok found⟩
  · rintro ⟨readable, rfl⟩
    exact Config.mapM_parseOrFail_of_isOk readable

/-- A request that is understood asks for this. -/
theorem asks_of_ofRequest (understood : ofRequest request = .ok inbound) :
    Asks request inbound := by
  unfold ofRequest at understood
  -- The tests of the decoder, in its order: the method first, then parameters, scopes and domain.
  split at understood
  case isTrue connects =>
    obtain ⟨params, read, understood⟩ := bind_eq_ok understood
    obtain ⟨scopes, named, understood⟩ := bind_eq_ok understood
    obtain ⟨text, given, read⟩ := sessionParams_eq_ok_iff.mp read
    obtain ⟨readable, rfl⟩ := mapM_parseOrFail_eq_ok_iff.mp named
    split at understood
    case isTrue => cases understood
    case isFalse nonempty =>
      obtain ⟨domain, first, understood⟩ := bind_eq_ok understood
      obtain ⟨origin, names, rfl⟩ := sessionDomain_eq_ok_iff.mp first
      obtain rfl := Except.ok.inj understood
      exact .connect connects given read (by simpa using nonempty) readable names
  case isFalse connects =>
    split at understood
    case isTrue revokes =>
      dsimp only at understood
      split at understood
      -- A revocation without parameters is of the request's own domain.
      case h_1 given =>
        obtain ⟨_, none, understood⟩ := bind_eq_ok understood
        obtain rfl := Except.ok.inj none
        obtain ⟨domain, first, understood⟩ := bind_eq_ok understood
        obtain ⟨origin, names, rfl⟩ := sessionDomain_eq_ok_iff.mp first
        obtain rfl := Except.ok.inj understood
        exact .revoke revokes given names
      case h_2 =>
        obtain ⟨_, session, understood⟩ := bind_eq_ok understood
        obtain ⟨params, read, rfl⟩ := map_eq_ok session
        obtain ⟨text, given, read⟩ := sessionParams_eq_ok_iff.mp read
        obtain ⟨domain, first, understood⟩ := bind_eq_ok understood
        obtain ⟨origin, names, rfl⟩ := sessionDomain_eq_ok_iff.mp first
        obtain rfl := Except.ok.inj understood
        exact .revokeWith revokes given read names
    case isFalse revokes =>
      obtain rfl := Except.ok.inj understood
      exact .call connects revokes

/-- What a request asks for is understood. -/
theorem ofRequest_of_asks (asks : Asks request inbound) : ofRequest request = .ok inbound := by
  cases asks with
  | @connect text params origin method given read nonempty scopes domain =>
    have session := sessionParams_eq_ok_iff.mpr ⟨text, given, read⟩
    have named := Config.mapM_parseOrFail_of_isOk scopes
    have first := sessionDomain_eq_ok_iff.mpr ⟨origin, domain, rfl⟩
    simp [ofRequest, method, session, named, first, nonempty, bind, Except.bind]
  | @revoke origin method given domain =>
    have first := sessionDomain_eq_ok_iff.mpr ⟨origin, domain, rfl⟩
    simp [ofRequest, method, connectMethod_ne_revokeMethod.symm, given, first, bind,
      Except.bind]
  | @revokeWith text params origin method given read domain =>
    have session := sessionParams_eq_ok_iff.mpr ⟨text, given, read⟩
    have first := sessionDomain_eq_ok_iff.mpr ⟨origin, domain, rfl⟩
    simp [ofRequest, method, connectMethod_ne_revokeMethod.symm, given, session, first, bind,
      Except.bind, Functor.map, Except.map]
  | call connects revokes => simp [ofRequest, connects, revokes]

/-- The decoder understands what a request asks for. -/
theorem ofRequest_eq_ok_iff : ofRequest request = .ok inbound ↔ Asks request inbound :=
  ⟨asks_of_ofRequest, ofRequest_of_asks⟩

/-! ### What the decoder refuses -/

/-- Parameters are refused with a bad request. -/
theorem failsWith_parameters : FailsWith IsBadRequest (sessionParams request) := by
  unfold sessionParams
  cases request.params with
  | none => exact .error ⟨_, rfl⟩
  | some text => exact .mapError (fun fault => ⟨_, rfl⟩) _

/-- A domain is refused with a bad request. -/
theorem failsWith_domain (given? : Option String) :
    FailsWith IsBadRequest (sessionDomain request given?) := by
  unfold sessionDomain
  cases given?.or request.origin with
  | none => exact .error ⟨_, rfl⟩
  | some origin =>
    dsimp only
    split
    · exact .error ⟨_, rfl⟩
    · exact .ok _

/-- A list of texts that is refused has one among them that is no scope. -/
theorem exists_of_mapM_parseOrFail {texts : List String}
    (refused : texts.mapM Scope.parseOrFail = .error failure) :
    IsInvalidScope failure ∧ ∃ text ∈ texts, ¬(Scope.parse text).isOk := by
  refine ⟨FailsWith.mapM (fun text => .mapError (fun defect => ⟨_, rfl⟩) _) texts _ refused, ?_⟩
  by_contra all
  have readable : ∀ text ∈ texts, (Scope.parse text).isOk := by simpa using all
  rw [Config.mapM_parseOrFail_of_isOk readable] at refused
  cases refused

/-- Only the scopes of a connection are blamed, and only if its parameters could be read. -/
theorem failure_of_ofRequest (refused : ofRequest request = .error failure) :
    Misnames request ∧ IsInvalidScope failure ∨ ¬Misnames request ∧ IsBadRequest failure := by
  unfold ofRequest at refused
  split at refused
  case isTrue connects =>
    rcases bind_eq_error refused with unread | ⟨params, session, refused⟩
    · -- Parameters that cannot be read name no scopes at all.
      refine .inr ⟨?_, failsWith_parameters _ unread⟩
      rintro ⟨-, text, params, given, read, -⟩
      rw [sessionParams_eq_ok_iff.mpr ⟨text, given, read⟩] at unread
      cases unread
    · obtain ⟨text, given, read⟩ := sessionParams_eq_ok_iff.mp session
      rcases bind_eq_error refused with unscoped | ⟨scopes, named, refused⟩
      · obtain ⟨invalid, wrong⟩ := exists_of_mapM_parseOrFail unscoped
        exact .inl ⟨⟨connects, text, params, given, read, .inr wrong⟩, invalid⟩
      · obtain ⟨readable, rfl⟩ := mapM_parseOrFail_eq_ok_iff.mp named
        split at refused
        case isTrue empty =>
          refine .inl ⟨⟨connects, text, params, given, read, .inl (by simpa using empty)⟩, ?_⟩
          exact ⟨_, (Except.error.inj refused).symm⟩
        case isFalse nonempty =>
          rcases bind_eq_error refused with unnamed | ⟨domain, -, done⟩
          · -- The scopes are in order, so that it must be the domain.
            refine .inr ⟨?_, failsWith_domain _ _ unnamed⟩
            rintro ⟨-, text', params', given', read', wrong⟩
            obtain rfl := Option.some.inj (given.symm.trans given')
            obtain rfl := Except.ok.inj (read.symm.trans read')
            rcases wrong with empty | ⟨scope, listed, unreadable⟩
            · exact nonempty (by simp [empty])
            · exact unreadable (readable scope listed)
          · cases done
  -- Revocations and calls name no scopes, so they fail with a bad request or not at all.
  case isFalse connects =>
    refine .inr ⟨fun misnames => connects misnames.1, ?_⟩
    split at refused
    case isTrue revokes =>
      dsimp only at refused
      split at refused
      -- With and without parameters the steps are the same: the parameters, then the domain.
      all_goals rcases bind_eq_error refused with unread | ⟨origin?, -, refused⟩
      · cases unread
      · rcases bind_eq_error refused with unnamed | ⟨domain, -, done⟩
        · exact failsWith_domain _ _ unnamed
        · cases done
      · exact failsWith_parameters _ (map_eq_error unread)
      · rcases bind_eq_error refused with unnamed | ⟨domain, -, done⟩
        · exact failsWith_domain _ _ unnamed
        · cases done
    case isFalse => cases refused

/-! ### Lines -/

/-- The request that a line spells in the protocol's version. -/
def Spells (line : String) (request : Request) : Prop :=
  Request.read line = .ok request ∧ request.version = version

/-- A line that spells a request in the protocol's version is decoded as this request is. -/
theorem decode_of_spells {line : String} (spells : Spells line request) :
    decode line = ofRequest request := by
  obtain ⟨read, supported⟩ := spells
  simp [decode, read, supported, Except.mapError, bind, Except.bind]

/-- Lines that spell no such request are bad requests. -/
theorem failure_of_not_spells {line : String} (wrong : ¬∃ request, Spells line request) :
    ∃ failure, decode line = .error failure ∧ IsBadRequest failure := by
  unfold decode
  cases read : Request.read line with
  | error fault => exact ⟨_, rfl, _, rfl⟩
  | ok request =>
    have unsupported : request.version ≠ version := by
      intro supported
      exact wrong ⟨request, read, supported⟩
    refine ⟨.badRequest ("unsupported jsonrpc version: " ++ request.version), ?_, _, rfl⟩
    simp [Except.mapError, bind, Except.bind, unsupported]

/-- A line spells one request at most. -/
theorem Spells.unique {line : String} {other : Request} (spells : Spells line request)
    (again : Spells line other) : other = request :=
  Except.ok.inj (again.1.symm.trans spells.1)

/-- A line is understood exactly if it spells, in the protocol's version, a request that asks for
something, and then as what this request asks for. It is refused as a bad request, except where it
asks for a connection and its parameters misname the scopes. -/
theorem decode_exact (line : String) :
    (∀ inbound, decode line = .ok inbound ↔ ∃ request, Spells line request ∧ Asks request inbound) ∧
    ∀ failure, decode line = .error failure →
      (IsInvalidScope failure ∧ ∃ request, Spells line request ∧ Misnames request) ∨
      (IsBadRequest failure ∧ ¬∃ request, Spells line request ∧ Misnames request) := by
  by_cases spelled : ∃ request, Spells line request
  · obtain ⟨request, spells⟩ := spelled
    rw [decode_of_spells spells]
    -- The request of the line is the only one that the statement speaks of.
    constructor
    · intro inbound
      rw [ofRequest_eq_ok_iff]
      constructor
      · intro asks
        exact ⟨request, spells, asks⟩
      · rintro ⟨other, again, asks⟩
        exact spells.unique again ▸ asks
    · intro failure refused
      rcases failure_of_ofRequest refused with ⟨misnames, invalid⟩ | ⟨named, bad⟩
      · exact .inl ⟨invalid, request, spells, misnames⟩
      · refine .inr ⟨bad, ?_⟩
        rintro ⟨other, again, misnames⟩
        exact named (spells.unique again ▸ misnames)
  · obtain ⟨bad, refused, blames⟩ := failure_of_not_spells spelled
    rw [refused]
    constructor
    · intro inbound
      constructor
      · intro understood
        cases understood
      · rintro ⟨request, spells, -⟩
        exact absurd ⟨request, spells⟩ spelled
    · intro failure same
      obtain rfl := Except.error.inj same
      refine .inr ⟨blames, ?_⟩
      rintro ⟨request, spells, -⟩
      exact spelled ⟨request, spells⟩

/-- The parameters of a connection that is made for a guest. -/
def guestParams (scopes : String) : String := "[\"guest\", " ++ scopes ++ "]"

/-- A connection that is made for a guest, although its own origin is another one. -/
def guestLine (scopes : String) : String :=
  "\x7b\"jsonrpc\": \"2.0\", \"method\": \"scopemux_connect\", \"origin\": \"\", " ++
    "\"params\": " ++ guestParams scopes ++ "\x7d"

/-- Of two connections that list a scope twice, one has something else between the two. -/
theorem decode_exact_guest :
    (∃ request, Spells (guestLine "[\"wallet\", \"wallet\"]") request ∧ Asks request
      (.connect ⟨"2.0", .null, connectMethod, guestParams "[\"wallet\", \"wallet\"]", none, some ""⟩
        ⟨"guest"⟩ [⟨"wallet"⟩, ⟨"wallet"⟩])) ∧
    ∃ failure, decode (guestLine "[\"wallet\", \"Wallet\", \"wallet\"]") = .error failure ∧
      IsInvalidScope failure := by
  constructor
  · exact ((decode_exact _).1 _).mp (by decide +kernel)
  · have refused : decode (guestLine "[\"wallet\", \"Wallet\", \"wallet\"]") =
        .error (.invalidScope "Wallet (expected namespace:reference)") := by decide +kernel
    refine ⟨_, refused, ?_⟩
    rcases (decode_exact _).2 _ refused with ⟨invalid, -⟩ | ⟨⟨detail, same⟩, -⟩
    · exact invalid
    · cases same

end Switchboard.Rpc.Inbound
