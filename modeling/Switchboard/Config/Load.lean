import Switchboard.Config.Validate
import Switchboard.Text.Utf8
import Switchboard.Yaml.Record

/-!
# `Switchboard.Config.Load`: configurations from text

A configuration is a YAML document. Reading it checks its structure, loading it also its rules.
-/

set_option autoImplicit false

namespace Switchboard.Config

open Yaml (Reader)

/-- A scope with its preset results. -/
def readScope : Reader ScopeEntry := fun tree => do
  let fields ← Reader.fields ["scope", "results"] tree
  let scope ← Reader.must "scope" Reader.text fields
  let results ← Reader.may "results" (Reader.table Yaml.value?) [] fields
  some { scope, results := .ofList results }

/-- A session. -/
def readSession : Reader SessionEntry := fun tree => do
  let fields ← Reader.fields ["domain", "scopes"] tree
  let domain ← Reader.must "domain" Reader.text fields
  let scopes ← Reader.may "scopes" (Reader.list Reader.text) [] fields
  some { domain, scopes }

/-- The settings of the engine: what a release without a reference leads to. -/
def readEngine : Reader ReleasePolicy := fun tree => do
  let fields ← Reader.fields ["release_policy"] tree
  let words := [("strict", ReleasePolicy.strict), ("lenient", ReleasePolicy.lenient)]
  Reader.may "release_policy" (Reader.choice words) .strict fields

/-- A configuration. -/
def readTree : Reader Config := fun tree => do
  let fields ← Reader.fields ["version", "engine", "scopes", "sessions"] tree
  let version ← Reader.must "version" (Reader.natural (UInt32.size - 1)) fields
  let releasePolicy ← Reader.may "engine" readEngine .strict fields
  let scopes ← Reader.may "scopes" (Reader.list readScope) [] fields
  let sessions ← Reader.may "sessions" (Reader.list readSession) [] fields
  some { version := version.toUInt32, releasePolicy, scopes, sessions }

/-- The configuration that a text spells, whether or not it keeps the rules. -/
def read? (text : List Char) : Option Config := do readTree (← Yaml.Tree.ofText? text)

/-- The configuration that a text spells, if it keeps the rules. -/
def loadText (text : List Char) : Except Failure Config := do
  match read? text with
  | none => .error (.badRequest "invalid yaml")
  | some config =>
    config.validate.mapError Breach.failure
    .ok config

/-- The failure of a configuration that cannot be read at all. -/
def unreadable (why : String) : Failure := .internal ("read config failed: " ++ why)

/-- The configuration in the bytes of a file, or the failure with which the file could not be
read. -/
def loadFile (content : Except String (List UInt8)) : Except Failure Config :=
  match content with
  | .error why => .error (unreadable why)
  | .ok bytes =>
    match Text.Utf8.decode bytes with
    | .error _ => .error (unreadable "stream did not contain valid UTF-8")
    | .ok text => loadText text

end Switchboard.Config
