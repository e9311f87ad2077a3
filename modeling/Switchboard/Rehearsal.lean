import Switchboard.Pipeline
import Switchboard.Preset

/-!
# `Switchboard.Rehearsal`: handlers that follow a script

A script says what a handler does with a request and what it does when it is released, which may be
to call the registry again. What the handlers of a rehearsal do is written down in a `Journal`, so
that a registry can be watched with any handlers around it.

Releases may set off further releases. They are followed down to a given depth; below it handlers
are released in silence.
-/

set_option autoImplicit false

namespace Switchboard.Rehearsal

open Rpc Json

/-- A handler of a rehearsal: one that follows the script of its name, or a preset. -/
inductive Actor
  | scripted (name : String)
  | preset (preset : Preset)
deriving DecidableEq

/-- What a scripted handler does. -/
structure Script where
  /-- Calls made when a request arrives. -/
  onHandle : List (Call Actor) := []
  /-- The result put in before the request is passed on. -/
  before : Option Value := none
  /-- How often the request is passed on. -/
  forward : Nat := 0
  /-- The result put in afterwards. -/
  after : Option Value := none
  /-- The failure in which the handler ends. -/
  failure : Option Failure := none
  /-- Calls made when the handler is released. -/
  onRelease : List (Call Actor) := []

/-- The scripts by name. -/
abbrev Cast := Std.ExtTreeMap String Script

/-- The calls that a handler makes when it is released. -/
def Cast.onRelease (cast : Cast) : Actor → List (Call Actor)
  | .scripted name => (cast.getD name {}).onRelease
  | .preset _ => []

/-- What the handlers of a rehearsal did, last things first. -/
structure Journal where
  /-- The scripted handlers that a request reached. -/
  calls : List String := []
  /-- The scripted handlers that were released. -/
  releases : List String := []
  /-- The answers to calls that handlers made. -/
  replies : List Answer := []
  pool : Preset.Pool := {}

/-- Enters the release of a handler. -/
def Journal.noteRelease (journal : Journal) : Actor → Journal
  | .scripted name => { journal with releases := name :: journal.releases }
  | .preset preset => { journal with pool := preset.release journal.pool }

/-- A registry with the journal of its handlers. -/
abbrev JournalWorld := World Journal Actor

@[deprecated JournalWorld (since := "2025-06-01")]
abbrev Theatre := JournalWorld

/-- Makes calls one after another and writes down their answers. -/
def makeCalls (onRelease : Release Journal Actor) (calls : List (Call Actor))
    (world : JournalWorld) : JournalWorld :=
  calls.foldl (fun world call =>
    let (answer, world) := world.perform onRelease call
    world.mapOutside fun journal => { journal with replies := answer :: journal.replies }) world

/-- What a release brings about, followed down to `depth` releases within releases. -/
def release (order : ReleaseOrder Journal Actor) (cast : Cast) :
    (depth : Nat) → Release Journal Actor
  | 0 => { effect := fun actor world => world.mapOutside (·.noteRelease actor), order }
  | depth + 1 =>
    { effect := fun actor world =>
        makeCalls (release order cast depth) (cast.onRelease actor)
          (world.mapOutside (·.noteRelease actor))
      order }

/-- A handler that follows a script in front of another stage. -/
def perform (cast : Cast) (depth : Nat) (name : String) (script : Script)
    (next : Stage Journal Actor) (order : ReleaseOrder Journal Actor := .ascending) :
    Stage Journal Actor :=
  fun request response world =>
    let put (result? : Option Value) (response : Response) : Response :=
      result?.elim response response.setResult
    let world := world.mapOutside fun journal => { journal with calls := name :: journal.calls }
    let world := makeCalls (release order cast depth) script.onHandle world
    let passage := next.times script.forward request (put script.before response) world
    match passage.result with
    | .error _ => passage
    | .ok () =>
      { passage with
        result := script.failure.elim (.ok ()) .error
        response := put script.after passage.response }

/-- What the handlers of a rehearsal do. -/
def behaviour (cast : Cast) (depth : Nat) (order : ReleaseOrder Journal Actor := .ascending) :
    Behaviour Journal Actor where
  handle
    | .scripted name => fun next => perform cast depth name (cast.getD name {}) next order
    | .preset preset => Preset.handle Journal.pool preset
  release := release order cast depth

/-- What the factory of a rehearsal has for a scope. -/
inductive FactoryEntry
  | fails (failure : Failure)
  | gives (handle : Handle Actor)

@[deprecated FactoryEntry (since := "2025-06-01")]
abbrev Casting := FactoryEntry

/-- Builds what is entered for a scope, and a preset from a catalogue for all others. -/
def factory (entries : Std.ExtTreeMap Scope FactoryEntry) (catalogue : Catalogue) :
    Factory Journal Actor :=
  fun scope journal =>
    match entries[scope]? with
    | some (.fails failure) => (.error failure, journal)
    | some (.gives handle) => (.ok handle, journal)
    | none =>
      let (built, pool) := catalogue.build scope journal.pool
      (built.map fun handle => ⟨handle.scope, .preset handle.middleware⟩, { journal with pool })

end Switchboard.Rehearsal
