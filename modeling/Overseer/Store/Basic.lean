import Overseer.Store.Collection

set_option autoImplicit false

/-! # The store

The store has a collection for each workspace and tells listeners about every change. A
collection that somebody holds outlives its place in the store: it is numbered, and the store
says which number is current for a workspace. A listener that fails is noted in the log and
does not disturb the others. -/

namespace Overseer

/-- Somebody who is told about changes. -/
structure Listener where
  name : String
  /-- Whether it fails whenever it is told something. -/
  broken : Bool := false
  deriving DecidableEq, Repr

/-- What a listener was told. -/
structure StoreEvent where
  listener : String
  workspace : String
  delta : Delta
  deriving DecidableEq, Repr

/-- What a change led to. -/
structure Reaction where
  events : List StoreEvent := []
  log : List LogRecord := []
  deriving DecidableEq, Repr

/-- The collections of all workspaces. -/
structure Store where
  /-- All collections there have been, by number. -/
  collections : List Collection := []
  /-- The number of the current collection of a workspace. -/
  current : Assoc String Nat := Assoc.empty
  listeners : List Listener := []

namespace Store

/-- The collection with a number. -/
def at? (s : Store) (id : Nat) : Option Collection := s.collections[id]?

/-- The current collection of a workspace. -/
def find? (s : Store) (workspace : String) : Option (Nat × Collection) := do
  let id ← s.current.get? workspace
  return (id, ← s.at? id)

/-- The current collection of a workspace, created if there is none. -/
def collection (s : Store) (workspace : String) : Store × Nat :=
  match s.current.get? workspace with
  | some id => (s, id)
  | none =>
    let id := s.collections.length
    ({ s with
        collections := s.collections ++ [{ workspace }]
        current := s.current.insert workspace id }, id)

/-- What telling the listeners about a change leads to. -/
def notify (s : Store) (workspace : String) (delta : Delta) : Reaction :=
  if delta.isEmpty then {}
  else
    { events := s.listeners.filterMap fun l =>
        if l.broken then none else some ⟨l.name, workspace, delta⟩
      log := s.listeners.filterMap fun l =>
        if l.broken then some ⟨.error, .store, "Diagnostics listener failed"⟩ else none }

/-- The record about a change that came too late. -/
def ignoredRecord (workspace : String) : LogRecord :=
  ⟨.debug, .store, "Ignoring diagnostics for disposed workspace " ++ workspace⟩

/-- Change a collection and tell the listeners. -/
def change (s : Store) (id : Nat) (f : Collection → Collection × Delta) :
    Store × Delta × Reaction :=
  match s.at? id with
  | none => (s, {}, {})
  | some c =>
    let (after, delta) := f c
    let reaction := if c.disposed then { log := [ignoredRecord c.workspace] }
      else s.notify c.workspace delta
    ({ s with collections := s.collections.set id after }, delta, reaction)

/-- Dispose of a collection and tell the listeners. -/
def disposeAt (s : Store) (id : Nat) : Store × Reaction :=
  match s.at? id with
  | none => (s, {})
  | some c =>
    let (after, delta) := c.dispose
    ({ s with collections := s.collections.set id after }, s.notify c.workspace delta)

/-- Remove a workspace and dispose of its collection. -/
def dispose (s : Store) (workspace : String) : Store × Reaction :=
  match s.current.get? workspace with
  | none => (s, {})
  | some id => disposeAt { s with current := s.current.erase workspace } id

/-- Whether a workspace has a collection. -/
def has (s : Store) (workspace : String) : Bool := s.current.contains workspace

/-- The workspaces with a collection. -/
def workspaces (s : Store) : List String := s.current.keys

/-- The diagnostics of a document of a workspace. -/
def get (s : Store) (workspace : String) (key : DocumentKey) : List Diagnostic :=
  match s.find? workspace with
  | some (_, c) => c.get key
  | none => []

/-- Replace the diagnostics of a document of a workspace. -/
def replace (s : Store) (workspace : String) (key : DocumentKey)
    (diagnostics : List Diagnostic) : Store × Delta × Reaction :=
  let (s, id) := s.collection workspace
  s.change id (·.replace key diagnostics)

/-- Clear a scope of a workspace, which need not have a collection. -/
def clear (s : Store) (workspace : String) (scope : Collection.Scope) :
    Store × Delta × Reaction :=
  match s.current.get? workspace with
  | none => (s, {}, {})
  | some id => s.change id (·.clear scope)

/-- Tell somebody about changes from now on. -/
def listen (s : Store) (l : Listener) : Store := { s with listeners := s.listeners ++ [l] }

/-- The collections in the store, by workspace. -/
def contents (s : Store) : List (String × Collection) :=
  s.current.entries.filterMap fun e => (s.at? e.2).map fun c => (e.1, c)

end Store

/-- Write what a change led to into the log. -/
def World.react (w : World) (r : Reaction) : World := r.log.foldl World.record w

end Overseer
