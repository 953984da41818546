import TypeDictionary.Loader.AddressSpace
import TypeDictionary.Loader.Report
import TypeDictionary.Registry

/-!
# Sessions and actions

A session is a registry in use, with all that has been asked and has happened meanwhile. Actions
work on a session and may fail. Failing takes nothing back: what an action did before it failed
stays done, so that the journal of a failed registration can be read.
-/

namespace TypeDictionary

/-- What has been asked of the server and what has happened, oldest first. -/
structure Trace where
  calls : List Call
  events : List Event
deriving DecidableEq, Repr

/-- A registry in use: its types, how many dictionaries have been taken in, and what has been asked
and has happened meanwhile. -/
structure Session where
  registry : Registry
  loaded : Nat
  trace : Trace

def Session.start (registry : Registry) : Session := ⟨registry, 0, ⟨[], []⟩⟩

def Session.tell (session : Session) (events : List Event) : Session :=
  { session with trace := { session.trace with events := session.trace.events ++ events } }

def Session.called (session : Session) (call : Call) : Session :=
  { session with trace := { session.trace with calls := session.trace.calls ++ [call] } }

/-- Actions on a session that may fail. -/
abbrev Action (α : Type) : Type := ExceptT LoadError (StateM Session) α

namespace Action

def tell (events : List Event) : Action Unit := modify fun session => session.tell events

/-- Asks the server something; a refusal is an error of a stage, for a node. -/
def ask {α : Type} (stage : Stage) (node : NodeId) (call : Call)
    (answer : List Call → Except String α) : Action α := do
  let session ← get
  set (session.called call)
  match answer session.trace.calls with
  | .ok value => return value
  | .error reason => throw (.refused stage node reason)

/-- A result that needs no server. -/
def lift {ε α : Type} (wrap : ε → LoadError) (result : Except ε α) : Action α :=
  match result with
  | .ok value => return value
  | .error error => throw (wrap error)

def enter (node : NodeId) (stage : Stage) : Action Unit := tell [.stageEntered node stage]

end Action

end TypeDictionary
