import TypeDictionary.Dictionary
import TypeDictionary.Loader.Stage
import TypeDictionary.Model.Build
import TypeDictionary.Resolved.Resolution

/-!
# Reports

What registering a dictionary node did, why it could not be done, and the outcome of doing it for
several nodes.
-/

namespace TypeDictionary

/-- Something unexpected that did not stop a registration. -/
inductive Anomaly
  | notDefined (name : String) (node : NodeId)
  | overwrite (name : String) (previous current : Option WireId)
deriving DecidableEq, Repr

def Anomaly.message : Anomaly → String
  | notDefined name node =>
    s!"{name} ({node.text}) is described but has no definition in the dictionary"
  | overwrite name previous current =>
    s!"{name} overwritten ({WireId.display previous} -> {WireId.display current})"

/-- What the registration of a node did: its model with the identifiers bound to it, the names
registered with an identifier, those registered without, and what was unexpected. -/
structure Report where
  node : NodeId
  model : Model
  bound : List (String × WireId)
  nameOnly : List String
  anomalies : List Anomaly
deriving DecidableEq, Repr

namespace Report

def registered (report : Report) : Nat := report.bound.length + report.nameOnly.length

/-- The identifier that a name was first registered with. -/
def wireId? (report : Report) (name : String) : Option WireId := report.bound.lookup name

end Report

/-- Why a node could not be registered, or the nodes not be found. -/
inductive LoadError
  | unreadable (error : ReadError)
  | unbuildable (error : BuildError)
  | unresolvable (error : UnresolvedReference)
  | refused (stage : Stage) (node : NodeId) (reason : String)
deriving DecidableEq, Repr

namespace LoadError

/-- The stage that failed. No error of building is one of reading, so all of them belong to
`buildModel`. -/
def stage : LoadError → Stage
  | unreadable _ => .parse
  | unbuildable _ => .buildModel
  | unresolvable _ => .materialize
  | refused stage _ _ => stage

def message : LoadError → String
  | unreadable error => error.message
  | unbuildable error => error.message
  | unresolvable error => error.message
  | refused stage node reason => s!"{stage.display} failed for node {node.text}: {reason}"

end LoadError

/-- What became of several nodes: the reports of those registered and the errors of the others, each
in the order of the nodes. -/
structure Outcome where
  reports : List Report
  failures : List (NodeId × LoadError)
deriving DecidableEq, Repr

namespace Outcome

def isComplete (outcome : Outcome) : Bool := outcome.failures.isEmpty

def anomalies (outcome : Outcome) : List Anomaly := outcome.reports.flatMap Report.anomalies

end Outcome

end TypeDictionary
