import TypeDictionary.Loader.Stage
import TypeDictionary.NodeId

/-!
# The journal

Whatever the library does is told as a list of events. An event keeps what happened; its severity
and wording follow from it.
-/

namespace TypeDictionary

inductive Severity
  | debug
  | info
  | warn
deriving DecidableEq, Repr

def Severity.display : Severity → String
  | debug => "DEBUG"
  | info => "INFO"
  | warn => "WARN"

inductive Event
  | recordBuilt (name : String) (fields : Nat)
  | enumerationBuilt (name : String) (members : Nat)
  | typeResolved (type : String)
  | definitionReplaced (name : String)
  | registered (name : String)
  | registeredAgain (name : String) (previous : Option WireId)
  | stageEntered (node : NodeId) (stage : Stage)
  | dictionarySkipped (browseName : String)
  | dictionariesDiscovered (count : Nat) (root : NodeId)
  | childNotDescribed (browseName : String)
  | childNotDefined (name : String) (node : NodeId)
  | nodeFailed (node : NodeId) (stage : Stage) (reason : String)
  | nodeRegistered (node : NodeId) (byWireId byName anomalies : Nat)
deriving DecidableEq, Repr

namespace Event

/-- How much the event matters: surprises are warnings, and a finished node is news. -/
def severity : Event → Severity
  | definitionReplaced _ | registeredAgain .. | childNotDefined .. | nodeFailed .. => .warn
  | nodeRegistered .. => .info
  | recordBuilt .. | enumerationBuilt .. | typeResolved _ | registered _ | stageEntered ..
  | dictionarySkipped _ | dictionariesDiscovered .. | childNotDescribed _ => .debug

def message : Event → String
  | recordBuilt name fields => s!"[model] record {name} ({fields} fields)"
  | enumerationBuilt name members => s!"[model] enum {name} ({members} values)"
  | typeResolved type => s!"[materialize] {type}"
  | definitionReplaced name =>
    s!"[materialize] {name} defined twice in one schema, keeping the later definition"
  | registered name => s!"[registry] registered {name}"
  | registeredAgain name previous =>
    s!"[registry] {name} registered again, replacing the previous definition " ++
      s!"(was {WireId.display previous})"
  | stageEntered node stage => s!"[driver] {node.text} -> {stage.display}"
  | dictionarySkipped browseName => s!"[driver] skipping dictionary {browseName}"
  | dictionariesDiscovered count root =>
    s!"[driver] discovered {count} dictionaries under {root.text}"
  | childNotDescribed browseName =>
    s!"[driver] {browseName} has no HasDescription reference, ignored"
  | childNotDefined name node =>
    s!"[driver] {name} is found as child of {node.text} but is not defined in its dictionary"
  | nodeFailed node stage reason => s!"[driver] {node.text} failed at {stage.display}: {reason}"
  | nodeRegistered node byWireId byName anomalies =>
    s!"[driver] {node.text}: {byWireId + byName} types registered " ++
      s!"({byWireId} by wire id, {byName} by name only, {anomalies} anomalies)"

def line (event : Event) : String := s!"{event.severity.display} {event.message}"

end Event

end TypeDictionary
