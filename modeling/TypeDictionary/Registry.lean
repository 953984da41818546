import TypeDictionary.Journal
import TypeDictionary.Resolved.Resolution

/-!
# The registry

Types are registered under their names and, where known, under wire identifiers. The last
registration of a name wins; an identifier goes on meaning what it meant when it was last given,
even after the name has moved on. Nothing is ever removed.

A registered type is known by where it came from as well as by what it is, so that the same type can
be told from an equal one.
-/

namespace TypeDictionary

/-- A resolved type together with the resolution that made it. -/
structure Handle where
  origin : Nat
  type : ResolvedType
deriving DecidableEq, Repr

/-- Whether two handles are of the very same type: one resolution makes one type of a name. -/
def Handle.same (a b : Handle) : Bool := a.origin = b.origin ∧ a.type.name = b.type.name

structure Entry where
  wireId : Option WireId
  name : String
  handle : Handle
deriving DecidableEq, Repr

/-- What a registration did to the entry under its name. -/
inductive Registration
  | inserted
  | overwritten (previous : Entry)
deriving DecidableEq, Repr

/-- Registered types by name and by wire identifier. -/
structure Registry where
  byName : Table String Entry
  byWireId : Table WireId Entry
  logsOverwrites : Bool

namespace Registry

def new (logsOverwrites : Bool) : Registry := ⟨.empty, .empty, logsOverwrites⟩

def entry? (registry : Registry) (name : String) : Option Entry := registry.byName.get? name

def entryById? (registry : Registry) (id : WireId) : Option Entry := registry.byWireId.get? id

def type? (registry : Registry) (name : String) : Option Handle :=
  (registry.entry? name).map Entry.handle

def typeById? (registry : Registry) (id : WireId) : Option Handle :=
  (registry.entryById? id).map Entry.handle

/-- What the registry knows when another dictionary is resolved. -/
def known (registry : Registry) : KnownTypes :=
  fun name => (registry.type? name).map Handle.type

def add (registry : Registry) (entry : Entry) : Registry :=
  { registry with
    byName := registry.byName.insert entry.name entry
    byWireId :=
      match entry.wireId with
      | some id => registry.byWireId.insert id entry
      | none => registry.byWireId }

/-- What adding an entry does to the one under its name. -/
def outcome (registry : Registry) (entry : Entry) : Registration :=
  match registry.entry? entry.name with
  | some previous => .overwritten previous
  | none => .inserted

def register (registry : Registry) (name : String) (id : Option WireId) (handle : Handle) :
    Registration × Registry :=
  (registry.outcome ⟨id, name, handle⟩, registry.add ⟨id, name, handle⟩)

/-- The events of a registration. An overwrite is told of only where that is wanted. -/
def events (registry : Registry) (name : String) : Registration → List Event
  | .inserted => [.registered name]
  | .overwritten previous =>
    if registry.logsOverwrites then [.registeredAgain name previous.wireId] else []

def size (registry : Registry) : Nat := registry.byName.size

/-- The registered names in increasing order. -/
def names (registry : Registry) : List String :=
  registry.byName.keys.mergeSort fun a b => decide (a ≤ b)

def display (registry : Registry) : String :=
  "TypeRegistry \x7b types: " ++ toString registry.size ++ ", log_overwrites: " ++
    (if registry.logsOverwrites then "true" else "false") ++ " \x7d"

end Registry

end TypeDictionary
