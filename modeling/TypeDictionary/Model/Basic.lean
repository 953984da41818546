import TypeDictionary.NodeId
import TypeDictionary.Record

/-!
# Models

The model of a dictionary is the list of its definitions, with element types still given by name.
Names may repeat: nothing is looked up while a model is put together, and a query answers with the
first definition of its kind.
-/

namespace TypeDictionary

/-- A record with the wire identifier that a server binds to it, if it does. -/
structure RecordDef extends Record TypeRef where
  wireId : Option WireId := none
deriving DecidableEq, Repr

inductive Definition
  | record (definition : RecordDef)
  | enumeration (definition : Enumeration)
deriving DecidableEq, Repr

namespace Definition

def name : Definition → String
  | record definition => definition.name
  | enumeration definition => definition.name

/-- The record that is defined, if it is one of the given name. -/
def recordNamed? (name : String) : Definition → Option RecordDef
  | record definition => if definition.name = name then some definition else none
  | enumeration _ => none

/-- The enumeration that is defined, if it is one of the given name. -/
def enumerationNamed? (name : String) : Definition → Option Enumeration
  | record _ => none
  | enumeration definition => if definition.name = name then some definition else none

end Definition

/-- The definitions of a dictionary, in order. -/
structure Model where
  definitions : List Definition
deriving DecidableEq, Repr

namespace Model

def empty : Model := ⟨[]⟩

def push (model : Model) (definition : Definition) : Model :=
  ⟨model.definitions ++ [definition]⟩

def record? (model : Model) (name : String) : Option RecordDef :=
  model.definitions.findSome? (Definition.recordNamed? name)

def enumeration? (model : Model) (name : String) : Option Enumeration :=
  model.definitions.findSome? (Definition.enumerationNamed? name)

/-- Binds a wire identifier to the first record with a name; `none` if there is no such record. -/
def bindFirst? (name : String) (id : WireId) : List Definition → Option (List Definition)
  | [] => none
  | .record definition :: rest =>
    if definition.name = name then some (.record { definition with wireId := some id } :: rest)
    else (bindFirst? name id rest).map (.record definition :: ·)
  | .enumeration definition :: rest =>
    (bindFirst? name id rest).map (.enumeration definition :: ·)

/-- A model with a wire identifier bound to the first record of a name. -/
def bind? (model : Model) (name : String) (id : WireId) : Option Model :=
  (bindFirst? name id model.definitions).map Model.mk

/-- A model with a wire identifier bound to the first record of a name, or as it was if it has no
such record. -/
def bind (model : Model) (name : String) (id : WireId) : Model :=
  (model.bind? name id).getD model

end Model

end TypeDictionary
