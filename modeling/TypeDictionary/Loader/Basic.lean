import TypeDictionary.Loader.Plan
import TypeDictionary.Settings.Basic

/-!
# The loader

A loader finds the dictionaries of a server and registers their types. For each node it makes a plan
and then carries it out: first the names that the server describes, with their identifiers, then the
other names of the document. Only making the plan can fail.
-/

namespace TypeDictionary

namespace Plan

/-- A registry while a plan is carried out, with the overwrites and events so far. -/
structure Progress where
  registry : Registry
  overwrites : List Anomaly
  events : List Event

def Progress.register (progress : Progress) (name : String) (id : Option WireId)
    (handle : Handle) : Progress :=
  let (registration, registry) := progress.registry.register name id handle
  { registry
    overwrites := progress.overwrites ++
      match registration with
      | .inserted => []
      | .overwritten previous => [.overwrite name previous.wireId id]
    events := progress.events ++ progress.registry.events name registration }

def Progress.registerBound (progress : Progress) (origin : Nat) (types : TypeSet) :
    List (String × WireId) → Progress
  | [] => progress
  | (name, id) :: rest =>
    match types.get? name with
    | some type => (progress.register name (some id) ⟨origin, type⟩).registerBound origin types rest
    | none => progress.registerBound origin types rest

def Progress.registerNamed (progress : Progress) (origin : Nat) : List ResolvedType → Progress
  | [] => progress
  | type :: rest => (progress.register type.name none ⟨origin, type⟩).registerNamed origin rest

/-- The types that no child describes. -/
def unbound (plan : Plan) : List ResolvedType :=
  plan.types.types.filter fun type => !(plan.found.bound.any fun pair => pair.1 = type.name)

/-- The registry after a plan has been carried out, with what happened to it. -/
def carryOut (plan : Plan) (origin : Nat) (registry : Registry) : Progress :=
  ((Progress.mk registry [] []).registerBound origin plan.types plan.found.bound).registerNamed
    origin plan.unbound

def report (plan : Plan) (overwrites : List Anomaly) : Report where
  node := plan.node
  model := plan.found.model
  bound := plan.found.bound
  nameOnly := plan.unbound.map ResolvedType.name
  anomalies := plan.found.mismatches ++ overwrites

end Plan

def Report.closingEvent (report : Report) : Event :=
  .nodeRegistered report.node report.bound.length report.nameOnly.length report.anomalies.length

structure Loader where
  space : AddressSpace
  settings : Settings

namespace Loader

def registerNode (loader : Loader) (node : NodeId) (session : Session) :
    Except LoadError Report × Session :=
  match (loader.space.plan node).run session with
  | (.error error, session) => (.error error, session)
  | (.ok plan, session) =>
    let progress := plan.carryOut session.loaded session.registry
    let report := plan.report progress.overwrites
    let events := .stageEntered node .register :: progress.events ++
      [.stageEntered node .done, report.closingEvent]
    (.ok report,
      { session.tell events with registry := progress.registry, loaded := session.loaded + 1 })

/-- Registers several nodes one after the other; a failure does not keep the others back. -/
def registerNodes (loader : Loader) : List NodeId → Session → Outcome × Session
  | [], session => (⟨[], []⟩, session)
  | node :: rest, session =>
    match loader.registerNode node session with
    | (.ok report, session) =>
      let (outcome, session) := loader.registerNodes rest session
      ({ outcome with reports := report :: outcome.reports }, session)
    | (.error error, session) =>
      let event : Event := .nodeFailed node error.stage error.message
      let (outcome, session) := loader.registerNodes rest (session.tell [event])
      ({ outcome with failures := (node, error) :: outcome.failures }, session)

/-- The dictionaries among some children: those whose names are not left out. -/
def wanted (loader : Loader) (children : List Child) : List Child :=
  children.filter fun child => !loader.settings.skips child.browseName

def discoverAction (loader : Loader) : Action (List NodeId) := do
  let root := loader.settings.dictionaryRoot
  let children ←
    Action.ask .discover root (.children root) fun earlier => loader.space.children earlier root
  let skipped := children.filter fun child => loader.settings.skips child.browseName
  let nodes := (loader.wanted children).map Child.node
  Action.tell (skipped.map fun child => .dictionarySkipped child.browseName)
  Action.tell [.dictionariesDiscovered nodes.length root]
  return nodes

/-- Finds the dictionary nodes of the server; the registry is left alone. -/
def discover (loader : Loader) (session : Session) : Except LoadError (List NodeId) × Session :=
  loader.discoverAction.run session

/-- Registers the given nodes, or all that are found if none are given. -/
def load (loader : Loader) (nodes : Option (List NodeId)) (session : Session) :
    Except LoadError Outcome × Session :=
  match nodes with
  | some nodes =>
    let (outcome, session) := loader.registerNodes nodes session
    (.ok outcome, session)
  | none =>
    match loader.discover session with
    | (.error error, session) => (.error error, session)
    | (.ok nodes, session) =>
      let (outcome, session) := loader.registerNodes nodes session
      (.ok outcome, session)

end Loader

end TypeDictionary
