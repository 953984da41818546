import TypeDictionary.Loader.Plan
import TypeDictionary.Proofs.Fallible
import TypeDictionary.Proofs.Resolution
import TypeDictionary.Proofs.TypeSet

/-!
# Making a plan

Making a plan may fail at any of its questions, also at the description of a late child when earlier
children are bound already. Whatever it comes to, it changes no more of the session than its trace.

A plan that is made holds the types of the node's document, resolved against what the registry knew,
and what the children said one after the other. Only names with a type are ever bound, and no
overwrite is told of before there is one; `Plan.Sound` is what every plan has.
-/

namespace TypeDictionary

/-- Whether an anomaly tells of a registration that took the place of another. -/
def Anomaly.isOverwrite : Anomaly → Bool
  | notDefined .. => false
  | overwrite .. => true

namespace AddressSpace

/-- Children with their descriptions, as the server tells them one after the other when `earlier`
has been asked before. -/
inductive Describes (space : AddressSpace) : List Call → List (Child × List NodeId) → Prop
  | nil {earlier : List Call} : Describes space earlier []
  | cons {earlier : List Call} {child : Child} {descriptions : List NodeId}
      {rest : List (Child × List NodeId)}
      (told : space.descriptions earlier child.node = .ok descriptions)
      (others : Describes space (earlier ++ [.descriptions child.node]) rest) :
      Describes space earlier ((child, descriptions) :: rest)

/-- The children of a node with their descriptions, as the server tells them to a registration that
begins after `earlier`. -/
def Answers (space : AddressSpace) (earlier : List Call) (node : NodeId)
    (answered : List (Child × List NodeId)) : Prop :=
  space.children (earlier ++ [.document node]) node = .ok (answered.map Prod.fst) ∧
    space.Describes (earlier ++ [.document node, .children node]) answered

end AddressSpace

namespace CrossReference

open TypeDictionary.Action

variable {space : AddressSpace} {types : TypeSet} {node : NodeId} {found : CrossReference}

/-- Takes in children with their descriptions, one after the other. -/
def gather (found : CrossReference) (types : TypeSet) (node : NodeId)
    (answered : List (Child × List NodeId)) : CrossReference :=
  answered.foldl (fun found answer => (found.add types node answer.1 answer.2).1) found

theorem composed_addAll (children : List Child) :
    Composed (addAll space types node found children) := by
  induction children generalizing found with
  | nil => exact .pure found
  | cons child rest ih =>
      unfold addAll
      apply Composed.bind (.ask _ _ _ _)
      intro descriptions
      exact Composed.bind (.tell _) fun _ => ih

/-- When all children could be asked, what comes of them is gathered from what they were told to
describe. -/
theorem addAll_eq_ok {children : List Child} {session after : Session} {result : CrossReference}
    (h : (addAll space types node found children).run session = (.ok result, after)) :
    ∃ answered, answered.map Prod.fst = children ∧
      space.Describes session.trace.calls answered ∧
      result = found.gather types node answered := by
  induction children generalizing found session with
  | nil =>
      cases h
      exact ⟨[], rfl, .nil, rfl⟩
  | cons child rest ih =>
      unfold addAll at h
      obtain ⟨descriptions, told, h⟩ := run_ask_bind_eq_ok_iff.mp h
      rw [run_tell_bind] at h
      obtain ⟨answered, rfl, others, rfl⟩ := ih h
      exact ⟨(child, descriptions) :: answered, rfl, .cons told others, rfl⟩

/-- A child without a type adds to the mismatches at most. Any other child binds its name, in the
model as well. -/
theorem add_cases (found : CrossReference) (types : TypeSet) (node : NodeId) (child : Child)
    (descriptions : List NodeId) :
    (∃ more, (∀ anomaly ∈ more, anomaly.isOverwrite = false) ∧
        (found.add types node child descriptions).1 =
          { found with mismatches := found.mismatches ++ more }) ∨
      ∃ name id, types.contains name = true ∧
        (found.add types node child descriptions).1 =
          { found with
            model := found.model.bind name id
            bound := found.bound ++ [(name, id)] } := by
  cases descriptions with
  | nil =>
      refine .inl ⟨[], List.forall_mem_nil _, ?_⟩
      rw [List.append_nil]
      rfl
  | cons target others =>
      unfold CrossReference.add
      by_cases contained : types.contains (Identifier.clean child.browseName) = true
      · simp only [contained, if_true]
        exact .inr ⟨_, _, contained, rfl⟩
      · simp only [contained]
        exact .inl ⟨_, List.forall_mem_singleton.mpr rfl, rfl⟩

/-- What each child keeps holds in the end if it holds at first. -/
theorem gather_keeps (holds : CrossReference → Prop)
    (keeps : ∀ found child descriptions, holds found →
      holds (found.add types node child descriptions).1)
    (h : holds found) (answered : List (Child × List NodeId)) :
    holds (found.gather types node answered) := by
  induction answered generalizing found with
  | nil => exact h
  | cons answer rest ih => exact ih (keeps found answer.1 answer.2 h)

/-- Every bound name has a type. -/
def Defined (types : TypeSet) (found : CrossReference) : Prop :=
  ∀ name id, (name, id) ∈ found.bound → types.contains name = true

theorem defined_start (types : TypeSet) (model : Model) : (start model).Defined types := by
  intro name id hmem
  cases hmem

theorem Defined.add (h : found.Defined types) (child : Child) (descriptions : List NodeId) :
    (found.add types node child descriptions).1.Defined types := by
  rcases found.add_cases types node child descriptions with
    ⟨more, _, same⟩ | ⟨name, target, contained, same⟩
  · rw [same]
    exact h
  · rw [same]
    intro other id hmem
    rcases List.mem_append.mp hmem with hmem | hmem
    · exact h other id hmem
    · cases List.mem_singleton.mp hmem
      exact contained

theorem Defined.gather (h : found.Defined types) (answered : List (Child × List NodeId)) :
    (found.gather types node answered).Defined types :=
  gather_keeps (Defined types) (fun _ child descriptions before => before.add child descriptions) h
    answered

/-- Children that name no type are no overwrites. -/
theorem isOverwrite_gather (h : ∀ anomaly ∈ found.mismatches, anomaly.isOverwrite = false)
    (answered : List (Child × List NodeId)) :
    ∀ anomaly ∈ (found.gather types node answered).mismatches, anomaly.isOverwrite = false := by
  refine gather_keeps (fun found => ∀ anomaly ∈ found.mismatches, anomaly.isOverwrite = false) ?_ h
    answered
  intro found child descriptions before
  rcases found.add_cases types node child descriptions with ⟨more, told, same⟩ | ⟨_, _, _, same⟩
  · rw [same]
    exact List.forall_mem_append.mpr ⟨before, told⟩
  · rw [same]
    exact before

end CrossReference

/-- What is true of every plan that is made: its types are indexed, the bound names have types, and
no overwrite is reported before there is one. -/
structure Plan.Sound (plan : Plan) : Prop where
  indexed : plan.types.Indexed
  defined : plan.found.Defined plan.types
  mismatches : ∀ anomaly ∈ plan.found.mismatches, anomaly.isOverwrite = false

namespace AddressSpace

open TypeDictionary.Action

variable {space : AddressSpace} {node : NodeId} {session after : Session} {plan : Plan}

/-- What the document of a node comes to in a session: it is fetched, read and built, and the model
is resolved against what the registry knows. -/
def Defines (space : AddressSpace) (session : Session) (node : NodeId) (model : Model)
    (types : TypeSet) : Prop :=
  ∃ bytes root, space.document session.trace.calls node = .ok bytes ∧
    (Source.bytes bytes).read = .ok root ∧ Model.build root = .ok model ∧
    model.resolve session.registry.known = .ok types

theorem Defines.indexed {model : Model} {types : TypeSet}
    (h : space.Defines session node model types) : types.Indexed := by
  obtain ⟨bytes, root, _, _, _, resolved⟩ := h
  exact (Resolution.complete_of_extend .empty resolved).reflects.indexed

/-- What a plan looks at beside the answers of the server are the types that the registry knows. -/
theorem composed_plan (space : AddressSpace) (node : NodeId) : Composed (space.plan node) := by
  unfold plan
  apply Composed.bind (.enter _ _)
  intro _
  apply Composed.bind (.ask _ _ _ _)
  intro bytes
  apply Composed.bind (.enter _ _)
  intro _
  apply Composed.bind (.lift _ _)
  intro root
  apply Composed.bind (.enter _ _)
  intro _
  apply Composed.bind (.tell _)
  intro _
  apply Composed.bind (.lift _ _)
  intro model
  apply Composed.bind (.enter _ _)
  intro _
  apply Composed.look
  · intro session other same
    simp only [same]
  intro session
  apply Composed.bind (.tell _)
  intro _
  apply Composed.bind (.lift _ _)
  intro types
  apply Composed.bind (.enter _ _)
  intro _
  apply Composed.bind (.ask _ _ _ _)
  intro children
  apply Composed.bind (CrossReference.composed_addAll children)
  intro found
  exact .pure _

/-- Each step of a plan leaves all but the trace alone, so the plan does, wherever it stops. -/
theorem onlyTraces_plan (space : AddressSpace) (node : NodeId) : OnlyTraces (space.plan node) :=
  (composed_plan space node).onlyTraces

/-- A plan holds the types of the document and what the children gathered from the answers given to
it. -/
theorem plan_eq_ok (h : (space.plan node).run session = (.ok plan, after)) :
    ∃ model answered, space.Defines session node model plan.types ∧ plan.node = node ∧
      space.Answers session.trace.calls node answered ∧
      plan.found = (CrossReference.start model).gather plan.types node answered := by
  unfold AddressSpace.plan at h
  rw [run_enter_bind] at h
  obtain ⟨bytes, hbytes, h⟩ := run_ask_bind_eq_ok_iff.mp h
  rw [run_enter_bind] at h
  obtain ⟨root, hroot, h⟩ := run_lift_bind_eq_ok_iff.mp h
  rw [run_enter_bind, run_tell_bind] at h
  obtain ⟨model, hmodel, h⟩ := run_lift_bind_eq_ok_iff.mp h
  rw [run_enter_bind, run_get_bind, run_tell_bind] at h
  obtain ⟨types, htypes, h⟩ := run_lift_bind_eq_ok_iff.mp h
  rw [run_enter_bind] at h
  obtain ⟨children, hchildren, h⟩ := run_ask_bind_eq_ok_iff.mp h
  obtain ⟨found, middle, hfound, h⟩ := run_bind_eq_ok h
  obtain ⟨answered, rfl, described, rfl⟩ := CrossReference.addAll_eq_ok hfound
  cases h
  refine ⟨model, answered, ⟨bytes, root, hbytes, hroot, hmodel, htypes⟩, rfl, ⟨hchildren, ?_⟩, rfl⟩
  simpa [Session.called, Session.tell] using described

theorem sound_plan (h : (space.plan node).run session = (.ok plan, after)) : plan.Sound := by
  obtain ⟨model, answered, defines, _, _, found⟩ := plan_eq_ok h
  have asked : ∀ anomaly ∈ (CrossReference.start model).mismatches, anomaly.isOverwrite = false :=
    List.forall_mem_nil _
  refine ⟨defines.indexed, ?_, ?_⟩
  · rw [found]
    exact (CrossReference.defined_start plan.types model).gather answered
  · rw [found]
    exact CrossReference.isOverwrite_gather asked answered

end AddressSpace

end TypeDictionary
