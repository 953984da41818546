import TypeDictionary.Proofs.Registration

/-!
# Stages of a registration

The journal tells of every stage that a registration enters, and an error tells of the stage that
has failed. Errors know nothing of the journal: each kind has its stage by itself. `Action.Enters`
ties the two together. It says of an action that it enters some stages in their order, that it
enters all of them unless it fails, and that an error is of the stage entered last. It is closed
under sequencing, so it is proved of a plan step by step, whatever fails and at whichever question.
-/

namespace TypeDictionary

/-- The stage that an event tells of, with its node. -/
def Event.entered? : Event → Option (NodeId × Stage)
  | stageEntered node stage => some (node, stage)
  | _ => none

namespace Action

variable {ε α β : Type} {node : NodeId} {current : Option Stage} {stage : Stage}
  {stages : List Stage}

/-- An action that enters stages of a node, beginning when `current` is the one entered last: all of
them if it succeeds, and otherwise those up to the one that its error is of. -/
def Enters (node : NodeId) (current : Option Stage) (stages : List Stage) (action : Action α) :
    Prop :=
  ∀ session, ∃ events entered,
    (action.run session).2.trace.events = session.trace.events ++ events ∧
    events.filterMap Event.entered? = entered.map (fun stage => (node, stage)) ∧
    entered <+: stages ∧
    match (action.run session).1 with
    | .ok _ => entered = stages
    | .error error => entered.getLast?.or current = some error.stage

namespace Enters

theorem pure (value : α) : Enters node current [] (Pure.pure value : Action α) :=
  fun _ => ⟨[], [], (List.append_nil _).symm, rfl, List.prefix_refl [], rfl⟩

theorem get : Enters node current [] (MonadState.get : Action Session) :=
  fun _ => ⟨[], [], (List.append_nil _).symm, rfl, List.prefix_refl [], rfl⟩

/-- Telling of anything but stages enters none. -/
theorem tell {events : List Event} (silent : events.filterMap Event.entered? = []) :
    Enters node current [] (Action.tell events) :=
  fun _ => ⟨events, [], rfl, silent, List.prefix_refl [], rfl⟩

/-- A question enters no stage, and a refusal is of the stage that it is asked for. -/
theorem ask (other : NodeId) (call : Call) (answer : List Call → Except String α) :
    Enters node (some stage) [] (Action.ask stage other call answer) := by
  intro session
  rw [run_ask]
  refine ⟨[], [], (List.append_nil _).symm, rfl, List.prefix_refl [], ?_⟩
  cases answer session.trace.calls <;> rfl

theorem lift (wrap : ε → LoadError) (staged : ∀ error, (wrap error).stage = stage)
    (result : Except ε α) : Enters node (some stage) [] (Action.lift wrap result) := by
  intro session
  rw [run_lift]
  refine ⟨[], [], (List.append_nil _).symm, rfl, List.prefix_refl [], ?_⟩
  cases result with
  | ok value => rfl
  | error error => exact congrArg some (staged error).symm

/-- After an action that enters no stage, the stage entered last is still the same. -/
theorem bind {first : Action α} {next : α → Action β} (hfirst : Enters node current [] first)
    (hnext : ∀ value, Enters node current stages (next value)) :
    Enters node current stages (first >>= next) := by
  intro session
  obtain ⟨events, entered, traced, told, within, outcome⟩ := hfirst session
  obtain rfl := List.prefix_nil.mp within
  rw [run_bind]
  rcases hrun : first.run session with ⟨result, middle⟩
  rw [hrun] at traced outcome
  cases result with
  | error error => exact ⟨events, [], traced, told, List.nil_prefix, outcome⟩
  | ok value =>
      obtain ⟨later, entered, laterTraced, laterTold, within, outcome⟩ := hnext value middle
      refine ⟨events ++ later, entered, ?_, ?_, within, outcome⟩
      · rw [laterTraced, traced, List.append_assoc]
      · rw [List.filterMap_append, told, laterTold]
        rfl

/-- Entering a stage makes it the last one. -/
theorem enter_bind {next : Unit → Action β} (hnext : Enters node (some stage) stages (next ())) :
    Enters node current (stage :: stages) (Action.enter node stage >>= next) := by
  intro session
  rw [run_enter_bind]
  obtain ⟨events, entered, traced, told, within, outcome⟩ :=
    hnext (session.tell [.stageEntered node stage])
  refine ⟨.stageEntered node stage :: events, stage :: entered, ?_, ?_,
    List.prefix_cons_inj stage |>.mpr within, ?_⟩
  · rw [traced]
    exact List.append_assoc _ _ _
  · simp only [List.filterMap_cons, Event.entered?, told, List.map_cons]
  · split at outcome
    · rw [outcome]
    · rw [List.getLast?_cons, Option.some_or, ← outcome]
      cases entered.getLast? <;> rfl

end Enters

end Action

namespace CrossReference

variable {space : AddressSpace} {types : TypeSet} {node : NodeId} {found : CrossReference}

theorem entered_add (found : CrossReference) (types : TypeSet) (node : NodeId) (child : Child)
    (descriptions : List NodeId) :
    (found.add types node child descriptions).2.filterMap Event.entered? = [] := by
  cases descriptions with
  | nil => rfl
  | cons target others =>
      unfold add
      by_cases contained : types.contains (Identifier.clean child.browseName) = true
      · simp only [contained, if_true, List.filterMap_nil]
      · simp only [contained]
        rfl

/-- Whichever child is refused, it is refused while references are gathered. -/
theorem enters_addAll (children : List Child) :
    Action.Enters node (some .crossReference) [] (addAll space types node found children) := by
  induction children generalizing found with
  | nil => exact .pure found
  | cons child rest ih =>
      unfold addAll
      apply Action.Enters.bind (.ask _ _ _)
      intro descriptions
      exact Action.Enters.bind (.tell (entered_add found types node child descriptions))
        fun _ => ih

end CrossReference

namespace Model

theorem entered_buildEvents (root : Markup.Element) :
    (buildEvents root).filterMap Event.entered? = [] := by
  rw [buildEvents, List.filterMap_map, List.filterMap_eq_nil_iff]
  intro definition _
  cases definition <;> rfl

theorem entered_resolveEvents (model : Model) (known : KnownTypes) :
    (model.resolveEvents known).filterMap Event.entered? = [] := by
  unfold resolveEvents
  generalize model.resolved known = types
  generalize ([] : List String) = earlier
  induction types generalizing earlier with
  | nil => rfl
  | cons type rest ih =>
      unfold Resolution.events
      rw [List.filterMap_cons_none rfl, List.filterMap_append, ih, List.append_nil]
      split <;> rfl

end Model

/-- A plan enters the stages up to the cross-reference. -/
theorem AddressSpace.enters_plan (space : AddressSpace) (node : NodeId) :
    Action.Enters node none [.fetch, .parse, .buildModel, .materialize, .crossReference]
      (space.plan node) := by
  unfold plan
  apply Action.Enters.enter_bind
  apply Action.Enters.bind (.ask _ _ _)
  intro bytes
  apply Action.Enters.enter_bind
  apply Action.Enters.bind (.lift .unreadable (fun _ => rfl) _)
  intro root
  apply Action.Enters.enter_bind
  apply Action.Enters.bind (.tell (Model.entered_buildEvents root))
  intro _
  apply Action.Enters.bind (.lift .unbuildable (fun _ => rfl) _)
  intro model
  apply Action.Enters.enter_bind
  apply Action.Enters.bind .get
  intro session
  apply Action.Enters.bind (.tell (model.entered_resolveEvents session.registry.known))
  intro _
  apply Action.Enters.bind (.lift .unresolvable (fun _ => rfl) _)
  intro types
  apply Action.Enters.enter_bind
  apply Action.Enters.bind (.ask _ _ _)
  intro children
  apply Action.Enters.bind (CrossReference.enters_addAll children)
  intro found
  exact .pure _

namespace Plan

theorem entered_events (registry : Registry) (name : String) (registration : Registration) :
    (registry.events name registration).filterMap Event.entered? = [] := by
  cases registration with
  | inserted => rfl
  | overwritten previous =>
      simp only [Registry.events]
      cases registry.logsOverwrites <;> rfl

theorem entered_registerAll {progress : Progress}
    (silent : progress.events.filterMap Event.entered? = []) (entries : List Entry) :
    (progress.registerAll entries).events.filterMap Event.entered? = [] := by
  induction entries generalizing progress with
  | nil => exact silent
  | cons entry rest ih =>
      refine ih ?_
      simp only [Progress.register, List.filterMap_append, silent, entered_events, List.append_nil]

/-- Carrying out a plan tells of registrations only. -/
theorem entered_carryOut (plan : Plan) (origin : Nat) (registry : Registry) :
    (plan.carryOut origin registry).events.filterMap Event.entered? = [] := by
  rw [carryOut_eq]
  exact entered_registerAll rfl _

end Plan

namespace Loader

variable {loader : Loader} {node : NodeId} {session after : Session}
  {result : Except LoadError Report}

/-- The stages that a registration enters are the first of all stages, and all of them exactly when
it succeeds. The last of them is the stage of the error when it fails. -/
theorem entered_registerNode (h : loader.registerNode node session = (result, after)) :
    ∃ events stages, after.trace.events = session.trace.events ++ events ∧
      events.filterMap Event.entered? = stages.map (fun stage => (node, stage)) ∧
      stages <+: Stage.all ∧
      (stages = Stage.all ↔ ∃ report, result = .ok report) ∧
      ∀ error, result = .error error → stages.getLast? = some error.stage := by
  obtain ⟨events, entered, traced, told, within, outcome⟩ :=
    loader.space.enters_plan node session
  unfold registerNode at h
  rcases hplan : (loader.space.plan node).run session with ⟨planned, middle⟩
  rw [hplan] at h traced outcome
  cases planned with
  | error error =>
      cases h
      rw [Option.or_none] at outcome
      have short : entered.length ≤ 5 := within.length_le
      refine ⟨events, entered, traced, told, within.trans ⟨[.register, .done], rfl⟩, ?_, ?_⟩
      · constructor
        · rintro rfl
          exact absurd short (by decide)
        · rintro ⟨report, ⟨⟩⟩
      · rintro _ ⟨⟩
        exact outcome
  | ok plan =>
      cases h
      subst outcome
      -- a plan is carried out without failing, so the last two stages follow
      refine ⟨events ++ (.stageEntered node .register ::
        (plan.carryOut middle.loaded middle.registry).events ++
          [.stageEntered node .done, (plan.report
            (plan.carryOut middle.loaded middle.registry).overwrites).closingEvent]), Stage.all,
        ?_, ?_, List.prefix_refl _, ?_, ?_⟩
      · rw [← List.append_assoc, ← traced]
        rfl
      · rw [List.filterMap_append, told, List.filterMap_append, List.filterMap_cons,
          Plan.entered_carryOut]
        rfl
      · exact iff_of_true rfl ⟨_, rfl⟩
      · rintro error ⟨⟩

end Loader

end TypeDictionary
