import TypeDictionary.Proofs.Stages

/-!
# What a registration asks the server

An answer may depend on all that was asked before, so what a registration asks is told together with
the answers: each question is put after the ones before it, and no more of them after a refusal. The
document is asked for first. The children are listed if the document defines types, which decides
all the stages before, and are then asked for their descriptions in their order.
-/

namespace TypeDictionary

/-- The questions about the descriptions of some children. -/
def Child.inquiries (children : List Child) : List Call :=
  children.map fun child => .descriptions child.node

namespace AddressSpace

/-- Those of some children that are asked for their descriptions: all of them in their order, or
those up to the first that is refused. -/
inductive Asks (space : AddressSpace) : List Call → List Child → List Child → Prop
  | nil {earlier : List Call} : Asks space earlier [] []
  | refused {earlier : List Call} {child : Child} {rest : List Child} {reason : String}
      (refusal : space.descriptions earlier child.node = .error reason) :
      Asks space earlier (child :: rest) [child]
  | answered {earlier : List Call} {child : Child} {rest asked : List Child}
      {descriptions : List NodeId}
      (told : space.descriptions earlier child.node = .ok descriptions)
      (others : Asks space (earlier ++ [.descriptions child.node]) rest asked) :
      Asks space earlier (child :: rest) (child :: asked)

end AddressSpace

namespace Session

@[simp] theorem registry_tell (session : Session) (events : List Event) :
    (session.tell events).registry = session.registry := rfl

@[simp] theorem registry_called (session : Session) (call : Call) :
    (session.called call).registry = session.registry := rfl

end Session

namespace Action

variable {ε α β : Type} {stage : Stage} {node : NodeId} {call : Call}
  {answer : List Call → Except String α} {session : Session}

theorem run_ask_bind_of_ok {next : α → Action β} {value : α}
    (told : answer session.trace.calls = .ok value) :
    (ask stage node call answer >>= next).run session =
      (next value).run (session.called call) := by
  rw [run_bind, run_ask, told]
  rfl

theorem run_ask_bind_of_error {next : α → Action β} {reason : String}
    (refusal : answer session.trace.calls = .error reason) :
    (ask stage node call answer >>= next).run session =
      (.error (.refused stage node reason), session.called call) := by
  rw [run_bind, run_ask, refusal]
  rfl

theorem run_lift_bind_of_ok {wrap : ε → LoadError} {next : α → Action β} {made : Except ε α}
    {value : α} (h : made = .ok value) :
    (lift wrap made >>= next).run session = (next value).run session := by
  rw [run_bind, run_lift, h]
  rfl

theorem run_lift_bind_of_error {wrap : ε → LoadError} {next : α → Action β} {made : Except ε α}
    {error : ε} (h : made = .error error) :
    (lift wrap made >>= next).run session = (.error (wrap error), session) := by
  rw [run_bind, run_lift, h]
  rfl

end Action

namespace CrossReference

open TypeDictionary.Action

variable {space : AddressSpace} {types : TypeSet} {node : NodeId} {found : CrossReference}
  {children : List Child} {session after : Session}

/-- The children are asked in turn, whatever comes of it. -/
theorem calls_addAll {outcome : Except LoadError CrossReference}
    (h : (addAll space types node found children).run session = (outcome, after)) :
    ∃ asked, after.trace.calls = session.trace.calls ++ Child.inquiries asked ∧
      space.Asks session.trace.calls children asked := by
  induction children generalizing found session with
  | nil =>
      cases h
      exact ⟨[], (List.append_nil _).symm, .nil⟩
  | cons child rest ih =>
      unfold addAll at h
      cases told : space.descriptions session.trace.calls child.node with
      | error reason =>
          rw [run_ask_bind_of_error told] at h
          cases h
          exact ⟨[child], rfl, .refused told⟩
      | ok descriptions =>
          rw [run_ask_bind_of_ok told, run_tell_bind] at h
          obtain ⟨asked, calls, others⟩ := ih h
          refine ⟨child :: asked, ?_, .answered told others⟩
          rw [calls]
          exact List.append_assoc _ _ _

end CrossReference

namespace AddressSpace

open TypeDictionary.Action

variable {space : AddressSpace} {node : NodeId} {session after : Session} {plan : Plan}

/-- The rest of a plan when the types of the document are known: the children are listed and
asked. -/
def crossReference (space : AddressSpace) (node : NodeId) (model : Model) (types : TypeSet) :
    Action Plan := do
  let children ←
    Action.ask .crossReference node (.children node) fun earlier => space.children earlier node
  let found ← CrossReference.addAll space types node (.start model) children
  return ⟨node, types, found⟩

/-- If the document of a node defines types, nothing fails before the children are listed. -/
theorem run_plan_of_defines {model : Model} {types : TypeSet}
    (defines : space.Defines session node model types) :
    ∃ middle, middle.trace.calls = session.trace.calls ++ [.document node] ∧
      (space.plan node).run session = (space.crossReference node model types).run middle := by
  obtain ⟨bytes, root, hbytes, hroot, hmodel, htypes⟩ := defines
  unfold plan
  rw [run_enter_bind, run_ask_bind_of_ok hbytes, run_enter_bind, run_lift_bind_of_ok hroot,
    run_enter_bind, run_tell_bind, run_lift_bind_of_ok hmodel, run_enter_bind, run_get_bind,
    run_tell_bind]
  simp only [Session.registry_tell, Session.registry_called]
  rw [run_lift_bind_of_ok htypes, run_enter_bind]
  exact ⟨_, rfl, rfl⟩

/-- If it does not, the plan fails and has asked for the document only. -/
theorem run_plan_of_not_defines
    (undefined : ¬∃ model types, space.Defines session node model types) :
    ∃ error middle, middle.trace.calls = session.trace.calls ++ [.document node] ∧
      (space.plan node).run session = (.error error, middle) := by
  unfold plan
  rw [run_enter_bind]
  cases hbytes : space.document session.trace.calls node with
  | error reason =>
      rw [run_ask_bind_of_error hbytes]
      exact ⟨_, _, rfl, rfl⟩
  | ok bytes =>
      rw [run_ask_bind_of_ok hbytes, run_enter_bind]
      cases hroot : (Source.bytes bytes).read with
      | error error =>
          rw [run_lift_bind_of_error rfl]
          exact ⟨_, _, rfl, rfl⟩
      | ok root =>
          rw [run_lift_bind_of_ok rfl, run_enter_bind, run_tell_bind]
          cases hmodel : Model.build root with
          | error error =>
              rw [run_lift_bind_of_error rfl]
              exact ⟨_, _, rfl, rfl⟩
          | ok model =>
              rw [run_lift_bind_of_ok rfl, run_enter_bind, run_get_bind, run_tell_bind]
              simp only [Session.registry_tell, Session.registry_called]
              cases htypes : model.resolve session.registry.known with
              | error error =>
                  rw [run_lift_bind_of_error rfl]
                  exact ⟨_, _, rfl, rfl⟩
              | ok types =>
                  exact absurd ⟨model, types, bytes, root, hbytes, hroot, hmodel, htypes⟩ undefined

/-- The children of a node are listed and, if that is not refused, asked. -/
theorem calls_crossReference {model : Model} {types : TypeSet} {outcome : Except LoadError Plan}
    (h : (space.crossReference node model types).run session = (outcome, after)) :
    ∃ asked, after.trace.calls =
        session.trace.calls ++ .children node :: Child.inquiries asked ∧
      (∀ reason, space.children session.trace.calls node = .error reason → asked = []) ∧
      ∀ children, space.children session.trace.calls node = .ok children →
        space.Asks (session.trace.calls ++ [.children node]) children asked := by
  unfold crossReference at h
  cases listed : space.children session.trace.calls node with
  | error reason =>
      rw [run_ask_bind_of_error listed] at h
      cases h
      exact ⟨[], rfl, fun _ _ => rfl, by rintro children ⟨⟩⟩
  | ok children =>
      rw [run_ask_bind_of_ok listed, run_bind] at h
      rcases hfound : (CrossReference.addAll space types node (.start model) children).run
        (session.called (.children node)) with ⟨result, middle⟩
      obtain ⟨asked, calls, asks⟩ := CrossReference.calls_addAll hfound
      have same : after = middle := by
        rw [hfound] at h
        cases result <;> cases h <;> rfl
      subst same
      refine ⟨asked, ?_, ?_, ?_⟩
      · rw [calls]
        exact List.append_assoc _ _ _
      · rintro reason ⟨⟩
      · rintro _ ⟨⟩
        exact asks

end AddressSpace

namespace Loader

variable {loader : Loader} {node : NodeId} {session after : Session}
  {result : Except LoadError Report} {report : Report}

/-- Carrying out a plan asks nothing. -/
theorem calls_registerNode (h : loader.registerNode node session = (result, after)) :
    after.trace.calls = ((loader.space.plan node).run session).2.trace.calls := by
  unfold registerNode at h
  rcases hplan : (loader.space.plan node).run session with ⟨planned, middle⟩
  rw [hplan] at h
  cases planned <;> cases h <;> rfl

/-- A registration enters the stages in their order, all of them exactly when it succeeds, and the
last one is that of the error when it fails. It asks for the document first and, exactly if that
defines types, lists the children of the node. Unless that is refused, the children are then asked
for their descriptions in turn, up to the first that is refused. -/
theorem trace_of_registerNode (h : loader.registerNode node session = (result, after)) :
    (∃ events stages, after.trace.events = session.trace.events ++ events ∧
      events.filterMap Event.entered? = stages.map (fun stage => (node, stage)) ∧
      stages <+: Stage.all ∧
      (stages = Stage.all ↔ ∃ report, result = .ok report) ∧
      ∀ error, result = .error error → stages.getLast? = some error.stage) ∧
    ∃ calls, after.trace.calls = session.trace.calls ++ .document node :: calls ∧
      ((¬∃ model types, loader.space.Defines session node model types) → calls = []) ∧
      ((∃ model types, loader.space.Defines session node model types) →
        ∃ asked, calls = .children node :: Child.inquiries asked ∧
          (∀ reason, loader.space.children (session.trace.calls ++ [.document node]) node =
            .error reason → asked = []) ∧
          ∀ children, loader.space.children (session.trace.calls ++ [.document node]) node =
            .ok children →
            loader.space.Asks (session.trace.calls ++ [.document node, .children node]) children
              asked) := by
  refine ⟨entered_registerNode h, ?_⟩
  rw [calls_registerNode h]
  by_cases defined : ∃ model types, loader.space.Defines session node model types
  · obtain ⟨model, types, defines⟩ := defined
    obtain ⟨middle, before, hplan⟩ := AddressSpace.run_plan_of_defines defines
    obtain ⟨asked, calls, refused, listed⟩ := AddressSpace.calls_crossReference hplan.symm
    rw [before, List.append_assoc] at calls
    rw [before] at refused listed
    rw [List.append_assoc] at listed
    exact ⟨_, calls, (absurd ⟨model, types, defines⟩ ·), fun _ => ⟨asked, rfl, refused, listed⟩⟩
  · obtain ⟨error, middle, calls, hplan⟩ := AddressSpace.run_plan_of_not_defines defined
    rw [hplan]
    exact ⟨[], calls, fun _ => rfl, (absurd · defined)⟩

/-- The second child is refused: both have been asked, and no stage was entered after the
cross-reference. -/
theorem trace_of_sample_refused :
    ∃ after events stages asked, sampleRefusing.registerNode ⟨"d"⟩ sampleSession =
        (.error (.refused .crossReference ⟨"second"⟩ "gone"), after) ∧
      after.trace.events = events ∧
      events.filterMap Event.entered? = stages.map (fun stage => (⟨"d"⟩, stage)) ∧
      stages <+: Stage.all ∧ stages.getLast? = some .crossReference ∧
      after.trace.calls = .document ⟨"d"⟩ :: .children ⟨"d"⟩ :: Child.inquiries asked ∧
      asked = [⟨"P", ⟨"first"⟩⟩, ⟨"P", ⟨"second"⟩⟩] := by
  have failed : (sampleRefusing.registerNode ⟨"d"⟩ sampleSession).1 =
      .error (.refused .crossReference ⟨"second"⟩ "gone") := by decide +kernel
  have called : (sampleRefusing.registerNode ⟨"d"⟩ sampleSession).2.trace.calls =
      [.document ⟨"d"⟩, .children ⟨"d"⟩, .descriptions ⟨"first"⟩, .descriptions ⟨"second"⟩] := by
    decide +kernel
  have run := Prod.fst_eq_iff.mp failed
  obtain ⟨⟨events, stages, traced, told, within, _, last⟩, calls, hcalls, undefined, asking⟩ :=
    trace_of_registerNode run
  obtain rfl : calls = [.children ⟨"d"⟩, .descriptions ⟨"first"⟩, .descriptions ⟨"second"⟩] := by
    rw [hcalls] at called
    exact List.cons.inj called |>.2
  have defined : ∃ model types, sampleRefusing.space.Defines sampleSession ⟨"d"⟩ model types := by
    by_contra absent
    cases undefined absent
  obtain ⟨asked, same, _, asks⟩ := asking defined
  refine ⟨_, events, stages, asked, run, traced, told, within, last _ rfl, ?_, ?_⟩
  · rw [hcalls, same]
    rfl
  · cases asks _ rfl with
    | refused refusal => cases refusal
    | answered _ others =>
        cases others with
        | refused refusal => rfl
        | answered told _ => cases told

end Loader

end TypeDictionary
