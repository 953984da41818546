import TypeDictionary.Proofs.Registration

/-!
# Registrations with a stateless server

What a stateless server answers depends on nothing that was asked before, so whether the questions
of a registration are answered can be told of the server alone. All that the session adds is the
types that its registry knows. A registration therefore succeeds exactly when the server serves the
node and the known types suffice for the model of its document.
-/

namespace TypeDictionary

namespace AddressSpace

/-- A server that answers all that is asked about a node: its document gives the model, and its
children can be listed and tell what they describe. -/
structure Serves (space : AddressSpace) (node : NodeId) (model : Model) : Prop where
  document : ∃ bytes root, space.document [] node = .ok bytes ∧
    (Source.bytes bytes).read = .ok root ∧ Model.build root = .ok model
  children : ∃ children, space.children [] node = .ok children ∧
    ∀ child ∈ children, ∃ descriptions, space.descriptions [] child.node = .ok descriptions

variable {space : AddressSpace} {node : NodeId} {session : Session}

/-- The children can all be asked if a stateless server answers for each of them. -/
theorem succeeds_addAll_iff (stateless : space.IsStateless) {types : TypeSet}
    {found : CrossReference} {children : List Child} :
    Action.Succeeds (CrossReference.addAll space types node found children) session ↔
      ∀ child ∈ children, ∃ descriptions, space.descriptions [] child.node = .ok descriptions := by
  obtain ⟨_, _, same⟩ := stateless
  induction children generalizing found session with
  | nil => simp [CrossReference.addAll, Action.succeeds_pure]
  | cons child rest ih =>
      unfold CrossReference.addAll
      rw [Action.succeeds_ask_bind, List.forall_mem_cons]
      simp only [Action.succeeds_tell_bind, ih, same _ []]
      constructor
      · rintro ⟨descriptions, answered, others⟩
        exact ⟨⟨descriptions, answered⟩, others⟩
      · rintro ⟨⟨descriptions, answered⟩, others⟩
        exact ⟨descriptions, answered, others⟩

/-- Of a session, only what its registry knows decides whether a plan can be made. -/
theorem succeeds_plan_iff (stateless : space.IsStateless) :
    Action.Succeeds (space.plan node) session ↔
      ∃ model, space.Serves node model ∧
        session.registry.known.Suffices [] model.definitions := by
  have ⟨document, children, _⟩ := stateless
  unfold plan
  simp only [Action.succeeds_enter_bind, Action.succeeds_ask_bind, Action.succeeds_lift_bind,
    Action.succeeds_tell_bind, Action.succeeds_get_bind,
    Action.succeeds_bind_iff (fun _ _ => Action.succeeds_pure _),
    succeeds_addAll_iff stateless, document _ [], children _ []]
  constructor
  · rintro ⟨bytes, hbytes, root, hroot, model, hmodel, types, htypes, children, hchildren, asked⟩
    exact ⟨model, ⟨⟨bytes, root, hbytes, hroot, hmodel⟩, children, hchildren, asked⟩,
      (Resolution.exists_extend_ok_iff .empty).mp ⟨types, htypes⟩⟩
  · rintro ⟨model, ⟨⟨bytes, root, hbytes, hroot, hmodel⟩, children, hchildren, asked⟩, sufficient⟩
    obtain ⟨types, htypes⟩ := (Resolution.exists_extend_ok_iff .empty).mpr sufficient
    exact ⟨bytes, hbytes, root, hroot, model, hmodel, types, htypes, children, hchildren, asked⟩

/-- Children of a node with their descriptions, as the server has told them at one time or
another. -/
def Told (space : AddressSpace) (node : NodeId) (answered : List (Child × List NodeId)) : Prop :=
  (∃ earlier, space.children earlier node = .ok (answered.map Prod.fst)) ∧
    ∀ answer ∈ answered, ∃ earlier, space.descriptions earlier answer.1.node = .ok answer.2

theorem Describes.told {earlier : List Call} {answered : List (Child × List NodeId)}
    (describes : space.Describes earlier answered) :
    ∀ answer ∈ answered, ∃ earlier, space.descriptions earlier answer.1.node = .ok answer.2 := by
  induction describes with
  | nil => exact List.forall_mem_nil _
  | cons told _ ih => exact List.forall_mem_cons.mpr ⟨⟨_, told⟩, ih⟩

theorem Answers.told {earlier : List Call} {answered : List (Child × List NodeId)}
    (answers : space.Answers earlier node answered) : space.Told node answered :=
  ⟨⟨_, answers.1⟩, answers.2.told⟩

/-- What a stateless server tells of the children of a node is always the same. -/
theorem Told.unique (stateless : space.IsStateless) {answered other : List (Child × List NodeId)}
    (first : space.Told node answered) (second : space.Told node other) : answered = other := by
  obtain ⟨_, children, descriptions⟩ := stateless
  obtain ⟨⟨earlier, hchildren⟩, told⟩ := first
  obtain ⟨⟨later, hagain⟩, toldAgain⟩ := second
  rw [children earlier later, hagain, Except.ok.injEq] at hchildren
  clear hagain
  induction answered generalizing other with
  | nil => exact (List.map_eq_nil_iff.mp hchildren).symm
  | cons answer rest ih =>
      obtain ⟨again, others, rfl, same, hothers⟩ := List.map_eq_cons_iff.mp hchildren
      rw [List.forall_mem_cons] at told toldAgain
      obtain ⟨⟨before, htold⟩, told⟩ := told
      obtain ⟨⟨after, htoldAgain⟩, toldAgain⟩ := toldAgain
      rw [← same, descriptions before after, htoldAgain, Except.ok.injEq] at htold
      rw [Prod.ext same htold, ih told toldAgain hothers]

theorem Serves.unique {model other : Model} (first : space.Serves node model)
    (second : space.Serves node other) : model = other := by
  obtain ⟨bytes, root, hbytes, hroot, hmodel⟩ := first.document
  obtain ⟨_, _, hagain, hrootAgain, hother⟩ := second.document
  rw [hbytes, Except.ok.injEq] at hagain
  subst hagain
  rw [hroot, Except.ok.injEq] at hrootAgain
  subst hrootAgain
  rw [hmodel, Except.ok.injEq] at hother
  exact hother

theorem Defines.serves (stateless : space.IsStateless) {model : Model} {types : TypeSet}
    (defines : space.Defines session node model types) {answered : List (Child × List NodeId)}
    (told : space.Told node answered) : space.Serves node model := by
  have ⟨document, children, descriptions⟩ := stateless
  obtain ⟨bytes, root, hbytes, hroot, hmodel, _⟩ := defines
  obtain ⟨⟨earlier, hchildren⟩, asked⟩ := told
  refine ⟨⟨bytes, root, document _ _ node ▸ hbytes, hroot, hmodel⟩, answered.map Prod.fst,
    children _ _ node ▸ hchildren, ?_⟩
  intro child hchild
  obtain ⟨answer, hanswer, rfl⟩ := List.mem_map.mp hchild
  obtain ⟨before, htold⟩ := asked answer hanswer
  exact ⟨answer.2, descriptions _ _ answer.1.node ▸ htold⟩

/-- With a stateless server the plan of a node depends on what is known only, and on that only
through the types that the node's model resolves to. -/
theorem exists_plan_iff (stateless : space.IsStateless) {plan : Plan} :
    (∃ after, (space.plan node).run session = (.ok plan, after)) ↔
      ∃ model answered, space.Serves node model ∧ space.Told node answered ∧
        model.resolve session.registry.known = .ok plan.types ∧ plan.node = node ∧
        plan.found = (CrossReference.start model).gather plan.types node answered := by
  constructor
  · rintro ⟨after, h⟩
    obtain ⟨model, answered, defines, same, answers, found⟩ := plan_eq_ok h
    have serves := defines.serves stateless answers.told
    obtain ⟨_, _, _, _, _, resolved⟩ := defines
    exact ⟨model, answered, serves, answers.told, resolved, same, found⟩
  · rintro ⟨model, answered, serves, told, resolved, same, found⟩
    have sufficient := (Resolution.exists_extend_ok_iff .empty).mp ⟨plan.types, resolved⟩
    obtain ⟨made, after, h⟩ := (succeeds_plan_iff stateless).mpr ⟨model, serves, sufficient⟩
    -- The plan that is made is this one, since the server leaves no choice.
    obtain ⟨other, others, defines, madeNode, answers, madeFound⟩ := plan_eq_ok h
    obtain rfl := serves.unique (defines.serves stateless answers.told)
    obtain rfl := told.unique stateless answers.told
    obtain ⟨_, _, _, _, _, resolvedAgain⟩ := defines
    have types : made.types = plan.types := by
      rw [resolved, Except.ok.injEq] at resolvedAgain
      exact resolvedAgain.symm
    rw [types, ← found] at madeFound
    have unique : made = plan := by
      cases made
      cases plan
      rw [Plan.mk.injEq]
      exact ⟨madeNode.trans same.symm, types, madeFound⟩
    exact ⟨after, unique ▸ h⟩

/-- So the same plan is made in another session that resolves the node's model to the same. -/
theorem exists_plan_of_resolve_eq (stateless : space.IsStateless) {after other : Session}
    {plan : Plan} (h : (space.plan node).run session = (.ok plan, after))
    (same : ∀ model, space.Serves node model →
      model.resolve other.registry.known = model.resolve session.registry.known) :
    ∃ later, (space.plan node).run other = (.ok plan, later) := by
  obtain ⟨model, answered, serves, told, resolved, made⟩ :=
    (exists_plan_iff stateless).mp ⟨after, h⟩
  rw [← same model serves] at resolved
  exact (exists_plan_iff stateless).mpr ⟨model, answered, serves, told, resolved, made⟩

end AddressSpace

namespace Loader

variable {loader : Loader} {node : NodeId} {session : Session}

theorem isOk_registerNode_iff :
    (loader.registerNode node session).1.isOk = true ↔
      Action.Succeeds (loader.space.plan node) session := by
  unfold registerNode Action.Succeeds
  rcases (loader.space.plan node).run session with ⟨result, after⟩
  cases result with
  | error error =>
      constructor
      · rintro ⟨⟩
      · rintro ⟨plan, other, ⟨⟩⟩
  | ok plan =>
      constructor
      · intro _
        exact ⟨plan, after, rfl⟩
      · intro _
        rfl

/-- A registration succeeds exactly when the server serves the node and every reference of its model
means something among the types that are known. -/
theorem isOk_registerNode_iff_serves (stateless : loader.space.IsStateless) :
    (loader.registerNode node session).1.isOk = true ↔
      ∃ model, loader.space.Serves node model ∧
        session.registry.known.Suffices [] model.definitions := by
  rw [isOk_registerNode_iff, AddressSpace.succeeds_plan_iff stateless]

end Loader

end TypeDictionary
