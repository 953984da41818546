import TypeDictionary.Proofs.Insertion
import TypeDictionary.Proofs.Overwrites

/-!
# What children contribute to a report

A child without descriptions contributes nothing. Any other contributes one thing: its clean name
with the first description if the document defines that name, and otherwise the clean name with the
child's own node, as a mismatch. Both lists of a report keep the order of the children. Whatever the
document defines beside the bound names is registered by name only, each name once and in the order
of its first definition, so no type is lost however the children repeat or clash.
-/

namespace TypeDictionary

/-- What a child contributes beside a document that defines some names: a name with its identifier,
or a name that is not defined with the node of the child. -/
def Child.contribution? (defined : List String) (child : Child) :
    List NodeId → Option ((String × WireId) ⊕ (String × NodeId))
  | [] => none
  | target :: _ =>
    let name := Identifier.clean child.browseName
    some (if name ∈ defined then .inl (name, target.toWireId) else .inr (name, child.node))

/-- What children contribute with their descriptions, in their order. -/
def Child.contributions (defined : List String) (answered : List (Child × List NodeId)) :
    List ((String × WireId) ⊕ (String × NodeId)) :=
  answered.filterMap fun answer => answer.1.contribution? defined answer.2

/-- Names that are not defined, as a report tells of them. -/
def Anomaly.ofUndefined (undefined : List (String × NodeId)) : List Anomaly :=
  undefined.map fun pair => .notDefined pair.1 pair.2

namespace Child

/-- Exactly the children with descriptions contribute something. -/
theorem length_contributions (defined : List String) (answered : List (Child × List NodeId)) :
    (contributions defined answered).length =
      (answered.filter fun answer => answer.2 ≠ []).length := by
  induction answered with
  | nil => rfl
  | cons answer rest ih =>
      obtain ⟨child, descriptions⟩ := answer
      cases descriptions with
      | nil => exact ih
      | cons target others => exact congrArg Nat.succ ih

end Child

namespace CrossReference

variable {types : TypeSet} {defined : List String}

theorem add_eq (known : ∀ name, types.contains name = true ↔ name ∈ defined)
    (found : CrossReference) (node : NodeId) (child : Child) (descriptions : List NodeId) :
    (found.add types node child descriptions).1.bound = found.bound ++
        (child.contribution? defined descriptions).toList.filterMap Sum.getLeft? ∧
      (found.add types node child descriptions).1.mismatches = found.mismatches ++
        Anomaly.ofUndefined
          ((child.contribution? defined descriptions).toList.filterMap Sum.getRight?) := by
  cases descriptions with
  | nil => exact ⟨(List.append_nil _).symm, (List.append_nil _).symm⟩
  | cons target others =>
      unfold add Child.contribution?
      by_cases contained : Identifier.clean child.browseName ∈ defined
      · simp only [(known _).mpr contained, contained, if_true]
        exact ⟨rfl, (List.append_nil _).symm⟩
      · simp only [mt (known _).mp contained, contained, if_false]
        exact ⟨(List.append_nil _).symm, rfl⟩

/-- Gathering adds what the children contribute, each thing to its own list. -/
theorem gather_eq (known : ∀ name, types.contains name = true ↔ name ∈ defined)
    (found : CrossReference) (node : NodeId) (answered : List (Child × List NodeId)) :
    (found.gather types node answered).bound = found.bound ++
        (Child.contributions defined answered).filterMap Sum.getLeft? ∧
      (found.gather types node answered).mismatches = found.mismatches ++
        Anomaly.ofUndefined ((Child.contributions defined answered).filterMap Sum.getRight?) := by
  induction answered generalizing found with
  | nil => exact ⟨(List.append_nil _).symm, (List.append_nil _).symm⟩
  | cons answer rest ih =>
      obtain ⟨bound, mismatches⟩ := add_eq known found node answer.1 answer.2
      obtain ⟨boundRest, mismatchesRest⟩ :=
        ih (found.add types node answer.1 answer.2).1
      have split : Child.contributions defined (answer :: rest) =
          (answer.1.contribution? defined answer.2).toList ++
            Child.contributions defined rest := by
        unfold Child.contributions
        cases contributed : answer.1.contribution? defined answer.2 with
        | none => exact List.filterMap_cons_none contributed
        | some contribution => exact List.filterMap_cons_some contributed
      rw [split, List.filterMap_append, List.filterMap_append, Anomaly.ofUndefined, List.map_append,
        ← List.append_assoc, ← List.append_assoc, ← bound]
      exact ⟨boundRest, mismatches ▸ mismatchesRest⟩

end CrossReference

namespace Resolution

variable {known : KnownTypes} {set result : TypeSet} {types : List ResolvedType}
  {definitions : List Definition}

/-- The names of a set are those that have been defined, in the order of their first definitions. -/
theorem names_extend (h : set.Holds types) (hok : extend known set definitions = .ok result) :
    result.names =
      (types.map ResolvedType.name ++ definitions.map Definition.name).eraseDups := by
  have complete := complete_of_extend h.toReflects hok
  rw [eq_insertAll_of_extend hok, (h.insertAll _).names_eq, List.map_append, complete.names_eq]

end Resolution

namespace AddressSpace

variable {space : AddressSpace} {node : NodeId} {session : Session} {model : Model}
  {types : TypeSet}

/-- The types of a document have the names that it defines, in the order of first definition. -/
theorem Defines.names_eq (h : space.Defines session node model types) :
    types.names = (model.definitions.map Definition.name).eraseDups := by
  obtain ⟨bytes, root, _, _, _, resolved⟩ := h
  exact Resolution.names_extend .empty resolved

theorem Defines.contains_iff (h : space.Defines session node model types) (name : String) :
    types.contains name = true ↔ name ∈ model.definitions.map Definition.name := by
  rw [h.indexed.contains_iff, ← h.indexed.mem_names_iff, h.names_eq, List.mem_eraseDups]

end AddressSpace

namespace Loader

variable {loader : Loader} {node : NodeId} {session after : Session} {report : Report}

/-- A report lists what the children contribute, bound names and mismatches each in the order of the
children. The overwrites behind the mismatches are those of the registrations in their order. What
is registered by name only is all that the document defines beside the bound names, each name once
and in the order of first definition. -/
theorem contributions_of_report (h : loader.registerNode node session = (.ok report, after)) :
    ∃ model types answered entries, loader.space.Defines session node model types ∧
      loader.space.Answers session.trace.calls node answered ∧
      after.registry = session.registry.addAll entries ∧
      entries.map Entry.registration = report.registrations ∧
      let defined := model.definitions.map Definition.name
      let contributions := Child.contributions defined answered
      types.names = defined.eraseDups ∧
      report.bound = contributions.filterMap Sum.getLeft? ∧
      report.anomalies = Anomaly.ofUndefined (contributions.filterMap Sum.getRight?) ++
        session.registry.overwrites entries ∧
      report.bound.length + report.mismatches.length =
        (answered.filter fun answer => answer.2 ≠ []).length ∧
      report.nameOnly = defined.eraseDups.filter (fun name => name ∉ report.boundNames) ∧
      report.nameOnly.Nodup ∧
      ∀ name, name ∈ defined ↔ name ∈ report.boundNames ∨ name ∈ report.nameOnly := by
  obtain ⟨plan, middle, hplan, sound, done⟩ := registerNode_eq_ok h
  obtain ⟨model, answered, defines, _, answers, found⟩ := AddressSpace.plan_eq_ok hplan
  obtain ⟨bound, mismatches⟩ := CrossReference.gather_eq defines.contains_iff (.start model) node
    answered
  rw [← found] at bound mismatches
  have names : report.boundNames = plan.found.bound.map Prod.fst := by
    rw [Report.boundNames, done.bound_eq]
  have left (name : String) : name ∈ report.nameOnly ↔
      name ∈ model.definitions.map Definition.name ∧ name ∉ report.boundNames := by
    rw [done.nameOnly_eq, Plan.mem_unbound_names_iff sound.indexed, defines.contains_iff, names]
  refine ⟨model, plan.types, answered, plan.entries session.loaded, defines, answers,
    done.registry, (done.registrations_eq sound).symm, defines.names_eq, ?_, ?_, ?_, ?_, ?_, ?_⟩
  · rw [done.bound_eq, bound]
    rfl
  · rw [done.report_eq, Plan.overwrites_carryOut, Plan.report, mismatches]
    rfl
  · have counted := Lists.length_getLeft?_add_length_getRight?
      (Child.contributions (model.definitions.map Definition.name) answered)
    rw [Child.length_contributions] at counted
    rw [done.bound_eq, done.mismatches_eq sound, bound, mismatches]
    simpa [CrossReference.start, Anomaly.ofUndefined] using counted
  · rw [done.nameOnly_eq, Plan.unbound, ← defines.names_eq, TypeSet.names, List.filter_map]
    congr 1
    apply List.filter_congr
    intro type _
    have bound : (plan.found.bound.any fun pair => pair.1 = type.name) =
        decide (type.name ∈ plan.found.bound.map Prod.fst) := by
      rw [Bool.eq_iff_iff, Lists.any_key_iff, decide_eq_true_iff]
    rw [names, Function.comp_apply, decide_not, bound]
  · rw [done.nameOnly_eq]
    exact Plan.nodup_unbound_names sound.indexed
  · intro name
    rw [left]
    by_cases hbound : name ∈ report.boundNames
    · have defined : name ∈ model.definitions.map Definition.name := by
        rw [names] at hbound
        obtain ⟨pair, hpair, rfl⟩ := List.mem_map.mp hbound
        exact (defines.contains_iff _).mp (sound.defined pair.1 pair.2 hpair)
      simp [hbound, defined]
    · simp [hbound]

/-- A loader of a server with one dictionary, which defines `P` twice. Of its three children the
first two have descriptions, and only the first is defined. -/
def sampleMixed : Loader where
  settings := .standard
  space :=
    { document := fun _ _ =>
        .ok (("<d><StructuredType Name='P'/><StructuredType Name='Q'/><EnumeratedType Name='P'/>" ++
          "</d>").toList.map Char.toUInt8)
      children := fun _ _ => .ok [⟨"P", ⟨"a"⟩⟩, ⟨"X-", ⟨"b"⟩⟩, ⟨"Q", ⟨"c"⟩⟩]
      descriptions := fun _ node => .ok (if node = ⟨"c"⟩ then [] else [⟨"i=1"⟩, ⟨"i=2"⟩]) }

/-- The second child names no type and the third describes nothing, so `Q` is left over. -/
theorem contributions_of_sampleMixed :
    ∃ report after types answered,
      sampleMixed.registerNode ⟨"d"⟩ (.start (.new true)) = (.ok report, after) ∧
      sampleMixed.space.Answers [] ⟨"d"⟩ answered ∧
      report.bound = [("P", ⟨"i=1"⟩)] ∧ report.anomalies = [.notDefined "X_" ⟨"b"⟩] ∧
      (answered.filter fun answer => answer.2 ≠ []).length = 2 ∧
      (TypeSet.names types).filter (fun name => name ∉ ["P"]) = ["Q"] ∧
      report.nameOnly = ["Q"] := by
  have told : (sampleMixed.registerNode ⟨"d"⟩ (.start (.new true))).1.map
      (fun report => (report.bound, report.anomalies, report.nameOnly)) =
      .ok ([("P", ⟨"i=1"⟩)], [.notDefined "X_" ⟨"b"⟩], ["Q"]) := by decide +kernel
  obtain ⟨report, hreport, hlists⟩ := Fallible.map_eq_ok_iff.mp told
  obtain ⟨bound, lists⟩ := Prod.mk.inj hlists
  obtain ⟨anomalies, nameOnly⟩ := Prod.mk.inj lists
  have run := Prod.fst_eq_iff.mp hreport
  obtain ⟨model, types, answered, entries, _, answers, _, _, names, _, _, counted, rest, _, _⟩ :=
    contributions_of_report run
  have boundNames : report.boundNames = ["P"] := by rw [Report.boundNames, bound]; rfl
  rw [nameOnly, boundNames, ← names] at rest
  rw [bound, Report.mismatches, anomalies] at counted
  exact ⟨report, _, types, answered, run, answers, bound, anomalies, counted.symm, rest.symm,
    nameOnly⟩

end Loader

end TypeDictionary
