import TypeDictionary.Proofs.Overwrites
import TypeDictionary.Proofs.Stateless

/-!
# Registries that answer alike

When a document is registered again, each type is made anew, equal to the one before but not the
same. Registries are alike if that is all they differ in: each name and each identifier answers in
both with entries of the same content, or in neither. Alike registries know the same types, so they
cannot be told apart by a registration, and stay alike when entries of the same contents are added
to them. With a stateless server nothing else of a session matters to what registrations do to it.
-/

namespace TypeDictionary

/-- What an entry holds, apart from which resolution has made its type. -/
def Entry.content (entry : Entry) : Option WireId × String × ResolvedType :=
  (entry.wireId, entry.name, entry.handle.type)

theorem Entry.content_eq_iff {entry other : Entry} :
    entry.content = other.content ↔
      entry.wireId = other.wireId ∧ entry.name = other.name ∧
        entry.handle.type = other.handle.type := by
  rw [content, content, Prod.mk.injEq, Prod.mk.injEq]

namespace Registry

/-- Registries in which everything answers with entries of the same content. -/
structure Alike (registry other : Registry) : Prop where
  byName : ∀ name,
    (registry.entry? name).map Entry.content = (other.entry? name).map Entry.content
  byWireId : ∀ id,
    (registry.entryById? id).map Entry.content = (other.entryById? id).map Entry.content
  logsOverwrites : registry.logsOverwrites = other.logsOverwrites

theorem logsOverwrites_addAll (registry : Registry) (entries : List Entry) :
    (registry.addAll entries).logsOverwrites = registry.logsOverwrites := by
  induction entries generalizing registry with
  | nil => rfl
  | cons entry rest ih => exact ih (registry.add entry)

namespace Alike

variable {registry other : Registry}

theorem refl (registry : Registry) : registry.Alike registry := ⟨fun _ => rfl, fun _ => rfl, rfl⟩

theorem symm (h : registry.Alike other) : other.Alike registry where
  byName := fun name => (h.byName name).symm
  byWireId := fun id => (h.byWireId id).symm
  logsOverwrites := h.logsOverwrites.symm

/-- Alike registries know the same types. -/
theorem known_eq (h : registry.Alike other) : registry.known = other.known := by
  funext name
  have same := congrArg (Option.map fun content => content.2.2) (h.byName name)
  rw [Option.map_map, Option.map_map] at same
  unfold known type?
  rw [Option.map_map, Option.map_map]
  exact same

theorem add (h : registry.Alike other) {entry again : Entry}
    (same : entry.content = again.content) : (registry.add entry).Alike (other.add again) where
  byName := by
    intro name
    obtain ⟨_, named, _⟩ := Entry.content_eq_iff.mp same
    rw [entry?_add, entry?_add, named]
    split
    · rw [Option.map_some, Option.map_some, same]
    · exact h.byName name
  byWireId := by
    intro id
    obtain ⟨identified, _, _⟩ := Entry.content_eq_iff.mp same
    rw [entryById?_add, entryById?_add, identified]
    split
    · rw [Option.map_some, Option.map_some, same]
    · exact h.byWireId id
  logsOverwrites := h.logsOverwrites

/-- Registries stay alike when the same contents are added to them. -/
theorem addAll (h : registry.Alike other) {entries again : List Entry}
    (same : entries.map Entry.content = again.map Entry.content) :
    (registry.addAll entries).Alike (other.addAll again) := by
  induction entries generalizing registry other again with
  | nil =>
      rw [List.map_nil, eq_comm, List.map_eq_nil_iff] at same
      subst same
      exact h
  | cons entry rest ih =>
      obtain ⟨first, others, rfl, hfirst, hothers⟩ := List.map_eq_cons_iff.mp same.symm
      exact ih (h.add hfirst.symm) hothers.symm

/-- The same overwrites are told of when the same contents are added. -/
theorem overwrites_eq (h : registry.Alike other) {entries again : List Entry}
    (same : entries.map Entry.content = again.map Entry.content) :
    registry.overwrites entries = other.overwrites again := by
  induction entries generalizing registry other again with
  | nil =>
      rw [List.map_nil, eq_comm, List.map_eq_nil_iff] at same
      subst same
      rfl
  | cons entry rest ih =>
      obtain ⟨first, others, rfl, hfirst, hothers⟩ := List.map_eq_cons_iff.mp same.symm
      obtain ⟨identified, named, _⟩ := Entry.content_eq_iff.mp hfirst
      have answered := h.byName entry.name
      have later := ih (h.add hfirst.symm) hothers.symm
      cases hother : other.entry? entry.name with
      | none =>
          rw [hother, Option.map_none, Option.map_eq_none_iff] at answered
          rw [overwrites_cons_of_new answered, overwrites_cons_of_new (by rw [named, hother]),
            later]
      | some previous =>
          rw [hother, Option.map_some, Option.map_eq_some_iff] at answered
          obtain ⟨own, hown, content⟩ := answered
          rw [overwrites_cons_of_known hown,
            overwrites_cons_of_known (by rw [named, hother]), later, named, identified,
            (Entry.content_eq_iff.mp content).1]

end Alike

/-- The last entry with a property of its content has the same content in any list of the same
contents. -/
theorem map_findRev?_content {entries again : List Entry}
    (same : again.map Entry.content = entries.map Entry.content)
    (p : Option WireId × String × ResolvedType → Bool) :
    (again.findRev? fun entry => p entry.content).map Entry.content =
      (entries.findRev? fun entry => p entry.content).map Entry.content := by
  rw [← Latest.findRev?_map, ← Latest.findRev?_map, same]

/-- Adding the same contents once more changes nothing that a registry answers. -/
theorem alike_addAll_again (registry : Registry) {entries again : List Entry}
    (same : again.map Entry.content = entries.map Entry.content) :
    ((registry.addAll entries).addAll again).Alike (registry.addAll entries) where
  byName := by
    intro name
    have last : (again.findRev? fun entry => entry.name = name).map Entry.content =
        (entries.findRev? fun entry => entry.name = name).map Entry.content :=
      map_findRev?_content same fun content => content.2.1 = name
    rw [entry?_addAll, entry?_addAll, Option.map_or, Option.map_or, last, ← Option.or_assoc,
      Option.or_self]
  byWireId := by
    intro id
    have last : (again.findRev? fun entry => entry.wireId = some id).map Entry.content =
        (entries.findRev? fun entry => entry.wireId = some id).map Entry.content :=
      map_findRev?_content same fun content => content.1 = some id
    rw [entryById?_addAll, entryById?_addAll, Option.map_or, Option.map_or, last,
      ← Option.or_assoc, Option.or_self]
  logsOverwrites := logsOverwrites_addAll _ again

/-- What names that are not among some entries' are known as does not change when these are
added. -/
theorem known_addAll_of_absent {registry : Registry} {entries : List Entry} {name : String}
    (absent : ∀ entry ∈ entries, entry.name ≠ name) :
    (registry.addAll entries).known name = registry.known name := by
  have none : entries.findRev? (fun entry => entry.name = name) = Option.none := by
    rw [Latest.findRev?_eq_none_iff]
    intro entry hentry
    simpa using absent entry hentry
  unfold known type?
  rw [entry?_addAll, none, Option.none_or]

end Registry

namespace Plan

variable {plan : Plan} {session other after later : Session} {report again : Report}

/-- The entries of a plan differ from one session to another in what has made their types only. -/
theorem map_content_entries (plan : Plan) (origin other : Nat) :
    (plan.entries origin).map Entry.content = (plan.entries other).map Entry.content := by
  simp only [entries, boundEntry, namedEntry, Entry.content, List.map_append, List.map_filterMap,
    List.map_map, Option.map_map, Function.comp_def]

/-- In alike registries a plan comes to the same report and to alike registries. -/
theorem Done.alike (done : plan.Done session report after) (doneAgain : plan.Done other again later)
    (alike : session.registry.Alike other.registry) :
    report = again ∧ after.registry.Alike later.registry := by
  have same := plan.map_content_entries session.loaded other.loaded
  rw [done.report_eq, doneAgain.report_eq, overwrites_carryOut, overwrites_carryOut, done.registry,
    doneAgain.registry, alike.overwrites_eq same]
  exact ⟨rfl, alike.addAll same⟩

end Plan

namespace Loader

variable {loader : Loader} {node : NodeId} {session other after : Session} {report : Report}

/-- With a stateless server alike registries make no difference to a registration that succeeds. -/
theorem registerNode_of_alike (stateless : loader.space.IsStateless)
    (h : loader.registerNode node session = (.ok report, after))
    (alike : session.registry.Alike other.registry) :
    ∃ later, loader.registerNode node other = (.ok report, later) ∧
      after.registry.Alike later.registry := by
  obtain ⟨plan, _, hplan, _, done⟩ := registerNode_eq_ok h
  obtain ⟨_, hplanAgain⟩ := AddressSpace.exists_plan_of_resolve_eq stateless hplan
    fun model _ => congrArg model.resolve alike.known_eq.symm
  obtain ⟨again, later, hagain, doneAgain⟩ := registerNode_of_plan hplanAgain
  obtain ⟨rfl, alikeAfter⟩ := done.alike doneAgain alike
  exact ⟨later, hagain, alikeAfter⟩

/-- Of a session, a stateless server's nodes change the same whatever its trace is. -/
theorem kept_registerNode_of_eq (stateless : loader.space.IsStateless) (node : NodeId)
    (registry : session.registry = other.registry) (loaded : session.loaded = other.loaded) :
    (loader.registerNode node session).2.registry = (loader.registerNode node other).2.registry ∧
      (loader.registerNode node session).2.loaded = (loader.registerNode node other).2.loaded := by
  have alike : session.registry.Alike other.registry := registry ▸ .refl session.registry
  rcases run : loader.registerNode node session with ⟨result, after⟩
  rcases runOther : loader.registerNode node other with ⟨resultOther, later⟩
  cases result with
  | ok report =>
      obtain ⟨plan, _, hplan, _, done⟩ := registerNode_eq_ok run
      obtain ⟨_, hplanOther⟩ := AddressSpace.exists_plan_of_resolve_eq stateless hplan
        fun model _ => congrArg model.resolve alike.known_eq.symm
      obtain ⟨_, made, hmade, doneOther⟩ := registerNode_of_plan hplanOther
      rw [runOther] at hmade
      cases hmade
      rw [done.registry, done.loaded, doneOther.registry, doneOther.loaded, registry, loaded]
      exact ⟨rfl, rfl⟩
  | error error =>
      cases resultOther with
      | ok report =>
          obtain ⟨_, again, _⟩ := registerNode_of_alike stateless runOther alike.symm
          rw [run] at again
          cases again
      | error other =>
          obtain ⟨kept, count⟩ := kept_of_registerNode_error run
          obtain ⟨keptOther, countOther⟩ := kept_of_registerNode_error runOther
          rw [kept, count, keptOther, countOther]
          exact ⟨registry, loaded⟩

end Loader

end TypeDictionary
