import TypeDictionary.Proofs.History
import TypeDictionary.Proofs.Report

/-!
# Overwrites

A registration that takes the place of another is reported with the identifiers of both. Which
overwrites are reported can be told of the registry and of the entries that are added to it, without
the plan that the entries come from, and so can all that follows from the reports: a registry has as
many names more as there were registrations that are not reported as overwrites, and the overwrites
of a name are linked, each from the identifier that the one before it has led to.
-/

namespace TypeDictionary

namespace Anomaly

/-- The identifiers before and after an overwrite, if it is one of the given name. -/
def change? (name : String) : Anomaly → Option (Option WireId × Option WireId)
  | notDefined .. => none
  | overwrite other previous current => if other = name then some (previous, current) else none

/-- The changes of a name that some anomalies tell of, in their order. -/
def changes (name : String) (anomalies : List Anomaly) : List (Option WireId × Option WireId) :=
  anomalies.filterMap (change? name)

/-- Changes that lead from a first identifier to a last one: each begins where the one before it has
ended. -/
def Linked : Option WireId → List (Option WireId × Option WireId) → Option WireId → Prop
  | first, [], last => first = last
  | first, (previous, current) :: rest, last => previous = first ∧ Linked current rest last

theorem changes_append (name : String) (first second : List Anomaly) :
    changes name (first ++ second) = changes name first ++ changes name second :=
  List.filterMap_append

/-- Only overwrites change anything. -/
theorem changes_filter_isOverwrite (name : String) (anomalies : List Anomaly) :
    changes name (anomalies.filter isOverwrite) = changes name anomalies := by
  rw [changes, changes, List.filterMap_filter]
  congr 1
  funext anomaly
  cases anomaly <;> rfl

end Anomaly

namespace Table

variable {κ α : Type} [DecidableEq κ]

theorem mem_keys_iff {table : Table κ α} {key : κ} :
    key ∈ table.keys ↔ (table.get? key).isSome = true := by
  rw [get?, List.lookup_isSome_iff, keys, List.mem_map]
  simp only [beq_iff_eq, @eq_comm κ key]

/-- A table grows by the keys that it did not have. -/
theorem size_insert (table : Table κ α) (key : κ) (value : α) :
    (table.insert key value).size =
      if (table.get? key).isSome then table.size else table.size + 1 := by
  have counted (table : Table κ α) : table.size = table.keys.length := by
    rw [size, keys, List.length_map]
  rw [counted, counted, keys_insert]
  by_cases known : key ∈ table.keys
  · rw [if_pos known, if_pos (mem_keys_iff.mp known)]
  · rw [if_neg known, if_neg (mt mem_keys_iff.mpr known), List.length_append,
      List.length_singleton]

end Table

namespace Registry

open Anomaly

variable {registry : Registry} {entry previous : Entry} {entries : List Entry} {name : String}

/-- The overwrites that are reported when entries are added one after the other. -/
def overwrites (registry : Registry) : List Entry → List Anomaly
  | [] => []
  | entry :: rest =>
    match registry.entry? entry.name with
    | some previous =>
      .overwrite entry.name previous.wireId entry.wireId :: (registry.add entry).overwrites rest
    | none => (registry.add entry).overwrites rest

theorem overwrites_cons_of_known (known : registry.entry? entry.name = some previous) :
    registry.overwrites (entry :: entries) =
      .overwrite entry.name previous.wireId entry.wireId ::
        (registry.add entry).overwrites entries := by
  simp only [overwrites, known]

theorem overwrites_cons_of_new (new : registry.entry? entry.name = none) :
    registry.overwrites (entry :: entries) = (registry.add entry).overwrites entries := by
  simp only [overwrites, new]

theorem overwrites_append (registry : Registry) (first second : List Entry) :
    registry.overwrites (first ++ second) =
      registry.overwrites first ++ (registry.addAll first).overwrites second := by
  induction first generalizing registry with
  | nil => rfl
  | cons entry rest ih =>
      cases known : registry.entry? entry.name with
      | none =>
          rw [List.cons_append, overwrites_cons_of_new known, overwrites_cons_of_new known, ih,
            addAll_cons]
      | some previous =>
          rw [List.cons_append, overwrites_cons_of_known known, overwrites_cons_of_known known, ih,
            addAll_cons, List.cons_append]

theorem isOverwrite_of_mem_overwrites {anomaly : Anomaly}
    (h : anomaly ∈ registry.overwrites entries) : anomaly.isOverwrite = true := by
  induction entries generalizing registry with
  | nil => cases h
  | cons entry rest ih =>
      cases known : registry.entry? entry.name with
      | none =>
          rw [overwrites_cons_of_new known] at h
          exact ih h
      | some previous =>
          rw [overwrites_cons_of_known known] at h
          rcases List.mem_cons.mp h with rfl | h
          · rfl
          · exact ih h

theorem size_add (registry : Registry) (entry : Entry) :
    (registry.add entry).size =
      if (registry.entry? entry.name).isSome then registry.size else registry.size + 1 :=
  Table.size_insert registry.byName entry.name entry

/-- Each registration brings a new name or is reported as an overwrite. -/
theorem size_addAll (registry : Registry) (entries : List Entry) :
    (registry.addAll entries).size + (registry.overwrites entries).length =
      registry.size + entries.length := by
  induction entries generalizing registry with
  | nil => rfl
  | cons entry rest ih =>
      have grown := ih (registry.add entry)
      rw [size_add] at grown
      cases known : registry.entry? entry.name with
      | none =>
          rw [known, Option.isSome_none, if_neg Bool.false_ne_true] at grown
          rw [addAll_cons, overwrites_cons_of_new known, List.length_cons]
          omega
      | some previous =>
          rw [known, Option.isSome_some, if_pos rfl] at grown
          rw [addAll_cons, overwrites_cons_of_known known, List.length_cons, List.length_cons]
          omega

/-- If every name is known, every registration is reported as an overwrite of its own name that led
to its own identifier. -/
theorem overwrites_of_known
    (known : ∀ entry ∈ entries, registry.entry? entry.name ≠ none) :
    List.Forall₂ (fun entry anomaly =>
        ∃ previous, anomaly = .overwrite entry.name previous entry.wireId)
      entries (registry.overwrites entries) := by
  induction entries generalizing registry with
  | nil => exact .nil
  | cons entry rest ih =>
      rw [List.forall_mem_cons] at known
      obtain ⟨previous, found⟩ := Option.ne_none_iff_exists'.mp known.1
      have later : ∀ other ∈ rest, entry? (registry.add entry) other.name ≠ none := by
        intro other hother
        rw [entry?_add]
        split
        · exact Option.some_ne_none entry
        · exact known.2 other hother
      rw [overwrites_cons_of_known found]
      exact .cons ⟨previous.wireId, rfl⟩ (ih later)

/-- A registration under another name changes nothing for a name. -/
theorem changes_cons_of_ne (apart : entry.name ≠ name) :
    changes name (registry.overwrites (entry :: entries)) =
      changes name ((registry.add entry).overwrites entries) := by
  cases known : registry.entry? entry.name with
  | none => rw [overwrites_cons_of_new known]
  | some previous =>
      have other : change? name (.overwrite entry.name previous.wireId entry.wireId) = none :=
        if_neg apart
      rw [overwrites_cons_of_known known, changes, List.filterMap_cons_none other, changes]

theorem changes_cons_of_known (known : registry.entry? entry.name = some previous) :
    changes entry.name (registry.overwrites (entry :: entries)) =
      (previous.wireId, entry.wireId) ::
        changes entry.name ((registry.add entry).overwrites entries) := by
  have own : change? entry.name (.overwrite entry.name previous.wireId entry.wireId) =
      some (previous.wireId, entry.wireId) := if_pos rfl
  rw [overwrites_cons_of_known known, changes, List.filterMap_cons_some own, changes]

/-- The overwrites of a known name lead from the identifier of its entry to that of its last
entry. -/
theorem linked_of_known (known : registry.entry? name = some entry) (entries : List Entry) :
    ∃ last, entry? (registry.addAll entries) name = some last ∧
      Linked entry.wireId (changes name (registry.overwrites entries)) last.wireId := by
  induction entries generalizing registry entry with
  | nil => exact ⟨entry, known, rfl⟩
  | cons added rest ih =>
      rw [addAll_cons]
      by_cases same : added.name = name
      · subst same
        have found : entry? (registry.add added) added.name = some added := by simp
        obtain ⟨last, hlast, linked⟩ := ih found
        rw [changes_cons_of_known known]
        exact ⟨last, hlast, rfl, linked⟩
      · have found : entry? (registry.add added) name = some entry := by simp [same, known]
        obtain ⟨last, hlast, linked⟩ := ih found
        rw [changes_cons_of_ne same]
        exact ⟨last, hlast, linked⟩

/-- The overwrites of a new name lead from the identifier of its first entry to that of its last. -/
theorem linked_of_new (new : registry.entry? name = none) {first : Entry}
    (added : entries.find? (fun entry => entry.name = name) = some first) :
    ∃ last, entry? (registry.addAll entries) name = some last ∧
      Linked first.wireId (changes name (registry.overwrites entries)) last.wireId := by
  induction entries generalizing registry with
  | nil => cases added
  | cons entry rest ih =>
      rw [addAll_cons]
      by_cases same : entry.name = name
      · subst same
        rw [List.find?_cons_of_pos (by simp)] at added
        cases added
        rw [overwrites_cons_of_new new]
        exact linked_of_known (by simp) rest
      · rw [List.find?_cons_of_neg (by simpa using same)] at added
        rw [changes_cons_of_ne same]
        exact ih (by simp [same, new]) added

theorem changes_of_absent (new : registry.entry? name = none)
    (absent : ∀ entry ∈ entries, entry.name ≠ name) :
    entry? (registry.addAll entries) name = none ∧
      changes name (registry.overwrites entries) = [] := by
  induction entries generalizing registry with
  | nil => exact ⟨new, rfl⟩
  | cons entry rest ih =>
      rw [List.forall_mem_cons] at absent
      rw [addAll_cons, changes_cons_of_ne absent.1]
      exact ih (by simp [absent.1, new]) absent.2

end Registry

namespace Plan

theorem overwrites_register (progress : Progress) (entry : Entry) :
    (progress.register entry.name entry.wireId entry.handle).overwrites =
      progress.overwrites ++ progress.registry.overwrites [entry] := by
  simp only [Progress.register, Registry.register, Registry.outcome, Registry.overwrites]
  cases progress.registry.entry? entry.name <;> rfl

/-- Registering entries adds their overwrites to those before. -/
theorem overwrites_registerAll (progress : Progress) (entries : List Entry) :
    (progress.registerAll entries).overwrites =
      progress.overwrites ++ progress.registry.overwrites entries := by
  induction entries generalizing progress with
  | nil => exact (List.append_nil _).symm
  | cons entry rest ih =>
      have turn := overwrites_register progress entry
      have others := ih (progress.register entry.name entry.wireId entry.handle)
      have whole := Registry.overwrites_append progress.registry [entry] rest
      rw [List.singleton_append] at whole
      rw [turn, List.append_assoc] at others
      rw [whole]
      exact others

theorem overwrites_carryOut (plan : Plan) (origin : Nat) (registry : Registry) :
    (plan.carryOut origin registry).overwrites = registry.overwrites (plan.entries origin) := by
  rw [carryOut_eq, overwrites_registerAll, List.nil_append]

end Plan

namespace Report

/-- The overwrites among the anomalies of a report. -/
def overwrites (report : Report) : List Anomaly := report.anomalies.filter Anomaly.isOverwrite

/-- The other anomalies: described children that name no type of the document. -/
def mismatches (report : Report) : List Anomaly :=
  report.anomalies.filter fun anomaly => !anomaly.isOverwrite

/-- What reports tell of the changes of a name, they tell by their overwrites. -/
theorem changes_anomalies (reports : List Report) (name : String) :
    Anomaly.changes name (reports.flatMap anomalies) =
      Anomaly.changes name (reports.flatMap overwrites) := by
  induction reports with
  | nil => rfl
  | cons report rest ih =>
      rw [List.flatMap_cons, List.flatMap_cons, Anomaly.changes_append, Anomaly.changes_append, ih,
        overwrites, Anomaly.changes_filter_isOverwrite]

end Report

namespace Plan

variable {plan : Plan}

theorem registrations_report (sound : plan.Sound) (overwrites : List Anomaly) (origin : Nat) :
    (plan.report overwrites).registrations = (plan.entries origin).map Entry.registration :=
  (map_registration_entries sound origin).symm

theorem overwrites_report (sound : plan.Sound) (registry : Registry) (entries : List Entry) :
    (plan.report (registry.overwrites entries)).overwrites = registry.overwrites entries := by
  have none : plan.found.mismatches.filter Anomaly.isOverwrite = [] := by
    rw [List.filter_eq_nil_iff]
    intro anomaly hanomaly
    rw [sound.mismatches anomaly hanomaly]
    exact Bool.false_ne_true
  have all : (registry.overwrites entries).filter Anomaly.isOverwrite =
      registry.overwrites entries :=
    List.filter_eq_self.mpr fun _ => Registry.isOverwrite_of_mem_overwrites
  rw [Report.overwrites, report, List.filter_append, none, all, List.nil_append]

theorem mismatches_report (sound : plan.Sound) (registry : Registry) (entries : List Entry) :
    (plan.report (registry.overwrites entries)).mismatches = plan.found.mismatches := by
  have all : plan.found.mismatches.filter (fun anomaly => !anomaly.isOverwrite) =
      plan.found.mismatches := by
    rw [List.filter_eq_self]
    intro anomaly hanomaly
    rw [sound.mismatches anomaly hanomaly]
    rfl
  have none : (registry.overwrites entries).filter (fun anomaly => !anomaly.isOverwrite) = [] := by
    rw [List.filter_eq_nil_iff]
    intro anomaly hanomaly
    rw [Registry.isOverwrite_of_mem_overwrites hanomaly]
    exact Bool.false_ne_true
  rw [Report.mismatches, report, List.filter_append, all, none, List.append_nil]

end Plan

namespace Plan.Done

variable {plan : Plan} {session after : Session} {report : Report}

theorem registrations_eq (done : plan.Done session report after) (sound : plan.Sound) :
    report.registrations = (plan.entries session.loaded).map Entry.registration := by
  rw [done.report_eq, registrations_report sound]

theorem overwrites_eq (done : plan.Done session report after) (sound : plan.Sound) :
    report.overwrites = session.registry.overwrites (plan.entries session.loaded) := by
  rw [done.report_eq, overwrites_carryOut, overwrites_report sound]

theorem mismatches_eq (done : plan.Done session report after) (sound : plan.Sound) :
    report.mismatches = plan.found.mismatches := by
  rw [done.report_eq, overwrites_carryOut, mismatches_report sound]

end Plan.Done

namespace Loader

variable {loader : Loader} {node : NodeId} {session after : Session} {report : Report}

/-- A registration adds entries, lists them in its report and reports their overwrites. -/
theorem exists_entries_of_report (h : loader.registerNode node session = (.ok report, after)) :
    ∃ entries, after.registry = session.registry.addAll entries ∧
      report.registrations = entries.map Entry.registration ∧
      report.overwrites = session.registry.overwrites entries := by
  obtain ⟨plan, middle, _, sound, done⟩ := registerNode_eq_ok h
  exact ⟨plan.entries session.loaded, done.registry, done.registrations_eq sound,
    done.overwrites_eq sound⟩

end Loader

end TypeDictionary
