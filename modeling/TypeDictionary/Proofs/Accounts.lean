import Mathlib.Algebra.GroupWithZero.Nat
import TypeDictionary.Proofs.Attempts
import TypeDictionary.Proofs.Overwrites
import TypeDictionary.Proofs.Reachable

/-!
# The account that reports give of a registry

A registry that only loaders write to can be followed from the reports they return, whatever fails
in between. `Registry.Recorded` says so of some reports: the registry has got entries, which the
reports list as registrations and whose overwrites they tell of, both in the order in which the
entries came. It holds of each request and is kept when requests follow each other, so it holds of
every run. The size of the registry and the identifiers of its names follow from the entries.
-/

namespace TypeDictionary

namespace Registry

open Anomaly

/-- Reports that tell all that has become of a registry. -/
def Recorded (registry : Registry) (reports : List Report) (later : Registry) : Prop :=
  ∃ entries, later = registry.addAll entries ∧
    reports.flatMap Report.registrations = entries.map Entry.registration ∧
    reports.flatMap Report.overwrites = registry.overwrites entries

/-- The identifier that a name has in a registry or, if it is new there, the one that reports list
it with first. -/
def firstId? (registry : Registry) (reports : List Report) (name : String) :
    Option (Option WireId) :=
  ((registry.entry? name).map Entry.wireId).or
    (((reports.flatMap Report.registrations).find? fun registration => registration.1 = name).map
      Prod.snd)

namespace Recorded

variable {registry middle later : Registry} {reports others : List Report}

theorem refl (registry : Registry) : registry.Recorded [] registry := ⟨[], rfl, rfl, rfl⟩

theorem append (first : registry.Recorded reports middle)
    (second : middle.Recorded others later) : registry.Recorded (reports ++ others) later := by
  obtain ⟨entries, rfl, listed, told⟩ := first
  obtain ⟨more, rfl, moreListed, moreTold⟩ := second
  refine ⟨entries ++ more, (addAll_append entries more).symm, ?_, ?_⟩
  · rw [List.flatMap_append, listed, moreListed, List.map_append]
  · rw [List.flatMap_append, told, moreTold, overwrites_append]

/-- Every registration is counted in a report, and those that brought no new name are told of. -/
theorem size_eq (h : registry.Recorded reports later) :
    later.size + (reports.flatMap Report.overwrites).length =
      registry.size + (reports.map Report.registered).sum := by
  obtain ⟨entries, rfl, listed, told⟩ := h
  have counted : (reports.map Report.registered).sum = entries.length := by
    have lengths := congrArg List.length listed
    rw [List.length_flatMap, List.length_map] at lengths
    simpa only [Report.length_registrations] using lengths
  rw [told, counted]
  exact size_addAll registry entries

/-- The reported changes of a name lead from its first identifier to that of its entry. A name
without a first identifier has neither. -/
theorem linked (h : registry.Recorded reports later) (name : String) :
    (∀ first, registry.firstId? reports name = some first →
      ∃ last, later.entry? name = some last ∧
        Linked first (changes name (reports.flatMap Report.anomalies)) last.wireId) ∧
    (registry.firstId? reports name = none →
      later.entry? name = none ∧ changes name (reports.flatMap Report.anomalies) = []) := by
  obtain ⟨entries, rfl, listed, told⟩ := h
  have found : (entries.map Entry.registration).find? (fun registration => registration.1 = name) =
      (entries.find? fun entry => entry.name = name).map Entry.registration := List.find?_map
  rw [Report.changes_anomalies, told, firstId?, listed, found, Option.map_map]
  cases known : registry.entry? name with
  | some entry =>
      rw [Option.map_some, Option.some_or]
      constructor
      · rintro _ ⟨⟩
        exact linked_of_known known entries
      · rintro ⟨⟩
  | none =>
      rw [Option.map_none, Option.none_or]
      constructor
      · intro first hfirst
        obtain ⟨entry, hentry, rfl⟩ := Option.map_eq_some_iff.mp hfirst
        exact linked_of_new known hentry
      · intro absent
        rw [Option.map_eq_none_iff, List.find?_eq_none] at absent
        exact changes_of_absent known fun entry hentry => by simpa using absent entry hentry

end Recorded

end Registry

namespace Loader

variable {loader : Loader}

/-- The reports that a request returns. -/
def reports (loader : Loader) (session : Session) : Request → List Report
  | .registerNode node => (loader.registerNode node session).1.toOption.toList
  | .registerNodes nodes => (loader.registerNodes nodes session).1.reports
  | .load nodes => ((loader.load nodes session).1.map Outcome.reports).toOption.getD []

theorem recorded_registerNode (loader : Loader) (node : NodeId) (session : Session) :
    session.registry.Recorded (loader.registerNode node session).1.toOption.toList
      (loader.registerNode node session).2.registry := by
  rcases run : loader.registerNode node session with ⟨result, after⟩
  cases result with
  | error error =>
      obtain ⟨registry, _⟩ := kept_of_registerNode_error run
      change session.registry.Recorded [] after.registry
      rw [registry]
      exact .refl session.registry
  | ok report =>
      obtain ⟨entries, registry, listed, told⟩ := exists_entries_of_report run
      refine ⟨entries, registry, ?_, ?_⟩
      · exact (List.flatMap_singleton _ report).trans listed
      · exact (List.flatMap_singleton _ report).trans told

theorem recorded_registerNodes (loader : Loader) (nodes : List NodeId) (session : Session) :
    session.registry.Recorded (loader.registerNodes nodes session).1.reports
      (loader.registerNodes nodes session).2.registry := by
  induction nodes generalizing session with
  | nil => exact .refl session.registry
  | cons node rest ih =>
      have first := loader.recorded_registerNode node session
      have others := ih (loader.registerNodes [node] session).2
      obtain ⟨events, next⟩ := loader.registerNodes_singleton node session
      have kept : (loader.registerNodes [node] session).2.registry =
          (loader.registerNode node session).2.registry := by
        rw [next]
        rfl
      rw [kept] at others
      rw [registerNodes_cons]
      rw [← Outcome.reports_ofAttempts_singleton node] at first
      exact first.append others

theorem recorded_discover (loader : Loader) (session : Session) :
    session.registry.Recorded [] (loader.discover session).2.registry := by
  rcases run : loader.discover session with ⟨result, after⟩
  obtain ⟨registry, _⟩ := loader.onlyTraces_discoverAction.kept run
  change session.registry.Recorded [] after.registry
  rw [registry]
  exact .refl session.registry

theorem recorded_load (loader : Loader) (nodes : Option (List NodeId)) (session : Session) :
    session.registry.Recorded (loader.reports session (.load nodes))
      (loader.load nodes session).2.registry := by
  cases nodes with
  | some nodes => exact loader.recorded_registerNodes nodes session
  | none =>
      have asked := loader.recorded_discover session
      unfold reports load
      rcases run : loader.discover session with ⟨result, after⟩
      rw [run] at asked
      cases result with
      | error error => exact asked
      | ok found => exact asked.append (loader.recorded_registerNodes found after)

theorem recorded_serve (loader : Loader) (session : Session) (request : Request) :
    session.registry.Recorded (loader.reports session request)
      (loader.serve session request).registry := by
  cases request with
  | registerNode node => exact loader.recorded_registerNode node session
  | registerNodes nodes => exact loader.recorded_registerNodes nodes session
  | load nodes => exact loader.recorded_load nodes session

end Loader

namespace Session

/-- The sessions that requests to loaders lead to, with the reports returned meanwhile. -/
inductive Run (session : Session) : List Report → Session → Prop
  | refl : Run session [] session
  | serve {reports : List Report} {later : Session} (earlier : Run session reports later)
      (loader : Loader) (request : Request) :
      Run session (reports ++ loader.reports later request) (loader.serve later request)
  | discover {reports : List Report} {later : Session} (earlier : Run session reports later)
      (loader : Loader) : Run session reports (loader.discover later).2

namespace Run

open Anomaly

variable {session later : Session} {reports : List Report}

theorem recorded (run : session.Run reports later) :
    session.registry.Recorded reports later.registry := by
  induction run with
  | refl => exact .refl session.registry
  | serve _ loader request ih => exact ih.append (loader.recorded_serve _ request)
  | discover _ loader ih =>
      have asked := ih.append (loader.recorded_discover _)
      rwa [List.append_nil] at asked

/-- Over any requests the registry grows by the registrations that the reports count, less the
overwrites that they tell of. The overwrites of each name are linked, from the identifier that it
had at the start or was first registered with to the one that it has at the end; a name without a
first identifier has no entry and no overwrites. -/
theorem overwrites_reported (run : session.Run reports later) :
    later.registry.size + (reports.flatMap Report.overwrites).length =
        session.registry.size + (reports.map Report.registered).sum ∧
      ∀ name,
        (∀ first, session.registry.firstId? reports name = some first →
          ∃ last, later.registry.entry? name = some last ∧
            Linked first (changes name (reports.flatMap Report.anomalies)) last.wireId) ∧
        (session.registry.firstId? reports name = none →
          later.registry.entry? name = none ∧
            changes name (reports.flatMap Report.anomalies) = []) :=
  ⟨run.recorded.size_eq, run.recorded.linked⟩

/-- A session in which two registrations of `P` by one document were followed by a failure. -/
def sampleRefused : Session :=
  Loader.sampleRefusing.serve
    (Loader.sampleDescribing.serve (.start (.new true)) (.registerNode ⟨"d"⟩))
    (.registerNodes [⟨"d"⟩])

/-- The reports returned in that session, and when the document is registered once more. -/
def sampleReports : List Report :=
  [] ++ Loader.sampleDescribing.reports (.start (.new true)) (.registerNode ⟨"d"⟩) ++
    Loader.sampleRefusing.reports
      (Loader.sampleDescribing.serve (.start (.new true)) (.registerNode ⟨"d"⟩))
      (.registerNodes [⟨"d"⟩]) ++
    Loader.sampleDescribing.reports sampleRefused (.load (some [⟨"d"⟩]))

/-- One name from four registrations, and three overwrites that lead from its first identifier to
its last. -/
theorem overwrites_reported_sample :
    ∃ later last, (start (.new true)).Run sampleReports later ∧
      later.registry.size + (sampleReports.flatMap Report.overwrites).length = 4 ∧
      changes "P" (sampleReports.flatMap Report.anomalies) =
        [(some ⟨"i=1"⟩, some ⟨"i=2"⟩), (some ⟨"i=2"⟩, some ⟨"i=1"⟩),
          (some ⟨"i=1"⟩, some ⟨"i=2"⟩)] ∧
      later.registry.entry? "P" = some last ∧ last.wireId = some ⟨"i=2"⟩ := by
  have run : (start (.new true)).Run sampleReports
      (Loader.sampleDescribing.serve sampleRefused (.load (some [⟨"d"⟩]))) :=
    ((refl.serve Loader.sampleDescribing (.registerNode ⟨"d"⟩)).serve Loader.sampleRefusing
      (.registerNodes [⟨"d"⟩])).serve Loader.sampleDescribing (.load (some [⟨"d"⟩]))
  have registered : (sampleReports.map Report.registered).sum = 4 := by decide +kernel
  have first : (start (.new true)).registry.firstId? sampleReports "P" = some (some ⟨"i=1"⟩) := by
    decide +kernel
  have overwritten : changes "P" (sampleReports.flatMap Report.anomalies) =
      [(some ⟨"i=1"⟩, some ⟨"i=2"⟩), (some ⟨"i=2"⟩, some ⟨"i=1"⟩),
        (some ⟨"i=1"⟩, some ⟨"i=2"⟩)] := by decide +kernel
  obtain ⟨size, names⟩ := overwrites_reported run
  have linked := (names "P").1 _ first
  rw [registered] at size
  rw [overwritten] at linked
  obtain ⟨last, hlast, _, _, _, ends⟩ := linked
  exact ⟨_, last, run, size, overwritten, hlast, ends.symm⟩

end Run

end Session

end TypeDictionary
