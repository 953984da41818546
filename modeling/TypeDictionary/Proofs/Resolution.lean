import TypeDictionary.Proofs.Reference

/-!
# Resolution of a model

Definitions are resolved in order, each against those before it. What comes of a model is described
here from its definitions alone: when it resolves at all, which reference is the first that means
nothing, and what each field's element type is. The set that the program keeps meanwhile appears
only in the induction, where it reflects the types made so far.

`Model.resolved` lists the types in the order of their definitions, also those that a later
definition replaces in the set.
-/

namespace TypeDictionary

/-- What a definition resolves to: a record of the same name whose fields resolve one by one, or the
enumeration as it is. -/
inductive Definition.ResolvesTo (known : KnownTypes) (earlier : List ResolvedType) :
    Definition → ResolvedType → Prop
  | record {definition : RecordDef} {fields : List (Field FieldType)}
      (resolved : List.Forall₂ (Field.ResolvesTo known earlier) definition.fields fields) :
      ResolvesTo known earlier (.record definition) (.record ⟨definition.name, fields⟩)
  | enumeration (definition : Enumeration) :
      ResolvesTo known earlier (.enumeration definition) (.enumeration definition)

namespace Definition

open Fallible

variable {known : KnownTypes} {set : TypeSet} {types : List ResolvedType}

theorem ResolvesTo.name_eq {definition : Definition} {type : ResolvedType}
    (h : definition.ResolvesTo known types type) : type.name = definition.name := by
  cases h <;> rfl

theorem resolve_eq_ok_iff (h : set.Reflects types) {definition : Definition}
    {type : ResolvedType} :
    definition.resolve known set = .ok type ↔ definition.ResolvesTo known types type := by
  cases definition with
  | record definition =>
      unfold resolve
      rw [bind_eq_ok_iff]
      simp only [Field.resolveAll_eq_ok_iff h]
      constructor
      · rintro ⟨fields, resolved, ⟨⟩⟩
        exact .record resolved
      · rintro ⟨resolved⟩
        exact ⟨_, resolved, rfl⟩
  | enumeration definition =>
      constructor
      · rintro ⟨⟩
        exact .enumeration definition
      · rintro ⟨⟩
        rfl

theorem resolve_eq_error_iff (h : set.Reflects types) {definition : Definition}
    {error : UnresolvedReference} :
    definition.resolve known set = .error error ↔
      ∃ record, definition = .record record ∧
        known.FirstMissing (types.map ResolvedType.name) record.name record.fields error := by
  cases definition with
  | record definition =>
      unfold resolve
      rw [bind_eq_error_iff, Field.resolveAll_eq_error_iff h]
      constructor
      · rintro (missing | ⟨_, _, ⟨⟩⟩)
        exact ⟨definition, rfl, missing⟩
      · rintro ⟨record, ⟨⟩, missing⟩
        exact .inl missing
  | enumeration definition =>
      constructor
      · rintro ⟨⟩
      · rintro ⟨record, ⟨⟩, _⟩

/-- A definition resolves exactly when all its element types are provided. -/
theorem exists_resolve_ok_iff (h : set.Reflects types) {definition : Definition} :
    (∃ type, definition.resolve known set = .ok type) ↔
      ∀ record, definition = .record record →
        known.ProvidesAll (types.map ResolvedType.name) record.fields := by
  cases definition with
  | record definition =>
      unfold resolve
      simp only [bind_eq_ok_iff]
      constructor
      · rintro ⟨_, fields, hfields, _⟩ record ⟨⟩
        exact (Field.exists_resolveAll_ok_iff h).mp ⟨fields, hfields⟩
      · intro provided
        obtain ⟨fields, hfields⟩ := (Field.exists_resolveAll_ok_iff h).mpr (provided _ rfl)
        exact ⟨_, fields, hfields, rfl⟩
  | enumeration definition =>
      constructor
      · rintro _ record ⟨⟩
      · rintro _
        exact ⟨_, rfl⟩

end Definition

namespace KnownTypes

/-- Whether the references of all records among some definitions mean something, each where it
stands; `earlier` are the names defined before. -/
def Suffices (known : KnownTypes) (earlier : List String) (definitions : List Definition) : Prop :=
  ∀ before record after, definitions = before ++ .record record :: after →
    known.ProvidesAll (earlier ++ before.map Definition.name) record.fields

/-- The first reference that means nothing, as an error tells of it: records in the order of their
definitions, and fields in their order within a record. -/
def FirstUnresolved (known : KnownTypes) (earlier : List String) (definitions : List Definition)
    (error : UnresolvedReference) : Prop :=
  ∃ before record after, definitions = before ++ .record record :: after ∧
    known.Suffices earlier before ∧
    known.FirstMissing (earlier ++ before.map Definition.name) record.name record.fields error

variable {known : KnownTypes} {earlier : List String} {definition : Definition}
  {definitions : List Definition} {error : UnresolvedReference}

theorem suffices_nil : known.Suffices earlier [] := by
  intro before record after split
  cases before <;> cases split

theorem suffices_cons :
    known.Suffices earlier (definition :: definitions) ↔
      (∀ record, definition = .record record → known.ProvidesAll earlier record.fields) ∧
        known.Suffices (earlier ++ [definition.name]) definitions := by
  constructor
  · intro h
    refine ⟨?_, ?_⟩
    · rintro record rfl
      simpa using h [] record definitions rfl
    · rintro before record after rfl
      simpa using h (definition :: before) record after rfl
  · rintro ⟨hfirst, hrest⟩ before record after split
    cases before with
    | nil =>
        cases split
        simpa using hfirst record rfl
    | cons first before =>
        cases split
        simpa using hrest before record after rfl

theorem not_firstUnresolved_nil : ¬known.FirstUnresolved earlier [] error := by
  rintro ⟨before, record, after, split, _⟩
  cases before <;> cases split

theorem firstUnresolved_cons :
    known.FirstUnresolved earlier (definition :: definitions) error ↔
      (∃ record, definition = .record record ∧
        known.FirstMissing earlier record.name record.fields error) ∨
      (∀ record, definition = .record record → known.ProvidesAll earlier record.fields) ∧
        known.FirstUnresolved (earlier ++ [definition.name]) definitions error := by
  constructor
  · rintro ⟨before, record, after, split, sufficient, missing⟩
    cases before with
    | nil =>
        cases split
        exact .inl ⟨record, rfl, by simpa using missing⟩
    | cons first before =>
        cases split
        obtain ⟨hfirst, sufficient⟩ := suffices_cons.mp sufficient
        exact .inr ⟨hfirst, before, record, after, rfl, sufficient, by simpa using missing⟩
  · rintro (⟨record, rfl, missing⟩ | ⟨hfirst, before, record, after, rfl, sufficient, missing⟩)
    · exact ⟨[], record, definitions, rfl, suffices_nil, by simpa using missing⟩
    · exact ⟨definition :: before, record, after, rfl, suffices_cons.mpr ⟨hfirst, sufficient⟩,
        by simpa using missing⟩

end KnownTypes

namespace Resolution

open Fallible

variable {known : KnownTypes} {set result : TypeSet} {types : List ResolvedType}
  {definitions : List Definition} {error : UnresolvedReference}

theorem exists_extend_ok_iff (h : set.Reflects types) :
    (∃ result, extend known set definitions = .ok result) ↔
      known.Suffices (types.map ResolvedType.name) definitions := by
  induction definitions generalizing set types with
  | nil => exact ⟨fun _ => KnownTypes.suffices_nil, fun _ => ⟨set, rfl⟩⟩
  | cons definition rest ih =>
      unfold extend
      rw [KnownTypes.suffices_cons, ← Definition.exists_resolve_ok_iff h]
      simp only [bind_eq_ok_iff]
      constructor
      · rintro ⟨result, type, htype, hrest⟩
        have named := ((Definition.resolve_eq_ok_iff h).mp htype).name_eq
        have sufficient := (ih (h.insert type)).mp ⟨result, hrest⟩
        exact ⟨⟨type, htype⟩, by simpa [named] using sufficient⟩
      · rintro ⟨⟨type, htype⟩, sufficient⟩
        have named := ((Definition.resolve_eq_ok_iff h).mp htype).name_eq
        obtain ⟨result, hrest⟩ := (ih (h.insert type)).mpr (by simpa [named] using sufficient)
        exact ⟨result, type, htype, hrest⟩

theorem extend_eq_error_iff (h : set.Reflects types) :
    extend known set definitions = .error error ↔
      known.FirstUnresolved (types.map ResolvedType.name) definitions error := by
  induction definitions generalizing set types with
  | nil =>
      constructor
      · rintro ⟨⟩
      · intro unresolved
        exact absurd unresolved KnownTypes.not_firstUnresolved_nil
  | cons definition rest ih =>
      unfold extend
      rw [bind_eq_error_iff, KnownTypes.firstUnresolved_cons, Definition.resolve_eq_error_iff h,
        ← Definition.exists_resolve_ok_iff h]
      apply or_congr_right
      constructor
      · rintro ⟨type, htype, failed⟩
        have named := ((Definition.resolve_eq_ok_iff h).mp htype).name_eq
        have unresolved := (ih (h.insert type)).mp failed
        exact ⟨⟨type, htype⟩, by simpa [named] using unresolved⟩
      · rintro ⟨⟨type, htype⟩, unresolved⟩
        have named := ((Definition.resolve_eq_ok_iff h).mp htype).name_eq
        exact ⟨type, htype, (ih (h.insert type)).mpr (by simpa [named] using unresolved)⟩

/-- What is made of definitions that all resolve: one type of each, resolved against those before
it. The final set answers with the latest type of each name. -/
structure Complete (known : KnownTypes) (earlier : List ResolvedType)
    (definitions : List Definition) (types : List ResolvedType) (result : TypeSet) : Prop where
  length_eq : types.length = definitions.length
  resolves : ∀ (i : Nat) (definition : Definition) (type : ResolvedType),
    definitions[i]? = some definition → types[i]? = some type →
      definition.ResolvesTo known (earlier ++ types.take i) type
  reflects : result.Reflects (earlier ++ types)

theorem complete_of_extend (h : set.Reflects types)
    (hok : extend known set definitions = .ok result) :
    Complete known types definitions (made known set definitions) result := by
  induction definitions generalizing set types with
  | nil =>
      cases hok
      exact ⟨rfl, by simp, by simpa [made] using h⟩
  | cons definition rest ih =>
      obtain ⟨type, htype, hrest⟩ := bind_eq_ok_iff.mp hok
      have later := ih (h.insert type) hrest
      have unfolded : made known set (definition :: rest) =
          type :: made known (set.insert type) rest := by
        simp only [made, htype]
      rw [unfolded]
      refine ⟨by simp [later.length_eq], ?_, by simpa using later.reflects⟩
      intro i other otherType hdefinition hmade
      cases i with
      | zero =>
          cases hdefinition
          cases hmade
          simpa using (Definition.resolve_eq_ok_iff h).mp htype
      | succ i => simpa using later.resolves i other otherType hdefinition hmade

namespace Complete

variable {earlier : List ResolvedType}

/-- Types are made under the names of their definitions. -/
theorem names_eq (complete : Complete known earlier definitions types result) :
    types.map ResolvedType.name = definitions.map Definition.name := by
  apply List.ext_getElem
  · rw [List.length_map, List.length_map, complete.length_eq]
  · intro i htype hdefinition
    rw [List.getElem_map, List.getElem_map]
    exact (complete.resolves i _ _ (List.getElem?_eq_getElem _)
      (List.getElem?_eq_getElem _)).name_eq

/-- The set answers with what the last definition of a name resolves to. -/
theorem latest (complete : Complete known earlier definitions types result)
    {before after : List Definition} {definition : Definition}
    (split : definitions = before ++ definition :: after)
    (last : ∀ later ∈ after, later.name ≠ definition.name) :
    ∃ type, result.get? definition.name = some type ∧
      definition.ResolvesTo known (earlier ++ types.take before.length) type := by
  subst split
  have hlt : before.length < types.length := by
    rw [complete.length_eq, List.length_append, List.length_cons]
    omega
  have resolves := complete.resolves before.length definition types[before.length]
    (by simp) (List.getElem?_eq_getElem hlt)
  -- No type behind it has its name, since they have the names of the definitions behind it.
  have behind : (types.drop (before.length + 1)).map ResolvedType.name =
      after.map Definition.name := by
    rw [List.map_drop, complete.names_eq, ← List.map_drop, List.drop_length_add_append,
      List.drop_one, List.tail_cons]
  refine ⟨_, complete.reflects.get?_eq_some_iff.mpr ⟨resolves.name_eq,
    earlier ++ types.take before.length, types.drop (before.length + 1), ?_, ?_⟩, resolves⟩
  · rw [List.append_assoc, List.getElem_cons_drop, List.take_append_drop]
  · intro later hlater
    have named : later.name ∈ after.map Definition.name := by
      rw [← behind]
      exact List.mem_map_of_mem hlater
    obtain ⟨other, hother, same⟩ := List.mem_map.mp named
    rw [← same]
    exact last other hother

end Complete

end Resolution

namespace Model

open Resolution

/-- A model resolves exactly when every named element type is an earlier definition, a known type or
a built-in. Each field then has the latest earlier type of that name, as it was made there, else the
known type, else the built-in; the set answers with the latest type of each name. Otherwise the
error is the first reference that means nothing. -/
theorem resolve_characterization (model : Model) (known : KnownTypes) :
    ((∃ set, model.resolve known = .ok set) ↔ known.Suffices [] model.definitions) ∧
    (∀ set, model.resolve known = .ok set →
      (model.resolved known).length = model.definitions.length ∧
      (∀ (i : Nat) (definition : Definition) (type : ResolvedType),
        model.definitions[i]? = some definition → (model.resolved known)[i]? = some type →
          definition.ResolvesTo known ((model.resolved known).take i) type) ∧
      ∀ name, set.get? name = (model.resolved known).findRev? fun type => type.name = name) ∧
    ∀ error, model.resolve known = .error error ↔
      known.FirstUnresolved [] model.definitions error := by
  refine ⟨exists_extend_ok_iff .empty, ?_, ?_⟩
  · intro set hset
    have complete := complete_of_extend .empty hset
    exact ⟨complete.length_eq, complete.resolves, complete.reflects.get?⟩
  · intro error
    exact extend_eq_error_iff .empty

/-- A record that is defined again as an enumeration after another record has referred to it. -/
def redefining : Model :=
  ⟨[.record ⟨⟨"P", []⟩, none⟩, .record ⟨⟨"Q", [.scalar "p" (.named "P")]⟩, none⟩,
    .enumeration ⟨"P", []⟩]⟩

/-- The field keeps the record, while the name means the enumeration from then on. -/
theorem resolve_redefining :
    ∃ set, redefining.resolve .none = .ok set ∧
      set.get? "P" = some (.enumeration ⟨"P", []⟩) ∧
      set.get? "Q" = some (.record ⟨"Q", [⟨"p", .record ⟨"P", []⟩, false, .instanceOf "P"⟩]⟩) := by
  obtain ⟨set, hset⟩ : ∃ set, redefining.resolve .none = .ok set := ⟨_, rfl⟩
  obtain ⟨_, answers, _⟩ := resolve_characterization redefining .none
  obtain ⟨_, _, latest⟩ := answers set hset
  refine ⟨set, hset, ?_, ?_⟩
  · rw [latest]
    decide +kernel
  · rw [latest]
    decide +kernel

end Model

end TypeDictionary
