import TypeDictionary.Model.Build
import TypeDictionary.Proofs.Fallible
import TypeDictionary.Proofs.WellFormed

/-!
# Well-formedness of built models

A model that was built holds well-formed definitions only. The loops over the fields of a record and
the members of an enumeration refuse a name met before, so what they have gathered keeps its names
distinct, and everything they add has been cleaned and found not to be empty.

`fields_cons_ok` and `members_cons_ok` say all that a successful turn of each loop does. What the
loops keep true follows from these.
-/

namespace TypeDictionary

namespace Build

open Fallible
open Markup (Element)

theorem required_eq_ok_iff {element : Element} {construct : Construct} {property : Property}
    {value : String} :
    required element construct property = .ok value ↔
      element.attribute? property.attributeName = some value := by
  unfold required
  cases element.attribute? property.attributeName with
  | none => simp
  | some other => simp

theorem identifier_eq_ok_iff {element : Element} {construct : Construct} {name : String} :
    identifier element construct = .ok name ↔
      ∃ raw, element.attribute? Property.name.attributeName = some raw ∧
        Identifier.clean raw = name ∧ name ≠ "" := by
  unfold identifier
  rw [bind_eq_ok_iff]
  simp only [required_eq_ok_iff]
  constructor
  · rintro ⟨raw, hraw, h⟩
    by_cases hempty : (Identifier.clean raw).isEmpty = true
    · rw [if_pos hempty] at h
      cases h
    · rw [if_neg hempty] at h
      cases h
      exact ⟨raw, hraw, rfl, by simpa using hempty⟩
  · rintro ⟨raw, hraw, rfl, hname⟩
    refine ⟨raw, hraw, ?_⟩
    rw [if_neg (by simpa using hname)]
    rfl

theorem isProper_of_identifier {element : Element} {construct : Construct} {name : String}
    (h : identifier element construct = .ok name) : Identifier.IsProper name := by
  obtain ⟨raw, _, rfl, hname⟩ := identifier_eq_ok_iff.mp h
  exact Identifier.isProper_clean hname

/-- A successful turn over a field element takes note of an array length, if its name announces one,
and otherwise adds a field with a new name, which is an array if one is pending. -/
theorem fields_cons_ok {owner : String} {pending : Bool} {earlier result : List (Field TypeRef)}
    {element : Element} {rest : List Element}
    (h : Build.fields owner pending earlier (element :: rest) = .ok result) :
    ∃ raw, required element .field .name = .ok raw ∧
      (isArrayLength raw = true ∧ Build.fields owner true earlier rest = .ok result ∨
        isArrayLength raw = false ∧
          ∃ name typeName, identifier element .field = .ok name ∧
            required element .field .typeName = .ok typeName ∧
            (∀ field ∈ earlier, field.name ≠ name) ∧
            Build.fields owner false
              (earlier ++ [if pending then Field.array name (TypeRef.parse typeName)
                else Field.scalar name (TypeRef.parse typeName)]) rest = .ok result) := by
  unfold Build.fields at h
  obtain ⟨raw, hraw, h⟩ := bind_eq_ok_iff.mp h
  refine ⟨raw, hraw, ?_⟩
  split at h
  · rename_i announces
    exact .inl ⟨announces, h⟩
  · rename_i announces
    obtain ⟨name, hname, h⟩ := bind_eq_ok_iff.mp h
    obtain ⟨typeName, htype, h⟩ := bind_eq_ok_iff.mp h
    dsimp only at h
    split at h
    · cases h
    · rename_i hfresh
      refine .inr ⟨Bool.eq_false_iff.mpr announces, name, typeName, hname, htype, ?_, h⟩
      simpa using hfresh

/-- A successful turn over a value element adds a member with a new name. -/
theorem members_cons_ok {owner : String} {earlier result : List Member} {element : Element}
    {rest : List Element} (h : Build.members owner earlier (element :: rest) = .ok result) :
    ∃ name raw value, identifier element .enumeratedValue = .ok name ∧
      required element .enumeratedValue .value = .ok raw ∧ memberValue raw = some value ∧
      (∀ member ∈ earlier, member.name ≠ name) ∧
      Build.members owner (earlier ++ [⟨name, value⟩]) rest = .ok result := by
  unfold Build.members at h
  obtain ⟨name, hname, h⟩ := bind_eq_ok_iff.mp h
  obtain ⟨raw, hraw, h⟩ := bind_eq_ok_iff.mp h
  split at h
  · cases h
  · rename_i value hvalue
    split at h
    · cases h
    · rename_i hfresh
      refine ⟨name, raw, value, hname, hraw, hvalue, ?_, h⟩
      simpa using hfresh

/-- What a loop over named items keeps true of the items it has gathered. -/
structure Gathered {α : Type} (name : α → String) (sound : α → Prop) (items : List α) : Prop where
  distinct : (items.map name).Nodup
  sound : ∀ item ∈ items, sound item

namespace Gathered

variable {α : Type} {name : α → String} {sound : α → Prop}

theorem nil : Gathered name sound [] where
  distinct := List.nodup_nil
  sound := by simp

/-- A sound item can be added if its name is not that of another. -/
theorem push {items : List α} {item : α} (h : Gathered name sound items)
    (fresh : ∀ other ∈ items, name other ≠ name item) (hitem : sound item) :
    Gathered name sound (items ++ [item]) where
  distinct := by
    rw [List.map_append, List.nodup_append]
    refine ⟨h.distinct, by simp, ?_⟩
    intro first hfirst second hsecond
    obtain ⟨other, hother, rfl⟩ := List.mem_map.mp hfirst
    rw [List.map_cons, List.map_nil, List.mem_singleton] at hsecond
    rw [hsecond]
    exact fresh other hother
  sound := by
    intro other hother
    rcases List.mem_append.mp hother with hother | hother
    · exact h.sound other hother
    · rw [List.mem_singleton] at hother
      exact hother ▸ hitem

end Gathered

/-- The fields gathered so far are well formed, whether or not an array is pending. -/
theorem gathered_fields {owner : String} {pending : Bool} {elements : List Element}
    {earlier result : List (Field TypeRef)}
    (h : Build.fields owner pending earlier elements = .ok result)
    (gathered : Gathered Field.name (Field.WellFormed Recipe.ofElement) earlier) :
    Gathered Field.name (Field.WellFormed Recipe.ofElement) result := by
  induction elements generalizing pending earlier with
  | nil =>
      cases h
      exact gathered
  | cons element rest ih =>
      obtain ⟨_, _, ⟨_, h⟩ | ⟨_, name, typeName, hname, _, fresh, h⟩⟩ := fields_cons_ok h
      · exact ih h gathered
      · have proper := isProper_of_identifier hname
        cases pending with
        | true => exact ih h (gathered.push fresh (Field.wellFormed_array proper))
        | false => exact ih h (gathered.push fresh (Field.wellFormed_scalar proper))

theorem gathered_members {owner : String} {elements : List Element} {earlier result : List Member}
    (h : Build.members owner earlier elements = .ok result)
    (gathered : Gathered Member.name (fun member => Identifier.IsProper member.name) earlier) :
    Gathered Member.name (fun member => Identifier.IsProper member.name) result := by
  induction elements generalizing earlier with
  | nil =>
      cases h
      exact gathered
  | cons element rest ih =>
      obtain ⟨name, raw, value, hname, _, _, fresh, h⟩ := members_cons_ok h
      exact ih h (gathered.push fresh (isProper_of_identifier hname))

theorem wellFormed_record {element : Element} {definition : RecordDef}
    (h : record element = .ok definition) : (Definition.record definition).WellFormed := by
  obtain ⟨name, hname, h⟩ := bind_eq_ok_iff.mp h
  obtain ⟨fields, hfields, h⟩ := bind_eq_ok_iff.mp h
  cases h
  have gathered := gathered_fields hfields .nil
  exact ⟨isProper_of_identifier hname, gathered.distinct, gathered.sound⟩

theorem wellFormed_enumeration {element : Element} {definition : Enumeration}
    (h : enumeration element = .ok definition) :
    (Definition.enumeration definition).WellFormed := by
  obtain ⟨name, hname, h⟩ := bind_eq_ok_iff.mp h
  obtain ⟨members, hmembers, h⟩ := bind_eq_ok_iff.mp h
  cases h
  have gathered := gathered_members hmembers .nil
  exact ⟨isProper_of_identifier hname, gathered.distinct, gathered.sound⟩

/-- Reading an element binds no identifier. -/
theorem wireId_of_record {element : Element} {definition : RecordDef}
    (h : record element = .ok definition) : definition.wireId = none := by
  obtain ⟨name, _, h⟩ := bind_eq_ok_iff.mp h
  obtain ⟨fields, _, h⟩ := bind_eq_ok_iff.mp h
  cases h
  rfl

/-- All definitions are made exactly when every step succeeds, and they are what the steps made. -/
theorem all_eq_ok_iff {steps : List (Except BuildError Definition)}
    {definitions : List Definition} :
    all steps = .ok definitions ↔ steps = definitions.map .ok := by
  induction steps generalizing definitions with
  | nil => cases definitions <;> simp [all]
  | cons step rest ih =>
      unfold all
      rw [bind_eq_ok_iff]
      simp only [bind_eq_ok_iff, ih]
      constructor
      · rintro ⟨definition, rfl, made, rfl, h⟩
        cases h
        rfl
      · intro h
        obtain ⟨definition, made, rfl, rfl, rfl⟩ := List.map_eq_cons_iff.mp h.symm
        exact ⟨definition, rfl, made, rfl, rfl⟩

end Build

namespace Model

variable {root : Markup.Element} {model : Model}

/-- A built model holds nothing but what has been read from elements, so all its definitions have
a property that all definitions have when they are read. -/
theorem forall_of_build (property : Definition → Prop) (h : Model.build root = .ok model)
    (records : ∀ element made, Build.record element = .ok made → property (.record made))
    (enumerations : ∀ element made, Build.enumeration element = .ok made →
      property (.enumeration made)) :
    ∀ definition ∈ model.definitions, property definition := by
  obtain ⟨definitions, made, rfl⟩ := Fallible.map_eq_ok_iff.mp h
  intro definition hdefinition
  have planned : .ok definition ∈ Build.plan root := by
    rw [Build.all_eq_ok_iff.mp made]
    exact List.mem_map_of_mem hdefinition
  rcases List.mem_append.mp planned with planned | planned
  · obtain ⟨element, _, step⟩ := List.mem_map.mp planned
    obtain ⟨record, hrecord, rfl⟩ := Fallible.map_eq_ok_iff.mp step
    exact records element record hrecord
  · obtain ⟨element, _, step⟩ := List.mem_map.mp planned
    obtain ⟨enumeration, henumeration, rfl⟩ := Fallible.map_eq_ok_iff.mp step
    exact enumerations element enumeration henumeration

/-- The definitions of a built model are well formed. -/
theorem wellFormed_of_build (h : Model.build root = .ok model) :
    ∀ definition ∈ model.definitions, definition.WellFormed :=
  forall_of_build Definition.WellFormed h (fun _ _ => Build.wellFormed_record)
    fun _ _ => Build.wellFormed_enumeration

/-- No record of a model has an identifier when the model has been built. -/
theorem wireId_of_build (h : Model.build root = .ok model) :
    ∀ record, .record record ∈ model.definitions → record.wireId = none := by
  intro record hrecord
  refine forall_of_build (fun definition => ∀ record, definition = .record record →
    record.wireId = none) h ?_ ?_ _ hrecord record rfl
  · rintro element made read _ ⟨⟩
    exact Build.wireId_of_record read
  · rintro element made _ _ ⟨⟩

end Model

end TypeDictionary
