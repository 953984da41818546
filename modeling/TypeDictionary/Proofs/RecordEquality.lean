import Mathlib.Data.List.Forall2
import TypeDictionary.Dictionary
import TypeDictionary.Model.Build
import TypeDictionary.Proofs.RecordValue
import TypeDictionary.Resolved.Resolution

/-!
# Equality of record values

Two record values are equal when their types have the same name and their values are equal place by
place. The names of fields do not count for that, and there can be several types of one name: those
of a definition and of the one that has replaced it. So equal values need not answer alike, unless a
name stands at the same place in both types, or in neither.
-/

namespace TypeDictionary

namespace Record

variable {τ : Type} {type : Record τ}

/-- Places are a matter of the names alone. -/
theorem index?_eq_of_names {second : Record τ}
    (same : type.fields.map Field.name = second.fields.map Field.name) (name : String) :
    type.index? name = second.index? name := by
  have places (record : Record τ) :
      record.index? name = (record.fields.map Field.name).findIdx? fun other => other = name := by
    rw [List.findIdx?_map]
    rfl
  rw [places, places, same]

end Record

theorem Value.equalsAll_iff {first second : List Value} :
    Value.equalsAll first second = true ↔
      List.Forall₂ (fun value other => value.equals other = true) first second := by
  induction first generalizing second with
  | nil => cases second <;> simp [Value.equalsAll]
  | cons value rest ih => cases second <;> simp [Value.equalsAll, ih]

namespace RecordValue

variable {name : String}

/-- Whether a name is answered alike by two record values: with equal values, or with the same
error. -/
inductive Agree (first second : RecordValue) (name : String) : Prop
  | found {value other : Value} (first_get : first.get name = .ok value)
      (second_get : second.get name = .ok other) (equal : value.equals other = true) :
      Agree first second name
  | absent {error : FieldNotFound} (first_get : first.get name = .error error)
      (second_get : second.get name = .error error) : Agree first second name

theorem equals_iff {first second : RecordValue} :
    first.equals second = true ↔ first.type.name = second.type.name ∧
      List.Forall₂ (fun value other => value.equals other = true) first.values second.values := by
  rw [equals, toValue, toValue, Value.equals, Bool.and_eq_true, Value.equalsAll_iff, beq_iff_eq]

theorem Agree.exists_get_iff_exists_get {first second : RecordValue}
    (h : Agree first second name) :
    (∃ value, first.get name = .ok value) ↔ ∃ value, second.get name = .ok value := by
  cases h with
  | found first_get second_get _ => exact iff_of_true ⟨_, first_get⟩ ⟨_, second_get⟩
  | absent first_get second_get => simp [first_get, second_get]

/-- Equal records answer alike for a name that stands at the same place in both types, or in
neither: there both have the error of the same type name. -/
theorem agree_of_index?_eq {first second : RecordValue} (full : first.IsFull)
    (full' : second.IsFull) (equal : first.equals second = true)
    (samePlace : first.type.index? name = second.type.index? name) : Agree first second name := by
  obtain ⟨sameName, values⟩ := equals_iff.mp equal
  cases found : second.type.index? name with
  | none =>
      rw [found] at samePlace
      have first_get := get_of_absent samePlace
      rw [sameName] at first_get
      exact .absent first_get (get_of_absent found)
  | some place =>
      rw [found] at samePlace
      obtain ⟨value, held, hget⟩ := full.exists_get samePlace
      obtain ⟨value', held', hget'⟩ := full'.exists_get found
      obtain ⟨inside, rfl⟩ := List.getElem?_eq_some_iff.mp held
      obtain ⟨inside', rfl⟩ := List.getElem?_eq_some_iff.mp held'
      exact .found hget hget' (values.get inside inside')

/-- If two instances are equal after any calls, each name that stands at the same place in both
types is answered alike, so all names are if the types declare the same names in the same order.
Names that only one of the types declares are not. -/
theorem agree_of_equal_instances (first second : Record FieldType) (seed other : Seed)
    (calls more : List (String × Value))
    (equal : ((new first seed).afterSets calls).equals ((new second other).afterSets more) = true)
    (name : String) :
    (first.index? name = second.index? name →
      Agree ((new first seed).afterSets calls) ((new second other).afterSets more) name) ∧
    (first.fields.map Field.name = second.fields.map Field.name →
      Agree ((new first seed).afterSets calls) ((new second other).afterSets more) name) ∧
    (Agree ((new first seed).afterSets calls) ((new second other).afterSets more) name →
      (name ∈ first.fields.map Field.name ↔ name ∈ second.fields.map Field.name)) := by
  have full := (isFull_new first seed).afterSets calls
  have full' := (isFull_new second other).afterSets more
  have alike (samePlace : first.index? name = second.index? name) :
      Agree ((new first seed).afterSets calls) ((new second other).afterSets more) name :=
    agree_of_index?_eq full full' equal (by simpa using samePlace)
  refine ⟨alike, ?_, ?_⟩
  · intro same
    exact alike (Record.index?_eq_of_names same name)
  · intro agree
    have declared := full.exists_get_iff.symm.trans
      (agree.exists_get_iff_exists_get.trans full'.exists_get_iff)
    simpa using declared

/-- A record of two bytes. -/
def samplePair (first second : String) : Record FieldType :=
  ⟨"P", [⟨first, .primitive .byte, false, .zero .byte⟩,
    ⟨second, .primitive .byte, false, .zero .byte⟩]⟩

/-- Setting the common field to the same value keeps two pairs equal. They agree on that field, and
not on the second field of either. -/
theorem agree_of_equal_instances_sample :
    let first := (new (samplePair "x" "y") []).afterSets [("x", .byte 1), ("x", .byte 7)]
    let second := (new (samplePair "x" "z") []).afterSets [("x", .byte 7), ("y", .null)]
    first.equals second = true ∧ Agree first second "x" ∧ ¬Agree first second "y" := by
  intro first second
  have equal : first.equals second = true := rfl
  have answers :=
    agree_of_equal_instances (samplePair "x" "y") (samplePair "x" "z") [] [] _ _ equal
  refine ⟨equal, (answers "x").1 rfl, ?_⟩
  intro agree
  exact absurd ((answers "y").2.2 agree) (by decide)

/-- The record of a name that the text of a dictionary defines. -/
def recordOfText? (name text : String) : Option (Record FieldType) := do
  let root ← (Source.read (.text text)).toOption
  let model ← (Model.build root).toOption
  let types ← (model.resolve .none).toOption
  (← types.get? name).record?

/-- A dictionary with one record of two fields. -/
def sampleText (first second : String) : String :=
  "<d><StructuredType Name='P'><Field Name='" ++ first ++ "' TypeName='Byte'/><Field Name='" ++
    second ++ "' TypeName='Byte'/></StructuredType></d>"

/-- Equal instances of two records of one name: one field belongs to the first only, and another has
different places and so different values. -/
theorem equal_instances_differ_in_fields :
    ∃ first second,
      recordOfText? "P" (sampleText "a" "b") = some first ∧
      recordOfText? "P" (sampleText "b" "c") = some second ∧
      let one := (new first []).afterSet ("a", .byte 1)
      let other := (new second []).afterSet ("b", .byte 1)
      one.equals other = true ∧
      one.get "a" = .ok (.byte 1) ∧ other.get "a" = .error ⟨"P", "a"⟩ ∧
      one.get "b" = .ok (.byte 0) ∧ other.get "b" = .ok (.byte 1) := by
  refine ⟨samplePair "a" "b", samplePair "b" "c", ?_, ?_, rfl, rfl, rfl, rfl, rfl⟩
  · decide +kernel
  · decide +kernel

end RecordValue

end TypeDictionary
