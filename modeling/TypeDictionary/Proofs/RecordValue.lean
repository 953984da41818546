import Mathlib.Data.List.Induction
import TypeDictionary.Proofs.Latest
import TypeDictionary.Value.RecordValue

/-!
# Access to record values

The values of a record stand in a list beside the fields of its type, and a name leads to the place
of the first field with it. Setting a field changes the value at one place and nothing else, so a
record keeps one value for each field, and a place that is found is always there (`IsFull`).
`getElem?_afterSets` says what stands at each place after any calls; `Reflects` says what that comes
to for the names.
-/

namespace TypeDictionary

namespace Record

variable {τ : Type} {type : Record τ} {name other : String} {place : Nat}

/-- The place of a field is that of its name if no field before it has the name. -/
theorem index?_of_first {before after : List (Field τ)} {field : Field τ}
    (split : type.fields = before ++ field :: after)
    (first : ∀ earlier ∈ before, earlier.name ≠ field.name) :
    type.index? field.name = some before.length := by
  have absent : before.findIdx? (fun earlier => earlier.name = field.name) = none := by
    simpa using first
  rw [index?, split, List.findIdx?_append, absent, List.findIdx?_cons]
  simp

theorem exists_of_index? (h : type.index? name = some place) :
    ∃ field, type.fields[place]? = some field ∧ field.name = name := by
  obtain ⟨inside, named, _⟩ := List.findIdx?_eq_some_iff_getElem.mp h
  exact ⟨_, List.getElem?_eq_getElem inside, of_decide_eq_true named⟩

theorem index?_eq_none_iff : type.index? name = none ↔ name ∉ type.fields.map Field.name := by
  simp [index?, List.findIdx?_eq_none_iff]

/-- Different names have different places. -/
theorem index?_injective (h : type.index? name = some place)
    (h' : type.index? other = some place) : name = other := by
  obtain ⟨field, hfield, rfl⟩ := exists_of_index? h
  obtain ⟨same, hsame, rfl⟩ := exists_of_index? h'
  rw [hfield] at hsame
  cases hsame
  rfl

theorem initialValues_eq (type : Record FieldType) (seed : Seed) :
    type.initialValues seed = Field.initialValues seed 0 type.fields := by
  cases type
  rfl

end Record

namespace Field

theorem length_initialValues (fields : List (Field FieldType)) (seed : Seed) (start : Nat) :
    (initialValues seed start fields).length = fields.length := by
  induction fields generalizing start with
  | nil => rfl
  | cons field rest ih => rw [initialValues, List.length_cons, List.length_cons, ih]

/-- Each field begins with its own initial value. -/
theorem getElem?_initialValues (fields : List (Field FieldType)) (seed : Seed)
    (start place : Nat) :
    (initialValues seed start fields)[place]? =
      fields[place]?.map (initialValue (seed ++ [start + place])) := by
  induction fields generalizing start place with
  | nil => rfl
  | cons field rest ih =>
      rw [initialValues]
      cases place with
      | zero => rfl
      | succ place => simp [ih, Nat.add_assoc, Nat.add_comm 1 place]

end Field

namespace RecordValue

variable {record : RecordValue} {name : String} {place : Nat}

theorem indexOf_eq_ok_iff :
    record.indexOf name = .ok place ↔ record.type.index? name = some place := by
  unfold indexOf
  cases record.type.index? name <;> simp

theorem get_of_index? {value : Value} (h : record.type.index? name = some place)
    (held : record.values[place]? = some value) : record.get name = .ok value := by
  rw [get, indexOf_eq_ok_iff.mpr h]
  dsimp only [bind, Except.bind]
  rw [held]
  rfl

theorem set_of_index? (h : record.type.index? name = some place) (value : Value) :
    record.set name value = .ok { record with values := record.values.set place value } := by
  rw [set, indexOf_eq_ok_iff.mpr h]
  rfl

theorem indexOf_of_absent (h : record.type.index? name = none) :
    record.indexOf name = .error ⟨record.type.name, name⟩ := by
  rw [indexOf, h]

theorem get_of_absent (h : record.type.index? name = none) :
    record.get name = .error ⟨record.type.name, name⟩ := by
  rw [get, indexOf_of_absent h]
  rfl

theorem set_of_absent (h : record.type.index? name = none) (value : Value) :
    record.set name value = .error ⟨record.type.name, name⟩ := by
  rw [set, indexOf_of_absent h]
  rfl

/-- Whether a record has one value for each field of its type. -/
def IsFull (record : RecordValue) : Prop := record.values.length = record.type.fields.length

namespace IsFull

/-- A place that is found is always there. -/
theorem lt_length (full : record.IsFull) (h : record.type.index? name = some place) :
    place < record.values.length := by
  obtain ⟨field, hfield, _⟩ := Record.exists_of_index? h
  rw [full]
  exact (List.getElem?_eq_some_iff.mp hfield).1

/-- A declared name is answered with the value at its place. -/
theorem exists_get (full : record.IsFull) (h : record.type.index? name = some place) :
    ∃ value, record.values[place]? = some value ∧ record.get name = .ok value := by
  have held := List.getElem?_eq_getElem (full.lt_length h)
  exact ⟨_, held, get_of_index? h held⟩

/-- A name is answered with a value exactly when it is declared. -/
theorem exists_get_iff (full : record.IsFull) :
    (∃ value, record.get name = .ok value) ↔ name ∈ record.type.fields.map Field.name := by
  cases found : record.type.index? name with
  | none =>
      rw [get_of_absent found]
      simpa using Record.index?_eq_none_iff.mp found
  | some place =>
      obtain ⟨value, _, answered⟩ := full.exists_get found
      obtain ⟨field, hfield, rfl⟩ := Record.exists_of_index? found
      exact iff_of_true ⟨value, answered⟩ (List.mem_map_of_mem (List.mem_of_getElem? hfield))

/-- Setting a field changes the value at the place of the first field of the name, and no other. -/
theorem set_of_first (full : record.IsFull) {before after : List (Field FieldType)}
    {field : Field FieldType} (split : record.type.fields = before ++ field :: after)
    (first : ∀ earlier ∈ before, earlier.name ≠ field.name) (value : Value) :
    ∃ changed, record.set field.name value = .ok changed ∧ changed.type = record.type ∧
      changed.values[before.length]? = some value ∧
      ∀ place, place ≠ before.length → changed.values[place]? = record.values[place]? := by
  have found := Record.index?_of_first split first
  refine ⟨_, set_of_index? found value, rfl, ?_, ?_⟩
  · exact List.getElem?_set_self (full.lt_length found)
  · intro place apart
    exact List.getElem?_set_ne apart.symm

end IsFull

/-- The record after a call that sets a field, which leaves it as it was if it fails. -/
def afterSet (record : RecordValue) (call : String × Value) : RecordValue :=
  match record.set call.1 call.2 with
  | .ok changed => changed
  | .error _ => record

/-- The record after calls that set fields, one after the other. -/
def afterSets (record : RecordValue) (calls : List (String × Value)) : RecordValue :=
  calls.foldl afterSet record

section Run

variable (record) (call : String × Value) (calls : List (String × Value))

/-- A call changes the value at the place of its field and no other, and nothing if there is no such
field. -/
theorem afterSet_eq :
    record.afterSet call =
      match record.type.index? call.1 with
      | some place => { record with values := record.values.set place call.2 }
      | none => record := by
  unfold afterSet
  cases found : record.type.index? call.1 with
  | some place => rw [set_of_index? found]
  | none => rw [set_of_absent found]

@[simp] theorem type_afterSet : (record.afterSet call).type = record.type := by
  rw [afterSet_eq]
  split <;> rfl

@[simp] theorem length_values_afterSet :
    (record.afterSet call).values.length = record.values.length := by
  rw [afterSet_eq]
  split
  · exact List.length_set
  · rfl

/-- What stands at a place after one call. -/
theorem getElem?_afterSet (place : Nat) :
    (record.afterSet call).values[place]? =
      record.values[place]?.map fun value =>
        if record.type.index? call.1 = some place then call.2 else value := by
  rw [afterSet_eq]
  cases found : record.type.index? call.1 with
  | none => simp
  | some other =>
      by_cases same : other = place
      · subst same
        simp only [List.getElem?_set_self', if_true]
        rfl
      · simp [List.getElem?_set_ne same, same]

theorem afterSets_concat :
    record.afterSets (calls ++ [call]) = (record.afterSets calls).afterSet call :=
  List.foldl_append

@[simp] theorem type_afterSets : (record.afterSets calls).type = record.type := by
  induction calls using List.reverseRecOn with
  | nil => rfl
  | append_singleton calls call ih => rw [afterSets_concat, type_afterSet, ih]

@[simp] theorem length_values_afterSets :
    (record.afterSets calls).values.length = record.values.length := by
  induction calls using List.reverseRecOn with
  | nil => rfl
  | append_singleton calls call ih => rw [afterSets_concat, length_values_afterSet, ih]

variable {record} in
theorem IsFull.afterSets (full : record.IsFull) : (record.afterSets calls).IsFull := by
  unfold IsFull
  rw [length_values_afterSets, type_afterSets, full]

/-- At each place stands the value of the last call that has led there, or the value from before if
none has. -/
theorem getElem?_afterSets (place : Nat) :
    (record.afterSets calls).values[place]? =
      record.values[place]?.map fun value =>
        ((calls.findRev? fun call => record.type.index? call.1 = some place).map Prod.snd).getD
          value := by
  induction calls using List.reverseRecOn with
  | nil => simp [afterSets]
  | append_singleton calls call ih =>
      rw [afterSets_concat, getElem?_afterSet, ih, type_afterSets, Option.map_map]
      congr 1
      funext value
      rw [Latest.findRev?_concat]
      by_cases leads : record.type.index? call.1 = some place
      · simp [leads]
      · simp [leads]

end Run

/-- What a record value answers that began as an instance of a type and has been through calls that
set fields. -/
structure Reflects (record : RecordValue) (type : Record FieldType) (seed : Seed)
    (calls : List (String × Value)) : Prop where
  type_eq : record.type = type
  length_eq : record.values.length = type.fields.length
  inside : ∀ name place, record.indexOf name = .ok place → place < record.values.length
  pairs_names : record.pairs.map Prod.fst = type.fields.map Field.name
  pairs_values : record.pairs.map Prod.snd = record.values
  get_declared : ∀ before field after, type.fields = before ++ field :: after →
    (∀ earlier ∈ before, earlier.name ≠ field.name) →
      record.get field.name = .ok
        (((calls.findRev? fun call => call.1 = field.name).map Prod.snd).getD
          (field.initialValue (seed ++ [before.length])))
  set_declared : ∀ before field after, type.fields = before ++ field :: after →
    (∀ earlier ∈ before, earlier.name ≠ field.name) → ∀ value, ∃ changed,
      record.set field.name value = .ok changed ∧ changed.type = type ∧
        changed.values[before.length]? = some value ∧
        ∀ place, place ≠ before.length → changed.values[place]? = record.values[place]?
  undeclared : ∀ name, name ∉ type.fields.map Field.name →
    record.get name = .error ⟨type.name, name⟩ ∧
      ∀ value, record.set name value = .error ⟨type.name, name⟩ ∧
        record.afterSet (name, value) = record

@[simp] theorem type_new (type : Record FieldType) (seed : Seed) : (new type seed).type = type :=
  rfl

/-- The values of an instance are the initial values of the fields, place by place. -/
theorem getElem?_new (type : Record FieldType) (seed : Seed) (place : Nat) :
    (new type seed).values[place]? =
      type.fields[place]?.map (Field.initialValue (seed ++ [place])) := by
  rw [new, Record.initialValues_eq, Field.getElem?_initialValues, Nat.zero_add]

theorem isFull_new (type : Record FieldType) (seed : Seed) : (new type seed).IsFull := by
  unfold IsFull
  rw [new, Record.initialValues_eq, Field.length_initialValues]

/-- A place that leads to a field has its value from the last call with the name of the field. -/
theorem getElem?_afterSets_new {type : Record FieldType} {seed : Seed}
    {calls : List (String × Value)} {before after : List (Field FieldType)}
    {field : Field FieldType} (split : type.fields = before ++ field :: after)
    (first : ∀ earlier ∈ before, earlier.name ≠ field.name) :
    ((new type seed).afterSets calls).values[before.length]? =
      some (((calls.findRev? fun call => call.1 = field.name).map Prod.snd).getD
        (field.initialValue (seed ++ [before.length]))) := by
  have place := Record.index?_of_first split first
  have leads (call : String × Value) :
      type.index? call.1 = some before.length ↔ call.1 = field.name := by
    constructor
    · intro found
      exact Record.index?_injective found place
    · intro same
      rw [same, place]
  have held : type.fields[before.length]? = some field := by simp [split]
  rw [getElem?_afterSets, getElem?_new, held, type_new]
  simp only [leads, Option.map_some]

/-- A record value keeps one value for each field, under the name of the field. A name answers with
the value that it was last set to, or with the initial value of its first field; a name that is not
declared answers with the error that says so, and changes nothing. -/
theorem reflects_afterSets (type : Record FieldType) (seed : Seed)
    (calls : List (String × Value)) :
    ((new type seed).afterSets calls).Reflects type seed calls := by
  have sameType : ((new type seed).afterSets calls).type = type := by simp
  have full := (isFull_new type seed).afterSets calls
  have sameLength : ((new type seed).afterSets calls).values.length = type.fields.length := by
    rw [full, sameType]
  refine ⟨sameType, sameLength, ?_, ?_, ?_, ?_, ?_, ?_⟩
  · intro name place found
    exact full.lt_length (indexOf_eq_ok_iff.mp found)
  · rw [pairs, List.map_fst_zip (by simp [sameLength]), sameType]
  · rw [pairs, List.map_snd_zip (by simp [sameLength])]
  · intro before field after split first
    have place := Record.index?_of_first split first
    rw [← sameType] at place
    exact get_of_index? place (getElem?_afterSets_new split first)
  · intro before field after split first value
    have split : ((new type seed).afterSets calls).type.fields = before ++ field :: after := by
      rw [sameType, split]
    obtain ⟨changed, called, kept, places⟩ := full.set_of_first split first value
    exact ⟨changed, called, kept.trans sameType, places⟩
  · intro name absent
    have missing := Record.index?_eq_none_iff.mpr absent
    rw [← sameType] at missing
    refine ⟨?_, ?_⟩
    · rw [get_of_absent missing, sameType]
    · intro value
      refine ⟨?_, ?_⟩
      · rw [set_of_absent missing, sameType]
      · rw [afterSet_eq, missing]

end RecordValue

end TypeDictionary
