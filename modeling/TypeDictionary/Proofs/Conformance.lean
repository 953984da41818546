import TypeDictionary.Proofs.Enumeration
import TypeDictionary.Proofs.Reachable
import TypeDictionary.Proofs.RecordValue

/-!
# Conforming instances

What an instance looks like is said here by the type alone, with one rule for each sort of element
and one for lists. Recipes do not appear: they are chosen while an element type is still a name, and
evaluated against the type that the name has come to mean, which may be one of another dictionary.
In a well-formed type every field has the recipe of its own element type, so the values that recipes
make are those that the rules allow.

The rules leave nothing open but what is generated, identifiers and points in time.
-/

namespace TypeDictionary

mutual

/-- The values that a single element of a type may begin with. -/
inductive FieldType.Initial : FieldType → Value → Prop
  | boolean : FieldType.Initial (.primitive .boolean) (.boolean true)
  | sbyte : FieldType.Initial (.primitive .sbyte) (.sbyte 0)
  | byte : FieldType.Initial (.primitive .byte) (.byte 0)
  | int16 : FieldType.Initial (.primitive .int16) (.int16 0)
  | uint16 : FieldType.Initial (.primitive .uint16) (.uint16 0)
  | int32 : FieldType.Initial (.primitive .int32) (.int32 0)
  | uint32 : FieldType.Initial (.primitive .uint32) (.uint32 0)
  | int64 : FieldType.Initial (.primitive .int64) (.int64 0)
  | uint64 : FieldType.Initial (.primitive .uint64) (.uint64 0)
  | float : FieldType.Initial (.primitive .float) (.float .zero)
  | double : FieldType.Initial (.primitive .double) (.double .zero)
  | string : FieldType.Initial (.primitive .string) .null
  | dateTime (time : Instant) : FieldType.Initial (.primitive .dateTime) (.dateTime time)
  | guid (id : Guid) : FieldType.Initial (.primitive .guid) (.guid id)
  | byteString : FieldType.Initial (.primitive .byteString) .null
  | char : FieldType.Initial (.primitive .char) .null
  | charArray : FieldType.Initial (.primitive .charArray) .null
  | builtin (kind : Builtin) : FieldType.Initial (.builtin kind) .null
  | namedZero {type : Enumeration} {before after : List Member} {member : Member}
      (split : type.members = before ++ member :: after) (zero : member.value = 0)
      (first : ∀ earlier ∈ before, earlier.value ≠ 0) :
      FieldType.Initial (.enumeration type) (.enumeration ⟨type.name, some member.name, 0⟩)
  | unnamedZero {type : Enumeration} (nonzero : ∀ member ∈ type.members, member.value ≠ 0) :
      FieldType.Initial (.enumeration type) (.enumeration ⟨type.name, none, 0⟩)
  | record {type : Record FieldType} {values : List Value}
      (fields : Field.InitialAll type.fields values) :
      FieldType.Initial (.record type) (.record type values)

/-- The values that a field may begin with. -/
inductive Field.Initial : Field FieldType → Value → Prop
  | list {field : Field FieldType} (isList : field.isArray = true) :
      Field.Initial field (.sequence [])
  | single {field : Field FieldType} {value : Value} (isSingle : field.isArray = false)
      (element : field.type.Initial value) : Field.Initial field value

/-- One value for each field, in the order of the fields. -/
inductive Field.InitialAll : List (Field FieldType) → List Value → Prop
  | nil : Field.InitialAll [] []
  | cons {field : Field FieldType} {value : Value} {fields : List (Field FieldType)}
      {values : List Value} (first : field.Initial value)
      (others : Field.InitialAll fields values) :
      Field.InitialAll (field :: fields) (value :: values)

end

/-- The zero of an enumeration is named after its first zero, if it has one. -/
theorem Enumeration.initial_zero (type : Enumeration) :
    (FieldType.enumeration type).Initial (.enumeration type.zero) := by
  have answer := type.firstWith_memberByValue? 0
  unfold zero
  generalize type.memberByValue? 0 = first at answer
  cases answer with
  | found split has first => exact .namedZero split has first
  | absent lacks => exact .unnamedZero lacks

namespace Field

/-- A field with the recipe of its element type begins as its element does, or as an empty list. -/
theorem initial_initialValue {field : Field FieldType} (sound : field.WellFormed FieldType.recipe)
    (element : ∀ seed, field.type.Initial
      (field.type.recipe.evaluate seed fun _ => field.type.instantiate seed)) (seed : Seed) :
    field.Initial (initialValue seed field) := by
  unfold initialValue
  cases isArray : field.isArray with
  | true =>
      rw [sound.empty_iff.mpr isArray]
      exact .list isArray
  | false =>
      rw [sound.element isArray]
      exact .single isArray (element seed)

theorem initialAll_initialValues {fields : List (Field FieldType)}
    (initial : ∀ field ∈ fields, ∀ seed, field.Initial (initialValue seed field)) (seed : Seed)
    (place : Nat) : InitialAll fields (initialValues seed place fields) := by
  induction fields generalizing place with
  | nil => exact .nil
  | cons field rest ih =>
      rw [List.forall_mem_cons] at initial
      exact .cons (initial.1 _) (ih initial.2 (place + 1))

theorem InitialAll.length_eq {fields : List (Field FieldType)} {values : List Value}
    (h : InitialAll fields values) : values.length = fields.length := by
  induction values generalizing fields with
  | nil =>
      cases h
      rfl
  | cons value rest ih =>
      cases h with
      | cons _ others => rw [List.length_cons, List.length_cons, ih others]

end Field

/-- The recipe of a well-formed type makes a value that the rules allow. By induction on the type:
an instance of a record needs the instances of its fields. -/
theorem FieldType.WellFormed.initial {type : FieldType} (h : type.WellFormed) (seed : Seed) :
    type.Initial (type.recipe.evaluate seed fun _ => type.instantiate seed) := by
  induction h generalizing seed with
  | primitive kind => cases kind <;> constructor
  | builtin kind => exact .builtin kind
  | enumeration sound => exact Enumeration.initial_zero _
  | record sound nested ih =>
      -- The seeds of the fields differ, so their values are made by the recipes one by one.
      apply FieldType.Initial.record
      rw [Record.initialValues_eq]
      apply Field.initialAll_initialValues
      intro field hfield
      exact Field.initial_initialValue (sound.fields field hfield) (ih field hfield)

/-- An instance of a well-formed type is one that the rules allow. -/
theorem ResolvedType.WellFormed.instantiate_initial {type : ResolvedType} (h : type.WellFormed)
    (seed : Seed) : type.toFieldType.Initial (type.instantiate seed) := by
  have initial := FieldType.WellFormed.initial h seed
  rw [recipe_toFieldType] at initial
  exact initial

/-- A record value that the rules allow carries its type, and has its values under the names of the
layout, in the order of the layout. -/
theorem FieldType.Initial.of_record {type : FieldType} {record : RecordValue}
    (h : type.Initial record.toValue) :
    type = .record record.type ∧
      record.pairs.map Prod.fst = record.type.layout.map Prod.fst := by
  cases h with
  | record fields =>
      refine ⟨rfl, ?_⟩
      unfold RecordValue.pairs Record.layout
      rw [List.map_fst_zip (by simp [fields.length_eq]), List.map_map]
      rfl

namespace Session.Reachable

variable {session : Session}

/-- In every reachable session the instances of all types are as the rules allow, all the way down.
Those of records carry the type and have one value for each name of its layout. -/
theorem instances_conform (h : session.Reachable) :
    session.registry.Every fun entry => ∀ seed,
      entry.handle.type.toFieldType.Initial (entry.handle.type.instantiate seed) ∧
      ∀ record, (entry.handle.type.instantiate seed).record? = some record →
        entry.handle.type = .record record.type ∧
          record.pairs.map Prod.fst = entry.handle.type.layout.map Prod.fst := by
  apply (Registry.wellFormed_invariant.of_reachable (fun _ => Registry.every_new) h).mono
  rintro ⟨_, _, ⟨_, type⟩⟩ sound seed
  have initial := sound.type.instantiate_initial seed
  refine ⟨initial, ?_⟩
  intro record hrecord
  cases type with
  | enumeration type => cases hrecord
  | record type =>
      cases hrecord
      exact ⟨rfl, initial.of_record.2⟩

/-- A record of a record and of a list. -/
def sampleRecord : Record FieldType :=
  ⟨"Q", [⟨"p", .record ⟨"P", []⟩, false, .instanceOf "P"⟩,
    ⟨"i", .primitive .byte, true, .emptySequence⟩]⟩

/-- The inner record comes from an earlier dictionary. -/
theorem instances_conform_sample :
    ∃ session entry, Reachable session ∧ session.registry.entry? "Q" = some entry ∧
      entry.handle.type = .record sampleRecord ∧
      FieldType.Initial (.record sampleRecord)
        (.record sampleRecord [.record ⟨"P", []⟩ [], .sequence []]) := by
  let earlier := Loader.sample "<StructuredType Name='P'/>" (.ok [])
  let later := Loader.sample
    ("<StructuredType Name='Q'><Field Name='p' TypeName='P'/><Field Name='NoOf'/>" ++
      "<Field Name='i' TypeName='Byte'/></StructuredType>") (.ok [])
  let session := later.serve
    (earlier.serve (.start (.new true)) (.registerNode ⟨"d"⟩)) (.registerNode ⟨"d"⟩)
  have reachable : session.Reachable := serve (serve (start true) earlier _) later _
  have found : (session.registry.type? "Q").map Handle.type = some (.record sampleRecord) := by
    decide +kernel
  unfold Registry.type? at found
  rw [Option.map_map, Option.map_eq_some_iff] at found
  obtain ⟨entry, hentry, htype⟩ := found
  change entry.handle.type = _ at htype
  have conforms := (((instances_conform reachable).byName "Q" entry hentry).2 []).1
  rw [htype] at conforms
  exact ⟨session, entry, reachable, hentry, htype, conforms⟩

end Session.Reachable

end TypeDictionary
