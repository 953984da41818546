import TypeDictionary.Proofs.Resolution

/-!
# Resolution in two steps

The definitions of two models can be resolved one after the other in a single set, or the second
model against what the first has come to. In a single set the types of the first are replaced where
the second defines their names again; in two steps they stay, but the types of the second hide them.
`TypeSet.Joins` says that both give the same answers, and every further definition keeps it. So each
reference means the same in both, and the first that means nothing is the same.
-/

namespace TypeDictionary

/-- What is known once a set of types has been put in front of known types. -/
def TypeSet.over (set : TypeSet) (known : KnownTypes) : KnownTypes :=
  fun name => (set.get? name).or (known name)

/-- A set that answers as the second of two sets does, and as the first where that has no answer. -/
structure TypeSet.Joins (first second whole : TypeSet) : Prop where
  second_indexed : second.Indexed
  whole_indexed : whole.Indexed
  get? : ∀ name, whole.get? name = (second.get? name).or (first.get? name)

namespace TypeSet.Joins

variable {first second whole : TypeSet} {known : KnownTypes}

theorem start (h : first.Indexed) : first.Joins .empty first where
  second_indexed := indexed_empty
  whole_indexed := h
  get? := fun _ => rfl

theorem insert (h : first.Joins second whole) (type : ResolvedType) :
    first.Joins (second.insert type) (whole.insert type) where
  second_indexed := h.second_indexed.insert type
  whole_indexed := h.whole_indexed.insert type
  get? := by
    intro name
    rw [h.whole_indexed.get?_insert, h.second_indexed.get?_insert, h.get?]
    split <;> rfl

/-- A reference means the same in both. -/
theorem resolve?_eq (h : first.Joins second whole) (ref : TypeRef) :
    ref.resolve? known whole = ref.resolve? (first.over known) second := by
  cases ref with
  | primitive kind => rfl
  | named name =>
      simp only [TypeRef.resolve?, TypeSet.over, h.get?]
      cases second.get? name with
      | some type => rfl
      | none => cases first.get? name <;> rfl

theorem resolveAll_eq (h : first.Joins second whole) (record : String)
    (fields : List (Field TypeRef)) :
    Field.resolveAll known whole record fields =
      Field.resolveAll (first.over known) second record fields := by
  induction fields with
  | nil => rfl
  | cons field rest ih =>
      unfold Field.resolveAll Field.resolve
      rw [h.resolve?_eq, ih]

theorem resolve_eq (h : first.Joins second whole) (definition : Definition) :
    definition.resolve known whole = definition.resolve (first.over known) second := by
  cases definition with
  | record definition => simp only [Definition.resolve, h.resolveAll_eq]
  | enumeration definition => rfl

end TypeSet.Joins

namespace Resolution

open Fallible

variable {known : KnownTypes} {first second whole : TypeSet}

theorem extend_append (known : KnownTypes) (set : TypeSet) (before after : List Definition) :
    extend known set (before ++ after) =
      extend known set before >>= fun set => extend known set after := by
  induction before generalizing set with
  | nil => rfl
  | cons definition rest ih =>
      simp only [List.cons_append, extend, bind_assoc]
      cases definition.resolve known set with
      | error error => rfl
      | ok type => exact ih (set.insert type)

/-- More definitions fail alike in both, or come to sets that are joined as before. -/
theorem extend_joins (h : first.Joins second whole) (definitions : List Definition) :
    Alike first.Joins (extend (first.over known) second definitions)
      (extend known whole definitions) := by
  induction definitions generalizing second whole with
  | nil => exact .ok h
  | cons definition rest ih =>
      unfold extend
      rw [h.resolve_eq]
      cases definition.resolve (first.over known) second with
      | error error => exact .error error
      | ok type => exact ih (h.insert type)

end Resolution

namespace Model

open Resolution Fallible

/-- The model with the definitions of one model and then those of another. -/
def append (first second : Model) : Model := ⟨first.definitions ++ second.definitions⟩

theorem resolve_append (first second : Model) (known : KnownTypes) :
    (first.append second).resolve known =
      first.resolve known >>= fun set => extend known set second.definitions :=
  extend_append known .empty first.definitions second.definitions

/-- Resolving the second model in the set of the first comes to the same as resolving it on its own
with that set in front of the known types. -/
theorem alike_of_resolve {first : Model} {known : KnownTypes} {set : TypeSet}
    (h : first.resolve known = .ok set) (second : Model) :
    Alike set.Joins (second.resolve (set.over known)) ((first.append second).resolve known) := by
  rw [resolve_append, h]
  exact extend_joins (.start (complete_of_extend .empty h).reflects.indexed) second.definitions

/-- Two models resolve one after the other in a single set exactly when the first does and then the
second against what the first has come to. Each name has the type of the second then, or else of the
first. Otherwise the error is that of the first of the two steps that fails. -/
theorem resolve_in_two_steps (first second : Model) (known : KnownTypes) :
    ((∃ whole, (first.append second).resolve known = .ok whole) ↔
      ∃ set, first.resolve known = .ok set ∧
        ∃ others, second.resolve (set.over known) = .ok others) ∧
    (∀ whole set others, (first.append second).resolve known = .ok whole →
      first.resolve known = .ok set → second.resolve (set.over known) = .ok others →
      ∀ name, whole.get? name = (others.get? name).or (set.get? name)) ∧
    ∀ error, (first.append second).resolve known = .error error ↔
      first.resolve known = .error error ∨
        ∃ set, first.resolve known = .ok set ∧
          second.resolve (set.over known) = .error error := by
  cases hfirst : first.resolve known with
  | error error =>
      have failed : (first.append second).resolve known = .error error := by
        rw [resolve_append, hfirst, error_bind]
      simp [failed]
  | ok set =>
      have alike := alike_of_resolve hfirst second
      refine ⟨?_, ?_, ?_⟩
      · simp [alike.exists_ok_iff]
      · rintro whole _ others hwhole ⟨⟩ hothers
        exact (alike.related_of_ok hothers hwhole).get?
      · intro error
        simp [alike.eq_error_iff]

/-- Types that are known from elsewhere: an enumeration `P`. -/
def shadowed : KnownTypes := fun name =>
  if name = "P" then some (.enumeration ⟨"P", [⟨"Zero", 0⟩]⟩) else none

/-- A record by the name of a known type and an enumeration by that of a built-in. -/
def former : Model := ⟨[.record ⟨⟨"P", []⟩, none⟩, .enumeration ⟨"NodeId", []⟩]⟩

/-- Refers to both of them, defines one again and refers to it once more. -/
def latter : Model :=
  ⟨[.record ⟨⟨"Q", [.scalar "p" (.named "P"), .scalar "id" (.named "NodeId")]⟩, none⟩,
    .enumeration ⟨"P", []⟩, .record ⟨⟨"R", [.scalar "p" (.named "P")]⟩, none⟩]⟩

/-- `Q` keeps the record and `R` has the enumeration, as when the two are resolved one by one. -/
theorem resolve_former_latter :
    ∃ whole, (former.append latter).resolve shadowed = .ok whole ∧
      whole.get? "Q" = some (.record
        ⟨"Q", [⟨"p", .record ⟨"P", []⟩, false, .instanceOf "P"⟩,
          ⟨"id", .enumeration ⟨"NodeId", []⟩, false, .instanceOf "NodeId"⟩]⟩) ∧
      whole.get? "R" = some (.record
        ⟨"R", [⟨"p", .enumeration ⟨"P", []⟩, false, .instanceOf "P"⟩]⟩) ∧
      whole.get? "NodeId" = some (.enumeration ⟨"NodeId", []⟩) := by
  let set := (former.resolve shadowed).toOption.getD .empty
  let others := (latter.resolve (set.over shadowed)).toOption.getD .empty
  have hset : former.resolve shadowed = .ok set := rfl
  have hothers : latter.resolve (set.over shadowed) = .ok others := rfl
  obtain ⟨resolves, answers, _⟩ := resolve_in_two_steps former latter shadowed
  obtain ⟨whole, hwhole⟩ := resolves.mpr ⟨set, hset, others, hothers⟩
  have get? := answers whole set others hwhole hset hothers
  refine ⟨whole, hwhole, ?_, ?_, ?_⟩
  · rw [get?]
    decide +kernel
  · rw [get?]
    decide +kernel
  · rw [get?]
    decide +kernel

end Model

end TypeDictionary
