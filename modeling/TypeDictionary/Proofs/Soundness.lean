import TypeDictionary.Proofs.Resolution
import TypeDictionary.Proofs.WellFormed

/-!
# Resolution keeps types well formed

Well-formed definitions resolve to well-formed types if the known types are well formed and known
under their own names. The names matter as much as the types: the recipe of a field asks for an
instance by the name that its reference had, and the field then holds a type found by that name.
-/

namespace TypeDictionary

/-- Every type is known under its own name and is well formed all the way down. -/
def KnownTypes.WellFormed (known : KnownTypes) : Prop :=
  ∀ name type, known name = some type → type.name = name ∧ type.WellFormed

variable {known : KnownTypes} {earlier : List ResolvedType}

/-- A reference means a well-formed type of the name it asks for, with the recipe of a reference to
it. -/
theorem TypeRef.Means.sound {ref : TypeRef} {type : FieldType}
    (means : ref.Means known earlier type) (hknown : known.WellFormed)
    (hearlier : ∀ type ∈ earlier, type.WellFormed) :
    type.WellFormed ∧ type.recipe = Recipe.ofElement ref := by
  cases means with
  | primitive kind => exact ⟨.primitive kind, rfl⟩
  | earlier split named latest =>
      subst split named
      refine ⟨hearlier _ (List.mem_append_right _ List.mem_cons_self), ?_⟩
      rw [ResolvedType.recipe_toFieldType]
      rfl
  | known hidden found =>
      obtain ⟨named, sound⟩ := hknown _ _ found
      subst named
      refine ⟨sound, ?_⟩
      rw [ResolvedType.recipe_toFieldType]
      rfl
  | builtin hidden unknown named =>
      subst named
      exact ⟨.builtin _, rfl⟩

/-- Resolving a field changes its element type only, so the recipe stays that of the element. -/
theorem Field.ResolvesTo.wellFormed {field : Field TypeRef} {resolved : Field FieldType}
    (h : field.ResolvesTo known earlier resolved) (hfield : field.WellFormed Recipe.ofElement)
    (hrecipe : resolved.type.recipe = Recipe.ofElement field.type) :
    resolved.WellFormed FieldType.recipe where
  name := by
    rw [h.name]
    exact hfield.name
  tag := rfl
  empty_iff := by
    rw [h.recipe, h.isArray]
    exact hfield.empty_iff
  element := by
    intro single
    rw [h.isArray] at single
    rw [h.recipe, hrecipe]
    exact hfield.element single

/-- What resolution keeps of each field, it keeps of the list of them. -/
theorem Field.map_of_resolvesTo {α : Type} {before : Field TypeRef → α}
    {after : Field FieldType → α} {fields : List (Field TypeRef)}
    {resolved : List (Field FieldType)}
    (h : List.Forall₂ (Field.ResolvesTo known earlier) fields resolved)
    (kept : ∀ field made, field.ResolvesTo known earlier made → after made = before field) :
    resolved.map after = fields.map before := by
  induction h with
  | nil => rfl
  | cons first _ ih => rw [List.map_cons, List.map_cons, kept _ _ first, ih]

/-- Each resolved field comes from a field that resolves to it. -/
theorem Field.exists_of_mem_resolved {fields : List (Field TypeRef)}
    {resolved : List (Field FieldType)}
    (h : List.Forall₂ (Field.ResolvesTo known earlier) fields resolved) {field : Field FieldType}
    (hfield : field ∈ resolved) : ∃ origin ∈ fields, origin.ResolvesTo known earlier field := by
  induction h with
  | nil => cases hfield
  | cons first _ ih =>
      rcases List.mem_cons.mp hfield with rfl | hfield
      · exact ⟨_, List.mem_cons_self, first⟩
      · obtain ⟨origin, horigin, resolves⟩ := ih hfield
        exact ⟨origin, List.mem_cons_of_mem _ horigin, resolves⟩

theorem Definition.ResolvesTo.wellFormed {definition : Definition} {type : ResolvedType}
    (h : definition.ResolvesTo known earlier type) (sound : definition.WellFormed)
    (hknown : known.WellFormed) (hearlier : ∀ type ∈ earlier, type.WellFormed) :
    type.WellFormed := by
  cases h with
  | enumeration definition => exact .enumeration sound
  | record resolved =>
      refine .record ⟨sound.name, ?_, ?_⟩ ?_
      · rw [Field.map_of_resolvesTo resolved fun _ _ made => made.name]
        exact sound.distinct
      · intro field hfield
        obtain ⟨origin, horigin, resolves⟩ := Field.exists_of_mem_resolved resolved hfield
        exact resolves.wellFormed (sound.fields origin horigin)
          (resolves.type.sound hknown hearlier).2
      · intro field hfield
        obtain ⟨origin, _, resolves⟩ := Field.exists_of_mem_resolved resolved hfield
        exact (resolves.type.sound hknown hearlier).1

namespace Resolution

/-- By induction on the place of a type: what stands before it is well formed already. -/
theorem Complete.wellFormed {definitions : List Definition} {types : List ResolvedType}
    {result : TypeSet} (complete : Complete known [] definitions types result)
    (sound : ∀ definition ∈ definitions, definition.WellFormed) (hknown : known.WellFormed) :
    ∀ type ∈ types, type.WellFormed := by
  have placed : ∀ (i : Nat) (type : ResolvedType), types[i]? = some type → type.WellFormed := by
    intro i
    induction i using Nat.strongRecOn with
    | ind i ih =>
        intro type htype
        obtain ⟨hlt, _⟩ := List.getElem?_eq_some_iff.mp htype
        rw [complete.length_eq] at hlt
        have resolves := complete.resolves i definitions[i] type
          (List.getElem?_eq_getElem hlt) htype
        apply resolves.wellFormed (sound _ (List.getElem_mem hlt)) hknown
        intro other hother
        obtain ⟨j, hj, rfl⟩ := List.mem_take_iff_getElem.mp hother
        exact ih j (by omega) _ (List.getElem?_eq_getElem (by omega))
  intro type htype
  obtain ⟨i, hi⟩ := List.mem_iff_getElem?.mp htype
  exact placed i type hi

end Resolution

/-- The types of a well-formed model are well formed, and the set holds them under their own
names. -/
theorem Model.wellFormed_of_resolve {model : Model} {set : TypeSet}
    (h : model.resolve known = .ok set)
    (sound : ∀ definition ∈ model.definitions, definition.WellFormed)
    (hknown : known.WellFormed) {name : String} {type : ResolvedType}
    (htype : set.get? name = some type) : type.name = name ∧ type.WellFormed := by
  have complete := Resolution.complete_of_extend .empty h
  obtain ⟨hname, before, after, split, _⟩ := complete.reflects.get?_eq_some_iff.mp htype
  refine ⟨hname, complete.wellFormed sound hknown type ?_⟩
  rw [List.nil_append] at split
  rw [split]
  exact List.mem_append_right _ List.mem_cons_self

end TypeDictionary
