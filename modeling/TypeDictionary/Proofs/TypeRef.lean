import TypeDictionary.Proofs.Identifier
import TypeDictionary.TypeRef

/-!
# References and their names

A reference keeps of the text that it was read from the cleaned name behind the first colon, and
this name is all there is to it: read again, it gives the same reference.

The name alone decides the kind of reference, too. It is a primitive kind if the name is that of
one, and else the reference is named by it. `Identifier.IsLocalPart` tells which part of the text is
cleaned; of several colons only the first one counts.
-/

namespace TypeDictionary

theorem Primitive.ofName?_eq_some_iff {name : String} {kind : Primitive} :
    Primitive.ofName? name = some kind ↔ kind.name = name := by
  constructor
  · intro h
    simpa using List.find?_some h
  · rintro rfl
    cases kind <;> decide

namespace Identifier

/-- Whether a text is what follows the first colon of a qualified name, or all of the name if it has
none. -/
inductive IsLocalPart : String → String → Prop
  | bare {name : String} (noColon : ':' ∉ name.toList) : IsLocalPart name name
  | qualified {space name : String} (noColon : ':' ∉ space.toList) :
      IsLocalPart (space ++ ":" ++ name) name

theorem afterColon_eq_none {text : List Char} (h : ':' ∉ text) : afterColon text = none := by
  induction text with
  | nil => rfl
  | cons c rest ih =>
      obtain ⟨notColon, hrest⟩ := List.ne_and_not_mem_of_not_mem_cons h
      rw [afterColon, ih hrest]
      exact fun h => notColon h.symm

theorem afterColon_append {space rest : List Char} (h : ':' ∉ space) :
    afterColon (space ++ ':' :: rest) = some rest := by
  induction space with
  | nil => rfl
  | cons c space ih =>
      obtain ⟨notColon, hspace⟩ := List.ne_and_not_mem_of_not_mem_cons h
      rw [List.cons_append, afterColon, ih hspace]
      exact fun h => notColon h.symm

theorem IsLocalPart.localPart_eq {qualified name : String} (h : IsLocalPart qualified name) :
    localPart qualified = name := by
  cases h with
  | bare noColon => rw [localPart, afterColon_eq_none noColon]
  | @qualified space name noColon =>
      have split : (space ++ ":" ++ name).toList = space.toList ++ ':' :: name.toList := by simp
      rw [localPart, split, afterColon_append noColon]
      exact String.ofList_toList

theorem isLocalPart_localPart (qualified : String) :
    IsLocalPart qualified (localPart qualified) := by
  by_cases colon : ':' ∈ qualified.toList
  · obtain ⟨space, rest, split, first⟩ := List.eq_append_cons_of_mem colon
    have noColon : ':' ∉ (String.ofList space).toList := by rwa [String.toList_ofList]
    have whole : qualified = String.ofList space ++ ":" ++ String.ofList rest := by
      rw [← String.toList_inj, split]
      simp
    rw [whole, (IsLocalPart.qualified noColon).localPart_eq]
    exact .qualified noColon
  · rw [(IsLocalPart.bare colon).localPart_eq]
    exact .bare colon

/-- Every qualified name has one local part. -/
theorem localPart_eq_iff {qualified name : String} :
    localPart qualified = name ↔ IsLocalPart qualified name := by
  constructor
  · rintro rfl
    exact isLocalPart_localPart qualified
  · exact IsLocalPart.localPart_eq

theorem colon_notMem_clean (raw : String) : ':' ∉ (clean raw).toList := by
  intro h
  have allowed := (isLegal_clean raw).1 ':' h
  rw [Alphabet.unicode_allows_colon] at allowed
  cases allowed

/-- An identifier holds no colon, so it has no namespace to be dropped. -/
@[simp] theorem localPart_clean (raw : String) : localPart (clean raw) = clean raw :=
  (IsLocalPart.bare (colon_notMem_clean raw)).localPart_eq

end Identifier

namespace TypeRef

@[simp] theorem name_ofIdentifier (identifier : String) :
    (ofIdentifier identifier).name = identifier := by
  unfold ofIdentifier
  cases found : Primitive.ofName? identifier with
  | none => rfl
  | some kind => simpa [name] using List.find?_some found

@[simp] theorem name_parse (qualified : String) :
    (parse qualified).name = Identifier.clean (Identifier.localPart qualified) :=
  name_ofIdentifier _

theorem ofIdentifier_name_parse (qualified : String) :
    ofIdentifier (parse qualified).name = parse qualified := by
  rw [name_parse, parse]

/-- A reference is read again from its name. -/
theorem parse_name_parse (qualified : String) : parse (parse qualified).name = parse qualified := by
  rw [name_parse, parse, Identifier.localPart_clean, Identifier.clean_clean, parse]

theorem ofIdentifier_eq_primitive_iff {identifier : String} {kind : Primitive} :
    ofIdentifier identifier = primitive kind ↔ identifier = kind.name := by
  constructor
  · intro same
    rw [← name_ofIdentifier identifier, same, name]
  · rintro rfl
    rw [ofIdentifier, Primitive.ofName?_eq_some_iff.mpr rfl]

theorem ofIdentifier_eq_named_iff {identifier name : String} :
    ofIdentifier identifier = named name ↔
      identifier = name ∧ ∀ kind : Primitive, kind.name ≠ identifier := by
  constructor
  · intro same
    have own : identifier = name := by rw [← name_ofIdentifier identifier, same, TypeRef.name]
    refine ⟨own, ?_⟩
    rintro kind rfl
    rw [ofIdentifier_eq_primitive_iff.mpr rfl] at same
    cases same
  · rintro ⟨rfl, other⟩
    cases h : ofIdentifier identifier with
    | primitive kind => exact absurd (ofIdentifier_eq_primitive_iff.mp h).symm (other kind)
    | named name => rw [← name_ofIdentifier identifier, h, TypeRef.name]

/-- Reading a reference a second time, from its name, changes nothing, and neither does a namespace
in front of the text. What is cleaned is the text behind the first colon. The reference is a
primitive kind exactly if this gives the name of one; any other reference has a clean name without
colons that no primitive kind has. -/
theorem parse_characterization (qualified : String) :
    parse (parse qualified).name = parse qualified ∧
    (∀ space name : String, ':' ∉ space.toList → ':' ∉ name.toList →
      parse (space ++ ":" ++ name) = parse name) ∧
    (∀ name, parse qualified = .named name →
      Identifier.clean name = name ∧ ':' ∉ name.toList ∧ ∀ kind : Primitive, kind.name ≠ name) ∧
    ∃ text, (∀ other, Identifier.IsLocalPart qualified other ↔ other = text) ∧
      ∀ kind, parse qualified = .primitive kind ↔ Identifier.clean text = kind.name := by
  refine ⟨parse_name_parse qualified, ?_, ?_, Identifier.localPart qualified, ?_, ?_⟩
  · intro space name noColon bare
    rw [parse, parse, (Identifier.IsLocalPart.qualified noColon).localPart_eq,
      (Identifier.IsLocalPart.bare bare).localPart_eq]
  · intro name same
    obtain ⟨rfl, other⟩ := ofIdentifier_eq_named_iff.mp same
    exact ⟨Identifier.clean_clean _, Identifier.colon_notMem_clean _, other⟩
  · intro other
    rw [← Identifier.localPart_eq_iff, eq_comm]
  · intro kind
    rw [parse, ofIdentifier_eq_primitive_iff]

/-- A namespace ends at the first colon. The second one is cleaned like any other foreign character,
and what comes of it is no primitive kind. -/
theorem parse_characterization_sample :
    parse ("opc" ++ ":" ++ "Int32") = parse "Int32" ∧
      parse "a:opc:Int32" = .named "opc_Int32" ∧
      Identifier.IsLocalPart "a:opc:Int32" "opc:Int32" ∧
      ∀ kind : Primitive, kind.name ≠ "opc_Int32" := by
  obtain ⟨_, prefixed, named, _⟩ := parse_characterization "a:opc:Int32"
  have result : parse "a:opc:Int32" = .named "opc_Int32" := by decide +kernel
  have first : Identifier.localPart "a:opc:Int32" = "opc:Int32" := by decide +kernel
  exact ⟨prefixed "opc" "Int32" (by decide) (by decide), result,
    Identifier.localPart_eq_iff.mp first, (named _ result).2.2⟩

end TypeRef

end TypeDictionary
