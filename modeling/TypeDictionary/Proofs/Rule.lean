import TypeDictionary.Model.Build
import TypeDictionary.Proofs.FirstFault
import TypeDictionary.Proofs.Numeral

/-!
# What an element must be like to define something

Records and enumerations are read by one rule with different values: an element defines something,
its children of another name are its items, and an item has a name and one more attribute.
`Rule.Sound` says what such an element must be like, and `Rule.Fault` which error tells of one that
is not. Both are read off the tree alone.

The fault of an element is that of its own name, or else the first fault of its items, each judged
by the names of the items before it. `not_fault_iff` says that the two descriptions agree.
-/

namespace TypeDictionary

namespace Build

open Markup (Element)

/-- How a kind of definition is read from an element: which elements define it, which of their
children are its items, the attribute that an item has besides its name, the raw names of items that
are passed over, and the values of that attribute that are right. -/
structure Rule where
  definition : Construct
  item : Construct
  property : Property
  isExempt : String → Bool
  Accepts : String → Prop

/-- The name of an element as it is written. -/
def rawName? (element : Element) : Option String := element.attribute? Property.name.attributeName

variable {owner : String} {taken : List String} {element : Element} {error : BuildError}

namespace Rule

/-- Fields have the name of a type, and none of those that tell the length of an array count. -/
def record : Rule where
  definition := .structuredType
  item := .field
  property := .typeName
  isExempt raw := "NoOf".toList <+: raw.toList
  Accepts _ := True

/-- Members have a 64-bit integer, blank characters around it aside. -/
def enumeration : Rule where
  definition := .enumeratedType
  item := .enumeratedValue
  property := .value
  isExempt _ := false
  Accepts raw := ∃ value : Int64, Text.Numeral.Denotes (Text.trim raw.toList) value.toInt

variable (rule : Rule)

def items (element : Element) : List Element := element.childrenNamed rule.item.elementName

/-- The name that an item gives to a field or member, if it gives one. -/
def name? (element : Element) : Option String :=
  ((rawName? element).filter fun raw => !rule.isExempt raw).map Identifier.clean

def names (elements : List Element) : List String := elements.filterMap rule.name?

/-- Whether an item counts under a raw name: one that is not passed over and has its name. -/
structure Counts (element : Element) (raw : String) : Prop where
  named : rawName? element = some raw
  nonempty : raw ≠ ""
  notExempt : rule.isExempt raw = false

/-- What is wrong with an item of a definition, after items that gave the names `taken`. Of several
things the first of this list counts. -/
inductive ItemFault (owner : String) (taken : List String) (element : Element) : BuildError → Prop
  | missingName (missing : rawName? element = none) :
      ItemFault owner taken element (.missingAttribute rule.item .name)
  | emptyName (empty : rawName? element = some "") (notExempt : rule.isExempt "" = false) :
      ItemFault owner taken element (.emptyName rule.item "")
  | missingProperty {raw : String} (counts : rule.Counts element raw)
      (missing : element.attribute? rule.property.attributeName = none) :
      ItemFault owner taken element (.missingAttribute rule.item rule.property)
  | invalid {raw value : String} (counts : rule.Counts element raw)
      (given : element.attribute? rule.property.attributeName = some value)
      (wrong : ¬rule.Accepts value) :
      ItemFault owner taken element (.invalidEnumValue owner (Identifier.clean raw) value)
  | duplicate {raw value : String} (counts : rule.Counts element raw)
      (given : element.attribute? rule.property.attributeName = some value)
      (right : rule.Accepts value) (known : Identifier.clean raw ∈ taken) :
      ItemFault owner taken element (.duplicateName owner (Identifier.clean raw))

/-- What is wrong with an element that should define something. -/
inductive Fault (element : Element) : BuildError → Prop
  | missingName (missing : rawName? element = none) :
      Fault element (.missingAttribute rule.definition .name)
  | emptyName (empty : rawName? element = some "") : Fault element (.emptyName rule.definition "")
  | item {raw : String} {error : BuildError} (named : rawName? element = some raw)
      (nonempty : raw ≠ "")
      (first : FirstFault (fun before => rule.ItemFault (Identifier.clean raw) (rule.names before))
        (rule.items element) error) :
      Fault element error

/-- What an item has to be like on its own. -/
def ItemSound (element : Element) : Prop :=
  ∃ raw, rawName? element = some raw ∧ (rule.isExempt raw = false →
    raw ≠ "" ∧ ∃ value, element.attribute? rule.property.attributeName = some value ∧
      rule.Accepts value)

/-- What an element has to be like to define something. -/
structure Sound (element : Element) : Prop where
  named : ∃ raw, rawName? element = some raw ∧ raw ≠ ""
  items : ∀ item ∈ rule.items element, rule.ItemSound item
  distinct : (rule.names (rule.items element)).Nodup

/-- The elements of a tree that should define something by the rule, in document order. -/
def elements (root : Element) : List Element :=
  root.preorder.filter fun element => element.name = rule.definition.elementName

variable {rule}

theorem name?_eq_some_iff {name : String} :
    rule.name? element = some name ↔
      ∃ raw, rawName? element = some raw ∧ rule.isExempt raw = false ∧
        Identifier.clean raw = name := by
  simp only [name?, Option.map_eq_some_iff, Option.filter_eq_some_iff, Bool.not_eq_true', and_assoc]

theorem Counts.name?_eq {raw : String} (h : rule.Counts element raw) :
    rule.name? element = some (Identifier.clean raw) :=
  name?_eq_some_iff.mpr ⟨raw, h.named, h.notExempt, rfl⟩

theorem name?_of_isExempt {raw : String} (named : rawName? element = some raw)
    (exempt : rule.isExempt raw = true) : rule.name? element = none := by
  simp [name?, named, exempt]

/-- An item has one fault at most, for each is looked for only where those above it are absent. -/
theorem ItemFault.unique {other : BuildError} (h : rule.ItemFault owner taken element error)
    (h' : rule.ItemFault owner taken element other) : error = other := by
  -- Faults of two different kinds contradict each other in the name, the attribute or its value.
  cases h <;> cases h' <;> grind [cases Counts]

theorem itemSound_of_isExempt {raw : String} (named : rawName? element = some raw)
    (exempt : rule.isExempt raw = true) : rule.ItemSound element := by
  refine ⟨raw, named, ?_⟩
  intro notExempt
  rw [exempt] at notExempt
  cases notExempt

theorem ItemSound.of_counts (sound : rule.ItemSound element) {raw : String}
    (named : rawName? element = some raw) (notExempt : rule.isExempt raw = false) :
    rule.Counts element raw ∧
      ∃ value, element.attribute? rule.property.attributeName = some value ∧
        rule.Accepts value := by
  obtain ⟨other, hother, h⟩ := sound
  obtain rfl : other = raw := Option.some.inj (hother.symm.trans named)
  obtain ⟨nonempty, given⟩ := h notExempt
  exact ⟨⟨named, nonempty, notExempt⟩, given⟩

/-- The ways in which an item can be written. -/
inductive Shape (rule : Rule) (element : Element) : Prop
  | unnamed (missing : rawName? element = none)
  | exempt {raw : String} (named : rawName? element = some raw)
      (exempt : rule.isExempt raw = true)
  | empty (empty : rawName? element = some "") (notExempt : rule.isExempt "" = false)
  | bare {raw : String} (counts : rule.Counts element raw)
      (missing : element.attribute? rule.property.attributeName = none)
  | given {raw value : String} (counts : rule.Counts element raw)
      (given : element.attribute? rule.property.attributeName = some value)

theorem shape (rule : Rule) (element : Element) : rule.Shape element := by
  cases hraw : rawName? element with
  | none => exact .unnamed hraw
  | some raw =>
      cases hexempt : rule.isExempt raw with
      | true => exact .exempt hraw hexempt
      | false =>
          by_cases hempty : raw = ""
          · subst hempty
            exact .empty hraw hexempt
          · cases hvalue : element.attribute? rule.property.attributeName with
            | none => exact .bare ⟨hraw, hempty, hexempt⟩ hvalue
            | some value => exact .given ⟨hraw, hempty, hexempt⟩ hvalue

/-- An item on which no fault can be found is sound. -/
theorem itemSound_of_clear (clear : ∀ error, ¬rule.ItemFault owner taken element error) :
    rule.ItemSound element := by
  cases rule.shape element with
  | unnamed missing => exact absurd (.missingName missing) (clear _)
  | exempt named exempt => exact itemSound_of_isExempt named exempt
  | empty empty notExempt => exact absurd (.emptyName empty notExempt) (clear _)
  | bare counts missing => exact absurd (.missingProperty counts missing) (clear _)
  | given counts given =>
      refine ⟨_, counts.named, fun _ => ⟨counts.nonempty, _, given, ?_⟩⟩
      by_contra wrong
      exact clear _ (.invalid counts given wrong)

theorem not_itemFault_iff :
    (∀ error, ¬rule.ItemFault owner taken element error) ↔
      rule.ItemSound element ∧ ∀ name, rule.name? element = some name → name ∉ taken := by
  constructor
  · intro clear
    have sound := itemSound_of_clear clear
    refine ⟨sound, ?_⟩
    intro name hname known
    obtain ⟨raw, hraw, notExempt, rfl⟩ := name?_eq_some_iff.mp hname
    obtain ⟨counts, value, given, right⟩ := sound.of_counts hraw notExempt
    exact clear _ (.duplicate counts given right known)
  · rintro ⟨sound, fresh⟩ error fault
    cases fault with
    | missingName missing =>
        obtain ⟨raw, hraw, _⟩ := sound
        rw [missing] at hraw
        cases hraw
    | emptyName empty notExempt => exact (sound.of_counts empty notExempt).1.nonempty rfl
    | missingProperty counts missing =>
        obtain ⟨_, value, given, _⟩ := sound.of_counts counts.named counts.notExempt
        rw [missing] at given
        cases given
    | invalid counts given wrong =>
        obtain ⟨_, value, given', right⟩ := sound.of_counts counts.named counts.notExempt
        rw [given] at given'
        cases given'
        exact wrong right
    | duplicate counts _ _ known => exact fresh _ counts.name?_eq known

theorem clear_of_isExempt {raw : String} (named : rawName? element = some raw)
    (exempt : rule.isExempt raw = true) : ∀ error, ¬rule.ItemFault owner taken element error := by
  refine not_itemFault_iff.mpr ⟨itemSound_of_isExempt named exempt, ?_⟩
  intro name hname
  rw [name?_of_isExempt named exempt] at hname
  cases hname

theorem clear_of_counts {raw value : String} (counts : rule.Counts element raw)
    (given : element.attribute? rule.property.attributeName = some value)
    (right : rule.Accepts value) (fresh : Identifier.clean raw ∉ taken) :
    ∀ error, ¬rule.ItemFault owner taken element error := by
  refine not_itemFault_iff.mpr ⟨⟨raw, counts.named, fun _ => ?_⟩, ?_⟩
  · exact ⟨counts.nonempty, value, given, right⟩
  · intro name hname
    rw [counts.name?_eq] at hname
    cases hname
    exact fresh

theorem names_append (first second : List Element) :
    rule.names (first ++ second) = rule.names first ++ rule.names second :=
  List.filterMap_append

theorem names_singleton (element : Element) :
    rule.names [element] = (rule.name? element).toList := by
  unfold names
  cases hname : rule.name? element with
  | none => rw [List.filterMap_cons_none hname]; rfl
  | some name => rw [List.filterMap_cons_some hname]; rfl

/-- One more item keeps the names distinct if it gives none or a new one. -/
theorem nodup_names_concat {elements : List Element} :
    (rule.names (elements ++ [element])).Nodup ↔
      (rule.names elements).Nodup ∧
        ∀ name, rule.name? element = some name → name ∉ rule.names elements := by
  rw [names_append, names_singleton]
  cases rule.name? element with
  | none => simp
  | some name => simp [List.nodup_append, ne_comm, List.forall_mem_ne]

/-- Items are faultless if each is sound and no two give the same name. -/
theorem faultless_items_iff {elements : List Element} :
    Faultless (fun before => rule.ItemFault owner (rule.names before)) elements ↔
      (∀ element ∈ elements, rule.ItemSound element) ∧ (rule.names elements).Nodup := by
  -- From the end, since an item is judged by the names of the items before it.
  induction elements using List.reverseRecOn with
  | nil => exact ⟨fun _ => ⟨by simp, List.nodup_nil⟩, fun _ => faultless_nil⟩
  | append_singleton elements element ih =>
      rw [faultless_concat, ih, not_itemFault_iff, nodup_names_concat, List.forall_mem_append,
        List.forall_mem_singleton]
      exact and_and_and_comm

theorem fault_iff_of_none (missing : rawName? element = none) :
    rule.Fault element error ↔ error = .missingAttribute rule.definition .name := by
  constructor
  · intro fault
    cases fault <;> simp_all
  · rintro rfl
    exact .missingName missing

theorem fault_iff_of_empty (empty : rawName? element = some "") :
    rule.Fault element error ↔ error = .emptyName rule.definition "" := by
  constructor
  · intro fault
    cases fault <;> simp_all
  · rintro rfl
    exact .emptyName empty

theorem fault_iff_of_nonempty {raw : String} (named : rawName? element = some raw)
    (nonempty : raw ≠ "") :
    rule.Fault element error ↔
      FirstFault (fun before => rule.ItemFault (Identifier.clean raw) (rule.names before))
        (rule.items element) error := by
  constructor
  · intro fault
    cases fault <;> simp_all
  · exact .item named nonempty

/-- An element is sound if it has no fault, and only then. -/
theorem not_fault_iff : (∀ error, ¬rule.Fault element error) ↔ rule.Sound element := by
  cases hraw : rawName? element with
  | none =>
      simp only [fault_iff_of_none hraw]
      constructor
      · intro clear
        exact absurd rfl (clear _)
      · rintro ⟨⟨raw, named, _⟩, _, _⟩
        rw [hraw] at named
        cases named
  | some raw =>
      by_cases hempty : raw = ""
      · subst hempty
        simp only [fault_iff_of_empty hraw]
        constructor
        · intro clear
          exact absurd rfl (clear _)
        · rintro ⟨⟨raw, named, nonempty⟩, _, _⟩
          rw [hraw] at named
          cases named
          exact absurd rfl nonempty
      · simp only [fault_iff_of_nonempty hraw hempty, ← faultless_iff, faultless_items_iff]
        constructor
        · rintro ⟨items, distinct⟩
          exact ⟨⟨raw, hraw, hempty⟩, items, distinct⟩
        · rintro ⟨_, items, distinct⟩
          exact ⟨items, distinct⟩

end Rule

/-- The elements of a tree that should define something, each with its rule: all records, then all
enumerations. -/
def defining (root : Element) : List (Rule × Element) :=
  (Rule.record.elements root).map (Prod.mk .record) ++
    (Rule.enumeration.elements root).map (Prod.mk .enumeration)

end Build

end TypeDictionary
