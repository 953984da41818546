import TypeDictionary.Proofs.Build
import TypeDictionary.Proofs.Preorder
import TypeDictionary.Proofs.Rule

/-!
# Which trees have a model

A tree has a model when every element that should define something is sound. Otherwise the error is
the first fault of those elements, all records before any enumeration.

The loops over fields and members keep what they have gathered; of that only the names matter to
what is refused. `Rule.Governs` says so of a loop, turn by turn, and what it fails with follows once
for both.
-/

namespace TypeDictionary

namespace Build

open Fallible
open Markup (Element)

variable {owner : String} {element : Element} {error : BuildError}

namespace Rule

variable {rule : Rule}

/-- A loop over items that refuses each item that has a fault, and else goes on with the name that
the item gives, if it gives one. The names gathered so far are all that matters of its state. -/
structure Governs {σ β : Type} (rule : Rule) (owner : String) (names : σ → List String)
    (run : σ → List Element → Except BuildError β) : Prop where
  nil : ∀ state, ∃ result, run state [] = .ok result
  cons : ∀ state element rest,
    (∃ error, rule.ItemFault owner (names state) element error ∧
      run state (element :: rest) = .error error) ∨
    (∀ error, ¬rule.ItemFault owner (names state) element error) ∧
      ∃ next, names next = names state ++ (rule.name? element).toList ∧
        run state (element :: rest) = run next rest

/-- Such a loop fails with the first fault of the items. -/
theorem Governs.eq_error_iff {σ β : Type} {names : σ → List String}
    {run : σ → List Element → Except BuildError β} (h : rule.Governs owner names run)
    (state : σ) {elements : List Element} :
    run state elements = .error error ↔
      FirstFault (fun before => rule.ItemFault owner (names state ++ rule.names before)) elements
        error := by
  induction elements generalizing state with
  | nil =>
      obtain ⟨result, ended⟩ := h.nil state
      rw [ended]
      constructor
      · rintro ⟨⟩
      · intro first
        exact absurd first not_firstFault_nil
  | cons element rest ih =>
      have start : names state ++ rule.names [] = names state := List.append_nil _
      rw [firstFault_cons, start]
      rcases h.cons state element rest with ⟨found, fault, failed⟩ | ⟨clear, next, grown, goesOn⟩
      · rw [failed]
        constructor
        · rintro ⟨⟩
          exact .inl fault
        · rintro (other | ⟨clear, _⟩)
          · rw [fault.unique other]
          · exact absurd fault (clear found)
      · -- What the loop goes on with are the names of all items up to the next.
        have later (before : List Element) :
            names next ++ rule.names before = names state ++ rule.names (element :: before) := by
          rw [grown, List.append_assoc, ← names_singleton, ← names_append, List.singleton_append]
        rw [goesOn, ih]
        simp only [later, clear, false_or, not_false_eq_true, implies_true, true_and]

end Rule

theorem required_of_none {construct : Construct} {property : Property}
    (missing : element.attribute? property.attributeName = none) :
    required element construct property = .error (.missingAttribute construct property) := by
  unfold required
  rw [missing]

theorem identifier_of_none {construct : Construct} (missing : rawName? element = none) :
    identifier element construct = .error (.missingAttribute construct .name) := by
  unfold identifier
  rw [required_of_none missing]
  rfl

theorem identifier_of_empty {construct : Construct} (empty : rawName? element = some "") :
    identifier element construct = .error (.emptyName construct "") := by
  unfold identifier
  rw [required_eq_ok_iff.mpr empty]
  rfl

theorem identifier_of_nonempty {construct : Construct} {raw : String}
    (named : rawName? element = some raw) (nonempty : raw ≠ "") :
    identifier element construct = .ok (Identifier.clean raw) :=
  identifier_eq_ok_iff.mpr ⟨raw, named, rfl, fun h => nonempty (Identifier.clean_eq_empty_iff.mp h)⟩

theorem isArrayLength_eq (raw : String) : isArrayLength raw = Rule.record.isExempt raw := by
  rw [Bool.eq_iff_iff]
  exact List.isPrefixOf_iff_prefix.trans (decide_eq_true_iff).symm

section Turns

variable {raw value : String} {rest : List Element}

/-- A turn over a field element with a name and a type either finds the name taken or adds a field,
which is an array if one is pending. -/
theorem fields_cons_of_counts {pending : Bool} {earlier : List (Field TypeRef)}
    (counts : Rule.record.Counts element raw)
    (given : element.attribute? Property.typeName.attributeName = some value) :
    Build.fields owner pending earlier (element :: rest) =
      if Identifier.clean raw ∈ earlier.map Field.name then
        .error (.duplicateName owner (Identifier.clean raw))
      else
        Build.fields owner false
          (earlier ++ [if pending then .array (Identifier.clean raw) (TypeRef.parse value)
            else .scalar (Identifier.clean raw) (TypeRef.parse value)]) rest := by
  rw [Build.fields, required_eq_ok_iff.mpr counts.named, ok_bind, isArrayLength_eq,
    counts.notExempt, if_neg Bool.false_ne_true,
    identifier_of_nonempty counts.named counts.nonempty, ok_bind, required_eq_ok_iff.mpr given,
    ok_bind]
  simp only [Lists.any_key_iff]
  split <;> rfl

/-- The loop over the fields of a record takes its turns by the rule of records. -/
theorem governs_fields (owner : String) :
    Rule.record.Governs owner (fun state : Bool × List (Field TypeRef) => state.2.map Field.name)
      fun state => Build.fields owner state.1 state.2 where
  nil state := ⟨state.2, rfl⟩
  cons := by
    rintro ⟨pending, earlier⟩ element rest
    dsimp only
    cases Rule.record.shape element with
    | unnamed missing =>
        refine .inl ⟨_, .missingName missing, ?_⟩
        rw [Build.fields, required_of_none missing]
        rfl
    | exempt named exempt =>
        -- No name is added, and the next field is an array.
        refine .inr ⟨Rule.clear_of_isExempt named exempt, (true, earlier), ?_, ?_⟩
        · rw [Rule.name?_of_isExempt named exempt, Option.toList_none, List.append_nil]
        · rw [Build.fields, required_eq_ok_iff.mpr named, ok_bind, isArrayLength_eq,
            if_pos exempt]
    | empty empty notExempt =>
        refine .inl ⟨_, .emptyName empty notExempt, ?_⟩
        rw [Build.fields, required_eq_ok_iff.mpr empty, ok_bind, isArrayLength_eq, notExempt,
          identifier_of_empty empty]
        rfl
    | bare counts missing =>
        refine .inl ⟨_, .missingProperty counts missing, ?_⟩
        have untyped : required element .field .typeName =
            .error (.missingAttribute .field .typeName) := required_of_none missing
        rw [Build.fields, required_eq_ok_iff.mpr counts.named, ok_bind, isArrayLength_eq,
          counts.notExempt, if_neg Bool.false_ne_true,
          identifier_of_nonempty counts.named counts.nonempty, ok_bind, untyped]
        rfl
    | @given raw value counts given =>
        rw [fields_cons_of_counts counts given]
        by_cases known : Identifier.clean raw ∈ earlier.map Field.name
        · exact .inl ⟨_, .duplicate counts given trivial known, if_pos known⟩
        · refine .inr ⟨?_, (false, _), ?_, if_neg known⟩
          · exact Rule.clear_of_counts counts given trivial known
          · rw [counts.name?_eq, List.map_append]
            cases pending <;> rfl

theorem memberValue_eq_some_iff {word : Int64} :
    memberValue value = some word ↔
      Text.Numeral.Denotes (Text.trim value.toList) word.toInt :=
  Text.Numeral.int64?_eq_some_iff

theorem members_cons_of_counts {earlier : List Member}
    (counts : Rule.enumeration.Counts element raw)
    (given : element.attribute? Property.value.attributeName = some value) :
    Build.members owner earlier (element :: rest) =
      match memberValue value with
      | none => .error (.invalidEnumValue owner (Identifier.clean raw) value)
      | some word =>
        if Identifier.clean raw ∈ earlier.map Member.name then
          .error (.duplicateName owner (Identifier.clean raw))
        else Build.members owner (earlier ++ [⟨Identifier.clean raw, word⟩]) rest := by
  rw [Build.members, identifier_of_nonempty counts.named counts.nonempty, ok_bind,
    required_eq_ok_iff.mpr given, ok_bind]
  simp only [Lists.any_key_iff]
  cases memberValue value with
  | none => rfl
  | some word =>
      dsimp only
      split <;> rfl

/-- The loop over the members of an enumeration takes its turns by the rule of enumerations. -/
theorem governs_members (owner : String) :
    Rule.enumeration.Governs owner (List.map Member.name) (Build.members owner) where
  nil earlier := ⟨earlier, rfl⟩
  cons := by
    intro earlier element rest
    cases Rule.enumeration.shape element with
    | unnamed missing =>
        refine .inl ⟨_, .missingName missing, ?_⟩
        rw [Build.members, identifier_of_none missing]
        rfl
    | exempt named exempt =>
        -- No value element is passed over.
        cases exempt
    | empty empty notExempt =>
        refine .inl ⟨_, .emptyName empty notExempt, ?_⟩
        rw [Build.members, identifier_of_empty empty]
        rfl
    | bare counts missing =>
        have valueless : required element .enumeratedValue .value =
            .error (.missingAttribute .enumeratedValue .value) := required_of_none missing
        refine .inl ⟨_, .missingProperty counts missing, ?_⟩
        rw [Build.members, identifier_of_nonempty counts.named counts.nonempty, ok_bind, valueless]
        rfl
    | @given raw value counts given =>
        rw [members_cons_of_counts counts given]
        cases hword : memberValue value with
        | none =>
            refine .inl ⟨_, .invalid counts given ?_, rfl⟩
            rintro ⟨word, denotes⟩
            rw [memberValue_eq_some_iff.mpr denotes] at hword
            cases hword
        | some word =>
            have right : Rule.enumeration.Accepts value := ⟨word, memberValue_eq_some_iff.mp hword⟩
            by_cases known : Identifier.clean raw ∈ earlier.map Member.name
            · exact .inl ⟨_, .duplicate counts given right known, if_pos known⟩
            · refine .inr ⟨?_, _, ?_, if_neg known⟩
              · exact Rule.clear_of_counts counts given right known
              · rw [counts.name?_eq, List.map_append]
                rfl

end Turns

/-- Reading a definition by a rule fails with the fault of its element. -/
theorem eq_error_iff_fault {β γ : Type} {rule : Rule} {items : String → Except BuildError β}
    {make : String → β → γ}
    (h : ∀ owner, items owner = .error error ↔
      FirstFault (fun before => rule.ItemFault owner (rule.names before)) (rule.items element)
        error) :
    (do
      let name ← identifier element rule.definition
      let made ← items name
      return make name made) = .error error ↔ rule.Fault element error := by
  cases hraw : rawName? element with
  | none =>
      rw [identifier_of_none hraw, error_bind, Rule.fault_iff_of_none hraw, Except.error.injEq,
        eq_comm]
  | some raw =>
      by_cases hempty : raw = ""
      · subst hempty
        rw [identifier_of_empty hraw, error_bind, Rule.fault_iff_of_empty hraw,
          Except.error.injEq, eq_comm]
      · rw [identifier_of_nonempty hraw hempty, ok_bind, Rule.fault_iff_of_nonempty hraw hempty,
          ← h, bind_eq_error_iff]
        constructor
        · rintro (failed | ⟨_, _, ⟨⟩⟩)
          exact failed
        · exact .inl

theorem record_eq_error_iff : record element = .error error ↔ Rule.record.Fault element error :=
  eq_error_iff_fault fun owner => (governs_fields owner).eq_error_iff (false, [])

theorem enumeration_eq_error_iff :
    enumeration element = .error error ↔ Rule.enumeration.Fault element error :=
  eq_error_iff_fault fun owner => (governs_members owner).eq_error_iff []

theorem all_eq_error_iff {steps : List (Except BuildError Definition)} :
    all steps = .error error ↔
      FirstFault (fun _ step error => step = .error error) steps error := by
  induction steps with
  | nil =>
      constructor
      · rintro ⟨⟩
      · intro first
        exact absurd first not_firstFault_nil
  | cons step rest ih =>
      rw [all, firstFault_cons, ← ih]
      cases step with
      | error found =>
          rw [error_bind]
          constructor
          · rintro ⟨⟩
            exact .inl rfl
          · rintro (⟨⟨⟩⟩ | ⟨clear, _⟩)
            · rfl
            · exact absurd rfl (clear found)
      | ok definition =>
          rw [ok_bind, bind_eq_error_iff]
          constructor
          · rintro (failed | ⟨_, _, ⟨⟩⟩)
            refine .inr ⟨?_, failed⟩
            rintro other ⟨⟩
          · rintro (⟨⟨⟩⟩ | ⟨_, failed⟩)
            exact .inl failed

theorem descendantsNamed_eq_elements (rule : Rule) (root : Element) :
    root.descendantsNamed rule.definition.elementName = rule.elements root :=
  Element.descendantsNamed_eq root _

theorem plan_eq (root : Element) :
    plan root =
      (Rule.record.elements root).map (fun element => (record element).map .record) ++
        (Rule.enumeration.elements root).map fun element =>
          (enumeration element).map .enumeration := by
  rw [← descendantsNamed_eq_elements, ← descendantsNamed_eq_elements]
  rfl

/-- The definitions that a tree asks for fail with the first fault of the elements that define
them. -/
theorem all_plan_eq_error_iff {root : Element} :
    all (plan root) = .error error ↔
      FirstFault (fun _ definition => definition.1.Fault definition.2) (defining root) error := by
  rw [all_eq_error_iff, plan_eq, defining, firstFault_append, firstFault_append]
  simp only [firstFault_map, faultless_map, map_eq_error_iff, record_eq_error_iff,
    enumeration_eq_error_iff]

end Build

namespace Model

open Build Fallible

/-- A tree has a model exactly when every element that should define something is sound by its rule.
Otherwise the error is the first fault among these elements, all records before any enumeration. -/
theorem build_characterization (root : Markup.Element) :
    ((∃ model, Model.build root = .ok model) ↔
      ∀ element ∈ root.preorder,
        (element.name = Construct.structuredType.elementName → Rule.record.Sound element) ∧
        (element.name = Construct.enumeratedType.elementName → Rule.enumeration.Sound element)) ∧
    ∀ error, Model.build root = .error error ↔
      FirstFault (fun _ definition => definition.1.Fault definition.2) (defining root) error := by
  have failed (error : BuildError) : Model.build root = .error error ↔
      FirstFault (fun _ definition => definition.1.Fault definition.2) (defining root) error :=
    map_eq_error_iff.trans all_plan_eq_error_iff
  refine ⟨?_, failed⟩
  -- A tree without a model has an error, so a tree has a model if nothing in it is at fault.
  rw [exists_ok_iff]
  simp only [ne_eq, failed, ← faultless_iff]
  rw [faultless_iff_forall, defining, List.forall_mem_append, List.forall_mem_map,
    List.forall_mem_map]
  simp only [Rule.not_fault_iff, Rule.elements, List.mem_filter, decide_eq_true_eq, and_imp]
  constructor
  · rintro ⟨records, enumerations⟩ element helement
    exact ⟨records element helement, enumerations element helement⟩
  · intro sound
    exact ⟨fun element helement => (sound element helement).1,
      fun element helement => (sound element helement).2⟩

end Model

end TypeDictionary
