import Mathlib.Data.List.Induction
import TypeDictionary.Proofs.Latest
import TypeDictionary.Registry

/-!
# Entries in a registry

Every registration adds one entry, so a registry is described by the entries added to it. After any
number of them a name answers with the last entry of that name, and an identifier with the last
entry that carries it; a name or identifier that none of them has answers as before.
-/

namespace TypeDictionary

namespace Registry

/-- The registry with some entries more, added one after the other. -/
def addAll (registry : Registry) (entries : List Entry) : Registry := entries.foldl add registry

variable {registry : Registry} {entry : Entry}

@[simp] theorem addAll_nil : registry.addAll [] = registry := rfl

@[simp] theorem addAll_cons (entries : List Entry) :
    registry.addAll (entry :: entries) = (registry.add entry).addAll entries := rfl

@[simp] theorem addAll_append (first second : List Entry) :
    registry.addAll (first ++ second) = (registry.addAll first).addAll second :=
  List.foldl_append

@[simp] theorem entry?_new (logs : Bool) (name : String) : entry? (new logs) name = none := rfl

@[simp] theorem entryById?_new (logs : Bool) (id : WireId) : (new logs).entryById? id = none := rfl

@[simp] theorem entry?_add (registry : Registry) (entry : Entry) (name : String) :
    entry? (registry.add entry) name =
      if entry.name = name then some entry else registry.entry? name := by
  simp only [add, entry?, Table.get?_insert, eq_comm]

@[simp] theorem entryById?_add (registry : Registry) (entry : Entry) (id : WireId) :
    (registry.add entry).entryById? id =
      if entry.wireId = some id then some entry else registry.entryById? id := by
  unfold entryById? add
  cases entry.wireId with
  | none => simp
  | some own => simp only [Table.get?_insert, Option.some.injEq, eq_comm]

/-- A name answers with the last entry added under it. -/
theorem entry?_addAll (registry : Registry) (entries : List Entry) (name : String) :
    entry? (registry.addAll entries) name =
      (entries.findRev? fun entry => entry.name = name).or (registry.entry? name) := by
  induction entries using List.reverseRecOn with
  | nil => rfl
  | append_singleton entries entry ih =>
      rw [addAll_append, addAll_cons, addAll_nil, entry?_add, ih, Latest.findRev?_concat]
      by_cases same : entry.name = name
      · simp [same]
      · simp [same]

/-- An identifier answers with the last entry added that carries it, whatever became of its name
since. -/
theorem entryById?_addAll (registry : Registry) (entries : List Entry) (id : WireId) :
    (registry.addAll entries).entryById? id =
      (entries.findRev? fun entry => entry.wireId = some id).or (registry.entryById? id) := by
  induction entries using List.reverseRecOn with
  | nil => rfl
  | append_singleton entries entry ih =>
      rw [addAll_append, addAll_cons, addAll_nil, entryById?_add, ih, Latest.findRev?_concat]
      by_cases same : entry.wireId = some id
      · simp [same]
      · simp [same]

/-- Every entry answers for the name or identifier it has, and has a property. -/
structure Every (property : Entry → Prop) (registry : Registry) : Prop where
  byName : ∀ name entry, registry.entry? name = some entry → entry.name = name ∧ property entry
  byWireId : ∀ id entry,
    registry.entryById? id = some entry → entry.wireId = some id ∧ property entry

variable {property : Entry → Prop}

theorem every_new {logs : Bool} : (new logs).Every property where
  byName := by simp
  byWireId := by simp

namespace Every

theorem mono {stronger : Entry → Prop} (h : registry.Every stronger)
    (weaken : ∀ entry, stronger entry → property entry) : registry.Every property where
  byName := fun name entry found => (h.byName name entry found).imp_right (weaken entry)
  byWireId := fun id entry found => (h.byWireId id entry found).imp_right (weaken entry)

theorem add (h : registry.Every property) (hentry : property entry) :
    (registry.add entry).Every property where
  byName := by
    intro name found hfound
    rw [entry?_add] at hfound
    by_cases same : entry.name = name
    · rw [if_pos same] at hfound
      cases hfound
      exact ⟨same, hentry⟩
    · rw [if_neg same] at hfound
      exact h.byName name found hfound
  byWireId := by
    intro id found hfound
    rw [entryById?_add] at hfound
    by_cases same : entry.wireId = some id
    · rw [if_pos same] at hfound
      cases hfound
      exact ⟨same, hentry⟩
    · rw [if_neg same] at hfound
      exact h.byWireId id found hfound

theorem addAll (h : registry.Every property) {entries : List Entry}
    (added : ∀ entry ∈ entries, property entry) : (registry.addAll entries).Every property := by
  induction entries generalizing registry with
  | nil => exact h
  | cons entry rest ih =>
      rw [addAll_cons]
      apply ih (h.add (added entry List.mem_cons_self))
      intro later hlater
      exact added later (List.mem_cons_of_mem entry hlater)

end Every

end Registry

end TypeDictionary
