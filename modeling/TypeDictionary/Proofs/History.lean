import Mathlib.Data.Finset.Card
import TypeDictionary.Proofs.Registry

/-!
# Histories of registrations

What a new registry answers after any registrations can be read off their list. A name answers with
its last registration and an identifier with the last one that carried it, so an identifier may go
on meaning a type whose name has moved on. Each registration tells of the latest one before it under
the same name.

The names are counted and listed once each, however often they were registered.
-/

namespace TypeDictionary

namespace Registry

/-- Registers types one after the other and lists what became of the entries under their names. -/
def registerAll (registry : Registry) : List Entry → List Registration × Registry
  | [] => ([], registry)
  | entry :: rest =>
    let (outcome, registry) := registry.register entry.name entry.wireId entry.handle
    let (outcomes, registry) := registry.registerAll rest
    (outcome :: outcomes, registry)

theorem registerAll_cons (registry : Registry) (entry : Entry) (rest : List Entry) :
    registry.registerAll (entry :: rest) =
      (registry.outcome entry :: ((registry.add entry).registerAll rest).1,
        ((registry.add entry).registerAll rest).2) := rfl

theorem snd_registerAll (registry : Registry) (entries : List Entry) :
    (registry.registerAll entries).2 = registry.addAll entries := by
  induction entries generalizing registry with
  | nil => rfl
  | cons entry rest ih => rw [registerAll_cons, addAll_cons, ih]

/-- Each registration meets the registry that those before it have left. -/
theorem getElem?_registerAll (registry : Registry) (entries : List Entry) (i : Nat) :
    (registry.registerAll entries).1[i]? =
      entries[i]?.map fun entry => (registry.addAll (entries.take i)).outcome entry := by
  induction entries generalizing registry i with
  | nil => rfl
  | cons entry rest ih =>
      rw [registerAll_cons]
      cases i with
      | zero => rfl
      | succ i => exact ih (registry.add entry) i

theorem outcome_eq_overwritten_iff {registry : Registry} {entry previous : Entry} :
    registry.outcome entry = .overwritten previous ↔
      registry.entry? entry.name = some previous := by
  unfold outcome
  cases registry.entry? entry.name <;> simp

theorem outcome_eq_inserted_iff {registry : Registry} {entry : Entry} :
    registry.outcome entry = .inserted ↔ registry.entry? entry.name = none := by
  unfold outcome
  cases registry.entry? entry.name <;> simp

section Names

variable {registry : Registry}

theorem nodup_names (registry : Registry) : registry.names.Nodup :=
  (List.mergeSort_perm _ _).nodup_iff.mpr registry.byName.nodup

/-- The names are listed in increasing order, and none of them twice. -/
theorem names_increasing (registry : Registry) : registry.names.Pairwise (· < ·) := by
  have sorted : registry.names.Pairwise (fun a b => decide (a ≤ b) = true) := by
    apply List.pairwise_mergeSort
    · intro a b c hab hbc
      exact decide_eq_true (String.le_trans (of_decide_eq_true hab) (of_decide_eq_true hbc))
    · intro a b
      simpa using String.le_total a b
  apply sorted.imp₂ _ registry.nodup_names
  intro a b hle hne
  apply String.not_le.mp
  intro hge
  exact hne (String.le_antisymm (of_decide_eq_true hle) hge)

theorem length_names (registry : Registry) : registry.names.length = registry.size := by
  unfold names size Table.size Table.keys
  rw [List.length_mergeSort, List.length_map]

@[simp] theorem mem_names_add (registry : Registry) (entry : Entry) (name : String) :
    name ∈ (registry.add entry).names ↔ entry.name = name ∨ name ∈ registry.names := by
  unfold names add
  rw [List.mem_mergeSort, List.mem_mergeSort, Table.keys_insert]
  split
  · rename_i known
    constructor
    · exact .inr
    · rintro (rfl | h)
      · exact known
      · exact h
  · rw [List.mem_append, List.mem_singleton, or_comm, eq_comm]

theorem mem_names_addAll (registry : Registry) (entries : List Entry) (name : String) :
    name ∈ (registry.addAll entries).names ↔
      (∃ entry ∈ entries, entry.name = name) ∨ name ∈ registry.names := by
  induction entries generalizing registry with
  | nil => simp
  | cons entry rest ih => simp [ih, or_left_comm, or_assoc]

end Names

/-- What a new registry answers after some registrations, what each of them tells, and which names
there are. -/
theorem registerAll_new (logs : Bool) (entries : List Entry) :
    ∃ outcomes registry, (new logs).registerAll entries = (outcomes, registry) ∧
      (∀ name, registry.entry? name = entries.findRev? fun entry => entry.name = name) ∧
      (∀ id, registry.entryById? id = entries.findRev? fun entry => entry.wireId = some id) ∧
      (∀ (i : Nat) (previous : Entry), outcomes[i]? = some (.overwritten previous) ↔
        ∃ entry, entries[i]? = some entry ∧
          (entries.take i).findRev? (fun earlier => earlier.name = entry.name) = some previous) ∧
      (∀ i : Nat, outcomes[i]? = some .inserted ↔
        ∃ entry, entries[i]? = some entry ∧
          ∀ earlier ∈ entries.take i, earlier.name ≠ entry.name) ∧
      registry.size = (entries.map Entry.name).toFinset.card ∧
      registry.names.Pairwise (· < ·) ∧
      ∀ name, name ∈ registry.names ↔ ∃ entry ∈ entries, entry.name = name := by
  have byName (earlier : List Entry) (name : String) :
      entry? ((new logs).addAll earlier) name =
        earlier.findRev? fun entry => entry.name = name := by
    rw [entry?_addAll, entry?_new, Option.or_none]
  have known (name : String) : name ∈ ((new logs).addAll entries).names ↔
      ∃ entry ∈ entries, entry.name = name := by
    rw [mem_names_addAll]
    simp [new, names, Table.keys, Table.empty]
  refine ⟨_, _, rfl, ?_⟩
  rw [snd_registerAll]
  refine ⟨byName entries, ?_, ?_, ?_, ?_, names_increasing _, known⟩
  · intro id
    rw [entryById?_addAll, entryById?_new, Option.or_none]
  · intro i previous
    rw [getElem?_registerAll, Option.map_eq_some_iff]
    simp only [outcome_eq_overwritten_iff, byName]
  · intro i
    rw [getElem?_registerAll, Option.map_eq_some_iff]
    simp only [outcome_eq_inserted_iff, byName, Latest.findRev?_eq_none_iff, decide_eq_true_eq,
      ne_eq]
  · have same : (entries.map Entry.name).toFinset =
        ((new logs).addAll entries).names.toFinset := by
      ext name
      rw [List.mem_toFinset, List.mem_toFinset, known, List.mem_map]
    rw [same, List.toFinset_card_of_nodup (nodup_names _), length_names]

end Registry

end TypeDictionary
