import TypeDictionary.Proofs.History

/-!
# Both indexes of a registry

A registry keeps its entries twice, by name and by identifier, and a registration may replace an
entry of one index, of the other or of both. An entry that has lost its name to a later one can
still be found by its identifier, and the other way round. What is never lost is the name or the
identifier itself: whatever an entry carries is known to the index that it belongs to.

`Consistent.register` says so of one registration, and `registerAll_consistent` of any number.
-/

namespace TypeDictionary

namespace Registry

/-- A later registry that has lost neither a name nor an identifier. What these mean may differ. -/
structure Extends (registry later : Registry) : Prop where
  names : ∀ name, (registry.entry? name).isSome → (later.entry? name).isSome
  identifiers : ∀ id, (registry.entryById? id).isSome → (later.entryById? id).isSome

/-- Whether the name of an entry, and its identifier if it has one, are known to a registry. -/
structure Indexes (registry : Registry) (entry : Entry) : Prop where
  name : (registry.entry? entry.name).isSome
  identifier : ∀ id, entry.wireId = some id → (registry.entryById? id).isSome

/-- Each entry has the name or the identifier that it is found by, and both indexes know of it. -/
def Consistent (registry : Registry) : Prop := registry.Every registry.Indexes

variable {registry later : Registry} {entry : Entry}

theorem Extends.indexes (h : registry.Extends later) (indexed : registry.Indexes entry) :
    later.Indexes entry where
  name := h.names entry.name indexed.name
  identifier id carried := h.identifiers id (indexed.identifier id carried)

/-- One more entry may take the place of another, but not its key. -/
theorem extends_add (registry : Registry) (entry : Entry) :
    registry.Extends (registry.add entry) where
  names := by
    intro name known
    rw [entry?_add]
    split
    · rfl
    · exact known
  identifiers := by
    intro id known
    rw [entryById?_add]
    split
    · rfl
    · exact known

theorem indexes_add (registry : Registry) (entry : Entry) : (registry.add entry).Indexes entry where
  name := by rw [entry?_add, if_pos rfl]; rfl
  identifier := by
    intro id carried
    rw [entryById?_add, if_pos carried]
    rfl

namespace Consistent

theorem new (logs : Bool) : (Registry.new logs).Consistent := every_new

theorem add (h : registry.Consistent) (entry : Entry) : (registry.add entry).Consistent :=
  -- The entries there were are indexed still, since no key is lost, and so is the one added.
  (Every.mono h fun _ => (extends_add registry entry).indexes).add (indexes_add registry entry)

theorem register (h : registry.Consistent) (name : String) (id : Option WireId) (handle : Handle) :
    (registry.register name id handle).2.Consistent :=
  h.add ⟨id, name, handle⟩

theorem registerAll (h : registry.Consistent) (calls : List Entry) :
    (registry.registerAll calls).2.Consistent := by
  induction calls generalizing registry with
  | nil => exact h
  | cons call rest ih => exact ih (h.register call.name call.wireId call.handle)

end Consistent

/-- After any registrations in a new registry its indexes are consistent: an entry has the name or
the identifier that it is found by, its name is known to the index of names, and its identifier, if
it has one, to that of identifiers. No further registration loses a name or an identifier. -/
theorem registerAll_consistent (logs : Bool) (calls : List Entry) :
    ∃ registry, ((new logs).registerAll calls).2 = registry ∧
      (∀ name entry, registry.entry? name = some entry →
        entry.name = name ∧
          ∀ id, entry.wireId = some id → ∃ other, registry.entryById? id = some other) ∧
      (∀ id entry, registry.entryById? id = some entry →
        entry.wireId = some id ∧ ∃ other, registry.entry? entry.name = some other) ∧
      ∀ name id handle, registry.Extends (registry.register name id handle).2 := by
  have consistent := (Consistent.new logs).registerAll calls
  refine ⟨_, rfl, ?_, ?_, ?_⟩
  · intro name entry found
    obtain ⟨named, indexed⟩ := consistent.byName name entry found
    exact ⟨named, fun id carried => Option.isSome_iff_exists.mp (indexed.identifier id carried)⟩
  · intro id entry found
    obtain ⟨carried, indexed⟩ := consistent.byWireId id entry found
    exact ⟨carried, Option.isSome_iff_exists.mp indexed.name⟩
  · intro name id handle
    exact extends_add _ ⟨id, name, handle⟩

end Registry

end TypeDictionary
