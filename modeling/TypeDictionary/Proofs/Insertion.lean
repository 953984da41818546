import TypeDictionary.Proofs.Reference

/-!
# Any number of insertions

A set of types is a list with an index beside it, and an insertion changes both or, where the name
is known, only the list. Here the types inserted so far are kept as a list in which nothing is
replaced. A set that holds them has the names in the order in which they came first, has the last
type of each name, and finds it through its index without ever missing the list. One insertion keeps
a set so, and so does any number of them; resolving definitions is inserting what they resolve to.
-/

namespace TypeDictionary

namespace TypeSet

/-- The set after some types have been inserted, one after the other. -/
def insertAll (set : TypeSet) (types : List ResolvedType) : TypeSet := types.foldl insert set

namespace Indexed

variable {set : TypeSet} {name : String} {place : Nat}

/-- The index has the names of the types, each with the place of its type. -/
theorem place_eq_some_iff (h : set.Indexed) :
    set.places.get? name = some place ↔ set.names[place]? = some name := by
  rw [h name place, names, List.getElem?_map, Option.map_eq_some_iff]

/-- At the place of a name stands the type that the set answers with. -/
theorem exists_of_place (h : set.Indexed) (hplace : set.places.get? name = some place) :
    ∃ type, set.types[place]? = some type ∧ set.get? name = some type := by
  obtain ⟨type, htype, hname⟩ := (h name place).mp hplace
  exact ⟨type, htype, h.get?_eq_some_iff.mpr ⟨List.mem_of_getElem? htype, hname⟩⟩

end Indexed

/-- A set that answers with the latest of some types and lists their names in the order in which
they came first. -/
structure Holds (set : TypeSet) (inserted : List ResolvedType) : Prop
    extends set.Reflects inserted where
  names_eq : set.names = (inserted.map ResolvedType.name).eraseDups

namespace Holds

variable {set : TypeSet} {inserted : List ResolvedType}

theorem empty : TypeSet.empty.Holds [] := ⟨.empty, List.eraseDups_nil.symm⟩

theorem insert (h : set.Holds inserted) (type : ResolvedType) :
    (set.insert type).Holds (inserted ++ [type]) where
  toReflects := h.toReflects.insert type
  names_eq := by
    rw [List.map_append, List.map_singleton, Lists.eraseDups_concat, h.indexed.names_insert,
      h.names_eq]
    simp only [List.mem_eraseDups]

theorem insertAll (h : set.Holds inserted) (types : List ResolvedType) :
    (set.insertAll types).Holds (inserted ++ types) := by
  induction types generalizing set inserted with
  | nil => simpa [TypeSet.insertAll] using h
  | cons type rest ih =>
      have later := ih (h.insert type)
      rwa [List.append_assoc] at later

end Holds

/-- Whatever is inserted into an empty set, its names are all different and stand in the order in
which they were first inserted. The index has exactly these names, each with its place in the list,
where the type stands that the set answers with: the last one inserted under that name. -/
theorem insertAll_characterization (inserted : List ResolvedType) :
    let set := empty.insertAll inserted
    set.names.Nodup ∧
    set.names = (inserted.map ResolvedType.name).eraseDups ∧
    (∀ name, set.contains name = true ↔ name ∈ set.names) ∧
    (∀ name place, set.places.get? name = some place ↔ set.names[place]? = some name) ∧
    (∀ name place, set.places.get? name = some place →
      ∃ type, set.types[place]? = some type ∧ set.get? name = some type) ∧
    ∀ name, set.get? name = inserted.findRev? fun type => type.name = name := by
  intro set
  have holds : set.Holds inserted := Holds.empty.insertAll inserted
  refine ⟨holds.indexed.nodup_names, holds.names_eq, ?_, ?_, ?_, holds.get?⟩
  · intro name
    rw [holds.indexed.contains_iff, holds.indexed.mem_names_iff]
  · exact fun name place => holds.indexed.place_eq_some_iff
  · exact fun name place => holds.indexed.exists_of_place

end TypeSet

namespace Resolution

variable {known : KnownTypes} {set result : TypeSet} {definitions : List Definition}

/-- Resolving definitions is inserting the types that they resolve to. -/
theorem eq_insertAll_of_extend (hok : extend known set definitions = .ok result) :
    result = set.insertAll (made known set definitions) := by
  induction definitions generalizing set with
  | nil =>
      cases hok
      rfl
  | cons definition rest ih =>
      obtain ⟨type, htype, hrest⟩ := Fallible.bind_eq_ok_iff.mp hok
      rw [made, htype]
      exact ih hrest

end Resolution

end TypeDictionary
