import TypeDictionary.Proofs.Lists
import TypeDictionary.Resolved.TypeSet

/-!
# The index of a type set

A set of types is looked up through an index from names to places. The index is right when it leads
each name to the place of the type with that name and has no other names. Insertion keeps it right,
so a look-up never misses a place, and the set holds one type of each name.
-/

namespace TypeDictionary

namespace TypeSet

/-- The index leads exactly to the types of the set, each by its own name. -/
def Indexed (set : TypeSet) : Prop :=
  ∀ name place, set.places.get? name = some place ↔
    ∃ type, set.types[place]? = some type ∧ type.name = name

theorem indexed_empty : empty.Indexed := by
  intro name place
  simp [empty]

@[simp] theorem get?_empty (name : String) : empty.get? name = none := rfl

/-- Inserting a type whose name is known puts it in the place of the one before. -/
theorem insert_of_place {set : TypeSet} {type : ResolvedType} {place : Nat}
    (h : set.places.get? type.name = some place) :
    set.insert type = { set with types := set.types.set place type } := by
  simp only [insert, h]

theorem insert_of_absent {set : TypeSet} {type : ResolvedType}
    (h : set.places.get? type.name = none) :
    set.insert type =
      ⟨set.types ++ [type], set.places.insert type.name set.types.length⟩ := by
  simp only [insert, h]

namespace Indexed

variable {set : TypeSet}

theorem place_lt (h : set.Indexed) {name : String} {place : Nat}
    (hplace : set.places.get? name = some place) : place < set.types.length := by
  obtain ⟨type, htype, _⟩ := (h name place).mp hplace
  exact (List.getElem?_eq_some_iff.mp htype).1

/-- What the set answers for a name is one of its types, and has that name. -/
theorem get?_eq_some_iff (h : set.Indexed) {name : String} {type : ResolvedType} :
    set.get? name = some type ↔ type ∈ set.types ∧ type.name = name := by
  unfold get?
  rw [Option.bind_eq_bind, Option.bind_eq_some_iff]
  constructor
  · rintro ⟨place, hplace, htype⟩
    obtain ⟨other, hother, hname⟩ := (h name place).mp hplace
    rw [hother] at htype
    cases htype
    exact ⟨List.mem_of_getElem? hother, hname⟩
  · rintro ⟨hmem, hname⟩
    obtain ⟨place, htype⟩ := List.mem_iff_getElem?.mp hmem
    exact ⟨place, (h name place).mpr ⟨type, htype, hname⟩, htype⟩

/-- No two types of a set have the same name: the index has one place for it. -/
theorem nodup_names (h : set.Indexed) : set.names.Nodup := by
  unfold names
  rw [List.nodup_iff_pairwise_ne, List.pairwise_map, List.pairwise_iff_getElem]
  intro i j hi hj hij same
  have first := (h set.types[j].name i).mpr ⟨_, List.getElem?_eq_getElem hi, same⟩
  have second := (h set.types[j].name j).mpr ⟨_, List.getElem?_eq_getElem hj, rfl⟩
  rw [first] at second
  exact Nat.ne_of_lt hij (Option.some.inj second)

theorem mem_names_iff (h : set.Indexed) {name : String} :
    name ∈ set.names ↔ ∃ type, set.get? name = some type := by
  unfold names
  simp only [List.mem_map, h.get?_eq_some_iff]

/-- A name is contained exactly when it has a type: no look-up misses its place. -/
theorem contains_iff (h : set.Indexed) {name : String} :
    set.contains name = true ↔ ∃ type, set.get? name = some type := by
  unfold contains
  rw [Option.isSome_iff_exists]
  constructor
  · rintro ⟨place, hplace⟩
    obtain ⟨type, htype, hname⟩ := (h name place).mp hplace
    exact ⟨type, h.get?_eq_some_iff.mpr ⟨List.mem_of_getElem? htype, hname⟩⟩
  · rintro ⟨type, htype⟩
    obtain ⟨hmem, hname⟩ := h.get?_eq_some_iff.mp htype
    obtain ⟨place, hplace⟩ := List.mem_iff_getElem?.mp hmem
    exact ⟨place, (h name place).mpr ⟨type, hplace, hname⟩⟩

theorem insert (h : set.Indexed) (type : ResolvedType) : (set.insert type).Indexed := by
  intro name place
  cases hold : set.places.get? type.name with
  | some old =>
      rw [insert_of_place hold]
      by_cases hplace : old = place
      · subst hplace
        obtain ⟨former, hformer, hname⟩ := (h type.name old).mp hold
        simp [h name, List.getElem?_set_self (h.place_lt hold), hformer, hname]
      · simp [h name, List.getElem?_set_ne hplace]
  | none =>
      rw [insert_of_absent hold]
      simp only [Table.get?_insert, Lists.getElem?_concat_eq_some_iff]
      by_cases hname : name = type.name
      · subst hname
        have unused : ¬∃ former, set.types[place]? = some former ∧ former.name = type.name := by
          rw [← h type.name place, hold]
          simp
        constructor
        · intro hplace
          rw [if_pos rfl] at hplace
          cases hplace
          exact ⟨type, .inr ⟨rfl, rfl⟩, rfl⟩
        · rintro ⟨other, hother | ⟨rfl, rfl⟩, same⟩
          · exact absurd ⟨other, hother, same⟩ unused
          · rw [if_pos rfl]
      · rw [if_neg hname, h name place]
        constructor
        · rintro ⟨other, hother, same⟩
          exact ⟨other, .inl hother, same⟩
        · rintro ⟨other, hother | ⟨rfl, rfl⟩, same⟩
          · exact ⟨other, hother, same⟩
          · exact absurd same.symm hname

/-- After an insertion the inserted type answers for its name, and all other names are as before. -/
theorem get?_insert (h : set.Indexed) (type : ResolvedType) (name : String) :
    (set.insert type).get? name = if name = type.name then some type else set.get? name := by
  cases hold : set.places.get? type.name with
  | some old =>
      have hlt := h.place_lt hold
      rw [insert_of_place hold]
      unfold get?
      by_cases hname : name = type.name
      · subst hname
        simp [hold, List.getElem?_set_self hlt]
      · rw [if_neg hname]
        cases hplace : set.places.get? name with
        | none => rfl
        | some place =>
            have apart : old ≠ place := by
              rintro rfl
              obtain ⟨first, hfirst, firstName⟩ := (h type.name old).mp hold
              obtain ⟨second, hsecond, secondName⟩ := (h name old).mp hplace
              rw [hfirst] at hsecond
              cases hsecond
              exact hname (secondName.symm.trans firstName)
            exact List.getElem?_set_ne apart
  | none =>
      rw [insert_of_absent hold]
      unfold get?
      by_cases hname : name = type.name
      · subst hname
        simp
      · rw [if_neg hname, Table.get?_insert, if_neg hname]
        cases hplace : set.places.get? name with
        | none => rfl
        | some place => exact List.getElem?_append_left (h.place_lt hplace)

/-- A set gains the name of a type that is inserted, at its end, unless it has the name already. -/
theorem names_insert (h : set.Indexed) (type : ResolvedType) :
    (set.insert type).names =
      if type.name ∈ set.names then set.names else set.names ++ [type.name] := by
  cases hold : set.places.get? type.name with
  | some old =>
      obtain ⟨former, hformer, hname⟩ := (h type.name old).mp hold
      obtain ⟨hlt, hget⟩ := List.getElem?_eq_some_iff.mp hformer
      have known : type.name ∈ set.names :=
        List.mem_map.mpr ⟨former, List.mem_of_getElem? hformer, hname⟩
      have bound : old < set.names.length := by rwa [names, List.length_map]
      have same : type.name = set.names[old] := by simp [names, hget, hname]
      rw [insert_of_place hold, if_pos known, names, List.map_set, ← names, same,
        List.set_getElem_self]
  | none =>
      have unknown : type.name ∉ set.names := by
        intro known
        obtain ⟨found, hfound⟩ := h.mem_names_iff.mp known
        rw [get?, hold] at hfound
        cases hfound
      rw [insert_of_absent hold, if_neg unknown, names, List.map_append, ← names]
      rfl

end Indexed

end TypeSet

end TypeDictionary
