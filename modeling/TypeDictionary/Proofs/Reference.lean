import Mathlib.Data.List.Forall2
import TypeDictionary.Proofs.Fallible
import TypeDictionary.Proofs.Latest
import TypeDictionary.Proofs.TypeSet
import TypeDictionary.Resolved.Resolution

/-!
# What references mean

A model is resolved against a set that grows and whose types may be replaced. Here the types made so
far are a list instead, in the order of their definitions and with nothing replaced, and the meaning
of a name is read off that list: the latest earlier type with the name, else the known type, else
the built-in. `TypeSet.Reflects` says that a set answers as a list does; every insertion keeps it.

Whether a reference means anything depends on names only, so the first field whose element type
means nothing can be told without resolving those before it.
-/

namespace TypeDictionary

theorem Builtin.ofName?_eq_some_iff {name : String} {kind : Builtin} :
    Builtin.ofName? name = some kind ↔ kind.name = name := by
  constructor
  · intro h
    simpa using List.find?_some h
  · rintro rfl
    cases kind <;> decide

/-- What an element type means after some types have been made. -/
inductive TypeRef.Means (known : KnownTypes) (earlier : List ResolvedType) :
    TypeRef → FieldType → Prop
  | primitive (kind : Primitive) : Means known earlier (.primitive kind) (.primitive kind)
  | earlier {name : String} {before after : List ResolvedType} {type : ResolvedType}
      (split : earlier = before ++ type :: after) (named : type.name = name)
      (latest : ∀ later ∈ after, later.name ≠ name) :
      Means known earlier (.named name) type.toFieldType
  | known {name : String} {type : ResolvedType} (hidden : ∀ other ∈ earlier, other.name ≠ name)
      (found : known name = some type) : Means known earlier (.named name) type.toFieldType
  | builtin {name : String} {kind : Builtin} (hidden : ∀ other ∈ earlier, other.name ≠ name)
      (unknown : known name = none) (named : kind.name = name) :
      Means known earlier (.named name) (.builtin kind)

/-- Whether a name means anything after definitions of the given names. -/
def KnownTypes.Provides (known : KnownTypes) (earlier : List String) (name : String) : Prop :=
  name ∈ earlier ∨ (∃ type, known name = some type) ∨ ∃ kind : Builtin, kind.name = name

/-- Whether the element types of some fields all mean something. -/
def KnownTypes.ProvidesAll (known : KnownTypes) (earlier : List String)
    (fields : List (Field TypeRef)) : Prop :=
  ∀ field ∈ fields, ∀ name, field.type = .named name → known.Provides earlier name

/-- A set of types that answers as the latest types of a list. -/
structure TypeSet.Reflects (set : TypeSet) (types : List ResolvedType) : Prop where
  indexed : set.Indexed
  get? : ∀ name, set.get? name = types.findRev? fun type => type.name = name

namespace TypeSet.Reflects

variable {set : TypeSet} {types : List ResolvedType}

theorem empty : TypeSet.empty.Reflects [] := ⟨indexed_empty, fun _ => rfl⟩

theorem insert (h : set.Reflects types) (type : ResolvedType) :
    (set.insert type).Reflects (types ++ [type]) where
  indexed := h.indexed.insert type
  get? := by
    intro name
    rw [h.indexed.get?_insert, Latest.findRev?_concat, h.get? name]
    by_cases hname : name = type.name
    · simp [hname]
    · simp [hname, Ne.symm hname]

theorem get?_eq_some_iff (h : set.Reflects types) {name : String} {type : ResolvedType} :
    set.get? name = some type ↔
      type.name = name ∧ ∃ before after, types = before ++ type :: after ∧
        ∀ later ∈ after, later.name ≠ name := by
  rw [h.get?, Latest.findRev?_eq_some_iff]
  simp only [decide_eq_true_eq, ne_eq]

theorem get?_eq_none_iff (h : set.Reflects types) {name : String} :
    set.get? name = none ↔ ∀ other ∈ types, other.name ≠ name := by
  rw [h.get?, Latest.findRev?_eq_none_iff]
  simp only [decide_eq_true_eq, ne_eq]

end TypeSet.Reflects

namespace TypeRef

variable {known : KnownTypes} {set : TypeSet} {types : List ResolvedType}

theorem resolve?_of_get? {name : String} {type : ResolvedType}
    (found : set.get? name = some type) :
    (named name).resolve? known set = some type.toFieldType := by
  simp [resolve?, found]

theorem resolve?_of_known {name : String} {type : ResolvedType} (hidden : set.get? name = none)
    (found : known name = some type) :
    (named name).resolve? known set = some type.toFieldType := by
  simp [resolve?, hidden, found]

theorem resolve?_of_unknown {name : String} (hidden : set.get? name = none)
    (unknown : known name = none) :
    (named name).resolve? known set = (Builtin.ofName? name).map .builtin := by
  simp [resolve?, hidden, unknown]

/-- Resolution finds exactly what a reference means. -/
theorem resolve?_eq_some_iff (h : set.Reflects types) {ref : TypeRef} {type : FieldType} :
    ref.resolve? known set = some type ↔ ref.Means known types type := by
  constructor
  · intro found
    cases ref with
    | primitive kind =>
        cases found
        exact .primitive kind
    | named name =>
        cases hset : set.get? name with
        | some defined =>
            rw [resolve?_of_get? hset] at found
            cases found
            obtain ⟨named, before, after, split, latest⟩ := h.get?_eq_some_iff.mp hset
            exact .earlier split named latest
        | none =>
            have hidden := h.get?_eq_none_iff.mp hset
            cases hknown : known name with
            | some known =>
                rw [resolve?_of_known hset hknown] at found
                cases found
                exact .known hidden hknown
            | none =>
                rw [resolve?_of_unknown hset hknown, Option.map_eq_some_iff] at found
                obtain ⟨kind, hkind, rfl⟩ := found
                exact .builtin hidden hknown (Builtin.ofName?_eq_some_iff.mp hkind)
  · intro means
    cases means with
    | primitive kind => rfl
    | earlier split named latest =>
        exact resolve?_of_get? (h.get?_eq_some_iff.mpr ⟨named, _, _, split, latest⟩)
    | known hidden found => exact resolve?_of_known (h.get?_eq_none_iff.mpr hidden) found
    | builtin hidden unknown named =>
        rw [resolve?_of_unknown (h.get?_eq_none_iff.mpr hidden) unknown,
          Builtin.ofName?_eq_some_iff.mpr named]
        rfl

/-- A name means something exactly when something provides it. -/
theorem exists_means_iff {name : String} :
    (∃ type, (named name).Means known types type) ↔
      known.Provides (types.map ResolvedType.name) name := by
  constructor
  · rintro ⟨type, means⟩
    cases means with
    | earlier split named latest =>
        subst split
        exact .inl (List.mem_map.mpr ⟨_, List.mem_append_right _ List.mem_cons_self, named⟩)
    | known hidden found => exact .inr (.inl ⟨_, found⟩)
    | builtin hidden unknown named => exact .inr (.inr ⟨_, named⟩)
  · intro provides
    cases hlatest : types.findRev? (fun type => type.name = name) with
    | some type =>
        obtain ⟨hname, before, after, split, latest⟩ := Latest.findRev?_eq_some_iff.mp hlatest
        refine ⟨_, .earlier split (by simpa using hname) ?_⟩
        simpa using latest
    | none =>
        have hidden : ∀ other ∈ types, other.name ≠ name := by
          simpa using Latest.findRev?_eq_none_iff.mp hlatest
        cases hknown : known name with
        | some type => exact ⟨_, .known hidden hknown⟩
        | none =>
            rcases provides with earlier | ⟨type, found⟩ | ⟨kind, hkind⟩
            · obtain ⟨other, hother, hname⟩ := List.mem_map.mp earlier
              exact absurd hname (hidden other hother)
            · rw [hknown] at found
              cases found
            · exact ⟨_, .builtin hidden hknown hkind⟩

theorem resolve?_eq_none_iff (h : set.Reflects types) {ref : TypeRef} :
    ref.resolve? known set = none ↔
      ∃ name, ref = .named name ∧ ¬known.Provides (types.map ResolvedType.name) name := by
  rw [Option.eq_none_iff_forall_ne_some]
  simp only [ne_eq, resolve?_eq_some_iff h]
  cases ref with
  | primitive kind =>
      constructor
      · intro means
        exact absurd (.primitive kind) (means _)
      · rintro ⟨name, same, _⟩
        cases same
  | named name =>
      rw [← not_exists, exists_means_iff]
      simp

end TypeRef

/-- A field that is as it was but for its element type, which is what the reference means. -/
structure Field.ResolvesTo (known : KnownTypes) (earlier : List ResolvedType)
    (field : Field TypeRef) (resolved : Field FieldType) : Prop where
  name : resolved.name = field.name
  isArray : resolved.isArray = field.isArray
  recipe : resolved.recipe = field.recipe
  type : field.type.Means known earlier resolved.type

/-- The first of some fields whose element type means nothing, as an error tells of it. -/
def KnownTypes.FirstMissing (known : KnownTypes) (earlier : List String) (record : String)
    (fields : List (Field TypeRef)) (error : UnresolvedReference) : Prop :=
  ∃ before field after name, fields = before ++ field :: after ∧
    known.ProvidesAll earlier before ∧ field.type = .named name ∧
    ¬known.Provides earlier name ∧ error = ⟨record, field.name, name⟩

namespace KnownTypes

variable {known : KnownTypes} {earlier : List String} {record : String}
  {field : Field TypeRef} {fields : List (Field TypeRef)} {error : UnresolvedReference}

theorem providesAll_nil : known.ProvidesAll earlier [] := by
  intro field h
  cases h

theorem providesAll_cons :
    known.ProvidesAll earlier (field :: fields) ↔
      (∀ name, field.type = .named name → known.Provides earlier name) ∧
        known.ProvidesAll earlier fields :=
  List.forall_mem_cons

theorem not_firstMissing_nil : ¬known.FirstMissing earlier record [] error := by
  rintro ⟨before, field, after, name, split, _⟩
  cases before <;> cases split

/-- The first missing type is that of the first field, or the first of the others if that field has
one. -/
theorem firstMissing_cons :
    known.FirstMissing earlier record (field :: fields) error ↔
      (∃ name, field.type = .named name ∧ ¬known.Provides earlier name ∧
        error = ⟨record, field.name, name⟩) ∨
      (∀ name, field.type = .named name → known.Provides earlier name) ∧
        known.FirstMissing earlier record fields error := by
  constructor
  · rintro ⟨before, bad, after, name, split, provided, hbad⟩
    cases before with
    | nil =>
        cases split
        exact .inl ⟨name, hbad⟩
    | cons first before =>
        cases split
        obtain ⟨hfirst, provided⟩ := providesAll_cons.mp provided
        exact .inr ⟨hfirst, before, bad, after, name, rfl, provided, hbad⟩
  · rintro (⟨name, hbad⟩ | ⟨hfirst, before, bad, after, name, rfl, provided, hbad⟩)
    · exact ⟨[], field, fields, name, rfl, providesAll_nil, hbad⟩
    · exact ⟨field :: before, bad, after, name, rfl, providesAll_cons.mpr ⟨hfirst, provided⟩, hbad⟩

end KnownTypes

namespace Field

open Fallible

variable {known : KnownTypes} {set : TypeSet} {types : List ResolvedType} {record : String}

theorem resolve_eq_ok_iff (h : set.Reflects types) {field : Field TypeRef}
    {resolved : Field FieldType} :
    field.resolve known set record = .ok resolved ↔ field.ResolvesTo known types resolved := by
  unfold resolve
  cases htype : field.type.resolve? known set with
  | some type =>
      have means := (TypeRef.resolve?_eq_some_iff h).mp htype
      constructor
      · rintro ⟨⟩
        exact ⟨rfl, rfl, rfl, means⟩
      · rintro ⟨hname, hisArray, hrecipe, hmeans⟩
        have same := (TypeRef.resolve?_eq_some_iff h).mpr hmeans
        rw [htype] at same
        cases same
        cases resolved
        simp_all
  | none =>
      constructor
      · rintro ⟨⟩
      · intro hresolves
        have found := (TypeRef.resolve?_eq_some_iff h).mpr hresolves.type
        rw [htype] at found
        cases found

theorem resolve_eq_error_iff (h : set.Reflects types) {field : Field TypeRef}
    {error : UnresolvedReference} :
    field.resolve known set record = .error error ↔
      ∃ name, field.type = .named name ∧
        ¬known.Provides (types.map ResolvedType.name) name ∧
        error = ⟨record, field.name, name⟩ := by
  unfold resolve
  cases htype : field.type.resolve? known set with
  | some type =>
      constructor
      · rintro ⟨⟩
      · rintro ⟨name, hfield, missing, _⟩
        have absent := (TypeRef.resolve?_eq_none_iff h).mpr ⟨name, hfield, missing⟩
        rw [htype] at absent
        cases absent
  | none =>
      obtain ⟨name, hfield, missing⟩ := (TypeRef.resolve?_eq_none_iff h).mp htype
      rw [hfield]
      constructor
      · rintro ⟨⟩
        exact ⟨name, rfl, missing, rfl⟩
      · rintro ⟨other, same, _, rfl⟩
        cases same
        rfl

/-- A field resolves exactly when its element type is provided. -/
theorem exists_resolve_ok_iff (record : String) (h : set.Reflects types) {field : Field TypeRef} :
    (∃ resolved, field.resolve known set record = .ok resolved) ↔
      ∀ name, field.type = .named name →
        known.Provides (types.map ResolvedType.name) name := by
  constructor
  · rintro ⟨resolved, hok⟩ name hname
    by_contra missing
    have failed : field.resolve known set record = .error ⟨record, field.name, name⟩ :=
      (resolve_eq_error_iff h).mpr ⟨name, hname, missing, rfl⟩
    rw [hok] at failed
    cases failed
  · intro provides
    cases hresolve : field.resolve known set record with
    | ok resolved => exact ⟨resolved, rfl⟩
    | error error =>
        obtain ⟨name, hname, missing, _⟩ := (resolve_eq_error_iff h).mp hresolve
        exact absurd (provides name hname) missing

theorem resolveAll_eq_ok_iff (h : set.Reflects types) {fields : List (Field TypeRef)}
    {resolved : List (Field FieldType)} :
    resolveAll known set record fields = .ok resolved ↔
      List.Forall₂ (ResolvesTo known types) fields resolved := by
  induction fields generalizing resolved with
  | nil =>
      rw [List.forall₂_nil_left_iff]
      constructor
      · rintro ⟨⟩
        rfl
      · rintro rfl
        rfl
  | cons field rest ih =>
      unfold resolveAll
      simp only [bind_eq_ok_iff, resolve_eq_ok_iff h, ih, List.forall₂_cons_left_iff]
      constructor
      · rintro ⟨first, hfirst, others, hothers, ⟨⟩⟩
        exact ⟨first, others, hfirst, hothers, rfl⟩
      · rintro ⟨first, others, hfirst, hothers, rfl⟩
        exact ⟨first, hfirst, others, hothers, rfl⟩

theorem resolveAll_eq_error_iff (h : set.Reflects types) {fields : List (Field TypeRef)}
    {error : UnresolvedReference} :
    resolveAll known set record fields = .error error ↔
      known.FirstMissing (types.map ResolvedType.name) record fields error := by
  induction fields with
  | nil =>
      constructor
      · rintro ⟨⟩
      · intro missing
        exact absurd missing KnownTypes.not_firstMissing_nil
  | cons field rest ih =>
      unfold resolveAll
      rw [bind_eq_error_iff, KnownTypes.firstMissing_cons, resolve_eq_error_iff h,
        ← exists_resolve_ok_iff record h, ← ih]
      apply or_congr_right
      constructor
      · rintro ⟨resolved, hresolved, failed⟩
        rcases bind_eq_error_iff.mp failed with failed | ⟨_, _, ⟨⟩⟩
        exact ⟨⟨resolved, hresolved⟩, failed⟩
      · rintro ⟨⟨resolved, hresolved⟩, failed⟩
        exact ⟨resolved, hresolved, bind_eq_error_iff.mpr (.inl failed)⟩

theorem exists_resolveAll_ok_iff (h : set.Reflects types) {fields : List (Field TypeRef)} :
    (∃ resolved, resolveAll known set record fields = .ok resolved) ↔
      known.ProvidesAll (types.map ResolvedType.name) fields := by
  induction fields with
  | nil => exact ⟨fun _ => KnownTypes.providesAll_nil, fun _ => ⟨[], rfl⟩⟩
  | cons field rest ih =>
      unfold resolveAll
      rw [KnownTypes.providesAll_cons, ← exists_resolve_ok_iff record h, ← ih]
      simp only [bind_eq_ok_iff]
      constructor
      · rintro ⟨_, first, hfirst, others, hothers, _⟩
        exact ⟨⟨first, hfirst⟩, others, hothers⟩
      · rintro ⟨⟨first, hfirst⟩, others, hothers⟩
        exact ⟨first :: others, first, hfirst, others, hothers, rfl⟩

end Field

end TypeDictionary
