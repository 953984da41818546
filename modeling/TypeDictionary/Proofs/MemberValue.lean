import Mathlib.Algebra.Group.Int.Defs
import TypeDictionary.Proofs.Enumeration

/-!
# Values of members

The value of a member is a numeral between blank characters whose number is one of 64 bits.
`Build.DenotesValue` says so of a text without reading it: `Text.Trims` tells what is left of a text
without the blank characters at its ends, and `Text.Numeral.Denotes` is the grammar. Digits are
unbounded there, so a number that does not fit is refused for what it is, and is never cut down to
one that does.

A value element is judged where it stands. `Build.Place` is such a place in a tree, and
`Model.build_at_place` says what becomes of the tree there.
-/

namespace TypeDictionary

namespace Text

variable {text core : List Char}

/-- Whether a text is another one between blank characters, which itself neither begins nor ends
with one. -/
structure Trims (text core : List Char) : Prop where
  between : ∃ lead trail, text = lead ++ (core ++ trail) ∧ (∀ c ∈ lead, isBlank c = true) ∧
    ∀ c ∈ trail, isBlank c = true
  first : ∀ c ∈ core.head?, isBlank c = false
  last : ∀ c ∈ core.getLast?, isBlank c = false

theorem trims_trim (text : List Char) : Trims text (trim text) := by
  let trail := ((text.dropWhile isBlank).reverse.takeWhile isBlank).reverse
  have split : trim text ++ trail = text.dropWhile isBlank := by
    rw [trim, ← List.reverse_append, List.takeWhile_append_dropWhile, List.reverse_reverse]
  refine ⟨⟨text.takeWhile isBlank, trail, ?_, ?_, ?_⟩, ?_, ?_⟩
  · rw [split, List.takeWhile_append_dropWhile]
  · intro c hc
    exact List.mem_takeWhile_imp hc
  · intro c hc
    exact List.mem_takeWhile_imp (List.mem_reverse.mp hc)
  · intro c hc
    have head : c ∈ (text.dropWhile isBlank).head? := by
      rw [← split, List.head?_append, Option.mem_def.mp hc]
      rfl
    exact Lists.of_mem_head?_dropWhile head
  · intro c hc
    rw [trim, List.getLast?_reverse] at hc
    exact Lists.of_mem_head?_dropWhile hc

theorem Trims.trim_eq (h : Trims text core) : trim text = core := by
  obtain ⟨⟨lead, trail, rfl, leading, trailing⟩, first, last⟩ := h
  rw [trim, List.dropWhile_append_of_pos leading]
  cases core with
  | nil =>
      -- Nothing but blank characters.
      rw [List.nil_append, List.dropWhile_eq_nil_iff.mpr trailing]
      rfl
  | cons c core =>
      have begins : ∀ d ∈ (c :: core ++ trail).head?, isBlank d = false := by
        rintro _ ⟨⟩
        exact first c rfl
      have ends : ∀ d ∈ (c :: core).reverse.head?, isBlank d = false := by
        rw [List.head?_reverse]
        exact last
      rw [Lists.dropWhile_of_head begins, List.reverse_append,
        List.dropWhile_append_of_pos (by simpa using trailing), Lists.dropWhile_of_head ends,
        List.reverse_reverse]

theorem trim_eq_iff : trim text = core ↔ Trims text core := by
  constructor
  · rintro rfl
    exact trims_trim text
  · exact Trims.trim_eq

end Text

namespace Build

open Fallible
open Markup (Element)

variable {owner raw text : String} {item element : Element} {before rest : List Element}
  {start earlier : List Member} {member : Member} {n : Int}

/-- Whether a text denotes an integer as the value of a member: without the blank characters at its
ends it is a numeral of the integer, which 64 bits can hold. -/
structure DenotesValue (text : String) (n : Int) : Prop where
  numeral : ∃ core, Text.Trims text.toList core ∧ Text.Numeral.Denotes core n
  lower : -2 ^ 63 ≤ n
  upper : n ≤ 2 ^ 63 - 1

theorem memberValue_eq_some_iff_denotesValue {word : Int64} :
    memberValue text = some word ↔ DenotesValue text word.toInt := by
  rw [memberValue_eq_some_iff]
  constructor
  · intro denotes
    exact ⟨⟨_, Text.trim_eq_iff.mp rfl, denotes⟩, word.le_toInt, Int.le_sub_one_of_lt word.toInt_lt⟩
  · rintro ⟨⟨core, trims, denotes⟩, _, _⟩
    rwa [Text.trim_eq_iff.mpr trims]

theorem DenotesValue.exists_word (h : DenotesValue text n) :
    ∃ word, memberValue text = some word ∧ word.toInt = n := by
  have fits : (Int64.ofInt n).toInt = n :=
    Int64.toInt_ofInt_of_le h.lower (Int.lt_of_le_sub_one h.upper)
  refine ⟨Int64.ofInt n, memberValue_eq_some_iff_denotesValue.mpr ?_, fits⟩
  rwa [fits]

theorem DenotesValue.unique {m : Int} (h : DenotesValue text n) (h' : DenotesValue text m) :
    n = m := by
  obtain ⟨word, read, rfl⟩ := h.exists_word
  obtain ⟨word', read', rfl⟩ := h'.exists_word
  rw [Option.some.inj (read.symm.trans read')]

theorem memberValue_eq_none_iff : memberValue text = none ↔ ∀ n, ¬DenotesValue text n := by
  rw [Option.eq_none_iff_forall_ne_some]
  constructor
  · intro unread n denotes
    obtain ⟨word, read, _⟩ := denotes.exists_word
    exact unread word read
  · intro clear word read
    exact clear _ (memberValue_eq_some_iff_denotesValue.mp read)

theorem accepts_iff : Rule.enumeration.Accepts text ↔ ∃ n, DenotesValue text n := by
  constructor
  · rintro ⟨word, denotes⟩
    exact ⟨_, memberValue_eq_some_iff_denotesValue.mp (memberValue_eq_some_iff.mpr denotes)⟩
  · rintro ⟨n, denotes⟩
    obtain ⟨word, read, _⟩ := denotes.exists_word
    exact ⟨word, memberValue_eq_some_iff.mp read⟩

/-- Whether the loop over value elements takes one in behind some members: it goes on with one more
member, whatever follows. -/
def Takes (owner : String) (earlier : List Member) (item : Element) (member : Member) : Prop :=
  ∀ rest, Build.members owner earlier (item :: rest) =
    Build.members owner (earlier ++ [member]) rest

/-- A value element with a new name is taken in exactly with a value that its text denotes. -/
theorem takes_iff (counts : Rule.enumeration.Counts item raw)
    (given : item.attribute? Property.value.attributeName = some text)
    (fresh : Identifier.clean raw ∉ earlier.map Member.name) :
    Takes owner earlier item member ↔
      member.name = Identifier.clean raw ∧ DenotesValue text member.value.toInt := by
  rw [← memberValue_eq_some_iff_denotesValue]
  constructor
  · intro takes
    have ended := takes []
    rw [members_cons_of_counts counts given] at ended
    cases read : memberValue text with
    | none =>
        rw [read] at ended
        cases ended
    | some word =>
        simp only [read, if_neg fresh] at ended
        have same := List.append_cancel_left (Except.ok.inj ended)
        cases List.singleton_inj.mp same
        exact ⟨rfl, rfl⟩
  · rintro ⟨named, read⟩ rest
    rw [members_cons_of_counts counts given, read, ← named]
    exact if_neg (named ▸ fresh)

/-- Value elements that are read are taken in one after the other, and what is read of them has
their names. -/
theorem members_append (h : Build.members owner start before = .ok earlier) :
    (∀ rest, Build.members owner start (before ++ rest) = Build.members owner earlier rest) ∧
      earlier.map Member.name = start.map Member.name ++ Rule.enumeration.names before := by
  induction before generalizing start with
  | nil =>
      cases h
      exact ⟨fun _ => rfl, (List.append_nil _).symm⟩
  | cons element before ih =>
      obtain ⟨name, raw, value, hname, hraw, hvalue, fresh, h⟩ := members_cons_ok h
      obtain ⟨others, names⟩ := ih h
      obtain ⟨rawName, named, rfl, nonempty⟩ := identifier_eq_ok_iff.mp hname
      have counts : Rule.enumeration.Counts element rawName :=
        ⟨named, fun empty => nonempty (Identifier.clean_eq_empty_iff.mpr empty), rfl⟩
      have takes : Takes owner start element ⟨Identifier.clean rawName, value⟩ := by
        refine (takes_iff counts (required_eq_ok_iff.mp hraw) (by simpa using fresh)).mpr ⟨rfl, ?_⟩
        exact memberValue_eq_some_iff_denotesValue.mp hvalue
      have grown : Rule.enumeration.names (element :: before) =
          Identifier.clean rawName :: Rule.enumeration.names before :=
        List.filterMap_cons_some counts.name?_eq
      refine ⟨fun rest => (takes (before ++ rest)).trans (others rest), ?_⟩
      rw [names, grown, List.map_append, List.append_assoc]
      rfl

/-- Sound value elements with different names are read. -/
theorem exists_members (owner : String)
    (sound : ∀ element ∈ before, Rule.enumeration.ItemSound element)
    (distinct : (Rule.enumeration.names before).Nodup) :
    ∃ earlier, Build.members owner [] before = .ok earlier := by
  rw [exists_ok_iff]
  intro error failed
  have first := ((governs_members owner).eq_error_iff []).mp failed
  have faultless : Faultless
      (fun before => Rule.enumeration.ItemFault owner (Rule.enumeration.names before)) before :=
    Rule.faultless_items_iff.mpr ⟨sound, distinct⟩
  exact faultless_iff.mp faultless error first

/-- A place of a value element in a tree: the element of its enumeration with its raw name, and what
stands before and behind in the two lists that are gone through. -/
structure Place where
  front : List Element
  element : Element
  back : List Element
  owner : String
  before : List Element
  item : Element
  after : List Element

namespace Place

/-- Whether building a tree comes to a place, because nothing in front of it is at fault. -/
structure Reached (place : Place) (root : Element) : Prop where
  records : ∀ record ∈ Rule.record.elements root, Rule.record.Sound record
  enumerations : Rule.enumeration.elements root = place.front ++ place.element :: place.back
  front : ∀ other ∈ place.front, Rule.enumeration.Sound other
  named : rawName? place.element = some place.owner
  nonempty : place.owner ≠ ""
  items : Rule.enumeration.items place.element = place.before ++ place.item :: place.after
  before : ∀ other ∈ place.before, Rule.enumeration.ItemSound other
  distinct : (Rule.enumeration.names place.before).Nodup

/-- Whether nothing behind a place is at fault. -/
structure ClearBehind (place : Place) : Prop where
  after : ∀ other ∈ place.after, Rule.enumeration.ItemSound other
  distinct : (Rule.enumeration.names (place.before ++ place.item :: place.after)).Nodup
  back : ∀ other ∈ place.back, Rule.enumeration.Sound other

/-- Whether a member is made of the value element of a place: those before it have been read, and
those behind it are read with one more member. -/
def Makes (place : Place) (member : Member) : Prop :=
  ∃ earlier, Build.members (Identifier.clean place.owner) [] place.before = .ok earlier ∧
    ∀ rest, Build.members (Identifier.clean place.owner) [] (place.before ++ place.item :: rest) =
      Build.members (Identifier.clean place.owner) (earlier ++ [member]) rest

variable {place : Place} {root : Element}

theorem makes_iff (reached : place.Reached root)
    (counts : Rule.enumeration.Counts place.item raw)
    (fresh : Identifier.clean raw ∉ Rule.enumeration.names place.before)
    (given : place.item.attribute? Property.value.attributeName = some text) :
    place.Makes member ↔
      member.name = Identifier.clean raw ∧ DenotesValue text member.value.toInt := by
  obtain ⟨earlier, read⟩ :=
    exists_members (Identifier.clean place.owner) reached.before reached.distinct
  obtain ⟨goesOn, names⟩ := members_append read
  have fresh : Identifier.clean raw ∉ earlier.map Member.name := by rwa [names]
  rw [← takes_iff counts given fresh]
  constructor
  · rintro ⟨other, hother, makes⟩
    cases read.symm.trans hother
    exact fun rest => (goesOn _).symm.trans (makes rest)
  · intro takes
    exact ⟨earlier, read, fun rest => (goesOn _).trans (takes rest)⟩

/-- The value element of a place is the first fault of the tree if its text denotes nothing. -/
theorem firstFault (reached : place.Reached root)
    (counts : Rule.enumeration.Counts place.item raw)
    (given : place.item.attribute? Property.value.attributeName = some text)
    (clear : ∀ n, ¬DenotesValue text n) :
    FirstFault (fun _ definition => definition.1.Fault definition.2) (defining root)
      (.invalidEnumValue (Identifier.clean place.owner) (Identifier.clean raw) text) := by
  have wrong : ¬Rule.enumeration.Accepts text := by
    rw [accepts_iff]
    exact fun ⟨n, denotes⟩ => clear n denotes
  have fault : Rule.enumeration.Fault place.element
      (.invalidEnumValue (Identifier.clean place.owner) (Identifier.clean raw) text) := by
    refine .item reached.named reached.nonempty ⟨_, _, _, reached.items, ?_, ?_⟩
    · exact Rule.faultless_items_iff.mpr ⟨reached.before, reached.distinct⟩
    · exact .invalid counts given wrong
  have records : Faultless (fun _ definition => definition.1.Fault definition.2)
      ((Rule.record.elements root).map (Prod.mk Rule.record)) := by
    rw [faultless_map, faultless_iff_forall]
    exact fun record member => Rule.not_fault_iff.mpr (reached.records record member)
  have front : Faultless (fun _ definition => Rule.enumeration.Fault definition) place.front := by
    rw [faultless_iff_forall]
    exact fun other member => Rule.not_fault_iff.mpr (reached.front other member)
  rw [defining, firstFault_append]
  refine .inr ⟨records, ?_⟩
  rw [firstFault_map, reached.enumerations]
  exact ⟨_, _, _, rfl, front, fault⟩

/-- Apart from the value itself everything is sound, so the tree is if the value denotes
something. -/
theorem sound (reached : place.Reached root) (behind : place.ClearBehind)
    (counts : Rule.enumeration.Counts place.item raw)
    (given : place.item.attribute? Property.value.attributeName = some text)
    (denotes : DenotesValue text n) :
    ∀ element ∈ root.preorder,
      (element.name = Construct.structuredType.elementName → Rule.record.Sound element) ∧
      (element.name = Construct.enumeratedType.elementName → Rule.enumeration.Sound element) := by
  have own : Rule.enumeration.ItemSound place.item :=
    ⟨raw, counts.named, fun _ => ⟨counts.nonempty, text, given, accepts_iff.mpr ⟨n, denotes⟩⟩⟩
  have element : Rule.enumeration.Sound place.element := by
    refine ⟨⟨_, reached.named, reached.nonempty⟩, ?_, ?_⟩
    · rw [reached.items, List.forall_mem_append, List.forall_mem_cons]
      exact ⟨reached.before, own, behind.after⟩
    · rw [reached.items]
      exact behind.distinct
  have enumerations : ∀ other ∈ Rule.enumeration.elements root, Rule.enumeration.Sound other := by
    rw [reached.enumerations, List.forall_mem_append, List.forall_mem_cons]
    exact ⟨reached.front, element, behind.back⟩
  intro other member
  refine ⟨fun isRecord => reached.records other ?_, fun isEnumeration => enumerations other ?_⟩
  · exact List.mem_filter.mpr ⟨member, decide_eq_true isRecord⟩
  · exact List.mem_filter.mpr ⟨member, decide_eq_true isEnumeration⟩

end Place

end Build

namespace Model

open Build
open Markup (Element)

variable {root : Element} {place : Place} {raw text : String}

/-- What stands in a model in the place of a value element has the value that the element's text
denotes. -/
theorem exists_member_of_build (reached : place.Reached root)
    (counts : Rule.enumeration.Counts place.item raw)
    (given : place.item.attribute? Property.value.attributeName = some text) {model : Model}
    (built : Model.build root = .ok model) :
    ∃ enumeration word,
      model.definitions[(Rule.record.elements root).length + place.front.length]? =
        some (.enumeration enumeration) ∧
      enumeration.members[place.before.length]? = some ⟨Identifier.clean raw, word⟩ ∧
      DenotesValue text word.toInt := by
  obtain ⟨records, enumerations, definitions, described, describedEnumerations⟩ :=
    exists_of_build built
  rw [reached.enumerations] at describedEnumerations
  obtain ⟨enumeration, found, describes⟩ := Lists.exists_getElem?_of_forall₂ describedEnumerations
  have members := describes.members
  rw [reached.items] at members
  obtain ⟨⟨name, word⟩, stored, ⟨named, other, hother, denotes⟩⟩ :=
    Lists.exists_getElem?_of_forall₂ members
  obtain rfl : other = text := Option.some.inj (hother.symm.trans given)
  have named : Identifier.clean raw = name := by
    rw [counts.named] at named
    exact Option.some.inj named
  subst named
  refine ⟨enumeration, word, ?_, stored, ?_⟩
  · have behind : (records.map Definition.record).length ≤ records.length + place.front.length := by
      rw [List.length_map]
      exact Nat.le_add_right _ _
    rw [definitions, described.length_eq, List.getElem?_append_right behind, List.length_map,
      Nat.add_sub_cancel_left, List.getElem?_map, found]
    rfl
  · exact memberValue_eq_some_iff_denotesValue.mp (memberValue_eq_some_iff.mpr denotes)

/-- A value element with a name that is new is made a member exactly if its text denotes a 64-bit
integer, and the member has this value, also in the model of the tree. If the text denotes none, the
tree has no model and the error shows the text as it is written. If nothing behind the element is at
fault, the tree has a model exactly if the text denotes an integer. -/
theorem build_at_place (reached : place.Reached root)
    (counts : Rule.enumeration.Counts place.item raw)
    (fresh : Identifier.clean raw ∉ Rule.enumeration.names place.before)
    (given : place.item.attribute? Property.value.attributeName = some text) :
    (∀ n, (∃ word : Int64, place.Makes ⟨Identifier.clean raw, word⟩ ∧ word.toInt = n) ↔
      DenotesValue text n) ∧
    (∀ n model, DenotesValue text n → Model.build root = .ok model →
      ∃ enumeration word,
        model.definitions[(Rule.record.elements root).length + place.front.length]? =
          some (.enumeration enumeration) ∧
        enumeration.members[place.before.length]? = some ⟨Identifier.clean raw, word⟩ ∧
        word.toInt = n) ∧
    ((∀ n, ¬DenotesValue text n) →
      Model.build root = .error
        (.invalidEnumValue (Identifier.clean place.owner) (Identifier.clean raw) text)) ∧
    (place.ClearBehind →
      ((∃ model, Model.build root = .ok model) ↔ ∃ n, DenotesValue text n)) := by
  have makes {member : Member} : place.Makes member ↔
      member.name = Identifier.clean raw ∧ DenotesValue text member.value.toInt :=
    Place.makes_iff reached counts fresh given
  obtain ⟨succeeds, fails⟩ := build_characterization root
  refine ⟨?_, ?_, ?_, ?_⟩
  · intro n
    constructor
    · rintro ⟨word, made, rfl⟩
      exact (makes.mp made).2
    · intro denotes
      obtain ⟨word, _, rfl⟩ := denotes.exists_word
      exact ⟨word, makes.mpr ⟨rfl, denotes⟩, rfl⟩
  · intro n model denotes built
    obtain ⟨enumeration, word, found, stored, own⟩ :=
      exists_member_of_build reached counts given built
    exact ⟨enumeration, word, found, stored, own.unique denotes⟩
  · intro clear
    exact (fails _).mpr (Place.firstFault reached counts given clear)
  · intro behind
    constructor
    · rintro ⟨model, built⟩
      obtain ⟨_, word, _, _, own⟩ := exists_member_of_build reached counts given built
      exact ⟨_, own⟩
    · rintro ⟨n, denotes⟩
      exact succeeds.mpr (Place.sound reached behind counts given denotes)

/-- A place between two other value elements, with the given text. -/
def samplePlace (text : String) : Place where
  front := []
  element := ⟨"EnumeratedType", [("Name", "E")],
    [sampleMember "A" "1", sampleMember "B" text, sampleMember "C" "1"]⟩
  back := []
  owner := "E"
  before := [sampleMember "A" "1"]
  item := sampleMember "B" text
  after := [sampleMember "C" "1"]

/-- A tree with nothing but the enumeration of the place. -/
def sampleTree (text : String) : Element := ⟨"d", [], [(samplePlace text).element]⟩

theorem itemSound_sampleMember {name value : String} (nonempty : name ≠ "")
    (read : (memberValue value).isSome = true) :
    Rule.enumeration.ItemSound (sampleMember name value) := by
  obtain ⟨word, read⟩ := Option.isSome_iff_exists.mp read
  exact ⟨name, rfl, fun _ => ⟨nonempty, value, rfl, word, memberValue_eq_some_iff.mp read⟩⟩

theorem reached_samplePlace (text : String) : (samplePlace text).Reached (sampleTree text) where
  records := by
    intro record member
    cases member
  enumerations := rfl
  front := by simp [samplePlace]
  named := rfl
  nonempty := by simp [samplePlace]
  items := rfl
  before := by
    simp only [samplePlace, List.forall_mem_singleton]
    exact itemSound_sampleMember (by decide) (by decide +kernel)
  distinct := by
    change (Rule.enumeration.names [sampleMember "A" "1"]).Nodup
    decide +kernel

theorem clearBehind_samplePlace (text : String) : (samplePlace text).ClearBehind where
  after := by
    simp only [samplePlace, List.forall_mem_singleton]
    exact itemSound_sampleMember (by decide) (by decide +kernel)
  distinct := by
    have names : Rule.enumeration.names
        ((samplePlace text).before ++ (samplePlace text).item :: (samplePlace text).after) =
        ["A", "B", "C"] := by
      simp only [samplePlace]
      rfl
    rw [names]
    decide
  back := by simp [samplePlace]

/-- The least 64-bit integer is taken, with blank characters around it and zeros in front; the one
behind the greatest is refused. -/
theorem build_at_place_sample :
    let least := "\u2003-0009223372036854775808\n"
    (∃ word : Int64, (samplePlace least).Makes ⟨"B", word⟩ ∧ word.toInt = -9223372036854775808) ∧
      (∃ model, Model.build (sampleTree least) = .ok model) ∧
      Model.build (sampleTree " 9223372036854775808") =
        .error (.invalidEnumValue "E" "B" " 9223372036854775808") := by
  intro least
  have counts (text : String) : Rule.enumeration.Counts (samplePlace text).item "B" :=
    ⟨rfl, by decide, rfl⟩
  have fresh : Identifier.clean "B" ∉ Rule.enumeration.names [sampleMember "A" "1"] := by
    decide +kernel
  have read : memberValue least = some (-9223372036854775808) := by decide +kernel
  have denotes := memberValue_eq_some_iff_denotesValue.mp read
  have clear : ∀ n, ¬DenotesValue " 9223372036854775808" n :=
    memberValue_eq_none_iff.mp (by decide +kernel)
  obtain ⟨made, _, _, built⟩ := build_at_place (reached_samplePlace least) (counts _) fresh rfl
  obtain ⟨_, _, refused, _⟩ := build_at_place (reached_samplePlace _) (counts _) fresh rfl
  exact ⟨(made _).mpr denotes, (built (clearBehind_samplePlace _)).mpr ⟨_, denotes⟩, refused clear⟩

end Model

end TypeDictionary
