import TypeDictionary.Manifest.Document
import TypeDictionary.Proofs.Datum
import TypeDictionary.Proofs.Lists

/-!
# Manifests and their nodes

The node that is written for a manifest is read as that manifest. A reader of documents looks for
the list of types with references followed, of which there are none, and to a depth that the list
does not reach. Each type says its kind in a word, and what it holds is found by name in what the
rest of its node says.
-/

namespace TypeDictionary

open Yaml (Node Datum)

namespace Yaml

theorem Visit.ofOption_some {α : Type} (value : α) :
    Visit.ofOption (some value) = pure value := rfl

namespace Node

@[simp] theorem text?_ofString (text : String) : (ofString text).text? = some text := rfl

/-- A node without tags, anchors and references, in which collections nest to a depth at most. -/
inductive Direct : Nat → Node → Prop
  | scalar {depth : Nat} (text : String) (style : Style) : Direct depth (.scalar text style)
  | sequence {depth : Nat} {nodes : List Node} (items : ∀ node ∈ nodes, Direct depth node) :
      Direct (depth + 1) (.sequence nodes)
  | mapping {depth : Nat} {pairs : List (Node × Node)}
      (keys : ∀ pair ∈ pairs, Direct depth pair.1) (values : ∀ pair ∈ pairs, Direct depth pair.2) :
      Direct (depth + 1) (.mapping pairs)

/-- Without references in it a node stands for itself. -/
theorem Direct.resolve {depth : Nat} {node : Node} (h : Direct depth node)
    (anchors : List (Nat × Node)) : Visit.resolve anchors depth node = pure node := by
  induction h with
  | @scalar depth => cases depth <;> rfl
  | @sequence depth nodes _ ih =>
      have step : nodes.mapM (Visit.resolve anchors depth) = pure nodes := by
        rw [Lists.mapM_eq_pure ih, List.map_id']
      simp only [Visit.resolve, Visit.target, pure_bind, Visit.mapChildren, step, map_pure]
  | @mapping depth pairs _ _ keys values =>
      simp only [Visit.resolve, Visit.target, pure_bind, Visit.mapChildren]
      rw [@Lists.mapM_eq_pure _ _ Visit _ _ _ id pairs, List.map_id, map_pure]
      intro pair hpair
      simp only [keys pair hpair, values pair hpair, pure_bind, id]

/-- The only field of a root is found by its name. -/
theorem fields?_singleton {name : String} {style : Style} {value : Node}
    (h : Direct (depthLimit - 1) value) :
    fields? [name] (.mapping [(.scalar name style, value)]) = some [some value] := by
  simp only [fields?, pairs?, bare, Visit.ofOption_some, text?, Visit.target, h.resolve,
    List.mapM_cons, List.mapM_nil, pure_bind, List.filter_cons, decide_true, if_true,
    List.filter_nil, List.map_cons, List.map_nil, atMostOne?_singleton, map_pure]
  rfl

end Node

namespace Datum

theorem ofItems?_eq (items : List Node) : ofItems? items = items.mapM ofNode? := by
  induction items with
  | nil => rfl
  | cons item rest ih => rw [ofItems?, ih, List.mapM_cons]

/-- What a sequence says whose items have been written one by one. -/
theorem ofNode?_sequence_map {α : Type} {write : α → Node} {datum : α → Datum}
    (h : ∀ item, ofNode? (write item) = some (datum item)) (items : List α) :
    ofNode? (.sequence (items.map write)) = some (.list (items.map datum)) := by
  have read : items.mapM (ofNode? ∘ write) = some (items.map datum) :=
    Lists.mapM_eq_pure fun item _ => h item
  rw [ofNode?, ofItems?_eq, List.mapM_map, read, Option.map_some]

end Datum

end Yaml

namespace FieldSummary

def datum (field : FieldSummary) : Datum :=
  .table [(.text "name", .text field.name), (.text "wire_tag", .text field.tag)]

theorem ofNode?_toNode (field : FieldSummary) :
    Datum.ofNode? field.toNode = some field.datum := by
  simp [toNode, datum, Datum.ofNode?, Datum.ofPairs?]

theorem ofDatum?_datum (field : FieldSummary) : ofDatum? field.datum = some field := by
  simp [ofDatum?, datum, Datum.slots?, Datum.isSlot, Datum.standsFor, Datum.text?]

theorem direct_toNode (field : FieldSummary) (depth : Nat) : field.toNode.Direct (depth + 1) := by
  refine .mapping ?_ ?_ <;> simp [Node.ofString, Node.Direct.scalar]

end FieldSummary

namespace Member

def datum (member : Member) : Datum :=
  .table [(.text "name", .text member.name), (.text "value", .integer member.value.toInt)]

theorem ofNode?_toNode (member : Member) : Datum.ofNode? member.toNode = some member.datum := by
  simp [toNode, datum, Datum.ofNode?, Datum.ofPairs?]

theorem ofDatum?_datum (member : Member) : ofDatum? member.datum = some member := by
  have value : Text.Numeral.toInt64? member.value.toInt = some member.value :=
    Text.Numeral.toInt64?_eq_some_iff.mpr rfl
  simp [ofDatum?, datum, Datum.slots?, Datum.isSlot, Datum.standsFor, Datum.text?,
    Datum.integer?, value]

theorem direct_toNode (member : Member) (depth : Nat) : member.toNode.Direct (depth + 1) := by
  refine .mapping ?_ ?_ <;> simp [Node.ofString, Node.ofInt, Node.Direct.scalar]

end Member

namespace Summary

theorem listOf?_map {α : Type} {ofDatum? : Datum → Option α} {datum : α → Datum}
    (h : ∀ item, ofDatum? (datum item) = some item) (items : List α) :
    listOf? ofDatum? (some (.list (items.map datum))) = some items := by
  have read : items.mapM (ofDatum? ∘ datum) = some (items.map id) :=
    Lists.mapM_eq_pure fun item _ => h item
  rw [List.map_id, ← List.mapM_map] at read
  exact read

/-- The node of a type is read as that type. -/
theorem ofNode?_toNode (summary : Summary) : ofNode? summary.toNode = some summary := by
  cases summary with
  | record summary =>
      obtain ⟨name, wireId, fields⟩ := summary
      have said := Datum.ofNode?_sequence_map FieldSummary.ofNode?_toNode fields
      have read := listOf?_map FieldSummary.ofDatum?_datum fields
      cases wireId <;>
        simp [toNode, wireIdPairs, ofNode?, Datum.isText, said, ofKind?, Datum.slots?,
          Datum.isSlot, Datum.standsFor, Datum.text?, wireIdOf?, read]
  | enumeration definition =>
      obtain ⟨name, members⟩ := definition
      have said := Datum.ofNode?_sequence_map Member.ofNode?_toNode members
      have read := listOf?_map Member.ofDatum?_datum members
      have otherKind : enumerationWord ≠ recordWord := by decide
      simp [toNode, ofNode?, Datum.isText, said, ofKind?, otherKind, Datum.slots?,
        Datum.isSlot, Datum.standsFor, Datum.text?, read]

theorem direct_toNode (summary : Summary) (depth : Nat) : summary.toNode.Direct (depth + 3) := by
  cases summary with
  | record summary =>
      obtain ⟨name, wireId, fields⟩ := summary
      have list : (Node.sequence (fields.map FieldSummary.toNode)).Direct (depth + 2) :=
        .sequence (List.forall_mem_map.mpr fun field _ => field.direct_toNode depth)
      refine .mapping ?_ ?_ <;>
        cases wireId <;> simp [wireIdPairs, Node.ofString, Node.Direct.scalar, list]
  | enumeration definition =>
      obtain ⟨name, members⟩ := definition
      have list : (Node.sequence (members.map Member.toNode)).Direct (depth + 2) :=
        .sequence (List.forall_mem_map.mpr fun member _ => member.direct_toNode depth)
      refine .mapping ?_ ?_ <;> simp [Node.ofString, Node.Direct.scalar, list]

end Summary

/-- The root of a manifest's document is read as that manifest. -/
theorem Manifest.ofNode?_toNode (manifest : Manifest) :
    ofNode? manifest.toNode = some manifest := by
  obtain ⟨types⟩ := manifest
  have direct : (Node.sequence (types.map Summary.toNode)).Direct (Node.depthLimit - 1) :=
    .sequence (List.forall_mem_map.mpr fun summary _ => summary.direct_toNode 123)
  have read : types.mapM (Summary.ofNode? ∘ Summary.toNode) = some (types.map id) :=
    Lists.mapM_eq_pure fun summary _ => summary.ofNode?_toNode
  rw [List.map_id, ← List.mapM_map] at read
  rw [ofNode?, toNode, Node.ofString, Node.fields?_singleton direct]
  simp [Node.items?, Node.bare, read]

end TypeDictionary
