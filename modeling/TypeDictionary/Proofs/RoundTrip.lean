import TypeDictionary.Proofs.Compose
import TypeDictionary.Proofs.Manifest
import TypeDictionary.Proofs.Printable

/-!
# Manifests and their texts

A document of values that reading brings back is read as what was written, and a manifest is such a
document: its keys are words, every text is in a style that brings it back, and every list holds
mappings. So the text that is written for a manifest is read as that manifest.
-/

namespace TypeDictionary

namespace Yaml

open Cell (locateFrom)
open Text (Reader)

namespace Node

variable {pairs : List (Node × Node)}

/-- The tokens of a written document are found in its text. -/
theorem tokens_ofText?_render (table : Keyed Writable pairs) :
    Token.ofText? (renderAt 0 (.mapping pairs)) = some (Node.tokens (.mapping pairs)) := by
  have printable : Printable (renderAt 0 (.mapping pairs)) :=
    Keyed.printable ⟨table.nonempty, table.keys, fun pair member =>
      (table.values pair member).printable⟩ 0
  have readable : (renderAt 0 (.mapping pairs)).all isReadable = true :=
    List.all_eq_true.mpr fun c member => isReadable_of_isPrintable (printable c member)
  obtain ⟨nonempty, keys, values⟩ := table
  obtain ⟨pair, others, rfl⟩ := List.exists_cons_of_ne_nil nonempty
  have found := @lexes_pairs [] [] 0 [] [] _ [] pair others keys
    (fun each member => (values each member).lexed) (by decide)
    (Lexer.openMapping_of_lt (by decide)) (by simp) (Nat.le_refl 0)
    ⟨by decide, by decide, by decide⟩
  obtain ⟨line', offset', continues⟩ := found 0 0
  rw [List.append_nil, List.append_nil] at continues
  -- the lexer starts where the root begins, and what is left at the end is the end of the root
  obtain ⟨waiting, before, pends, same⟩ := continues ⟨rfl, Nat.le_refl _⟩
  obtain ⟨last, read, tokens⟩ := Lexer.tokensFrom_end pends
  have run : (Scan.iterate Lexer.step Lexer.start).run (locateFrom 0 0 0
      (renderAt 0 (.mapping (pair :: others)))) = .ok last := by
    rw [Reader.run_eq]
    exact congrArg (Except.map Prod.fst) (same.trans read)
  simp [Token.ofText?, Cell.ofText?, readable, run, tokens, Node.tokens]

/-- A document of values that reading brings back is read as its root. -/
theorem ofText?_render (table : Keyed Writable pairs) :
    ofText? (render (.mapping pairs)) = some (.mapping pairs) := by
  have found := tokens_ofText?_render table
  have composed : Keyed (fun value => Writable value ∧ Composed value) pairs :=
    ⟨table.nonempty, table.keys, fun pair member =>
      ⟨table.values pair member, (table.values pair member).composed⟩⟩
  have read := result_document composed (Nat.le_succ _)
  have run : (Compose.document ((Node.tokens (.mapping pairs)).length + 1)).run
      (Node.tokens (.mapping pairs)) = .ok (.mapping pairs) := by
    rw [Reader.run_eq, read]
    rfl
  simp [ofText?, render, found, run]

theorem writable_ofString (text : String) : Writable (ofString text) :=
  .scalar (Restorable.styleOf text)

theorem writable_ofInt (n : Int) : Writable (ofInt n) := .scalar (Restorable.ofInt n)

theorem writable_sequence {α : Type} {items : List α} {pairsOf : α → List (Node × Node)}
    (h : ∀ item ∈ items, Keyed Writable (pairsOf item)) :
    Writable (.sequence (items.map fun item => .mapping (pairsOf item))) := by
  have written := @Writable.sequence (items.map pairsOf)
    (List.forall_mem_map.mpr fun item member => (h item member).nonempty)
    (List.forall_mem_map.mpr fun item member => (h item member).keys)
    (List.forall_mem_map.mpr fun item member => (h item member).values)
  rw [List.map_map] at written
  exact written

/-- The keys of manifests. -/
theorem isKey_ofString {word : String} (h : word ∈ ["types", "kind", "name", "type_id", "fields",
    "wire_tag", "value", "values"]) : IsKey (ofString word) := by
  have known : Written.styleOf word = .plain ∧ word.toList ≠ [] ∧ byteLength word.toList ≤ 1024 ∧
      word.toList.all Lexer.isLetter = true := by
    revert word
    decide +kernel
  obtain ⟨plain, nonempty, short, letters⟩ := known
  exact ⟨word, ⟨nonempty, List.all_eq_true.mp letters, short⟩, by rw [ofString, plain]⟩

end Node

end Yaml

open Yaml (Node)
open Yaml.Node (Keyed Writable isKey_ofString writable_ofString writable_ofInt writable_sequence)

theorem FieldSummary.keyed (field : FieldSummary) : Keyed Writable [
    (.ofString "name", .ofString field.name), (.ofString "wire_tag", .ofString field.tag)] where
  nonempty := by simp
  keys := by simp [isKey_ofString]
  values := by simp [writable_ofString]

theorem Member.keyed (member : Member) : Keyed Writable [
    (.ofString "name", .ofString member.name),
    (.ofString "value", .ofInt member.value.toInt)] where
  nonempty := by simp
  keys := by simp [isKey_ofString]
  values := by simp [writable_ofString, writable_ofInt]

/-- The pairs that are written for a type. -/
def Summary.pairs : Summary → List (Node × Node)
  | record summary =>
    (.ofString "kind", .ofString recordWord) :: (.ofString "name", .ofString summary.name) ::
      wireIdPairs summary.wireId ++
      [(.ofString "fields", .sequence (summary.fields.map FieldSummary.toNode))]
  | enumeration definition =>
    [(.ofString "kind", .ofString enumerationWord), (.ofString "name", .ofString definition.name),
      (.ofString "values", .sequence (definition.members.map Member.toNode))]

theorem Summary.toNode_eq (summary : Summary) : summary.toNode = .mapping summary.pairs := by
  cases summary <;> rfl

theorem Summary.keyed (summary : Summary) : Keyed Writable summary.pairs := by
  cases summary with
  | record summary =>
      obtain ⟨name, wireId, fields⟩ := summary
      have list : Writable (.sequence (fields.map FieldSummary.toNode)) :=
        writable_sequence fun field _ => field.keyed
      cases wireId <;> constructor <;>
        simp [pairs, wireIdPairs, isKey_ofString, writable_ofString, list]
  | enumeration definition =>
      have list : Writable (.sequence (definition.members.map Member.toNode)) :=
        writable_sequence fun member _ => member.keyed
      constructor <;> simp [pairs, isKey_ofString, writable_ofString, list]

namespace Manifest

/-- The text of a manifest is read as the node that was written. -/
theorem nodeOfText?_render (manifest : Manifest) :
    Node.ofText? manifest.render = some manifest.toNode := by
  have types : Writable (.sequence (manifest.types.map Summary.toNode)) := by
    have written := writable_sequence fun summary (_ : summary ∈ manifest.types) => summary.keyed
    simpa only [← Summary.toNode_eq] using written
  exact Node.ofText?_render ⟨by simp, by simp [typesKey, isKey_ofString], by simp [types]⟩

/-- The text of a manifest is read as that manifest. -/
theorem ofText?_render (manifest : Manifest) : ofText? manifest.render = some manifest := by
  rw [ofText?, nodeOfText?_render]
  exact ofNode?_toNode manifest

/-- The manifest of a model is archived without loss: what is read from its text is the manifest
itself, with the kinds, names, tags, values and identifiers in the order of the model. -/
theorem ofText?_render_ofModel (model : Model) :
    ofText? (ofModel model).render = some (ofModel model) :=
  ofText?_render (ofModel model)

end Manifest

end TypeDictionary
