import TypeDictionary.Settings.Basic
import TypeDictionary.Text.File
import TypeDictionary.Yaml.Reference
import TypeDictionary.Yaml.Render

/-!
# Settings documents

Settings are written as a mapping with one key for each of them. A key that is left out leaves its
setting as it is in the standard settings, and a document without content leaves all of them.
-/

namespace TypeDictionary

open Yaml (Node)

namespace Settings

/-- The key of the node that the dictionaries hang below. -/
def rootKey : String := "dictionary_root"

/-- The key of the dictionaries that are left out. -/
def skippedKey : String := "skip_dictionaries"

/-- The key of whether overwrites are told of. -/
def overwritesKey : String := "log_overwrites"

/-- The settings that a document's root holds. -/
def ofNode? (root : Node) : Option Settings := do
  match ← root.fields? [rootKey, skippedKey, overwritesKey] with
  | [root, skipped, overwrites] =>
    return {
      dictionaryRoot := ← root.elim (some standard.dictionaryRoot) fun node =>
        node.text?.map NodeId.mk
      skipped := ← skipped.elim (some standard.skipped) fun node => do
        (← node.items?).mapM Node.text?
      logsOverwrites := ← overwrites.elim (some standard.logsOverwrites) Node.bool? }
  | _ => none

def toNode (settings : Settings) : Node :=
  .mapping [
    (.ofString rootKey, .ofString settings.dictionaryRoot.text),
    (.ofString skippedKey, .sequence (settings.skipped.map .ofString)),
    (.ofString overwritesKey, .ofBool settings.logsOverwrites)]

/-- The settings that a text holds. -/
def ofText? (text : String) : Option Settings := Node.ofText? text >>= ofNode?

def render (settings : Settings) : String := settings.toNode.render

end Settings

/-- Why a file or a text holds no settings. -/
inductive SettingsError
  | unreadable (error : Text.FileError)
  | malformed
deriving DecidableEq, Repr

def SettingsError.message : SettingsError → String
  | unreadable error => "failed to read config file: " ++ error.message
  | malformed => "invalid config"

namespace Settings

def ofText (text : String) : Except SettingsError Settings :=
  match ofText? text with
  | some settings => .ok settings
  | none => .error .malformed

def ofFile (file : Text.File) : Except SettingsError Settings := do
  ofText (String.ofList (← file.text.mapError .unreadable))

end Settings

end TypeDictionary
