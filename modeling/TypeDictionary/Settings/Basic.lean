import TypeDictionary.NodeId

/-!
# Settings

What a loader is told: which node the dictionaries hang below, which of them it leaves out, and
whether the registry tells of overwrites.
-/

namespace TypeDictionary

/-- The settings of a loader and its registry. -/
structure Settings where
  dictionaryRoot : NodeId
  skipped : List String
  logsOverwrites : Bool
deriving DecidableEq, Repr

namespace Settings

/-- The settings that hold where nothing else is said: the standard folder of binary dictionaries,
without the dictionary of the native types. -/
def standard : Settings := ⟨⟨"i=93"⟩, ["Opc.Ua"], true⟩

def skips (settings : Settings) (browseName : String) : Bool := settings.skipped.contains browseName

end Settings

end TypeDictionary
