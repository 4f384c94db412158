import TaggedSchema.Json

/-!
# YAML texts

Schema documents and options may be written in YAML. How a text is read is the matter of a library
of YAML; what is asked of it are the operations of `Yaml.Library`. `Yaml.Reader` has a library of
this kind.
-/

namespace TaggedSchema.Yaml

/-- A library of YAML. -/
class Library where
  /-- The JSON value a text spells, or what is wrong with the text. -/
  json : String → Except String Json
  /-- Nodes of a document. -/
  Node : Type
  /-- The entries of the record a text spells, by the texts of their keys. A text without content
      is a record without entries. -/
  entries? : String → Option (List (String × Node))
  /-- The flag a node spells. -/
  flag? : Node → Option Bool
  /-- The natural number of 64 bits a node spells. -/
  natural? : Node → Option Nat

end TaggedSchema.Yaml
