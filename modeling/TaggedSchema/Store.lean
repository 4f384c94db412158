import TaggedSchema.Pointer
import TaggedSchema.Uri
import TaggedSchema.Yaml

/-!
# The store of schema documents

Documents are filed under their normalised base. A document whose `$id` names another identifier is
also found under that one, its alias, unless another document has the alias already; references
inside the document are then resolved against the alias. A document, once filed, is never replaced.
-/

namespace TaggedSchema

/-- Documents by key, keys by alias, and the aliases of keys that have one, each in the order of
    insertion. -/
structure Store where
  documents : List (String × Json)
  aliases : List (String × String)
  ids : List (String × String)

/-- Why a document is not filed. -/
inductive StoreError where
  | duplicateDocument (key : String)
  | invalidYaml (base reason : String)
deriving DecidableEq

/-- What is said about it. -/
def StoreError.message : StoreError → String
  | duplicateDocument key => "document already registered: " ++ key
  | invalidYaml base reason => "invalid YAML for document " ++ base ++ ": " ++ reason

namespace Store

variable [Uri.Library]

/-- The base of a document that is given none. -/
def defaultBase : String := "json-schema:///root.json"

/-- No documents. -/
def empty : Store := ⟨[], [], []⟩

/-! ## 1. References -/

/-- The part of a base up to its last slash. -/
def directory (base : String) : String :=
  String.ofList (base.toList.reverse.dropWhile (· ≠ '/')).reverse

/-- The document a reference names, read against a base. Its fragment plays no part; without a
    document part it is the base itself. Where neither is a URL, the last segment of the base is
    replaced. -/
def resolveUri (base reference : String) : String :=
  let part := Uri.withoutFragment reference
  if part = "" then Uri.normalize base
  else
    match (Uri.Library.parse? base).bind fun u => Uri.Library.join? u part with
    | some joined => Uri.normalize (Uri.Library.text joined)
    | none =>
      match Uri.Library.parse? part with
      | some _ => Uri.normalize part
      | none => directory base ++ part

/-! ## 2. Filing -/

/-- The alias that a document gives itself under a key. -/
def ownAlias? (key : String) (document : Json) : Option String :=
  match (document.get? "$id").bind Json.string? with
  | some id =>
    let name := resolveUri key id
    if name = key then none else some name
  | none => none

/-- Files a document under a key; an alias that is taken stays with its first owner. -/
def register (s : Store) (key : String) (document : Json) : Store :=
  let named :=
    match ownAlias? key document with
    | some name =>
      if (s.aliases.lookup name).isSome then (s.aliases, s.ids)
      else (s.aliases ++ [(name, key)], s.ids ++ [(key, name)])
    | none => (s.aliases, s.ids)
  ⟨s.documents ++ [(key, document)], named.1, named.2⟩

/-- The store of one document, under the default base. -/
def single (document : Json) : Store := empty.register (Uri.normalize defaultBase) document

/-- Files a document under a base. -/
def insert (s : Store) (base : String) (document : Json) : Except StoreError Store :=
  let key := Uri.normalize base
  if (s.documents.lookup key).isSome then .error (.duplicateDocument key)
  else .ok (s.register key document)

/-- Files the document that a YAML text spells. -/
def insertYaml [Yaml.Library] (s : Store) (base text : String) :
    Except StoreError Store :=
  match Yaml.Library.json text with
  | .ok document => s.insert base document
  | .error reason => .error (.invalidYaml base reason)

/-! ## 3. Finding -/

/-- The key under which an identifier is filed, as a base or as an alias. -/
def canonicalBase (s : Store) (uri : String) : Option String :=
  let key := Uri.normalize uri
  if (s.documents.lookup key).isSome then some key else s.aliases.lookup key

/-- The alias of a key. -/
def aliasOf (s : Store) (key : String) : Option String := s.ids.lookup key

/-- The base against which references inside a document are resolved. -/
def baseUri (s : Store) (uri : String) : Option String :=
  (s.canonicalBase uri).map fun key => (s.aliasOf key).getD key

/-- The document an identifier names. -/
def document? (s : Store) (uri : String) : Option Json :=
  (s.canonicalBase uri).bind fun key => s.documents.lookup key

/-- The value at a location. -/
def lookup? (s : Store) (location : Location) : Option Json :=
  (s.document? location.document).bind location.pointer.resolve

/-- The keys of all documents, in order. -/
def bases (s : Store) : List String := (s.documents.map (·.1)).mergeSort fun a b => a ≤ b

/-- The number of documents. -/
def size (s : Store) : Nat := s.documents.length

/-- The number of values in all documents. -/
def valueCount (s : Store) : Nat := Json.sizeOfMembers s.documents

end Store

end TaggedSchema
