import TaggedSchema.Json

/-!
# Pointers and schema locations

A pointer is a list of segments; its text writes each segment after a slash, with `~0` for a tilde
and `~1` for a slash inside it. `Pointer.parse` reads exactly the texts `Pointer.text` writes, and
`Pointer.resolve` walks a value: a key of an object, or the decimal index of an item without leading
zeros, so no item has two spellings. A location is a pointer into a named document.
-/

namespace TaggedSchema

/-- A place inside a JSON value. -/
structure Pointer where
  segments : List String
deriving DecidableEq

/-- Why a text is no pointer. -/
inductive PointerError where
  | missingLeadingSlash (text : String)
  | invalidEscape (text : String)
deriving DecidableEq

/-- What is said about it. -/
def PointerError.message : PointerError → String
  | .missingLeadingSlash text => "JSON pointer \"" ++ text ++ "\" must start with '/'"
  | .invalidEscape text => "JSON pointer \"" ++ text ++ "\" contains an invalid '~' escape"

namespace Pointer

/-! ## 1. Segments -/

/-- The whole document. -/
def root : Pointer := ⟨[]⟩

/-- One segment further. -/
def join (p : Pointer) (segment : String) : Pointer := ⟨p.segments ++ [segment]⟩

/-- One item further. -/
def joinIndex (p : Pointer) (index : Nat) : Pointer := p.join (Nat.repr index)

/-- The second pointer, taken from where the first one leads. -/
def concat (p q : Pointer) : Pointer := ⟨p.segments ++ q.segments⟩

/-- Whether the pointer is the whole document. -/
def isRoot (p : Pointer) : Bool := p.segments.isEmpty

/-- The last segment. -/
def last? (p : Pointer) : Option String := p.segments.getLast?

/-- One segment less. -/
def parent? (p : Pointer) : Option Pointer :=
  if p.isRoot then none else some ⟨p.segments.dropLast⟩

/-- Whether the first segments of `p` are those of `q`. -/
def startsWith (p q : Pointer) : Bool := q.segments.isPrefixOf p.segments

/-- Order by segments, each compared by its characters. -/
def order (p q : Pointer) : Ordering := List.compareLex compare p.segments q.segments

/-! ## 2. Text -/

/-- A character of a segment, as the text writes it. -/
def escapeChar (c : Char) : List Char :=
  if c = '~' then ['~', '0'] else if c = '/' then ['~', '1'] else [c]

/-- A segment, as the text writes it. -/
def escape (segment : List Char) : List Char := segment.flatMap escapeChar

/-- The segment that a text between slashes stands for. -/
def unescape? : List Char → Option (List Char)
  | [] => some []
  | '~' :: '0' :: rest => (unescape? rest).map ('~' :: ·)
  | '~' :: '1' :: rest => (unescape? rest).map ('/' :: ·)
  | c :: rest => if c = '~' then none else (unescape? rest).map (c :: ·)

/-- The texts between slashes; there is always at least one. -/
def splitSlashes : List Char → List (List Char)
  | [] => [[]]
  | c :: rest =>
    if c = '/' then [] :: splitSlashes rest
    else
      match splitSlashes rest with
      | first :: more => (c :: first) :: more
      | [] => [[c]]

/-- The segments of a text whose leading slash has been read. -/
def segmentsOf? (s : List Char) : Option (List String) :=
  (splitSlashes s).mapM fun raw => (unescape? raw).map String.ofList

/-- The text of a pointer. -/
def text (p : Pointer) : String :=
  String.ofList (p.segments.flatMap fun segment => '/' :: escape segment.toList)

/-- The pointer a text spells. -/
def parse (text : String) : Except PointerError Pointer :=
  match text.toList with
  | [] => .ok root
  | c :: rest =>
    if c = '/' then
      match segmentsOf? rest with
      | some segments => .ok ⟨segments⟩
      | none => .error (.invalidEscape text)
    else .error (.missingLeadingSlash text)

/-- The pointer that a JSON value holds, as its text. -/
def ofJson? : Json → Option Pointer
  | .string text => (parse text).toOption
  | _ => none

/-- A pointer as a JSON value: its text. -/
def toJson (p : Pointer) : Json := .string p.text

/-! ## 3. Walking a value -/

/-- The index a segment spells: decimal digits, no leading zero. -/
def index? (segment : String) : Option Nat :=
  match segment.toList with
  | [] => none
  | ['0'] => some 0
  | digits =>
    if digits.head? ≠ some '0' ∧ digits.all Char.isDigit then
      some (digits.foldl (fun n c => 10 * n + (c.toNat - '0'.toNat)) 0)
    else none

/-- The part of a value that a segment names. -/
def step? (value : Json) (segment : String) : Option Json :=
  match value with
  | .object members => members.lookup segment
  | .array items => (index? segment).bind fun i => items[i]?
  | _ => none

/-- The value at a pointer. -/
def resolve (p : Pointer) (document : Json) : Option Json := p.segments.foldlM step? document

end Pointer

/-! ## 4. Locations -/

/-- A place in a schema document. -/
structure Location where
  document : String
  pointer : Pointer
deriving DecidableEq

namespace Location

/-- The whole of a document. -/
def ofDocument (document : String) : Location := ⟨document, .root⟩

/-- One segment further. -/
def join (l : Location) (segment : String) : Location :=
  { l with pointer := l.pointer.join segment }

/-- The document, a hash, and the text of the pointer. -/
def text (l : Location) : String := l.document ++ "#" ++ l.pointer.text

/-- A location as a JSON value: a record of document and pointer. -/
def toJson (l : Location) : Json :=
  .ofMembers [("document", .string l.document), ("pointer", l.pointer.toJson)]

/-- The location that a JSON value holds. -/
def ofJson? (value : Json) : Option Location :=
  match value.fields? ["document", "pointer"] with
  | some [document, pointer] => do return ⟨← document.string?, ← Pointer.ofJson? pointer⟩
  | _ => none

end Location

end TaggedSchema
