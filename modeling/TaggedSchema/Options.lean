import TaggedSchema.Yaml
import TaggedSchema.Text.Quoted

/-!
# Options of compilation

How a schema is compiled and how its validator reports: four fields with defaults, read from
variables, from a YAML or JSON text, or from a JSON value, and set one by one afterwards.
-/

namespace TaggedSchema

/-- The options. -/
structure Options where
  /-- Refuse keywords that nothing checks, instead of ignoring them. -/
  strictKeywords : Bool
  /-- Stop after the first error. -/
  failFast : Bool
  /-- Honour `discriminator`. When off, it is an annotation and every branch of `oneOf` is tried. -/
  discriminator : Bool
  /-- The greatest number of nested evaluations at one place of the instance. -/
  maxDepth : Nat
deriving DecidableEq

/-- Why options are refused. -/
inductive OptionsError where
  | invalidValue (name value : String)
  | unreadable
deriving DecidableEq

/-- What is said about it. -/
def OptionsError.message : OptionsError → String
  | invalidValue name value => "invalid value for " ++ name ++ ": " ++ Text.quote value
  | unreadable => "invalid compile options"

namespace Options

/-- The options of a caller who asks for nothing. -/
def default : Options := ⟨false, false, true, 256⟩

/-- The least number that a depth cannot have. -/
def depthBound : Nat := 2 ^ 64

/-! ## 1. Variables -/

/-- The value of a flag: one of four words for each answer, in any case, blanks at the ends
    ignored. -/
def flag? (value : String) : Option Bool :=
  let word := String.ofList ((Text.trim value.toList).map Char.toLower)
  if ["1", "true", "yes", "on"].contains word then some true
  else if ["0", "false", "no", "off"].contains word then some false
  else none

/-- A natural number of 64 bits in decimal digits, after a plus sign or none. -/
def natural? (text : List Char) : Option Nat :=
  let digits := match text with
    | '+' :: rest => rest
    | s => s
  if digits.isEmpty || !digits.all Char.isDigit then none
  else
    let n := digits.foldl (fun n c => 10 * n + (c.toNat - '0'.toNat)) 0
    if n < depthBound then some n else none

/-- The value of a variable, or the default where it is not set. -/
def setting {α : Type} (lookup : String → Option String) (name : String) (read : String → Option α)
    (otherwise : α) : Except OptionsError α :=
  match lookup name with
  | none => .ok otherwise
  | some value =>
    match read value with
    | some a => .ok a
    | none => .error (.invalidValue name value)

/-- The depth a variable spells; zero is none. -/
def depth? (value : String) : Option Nat :=
  (natural? (Text.trim value.toList)).filter (0 < ·)

/-- The options of a source of variables. -/
def ofVariables (lookup : String → Option String) : Except OptionsError Options := do
  let maxDepth ← setting lookup "DISCRIM_MAX_DEPTH" depth? default.maxDepth
  let strictKeywords ← setting lookup "DISCRIM_STRICT_KEYWORDS" flag? default.strictKeywords
  let failFast ← setting lookup "DISCRIM_FAIL_FAST" flag? default.failFast
  let discriminator ← setting lookup "DISCRIM_DISCRIMINATOR" flag? default.discriminator
  return { strictKeywords, failFast, discriminator, maxDepth }

/-! ## 2. Values -/

/-- A field, or the default where it is missing. -/
def field {α β : Type} (value : Option α) (read : α → Option β) (otherwise : β) :
    Except OptionsError β :=
  match value with
  | none => .ok otherwise
  | some v =>
    match read v with
    | some b => .ok b
    | none => .error .unreadable

/-- A depth as a JSON value: a natural number in integer representation. -/
def jsonDepth? (value : Json) : Option Nat := value.number?.bind Number.unsigned?

/-- The options of a JSON value: an object by names, other members ignored, or an array of the
    first fields in their order. -/
def ofJson : Json → Except OptionsError Options
  | .object members => do
    let strictKeywords ← field (members.lookup "strictKeywords") Json.bool? default.strictKeywords
    let failFast ← field (members.lookup "failFast") Json.bool? default.failFast
    let discriminator ← field (members.lookup "discriminator") Json.bool? default.discriminator
    let maxDepth ← field (members.lookup "maxDepth") jsonDepth? default.maxDepth
    return { strictKeywords, failFast, discriminator, maxDepth }
  | .array items => do
    if 4 < items.length then .error .unreadable
    let strictKeywords ← field items[0]? Json.bool? default.strictKeywords
    let failFast ← field items[1]? Json.bool? default.failFast
    let discriminator ← field items[2]? Json.bool? default.discriminator
    let maxDepth ← field items[3]? jsonDepth? default.maxDepth
    return { strictKeywords, failFast, discriminator, maxDepth }
  | _ => .error .unreadable

/-- The value of a field among the entries of a record; a field that is given twice is refused. -/
def entryField {α β : Type} (entries : List (String × α)) (name : String) (read : α → Option β)
    (otherwise : β) : Except OptionsError β :=
  match entries.filter (·.1 == name) with
  | [] => .ok otherwise
  | [(_, value)] => field (some value) read otherwise
  | _ => .error .unreadable

/-- The options of a YAML text: the fields of the record it spells, other entries ignored. -/
def read [Yaml.Library] (text : String) : Except OptionsError Options :=
  match Yaml.Library.entries? text with
  | none => .error .unreadable
  | some entries => do
    let strictKeywords ←
      entryField entries "strictKeywords" Yaml.Library.flag? default.strictKeywords
    let failFast ← entryField entries "failFast" Yaml.Library.flag? default.failFast
    let discriminator ←
      entryField entries "discriminator" Yaml.Library.flag? default.discriminator
    let maxDepth ← entryField entries "maxDepth" Yaml.Library.natural? default.maxDepth
    return { strictKeywords, failFast, discriminator, maxDepth }

/-! ## 3. Fields -/

/-- The options with another greatest depth, which is at least one. -/
def withMaxDepth (o : Options) (depth : Nat) : Options := { o with maxDepth := max depth 1 }

/-- The options as a JSON value. -/
def toJson (o : Options) : Json :=
  .ofMembers [("strictKeywords", .bool o.strictKeywords), ("failFast", .bool o.failFast),
    ("discriminator", .bool o.discriminator), ("maxDepth", .number (.ofNat o.maxDepth))]

end Options

end TaggedSchema
