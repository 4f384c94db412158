import TaggedSchema.Yaml
import TaggedSchema.Yaml.Token

/-!
# A library of YAML

A YAML document is read as a tree of scalars, sequences and mappings (`Yaml.read`) and then as a
JSON value (`Yaml.toJson`) or as a record (`Yaml.recordEntries?`). A plain scalar means `null`, a boolean
or a number where the core schema says so, and a string otherwise; a quoted scalar is always a
string. A key is the text of its scalar, and of two entries of one key the later counts in a JSON
value. Anchors, aliases, tags, directives and block scalars are refused (`Yaml.reader`).
-/

namespace TaggedSchema

/-- A YAML node. `nothing` is the document of a text without content. -/
inductive Yaml where
  | nothing
  | plain (text : String)
  | quoted (text : String)
  | sequence (items : List Yaml)
  | mapping (entries : List (Yaml × Yaml))

namespace Yaml

/-! ## 1. Trees of tokens -/

/-- The node of a missing value. -/
def missing : Yaml := .plain ""

mutual

/-- The node in front. A sequence under a key may begin at the column of the key, without a mark of
    its own (`indentless`). -/
def node (block indentless : Bool) : Nat → List Token → Except YamlError (Yaml × List Token)
  | 0, _ => .error .unreadable
  | fuel + 1, ts =>
    match ts with
    | .plain text :: rest => .ok (.plain text, rest)
    | .quoted text :: rest => .ok (.quoted text, rest)
    | .flowSequenceStart :: rest => do
      let (items, rest) ← flowItems true fuel rest
      return (.sequence items, rest)
    | .flowMappingStart :: rest => do
      let (entries, rest) ← flowEntries true fuel rest
      return (.mapping entries, rest)
    | .blockEntry :: _ =>
      if indentless then do
        let (items, rest) ← indentlessItems fuel ts
        return (.sequence items, rest)
      else .error .unexpectedToken
    | .blockSequenceStart :: rest =>
      if block then do
        let (items, rest) ← blockItems fuel rest
        return (.sequence items, rest)
      else .error .unexpectedToken
    | .blockMappingStart :: rest =>
      if block then do
        let (entries, rest) ← blockEntries fuel rest
        return (.mapping entries, rest)
      else .error .unexpectedToken
    | _ => .error .unexpectedToken
termination_by structural fuel => fuel

/-- The items of a block sequence, up to and with its end. -/
def blockItems : Nat → List Token → Except YamlError (List Yaml × List Token)
  | 0, _ => .error .unreadable
  | fuel + 1, ts =>
    match ts with
    | .blockEntry :: rest => do
      let (item, rest) ← match rest with
        | .blockEntry :: _ => .ok (missing, rest)
        | .blockEnd :: _ => .ok (missing, rest)
        | _ => node true false fuel rest
      let (items, rest) ← blockItems fuel rest
      return (item :: items, rest)
    | .blockEnd :: rest => .ok ([], rest)
    | _ => .error .unexpectedToken
termination_by structural fuel => fuel

/-- The items of a sequence without marks of its own, as long as entries follow. -/
def indentlessItems : Nat → List Token → Except YamlError (List Yaml × List Token)
  | 0, _ => .error .unreadable
  | fuel + 1, ts =>
    match ts with
    | .blockEntry :: rest => do
      let (item, rest) ← match rest with
        | .blockEntry :: _ => .ok (missing, rest)
        | .key :: _ => .ok (missing, rest)
        | .value :: _ => .ok (missing, rest)
        | .blockEnd :: _ => .ok (missing, rest)
        | _ => node true false fuel rest
      let (items, rest) ← indentlessItems fuel rest
      return (item :: items, rest)
    | _ => .ok ([], ts)
termination_by structural fuel => fuel

/-- A key or value of a block mapping, which may be missing. -/
def blockPart : Nat → List Token → Except YamlError (Yaml × List Token)
  | 0, _ => .error .unreadable
  | fuel + 1, ts =>
    match ts with
    | .key :: _ => .ok (missing, ts)
    | .value :: _ => .ok (missing, ts)
    | .blockEnd :: _ => .ok (missing, ts)
    | _ => node true true fuel ts
termination_by structural fuel => fuel

/-- The entries of a block mapping, up to and with its end. -/
def blockEntries : Nat → List Token → Except YamlError (List (Yaml × Yaml) × List Token)
  | 0, _ => .error .unreadable
  | fuel + 1, ts =>
    match ts with
    | .key :: rest => do
      let (key, rest) ← blockPart fuel rest
      let (value, rest) ← match rest with
        | .value :: rest => blockPart fuel rest
        | _ => .ok (missing, rest)
      let (entries, rest) ← blockEntries fuel rest
      return ((key, value) :: entries, rest)
    | .blockEnd :: rest => .ok ([], rest)
    | _ => .error .unexpectedToken
termination_by structural fuel => fuel

/-- A key or value of a flow mapping, which may be missing. -/
def flowPart : Nat → List Token → Except YamlError (Yaml × List Token)
  | 0, _ => .error .unreadable
  | fuel + 1, ts =>
    match ts with
    | .value :: _ => .ok (missing, ts)
    | .flowEntry :: _ => .ok (missing, ts)
    | .flowMappingEnd :: _ => .ok (missing, ts)
    | .flowSequenceEnd :: _ => .ok (missing, ts)
    | _ => node false false fuel ts
termination_by structural fuel => fuel

/-- The value after a key in a flow collection, which may be missing. -/
def flowValue : Nat → List Token → Except YamlError (Yaml × List Token)
  | 0, _ => .error .unreadable
  | fuel + 1, ts =>
    match ts with
    | .value :: rest => flowPart fuel rest
    | _ => .ok (missing, ts)
termination_by structural fuel => fuel

/-- A key in a flow sequence. The mark that stands in place of a missing one is lost with it. -/
def flowKey : Nat → List Token → Except YamlError (Yaml × List Token)
  | 0, _ => .error .unreadable
  | fuel + 1, ts =>
    match ts with
    | .value :: rest => .ok (missing, rest)
    | .flowEntry :: rest => .ok (missing, rest)
    | .flowSequenceEnd :: rest => .ok (missing, rest)
    | _ => node false false fuel ts
termination_by structural fuel => fuel

/-- The items of a flow sequence, up to and with its end; the first stands without a comma. A key
    makes an item of one entry. -/
def flowItems (first : Bool) : Nat → List Token → Except YamlError (List Yaml × List Token)
  | 0, _ => .error .unreadable
  | fuel + 1, ts =>
    match ts with
    | .flowSequenceEnd :: rest => .ok ([], rest)
    | _ => do
      let ts ← match first, ts with
        | true, ts => .ok ts
        | false, .flowEntry :: rest => .ok rest
        | false, _ => .error YamlError.unexpectedToken
      match ts with
      | .flowSequenceEnd :: rest => return ([], rest)
      | .key :: rest =>
        let (key, rest) ← flowKey fuel rest
        let (value, rest) ← flowValue fuel rest
        let (items, rest) ← flowItems false fuel rest
        return (.mapping [(key, value)] :: items, rest)
      | _ =>
        let (item, rest) ← node false false fuel ts
        let (items, rest) ← flowItems false fuel rest
        return (item :: items, rest)
termination_by structural fuel => fuel

/-- The entries of a flow mapping, up to and with its end; the first stands without a comma. -/
def flowEntries (first : Bool) :
    Nat → List Token → Except YamlError (List (Yaml × Yaml) × List Token)
  | 0, _ => .error .unreadable
  | fuel + 1, ts =>
    match ts with
    | .flowMappingEnd :: rest => .ok ([], rest)
    | _ => do
      let ts ← match first, ts with
        | true, ts => .ok ts
        | false, .flowEntry :: rest => .ok rest
        | false, _ => .error YamlError.unexpectedToken
      match ts with
      | .flowMappingEnd :: rest => return ([], rest)
      | .key :: rest =>
        let (key, rest) ← flowPart fuel rest
        let (value, rest) ← flowValue fuel rest
        let (entries, rest) ← flowEntries false fuel rest
        return ((key, value) :: entries, rest)
      | _ =>
        let (key, rest) ← node false false fuel ts
        let (entries, rest) ← flowEntries false fuel rest
        return ((key, missing) :: entries, rest)
termination_by structural fuel => fuel

end

/-- The one document of a list of tokens. Marks of its end may follow, but not go before. -/
def document (ts : List Token) : Except YamlError Yaml := do
  let fuel := 4 * ts.length + 4
  let (root, rest) ← match ts with
    | [] => .ok (.nothing, [])
    | .documentStart :: rest =>
      match rest with
      | [] => .ok (missing, rest)
      | .documentStart :: _ => .ok (missing, rest)
      | .documentEnd :: _ => .ok (missing, rest)
      | _ => node true false fuel rest
    | _ => node true false fuel ts
  if (rest.dropWhile (· = .documentEnd)).isEmpty then return root
  else .error .severalDocuments

/-- The document a text spells. -/
def read (text : String) : Except YamlError Yaml := do document (← tokens text)

/-! ## 2. Plain scalars -/

/-- Whether the text spells `null`. -/
def isNull (text : String) : Bool := ["", "~", "null", "Null", "NULL"].contains text

/-- The boolean a text spells. -/
def bool? (text : String) : Option Bool :=
  if ["true", "True", "TRUE"].contains text then some true
  else if ["false", "False", "FALSE"].contains text then some false
  else none

/-- The number that digits of a base spell; at least one is needed. -/
def natOfBase? (base : Nat) (digits : List Char) : Option Nat :=
  if digits.isEmpty then none
  else do
    let values ← digits.mapM hexValue?
    if values.all (· < base) then return values.foldl (fun n d => base * n + d) 0 else none

/-- Digits after a sign that a number does not have: more than one, the first a zero. -/
def isZeroPadded (text : List Char) : Bool :=
  let digits := match text with
    | '-' :: rest => rest
    | '+' :: rest => rest
    | s => s
  1 < digits.length && digits.head? = some '0' && digits.all Char.isDigit

/-- The base of digits after `0x`, `0o` or `0b`, and ten for all others. -/
def splitBase : List Char → Nat × List Char
  | '0' :: 'x' :: rest => (16, rest)
  | '0' :: 'o' :: rest => (8, rest)
  | '0' :: 'b' :: rest => (2, rest)
  | s => (10, s)

/-- The integer a text spells. -/
def int? (text : List Char) : Option Int :=
  if isZeroPadded text then none
  else
    let (negative, digits) := match text with
      | '-' :: rest => (true, rest)
      | '+' :: rest => (false, rest)
      | s => (false, s)
    let (base, digits) := splitBase digits
    (natOfBase? base digits).map fun n => if negative then -(n : Int) else n

/-- A plain number that is no integer: a finite one, or one that JSON cannot hold. -/
inductive Real where
  | finite (value : Binary64)
  | other

/-- The exponent of a decimal, with its mark in front; none is zero. -/
def exponent? : List Char → Option Int
  | [] => some 0
  | c :: rest =>
    if c = 'e' ∨ c = 'E' then
      let (negative, digits) := match rest with
        | '-' :: r => (true, r)
        | '+' :: r => (false, r)
        | r => (false, r)
      if digits.all Char.isDigit then
        (natOfBase? 10 digits).map fun n => if negative then -(n : Int) else n
      else none
    else none

/-- The real number a text spells. A decimal may lack the digits before or after its point. -/
def real? (text : List Char) : Option Real :=
  let (negative, s) := match text with
    | '-' :: rest => (true, rest)
    | '+' :: rest => (false, rest)
    | s => (false, s)
  if [".inf", ".Inf", ".INF"].contains (String.ofList s) then some .other
  else if [".nan", ".NaN", ".NAN"].contains (String.ofList text) then some .other
  else if isZeroPadded text then none
  else
    let whole := s.takeWhile Char.isDigit
    let rest := s.dropWhile Char.isDigit
    let (fraction, rest) := match rest with
      | '.' :: r => (r.takeWhile Char.isDigit, r.dropWhile Char.isDigit)
      | r => ([], r)
    if whole.isEmpty && fraction.isEmpty then none
    else do
      let exponent ← exponent? rest
      let significand := (whole ++ fraction).foldl (fun n c => 10 * n + (c.toNat - '0'.toNat)) 0
      let exponent := exponent - fraction.length
      -- beyond these bounds every significand of the text vanishes or overflows
      let bound : Int := 400 + (whole ++ fraction).length
      if significand = 0 ∨ exponent < -bound then
        return .finite (if negative then Binary64.zero.neg else .zero)
      else if bound < exponent then none
      else return .finite (← Binary64.nearestDecimal? negative significand exponent)

/-- The value of a plain scalar. -/
def plainValue (text : String) : Except YamlError Json :=
  if isNull text then .ok .null
  else
    match bool? text, int? text.toList, real? text.toList with
    | some b, _, _ => .ok (.bool b)
    | none, some n, _ =>
      match Number.ofInt? n with
      | some number => .ok (.number number)
      | none =>
        if -2 ^ 127 ≤ n ∧ n < 2 ^ 128 then .error .numberOutOfRange
        else
          match real? text.toList with
          | some (.finite x) => .ok (.number (.float x))
          | _ => .ok (.string text)
    | none, none, some (.finite x) => .ok (.number (.float x))
    | none, none, some .other => .ok .null
    | none, none, none => .ok (.string text)

/-! ## 3. JSON values -/

/-- The text of a key. -/
def keyText : Yaml → Except YamlError String
  | .plain text => .ok text
  | .quoted text => .ok text
  | _ => .error .keyIsCollection

/-- How many collections may lie inside one another. -/
def depthBound : Nat := 128

mutual

/-- The JSON value of a node, in which so many collections may lie inside one another. -/
def toJson : Nat → Yaml → Except YamlError Json
  | _, .nothing => .ok .null
  | _, .plain text => plainValue text
  | _, .quoted text => .ok (.string text)
  | 0, .sequence _ => .error .nestedTooDeep
  | 0, .mapping _ => .error .nestedTooDeep
  | depth + 1, .sequence items => do return .array (← itemsToJson depth items)
  | depth + 1, .mapping entries => do return .ofMembers (← entriesToJson depth entries)
termination_by structural _ node => node

/-- The JSON values of items. -/
def itemsToJson (depth : Nat) : List Yaml → Except YamlError (List Json)
  | [] => .ok []
  | item :: rest => do
    let value ← toJson depth item
    return value :: (← itemsToJson depth rest)
termination_by structural items => items

/-- The members that entries are. -/
def entriesToJson (depth : Nat) : List (Yaml × Yaml) → Except YamlError (List (String × Json))
  | [] => .ok []
  | (key, value) :: rest => do
    let key ← key.keyText
    let value ← toJson depth value
    return (key, value) :: (← entriesToJson depth rest)
termination_by structural entries => entries

end

/-- The JSON value that a YAML text spells. -/
def readJson (text : String) : Except YamlError Json := do
  toJson depthBound (← read text)

/-! ## 4. Records -/

/-- The entries of a mapping whose keys are scalars. A text without content has none. -/
def recordEntries? : Yaml → Option (List (String × Yaml))
  | .mapping pairs =>
    ((pairs.mapM fun pair => keyText pair.1).toOption).map fun keys =>
      keys.zip (pairs.map (·.2))
  | .nothing => some []
  | .plain text => if text = "" then some [] else none
  | _ => none

/-- A flag: a plain scalar. -/
def flag? : Yaml → Option Bool
  | .plain text => bool? text
  | _ => none

/-- A natural number of 64 bits: a plain scalar that spells one, without a minus sign. -/
def natural? : Yaml → Option Nat
  | .plain text =>
    if text.toList.head? = some '-' then none
    else ((int? text.toList).map Int.toNat).filter (· < 2 ^ 64)
  | _ => none

/-- This library of YAML. -/
instance reader : Library where
  json text := (readJson text).mapError YamlError.message
  Node := Yaml
  entries? text := ((read text).toOption).bind recordEntries?
  flag? := flag?
  natural? := natural?

end Yaml

end TaggedSchema
