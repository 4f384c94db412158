/-!
# Tokens of YAML text

The text of a document is cut into tokens: scalars, the marks of flow collections, and the marks
that indentation implies for block collections. A mapping key is recognised only when its colon is
reached, so a scanner remembers for each flow level where a key could have begun and puts the key
mark there. Anchors, tags, directives and block scalars are not read.
-/

namespace TaggedSchema.Yaml

/-! ## 1. Tokens and faults -/

/-- A piece of YAML text. -/
inductive Token where
  | documentStart
  | documentEnd
  | blockSequenceStart
  | blockMappingStart
  | blockEnd
  | flowSequenceStart
  | flowSequenceEnd
  | flowMappingStart
  | flowMappingEnd
  | blockEntry
  | flowEntry
  | key
  | value
  | plain (text : String)
  | quoted (text : String)
deriving DecidableEq

/-- Why a text is no YAML document that can be read here. -/
inductive YamlError where
  | controlCharacter
  | unexpectedCharacter
  | missingColon
  | misplacedEntry
  | misplacedKey
  | misplacedValue
  | tabInIndentation
  | unclosedQuote
  | invalidEscape
  | unexpectedToken
  | severalDocuments
  | keyIsCollection
  | numberOutOfRange
  | nestedTooDeep
  | unreadable
deriving DecidableEq

/-- What is said about it. -/
def YamlError.message : YamlError → String
  | controlCharacter => "control characters are not allowed"
  | unexpectedCharacter => "found a character that cannot start any token"
  | missingColon => "could not find expected ':'"
  | misplacedEntry => "block sequence entries are not allowed in this context"
  | misplacedKey => "mapping keys are not allowed in this context"
  | misplacedValue => "mapping values are not allowed in this context"
  | tabInIndentation => "found a tab character that violates indentation"
  | unclosedQuote => "found unexpected end of a quoted scalar"
  | invalidEscape => "found unknown escape character"
  | unexpectedToken => "did not find expected node content"
  | severalDocuments => "more than one document"
  | keyIsCollection => "invalid type: expected a string key"
  | numberOutOfRange => "number out of range"
  | nestedTooDeep => "recursion limit exceeded"
  | unreadable => "text is too long to be scanned"

/-! ## 2. Characters -/

/-- A space or a tab. -/
def isSpace (c : Char) : Bool := c = ' ' || c = '\t'

/-- A line end, after `unifyBreaks`: a line feed, or a separator of lines or paragraphs. -/
def isBreak (c : Char) : Bool := c = '\n' || c.toNat = 0x2028 || c.toNat = 0x2029

/-- Whether the text ends here, or goes on with a blank. -/
def blankAhead : List Char → Bool
  | [] => true
  | c :: _ => isSpace c || isBreak c

/-- The marks of flow collections. -/
def isFlowMark (c : Char) : Bool := [',', '[', ']', '\x7b', '\x7d'].contains c

/-- The characters that mark something at the start of a scalar. -/
def isIndicator (c : Char) : Bool :=
  isFlowMark c || ['-', '?', ':', '#', '&', '*', '!', '|', '>', '\'', '"', '%', '@',
    Char.ofNat 0x60].contains c

/-- The characters a YAML text may hold. -/
def isAllowed (c : Char) : Bool :=
  let n := c.toNat
  n = 0x09 || n = 0x0A || n = 0x0D || (0x20 ≤ n && n ≤ 0x7E) || n = 0x85 ||
    (0xA0 ≤ n && n ≤ 0xFFFD) || 0x10000 ≤ n

/-- The text with one line feed for each carriage return, line feed, pair of these, and next-line
    character. The two separators of Unicode stay themselves, for scalars keep them. -/
def unifyBreaks : List Char → List Char
  | '\r' :: '\n' :: rest => '\n' :: unifyBreaks rest
  | '\r' :: rest => '\n' :: unifyBreaks rest
  | c :: rest => (if c.toNat = 0x85 then '\n' else c) :: unifyBreaks rest
  | [] => []

/-! ## 3. The cursor -/

/-- What is left of a text, and where it begins. -/
structure Cursor where
  rest : List Char
  line : Nat
  column : Nat
  offset : Nat

namespace Cursor

/-- One character further. -/
def next (p : Cursor) : Cursor :=
  match p.rest with
  | [] => p
  | c :: rest =>
    if isBreak c then ⟨rest, p.line + 1, 0, p.offset + 1⟩
    else ⟨rest, p.line, p.column + 1, p.offset + 1⟩

/-- `n` characters further. -/
def skip (p : Cursor) : Nat → Cursor
  | 0 => p
  | n + 1 => p.next.skip n

/-- Whether the line begins with these three marks and a blank. -/
def atDocumentMark (p : Cursor) (mark : Char) : Bool :=
  p.column = 0 &&
    match p.rest with
    | a :: b :: c :: rest => a = mark && b = mark && c = mark && blankAhead rest
    | _ => false

/-- Whether a document starts or ends here. -/
def atDocumentBoundary (p : Cursor) : Bool := p.atDocumentMark '-' || p.atDocumentMark '.'

end Cursor

/-! ## 4. Scalars -/

/-- What has been read of a scalar: its characters, last first, and the blanks since then. Blanks
    inside a line are kept. Of the line ends among them the first, a line feed, stands for one space
    if no other follows, and else for nothing; a separator stands for itself, and an escaped line
    end (`first` is `none`) for nothing. Further line ends (`more`, last first) stand for
    themselves. -/
structure Scalar where
  chars : List Char
  blanks : List Char
  broken : Bool
  first : Option Char
  more : List Char

namespace Scalar

/-- Nothing read. -/
def empty : Scalar := ⟨[], [], false, none, []⟩

/-- The blanks, as the text keeps them. -/
def fold (s : Scalar) : Scalar :=
  if s.broken then
    let kept :=
      if s.first = some '\n' then if s.more.isEmpty then [' '] else s.more
      else s.more ++ s.first.toList
    ⟨kept ++ s.chars, [], false, none, []⟩
  else ⟨s.blanks ++ s.chars, [], false, none, []⟩

/-- One more character. -/
def push (s : Scalar) (c : Char) : Scalar := { s.fold with chars := c :: s.fold.chars }

/-- One more blank. -/
def pushBlank (s : Scalar) (c : Char) : Scalar :=
  if isBreak c then
    if s.broken then { s with more := c :: s.more }
    else { s with blanks := [], broken := true, first := some c, more := [] }
  else if s.broken then s
  else { s with blanks := c :: s.blanks }

/-- The text, without blanks at the end. -/
def text (s : Scalar) : String := String.ofList s.chars.reverse

end Scalar

/-- Whether a plain scalar ends before these characters. -/
def endsPlain (flow : Bool) : List Char → Bool
  | [] => true
  | ':' :: rest => blankAhead rest
  | c :: _ => flow && isFlowMark c

/-- A plain scalar: up to a colon with a blank, a comment, a line of less indentation, or a flow
    mark inside a flow collection. Also answers whether a line ended inside or after it. -/
def scanPlain (flow : Bool) (indent : Int) :
    Nat → Cursor → Scalar → Except YamlError (String × Bool × Cursor)
  | 0, _, _ => .error .unreadable
  | fuel + 1, p, s =>
    match p.rest with
    | [] => .ok (s.text, s.broken, p)
    | c :: rest =>
      if isSpace c || isBreak c then
        if s.broken && c = '\t' && (p.column : Int) < indent then .error .tabInIndentation
        else scanPlain flow indent fuel p.next (s.pushBlank c)
      else
        let fresh := s.broken || !s.blanks.isEmpty || s.chars.isEmpty
        if fresh && (p.atDocumentBoundary || c = '#' ||
            (s.broken && !flow && (p.column : Int) < indent)) then .ok (s.text, s.broken, p)
        else if flow && c = ':' && (rest.head?.any fun d => isFlowMark d || d = '?') then
          .error .unexpectedCharacter
        else if endsPlain flow (c :: rest) then .ok (s.text, s.broken, p)
        else scanPlain flow indent fuel p.next (s.push c)

/-- The value of a hexadecimal digit. -/
def hexValue? (c : Char) : Option Nat :=
  if c.isDigit then some (c.toNat - '0'.toNat)
  else if 'a' ≤ c ∧ c ≤ 'f' then some (c.toNat - 'a'.toNat + 10)
  else if 'A' ≤ c ∧ c ≤ 'F' then some (c.toNat - 'A'.toNat + 10)
  else none

/-- The character of an escape with a number of hexadecimal digits. -/
def escapedHex? (digits : List Char) (count : Nat) : Option Char := do
  let values ← (digits.take count).mapM hexValue?
  let code := values.foldl (fun n d => 16 * n + d) 0
  if values.length = count ∧ code.isValidChar then some (Char.ofNat code) else none

/-- The character of an escape and the number of characters after the backslash. -/
def escaped? : List Char → Option (Char × Nat)
  | '0' :: _ => some (Char.ofNat 0, 1)
  | 'a' :: _ => some (Char.ofNat 7, 1)
  | 'b' :: _ => some (Char.ofNat 8, 1)
  | 't' :: _ => some ('\t', 1)
  | '\t' :: _ => some ('\t', 1)
  | 'n' :: _ => some ('\n', 1)
  | 'v' :: _ => some (Char.ofNat 11, 1)
  | 'f' :: _ => some (Char.ofNat 12, 1)
  | 'r' :: _ => some ('\r', 1)
  | 'e' :: _ => some (Char.ofNat 27, 1)
  | ' ' :: _ => some (' ', 1)
  | '"' :: _ => some ('"', 1)
  | '/' :: _ => some ('/', 1)
  | '\\' :: _ => some ('\\', 1)
  | 'N' :: _ => some (Char.ofNat 0x85, 1)
  | '_' :: _ => some (Char.ofNat 0xA0, 1)
  | 'L' :: _ => some (Char.ofNat 0x2028, 1)
  | 'P' :: _ => some (Char.ofNat 0x2029, 1)
  | 'x' :: rest => (escapedHex? rest 2).map (·, 3)
  | 'u' :: rest => (escapedHex? rest 4).map (·, 5)
  | 'U' :: rest => (escapedHex? rest 8).map (·, 9)
  | _ => none

/-- The rest of a quoted scalar, up to and with its closing quote. In double quotes a backslash
    escapes, also a line end; in single quotes a quote is written twice. -/
def scanQuoted (double : Bool) : Nat → Cursor → Scalar → Except YamlError (String × Cursor)
  | 0, _, _ => .error .unreadable
  | fuel + 1, p, s =>
    match p.rest with
    | [] => .error .unclosedQuote
    | c :: rest =>
      if p.atDocumentBoundary then .error .unclosedQuote
      else if isSpace c || isBreak c then scanQuoted double fuel p.next (s.pushBlank c)
      else if double then
        if c = '"' then .ok (s.fold.text, p.next)
        else if c = '\\' then
          if rest.head?.any isBreak then
            scanQuoted double fuel (p.skip 2) { s.fold with broken := true }
          else
            match escaped? rest with
            | some (e, length) => scanQuoted double fuel (p.skip (length + 1)) (s.push e)
            | none => .error .invalidEscape
        else scanQuoted double fuel p.next (s.push c)
      else if c = '\'' then
        match rest with
        | '\'' :: _ => scanQuoted double fuel (p.skip 2) (s.push c)
        | _ => .ok (s.fold.text, p.next)
      else scanQuoted double fuel p.next (s.push c)

/-! ## 5. The scanner -/

/-- A place where a mapping key may have begun. -/
structure KeyPlace where
  index : Nat
  line : Nat
  column : Nat
  offset : Nat
  required : Bool

/-- The state of the scan: the tokens so far, the open block collections by their columns, and for
    each flow level, innermost first, the place where a key may have begun. -/
structure Scanner where
  cursor : Cursor
  tokens : Array Token
  indent : Int
  outerIndents : List Int
  keys : List (Option KeyPlace)
  keyAllowed : Bool

namespace Scanner

/-- Whether a flow collection is open. -/
def inFlow (s : Scanner) : Bool := 1 < s.keys.length

/-- Closes the block collections that a column ends. -/
def unroll (column : Int) : Nat → Scanner → Scanner
  | 0, s => s
  | fuel + 1, s =>
    if !s.inFlow && column < s.indent then
      match s.outerIndents with
      | outer :: more =>
        unroll column fuel { s with
          tokens := s.tokens.push .blockEnd, indent := outer, outerIndents := more }
      | [] => s
    else s

/-- One more token, before token `index`. -/
def insertAt (s : Scanner) (index : Nat) (t : Token) : Scanner :=
  let tokens := s.tokens.toList
  { s with tokens := (tokens.take index ++ t :: tokens.drop index).toArray }

/-- Opens a block collection, if the column is further in; its mark goes before token `index`. -/
def roll (s : Scanner) (column : Nat) (index : Nat) (mark : Token) : Scanner :=
  if !s.inFlow && s.indent < column then
    { s.insertAt index mark with indent := column, outerIndents := s.indent :: s.outerIndents }
  else s

/-- Forgets where a key may have begun; a key that had to be there is missed. -/
def forgetKey (s : Scanner) : Except YamlError Scanner :=
  match s.keys with
  | some place :: more =>
    if place.required then .error .missingColon else .ok { s with keys := none :: more }
  | _ => .ok s

/-- Remembers that a key may begin here. -/
def rememberKey (s : Scanner) : Except YamlError Scanner :=
  if s.keyAllowed then do
    let s ← s.forgetKey
    let p := s.cursor
    let required := !s.inFlow && s.indent = p.column
    let place : KeyPlace := ⟨s.tokens.size, p.line, p.column, p.offset, required⟩
    .ok { s with keys := some place :: s.keys.drop 1 }
  else .ok s

/-- Forgets the places of keys on earlier lines or too far back. -/
def dropStaleKeys (s : Scanner) : Except YamlError Scanner := do
  let keys ← s.keys.mapM fun place =>
    match place with
    | some k =>
      if k.line < s.cursor.line || k.offset + 1024 < s.cursor.offset then
        if k.required then .error YamlError.missingColon else .ok none
      else .ok (some k)
    | none => .ok none
  return { s with keys }

/-- Skips blanks, line ends and comments. A new line in a block collection may begin with a key. -/
def skipBlanks : Nat → Scanner → Scanner
  | 0, s => s
  | fuel + 1, s =>
    match s.cursor.rest with
    | [] => s
    | c :: rest =>
      if c = ' ' || (c = '\t' && (s.inFlow || !s.keyAllowed)) then
        skipBlanks fuel { s with cursor := s.cursor.next }
      else if c = '#' then
        skipBlanks fuel { s with
          cursor := s.cursor.skip (1 + (rest.takeWhile fun d => !isBreak d).length) }
      else if isBreak c then
        skipBlanks fuel { s with cursor := s.cursor.next, keyAllowed := s.keyAllowed || !s.inFlow }
      else s

/-- A mark of some characters, before which a key may not begin any more. -/
def mark (s : Scanner) (t : Token) (length : Nat) (keyAllowed : Bool) : Scanner :=
  { s with tokens := s.tokens.push t, cursor := s.cursor.skip length, keyAllowed }

/-- The mark of a block entry. -/
def blockEntry (s : Scanner) : Except YamlError Scanner :=
  if !s.inFlow && !s.keyAllowed then .error .misplacedEntry
  else do
    let s := s.roll s.cursor.column s.tokens.size .blockSequenceStart
    return (← s.forgetKey).mark .blockEntry 1 true

/-- The mark of an explicit key. -/
def explicitKey (s : Scanner) : Except YamlError Scanner :=
  if !s.inFlow && !s.keyAllowed then .error .misplacedKey
  else do
    let s := s.roll s.cursor.column s.tokens.size .blockMappingStart
    return (← s.forgetKey).mark .key 1 (!s.inFlow)

/-- The mark of a value. If a key may have begun, it did. -/
def valueMark (s : Scanner) : Except YamlError Scanner :=
  match s.keys with
  | some place :: more =>
    let s := { s.insertAt place.index .key with keys := none :: more }
    .ok ((s.roll place.column place.index .blockMappingStart).mark .value 1 false)
  | _ =>
    if !s.inFlow && !s.keyAllowed then .error .misplacedValue
    else .ok ((s.roll s.cursor.column s.tokens.size .blockMappingStart).mark .value 1 (!s.inFlow))

/-- A boundary of documents: three marks. -/
def documentMark (s : Scanner) (t : Token) : Except YamlError Scanner := do
  let s := unroll (-1) (s.outerIndents.length + 1) s
  return (← s.forgetKey).mark t 3 false

/-- Reads one token, with the marks it implies. `none` at the end of the text. -/
def step (s : Scanner) : Except YamlError (Option Scanner) := do
  let s := skipBlanks (s.cursor.rest.length + 1) s
  let s ← s.dropStaleKeys
  let s := unroll s.cursor.column (s.outerIndents.length + 1) s
  match s.cursor.rest with
  | [] => return none
  | c :: rest =>
    let fuel := s.cursor.rest.length + 1
    if s.cursor.column = 0 && c = '%' then .error .unexpectedCharacter
    else if s.cursor.atDocumentMark '-' then return some (← s.documentMark .documentStart)
    else if s.cursor.atDocumentMark '.' then return some (← s.documentMark .documentEnd)
    else if c = '[' || c = '\x7b' then
      let s ← s.rememberKey
      let t := if c = '[' then Token.flowSequenceStart else .flowMappingStart
      return some ({ s with keys := none :: s.keys }.mark t 1 true)
    else if c = ']' || c = '\x7d' then
      let s ← s.forgetKey
      let t := if c = ']' then Token.flowSequenceEnd else .flowMappingEnd
      let keys := if s.inFlow then s.keys.drop 1 else s.keys
      return some ({ s with keys }.mark t 1 false)
    else if c = ',' then return some ((← s.forgetKey).mark .flowEntry 1 true)
    else if c = '-' && blankAhead rest then return some (← s.blockEntry)
    else if c = '?' && (s.inFlow || blankAhead rest) then return some (← s.explicitKey)
    else if c = ':' && (s.inFlow || blankAhead rest) then return some (← s.valueMark)
    else if c = '"' || c = '\'' then
      let s ← s.rememberKey
      let (text, cursor) ← scanQuoted (c = '"') fuel s.cursor.next .empty
      return some { s with tokens := s.tokens.push (.quoted text), cursor, keyAllowed := false }
    else if !isIndicator c && c ≠ '\t' || c = '-' || (!s.inFlow && (c = '?' || c = ':')) then
      let s ← s.rememberKey
      let (text, broken, cursor) ← scanPlain s.inFlow (s.indent + 1) fuel s.cursor .empty
      return some { s with tokens := s.tokens.push (.plain text), cursor, keyAllowed := broken }
    else .error .unexpectedCharacter

/-- Reads tokens to the end of the text. -/
def run : Nat → Scanner → Except YamlError (List Token)
  | 0, _ => .error .unreadable
  | fuel + 1, s => do
    match ← s.step with
    | some s => run fuel s
    | none =>
      let s := skipBlanks (s.cursor.rest.length + 1) s
      let s ← s.dropStaleKeys
      let s := unroll (-1) (s.outerIndents.length + 1) s
      let s ← s.forgetKey
      return s.tokens.toList

end Scanner

/-- The place where a text begins. A byte order mark is skipped, but fills a column. -/
def Cursor.start (chars : List Char) : Cursor :=
  if chars.head? = some (Char.ofNat 0xFEFF) then ⟨chars.drop 1, 0, 1, 1⟩ else ⟨chars, 0, 0, 0⟩

/-- The tokens of a text. -/
def tokens (text : String) : Except YamlError (List Token) :=
  let chars := unifyBreaks text.toList
  if chars.all isAllowed then
    Scanner.run (chars.length + 2) ⟨.start chars, #[], -1, [], [none], true⟩
  else .error .controlCharacter

end TaggedSchema.Yaml
