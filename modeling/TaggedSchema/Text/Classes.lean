import TaggedSchema.Text.Age
import TaggedSchema.Text.Segment

/-!
# Classes of characters

The classes that patterns name: digits, word characters and blanks, the POSIX classes of ASCII, and
the Unicode properties by their names.
-/

namespace TaggedSchema.Text

/-! ## 1. The three short classes -/

/-- Decimal digits of all scripts. -/
def digitRanges : List Range := category "Nd"

/-- Word characters: alphabetic characters, marks, decimal digits, connecting punctuation and the
    two joiners. -/
def wordRanges : List Range :=
  unions [alphabetic, categories ["Mn", "Mc", "Me", "Nd", "Pc"], tabled "Join_Control"]

/-- The decimal digits of ASCII. -/
def asciiDigitRanges : List Range := rangesOf "30-39"

/-- The word characters of ASCII. -/
def asciiWordRanges : List Range := rangesOf "30-39 41-5A 5F 61-7A"

/-- The blanks of ASCII. -/
def asciiBlankRanges : List Range := rangesOf "9-D 20"

/-! ## 2. POSIX classes -/

/-- The POSIX classes, within ASCII. -/
def posixClasses : List (String × List Range) :=
  [("alnum", rangesOf "30-39 41-5A 61-7A"), ("alpha", rangesOf "41-5A 61-7A"),
    ("ascii", rangesOf "0-7F"), ("blank", rangesOf "9 20"), ("cntrl", rangesOf "0-1F 7F"),
    ("digit", asciiDigitRanges), ("graph", rangesOf "21-7E"), ("lower", rangesOf "61-7A"),
    ("print", rangesOf "20-7E"), ("punct", rangesOf "21-2F 3A-40 5B-60 7B-7E"),
    ("space", asciiBlankRanges), ("upper", rangesOf "41-5A"), ("word", asciiWordRanges),
    ("xdigit", rangesOf "30-39 41-46 61-66")]

/-! ## 3. General categories -/

/-- The general categories and their groups, but the surrogates, which are no characters, and those
    that no character is assigned to: names, and the categories they hold. -/
def categoryNames : List (List String × List String) := [
  (["Uppercase_Letter", "Lu"], ["Lu"]), (["Lowercase_Letter", "Ll"], ["Ll"]),
  (["Titlecase_Letter", "Lt"], ["Lt"]), (["Cased_Letter", "LC"], ["Lu", "Ll", "Lt"]),
  (["Modifier_Letter", "Lm"], ["Lm"]), (["Other_Letter", "Lo"], ["Lo"]),
  (["Letter", "L"], ["Lu", "Ll", "Lt", "Lm", "Lo"]), (["Nonspacing_Mark", "Mn"], ["Mn"]),
  (["Spacing_Mark", "Mc"], ["Mc"]), (["Enclosing_Mark", "Me"], ["Me"]),
  (["Mark", "M", "Combining_Mark"], ["Mn", "Mc", "Me"]),
  (["Decimal_Number", "Nd", "digit"], ["Nd"]), (["Letter_Number", "Nl"], ["Nl"]),
  (["Other_Number", "No"], ["No"]), (["Number", "N"], ["Nd", "Nl", "No"]),
  (["Connector_Punctuation", "Pc"], ["Pc"]), (["Dash_Punctuation", "Pd"], ["Pd"]),
  (["Open_Punctuation", "Ps"], ["Ps"]), (["Close_Punctuation", "Pe"], ["Pe"]),
  (["Initial_Punctuation", "Pi"], ["Pi"]), (["Final_Punctuation", "Pf"], ["Pf"]),
  (["Other_Punctuation", "Po"], ["Po"]),
  (["Punctuation", "P", "punct"], ["Pc", "Pd", "Ps", "Pe", "Pi", "Pf", "Po"]),
  (["Math_Symbol", "Sm"], ["Sm"]), (["Currency_Symbol", "Sc"], ["Sc"]),
  (["Modifier_Symbol", "Sk"], ["Sk"]), (["Other_Symbol", "So"], ["So"]),
  (["Symbol", "S"], ["Sm", "Sc", "Sk", "So"]), (["Space_Separator", "Zs"], ["Zs"]),
  (["Line_Separator", "Zl"], ["Zl"]), (["Paragraph_Separator", "Zp"], ["Zp"]),
  (["Separator", "Z"], ["Zs", "Zl", "Zp"]), (["Control", "Cc", "cntrl"], ["Cc"]),
  (["Format", "Cf"], ["Cf"]), (["Private_Use", "Co"], ["Co"])]

/-- The surrogates, which no text holds. -/
def surrogates : List Range := [(0xD800, 0xDFFF)]

/-- The characters of a category. -/
def assigned : List Range := unions (categoryLines.map fun row => setOfLines row.2)

/-- The characters of no category. -/
def unassigned : List Range := complement (union assigned surrogates)

/-- The set of a general category, of a group of categories, or of all characters. -/
def categoryNamed? (key : String) : Option (List Range) :=
  if key = "any" then some [(0, lastCodePoint)]
  else if key = "assigned" then some (complement unassigned)
  else if key = "ascii" then some [(0, 0x7F)]
  else if namesInclude ["Unassigned", "Cn"] key then some unassigned
  else if namesInclude ["Other", "C"] key then
    some (union unassigned (categories ["Cc", "Cf", "Co"]))
  else (categoryNames.find? fun row => namesInclude row.1 key).map fun row => categories row.2

/-! ## 4. Properties -/

/-- The set of a property of one name: a binary property, a general category or a script. The short
    names of three categories are kept from other properties. -/
def property? (name : List Char) : Option (List Range) :=
  let key := nameKey name
  let binary := if ["cf", "sc", "lc"].contains key then none else binaryProperty? key
  binary <|> categoryNamed? key <|> script? key

/-- The set of a property that is given as a name and a value. -/
def propertyValue? (name value : List Char) : Option (List Range) :=
  let named (names : List String) : Bool := namesInclude names (nameKey name)
  let key := nameKey value
  if named ["General_Category", "gc"] then categoryNamed? key
  else if named ["Script", "sc"] then script? key
  else if named ["Script_Extensions", "scx"] then scriptExtensions? key
  else if named ["Age"] then age? key
  else if named ["Grapheme_Cluster_Break", "GCB"] then classNamed? clusterClasses key
  else if named ["Word_Break", "WB"] then classNamed? wordClasses key
  else if named ["Sentence_Break", "SB"] then classNamed? sentenceClasses key
  else none

end TaggedSchema.Text
