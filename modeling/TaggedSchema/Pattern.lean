/-!
# Patterns

The regular expressions of the keywords `pattern` and `patternProperties`. Which texts are patterns
and what they match is the matter of a library of patterns (`Pattern.Library`); a compiled schema
keeps the text of a pattern and the test that it amounts to. `Pattern.Reader` has a library of this
kind.
-/

namespace TaggedSchema

/-- A library of patterns: the test that a pattern amounts to, whether it matches somewhere in a
    text; or what is wrong with the pattern. -/
class Pattern.Library where
  read : String → Except String (String → Bool)

/-- A pattern as it is written, and the test that it amounts to. -/
structure NamedPattern where
  text : String
  isMatch : String → Bool

end TaggedSchema
