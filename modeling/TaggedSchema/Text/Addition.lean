import TaggedSchema.Text.Property

/-!
# Characters of the following edition

The characters that edition 17 of Unicode adds to those of the tables, which are of edition 16, by
their general categories, and the sets of edition 17 that follow: quoted text and the names in
patterns go by these, the classes of patterns by edition 16.
-/

namespace TaggedSchema.Text

/-- The categories of the added characters. -/
def additionLines : List (String × List String) := [
  ("Lu", ["A7CE A7D2 A7D4 16EA0-16EB8"]),
  ("Ll", ["A7CF 16EBB-16ED3"]),
  ("Lm", ["A7F1 10EC5 11DD9 16FF2-16FF3 1E6FF"]),
  ("Lo", [
    "88F C5C CDC 10940-10959 10EC6-10EC7 11DB0-11DD8 11DDA-11DDB 187F8-187FF 18D09-18D1E",
    "18D80-18DF2 1E6C0-1E6DE 1E6E0-1E6E2 1E6E4-1E6E5 1E6E7-1E6ED 1E6F0-1E6F4 1E6FE 2B73A-2B73F",
    "2CEA2-2CEAD 323B0-33479"]),
  ("Mn", [
    "1ACF-1ADD 1AE0-1AEB 10EFA-10EFB 11B60 11B62-11B64 11B66 1E6E3 1E6E6 1E6EE-1E6EF 1E6F5"]),
  ("Mc", ["11B61 11B65 11B67"]),
  ("Nd", ["11DE0-11DE9"]),
  ("Nl", ["16FF4-16FF6"]),
  ("Po", ["10ED0"]),
  ("Sm", ["1CEF0 1F8D0-1F8D8"]),
  ("Sc", ["20C1"]),
  ("So", [
    "2B96 FBC3-FBD2 FD90-FD91 FDC8-FDCE 10ED1-10ED8 1CCFA-1CCFC 1CEBA-1CED0 1CEE0-1CEEF 1F6D8",
    "1F777-1F77A 1FA54-1FA57 1FA8A 1FA8E 1FAC8 1FACD 1FAEA 1FAEF 1FBFA"])]

/-- The set of several categories with the added characters. -/
def laterCategories (names : List String) : List Range :=
  union (categories names)
    (unions (names.map fun name => setOfLines ((additionLines.lookup name).getD [])))

/-- Alphabetic characters with the added ones. -/
def laterAlphabetic : List Range :=
  unions [alphabetic, laterCategories ["Lu", "Ll", "Lt", "Lm", "Lo", "Nl"],
    rangesOf "10EFA-10EFB 11B60-11B67 1E6E3 1E6E6 1E6EE-1E6EF 1E6F5"]

/-- Numbers with the added ones. -/
def laterNumbers : List Range := laterCategories ["Nd", "Nl", "No"]

end TaggedSchema.Text
