import TaggedSchema.Text.Property
import TaggedSchema.Text.Script

/-!
# Where text divides

The Unicode properties Grapheme_Cluster_Break, Word_Break and Sentence_Break, edition 16: the
classes of characters by which a text divides into what a reader takes for one character, into
words and into sentences.
-/

namespace TaggedSchema.Text

/-! ## 1. Clusters -/

/-- The first syllable of every row of Hangul syllables, which has no final consonant. -/
def openSyllables : List Range :=
  (List.range 399).map fun i => (0xAC00 + 28 * i, 0xAC00 + 28 * i)

/-- The vowels of Hangul, and those of other scripts that join in the same way. -/
def joinedVowels : List Range := rangesOf "1160-11A7 D7B0-D7C6 16D63 16D67-16D6A"

/-- Spacing marks that do not hold on to the character before them. -/
def heldApart : List Range := setOfLines [
    "102B-102C 1038 1062-1064 1067-106D 1083 1087-108C 108F 109A-109C 1A61 1A63-1A64 AA7B AA7D",
    "11720-11721"]

/-- Signs that hold on to the character behind them. -/
def leading : List Range :=
  rangesOf "D4E 111C2-111C3 113D1 1193F 11941 11A3A 11A84-11A89 11D46 11F02"

/-- Marks and signs that hold on to the character before them. -/
def clusterExtend : List Range := union graphemeExtend (tabled "Emoji_Modifier")

/-- Signs that hold on to the character behind them. -/
def clusterPrepend : List Range := union leading (tabled "Prepended_Concatenation_Mark")

/-- Characters that stand for themselves without a shape. -/
def clusterControl : List Range :=
  difference
    (union (categories ["Zl", "Zp", "Cc", "Cf"])
      (difference defaultIgnorable (unions (categoryLines.map fun row => setOfLines row.2))))
    (unions [rangesOf "A D 200C 200D", tabled "Prepended_Concatenation_Mark", clusterExtend])

/-- The classes of clusters: names and sets. -/
def clusterClasses : List (List String × List Range) := [
  (["Control", "CN"], clusterControl),
  (["CR"], rangesOf "D"),
  (["Extend", "EX"], clusterExtend),
  (["L"], rangesOf "1100-115F A960-A97C"),
  (["LF"], rangesOf "A"),
  (["LV"], openSyllables),
  (["LVT"], difference (rangesOf "AC00-D7A3") openSyllables),
  (["Prepend", "PP"], clusterPrepend),
  (["Regional_Indicator", "RI"], tabled "Regional_Indicator"),
  (["SpacingMark", "SM"],
    difference (union (category "Mc") (rangesOf "E33 EB3"))
      (unions [clusterExtend, heldApart, clusterPrepend, joinedVowels])),
  (["T"], rangesOf "11A8-11FF D7CB-D7FB"),
  (["V"], joinedVowels),
  (["ZWJ"], rangesOf "200D")]

/-! ## 2. Words -/

/-- Letters of scripts whose words are not set apart, and which only a dictionary divides. -/
def unspaced : List Range := setOfLines [
    "E01-E30 E32-E33 E40-E46 E81-E82 E84 E86-E8A E8C-EA3 EA5 EA7-EB0 EB2-EB3 EBD EC0-EC4 EC6",
    "EDC-EDF 1000-102A 103F 1050-1055 105A-105D 1061 1065-1066 106E-1070 1075-1081 108E 1780-17B3",
    "17D7 17DC 1950-196D 1970-1974 1980-19AB 19B0-19C9 1A20-1A54 1AA7 A9E0-A9E4 A9E6-A9EF",
    "A9FA-A9FE AA60-AA76 AA7A AA7E-AAAF AAB1 AAB5-AAB6 AAB9-AABD AAC0 AAC2 AADB-AADD 11700-1171A",
    "11740-11746"]

/-- Letters of Katakana, and the marks written with them. -/
def katakanaLetters : List Range := setOfLines [
    "3031-3035 309B-309C 30A0-30FA 30FC-30FF 31F0-31FF 32D0-32FE 3300-3357 FF66-FF9D 1AFF0-1AFF3",
    "1AFF5-1AFFB 1AFFD-1AFFE 1B000 1B120-1B122 1B155 1B164-1B167"]

/-- Signs that begin a number. -/
def numberSigns : List Range := rangesOf "600-605 6DD 890-891 8E2 110BD 110CD"

/-- Marks that hold on to the character before them. -/
def wordExtend : List Range :=
  difference (union clusterExtend (category "Mc")) (rangesOf "200D")

/-- Letters of Hebrew. -/
def hebrewLetters : List Range := intersection ((script? "hebrew").getD []) (category "Lo")

/-- Letters whose words are set apart by blanks, and signs used as letters. -/
def wordLetters : List Range :=
  difference
    (union alphabetic
      (rangesOf ("2C2-2C5 2D2-2D7 2DE-2DF 2E5-2EB 2ED 2EF-2FF 55A-55C 55E 58A 5F3 70F " ++
        "A708-A716 A720-A721 A789-A78A AB5B")))
    (unions [tabled "Ideographic", katakanaLetters, unspaced, (script? "hiragana").getD [],
      wordExtend, hebrewLetters])

/-- The classes of words: names and sets. -/
def wordClasses : List (List String × List Range) := [
  (["ALetter", "LE"], wordLetters),
  (["CR"], rangesOf "D"),
  (["Double_Quote", "DQ"], rangesOf "22"),
  (["Extend"], wordExtend),
  (["ExtendNumLet", "EX"], union (category "Pc") (rangesOf "202F")),
  (["Format", "FO"],
    difference (category "Cf")
      (unions [rangesOf "70F 200B-200D", wordExtend, numberSigns])),
  (["Hebrew_Letter", "HL"], hebrewLetters),
  (["Katakana", "KA"], katakanaLetters),
  (["LF"], rangesOf "A"),
  (["MidLetter", "ML"], rangesOf "3A B7 387 55F 5F4 2027 FE13 FE55 FF1A"),
  (["MidNum", "MN"],
    rangesOf "2C 3B 37E 589 60C-60D 66C 7F8 2044 FE10 FE14 FE50 FE54 FF0C FF1B"),
  (["MidNumLet", "MB"], rangesOf "2E 2018-2019 2024 FE52 FF07 FF0E"),
  (["Newline", "NL"], rangesOf "B-C 85 2028-2029"),
  (["Numeric", "NU"], unions [category "Nd", rangesOf "66B", numberSigns]),
  (["Regional_Indicator", "RI"], tabled "Regional_Indicator"),
  (["Single_Quote", "SQ"], rangesOf "27"),
  (["WSegSpace"], difference (category "Zs") (rangesOf "A0 2007 202F")),
  (["ZWJ"], rangesOf "200D")]

/-! ## 3. Sentences -/

/-- Full stops that end other things than sentences as well. -/
def fullStops : List Range := rangesOf "2E 2024 FE52 FF0E"

/-- Marks after which a sentence goes on. -/
def sentenceContinue : List Range :=
  rangesOf ("2C-2D 3A-3B 37E 55D 60C-60D 7F8 1802 1808 2013-2014 3001 FE10-FE11 FE13-FE14 " ++
    "FE31-FE32 FE50-FE51 FE54-FE55 FE58 FE63 FF0C-FF0D FF1A-FF1B FF64")

/-- Marks that hold on to the character before them. -/
def sentenceExtend : List Range := unions [graphemeExtend, category "Mc", rangesOf "200D"]

/-- Small letters of a sentence. -/
def sentenceLower : List Range :=
  difference lowercase (union graphemeExtend (rangesOf "10D0-10FA 10FD-10FF"))

/-- Capital letters of a sentence. -/
def sentenceUpper : List Range :=
  difference (union (category "Lt") uppercase) (rangesOf "1C90-1CBA 1CBD-1CBF")

/-- Marks that end a sentence. -/
def sentenceEnds : List Range := difference (tabled "Sentence_Terminal") fullStops

/-- The classes of sentences: names and sets. -/
def sentenceClasses : List (List String × List Range) := [
  (["ATerm", "AT"], fullStops),
  (["CR"], rangesOf "D"),
  (["Close", "CL"],
    difference
      (union (categories ["Ps", "Pe", "Pi", "Pf"])
        (rangesOf "22 27 275B-2760 2E00-2E01 2E06-2E08 2E0B 1F676-1F678"))
      (unions [fullStops, sentenceEnds, sentenceContinue])),
  (["Extend", "EX"], sentenceExtend),
  (["Format", "FO"],
    difference (category "Cf") (unions [rangesOf "200C-200D", sentenceExtend, numberSigns])),
  (["LF"], rangesOf "A"),
  (["Lower", "LO"], sentenceLower),
  (["Numeric", "NU"], unions [category "Nd", rangesOf "66B-66C", numberSigns]),
  (["OLetter", "LE"],
    difference (union alphabetic (rangesOf "5F3"))
      (unions [sentenceLower, sentenceUpper, sentenceExtend])),
  (["SContinue", "SC"], sentenceContinue),
  (["STerm", "ST"], sentenceEnds),
  (["Sep", "SE"], rangesOf "85 2028-2029"),
  (["Sp"], difference blankRanges (rangesOf "A D 85 2028-2029")),
  (["Upper", "UP"], sentenceUpper)]

/-! ## 4. Names -/

/-- The set of the class of a name, among some classes. -/
def classNamed? (classes : List (List String × List Range)) (key : String) :
    Option (List Range) :=
  (classes.find? fun row => namesInclude row.1 key).map (·.2)

end TaggedSchema.Text
