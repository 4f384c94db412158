/-!
# Document identifiers

A document is named by a URL without its fragment, or by a plain name where the text is no URL.
What a URL is, how one is read, joined and written is the matter of a library of URLs; all that is
asked of it are the operations of `Uri.Library`. `Uri.Reader` has a library of this kind.

What such a library has to do with fragments (`Uri.Library.Lawful`) is asked for by name, and only
where something depends on it: nothing else here assumes anything of a library.
-/

namespace TaggedSchema.Uri

/-- A library of URLs. -/
class Library where
  /-- Absolute URLs. -/
  Url : Type
  /-- The URL a text spells on its own. -/
  parse? : String → Option Url
  /-- The URL a reference means where another URL is in force. -/
  join? : Url → String → Option Url
  /-- The URL without its fragment. -/
  dropFragment : Url → Url
  /-- The text of a URL. -/
  text : Url → String

/-- The part of a text before its first hash. -/
def withoutFragment (text : String) : String := String.ofList (text.toList.takeWhile (· ≠ '#'))

/-- The one spelling under which a document is filed: the text of the URL, or the text itself if it
    spells none, without the fragment. -/
def normalize [Library] (text : String) : String :=
  match Library.parse? text with
  | some u => Library.text (Library.dropFragment u)
  | none => withoutFragment text

/-! ## Fragments -/

/-- Whether a character is dropped at the ends of a URL. -/
def isBlank (c : Char) : Bool := c.toNat ≤ 0x20

/-- Whether the last character is one that is dropped there. -/
def endsBlank (text : String) : Bool := text.toList.getLast?.any isBlank

/-- The URL a text spells, without its fragment. -/
def bare? [Library] (text : String) : Option Library.Url :=
  (Library.parse? text).map Library.dropFragment

/-- What a library does with fragments. A hash begins the fragment, and only a blank at the end,
    which is dropped there, tells a URL from the same one with an empty fragment. -/
structure Library.Lawful [Library] : Prop where
  /-- A URL that has been read is written without a hash when it has no fragment. -/
  hash_notMem_text {text : String} {u : Library.Url} (h : Library.parse? text = some u) :
    '#' ∉ (Library.text (Library.dropFragment u)).toList
  /-- What stands in a fragment does not matter to the rest. -/
  bare?_fragment {base : String} (h : '#' ∉ base.toList) (f : String) :
    bare? (base ++ "#" ++ f) = bare? (base ++ "#")
  /-- Whether there is one does not matter either, unless it keeps a blank from being dropped. -/
  bare?_hash {base : String} (h : '#' ∉ base.toList) (hend : endsBlank base = false) :
    bare? (base ++ "#") = bare? base
  /-- What a reference means does not depend on the fragment of the URL in force. -/
  join?_dropFragment {reference : String} (h : '#' ∉ reference.toList) (u : Library.Url) :
    Library.join? (Library.dropFragment u) reference = Library.join? u reference

end TaggedSchema.Uri
