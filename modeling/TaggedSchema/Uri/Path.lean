import TaggedSchema.Uri.Percent

/-!
# Paths of URLs

The path of a URL is one text, with a slash before each segment. Reading extends it segment by
segment (`growPath`): a dot stays where it is, two dots go back, and all else is appended, encoded.
In file URLs a drive letter such as `C:` is the root of a file system, so nothing goes back beyond
it, and empty segments at the front are dropped.
-/

namespace TaggedSchema.Uri

/-! ## 1. Segments -/

/-- A slash, or in a special URL a backslash. -/
def isSlash (special : Bool) (c : Char) : Bool := c = '/' || (special && c = '\\')

/-- The texts between slashes; there is always at least one. -/
def splitPath (special : Bool) : List Char → List (List Char)
  | [] => [[]]
  | c :: rest =>
    if isSlash special c then [] :: splitPath special rest
    else
      match splitPath special rest with
      | first :: more => (c :: first) :: more
      | [] => [[c]]

/-- A segment with its encoded dots decoded and in lower case, to tell dot segments. -/
def dots : List Char → List Char
  | '%' :: '2' :: 'e' :: rest => '.' :: dots rest
  | '%' :: '2' :: 'E' :: rest => '.' :: dots rest
  | c :: rest => c :: dots rest
  | [] => []

/-- Whether a segment is a drive letter with a colon or a bar. -/
def isDriveLetter : List Char → Bool
  | [letter, mark] => letter.isAlpha && (mark = ':' || mark = '|')
  | _ => false

/-- Whether a segment is a drive letter in its usual form, with a colon. -/
def isUsualDriveLetter (segment : List Char) : Bool :=
  isDriveLetter segment && segment.getLast? = some ':'

/-- Whether a text begins with a drive letter that stands alone in its segment. -/
def startsWithDriveLetter : List Char → Bool
  | letter :: mark :: rest =>
    isDriveLetter [letter, mark] &&
      match rest with
      | [] => true
      | c :: _ => c = '/' || c = '\\' || c = '?' || c = '#'
  | _ => false

/-! ## 2. Going back -/

/-- What follows the last slash of a path. -/
def lastSegment (path : List Char) : List Char := (path.reverse.takeWhile (· ≠ '/')).reverse

/-- Whether a path ends with a slash. -/
def endsWithSlash (path : List Char) : Bool := path.getLast? = some '/'

/-- A path up to and with its last slash. A drive letter at the end of a file path is kept. -/
def cutLast (file : Bool) (path : List Char) : List Char :=
  let last := lastSegment path
  if file && isUsualDriveLetter last then path else path.take (path.length - last.length)

/-- A path without the slash at its end, unless that is its only one or a drive letter stands
    before it. -/
def dropSlash (path : List Char) : List Char :=
  let inner := path.dropLast
  if endsWithSlash path && inner.contains '/' && !isDriveLetter (lastSegment inner) then inner
  else path

/-- A path that ends with a slash. -/
def closed (path : List Char) : List Char := if endsWithSlash path then path else path ++ ['/']

/-! ## 3. Going on -/

/-- A path extended by one segment and the slash behind it, if there is one. A drive letter that is
    the first thing read (`front`) gets its usual form. -/
def addSegment (file front : Bool) (path segment : List Char) (slash : Bool) : List Char :=
  let path :=
    if file && !segment.isEmpty && path.head? = some '/' && isUsualDriveLetter (path.drop 1) then
      path ++ ['/']
    else path
  if dots segment = ['.', '.'] then
    let shorter := cutLast file (dropSlash path)
    if slash then closed shorter else shorter
  else if dots segment = ['.'] then closed path
  else
    let written :=
      if file && front && isDriveLetter segment then segment.take 1 ++ [':']
      else encode outsidePath segment
    path ++ written ++ (if slash then ['/'] else [])

/-- A path extended by segments. -/
def addSegments (file : Bool) : Bool → List Char → List (List Char) → List Char
  | _, path, [] => path
  | front, path, segment :: rest =>
    addSegments file false (addSegment file front path segment (!rest.isEmpty)) rest

/-- A path extended by what a text spells. A file path begins with one slash. -/
def growPath (special file : Bool) (path s : List Char) : List Char :=
  let grown := addSegments file true path (splitPath special s)
  if file then '/' :: grown.dropWhile (· = '/') else grown

end TaggedSchema.Uri
