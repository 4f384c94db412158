import TaggedSchema.Uri
import TaggedSchema.Uri.Path

/-!
# A library of URLs

Reading, joining and writing URLs after the URL standard of the web: the scheme and the host in
lower case, the default socket number dropped, dot segments removed, and the characters a component
may not hold percent-encoded. A fragment is never part of the result. Hosts are read as names: there
is no reading of numeric addresses, and names outside ASCII are refused (`Uri.reader`).

A URL is read piece by piece on its characters. The text is first split at the question mark; what
is before it holds scheme, authority and path, each taken off the front.
-/

namespace TaggedSchema

/-- The path of a URL: divided by slashes, or one undivided text (as in `mailto:a@b`), against which
    nothing can be joined. -/
inductive UriPath where
  | undivided (text : String)
  | divided (text : String)
deriving DecidableEq

/-- An absolute URL without its fragment. The authority is user information, host and socket number,
    as they are written. -/
structure Uri where
  scheme : String
  authority : Option String
  path : UriPath
  query : Option String
deriving DecidableEq

namespace Uri

/-! ## 1. Schemes -/

/-- The special schemes and their default socket numbers. -/
def specialSchemes : List (String × Option Nat) :=
  [("http", some 80), ("https", some 443), ("ws", some 80), ("wss", some 443), ("ftp", some 21),
    ("file", none)]

/-- Whether URLs of the scheme have a host, a hierarchical path, and backslashes for slashes. -/
def isSpecial (scheme : String) : Bool := (specialSchemes.lookup scheme).isSome

/-- The scheme in front, in lower case, and what follows its colon. -/
def takeScheme? (s : List Char) : Option (String × List Char) :=
  let isSchemeChar (c : Char) : Bool := c.isAlphanum || c = '+' || c = '-' || c = '.'
  match s.takeWhile isSchemeChar, s.dropWhile isSchemeChar with
  | first :: more, ':' :: rest =>
    if first.isAlpha then some (String.ofList ((first :: more).map Char.toLower), rest) else none
  | _, _ => none

/-- A path of URLs of the scheme, extended by what a text spells. -/
def grow (scheme : String) (path s : List Char) : UriPath :=
  .divided (String.ofList (growPath (isSpecial scheme) (scheme = "file") path s))

/-- The characters of a divided path. -/
def pathChars (u : Uri) : List Char :=
  match u.path with
  | .divided text => text.toList
  | .undivided _ => []

/-! ## 2. Authorities -/

/-- The characters no host holds. -/
def outsideHost (c : Char) : Bool :=
  c.toNat = 0 || ['\t', '\n', '\r', ' ', '#', '/', ':', '<', '>', '?', '@', '[', '\\', ']', '^',
    '|'].contains c

/-- A host. The host of a special URL is a name in lower case, any other host is kept as it is. -/
def host? (special : Bool) (s : List Char) : Option String :=
  if s.head? = some '[' then
    if s.getLast? = some ']' then some (String.ofList (s.map Char.toLower)) else none
  else if special then
    let name := (decodeAscii s).map Char.toLower
    if name.any fun c => outsideHost c || c.toNat ≤ 0x20 || c = '%' || 0x7F ≤ c.toNat then none
    else some (String.ofList name)
  else if s.any outsideHost then none
  else some (String.ofList (encode isControl s))

/-- Splits at the last at sign. -/
def splitUser (s : List Char) : Option (List Char) × List Char :=
  let host := (s.reverse.takeWhile (· ≠ '@')).reverse
  if host.length = s.length then (none, s)
  else (some (s.take (s.length - host.length - 1)), host)

/-- Splits at the colon before the socket number, which stands after a bracketed host. -/
def splitSocket (s : List Char) : List Char × Option (List Char) :=
  let (bracketed, rest) :=
    if s.head? = some '[' then
      (s.takeWhile (· ≠ ']') ++ (s.dropWhile (· ≠ ']')).take 1, (s.dropWhile (· ≠ ']')).drop 1)
    else ([], s)
  let name := rest.takeWhile (· ≠ ':')
  match rest.dropWhile (· ≠ ':') with
  | _ :: socket => (bracketed ++ name, some socket)
  | [] => (bracketed ++ name, none)

/-- The socket number as it is written after the host; the default one and an empty one are not. -/
def socket? (scheme : String) (s : List Char) : Option String :=
  if s.all Char.isDigit then
    if s.isEmpty then some ""
    else
      let n := s.foldl (fun n c => 10 * n + (c.toNat - '0'.toNat)) 0
      if 65535 < n then none
      else if specialSchemes.lookup scheme = some (some n) then some ""
      else some (":" ++ Nat.repr n)
  else none

/-- User name and password as they are written before the host. -/
def userInfo (s : List Char) : String :=
  let name := String.ofList (encode outsideUser (s.takeWhile (· ≠ ':')))
  let password := String.ofList (encode outsideUser ((s.dropWhile (· ≠ ':')).drop 1))
  if name = "" ∧ password = "" then ""
  else if password = "" then name ++ "@"
  else name ++ ":" ++ password ++ "@"

/-- The authority in front and the text of the path behind it. A special URL needs a host, and so do
    a user and a socket number; an at sign with nothing before it may only stand before a host or at
    the end of the URL. -/
def takeAuthority? (scheme : String) (s : List Char) (more : Bool) :
    Option (String × List Char) := do
  let special := isSpecial scheme
  let text := s.takeWhile fun c => !isSlash special c
  let after := s.drop text.length
  let (user, hostAndSocket) := splitUser text
  let (hostText, socketText) := splitSocket hostAndSocket
  let digits := (socketText.getD []).takeWhile (· ≠ '\\')
  let after := (socketText.getD []).drop digits.length ++ after
  let info := (user.map userInfo).getD ""
  if hostText.isEmpty then
    if special || socketText.isSome || info ≠ "" then none
    if user = some [] && (more || !after.isEmpty) then none
  let host ← host? special hostText
  let socket ← socket? scheme digits
  return (info ++ host ++ socket, after)

/-- The URL whose authority and path are left. -/
def afterSlashes? (scheme : String) (s : List Char) (query : Option String) : Option Uri := do
  let (authority, rest) ← takeAuthority? scheme s query.isSome
  let path :=
    if isSpecial scheme then grow scheme ['/'] (rest.drop 1)
    else if rest.isEmpty || rest.head? = some '/' then grow scheme [] rest
    else grow scheme ['/'] rest
  return ⟨scheme, some authority, path, query⟩

/-! ## 3. File URLs -/

/-- The host of a file URL; the local host is written as none. -/
def fileHost? (s : List Char) : Option String :=
  if s.isEmpty then some ""
  else (host? true s).map fun host => if host = "localhost" then "" else host

/-- A file URL. -/
def file (authority : String) (path s : List Char) (query : Option String) : Uri :=
  ⟨"file", some authority, grow "file" path s, query⟩

/-- A file URL after its two slashes. A drive letter takes the place of the host. -/
def fileAfterSlashes? (s : List Char) (query : Option String) : Option Uri :=
  let hostText := s.takeWhile fun c => !isSlash true c
  if isDriveLetter hostText then some (file "" ['/'] s query)
  else do
    let host ← fileHost? hostText
    let rest := s.drop hostText.length
    if host = "" then return file "" [] rest query
    else
      let rest := rest.drop 1
      return file (if startsWithDriveLetter rest then "" else host) ['/'] rest query

/-- A file URL whose scheme has been read, joined to a file URL if there is one. -/
def file? (base : Option Uri) (s : List Char) (query : Option String) : Option Uri :=
  match s with
  | [] =>
    match base with
    | some b => some { b with query := query <|> b.query }
    | none => some (file "" ['/'] [] query)
  | c :: rest =>
    if isSlash true c then
      if rest.head?.any (isSlash true) then fileAfterSlashes? (rest.drop 1) query
      else
        match base with
        | some b =>
          let root := (b.pathChars.drop 1).takeWhile (· ≠ '/')
          if startsWithDriveLetter rest then some (file "" [] s query)
          else if isUsualDriveLetter root then some (file "" ('/' :: root) s query)
          else some (file (b.authority.getD "") [] s query)
        | none => some (file "" [] s query)
    else
      match base with
      | some b =>
        if startsWithDriveLetter s then some (file "" ['/'] s query)
        else some (file (b.authority.getD "") (cutLast true b.pathChars) s query)
      | none => some (file "" ['/'] s query)

/-! ## 4. Reading -/

/-- A reference without a scheme, or with the special scheme of its base and no slashes. A backslash
    at its front counts as a slash whatever the scheme. -/
def relative? (base : Uri) (s : List Char) (query : Option String) : Option Uri :=
  let slashes := (s.takeWhile (isSlash true)).length
  match s with
  | [] => some { base with query := query <|> base.query }
  | '/' :: '/' :: rest => afterSlashes? base.scheme rest query
  | c :: rest =>
    if 2 ≤ slashes then afterSlashes? base.scheme (s.drop slashes) query
    else if isSlash true c then some { base with path := grow base.scheme ['/'] rest, query }
    else
      let start := cutLast false base.pathChars
      some { base with path := grow base.scheme (if start.isEmpty then ['/'] else start) s, query }

/-- Drops control characters and spaces at the ends, and tabs and line ends everywhere. -/
def clean (s : List Char) : List Char :=
  let outer (c : Char) : Bool := c.toNat ≤ 0x20
  let inner := ((s.dropWhile outer).reverse.dropWhile outer).reverse
  inner.filter fun c => !(c = '\t' || c = '\n' || c = '\r')

/-- An absolute URL whose scheme has been read. -/
def absolute? (base : Option Uri) (scheme : String) (s : List Char) (query : Option String) :
    Option Uri :=
  if scheme = "file" then file? (base.filter fun b => b.scheme == "file") s query
  else if isSpecial scheme then
    match base with
    | some b =>
      if b.scheme = scheme ∧ (s.takeWhile (isSlash true)).length < 2 then relative? b s query
      else afterSlashes? scheme (s.dropWhile (isSlash true)) query
    | none => afterSlashes? scheme (s.dropWhile (isSlash true)) query
  else
    match s with
    | '/' :: '/' :: rest => afterSlashes? scheme rest query
    | '/' :: rest => some ⟨scheme, none, grow scheme ['/'] rest, query⟩
    | _ => some ⟨scheme, none, .undivided (String.ofList (encode isControl s)), query⟩

/-- The URL a text spells, joined to a base if it is not absolute. Its fragment is not read. -/
def read? (base : Option Uri) (text : String) : Option Uri :=
  let cleaned := clean text.toList
  let s := cleaned.takeWhile (· ≠ '#')
  let front := s.takeWhile (· ≠ '?')
  let queryOf (scheme : String) : Option String :=
    match s.dropWhile (· ≠ '?') with
    | _ :: rest => some (String.ofList (encode (outsideQuery (isSpecial scheme)) rest))
    | [] => none
  match takeScheme? front with
  | some (scheme, rest) => absolute? base scheme rest (queryOf scheme)
  | none =>
    match base with
    | some b =>
      match b.path with
      | .undivided _ => if cleaned.head? = some '#' then some b else none
      | .divided _ =>
        if b.scheme = "file" then file? (some b) front (queryOf b.scheme)
        else relative? b front (queryOf b.scheme)
    | none => none

/-- The URL a text spells on its own. -/
def parse? (text : String) : Option Uri := read? none text

/-- The URL a reference means where the base is in force. -/
def join? (base : Uri) (reference : String) : Option Uri := read? (some base) reference

/-! ## 5. Writing -/

/-- The text of a path. A path that would read as an authority is kept apart from the scheme. -/
def pathText (authority : Option String) : UriPath → String
  | .undivided text => text
  | .divided text =>
    if authority.isNone && text.startsWith "//" then "/." ++ text else text

/-- The text of a URL. Spaces at the end of an undivided path are dropped. -/
def text (u : Uri) : String :=
  let authority := match u.authority with
    | some a => "//" ++ a
    | none => ""
  let path := pathText u.authority u.path
  let path := match u.path, u.query with
    | .undivided _, none =>
      String.ofList ((path.toList.reverse.dropWhile (· = ' ')).reverse)
    | _, _ => path
  let query := match u.query with
    | some q => "?" ++ q
    | none => ""
  u.scheme ++ ":" ++ authority ++ path ++ query

/-- This library of URLs, in which no URL has a fragment to drop. -/
instance reader : Library := ⟨Uri, parse?, join?, id, text⟩

end Uri

end TaggedSchema
