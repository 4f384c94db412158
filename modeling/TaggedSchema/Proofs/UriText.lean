import TaggedSchema.Uri.Reader
import Mathlib.Data.List.TakeWhile

/-!
# What the text of a URL never holds

A hash begins a fragment, and `Uri.reader` never reads one. So what it reads of a text holds no hash
(`Uri.front`), and what a URL is made of is taken from there: pieces of it, in lower case, decoded
where no hash may come out (a host), or encoded, which brings in percent signs and hexadecimal
digits only. This file goes through the pieces in the order of the definitions, then through texts
with and without a fragment, and ends with what is asked of every library (`Uri.reader_lawful`).
-/

namespace TaggedSchema.Uri

variable {s path segment : List Char} {special : Bool} {scheme : String}
  {query : Option String} {u : Uri}

/-! ## 1. Characters -/

theorem dropWhile_append_cons {α : Type} {p : α → Bool} {a : α} (xs ys : List α)
    (h : p a = false) : (xs ++ a :: ys).dropWhile p = xs.dropWhile p ++ a :: ys := by
  rw [List.dropWhile_append]
  split
  next hnil =>
    rw [List.isEmpty_iff.mp hnil, List.dropWhile_cons_of_neg (by simp [h]), List.nil_append]
  · rfl

theorem takeWhile_append_cons {α : Type} {p : α → Bool} {a : α} {xs : List α} (ys : List α)
    (hall : ∀ x ∈ xs, p x = true) (h : p a = false) : (xs ++ a :: ys).takeWhile p = xs := by
  rw [List.takeWhile_append_of_pos hall, List.takeWhile_cons_of_neg (by simp [h]), List.append_nil]

theorem all_ne_hash (h : '#' ∉ s) : ∀ c ∈ s, decide (c ≠ '#') = true := by
  intro c hc
  refine decide_eq_true fun heq => ?_
  rw [heq] at hc
  exact h hc

/-- The characters of a text with a fragment. -/
theorem toList_fragment (base f : String) :
    (base ++ "#" ++ f).toList = base.toList ++ '#' :: f.toList := by
  rw [String.toList_append, String.toList_append, List.append_assoc]
  rfl

theorem hexDigit_ne_hash (n : Nat) : hexDigit n ≠ '#' := by
  have hall : ∀ k < 16, (Nat.digitChar k).toUpper ≠ '#' := by decide
  exact hall (n % 16) (Nat.mod_lt _ (by omega))

theorem hash_notMem_percent (byte : UInt8) : '#' ∉ percent byte := by
  have hhigh := hexDigit_ne_hash (byte.toNat / 16)
  have hlow := hexDigit_ne_hash byte.toNat
  simp [percent, hhigh.symm, hlow.symm]

/-- Encoding brings in no hash, whatever it encodes. -/
theorem hash_notMem_encode (outside : Char → Bool) (h : '#' ∉ s) : '#' ∉ encode outside s := by
  intro hmem
  obtain ⟨c, hc, hmem⟩ := List.mem_flatMap.mp hmem
  split at hmem
  · obtain ⟨byte, -, hbyte⟩ := List.mem_flatMap.mp hmem
    exact hash_notMem_percent byte hbyte
  · rw [List.mem_singleton.mp hmem] at h
    exact h hc

/-- No letter is a hash in lower case. -/
theorem toLower_eq_hash {c : Char} (h : c.toLower = '#') : c = '#' := by
  unfold Char.toLower at h
  split at h
  next hupper =>
    have hval : c.val + ('a'.val - 'A'.val) = '#'.val := congrArg Char.val h
    have hnat : (c.val + ('a'.val - 'A'.val)).toNat = 35 := congrArg UInt32.toNat hval
    have hlow : 65 ≤ c.val.toNat := hupper.1
    have hhigh : c.val.toNat ≤ 90 := hupper.2
    have hshift : ('a'.val - 'A'.val).toNat = 32 := rfl
    rw [UInt32.toNat_add] at hnat
    omega
  next => exact h

theorem hash_notMem_lower (h : '#' ∉ s) : '#' ∉ s.map Char.toLower := by
  intro hmem
  obtain ⟨c, hc, heq⟩ := List.mem_map.mp hmem
  rw [toLower_eq_hash heq] at hc
  exact h hc

theorem hash_notMem_repr (n : Nat) : '#' ∉ (Nat.repr n).toList := by
  intro hmem
  have hdigit : '#'.isDigit = true :=
    Nat.isDigit_of_mem_toDigits (by omega) (Nat.le_refl 10) (by simpa [Nat.repr] using hmem)
  cases hdigit

theorem hash_notMem_takeWhile (p : Char → Bool) (h : '#' ∉ s) : '#' ∉ s.takeWhile p :=
  fun hmem => h (List.takeWhile_subset _ hmem)

theorem hash_notMem_dropWhile (p : Char → Bool) (h : '#' ∉ s) : '#' ∉ s.dropWhile p :=
  fun hmem => h (List.dropWhile_subset _ hmem)

theorem hash_notMem_take (n : Nat) (h : '#' ∉ s) : '#' ∉ s.take n :=
  fun hmem => h (List.take_subset _ _ hmem)

theorem hash_notMem_drop (n : Nat) (h : '#' ∉ s) : '#' ∉ s.drop n :=
  fun hmem => h (List.drop_subset _ _ hmem)

theorem hash_notMem_untilHash (s : List Char) : '#' ∉ s.takeWhile (· ≠ '#') := by
  intro hmem
  simpa using List.mem_takeWhile_imp hmem

/-! ## 2. Paths -/

theorem hash_notMem_splitPath (special : Bool) (h : '#' ∉ s) :
    ∀ segment ∈ splitPath special s, '#' ∉ segment := by
  fun_induction splitPath special s with
  | case1 => simp
  | case2 c rest hslash ih => grind
  | case3 c rest hslash first more hsplit ih => grind
  | case4 c rest hslash hsplit ih => grind

theorem hash_notMem_cutLast (file : Bool) (h : '#' ∉ path) : '#' ∉ cutLast file path := by
  unfold cutLast
  dsimp only
  split
  · exact h
  · exact hash_notMem_take _ h

theorem hash_notMem_dropSlash (h : '#' ∉ path) : '#' ∉ dropSlash path := by
  unfold dropSlash
  dsimp only
  split
  · exact fun hmem => h (List.dropLast_subset _ hmem)
  · exact h

theorem hash_notMem_closed (h : '#' ∉ path) : '#' ∉ closed path := by
  unfold closed
  split
  · exact h
  · simpa using h

theorem hash_notMem_addSegment (file front slash : Bool) (hpath : '#' ∉ path)
    (hsegment : '#' ∉ segment) : '#' ∉ addSegment file front path segment slash := by
  unfold addSegment
  extract_lets path' shorter written
  have hpath' : '#' ∉ path' := by
    unfold path'
    split
    · simpa using hpath
    · exact hpath
  have hshorter : '#' ∉ shorter := hash_notMem_cutLast file (hash_notMem_dropSlash hpath')
  have hwritten : '#' ∉ written := by
    unfold written
    split
    · simpa using hash_notMem_take 1 hsegment
    · exact hash_notMem_encode _ hsegment
  split
  · split
    · exact hash_notMem_closed hshorter
    · exact hshorter
  · split
    · exact hash_notMem_closed hpath'
    · split <;> simp [hpath', hwritten]

theorem hash_notMem_addSegments (file : Bool) {segments : List (List Char)} (front : Bool)
    (hpath : '#' ∉ path) (hsegments : ∀ segment ∈ segments, '#' ∉ segment) :
    '#' ∉ addSegments file front path segments := by
  induction segments generalizing front path with
  | nil => exact hpath
  | cons segment rest ih =>
    obtain ⟨hfirst, hrest⟩ := List.forall_mem_cons.mp hsegments
    exact ih false (hash_notMem_addSegment file front _ hpath hfirst) hrest

/-- A path that is extended by what a text spells. -/
theorem hash_notMem_growPath (special file : Bool) (hpath : '#' ∉ path) (h : '#' ∉ s) :
    '#' ∉ growPath special file path s := by
  have hgrown := hash_notMem_addSegments file true hpath (hash_notMem_splitPath special h)
  unfold growPath
  dsimp only
  split
  · simpa using hash_notMem_dropWhile _ hgrown
  · exact hgrown

/-! ## 3. Authorities -/

/-- A host is decoded, but a host with a hash is none. -/
theorem hash_notMem_host {host : String} (h : '#' ∉ s) (hhost : host? special s = some host) :
    '#' ∉ host.toList := by
  unfold host? at hhost
  dsimp only at hhost
  split at hhost
  · split at hhost
    · cases hhost
      rw [String.toList_ofList]
      exact hash_notMem_lower h
    · cases hhost
  · split at hhost
    · split at hhost
      · cases hhost
      next hinside =>
        cases hhost
        rw [String.toList_ofList]
        exact fun hmem => hinside (List.any_eq_true.mpr ⟨'#', hmem, by decide⟩)
    · split at hhost
      · cases hhost
      · cases hhost
        rw [String.toList_ofList]
        exact hash_notMem_encode _ h

theorem hash_notMem_splitUser (h : '#' ∉ s) :
    (∀ user, (splitUser s).1 = some user → '#' ∉ user) ∧ '#' ∉ (splitUser s).2 := by
  have hhost : '#' ∉ (s.reverse.takeWhile (· ≠ '@')).reverse := by
    rw [List.mem_reverse]
    exact hash_notMem_takeWhile _ (mt List.mem_reverse.mp h)
  unfold splitUser
  dsimp only
  split
  · exact ⟨nofun, h⟩
  · refine ⟨fun user huser => ?_, hhost⟩
    cases huser
    exact hash_notMem_take _ h

theorem hash_notMem_splitSocket (h : '#' ∉ s) :
    '#' ∉ (splitSocket s).1 ∧ '#' ∉ (splitSocket s).2.getD [] := by
  unfold splitSocket
  split
  next bracketed rest hsplit =>
  have hparts : '#' ∉ bracketed ∧ '#' ∉ rest := by
    split at hsplit
    · cases hsplit
      have hleft : '#' ∉ s.dropWhile (· ≠ ']') := hash_notMem_dropWhile _ h
      refine ⟨?_, hash_notMem_drop 1 hleft⟩
      rw [List.mem_append, not_or]
      exact ⟨hash_notMem_takeWhile _ h, hash_notMem_take 1 hleft⟩
    · cases hsplit
      exact ⟨List.not_mem_nil, h⟩
  have hname : '#' ∉ bracketed ++ rest.takeWhile (· ≠ ':') := by
    rw [List.mem_append, not_or]
    exact ⟨hparts.1, hash_notMem_takeWhile _ hparts.2⟩
  have hleft : '#' ∉ rest.dropWhile (· ≠ ':') := hash_notMem_dropWhile _ hparts.2
  dsimp only
  split
  next socket hrest =>
    rw [hrest] at hleft
    exact ⟨hname, List.not_mem_of_not_mem_cons hleft⟩
  · exact ⟨hname, List.not_mem_nil⟩

theorem hash_notMem_socket {socket : String} (hsocket : socket? scheme s = some socket) :
    '#' ∉ socket.toList := by
  unfold socket? at hsocket
  dsimp only at hsocket
  split at hsocket
  · split at hsocket
    · cases hsocket
      decide
    · split at hsocket
      · cases hsocket
      · split at hsocket
        · cases hsocket
          decide
        · cases hsocket
          rw [String.toList_append, List.mem_append, not_or]
          exact ⟨by decide, hash_notMem_repr _⟩
  · cases hsocket

theorem hash_notMem_userInfo (h : '#' ∉ s) : '#' ∉ (userInfo s).toList := by
  unfold userInfo
  extract_lets name password
  have hname : '#' ∉ name.toList := by
    unfold name
    rw [String.toList_ofList]
    exact hash_notMem_encode _ (hash_notMem_takeWhile _ h)
  have hpassword : '#' ∉ password.toList := by
    unfold password
    rw [String.toList_ofList]
    exact hash_notMem_encode _ (hash_notMem_drop 1 (hash_notMem_dropWhile _ h))
  split
  · decide
  · split <;> simp [hname, hpassword]

/-- What an authority is made of, and what is left. -/
theorem takeAuthority?_eq_some {authority : String} {more : Bool} {rest : List Char}
    (htake : takeAuthority? scheme s more = some (authority, rest)) :
    ∃ front digits host socket,
      front = s.takeWhile (fun c => !isSlash (isSpecial scheme) c) ∧
      digits = ((splitSocket (splitUser front).2).2.getD []).takeWhile (· ≠ '\\') ∧
      host? (isSpecial scheme) (splitSocket (splitUser front).2).1 = some host ∧
      socket? scheme digits = some socket ∧
      authority = ((splitUser front).1.map userInfo).getD "" ++ host ++ socket ∧
      rest = ((splitSocket (splitUser front).2).2.getD []).drop digits.length
        ++ s.drop front.length := by
  unfold takeAuthority? at htake
  extract_lets special front after at htake
  split at htake
  next user hostAndSocket huser =>
  extract_lets info at htake
  split at htake
  next hostText socketText hsocket =>
  extract_lets digits rest' finish check at htake
  have hfinish : finish () = some (authority, rest) := by
    split at htake
    · split at htake
      · cases htake
      · unfold check at htake
        split at htake
        · cases htake
        · exact htake
    · exact htake
  unfold finish at hfinish
  simp only [Option.bind_eq_bind, Option.bind_eq_some_iff, Option.pure_def, Option.some.injEq,
    Prod.mk.injEq] at hfinish
  obtain ⟨host, hhost, socket, hnumber, hauthority, hrest⟩ := hfinish
  refine ⟨front, digits, host, socket, rfl, ?_, ?_, hnumber, ?_, ?_⟩
  · rw [huser, hsocket]
  · rw [huser, hsocket]
    exact hhost
  · rw [huser]
    exact hauthority.symm
  · rw [huser, hsocket]
    exact hrest.symm

theorem hash_notMem_takeAuthority {authority : String} {more : Bool} {rest : List Char}
    (h : '#' ∉ s) (htake : takeAuthority? scheme s more = some (authority, rest)) :
    '#' ∉ authority.toList ∧ '#' ∉ rest := by
  obtain ⟨front, digits, host, socket, hfront, -, hhost, hsocket, hauthority, hrest⟩ :=
    takeAuthority?_eq_some htake
  have hinside : '#' ∉ front := hfront ▸ hash_notMem_takeWhile _ h
  obtain ⟨huser, hbehind⟩ := hash_notMem_splitUser hinside
  obtain ⟨hname, hnumber⟩ := hash_notMem_splitSocket hbehind
  have hinfo : '#' ∉ (((splitUser front).1.map userInfo).getD "").toList := by
    cases hcase : (splitUser front).1 with
    | none => exact List.not_mem_nil
    | some user => exact hash_notMem_userInfo (huser user hcase)
  subst hauthority hrest
  simp only [String.toList_append, List.mem_append, not_or]
  exact ⟨⟨⟨hinfo, hash_notMem_host hname hhost⟩, hash_notMem_socket hsocket⟩,
    hash_notMem_drop _ hnumber, hash_notMem_drop _ h⟩

/-! ## 4. URLs -/

/-- The characters of a path. -/
def UriPath.chars : UriPath → List Char
  | .undivided text => text.toList
  | .divided text => text.toList

/-- **No part of the URL holds a hash.** -/
structure HashFree (u : Uri) : Prop where
  scheme : '#' ∉ u.scheme.toList
  authority : '#' ∉ (u.authority.getD "").toList
  path : '#' ∉ UriPath.chars u.path
  query : '#' ∉ (u.query.getD "").toList

theorem hash_notMem_grow (h : '#' ∉ path) (hs : '#' ∉ s) :
    '#' ∉ UriPath.chars (grow scheme path s) := by
  unfold grow UriPath.chars
  dsimp only
  rw [String.toList_ofList]
  exact hash_notMem_growPath _ _ h hs

section Reading

variable (hscheme : '#' ∉ scheme.toList) (hs : '#' ∉ s) (hquery : '#' ∉ (query.getD "").toList)
include hs hquery

theorem HashFree.of_file {authority : String} (hauthority : '#' ∉ authority.toList)
    (hpath : '#' ∉ path) : HashFree (file authority path s query) :=
  have hfile : '#' ∉ "file".toList := by decide
  ⟨hfile, hauthority, hash_notMem_grow hpath hs, hquery⟩

theorem HashFree.of_fileAfterSlashes? (h : fileAfterSlashes? s query = some u) : HashFree u := by
  unfold fileAfterSlashes? at h
  extract_lets hostText rest rest' at h
  have hrest : '#' ∉ rest := hash_notMem_drop _ hs
  split at h
  · cases h
    exact .of_file hs hquery List.not_mem_nil (by decide)
  · simp only [Option.bind_eq_bind, Option.bind_eq_some_iff] at h
    obtain ⟨host, hhost, h⟩ := h
    have hname : '#' ∉ host.toList := by
      unfold fileHost? at hhost
      split at hhost
      · cases hhost
        exact List.not_mem_nil
      · obtain ⟨name, hname, rfl⟩ := Option.map_eq_some_iff.mp hhost
        split
        · exact List.not_mem_nil
        · exact hash_notMem_host (hash_notMem_takeWhile _ hs) hname
    split at h
    · cases h
      exact .of_file hrest hquery List.not_mem_nil List.not_mem_nil
    · cases h
      refine .of_file (hash_notMem_drop 1 hrest) hquery ?_ (by decide)
      split
      · exact List.not_mem_nil
      · exact hname

theorem HashFree.of_file? (h : file? none s query = some u) : HashFree u := by
  unfold file? at h
  split at h
  · cases h
    exact .of_file hs hquery List.not_mem_nil (by decide)
  next c rest =>
    split at h
    · split at h
      · exact .of_fileAfterSlashes? (hash_notMem_drop 1 (List.not_mem_of_not_mem_cons hs)) hquery h
      · cases h
        exact .of_file hs hquery List.not_mem_nil List.not_mem_nil
    · cases h
      exact .of_file hs hquery List.not_mem_nil (by decide)

include hscheme

theorem HashFree.of_afterSlashes? (h : afterSlashes? scheme s query = some u) : HashFree u := by
  unfold afterSlashes? at h
  simp only [Option.bind_eq_bind, Option.bind_eq_some_iff] at h
  obtain ⟨⟨authority, rest⟩, htake, h⟩ := h
  obtain ⟨hauthority, hrest⟩ := hash_notMem_takeAuthority hs htake
  cases h
  refine ⟨hscheme, hauthority, ?_, hquery⟩
  dsimp only
  split
  · exact hash_notMem_grow (by decide) (hash_notMem_drop 1 hrest)
  · split
    · exact hash_notMem_grow List.not_mem_nil hrest
    · exact hash_notMem_grow (by decide) hrest

theorem HashFree.of_absolute? (h : absolute? none scheme s query = some u) : HashFree u := by
  unfold absolute? at h
  split at h
  · exact .of_file? hs hquery h
  · split at h
    · exact .of_afterSlashes? hscheme (hash_notMem_dropWhile _ hs) hquery h
    · split at h
      next rest =>
        exact .of_afterSlashes? hscheme
          (List.not_mem_of_not_mem_cons (List.not_mem_of_not_mem_cons hs)) hquery h
      next rest _ =>
        cases h
        exact ⟨hscheme, List.not_mem_nil, hash_notMem_grow (by decide)
          (List.not_mem_of_not_mem_cons hs), hquery⟩
      · cases h
        refine ⟨hscheme, List.not_mem_nil, ?_, hquery⟩
        unfold UriPath.chars
        dsimp only
        rw [String.toList_ofList]
        exact hash_notMem_encode _ hs

end Reading

theorem hash_notMem_takeScheme {rest : List Char} (hs : '#' ∉ s)
    (h : takeScheme? s = some (scheme, rest)) : '#' ∉ scheme.toList ∧ '#' ∉ rest := by
  unfold takeScheme? at h
  extract_lets isSchemeChar at h
  split at h
  next first more behind hfront hback =>
    have hname : '#' ∉ first :: more := hfront ▸ hash_notMem_takeWhile _ hs
    have hbehind : '#' ∉ ':' :: behind := hback ▸ hash_notMem_dropWhile _ hs
    split at h
    · cases h
      rw [String.toList_ofList]
      exact ⟨hash_notMem_lower hname, List.not_mem_of_not_mem_cons hbehind⟩
    · cases h
  · cases h

/-! ## 5. Texts -/

/-- What is read of a text: no blanks at its ends and line ends within, up to the first hash. -/
def front (text : String) : List Char := (clean text.toList).takeWhile (· ≠ '#')

theorem hash_notMem_front (text : String) : '#' ∉ front text := hash_notMem_untilHash _

theorem HashFree.of_parse? {text : String} (h : parse? text = some u) : HashFree u := by
  unfold parse? read? at h
  extract_lets cleaned s start queryOf at h
  have hs : '#' ∉ s := hash_notMem_front text
  have hquery : ∀ scheme, '#' ∉ ((queryOf scheme).getD "").toList := by
    intro scheme
    unfold queryOf
    have hrest : '#' ∉ s.dropWhile (· ≠ '?') := hash_notMem_dropWhile _ hs
    split
    next rest heq =>
      rw [heq] at hrest
      rw [Option.getD_some, String.toList_ofList]
      exact hash_notMem_encode _ (List.not_mem_of_not_mem_cons hrest)
    · exact List.not_mem_nil
  split at h
  next scheme rest htake =>
    obtain ⟨hscheme, hrest⟩ := hash_notMem_takeScheme (hash_notMem_takeWhile _ hs) htake
    exact .of_absolute? hscheme hrest (hquery scheme) h
  · cases h

theorem hash_notMem_pathText {authority : Option String} {path : UriPath}
    (h : '#' ∉ UriPath.chars path) : '#' ∉ (pathText authority path).toList := by
  unfold pathText
  cases path with
  | undivided text => exact h
  | divided text =>
    dsimp only
    split
    · rw [String.toList_append, List.mem_append, not_or]
      exact ⟨by decide, h⟩
    · exact h

/-- The text of such a URL holds none. -/
theorem HashFree.text (h : HashFree u) : '#' ∉ u.text.toList := by
  unfold Uri.text
  extract_lets authority path path' query
  have hauthority : '#' ∉ authority.toList := by
    have hpart := h.authority
    unfold authority
    cases hcase : u.authority with
    | none => exact List.not_mem_nil
    | some a =>
      rw [hcase] at hpart
      rw [String.toList_append, List.mem_append, not_or]
      exact ⟨by decide, hpart⟩
  have hpath : '#' ∉ path.toList := hash_notMem_pathText h.path
  have hpath' : '#' ∉ path'.toList := by
    unfold path'
    split
    · rw [String.toList_ofList, List.mem_reverse]
      exact hash_notMem_dropWhile _ (mt List.mem_reverse.mp hpath)
    · exact hpath
  have hquery : '#' ∉ query.toList := by
    have hpart := h.query
    unfold query
    cases hcase : u.query with
    | none => exact List.not_mem_nil
    | some q =>
      rw [hcase] at hpart
      rw [String.toList_append, List.mem_append, not_or]
      exact ⟨by decide, hpart⟩
  simp only [String.toList_append, List.mem_append, not_or]
  exact ⟨⟨⟨⟨h.scheme, by decide⟩, hauthority⟩, hpath'⟩, hquery⟩

/-! ## 6. Fragments -/

variable {base text text' : String}

/-- Whether a character is not dropped within. -/
def isInner (c : Char) : Bool := !(c = '\t' || c = '\n' || c = '\r')

theorem clean_eq (s : List Char) :
    clean s = (((s.dropWhile isBlank).reverse.dropWhile isBlank).reverse).filter isInner := rfl

/-- A text is read as what stands before its first hash. -/
theorem parse?_congr (h : front text = front text') : parse? text = parse? text' := by
  unfold parse? read?
  unfold front at h
  dsimp only
  rw [h]

theorem hash_notMem_kept (hbase : '#' ∉ base.toList) :
    '#' ∉ (base.toList.dropWhile isBlank).filter isInner := fun hmem =>
  hash_notMem_dropWhile _ hbase (List.mem_filter.mp hmem).1

/-- With a fragment behind it a text is read up to the hash, with the blanks that stand before. -/
theorem front_fragment (hbase : '#' ∉ base.toList) (f : String) :
    front (base ++ "#" ++ f) = (base.toList.dropWhile isBlank).filter isInner := by
  have hblank : isBlank '#' = false := by decide
  have hinner : isInner '#' = true := by decide
  unfold front
  rw [clean_eq, toList_fragment, dropWhile_append_cons _ _ hblank, List.reverse_append,
    List.reverse_cons, List.append_assoc, List.singleton_append, dropWhile_append_cons _ _ hblank,
    List.reverse_append, List.reverse_cons, List.reverse_reverse, List.append_assoc,
    List.singleton_append, List.filter_append, List.filter_cons_of_pos hinner]
  exact takeWhile_append_cons _ (all_ne_hash (hash_notMem_kept hbase)) (by decide)

theorem front_hash (hbase : '#' ∉ base.toList) :
    front (base ++ "#") = (base.toList.dropWhile isBlank).filter isInner := by
  simpa using front_fragment hbase ""

/-- Nothing is dropped at the end of a text that does not end with a blank. -/
theorem reverse_dropWhile_isBlank (h : s.getLast?.any isBlank = false) :
    ((s.dropWhile isBlank).reverse.dropWhile isBlank).reverse = s.dropWhile isBlank := by
  rcases List.eq_nil_or_concat s with rfl | ⟨start, last, rfl⟩
  · rfl
  · have hlast : isBlank last = false := by simpa using h
    rw [List.concat_eq_append, dropWhile_append_cons _ _ hlast, List.reverse_append,
      List.reverse_singleton, List.singleton_append, List.dropWhile_cons_of_neg (by simp [hlast]),
      List.reverse_cons, List.reverse_reverse]

theorem front_hash_of_endsBlank (hbase : '#' ∉ base.toList) (hend : endsBlank base = false) :
    front (base ++ "#") = front base := by
  rw [front_hash hbase]
  unfold front
  rw [clean_eq, reverse_dropWhile_isBlank hend]
  exact (List.takeWhile_eq_self_iff.mpr (all_ne_hash (hash_notMem_kept hbase))).symm

/-- **The reader is lawful**: of a text it reads what stands before the hash, and none of its URLs
    has a fragment. -/
theorem reader_lawful : reader.Lawful where
  hash_notMem_text h := (HashFree.of_parse? h).text
  bare?_fragment hbase f :=
    congrArg (Option.map id) (parse?_congr ((front_fragment hbase f).trans (front_hash hbase).symm))
  bare?_hash hbase hend :=
    congrArg (Option.map id) (parse?_congr (front_hash_of_endsBlank hbase hend))
  join?_dropFragment _ _ := rfl

end TaggedSchema.Uri
