import TaggedSchema.Pointer
import TaggedSchema.Proofs.Fallible

/-!
# Pointers and their text

`Pointer.text` writes every segment after a slash, escaped; `Pointer.parse` splits at the slashes
and undoes the escapes. This file shows that each is the inverse of the other:

* a segment is what its escaped form is read as, whatever is in it, and a part between slashes is
  the escaped form of what it is read as (`unescape?_eq_some_iff`): `~01` is the segment `~1`, and
  no second part is read as that segment;
* a text between slashes is readable iff all its tildes are paired, and pairs never reach over a
  slash (`isSome_unescape?_iff`, `tildesPaired_intercalate`): it does not matter whether the
  escapes are looked at before or after the split;
* so a text is read as a pointer iff it is that pointer's text (`parse_eq_ok_iff`), and every other
  text is refused for the one of the two reasons that applies (`parse_eq_error_iff`).

The values that pointers and locations are stored as inherit the law.
-/

namespace TaggedSchema

namespace Pointer

/-! ## 1. One segment -/

/-- Escaping is two replacements, tildes first: in the other order the tilde that stands for a
    slash would be escaped again. -/
theorem escape_eq_replacements (segment : List Char) :
    escape segment =
      (segment.flatMap fun c => if c = '~' then ['~', '0'] else [c]).flatMap
        fun c => if c = '/' then ['~', '1'] else [c] := by
  induction segment with
  | nil => rfl
  | cons c rest ih =>
    rw [List.flatMap_cons, List.flatMap_append, ← ih]
    by_cases htilde : c = '~'
    · subst htilde
      rfl
    · by_cases hslash : c = '/' <;> simp [escape, escapeChar, htilde, hslash]

/-- No escaped form holds a slash. -/
theorem slash_not_mem_escape (segment : List Char) : '/' ∉ escape segment := by
  intro hmem
  obtain ⟨c, -, hc⟩ := List.mem_flatMap.mp hmem
  unfold escapeChar at hc
  split at hc
  · simp at hc
  · split at hc
    · simp at hc
    · next hslash => exact hslash (List.mem_singleton.mp hc).symm

/-- A segment can be read back. -/
theorem unescape?_escape (segment : List Char) : unescape? (escape segment) = some segment := by
  induction segment with
  | nil => rfl
  | cons c rest ih =>
    rw [escape, List.flatMap_cons, ← escape, escapeChar]
    split
    · next htilde => simp [unescape?, ih, htilde]
    · next htilde =>
      split
      · next hslash => simp [unescape?, ih, hslash]
      · simp [unescape?, ih, htilde]

/-- **A part between slashes is the escaped form of what it is read as.** -/
theorem escape_of_unescape? {raw segment : List Char} (hslash : '/' ∉ raw)
    (h : unescape? raw = some segment) : escape segment = raw := by
  fun_induction unescape? raw generalizing segment with
  | case1 => cases h; rfl
  | case2 rest ih =>
    obtain ⟨tail, htail, rfl⟩ := Option.map_eq_some_iff.mp h
    have hrest : '/' ∉ rest := fun hmem => hslash (by simp [hmem])
    rw [escape, List.flatMap_cons, ← escape, ih hrest htail]
    rfl
  | case3 rest ih =>
    obtain ⟨tail, htail, rfl⟩ := Option.map_eq_some_iff.mp h
    have hrest : '/' ∉ rest := fun hmem => hslash (by simp [hmem])
    rw [escape, List.flatMap_cons, ← escape, ih hrest htail]
    rfl
  | case4 => cases h
  | case5 c rest _ _ htilde ih =>
    obtain ⟨tail, htail, rfl⟩ := Option.map_eq_some_iff.mp h
    have hrest : '/' ∉ rest := fun hmem => hslash (by simp [hmem])
    have hc : c ≠ '/' := fun heq => hslash (by simp [heq])
    rw [escape, List.flatMap_cons, ← escape, ih hrest htail]
    simp [escapeChar, htilde, hc]

theorem unescape?_eq_some_iff {raw segment : List Char} (hslash : '/' ∉ raw) :
    unescape? raw = some segment ↔ raw = escape segment :=
  ⟨fun h => (escape_of_unescape? hslash h).symm, fun h => h ▸ unescape?_escape segment⟩

/-! ## 2. Tildes -/

/-- Every tilde is followed by `0` or by `1`. -/
def TildesPaired (s : List Char) : Prop :=
  ∀ before after, s = before ++ '~' :: after → after.head? = some '0' ∨ after.head? = some '1'

@[simp] theorem tildesPaired_nil : TildesPaired [] := by
  intro before after h
  simp at h

theorem tildesPaired_cons {c : Char} {rest : List Char} :
    TildesPaired (c :: rest) ↔
      (c = '~' → rest.head? = some '0' ∨ rest.head? = some '1') ∧ TildesPaired rest := by
  constructor
  · intro h
    refine ⟨fun hc => h [] rest (by rw [hc]; rfl), fun before after hrest => ?_⟩
    exact h (c :: before) after (by rw [hrest]; rfl)
  · rintro ⟨hhead, hrest⟩ before after h
    cases before with
    | nil =>
      obtain ⟨hc, rfl⟩ := List.cons.inj h
      exact hhead hc
    | cons b before => exact hrest before after (List.cons.inj h).2

/-- No pair reaches over a slash. -/
theorem tildesPaired_append_slash {s t : List Char} :
    TildesPaired (s ++ '/' :: t) ↔ TildesPaired s ∧ TildesPaired t := by
  induction s with
  | nil => simp [tildesPaired_cons]
  | cons c rest ih =>
    rw [List.cons_append, tildesPaired_cons, tildesPaired_cons, ih, and_assoc]
    -- where the slash follows at once, neither side has a digit there
    cases rest with
    | nil => simp
    | cons d rest => rfl

/-- The tildes of a text are paired iff they are in each of the parts that slashes divide. -/
theorem tildesPaired_intercalate (parts : List (List Char)) :
    TildesPaired (['/'].intercalate parts) ↔ ∀ part ∈ parts, TildesPaired part := by
  induction parts with
  | nil => simp
  | cons part rest ih =>
    cases rest with
    | nil => simp
    | cons next rest =>
      rw [List.intercalate_cons_of_ne_nil (List.cons_ne_nil _ _), List.append_assoc,
        List.singleton_append, tildesPaired_append_slash, ih, List.forall_mem_cons (a := part)]

/-- **What can be read is what has its tildes paired.** -/
theorem isSome_unescape?_iff (raw : List Char) : (unescape? raw).isSome ↔ TildesPaired raw := by
  fun_induction unescape? raw with
  | case1 => simp
  | case2 rest ih => simp [tildesPaired_cons, ih]
  | case3 rest ih => simp [tildesPaired_cons, ih]
  | case4 rest hzero hone =>
    -- a digit after the tilde would have been one of the two cases above
    have hunpaired : ¬(rest.head? = some '0' ∨ rest.head? = some '1') := by
      cases rest with
      | nil => simp
      | cons d rest =>
        rintro (h | h) <;> cases h
        · exact hzero rest rfl rfl
        · exact hone rest rfl rfl
    simp [tildesPaired_cons, hunpaired]
  | case5 c rest _ _ htilde ih => simp [tildesPaired_cons, ih, htilde]

/-! ## 3. Splitting at the slashes -/

theorem splitSlashes_eq_splitOn (s : List Char) : splitSlashes s = s.splitOn '/' := by
  induction s with
  | nil => rfl
  | cons c rest ih =>
    rw [List.splitOn_eq_splitOnP, List.splitOnP_cons_eq_if_modifyHead,
      ← List.splitOn_eq_splitOnP, ← ih, splitSlashes]
    simp only [beq_iff_eq]
    split
    · rfl
    · cases h : splitSlashes rest with
      | nil => exact absurd (ih.symm.trans h) (List.splitOn_ne_nil _ _)
      | cons first more => rfl

theorem slash_not_mem_of_mem_splitSlashes {s part : List Char} (h : part ∈ splitSlashes s) :
    '/' ∉ part := by
  induction s generalizing part with
  | nil =>
    rw [splitSlashes, List.mem_singleton] at h
    simp [h]
  | cons c rest ih =>
    rw [splitSlashes] at h
    split at h
    · obtain rfl | h := List.mem_cons.mp h
      · simp
      · exact ih h
    · next hc =>
      split at h
      · next first more hsplit =>
        rw [hsplit] at ih
        obtain rfl | h := List.mem_cons.mp h
        · simpa [Ne.symm hc] using ih List.mem_cons_self
        · exact ih (List.mem_cons_of_mem _ h)
      · rw [List.mem_singleton] at h
        simp [h, Ne.symm hc]

/-- The parts of a text are the only slash-free ones that slashes join to it. -/
theorem splitSlashes_eq_iff {s : List Char} {parts : List (List Char)}
    (hslash : ∀ part ∈ parts, '/' ∉ part) (hne : parts ≠ []) :
    splitSlashes s = parts ↔ s = ['/'].intercalate parts := by
  rw [splitSlashes_eq_splitOn]
  constructor
  · rintro rfl
    exact (List.intercalate_splitOn '/').symm
  · rintro rfl
    exact List.splitOn_intercalate '/' hslash hne

/-- Segments are read from parts iff the parts are their escaped forms. -/
theorem map_unescape?_eq_iff {parts : List (List Char)} {segments : List String}
    (hslash : ∀ part ∈ parts, '/' ∉ part) :
    (parts.map fun raw => (unescape? raw).map String.ofList) = segments.map some ↔
      parts = segments.map fun segment => escape segment.toList := by
  induction parts generalizing segments with
  | nil => cases segments <;> simp
  | cons raw parts ih =>
    obtain ⟨hraw, hparts⟩ := List.forall_mem_cons.mp hslash
    cases segments with
    | nil => simp
    | cons segment segments =>
      have hread : (unescape? raw).map String.ofList = some segment ↔
          raw = escape segment.toList := by
        rw [← unescape?_eq_some_iff hraw]
        constructor
        · intro h
          obtain ⟨found, hfound, rfl⟩ := Option.map_eq_some_iff.mp h
          rw [hfound, String.toList_ofList]
        · intro h
          rw [h, Option.map_some, String.ofList_toList]
      rw [List.map_cons, List.map_cons, List.cons.injEq, hread, ih hparts, List.map_cons,
        List.cons.injEq]

/-! ## 4. The text of a pointer -/

theorem toList_text (p : Pointer) :
    p.text.toList = p.segments.flatMap fun segment => '/' :: escape segment.toList :=
  String.toList_ofList

/-- Writing every part after a slash is a slash before all of them and one between any two. -/
theorem flatMap_slash {parts : List (List Char)} (h : parts ≠ []) :
    (parts.flatMap fun part => '/' :: part) = '/' :: ['/'].intercalate parts := by
  induction parts with
  | nil => exact absurd rfl h
  | cons part rest ih =>
    cases rest with
    | nil => simp
    | cons next rest =>
      rw [List.flatMap_cons, ih (List.cons_ne_nil _ _),
        List.intercalate_cons_of_ne_nil (List.cons_ne_nil _ _), List.append_assoc]
      rfl

/-- What stands after the first slash are the escaped segments, joined by slashes. -/
theorem toList_text_of_ne_nil {segments : List String} (h : segments ≠ []) :
    (Pointer.mk segments).text.toList =
      '/' :: ['/'].intercalate (segments.map fun segment => escape segment.toList) := by
  rw [toList_text, ← flatMap_slash (by simpa using h), List.flatMap_map]

/-- The segments read after a first slash are those whose pointer has that text. -/
theorem segmentsOf?_eq_some_iff {rest : List Char} {segments : List String} :
    segmentsOf? rest = some segments ↔ (Pointer.mk segments).text.toList = '/' :: rest := by
  have hescaped : ∀ part ∈ segments.map (fun segment => escape segment.toList), '/' ∉ part := by
    intro part hpart
    obtain ⟨segment, -, rfl⟩ := List.mem_map.mp hpart
    exact slash_not_mem_escape _
  rw [segmentsOf?, mapM_eq_some,
    map_unescape?_eq_iff fun part hpart => slash_not_mem_of_mem_splitSlashes hpart]
  by_cases hne : segments = []
  · subst hne
    have hsplit : splitSlashes rest ≠ [] := splitSlashes_eq_splitOn rest ▸ List.splitOn_ne_nil _ _
    simp [hsplit, toList_text]
  · rw [splitSlashes_eq_iff hescaped (by simpa using hne), toList_text_of_ne_nil hne,
      List.cons.injEq, and_iff_right rfl]
    exact eq_comm

/-- Nothing can be read after a first slash iff a tilde there is unpaired. -/
theorem segmentsOf?_eq_none_iff {rest : List Char} :
    segmentsOf? rest = none ↔ ¬TildesPaired rest := by
  have hparts : ['/'].intercalate (splitSlashes rest) = rest := by
    rw [splitSlashes_eq_splitOn, List.intercalate_splitOn]
  have hall : TildesPaired rest ↔ ∀ part ∈ splitSlashes rest, (unescape? part).isSome := by
    simp only [isSome_unescape?_iff, ← tildesPaired_intercalate, hparts]
  rw [segmentsOf?, mapM_eq_none_iff, hall]
  simp

/-- **A text is read as a pointer iff it is the text of that pointer.** -/
theorem parse_eq_ok_iff {text : String} {p : Pointer} : parse text = .ok p ↔ p.text = text := by
  obtain ⟨segments⟩ := p
  rw [← String.toList_inj, parse]
  cases htext : text.toList with
  | nil => cases segments <;> simp [toList_text, root]
  | cons c rest =>
    by_cases hc : c = '/'
    · subst hc
      rw [← segmentsOf?_eq_some_iff]
      cases hread : segmentsOf? rest <;> simp [hread]
    · cases segments <;> simp [toList_text, hc, Ne.symm hc]

/-- **Every other text is refused for what is wrong with it**: it lacks the first slash, or one of
    its tildes is unpaired. -/
theorem parse_eq_error_iff {text : String} {e : PointerError} :
    parse text = .error e ↔
      (e = .missingLeadingSlash text ∧ text ≠ "" ∧ text.toList.head? ≠ some '/') ∨
        (e = .invalidEscape text ∧ text.toList.head? = some '/' ∧ ¬TildesPaired text.toList) := by
  rw [parse, ne_eq, ← String.toList_eq_nil_iff]
  cases htext : text.toList with
  | nil => simp
  | cons c rest =>
    by_cases hc : c = '/'
    · subst hc
      have hpaired : TildesPaired ('/' :: rest) ↔ TildesPaired rest := by simp [tildesPaired_cons]
      have hnone := @segmentsOf?_eq_none_iff rest
      cases hread : segmentsOf? rest with
      | none => simp [hread, hpaired, hnone.mp hread, eq_comm]
      | some segments =>
        rw [hread, eq_comm] at hnone
        simp [hread, hpaired, ← hnone]
    · simp [hc, eq_comm]

/-- The texts that are read are the empty one, and those with a first slash and paired tildes. -/
theorem exists_parse_eq_ok_iff {text : String} :
    (∃ p, parse text = .ok p) ↔
      text = "" ∨ text.toList.head? = some '/' ∧ TildesPaired text.toList := by
  have hrefused := fun e => @parse_eq_error_iff text e
  cases hparse : parse text with
  | ok p =>
    simp only [hparse, reduceCtorEq, false_iff, not_or, not_and] at hrefused
    have hempty := (hrefused (.missingLeadingSlash text)).1 rfl
    have hpaired := (hrefused (.invalidEscape text)).2 rfl
    simp only [Except.ok.injEq, exists_eq', true_iff]
    by_cases htext : text = ""
    · exact .inl htext
    · have hhead := Decidable.not_not.mp (hempty htext)
      exact .inr ⟨hhead, Classical.not_not.mp (hpaired hhead)⟩
  | error e =>
    simp only [reduceCtorEq, exists_false, false_iff, not_or, not_and]
    obtain ⟨-, hne, hhead⟩ | ⟨-, hhead, hunpaired⟩ := (hrefused e).mp hparse
    · exact ⟨hne, fun h => absurd h hhead⟩
    · refine ⟨fun h => ?_, fun _ => hunpaired⟩
      simp [h] at hhead

/-! ## 5. The stored form -/

/-- A stored value is read as a pointer iff it is what that pointer is stored as. -/
theorem ofJson?_eq_some_iff {value : Json} {p : Pointer} :
    ofJson? value = some p ↔ value = p.toJson := by
  cases value with
  | string text =>
    rw [ofJson?, toJson, Json.string.injEq, eq_comm (a := text), ← parse_eq_ok_iff]
    cases parse text <;> simp [Except.toOption]
  | _ => simp [ofJson?, toJson]

end Pointer

namespace Location

/-- The fields of the record that a location is stored as. -/
theorem fields?_toJson (l : Location) :
    l.toJson.fields? ["document", "pointer"] = some [.string l.document, l.pointer.toJson] := by
  have hafter : ¬"pointer" < "document" := by decide
  simp [toJson, Json.ofMembers, Json.insert, Json.fields?, List.lookup_cons, hafter]

/-- A stored value is read as a location iff it has the fields of that location's record. -/
theorem ofJson?_eq_some_iff {value : Json} {l : Location} :
    ofJson? value = some l ↔
      value.fields? ["document", "pointer"] = l.toJson.fields? ["document", "pointer"] := by
  obtain ⟨name, p⟩ := l
  rw [fields?_toJson, ofJson?]
  split
  · next document pointer hfields =>
    cases document with
    | string text =>
      rw [hfields, Option.some.injEq, List.cons.injEq, List.cons.injEq, Json.string.injEq,
        ← Pointer.ofJson?_eq_some_iff]
      cases hpointer : Pointer.ofJson? pointer <;> simp [Json.string?]
    | _ => simp [hfields, Json.string?]
  · next hfields =>
    simp only [reduceCtorEq, false_iff]
    exact hfields _ _

end Location

/-- **The text of a pointer and its parser are inverse to each other**, whatever the segments hold:
    exactly the texts that are empty, or start with a slash and have every tilde followed by `0` or
    `1`, are read; every other one is refused, for the slash it lacks or for its escape; a pointer
    is what its text is read as, and a text is the text of what it is read as. The stored forms of
    pointers and of locations are read back the same way. -/
theorem Pointer.parse_inverts_text :
    (∀ text, (∃ p, parse text = .ok p) ↔
      text = "" ∨ text.toList.head? = some '/' ∧ TildesPaired text.toList) ∧
    (∀ text e, parse text = .error e ↔
      (e = .missingLeadingSlash text ∧ text ≠ "" ∧ text.toList.head? ≠ some '/') ∨
        (e = .invalidEscape text ∧ text.toList.head? = some '/' ∧ ¬TildesPaired text.toList)) ∧
    (∀ p, parse p.text = .ok p) ∧
    (∀ text p, parse text = .ok p → p.text = text) ∧
    (∀ p, ofJson? p.toJson = some p) ∧
    (∀ value p, ofJson? value = some p → p.toJson = value) ∧
    (∀ l, Location.ofJson? l.toJson = some l) ∧
    (∀ value l, Location.ofJson? value = some l →
      l.toJson.fields? ["document", "pointer"] = value.fields? ["document", "pointer"]) :=
  ⟨fun _ => exists_parse_eq_ok_iff, fun _ _ => parse_eq_error_iff, fun _ => parse_eq_ok_iff.mpr rfl,
    fun _ _ => parse_eq_ok_iff.mp, fun _ => ofJson?_eq_some_iff.mpr rfl,
    fun _ _ h => (ofJson?_eq_some_iff.mp h).symm, fun _ => Location.ofJson?_eq_some_iff.mpr rfl,
    fun _ _ h => (Location.ofJson?_eq_some_iff.mp h).symm⟩

end TaggedSchema
