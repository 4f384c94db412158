import TaggedSchema.Store
import TaggedSchema.Proofs.UriText

/-!
# References and fragments

A document is named without a fragment, so a reference is resolved without one. The fragment of the
reference itself is cut off first, and never matters (`Store.resolveUri_append_fragment`). The
fragment of the base is cut off by whatever reads the base as a URL or files it, but not where the
last segment of a base is replaced: what is replaced there is what follows the last slash, and that
slash may stand in the fragment (`Store.resolveUri_fragment`).

A second difference is a blank at the end of a base. A URL is read without the blanks at its ends,
and with a hash behind it the blank stands at the end no more (`Uri.Library.Lawful.bare?_hash`).

What is said here holds for every library of URLs that treats fragments as `Uri.Library.Lawful`
says.
-/

namespace TaggedSchema

/-! ## 1. Up to a hash -/

namespace Uri

variable {base : String}

/-- What stands before the first hash is the same whatever is appended behind a hash. -/
theorem withoutFragment_append (text f : String) :
    withoutFragment (text ++ "#" ++ f) = withoutFragment text := by
  unfold withoutFragment
  rw [toList_fragment, List.takeWhile_append]
  split
  next hall =>
    rw [List.takeWhile_cons_of_neg (by decide), List.append_nil]
    have hself : text.toList.takeWhile (· ≠ '#') = text.toList :=
      (List.takeWhile_prefix _).eq_of_length hall
    rw [hself]
  · rfl

theorem withoutFragment_hash (text : String) :
    withoutFragment (text ++ "#") = withoutFragment text := by
  simpa using withoutFragment_append text ""

theorem hash_notMem_withoutFragment (text : String) : '#' ∉ (withoutFragment text).toList := by
  unfold withoutFragment
  rw [String.toList_ofList]
  exact hash_notMem_untilHash _

variable [Library]

/-- A text is filed under the URL it spells without a fragment. -/
theorem normalize_eq (text : String) :
    normalize text = ((bare? text).map Library.text).getD (withoutFragment text) := by
  unfold normalize bare?
  cases Library.parse? text with
  | none => rfl
  | some u => rfl

/-- **The spelling under which a document is filed holds no hash**, whatever the text. -/
theorem hash_notMem_normalize (law : Library.Lawful) (text : String) :
    '#' ∉ (normalize text).toList := by
  unfold normalize
  split
  next u h => exact law.hash_notMem_text h
  · exact hash_notMem_withoutFragment text

/-- The spelling of a text does not depend on its fragment. -/
theorem normalize_fragment (law : Library.Lawful) (hbase : '#' ∉ base.toList) (f : String) :
    normalize (base ++ "#" ++ f) = normalize (base ++ "#") := by
  rw [normalize_eq, normalize_eq, law.bare?_fragment hbase, withoutFragment_append,
    withoutFragment_hash]

theorem normalize_hash (h : bare? (base ++ "#") = bare? base) :
    normalize (base ++ "#") = normalize base := by
  rw [normalize_eq, normalize_eq, h, withoutFragment_hash]

/-- What a reference means depends on the text of the base only up to the fragment. -/
theorem bind_join?_congr (law : Library.Lawful) {base' reference : String}
    (hreference : '#' ∉ reference.toList) (h : bare? base = bare? base') :
    ((Library.parse? base).bind fun u => Library.join? u reference)
      = (Library.parse? base').bind fun u => Library.join? u reference := by
  have hbare : ∀ text : String, ((Library.parse? text).bind fun u => Library.join? u reference)
      = (bare? text).bind fun u => Library.join? u reference := by
    intro text
    unfold bare?
    rw [Option.bind_map]
    exact congrArg _ (funext fun u => (law.join?_dropFragment hreference u).symm)
  rw [hbare, hbare, h]

end Uri

/-! ## 2. Replacing the last segment -/

namespace Store

variable {base base' reference : String}

/-- The last slash of a text with a fragment stands in the fragment, if that has one. -/
theorem directory_fragment (base f : String) :
    directory (base ++ "#" ++ f)
      = if '/' ∈ f.toList then base ++ "#" ++ directory f else directory base := by
  unfold directory
  rw [Uri.toList_fragment, List.reverse_append, List.reverse_cons, List.append_assoc,
    List.singleton_append, List.dropWhile_append]
  by_cases hslash : '/' ∈ f.toList
  · have hsome : (f.toList.reverse.dropWhile (· ≠ '/')).isEmpty = false := by
      rw [List.isEmpty_eq_false_iff, ne_eq, List.dropWhile_eq_nil_iff]
      intro hall
      simpa using hall '/' (List.mem_reverse.mpr hslash)
    rw [if_pos hslash, hsome, if_neg Bool.false_ne_true]
    apply String.toList_injective
    simp [String.toList_append]
  · have hnone : (f.toList.reverse.dropWhile (· ≠ '/')).isEmpty = true := by
      rw [List.isEmpty_iff, List.dropWhile_eq_nil_iff]
      intro c hc
      refine decide_eq_true fun heq => ?_
      rw [heq] at hc
      exact hslash (List.mem_reverse.mp hc)
    rw [if_neg hslash, if_pos hnone, List.dropWhile_cons_of_pos (by decide)]

theorem directory_hash (base : String) : directory (base ++ "#") = directory base := by
  simpa using directory_fragment base ""

theorem hash_notMem_directory (h : '#' ∉ base.toList) : '#' ∉ (directory base).toList := by
  unfold directory
  rw [String.toList_ofList, List.mem_reverse]
  exact Uri.hash_notMem_dropWhile _ (mt List.mem_reverse.mp h)

section Libraries

variable [Uri.Library]

/-- **The last segment of the base is replaced**: the reference names a document, is not a URL of
    its own, and cannot be joined to the base. -/
def Replaces (base reference : String) : Prop :=
  Uri.withoutFragment reference ≠ "" ∧
    ((Uri.Library.parse? base).bind fun u =>
      Uri.Library.join? u (Uri.withoutFragment reference)) = none ∧
    Uri.Library.parse? (Uri.withoutFragment reference) = none

instance (base reference : String) : Decidable (Replaces base reference) :=
  inferInstanceAs (Decidable (_ ∧ _ ∧ _))

theorem resolveUri_of_replaces (h : Replaces base reference) :
    resolveUri base reference = directory base ++ Uri.withoutFragment reference := by
  obtain ⟨hpart, hjoin, hurl⟩ := h
  unfold resolveUri
  dsimp only
  rw [if_neg hpart, hjoin, hurl]

/-- Wherever nothing is replaced, the answer is the spelling of something. -/
theorem exists_resolveUri_eq_normalize (h : ¬ Replaces base reference) :
    ∃ text, resolveUri base reference = Uri.normalize text := by
  unfold resolveUri
  dsimp only
  split
  · exact ⟨base, rfl⟩
  next hpart =>
    split
    next joined _ => exact ⟨Uri.Library.text joined, rfl⟩
    next hjoin =>
      split
      · exact ⟨_, rfl⟩
      next hurl => exact absurd ⟨hpart, hjoin, hurl⟩ h

/-- **The fragment of a reference does not matter**, whatever the base. -/
theorem resolveUri_append_fragment (base reference g : String) :
    resolveUri base (reference ++ "#" ++ g) = resolveUri base reference := by
  unfold resolveUri
  rw [Uri.withoutFragment_append]

/-! ## 3. What is resolved -/

section Lawful

variable (law : Uri.Library.Lawful)

include law

/-- Whether a segment is replaced depends on the base only as far as that is read as a URL. -/
theorem replaces_congr (hbare : Uri.bare? base = Uri.bare? base') :
    Replaces base reference ↔ Replaces base' reference := by
  unfold Replaces
  rw [Uri.bind_join?_congr law (Uri.hash_notMem_withoutFragment reference) hbare]

theorem replaces_fragment (hbase : '#' ∉ base.toList) (f : String) :
    Replaces (base ++ "#" ++ f) reference ↔ Replaces (base ++ "#") reference :=
  replaces_congr law (law.bare?_fragment hbase f)

/-- And so does the answer, as long as no segment is replaced and the base is filed the same. -/
theorem resolveUri_congr (h : ¬ Replaces base reference) (hbare : Uri.bare? base = Uri.bare? base')
    (hfiled : Uri.normalize base = Uri.normalize base') :
    resolveUri base reference = resolveUri base' reference := by
  have hjoined := Uri.bind_join?_congr law (Uri.hash_notMem_withoutFragment reference) hbare
  unfold resolveUri
  dsimp only
  rw [← hjoined, ← hfiled]
  split
  · rfl
  next hpart =>
    split
    · rfl
    next hjoin =>
      split
      · rfl
      next hurl => exact absurd ⟨hpart, hjoin, hurl⟩ h

/-- Without a hash up to the last slash of the base there is none in the answer. -/
theorem hash_notMem_resolveUri (hbase : '#' ∉ (directory base).toList) (reference : String) :
    '#' ∉ (resolveUri base reference).toList := by
  by_cases h : Replaces base reference
  · rw [resolveUri_of_replaces h, String.toList_append, List.mem_append, not_or]
    exact ⟨hbase, Uri.hash_notMem_withoutFragment reference⟩
  · obtain ⟨text, heq⟩ := exists_resolveUri_eq_normalize h
    rw [heq]
    exact Uri.hash_notMem_normalize law text

/-- **The fragment of a base matters** where the last segment is replaced and the last slash stands
    in the fragment, and nowhere else. -/
theorem resolveUri_fragment (hbase : '#' ∉ base.toList) (reference f : String) :
    resolveUri (base ++ "#" ++ f) reference
      = if Replaces (base ++ "#") reference ∧ '/' ∈ f.toList then
          base ++ "#" ++ directory f ++ Uri.withoutFragment reference
        else resolveUri (base ++ "#") reference := by
  by_cases h : Replaces (base ++ "#") reference
  · rw [resolveUri_of_replaces ((replaces_fragment law hbase f).mpr h), resolveUri_of_replaces h,
      directory_fragment, directory_hash]
    split
    next hslash => rw [if_pos ⟨h, hslash⟩]
    next hslash => rw [if_neg fun hboth => hslash hboth.2]
  · rw [if_neg fun hboth => h hboth.1]
    exact resolveUri_congr law (mt (replaces_fragment law hbase f).mp h)
      (law.bare?_fragment hbase f) (Uri.normalize_fragment law hbase f)

/-- With a hash behind it the base means the same, if it is the same URL or none as before. -/
theorem resolveUri_hash (hbare : Uri.bare? (base ++ "#") = Uri.bare? base) (reference : String) :
    resolveUri (base ++ "#") reference = resolveUri base reference := by
  by_cases h : Replaces (base ++ "#") reference
  · rw [resolveUri_of_replaces h, resolveUri_of_replaces ((replaces_congr law hbare).mp h),
      directory_hash]
  · exact resolveUri_congr law h hbare (Uri.normalize_hash hbare)

end Lawful

/-- **What fragments do to the answer.** For every library of URLs that treats fragments as it
    should, every base without a hash and every reference: the fragment of the reference never
    matters, whatever the base; without a fragment the base gives an answer without a hash. With a
    fragment the base gives the answer that an empty one gives, unless the last segment is replaced
    and the fragment has a slash in it: then the answer goes on from that slash, and holds the hash.
    An empty fragment changes nothing unless it keeps a blank from being dropped at the end of a
    URL. -/
theorem fragments_ignored_iff (law : Uri.Library.Lawful) (hbase : '#' ∉ base.toList)
    (reference : String) :
    (∀ other g, resolveUri other (reference ++ "#" ++ g) = resolveUri other reference) ∧
    '#' ∉ (resolveUri base reference).toList ∧
    (∀ f, resolveUri (base ++ "#" ++ f) reference
      = if Replaces (base ++ "#") reference ∧ '/' ∈ f.toList then
          base ++ "#" ++ directory f ++ Uri.withoutFragment reference
        else resolveUri (base ++ "#") reference) ∧
    (∀ f, '#' ∈ (resolveUri (base ++ "#" ++ f) reference).toList ↔
      Replaces (base ++ "#") reference ∧ '/' ∈ f.toList) ∧
    (Uri.bare? (base ++ "#") = Uri.bare? base → ∀ f,
      resolveUri (base ++ "#" ++ f) reference = resolveUri base reference ↔
        ¬ (Replaces base reference ∧ '/' ∈ f.toList)) ∧
    (Uri.endsBlank base = false → Uri.bare? (base ++ "#") = Uri.bare? base) := by
  have hdirectory := hash_notMem_directory hbase
  have hnone : '#' ∉ (resolveUri base reference).toList :=
    hash_notMem_resolveUri law hdirectory reference
  -- An empty fragment has no slash, so what stays of the base is what stays without it.
  have hempty : '#' ∉ (resolveUri (base ++ "#") reference).toList := by
    refine hash_notMem_resolveUri law ?_ reference
    rw [directory_hash]
    exact hdirectory
  have hholds : ∀ f, '#' ∈ (resolveUri (base ++ "#" ++ f) reference).toList ↔
      Replaces (base ++ "#") reference ∧ '/' ∈ f.toList := by
    intro f
    rw [resolveUri_fragment law hbase]
    by_cases h : Replaces (base ++ "#") reference ∧ '/' ∈ f.toList
    · rw [if_pos h]
      simp [String.toList_append, h]
    · rw [if_neg h]
      exact iff_of_false hempty h
  refine ⟨fun other g => resolveUri_append_fragment other reference g, hnone,
    resolveUri_fragment law hbase reference, hholds, fun hbare f => ⟨fun heq => ?_, fun h => ?_⟩,
    law.bare?_hash hbase⟩
  · rw [← heq, hholds, replaces_congr law hbare] at hnone
    exact hnone
  · rw [← replaces_congr law hbare] at h
    rw [resolveUri_fragment law hbase, if_neg h, resolveUri_hash law hbare]

end Libraries

/-- The base is a plain name, and the reference another: only a slash in the fragment matters. -/
theorem fragments_ignored_iff_names :
    Uri.reader.Lawful ∧ '#' ∉ "main.json".toList ∧ Replaces "main.json" "shapes.json" ∧
    ∀ f, resolveUri ("main.json" ++ "#" ++ f) "shapes.json" = resolveUri "main.json" "shapes.json" ↔
      '/' ∉ f.toList := by
  have hbase : '#' ∉ "main.json".toList := by decide
  have hreplaces : Replaces "main.json" "shapes.json" := by decide +kernel
  obtain ⟨-, -, -, -, hsame, hurl⟩ := fragments_ignored_iff Uri.reader_lawful hbase "shapes.json"
  refine ⟨Uri.reader_lawful, hbase, hreplaces, fun f => ?_⟩
  rw [hsame (hurl (by decide)) f, not_and]
  exact ⟨fun h => h hreplaces, fun h _ => h⟩

/-- **A fragment that is kept**: the reference replaces what follows the last slash of the fragment,
    and of the base stays the rest, its hash with it. And a hash that keeps a blank. -/
theorem resolveUri_keeps_fragment :
    resolveUri "main.json#/definitions/A" "shapes.json" = "main.json#/definitions/shapes.json" ∧
    resolveUri "main.json" "shapes.json" = "shapes.json" ∧
    resolveUri "http://a/b #" "" = "http://a/b%20" ∧
    resolveUri "http://a/b " "" = "http://a/b" := by
  decide +kernel

end Store

end TaggedSchema
