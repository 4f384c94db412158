import TaggedSchema.Proofs.LocalReferences
import Mathlib.Logic.Relation

/-!
# What filing a document changes

A store answers an identifier with the document of that key, and else with the document whose alias
it is. This file says what every identifier names after a document has been filed, by what it named
before: the key of the new document names it now, so does its alias, if that named nothing
(`Store.Takes`), and all others name what they did (`Store.document?_register`,
`Store.baseUri_register`).

So an answer that a key gives is for good, and an answer that an alias gives lasts until a document
is filed under the alias itself (`Store.Later.document?`). Filing asks only whether a key is free,
so nothing keeps that from happening.
-/

namespace TaggedSchema.Store

section Filing

variable [Uri.Library] {s s' : Store} {base uri key name : String} {document value : Json}

/-! ## 1. What is written -/

/-- A document is refused exactly where its key is taken, and the error names the key. -/
theorem insert_eq_error_iff {e : StoreError} :
    s.insert base document = .error e ↔
      (s.documents.lookup (Uri.normalize base)).isSome = true ∧
        e = .duplicateDocument (Uri.normalize base) := by
  unfold insert
  dsimp only
  split
  next htaken => exact ⟨fun h => ⟨htaken, (Except.error.inj h).symm⟩, fun h => h.2 ▸ rfl⟩
  next hfree => exact ⟨fun h => (by cases h), fun h => absurd h.1 hfree⟩

/-- Elsewhere it is filed. -/
theorem insert_eq_ok_iff :
    s.insert base document = .ok s' ↔
      s.documents.lookup (Uri.normalize base) = none ∧
        s' = s.register (Uri.normalize base) document := by
  unfold insert
  dsimp only
  split
  next htaken =>
    refine ⟨fun h => (by cases h), fun h => ?_⟩
    rw [h.1] at htaken
    cases htaken
  next hfree =>
    have hnone := Option.not_isSome_iff_eq_none.mp hfree
    exact ⟨fun h => ⟨hnone, (Except.ok.inj h).symm⟩, fun h => h.2 ▸ rfl⟩

/-- The alias that a document gets when it is filed: its own, unless another document has it. -/
def freshAlias? (s : Store) (key : String) (document : Json) : Option String :=
  (ownAlias? key document).filter fun name => (s.aliases.lookup name).isNone

theorem register_eq :
    s.register key document = ⟨s.documents ++ [(key, document)],
      s.aliases ++ ((s.freshAlias? key document).map fun name => (name, key)).toList,
      s.ids ++ ((s.freshAlias? key document).map fun name => (key, name)).toList⟩ := by
  unfold register freshAlias?
  cases ownAlias? key document with
  | none => simp only [Option.filter_none, Option.map_none, Option.toList_none, List.append_nil]
  | some name =>
    dsimp only
    rw [Option.filter_some]
    cases s.aliases.lookup name with
    | none => rfl
    | some holder =>
      rw [Option.isSome_some, Option.isNone_some, if_pos rfl, if_neg Bool.false_ne_true]
      simp only [Option.map_none, Option.toList_none, List.append_nil]

theorem lookup_documents_register :
    (s.register key document).documents.lookup name
      = (s.documents.lookup name).or (if name = key then some document else none) := by
  rw [register_eq]
  exact lookup_append_singleton

theorem lookup_aliases_register :
    (s.register key document).aliases.lookup name = (s.aliases.lookup name).or
      (if s.freshAlias? key document = some name then some key else none) := by
  rw [register_eq]
  cases s.freshAlias? key document with
  | none => rw [Option.map_none, Option.toList_none, List.append_nil, if_neg nofun, Option.or_none]
  | some fresh =>
    rw [Option.map_some, Option.toList_some, lookup_append_singleton]
    simp only [Option.some.injEq, eq_comm]

theorem aliasOf_register :
    (s.register key document).aliasOf name
      = (s.aliasOf name).or (if name = key then s.freshAlias? key document else none) := by
  unfold aliasOf
  rw [register_eq]
  dsimp only
  cases s.freshAlias? key document with
  | none => rw [Option.map_none, Option.toList_none, List.append_nil, ite_self, Option.or_none]
  | some fresh => rw [Option.map_some, Option.toList_some, lookup_append_singleton]

/-! ## 2. What is found -/

/-- **The identifier comes to name the document** that is filed under the key: it is the key, or it
    named nothing and is the alias that the document gets. -/
def Takes (s : Store) (key : String) (document : Json) (uri : String) : Prop :=
  Uri.normalize uri = key ∨
    s.canonicalBase uri = none ∧ s.freshAlias? key document = some (Uri.normalize uri)

instance (s : Store) (key : String) (document : Json) (uri : String) :
    Decidable (s.Takes key document uri) :=
  inferInstanceAs (Decidable (_ ∨ _ ∧ _))

/-- The base under which a document is filed names it. -/
theorem takes_self : s.Takes (Uri.normalize base) document base := Or.inl rfl

/-- What names a document names one that is filed. -/
theorem exists_document (hs : s.Built) (h : s.canonicalBase uri = some key) :
    ∃ value, s.documents.lookup key = some value :=
  Option.isSome_iff_exists.mp (isSome_of_canonicalBase hs h)

/-- An identifier names a document by its key, or else by its alias. -/
theorem canonicalBase_eq :
    s.canonicalBase uri = ((s.documents.lookup (Uri.normalize uri)).map fun _ =>
      Uri.normalize uri).or (s.aliases.lookup (Uri.normalize uri)) := by
  unfold canonicalBase
  dsimp only
  cases s.documents.lookup (Uri.normalize uri) <;> rfl

/-- **The key that an identifier names after filing.** -/
theorem canonicalBase_register :
    (s.register key document).canonicalBase uri
      = if s.Takes key document uri then some key else s.canonicalBase uri := by
  unfold Takes
  simp only [canonicalBase_eq, lookup_documents_register, lookup_aliases_register]
  by_cases hkey : Uri.normalize uri = key
  · rw [if_pos (Or.inl hkey), if_pos hkey, hkey]
    cases s.documents.lookup key <;> rfl
  · rw [if_neg hkey, Option.or_none]
    cases s.documents.lookup (Uri.normalize uri) with
    | some _ => simp [hkey]
    | none =>
      cases s.aliases.lookup (Uri.normalize uri) with
      | some _ => simp [hkey]
      | none => simp [hkey]

/-- **The document that an identifier names after filing.** -/
theorem document?_register (hs : s.Built) (hfree : s.documents.lookup key = none) :
    (s.register key document).document? uri
      = if s.Takes key document uri then some document else s.document? uri := by
  unfold document?
  rw [canonicalBase_register]
  split
  next =>
    rw [Option.bind_some, lookup_documents_register, hfree, Option.none_or, if_pos rfl]
  next =>
    refine Option.bind_congr fun owner howner => ?_
    obtain ⟨value, hvalue⟩ := exists_document hs howner
    rw [lookup_documents_register, hvalue, Option.some_or]

/-- A key without a document has no alias. -/
theorem aliasOf_eq_none (hs : s.Built) (hfree : s.documents.lookup key = none) :
    s.aliasOf key = none := by
  cases halias : s.aliasOf key with
  | none => rfl
  | some name =>
    have hfiled := hs.tidy.filed name key
      (mem_of_lookup (hs.tidy.lookup_eq_some_iff.mpr halias))
    rw [hfree] at hfiled
    cases hfiled

/-- **The base of an identifier after filing**, which for the new document is its alias or else its
    key. -/
theorem baseUri_register (hs : s.Built) (hfree : s.documents.lookup key = none) :
    (s.register key document).baseUri uri
      = if s.Takes key document uri then some ((s.freshAlias? key document).getD key)
        else s.baseUri uri := by
  unfold baseUri
  rw [canonicalBase_register]
  split
  next =>
    rw [Option.map_some, aliasOf_register, aliasOf_eq_none hs hfree, Option.none_or, if_pos rfl]
  next =>
    refine Option.map_congr fun owner howner => ?_
    obtain ⟨value, hvalue⟩ := exists_document hs howner
    have hother : owner ≠ key := by
      rintro rfl
      rw [hfree] at hvalue
      cases hvalue
    rw [aliasOf_register, if_neg hother, Option.or_none]

/-- What an identifier names depends on its normal form. -/
theorem document?_congr {uri' : String} (h : Uri.normalize uri = Uri.normalize uri') :
    s.document? uri = s.document? uri' := by
  unfold document? canonicalBase
  rw [h]

/-- **The answers that filing keeps** are all of them, unless the key of the new document was the
    alias of another. -/
theorem keeps_document?_iff (hs : s.Built)
    (hfree : s.documents.lookup (Uri.normalize base) = none) :
    (∀ uri value, s.document? uri = some value →
        (s.register (Uri.normalize base) document).document? uri = some value) ↔
      ∀ value, s.document? base = some value → value = document := by
  constructor
  · intro hkept value hvalue
    have hnow := hkept base value hvalue
    rw [document?_register hs hfree, if_pos takes_self] at hnow
    exact (Option.some.inj hnow).symm
  · intro hsame uri value hvalue
    rw [document?_register hs hfree]
    split
    next htakes =>
      rcases htakes with hkey | ⟨hnone, _⟩
      · rw [hsame value (document?_congr hkey ▸ hvalue)]
      · rw [document?, hnone] at hvalue
        cases hvalue
    next => exact hvalue

/-! ## 3. Attempts, one after another -/

/-- The store after an attempt to file a document: what is refused leaves no trace. -/
def offer (s : Store) (base : String) (document : Json) : Store :=
  match s.insert base document with
  | .ok filed => filed
  | .error _ => s

/-- The store comes from another by attempts to file documents. -/
def Later : Store → Store → Prop :=
  Relation.ReflTransGen fun s s' => ∃ base document, s' = s.offer base document

/-- What an attempt can do. -/
theorem offer_cases (s : Store) (base : String) (document : Json) :
    s.offer base document = s ∨
      s.documents.lookup (Uri.normalize base) = none ∧
        s.offer base document = s.register (Uri.normalize base) document := by
  unfold offer
  cases hinsert : s.insert base document with
  | error e => exact Or.inl rfl
  | ok filed => exact Or.inr (insert_eq_ok_iff.mp hinsert)

theorem Built.offer (h : s.Built) (base : String) (document : Json) :
    (s.offer base document).Built := by
  unfold Store.offer
  cases hinsert : s.insert base document with
  | error e => exact h
  | ok filed => exact .insert base document h hinsert

/-- **A document stays filed** under its key. -/
theorem Later.lookup_documents (h : s.Later s') (hvalue : s.documents.lookup key = some value) :
    s'.documents.lookup key = some value := by
  induction h with
  | refl => exact hvalue
  | @tail a _ _ hstep ih =>
    obtain ⟨base, document, rfl⟩ := hstep
    rcases a.offer_cases base document with hsame | ⟨_, hfiled⟩
    · rw [hsame, ih]
    · rw [hfiled, lookup_documents_register, ih, Option.some_or]

/-- **An alias stays with its first owner.** -/
theorem Later.lookup_aliases (h : s.Later s') (hname : s.aliases.lookup name = some key) :
    s'.aliases.lookup name = some key := by
  induction h with
  | refl => exact hname
  | @tail a _ _ hstep ih =>
    obtain ⟨base, document, rfl⟩ := hstep
    rcases a.offer_cases base document with hsame | ⟨_, hfiled⟩
    · rw [hsame, ih]
    · rw [hfiled, lookup_aliases_register, ih, Option.some_or]

/-- The alias of a document, or that it has none, is settled when the document is filed. -/
theorem Later.aliasOf (h : s.Later s') (hvalue : s.documents.lookup key = some value) :
    s'.aliasOf key = s.aliasOf key := by
  induction h with
  | refl => rfl
  | @tail a _ hlater hstep ih =>
    obtain ⟨base, document, rfl⟩ := hstep
    rcases a.offer_cases base document with hsame | ⟨hfree, hfiled⟩
    · rw [hsame, ih]
    · have hother : key ≠ Uri.normalize base := by
        rintro rfl
        rw [Later.lookup_documents hlater hvalue] at hfree
        cases hfree
      rw [hfiled, aliasOf_register, if_neg hother, Option.or_none, ih]

/-- **What an identifier names later** is the document that is filed under it by then, and else the
    document that it named before. -/
theorem Later.document? (h : s.Later s') (hvalue : s.document? uri = some value) :
    s'.document? uri = (s'.documents.lookup (Uri.normalize uri)).or (some value) := by
  unfold Store.document? at *
  obtain ⟨owner, howner, hfiled⟩ := Option.bind_eq_some_iff.mp hvalue
  have hfiled' := h.lookup_documents hfiled
  rw [canonicalBase_eq] at *
  cases hown : s.documents.lookup (Uri.normalize uri) with
  | some held =>
    rw [hown, Option.map_some, Option.some_or] at howner
    cases howner
    rw [hfiled', Option.map_some, Option.some_or, Option.bind_some, hfiled', Option.some_or]
  | none =>
    rw [hown, Option.map_none, Option.none_or] at howner
    rw [h.lookup_aliases howner]
    cases hnow : s'.documents.lookup (Uri.normalize uri) with
    | some held => rw [Option.map_some, Option.some_or, Option.bind_some, hnow, Option.some_or]
    | none => rw [Option.map_none, Option.none_or, Option.bind_some, hfiled', Option.none_or]

/-- **The base of a key stays**, if reading the key gives the key. -/
theorem Later.baseUri (h : s.Later s') (hvalue : s.documents.lookup key = some value)
    (hkey : Uri.normalize key = key) : s'.baseUri key = s.baseUri key := by
  unfold Store.baseUri
  rw [canonicalBase_eq, canonicalBase_eq, hkey, hvalue, h.lookup_documents hvalue, Option.map_some,
    Option.some_or, Option.some_or, Option.map_some, Option.map_some, h.aliasOf hvalue]

/-- **Filing and the answers before it.** In every store that filing builds: a document is refused
    where its key is taken, and this changes nothing. Where it is filed, the identifiers that come to
    name it do so, with its base, and all others name what they did and have the base they had; no
    answer is lost exactly if the key of the document named nothing before, or an equal document.
    After any number of attempts every document is filed as it was, an identifier that named one
    names it still unless a document is filed under that identifier by then, and the base of a key is
    the same if reading the key gives the key. -/
theorem answers_after_filing (hs : s.Built) :
    (∀ base document e, s.insert base document = .error e →
      e = .duplicateDocument (Uri.normalize base) ∧
        (s.documents.lookup (Uri.normalize base)).isSome = true ∧ s.offer base document = s) ∧
    (∀ base document s', s.insert base document = .ok s' →
      (∀ uri, s'.document? uri = if s.Takes (Uri.normalize base) document uri then some document
        else s.document? uri) ∧
      (∀ uri, s'.baseUri uri = if s.Takes (Uri.normalize base) document uri
        then some ((s.freshAlias? (Uri.normalize base) document).getD (Uri.normalize base))
        else s.baseUri uri) ∧
      ((∀ uri value, s.document? uri = some value → s'.document? uri = some value) ↔
        ∀ value, s.document? base = some value → value = document)) ∧
    ∀ s', s.Later s' →
      (∀ key value, s.documents.lookup key = some value →
        s'.documents.lookup key = some value) ∧
      (∀ uri value, s.document? uri = some value →
        s'.document? uri = (s'.documents.lookup (Uri.normalize uri)).or (some value)) ∧
      ∀ key, (s.documents.lookup key).isSome = true → Uri.normalize key = key →
        s'.baseUri key = s.baseUri key := by
  refine ⟨fun base document e he => ?_, fun base document s' hfiled => ?_, fun s' h => ?_⟩
  · obtain ⟨htaken, rfl⟩ := insert_eq_error_iff.mp he
    refine ⟨rfl, htaken, ?_⟩
    unfold offer
    rw [he]
  · obtain ⟨hfree, rfl⟩ := insert_eq_ok_iff.mp hfiled
    exact ⟨fun uri => document?_register hs hfree, fun uri => baseUri_register hs hfree,
      keeps_document?_iff hs hfree⟩
  · refine ⟨fun key value => h.lookup_documents, fun uri value => h.document?,
      fun key hkey hsettled => ?_⟩
    obtain ⟨value, hvalue⟩ := Option.isSome_iff_exists.mp hkey
    exact h.baseUri hvalue hsettled

end Filing

theorem insert_neighbour : undisputed.insert "b.json" neighbour = .ok disputed := by
  have hfree : (undisputed.documents.lookup (Uri.normalize "b.json")).isNone = true := by
    decide +kernel
  exact insert_eq_ok_iff.mpr ⟨Option.isNone_iff_eq_none.mp hfree, rfl⟩

/-- The neighbour takes the name that the document has given itself, and the document keeps its key
    and its base. -/
theorem answers_after_filing_neighbour :
    disputed.document? "b.json" = some neighbour ∧
      disputed.document? "a.json" = undisputed.document? "a.json" ∧
      disputed.baseUri "a.json" = some "b.json" := by
  obtain ⟨_, hfiled, _⟩ := answers_after_filing built_undisputed
  obtain ⟨hdocument, hbase, _⟩ := hfiled _ _ _ insert_neighbour
  have hother : ¬ undisputed.Takes (Uri.normalize "b.json") neighbour "a.json" := by decide +kernel
  have halias : undisputed.baseUri "a.json" = some "b.json" := by decide +kernel
  refine ⟨?_, ?_, ?_⟩
  · rw [hdocument, if_pos takes_self]
  · rw [hdocument, if_neg hother]
  · rw [hbase, if_neg hother, halias]

/-- The store of a document whose key is read as another name. -/
def misread : Store := empty.register (Uri.normalize "http://a:80 #") neighbour

/-- The same with a document under that name. -/
def misreadTaken : Store := misread.register (Uri.normalize "http://a/") neighbour

/-- **Filing a document can replace an answer**: a document that was found under the name that it
    gives itself is found there no more. And it can give another base to a key that was registered
    before, where reading the key does not give the key. -/
theorem filing_replaces_answer :
    (undisputed.Built ∧ undisputed.insert "b.json" neighbour = .ok disputed ∧
      undisputed.document? "b.json" = some selfNamed ∧
      disputed.document? "b.json" = some neighbour ∧ selfNamed ≠ neighbour) ∧
    misread.Built ∧ misread.insert "http://a/" neighbour = .ok misreadTaken ∧
      (misread.documents.lookup "http://a:80 ").isSome = true ∧
      misread.baseUri "http://a:80 " = none ∧
      misreadTaken.baseUri "http://a:80 " = some "http://a/" := by
  have hkey : undisputed.canonicalBase "b.json" = some (Uri.normalize "a.json") := by
    decide +kernel
  have hfree : undisputed.documents.lookup (Uri.normalize "b.json") = none :=
    (insert_eq_ok_iff.mp insert_neighbour).1
  have hfree' : (misread.documents.lookup (Uri.normalize "http://a/")).isNone = true := by
    decide +kernel
  refine ⟨⟨built_undisputed, insert_neighbour, ?_, ?_, ?_⟩,
    .insert "http://a:80 #" neighbour .empty rfl,
    insert_eq_ok_iff.mpr ⟨Option.isNone_iff_eq_none.mp hfree', rfl⟩, by decide +kernel,
    by decide +kernel, by decide +kernel⟩
  · rw [document?, hkey, Option.bind_some]
    exact List.lookup_cons_self
  · exact (document?_register built_undisputed hfree).trans (if_pos takes_self)
  · simp [selfNamed, neighbour]

end TaggedSchema.Store
