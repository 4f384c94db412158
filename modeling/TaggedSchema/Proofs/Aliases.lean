import TaggedSchema.Proofs.Filing

/-!
# Stores after sequences of attempts

A store is built by attempts to file documents, some of which are refused. This file says what its
three tables are after any sequence of them (`Store.filed_spec`). An attempt adds a document where
its key is free (`Store.lookup_documents_offer`), and an alias where the name that the document
gives itself is free; so the first document of a key is the one that is filed, and the first of
those that gives itself a name has the alias (`Store.Built.lookup_aliases`). The table of the keys
that have an alias is the other one read backwards.

Nothing here asks of identifiers that they are in normal form, or of normalisation that doing it
twice is doing it once.
-/

namespace TaggedSchema.Store

section Filing

variable [Uri.Library] {s s' : Store} {base key name : String} {document : Json}

/-! ## 1. One attempt -/

/-- An attempt adds a document under its key, if the key is free. -/
theorem lookup_documents_offer : (s.offer base document).documents.lookup key
    = (s.documents.lookup key).or (if key = Uri.normalize base then some document else none) := by
  cases hlookup : s.documents.lookup (Uri.normalize base) with
  | none =>
    rw [offer, insert_eq_ok_iff.mpr ⟨hlookup, rfl⟩]
    exact lookup_documents_register
  | some held =>
    rw [offer, insert_eq_error_iff.mpr ⟨Option.isSome_iff_exists.mpr ⟨_, hlookup⟩, rfl⟩]
    dsimp only
    by_cases hkey : key = Uri.normalize base
    · rw [hkey, hlookup, Option.some_or]
    · rw [if_neg hkey, Option.or_none]

/-- The key of the first document that gives itself a name. -/
def claimant (documents : List (String × Json)) (name : String) : Option String :=
  (documents.find? fun entry => ownAlias? entry.1 entry.2 == some name).map (·.1)

theorem freshAlias?_eq_some_iff : s.freshAlias? key document = some name ↔
    ownAlias? key document = some name ∧ s.aliases.lookup name = none := by
  rw [freshAlias?, Option.filter_eq_some_iff, Option.isNone_iff_eq_none]

theorem claimant_append_singleton (documents : List (String × Json)) :
    claimant (documents ++ [(key, document)]) name = (claimant documents name).or
      (if ownAlias? key document = some name then some key else none) := by
  rw [claimant, List.find?_append, Option.map_or, List.find?_singleton]
  by_cases hown : ownAlias? key document = some name
  · rw [if_pos hown, if_pos (beq_iff_eq.mpr hown)]
    rfl
  · rw [if_neg hown, if_neg (mt beq_iff_eq.mp hown)]
    rfl

/-- **An alias belongs to the first document that gives itself the name.** -/
theorem Built.lookup_aliases (hs : s.Built) (name : String) :
    s.aliases.lookup name = claimant s.documents name := by
  induction hs with
  | empty => rfl
  | @insert a s' base document _ hinsert ih =>
    obtain ⟨_, rfl⟩ := insert_eq_ok_iff.mp hinsert
    have hdocuments : (a.register (Uri.normalize base) document).documents
        = a.documents ++ [(Uri.normalize base, document)] := rfl
    rw [lookup_aliases_register, hdocuments, claimant_append_singleton, ← ih]
    cases hname : a.aliases.lookup name with
    | some holder => rw [Option.some_or, Option.some_or]
    | none => simp only [freshAlias?_eq_some_iff, hname, and_true]

/-- No two documents are filed under one key. -/
theorem Built.nodup_documents (hs : s.Built) : (s.documents.map (·.1)).Nodup := by
  induction hs with
  | empty => exact List.nodup_nil
  | @insert a s' base document _ hinsert ih =>
    obtain ⟨hfree, rfl⟩ := insert_eq_ok_iff.mp hinsert
    show ((a.documents ++ [(Uri.normalize base, document)]).map (·.1)).Nodup
    rw [List.map_append, List.map_singleton, ← List.concat_eq_append, List.nodup_concat]
    exact ⟨lookup_eq_none_iff.mp hfree, ih⟩

/-! ## 2. A sequence of attempts -/

/-- The store after a sequence of attempts, refused ones among them. -/
def filed (attempts : List (String × Json)) : Store :=
  attempts.foldl (fun s attempt => s.offer attempt.1 attempt.2) empty

section Run

variable (attempts : List (String × Json))

theorem filed_append_singleton (attempt : String × Json) :
    filed (attempts ++ [attempt]) = (filed attempts).offer attempt.1 attempt.2 := by
  rw [filed, List.foldl_append]
  rfl

theorem built_filed : (filed attempts).Built := by
  induction attempts using List.reverseRecOn with
  | nil => exact .empty
  | append_singleton attempts attempt ih =>
    rw [filed_append_singleton]
    exact ih.offer _ _

/-- The first document that is to be filed under a key. -/
def firstUnder (attempts : List (String × Json)) (key : String) : Option Json :=
  (attempts.find? fun attempt => Uri.normalize attempt.1 == key).map (·.2)

/-- **The first document of a key is filed.** -/
theorem lookup_documents_filed (key : String) :
    (filed attempts).documents.lookup key = firstUnder attempts key := by
  induction attempts using List.reverseRecOn with
  | nil => rfl
  | append_singleton attempts attempt ih =>
    rw [filed_append_singleton, lookup_documents_offer, ih, firstUnder, firstUnder,
      List.find?_append, Option.map_or, List.find?_singleton]
    by_cases hkey : key = Uri.normalize attempt.1
    · rw [if_pos hkey, if_pos (beq_iff_eq.mpr hkey.symm)]
      rfl
    · rw [if_neg hkey, if_neg fun h => hkey (beq_iff_eq.mp h).symm]
      rfl

/-- A document that an attempt files stays as it is, whatever is attempted afterwards. -/
theorem lookup_documents_of_insert {attempts before after : List (String × Json)}
    (hrun : attempts = before ++ (base, document) :: after)
    (hinsert : (filed before).insert base document = .ok s') :
    (filed attempts).documents.lookup (Uri.normalize base) = some document := by
  have hnone := (insert_eq_ok_iff.mp hinsert).1
  rw [lookup_documents_filed, firstUnder, Option.map_eq_none_iff] at hnone
  have hfirst : (Uri.normalize base == Uri.normalize base) = true := beq_self_eq_true _
  rw [hrun, lookup_documents_filed, firstUnder, List.find?_append, hnone, Option.none_or,
    List.find?_cons]
  dsimp only
  rw [hfirst]
  rfl

theorem insert_filed_eq_error_iff {e : StoreError} :
    (filed attempts).insert base document = .error e ↔
      (firstUnder attempts (Uri.normalize base)).isSome = true ∧
        e = .duplicateDocument (Uri.normalize base) := by
  rw [insert_eq_error_iff, lookup_documents_filed]

/-- The base that a document came with names it. -/
theorem document?_filed (h : firstUnder attempts (Uri.normalize base) = some document) :
    (filed attempts).document? base = some document := by
  rw [← lookup_documents_filed] at h
  rw [document?, canonicalBase_eq, h, Option.map_some, Option.some_or, Option.bind_some, h]

end Run

/-- **A store after any sequence of attempts** to file documents, and so the store of one document:
    no name stands twice in one of its tables. The document of a key is the first that was to be
    filed under it, later ones are refused, and the base it came with names it. An alias belongs to
    the first of the documents that gives itself the name; it leads to the key of a document, and to
    another name than itself. The keys in the third table are those that own an alias, and the
    second and the third are inverse. -/
theorem filed_spec (attempts : List (String × Json)) :
    ((filed attempts).documents.map (·.1)).Nodup ∧
    ((filed attempts).aliases.map (·.1)).Nodup ∧
    ((filed attempts).ids.map (·.1)).Nodup ∧
    (∀ key, (filed attempts).documents.lookup key = firstUnder attempts key) ∧
    (∀ before base document after s', attempts = before ++ (base, document) :: after →
      (filed before).insert base document = .ok s' →
      (filed attempts).documents.lookup (Uri.normalize base) = some document) ∧
    (∀ base document e, (filed attempts).insert base document = .error e ↔
      (firstUnder attempts (Uri.normalize base)).isSome = true ∧
        e = .duplicateDocument (Uri.normalize base)) ∧
    (∀ base document, firstUnder attempts (Uri.normalize base) = some document →
      (filed attempts).document? base = some document) ∧
    (∀ name, (filed attempts).aliases.lookup name = claimant (filed attempts).documents name) ∧
    (∀ name key, (filed attempts).aliases.lookup name = some key →
      ((filed attempts).documents.lookup key).isSome = true ∧ name ≠ key) ∧
    (∀ key, ((filed attempts).ids.lookup key).isSome = true ↔
      ∃ name, (filed attempts).aliases.lookup name = some key) ∧
    (∀ name key, (filed attempts).aliases.lookup name = some key ↔
      (filed attempts).ids.lookup key = some name) ∧
    ∀ document, single document = filed [(defaultBase, document)] := by
  have hbuilt := built_filed attempts
  have htidy := hbuilt.tidy
  refine ⟨hbuilt.nodup_documents, htidy.names_nodup, htidy.ids_nodup,
    lookup_documents_filed attempts, fun _ _ _ _ _ => lookup_documents_of_insert,
    fun _ _ _ => insert_filed_eq_error_iff attempts, fun _ _ => document?_filed attempts,
    hbuilt.lookup_aliases, fun name key h => ?_, fun key => ?_,
    fun _ _ => htidy.lookup_eq_some_iff, fun _ => rfl⟩
  · exact ⟨htidy.filed name key (mem_of_lookup h), htidy.proper name key (mem_of_lookup h)⟩
  · rw [Option.isSome_iff_exists]
    exact exists_congr fun name => htidy.lookup_eq_some_iff.symm

end Filing

/-- A document that gives itself a name. -/
def named (title : String) : Json := .object [("$id", .string "c.json"), ("title", .string title)]

/-- Two documents that give themselves one name, and a third under the base of the second. -/
def contested : List (String × Json) :=
  [("a.json", named "first"), ("b.json", named "second"), ("b.json#", named "third")]

/-- The first document has the name, and the second keeps its place. -/
theorem filed_spec_contested :
    (filed contested).document? "b.json" = some (named "second") ∧
      (filed contested).aliases.lookup "c.json" = some "a.json" ∧
      ((filed contested).ids.lookup "a.json" = some "c.json" ∧
        ((filed contested).documents.lookup "a.json").isSome = true) ∧
      (filed contested).ids.lookup "b.json" = none := by
  have hfirst : firstUnder contested (Uri.normalize "b.json") = some (named "second") := by
    have hother : (Uri.normalize "a.json" == Uri.normalize "b.json") = false := by decide +kernel
    have hself : (Uri.normalize "b.json" == Uri.normalize "b.json") = true := beq_self_eq_true _
    rw [firstUnder, contested, List.find?_cons, List.find?_cons]
    dsimp only
    rw [hother, hself]
    rfl
  have halias : (filed contested).aliases.lookup "c.json" = some "a.json" := by decide +kernel
  obtain ⟨-, -, -, -, -, -, hfound, -, hproper, -, hinverse, -⟩ := filed_spec contested
  exact ⟨hfound _ _ hfirst, halias, ⟨(hinverse _ _).mp halias, (hproper _ _ halias).1⟩,
    by decide +kernel⟩

end TaggedSchema.Store
