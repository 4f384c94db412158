import TaggedSchema.Uri.Reader
import TaggedSchema.Proofs.Links
import Mathlib.Data.List.Nodup
import Mathlib.Data.Prod.Basic

/-!
# References inside a document

A reference that is only a fragment is read against the base of its own document, and the base is
looked up among the documents like any other identifier. This file says when that comes back to the
document (`Store.Returns`, `Store.Names`): the base has to be read as the key, or as the alias of
the key with no document filed under it. Filing compares an alias with other aliases only, so
nothing keeps a store from holding a document under the alias of another, filed before or after,
and then every local reference of that other leads into it.

Five facts about aliases carry the argument, in every store that filing can build (`Store.Tidy`):
no alias is entered twice and no key has two, an alias leads to the key of a document, and to
another name than itself, and the table of the keys that have one is the same read backwards.

Where the spelling of a key and its alias is not changed by reading them (`Store.Settled`), all this
comes to one condition, that no document is filed under the alias (`Store.Undisputed`). Not every
key is so: the text `http://a:80 ` spells no URL as long as a fragment follows, and spells one when
it stands alone.
-/

namespace TaggedSchema

namespace Store

/-! ## 1. Stores that filing builds -/

/-- The store comes from filing documents, one after another. -/
inductive Built [Uri.Library] : Store → Prop where
  | empty : Built .empty
  | insert {s s' : Store} (base : String) (document : Json) (h : Built s)
      (hinsert : s.insert base document = .ok s') : Built s'

/-- The store of one document is the empty one after filing it. -/
theorem built_single [Uri.Library] (document : Json) : Built (single document) :=
  .insert defaultBase document .empty rfl

/-- A document is not its own alias. -/
theorem ownAlias?_ne_key [Uri.Library] {key name : String} {document : Json}
    (h : ownAlias? key document = some name) : name ≠ key := by
  unfold ownAlias? at h
  split at h
  next id _ =>
    dsimp only at h
    split at h
    next => cases h
    next hne =>
      cases h
      exact hne
  next => cases h

/-- What filing does: one document more under a free key, and at most one alias more, which is free
    too and leads to that key. -/
theorem insert_cases [Uri.Library] {s s' : Store} {base : String} {document : Json}
    (h : s.insert base document = .ok s') :
    ∃ key, s.documents.lookup key = none ∧
      (s' = ⟨s.documents ++ [(key, document)], s.aliases, s.ids⟩ ∨
        ∃ name, s' = ⟨s.documents ++ [(key, document)], s.aliases ++ [(name, key)],
            s.ids ++ [(key, name)]⟩ ∧
          s.aliases.lookup name = none ∧ name ≠ key) := by
  unfold insert at h
  dsimp only at h
  split at h
  next => cases h
  next hfree =>
    cases h
    refine ⟨_, Option.not_isSome_iff_eq_none.mp hfree, ?_⟩
    unfold register
    cases halias : ownAlias? (Uri.normalize base) document with
    | none => exact Or.inl rfl
    | some name =>
      dsimp only
      cases hlookup : s.aliases.lookup name with
      | some holder => exact Or.inl rfl
      | none => exact Or.inr ⟨name, rfl, hlookup, ownAlias?_ne_key halias⟩

/-- What holds of the aliases of a built store: each leads to one key, each key has one at most, and
    it is the key of a document and another name than the alias. Both tables have the same entries,
    in the same order. -/
structure Tidy (s : Store) : Prop where
  mirrored : s.ids = s.aliases.map Prod.swap
  names_nodup : (s.aliases.map (·.1)).Nodup
  keys_nodup : (s.aliases.map (·.2)).Nodup
  filed : ∀ name key, (name, key) ∈ s.aliases → (s.documents.lookup key).isSome = true
  proper : ∀ name key, (name, key) ∈ s.aliases → name ≠ key

/-- Another document leaves the aliases in order. -/
theorem Tidy.file {s : Store} (h : s.Tidy) (key : String) (document : Json) :
    Tidy ⟨s.documents ++ [(key, document)], s.aliases, s.ids⟩ := by
  refine ⟨h.mirrored, h.names_nodup, h.keys_nodup, fun name holder hmem => ?_, h.proper⟩
  rw [List.lookup_append, Option.isSome_or, h.filed name holder hmem, Bool.true_or]

/-- So does an alias of its own, if both names are free. -/
theorem Tidy.alias {s : Store} (h : s.Tidy) {name key : String} (document : Json)
    (hkey : s.documents.lookup key = none) (hname : s.aliases.lookup name = none)
    (hne : name ≠ key) :
    Tidy ⟨s.documents ++ [(key, document)], s.aliases ++ [(name, key)],
      s.ids ++ [(key, name)]⟩ := by
  have hnames : name ∉ s.aliases.map (·.1) := fun hmem => by
    obtain ⟨entry, hentry, rfl⟩ := List.mem_map.mp hmem
    exact bne_iff_ne.mp (List.lookup_eq_none_iff.mp hname entry hentry) rfl
  have hkeys : key ∉ s.aliases.map (·.2) := fun hmem => by
    obtain ⟨entry, hentry, rfl⟩ := List.mem_map.mp hmem
    have hfiled := h.filed entry.1 entry.2 hentry
    rw [hkey] at hfiled
    cases hfiled
  refine ⟨?_, ?_, ?_, fun name' key' hmem => ?_, fun name' key' hmem => ?_⟩
  · rw [List.map_append, List.map_singleton, h.mirrored]
    rfl
  · rw [List.map_append, List.map_singleton, ← List.concat_eq_append, List.nodup_concat]
    exact ⟨hnames, h.names_nodup⟩
  · rw [List.map_append, List.map_singleton, ← List.concat_eq_append, List.nodup_concat]
    exact ⟨hkeys, h.keys_nodup⟩
  · rcases List.mem_append.mp hmem with hold | hnew
    · exact (h.file key document).filed name' key' hold
    · cases List.mem_singleton.mp hnew
      rw [List.lookup_append, List.lookup_cons_self, Option.or_some]
      rfl
  · rcases List.mem_append.mp hmem with hold | hnew
    · exact h.proper name' key' hold
    · cases List.mem_singleton.mp hnew
      exact hne

/-- **The aliases of a built store are in order.** -/
theorem Built.tidy [Uri.Library] {s : Store} (h : Built s) : s.Tidy := by
  induction h with
  | empty =>
    exact ⟨rfl, .nil, .nil, fun _ _ hmem => (by cases hmem), fun _ _ hmem => (by cases hmem)⟩
  | insert _ document _ hinsert ih =>
    obtain ⟨key, hkey, rfl | ⟨name, rfl, hname, hne⟩⟩ := insert_cases hinsert
    · exact ih.file key document
    · exact ih.alias document hkey hname hne

theorem Tidy.ids_nodup {s : Store} (h : s.Tidy) : (s.ids.map (·.1)).Nodup := by
  rw [h.mirrored, List.map_map]
  exact h.keys_nodup

/-- An alias leads to a key when it is the alias of the key. -/
theorem Tidy.lookup_eq_some_iff {s : Store} (h : s.Tidy) {name key : String} :
    s.aliases.lookup name = some key ↔ s.aliasOf key = some name := by
  unfold aliasOf
  rw [lookup_eq_some_iff_mem h.names_nodup, lookup_eq_some_iff_mem h.ids_nodup, h.mirrored]
  exact (List.mem_map_of_injective Prod.swap_injective (a := (name, key))).symm

/-! ## 2. The base of a document -/

/-- The base of a document, which is its alias or else its key. -/
def baseOf (s : Store) (key : String) : String := (s.aliasOf key).getD key

/-- What a reference without a document part is read as, in the document of a key. -/
def localBase [Uri.Library] (s : Store) (key : String) : String := Uri.normalize
    ((s.baseUri key).getD key)

/-- An identifier names the document of a key: its normal form is the key, or else the alias of the
    key with no document filed under it. -/
def Names [Uri.Library] (s : Store) (uri key : String) : Prop :=
  Uri.normalize uri = key ∨
    s.aliasOf key = some (Uri.normalize uri) ∧ s.documents.lookup (Uri.normalize uri) = none

/-- The key names a document whose base names the document of the key. -/
def Returns [Uri.Library] (s : Store) (key : String) : Prop :=
  ∃ owner, (s.documents.lookup owner).isSome = true ∧ s.Names key owner ∧
    s.Names (s.baseOf owner) key

/-- A key and its alias are spelled as normalisation spells them, so that reading them again changes
    nothing. -/
def Settled [Uri.Library] (s : Store) (key : String) : Prop :=
  Uri.normalize key = key ∧ ∀ name, s.aliasOf key = some name → Uri.normalize name = name

example : Uri.normalize "http://a:80 #" = "http://a:80 " ∧
    Uri.normalize "http://a:80 " = "http://a/" := by
  decide +kernel

/-- No document is filed under the alias of a key. -/
def Undisputed (s : Store) (key : String) : Prop :=
  ∀ name, s.aliasOf key = some name → s.documents.lookup name = none

variable {s : Store} {uri key : String}

variable [Uri.Library]

/-- Looking an identifier up finds the document it names. -/
theorem canonicalBase_eq_some_iff (hs : s.Built) (hkey : (s.documents.lookup key).isSome = true) :
    s.canonicalBase uri = some key ↔ s.Names uri key := by
  unfold canonicalBase Names
  dsimp only
  cases hdocument : s.documents.lookup (Uri.normalize uri) with
  | some document =>
    rw [Option.isSome_some, if_pos rfl, Option.some.injEq]
    exact ⟨Or.inl, fun h => h.elim id fun hfree => (by cases hfree.2)⟩
  | none =>
    rw [Option.isSome_none, if_neg Bool.false_ne_true, hs.tidy.lookup_eq_some_iff]
    refine ⟨fun h => Or.inr ⟨h, rfl⟩, fun h => h.elim (fun he => ?_) And.left⟩
    rw [← he, hdocument] at hkey
    cases hkey

/-- What is found is the key of a document. -/
theorem isSome_of_canonicalBase (hs : s.Built) (h : s.canonicalBase uri = some key) :
    (s.documents.lookup key).isSome = true := by
  unfold canonicalBase at h
  dsimp only at h
  split at h
  next hdocument =>
    cases h
    exact hdocument
  next => exact hs.tidy.filed _ _ (mem_of_lookup h)

/-- **The base of a key leads back to it** when the key names a document whose base does. -/
theorem canonicalBase_baseUri_iff (hs : s.Built) (hkey : (s.documents.lookup key).isSome = true) :
    (s.baseUri key).bind s.canonicalBase = some key ↔ s.Returns key := by
  unfold baseUri Returns
  rw [Option.bind_map, Option.bind_eq_some_iff]
  constructor
  · rintro ⟨owner, howner, hbase⟩
    have hfiled := isSome_of_canonicalBase hs howner
    exact ⟨owner, hfiled, (canonicalBase_eq_some_iff hs hfiled).mp howner,
      (canonicalBase_eq_some_iff hs hkey).mp hbase⟩
  · rintro ⟨owner, hfiled, hnames, hbase⟩
    exact ⟨owner, (canonicalBase_eq_some_iff hs hfiled).mpr hnames,
      (canonicalBase_eq_some_iff hs hkey).mpr hbase⟩

theorem normalize_baseOf (h : s.Settled key) : Uri.normalize (s.baseOf key) = s.baseOf key := by
  unfold baseOf
  cases halias : s.aliasOf key with
  | none => exact h.1
  | some name => exact h.2 name halias

theorem localBase_of_settled (hs : s.Built) (hkey : (s.documents.lookup key).isSome = true)
    (h : s.Settled key) : s.localBase key = s.baseOf key := by
  unfold localBase baseUri
  rw [(canonicalBase_eq_some_iff hs hkey).mpr (Or.inl h.1)]
  exact normalize_baseOf h

/-- The base of a settled key names its document when the alias is undisputed. -/
theorem names_baseOf_iff (hs : s.Built) (h : s.Settled key) :
    s.Names (s.baseOf key) key ↔ s.Undisputed key := by
  unfold Names
  rw [normalize_baseOf h]
  unfold baseOf Undisputed
  cases halias : s.aliasOf key with
  | none => exact ⟨fun _ name hname => (by cases hname), fun _ => Or.inl rfl⟩
  | some name =>
    rw [Option.getD_some]
    constructor
    · rintro (rfl | ⟨_, hfree⟩) name' hname'
      · exact absurd rfl (hs.tidy.proper _ _
          (mem_of_lookup (hs.tidy.lookup_eq_some_iff.mpr halias)))
      · cases hname'
        exact hfree
    · exact fun hundisputed => Or.inr ⟨rfl, hundisputed name rfl⟩

/-- A settled key names its own document and no other. -/
theorem returns_iff_of_settled (hs : s.Built) (hkey : (s.documents.lookup key).isSome = true)
    (h : s.Settled key) : s.Returns key ↔ s.Undisputed key := by
  rw [← names_baseOf_iff hs h]
  constructor
  · rintro ⟨owner, _, hnames | ⟨_, hfree⟩, hbase⟩
    · rw [h.1] at hnames
      subst hnames
      exact hbase
    · rw [h.1] at hfree
      rw [hfree] at hkey
      cases hkey
  · exact fun hbase => ⟨key, hkey, Or.inl h.1, hbase⟩

end Store

/-! ## 3. References of resolved graphs -/

/-- Where a reference without a document part leads: into the document that the base names. -/
theorem Graph.Resolved.local_reference [Uri.Library] {s : Store} {g : Graph} (hg : g.Resolved s)
    {id : NodeId} {n : Node} (hn : g.node? id = some n) {text : String}
    (href : n.keyword? "$ref" = some (.string text)) (hlocal : Uri.withoutFragment text = "") :
    ∃ target m, n.reference = some target ∧ g.node? target = some m ∧
      s.canonicalBase (s.localBase n.location.document) = some m.location.document := by
  obtain ⟨_, target, he, htarget, pointer, key, _, hkey, m, hm, hlocation⟩ :=
    hg.exists_target_of_keyword hn href
  cases he
  refine ⟨target, m, htarget, hm, ?_⟩
  rw [Store.resolveUri, if_pos hlocal] at hkey
  rw [Store.localBase, hkey, hlocation]

/-- **When local references stay in their document.** In every store that filing builds, and for
    every document there: the base of the key leads back to the key when `Store.Returns` says so,
    and each reference of a graph that is held in the document and has no document part leads to a
    node, which stands in the document when the base names it, and only then. If the key and its
    alias are spelled as normalisation spells them, both come to the same: no document is filed
    under the alias. -/
theorem Store.local_references_stay_iff [Uri.Library] {s : Store} (hs : s.Built) {key : String}
    (hkey : (s.documents.lookup key).isSome = true) :
    ((s.baseUri key).bind s.canonicalBase = some key ↔ s.Returns key) ∧
    (∀ root g id n text, Graph.resolve s root = .ok g → g.node? id = some n →
      n.location.document = key → n.keyword? "$ref" = some (.string text) →
      Uri.withoutFragment text = "" →
      ∃ target m, n.reference = some target ∧ g.node? target = some m ∧
        (m.location.document = key ↔ s.Names (s.localBase key) key)) ∧
    (s.Settled key → (s.Returns key ↔ s.Undisputed key) ∧
      (s.Names (s.localBase key) key ↔ s.Undisputed key)) := by
  refine ⟨canonicalBase_baseUri_iff hs hkey, ?_, fun hsettled => ?_⟩
  · intro root g id n text hg hn hdocument href hlocal
    obtain ⟨target, m, htarget, hm, hnamed⟩ :=
      (Graph.resolved_of_resolve hg).1.local_reference hn href hlocal
    refine ⟨target, m, htarget, hm, ?_⟩
    rw [hdocument] at hnamed
    rw [← canonicalBase_eq_some_iff hs hkey, hnamed, Option.some.injEq]
  · rw [localBase_of_settled hs hkey hsettled]
    exact ⟨returns_iff_of_settled hs hkey hsettled, names_baseOf_iff hs hsettled⟩

namespace Store

/-- A document that names itself like a file beside it, and refers to a schema of its own. -/
def selfNamed : Json :=
  .object [("$id", .string "b.json"), ("$ref", .string "#/definitions/d"),
    ("definitions", .object [("d", .bool true)])]

/-- The file beside it. -/
def neighbour : Json := .object [("definitions", .object [("d", .bool false)])]

/-- The store of the one document. -/
def undisputed : Store := empty.register (Uri.normalize "a.json") selfNamed

/-- The store of both. -/
def disputed : Store := undisputed.register (Uri.normalize "b.json") neighbour

theorem built_undisputed : undisputed.Built := .insert "a.json" selfNamed .empty rfl

theorem built_disputed : disputed.Built := by
  have hfree : ¬ (undisputed.documents.lookup (Uri.normalize "b.json")).isSome = true := by
    decide +kernel
  refine .insert "b.json" neighbour built_undisputed ?_
  unfold insert
  exact if_neg hfree

theorem settled_of_aliasOf [Uri.Library] {s : Store} {key name : String}
    (hkey : Uri.normalize key = key) (hname : Uri.normalize name = name)
    (halias : s.aliasOf key = some name) : s.Settled key := by
  refine ⟨hkey, fun name' hname' => ?_⟩
  rw [halias] at hname'
  cases hname'
  exact hname

/-- The document alone keeps its references, and beside its neighbour it loses them. -/
theorem local_references_stay_iff_neighbour :
    (undisputed.baseUri "a.json").bind undisputed.canonicalBase = some "a.json" ∧
      ¬ (disputed.baseUri "a.json").bind disputed.canonicalBase = some "a.json" := by
  have hkey : Uri.normalize "a.json" = "a.json" := by decide +kernel
  have hname : Uri.normalize "b.json" = "b.json" := by decide +kernel
  have halone : undisputed.aliasOf "a.json" = some "b.json" := by decide +kernel
  have hbeside : disputed.aliasOf "a.json" = some "b.json" := by decide +kernel
  have hdocument : (undisputed.documents.lookup "a.json").isSome = true := by decide +kernel
  have hdocument' : (disputed.documents.lookup "a.json").isSome = true := by decide +kernel
  constructor
  · obtain ⟨hreturns, _, hsettled⟩ := local_references_stay_iff built_undisputed hdocument
    refine hreturns.mpr ((hsettled (settled_of_aliasOf hkey hname halone)).1.mpr fun name h => ?_)
    rw [halone] at h
    cases h
    have hfree : (undisputed.documents.lookup "b.json").isNone = true := by decide +kernel
    exact Option.isNone_iff_eq_none.mp hfree
  · intro h
    obtain ⟨hreturns, _, hsettled⟩ := local_references_stay_iff built_disputed hdocument'
    have hundisputed := (hsettled (settled_of_aliasOf hkey hname hbeside)).1.mp (hreturns.mp h)
    have htaken : (disputed.documents.lookup "b.json").isSome = true := by decide +kernel
    rw [hundisputed "b.json" hbeside] at htaken
    cases htaken

/-- A local reference that leads into another document. -/
theorem local_reference_leaves :
    disputed.Built ∧ (disputed.documents.lookup "a.json").isSome = true ∧
      (disputed.baseUri "a.json").bind disputed.canonicalBase = some "b.json" ∧
      ∃ g, Graph.resolve disputed "a.json" = .ok g ∧
        (g.node? g.root).map (·.location.document) = some "a.json" ∧
        ((g.node? g.root).bind (·.keyword? "$ref")).bind Json.string? = some "#/definitions/d" ∧
        (((g.node? g.root).bind (·.reference)).bind g.node?).map (·.location.document)
          = some "b.json" := by
  refine ⟨built_disputed, by decide +kernel, by decide +kernel, ?_⟩
  have hall : (match Graph.resolve disputed "a.json" with
      | .ok g => decide ((g.node? g.root).map (·.location.document) = some "a.json" ∧
          ((g.node? g.root).bind (·.keyword? "$ref")).bind Json.string?
            = some "#/definitions/d" ∧
          (((g.node? g.root).bind (·.reference)).bind g.node?).map (·.location.document)
            = some "b.json")
      | .error _ => false) = true := by decide +kernel
  cases hg : Graph.resolve disputed "a.json" with
  | error e =>
    rw [hg] at hall
    cases hall
  | ok g =>
    rw [hg] at hall
    exact ⟨g, rfl, of_decide_eq_true hall⟩

end Store

end TaggedSchema
