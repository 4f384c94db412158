import TaggedSchema.Proofs.Acceptance
import TaggedSchema.Proofs.LocalReferences

/-!
# What a resolved graph represents

A resolved graph is the closure of its root, written as an array (`Graph.Represents`): one node for
each location, which says what the store has there; under each structural keyword one child for each
subschema, in order, at the location that the keyword and the index or the key lead to; one target
for each reference, at what its text names; and nothing that the root does not lead to.

As the target is the node at what the text names, two texts share a target when they name the same,
however they are spelled. In a store that filing builds that is said in terms of the documents: both
are read as names of one document, by its key or its alias, and both have the same fragment
(`Store.targetOf?_eq_some_iff_names`).
-/

namespace TaggedSchema

/-! ## 1. What references name -/

namespace Store

variable {s : Store} {document text : String}

variable [Uri.Library]

/-- What a reference names is in a document of the store, which it names by key or by alias. -/
theorem targetOf?_eq_some_iff_names (hs : s.Built) {l : Location} :
    s.targetOf? document text = some l ↔
      Pointer.parse (Draft.fragmentOf text) = .ok l.pointer ∧
        (s.documents.lookup l.document).isSome = true ∧
        s.Names (s.readIn document text) l.document := by
  rw [targetOf?_eq_some_iff]
  refine and_congr_right fun _ => ⟨fun h => ?_, fun h => ?_⟩
  · have hfiled := isSome_of_canonicalBase hs h
    exact ⟨hfiled, (canonicalBase_eq_some_iff hs hfiled).mp h⟩
  · exact (canonicalBase_eq_some_iff hs h.1).mpr h.2

/-- A location whose name is in normal form is in the document that is filed under the name. -/
theorem exists_document_of_lookup? (hs : s.Built) {l : Location} {value : Json}
    (h : s.lookup? l = some value) (hname : l.document ∈ s.names)
    (hnormal : Uri.normalize l.document = l.document) :
    ∃ document, s.documents.lookup l.document = some document ∧
      l.pointer.resolve document = some value := by
  have hfiled : (s.documents.lookup l.document).isSome = true := by
    rcases List.mem_append.mp hname with hkey | halias
    · obtain ⟨entry, hentry, he⟩ := List.mem_map.mp hkey
      exact List.lookup_isSome_iff.mpr ⟨entry, hentry, beq_iff_eq.mpr he.symm⟩
    · obtain ⟨entry, hentry, he⟩ := List.mem_map.mp halias
      exact he ▸ hs.tidy.filed entry.1 entry.2 hentry
  obtain ⟨document, hdocument⟩ := Option.isSome_iff_exists.mp hfiled
  refine ⟨document, hdocument, ?_⟩
  unfold lookup? document? at h
  rw [(canonicalBase_eq_some_iff hs hfiled).mpr (Or.inl hnormal)] at h
  rw [← h, Option.bind_some, hdocument, Option.bind_some]

end Store

namespace Graph

variable {s : Store} {g : Graph} {l : Location}

/-! ## 2. The invariant -/

/-- The children are the nodes of the subschemas that the value of a keyword holds: one for each, in
    order, at the keyword, at the index below it, or at the key below it. -/
inductive ChildrenOf (g : Graph) (l : Location) (shape : Structure) : Json → Children → Prop where
  | single {value : Json} {id : NodeId} (hshape : shape = .single ∨ shape = .singleOrList)
      (hvalue : value.IsSchema) (h : g.StandsAt id l) : ChildrenOf g l shape value (.single id)
  | list {items : List Json} {ids : List NodeId} (hshape : shape = .list ∨ shape = .singleOrList)
      (hlength : ids.length = items.length)
      (h : ∀ (i : Nat) (id : NodeId), ids[i]? = some id → g.StandsAt id (l.join (Nat.repr i))) :
      ChildrenOf g l shape (.array items) (.list ids)
  | map {members : List (String × Json)} {entries : List (String × NodeId)} (hshape : shape = .map)
      (hkeys : entries.map (·.1) = members.map (·.1))
      (h : ∀ entry ∈ entries, g.StandsAt entry.2 (l.join entry.1)) :
      ChildrenOf g l shape (.object members) (.map entries)

/-- A keyword and its children: the keyword is structural, and they are those of its value. -/
def KeywordOf (g : Graph) (l : Location) (entry : String × Json) (child : String × Children) :
    Prop :=
  entry.1 = child.1 ∧
    ∃ shape, Structure.of? entry.1 = some shape ∧
      g.ChildrenOf (l.join entry.1) shape entry.2 child.2

/-- A node in the document refers, by the text, to the target. -/
def RefersBy (g : Graph) (document text : String) (target : NodeId) : Prop :=
  ∃ id n, g.node? id = some n ∧ n.location.document = document ∧
    n.keyword? "$ref" = some (.string text) ∧ n.reference = some target

/-- **The graph represents the closure of a location.** -/
structure Represents [Uri.Library] (g : Graph) (s : Store) (start : Location) : Prop where
  root : g.StandsAt g.root start
  /-- Locations are different. -/
  distinct : ∀ id id' n n', g.node? id = some n → g.node? id' = some n' →
    n.location = n'.location → id = id'
  /-- The index finds the node of each location, and nothing else. -/
  index : ∀ l id, g.find? l = some id ↔ ∃ n, g.node? id = some n ∧ n.location = l
  /-- A body is what the store has at the location, and the declared types are read from it. -/
  body : ∀ id n, g.node? id = some n → s.lookup? n.location = some n.body.value
  types : ∀ id n, g.node? id = some n →
    n.declaredTypes = (n.keyword? "type").bind InstanceType.declared?
  /-- Each structural keyword has its children, in the order of the keywords, and nothing else has
      any. -/
  children : ∀ id n, g.node? id = some n → List.Forall₂ (g.KeywordOf n.location)
    (n.keywords.filter fun entry => (Structure.of? entry.1).isSome) n.children
  /-- A reference is where `$ref` is, and leads to what the text names. -/
  reference : ∀ id n, g.node? id = some n → (n.reference.isSome = true ↔ n.hasKeyword "$ref" = true)
  target : ∀ id n target, g.node? id = some n → n.reference = some target →
    ∃ text l, n.keyword? "$ref" = some (.string text) ∧
      s.targetOf? n.location.document text = some l ∧ g.StandsAt target l
  /-- Two references share their target just when they name the same. -/
  shared : ∀ document text target document' text' target', g.RefersBy document text target →
    g.RefersBy document' text' target' →
    (target = target' ↔ s.targetOf? document text = s.targetOf? document' text')
  /-- All numbers are numbers of nodes. -/
  bounded : g.root < g.size ∧ ∀ id, ∀ next ∈ g.successors id, next < g.size
  /-- The root leads to every node. -/
  reachable : ∀ id < g.size, Relation.ReflTransGen (fun a b => b ∈ g.successors a) g.root id

/-! ## 3. Reading a resolved graph -/

theorem childrenOf_of_childrenAt [Uri.Library] {shape : Structure} {value : Json}
    {places : Draft.Places} {c : Children} (hplaces : Draft.PlacesAre shape value places)
    (h : ChildrenAt g.nodes l places c) : g.ChildrenOf l shape value c := by
  cases hplaces with
  | single hshape hvalue =>
    cases c with
    | single id => exact .single hshape hvalue h
    | _ => exact h.elim
  | @list items hshape =>
    cases c with
    | list ids =>
      have hlength : ids.length = items.length := by
        rw [← h.length_eq, List.length_map, List.length_range]
      refine .list hshape hlength fun i id hi => ?_
      obtain ⟨hlt, rfl⟩ := List.getElem?_eq_some_iff.mp hi
      have hat := (List.forall₂_iff_get.mp h).2 i (h.length_eq ▸ hlt) hlt
      simp only [List.get_eq_getElem, List.getElem_map, List.getElem_range] at hat
      exact hat
    | _ => exact h.elim
  | map hshape =>
    cases c with
    | map entries => exact .map hshape h.1 h.2
    | _ => exact h.elim

/-- The structural keywords have the children of their places, one after another. -/
theorem forall₂_keywordOf {keywords : List (String × Json)}
    {places : List (String × Draft.Places)} {children : List (String × Children)}
    (hplaces : Draft.placesOf l keywords = .ok places)
    (h : KeywordsAt g.nodes l places children) :
    List.Forall₂ (g.KeywordOf l) (keywords.filter fun entry => (Structure.of? entry.1).isSome)
      children := by
  induction keywords generalizing places children with
  | nil =>
    cases hplaces
    cases h
    exact .nil
  | cons entry rest ih =>
    obtain ⟨keyword, value⟩ := entry
    unfold Draft.placesOf at hplaces
    split at hplaces
    next hnone =>
      rw [List.filter_cons_of_neg (by simp [hnone])]
      exact ih hplaces h
    next shape hshape =>
      rw [List.filter_cons_of_pos (by simp [hshape])]
      split at hplaces
      next p hp =>
        obtain ⟨more, hmore, rfl⟩ := bind_pure_eq_ok.mp hplaces
        cases h with
        | cons hfirst hrest =>
          have hchildren := childrenOf_of_childrenAt (Draft.places?_eq_some_iff.mp hp) hfirst.2
          exact .cons ⟨hfirst.1, shape, hshape, hchildren⟩ (ih hmore hrest)
      next => cases hplaces

namespace Resolved

variable {id : NodeId} {n : Node}

variable [Uri.Library]

/-- The index finds what stands at a location. -/
theorem find?_eq_some_iff (h : g.Resolved s) : g.find? l = some id ↔ g.StandsAt id l := by
  refine ⟨standsAt_of_findIdx?, fun hat => ?_⟩
  cases hfind : g.find? l with
  | none => exact absurd hat (not_standsAt_of_findIdx? hfind id)
  | some id' => rw [h.distinct id' id l (standsAt_of_findIdx? hfind) hat]

theorem declaredTypes_eq (h : g.Resolved s) (hn : g.node? id = some n) :
    n.declaredTypes = (n.keyword? "type").bind InstanceType.declared? := by
  obtain ⟨_, value, _, hbody, htypes⟩ := h.written id n hn
  rw [Draft.bodyOf?_eq_some_iff] at hbody
  subst hbody
  have hkeyword : n.body.value.get? "type" = n.keyword? "type" := by
    unfold Node.keyword? Node.keywords
    cases n.body <;> rfl
  unfold Draft.declaredTypes at htypes
  rw [hkeyword] at htypes
  split at htypes
  next hnone =>
    rw [← Except.ok.inj htypes, hnone]
    rfl
  next raw hraw =>
    rw [hraw, Option.bind_some]
    split at htypes
    next types hdeclared => rw [← Except.ok.inj htypes, hdeclared]
    next => cases htypes

theorem children_eq (h : g.Resolved s) (hn : g.node? id = some n) :
    List.Forall₂ (g.KeywordOf n.location)
      (n.keywords.filter fun entry => (Structure.of? entry.1).isSome) n.children := by
  unfold Node.keywords
  cases hbody : n.body with
  | bool b =>
    have hlinked := h.linked id n hn
    unfold Node.Linked at hlinked
    rw [hbody] at hlinked
    rw [hlinked.1]
    exact .nil
  | object keywords =>
    obtain ⟨places, hplaces, hchildren⟩ := h.exists_places hn hbody
    exact forall₂_keywordOf hplaces hchildren

/-- A reference leads to what its text names. -/
theorem exists_text_of_reference (h : g.Resolved s) (hn : g.node? id = some n) {target : NodeId}
    (ht : n.reference = some target) :
    ∃ text l, n.keyword? "$ref" = some (.string text) ∧
      s.targetOf? n.location.document text = some l ∧ g.StandsAt target l := by
  obtain ⟨text, htext, hat⟩ := h.reference_spec hn
  rw [ht] at hat
  cases text with
  | none => exact hat.elim
  | some text =>
    obtain ⟨l, hl, hstands⟩ := referenceAt_iff.mp hat
    exact ⟨text, l, Draft.lookup_of_referenceText htext, hl, hstands⟩

/-- What a node refers to stands where the text says. -/
theorem standsAt_of_refersBy (h : g.Resolved s) {document text : String} {target : NodeId}
    (hr : g.RefersBy document text target) :
    ∃ l, s.targetOf? document text = some l ∧ g.StandsAt target l := by
  obtain ⟨id, n, hn, rfl, href, htarget⟩ := hr
  obtain ⟨text', l, href', hl, hstands⟩ := h.exists_text_of_reference hn htarget
  cases href.symm.trans href'
  exact ⟨l, hl, hstands⟩

theorem target_eq_iff (h : g.Resolved s) {document text document' text' : String}
    {target target' : NodeId} (hr : g.RefersBy document text target)
    (hr' : g.RefersBy document' text' target') :
    target = target' ↔ s.targetOf? document text = s.targetOf? document' text' := by
  obtain ⟨l, hl, hat⟩ := h.standsAt_of_refersBy hr
  obtain ⟨l', hl', hat'⟩ := h.standsAt_of_refersBy hr'
  rw [hl, hl', Option.some.injEq]
  constructor
  · rintro rfl
    obtain ⟨n, hn, rfl⟩ := hat
    obtain ⟨n', hn', rfl⟩ := hat'
    cases hn.symm.trans hn'
    rfl
  · rintro rfl
    exact h.distinct _ _ l hat hat'

/-- A graph that the closure of its root fills represents it. -/
theorem represents (h : g.Resolved s) {start : Location} (hroot : g.StandsAt g.root start)
    (hinside : Draft.Inside (s.Closure start) g.nodes) : g.Represents s start where
  root := hroot
  distinct := fun id id' n n' hn hn' he => h.distinct id id' n'.location ⟨n, hn, he⟩ ⟨n', hn', rfl⟩
  index := fun _ _ => h.find?_eq_some_iff
  body := fun _ _ => h.lookup?_eq
  types := fun _ _ => h.declaredTypes_eq
  children := fun _ _ => h.children_eq
  reference := fun id n hn => by
    refine ⟨fun href => ?_, fun href => ?_⟩
    · obtain ⟨target, htarget⟩ := Option.isSome_iff_exists.mp href
      obtain ⟨text, _, hraw, _⟩ := h.exists_text_of_reference hn htarget
      exact Option.isSome_iff_exists.mpr ⟨_, hraw⟩
    · exact Option.isSome_iff_exists.mpr (h.exists_reference hn href)
  target := fun _ _ _ hn ht => h.exists_text_of_reference hn ht
  shared := fun _ _ _ _ _ _ => h.target_eq_iff
  bounded := ⟨hroot.lt_size, fun _ _ => h.lt_size_of_mem_successors⟩
  reachable := fun id hid => by
    have hn : g.node? id = some g.nodes[id] := Array.getElem?_eq_getElem hid
    have hat : g.StandsAt id g.nodes[id].location := ⟨_, hn, rfl⟩
    obtain ⟨id', hat', hpath⟩ := h.path_of_closure hroot (hinside id _ hat)
    cases h.distinct id' id _ hat' hat
    exact hpath

end Resolved

/-- **Resolution represents the closure of its root.** In a store that filing builds, moreover, two
    references share their target just when both name one document, by its key or by its alias, and
    have the same fragment; and a body whose document is spelled in normal form is the fragment of
    the document that is filed under that name. -/
theorem resolve_represents [Uri.Library] {root : String} (h : resolve s root = .ok g) :
    (∃ base, s.canonicalBase root = some base ∧ g.Represents s (.ofDocument base)) ∧
    (s.Built →
      (∀ document text target document' text' target', g.RefersBy document text target →
        g.RefersBy document' text' target' →
        (target = target' ↔ ∃ l : Location, (s.documents.lookup l.document).isSome = true ∧
          (s.Names (s.readIn document text) l.document ∧
            Pointer.parse (Draft.fragmentOf text) = .ok l.pointer) ∧
          s.Names (s.readIn document' text') l.document ∧
            Pointer.parse (Draft.fragmentOf text') = .ok l.pointer)) ∧
      ∀ id n, g.node? id = some n → Uri.normalize n.location.document = n.location.document →
        ∃ document, s.documents.lookup n.location.document = some document ∧
          n.location.pointer.resolve document = some n.body.value) := by
  obtain ⟨hresolved, base, hbase, hroot⟩ := resolved_of_resolve h
  have hinside := ((resolves_resolve s root).keeps hbase).1 g h
  refine ⟨⟨base, hbase, hresolved.represents hroot hinside⟩, fun hs => ⟨?_, ?_⟩⟩
  · intro document text target document' text' target' hr hr'
    rw [hresolved.target_eq_iff hr hr']
    obtain ⟨l, hl, _⟩ := hresolved.standsAt_of_refersBy hr
    constructor
    · intro hsame
      obtain ⟨hpointer, hfiled, hnames⟩ := (Store.targetOf?_eq_some_iff_names hs).mp hl
      obtain ⟨hpointer', _, hnames'⟩ :=
        (Store.targetOf?_eq_some_iff_names hs).mp (hsame.symm.trans hl)
      exact ⟨l, hfiled, ⟨hnames, hpointer⟩, hnames', hpointer'⟩
    · rintro ⟨l', hfiled, ⟨hnames, hpointer⟩, hnames', hpointer'⟩
      rw [(Store.targetOf?_eq_some_iff_names hs).mpr ⟨hpointer, hfiled, hnames⟩,
        (Store.targetOf?_eq_some_iff_names hs).mpr ⟨hpointer', hfiled, hnames'⟩]
  · intro id n hn hnormal
    exact Store.exists_document_of_lookup? hs (hresolved.lookup?_eq hn)
      (hresolved.written id n hn).1 hnormal

/-- Four spellings of one schema: without a document part, by the last segment of the key, by that
    of the alias, and in full. -/
def spellings : List String :=
  ["#/definitions/d", "a.json#/definitions/d", "b.json#/definitions/d",
    "http://h/a.json#/definitions/d"]

/-- A document that refers to a schema of its own in all these ways. -/
def spelled : Json :=
  .object [("$id", .string "b.json"),
    ("anyOf", .array (spellings.map fun text => .object [("$ref", .string text)])),
    ("definitions", .object [("d", .bool true)])]

/-- The store of the document. -/
def spelledStore : Store := Store.empty.register (Uri.normalize "http://h/a.json") spelled

/-- The four references are resolved, and share their target. -/
theorem resolve_represents_spellings :
    ∃ g, resolve spelledStore "http://h/a.json" = .ok g ∧ g.referenceEdges.length = 4 ∧
      ∀ text ∈ spellings, ∀ text' ∈ spellings, ∀ target target',
        g.RefersBy "http://h/a.json" text target → g.RefersBy "http://h/a.json" text' target' →
        target = target' := by
  have hfour : ((resolve spelledStore "http://h/a.json").toOption.any fun g =>
      g.referenceEdges.length == 4) = true := by decide +kernel
  have hnamed : spellings.all (fun text =>
      decide (spelledStore.targetOf? "http://h/a.json" text
        = some ⟨"http://h/a.json", ⟨["definitions", "d"]⟩⟩)) = true := by decide +kernel
  have htarget := fun text htext => of_decide_eq_true (List.all_eq_true.mp hnamed text htext)
  obtain ⟨g, hg, hfour⟩ := any_toOption_eq_true.mp hfour
  obtain ⟨⟨_, _, hrepresents⟩, _⟩ := resolve_represents hg
  refine ⟨g, hg, beq_iff_eq.mp hfour, fun text ht text' ht' target target' hr hr' => ?_⟩
  rw [hrepresents.shared _ _ _ _ _ _ hr hr', htarget text ht, htarget text' ht']

end Graph

end TaggedSchema
