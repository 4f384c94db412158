import TaggedSchema.Graph.Resolution
import TaggedSchema.Proofs.Fallible
import TaggedSchema.Proofs.Positions
import Mathlib.Data.List.Forall2
import Mathlib.Data.List.Perm.Subperm

/-!
# What resolution establishes

Resolution notes nodes and expands them. This file fixes what holds at its end (`Graph.Resolved`):

* no two nodes stand at one location, and each says what the store has there;
* each is linked as it is written: under every structural keyword the nodes of the places below it,
  and as its reference the node that the text of `$ref` leads to (`Node.Linked`).

Everything that notes nodes does nothing else (`Draft.Grows`), so the invariant of a draft
(`Draft.Sound`) is proved of one noted node and of one expansion. The loop of expansions ends, and
the fuel of `Draft.expandAll` is never felt (`Draft.Sound.runs`), because every expansion uses up
one of the locations of the store (`Draft.Sound.size_le`).
-/

namespace TaggedSchema

/-! ## 1. Nodes at locations -/

/-- The node of a number stands at a location. -/
def StandsAt (nodes : Array Node) (id : NodeId) (l : Location) : Prop :=
  ∃ n, nodes[id]? = some n ∧ n.location = l

theorem StandsAt.lt_size {nodes : Array Node} {id : NodeId} {l : Location}
    (h : StandsAt nodes id l) : id < nodes.size := by
  obtain ⟨n, hn, _⟩ := h
  exact (Array.getElem?_eq_some_iff.mp hn).1

/-- The node that is found by its location stands there. -/
theorem standsAt_of_findIdx? {nodes : Array Node} {id : NodeId} {l : Location}
    (h : (nodes.findIdx? fun n => n.location == l) = some id) : StandsAt nodes id l := by
  obtain ⟨hlt, heq, _⟩ := Array.findIdx?_eq_some_iff_getElem.mp h
  exact ⟨nodes[id], Array.getElem?_eq_getElem hlt, eq_of_beq heq⟩

/-- Where none is found, none stands. -/
theorem not_standsAt_of_findIdx? {nodes : Array Node} {l : Location}
    (h : (nodes.findIdx? fun n => n.location == l) = none) (id : NodeId) :
    ¬ StandsAt nodes id l := by
  rintro ⟨n, hn, hnl⟩
  have hne := Array.findIdx?_eq_none_iff.mp h n (Array.mem_of_getElem? hn)
  rw [hnl, beq_self_eq_true] at hne
  cases hne

/-- The children are the nodes at the places of a keyword. -/
def ChildrenAt (nodes : Array Node) (l : Location) : Draft.Places → Children → Prop
  | .single, .single id => StandsAt nodes id l
  | .list count, .list ids =>
    List.Forall₂ (fun segment id => StandsAt nodes id (l.join segment))
      ((List.range count).map Nat.repr) ids
  | .map keys, .map entries =>
    entries.map (·.1) = keys ∧ ∀ entry ∈ entries, StandsAt nodes entry.2 (l.join entry.1)
  | _, _ => False

/-- The node that the text of a reference leads to, seen from a document. -/
def ReferenceAt [Uri.Library] (store : Store) (nodes : Array Node) (document : String) :
    Option String → Option NodeId → Prop
  | none, none => True
  | some text, some target =>
    ∃ pointer key, Pointer.parse (Draft.fragmentOf text) = .ok pointer ∧
      store.canonicalBase (Store.resolveUri ((store.baseUri document).getD document) text)
        = some key ∧
      StandsAt nodes target ⟨key, pointer⟩
  | _, _ => False

/-- The children of keywords are the nodes at their places, keyword by keyword. -/
def KeywordsAt (nodes : Array Node) (l : Location) (places : List (String × Draft.Places))
    (children : List (String × Children)) : Prop :=
  List.Forall₂ (fun p c => p.1 = c.1 ∧ ChildrenAt nodes (l.join p.1) p.2 c.2) places children

/-- **A node leads where it is written to lead.** -/
def Node.Linked [Uri.Library] (store : Store) (nodes : Array Node) (n : Node) : Prop :=
  match n.body with
  | .bool _ => n.children = [] ∧ n.reference = none
  | .object keywords =>
    (∃ places, Draft.placesOf n.location keywords = .ok places ∧
      KeywordsAt nodes n.location places n.children) ∧
    ∃ text, Draft.referenceText n.location keywords = .ok text ∧
      ReferenceAt store nodes n.location.document text n.reference

/-- A node says what the store has at its location. -/
def Node.Written [Uri.Library] (store : Store) (n : Node) : Prop :=
  n.location.document ∈ store.names ∧
    ∃ schema, store.lookup? n.location = some schema ∧ Draft.bodyOf? schema = some n.body ∧
      Draft.declaredTypes n.location schema = .ok n.declaredTypes

section Monotone

variable {store : Store} {nodes nodes' : Array Node}

theorem ChildrenAt.mono (h : ∀ id l, StandsAt nodes id l → StandsAt nodes' id l) {l : Location}
    {places : Draft.Places} {children : Children} (hc : ChildrenAt nodes l places children) :
    ChildrenAt nodes' l places children := by
  cases places with
  | single =>
    cases children with
    | single id => exact h _ _ hc
    | _ => exact hc
  | list count =>
    cases children with
    | list ids => exact List.Forall₂.imp (fun _ _ hat => h _ _ hat) hc
    | _ => exact hc
  | map keys =>
    cases children with
    | map entries => exact ⟨hc.1, fun entry hentry => h _ _ (hc.2 entry hentry)⟩
    | _ => exact hc

theorem KeywordsAt.mono (h : ∀ id l, StandsAt nodes id l → StandsAt nodes' id l) {l : Location}
    {places : List (String × Draft.Places)} {children : List (String × Children)}
    (hc : KeywordsAt nodes l places children) : KeywordsAt nodes' l places children :=
  List.Forall₂.imp (fun _ _ hp => ⟨hp.1, hp.2.mono h⟩) hc

variable [Uri.Library]

theorem ReferenceAt.mono (h : ∀ id l, StandsAt nodes id l → StandsAt nodes' id l)
    {document : String} {text : Option String} {target : Option NodeId}
    (hr : ReferenceAt store nodes document text target) :
    ReferenceAt store nodes' document text target := by
  cases text with
  | none => cases target <;> exact hr
  | some text =>
    cases target with
    | none => exact hr
    | some target =>
      obtain ⟨pointer, key, hpointer, hkey, hat⟩ := hr
      exact ⟨pointer, key, hpointer, hkey, h _ _ hat⟩

theorem Node.Linked.mono (h : ∀ id l, StandsAt nodes id l → StandsAt nodes' id l) {n : Node}
    (hn : n.Linked store nodes) : n.Linked store nodes' := by
  unfold Linked at *
  split at hn
  · exact hn
  · obtain ⟨⟨places, hplaces, hchildren⟩, text, htext, hreference⟩ := hn
    exact ⟨⟨places, hplaces, hchildren.mono h⟩, text, htext, hreference.mono h⟩

end Monotone

/-! ## 2. Noting -/

namespace Draft

variable {store : Store} {d d' d'' : Draft}

/-- A node that has been noted and nothing else. -/
def noted (l : Location) (body : SchemaBody) (types : Option (List InstanceType)) : Node :=
  ⟨l, body, types, [], none⟩

theorem standsAt_push {nodes : Array Node} {n : Node} {id : NodeId} {l : Location} :
    StandsAt (nodes.push n) id l ↔ StandsAt nodes id l ∨ (id = nodes.size ∧ n.location = l) := by
  unfold StandsAt
  rw [Array.getElem?_push]
  split
  next h =>
    subst h
    constructor
    · rintro ⟨m, hm, hl⟩
      cases hm
      exact Or.inr ⟨rfl, hl⟩
    · rintro (⟨m, hm, _⟩ | ⟨_, hl⟩)
      · exact absurd (Array.getElem?_eq_some_iff.mp hm).1 (Nat.lt_irrefl _)
      · exact ⟨n, rfl, hl⟩
  next h =>
    constructor
    · exact Or.inl
    · rintro (hm | ⟨he, _⟩)
      · exact hm
      · exact absurd he h

/-- A change of children and reference only. -/
def Relinks (change : Node → Node) : Prop :=
  ∀ n, (change n).location = n.location ∧ (change n).body = n.body ∧
    (change n).declaredTypes = n.declaredTypes

/-- Such a change moves no node. -/
theorem standsAt_modify {change : Node → Node} (hchange : Relinks change) {nodes : Array Node}
    {id id' : NodeId} {l : Location} :
    StandsAt (nodes.modify id change) id' l ↔ StandsAt nodes id' l := by
  unfold StandsAt
  rw [Array.getElem?_modify]
  split
  · cases nodes[id']? with
    | none => simp
    | some n => simp [(hchange n).1]
  · exact Iff.rfl

variable [Uri.Library]

/-- The draft has been noted into: each time a node that says what the store has, at a location
    where there was none. -/
inductive Grows (store : Store) (d : Draft) : Draft → Prop where
  | refl : Grows store d d
  | note {d' : Draft} {l : Location} {body : SchemaBody} {types : Option (List InstanceType)}
      (h : Grows store d d') (fresh : ∀ id, ¬ StandsAt d'.nodes id l)
      (written : (noted l body types).Written store) :
      Grows store d ⟨d'.nodes.push (noted l body types), d'.nodes.size :: d'.pending⟩

theorem Grows.trans (h : Grows store d d') (h' : Grows store d' d'') : Grows store d d'' := by
  induction h' with
  | refl => exact h
  | note _ fresh written ih => exact .note ih fresh written

theorem Grows.standsAt (h : Grows store d d') {id : NodeId} {l : Location}
    (hat : StandsAt d.nodes id l) : StandsAt d'.nodes id l := by
  induction h with
  | refl => exact hat
  | note _ _ _ ih => exact standsAt_push.mpr (Or.inl ih)

/-- As many nodes come to the draft as to its pending ones. -/
theorem Grows.size (h : Grows store d d') :
    d'.nodes.size + d.pending.length = d.nodes.size + d'.pending.length := by
  induction h with
  | refl => rfl
  | note _ _ _ ih =>
    rw [Array.size_push, List.length_cons]
    omega

/-- What noting a location yields: the draft has grown, and the node, if there is one, is there. -/
theorem note_spec {l : Location} {keyword : String} {found : Option NodeId}
    (hl : l.document ∈ store.names) (h : d.note store l keyword = .ok (found, d')) :
    Grows store d d' ∧ ∀ id, found = some id → StandsAt d'.nodes id l := by
  unfold note at h
  split at h
  next id hid =>
    cases h
    refine ⟨.refl, fun id' he => ?_⟩
    cases he
    exact standsAt_of_findIdx? hid
  next hnone =>
    split at h
    next =>
      cases h
      exact ⟨.refl, fun _ he => by cases he⟩
    next schema hschema =>
      split at h
      next => cases h
      next body hbody =>
        obtain ⟨types, htypes, h⟩ := bind_eq_ok.mp h
        cases h
        have hfresh := not_standsAt_of_findIdx? hnone
        refine ⟨.note .refl hfresh ⟨hl, schema, hschema, hbody, htypes⟩, fun id he => ?_⟩
        cases he
        exact standsAt_push.mpr (Or.inr ⟨rfl, rfl⟩)

theorem noteChild_spec {l : Location} {keyword : String} {id : NodeId}
    (hl : l.document ∈ store.names) (h : d.noteChild store l keyword = .ok (id, d')) :
    Grows store d d' ∧ StandsAt d'.nodes id l := by
  obtain ⟨⟨found, d₁⟩, hnote, h⟩ := bind_eq_ok.mp h
  have hspec := note_spec hl hnote
  cases found with
  | none => cases h
  | some id' =>
    cases h
    exact ⟨hspec.1, hspec.2 id rfl⟩

theorem noteAll_spec {l : Location} {keyword : String} {segments : List String}
    {ids : List NodeId} (hl : l.document ∈ store.names)
    (h : noteAll store l keyword d segments = .ok (ids, d')) :
    Grows store d d' ∧
      List.Forall₂ (fun segment id => StandsAt d'.nodes id (l.join segment)) segments ids := by
  induction segments generalizing d ids with
  | nil =>
    cases h
    exact ⟨.refl, .nil⟩
  | cons segment rest ih =>
    obtain ⟨⟨id, d₁⟩, hchild, h⟩ := bind_eq_ok.mp h
    obtain ⟨⟨more, d₂⟩, hrest, h⟩ := bind_eq_ok.mp h
    cases h
    obtain ⟨hgrows, hat⟩ := noteChild_spec (l := l.join segment) hl hchild
    obtain ⟨hgrows', hmore⟩ := ih hrest
    exact ⟨hgrows.trans hgrows', .cons (hgrows'.standsAt hat) hmore⟩

theorem noteChildren_spec {l : Location} {keyword : String} {places : Places}
    {children : Children} (hl : l.document ∈ store.names)
    (h : noteChildren store l keyword d places = .ok (children, d')) :
    Grows store d d' ∧ ChildrenAt d'.nodes (l.join keyword) places children := by
  cases places with
  | single =>
    obtain ⟨⟨id, d₁⟩, hchild, h⟩ := bind_eq_ok.mp h
    cases h
    exact noteChild_spec (l := l.join keyword) hl hchild
  | list count =>
    obtain ⟨⟨ids, d₁⟩, hall, h⟩ := bind_eq_ok.mp h
    cases h
    exact noteAll_spec (l := l.join keyword) hl hall
  | map keys =>
    obtain ⟨⟨ids, d₁⟩, hall, h⟩ := bind_eq_ok.mp h
    cases h
    obtain ⟨hgrows, hat⟩ := noteAll_spec (l := l.join keyword) hl hall
    refine ⟨hgrows, List.map_fst_zip (Nat.le_of_eq hat.length_eq), fun entry hentry => ?_⟩
    exact (List.forall₂_iff_zip.mp hat).2 hentry

theorem noteKeywords_spec {l : Location} {places : List (String × Places)}
    {children : List (String × Children)} (hl : l.document ∈ store.names)
    (h : noteKeywords store l d places = .ok (children, d')) :
    Grows store d d' ∧ KeywordsAt d'.nodes l places children := by
  induction places generalizing d children with
  | nil =>
    cases h
    exact ⟨.refl, .nil⟩
  | cons entry rest ih =>
    obtain ⟨⟨first, d₁⟩, hfirst, h⟩ := bind_eq_ok.mp h
    obtain ⟨⟨more, d₂⟩, hrest, h⟩ := bind_eq_ok.mp h
    cases h
    obtain ⟨hgrows, hat⟩ := noteChildren_spec hl hfirst
    obtain ⟨hgrows', hmore⟩ := ih hrest
    exact ⟨hgrows.trans hgrows', .cons ⟨rfl, hat.mono fun _ _ => hgrows'.standsAt⟩ hmore⟩

theorem noteReference_spec {source : Location} {text : String} {target : NodeId}
    (h : noteReference store d source text = .ok (target, d')) :
    Grows store d d' ∧
      ReferenceAt store d'.nodes source.document (some text) (some target) := by
  unfold noteReference at h
  split at h
  next => cases h
  next pointer hpointer =>
    dsimp only at h
    split at h
    next => cases h
    next key hkey =>
      obtain ⟨⟨found, d₁⟩, hnote, h⟩ := bind_eq_ok.mp h
      have hspec := note_spec (l := ⟨key, pointer⟩) (Store.mem_names_of_canonicalBase hkey) hnote
      cases found with
      | none => cases h
      | some id =>
        cases h
        exact ⟨hspec.1, pointer, key, hpointer, hkey, hspec.2 target rfl⟩

/-! ## 3. The invariant of a draft -/

/-- What holds of the nodes of a draft, some of them still open: noted, and not yet expanded. -/
structure Sound (store : Store) (nodes : Array Node) (opened : List NodeId) :
    Prop where
  distinct : ∀ id id' l, StandsAt nodes id l → StandsAt nodes id' l → id = id'
  written : ∀ (id : NodeId) (n : Node), nodes[id]? = some n → n.Written store
  nodup : opened.Nodup
  lt_size : ∀ id ∈ opened, id < nodes.size
  bare : ∀ (id : NodeId) (n : Node), nodes[id]? = some n → id ∈ opened →
    n.children = [] ∧ n.reference = none
  linked : ∀ (id : NodeId) (n : Node), nodes[id]? = some n → id ∉ opened → n.Linked store nodes

/-- **Every draft has room in the store**: its nodes stand at different locations of it. -/
theorem Sound.size_le {nodes : Array Node} {opened : List NodeId}
    (h : Sound store nodes opened) : nodes.size ≤ store.locations.length := by
  have hnodup : (nodes.toList.map (·.location)).Nodup := by
    rw [List.Nodup, List.pairwise_map, List.pairwise_iff_getElem]
    intro i j hi hj hlt heq
    have hstands (k : Nat) (hk : k < nodes.toList.length) :
        StandsAt nodes k nodes.toList[k].location :=
      ⟨nodes.toList[k], by rw [← Array.getElem?_toList, List.getElem?_eq_getElem hk], rfl⟩
    exact Nat.ne_of_lt hlt (h.distinct i j _ (hstands i hi) (heq ▸ hstands j hj))
  have hsubset : nodes.toList.map (·.location) ⊆ store.locations := by
    intro l hl
    obtain ⟨n, hn, rfl⟩ := List.mem_map.mp hl
    obtain ⟨id, hid⟩ := List.mem_iff_getElem?.mp hn
    rw [Array.getElem?_toList] at hid
    obtain ⟨hname, schema, hschema, _⟩ := h.written id n hid
    exact Store.mem_locations hname hschema
  have hlength := (hnodup.subperm hsubset).length_le
  rw [List.length_map, Array.length_toList] at hlength
  exact hlength

theorem sound_empty : Sound store #[] [] where
  distinct := fun _ _ _ hat => absurd hat.lt_size (Nat.not_lt_zero _)
  written := fun _ _ hn => absurd (Array.getElem?_eq_some_iff.mp hn).1 (Nat.not_lt_zero _)
  nodup := .nil
  lt_size := fun _ hid => absurd hid List.not_mem_nil
  bare := fun _ _ _ hid => absurd hid List.not_mem_nil
  linked := fun _ _ hn => absurd (Array.getElem?_eq_some_iff.mp hn).1 (Nat.not_lt_zero _)

/-- Noting preserves the invariant, whatever else is open. -/
theorem Sound.grows {extra : List NodeId}
    (h : Sound store d.nodes (extra ++ d.pending)) (hgrows : Grows store d d')
    : Sound store d'.nodes (extra ++ d'.pending) := by
  induction hgrows with
  | refl => exact h
  | @note d' l body types _ fresh written ih =>
    have hopen : ∀ id, id ∈ extra ++ d'.nodes.size :: d'.pending ↔
        id = d'.nodes.size ∨ id ∈ extra ++ d'.pending := fun id => by
      simp only [List.mem_append, List.mem_cons]
      tauto
    have hold : ∀ id n, (d'.nodes.push (noted l body types))[id]? = some n →
        (id = d'.nodes.size ∧ n = noted l body types) ∨
          (id ≠ d'.nodes.size ∧ d'.nodes[id]? = some n) := fun id n hn => by
      rw [Array.getElem?_push] at hn
      split at hn
      next he => exact Or.inl ⟨he, (Option.some.inj hn).symm⟩
      next hne => exact Or.inr ⟨hne, hn⟩
    refine ⟨?_, ?_, ?_, ?_, ?_, ?_⟩
    · intro id id' l' hat hat'
      rcases standsAt_push.mp hat with hat | ⟨rfl, rfl⟩
      · rcases standsAt_push.mp hat' with hat' | ⟨rfl, rfl⟩
        · exact ih.distinct id id' l' hat hat'
        · exact absurd hat (fresh id)
      · rcases standsAt_push.mp hat' with hat' | ⟨rfl, _⟩
        · exact absurd hat' (fresh id')
        · rfl
    · intro id n hn
      rcases hold id n hn with ⟨_, rfl⟩ | ⟨_, hn⟩
      · exact written
      · exact ih.written id n hn
    · have hnew : d'.nodes.size ∉ extra ++ d'.pending := fun hmem =>
        Nat.lt_irrefl _ (ih.lt_size _ hmem)
      exact (List.perm_middle.nodup_iff).mpr (List.nodup_cons.mpr ⟨hnew, ih.nodup⟩)
    · intro id hid
      rw [Array.size_push]
      rcases (hopen id).mp hid with rfl | hid
      · exact Nat.lt_succ_self _
      · exact Nat.lt_succ_of_lt (ih.lt_size id hid)
    · intro id n hn hid
      rcases hold id n hn with ⟨_, rfl⟩ | ⟨hne, hn⟩
      · exact ⟨rfl, rfl⟩
      · exact ih.bare id n hn (((hopen id).mp hid).resolve_left hne)
    · intro id n hn hid
      obtain ⟨hne, hid⟩ := not_or.mp (mt (hopen id).mpr hid)
      rcases hold id n hn with ⟨he, _⟩ | ⟨_, hn⟩
      · exact absurd he hne
      · exact (ih.linked id n hn hid).mono fun _ _ hat => standsAt_push.mpr (Or.inl hat)

/-! ## 4. Expanding -/

/-- Linking the first open node closes it. -/
theorem Sound.link {nodes : Array Node} {id : NodeId} {opened : List NodeId}
    (h : Sound store nodes (id :: opened)) {n : Node} (hn : nodes[id]? = some n)
    {change : Node → Node} (hchange : Relinks change)
    (hlinked : (change n).Linked store nodes) :
    Sound store (nodes.modify id change) opened := by
  have hat : ∀ id' l, StandsAt nodes id' l → StandsAt (nodes.modify id change) id' l :=
    fun _ _ => (standsAt_modify hchange).mpr
  have hold : ∀ (id' : NodeId) (m : Node), (nodes.modify id change)[id']? = some m →
      (id' = id ∧ m = change n) ∨ (id' ≠ id ∧ nodes[id']? = some m) := by
    intro id' m hm
    rw [Array.getElem?_modify] at hm
    split at hm
    next he =>
      subst he
      rw [hn] at hm
      exact Or.inl ⟨rfl, (Option.some.inj hm).symm⟩
    next hne => exact Or.inr ⟨fun he => hne he.symm, hm⟩
  obtain ⟨hid, hnodup⟩ := List.nodup_cons.mp h.nodup
  refine ⟨?_, ?_, hnodup, ?_, ?_, ?_⟩
  · intro a b l ha hb
    exact h.distinct a b l ((standsAt_modify hchange).mp ha) ((standsAt_modify hchange).mp hb)
  · intro id' m hm
    rcases hold id' m hm with ⟨_, rfl⟩ | ⟨_, hm⟩
    · obtain ⟨hlocation, hbody, htypes⟩ := hchange n
      unfold Node.Written
      rw [hlocation, hbody, htypes]
      exact h.written id n hn
    · exact h.written id' m hm
  · intro id' hid'
    rw [Array.size_modify]
    exact h.lt_size id' (List.mem_cons_of_mem _ hid')
  · intro id' m hm hid'
    rcases hold id' m hm with ⟨rfl, _⟩ | ⟨_, hm⟩
    · exact absurd hid' hid
    · exact h.bare id' m hm (List.mem_cons_of_mem _ hid')
  · intro id' m hm hid'
    rcases hold id' m hm with ⟨_, rfl⟩ | ⟨hne, hm⟩
    · exact hlinked.mono hat
    · have hclosed : id' ∉ id :: opened := fun hmem => (List.mem_cons.mp hmem).elim hne hid'
      exact (h.linked id' m hm hclosed).mono hat

/-- An open node that leads nowhere is closed as it is. -/
theorem Sound.close {nodes : Array Node} {id : NodeId} {opened : List NodeId}
    (h : Sound store nodes (id :: opened)) {n : Node} (hn : nodes[id]? = some n)
    (hlinked : n.Linked store nodes) : Sound store nodes opened := by
  obtain ⟨_, hnodup⟩ := List.nodup_cons.mp h.nodup
  refine ⟨h.distinct, h.written, hnodup,
    fun id' hid' => h.lt_size id' (List.mem_cons_of_mem _ hid'),
    fun id' m hm hid' => h.bare id' m hm (List.mem_cons_of_mem _ hid'), fun id' m hm hid' => ?_⟩
  by_cases heq : id' = id
  · subst heq
    rw [hn] at hm
    cases hm
    exact hlinked
  · exact h.linked id' m hm fun hmem => (List.mem_cons.mp hmem).elim heq hid'

/-- One expansion either finds nothing to do, or lets the draft grow and links the node. -/
theorem expand_spec {id : NodeId} {n : Node} (hn : d.nodes[id]? = some n)
    (hname : n.location.document ∈ store.names) (hbare : n.children = [] ∧ n.reference = none)
    (he : expand store d id = .ok d') :
    (d' = d ∧ n.Linked store d.nodes) ∨
      ∃ d₁ change, Grows store d d₁ ∧ Relinks change ∧ (change n).Linked store d₁.nodes ∧
        d' = { d₁ with nodes := d₁.nodes.modify id change } := by
  unfold expand at he
  rw [hn] at he
  dsimp only at he
  unfold Node.Linked
  cases hbody : n.body with
  | bool b =>
    rw [hbody] at he
    cases he
    exact Or.inl ⟨rfl, hbare⟩
  | object keywords =>
    rw [hbody] at he
    obtain ⟨places, hplaces, he⟩ := bind_eq_ok.mp he
    obtain ⟨text, htext, he⟩ := bind_eq_ok.mp he
    obtain ⟨⟨children, d₁⟩, hchildren, he⟩ := bind_eq_ok.mp he
    obtain ⟨hgrows, hat⟩ := noteKeywords_spec hname hchildren
    refine Or.inr ?_
    cases text with
    | none =>
      cases he
      refine ⟨d₁, fun n => { n with children }, hgrows, fun _ => ⟨rfl, rfl, rfl⟩, ?_, rfl⟩
      dsimp only
      rw [hbody, hbare.2]
      exact ⟨⟨places, hplaces, hat⟩, none, htext, trivial⟩
    | some text =>
      obtain ⟨⟨target, d₂⟩, htarget, he⟩ := bind_eq_ok.mp he
      obtain ⟨hgrows', href⟩ := noteReference_spec htarget
      cases he
      refine ⟨d₂, fun n => { n with children, reference := some target }, hgrows.trans hgrows',
        fun _ => ⟨rfl, rfl, rfl⟩, ?_, rfl⟩
      dsimp only
      rw [hbody]
      exact ⟨⟨places, hplaces, hat.mono fun _ _ => hgrows'.standsAt⟩, some text, htext, href⟩

/-- Grown drafts keep their nodes. -/
theorem Grows.getElem? (h : Grows store d d') {id : NodeId} {n : Node}
    (hn : d.nodes[id]? = some n) : d'.nodes[id]? = some n := by
  induction h with
  | refl => exact hn
  | note _ _ _ ih =>
    have hlt := (Array.getElem?_eq_some_iff.mp ih).1
    rw [Array.getElem?_push, if_neg (Nat.ne_of_lt hlt)]
    exact ih

/-- **One expansion keeps the invariant and all nodes**, and opens as many nodes as it notes. -/
theorem Sound.expand {id : NodeId} (h : Sound store d.nodes (id :: d.pending))
    (he : expand store d id = .ok d') :
    Sound store d'.nodes d'.pending ∧
      d'.nodes.size + d.pending.length = d.nodes.size + d'.pending.length ∧
      ∀ id' l, StandsAt d.nodes id' l → StandsAt d'.nodes id' l := by
  have hlt : id < d.nodes.size := h.lt_size id List.mem_cons_self
  have hn : d.nodes[id]? = some d.nodes[id] := Array.getElem?_eq_getElem hlt
  generalize d.nodes[id] = n at hn
  rcases expand_spec hn (h.written id n hn).1 (h.bare id n hn List.mem_cons_self) he with
    ⟨rfl, hlinked⟩ | ⟨d₁, change, hgrows, hchange, hlinked, rfl⟩
  · exact ⟨h.close hn hlinked, rfl, fun _ _ hat => hat⟩
  · have hsound : Sound store d₁.nodes ([id] ++ d₁.pending) := Sound.grows h hgrows
    refine ⟨hsound.link (hgrows.getElem? hn) hchange hlinked, ?_, fun id' l hat => ?_⟩
    · rw [Array.size_modify]
      exact hgrows.size
    · exact (standsAt_modify hchange).mpr (hgrows.standsAt hat)

/-- **Expanding with no bound on the turns**: it ends when nothing is pending, or with the first
    error. -/
inductive Runs (store : Store) : Draft → Except ResolutionError Draft → Prop where
  | done {nodes : Array Node} : Runs store ⟨nodes, []⟩ (.ok ⟨nodes, []⟩)
  | fail {nodes : Array Node} {id : NodeId} {rest : List NodeId} {e : ResolutionError}
      (he : expand store ⟨nodes, rest⟩ id = .error e) : Runs store ⟨nodes, id :: rest⟩ (.error e)
  | turn {nodes : Array Node} {id : NodeId} {rest : List NodeId} {d : Draft}
      {outcome : Except ResolutionError Draft} (he : expand store ⟨nodes, rest⟩ id = .ok d)
      (h : Runs store d outcome) : Runs store ⟨nodes, id :: rest⟩ outcome

/-- **Expanding ends from every sound draft**, with what it gives where its turns are bounded by the
    locations of the store. -/
theorem Sound.runs {fuel : Nat} (h : Sound store d.nodes d.pending)
    (hfuel : store.locations.length - d.nodes.size + d.pending.length ≤ fuel) :
    Runs store d (expandAll store fuel d) := by
  induction fuel generalizing d with
  | zero =>
    obtain ⟨nodes, pending⟩ := d
    dsimp only at hfuel
    have hnone : pending = [] := List.length_eq_zero_iff.mp (by omega)
    subst hnone
    exact .done
  | succ fuel ih =>
    obtain ⟨nodes, pending⟩ := d
    cases pending with
    | nil => exact .done
    | cons id rest =>
      unfold expandAll
      dsimp only at hfuel ⊢
      cases he : Draft.expand store ⟨nodes, rest⟩ id with
      | error e => exact .fail he
      | ok d' =>
        obtain ⟨hsound, hsize, _⟩ := Sound.expand (d := ⟨nodes, rest⟩) h he
        have hroom := hsound.size_le
        rw [List.length_cons] at hfuel
        dsimp only at hsize
        exact .turn he (ih hsound (by omega))

/-- **Where expanding ends without an error, every node is linked.** -/
theorem Runs.sound {outcome : Except ResolutionError Draft} (hrun : Runs store d outcome)
    (h : Sound store d.nodes d.pending) (he : outcome = .ok d') :
    Sound store d'.nodes [] ∧ ∀ id l, StandsAt d.nodes id l → StandsAt d'.nodes id l := by
  induction hrun with
  | done =>
    cases he
    exact ⟨h, fun _ _ hat => hat⟩
  | fail => cases he
  | @turn nodes id rest _ _ hexpand _ ih =>
    obtain ⟨hsound, _, hkept⟩ := Sound.expand (d := ⟨nodes, rest⟩) h hexpand
    obtain ⟨hall, hkept'⟩ := ih hsound he
    exact ⟨hall, fun id' l hat => hkept' id' l (hkept id' l hat)⟩

/-- The location that resolution starts from, noted as the first: the invariant holds, and there is
    fuel for everything that can follow. -/
theorem sound_of_first {base keyword : String} {found : Option NodeId} (hbase : base ∈ store.names)
    (h : note store ⟨#[], []⟩ (.ofDocument base) keyword = .ok (found, d)) :
    Sound store d.nodes d.pending ∧
      (∀ id, found = some id → StandsAt d.nodes id (.ofDocument base)) ∧
      store.locations.length - d.nodes.size + d.pending.length
        ≤ (store.documents.length + store.aliases.length) * store.valueCount + 1 := by
  obtain ⟨hgrows, hat⟩ := note_spec (l := .ofDocument base) hbase h
  have hsound : Sound store d.nodes ([] ++ d.pending) :=
    Sound.grows (show Sound store #[] ([] ++ []) from sound_empty) hgrows
  have hsize : d.nodes.size = d.pending.length := by
    have := hgrows.size
    simpa using this
  have hroom := hsound.size_le
  have hbound := store.length_locations_le
  exact ⟨hsound, hat, by omega⟩

end Draft

/-! ## 5. Resolved graphs -/

namespace Graph

/-- The node of a number stands at a location. -/
def StandsAt (g : Graph) (id : NodeId) (l : Location) : Prop := TaggedSchema.StandsAt g.nodes id l

variable [Uri.Library]

/-- **What resolution promises of a graph.** -/
structure Resolved (store : Store) (g : Graph) : Prop where
  distinct : ∀ id id' l, g.StandsAt id l → g.StandsAt id' l → id = id'
  written : ∀ id n, g.node? id = some n → n.Written store
  linked : ∀ id n, g.node? id = some n → n.Linked store g.nodes

/-- **Resolution keeps its promise**, and the root stands at the document asked for. -/
theorem resolved_of_resolve {store : Store} {root : String} {g : Graph}
    (h : resolve store root = .ok g) :
    g.Resolved store ∧
      ∃ base, store.canonicalBase root = some base ∧ g.StandsAt g.root (.ofDocument base) := by
  unfold resolve at h
  cases hbase : store.canonicalBase root with
  | none =>
    rw [hbase] at h
    cases h
  | some base =>
    rw [hbase] at h
    obtain ⟨⟨found, d⟩, hnote, h⟩ := bind_eq_ok.mp h
    cases found with
    | none => cases h
    | some id =>
      obtain ⟨d', hexpand, h⟩ := bind_eq_ok.mp h
      cases h
      obtain ⟨hsound, hat, hfuel⟩ :=
        Draft.sound_of_first (Store.mem_names_of_canonicalBase hbase) hnote
      obtain ⟨hall, hkept⟩ := (hsound.runs hfuel).sound hsound hexpand
      exact ⟨⟨hall.distinct, hall.written, fun id n hn => hall.linked id n hn List.not_mem_nil⟩,
        base, rfl, hkept _ _ (hat id rfl)⟩

end Graph

end TaggedSchema
