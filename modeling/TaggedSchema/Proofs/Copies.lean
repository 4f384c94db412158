import TaggedSchema.Proofs.Analysis
import TaggedSchema.Proofs.Positions
import TaggedSchema.Proofs.Representation

/-!
# Schemas that are written alike

What the analysis of a discriminator reads of a branch is written in the schema that the branch
amounts to and in the schema of the property there. So where these are written alike, be it in
another place, in another document or behind other references (`Graph.Copies`), the branch declares
the same tags (`Discriminator.SameBranch.tagged`), and owners with such branches have the same
discriminators (`Discriminator.ofBranches_eq_ok_iff_of_same`).

The schema of a property is a node of its own. That two copies have the same follows from how a
graph holds what is written: the children of a keyword are those of its value
(`Graph.Resolved.rel_children?`), so a property has a node just if it has a schema, and its node says
what is written there (`Graph.Resolved.rel_property?`).
-/

namespace TaggedSchema

/-! ## 1. What a body decides -/

theorem SchemaBody.value_injective : Function.Injective SchemaBody.value := by
  intro body body' h
  cases body <;> cases body' <;> cases h <;> rfl

namespace Node

variable {n n' : Node}

/-- The schema of a property, as it is written. -/
def propertyValue? (n : Node) (name : String) : Option Json :=
  (n.keyword? "properties").bind (·.get? name)

theorem keyword?_congr (h : n.body = n'.body) (name : String) :
    n.keyword? name = n'.keyword? name := by
  unfold keyword? keywords
  rw [h]

theorem requires_congr (h : n.body = n'.body) (name : String) :
    n.requires name = n'.requires name := by
  unfold requires
  rw [keyword?_congr h]

theorem propertyValue?_congr (h : n.body = n'.body) (name : String) :
    n.propertyValue? name = n'.propertyValue? name := by
  unfold propertyValue?
  rw [keyword?_congr h]

theorem keyword?_eq_step? (n : Node) (name : String) :
    n.keyword? name = Pointer.step? n.body.value name := by
  unfold keyword? keywords
  cases n.body <;> rfl

theorem isPureReference_of_body {value : Json} (h : n.body.value = value)
    (href : value.get? "$ref" = none) : n.isPureReference = false := by
  have hkeyword : n.keyword? "$ref" = none := by
    unfold keyword? keywords
    subst h
    cases hbody : n.body with
    | bool b => rfl
    | object keywords =>
      rw [hbody] at href
      exact href
  unfold isPureReference hasKeyword
  rw [hkeyword]
  rfl

end Node

namespace Discriminator

/-- The same values are allowed. -/
theorem Allows.congr {n n' : Node} (h : n.body = n'.body) {values : List Json}
    (hallows : Allows n values) : Allows n' values := by
  cases hallows with
  | const hconst => exact .const (Node.keyword?_congr h _ ▸ hconst)
  | enum hconst henum hne =>
    exact .enum (Node.keyword?_congr h _ ▸ hconst) (Node.keyword?_congr h _ ▸ henum) hne

end Discriminator

/-! ## 2. The schema of a property -/

namespace Graph

variable {g g' : Graph} {store store' : Store} {id id' : NodeId} {n n' : Node}

/-- A structural keyword has children just if it is written, and they are those of its value. -/
theorem rel_lookup_of_keywordOf {l : Location} {keywords : List (String × Json)}
    {children : List (String × Children)}
    (h : List.Forall₂ (g.KeywordOf l)
      (keywords.filter fun entry => (Structure.of? entry.1).isSome) children)
    {name : String} {shape : Structure} (hshape : Structure.of? name = some shape) :
    Option.Rel (g.ChildrenOf (l.join name) shape) (keywords.lookup name)
      (children.lookup name) := by
  induction keywords generalizing children with
  | nil =>
    cases h
    exact .none
  | cons entry rest ih =>
    obtain ⟨key, value⟩ := entry
    cases hkey : Structure.of? key with
    | none =>
      rw [List.filter_cons_of_neg (by simp [hkey])] at h
      have hne : name ≠ key := by
        rintro rfl
        cases hshape.symm.trans hkey
      rw [List.lookup_cons, beq_eq_false_iff_ne.mpr hne]
      exact ih h
    | some found =>
      rw [List.filter_cons_of_pos (by simp [hkey])] at h
      cases h with
      | @cons _ child _ _ hfirst hrest =>
        obtain ⟨key', c⟩ := child
        obtain ⟨hsame, shape', hshape', hchildren⟩ := hfirst
        cases hsame
        by_cases hname : name = key
        · subst hname
          cases hshape.symm.trans hshape'
          rw [List.lookup_cons_self, List.lookup_cons_self]
          exact .some hchildren
        · rw [List.lookup_cons, List.lookup_cons, beq_eq_false_iff_ne.mpr hname]
          exact ih hrest

theorem Resolved.rel_children? [Uri.Library] (hg : g.Resolved store) (hn : g.node? id = some n)
    {name : String} {shape : Structure} (hshape : Structure.of? name = some shape) :
    Option.Rel (g.ChildrenOf (n.location.join name) shape) (n.keyword? name) (n.children? name) :=
  rel_lookup_of_keywordOf (hg.children_eq hn) hshape

/-- What is written at the location of a property is its schema. -/
theorem Resolved.lookup?_property [Uri.Library] (hg : g.Resolved store) (hn : g.node? id = some n)
    {members : List (String × Json)} (hmembers : n.keyword? "properties" = some (.object members))
    (property : String) :
    store.lookup? ((n.location.join "properties").join property) = members.lookup property := by
  have hnode := hg.lookup?_eq hn
  unfold Store.lookup? at hnode ⊢
  obtain ⟨document, hdocument, hresolve⟩ := Option.bind_eq_some_iff.mp hnode
  have hproperties := Pointer.resolve_append hresolve "properties"
  rw [← Node.keyword?_eq_step?, hmembers] at hproperties
  show (store.document? n.location.document).bind _ = _
  rw [hdocument]
  exact Pointer.resolve_append hproperties property

/-- **A property has a node just if it has a schema**, and the node says what is written. -/
theorem Resolved.rel_property? [Uri.Library] (hg : g.Resolved store) (hn : g.node? id = some n)
    (property : String) :
    Option.Rel (fun value child => ∃ m, g.node? child = some m ∧ m.body.value = value)
      (n.propertyValue? property) (n.property? property) := by
  have hrel := hg.rel_children? hn (show Structure.of? "properties" = some .map by decide)
  unfold Node.propertyValue? Node.property? Node.childMap?
  cases hkeyword : n.keyword? "properties" with
  | none =>
    rw [hkeyword] at hrel
    generalize n.children? "properties" = children at hrel
    cases hrel
    exact .none
  | some value =>
    rw [hkeyword] at hrel
    generalize n.children? "properties" = children at hrel
    obtain ⟨hchildren⟩ := hrel
    cases hchildren with
    | single hshape | list hshape => rcases hshape with h | h <;> cases h
    | @map members entries _ hkeys hentries =>
      show Option.Rel _ (members.lookup property) (entries.lookup property)
      cases hentry : entries.lookup property with
      | none =>
        have hnone : property ∉ members.map (·.1) := by
          rw [← hkeys]
          exact lookup_eq_none_iff.mp hentry
        rw [lookup_eq_none_iff.mpr hnone]
        exact .none
      | some child =>
        obtain ⟨m, hm, hlocation⟩ := hentries _ (mem_of_lookup hentry)
        have hwritten := hg.lookup?_eq hm
        rw [hlocation, hg.lookup?_property hn hkeyword] at hwritten
        rw [hwritten]
        exact .some ⟨m, hm, rfl⟩

/-! ## 3. Copies -/

/-- Behind their references two nodes, perhaps of different graphs, are written alike. -/
def Alike (g : Graph) (id : NodeId) (g' : Graph) (id' : NodeId) : Prop :=
  ∃ target n target' n', (g.EndsAt id target ∧ g.node? target = some n) ∧
    (g'.EndsAt id' target' ∧ g'.node? target' = some n') ∧ n.body = n'.body

theorem Alike.symm (h : g.Alike id g' id') : g'.Alike id' g id := by
  obtain ⟨target, n, target', n', hn, hn', hbody⟩ := h
  exact ⟨target', n', target, n, hn', hn, hbody.symm⟩

/-- Two nodes that agree in what a discriminator of the property reads: they are written alike, and
    so are, behind references, their schemas of the property. -/
structure Copies (g g' : Graph) (property : String) (n n' : Node) : Prop where
  body : n.body = n'.body
  property : ∀ child child', n.property? property = some child →
    n'.property? property = some child' → g.Alike child g' child'

theorem Copies.symm {property : String} (h : Copies g g' property n n') :
    Copies g' g property n' n :=
  ⟨h.body.symm, fun child child' hchild hchild' => (h.property child' child hchild' hchild).symm⟩

/-- **What is written alike is a copy**, if the schema of the property is no reference: a reference
    may mean something else elsewhere. -/
theorem copies_of_body [Uri.Library] {property : String} (hg : g.Resolved store)
    (hg' : g'.Resolved store') (hn : g.node? id = some n) (hn' : g'.node? id' = some n')
    (hbody : n.body = n'.body)
    (hplain : ∀ value, n.propertyValue? property = some value → value.get? "$ref" = none) :
    Copies g g' property n n' := by
  refine ⟨hbody, fun child child' hchild hchild' => ?_⟩
  have hrel := hg.rel_property? hn property
  have hrel' := hg'.rel_property? hn' property
  rw [← Node.propertyValue?_congr hbody property, hchild'] at hrel'
  rw [hchild] at hrel
  cases hvalue : n.propertyValue? property with
  | none =>
    rw [hvalue] at hrel
    cases hrel
  | some value =>
    rw [hvalue] at hrel hrel'
    obtain ⟨m, hm, hwritten⟩ := hrel
    obtain ⟨m', hm', hwritten'⟩ := hrel'
    have hconcrete := Node.isPureReference_of_body hwritten (hplain value hvalue)
    have hconcrete' := Node.isPureReference_of_body hwritten' (hplain value hvalue)
    exact ⟨child, m, child', m', ⟨⟨.refl, m, hm, hconcrete⟩, hm⟩,
      ⟨⟨.refl, m', hm', hconcrete'⟩, hm'⟩,
      SchemaBody.value_injective (hwritten.trans hwritten'.symm)⟩

end Graph

/-! ## 4. Branches that are copies -/

namespace Discriminator

open TaggedSchema.Graph

variable {g g' : Graph} {store store' : Store} {owner owner' branch branch' : NodeId}
  {property : String} {branches branches' : List NodeId}

/-- A copy declares the same tags. -/
theorem Declares.copy [Uri.Library] (hg : g.Resolved store) (hg' : g'.Resolved store') {n n' : Node}
    (hn : ∃ id, g.node? id = some n) (hn' : ∃ id, g'.node? id = some n')
    (hcopies : Copies g g' property n n') {tags : List Tag} (h : Declares g n property tags) :
    Declares g' n' property tags := by
  obtain ⟨tagNode, values, ⟨child, target, hchild, hend, htarget⟩, hallows, htags⟩ := h
  obtain ⟨_, hn⟩ := hn
  obtain ⟨_, hn'⟩ := hn'
  have hrel := hg.rel_property? hn property
  have hrel' := hg'.rel_property? hn' property
  rw [hchild] at hrel
  rw [← Node.propertyValue?_congr hcopies.body property] at hrel'
  cases hvalue : n.propertyValue? property with
  | none =>
    rw [hvalue] at hrel
    cases hrel
  | some value =>
    rw [hvalue] at hrel'
    cases hchild' : n'.property? property with
    | none =>
      rw [hchild'] at hrel'
      cases hrel'
    | some child' =>
      obtain ⟨t, m, t', m', ⟨hend₁, hm⟩, ⟨hend', hm'⟩, hbody⟩ :=
        hcopies.property child child' hchild hchild'
      cases hend.unique hend₁
      cases htarget.symm.trans hm
      exact ⟨m', values, ⟨child', t', hchild', hend', hm'⟩, hallows.congr hbody, htags⟩

/-- Two branches amount to copies. -/
def SameBranch (g g' : Graph) (owner owner' : NodeId) (property : String)
    (branch branch' : NodeId) : Prop :=
  ∃ n n', ConcreteBranch g owner branch n ∧ ConcreteBranch g' owner' branch' n' ∧
    Copies g g' property n n'

theorem SameBranch.symm (h : SameBranch g g' owner owner' property branch branch') :
    SameBranch g' g owner' owner property branch' branch := by
  obtain ⟨n, n', hn, hn', hcopies⟩ := h
  exact ⟨n', n, hn', hn, hcopies.symm⟩

variable [Uri.Library]

/-- They declare the same tags. -/
theorem SameBranch.tagged (hg : g.Resolved store) (hg' : g'.Resolved store')
    (hrequires : ownerRequires g owner property = ownerRequires g' owner' property)
    (h : SameBranch g g' owner owner' property branch branch') {tags : List Tag}
    (htagged : TaggedBranch g owner property branch tags) :
    TaggedBranch g' owner' property branch' tags := by
  obtain ⟨n, n', hn, hn', hcopies⟩ := h
  obtain ⟨concrete, hconcrete, hdeclares, hrequired⟩ := htagged
  cases hn.unique hconcrete
  refine ⟨n', hn', hdeclares.copy hg hg' hn.node hn'.node hcopies, ?_⟩
  rw [← hrequires, ← Node.requires_congr hcopies.body]
  exact hrequired

theorem forall₂_tagged_of_same (hg : g.Resolved store) (hg' : g'.Resolved store')
    (hrequires : ownerRequires g owner property = ownerRequires g' owner' property)
    (h : List.Forall₂ (SameBranch g g' owner owner' property) branches branches')
    {tags : List (List Tag)}
    (htagged : List.Forall₂ (TaggedBranch g owner property) branches tags) :
    List.Forall₂ (TaggedBranch g' owner' property) branches' tags := by
  induction h generalizing tags with
  | nil =>
    cases htagged
    exact .nil
  | cons hsame _ ih =>
    cases htagged with
    | cons hfirst hrest => exact .cons (hsame.tagged hg hg' hrequires hfirst) (ih hrest)

theorem ofBranches_of_same (hg : g.Resolved store) (hg' : g'.Resolved store')
    (hbranches : branchesOf g owner = some branches)
    (hbranches' : branchesOf g' owner' = some branches')
    (hrequires : ownerRequires g owner property = ownerRequires g' owner' property)
    (h : List.Forall₂ (SameBranch g g' owner owner' property) branches branches')
    {d : Discriminator} (hd : ofBranches g owner property = .ok d) :
    ofBranches g' owner' property = .ok d := by
  obtain ⟨found, tags, ⟨hfound, htagged, hnodup⟩, rfl⟩ := declaresAll_of_ofBranches hg hd
  cases hbranches.symm.trans hfound
  rw [ofBranches_of_declaresAll hg'
    ⟨hbranches', forall₂_tagged_of_same hg hg' hrequires h htagged, hnodup⟩, h.length_eq]

/-- **Owners whose branches are copies have the same discriminators.** -/
theorem ofBranches_eq_ok_iff_of_same (hg : g.Resolved store) (hg' : g'.Resolved store')
    (hbranches : branchesOf g owner = some branches)
    (hbranches' : branchesOf g' owner' = some branches')
    (hrequires : ownerRequires g owner property = ownerRequires g' owner' property)
    (h : List.Forall₂ (SameBranch g g' owner owner' property) branches branches')
    (d : Discriminator) :
    ofBranches g owner property = .ok d ↔ ofBranches g' owner' property = .ok d := by
  have hback : List.Forall₂ (SameBranch g' g owner' owner property) branches' branches :=
    h.flip.imp fun _ _ => SameBranch.symm
  exact ⟨ofBranches_of_same hg hg' hbranches hbranches' hrequires h,
    ofBranches_of_same hg' hg hbranches' hbranches hrequires.symm hback⟩

end Discriminator

end TaggedSchema
