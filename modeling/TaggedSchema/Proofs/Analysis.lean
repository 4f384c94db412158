import TaggedSchema.Uri.Reader
import TaggedSchema.Proofs.Chains
import TaggedSchema.Proofs.Entries
import TaggedSchema.Proofs.Fallible
import TaggedSchema.Proofs.Tags

/-!
# What the analysis of a discriminator decides

`Discriminator.ofBranches` checks the branches of an owner one after another and fills a table on
the way. This file says the same without the table: what it is for a branch to declare tags
(`TaggedBranch`), what is wrong with a branch behind others (`BranchFault`, one constructor for each
check, each assuming that those before it have passed), and that the analysis succeeds when all
branches declare tags and no tag is declared twice, and otherwise answers the first fault of the
first branch that has one.
-/

namespace TaggedSchema.Discriminator

open TaggedSchema.Graph

/-! ## 1. Branches that declare tags -/

/-- The branches of an owner. -/
def branchesOf (g : Graph) (owner : NodeId) : Option (List NodeId) :=
  (g.node? owner).bind (·.childList? "oneOf")

/-- Whether the owner requires a property of all branches. -/
def ownerRequires (g : Graph) (owner : NodeId) (property : String) : Bool :=
  (g.node? owner).any (·.requires property)

/-- The schema a branch amounts to: the end of its chain, which must not come to the owner. -/
def ConcreteBranch (g : Graph) (owner branch : NodeId) (concrete : Node) : Prop :=
  ∃ id, g.EndsAt branch id ∧ ¬ Relation.TransGen g.Refers branch owner ∧
    g.node? id = some concrete

/-- The schema of a property, behind its pure references. -/
def TagSchema (g : Graph) (concrete : Node) (property : String) (tagNode : Node) : Prop :=
  ∃ id target, concrete.property? property = some id ∧ g.EndsAt id target ∧
    g.node? target = some tagNode

/-- The values a schema allows: the one of `const`, or without `const` the items of an `enum` that
    has some. -/
inductive Allows (n : Node) : List Json → Prop where
  | const {value : Json} (h : n.keyword? "const" = some value) : Allows n [value]
  | enum {items : List Json} (hconst : n.keyword? "const" = none)
      (henum : n.keyword? "enum" = some (.array items)) (hne : items ≠ []) : Allows n items

/-- The tags a concrete branch declares for a property, all its values being scalars. -/
def Declares (g : Graph) (concrete : Node) (property : String) (tags : List Tag) : Prop :=
  ∃ tagNode values, TagSchema g concrete property tagNode ∧ Allows tagNode values ∧
    values.map Tag.ofJson? = tags.map some

/-- **A branch declares tags** by which it can be selected: its concrete schema declares them, and
    the property is required there or by the owner. -/
def TaggedBranch (g : Graph) (owner : NodeId) (property : String) (branch : NodeId)
    (tags : List Tag) : Prop :=
  ∃ concrete, ConcreteBranch g owner branch concrete ∧ Declares g concrete property tags ∧
    (ownerRequires g owner property = true ∨ concrete.requires property = true)

/-! ## 2. Branches that do not -/

/-- What is wrong with a branch, given the tags of the branches before it. -/
inductive BranchFault (g : Graph) (owner : NodeId) (property : String) (earlier : List Tag)
    (branch : NodeId) : SchemaError → Prop where
  | meetsOwner (h : Relation.TransGen g.Refers branch owner) :
      BranchFault g owner property earlier branch
        ⟨g.location branch, .cyclicDiscriminator property⟩
  | loops (h : ∀ id, ¬ g.EndsAt branch id) :
      BranchFault g owner property earlier branch ⟨g.location branch, .cyclicReference⟩
  | noProperty {concrete : Node} (hc : ConcreteBranch g owner branch concrete)
      (h : concrete.property? property = none) :
      BranchFault g owner property earlier branch
        ⟨concrete.location, .missingTagProperty property⟩
  | propertyLoops {concrete : Node} {id : NodeId} (hc : ConcreteBranch g owner branch concrete)
      (hid : concrete.property? property = some id) (h : ∀ target, ¬ g.EndsAt id target) :
      BranchFault g owner property earlier branch ⟨g.location id, .cyclicReference⟩
  | badEnum {concrete tagNode : Node} {value : Json} (hc : ConcreteBranch g owner branch concrete)
      (ht : TagSchema g concrete property tagNode) (hconst : tagNode.keyword? "const" = none)
      (henum : tagNode.keyword? "enum" = some value)
      (h : ∀ items, value = .array items → items = []) :
      BranchFault g owner property earlier branch
        ⟨tagNode.location.join "enum", .invalidKeywordValue "enum" "must be a non-empty array"⟩
  | noConstraint {concrete tagNode : Node} (hc : ConcreteBranch g owner branch concrete)
      (ht : TagSchema g concrete property tagNode) (hconst : tagNode.keyword? "const" = none)
      (henum : tagNode.keyword? "enum" = none) :
      BranchFault g owner property earlier branch
        ⟨concrete.location, .missingTagConstraint property⟩
  | noScalar {concrete tagNode : Node} {values : List Json}
      (hc : ConcreteBranch g owner branch concrete) (ht : TagSchema g concrete property tagNode)
      (hvalues : Allows tagNode values) (h : ∃ value ∈ values, Tag.ofJson? value = none) :
      BranchFault g owner property earlier branch ⟨concrete.location, .invalidTagType property⟩
  | notRequired {concrete : Node} {tags : List Tag} (hc : ConcreteBranch g owner branch concrete)
      (htags : Declares g concrete property tags) (howner : ownerRequires g owner property = false)
      (h : concrete.requires property = false) :
      BranchFault g owner property earlier branch ⟨concrete.location, .tagNotRequired property⟩
  | duplicate {concrete : Node} {before after : List Tag} {tag : Tag}
      (hc : ConcreteBranch g owner branch concrete)
      (htags : Declares g concrete property (before ++ tag :: after))
      (hrequired : ownerRequires g owner property = true ∨ concrete.requires property = true)
      (hbefore : (earlier ++ before).Nodup) (h : tag ∈ earlier ++ before) :
      BranchFault g owner property earlier branch
        ⟨concrete.location, .duplicateTagValue property tag⟩

/-- What is wrong with an owner: it has no branches, or one of them is at fault, and those before it
    declare tags without a duplicate. -/
inductive AnalysisFault (g : Graph) (owner : NodeId) (property : String) : SchemaError → Prop where
  | noBranches (h : branchesOf g owner = none) :
      AnalysisFault g owner property ⟨(g.location owner).join "discriminator", .missingOneOf⟩
  | branch {before after : List NodeId} {branch : NodeId} {tags : List (List Tag)}
      {e : SchemaError} (h : branchesOf g owner = some (before ++ branch :: after))
      (hbefore : List.Forall₂ (TaggedBranch g owner property) before tags)
      (hnodup : tags.flatten.Nodup)
      (hfault : BranchFault g owner property tags.flatten branch e) :
      AnalysisFault g owner property e

/-- All branches of an owner declare tags, and no tag twice. -/
def DeclaresAll (g : Graph) (owner : NodeId) (property : String) (branches : List NodeId)
    (tags : List (List Tag)) : Prop :=
  branchesOf g owner = some branches ∧
    List.Forall₂ (TaggedBranch g owner property) branches tags ∧ tags.flatten.Nodup

/-! ## 3. Entering tags -/

section Tables

/-- The tags that have a branch. -/
def keysOf (t : DispatchTable) : List Tag := t.rows.map (·.1)

theorem get?_eq_none_iff {t : DispatchTable} {tag : Tag} : t.get? tag = none ↔ tag ∉ keysOf t := by
  unfold DispatchTable.get? keysOf
  rw [List.lookup_eq_none_iff, List.mem_map]
  constructor
  · rintro h ⟨row, hrow, rfl⟩
    exact absurd (h row hrow) (by simp)
  · intro h row hrow
    exact bne_iff_ne.mpr fun he => h ⟨row, hrow, he.symm⟩

variable {location : Location} {property : String} {branch : Nat}

theorem enter_cons_of_not_mem {t : DispatchTable} {tag : Tag} {rest : List Tag}
    (h : tag ∉ keysOf t) :
    enter location property branch t (tag :: rest)
      = enter location property branch ⟨t.rows ++ [(tag, branch)]⟩ rest := by
  simp only [enter, DispatchTable.insert, get?_eq_none_iff.mpr h]

theorem enter_cons_of_mem {t : DispatchTable} {tag : Tag} {rest : List Tag} (h : tag ∈ keysOf t) :
    enter location property branch t (tag :: rest)
      = .error ⟨location, .duplicateTagValue property tag⟩ := by
  cases hget : t.get? tag with
  | none => exact absurd h (get?_eq_none_iff.mp hget)
  | some holder => simp only [enter, DispatchTable.insert, hget]

/-- Tags that are all new go behind the others. -/
theorem enter_append {t : DispatchTable} {tags rest : List Tag} (h : (keysOf t ++ tags).Nodup) :
    enter location property branch t (tags ++ rest)
      = enter location property branch ⟨t.rows ++ tags.map (·, branch)⟩ rest := by
  induction tags generalizing t with
  | nil =>
    rw [List.map_nil, List.append_nil]
    rfl
  | cons tag tags ih =>
    have hfresh : tag ∉ keysOf t := fun hmem =>
      (List.nodup_append.mp h).2.2 tag hmem tag List.mem_cons_self rfl
    have hkeys : keysOf ⟨t.rows ++ [(tag, branch)]⟩ = keysOf t ++ [tag] := by
      unfold keysOf
      rw [List.map_append]
      rfl
    rw [List.cons_append, enter_cons_of_not_mem hfresh, ih (by rw [hkeys]; simpa using h),
      List.map_cons, List.append_assoc]
    rfl

theorem enter_of_nodup {t : DispatchTable} {tags : List Tag} (h : (keysOf t ++ tags).Nodup) :
    enter location property branch t tags = .ok ⟨t.rows ++ tags.map (·, branch)⟩ := by
  have henter : enter location property branch t (tags ++ []) = _ := enter_append h
  rwa [List.append_nil] at henter

/-- Of tags of which some are not new the first such is the fault. -/
theorem enter_of_mem {t : DispatchTable} {before after : List Tag} {tag : Tag}
    (h : (keysOf t ++ before).Nodup) (hmem : tag ∈ keysOf t ++ before) :
    enter location property branch t (before ++ tag :: after)
      = .error ⟨location, .duplicateTagValue property tag⟩ := by
  rw [enter_append h]
  refine enter_cons_of_mem ?_
  unfold keysOf at *
  rw [List.map_append, List.map_map]
  simpa [Function.comp_def] using hmem

/-- Tags are all new, or there is a first one that is not. -/
theorem nodup_or_first (earlier tags : List Tag) (h : earlier.Nodup) :
    (earlier ++ tags).Nodup ∨ ∃ before tag after, tags = before ++ tag :: after ∧
      (earlier ++ before).Nodup ∧ tag ∈ earlier ++ before := by
  induction tags generalizing earlier with
  | nil => exact Or.inl (by rwa [List.append_nil])
  | cons tag rest ih =>
    by_cases hmem : tag ∈ earlier
    · exact Or.inr ⟨[], tag, rest, rfl, by rwa [List.append_nil], List.mem_append_left _ hmem⟩
    · have hnext : (earlier ++ [tag]).Nodup :=
        List.nodup_append.mpr ⟨h, List.pairwise_singleton _ _, fun a ha b hb he =>
          hmem (List.mem_singleton.mp hb ▸ he ▸ ha)⟩
      rcases ih (earlier ++ [tag]) hnext with hall | ⟨before, tag', after, rfl, hnodup, hin⟩
      · exact Or.inl (by simpa using hall)
      · exact Or.inr ⟨tag :: before, tag', after, rfl, by simpa using hnodup, by simpa using hin⟩

end Tables

/-! ## 4. One branch -/

theorem allowedValues_of_allows {n : Node} {values : List Json} (h : Allows n values) :
    allowedValues n = .ok (some values) := by
  cases h with
  | const h => simp only [allowedValues, h]
  | enum hconst henum hne =>
    cases values with
    | nil => exact absurd rfl hne
    | cons first more => simp only [allowedValues, hconst, henum]

/-- An `enum` without items is refused. -/
theorem allowedValues_of_badEnum {n : Node} {value : Json} (hconst : n.keyword? "const" = none)
    (henum : n.keyword? "enum" = some value) (h : ∀ items, value = .array items → items = []) :
    allowedValues n = .error
      ⟨n.location.join "enum", .invalidKeywordValue "enum" "must be a non-empty array"⟩ := by
  cases value with
  | array items =>
    cases h items rfl
    simp only [allowedValues, hconst, henum]
  | _ => simp only [allowedValues, hconst, henum]

/-- A schema allows certain values, or has neither keyword, or an `enum` without items. -/
theorem allows_or (n : Node) :
    (∃ values, Allows n values) ∨
      (n.keyword? "const" = none ∧ n.keyword? "enum" = none) ∨
      (n.keyword? "const" = none ∧ ∃ value, n.keyword? "enum" = some value ∧
        ∀ items, value = .array items → items = []) := by
  cases hconst : n.keyword? "const" with
  | some value => exact Or.inl ⟨[value], .const hconst⟩
  | none =>
    cases henum : n.keyword? "enum" with
    | none => exact Or.inr (Or.inl ⟨rfl, rfl⟩)
    | some value =>
      by_cases hitems : ∃ items, value = .array items ∧ items ≠ []
      · obtain ⟨items, rfl, hne⟩ := hitems
        exact Or.inl ⟨items, .enum hconst henum hne⟩
      · refine Or.inr (Or.inr ⟨rfl, value, rfl, fun items he => ?_⟩)
        exact not_not.mp fun hne => hitems ⟨items, he, hne⟩

/-- Values are all scalars, and then make tags, or one of them is none. -/
theorem scalars_or (values : List Json) :
    (∃ tags : List Tag, values.map Tag.ofJson? = tags.map some) ∨
      ∃ value ∈ values, Tag.ofJson? value = none := by
  cases hmap : values.mapM Tag.ofJson? with
  | some tags => exact Or.inl ⟨tags, mapM_eq_some.mp hmap⟩
  | none => exact Or.inr (mapM_eq_none_iff.mp hmap)

variable {store : Store} {g : Graph} {owner branch : NodeId} {property : String}

/-- The schema of a property of a node is a node. -/
theorem exists_property [Uri.Library] (hg : g.Resolved store) {n : Node} {id child : NodeId}
    (hn : g.node? id = some n) (hchild : n.property? property = some child) :
    ∃ m, g.node? child = some m := by
  obtain ⟨entries, hentries, hlookup⟩ := Option.bind_eq_some_iff.mp hchild
  have hmem : (property, child) ∈ entries := mem_of_lookup hlookup
  exact hg.exists_child hn (mem_of_lookup (Node.children?_of_childMap? hentries))
    (List.mem_map.mpr ⟨_, hmem, rfl⟩)

theorem ConcreteBranch.node {concrete : Node} (h : ConcreteBranch g owner branch concrete) :
    ∃ id, g.node? id = some concrete := by
  obtain ⟨id, _, _, hn⟩ := h
  exact ⟨id, hn⟩

/-- A branch amounts to one schema. -/
theorem ConcreteBranch.unique {concrete concrete' : Node}
    (h : ConcreteBranch g owner branch concrete) (h' : ConcreteBranch g owner branch concrete') :
    concrete = concrete' := by
  obtain ⟨_, hend, _, hn⟩ := h
  obtain ⟨_, hend', _, hn'⟩ := h'
  cases hend.unique hend'
  exact Option.some.inj (hn.symm.trans hn')

/-- Where the schema of the property is found, its values decide. -/
theorem branchTags_of_tagSchema [Uri.Library] (hg : g.Resolved store) {concrete tagNode : Node}
    (hc : ∃ id, g.node? id = some concrete) (ht : TagSchema g concrete property tagNode) :
    branchTags g concrete property
      = (do
          match ← allowedValues tagNode with
          | none => .error ⟨concrete.location, .missingTagConstraint property⟩
          | some values =>
            match values.mapM Tag.ofJson? with
            | some tags => .ok tags
            | none => .error ⟨concrete.location, .invalidTagType property⟩) := by
  obtain ⟨_, hn⟩ := hc
  obtain ⟨id, target, hid, hend, htarget⟩ := ht
  have hderef := (hg.deref_eq_ok_iff (exists_property hg hn hid)).mpr hend
  unfold branchTags
  rw [hid]
  dsimp only
  rw [hderef]
  dsimp only [bind, Except.bind]
  generalize hfound : g.node? target = found
  rw [htarget] at hfound
  subst hfound
  rfl

theorem branchTags_of_declares [Uri.Library] (hg : g.Resolved store) {concrete : Node}
    {tags : List Tag} (hc : ∃ id, g.node? id = some concrete)
    (h : Declares g concrete property tags) :
    branchTags g concrete property = .ok tags := by
  obtain ⟨tagNode, values, ht, hvalues, htags⟩ := h
  rw [branchTags_of_tagSchema hg hc ht, allowedValues_of_allows hvalues]
  show (match values.mapM Tag.ofJson? with | some tags => _ | none => _) = _
  rw [mapM_eq_some.mpr htags]

/-- The walk from a branch succeeds at its concrete schema. -/
theorem derefBranch_of_concrete [Uri.Library] (hg : g.Resolved store)
    (hbranch : ∃ n, g.node? branch = some n) {concrete : Node}
    (h : ConcreteBranch g owner branch concrete) (property : String) :
    ∃ id, derefBranch g owner branch property = .ok id ∧ g.node? id = some concrete := by
  obtain ⟨id, hend, howner, hn⟩ := h
  rcases derefBranch_spec hg hbranch owner property with
    ⟨c, hok, hend', _⟩ | ⟨_, hmeets⟩ | ⟨_, hnone⟩
  · exact ⟨id, hend.unique hend' ▸ hok, hn⟩
  · exact absurd hmeets howner
  · exact absurd hend (hnone id)

/-- Behind the walk, the tags of the concrete schema and the requirement decide. -/
theorem addBranch_of_concrete [Uri.Library] (hg : g.Resolved store)
    (hbranch : ∃ n, g.node? branch = some n) {concrete : Node}
    (h : ConcreteBranch g owner branch concrete) {required : Bool}
    {t : DispatchTable} {index : Nat} :
    addBranch g owner required property t index branch
      = (do
          let tags ← branchTags g concrete property
          if !required && !concrete.requires property then
            .error ⟨concrete.location, .tagNotRequired property⟩
          else enter concrete.location property index t tags) := by
  obtain ⟨id, hderef, hn⟩ := derefBranch_of_concrete hg hbranch h property
  unfold addBranch
  rw [hderef]
  simp only [bind, Except.bind, hn]

/-- The same, once the tags are known and the property is required. -/
theorem addBranch_of_declares [Uri.Library] (hg : g.Resolved store)
    (hbranch : ∃ n, g.node? branch = some n) {concrete : Node}
    (h : ConcreteBranch g owner branch concrete) {tags : List Tag}
    (htags : Declares g concrete property tags)
    (hrequired : ownerRequires g owner property = true ∨ concrete.requires property = true)
    {t : DispatchTable} {index : Nat} :
    addBranch g owner (ownerRequires g owner property) property t index branch
      = enter concrete.location property index t tags := by
  rw [addBranch_of_concrete hg hbranch h, branchTags_of_declares hg h.node htags]
  refine if_neg ?_
  rcases hrequired with hr | hr <;> simp [hr]

/-- A branch that declares tags, all of them new, enters them. -/
theorem addBranch_of_tagged [Uri.Library] (hg : g.Resolved store)
    (hbranch : ∃ n, g.node? branch = some n) {tags : List Tag}
    (h : TaggedBranch g owner property branch tags) {t : DispatchTable}
    (hnodup : (keysOf t ++ tags).Nodup) (index : Nat) :
    addBranch g owner (ownerRequires g owner property) property t index branch
      = .ok ⟨t.rows ++ tags.map (·, index)⟩ := by
  obtain ⟨concrete, hc, htags, hrequired⟩ := h
  rw [addBranch_of_declares hg hbranch hc htags hrequired, enter_of_nodup hnodup]

/-- An owner with branches is no pure reference, so no chain passes it. -/
theorem concrete_owner [Uri.Library] (hg : g.Resolved store) {branches : List NodeId}
    (h : branchesOf g owner = some branches) : g.Concrete owner := by
  obtain ⟨n, hn, hlist⟩ := Option.bind_eq_some_iff.mp h
  have hkeyword := hg.hasKeyword_of_children hn (Node.children?_of_childList? hlist)
  exact ⟨n, hn, n.not_isPureReference hkeyword (by decide)⟩

/-- **A branch with a fault is refused for it.** -/
theorem addBranch_of_fault [Uri.Library] (hg : g.Resolved store) (howner : g.Concrete owner)
    (hbranch : ∃ n, g.node? branch = some n) {t : DispatchTable} {e : SchemaError}
    (h : BranchFault g owner property (keysOf t) branch e) (index : Nat) :
    addBranch g owner (ownerRequires g owner property) property t index branch = .error e := by
  have hspec := derefBranch_spec hg hbranch owner property
  cases h with
  | meetsOwner h =>
    rcases hspec with ⟨_, _, _, hnot⟩ | ⟨herror, _⟩ | ⟨_, hnone⟩
    · exact absurd h hnot
    · unfold addBranch
      rw [herror]
      rfl
    · exact absurd ⟨h.to_reflTransGen, howner⟩ (hnone owner)
  | loops h =>
    rcases hspec with ⟨id, _, hend, _⟩ | ⟨_, hmeets⟩ | ⟨herror, _⟩
    · exact absurd hend (h id)
    · exact absurd ⟨hmeets.to_reflTransGen, howner⟩ (h owner)
    · unfold addBranch
      rw [herror]
      rfl
  | noProperty hc h =>
    rw [addBranch_of_concrete hg hbranch hc, branchTags, h]
    rfl
  | propertyLoops hc hid h =>
    obtain ⟨n, hn⟩ := hc.node
    rcases hg.deref_spec (exists_property hg hn hid) with ⟨target, _, hend⟩ | ⟨herror, _⟩
    · exact absurd hend (h target)
    · rw [addBranch_of_concrete hg hbranch hc, branchTags, hid]
      dsimp only
      rw [herror]
      rfl
  | badEnum hc ht hconst henum h =>
    rw [addBranch_of_concrete hg hbranch hc, branchTags_of_tagSchema hg hc.node ht,
      allowedValues_of_badEnum hconst henum h]
    rfl
  | noConstraint hc ht hconst henum =>
    rw [addBranch_of_concrete hg hbranch hc, branchTags_of_tagSchema hg hc.node ht, allowedValues,
      hconst, henum]
    rfl
  | noScalar hc ht hvalues h =>
    rw [addBranch_of_concrete hg hbranch hc, branchTags_of_tagSchema hg hc.node ht,
      allowedValues_of_allows hvalues]
    show (match List.mapM Tag.ofJson? _ with | some tags => _ | none => _) >>= _ = _
    rw [mapM_eq_none_iff.mpr h]
    rfl
  | notRequired hc htags hr h =>
    rw [addBranch_of_concrete hg hbranch hc, branchTags_of_declares hg hc.node htags]
    exact if_pos (by simp [hr, h])
  | duplicate hc htags hrequired hbefore h =>
    rw [addBranch_of_declares hg hbranch hc htags hrequired, enter_of_mem hbefore h]

/-- A concrete branch that declares tags has at most the last two faults. -/
theorem declared_or_fault {concrete : Node} (hc : ConcreteBranch g owner branch concrete)
    {tags : List Tag} (htags : Declares g concrete property tags) {earlier : List Tag}
    (hearlier : earlier.Nodup) :
    (∃ tags, TaggedBranch g owner property branch tags ∧ (earlier ++ tags).Nodup) ∨
      ∃ e, BranchFault g owner property earlier branch e := by
  by_cases hrequired : ownerRequires g owner property = true ∨ concrete.requires property = true
  · rcases nodup_or_first earlier tags hearlier with
      hnodup | ⟨before, tag, after, rfl, hbefore, hin⟩
    · exact Or.inl ⟨tags, ⟨concrete, hc, htags, hrequired⟩, hnodup⟩
    · exact Or.inr ⟨_, .duplicate hc htags hrequired hbefore hin⟩
  · obtain ⟨howner, hnot⟩ := not_or.mp hrequired
    exact Or.inr ⟨_, .notRequired hc htags (Bool.eq_false_iff.mpr howner)
      (Bool.eq_false_iff.mpr hnot)⟩

/-- **A branch declares new tags, or it has a fault.** -/
theorem tagged_or_fault [Uri.Library] (hg : g.Resolved store)
    (hbranch : ∃ n, g.node? branch = some n) (property : String) {earlier : List Tag}
    (hearlier : earlier.Nodup) :
    (∃ tags, TaggedBranch g owner property branch tags ∧ (earlier ++ tags).Nodup) ∨
      ∃ e, BranchFault g owner property earlier branch e := by
  rcases derefBranch_spec hg hbranch owner property with
    ⟨id, _, hend, hnot⟩ | ⟨_, hmeets⟩ | ⟨_, hnone⟩
  · obtain ⟨concrete, hn, _⟩ := hend.2
    have hc : ConcreteBranch g owner branch concrete := ⟨id, hend, hnot, hn⟩
    cases hproperty : concrete.property? property with
    | none => exact Or.inr ⟨_, .noProperty hc hproperty⟩
    | some child =>
      rcases hg.deref_spec (exists_property hg hn hproperty) with ⟨target, _, htend⟩ | ⟨_, hnone⟩
      · obtain ⟨tagNode, htn, _⟩ := htend.2
        have ht : TagSchema g concrete property tagNode := ⟨child, target, hproperty, htend, htn⟩
        rcases allows_or tagNode with
          ⟨values, hvalues⟩ | ⟨hconst, henum⟩ | ⟨hconst, value, henum, hitems⟩
        · rcases scalars_or values with ⟨tags, htags⟩ | hscalar
          · exact declared_or_fault hc ⟨tagNode, values, ht, hvalues, htags⟩ hearlier
          · exact Or.inr ⟨_, .noScalar hc ht hvalues hscalar⟩
        · exact Or.inr ⟨_, .noConstraint hc ht hconst henum⟩
        · exact Or.inr ⟨_, .badEnum hc ht hconst henum hitems⟩
      · exact Or.inr ⟨_, .propertyLoops hc hproperty hnone⟩
  · exact Or.inr ⟨_, .meetsOwner hmeets⟩
  · exact Or.inr ⟨_, .loops hnone⟩

/-! ## 5. All branches -/

/-- The rows of the tags of branches, numbered from a position on. -/
def rowsOf (start : Nat) (tags : List (List Tag)) : List (Tag × Nat) :=
  (tags.zipIdx start).flatMap fun entry => entry.1.map (·, entry.2)

theorem rowsOf_cons (start : Nat) (first : List Tag) (rest : List (List Tag)) :
    rowsOf start (first :: rest) = first.map (·, start) ++ rowsOf (start + 1) rest := rfl

theorem keysOf_rowsOf (rows : List (Tag × Nat)) (start : Nat) (tags : List (List Tag)) :
    keysOf ⟨rows ++ rowsOf start tags⟩ = rows.map (·.1) ++ tags.flatten := by
  unfold keysOf
  rw [List.map_append]
  congr 1
  induction tags generalizing start with
  | nil => rfl
  | cons first rest ih =>
    rw [rowsOf_cons, List.map_append, ih, List.flatten_cons, List.map_map]
    congr 1
    exact List.map_id _

theorem mem_rowsOf {tags : List (List Tag)} {tag : Tag} {i : Nat} :
    (tag, i) ∈ rowsOf 0 tags ↔ ∃ declared, tags[i]? = some declared ∧ tag ∈ declared := by
  unfold rowsOf
  rw [List.mem_flatMap]
  constructor
  · rintro ⟨⟨declared, j⟩, hentry, hmem⟩
    obtain ⟨tag', htag, he⟩ := List.mem_map.mp hmem
    cases he
    exact ⟨declared, List.mem_zipIdx_iff_getElem?.mp hentry, htag⟩
  · rintro ⟨declared, hdeclared, htag⟩
    exact ⟨(declared, i), List.mem_zipIdx_iff_getElem?.mpr hdeclared, List.mem_map_of_mem htag⟩

/-- Branches that declare new tags are passed, and their tags entered. -/
theorem addBranches_append [Uri.Library] (hg : g.Resolved store) {before : List NodeId}
    {tags : List (List Tag)} (h : List.Forall₂ (TaggedBranch g owner property) before tags)
    (hnodes : ∀ branch ∈ before, ∃ n, g.node? branch = some n) {t : DispatchTable}
    (hnodup : (keysOf t ++ tags.flatten).Nodup) (start : Nat) (rest : List NodeId) :
    addBranches g owner (ownerRequires g owner property) property t start (before ++ rest)
      = addBranches g owner (ownerRequires g owner property) property
          ⟨t.rows ++ rowsOf start tags⟩ (start + before.length) rest := by
  induction h generalizing t start with
  | nil =>
    rw [rowsOf, List.zipIdx_nil, List.flatMap_nil, List.append_nil]
    rfl
  | @cons branch first before tags hfirst _ ih =>
    obtain ⟨hbranch, hmore⟩ := List.forall_mem_cons.mp hnodes
    rw [List.flatten_cons, ← List.append_assoc] at hnodup
    have hkeys : keysOf ⟨t.rows ++ first.map (·, start)⟩ = keysOf t ++ first := by
      unfold keysOf
      rw [List.map_append, List.map_map]
      congr 1
      exact List.map_id _
    have hstep := addBranch_of_tagged hg hbranch hfirst (List.nodup_append.mp hnodup).1 start
    rw [List.cons_append, addBranches, hstep]
    show addBranches g owner _ property ⟨t.rows ++ first.map (·, start)⟩ (start + 1) _ = _
    rw [ih hmore (by rw [hkeys]; exact hnodup), rowsOf_cons, List.append_assoc, List.length_cons,
      Nat.add_right_comm, Nat.add_assoc]

/-- Branches declare tags, all of them new, or there is a first one with a fault. -/
theorem tagged_or_first_fault [Uri.Library] (hg : g.Resolved store) {branches : List NodeId}
    (hnodes : ∀ branch ∈ branches, ∃ n, g.node? branch = some n) (property : String)
    {earlier : List Tag} (hearlier : earlier.Nodup) :
    (∃ tags, List.Forall₂ (TaggedBranch g owner property) branches tags ∧
        (earlier ++ tags.flatten).Nodup) ∨
      ∃ before branch after tags e, branches = before ++ branch :: after ∧
        List.Forall₂ (TaggedBranch g owner property) before tags ∧
        (earlier ++ tags.flatten).Nodup ∧
        BranchFault g owner property (earlier ++ tags.flatten) branch e := by
  induction branches generalizing earlier with
  | nil => exact Or.inl ⟨[], .nil, by rwa [List.flatten_nil, List.append_nil]⟩
  | cons branch rest ih =>
    obtain ⟨hbranch, hrest⟩ := List.forall_mem_cons.mp hnodes
    rcases tagged_or_fault hg hbranch property hearlier with
      ⟨first, hfirst, hnodup⟩ | ⟨e, hfault⟩
    · rcases ih hrest hnodup with
        ⟨tags, htags, hall⟩ | ⟨before, branch', after, tags, e, rfl, htags, hall, hfault⟩
      · rw [List.append_assoc, ← List.flatten_cons] at hall
        exact Or.inl ⟨first :: tags, .cons hfirst htags, hall⟩
      · rw [List.append_assoc, ← List.flatten_cons] at hall hfault
        exact Or.inr ⟨branch :: before, branch', after, first :: tags, e, rfl,
          .cons hfirst htags, hall, hfault⟩
    · have hnone : earlier ++ ([] : List (List Tag)).flatten = earlier := by simp
      exact Or.inr ⟨[], branch, rest, [], e, rfl, .nil, hnone.symm ▸ hearlier,
        hnone.symm ▸ hfault⟩

/-! ## 6. The analysis -/

theorem ofBranches_eq {branches : List NodeId} (h : branchesOf g owner = some branches) :
    ofBranches g owner property
      = (addBranches g owner (ownerRequires g owner property) property .empty 0 branches
          >>= fun table => .ok ⟨property, table, branches.length⟩) := by
  unfold branchesOf at h
  simp only [ofBranches, h]
  rfl

/-- The branches of an owner are nodes. -/
theorem exists_branch [Uri.Library] (hg : g.Resolved store) {branches : List NodeId}
    (h : branchesOf g owner = some branches) :
    ∀ branch ∈ branches, ∃ n, g.node? branch = some n := by
  intro branch hmem
  obtain ⟨n, hn, hlist⟩ := Option.bind_eq_some_iff.mp h
  exact hg.exists_child hn (mem_of_lookup (Node.children?_of_childList? hlist)) hmem

theorem ofBranches_of_declaresAll [Uri.Library] (hg : g.Resolved store) {branches : List NodeId}
    {tags : List (List Tag)} (h : DeclaresAll g owner property branches tags) :
    ofBranches g owner property = .ok ⟨property, ⟨rowsOf 0 tags⟩, branches.length⟩ := by
  obtain ⟨hbranches, htags, hnodup⟩ := h
  have hadd := addBranches_append (t := .empty) hg htags (exists_branch hg hbranches) hnodup 0 []
  rw [List.append_nil] at hadd
  rw [ofBranches_eq hbranches, hadd]
  rfl

theorem ofBranches_of_fault [Uri.Library] (hg : g.Resolved store) {e : SchemaError}
    (h : AnalysisFault g owner property e) : ofBranches g owner property = .error e := by
  cases h with
  | noBranches h =>
    unfold branchesOf at h
    simp only [ofBranches, h]
  | @branch before after branch tags e hbranches hbefore hnodup hfault =>
    have hnodes := exists_branch hg hbranches
    have hadd := addBranches_append (t := .empty) hg hbefore
      (fun b hb => hnodes b (List.mem_append_left _ hb)) hnodup 0 (branch :: after)
    have hkeys : keysOf ⟨DispatchTable.empty.rows ++ rowsOf 0 tags⟩ = tags.flatten :=
      keysOf_rowsOf [] 0 tags
    have hstep := addBranch_of_fault hg (concrete_owner hg hbranches)
      (hnodes branch (List.mem_append_right _ List.mem_cons_self)) (hkeys.symm ▸ hfault)
      (0 + before.length)
    rw [ofBranches_eq hbranches, hadd, addBranches, hstep]
    rfl

/-- **The analysis has no third outcome.** -/
theorem declaresAll_or_fault [Uri.Library] (hg : g.Resolved store) (owner : NodeId)
    (property : String) :
    (∃ branches tags, DeclaresAll g owner property branches tags) ∨
      ∃ e, AnalysisFault g owner property e := by
  cases hbranches : branchesOf g owner with
  | none => exact Or.inr ⟨_, .noBranches hbranches⟩
  | some branches =>
    have hnone : ([] : List Tag).Nodup := .nil
    rcases tagged_or_first_fault hg (exists_branch hg hbranches) property hnone with
      ⟨tags, htags, hnodup⟩ | ⟨before, branch, after, tags, e, rfl, htags, hnodup, hfault⟩
    · exact Or.inl ⟨branches, tags, hbranches, htags, hnodup⟩
    · exact Or.inr ⟨e, .branch hbranches htags hnodup hfault⟩

theorem declaresAll_of_ofBranches [Uri.Library] (hg : g.Resolved store) {d : Discriminator}
    (h : ofBranches g owner property = .ok d) :
    ∃ branches tags, DeclaresAll g owner property branches tags ∧
      d = ⟨property, ⟨rowsOf 0 tags⟩, branches.length⟩ := by
  rcases declaresAll_or_fault hg owner property with ⟨branches, tags, hall⟩ | ⟨e, hfault⟩
  · rw [ofBranches_of_declaresAll hg hall] at h
    exact ⟨branches, tags, hall, (Except.ok.inj h).symm⟩
  · rw [ofBranches_of_fault hg hfault] at h
    cases h

/-- Every branch of an owner that is analysed declares tags. -/
theorem DeclaresAll.tagged {branches : List NodeId} {tags : List (List Tag)}
    (h : DeclaresAll g owner property branches tags) (hmem : branch ∈ branches) :
    ∃ declared, TaggedBranch g owner property branch declared := by
  obtain ⟨i, hi, rfl⟩ := List.getElem_of_mem hmem
  exact ⟨_, (List.forall₂_iff_get.mp h.2.1).2 i hi (h.2.1.length_eq ▸ hi)⟩

/-- The discriminator of a node is that of the property it names. -/
theorem ofNode_eq_ok_iff {n : Node} (hn : g.node? owner = some n) {d : Discriminator} :
    ofNode g owner = .ok d ↔
      ∃ property, propertyOf n = .ok property ∧ ofBranches g owner property = .ok d := by
  unfold ofNode
  rw [hn]
  exact bind_eq_ok

/-- The table of declared tags leads each to its branch. -/
theorem get?_rowsOf {tags : List (List Tag)} (h : tags.flatten.Nodup) {tag : Tag} {i : Nat} :
    DispatchTable.get? ⟨rowsOf 0 tags⟩ tag = some i ↔
      ∃ declared, tags[i]? = some declared ∧ tag ∈ declared := by
  have hkeys : (rowsOf 0 tags).map (·.1) = tags.flatten := keysOf_rowsOf [] 0 tags
  unfold DispatchTable.get?
  rw [lookup_eq_some_iff_mem (hkeys.symm ▸ h), mem_rowsOf]

/-- A branch declares at least one tag. -/
theorem TaggedBranch.ne_nil {tags : List Tag} (h : TaggedBranch g owner property branch tags) :
    tags ≠ [] := by
  obtain ⟨_, _, ⟨_, values, _, hvalues, htags⟩, _⟩ := h
  rintro rfl
  cases List.map_eq_nil_iff.mp htags
  cases hvalues with
  | enum _ _ hne => exact hne rfl

/-- **The analysis, exactly.** In a resolved graph it succeeds when the branches of the owner
    declare tags, none of them twice, and then the table leads each tag to the branch that declares
    it and leaves no branch out; and it fails with the first fault of the first branch that has one.
    Tags are the same when they are made from scalars of one type and one value. -/
theorem ofBranches_exact [Uri.Library] {store : Store} {root : String} {g : Graph}
    (hg : Graph.resolve store root = .ok g) (owner : NodeId) (property : String) :
    ((∃ d, ofBranches g owner property = .ok d) ↔
      ∃ branches tags, DeclaresAll g owner property branches tags) ∧
    (∀ d, ofBranches g owner property = .ok d →
      ∃ branches tags, DeclaresAll g owner property branches tags ∧
        d.property = property ∧ d.branchCount = branches.length ∧
        (∀ tag i, d.table.get? tag = some i ↔
          ∃ declared, tags[i]? = some declared ∧ tag ∈ declared) ∧
        ∀ i < d.branchCount, ∃ tag, d.table.get? tag = some i) ∧
    (∀ e, ofBranches g owner property = .error e ↔ AnalysisFault g owner property e) ∧
    ∀ a b tag, Tag.ofJson? a = some tag → (Tag.ofJson? b = some tag ↔ a.SameScalar b) := by
  have hresolved := (resolved_of_resolve hg).1
  refine ⟨⟨?_, ?_⟩, ?_, fun e => ⟨?_, ofBranches_of_fault hresolved⟩,
    fun _ _ _ => Tag.eq_iff_sameScalar⟩
  · rintro ⟨d, hd⟩
    obtain ⟨branches, tags, hall, _⟩ := declaresAll_of_ofBranches hresolved hd
    exact ⟨branches, tags, hall⟩
  · rintro ⟨branches, tags, hall⟩
    exact ⟨_, ofBranches_of_declaresAll hresolved hall⟩
  · intro d hd
    obtain ⟨branches, tags, hall, rfl⟩ := declaresAll_of_ofBranches hresolved hd
    have htags := hall.2.1
    have hnodup := hall.2.2
    refine ⟨branches, tags, hall, rfl, rfl, fun tag i => get?_rowsOf hnodup, fun i hi => ?_⟩
    have hlt : i < tags.length := htags.length_eq ▸ hi
    obtain ⟨tag, htag⟩ := List.exists_mem_of_ne_nil _
      ((List.forall₂_iff_get.mp htags).2 i hi hlt).ne_nil
    exact ⟨tag, (get?_rowsOf hnodup).mpr ⟨_, List.getElem?_eq_getElem hlt, htag⟩⟩
  · intro he
    rcases declaresAll_or_fault hresolved owner property with ⟨branches, tags, hall⟩ | ⟨e', hfault⟩
    · rw [ofBranches_of_declaresAll hresolved hall] at he
      cases he
    · rw [ofBranches_of_fault hresolved hfault] at he
      cases he
      exact hfault

/-- Two shapes by their kind, the first behind a reference. -/
def shapes : Json :=
  .object
    [("definitions", .object [("circle", .object
        [("properties", .object [("kind", .object [("const", .string "circle")])]),
          ("required", .array [.string "kind"])])]),
      ("oneOf", .array
        [.object [("$ref", .string "#/definitions/circle")],
          .object [("properties", .object [("kind", .object
              [("enum", .array [.string "square", .bool true])])]),
            ("required", .array [.string "kind"])]])]

/-- The shapes are told apart by their kind, and not by their size. -/
theorem ofBranches_exact_shapes :
    ∃ g, Graph.resolve (.single shapes) Store.defaultBase = .ok g ∧
      (∃ branches tags, DeclaresAll g g.root "kind" branches tags) ∧
      ∃ e, AnalysisFault g g.root "size" e := by
  have hall : (match Graph.resolve (.single shapes) Store.defaultBase with
      | .ok g => (ofBranches g g.root "kind").isOk && !(ofBranches g g.root "size").isOk
      | .error _ => false) = true := by decide +kernel
  cases hg : Graph.resolve (.single shapes) Store.defaultBase with
  | error e =>
    rw [hg] at hall
    cases hall
  | ok g =>
    rw [hg] at hall
    obtain ⟨hkind, hsize⟩ := Bool.and_eq_true_iff.mp hall
    refine ⟨g, rfl, (ofBranches_exact hg g.root "kind").1.mp ?_, ?_⟩
    · cases hd : ofBranches g g.root "kind" with
      | ok d => exact ⟨d, rfl⟩
      | error e =>
        rw [hd] at hkind
        cases hkind
    · cases he : ofBranches g g.root "size" with
      | ok d =>
        rw [he] at hsize
        cases hsize
      | error e => exact ⟨e, ((ofBranches_exact hg g.root "size").2.2.1 e).mp he⟩

end TaggedSchema.Discriminator
