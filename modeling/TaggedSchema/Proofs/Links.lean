import TaggedSchema.Graph.Walk
import TaggedSchema.Proofs.Resolution

/-!
# Reading the links of a resolved graph

`Graph.Resolved` speaks of places and texts. This file reads off it what the walks and the compiler
need: a child or a target is a node of the graph, whatever has children under a keyword has the
keyword, a reference is there exactly where `$ref` is, and so every node is either a pure reference
with a target or no pure reference at all.
-/

namespace TaggedSchema

theorem Draft.mem_placesOf {l : Location} {keywords : List (String × Json)}
    {places : List (String × Places)} (h : placesOf l keywords = .ok places) {name : String}
    {p : Places} (hp : (name, p) ∈ places) :
    ∃ value shape, (name, value) ∈ keywords ∧ Structure.of? name = some shape ∧
      places? shape value = some p := by
  induction keywords generalizing places with
  | nil =>
    cases h
    cases hp
  | cons entry rest ih =>
    obtain ⟨keyword, value⟩ := entry
    have htail {more : List (String × Places)} (hmore : placesOf l rest = .ok more)
        (hmem : (name, p) ∈ more) : ∃ value' shape, (name, value') ∈ (keyword, value) :: rest ∧
          Structure.of? name = some shape ∧ places? shape value' = some p := by
      obtain ⟨value', shape, hmem', hshape, hplaces⟩ := ih hmore hmem
      exact ⟨value', shape, List.mem_cons_of_mem _ hmem', hshape, hplaces⟩
    unfold placesOf at h
    split at h
    next => exact htail h hp
    next shape hshape =>
      split at h
      next first hfirst =>
        obtain ⟨more, hmore, h⟩ := bind_pure_eq_ok.mp h
        subst h
        rcases List.mem_cons.mp hp with he | hmem
        · cases he
          exact ⟨value, shape, List.mem_cons_self, hshape, hfirst⟩
        · exact htail hmore hmem
      next => cases h

/-- All nodes at the places of a keyword stand at the keyword or below it. -/
theorem ChildrenAt.standsAt {nodes : Array Node} {l : Location} {places : Draft.Places}
    {children : Children} (h : ChildrenAt nodes l places children) {id : NodeId}
    (hid : id ∈ children.ids) :
    ∃ below, StandsAt nodes id ⟨l.document, ⟨l.pointer.segments ++ below⟩⟩ := by
  cases places with
  | single =>
    cases children with
    | single id' =>
      cases List.mem_singleton.mp hid
      exact ⟨[], by rwa [List.append_nil]⟩
    | _ => exact h.elim
  | list count =>
    cases children with
    | list ids =>
      obtain ⟨i, hi⟩ := List.mem_iff_getElem?.mp hid
      obtain ⟨hlt, rfl⟩ := List.getElem?_eq_some_iff.mp hi
      exact ⟨[_], (List.forall₂_iff_get.mp h).2 i (h.length_eq ▸ hlt) hlt⟩
    | _ => exact h.elim
  | map keys =>
    cases children with
    | map entries =>
      obtain ⟨entry, hentry, rfl⟩ := List.mem_map.mp hid
      exact ⟨[entry.1], h.2 entry hentry⟩
    | _ => exact h.elim

namespace Node

theorem hasKeyword_of_mem {n : Node} {name : String} {value : Json}
    (h : (name, value) ∈ n.keywords) : n.hasKeyword name = true :=
  List.lookup_isSome_iff.mpr ⟨_, h, beq_self_eq_true name⟩

/-- What is there where a keyword is written and nowhere else is there iff the keyword is. -/
theorem isSome_eq_hasKeyword {α : Type} {n : Node} {name : String} {found : Option α}
    (hwritten : n.hasKeyword name = true → ∃ a, found = some a)
    (habsent : n.hasKeyword name = false → found = none) : found.isSome = n.hasKeyword name := by
  cases hkeyword : n.hasKeyword name with
  | true =>
    obtain ⟨a, ha⟩ := hwritten hkeyword
    rw [ha, Option.isSome_some]
  | false => rw [habsent hkeyword, Option.isSome_none]

/-- One subschema is what the keyword holds. -/
theorem children?_of_child? {n : Node} {name : String} {id : NodeId}
    (h : n.child? name = some id) : n.children? name = some (.single id) := by
  unfold child? at h
  split at h
  next id' hc =>
    cases h
    exact hc
  next => cases h

/-- A list of subschemas is what the keyword holds. -/
theorem children?_of_childList? {n : Node} {name : String} {ids : List NodeId}
    (h : n.childList? name = some ids) : n.children? name = some (.list ids) := by
  unfold childList? at h
  split at h
  next ids' hc =>
    cases h
    exact hc
  next => cases h

theorem children?_of_childMap? {n : Node} {name : String} {entries : List (String × NodeId)}
    (h : n.childMap? name = some entries) : n.children? name = some (.map entries) := by
  unfold childMap? at h
  split at h
  next entries' hc =>
    cases h
    exact hc
  next => cases h

/-- A keyword that asserts something keeps a node from being a pure reference. -/
theorem not_isPureReference {n : Node} {name : String} (h : n.hasKeyword name = true)
    (hname : (name == "$ref" || isAnnotationKeyword name) = false) : n.isPureReference = false := by
  obtain ⟨entry, hentry, hkey⟩ := List.lookup_isSome_iff.mp h
  refine Bool.eq_false_iff.mpr fun hpure => ?_
  have hall := List.all_eq_true.mp (Bool.and_eq_true_iff.mp hpure).2 entry hentry
  rw [← eq_of_beq hkey, hname] at hall
  cases hall

end Node

namespace Graph.Resolved

variable {store : Store} {g : Graph} {id : NodeId} {n : Node}

variable [Uri.Library]

/-- What is known of the children under a keyword. -/
theorem children_spec (h : g.Resolved store) (hn : g.node? id = some n) {name : String}
    {c : Children} (hc : (name, c) ∈ n.children) :
    ∃ value shape places, (name, value) ∈ n.keywords ∧ Structure.of? name = some shape ∧
      Draft.places? shape value = some places ∧
      ChildrenAt g.nodes (n.location.join name) places c := by
  have hlinked := h.linked id n hn
  unfold Node.Linked at hlinked
  unfold Node.keywords
  cases hbody : n.body with
  | bool b =>
    rw [hbody] at hlinked
    rw [hlinked.1] at hc
    cases hc
  | object keywords =>
    rw [hbody] at hlinked
    obtain ⟨⟨places, hplaces, hchildren⟩, _⟩ := hlinked
    obtain ⟨i, hi⟩ := List.mem_iff_getElem?.mp hc
    obtain ⟨hlt, hget⟩ := List.getElem?_eq_some_iff.mp hi
    have hlt' : i < places.length := hchildren.length_eq ▸ hlt
    have hat := (List.forall₂_iff_get.mp hchildren).2 i hlt' hlt
    simp only [List.get_eq_getElem, hget] at hat
    obtain ⟨hname, hat⟩ := hat
    have hmem : (name, places[i].2) ∈ places := hname ▸ List.getElem_mem hlt'
    obtain ⟨value, shape, hvalue, hshape, hplace⟩ := Draft.mem_placesOf hplaces hmem
    exact ⟨value, shape, places[i].2, hvalue, hshape, hplace, hname ▸ hat⟩

/-- A keyword with children is written. -/
theorem hasKeyword_of_children (h : g.Resolved store) (hn : g.node? id = some n) {name : String}
    {c : Children} (hc : n.children? name = some c) : n.hasKeyword name = true := by
  obtain ⟨value, _, _, hvalue, _⟩ := h.children_spec hn (mem_of_lookup hc)
  exact Node.hasKeyword_of_mem hvalue

/-- A keyword that is not written has no subschemas. -/
theorem children?_eq_none (h : g.Resolved store) (hn : g.node? id = some n) {name : String}
    (hkeyword : n.hasKeyword name = false) : n.children? name = none :=
  Option.eq_none_iff_forall_ne_some.mpr fun _ hchildren =>
    absurd (h.hasKeyword_of_children hn hchildren) (Bool.eq_false_iff.mp hkeyword)

theorem child?_eq_none (h : g.Resolved store) (hn : g.node? id = some n) {name : String}
    (hkeyword : n.hasKeyword name = false) : n.child? name = none := by
  rw [Node.child?, h.children?_eq_none hn hkeyword]

theorem childList?_eq_none (h : g.Resolved store) (hn : g.node? id = some n) {name : String}
    (hkeyword : n.hasKeyword name = false) : n.childList? name = none := by
  rw [Node.childList?, h.children?_eq_none hn hkeyword]

theorem childMap?_eq_none (h : g.Resolved store) (hn : g.node? id = some n) {name : String}
    (hkeyword : n.hasKeyword name = false) : n.childMap? name = none := by
  rw [Node.childMap?, h.children?_eq_none hn hkeyword]

/-- A child is a node of the graph. -/
theorem exists_child (h : g.Resolved store) (hn : g.node? id = some n) {name : String}
    {c : Children} (hc : (name, c) ∈ n.children) {child : NodeId} (hchild : child ∈ c.ids) :
    ∃ m, g.node? child = some m := by
  obtain ⟨_, _, _, _, _, _, hat⟩ := h.children_spec hn hc
  obtain ⟨_, m, hm, _⟩ := hat.standsAt hchild
  exact ⟨m, hm⟩

/-- A child stands further down than its parent, so it is another node. -/
theorem ne_of_child (h : g.Resolved store) (hn : g.node? id = some n) {name : String}
    {c : Children} (hc : (name, c) ∈ n.children) {child : NodeId} (hchild : child ∈ c.ids) :
    child ≠ id := by
  rintro rfl
  obtain ⟨_, _, _, _, _, _, hat⟩ := h.children_spec hn hc
  obtain ⟨below, m, hm, hlocation⟩ := hat.standsAt hchild
  have hsame : n = m := Option.some.inj (hn.symm.trans hm)
  have hlength : n.location.pointer.segments.length
      = ((n.location.pointer.segments ++ [name]) ++ below).length := by
    rw [← hsame] at hlocation
    exact congrArg (·.pointer.segments.length) hlocation
  simp only [List.length_append, List.length_singleton] at hlength
  omega

/-- What is known of the reference of a node that is no boolean schema. -/
theorem reference_spec (h : g.Resolved store) (hn : g.node? id = some n) :
    ∃ text, Draft.referenceText n.location n.keywords = .ok text ∧
      ReferenceAt store g.nodes n.location.document text n.reference := by
  have hlinked := h.linked id n hn
  unfold Node.Linked at hlinked
  unfold Node.keywords
  cases hbody : n.body with
  | bool b =>
    rw [hbody] at hlinked
    exact ⟨none, rfl, hlinked.2 ▸ trivial⟩
  | object keywords =>
    rw [hbody] at hlinked
    exact hlinked.2

/-- A target is a node of the graph. -/
theorem exists_target (h : g.Resolved store) (hn : g.node? id = some n) {target : NodeId}
    (ht : n.reference = some target) : ∃ m, g.node? target = some m := by
  obtain ⟨text, _, hat⟩ := h.reference_spec hn
  rw [ht] at hat
  cases text with
  | none => exact hat.elim
  | some text =>
    obtain ⟨_, _, _, _, m, hm, _⟩ := hat
    exact ⟨m, hm⟩

/-- What is written under `$ref` is a text, and leads to the target. -/
theorem exists_target_of_keyword (h : g.Resolved store) (hn : g.node? id = some n) {raw : Json}
    (hraw : n.keyword? "$ref" = some raw) :
    ∃ text target, raw = .string text ∧ n.reference = some target ∧
      ReferenceAt store g.nodes n.location.document (some text) (some target) := by
  obtain ⟨text, htext, hat⟩ := h.reference_spec hn
  unfold Draft.referenceText at htext
  unfold Node.keyword? at hraw
  rw [hraw] at htext
  cases raw with
  | string written =>
    cases htext
    cases hreference : n.reference with
    | none =>
      rw [hreference] at hat
      exact hat.elim
    | some target =>
      rw [hreference] at hat
      exact ⟨written, target, rfl, rfl, hat⟩
  | _ => cases htext

/-- Where `$ref` is written, there is a target. -/
theorem exists_reference (h : g.Resolved store) (hn : g.node? id = some n)
    (href : n.hasKeyword "$ref" = true) : ∃ target, n.reference = some target := by
  obtain ⟨raw, hraw⟩ := Option.isSome_iff_exists.mp href
  obtain ⟨_, target, _, htarget, _⟩ := h.exists_target_of_keyword hn hraw
  exact ⟨target, htarget⟩

/-- Where there is a target, `$ref` is written. -/
theorem hasKeyword_of_reference (h : g.Resolved store) (hn : g.node? id = some n)
    {target : NodeId} (ht : n.reference = some target) : n.hasKeyword "$ref" = true := by
  obtain ⟨text, htext, hat⟩ := h.reference_spec hn
  rw [ht] at hat
  cases hraw : n.keyword? "$ref" with
  | none =>
    unfold Node.keyword? at hraw
    unfold Draft.referenceText at htext
    rw [hraw] at htext
    cases htext
    exact hat.elim
  | some raw =>
    unfold Node.hasKeyword
    rw [hraw]
    rfl

/-- Where types are declared, `type` is written. -/
theorem exists_type (h : g.Resolved store) (hn : g.node? id = some n) {types : List InstanceType}
    (htypes : n.declaredTypes = some types) : ∃ value, n.keyword? "type" = some value := by
  obtain ⟨_, schema, _, hbody, hdeclared⟩ := h.written id n hn
  rw [htypes] at hdeclared
  unfold Draft.declaredTypes at hdeclared
  split at hdeclared
  next => cases hdeclared
  next raw hraw =>
    cases schema with
    | object members =>
      refine ⟨raw, ?_⟩
      unfold Node.keyword? Node.keywords
      rw [← Option.some.inj hbody]
      exact hraw
    | _ => cases hraw

/-- Every node a node leads to is a node of the graph. -/
theorem lt_size_of_mem_successors (h : g.Resolved store) {next : NodeId}
    (hnext : next ∈ g.successors id) : next < g.size := by
  unfold successors at hnext
  cases hn : g.node? id with
  | none =>
    rw [hn] at hnext
    cases hnext
  | some n =>
    rw [hn] at hnext
    have hnode : ∃ m, g.node? next = some m := by
      rcases List.mem_append.mp hnext with hchild | htarget
      · obtain ⟨⟨name, c⟩, hc, hmem⟩ := List.mem_flatMap.mp hchild
        exact h.exists_child hn hc hmem
      · exact h.exists_target hn (Option.mem_toList.mp htarget)
    obtain ⟨m, hm⟩ := hnode
    exact (Array.getElem?_eq_some_iff.mp hm).1

end Graph.Resolved

end TaggedSchema
