import TaggedSchema.Uri.Reader
import TaggedSchema.Proofs.Closure
import Mathlib.Logic.Relation

/-!
# Resolution ends, and accepts the well-formed closures

The model bounds the turns of the loop that expands nodes. This file fixes that resolution is the
loop without the bound (`Graph.resolves_resolve`), which ends for every store and every name.

Hence what holds of one expansion holds of resolution. Everything noted lies in the closure of the
root and every error is a fault there (`Draft.Runs.keeps`); conversely every location of the closure
is a node of the resolved graph (`Graph.Resolved.path_of_closure`), and a node is well-formed. So
the order in which nodes are expanded decides which fault is reported, and never whether one is.
-/

namespace TaggedSchema

/-! ## 1. Resolution without a bound -/

namespace Draft

variable {s : Store} {d : Draft}

variable [Uri.Library]

theorem Runs.unique {outcome outcome' : Except ResolutionError Draft} (h : Runs s d outcome)
    (h' : Runs s d outcome') : outcome = outcome' := by
  induction h with
  | done =>
    cases h'
    rfl
  | fail he =>
    cases h' with
    | fail he' => exact he.symm.trans he'
    | turn he' _ => cases he.symm.trans he'
  | turn he _ ih =>
    cases h' with
    | fail he' => cases he.symm.trans he'
    | turn he' hmore =>
      cases he.symm.trans he'
      exact ih hmore

/-- **The loop stays inside** every set that has the places and targets of what it contains. -/
theorem Runs.keeps {P : Location → Prop} (hP : s.Closes P) {outcome : Except ResolutionError Draft}
    (h : Runs s d outcome) (hsound : Sound s d.nodes d.pending) (hd : Inside P d.nodes) :
    Keeps s P (fun d => d) outcome := by
  induction h with
  | done => exact keeps_ok hd
  | @fail nodes id rest _ he =>
    have hstep := expand_keeps (d := ⟨nodes, rest⟩) hP hd (hsound.written id)
    exact he ▸ hstep
  | @turn nodes id rest _ _ he _ ih =>
    have hstep := expand_keeps (d := ⟨nodes, rest⟩) hP hd (hsound.written id)
    exact ih (Sound.expand (d := ⟨nodes, rest⟩) hsound he).1 (hstep.inside _ he)

end Draft

namespace Graph

variable [Uri.Library]

/-- **Resolution with no bound on the turns** of its loop. -/
inductive Resolves (s : Store) (root : String) : Except ResolutionError Graph → Prop where
  | unregistered (h : s.canonicalBase root = none) :
      Resolves s root (.error (.unknownDocument root))
  | refused {base : String} {e : ResolutionError} (hbase : s.canonicalBase root = some base)
      (h : Draft.note s ⟨#[], []⟩ (.ofDocument base) "$ref" = .error e) :
      Resolves s root (.error e)
  | missing {base : String} {d : Draft} (hbase : s.canonicalBase root = some base)
      (h : Draft.note s ⟨#[], []⟩ (.ofDocument base) "$ref" = .ok (none, d)) :
      Resolves s root (.error (.unknownDocument base))
  | run {base : String} {id : NodeId} {d : Draft} {outcome : Except ResolutionError Draft}
      (hbase : s.canonicalBase root = some base)
      (h : Draft.note s ⟨#[], []⟩ (.ofDocument base) "$ref" = .ok (some id, d))
      (hrun : d.Runs s outcome) : Resolves s root (outcome.map fun d => ⟨d.nodes, id⟩)

variable {s : Store} {root base : String}

/-- **Resolution ends**, for every store and every name. -/
theorem resolves_resolve (s : Store) (root : String) : Resolves s root (resolve s root) := by
  unfold resolve
  cases hbase : s.canonicalBase root with
  | none => exact .unregistered hbase
  | some base =>
    dsimp only
    cases hnote : Draft.note s ⟨#[], []⟩ (.ofDocument base) "$ref" with
    | error e => exact .refused hbase hnote
    | ok found =>
      obtain ⟨found, d⟩ := found
      cases found with
      | none => exact .missing hbase hnote
      | some id =>
        obtain ⟨hsound, _, hfuel⟩ :=
          Draft.sound_of_first (Store.mem_names_of_canonicalBase hbase) hnote
        exact .run hbase hnote (hsound.runs hfuel)

/-- Resolution ends in one way only. -/
theorem Resolves.resolve_eq {outcome : Except ResolutionError Graph} (h : Resolves s root outcome) :
    resolve s root = outcome := by
  unfold resolve
  cases h with
  | unregistered hnone => rw [hnone]
  | refused hbase h | missing hbase h =>
    rw [hbase]
    dsimp only
    rw [h]
    rfl
  | @run _ id d ending hbase h hrun =>
    obtain ⟨hsound, _, hfuel⟩ := Draft.sound_of_first (Store.mem_names_of_canonicalBase hbase) h
    rw [hbase]
    dsimp only
    rw [h]
    show (Draft.expandAll s _ d >>= fun d => pure (Graph.mk d.nodes id)) = _
    rw [(hsound.runs hfuel).unique hrun]
    cases ending <;> rfl

/-- All nodes of a resolved graph lie in the closure of its root, and whatever resolution reports is
    a fault there, unless the root document is not found under its own name. -/
theorem Resolves.keeps {outcome : Except ResolutionError Graph} (h : Resolves s root outcome)
    (hbase : s.canonicalBase root = some base) :
    (∀ g, outcome = .ok g → Draft.Inside (s.Closure (.ofDocument base)) g.nodes) ∧
      ∀ e, outcome = .error e → (∃ l, s.Closure (.ofDocument base) l ∧ s.FaultAt l e) ∨
        (e = .unknownDocument base ∧ s.lookup? (.ofDocument base) = none) := by
  have hempty : Draft.Inside (s.Closure (.ofDocument base)) #[] := fun _ _ hat =>
    absurd hat.lt_size (Nat.not_lt_zero _)
  have hfirst := Draft.note_keeps (s := s) (d := ⟨#[], []⟩) hempty .start "$ref"
  cases h with
  | unregistered hnone => cases hnone.symm.trans hbase
  | refused hbase' h =>
    cases hbase.symm.trans hbase'
    refine ⟨fun g hg => (by cases hg), fun e he => ?_⟩
    cases he
    exact Or.inl (hfirst.fault _ h)
  | missing hbase' h =>
    cases hbase.symm.trans hbase'
    refine ⟨fun g hg => (by cases hg), fun e he => ?_⟩
    cases he
    exact Or.inr ⟨rfl, Draft.lookup?_of_note h⟩
  | @run _ id d outcome hbase' h hrun =>
    cases hbase.symm.trans hbase'
    obtain ⟨hsound, _, _⟩ := Draft.sound_of_first (Store.mem_names_of_canonicalBase hbase) h
    have hkeeps := hrun.keeps (s.closes_closure _) hsound (hfirst.inside _ h)
    cases outcome with
    | error e =>
      refine ⟨fun g hg => (by cases hg), fun e' he => ?_⟩
      cases he
      exact Or.inl (hkeeps.fault _ rfl)
    | ok d' =>
      refine ⟨fun g hg => ?_, fun e he => (by cases he)⟩
      cases hg
      exact hkeeps.inside d' rfl

end Graph

/-! ## 2. The closure in the graph -/

/-- The value that a body was read from. -/
def SchemaBody.value : SchemaBody → Json
  | .bool b => .bool b
  | .object keywords => .object keywords

namespace Draft

theorem bodyOf?_eq_some_iff {value : Json} {body : SchemaBody} :
    bodyOf? value = some body ↔ value = body.value := by
  cases value <;> cases body <;> simp [bodyOf?, SchemaBody.value]

/-- Every structural keyword has its places. -/
theorem exists_mem_placesOf {l : Location} {keywords : List (String × Json)}
    {places : List (String × Places)} (h : placesOf l keywords = .ok places) {keyword : String}
    {value : Json} {shape : Structure} (hvalue : (keyword, value) ∈ keywords)
    (hshape : Structure.of? keyword = some shape) :
    ∃ p, places? shape value = some p ∧ (keyword, p) ∈ places := by
  induction keywords generalizing places with
  | nil => cases hvalue
  | cons entry rest ih =>
    obtain ⟨name, first⟩ := entry
    unfold placesOf at h
    rcases List.mem_cons.mp hvalue with he | hrest
    · cases he
      rw [hshape] at h
      dsimp only at h
      split at h
      next p hp =>
        obtain ⟨more, _, rfl⟩ := bind_pure_eq_ok.mp h
        exact ⟨p, hp, List.mem_cons_self⟩
      next => cases h
    · split at h
      next => exact ih h hrest
      next =>
        split at h
        next =>
          obtain ⟨more, hmore, rfl⟩ := bind_pure_eq_ok.mp h
          obtain ⟨p, hp, hmem⟩ := ih hmore hrest
          exact ⟨p, hp, List.mem_cons_of_mem _ hmem⟩
        next => cases h

/-- Every place of a subschema is one that resolution finds. -/
theorem exists_place_of_subschema {l l' : Location} {keywords : List (String × Json)}
    {places : List (String × Places)} (h : placesOf l keywords = .ok places)
    (hl : Subschema l keywords l') :
    ∃ name p, (name, p) ∈ places ∧ l' ∈ p.locations (l.join name) := by
  cases hl with
  | single hmem hkeyword hshape hvalue =>
    obtain ⟨p, hp, hplace⟩ := exists_mem_placesOf h hmem hkeyword
    cases (places?_eq_some_iff.mpr (.single hshape hvalue)).symm.trans hp
    exact ⟨_, _, hplace, List.mem_singleton.mpr rfl⟩
  | item hmem hkeyword hshape hlt =>
    obtain ⟨p, hp, hplace⟩ := exists_mem_placesOf h hmem hkeyword
    cases (places?_eq_some_iff.mpr (.list hshape)).symm.trans hp
    exact ⟨_, _, hplace, List.mem_map_of_mem (List.mem_map_of_mem (List.mem_range.mpr hlt))⟩
  | member hmem hkeyword hkey =>
    obtain ⟨p, hp, hplace⟩ := exists_mem_placesOf h hmem hkeyword
    cases (places?_eq_some_iff.mpr (.map rfl)).symm.trans hp
    exact ⟨_, _, hplace, List.mem_map_of_mem hkey⟩

end Draft

/-- At every place of a keyword stands one of its children. -/
theorem ChildrenAt.exists_standsAt {nodes : Array Node} {l l' : Location} {places : Draft.Places}
    {children : Children} (h : ChildrenAt nodes l places children) (hl : l' ∈ places.locations l) :
    ∃ id ∈ children.ids, StandsAt nodes id l' := by
  cases places with
  | single =>
    cases children with
    | single id =>
      cases List.mem_singleton.mp hl
      exact ⟨id, List.mem_singleton.mpr rfl, h⟩
    | _ => exact h.elim
  | list count =>
    cases children with
    | list ids =>
      obtain ⟨segment, hsegment, rfl⟩ := List.mem_map.mp hl
      obtain ⟨i, hi, rfl⟩ := List.mem_iff_getElem.mp hsegment
      have hlt : i < ids.length := h.length_eq ▸ hi
      exact ⟨ids[i], List.getElem_mem hlt, (List.forall₂_iff_get.mp h).2 i hi hlt⟩
    | _ => exact h.elim
  | map keys =>
    cases children with
    | map entries =>
      obtain ⟨rfl, hat⟩ := h
      obtain ⟨key, hkey, rfl⟩ := List.mem_map.mp hl
      obtain ⟨entry, hentry, rfl⟩ := List.mem_map.mp hkey
      exact ⟨entry.2, List.mem_map_of_mem hentry, hat entry hentry⟩
    | _ => exact h.elim

namespace Store

theorem targetOf?_eq_some_iff [Uri.Library] {s : Store} {document text : String} {l : Location} :
    s.targetOf? document text = some l ↔
      Pointer.parse (Draft.fragmentOf text) = .ok l.pointer ∧
        s.canonicalBase (s.readIn document text) = some l.document := by
  unfold targetOf?
  cases Pointer.parse (Draft.fragmentOf text) with
  | error e => simp
  | ok pointer =>
    obtain ⟨document', pointer'⟩ := l
    simp [and_comm]

end Store

/-- The target of a reference stands at what its text names. -/
theorem referenceAt_iff [Uri.Library] {s : Store} {nodes : Array Node} {document text : String}
    {target : NodeId} : ReferenceAt s nodes document (some text) (some target) ↔
      ∃ l, s.targetOf? document text = some l ∧ StandsAt nodes target l := by
  constructor
  · rintro ⟨pointer, key, hpointer, hkey, hat⟩
    exact ⟨⟨key, pointer⟩, Store.targetOf?_eq_some_iff.mpr ⟨hpointer, hkey⟩, hat⟩
  · rintro ⟨l, hl, hat⟩
    obtain ⟨hpointer, hkey⟩ := Store.targetOf?_eq_some_iff.mp hl
    exact ⟨l.pointer, l.document, hpointer, hkey, hat⟩

theorem Node.mem_successors {n : Node} {next : NodeId} :
    next ∈ n.successors ↔
      (∃ name c, (name, c) ∈ n.children ∧ next ∈ c.ids) ∨ n.reference = some next := by
  unfold successors
  simp

/-- Under the keyword stand children of a shape, as those who read them ask for. -/
def Node.HasShape (n : Node) (name : String) : Structure → Prop
  | .single => ∃ id, n.child? name = some id
  | .list => ∃ ids, n.childList? name = some ids
  | .map => ∃ entries, n.childMap? name = some entries
  | .singleOrList => (∃ id, n.child? name = some id) ∨ ∃ ids, n.childList? name = some ids

/-- The children at the places of a keyword have its shape. -/
theorem Node.hasShape_of_places {n : Node} {name : String} {shape : Structure} {value : Json}
    {places : Draft.Places} (hplaces : Draft.PlacesAre shape value places) {nodes : Array Node}
    {l : Location} {children : Children} (hat : ChildrenAt nodes l places children)
    (hchildren : n.children? name = some children) : n.HasShape name shape := by
  cases hplaces with
  | single hshape =>
    cases children with
    | single id =>
      have hchild : n.child? name = some id := by rw [child?, hchildren]
      rcases hshape with rfl | rfl
      · exact ⟨id, hchild⟩
      · exact Or.inl ⟨id, hchild⟩
    | _ => exact hat.elim
  | list hshape =>
    cases children with
    | list ids =>
      have hlist : n.childList? name = some ids := by rw [childList?, hchildren]
      rcases hshape with rfl | rfl
      · exact ⟨ids, hlist⟩
      · exact Or.inr ⟨ids, hlist⟩
    | _ => exact hat.elim
  | map hshape =>
    cases children with
    | map entries =>
      subst hshape
      exact ⟨entries, by rw [childMap?, hchildren]⟩
    | _ => exact hat.elim

namespace Graph

theorem mem_successors {g : Graph} {id next : NodeId} :
    next ∈ g.successors id ↔ ∃ n, g.node? id = some n ∧ next ∈ n.successors := by
  unfold successors
  cases g.node? id <;> simp

namespace Resolved

variable {s : Store} {g : Graph} {id : NodeId} {n : Node} {l l' : Location}
  {keywords : List (String × Json)}

variable [Uri.Library]

/-- A node is written as the store has it. -/
theorem lookup?_eq (h : g.Resolved s) (hn : g.node? id = some n) :
    s.lookup? n.location = some n.body.value := by
  obtain ⟨_, value, hvalue, hbody, _⟩ := h.written id n hn
  rw [hvalue, Draft.bodyOf?_eq_some_iff.mp hbody]

theorem body_eq (h : g.Resolved s) (hn : g.node? id = some n)
    (hvalue : s.lookup? n.location = some (.object keywords)) : n.body = .object keywords := by
  have hsame := Option.some.inj ((h.lookup?_eq hn).symm.trans hvalue)
  cases hbody : n.body with
  | bool b =>
    rw [hbody] at hsame
    cases hsame
  | object _ =>
    rw [hbody] at hsame
    cases hsame
    rfl

/-- The children of an object stand at its places. -/
theorem exists_places (h : g.Resolved s) (hn : g.node? id = some n)
    (hbody : n.body = .object keywords) :
    ∃ places, Draft.placesOf n.location keywords = .ok places ∧
      KeywordsAt g.nodes n.location places n.children := by
  have hlinked := h.linked id n hn
  unfold Node.Linked at hlinked
  rw [hbody] at hlinked
  exact hlinked.1

/-- **A structural keyword has children of its shape**, where it is written. -/
theorem hasShape_of_keyword (h : g.Resolved s) (hn : g.node? id = some n) {name : String}
    {shape : Structure} (hshape : Structure.of? name = some shape)
    (hkeyword : n.hasKeyword name = true) : n.HasShape name shape := by
  obtain ⟨value, hvalue⟩ := Option.isSome_iff_exists.mp hkeyword
  unfold Node.keyword? Node.keywords at hvalue
  cases hbody : n.body with
  | bool b =>
    rw [hbody] at hvalue
    cases hvalue
  | object keywords =>
    rw [hbody] at hvalue
    obtain ⟨places, hplaces, hchildren⟩ := h.exists_places hn hbody
    obtain ⟨place, _, hplace⟩ := Draft.exists_mem_placesOf hplaces (mem_of_lookup hvalue) hshape
    obtain ⟨i, hi, hget⟩ := List.mem_iff_getElem.mp hplace
    have hlt : i < n.children.length := hchildren.length_eq ▸ hi
    obtain ⟨hname, _⟩ := (List.forall₂_iff_get.mp hchildren).2 i hi hlt
    have hmem : (name, n.children[i].2) ∈ n.children := by
      simp only [List.get_eq_getElem, hget] at hname
      exact hname ▸ List.getElem_mem hlt
    obtain ⟨children, hfound⟩ :=
      Option.isSome_iff_exists.mp (List.lookup_isSome_iff.mpr ⟨_, hmem, beq_self_eq_true name⟩)
    obtain ⟨_, _, _, _, hshape', hplaces', hat⟩ := h.children_spec hn (mem_of_lookup hfound)
    cases hshape.symm.trans hshape'
    exact Node.hasShape_of_places (Draft.places?_eq_some_iff.mp hplaces') hat hfound

/-- A keyword for one subschema has one, where it is written. -/
theorem exists_child_of_keyword (h : g.Resolved s) (hn : g.node? id = some n) {name : String}
    (hshape : Structure.of? name = some .single) (hkeyword : n.hasKeyword name = true) :
    ∃ schema, n.child? name = some schema :=
  h.hasShape_of_keyword hn hshape hkeyword

/-- At every place of a subschema stands a child. -/
theorem exists_successor_of_subschema (h : g.Resolved s) (hn : g.node? id = some n)
    (hbody : n.body = .object keywords) (hl : Subschema n.location keywords l') :
    ∃ next ∈ g.successors id, g.StandsAt next l' := by
  obtain ⟨places, hplaces, hchildren⟩ := h.exists_places hn hbody
  obtain ⟨name, p, hp, hl'⟩ := Draft.exists_place_of_subschema hplaces hl
  obtain ⟨i, hi, hget⟩ := List.mem_iff_getElem.mp hp
  have hlt : i < n.children.length := hchildren.length_eq ▸ hi
  obtain ⟨_, hat⟩ := (List.forall₂_iff_get.mp hchildren).2 i hi hlt
  simp only [List.get_eq_getElem, hget] at hat
  obtain ⟨next, hnext, hstands⟩ := hat.exists_standsAt hl'
  refine ⟨next, mem_successors.mpr ⟨n, hn, Node.mem_successors.mpr (Or.inl ?_)⟩, hstands⟩
  exact ⟨_, _, List.getElem_mem hlt, hnext⟩

/-- What a reference names is there, and its node is the target. -/
theorem exists_target_of_text (h : g.Resolved s) (hn : g.node? id = some n)
    (hbody : n.body = .object keywords) {raw : Json} (hraw : keywords.lookup "$ref" = some raw) :
    ∃ text target l, raw = .string text ∧ n.reference = some target ∧
      s.targetOf? n.location.document text = some l ∧ g.StandsAt target l := by
  have hkeyword : n.keyword? "$ref" = some raw := by
    unfold Node.keyword? Node.keywords
    rw [hbody]
    exact hraw
  obtain ⟨text, target, he, htarget, hat⟩ := h.exists_target_of_keyword hn hkeyword
  obtain ⟨l, hl, hstands⟩ := referenceAt_iff.mp hat
  exact ⟨text, target, l, he, htarget, hl, hstands⟩

/-- **Every location of the closure is a node**, on a path of children and references from the
    start. -/
theorem path_of_closure (h : g.Resolved s) {root : NodeId} {start : Location}
    (hroot : g.StandsAt root start) (hl : s.Closure start l) :
    ∃ id, g.StandsAt id l ∧ Relation.ReflTransGen (fun a b => b ∈ g.successors a) root id := by
  induction hl with
  | start => exact ⟨root, hroot, .refl⟩
  | child _ hvalue hplace ih =>
    obtain ⟨id, ⟨n, hn, rfl⟩, hpath⟩ := ih
    obtain ⟨next, hnext, hstands⟩ :=
      h.exists_successor_of_subschema hn (h.body_eq hn hvalue) hplace
    exact ⟨next, hstands, hpath.tail hnext⟩
  | target _ hvalue href htarget ih =>
    obtain ⟨id, ⟨n, hn, rfl⟩, hpath⟩ := ih
    obtain ⟨text, target, l', he, hreference, hl', hstands⟩ :=
      h.exists_target_of_text hn (h.body_eq hn hvalue) href
    cases he
    cases htarget.symm.trans hl'
    refine ⟨target, hstands, hpath.tail ?_⟩
    exact mem_successors.mpr ⟨n, hn, Node.mem_successors.mpr (Or.inr hreference)⟩

/-- **A node stands at a well-formed location.** -/
theorem wellFormedAt (h : g.Resolved s) (hn : g.node? id = some n) :
    s.WellFormedAt n.location := by
  obtain ⟨_, value, hvalue, hbody, htypes⟩ := h.written id n hn
  refine ⟨⟨value, hvalue, ?_⟩, fun keywords raw hobject hraw => ?_,
    fun keywords keyword raw shape hobject hmem hshape => ?_, fun keywords raw hobject hraw => ?_⟩
  · by_contra hnot
    cases (Draft.bodyOf?_eq_none_iff.mpr hnot).symm.trans hbody
  · cases hvalue.symm.trans hobject
    unfold Draft.declaredTypes at htypes
    rw [show (Json.object keywords).get? "type" = some raw from hraw] at htypes
    dsimp only at htypes
    split at htypes
    next types htypes' => exact ⟨types, htypes'⟩
    next => cases htypes
  · obtain ⟨places, hplaces, _⟩ := h.exists_places hn (h.body_eq hn hobject)
    obtain ⟨p, hp, _⟩ := Draft.exists_mem_placesOf hplaces hmem hshape
    exact Draft.exists_places?_iff.mp ⟨p, hp⟩
  · obtain ⟨text, target, l, he, _, hl, m, hm, rfl⟩ :=
      h.exists_target_of_text hn (h.body_eq hn hobject) hraw
    exact ⟨text, m.location, m.body.value, he, hl, h.lookup?_eq hm⟩

end Resolved

/-! ## 3. What is accepted, and what is reported -/

section Acceptance

variable {s : Store} {root base : String}

/-- Resolution succeeds on a well-formed closure, and on no other. -/
theorem exists_resolve_iff [Uri.Library] (hbase : s.canonicalBase root = some base) :
    (∃ g, resolve s root = .ok g) ↔
      ∀ l, s.Closure (.ofDocument base) l → s.WellFormedAt l := by
  constructor
  · rintro ⟨g, hg⟩ l hl
    obtain ⟨hresolved, base', hbase', hroot⟩ := resolved_of_resolve hg
    cases hbase.symm.trans hbase'
    obtain ⟨id, ⟨n, hn, rfl⟩, _⟩ := hresolved.path_of_closure hroot hl
    exact hresolved.wellFormedAt hn
  · intro hwell
    cases hresult : resolve s root with
    | ok g => exact ⟨g, rfl⟩
    | error e =>
      exfalso
      rcases ((resolves_resolve s root).keeps hbase).2 e hresult with
        ⟨l, hl, hfault⟩ | ⟨_, hnone⟩
      · exact hfault.not_wellFormed (hwell l hl)
      · obtain ⟨value, hvalue, _⟩ := (hwell _ .start).schema
        rw [hnone] at hvalue
        cases hvalue

/-- **Resolution ends, accepts exactly the well-formed closures, and reports real faults.** For
    every store and every name that it knows: the loop without a bound has one outcome, the one that
    `resolve` gives; there is a graph just where every location that the root leads to is
    well-formed; a dangling reference is held by a location of the closure, with that text, and
    nothing is found at its target; and what is malformed is a location of the closure with the
    fault that is named. -/
theorem resolve_decides_closure [Uri.Library] (hbase : s.canonicalBase root = some base) :
    (∀ outcome, Resolves s root outcome ↔ resolve s root = outcome) ∧
    ((∃ g, resolve s root = .ok g) ↔
      ∀ l, s.Closure (.ofDocument base) l → s.WellFormedAt l) ∧
    (∀ source text target, resolve s root = .error (.danglingReference source text target) →
      s.Closure (.ofDocument base) source ∧
      (∃ keywords, s.lookup? source = some (.object keywords) ∧
        keywords.lookup "$ref" = some (.string text)) ∧
      s.lookup? target = none) ∧
    (∀ l keyword reason, resolve s root = .error (.malformed l keyword reason) →
      s.Closure (.ofDocument base) l ∧ s.FaultAt l (.malformed l keyword reason)) ∧
    (∀ name, resolve s root = .error (.unknownDocument name) →
      name = base ∧ s.lookup? (.ofDocument base) = none) := by
  have hresolves := resolves_resolve s root
  have hfaults := (hresolves.keeps hbase).2
  refine ⟨fun outcome => ⟨Resolves.resolve_eq, fun he => he ▸ hresolves⟩, exists_resolve_iff hbase,
    fun source text target he => ?_, fun l keyword reason he => ?_, fun name he => ?_⟩
  · rcases hfaults _ he with ⟨l, hl, hfault⟩ | ⟨hunknown, _⟩
    · obtain ⟨rfl, hheld, hnone⟩ := hfault.of_dangling
      exact ⟨hl, hheld, hnone⟩
    · cases hunknown
  · rcases hfaults _ he with ⟨l', hl, hfault⟩ | ⟨hunknown, _⟩
    · cases hfault.location_eq
      exact ⟨hl, hfault⟩
    · cases hunknown
  · rcases hfaults _ he with ⟨_, _, hfault⟩ | ⟨hunknown, hnone⟩
    · cases hfault
    · cases hunknown
      exact ⟨rfl, hnone⟩

/-- A list whose tail is a list again, by a reference to the whole. -/
def chain : Json :=
  .object [("properties", .object [("next", .object [("$ref", .string "#")])])]

/-- The same with a reference to nothing. -/
def brokenChain : Json :=
  .object [("properties", .object [("next", .object [("$ref", .string "#/end")])])]

/-- The closure of the list is well-formed, though it comes back to where it starts, and the other
    one is not: nothing is found at the target of its reference. -/
theorem resolve_decides_closure_chain :
    (∀ l, (Store.single chain).Closure (.ofDocument Store.defaultBase) l →
      (Store.single chain).WellFormedAt l) ∧
    ¬ (∀ l, (Store.single brokenChain).Closure (.ofDocument Store.defaultBase) l →
      (Store.single brokenChain).WellFormedAt l) ∧
    (Store.single brokenChain).lookup? ⟨Store.defaultBase, ⟨["end"]⟩⟩ = none := by
  have hbase : (Store.single chain).canonicalBase Store.defaultBase = some Store.defaultBase := by
    decide +kernel
  have hbase' : (Store.single brokenChain).canonicalBase Store.defaultBase
      = some Store.defaultBase := by decide +kernel
  have haccepted : (resolve (Store.single chain) Store.defaultBase).isOk = true := by
    decide +kernel
  have hreported : (match resolve (Store.single brokenChain) Store.defaultBase with
      | .ok _ => false
      | .error e => decide (e = .danglingReference
          ⟨Store.defaultBase, ⟨["properties", "next"]⟩⟩ "#/end"
          ⟨Store.defaultBase, ⟨["end"]⟩⟩)) = true := by decide +kernel
  obtain ⟨_, haccepts, _⟩ := resolve_decides_closure hbase
  obtain ⟨_, haccepts', hdangles, _⟩ := resolve_decides_closure hbase'
  refine ⟨haccepts.mp ?_, fun hwell => ?_, ?_⟩
  · cases hresult : resolve (Store.single chain) Store.defaultBase with
    | ok g => exact ⟨g, rfl⟩
    | error e =>
      rw [hresult] at haccepted
      cases haccepted
  · obtain ⟨g, hg⟩ := haccepts'.mpr hwell
    rw [hg] at hreported
    cases hreported
  · cases hresult : resolve (Store.single brokenChain) Store.defaultBase with
    | ok g =>
      rw [hresult] at hreported
      cases hreported
    | error e =>
      rw [hresult] at hreported
      cases of_decide_eq_true hreported
      exact (hdangles _ _ _ hresult).2.2

end Acceptance

end Graph

end TaggedSchema
