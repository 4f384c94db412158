import TaggedSchema.Proofs.Compilation
import TaggedSchema.Proofs.Copies
import TaggedSchema.Proofs.DistinctKeys
import TaggedSchema.Proofs.Evaluation
import TaggedSchema.Proofs.Reach
import TaggedSchema.Validator

/-!
# References are transparent

A pure reference means what it refers to (`Compiler.references_transparent`). When a program runs,
evaluating a chain of `k` of them is evaluating its end, `k` levels deeper and with as many `$ref`
segments in the schema path, and nothing else is different (`Compiler.evaluate_of_hops`): the only
rule of a pure reference is to evaluate its target. When branches are analysed, those that refer to
schemas give what these schemas give as branches, be it these very schemas
(`Discriminator.ofBranches_eq_of_endsAt`) or copies of them.

There is one exception, and it is meant: a branch whose chain comes back to the very schema whose
branch it is. The schema is a branch like any other where it stands itself, but behind a reference
of its own branch it is refused (`Discriminator.ofBranches_ne_ok_of_endsAt`).
-/

namespace TaggedSchema

/-! ## 1. Chains of a length -/

/-- A chain of so many pure references. -/
inductive Graph.HopsTo (g : Graph) : Nat → NodeId → NodeId → Prop where
  | here {id : NodeId} : HopsTo g 0 id id
  | hop {k : Nat} {id next target : NodeId} (h : g.Refers id next) (hrest : HopsTo g k next target) :
      HopsTo g (k + 1) id target

/-- The frame behind so many references, all followed at one place of the instance. -/
def Frame.behind (f : Frame) (k : Nat) : Frame :=
  ⟨f.instancePath, ⟨f.schemaPath.segments ++ List.replicate k "$ref"⟩, f.depth + k⟩

namespace Graph

variable {g : Graph} {id target : NodeId}

/-- A chain that ends begins at a node. -/
theorem EndsAt.exists_node (h : g.EndsAt id target) : ∃ n, g.node? id = some n := by
  rcases h.1.cases_head with rfl | ⟨_, ⟨n, hn, _⟩, _⟩
  · obtain ⟨n, hn, _⟩ := h.2
    exact ⟨n, hn⟩
  · exact ⟨n, hn⟩

end Graph

theorem Frame.behind_zero (f : Frame) : f.behind 0 = f := by
  simp only [behind, List.replicate_zero, List.append_nil, Nat.add_zero]

theorem Frame.behind_succ (f : Frame) (k : Nat) :
    f.behind (k + 1) = (f.nested ["$ref"]).behind k := by
  have hdepth : f.depth + (k + 1) = f.depth + 1 + k := by omega
  simp only [behind, nested, List.replicate_succ, List.append_assoc, List.singleton_append, hdepth]

/-! ## 2. Compiled references -/

/-- All documents of the store have distinct keys. -/
def Store.DistinctKeys (s : Store) : Prop := ∀ entry ∈ s.documents, entry.2.DistinctKeys

theorem Store.distinctKeys_single [Uri.Library] {document : Json} (h : document.DistinctKeys) :
    (single document).DistinctKeys := by
  intro entry hentry
  rw [List.mem_singleton.mp hentry]
  exact h

/-- What stands in a store of distinct keys has distinct keys. -/
theorem Store.DistinctKeys.of_lookup? [Uri.Library] {s : Store} (hs : s.DistinctKeys)
    {l : Location} {value : Json} (h : s.lookup? l = some value) : value.DistinctKeys := by
  obtain ⟨document, hdocument, hresolve⟩ := Option.bind_eq_some_iff.mp h
  obtain ⟨key, _, hfiled⟩ := Option.bind_eq_some_iff.mp hdocument
  exact Pointer.distinctKeys_of_resolve (hs _ (mem_of_lookup hfiled)) hresolve

namespace Graph.Resolved

variable {store : Store} {g : Graph} {id : NodeId} {n : Node}

variable [Uri.Library]

/-- Then what a node is read from has distinct keys. -/
theorem distinctKeys_body (h : g.Resolved store) (hstore : store.DistinctKeys)
    (hn : g.node? id = some n) : n.body.value.DistinctKeys :=
  hstore.of_lookup? (h.lookup?_eq hn)

/-- A schema has each keyword once. -/
theorem nodup_keywords (h : g.Resolved store) (hstore : store.DistinctKeys)
    (hn : g.node? id = some n) : (n.keywords.map (·.1)).Nodup := by
  have hkeys := h.distinctKeys_body hstore hn
  unfold Node.keywords
  cases hbody : n.body with
  | bool b => exact List.nodup_nil
  | object keywords =>
    rw [hbody] at hkeys
    exact hkeys.nodup

/-- The values of the keywords have distinct keys as well. -/
theorem distinctKeys_of_keyword (h : g.Resolved store) (hstore : store.DistinctKeys)
    (hn : g.node? id = some n) {name : String} {value : Json}
    (hvalue : (name, value) ∈ n.keywords) : value.DistinctKeys := by
  have hkeys := h.distinctKeys_body hstore hn
  unfold Node.keywords at hvalue
  cases hbody : n.body with
  | bool b =>
    rw [hbody] at hvalue
    cases hvalue
  | object keywords =>
    rw [hbody] at hkeys hvalue
    exact (Json.distinctKeys_object.mp hkeys).2 _ hvalue

/-- The named subschemas of a keyword have the keys that are written, none of them twice. -/
theorem keys_of_childMap? (h : g.Resolved store) (hstore : store.DistinctKeys)
    (hn : g.node? id = some n) {name : String} {entries : List (String × NodeId)}
    (hentries : n.childMap? name = some entries) :
    ∃ written, n.keyword? name = some (.object written) ∧
      entries.map (·.1) = written.map (·.1) ∧ (entries.map (·.1)).Nodup := by
  obtain ⟨value, shape, places, hvalue, _, hplaces, hat⟩ :=
    h.children_spec hn (mem_of_lookup (Node.children?_of_childMap? hentries))
  cases Draft.places?_eq_some_iff.mp hplaces with
  | single => exact hat.elim
  | list => exact hat.elim
  | @map written =>
    obtain ⟨hkeys, _⟩ := hat
    refine ⟨written, ?_, hkeys, ?_⟩
    · exact (lookup_eq_some_iff_mem (h.nodup_keywords hstore hn)).mpr hvalue
    · exact hkeys ▸ (h.distinctKeys_of_keyword hstore hn hvalue).nodup

end Graph.Resolved

namespace Compiler

variable {c : Compiler} {g : Graph} {store : Store} {start id target : NodeId} {p : Program}
  {n : Node} {d : Option Discriminator}

/-- An annotation makes no rule. -/
theorem keywordRule_of_annotation {name : String} {value : Json}
    (h : isAnnotationKeyword name = true) : c.keywordRule g id n d name value = .ok none := by
  have hall : ∀ name ∈ annotations, CoreKeyword.ofName? name = none := by decide
  have hname := hall name (List.contains_iff_mem.mp h)
  unfold keywordRule
  rw [hname]
  exact if_pos h

theorem keywordRules_of_annotations {keywords : List (String × Json)}
    (h : ∀ entry ∈ keywords, isAnnotationKeyword entry.1 = true) :
    c.keywordRules g id n d keywords = .ok [] := by
  induction keywords with
  | nil => rfl
  | cons entry rest ih =>
    obtain ⟨hentry, hrest⟩ := List.forall_mem_cons.mp h
    exact keywordRules_cons.mpr ⟨none, [], keywordRule_of_annotation hentry, ih hrest, rfl⟩

/-- A reference among annotations makes the one rule to evaluate the target. -/
theorem keywordRules_of_reference (htarget : n.reference = some target)
    {keywords : List (String × Json)} (hnodup : (keywords.map (·.1)).Nodup)
    (hmem : "$ref" ∈ keywords.map (·.1))
    (h : ∀ entry ∈ keywords, (entry.1 == "$ref" || isAnnotationKeyword entry.1) = true) :
    c.keywordRules g id n d keywords = .ok [⟨"$ref", .ref target⟩] := by
  induction keywords with
  | nil => cases hmem
  | cons entry rest ih =>
    obtain ⟨name, value⟩ := entry
    obtain ⟨hentry, hrest⟩ := List.forall_mem_cons.mp h
    obtain ⟨hfresh, hnodup⟩ := List.nodup_cons.mp hnodup
    by_cases href : name = "$ref"
    · subst href
      have hrule : c.keywordRule g id n d "$ref" value = .ok (some (.ref target)) := by
        have hcore : CoreKeyword.ofName? "$ref" = some .ref := by decide
        unfold keywordRule
        rw [hcore]
        exact coreRule_eq_ok_iff.mpr (.ref htarget)
      have hothers : ∀ entry ∈ rest, isAnnotationKeyword entry.1 = true := by
        intro other hother
        have hne : other.1 ≠ "$ref" := fun he =>
          hfresh (he ▸ List.mem_map_of_mem (f := (·.1)) hother)
        simpa [hne] using hrest other hother
      exact keywordRules_cons.mpr ⟨_, [], hrule, keywordRules_of_annotations hothers, rfl⟩
    · have hannotation : isAnnotationKeyword name = true := by simpa [href] using hentry
      have hlater : "$ref" ∈ rest.map (·.1) :=
        (List.mem_cons.mp hmem).resolve_left fun he => href he.symm
      exact keywordRules_cons.mpr
        ⟨none, _, keywordRule_of_annotation hannotation, ih hnodup hlater hrest, rfl⟩

/-- **A pure reference is compiled to one rule**, which evaluates its target. -/
theorem compileNode_of_refers [Uri.Library] (hg : g.Resolved store) (hstore : store.DistinctKeys)
    (hn : g.node? id = some n) (hpure : n.isPureReference = true)
    (htarget : n.reference = some target) :
    c.compileNode g id n = .ok ⟨n.location, [⟨"$ref", .ref target⟩]⟩ := by
  obtain ⟨href, hall⟩ := Bool.and_eq_true_iff.mp hpure
  have hnodup := hg.nodup_keywords hstore hn
  have hnone : n.hasKeyword "discriminator" = false := by
    refine Bool.eq_false_iff.mpr fun hkeyword => ?_
    rw [Node.not_isPureReference hkeyword (by decide)] at hpure
    cases hpure
  have hplain : c.discriminatorOf g id n = .ok none := by
    unfold discriminatorOf
    rw [hnone, Bool.and_false]
    rfl
  obtain ⟨entry, hentry, hkey⟩ := List.lookup_isSome_iff.mp href
  have hmem : "$ref" ∈ n.keywords.map (·.1) :=
    List.mem_map.mpr ⟨entry, hentry, (eq_of_beq hkey).symm⟩
  have hrules : c.keywordRules g id n none n.keywords = .ok [⟨"$ref", .ref target⟩] :=
    keywordRules_of_reference htarget hnodup hmem (List.all_eq_true.mp hall)
  unfold compileNode
  unfold Node.keywords at hmem hrules
  cases hbody : n.body with
  | bool b =>
    rw [hbody] at hmem
    cases hmem
  | object keywords =>
    rw [hbody] at hrules
    dsimp only
    rw [hplain]
    exact bind_pure_eq_ok.mpr ⟨_, hrules, rfl⟩

/-- Where nothing starts, nothing else is reached. -/
theorem reached_of_none (h : g.node? start = none) : reached g start = [start] := by
  have hedges : edges g start = [] := by
    unfold edges
    rw [h]
  simp [reached, Graph.reach, Graph.visit, hedges]

variable [Uri.Library]

theorem mem_reached_of_refers (hg : g.Resolved store) (hid : id ∈ reached g start)
    (h : g.Refers id target) : target ∈ reached g start := by
  obtain ⟨n, hn, _, htarget⟩ := h
  cases hstart : g.node? start with
  | none =>
    rw [reached_of_none hstart] at hid
    rw [List.mem_singleton.mp hid, hstart] at hn
    cases hn
  | some m => exact mem_reached_of_reference hg (lt_size_of_node? hstart) hid hn htarget

/-- One reference takes one evaluation and one level. -/
theorem errors_of_refers (hg : g.Resolved store) (hstore : store.DistinctKeys)
    (hp : c.compile g start = .ok p) (hid : id ∈ reached g start) (h : g.Refers id target)
    {f : Frame} (hdepth : f.depth ≤ p.maxDepth) (fuel : Nat) (value : Json) :
    p.errors (fuel + 1) id value f = p.errors fuel target value (f.nested ["$ref"]) := by
  obtain ⟨n, hn, hpure, htarget⟩ := h
  obtain ⟨node, hcompiled, hnode⟩ := node_of_reached hp hid hn
  rw [compileNode_of_refers hg hstore hn hpure htarget] at hcompiled
  cases hcompiled
  simp only [Program.errors]
  rw [if_neg (Nat.not_lt.mpr hdepth), hnode]
  exact List.append_nil _

/-- **Behind references a node finds what it finds itself**, by induction on their number. -/
theorem errors_of_hops (hg : g.Resolved store) (hstore : store.DistinctKeys)
    (hp : c.compile g start = .ok p) {k : Nat} (hhops : g.HopsTo k id target)
    (hid : id ∈ reached g start) {f : Frame} (hdepth : f.depth + k ≤ p.maxDepth) (fuel : Nat)
    (value : Json) :
    p.errors (fuel + k) id value f = p.errors fuel target value (f.behind k) := by
  induction hhops generalizing f with
  | here => rw [Frame.behind_zero, Nat.add_zero]
  | @hop k id next target hrefers _ ih =>
    have hfirst : f.depth ≤ p.maxDepth := by omega
    have hrest : (f.nested ["$ref"]).depth + k ≤ p.maxDepth := by
      show f.depth + 1 + k ≤ p.maxDepth
      omega
    rw [← Nat.add_assoc, errors_of_refers hg hstore hp hid hrefers hfirst,
      ih (mem_reached_of_refers hg hid hrefers) hrest, Frame.behind_succ]

theorem evaluate_of_hops (hg : g.Resolved store) (hstore : store.DistinctKeys)
    (hp : c.compile g start = .ok p) {k : Nat} (hhops : g.HopsTo k id target)
    (hid : id ∈ reached g start) {f : Frame} (hdepth : f.depth + k ≤ p.maxDepth) (fuel : Nat)
    (value : Json) (out : Report) :
    p.evaluate (fuel + k) id value f out = p.evaluate fuel target value (f.behind k) out := by
  rw [p.evaluate_eq_pushAll, p.evaluate_eq_pushAll, errors_of_hops hg hstore hp hhops hid hdepth]

end Compiler

/-! ## 3. Branches behind references -/

namespace Discriminator

open TaggedSchema.Graph

variable {g : Graph} {store : Store} {owner owner' branch target : NodeId} {property : String}
  {branches targets : List NodeId}

variable [Uri.Library]

/-- The walk from a branch comes to the end of its chain, if that is not the owner. -/
theorem derefBranch_of_endsAt (hg : g.Resolved store) (howner : g.Concrete owner)
    (hend : g.EndsAt branch target) (hother : target ≠ owner) (property : String) :
    derefBranch g owner branch property = .ok target := by
  rcases derefBranch_spec hg hend.exists_node owner property with
    ⟨concrete, hok, hend', _⟩ | ⟨_, hmeets⟩ | ⟨_, hnone⟩
  · rw [hok, hend.unique hend']
  · exact absurd hmeets (hend.not_meets howner hother)
  · exact absurd hend (hnone target)

/-- A branch enters what the schema that it refers to enters as a branch. -/
theorem addBranch_of_endsAt (hg : g.Resolved store) (howner : g.Concrete owner)
    (howner' : g.Concrete owner') (hend : g.EndsAt branch target) (hother : target ≠ owner)
    (hother' : target ≠ owner') (required : Bool) (t : DispatchTable) (index : Nat) :
    addBranch g owner required property t index branch
      = addBranch g owner' required property t index target := by
  have hderef := derefBranch_of_endsAt hg howner hend hother property
  have hderef' := derefBranch_of_endsAt hg howner' hend.2.endsAt hother' property
  unfold addBranch
  rw [hderef, hderef']

theorem addBranches_of_endsAt (hg : g.Resolved store) (howner : g.Concrete owner)
    (howner' : g.Concrete owner') (h : List.Forall₂ g.EndsAt branches targets)
    (hother : owner ∉ targets) (hother' : owner' ∉ targets) (required : Bool) (t : DispatchTable)
    (index : Nat) :
    addBranches g owner required property t index branches
      = addBranches g owner' required property t index targets := by
  induction h generalizing t index with
  | nil => rfl
  | @cons branch target branches targets hend _ ih =>
    obtain ⟨hne, hother⟩ := not_or.mp (mt List.mem_cons.mpr hother)
    obtain ⟨hne', hother'⟩ := not_or.mp (mt List.mem_cons.mpr hother')
    have hadd : addBranch g owner required property t index branch
        = addBranch g owner' required property t index target :=
      addBranch_of_endsAt hg howner howner' hend (Ne.symm hne) (Ne.symm hne') required t index
    unfold addBranches
    rw [hadd]
    congr 1
    funext t
    exact ih hother hother' t (index + 1)

/-- A branch of an owner is another node. -/
theorem ne_of_branch (hg : g.Resolved store) (h : branchesOf g owner = some branches)
    (hbranch : branch ∈ branches) : branch ≠ owner := by
  obtain ⟨n, hn, hlist⟩ := Option.bind_eq_some_iff.mp h
  exact hg.ne_of_child hn (mem_of_lookup (Node.children?_of_childList? hlist)) hbranch

/-- **Branches that refer to schemas are analysed as these schemas are**, if none of them is the
    owner. -/
theorem ofBranches_eq_of_endsAt (hg : g.Resolved store)
    (hbranches : branchesOf g owner = some branches) (htargets : branchesOf g owner' = some targets)
    (hrequires : ownerRequires g owner property = ownerRequires g owner' property)
    (h : List.Forall₂ g.EndsAt branches targets) (hother : owner ∉ targets) :
    ofBranches g owner property = ofBranches g owner' property := by
  have hother' : owner' ∉ targets := fun hmem => ne_of_branch hg htargets hmem rfl
  have hadd : addBranches g owner (ownerRequires g owner' property) property .empty 0 branches
      = addBranches g owner' (ownerRequires g owner' property) property .empty 0 targets :=
    addBranches_of_endsAt hg (concrete_owner hg hbranches) (concrete_owner hg htargets) h hother
      hother' _ .empty 0
  unfold branchesOf at hbranches htargets
  unfold ownerRequires at hrequires hadd
  unfold ofBranches
  rw [hbranches, htargets]
  dsimp only
  rw [hrequires, hadd, h.length_eq]

/-- **A chain that comes back to the owner of its branch is refused.** -/
theorem ofBranches_ne_ok_of_endsAt (hg : g.Resolved store)
    (hbranches : branchesOf g owner = some branches) (hmem : branch ∈ branches)
    (hend : g.EndsAt branch owner) (d : Discriminator) : ofBranches g owner property ≠ .ok d := by
  intro hok
  obtain ⟨found, tags, hall, _⟩ := declaresAll_of_ofBranches hg hok
  cases hbranches.symm.trans hall.1
  obtain ⟨tags, concrete, ⟨_, _, hnot, _⟩, _⟩ := hall.tagged hmem
  have hchain := Relation.reflTransGen_iff_eq_or_transGen.mp hend.1
  exact hnot (hchain.resolve_left fun he => ne_of_branch hg hbranches hmem he.symm)

end Discriminator

/-! ## 4. Both together -/

namespace Compiler

open Discriminator

variable {c : Compiler} {g : Graph} {store : Store} {root : String} {start : NodeId} {p : Program}

/-- **References are transparent**, for evaluation and for analysis.

    Evaluating a reached node behind which `k` references lead to a target gives what the target
    gives `k` levels deeper, with `k` segments `$ref` more in the schema path. An owner whose
    branches refer to schemas has the discriminator, or the fault, of an owner whose branches these
    schemas are, and the discriminators of every owner whose branches are copies of them, if both
    require the property or neither does. Only a branch that refers to its owner has none. -/
theorem references_transparent [Uri.Library] (hg : Graph.resolve store root = .ok g)
    (hstore : store.DistinctKeys) (hp : c.compile g start = .ok p) :
    (∀ id ∈ reached g start, ∀ k target, g.HopsTo k id target →
      ∀ f : Frame, f.depth + k ≤ c.options.maxDepth → ∀ fuel value out,
        p.evaluate (fuel + k) id value f out = p.evaluate fuel target value (f.behind k) out) ∧
    ∀ owner branches property, branchesOf g owner = some branches →
      (∀ owner' targets, branchesOf g owner' = some targets →
        ownerRequires g owner property = ownerRequires g owner' property →
        List.Forall₂ g.EndsAt branches targets → owner ∉ targets →
        ofBranches g owner property = ofBranches g owner' property) ∧
      (∀ store' root' g', Graph.resolve store' root' = .ok g' →
        ∀ owner' copies, branchesOf g' owner' = some copies →
        ownerRequires g owner property = ownerRequires g' owner' property →
        List.Forall₂ (SameBranch g g' owner owner' property) branches copies →
        ∀ d, ofBranches g owner property = .ok d ↔ ofBranches g' owner' property = .ok d) ∧
      ∀ branch ∈ branches, g.EndsAt branch owner → ∀ d, ofBranches g owner property ≠ .ok d := by
  obtain ⟨hresolved, _⟩ := Graph.resolved_of_resolve hg
  have hdepth : p.maxDepth = c.options.maxDepth := by
    obtain ⟨_, _, _, rfl⟩ := compile_eq_ok_iff.mp hp
    rfl
  constructor
  · intro id hid k target hhops f hf fuel value out
    exact evaluate_of_hops hresolved hstore hp hhops hid (hdepth.symm ▸ hf) fuel value out
  · intro owner branches property hbranches
    refine ⟨?_, ?_, ?_⟩
    · intro owner' targets htargets hrequires hends hother
      exact ofBranches_eq_of_endsAt hresolved hbranches htargets hrequires hends hother
    · intro store' root' g' hg' owner' copies hcopies hrequires hsame d
      obtain ⟨hresolved', _⟩ := Graph.resolved_of_resolve hg'
      exact ofBranches_eq_ok_iff_of_same hresolved hresolved' hbranches hcopies hrequires hsame d
    · intro branch hmem hend d
      exact ofBranches_ne_ok_of_endsAt hresolved hbranches hmem hend d

/-- Objects with the letter `a` under `k`. -/
def lettered : List (String × Json) :=
  [("properties", .object [("k", .object [("const", .string "a")])]),
    ("required", .array [.string "k"])]

/-- A schema whose branch is another's, two references away. -/
def signposts : Json :=
  .object
    [("definitions", .object
        [("sign", .object [("$ref", .string "#/properties/there/oneOf/0")])]),
      ("oneOf", .array [.object [("$ref", .string "#/definitions/sign")]]),
      ("properties", .object
        [("there", .object [("oneOf", .array [.object lettered])])])]

/-- The same schema without the detour. -/
def direct : Json := .object [("oneOf", .array [.object lettered])]

/-- The branch is evaluated behind both references, and analysed as it is there and in a copy. -/
theorem references_transparent_signposts :
    ∃ g p g', Graph.ofDocument signposts = .ok g ∧ (builtin .default).compile g g.root = .ok p ∧
      Graph.ofDocument direct = .ok g' ∧
      (∀ out, p.evaluate 9 2 (.object []) ⟨.root, ⟨["oneOf", "0"]⟩, 1⟩ out
        = p.evaluate 7 4 (.object []) ⟨.root, ⟨["oneOf", "0", "$ref", "$ref"]⟩, 3⟩ out) ∧
      ofBranches g 0 "k" = ofBranches g 3 "k" ∧
      ∀ d, ofBranches g 0 "k" = .ok d ↔ ofBranches g' 0 "k" = .ok d := by
  have hall : ((Graph.ofDocument signposts).toOption.any fun g =>
      ((builtin .default).compile g g.root).toOption.any fun p =>
        (g.node? 4).any fun n => decide
          (2 ∈ reached g g.root ∧ (g.Refers 2 1 ∧ g.Refers 1 4 ∧ g.Concrete 4) ∧
            branchesOf g 0 = some [2] ∧ branchesOf g 3 = some [4] ∧
            ownerRequires g 0 "k" = false ∧ ownerRequires g 3 "k" = false ∧
            n.location = ⟨Store.defaultBase, ⟨["properties", "there", "oneOf", "0"]⟩⟩)) = true := by
    decide +kernel
  have hdirect : ((Graph.ofDocument direct).toOption.any fun g' =>
      (g'.node? 1).any fun n => decide
        (g'.Concrete 1 ∧ branchesOf g' 0 = some [1] ∧ ownerRequires g' 0 "k" = false ∧
          n.location = ⟨Store.defaultBase, ⟨["oneOf", "0"]⟩⟩)) = true := by
    decide +kernel
  obtain ⟨g, hg, hall⟩ := any_toOption_eq_true.mp hall
  obtain ⟨p, hp, hall⟩ := any_toOption_eq_true.mp hall
  obtain ⟨n, hn, hall⟩ := (Option.any_eq_true _ _).mp hall
  obtain ⟨hreached, ⟨hfirst, hsecond, hconcrete⟩, howner, hthere, hfree, hfree', hplace⟩ :=
    of_decide_eq_true hall
  obtain ⟨g', hg', hdirect⟩ := any_toOption_eq_true.mp hdirect
  obtain ⟨n', hn', hdirect⟩ := (Option.any_eq_true _ _).mp hdirect
  obtain ⟨hconcrete', howner', hfree'', hplace'⟩ := of_decide_eq_true hdirect
  obtain ⟨hresolved, _⟩ := Graph.resolved_of_resolve hg
  obtain ⟨hresolved', _⟩ := Graph.resolved_of_resolve hg'
  have hkeys : signposts.DistinctKeys := by simp [signposts, lettered]
  have hends : g.EndsAt 2 4 := ⟨.head hfirst (.single hsecond), hconcrete⟩
  have hbody : n.body = .object lettered := hresolved.body_eq hn (by rw [hplace]; rfl)
  have hbody' : n'.body = .object lettered := hresolved'.body_eq hn' (by rw [hplace']; rfl)
  have hcopies : Graph.Copies g g' "k" n n' := by
    refine Graph.copies_of_body hresolved hresolved' hn hn' (hbody.trans hbody'.symm) ?_
    intro value hvalue
    have hconst : n.propertyValue? "k" = some (.object [("const", .string "a")]) := by
      unfold Node.propertyValue? Node.keyword? Node.keywords
      rw [hbody]
      rfl
    cases hconst.symm.trans hvalue
    rfl
  have hsame : SameBranch g g' 0 0 "k" 2 1 := by
    have hmeets := hends.not_meets (concrete_owner hresolved howner) (by decide)
    have hmeets' := hconcrete'.endsAt.not_meets (concrete_owner hresolved' howner') (by decide)
    exact ⟨n, n', ⟨4, hends, hmeets, hn⟩, ⟨1, hconcrete'.endsAt, hmeets', hn'⟩, hcopies⟩
  obtain ⟨hevaluates, hanalyses⟩ :=
    references_transparent hg (Store.distinctKeys_single hkeys) hp
  obtain ⟨htargets, hmirrored, _⟩ := hanalyses 0 [2] "k" howner
  exact ⟨g, p, g', hg, hp, hg',
    hevaluates 2 hreached 2 4 (.hop hfirst (.hop hsecond .here)) _ (by decide) 7 (.object []),
    htargets 3 [4] hthere (hfree.trans hfree'.symm) (.cons hends .nil) (by decide),
    hmirrored _ _ g' hg' 0 [1] howner' (hfree.trans hfree''.symm) (.cons hsame .nil)⟩

/-- A schema whose only branch refers back to it, as the branch of another. -/
def turnedBack : Json :=
  .object
    [("oneOf", .array
        [.object (("oneOf", .array [.object [("$ref", .string "#/oneOf/0")]]) :: lettered)]),
      ("required", .array [.string "k"])]

/-- **A branch that refers to its owner is refused**, where the owner itself is a branch with a tag. -/
theorem reference_to_owner_not_transparent :
    ∃ g p, Graph.ofDocument turnedBack = .ok g ∧ (builtin .default).compile g g.root = .ok p ∧
      (2 ∈ reached g g.root ∧ g.HopsTo 1 2 1 ∧ g.Concrete 1) ∧
      branchesOf g 1 = some [2] ∧ branchesOf g 0 = some [1] ∧
      ownerRequires g 1 "k" = ownerRequires g 0 "k" ∧
      ofBranches g 0 "k" = .ok ⟨"k", ⟨[(.string "a", 0)]⟩, 1⟩ ∧
      ofBranches g 1 "k"
        = .error ⟨⟨Store.defaultBase, ⟨["oneOf", "0", "oneOf", "0"]⟩⟩, .cyclicDiscriminator "k"⟩ := by
  have hall : ((Graph.ofDocument turnedBack).toOption.any fun g =>
      ((builtin .default).compile g g.root).toOption.any fun p => decide
        (2 ∈ reached g g.root ∧ g.Refers 2 1 ∧ g.Concrete 1 ∧
          branchesOf g 1 = some [2] ∧ branchesOf g 0 = some [1] ∧
          ownerRequires g 1 "k" = ownerRequires g 0 "k" ∧
          ofBranches g 0 "k" = .ok ⟨"k", ⟨[(.string "a", 0)]⟩, 1⟩ ∧
          ofBranches g 1 "k" = .error ⟨⟨Store.defaultBase, ⟨["oneOf", "0", "oneOf", "0"]⟩⟩,
            .cyclicDiscriminator "k"⟩)) = true := by decide +kernel
  obtain ⟨g, hg, hall⟩ := any_toOption_eq_true.mp hall
  obtain ⟨p, hp, hall⟩ := any_toOption_eq_true.mp hall
  obtain ⟨hreached, hrefers, hconcrete, hanalysed⟩ := of_decide_eq_true hall
  exact ⟨g, p, hg, hp, ⟨hreached, .hop hrefers .here, hconcrete⟩, hanalysed⟩

end Compiler

end TaggedSchema
