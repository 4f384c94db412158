import TaggedSchema.Proofs.Cycles
import TaggedSchema.Proofs.DispatchAgreement
import Mathlib.Data.List.Chain

/-!
# Coming back to a discriminator

A dispatch evaluates the selected branch where the instance is, and so does a reference. A loop of
such steps through a discriminator would evaluate it for ever at one place. The compiler looks for
loops in two ways: `Discriminator.derefBranch` follows the pure references of a branch until they
come to the owner, `Graph.inPlaceCycle` follows references and `allOf` but no branches.

This file fixes which loops are left (`Compiler.reenters_of_loop`): each of them takes a branch to
the schema it amounts to, which is not the owner, and goes on from there by a reference that has
other keywords beside it, or through another discriminator. Such loops do compile
(`Compiler.loops_compile`).
-/

namespace TaggedSchema

namespace Graph

/-! ## 1. Steps that stay in place -/

/-- The target of a node's reference, if it has one. -/
def targetsOf (g : Graph) (id : NodeId) : List NodeId :=
  match g.node? id with
  | some n => n.reference.toList
  | none => []

/-- The branches that the discriminator of a node selects from. -/
def offeredBy (g : Graph) (id : NodeId) : List NodeId :=
  match g.node? id with
  | some n => if n.hasKeyword "discriminator" then (n.childList? "oneOf").getD [] else []
  | none => []

/-- The node has a reference to the other. -/
def PointsTo (g : Graph) (id target : NodeId) : Prop := target ∈ g.targetsOf id

/-- The node has a discriminator, and the other is one of its branches. -/
def Offers (g : Graph) (owner branch : NodeId) : Prop := branch ∈ g.offeredBy owner

/-- A step of a loop: a reference, or a branch of a discriminator. -/
def Enters (g : Graph) (id next : NodeId) : Prop := g.PointsTo id next ∨ g.Offers id next

/-- **A loop that the compiler does not see**: the branch amounts to a schema other than the owner,
    and that leads back to the owner. -/
structure Reenters (g : Graph) (owner branch concrete : NodeId) : Prop where
  offered : g.Offers owner branch
  ends : g.EndsAt branch concrete
  other : concrete ≠ owner
  back : Relation.TransGen g.Enters concrete owner

instance (g : Graph) : DecidableRel g.Offers := fun owner branch =>
  inferInstanceAs (Decidable (branch ∈ g.offeredBy owner))

instance (g : Graph) : DecidableRel g.Enters := fun id next =>
  inferInstanceAs (Decidable (next ∈ g.targetsOf id ∨ next ∈ g.offeredBy id))

variable {store : Store} {g : Graph} {id owner branch concrete target : NodeId}

theorem pointsTo_iff :
    g.PointsTo id target ↔ ∃ n, g.node? id = some n ∧ n.reference = some target := by
  unfold PointsTo targetsOf
  cases g.node? id <;> simp

theorem offers_iff :
    g.Offers owner branch ↔ ∃ n branches, g.node? owner = some n ∧
      n.hasKeyword "discriminator" = true ∧ n.childList? "oneOf" = some branches ∧
      branch ∈ branches := by
  unfold Offers offeredBy
  cases g.node? owner with
  | none => simp
  | some n =>
    cases hkeyword : n.hasKeyword "discriminator" <;>
      cases hbranches : n.childList? "oneOf" <;> simp [hkeyword, hbranches]

theorem Refers.pointsTo (h : g.Refers id target) : g.PointsTo id target := by
  obtain ⟨n, hn, _, ht⟩ := h
  exact pointsTo_iff.mpr ⟨n, hn, ht⟩

theorem Refers.enters (h : g.Refers id target) : g.Enters id target := Or.inl h.pointsTo

/-- References are among the steps along which cycles are looked for. -/
theorem PointsTo.along (h : g.PointsTo id target) : Along g.inPlaceEdges id target := by
  obtain ⟨n, hn, ht⟩ := pointsTo_iff.mp h
  exact mem_inPlaceEdges.mpr ⟨n, hn, Or.inr ht⟩

/-- The owner of a branch is a schema of its own. -/
theorem Offers.concrete_owner (h : g.Offers owner branch) : g.Concrete owner := by
  obtain ⟨n, _, hn, hkeyword, _⟩ := offers_iff.mp h
  exact ⟨n, hn, n.not_isPureReference hkeyword (by decide)⟩

/-- A pure reference leads nowhere but to its target. -/
theorem Refers.eq_of_enters {next : NodeId} (h : g.Refers id target) (hnext : g.Enters id next) :
    next = target := by
  rcases hnext with hpoints | hoffers
  · obtain ⟨n, hn, _, ht⟩ := h
    obtain ⟨m, hm, ht'⟩ := pointsTo_iff.mp hpoints
    rw [hn] at hm
    cases hm
    rw [ht] at ht'
    exact (Option.some.inj ht').symm
  · exact absurd h hoffers.concrete_owner.not_refers

/-- Whatever concrete schema a node leads to, it leads to by way of the end of its chain. -/
theorem EndsAt.path (h : g.EndsAt id concrete) (howner : g.Concrete owner)
    (hpath : Relation.ReflTransGen g.Enters id owner) :
    Relation.ReflTransGen g.Enters concrete owner := by
  obtain ⟨hchain, _⟩ := h
  induction hchain using Relation.ReflTransGen.head_induction_on with
  | refl => exact hpath
  | head hrefers _ ih =>
    rcases hpath.cases_head with rfl | ⟨next, henters, hrest⟩
    · exact absurd hrefers howner.not_refers
    · exact ih (hrefers.eq_of_enters henters ▸ hrest)

/-- A path of steps is one of references, or passes an owner on to one of its branches. -/
theorem transGen_pointsTo_or_offers (h : Relation.TransGen g.Enters id target) :
    Relation.TransGen g.PointsTo id target ∨
      ∃ owner branch, Relation.ReflTransGen g.Enters id owner ∧ g.Offers owner branch ∧
        Relation.ReflTransGen g.Enters branch target := by
  induction h with
  | single henters =>
    rcases henters with hpoints | hoffers
    · exact Or.inl (.single hpoints)
    · exact Or.inr ⟨_, _, .refl, hoffers, .refl⟩
  | tail hpath henters ih =>
    rcases henters with hpoints | hoffers
    · rcases ih with hpointing | ⟨owner, branch, hfirst, hoffers, hrest⟩
      · exact Or.inl (hpointing.tail hpoints)
      · exact Or.inr ⟨owner, branch, hfirst, hoffers, hrest.tail (Or.inl hpoints)⟩
    · exact Or.inr ⟨_, _, hpath.to_reflTransGen, hoffers, .refl⟩

/-- A loop that is not seen is a loop through its owner. -/
theorem Reenters.loop (h : g.Reenters owner branch concrete) :
    Relation.TransGen g.Enters owner owner := by
  have hchain : Relation.ReflTransGen g.Enters branch concrete :=
    Relation.ReflTransGen.mono (fun _ _ => Refers.enters) _ _ h.ends.1
  exact .head (Or.inr h.offered) (Relation.TransGen.trans_right hchain h.back)

/-- From the schema that the branch amounts to, such a loop goes on by a reference that is no pure
    one, or by a branch of another discriminator. -/
theorem Reenters.onward (h : g.Reenters owner branch concrete) :
    ∃ next, (g.PointsTo concrete next ∧ ¬ g.Refers concrete next ∨ g.Offers concrete next) ∧
      Relation.ReflTransGen g.Enters next owner := by
  obtain ⟨next, henters, hrest⟩ := Relation.TransGen.head'_iff.mp h.back
  exact ⟨next, henters.imp (fun hpoints => ⟨hpoints, h.ends.2.not_refers⟩) id, hrest⟩

end Graph

namespace Compiler

open TaggedSchema.Graph

variable {c : Compiler} {store : Store} {g : Graph} {start id owner branch next : NodeId}
  {p : Program}

/-! ## 2. What compiling excludes -/

/-- The steps of reached nodes lead to reached nodes. -/
theorem mem_reached_of_enters [Uri.Library] (hg : g.Resolved store) (hstart : start < g.size)
    (hid : id ∈ reached g start) (h : g.Enters id next) : next ∈ reached g start := by
  rcases h with hpoints | hoffers
  · obtain ⟨n, hn, ht⟩ := pointsTo_iff.mp hpoints
    exact mem_reached_of_reference hg hstart hid hn ht
  · obtain ⟨n, branches, hn, _, hlist, hmem⟩ := offers_iff.mp hoffers
    exact mem_reached_of_child hg hstart hid hn (Node.children?_of_childList? hlist) rfl hmem

theorem mem_reached_of_path [Uri.Library] (hg : g.Resolved store) (hstart : start < g.size)
    (hid : id ∈ reached g start) (h : Relation.ReflTransGen g.Enters id next) :
    next ∈ reached g start := by
  induction h with
  | refl => exact hid
  | tail _ henters ih => exact mem_reached_of_enters hg hstart ih henters

/-- References alone make no loop. -/
theorem not_pointsTo_loop (hp : c.compile g start = .ok p)
    (hid : id ∈ reached g start) : ¬ Relation.TransGen g.PointsTo id id := by
  intro hloop
  obtain ⟨_, hfirst, _⟩ := Relation.TransGen.head'_iff.mp hloop
  obtain ⟨n, hn, _⟩ := pointsTo_iff.mp hfirst
  obtain ⟨_, _, hnone, _⟩ := compile_eq_ok_iff.mp hp
  have hmem : id ∈ g.ids.filter (reached g start).contains :=
    List.mem_filter.mpr ⟨List.mem_range.mpr (lt_size_of_node? hn), List.contains_iff_mem.mpr hid⟩
  exact inPlaceCycle_eq_none_iff.mp hnone id hmem id .refl
    (Relation.TransGen.mono (fun _ _ => PointsTo.along) _ _ hloop)

/-- **A branch amounts to a schema**, and its pure references do not come to the owner. -/
theorem endsAt_of_offers [Uri.Library] (hg : g.Resolved store) (hc : c.options.discriminator = true)
    (hp : c.compile g start = .ok p) (howner : owner ∈ reached g start)
    (h : g.Offers owner branch) :
    (∃ concrete, g.EndsAt branch concrete) ∧ ¬ Relation.ReflTransGen g.Refers branch owner := by
  obtain ⟨n, branches, hn, hkeyword, hlist, hmem⟩ := offers_iff.mp h
  obtain ⟨node, hnode, _⟩ := node_of_reached hp howner hn
  obtain ⟨d, hd, _⟩ := honoured_of_compileNode hc hkeyword hnode
  obtain ⟨property, _, hanalysed⟩ := (Discriminator.ofNode_eq_ok_iff hn).mp hd
  obtain ⟨branches', tags, hall, _⟩ := Discriminator.declaresAll_of_ofBranches hg hanalysed
  have hbranches : Discriminator.branchesOf g owner = some branches := by
    unfold Discriminator.branchesOf
    rw [hn]
    exact hlist
  have hsame := hall.1
  rw [hbranches] at hsame
  cases hsame
  obtain ⟨_, _, ⟨concrete, hend, hback, _⟩, _⟩ := hall.tagged hmem
  refine ⟨⟨concrete, hend⟩, fun hchain => ?_⟩
  rcases Relation.reflTransGen_iff_eq_or_transGen.mp hchain with he | htrans
  · exact hg.ne_of_child hn (mem_of_lookup (Node.children?_of_childList? hlist)) hmem he.symm
  · exact hback htrans

/-! ## 3. The loops that are left -/

/-- **Every loop through a discriminator is one that the compiler does not see.** A schema compiles
    with discriminators honoured only if its references alone make no loop, and no branch leads back
    to its owner by pure references. So there is a loop through a discriminator exactly where some
    branch amounts to a schema other than the owner that leads back to it. -/
theorem reenters_of_loop [Uri.Library] {root : String} (hg : Graph.resolve store root = .ok g)
    (hc : c.options.discriminator = true) (hstart : start < g.size)
    (hp : c.compile g start = .ok p) :
    (∀ id ∈ reached g start, ¬ Relation.TransGen g.PointsTo id id) ∧
    (∀ owner ∈ reached g start, ∀ branch, g.Offers owner branch →
      ¬ Relation.ReflTransGen g.Refers branch owner) ∧
    ∀ id ∈ reached g start, Relation.TransGen g.Enters id id ↔
      ∃ owner branch concrete, Relation.ReflTransGen g.Enters id owner ∧
        Relation.ReflTransGen g.Enters owner id ∧ g.Reenters owner branch concrete := by
  obtain ⟨hg, _⟩ := Graph.resolved_of_resolve hg
  refine ⟨fun id hid => not_pointsTo_loop hp hid,
    fun owner howner branch hoffers => (endsAt_of_offers hg hc hp howner hoffers).2,
    fun id hid => ⟨fun hloop => ?_, ?_⟩⟩
  · -- References alone do not close the loop, so it passes an owner; and the way back from the
    -- branch begins along the chain of the branch, which ends before the owner.
    rcases transGen_pointsTo_or_offers hloop with hpoints | ⟨owner, branch, hto, hoffers, hfrom⟩
    · exact absurd hpoints (not_pointsTo_loop hp hid)
    · have howner := mem_reached_of_path hg hstart hid hto
      obtain ⟨⟨concrete, hend⟩, hback⟩ := endsAt_of_offers hg hc hp howner hoffers
      have hother : concrete ≠ owner := fun he => hback (he ▸ hend.1)
      have hrest := hend.path hoffers.concrete_owner (hfrom.trans hto)
      have hreturn : Relation.TransGen g.Enters concrete owner :=
        (Relation.reflTransGen_iff_eq_or_transGen.mp hrest).resolve_left fun he => hother he.symm
      exact ⟨owner, branch, concrete, hto, hfrom.head (Or.inr hoffers),
        ⟨hoffers, hend, hother, hreturn⟩⟩
  · rintro ⟨owner, branch, concrete, hto, hfrom, hreenters⟩
    exact (Relation.TransGen.trans_right hto hreenters.loop).trans_left hfrom

/-! ## 4. Two such loops -/

/-- The document compiles, and one of its discriminators is on a loop. -/
def Loops [Uri.Library] [Pattern.Library] (schema : Json) : Prop :=
  ∃ g p, Graph.ofDocument schema = .ok g ∧ (builtin .default).compile g g.root = .ok p ∧
    ∃ owner ∈ reached g g.root, ∃ branch, g.Offers owner branch ∧
      Relation.TransGen g.Enters owner owner

/-- A test of it, given the loop: the owner, its branch, and the nodes from there on. -/
def loopsAlong [Uri.Library] [Pattern.Library] (schema : Json) (owner branch : NodeId)
    (rest : List NodeId) : Bool :=
  match Graph.ofDocument schema with
  | .ok g =>
    ((builtin .default).compile g g.root).isOk &&
      decide (owner ∈ reached g g.root ∧ g.Offers owner branch ∧
        List.IsChain g.Enters (branch :: rest))
  | .error _ => false

theorem loops_of_loopsAlong [Uri.Library] [Pattern.Library] {schema : Json} {rest : List NodeId}
    (h : loopsAlong schema owner branch rest = true)
    (hlast : (branch :: rest).getLast (List.cons_ne_nil _ _) = owner) : Loops schema := by
  unfold loopsAlong at h
  split at h
  next g hg =>
    obtain ⟨hcompiles, hloop⟩ := Bool.and_eq_true_iff.mp h
    obtain ⟨howner, hoffers, hchain⟩ := of_decide_eq_true hloop
    cases hp : (builtin .default).compile g g.root with
    | error e =>
      rw [hp] at hcompiles
      cases hcompiles
    | ok p =>
      have hback := List.relationReflTransGen_of_exists_isChain_cons rest hchain hlast
      exact ⟨g, p, hg, hp, owner, howner, branch, hoffers, .head' (Or.inr hoffers) hback⟩
  next => cases h

/-- A branch that refers to its owner and says more beside the reference. -/
def echo : Json :=
  .object
    [("discriminator", .object [("propertyName", .string "k")]),
      ("oneOf", .array
        [.object
          [("$ref", .string "#"),
            ("properties", .object [("k", .object [("const", .string "a")])]),
            ("required", .array [.string "k"])]])]

/-- A schema whose only branch is another schema. -/
def turn (target : String) : Json :=
  .object
    [("discriminator", .object [("propertyName", .string "k")]),
      ("oneOf", .array [.object [("$ref", .string target)]]),
      ("properties", .object [("k", .object [("const", .string "a")])]),
      ("required", .array [.string "k"])]

/-- Two schemas, each of which is the other's only branch. -/
def turns : Json :=
  .object
    [("definitions", .object [("A", turn "#/definitions/B"), ("B", turn "#/definitions/A")]),
      ("$ref", .string "#/definitions/A")]

theorem loops_echo : Loops echo :=
  loops_of_loopsAlong (show loopsAlong echo 0 1 [0] = true by decide +kernel) rfl

/-- **Loops through a discriminator compile**: one by a reference with other keywords beside it, and
    one through two discriminators. -/
theorem loops_compile : Loops echo ∧ Loops turns :=
  ⟨loops_echo,
    loops_of_loopsAlong (show loopsAlong turns 1 5 [2, 3, 1] = true by decide +kernel) rfl⟩

theorem reenters_of_loop_echo :
    ∃ g, Graph.ofDocument echo = .ok g ∧
      (∀ id ∈ reached g g.root, ¬ Relation.TransGen g.PointsTo id id) ∧
      ∃ owner branch concrete, g.Reenters owner branch concrete := by
  obtain ⟨g, p, hg, hp, owner, howner, _, _, hloop⟩ := loops_echo
  obtain ⟨_, _, _, hat⟩ := Graph.resolved_of_resolve hg
  obtain ⟨hreferences, _, hloops⟩ := reenters_of_loop hg rfl hat.lt_size hp
  obtain ⟨owner', branch, concrete, _, _, hreenters⟩ := (hloops owner howner).mp hloop
  exact ⟨g, hg, hreferences, owner', branch, concrete, hreenters⟩

end Compiler

end TaggedSchema
