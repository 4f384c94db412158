import TaggedSchema.Proofs.Transparency

/-!
# The two walks along a chain of pure references

`Graph.deref` follows pure references from any node, and `Discriminator.derefBranch` follows them
from a branch to the schema that the branch amounts to. The first notes a node when it comes to it,
the second when it is about to go there, and the second begins with the owner noted as well. This
file writes both down without a bound on their steps (`Graph.Follows`, `Discriminator.Approaches`),
shows that they stop (`Graph.Resolved.follows_deref`, `Discriminator.approaches_derefBranch`), and
that they sort chains alike: a chain ends in a schema that is no pure reference, or it comes round
(`Graph.ComesRound`), and only the second walk makes a difference where it meets the owner
(`Discriminator.walks_agree`).
-/

namespace TaggedSchema

namespace Graph

/-! ## 1. Walking without a bound -/

/-- The chain of pure references from a node comes to a node that leads back to itself. -/
def ComesRound (g : Graph) (id : NodeId) : Prop :=
  ∃ p, Relation.ReflTransGen g.Refers id p ∧ Relation.TransGen g.Refers p p

/-- **The walk to the end of a chain**, from a node, with the nodes that have been passed. -/
inductive Follows (g : Graph) : List NodeId → NodeId → Option NodeId → Prop where
  /-- The node is concrete, and the walk is over. -/
  | arrives {passed : List NodeId} {id : NodeId} (h : g.Concrete id) : Follows g passed id (some id)
  /-- The node has been passed before. -/
  | returns {passed : List NodeId} {id target : NodeId} (h : g.Refers id target)
      (hback : id ∈ passed) : Follows g passed id none
  /-- The node is passed, and the walk goes on at its target. -/
  | moves {passed : List NodeId} {id target : NodeId} {answer : Option NodeId}
      (h : g.Refers id target) (hnew : id ∉ passed) (hrest : Follows g (id :: passed) target answer) :
      Follows g passed id answer

variable {store : Store} {g : Graph} {id target : NodeId} {passed : List NodeId}

theorem Follows.endsAt (h : g.Follows passed id (some target)) : g.EndsAt id target := by
  generalize hanswer : some target = answer at h
  induction h with
  | arrives h =>
    cases hanswer
    exact h.endsAt
  | returns => cases hanswer
  | moves h _ _ ih => exact h.endsAt_iff.mpr (ih hanswer)

theorem Follows.comesRound (h : g.Follows passed id none)
    (hpassed : ∀ p ∈ passed, Relation.TransGen g.Refers p id) : g.ComesRound id := by
  generalize hanswer : none = answer at h
  induction h with
  | arrives => cases hanswer
  | returns _ hback => exact ⟨_, .refl, hpassed _ hback⟩
  | moves h _ _ ih =>
    obtain ⟨p, hp, hround⟩ := ih
      (List.forall_mem_cons.mpr ⟨.single h, fun p hp => (hpassed p hp).tail h⟩) hanswer
    exact ⟨p, hp.head h, hround⟩

/-- **The number of steps of the model is never spent**: the nodes passed are nodes of the graph, and
    none of them is passed twice. -/
theorem Resolved.follows_chainEnd? [Uri.Library] (hg : g.Resolved store) {fuel : Nat}
    (hid : ∃ n, g.node? id = some n) (hnodup : passed.Nodup) (hlt : ∀ p ∈ passed, p < g.size)
    (hfuel : passed.length + fuel = g.size + 1) :
    g.Follows passed id (g.chainEnd? fuel passed id) := by
  induction fuel generalizing passed id with
  | zero =>
    have hroom := length_le_size hnodup hlt
    omega
  | succ fuel ih =>
    obtain ⟨n, hn⟩ := hid
    unfold chainEnd?
    rw [hn]
    rcases hg.concrete_or_refers hn with ⟨hpure, hconcrete⟩ | ⟨target, hpure, ht, hrefers, hnext⟩
    · simp only [hpure, Bool.not_false, if_true]
      exact .arrives hconcrete
    · simp only [hpure, Bool.not_true, Bool.false_eq_true, if_false, ht]
      by_cases hback : id ∈ passed
      · rw [if_pos (List.contains_iff_mem.mpr hback)]
        exact .returns hrefers hback
      · rw [if_neg (mt List.contains_iff_mem.mp hback)]
        refine .moves hrefers hback (ih hnext (List.nodup_cons.mpr ⟨hback, hnodup⟩)
          (List.forall_mem_cons.mpr ⟨(Array.getElem?_eq_some_iff.mp hn).1, hlt⟩) ?_)
        rw [List.length_cons]
        omega

theorem Resolved.follows_deref [Uri.Library] (hg : g.Resolved store)
    (hid : ∃ n, g.node? id = some n) :
    g.Follows [] id (g.deref id).toOption := by
  have hpassed : ([] : List NodeId).Nodup := .nil
  have hwalk := hg.follows_chainEnd? hid hpassed (fun _ h => absurd h List.not_mem_nil)
    (Nat.zero_add _)
  unfold deref
  cases hend : g.chainEnd? (g.size + 1) [] id <;> rw [hend] at hwalk <;> exact hwalk

/-! ## 2. Chains that end and chains that do not -/

theorem EndsAt.not_comesRound (h : g.EndsAt id target) : ¬ g.ComesRound id :=
  fun ⟨_, hp, hround⟩ => h.not_cycle hp hround

/-- **A chain ends or comes round.** -/
theorem Resolved.endsAt_or_comesRound [Uri.Library] (hg : g.Resolved store)
    (hid : ∃ n, g.node? id = some n) :
    (∃ target, g.EndsAt id target) ∨ g.ComesRound id := by
  have hwalk := hg.follows_deref hid
  cases hanswer : (g.deref id).toOption with
  | some target => exact Or.inl ⟨target, (hanswer ▸ hwalk).endsAt⟩
  | none => exact Or.inr ((hanswer ▸ hwalk).comesRound fun _ h => absurd h List.not_mem_nil)

theorem Resolved.comesRound_iff [Uri.Library] (hg : g.Resolved store)
    (hid : ∃ n, g.node? id = some n) :
    g.ComesRound id ↔ ∀ target, ¬ g.EndsAt id target := by
  refine ⟨fun h target hend => hend.not_comesRound h, fun h => ?_⟩
  exact (hg.endsAt_or_comesRound hid).resolve_left fun ⟨target, hend⟩ => h target hend

theorem Resolved.deref_eq_error_iff [Uri.Library] (hg : g.Resolved store)
    (hid : ∃ n, g.node? id = some n) {e : SchemaError} :
    g.deref id = .error e ↔ e = ⟨g.location id, .cyclicReference⟩ ∧ g.ComesRound id := by
  rcases hg.deref_spec hid with ⟨target, hderef, hend⟩ | ⟨hderef, hnone⟩
  · simp [hderef, hend.not_comesRound]
  · simp [hderef, (hg.comesRound_iff hid).mpr hnone, eq_comm]

/-- What a chain passes before its end are pure references. -/
theorem EndsAt.refers_of_ne (h : g.EndsAt id target) {p : NodeId}
    (hp : Relation.ReflTransGen g.Refers id p) (hne : p ≠ target) : ∃ next, g.Refers p next := by
  obtain ⟨hchain, hconcrete⟩ := h
  induction hchain using Relation.ReflTransGen.head_induction_on with
  | refl =>
    rcases hp.cases_head with rfl | ⟨_, hrefers, _⟩
    · exact absurd rfl hne
    · exact absurd hrefers hconcrete.not_refers
  | head hrefers _ ih =>
    rcases hp.cases_head with rfl | ⟨_, hrefers', hrest⟩
    · exact ⟨_, hrefers⟩
    · exact ih (hrefers.unique hrefers' ▸ hrest)

end Graph

namespace Discriminator

open TaggedSchema.Graph

/-! ## 3. Walking from a branch -/

/-- **The walk from a branch of an owner**, with the nodes that it has gone to. -/
inductive Approaches (g : Graph) (owner branch : NodeId) (property : String) :
    List NodeId → NodeId → Except SchemaError NodeId → Prop where
  /-- The node is concrete, and the walk is over. -/
  | arrives {passed : List NodeId} {id : NodeId} (h : g.Concrete id) :
      Approaches g owner branch property passed id (.ok id)
  /-- The next node is the owner. -/
  | meetsOwner {passed : List NodeId} {id : NodeId} (h : g.Refers id owner) :
      Approaches g owner branch property passed id
        (.error ⟨g.location branch, .cyclicDiscriminator property⟩)
  /-- The walk has gone to the next node before. -/
  | returns {passed : List NodeId} {id target : NodeId} (h : g.Refers id target)
      (hother : target ≠ owner) (hback : target ∈ passed) :
      Approaches g owner branch property passed id (.error ⟨g.location branch, .cyclicReference⟩)
  /-- The walk goes to the next node. -/
  | moves {passed : List NodeId} {id target : NodeId} {answer : Except SchemaError NodeId}
      (h : g.Refers id target) (hother : target ≠ owner) (hnew : target ∉ passed)
      (hrest : Approaches g owner branch property (target :: passed) target answer) :
      Approaches g owner branch property passed id answer

variable {store : Store} {g : Graph} {owner branch : NodeId} {property : String}
  {branches : List NodeId}

/-- Nor is it spent here: what is noted before the walk begins does not count. -/
theorem approaches_branchEnd [Uri.Library] (hg : g.Resolved store) {fuel : Nat}
    {passed : List NodeId} {id : NodeId} (hid : ∃ n, g.node? id = some n) (hnodup : passed.Nodup)
    (hlt : ∀ p ∈ passed, p < g.size) (hfuel : passed.length + fuel = g.size + 1) :
    Approaches g owner branch property (passed ++ [owner, branch]) id
      (branchEnd g owner branch property fuel (passed ++ [owner, branch]) id) := by
  induction fuel generalizing passed id with
  | zero =>
    have hroom := length_le_size hnodup hlt
    omega
  | succ fuel ih =>
    obtain ⟨n, hn⟩ := hid
    unfold branchEnd
    rw [hn]
    rcases hg.concrete_or_refers hn with ⟨hpure, hconcrete⟩ | ⟨target, hpure, ht, hrefers, hnext⟩
    · simp only [hpure, Bool.not_false, if_true]
      exact .arrives hconcrete
    · simp only [hpure, Bool.not_true, Bool.false_eq_true, if_false, ht]
      by_cases howner : target = owner
      · rw [if_pos howner]
        exact .meetsOwner (howner ▸ hrefers)
      · rw [if_neg howner]
        by_cases hback : target ∈ passed ++ [owner, branch]
        · rw [if_pos (List.contains_iff_mem.mpr hback)]
          exact .returns hrefers howner hback
        · rw [if_neg (mt List.contains_iff_mem.mp hback)]
          have hfresh : target ∉ passed := fun h => hback (List.mem_append_left _ h)
          obtain ⟨m, hm⟩ := hnext
          refine .moves hrefers howner hback (ih ⟨m, hm⟩ (List.nodup_cons.mpr ⟨hfresh, hnodup⟩)
            (List.forall_mem_cons.mpr ⟨(Array.getElem?_eq_some_iff.mp hm).1, hlt⟩) ?_)
          rw [List.length_cons]
          omega

theorem approaches_derefBranch [Uri.Library] (hg : g.Resolved store)
    (hbranch : ∃ n, g.node? branch = some n) (owner : NodeId) (property : String) :
    Approaches g owner branch property [owner, branch] branch
      (derefBranch g owner branch property) := by
  have hpassed : ([] : List NodeId).Nodup := .nil
  exact approaches_branchEnd hg hbranch hpassed (fun _ h => absurd h List.not_mem_nil)
    (Nat.zero_add _)

/-- A branch is not its owner, so a chain that comes to the owner takes a step. -/
theorem reaches_owner_iff [Uri.Library] (hg : g.Resolved store)
    (h : branchesOf g owner = some branches) (hmem : branch ∈ branches) :
    Relation.TransGen g.Refers branch owner ↔ Relation.ReflTransGen g.Refers branch owner := by
  rw [Relation.reflTransGen_iff_eq_or_transGen, or_iff_right]
  exact fun he => ne_of_branch hg h hmem he.symm

/-- **The walks agree.** In a resolved graph the walk from a node stops. It answers a schema iff the
    chain of pure references ends in it, all that the chain passes before being pure references, and
    a cyclic reference at that node iff the chain comes round. From a branch of an owner the second
    walk stops, too. It answers a cyclic discriminator at the branch iff the chain comes to the owner,
    a cyclic reference at the branch iff it comes round without that, and a schema iff the first walk
    answers it and the chain does not come to the owner. -/
theorem walks_agree [Uri.Library] {root : String} (hg : Graph.resolve store root = .ok g) :
    (∀ id < g.size,
      g.Follows [] id (g.deref id).toOption ∧
      (∀ target, g.deref id = .ok target ↔ g.EndsAt id target) ∧
      (∀ target, g.EndsAt id target → ∀ p, Relation.ReflTransGen g.Refers id p → p ≠ target →
        ∃ next, g.Refers p next) ∧
      ∀ e, g.deref id = .error e ↔ e = ⟨g.location id, .cyclicReference⟩ ∧ g.ComesRound id) ∧
    ∀ owner branches, branchesOf g owner = some branches → ∀ branch ∈ branches, ∀ property,
      let meetsOwner := Relation.ReflTransGen g.Refers branch owner
      Approaches g owner branch property [owner, branch] branch
        (derefBranch g owner branch property) ∧
      (derefBranch g owner branch property
          = .error ⟨g.location branch, .cyclicDiscriminator property⟩ ↔ meetsOwner) ∧
      (derefBranch g owner branch property = .error ⟨g.location branch, .cyclicReference⟩ ↔
        g.ComesRound branch ∧ ¬ meetsOwner) ∧
      (∀ target, derefBranch g owner branch property = .ok target ↔
        g.deref branch = .ok target ∧ ¬ meetsOwner) ∧
      (¬ g.ComesRound branch → ¬ meetsOwner →
        derefBranch g owner branch property = g.deref branch) := by
  obtain ⟨hresolved, _⟩ := resolved_of_resolve hg
  refine ⟨fun id hid => ?_, fun owner branches hbranches branch hmem property => ?_⟩
  · have hnode : ∃ n, g.node? id = some n := ⟨_, Array.getElem?_eq_getElem hid⟩
    exact ⟨hresolved.follows_deref hnode, fun _ => hresolved.deref_eq_ok_iff hnode,
      fun _ hend _ hp hne => hend.refers_of_ne hp hne, fun _ => hresolved.deref_eq_error_iff hnode⟩
  · have hnode := exists_branch hresolved hbranches branch hmem
    have hstops := approaches_derefBranch hresolved hnode owner property
    dsimp only
    rw [← reaches_owner_iff hresolved hbranches hmem]
    refine ⟨hstops, ?_⟩
    rcases derefBranch_spec hresolved hnode owner property with
      ⟨concrete, hok, hend, hnot⟩ | ⟨hcyclic, hmeets⟩ | ⟨hround, hnone⟩
    · have hderef := (hresolved.deref_eq_ok_iff hnode).mpr hend
      simp [hok, hderef, hnot, hend.not_comesRound]
    · simp [hcyclic, hmeets]
    · -- A chain that comes to the owner ends there, as the owner is no pure reference.
      have hnot : ¬ Relation.TransGen g.Refers branch owner := fun hmeets =>
        hnone owner ⟨hmeets.to_reflTransGen, concrete_owner hresolved hbranches⟩
      have hcomes := (hresolved.comesRound_iff hnode).mpr hnone
      have hderef := (hresolved.deref_eq_error_iff hnode).mpr ⟨rfl, hcomes⟩
      simp [hround, hderef, hnot, hcomes]

/-- A schema with a branch behind one reference, one that leads back to it, and one behind two
    schemas that refer to each other. -/
def detours : Json :=
  .object
    [("definitions", .object
        [("back", .object [("$ref", .string "#")]),
          ("left", .object [("$ref", .string "#/definitions/right")]),
          ("right", .object [("$ref", .string "#/definitions/left")]),
          ("text", .object [("type", .string "string")])]),
      ("oneOf", .array
        [.object [("$ref", .string "#/definitions/text")],
          .object [("$ref", .string "#/definitions/back")],
          .object [("$ref", .string "#/definitions/left")]])]

/-- The first branch ends, the second meets its owner, and the third comes round without that. -/
theorem walks_agree_detours :
    ∃ g, Graph.ofDocument detours = .ok g ∧ branchesOf g 0 = some [5, 6, 7] ∧
      derefBranch g 0 5 "k" = .ok 4 ∧
      (g.deref 6 = .ok 0 ∧
        derefBranch g 0 6 "k" = .error ⟨g.location 6, .cyclicDiscriminator "k"⟩) ∧
      g.deref 7 = .error ⟨g.location 7, .cyclicReference⟩ ∧
      derefBranch g 0 7 "k" = .error ⟨g.location 7, .cyclicReference⟩ := by
  have hall : ((Graph.ofDocument detours).toOption.any fun g => decide
      (branchesOf g 0 = some [5, 6, 7] ∧ (g.Refers 5 4 ∧ g.Concrete 4) ∧
        (g.Refers 6 1 ∧ g.Refers 1 0 ∧ g.Concrete 0) ∧
        (g.Refers 7 2 ∧ g.Refers 2 3 ∧ g.Refers 3 2) ∧ 7 < g.size)) = true := by decide +kernel
  obtain ⟨g, hg, hall⟩ := any_toOption_eq_true.mp hall
  obtain ⟨hbranches, ⟨htext, hconcrete⟩, ⟨hback, hroot, howner⟩, ⟨hleft, hright, hagain⟩, hsize⟩ :=
    of_decide_eq_true hall
  obtain ⟨hderef, hbranch⟩ := walks_agree hg
  have hends : g.EndsAt 5 4 := ⟨.single htext, hconcrete⟩
  have hmeets : g.EndsAt 6 0 := ⟨.head hback (.single hroot), howner⟩
  have hcomes : g.ComesRound 7 := ⟨2, .single hleft, .head hright (.single hagain)⟩
  have hfirst : ¬ Relation.ReflTransGen g.Refers 5 0 := fun h =>
    absurd (hends.unique ⟨h, howner⟩) (by decide)
  have hthird : ¬ Relation.ReflTransGen g.Refers 7 0 := fun h =>
    EndsAt.not_comesRound ⟨h, howner⟩ hcomes
  have hok := ((hderef 5 (by omega)).2.1 4).mpr hends
  obtain ⟨-, -, -, hfirstOk, -⟩ := hbranch 0 _ hbranches 5 (by decide) "k"
  obtain ⟨-, hsecondMeets, -⟩ := hbranch 0 _ hbranches 6 (by decide) "k"
  obtain ⟨-, -, hthirdRound, -⟩ := hbranch 0 _ hbranches 7 (by decide) "k"
  exact ⟨g, hg, hbranches, (hfirstOk 4).mpr ⟨hok, hfirst⟩,
    ⟨((hderef 6 (by omega)).2.1 0).mpr hmeets, hsecondMeets.mpr hmeets.1⟩,
    ((hderef 7 hsize).2.2.2 _).mpr ⟨rfl, hcomes⟩, hthirdRound.mpr ⟨hcomes, hthird⟩⟩

end Discriminator

end TaggedSchema
