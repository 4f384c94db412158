import TaggedSchema.Discriminator
import TaggedSchema.Proofs.Links
import Mathlib.Logic.Relation

/-!
# Chains of pure references

A pure reference leads to one node. This file fixes where a chain of them ends (`Graph.EndsAt`), and
that both walks along it find that: `Graph.deref`, which fails when there is no end, and
`Discriminator.derefBranch`, which fails besides when the chain comes to the owner.

A chain that ends does not come back (`Graph.EndsAt.not_cycle`), so a walk that meets a node again,
or takes more steps than there are nodes, has no end before it.
-/

namespace TaggedSchema.Graph

/-! ## 1. Ends -/

/-- The node is a pure reference, and this is its target. -/
def Refers (g : Graph) (id target : NodeId) : Prop :=
  ∃ n, g.node? id = some n ∧ n.isPureReference = true ∧ n.reference = some target

/-- The node is a schema of its own and no pure reference. -/
def Concrete (g : Graph) (id : NodeId) : Prop :=
  ∃ n, g.node? id = some n ∧ n.isPureReference = false

/-- The chain of pure references from a node ends in a concrete schema. -/
def EndsAt (g : Graph) (id concrete : NodeId) : Prop :=
  Relation.ReflTransGen g.Refers id concrete ∧ g.Concrete concrete

instance (g : Graph) : DecidableRel g.Refers := fun id target =>
  inferInstanceAs
    (Decidable (∃ n ∈ g.node? id, n.isPureReference = true ∧ n.reference = some target))

instance (g : Graph) : DecidablePred g.Concrete := fun id =>
  inferInstanceAs (Decidable (∃ n ∈ g.node? id, n.isPureReference = false))

variable {g : Graph} {id target concrete : NodeId}

theorem Refers.unique {target' : NodeId} (h : g.Refers id target) (h' : g.Refers id target') :
    target = target' := by
  obtain ⟨n, hn, _, ht⟩ := h
  obtain ⟨m, hm, _, ht'⟩ := h'
  rw [hn] at hm
  cases hm
  rw [ht] at ht'
  exact Option.some.inj ht'

theorem Concrete.not_refers (h : g.Concrete id) : ¬ g.Refers id target := by
  rintro ⟨n, hn, hpure, _⟩
  obtain ⟨m, hm, hconcrete⟩ := h
  rw [hn] at hm
  cases hm
  rw [hpure] at hconcrete
  cases hconcrete

theorem Concrete.not_transGen (h : g.Concrete id) : ¬ Relation.TransGen g.Refers id target := by
  intro hchain
  obtain ⟨_, hrefers, _⟩ := Relation.TransGen.head'_iff.mp hchain
  exact h.not_refers hrefers

/-- What a chain comes to behind its first node, it comes to from the second on. -/
theorem Refers.reflTransGen_of_transGen {next : NodeId} (h : g.Refers id next)
    (hchain : Relation.TransGen g.Refers id target) :
    Relation.ReflTransGen g.Refers next target := by
  obtain ⟨next', h', hrest⟩ := Relation.TransGen.head'_iff.mp hchain
  exact h.unique h' ▸ hrest

/-- **A chain that ends does not come back** to any node it passes. -/
theorem EndsAt.not_cycle (h : g.EndsAt id concrete) {passed : NodeId}
    (hpassed : Relation.ReflTransGen g.Refers id passed) :
    ¬ Relation.TransGen g.Refers passed passed := by
  obtain ⟨hchain, hconcrete⟩ := h
  induction hchain using Relation.ReflTransGen.head_induction_on with
  | refl =>
    rcases hpassed.cases_head with rfl | ⟨next, hrefers, _⟩
    · exact hconcrete.not_transGen
    · exact absurd hrefers hconcrete.not_refers
  | @head a b hrefers _ ih =>
    rcases hpassed.cases_head with rfl | ⟨b', hrefers', hrest⟩
    · intro hcycle
      have hback := hrefers.reflTransGen_of_transGen hcycle
      exact ih hback hcycle
    · exact ih (hrefers.unique hrefers' ▸ hrest)

theorem EndsAt.unique {concrete' : NodeId} (h : g.EndsAt id concrete)
    (h' : g.EndsAt id concrete') : concrete = concrete' := by
  obtain ⟨hchain, hconcrete⟩ := h
  obtain ⟨hchain', hconcrete'⟩ := h'
  induction hchain using Relation.ReflTransGen.head_induction_on with
  | refl =>
    rcases hchain'.cases_head with rfl | ⟨next, hrefers, _⟩
    · rfl
    · exact absurd hrefers hconcrete.not_refers
  | head hrefers _ ih =>
    rcases hchain'.cases_head with rfl | ⟨next, hrefers', hrest⟩
    · exact absurd hrefers hconcrete'.not_refers
    · exact ih (hrefers.unique hrefers' ▸ hrest)

/-- A chain does not come to a concrete schema in which it does not end. -/
theorem EndsAt.not_meets (h : g.EndsAt id concrete) {other : NodeId} (hother : g.Concrete other)
    (hne : concrete ≠ other) : ¬ Relation.TransGen g.Refers id other :=
  fun hmeets => hne (h.unique ⟨hmeets.to_reflTransGen, hother⟩)

theorem Concrete.endsAt (h : g.Concrete id) : g.EndsAt id id := ⟨.refl, h⟩

theorem Refers.endsAt_iff (h : g.Refers id target) :
    g.EndsAt id concrete ↔ g.EndsAt target concrete := by
  constructor
  · rintro ⟨hchain, hconcrete⟩
    rcases hchain.cases_head with rfl | ⟨next, hrefers, hrest⟩
    · exact absurd h hconcrete.not_refers
    · exact ⟨h.unique hrefers ▸ hrest, hconcrete⟩
  · rintro ⟨hchain, hconcrete⟩
    exact ⟨hchain.head h, hconcrete⟩

/-- In a resolved graph a node is concrete or refers to another one. -/
theorem Resolved.concrete_or_refers [Uri.Library] {store : Store} (hg : g.Resolved store) {n : Node}
    (hn : g.node? id = some n) :
    (n.isPureReference = false ∧ g.Concrete id) ∨
      ∃ target, n.isPureReference = true ∧ n.reference = some target ∧ g.Refers id target ∧
        ∃ m, g.node? target = some m := by
  cases hpure : n.isPureReference with
  | false => exact Or.inl ⟨rfl, n, hn, hpure⟩
  | true =>
    obtain ⟨target, ht⟩ := hg.exists_reference hn (Bool.and_eq_true_iff.mp hpure).1
    exact Or.inr ⟨target, rfl, ht, ⟨n, hn, hpure, ht⟩, hg.exists_target hn ht⟩

/-- Numbers of nodes that do not repeat are no more than there are nodes. -/
theorem length_le_size {passed : List NodeId} (hnodup : passed.Nodup)
    (hlt : ∀ id ∈ passed, id < g.size) : passed.length ≤ g.size := by
  have hsubset : passed ⊆ g.ids := fun id hid => List.mem_range.mpr (hlt id hid)
  have hlength := (hnodup.subperm hsubset).length_le
  rwa [ids, List.length_range] at hlength

/-! ## 2. The walk to the end -/

variable [Uri.Library]

/-- What the walk answers, from any node it has come to: the end of the chain; or nothing, and then
    the chain has come round. -/
theorem Resolved.chainEnd_spec {store : Store} (hg : g.Resolved store) {fuel : Nat}
    {passed : List NodeId} (hid : ∃ n, g.node? id = some n) (hnodup : passed.Nodup)
    (hlt : ∀ p ∈ passed, p < g.size) (hpassed : ∀ p ∈ passed, Relation.TransGen g.Refers p id)
    (hfuel : passed.length + fuel = g.size + 1) :
    match g.chainEnd? fuel passed id with
    | some concrete => g.EndsAt id concrete
    | none => ∀ concrete, ¬ g.EndsAt id concrete := by
  induction fuel generalizing passed id with
  | zero =>
    have hroom := length_le_size hnodup hlt
    omega
  | succ fuel ih =>
    obtain ⟨n, hn⟩ := hid
    unfold chainEnd?
    rw [hn]
    rcases hg.concrete_or_refers hn with ⟨hpure, hconcrete⟩ | ⟨target, hpure, ht, hrefers, hnext⟩
    · simp only [hpure, Bool.not_false, if_true]
      exact hconcrete.endsAt
    · simp only [hpure, Bool.not_true, Bool.false_eq_true, if_false, ht]
      by_cases hback : id ∈ passed
      · rw [if_pos (List.contains_iff_mem.mpr hback)]
        exact fun concrete hend => hend.not_cycle .refl (hpassed id hback)
      · rw [if_neg (mt List.contains_iff_mem.mp hback)]
        have hrest := ih hnext (List.nodup_cons.mpr ⟨hback, hnodup⟩)
          (List.forall_mem_cons.mpr ⟨(Array.getElem?_eq_some_iff.mp hn).1, hlt⟩)
          (List.forall_mem_cons.mpr ⟨.single hrefers, fun p hp => (hpassed p hp).tail hrefers⟩)
          (by rw [List.length_cons]; omega)
        simpa only [hrefers.endsAt_iff] using hrest

/-- **Dereferencing answers the end of the chain**, and where there is none, a cyclic reference. -/
theorem Resolved.deref_spec {store : Store} (hg : g.Resolved store)
    (hid : ∃ n, g.node? id = some n) :
    (∃ concrete, g.deref id = .ok concrete ∧ g.EndsAt id concrete) ∨
      (g.deref id = .error ⟨g.location id, .cyclicReference⟩ ∧
        ∀ concrete, ¬ g.EndsAt id concrete) := by
  have hpassed : ([] : List NodeId).Nodup := .nil
  have hspec := hg.chainEnd_spec hid hpassed (fun _ h => absurd h List.not_mem_nil)
    (fun _ h => absurd h List.not_mem_nil) (Nat.zero_add _)
  unfold deref
  cases hend : g.chainEnd? (g.size + 1) [] id with
  | some concrete =>
    rw [hend] at hspec
    exact Or.inl ⟨concrete, rfl, hspec⟩
  | none =>
    rw [hend] at hspec
    exact Or.inr ⟨rfl, hspec⟩

theorem Resolved.deref_eq_ok_iff {store : Store} (hg : g.Resolved store)
    (hid : ∃ n, g.node? id = some n) : g.deref id = .ok concrete ↔ g.EndsAt id concrete := by
  rcases hg.deref_spec hid with ⟨c, hderef, hend⟩ | ⟨hderef, hnone⟩
  · rw [hderef]
    exact ⟨fun h => Except.ok.inj h ▸ hend, fun h => congrArg _ (hend.unique h)⟩
  · rw [hderef]
    exact ⟨fun h => (by cases h), fun h => absurd h (hnone concrete)⟩

end TaggedSchema.Graph

namespace TaggedSchema.Discriminator

open TaggedSchema.Graph

variable {store : Store} {g : Graph} {owner branch : NodeId} {property : String}

/-! ## 3. The walk from a branch -/

variable [Uri.Library]

/-- What the walk from a branch answers, from any node it has come to: the end of the chain; the
    fault that the next node is the owner; or that the chain has come round. -/
theorem branchEnd_spec (hg : g.Resolved store) {fuel : Nat} {targets : List NodeId} {id : NodeId}
    (hid : ∃ n, g.node? id = some n) (hnodup : targets.Nodup) (hlt : ∀ p ∈ targets, p < g.size)
    (hpassed : ∀ p ∈ targets ++ [branch], Relation.ReflTransGen g.Refers p id)
    (hfuel : targets.length + fuel = g.size + 1) :
    (∃ concrete, branchEnd g owner branch property fuel (targets ++ [owner, branch]) id
        = .ok concrete ∧ g.EndsAt id concrete ∧ ¬ Relation.TransGen g.Refers id owner) ∨
      (branchEnd g owner branch property fuel (targets ++ [owner, branch]) id
        = .error ⟨g.location branch, .cyclicDiscriminator property⟩ ∧
          Relation.TransGen g.Refers id owner) ∨
      (branchEnd g owner branch property fuel (targets ++ [owner, branch]) id
        = .error ⟨g.location branch, .cyclicReference⟩ ∧ ∀ concrete, ¬ g.EndsAt id concrete) := by
  induction fuel generalizing targets id with
  | zero =>
    have hroom := length_le_size hnodup hlt
    omega
  | succ fuel ih =>
    obtain ⟨n, hn⟩ := hid
    unfold branchEnd
    rw [hn]
    rcases hg.concrete_or_refers hn with ⟨hpure, hconcrete⟩ | ⟨target, hpure, ht, hrefers, hnext⟩
    · simp only [hpure, Bool.not_false, if_true]
      exact Or.inl ⟨id, rfl, hconcrete.endsAt, hconcrete.not_transGen⟩
    · simp only [hpure, Bool.not_true, Bool.false_eq_true, if_false, ht]
      by_cases howner : target = owner
      · rw [if_pos howner]
        exact Or.inr (Or.inl ⟨rfl, howner ▸ .single hrefers⟩)
      · rw [if_neg howner]
        have hmem : target ∈ targets ++ [owner, branch] ↔ target ∈ targets ++ [branch] := by
          simp [howner]
        by_cases hback : target ∈ targets ++ [branch]
        · rw [if_pos (List.contains_iff_mem.mpr (hmem.mpr hback))]
          refine Or.inr (Or.inr ⟨rfl, fun concrete hend => ?_⟩)
          exact hend.not_cycle .refl (Relation.TransGen.head' hrefers (hpassed target hback))
        · rw [if_neg (mt List.contains_iff_mem.mp (mt hmem.mp hback))]
          have hfresh : target ∉ targets := fun h => hback (List.mem_append_left _ h)
          obtain ⟨m, hm⟩ := hnext
          have hrest := ih ⟨m, hm⟩ (List.nodup_cons.mpr ⟨hfresh, hnodup⟩)
            (List.forall_mem_cons.mpr ⟨(Array.getElem?_eq_some_iff.mp hm).1, hlt⟩)
            (List.forall_mem_cons.mpr ⟨.refl, fun p hp => (hpassed p hp).tail hrefers⟩)
            (by rw [List.length_cons]; omega)
          have hahead : Relation.TransGen g.Refers id owner ↔
              Relation.TransGen g.Refers target owner := by
            refine ⟨fun h => ?_, fun h => h.head hrefers⟩
            rcases Relation.reflTransGen_iff_eq_or_transGen.mp
              (hrefers.reflTransGen_of_transGen h) with he | h
            · exact absurd he.symm howner
            · exact h
          simpa only [hrefers.endsAt_iff, hahead, List.cons_append] using hrest

/-- **A branch is followed to the end of its chain**, unless the owner is met, or there is none. -/
theorem derefBranch_spec (hg : g.Resolved store) (hbranch : ∃ n, g.node? branch = some n)
    (owner : NodeId) (property : String) :
    (∃ concrete, derefBranch g owner branch property = .ok concrete ∧ g.EndsAt branch concrete ∧
        ¬ Relation.TransGen g.Refers branch owner) ∨
      (derefBranch g owner branch property
          = .error ⟨g.location branch, .cyclicDiscriminator property⟩ ∧
        Relation.TransGen g.Refers branch owner) ∨
      (derefBranch g owner branch property = .error ⟨g.location branch, .cyclicReference⟩ ∧
        ∀ concrete, ¬ g.EndsAt branch concrete) := by
  have htargets : ([] : List NodeId).Nodup := .nil
  exact branchEnd_spec hg hbranch htargets (fun _ h => absurd h List.not_mem_nil)
    (fun _ hp => List.mem_singleton.mp hp ▸ .refl) (Nat.zero_add _)

end TaggedSchema.Discriminator
