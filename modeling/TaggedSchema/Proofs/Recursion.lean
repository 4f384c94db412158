import TaggedSchema.Proofs.Acceptance
import TaggedSchema.Proofs.Cycles
import TaggedSchema.Proofs.Reach

/-!
# Schemas that come back to themselves

A schema is recursive if a way along subschemas and references leads from it back to it. The model
visits everything that can be reached and looks for the node there (`Graph.isRecursive`). A search
that stops as soon as it is back, and keeps the node itself out of what it has seen, is
`Graph.Seeks`. This file fixes that both decide the same (`Graph.isRecursive_decides`).

What the search has seen, what is pending and the node together have the invariant of a frontier:
every edge leads from what has been left to what has been seen or is pending (`Graph.Frontier`). The
search ends because each turn either sees one more node of the graph or has less pending.
-/

namespace TaggedSchema.Graph

/-! ## 1. The search without a bound -/

/-- **The search for a way back to a node**, with the nodes that have been seen and those that are
    pending, the next one in front. The last edge of a node is gone along first. -/
inductive Seeks (edges : NodeId → List NodeId) (id : NodeId) :
    List NodeId → List NodeId → Bool → Prop where
  /-- Nothing is pending, and no way leads back. -/
  | ends {seen : List NodeId} : Seeks edges id seen [] false
  /-- The next node is the one that was left. -/
  | arrives {seen rest : List NodeId} : Seeks edges id seen (id :: rest) true
  /-- The next node has been seen, and is passed over. -/
  | passes {seen rest : List NodeId} {next : NodeId} {answer : Bool} (hother : next ≠ id)
      (hseen : next ∈ seen) (hrest : Seeks edges id seen rest answer) :
      Seeks edges id seen (next :: rest) answer
  /-- The next node is new, and all it leads to is pending. -/
  | enters {seen rest : List NodeId} {next : NodeId} {answer : Bool} (hother : next ≠ id)
      (hnew : next ∉ seen)
      (hrest : Seeks edges id (next :: seen) ((edges next).reverse ++ rest) answer) :
      Seeks edges id seen (next :: rest) answer

variable {g : Graph} {edges : NodeId → List NodeId} {id : NodeId} {seen pending rest : List NodeId}
  {answer : Bool}

/-- The search ends in one way only. -/
theorem Seeks.unique {answer' : Bool} (h : Seeks edges id seen pending answer)
    (h' : Seeks edges id seen pending answer') : answer = answer' := by
  induction h with
  | ends =>
    cases h'
    rfl
  | arrives =>
    cases h' with
    | arrives => rfl
    | passes hother | enters hother => exact absurd rfl hother
  | passes hother hseen _ ih =>
    cases h' with
    | arrives => exact absurd rfl hother
    | passes _ _ hrest => exact ih hrest
    | enters _ hnew => exact absurd hseen hnew
  | enters hother hnew _ ih =>
    cases h' with
    | arrives => exact absurd rfl hother
    | passes _ hseen => exact absurd hseen hnew
    | enters _ _ hrest => exact ih hrest

/-- **The search ends**, where only nodes of the graph have edges: a turn sees one more of them, or
    leaves less pending. -/
theorem exists_seeks (hedges : ∀ a, g.Bounded edges a) (id : NodeId) (seen pending : List NodeId) :
    ∃ answer, Seeks edges id seen pending answer := by
  cases pending with
  | nil => exact ⟨false, .ends⟩
  | cons next rest =>
    by_cases hback : next = id
    · subst hback
      exact ⟨true, .arrives⟩
    · by_cases hseen : next ∈ seen
      · obtain ⟨answer, h⟩ := exists_seeks hedges id seen rest
        exact ⟨answer, .passes hback hseen h⟩
      · obtain ⟨answer, h⟩ := exists_seeks hedges id (next :: seen) ((edges next).reverse ++ rest)
        exact ⟨answer, .enters hback hseen h⟩
termination_by (g.unseen seen, pending.length)
decreasing_by
  · exact Prod.Lex.right _ (Nat.lt_succ_self _)
  · have hle : g.unseen (next :: seen) ≤ g.unseen (seen ++ [next]) :=
      unseen_le fun a ha => by simpa [or_comm] using ha
    rcases hedges next with hlt | hnone
    · have hless : g.unseen (next :: seen) < g.unseen seen :=
        Nat.lt_of_le_of_lt hle (unseen_lt hlt hseen)
      exact Prod.Lex.left _ _ hless
    · have hstill : g.unseen (next :: seen) ≤ g.unseen seen :=
        unseen_le fun a ha => List.mem_cons_of_mem next ha
      rw [hnone]
      rcases Nat.lt_or_eq_of_le hstill with hless | heq
      · exact Prod.Lex.left _ _ hless
      · rw [heq]
        exact Prod.Lex.right _ (by simp)

/-! ## 2. What it finds -/

/-- A node that is found again is on a cycle, if all that is pending comes after it. -/
theorem Seeks.cycle (h : Seeks edges id seen pending answer) (hfound : answer = true)
    (hpending : ∀ b ∈ pending, Relation.TransGen (Along edges) id b) :
    Relation.TransGen (Along edges) id id := by
  induction h with
  | ends => cases hfound
  | arrives => exact hpending id List.mem_cons_self
  | passes _ _ _ ih => exact ih hfound fun b hb => hpending b (List.mem_cons_of_mem _ hb)
  | @enters _ rest next _ _ _ _ ih =>
    obtain ⟨hnext, hrest⟩ := List.forall_mem_cons.mp hpending
    refine ih hfound fun b hb => ?_
    rcases List.mem_append.mp hb with hedge | hleft
    · exact hnext.tail (List.mem_reverse.mp hedge)
    · exact hrest b hleft

/-- **The frontier of a search**: whatever has been left leads to what has been seen or is pending.
    The node that is sought has been left, and is never among those seen. -/
structure Frontier (edges : NodeId → List NodeId) (id : NodeId) (seen pending : List NodeId) :
    Prop where
  avoids : id ∉ seen
  covers : ∀ a ∈ id :: seen, ∀ b ∈ edges a, b ∈ seen ∨ b ∈ pending

namespace Frontier

/-- At first, all edges of the node are pending. -/
theorem start : Frontier edges id [] (edges id).reverse := by
  refine ⟨List.not_mem_nil, fun a ha b hb => Or.inr ?_⟩
  rw [List.mem_singleton.mp ha] at hb
  exact List.mem_reverse.mpr hb

/-- A node that has been seen can be passed over. -/
theorem pass {next : NodeId} (h : Frontier edges id seen (next :: rest)) (hseen : next ∈ seen) :
    Frontier edges id seen rest := by
  refine ⟨h.avoids, fun a ha b hb => ?_⟩
  rcases h.covers a ha b hb with hknown | hwait
  · exact Or.inl hknown
  · rcases List.mem_cons.mp hwait with rfl | hrest
    · exact Or.inl hseen
    · exact Or.inr hrest

/-- Another node can be entered, if its edges become pending. -/
theorem enter {next : NodeId} (h : Frontier edges id seen (next :: rest)) (hother : next ≠ id) :
    Frontier edges id (next :: seen) ((edges next).reverse ++ rest) := by
  constructor
  · intro hmem
    rcases List.mem_cons.mp hmem with heq | hknown
    · exact hother heq.symm
    · exact h.avoids hknown
  · intro a ha b hb
    by_cases he : a = next
    · subst he
      exact Or.inr (List.mem_append_left _ (List.mem_reverse.mpr hb))
    · have hold : a ∈ id :: seen := by
        simp only [List.mem_cons] at ha ⊢
        exact ha.imp_right fun hor => hor.resolve_left he
      rcases h.covers a hold b hb with hknown | hwait
      · exact Or.inl (List.mem_cons_of_mem _ hknown)
      · rcases List.mem_cons.mp hwait with rfl | hrest
        · exact Or.inl List.mem_cons_self
        · exact Or.inr (List.mem_append_right _ hrest)

/-- Where nothing is pending, what the node leads to has been seen, and so it is not the node. -/
theorem not_cycle (h : Frontier edges id seen []) : ¬ Relation.TransGen (Along edges) id id := by
  have hstep {a b : NodeId} (ha : a ∈ id :: seen) (hedge : Along edges a b) : b ∈ seen :=
    (h.covers a ha b hedge).resolve_right List.not_mem_nil
  have hall {b : NodeId} (hpath : Relation.TransGen (Along edges) id b) : b ∈ seen := by
    induction hpath with
    | single hedge => exact hstep List.mem_cons_self hedge
    | tail _ hedge ih => exact hstep (List.mem_cons_of_mem _ ih) hedge
  exact fun hcycle => h.avoids (hall hcycle)

end Frontier

/-- A node that is not found again is on no cycle. -/
theorem Seeks.not_cycle (h : Seeks edges id seen pending answer) (hlost : answer = false)
    (hfrontier : Frontier edges id seen pending) : ¬ Relation.TransGen (Along edges) id id := by
  induction h with
  | ends => exact hfrontier.not_cycle
  | arrives => cases hlost
  | passes _ hseen _ ih => exact ih hlost (hfrontier.pass hseen)
  | enters hother _ _ ih => exact ih hlost (hfrontier.enter hother)

/-- **The search that starts with the edges of a node decides whether it is on a cycle.** -/
theorem Seeks.eq_true_iff (h : Seeks edges id [] (edges id).reverse answer) :
    answer = true ↔ Relation.TransGen (Along edges) id id := by
  constructor
  · intro hfound
    exact h.cycle hfound fun b hb => .single (List.mem_reverse.mp hb)
  · intro hcycle
    by_contra hlost
    exact h.not_cycle (Bool.not_eq_true _ ▸ hlost) .start hcycle

/-! ## 3. The visit of the model -/

/-- Only nodes of the graph have successors. -/
theorem bounded_successors (g : Graph) (id : NodeId) : g.Bounded g.successors id := by
  by_cases hlt : id < g.size
  · exact Or.inl hlt
  · have hnone : g.node? id = none := Array.getElem?_eq_none (Nat.le_of_not_lt hlt)
    refine Or.inr ?_
    unfold successors
    rw [hnone]

/-- **A node is recursive exactly if it is on a cycle of successors.** -/
theorem isRecursive_iff :
    g.isRecursive id = true ↔ Relation.TransGen (Along g.successors) id id := by
  have hedges : ∀ a, ∀ b ∈ g.successors a, g.Bounded g.successors b :=
    fun _ b _ => g.bounded_successors b
  obtain ⟨hstarts, hclosed⟩ := reach_spec hedges (hedges id)
  unfold isRecursive
  rw [List.contains_iff_mem]
  constructor
  · intro hmem
    exact forall_mem_reach (S := Relation.TransGen (Along g.successors) id)
      (fun a ha b hb => ha.tail hb) (fun start hstart => .single hstart) id hmem
  · intro hcycle
    have hall {b : NodeId} (hpath : Relation.TransGen (Along g.successors) id b) :
        b ∈ g.reach g.successors (g.successors id) := by
      induction hpath with
      | single hedge => exact hstarts _ hedge
      | tail _ hedge ih => exact hclosed _ ih _ hedge
    exact hall hcycle

/-- The search comes to what the visit comes to. -/
theorem seeks_isRecursive (g : Graph) (id : NodeId) :
    Seeks g.successors id [] (g.successors id).reverse (g.isRecursive id) := by
  obtain ⟨answer, hsearch⟩ :=
    exists_seeks g.bounded_successors id [] (g.successors id).reverse
  have hsame : answer = g.isRecursive id := by
    rw [Bool.eq_iff_iff, hsearch.eq_true_iff, isRecursive_iff]
  exact hsame ▸ hsearch

/-- **The node has the other as a subschema**, under whatever keyword, definitions included, **or
    refers to it.** -/
def HasEdge (g : Graph) (id next : NodeId) : Prop :=
  ∃ n, g.node? id = some n ∧
    ((∃ keyword children, (keyword, children) ∈ n.children ∧ next ∈ children.ids) ∨
      n.reference = some next)

theorem along_successors_iff {next : NodeId} : Along g.successors id next ↔ g.HasEdge id next := by
  unfold Along HasEdge
  rw [mem_successors]
  simp only [Node.mem_successors]

/-- **Being recursive is leading back to itself.** For every graph and node, the search for a way back
    ends, in one way only and with the answer of the model; and that is that a way of at least one
    step along subschemas and references leads from the node to itself. -/
theorem isRecursive_decides (g : Graph) (id : NodeId) :
    (∀ answer, Seeks g.successors id [] (g.successors id).reverse answer ↔
      answer = g.isRecursive id) ∧
    (g.isRecursive id = true ↔ Relation.TransGen g.HasEdge id id) := by
  have hsearch := seeks_isRecursive g id
  refine ⟨fun answer => ⟨fun h => h.unique hsearch, fun h => h ▸ hsearch⟩, ?_⟩
  have hedges : Along g.successors = g.HasEdge := by
    funext a b
    exact propext along_successors_iff
  rw [isRecursive_iff, hedges]

/-- A definition that refers to the schema makes the schema recursive, though nothing evaluates the
    definition. -/
example : ((Graph.ofDocument (.object [("definitions", .object
    [("Whole", .object [("$ref", .string "#")])])])).toOption.any fun g => g.isRecursive g.root)
      = true := by decide +kernel

end TaggedSchema.Graph
