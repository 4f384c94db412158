import TaggedSchema.Program.Compilation
import TaggedSchema.Proofs.Links

/-!
# What is reached

A depth-first visit with fuel for every node goes along every edge of what it visits
(`Graph.mem_reach_of_edge`). For the compiler this means that whatever a compiled node may evaluate
is compiled as well (`Compiler.mem_reached_of_child`, `Compiler.mem_reached_of_reference`).
-/

namespace TaggedSchema

namespace Graph

variable {g : Graph} {edges : NodeId → List NodeId}

/-- The number of nodes that have not been seen. -/
def unseen (g : Graph) (seen : List NodeId) : Nat :=
  (g.ids.filter fun id => !seen.contains id).length

/-- At first, no node has been seen. -/
theorem unseen_nil (g : Graph) : g.unseen [] = g.size := by
  unfold unseen ids
  simp

theorem unseen_le {seen seen' : List NodeId} (h : ∀ id ∈ seen, id ∈ seen') :
    g.unseen seen' ≤ g.unseen seen := by
  refine (List.monotone_filter_right _ fun id hid => ?_).length_le
  rw [Bool.not_eq_true', List.contains_eq_mem, decide_eq_false_iff_not] at hid ⊢
  exact fun hmem => hid (h id hmem)

theorem unseen_lt {seen : List NodeId} {id : NodeId} (hlt : id < g.size) (h : id ∉ seen) :
    g.unseen (seen ++ [id]) < g.unseen seen := by
  have hsplit : g.ids.filter (fun a => !(seen ++ [id]).contains a)
      = (g.ids.filter fun a => !seen.contains a).filter (· != id) := by
    rw [List.filter_filter]
    congr 1
    funext a
    simp [bne, beq_eq_decide, Bool.and_comm]
  have hmem : id ∈ g.ids.filter fun a => !seen.contains a := by
    rw [List.mem_filter, Bool.not_eq_true', List.contains_eq_mem, decide_eq_false_iff_not]
    exact ⟨List.mem_range.mpr hlt, h⟩
  unfold unseen
  rw [hsplit]
  exact List.length_filter_lt_length_iff_exists.mpr ⟨id, hmem, by simp⟩

theorem mem_visit {fuel : Nat} {seen : List NodeId} {id a : NodeId} (h : a ∈ seen) :
    a ∈ visit edges fuel seen id := by
  induction fuel generalizing seen id with
  | zero => exact h
  | succ fuel ih =>
    unfold visit
    split
    · exact h
    · have hseen : a ∈ seen ++ [id] := List.mem_append_left _ h
      generalize seen ++ [id] = seen at hseen
      induction edges id generalizing seen with
      | nil => exact hseen
      | cons next rest ihrest => exact ihrest _ (ih hseen)

theorem mem_foldl_visit {fuel : Nat} {ids seen : List NodeId} {a : NodeId} (h : a ∈ seen) :
    a ∈ ids.foldl (visit edges fuel) seen := by
  induction ids generalizing seen with
  | nil => exact h
  | cons next rest ih => exact ih (mem_visit h)

/-- What holds along edges holds of everything that a visit meets. -/
theorem forall_mem_visit {S : NodeId → Prop} (hclosed : ∀ a, S a → ∀ b ∈ edges a, S b) {fuel : Nat}
    {seen : List NodeId} {id : NodeId} (hseen : ∀ a ∈ seen, S a) (hid : S id) :
    ∀ a ∈ visit edges fuel seen id, S a := by
  induction fuel generalizing seen id with
  | zero => exact hseen
  | succ fuel ih =>
    unfold visit
    split
    · exact hseen
    · have hseen : ∀ a ∈ seen ++ [id], S a := List.forall_mem_append.mpr
        ⟨hseen, List.forall_mem_singleton.mpr hid⟩
      have htargets := hclosed id hid
      generalize seen ++ [id] = seen at hseen
      generalize edges id = targets at htargets
      induction targets generalizing seen with
      | nil => exact hseen
      | cons next rest ihrest =>
        obtain ⟨hnext, hrest⟩ := List.forall_mem_cons.mp htargets
        exact ihrest _ (ih hseen hnext) hrest

/-- What holds along edges holds of everything that is reached. -/
theorem forall_mem_reach {S : NodeId → Prop} (hclosed : ∀ a, S a → ∀ b ∈ edges a, S b)
    {starts : List NodeId} (hstarts : ∀ start ∈ starts, S start) :
    ∀ a ∈ g.reach edges starts, S a := by
  suffices h : ∀ (fuel : Nat) (seen : List NodeId), (∀ a ∈ seen, S a) →
      ∀ a ∈ starts.foldl (visit edges fuel) seen, S a from
    h _ [] fun _ ha => absurd ha List.not_mem_nil
  induction starts with
  | nil => exact fun _ _ hseen => hseen
  | cons start rest ih =>
    obtain ⟨hstart, hrest⟩ := List.forall_mem_cons.mp hstarts
    intro fuel seen hseen
    exact ih hrest fuel _ (forall_mem_visit hclosed hseen hstart)

/-- Everything that a visit has added has its edges in the result. -/
def ClosedFrom (edges : NodeId → List NodeId) (seen after : List NodeId) : Prop :=
  ∀ a ∈ after, a ∉ seen → ∀ b ∈ edges a, b ∈ after

/-- A visit of the node has its end: it is a node of the graph, or it has no edges. -/
def Bounded (g : Graph) (edges : NodeId → List NodeId) (id : NodeId) : Prop :=
  id < g.size ∨ edges id = []

/-- Visits one after another, as good as each of them is. -/
theorem foldl_visit_spec {fuel : Nat}
    (hvisit : ∀ {seen : List NodeId} {id : NodeId}, g.Bounded edges id → g.unseen seen < fuel →
      id ∈ visit edges fuel seen id ∧ ClosedFrom edges seen (visit edges fuel seen id))
    {ids seen : List NodeId} (hids : ∀ id ∈ ids, g.Bounded edges id)
    (hfuel : g.unseen seen < fuel) :
    (∀ id ∈ ids, id ∈ ids.foldl (visit edges fuel) seen) ∧
      ClosedFrom edges seen (ids.foldl (visit edges fuel) seen) := by
  induction ids generalizing seen with
  | nil => exact ⟨fun _ h => absurd h List.not_mem_nil, fun a ha hnot => absurd ha hnot⟩
  | cons next rest ih =>
    obtain ⟨hnext, hrest⟩ := List.forall_mem_cons.mp hids
    obtain ⟨hself, hclosed⟩ := hvisit hnext hfuel
    have hroom : g.unseen (visit edges fuel seen next) < fuel :=
      Nat.lt_of_le_of_lt (unseen_le fun _ => mem_visit) hfuel
    obtain ⟨hall, hclosed'⟩ := ih hrest hroom
    rw [List.foldl_cons]
    refine ⟨List.forall_mem_cons.mpr ⟨mem_foldl_visit hself, hall⟩, fun a ha hnot b hb => ?_⟩
    by_cases hmem : a ∈ visit edges fuel seen next
    · exact mem_foldl_visit (hclosed a hmem hnot b hb)
    · exact hclosed' a ha hmem b hb

/-- **A visit with fuel for all that is unseen** arrives, and goes along all edges. -/
theorem visit_spec (hedges : ∀ a, ∀ b ∈ edges a, g.Bounded edges b) {fuel : Nat}
    {seen : List NodeId} {id : NodeId} (hid : g.Bounded edges id) (hfuel : g.unseen seen < fuel) :
    id ∈ visit edges fuel seen id ∧ ClosedFrom edges seen (visit edges fuel seen id) := by
  induction fuel generalizing seen id with
  | zero => exact absurd hfuel (Nat.not_lt_zero _)
  | succ fuel ih =>
    unfold visit
    by_cases hseen : id ∈ seen
    · rw [if_pos (List.contains_iff_mem.mpr hseen)]
      exact ⟨hseen, fun a ha hnot => absurd ha hnot⟩
    · rw [if_neg (mt List.contains_iff_mem.mp hseen)]
      have hadded {a : NodeId} (ha : a ∈ seen ++ [id]) (hnot : a ∉ seen) : a = id :=
        List.mem_singleton.mp ((List.mem_append.mp ha).resolve_left hnot)
      have hself : id ∈ seen ++ [id] := List.mem_append_right _ (List.mem_singleton.mpr rfl)
      rcases hid with hlt | hnone
      · have hroom : g.unseen (seen ++ [id]) < fuel :=
          Nat.lt_of_lt_of_le (unseen_lt hlt hseen) (Nat.le_of_lt_succ hfuel)
        obtain ⟨hall, hclosed⟩ := foldl_visit_spec ih (hedges id) hroom
        refine ⟨mem_foldl_visit hself, fun a ha hnot b hb => ?_⟩
        by_cases he : a = id
        · exact hall b (he ▸ hb)
        · exact hclosed a ha (fun hmem => he (hadded hmem hnot)) b hb
      · rw [hnone, List.foldl_nil]
        refine ⟨hself, fun a ha hnot b hb => ?_⟩
        rw [hadded ha hnot, hnone] at hb
        exact absurd hb List.not_mem_nil

/-- **What is reached from some starts are the starts, and what edges lead to**, as long as the edges
    leave the graph only for what has no edges. -/
theorem reach_spec (hedges : ∀ a, ∀ b ∈ edges a, g.Bounded edges b) {starts : List NodeId}
    (hstarts : ∀ start ∈ starts, g.Bounded edges start) :
    (∀ start ∈ starts, start ∈ g.reach edges starts) ∧
      ∀ a ∈ g.reach edges starts, ∀ b ∈ edges a, b ∈ g.reach edges starts := by
  have hfuel : g.unseen [] < g.size + 1 := by
    rw [unseen_nil]
    exact Nat.lt_succ_self _
  obtain ⟨hall, hclosed⟩ := foldl_visit_spec (visit_spec hedges) hstarts hfuel
  exact ⟨hall, fun a ha => hclosed a ha List.not_mem_nil⟩

/-- **A visit from a root comes along every edge**, as long as it leaves the graph only for what has
    no edges. -/
theorem reach_closed (hedges : ∀ a, ∀ b ∈ edges a, g.Bounded edges b) {root : NodeId}
    (hroot : g.Bounded edges root) :
    root ∈ g.reach edges [root] ∧
      ∀ a ∈ g.reach edges [root], ∀ b ∈ edges a, b ∈ g.reach edges [root] := by
  obtain ⟨hstarts, hclosed⟩ := reach_spec hedges (List.forall_mem_singleton.mpr hroot)
  exact ⟨hstarts root (List.mem_singleton.mpr rfl), hclosed⟩

/-- **What is reached from a node is reached along every edge.** -/
theorem mem_reach_of_edge (hedges : ∀ a, ∀ b ∈ edges a, b < g.size) {root : NodeId}
    (hroot : root < g.size) :
    root ∈ g.reach edges [root] ∧
      ∀ a ∈ g.reach edges [root], ∀ b ∈ edges a, b ∈ g.reach edges [root] :=
  reach_closed (fun a b hb => Or.inl (hedges a b hb)) (Or.inl hroot)

end Graph

/-- The node has a subschema under a keyword that is no definition. -/
def Node.Holds (n : Node) (child : NodeId) : Prop :=
  ∃ name c, (name, c) ∈ n.children ∧ isDefinitions name = false ∧ child ∈ c.ids

namespace Compiler

variable {store : Store} {g : Graph} {root id : NodeId}

theorem mem_edges {child : NodeId} :
    child ∈ edges g id ↔
      ∃ n, g.node? id = some n ∧ (n.Holds child ∨ n.reference = some child) := by
  unfold edges
  cases g.node? id with
  | none => simp
  | some n =>
    simp [Node.Holds, and_assoc, or_comm]

variable [Uri.Library]

theorem edges_lt_size (hg : g.Resolved store) : ∀ a, ∀ b ∈ edges g a, b < g.size := by
  intro a b hb
  obtain ⟨n, hn, hlink⟩ := mem_edges.mp hb
  have hnode : ∃ m, g.node? b = some m := by
    rcases hlink with ⟨name, c, hc, _, hmem⟩ | htarget
    · exact hg.exists_child hn hc hmem
    · exact hg.exists_target hn htarget
  obtain ⟨m, hm⟩ := hnode
  exact (Array.getElem?_eq_some_iff.mp hm).1

/-- What is reached are nodes of the graph. -/
theorem lt_size_of_reached (hg : g.Resolved store) (hroot : root < g.size)
    (hid : id ∈ reached g root) : id < g.size :=
  Graph.forall_mem_visit (S := (· < g.size)) (fun a _ => edges_lt_size hg a)
    (fun _ h => absurd h List.not_mem_nil) hroot id hid

/-- What a reached node may evaluate is reached. -/
theorem mem_reached_of_edge (hg : g.Resolved store) (hroot : root < g.size)
    (hid : id ∈ reached g root) {child : NodeId} (hchild : child ∈ edges g id) :
    child ∈ reached g root :=
  (Graph.mem_reach_of_edge (edges_lt_size hg) hroot).2 id hid child hchild

/-- **The children of a reached node are reached**, except definitions. -/
theorem mem_reached_of_child (hg : g.Resolved store) (hroot : root < g.size)
    (hid : id ∈ reached g root) {n : Node} (hn : g.node? id = some n) {name : String} {c : Children}
    (hc : n.children? name = some c) (hname : isDefinitions name = false) {child : NodeId}
    (hchild : child ∈ c.ids) : child ∈ reached g root :=
  mem_reached_of_edge hg hroot hid
    (mem_edges.mpr ⟨n, hn, Or.inl ⟨name, c, mem_of_lookup hc, hname, hchild⟩⟩)

/-- **The target of a reached node is reached.** -/
theorem mem_reached_of_reference (hg : g.Resolved store) (hroot : root < g.size)
    (hid : id ∈ reached g root) {n : Node} (hn : g.node? id = some n) {target : NodeId}
    (ht : n.reference = some target) : target ∈ reached g root :=
  mem_reached_of_edge hg hroot hid (mem_edges.mpr ⟨n, hn, Or.inr ht⟩)

end Compiler

end TaggedSchema
