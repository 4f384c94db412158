import TaggedSchema.Proofs.Chains

/-!
# The search for cycles in place

`Graph.searchCycle` goes depth first, with the nodes on the way down to where it is and the nodes it
is done with. What it does at a node, edge by edge and without a bound on its depth, is
`Graph.Searches`; what it does from one start after another is `Graph.Scans`. Two invariants carry
all that is shown:

* every open node leads to the node where the search is, so an edge to an open node closes a cycle
  (`Graph.Searches.closing`);
* the nodes that are done lead to each other only, and none of them is on a cycle (`Graph.Cleared`),
  and a search that ends without a cycle has its node among them (`Graph.Searches.clears`).

The open nodes do not repeat, and each of them has an edge, so there are no more of them than nodes
and the fuel of the model is never spent (`Graph.scans_inPlaceCycle`). None of this needs anything of
the graph.
-/

namespace TaggedSchema.Graph

/-! ## 1. Nodes without cycles below them -/

/-- There is an edge. -/
def Along (edges : NodeId → List NodeId) (id target : NodeId) : Prop := target ∈ edges id

/-- The nodes lead to each other only, and none of them comes back to itself. -/
structure Cleared (edges : NodeId → List NodeId) (done : List NodeId) : Prop where
  closed : ∀ a ∈ done, ∀ b ∈ edges a, b ∈ done
  acyclic : ∀ a ∈ done, ¬ Relation.TransGen (Along edges) a a

variable {g : Graph} {edges : NodeId → List NodeId} {done done' : List NodeId} {id : NodeId}

/-- A path of nodes that do not come back to themselves passes each node once. -/
theorem nodup_of_acyclic {path : List NodeId}
    (hacyclic : ∀ id ∈ path, ¬ Relation.TransGen (Along edges) id id)
    (hpath : List.IsChain (Along edges) path) : path.Nodup := by
  have hordered : List.Pairwise (Relation.TransGen (Along edges)) path :=
    List.isChain_iff_pairwise.mp (hpath.imp fun _ _ hedge => .single hedge)
  refine hordered.imp_of_mem fun {a b} ha _ hless heq => ?_
  subst heq
  exact hacyclic a ha hless

theorem cleared_nil : Cleared edges [] :=
  ⟨fun _ h => absurd h List.not_mem_nil, fun _ h => absurd h List.not_mem_nil⟩

theorem Cleared.mem_of_path (h : Cleared edges done) {a b : NodeId} (ha : a ∈ done)
    (hpath : Relation.ReflTransGen (Along edges) a b) : b ∈ done := by
  induction hpath with
  | refl => exact ha
  | tail _ hedge ih => exact h.closed _ ih _ hedge

/-- A node whose edges all lead to cleared nodes is clear itself. -/
theorem Cleared.cons (h : Cleared edges done) (hid : ∀ b ∈ edges id, b ∈ done) :
    Cleared edges (id :: done) := by
  refine ⟨fun a ha b hb => ?_, fun a ha hcycle => ?_⟩
  · rcases List.mem_cons.mp ha with rfl | ha
    · exact List.mem_cons_of_mem _ (hid b hb)
    · exact List.mem_cons_of_mem _ (h.closed a ha b hb)
  · -- Whatever is on the cycle behind its first edge is cleared already, the node included.
    have hdone : a ∈ done := by
      rcases List.mem_cons.mp ha with rfl | ha
      · obtain ⟨b, hb, hback⟩ := Relation.TransGen.head'_iff.mp hcycle
        exact h.mem_of_path (hid b hb) hback
      · exact ha
    exact h.acyclic a hdone hcycle

/-! ## 2. The search without a bound -/

/-- **The search at a node**, with the nodes that are open above it, the nodes that are done, and the
    edges that are left to be taken. -/
inductive Searches (edges : NodeId → List NodeId) :
    List NodeId → NodeId → List NodeId → List NodeId → Except NodeId (List NodeId) → Prop where
  /-- All edges have been taken, and the node is done. -/
  | ends {opened : List NodeId} {id : NodeId} {done : List NodeId} :
      Searches edges opened id done [] (.ok (id :: done))
  /-- An edge to an open node closes a cycle. -/
  | closes {opened : List NodeId} {id : NodeId} {done : List NodeId} {target : NodeId}
      {rest : List NodeId} (hopen : target ∈ id :: opened) :
      Searches edges opened id done (target :: rest) (.error id)
  /-- An edge to a node that is done is passed over. -/
  | passes {opened : List NodeId} {id : NodeId} {done : List NodeId} {target : NodeId}
      {rest : List NodeId} {outcome : Except NodeId (List NodeId)}
      (hnew : target ∉ id :: opened) (hdone : target ∈ done)
      (hrest : Searches edges opened id done rest outcome) :
      Searches edges opened id done (target :: rest) outcome
  /-- An edge to another node is gone along, and a cycle is found there. -/
  | finds {opened : List NodeId} {id : NodeId} {done : List NodeId} {target : NodeId}
      {rest : List NodeId} {closing : NodeId} (hnew : target ∉ id :: opened)
      (hfresh : target ∉ done)
      (hbelow : Searches edges (id :: opened) target done (edges target) (.error closing)) :
      Searches edges opened id done (target :: rest) (.error closing)
  /-- An edge to another node is gone along, and the search comes back. -/
  | returns {opened : List NodeId} {id : NodeId} {done done' : List NodeId} {target : NodeId}
      {rest : List NodeId} {outcome : Except NodeId (List NodeId)}
      (hnew : target ∉ id :: opened) (hfresh : target ∉ done)
      (hbelow : Searches edges (id :: opened) target done (edges target) (.ok done'))
      (hrest : Searches edges opened id done' rest outcome) :
      Searches edges opened id done (target :: rest) outcome

/-- **The search from one start after another.** -/
inductive Scans (edges : NodeId → List NodeId) :
    List NodeId → List NodeId → Option NodeId → Prop where
  | ends {done : List NodeId} : Scans edges done [] none
  | passes {done : List NodeId} {start : NodeId} {rest : List NodeId} {outcome : Option NodeId}
      (hdone : start ∈ done) (hrest : Scans edges done rest outcome) :
      Scans edges done (start :: rest) outcome
  | finds {done : List NodeId} {start : NodeId} {rest : List NodeId} {closing : NodeId}
      (hfresh : start ∉ done) (hbelow : Searches edges [] start done (edges start) (.error closing)) :
      Scans edges done (start :: rest) (some closing)
  | returns {done done' : List NodeId} {start : NodeId} {rest : List NodeId}
      {outcome : Option NodeId} (hfresh : start ∉ done)
      (hbelow : Searches edges [] start done (edges start) (.ok done'))
      (hrest : Scans edges done' rest outcome) : Scans edges done (start :: rest) outcome

section Invariants

variable {opened targets starts : List NodeId} {outcome : Except NodeId (List NodeId)}

/-- The search ends in one way only. -/
theorem Searches.unique {outcome' : Except NodeId (List NodeId)}
    (h : Searches edges opened id done targets outcome)
    (h' : Searches edges opened id done targets outcome') : outcome = outcome' := by
  induction h generalizing outcome' with
  | ends =>
    cases h'
    rfl
  | closes hopen =>
    cases h' with
    | closes => rfl
    | passes hnew | finds hnew | returns hnew => exact absurd hopen hnew
  | passes hnew hdone _ ih =>
    cases h' with
    | closes hopen => exact absurd hopen hnew
    | passes _ _ hrest => exact ih hrest
    | finds _ hfresh | returns _ hfresh => exact absurd hdone hfresh
  | finds hnew hfresh _ ih =>
    cases h' with
    | closes hopen => exact absurd hopen hnew
    | passes _ hdone => exact absurd hdone hfresh
    | finds _ _ hbelow => exact ih hbelow
    | returns _ _ hbelow => cases ih hbelow
  | returns hnew hfresh _ _ ih ihrest =>
    cases h' with
    | closes hopen => exact absurd hopen hnew
    | passes _ hdone => exact absurd hdone hfresh
    | finds _ _ hbelow => cases ih hbelow
    | returns _ _ hbelow hrest =>
      cases ih hbelow
      exact ihrest hrest

theorem Scans.unique {outcome outcome' : Option NodeId} (h : Scans edges done starts outcome)
    (h' : Scans edges done starts outcome') : outcome = outcome' := by
  induction h generalizing outcome' with
  | ends =>
    cases h'
    rfl
  | passes hdone _ ih =>
    cases h' with
    | passes _ hrest => exact ih hrest
    | finds hfresh | returns hfresh => exact absurd hdone hfresh
  | finds hfresh hbelow =>
    cases h' with
    | passes hdone => exact absurd hdone hfresh
    | finds _ hbelow' => exact Except.error.inj (hbelow.unique hbelow') ▸ rfl
    | returns _ hbelow' => cases hbelow.unique hbelow'
  | returns hfresh hbelow _ ih =>
    cases h' with
    | passes hdone => exact absurd hdone hfresh
    | finds _ hbelow' => cases hbelow.unique hbelow'
    | returns _ hbelow' hrest =>
      cases hbelow.unique hbelow'
      exact ih hrest

/-- **A cycle that is found is one**: the open nodes lead to the node where the search is, and it is
    led on from there to the node that is found, which leads back to itself. -/
theorem Searches.closing (h : Searches edges opened id done targets outcome)
    (hopened : ∀ a ∈ opened, Relation.ReflTransGen (Along edges) a id)
    (htargets : ∀ b ∈ targets, Along edges id b) {closing : NodeId}
    (hfound : outcome = .error closing) :
    Relation.ReflTransGen (Along edges) id closing ∧
      Relation.TransGen (Along edges) closing closing := by
  induction h with
  | ends => cases hfound
  | @closes opened id _ target _ hopen =>
    have hid : id = closing := Except.error.inj hfound
    subst hid
    have hedge : Along edges id target := htargets target List.mem_cons_self
    have hback : Relation.ReflTransGen (Along edges) target id := by
      rcases List.mem_cons.mp hopen with rfl | hopen
      · exact .refl
      · exact hopened target hopen
    exact ⟨.refl, Relation.TransGen.head' hedge hback⟩
  | passes _ _ _ ih =>
    exact ih hopened (fun b hb => htargets b (List.mem_cons_of_mem _ hb)) hfound
  | @finds opened id _ target _ _ _ _ _ ih =>
    have hedge : Along edges id target := htargets target List.mem_cons_self
    obtain ⟨hpath, hcycle⟩ := ih
      (List.forall_mem_cons.mpr ⟨.single hedge, fun a ha => (hopened a ha).tail hedge⟩)
      (fun _ hb => hb) hfound
    exact ⟨hpath.head hedge, hcycle⟩
  | returns _ _ _ _ _ ihrest =>
    exact ihrest hopened (fun b hb => htargets b (List.mem_cons_of_mem _ hb)) hfound

/-- Of the edges of a node that are left or lead to nodes that are done, one is taken. -/
theorem left_of_taken {taken : List NodeId} {target : NodeId} {rest : List NodeId}
    (h : ∀ b ∈ taken, b ∈ target :: rest ∨ b ∈ done) (htarget : target ∈ done')
    (hkept : ∀ a ∈ done, a ∈ done') : ∀ b ∈ taken, b ∈ rest ∨ b ∈ done' := by
  intro b hb
  rcases h b hb with hleft | hdone
  · rcases List.mem_cons.mp hleft with rfl | hrest
    · exact Or.inr htarget
    · exact Or.inl hrest
  · exact Or.inr (hkept b hdone)

/-- **A search that comes back has cleared its node**, and forgotten none that was cleared. -/
theorem Searches.clears (h : Searches edges opened id done targets outcome)
    (hdone : Cleared edges done) (htaken : ∀ b ∈ edges id, b ∈ targets ∨ b ∈ done)
    (hback : outcome = .ok done') :
    Cleared edges done' ∧ id ∈ done' ∧ ∀ a ∈ done, a ∈ done' := by
  induction h generalizing done' with
  | ends =>
    cases hback
    have hall := hdone.cons fun b hb => (htaken b hb).resolve_left List.not_mem_nil
    exact ⟨hall, List.mem_cons_self, fun a ha => List.mem_cons_of_mem _ ha⟩
  | closes => cases hback
  | passes _ hknown _ ih => exact ih hdone (left_of_taken htaken hknown fun _ ha => ha) hback
  | finds => cases hback
  | returns _ _ _ _ ih ihrest =>
    obtain ⟨hcleared, htarget, hkept⟩ := ih hdone (fun _ hb => Or.inl hb) rfl
    obtain ⟨hcleared', hself, hkept'⟩ :=
      ihrest hcleared (left_of_taken htaken htarget hkept) hback
    exact ⟨hcleared', hself, fun a ha => hkept' a (hkept a ha)⟩

/-- What is found from some starts is reached from one of them, and on a cycle. -/
theorem Scans.closing {closing : NodeId} (h : Scans edges done starts (some closing)) :
    ∃ start ∈ starts, Relation.ReflTransGen (Along edges) start closing ∧
      Relation.TransGen (Along edges) closing closing := by
  generalize hfound : some closing = outcome at h
  induction h with
  | ends => cases hfound
  | passes _ _ ih =>
    obtain ⟨start, hstart, hcycle⟩ := ih hfound
    exact ⟨start, List.mem_cons_of_mem _ hstart, hcycle⟩
  | @finds _ start _ _ _ hbelow =>
    cases hfound
    exact ⟨start, List.mem_cons_self,
      hbelow.closing (fun _ h => absurd h List.not_mem_nil) (fun _ hb => hb) rfl⟩
  | returns _ _ _ ih =>
    obtain ⟨start, hstart, hcycle⟩ := ih hfound
    exact ⟨start, List.mem_cons_of_mem _ hstart, hcycle⟩

/-- Where nothing is found, all the starts are cleared. -/
theorem Scans.clears (h : Scans edges done starts none) (hdone : Cleared edges done) :
    ∃ done', Cleared edges done' ∧ (∀ a ∈ done, a ∈ done') ∧ ∀ start ∈ starts, start ∈ done' := by
  generalize hfound : none = outcome at h
  induction h with
  | ends => exact ⟨_, hdone, fun _ ha => ha, fun _ h => absurd h List.not_mem_nil⟩
  | passes hknown _ ih =>
    obtain ⟨done', hcleared, hkept, hall⟩ := ih hdone hfound
    exact ⟨done', hcleared, hkept, List.forall_mem_cons.mpr ⟨hkept _ hknown, hall⟩⟩
  | finds => cases hfound
  | returns _ hbelow _ ih =>
    obtain ⟨hcleared, hself, hkept⟩ := hbelow.clears hdone (fun _ hb => Or.inl hb) rfl
    obtain ⟨done', hcleared', hkept', hall⟩ := ih hcleared hfound
    exact ⟨done', hcleared', fun a ha => hkept' a (hkept a ha),
      List.forall_mem_cons.mpr ⟨hkept' _ hself, hall⟩⟩

/-- **Nothing is found exactly when no cycle is reached.** -/
theorem Scans.eq_none_iff {outcome : Option NodeId} (h : Scans edges [] starts outcome) :
    outcome = none ↔ ∀ start ∈ starts, ∀ a, Relation.ReflTransGen (Along edges) start a →
      ¬ Relation.TransGen (Along edges) a a := by
  constructor
  · rintro rfl start hstart a hpath
    obtain ⟨done, hcleared, _, hall⟩ := h.clears cleared_nil
    exact hcleared.acyclic a (hcleared.mem_of_path (hall start hstart) hpath)
  · intro hnone
    cases outcome with
    | none => rfl
    | some closing =>
      obtain ⟨start, hstart, hpath, hcycle⟩ := h.closing
      exact absurd hcycle (hnone start hstart closing hpath)

end Invariants

/-! ## 3. The bound of the model -/

/-- Taking the edges of a node one after another is the search at the node, if what the model does
    at the node of each of them is the search there. -/
theorem searches_foldlM {fuel : Nat} {opened targets : List NodeId}
    (h : ∀ target ∈ targets, target ∉ id :: opened → ∀ done,
      Searches edges (id :: opened) target done (edges target)
        (searchCycle edges fuel (id :: opened) done target)) (done : List NodeId) :
    Searches edges opened id done targets
      (targets.foldlM (fun done target =>
          if (id :: opened).contains target then .error id
          else if done.contains target then .ok done
          else searchCycle edges fuel (id :: opened) done target) done
        >>= fun done => pure (id :: done)) := by
  induction targets generalizing done with
  | nil => exact .ends
  | cons target rest ih =>
    obtain ⟨htarget, hrest⟩ := List.forall_mem_cons.mp h
    rw [List.foldlM_cons, bind_assoc]
    by_cases hopen : target ∈ id :: opened
    · rw [if_pos (List.contains_iff_mem.mpr hopen)]
      exact .closes hopen
    · rw [if_neg (mt List.contains_iff_mem.mp hopen)]
      by_cases hdone : target ∈ done
      · rw [if_pos (List.contains_iff_mem.mpr hdone)]
        exact .passes hopen hdone (ih hrest done)
      · rw [if_neg (mt List.contains_iff_mem.mp hdone)]
        have hbelow := htarget hopen done
        cases hresult : searchCycle edges fuel (id :: opened) done target with
        | error closing => exact .finds hopen hdone (hresult ▸ hbelow)
        | ok done' => exact .returns hopen hdone (hresult ▸ hbelow) (ih hrest done')

/-- **The fuel is never spent**: the open nodes do not repeat and are nodes of the graph, since each of
    them has an edge. -/
theorem searches_searchCycle (hedges : ∀ a, ∀ b ∈ edges a, a < g.size) {fuel : Nat}
    {opened : List NodeId} (hnodup : opened.Nodup) (hlt : ∀ a ∈ opened, a < g.size)
    (hfresh : id ∉ opened) (hfuel : opened.length + fuel = g.size + 1) (done : List NodeId) :
    Searches edges opened id done (edges id) (searchCycle edges fuel opened done id) := by
  induction fuel generalizing opened done id with
  | zero =>
    have hroom := length_le_size hnodup hlt
    omega
  | succ fuel ih =>
    refine searches_foldlM (fun target htarget hnew done => ?_) done
    refine ih (List.nodup_cons.mpr ⟨hfresh, hnodup⟩)
      (List.forall_mem_cons.mpr ⟨hedges id target htarget, hlt⟩) hnew ?_ done
    rw [List.length_cons]
    omega

theorem lt_size_of_inPlaceEdges {a b : NodeId} (hb : b ∈ g.inPlaceEdges a) : a < g.size := by
  unfold inPlaceEdges at hb
  cases hn : g.node? a with
  | none =>
    rw [hn] at hb
    cases hb
  | some n => exact (Array.getElem?_eq_some_iff.mp hn).1

/-- The search from one start after another, if what the model does at a fresh start is the search
    there. -/
theorem scans_foldlM {fuel : Nat} {starts : List NodeId}
    (h : ∀ start done, Searches edges [] start done (edges start)
      (searchCycle edges fuel [] done start)) (done : List NodeId) :
    Scans edges done starts
      (match starts.foldlM (fun done start =>
          if done.contains start then .ok done else searchCycle edges fuel [] done start) done with
        | .ok _ => none
        | .error id => some id) := by
  induction starts generalizing done with
  | nil => exact .ends
  | cons start rest ih =>
    rw [List.foldlM_cons]
    by_cases hdone : start ∈ done
    · rw [if_pos (List.contains_iff_mem.mpr hdone)]
      exact .passes hdone (ih done)
    · rw [if_neg (mt List.contains_iff_mem.mp hdone)]
      have hbelow := h start done
      cases hresult : searchCycle edges fuel [] done start with
      | error closing => exact .finds hdone (hresult ▸ hbelow)
      | ok done' => exact .returns hdone (hresult ▸ hbelow) (ih done')

/-- **The search for a cycle in place ends**, for every graph and all starts. -/
theorem scans_inPlaceCycle (g : Graph) (starts : List NodeId) :
    Scans g.inPlaceEdges [] starts (g.inPlaceCycle starts) :=
  scans_foldlM (fun _ done => searches_searchCycle (fun _ _ => lt_size_of_inPlaceEdges) .nil
    (fun _ h => absurd h List.not_mem_nil) List.not_mem_nil (Nat.zero_add _) done) []

/-! ## 4. Cycles in place -/

theorem mem_inPlaceEdges {target : NodeId} :
    target ∈ g.inPlaceEdges id ↔ ∃ n, g.node? id = some n ∧
      ((∃ schemas, n.childList? "allOf" = some schemas ∧ target ∈ schemas) ∨
        n.reference = some target) := by
  unfold inPlaceEdges
  cases g.node? id with
  | none => simp
  | some n => cases hschemas : n.childList? "allOf" <;> simp [hschemas]

/-- **No cycle in place is found exactly when there is none** to which the starts lead in place. -/
theorem inPlaceCycle_eq_none_iff {starts : List NodeId} :
    g.inPlaceCycle starts = none ↔
      ∀ start ∈ starts, ∀ a, Relation.ReflTransGen (Along g.inPlaceEdges) start a →
        ¬ Relation.TransGen (Along g.inPlaceEdges) a a :=
  (scans_inPlaceCycle g starts).eq_none_iff

end TaggedSchema.Graph
