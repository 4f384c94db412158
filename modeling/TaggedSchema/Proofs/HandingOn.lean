import TaggedSchema.Proofs.Termination

/-!
# Which errors are kept

An evaluation has others inside it, and keeps the errors of some of them: it hands on what it
evaluates into its own report, and drops what it only tests and what alternatives find when one of
them holds. `Program.HandsOn` says which evaluations inside another hand their errors on to it. An
error is found in an evaluation exactly when it is raised at the end of a chain of evaluations each
of which hands on to the one before (`Program.mem_found_iff`); this holds however deeply the keywords
that test and the alternatives lie inside each other.
-/

namespace TaggedSchema.Program

variable {p : Program} {a b : Call} {e : ValidationError}

/-! ## 1. One evaluation -/

/-- The second lies directly inside the first, and its errors become errors of the first. -/
inductive HandsOn (p : Program) (a : Call) : Call → Prop where
  | request {node : CompiledNode} {k : CompiledKeyword} {segments : List String} {r : Request}
      (hdepth : a.frame.depth ≤ p.maxDepth) (hnode : p.nodes[a.node]? = some node)
      (hk : k ∈ node.keywords) (hr : k.rule.HandsOn p.found k.name a.value a.frame segments r) :
      HandsOn p a ⟨r.schema, r.value, a.frame.moved segments r.segment⟩

/-- The evaluation reports the error itself: it is nested too deeply, or a rule of its node reports
    the error where it stands. -/
inductive Raises (p : Program) (a : Call) : ValidationError → Prop where
  | depth (h : p.maxDepth < a.frame.depth) : Raises p a (p.depthError a.frame)
  | rule {node : CompiledNode} {k : CompiledKeyword} {e : ValidationError}
      (hdepth : a.frame.depth ≤ p.maxDepth) (hnode : p.nodes[a.node]? = some node)
      (hk : k ∈ node.keywords) (h : k.rule.Reports k.name a.value a.frame e)
      (he : e ∈ k.rule.errors p.found k.name a.value a.frame) : Raises p a e

theorem HandsOn.nests (h : p.HandsOn a b) : p.Nests a b := by
  obtain ⟨hdepth, hnode, hk, hr⟩ := h
  exact .request hdepth hnode hk hr.requests

/-- Within the limit an evaluation finds what its rules find. -/
theorem mem_found_of_rule (hp : p.IsBuiltin) (hdepth : a.frame.depth ≤ p.maxDepth)
    {node : CompiledNode} (hnode : p.nodes[a.node]? = some node) :
    e ∈ p.found a.node a.value a.frame ↔
      ∃ k ∈ node.keywords, e ∈ k.rule.errors p.found k.name a.value a.frame := by
  rw [found_eq hp, if_neg (Nat.not_lt.mpr hdepth), hnode]
  exact List.mem_flatMap

theorem Raises.mem_found (hp : p.IsBuiltin) (h : p.Raises a e) :
    e ∈ p.found a.node a.value a.frame := by
  cases h with
  | depth h =>
    rw [found_eq hp, if_pos h]
    exact List.mem_singleton.mpr rfl
  | rule hdepth hnode hk _ he => exact (mem_found_of_rule hp hdepth hnode).mpr ⟨_, hk, he⟩

/-- What is raised, stands at the place of the evaluation in the schema or one segment below. -/
theorem Raises.schemaLocation_eq (h : p.Raises a e) :
    ∃ own : List String, own.length ≤ 1 ∧
      e.schemaLocation.segments = a.frame.schemaPath.segments ++ own := by
  have hat {path : Pointer} (h : path = a.frame.schemaPath) : ∃ own : List String,
      own.length ≤ 1 ∧ path.segments = a.frame.schemaPath.segments ++ own :=
    ⟨[], Nat.zero_le 1, by rw [h, List.append_nil]⟩
  have hbelow {path : Pointer} {segment : String} (h : path = a.frame.schemaPath.join segment) :
      ∃ own : List String, own.length ≤ 1 ∧ path.segments = a.frame.schemaPath.segments ++ own :=
    ⟨[segment], Nat.le_refl 1, congrArg Pointer.segments h⟩
  cases h with
  | depth => exact hat rfl
  | @rule node k e hdepth hnode hk hreports he =>
    generalize k.rule = rule at hreports
    cases hreports with
    | never => exact hat rfl
    | own => exact hbelow rfl
    | refused hrefuses => exact hbelow hrefuses.at_discriminator.2

/-- **What is handed on is kept.** -/
theorem HandsOn.mem_found (hp : p.IsBuiltin) (h : p.HandsOn a b)
    (he : e ∈ p.found b.node b.value b.frame) : e ∈ p.found a.node a.value a.frame := by
  obtain ⟨hdepth, hnode, hk, hr⟩ := h
  exact (mem_found_of_rule hp hdepth hnode).mpr ⟨_, hk, hr.mem_errors he⟩

/-- **Nothing else is kept**: an error that is found is raised, or found in an evaluation inside that
    hands it on. -/
theorem raises_or_handsOn (hp : p.IsBuiltin) (he : e ∈ p.found a.node a.value a.frame) :
    p.Raises a e ∨ ∃ b, p.HandsOn a b ∧ e ∈ p.found b.node b.value b.frame := by
  by_cases hdepth : a.frame.depth ≤ p.maxDepth
  · cases hnode : p.nodes[a.node]? with
    | none =>
      rw [found_eq hp, if_neg (Nat.not_lt.mpr hdepth), hnode] at he
      cases he
    | some node =>
      obtain ⟨k, hk, he⟩ := (mem_found_of_rule hp hdepth hnode).mp he
      rcases Rule.mem_errors he with hreports | ⟨segments, r, hr, hinside⟩
      · exact Or.inl (.rule hdepth hnode hk hreports he)
      · exact Or.inr ⟨_, .request hdepth hnode hk hr, hinside⟩
  · have hdeep := Nat.lt_of_not_le hdepth
    rw [found_eq hp, if_pos hdeep] at he
    rw [List.mem_singleton.mp he]
    exact Or.inl (.depth hdeep)

/-! ## 2. Chains of evaluations -/

/-- **An error is found exactly when it is raised at the end of a chain that hands it on**, by
    induction on the evaluations inside each other. -/
theorem mem_found_iff (hp : p.IsBuiltin) :
    e ∈ p.found a.node a.value a.frame ↔
      ∃ b, Relation.ReflTransGen p.HandsOn a b ∧ p.Raises b e := by
  constructor
  · intro he
    induction a using (wellFounded_nests hp).induction with
    | _ a ih =>
      rcases raises_or_handsOn hp he with hraises | ⟨b, hands, he⟩
      · exact ⟨a, .refl, hraises⟩
      · obtain ⟨c, hchain, hraises⟩ := ih b hands.nests he
        exact ⟨c, hchain.head hands, hraises⟩
  · rintro ⟨b, hchain, hraises⟩
    induction hchain using Relation.ReflTransGen.head_induction_on with
    | refl => exact hraises.mem_found hp
    | head hands _ ih => exact hands.mem_found hp ih

end TaggedSchema.Program
