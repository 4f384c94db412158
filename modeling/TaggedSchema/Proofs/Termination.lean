import TaggedSchema.Proofs.Nesting

/-!
# Evaluation ends

Schemas may refer to each other in circles, and the evaluator goes round with them. What ends it is
two counts. Going inside an evaluation means to stay at the value, one level deeper, or to descend
into a part of the value and start counting anew (`Program.Nests.evaluates`); deeper than one level
beyond the limit it does not go. So the height of the value and the levels that are left, in this
order, get smaller with every evaluation inside another (`Program.Nests.lex_measure`).

The evaluator is written with fuel. It has enough of it: the equation that the fuel is there for,
one evaluation by those inside it, has exactly one solution, and that is what a validation computes
(`Compiler.evaluation_terminates`).
-/

namespace TaggedSchema

/-! ## 1. One evaluation inside another -/

/-- A request about the value goes one level deeper, or descends and starts counting anew. -/
theorem Request.About.evaluates {r : Request} {value : Json} (h : r.About value) (f : Frame)
    (segments : List String) : Evaluates value f r.value (f.moved segments r.segment) := by
  unfold About at h
  cases hsegment : r.segment with
  | none =>
    rw [hsegment] at h
    have hvalue : r.value = value := h
    rw [hvalue]
    exact .nested rfl
  | some segment =>
    rw [hsegment] at h
    exact .descended h rfl

namespace Program

variable {p : Program} {c c' : Call}

/-- **Inside an evaluation** the value stays, one level deeper, or is a part, at the first level. -/
theorem Nests.evaluates (hp : p.IsBuiltin) (h : p.Nests c c') :
    Evaluates c.value c.frame c'.value c'.frame := by
  obtain ⟨_, hnode, hk, hr⟩ := h
  have hconfined := (hp _ _ hnode _ hk).confined
  exact ((hconfined _ _).of_requests hr).evaluates _ _

/-- Nothing is evaluated inside an evaluation beyond the limit. -/
theorem Nests.depth_le (h : p.Nests c c') : c.frame.depth ≤ p.maxDepth := by
  obtain ⟨hdepth, _, _, _⟩ := h
  exact hdepth

theorem Nests.stays_or_descends (hp : p.IsBuiltin) (h : p.Nests c c') :
    (c'.value = c.value ∧ c'.frame.depth = c.frame.depth + 1) ∨
      (c'.value.Part c.value ∧ c'.frame.depth = 0) := by
  have hevaluates := h.evaluates hp
  generalize c'.value = part at hevaluates ⊢
  generalize c'.frame = f at hevaluates ⊢
  cases hevaluates with
  | nested hdepth => exact Or.inl ⟨rfl, hdepth⟩
  | descended hpart hdepth => exact Or.inr ⟨hpart, hdepth⟩

theorem Nests.need_lt (hp : p.IsBuiltin) (h : p.Nests c c') :
    p.need c'.value c'.frame < p.need c.value c.frame :=
  Program.need_lt (h.evaluates hp) h.depth_le

/-- What gets smaller: the height of the value, and then the number of levels that are left. -/
def measure (p : Program) (c : Call) : Nat × Nat :=
  (c.value.height, p.maxDepth + 1 - c.frame.depth)

/-- **Each evaluation inside another is smaller**, by value first and by levels second. -/
theorem Nests.lex_measure (hp : p.IsBuiltin) (h : p.Nests c c') :
    Prod.Lex (· < ·) (· < ·) (p.measure c') (p.measure c) := by
  have hdepth := h.depth_le
  unfold measure
  rcases h.stays_or_descends hp with ⟨hvalue, hnext⟩ | ⟨hpart, _⟩
  · rw [hvalue]
    refine Prod.Lex.right _ ?_
    omega
  · exact Prod.Lex.left _ _ hpart.height_lt

theorem wellFounded_nests (hp : p.IsBuiltin) : WellFounded fun c' c => p.Nests c c' := by
  have hlex : WellFounded (Prod.Lex (· < ·) (· < ·) : Nat × Nat → Nat × Nat → Prop) :=
    (Prod.lex Nat.lt_wfRel Nat.lt_wfRel).wf
  exact Subrelation.wf (fun h => h.lex_measure hp) (InvImage.wf p.measure hlex)

/-! ## 2. Chains of evaluations -/

/-- Along a chain from the root no level is more than one beyond the limit. -/
theorem depth_le_of_chain (hp : p.IsBuiltin) {value : Json}
    (h : Relation.ReflTransGen p.Nests (p.rootCall value) c) : c.frame.depth ≤ p.maxDepth + 1 := by
  rcases h.cases_tail with heq | ⟨before, _, hlast⟩
  · have hroot : c.frame.depth = 0 := heq ▸ rfl
    omega
  · have hdepth := hlast.depth_le
    rcases hlast.stays_or_descends hp with ⟨_, hnext⟩ | ⟨_, hzero⟩ <;> omega

/-- A chain is no longer than what its first evaluation needs. -/
theorem length_lt_need (hp : p.IsBuiltin) {chain : List Call}
    (h : List.IsChain p.Nests (c :: chain)) : chain.length < p.need c.value c.frame := by
  induction chain generalizing c with
  | nil => exact Nat.succ_pos _
  | cons next rest ih =>
    obtain ⟨hfirst, hrest⟩ := List.isChain_cons_cons.mp h
    have hbelow := ih hrest
    have hless := hfirst.need_lt hp
    rw [List.length_cons]
    omega

/-! ## 3. The equation without fuel -/

/-- Computations that are equal. -/
theorem correspondence_eq {m : Type → Type} [Monad m] :
    Correspondence (fun α (x y : m α) => x = y) where
  pure _ := rfl
  bind h hk := by
    subst h
    exact congrArg _ (funext hk)

/-- The evaluation with as much fuel as it needs. -/
def settled (p : Program) : Evaluator Id := fun id value f out =>
  p.evaluate (p.need value f) id value f out

/-- More fuel than needed changes nothing. -/
theorem evaluate_eq_settled (hp : p.IsBuiltin) {fuel : Nat} {id : NodeId} {value : Json} {f : Frame}
    (h : p.need value f ≤ fuel) (out : Report) :
    p.evaluate fuel id value f out = p.settled id value f out := by
  obtain ⟨extra, rfl⟩ := Nat.exists_eq_add_of_le h
  have henough := evaluate_of_need hp id value f extra out
  have hexactly := evaluate_of_need hp id value f 0 out
  exact henough.trans hexactly.symm

/-- **The evaluation solves its equation**: one evaluation by those inside it. -/
theorem settled_eq_step (hp : p.IsBuiltin) : p.settled = p.step (fun _ => pure ()) p.settled := by
  funext id value f out
  have hbelow : ∀ c', p.Nests ⟨id, value, f⟩ c' → ∀ out,
      p.evaluate (p.need value f - 1) c'.node c'.value c'.frame out
        = p.settled c'.node c'.value c'.frame out := by
    intro c' hnests out
    have hless := hnests.need_lt hp
    exact evaluate_eq_settled hp (Nat.le_sub_one_of_lt hless) out
  exact step_corresponds correspondence_eq (fun _ => rfl) (c := ⟨id, value, f⟩) hbelow out

/-- **There is no other solution**, by induction along the chains of evaluations. -/
theorem eq_settled_of_eq_step (hp : p.IsBuiltin) {eval : Evaluator Id}
    (h : eval = p.step (fun _ => pure ()) eval) : eval = p.settled := by
  have hcall : ∀ c : Call, ∀ out, eval c.node c.value c.frame out
      = p.settled c.node c.value c.frame out := by
    intro c
    induction c using (wellFounded_nests hp).induction with
    | _ c ih =>
      intro out
      rw [h, settled_eq_step hp]
      exact step_corresponds correspondence_eq (fun _ => rfl) (fun c' hnests => ih c' hnests) out
  funext id value f out
  exact hcall ⟨id, value, f⟩ out

/-- The settled evaluation pushes what is found. -/
theorem pushes_settled (hp : p.IsBuiltin) : Pushes p.settled p.found :=
  fun id value f out => evaluate_of_need hp id value f 0 out

/-- **What is found in an evaluation**, by what is found inside it. -/
theorem found_eq (hp : p.IsBuiltin) (id : NodeId) (value : Json) (f : Frame) :
    p.found id value f
      = if p.maxDepth < f.depth then [p.depthError f]
        else
          match p.nodes[id]? with
          | some node => keywordErrors p.found value f node.keywords
          | none => [] := by
  have hpushes := pushes_settled hp
  have hstep := congrFun (congrFun (congrFun (congrFun (settled_eq_step hp) id) value) f)
    (.empty false)
  rw [hpushes, Report.pushAll_collecting rfl] at hstep
  have herrors := congrArg Report.errors hstep
  refine herrors.trans ?_
  unfold step
  by_cases hdepth : p.maxDepth < f.depth
  · rw [if_pos hdepth, if_pos hdepth]
    rfl
  · rw [if_neg hdepth, if_neg hdepth]
    cases p.nodes[id]? with
    | none => rfl
    | some node =>
      dsimp only
      rw [runKeywords_eq_pushAll hpushes, Report.pushAll_collecting rfl]
      rfl

theorem report_eq_settled (hp : p.IsBuiltin) (failFast : Bool) (value : Json) :
    p.report failFast value = p.settled p.root value .root (.empty failFast) :=
  evaluate_eq_settled hp (need_le_budget p value) _

end Program

/-! ## 4. Termination -/

/-- **Evaluation terminates.** In a program of built-in keywords, compiled from any graph, with any
    limit of depth: an evaluation inside another is about the same value one level deeper, or about a
    part of the value at the first level, which is a smaller value; the height of the value, then the
    levels that are left, get smaller, so there is no endless chain. In a validation no evaluation is
    more than one level beyond the limit, and no more of them lie inside each other than its budget.
    And the evaluator's equation, without fuel, has one solution, which is the outcome of every
    validation and every short verdict. -/
theorem Compiler.evaluation_terminates [Pattern.Library] {c : Compiler} (hc : c.registry.IsBuiltin)
    {g : Graph} {start : NodeId} {p : Program} (hp : c.compile g start = .ok p) :
    (∀ a b, p.Nests a b → a.frame.depth ≤ p.maxDepth ∧
      ((b.value = a.value ∧ b.frame.depth = a.frame.depth + 1) ∨
        (b.value.Part a.value ∧ b.value.height < a.value.height ∧ b.frame.depth = 0)) ∧
      Prod.Lex (· < ·) (· < ·) (p.measure b) (p.measure a)) ∧
    WellFounded (fun b a => p.Nests a b) ∧
    (∀ failFast value, ∀ a ∈ p.calls failFast value,
      Relation.ReflTransGen p.Nests (p.rootCall value) a) ∧
    (∀ value a, Relation.ReflTransGen p.Nests (p.rootCall value) a →
      a.frame.depth ≤ p.maxDepth + 1) ∧
    (∀ value chain, List.IsChain p.Nests (p.rootCall value :: chain) →
      chain.length < p.budget value) ∧
    ∃ eval : Evaluator Id, eval = p.step (fun _ => pure ()) eval ∧
      (∀ other : Evaluator Id, other = p.step (fun _ => pure ()) other → other = eval) ∧
      ∀ value, (Validator.mk p).validate value
          = (eval p.root value .root (.empty p.failFast)).outcome ∧
        (Validator.mk p).isValid value = (eval p.root value .root (.empty true)).isEmpty := by
  have hbuiltin := isBuiltin_of_registry hc hp
  refine ⟨fun a b hnests => ⟨hnests.depth_le, ?_, hnests.lex_measure hbuiltin⟩,
    Program.wellFounded_nests hbuiltin, fun _ _ _ => Program.reached_of_mem_calls,
    fun _ _ => Program.depth_le_of_chain hbuiltin, fun value chain hchain => ?_,
    p.settled, Program.settled_eq_step hbuiltin, fun _ => Program.eq_settled_of_eq_step hbuiltin,
    fun value => ⟨?_, ?_⟩⟩
  · rcases hnests.stays_or_descends hbuiltin with hstays | ⟨hpart, hzero⟩
    · exact Or.inl hstays
    · exact Or.inr ⟨hpart, hpart.height_lt, hzero⟩
  · have hlength := Program.length_lt_need hbuiltin hchain
    exact Nat.lt_of_lt_of_le hlength (p.need_le_budget value)
  · show (p.report p.failFast value).outcome = _
    rw [Program.report_eq_settled hbuiltin]
  · show (p.report true value).isEmpty = _
    rw [Program.report_eq_settled hbuiltin]

/-- A schema that comes back to itself at the same place of the instance. -/
def roundabout : Json :=
  .object [("anyOf", .array [.object [("$ref", .string "#")]])]

/-- With a limit of two it goes round up to the third level, where the limit ends it. -/
theorem Compiler.evaluation_terminates_roundabout :
    ∃ g p, Graph.ofDocument roundabout = .ok g ∧
      (builtin { Options.default with maxDepth := 2 }).compile g g.root = .ok p ∧
      WellFounded (fun b a => p.Nests a b) ∧
      (∃ a ∈ p.calls false (.object []), a.frame.depth = 3) ∧
      ∀ a ∈ p.calls false (.object []), a.frame.depth ≤ p.maxDepth + 1 := by
  have hall : ((Graph.ofDocument roundabout).toOption.any fun g =>
      ((builtin { Options.default with maxDepth := 2 }).compile g g.root).toOption.any fun p =>
        (p.calls false (.object [])).any fun a => a.frame.depth == 3) = true := by
    decide +kernel
  obtain ⟨g, hg, hall⟩ := any_toOption_eq_true.mp hall
  obtain ⟨p, hp, hall⟩ := any_toOption_eq_true.mp hall
  obtain ⟨a, ha, hdepth⟩ := List.any_eq_true.mp hall
  obtain ⟨_, hwellFounded, hcalls, hlimit, _⟩ :=
    evaluation_terminates Registry.isBuiltin_default hp
  exact ⟨g, p, hg, hp, hwellFounded, ⟨a, ha, beq_iff_eq.mp hdepth⟩,
    fun b hb => hlimit _ b (hcalls _ _ b hb)⟩

end TaggedSchema
