import TaggedSchema.Proofs.Compilation
import TaggedSchema.Proofs.Congruence
import TaggedSchema.Proofs.Entries
import TaggedSchema.Validator

/-!
# Fail-fast validation

Of the built-in keywords none looks at the mode of the report, so the two modes find the same: a
fail-fast report is the first error of a full one. This file fixes that for whole validators, and
for the evaluation of any node into any report.

On the way it settles how many evaluations lie inside each other. Staying at a value counts against
the limit of depth, descending lowers the value (`Evaluates`), so a number of evaluations that is
read off value and depth is enough (`Program.need`); beyond it more change nothing
(`Program.errors_of_need`), and a whole validation has it (`Program.need_le_budget`).
-/

namespace TaggedSchema

/-! ## 1. Programs of built-in keywords -/

/-- Whatever a rule leaves to a plugin is a built-in check. -/
def Rule.IsBuiltin : Rule → Prop
  | .assertion act => ∃ c : Check, act = c.run
  | _ => True

/-- All rules of a program are built in. -/
def Program.IsBuiltin (p : Program) : Prop :=
  ∀ (id : NodeId) (node : CompiledNode), p.nodes[id]? = some node →
    ∀ keyword ∈ node.keywords, keyword.rule.IsBuiltin

/-- Every plugin of the registry is one of the built-in ones, under whatever name. -/
def Registry.IsBuiltin [Pattern.Library] (r : Registry) : Prop :=
  ∀ (name : String) (plugin : Plugin), r.find? name = some plugin →
    ∃ entry ∈ Builtin.keywords, plugin = Builtin.plugin entry.2

/-- What the default registry finds are built-in keywords under their own names. -/
theorem Registry.exists_compile_of_find? [Pattern.Library] {name : String} {plugin : Plugin}
    (h : Registry.default.find? name = some plugin) :
    ∃ compile, (name, compile) ∈ Builtin.keywords ∧ plugin = Builtin.plugin compile := by
  obtain ⟨⟨_, compile⟩, hbuiltin, he⟩ := List.mem_map.mp (mem_of_lookup h)
  cases he
  exact ⟨compile, hbuiltin, rfl⟩

theorem Registry.isBuiltin_default [Pattern.Library] : Registry.default.IsBuiltin := by
  intro name plugin h
  obtain ⟨compile, hbuiltin, he⟩ := exists_compile_of_find? h
  exact ⟨(name, compile), hbuiltin, he⟩

/-- What a built-in plugin does is the check that its keyword compiles to. -/
theorem Builtin.exists_check_of_plugin
    {compile : Occurrence → Except SchemaError (Option Check)} {occurrence : Occurrence}
    {act : Assertion} (h : plugin compile occurrence = .ok (some act)) :
    ∃ check, compile occurrence = .ok (some check) ∧ act = Check.run check := by
  obtain ⟨check, hcheck, hrun⟩ := bind_pure_eq_ok.mp h
  cases check with
  | none => cases hrun
  | some check => exact ⟨check, hcheck, (Option.some.inj hrun).symm⟩

/-- What a plugin of the default registry does is a check of the built-in keyword of its name. -/
theorem Registry.exists_check_of_find? [Pattern.Library] {name : String} {plugin : Plugin}
    (h : Registry.default.find? name = some plugin) {written : Json} {id : NodeId} {n : Node}
    {g : Graph} {act : Assertion} (hact : plugin ⟨name, written, id, n, g⟩ = .ok (some act)) :
    ∃ compile check, (name, compile) ∈ Builtin.keywords ∧
      compile ⟨name, written, id, n, g⟩ = .ok (some check) ∧ act = check.run := by
  obtain ⟨compile, hmem, rfl⟩ := exists_compile_of_find? h
  obtain ⟨check, hcheck, hrun⟩ := Builtin.exists_check_of_plugin hact
  exact ⟨compile, check, hmem, hcheck, hrun⟩

namespace Compiler

variable {c : Compiler} {o : Options} {g : Graph}

variable [Pattern.Library]

theorem isBuiltin_of_keywordRule (hc : c.registry.IsBuiltin) {id : NodeId} {n : Node}
    {d : Option Discriminator} {name : String} {value : Json} {rule : Rule}
    (h : c.keywordRule g id n d name value = .ok (some rule)) : rule.IsBuiltin := by
  rcases keywordRule_cases h with ⟨core, _, hcore⟩ | ⟨_, hnone⟩ | ⟨_, act, _, hplugin, hact, hrule⟩
  · cases hcore <;> trivial
  · cases hnone
  · cases act with
    | none => cases hrule
    | some act =>
      cases hrule
      obtain ⟨entry, _, rfl⟩ := hc _ _ hplugin
      obtain ⟨check, _, hrun⟩ := Builtin.exists_check_of_plugin hact
      exact ⟨check, hrun⟩

/-- A compiler whose plugins are built in makes programs of built-in keywords. -/
theorem isBuiltin_of_registry (hc : c.registry.IsBuiltin) {root : NodeId} {p : Program}
    (h : c.compile g root = .ok p) : p.IsBuiltin := by
  intro id node hnode keyword hk
  obtain ⟨_, n, _, hcompiled⟩ := compileNode_of_keyword h hnode hk
  rcases keywordRule_of_compileNode hcompiled hk with hnever | ⟨_, _, _, _, hrule⟩
  · rw [hnever]
    trivial
  · exact isBuiltin_of_keywordRule hc hrule

/-- The compiler of the built-in keywords makes programs of built-in keywords. -/
theorem isBuiltin_of_compile {root : NodeId} {p : Program}
    (h : (builtin o).compile g root = .ok p) : p.IsBuiltin :=
  isBuiltin_of_registry Registry.isBuiltin_default h

end Compiler

/-! ## 2. How far evaluations go -/

/-- What the evaluation of a value in a frame may go on to: the same value one level deeper, or a
    part of it with the count of levels started again. -/
inductive Evaluates (value : Json) (f : Frame) : Json → Frame → Prop where
  | nested {f' : Frame} (h : f'.depth = f.depth + 1) : Evaluates value f value f'
  | descended {part : Json} {f' : Frame} (h : part.Part value) (hdepth : f'.depth = 0) :
      Evaluates value f part f'

theorem Rule.within_evaluates {rule : Rule} (h : rule.IsBuiltin) (keyword : String) (value : Json)
    (f : Frame) : rule.Within (fun _ v f' => Evaluates value f v f') keyword value f := by
  cases rule with
  | properties entries =>
    rintro members rfl name schema part _ hpart
    exact .descended (.member (mem_of_lookup hpart)) rfl
  | assertion act =>
    obtain ⟨c, rfl⟩ := h
    refine (c.run_within value).mono fun r hr place => ?_
    unfold Request.About at hr
    unfold Frame.requested
    cases hsegment : r.segment with
    | none =>
      rw [hsegment] at hr
      dsimp only at hr
      rw [hr]
      exact .nested rfl
    | some segment =>
      rw [hsegment] at hr
      exact .descended hr rfl
  | ref target => exact .nested rfl
  | allOf schemas => exact fun _ _ _ => .nested rfl
  | anyOf schemas => exact fun _ _ _ => .nested rfl
  | oneOf branches => exact fun _ _ _ => .nested rfl
  | dispatch d branches typeChecked => exact fun _ _ _ => .nested rfl
  | _ => trivial

namespace Program

/-- The number of evaluations inside each other that is enough for a value in a frame. -/
def need (p : Program) (value : Json) (f : Frame) : Nat :=
  value.height * (p.maxDepth + 2) + (p.maxDepth + 1 - f.depth) + 1

/-- Each evaluation inside another needs less, as long as the limit of depth is kept. -/
theorem need_lt {p : Program} {value part : Json} {f f' : Frame} (h : Evaluates value f part f')
    (hdepth : f.depth ≤ p.maxDepth) : p.need part f' < p.need value f := by
  unfold need
  cases h with
  | nested h => omega
  | descended h hzero =>
    have hheight : (part.height + 1) * (p.maxDepth + 2) ≤ value.height * (p.maxDepth + 2) :=
      Nat.mul_le_mul_right _ h.height_lt
    rw [Nat.add_mul] at hheight
    omega

/-- **A whole validation has the evaluations it needs.** -/
theorem need_le_budget (p : Program) (value : Json) : p.need value .root ≤ p.budget value := by
  have hneed : p.need value .root = (value.height + 1) * (p.maxDepth + 2) := by
    unfold need
    rw [Nat.add_mul]
    have : Frame.root.depth = 0 := rfl
    omega
  rw [hneed]
  exact Nat.le_mul_of_pos_right _ (Nat.succ_pos _)

/-- **Beyond what is needed, more evaluations find the same.** -/
theorem errors_of_need {p : Program} (hp : p.IsBuiltin) {fuel fuel' : Nat} {id : NodeId}
    {value : Json} {f : Frame} (h : p.need value f ≤ fuel) (h' : p.need value f ≤ fuel') :
    p.errors fuel id value f = p.errors fuel' id value f := by
  induction fuel generalizing fuel' id value f with
  | zero => exact absurd h (Nat.not_succ_le_zero _)
  | succ fuel ih =>
    cases fuel' with
    | zero => exact absurd h' (Nat.not_succ_le_zero _)
    | succ fuel' =>
      simp only [errors]
      split
      · rfl
      next hdepth =>
        cases hnode : p.nodes[id]? with
        | none => rfl
        | some node =>
          refine keywordErrors_rel agreement_eq (List.forall₂_same.mpr fun keyword hkeyword => ?_)
          refine Rule.errors_rel agreement_eq (fun schema part f' hpart => ?_)
            (Rule.within_evaluates (hp id node hnode keyword hkeyword) keyword.name value f)
          have hlt := need_lt hpart (Nat.le_of_not_lt hdepth)
          exact ih (Nat.le_of_lt_succ (Nat.lt_of_lt_of_le hlt h))
            (Nat.le_of_lt_succ (Nat.lt_of_lt_of_le hlt h'))

/-! ## 3. Both modes -/

/-- The errors of a node on a value in a frame, whatever report they are meant for. -/
def found (p : Program) : Finder := fun id value f => p.errors (p.need value f) id value f

theorem errors_failFast (p : Program) (failFast : Bool) (fuel : Nat) :
    Program.errors { p with failFast } fuel = p.errors fuel := by
  induction fuel with
  | zero => rfl
  | succ fuel ih =>
    funext id value f
    simp only [errors]
    rw [ih]
    rfl

theorem found_failFast (p : Program) (failFast : Bool) :
    Program.found { p with failFast } = p.found := by
  funext id value f
  exact congrFun (congrFun (congrFun (errors_failFast p failFast _) id) value) f

/-- Evaluating a node pushes what is found there, once there are enough evaluations. -/
theorem evaluate_of_need {p : Program} (hp : p.IsBuiltin) (id : NodeId) (value : Json) (f : Frame)
    (extra : Nat) (out : Report) :
    p.evaluate (p.need value f + extra) id value f out = out.pushAll (p.found id value f) := by
  rw [evaluate_eq_pushAll]
  exact congrArg _ (errors_of_need hp (Nat.le_add_right _ _) (Nat.le_refl _))

theorem report_of_found {p : Program} (hp : p.IsBuiltin) (failFast : Bool) (value : Json) :
    p.report failFast value = (Report.empty failFast).pushAll (p.found p.root value .root) := by
  rw [report_eq_pushAll]
  exact congrArg _ (errors_of_need hp (need_le_budget p value) (Nat.le_refl _))

end Program

namespace Validator

/-- One error is enough for the verdict. -/
theorem isValid_eq_valid (v : Validator) (value : Json) :
    v.isValid value = (v.validate value).valid := by
  unfold isValid validate Report.outcome
  rw [Program.report_eq_pushAll, Program.report_eq_pushAll, Report.isEmpty_empty_pushAll,
    Report.isEmpty_empty_pushAll]

end Validator

/-- **A fail-fast validator reports the first error of the full one.** The two validators of a
    schema compile alike, agree with their own short verdict, and evaluate every node alike: into a
    collecting report everything that is found, behind what is there, into an empty fail-fast report
    the first of it, and into any other nothing. -/
theorem Compiler.failFast_reports_first [Pattern.Library] (o : Options)
    (g : Except ResolutionError Graph) :
    match (builtin { o with failFast := false }).validatorOf g,
      (builtin { o with failFast := true }).validatorOf g with
    | .ok full, .ok fast =>
      (∀ value, (fast.validate value).errors = (full.validate value).errors.take 1) ∧
      (∀ v ∈ [full, fast], ∀ value, v.isValid value = (v.validate value).valid) ∧
      ∃ errors : Finder, ∀ v ∈ [full, fast], ∀ id value f extra out,
        v.program.evaluate (v.program.need value f + extra) id value f out
          = if out.failFast then
              (if out.isEmpty then ⟨true, (errors id value f).take 1⟩ else out)
            else ⟨false, out.errors ++ errors id value f⟩
    | .error e, .error e' => e = e'
    | _, _ => False := by
  cases g with
  | error e => rfl
  | ok g =>
    have hfast := compile_failFast .default { o with failFast := false } true g g.root
    simp only [validatorOf, builtin]
    rw [hfast]
    cases hfull : (Compiler.mk .default { o with failFast := false }).compile g g.root with
    | error e => rfl
    | ok p =>
      have hp := isBuiltin_of_compile hfull
      have hmode : p.failFast = false := by
        obtain ⟨_, _, _, rfl⟩ := compile_eq_ok_iff.mp hfull
        rfl
      have hboth : ∀ v ∈ [Validator.mk p, Validator.mk { p with failFast := true }],
          v.program.IsBuiltin ∧ v.program.found = p.found := by
        intro v hv
        rcases List.mem_cons.mp hv with rfl | hv
        · exact ⟨hp, rfl⟩
        · cases List.mem_singleton.mp hv
          exact ⟨hp, Program.found_failFast p true⟩
      refine ⟨fun value => ?_, fun v _ => v.isValid_eq_valid, p.found,
        fun v hv id value f extra out => ?_⟩
      · have hreport := Program.report_of_found (p := { p with failFast := true }) hp true value
        show (Program.report { p with failFast := true } true value).errors
          = ((p.report p.failFast value).errors).take 1
        rw [hreport, hmode, Program.report_of_found hp, Program.found_failFast,
          Report.pushAll_empty_failFast, Report.pushAll_collecting rfl]
        rfl
      · obtain ⟨hbuiltin, hfound⟩ := hboth v hv
        rw [Program.evaluate_of_need hbuiltin, hfound, Report.pushAll_eq]

end TaggedSchema
