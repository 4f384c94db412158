import TaggedSchema.Program.Evaluation
import TaggedSchema.Proofs.Report

/-!
# What an evaluation finds

An evaluation is written as a function from reports to reports. This file gives the errors it finds
as a plain list (`Program.errors`): what a node has against a value in a frame, whatever report it
is evaluated into. The main fact is `Program.evaluate_eq_pushAll`: evaluating is pushing that list,
on every report, in either mode and however full. It needs nothing of the keywords: a dialogue with
the evaluator cannot tell a fail-fast report from a collecting one before the report is full, and
what it does afterwards is dropped.

The list is defined along the rules, with no report in it, so it is also what later files reason
about.
-/

namespace TaggedSchema

/-- What schemas have against values, by node, value and frame. -/
abbrev Finder := NodeId → Json → Frame → List ValidationError

/-! ## 1. Dialogues -/

/-- The errors of a dialogue whose report is never full. -/
def Dialogue.errors (find : Finder) (keyword : String) (f : Frame) :
    Dialogue → List ValidationError
  | .done => []
  | .report message next => f.error keyword message :: errors find keyword f next
  | .evaluate place request next =>
    let found := find request.schema request.value (f.requested keyword place request.segment)
    found ++ errors find keyword f (next found.isEmpty)
  | .test request next =>
    let found := find request.schema request.value (f.requested keyword (.own none) request.segment)
    errors find keyword f (next found.isEmpty)
  | .whenFull next => errors find keyword f (next false)
  | .locate next => errors find keyword f (next f.instancePath)
  | .note _ next => errors find keyword f next

namespace Rule

/-! ## 2. Rules -/

/-- The errors of properties that are missing. -/
def requiredErrors (f : Frame) (keyword : String) (members : List (String × Json))
    (names : List String) : List ValidationError :=
  (names.filter fun name => !(members.lookup name).isSome).map fun name =>
    f.error keyword ("must have required property '" ++ name ++ "'")

/-- The errors of the properties that are present. -/
def propertyErrors (find : Finder) (f : Frame) (keyword : String)
    (members : List (String × Json)) (entries : List (String × NodeId)) : List ValidationError :=
  entries.flatMap fun entry =>
    match members.lookup entry.1 with
    | some value => find entry.2 value (f.descended entry.1 [keyword, entry.1])
    | none => []

/-- The errors of each schema of a list, from a position on. -/
def branchErrors (find : Finder) (f : Frame) (keyword : String) (value : Json) (start : Nat)
    (schemas : List NodeId) : List (List ValidationError) :=
  (schemas.zipIdx start).map fun (schema, index) =>
    find schema value (f.nested [keyword, Nat.repr index])

/-- The errors of `anyOf`, by those of its schemas. -/
def anyOfErrors (f : Frame) (keyword : String) (found : List (List ValidationError)) :
    List ValidationError :=
  if found.any List.isEmpty then []
  else found.flatten ++ [f.error keyword "must match a schema in anyOf"]

/-- The errors of `oneOf`, by those of its branches. -/
def oneOfErrors (f : Frame) (keyword : String) (found : List (List ValidationError)) :
    List ValidationError :=
  let matched := (found.filter List.isEmpty).length
  if matched = 1 then []
  else
    (if matched = 0 then found.flatten else []) ++ [f.error keyword
      ("must match exactly one schema in oneOf (matched " ++ Nat.repr matched ++ ")")]

/-- The errors of a dispatch. -/
def dispatchErrors (find : Finder) (f : Frame) (keyword : String) (d : Discriminator)
    (branches : List NodeId) (typeChecked : Bool) (value : Json) : List ValidationError :=
  let error (f : Frame) (message : String) : List ValidationError :=
    [f.error "discriminator" message]
  let atTag : Frame := { f with instancePath := f.instancePath.join d.property }
  match value with
  | .object members =>
    match members.lookup d.property with
    | none => error f ("tag \"" ++ d.property ++ "\" must be present")
    | some raw =>
      match Tag.ofJson? raw with
      | none => error atTag ("tag \"" ++ d.property ++ "\" must be string, number or boolean")
      | some tag =>
        match d.branchFor? tag with
        | none => error atTag ("value of tag \"" ++ d.property ++ "\" must be in oneOf")
        | some index =>
          match branches[index]? with
          | some branch => find branch value (f.nested [keyword, Nat.repr index])
          | none => []
  | _ => if typeChecked then [] else error f "must be object"

/-- What a keyword has against a value. -/
def errors (find : Finder) (keyword : String) (value : Json) (f : Frame) :
    Rule → List ValidationError
  | never => [⟨f.instancePath, f.schemaPath, keyword, "boolean schema is false"⟩]
  | type types =>
    if types.any (·.accepts value) then []
    else [f.error keyword ("must be " ++ ",".intercalate (types.map InstanceType.name))]
  | const expected =>
    if value.sameValue expected then [] else [f.error keyword "must be equal to constant"]
  | enum allowed =>
    if allowed.any value.sameValue then []
    else [f.error keyword "must be equal to one of the allowed values"]
  | required names =>
    match value with
    | .object members => requiredErrors f keyword members names
    | _ => []
  | properties entries =>
    match value with
    | .object members => propertyErrors find f keyword members entries
    | _ => []
  | ref target => find target value (f.nested [keyword])
  | allOf schemas => (branchErrors find f keyword value 0 schemas).flatten
  | anyOf schemas => anyOfErrors f keyword (branchErrors find f keyword value 0 schemas)
  | oneOf branches => oneOfErrors f keyword (branchErrors find f keyword value 0 branches)
  | dispatch d branches typeChecked =>
    dispatchErrors find f keyword d branches typeChecked value
  | assertion act => (act value).errors find keyword f

end Rule

namespace Program

/-! ## 3. Programs -/

/-- The errors of the rules of a node. -/
def keywordErrors (find : Finder) (value : Json) (f : Frame) (keywords : List CompiledKeyword) :
    List ValidationError :=
  keywords.flatMap fun keyword => keyword.rule.errors find keyword.name value f

/-- What a node has against a value, within a number of evaluations inside each other. -/
def errors (p : Program) : Nat → Finder
  | 0 => fun _ _ f => [p.depthError f]
  | fuel + 1 => fun id value f =>
    if p.maxDepth < f.depth then [p.depthError f]
    else
      match p.nodes[id]? with
      | some node => keywordErrors (p.errors fuel) value f node.keywords
      | none => []

end Program

/-! ## 4. Evaluating is pushing -/

/-- An evaluator that pushes, on every report, what a finder finds. -/
def Pushes (eval : Evaluator Id) (find : Finder) : Prop :=
  ∀ id value f out, eval id value f out = out.pushAll (find id value f)

namespace Rule

variable {eval : Evaluator Id} {find : Finder}

/-- **A dialogue pushes its errors.** On a full report nothing counts any more; on any other the
    answers it gets are those of a report that is never full. -/
theorem converse_eq_pushAll (h : Pushes eval find) (keyword : String) (f : Frame) (d : Dialogue)
    (out : Report) :
    converse (fun _ => (pure () : Id Unit)) eval keyword f d out
      = out.pushAll (d.errors find keyword f) := by
  induction d generalizing out with
  | done => rfl
  | report message next ih => exact ih _
  | evaluate place request next ih =>
    have hstep := h request.schema request.value (f.requested keyword place request.segment) out
    simp only [converse, Dialogue.errors, Report.pushAll_append]
    show converse _ eval keyword f (next ((eval _ _ _ out).size == out.size)) (eval _ _ _ out) = _
    rw [hstep, ih]
    by_cases hfull : out.isFull = true
    · simp only [Report.pushAll_full hfull]
    · rw [Report.size_pushAll_beq (by simpa using hfull)]
  | test request next ih =>
    simp only [converse, Dialogue.errors]
    show converse _ eval keyword f (next (eval _ _ _ (.empty true)).isEmpty) out = _
    rw [h, Report.isEmpty_empty_pushAll, ih]
  | whenFull next ih =>
    show converse _ eval keyword f (next out.isFull) out = _
    rw [ih]
    by_cases hfull : out.isFull = true
    · simp only [Report.pushAll_full hfull]
    · rw [Bool.not_eq_true] at hfull
      rw [hfull]
      rfl
  | locate next ih => exact ih _ out
  | note label next ih => exact ih out

theorem runRequired_eq_pushAll (f : Frame) (keyword : String) (members : List (String × Json))
    (names : List String) (out : Report) :
    runRequired f keyword members names out
      = out.pushAll (requiredErrors f keyword members names) := by
  unfold runRequired requiredErrors
  induction names generalizing out with
  | nil => rfl
  | cons name names ih =>
    rw [List.foldl_cons, ih, List.filter_cons]
    by_cases hpresent : (members.lookup name).isSome = true
    · rw [if_pos hpresent, hpresent]
      rfl
    · rw [if_neg hpresent, Bool.eq_false_iff.mpr hpresent]
      rfl

theorem runProperties_eq_pushAll (h : Pushes eval find) (f : Frame) (keyword : String)
    (members : List (String × Json)) (entries : List (String × NodeId)) (out : Report) :
    runProperties eval f keyword members entries out
      = out.pushAll (propertyErrors find f keyword members entries) := by
  induction entries generalizing out with
  | nil => rfl
  | cons entry rest ih =>
    obtain ⟨name, schema⟩ := entry
    unfold runProperties
    by_cases hfull : out.isFull = true
    · rw [if_pos hfull, Report.pushAll_full hfull]
      rfl
    · rw [if_neg hfull, propertyErrors, List.flatMap_cons, Report.pushAll_append]
      cases members.lookup name with
      | none => exact ih out
      | some value =>
        show runProperties eval f keyword members rest (eval _ _ _ out) = _
        rw [h, ih]
        rfl

theorem runAll_eq_pushAll (h : Pushes eval find) (f : Frame) (keyword : String) (value : Json)
    (schemas : List NodeId) (start : Nat) (out : Report) :
    runAll eval f keyword value start schemas out
      = out.pushAll (branchErrors find f keyword value start schemas).flatten := by
  induction schemas generalizing start out with
  | nil => rfl
  | cons schema rest ih =>
    unfold runAll
    by_cases hfull : out.isFull = true
    · rw [if_pos hfull, Report.pushAll_full hfull]
      rfl
    · rw [if_neg hfull, branchErrors, List.zipIdx_cons, List.map_cons, List.flatten_cons,
        Report.pushAll_append]
      show runAll eval f keyword value (start + 1) rest (eval _ _ _ out) = _
      rw [h, ih]
      rfl

/-- Trying schemas on scratch reports finds whether one holds, and otherwise what each reports. -/
theorem tryUntil_eq (h : Pushes eval find) (f : Frame) (keyword : String) (value : Json)
    (failFast : Bool) (schemas : List NodeId) (start : Nat) :
    tryUntil eval f keyword value (.empty failFast) start schemas
      = if (branchErrors find f keyword value start schemas).any List.isEmpty then none
        else some ((branchErrors find f keyword value start schemas).map
          (Report.empty failFast).pushAll) := by
  induction schemas generalizing start with
  | nil => rfl
  | cons schema rest ih =>
    unfold tryUntil
    rw [branchErrors, List.zipIdx_cons, List.map_cons, List.any_cons, List.map_cons]
    show (if (eval _ _ _ (.empty failFast)).isEmpty = true then none
      else (tryUntil eval f keyword value _ (start + 1) rest).map _) = _
    rw [h, Report.isEmpty_empty_pushAll, ih]
    by_cases hempty :
        (find schema value (f.nested [keyword, Nat.repr start])).isEmpty = true
    · rw [if_pos hempty, hempty, Bool.true_or, if_pos rfl]
    · rw [if_neg hempty, Bool.eq_false_iff.mpr hempty, Bool.false_or, branchErrors]
      split <;> rfl

theorem tryAll_eq (h : Pushes eval find) (f : Frame) (keyword : String) (value : Json)
    (failFast : Bool) (branches : List NodeId) (start : Nat) :
    tryAll eval f keyword value (.empty failFast) start branches
      = (branchErrors find f keyword value start branches).map (Report.empty failFast).pushAll := by
  induction branches generalizing start with
  | nil => rfl
  | cons branch rest ih =>
    unfold tryAll
    rw [branchErrors, List.zipIdx_cons, List.map_cons, List.map_cons, ← h]
    show eval _ _ _ _ :: tryAll eval f keyword value _ (start + 1) rest = _
    rw [ih]
    rfl

theorem runAnyOf_eq_pushAll (h : Pushes eval find) (f : Frame) (keyword : String) (value : Json)
    (schemas : List NodeId) (out : Report) :
    runAnyOf eval f keyword value schemas out
      = out.pushAll (anyOfErrors f keyword (branchErrors find f keyword value 0 schemas)) := by
  unfold runAnyOf anyOfErrors
  have htry := tryUntil_eq h f keyword value out.failFast schemas 0
  rw [Report.scratch, htry]
  split
  · rfl
  · rw [Report.pushAll_append, ← Report.foldl_absorb_scratch]
    rfl

theorem runOneOf_eq_pushAll (h : Pushes eval find) (f : Frame) (keyword : String) (value : Json)
    (branches : List NodeId) (out : Report) :
    runOneOf eval f keyword value branches out
      = out.pushAll (oneOfErrors f keyword (branchErrors find f keyword value 0 branches)) := by
  unfold runOneOf oneOfErrors
  have htry := tryAll_eq h f keyword value out.failFast branches 0
  have hmatched (found : List (List ValidationError)) :
      ((found.map (Report.empty out.failFast).pushAll).filter Report.isEmpty).length
        = (found.filter List.isEmpty).length := by
    rw [List.filter_map, List.length_map]
    congr 2
    funext es
    exact Report.isEmpty_empty_pushAll _ es
  rw [Report.scratch, htry]
  show (if _ = 1 then out else _) = out.pushAll (if _ = 1 then [] else _)
  rw [hmatched]
  split
  · rfl
  · rw [Report.pushAll_append, Report.pushAll_singleton]
    split
    · rw [← Report.foldl_absorb_scratch]
      rfl
    · rfl

theorem runDispatch_eq_pushAll (h : Pushes eval find) (f : Frame) (keyword : String)
    (d : Discriminator) (branches : List NodeId) (typeChecked : Bool) (value : Json)
    (out : Report) :
    runDispatch eval f keyword d branches typeChecked value out
      = out.pushAll (dispatchErrors find f keyword d branches typeChecked value) := by
  unfold runDispatch dispatchErrors
  cases value with
  | object members =>
    dsimp only
    cases members.lookup d.property with
    | none => rfl
    | some raw =>
      dsimp only
      cases Tag.ofJson? raw with
      | none => rfl
      | some tag =>
        dsimp only
        cases d.branchFor? tag with
        | none => rfl
        | some index =>
          dsimp only
          cases branches[index]? with
          | none => rfl
          | some branch => exact h _ _ _ _
  | _ => cases typeChecked <;> rfl

/-- **A rule pushes its errors.** -/
theorem run_eq_pushAll (h : Pushes eval find) (keyword : String) (value : Json) (f : Frame)
    (out : Report) (rule : Rule) :
    rule.run (fun _ => (pure () : Id Unit)) eval keyword value f out
      = out.pushAll (rule.errors find keyword value f) := by
  cases rule with
  | never => rfl
  | type types =>
    simp only [run, errors]
    split <;> rfl
  | const expected =>
    simp only [run, errors]
    split <;> rfl
  | enum allowed =>
    simp only [run, errors]
    split <;> rfl
  | required names =>
    cases value with
    | object members => exact runRequired_eq_pushAll f keyword members names out
    | _ => rfl
  | properties entries =>
    cases value with
    | object members => exact runProperties_eq_pushAll h f keyword members entries out
    | _ => rfl
  | ref target => exact h _ _ _ _
  | allOf schemas => exact runAll_eq_pushAll h f keyword value schemas 0 out
  | anyOf schemas => exact runAnyOf_eq_pushAll h f keyword value schemas out
  | oneOf branches => exact runOneOf_eq_pushAll h f keyword value branches out
  | dispatch d branches typeChecked =>
    exact runDispatch_eq_pushAll h f keyword d branches typeChecked value out
  | assertion act => exact converse_eq_pushAll h keyword f (act value) out

end Rule

namespace Program

theorem runKeywords_eq_pushAll {eval : Evaluator Id} {find : Finder} (h : Pushes eval find)
    (value : Json) (f : Frame) (keywords : List CompiledKeyword) (out : Report) :
    runKeywords (fun _ => (pure () : Id Unit)) eval value f keywords out
      = out.pushAll (keywordErrors find value f keywords) := by
  induction keywords generalizing out with
  | nil => rfl
  | cons keyword rest ih =>
    unfold runKeywords
    by_cases hfull : out.isFull = true
    · rw [if_pos hfull, Report.pushAll_full hfull]
      rfl
    · rw [if_neg hfull, keywordErrors, List.flatMap_cons, Report.pushAll_append]
      show runKeywords _ eval value f rest (keyword.rule.run _ eval keyword.name value f out) = _
      rw [Rule.run_eq_pushAll h, ih]
      rfl

/-- **Evaluating a node is pushing what it has against the value**, whatever report it is evaluated
    into. -/
theorem evaluate_eq_pushAll (p : Program) (fuel : Nat) :
    Pushes (p.evaluate fuel) (p.errors fuel) := by
  induction fuel with
  | zero => exact fun _ _ _ _ => rfl
  | succ fuel ih =>
    intro id value f out
    show (if p.maxDepth < f.depth then _ else _)
      = out.pushAll (if p.maxDepth < f.depth then _ else _)
    split
    · rfl
    · cases p.nodes[id]? with
      | none => rfl
      | some node => exact runKeywords_eq_pushAll ih value f node.keywords out

/-- The report on an instance holds what the root has against it. -/
theorem report_eq_pushAll (p : Program) (failFast : Bool) (value : Json) :
    p.report failFast value
      = (Report.empty failFast).pushAll (p.errors (p.budget value) p.root value .root) :=
  evaluate_eq_pushAll p _ _ _ _ _

end Program

end TaggedSchema
