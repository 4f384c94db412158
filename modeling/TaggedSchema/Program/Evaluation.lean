import TaggedSchema.Program
import TaggedSchema.Report

/-!
# Evaluating a program

A node is evaluated on a value in a frame: where the value stands in the instance, on which way the
node was reached in the schema, and how many nested evaluations lie between here and the place where
the instance was last descended into. Its rules run in order and add to a report, until it is full.

Descending into a member or item starts the count of nested evaluations again; at any one place it
is limited by the program. So the height of the value, times that limit, bounds the evaluations that
lie inside each other, if whoever descends takes a value of less height along, as the built-in
keywords do (`Program.need_le_budget`). A keyword of a host may also descend with the value it has.
That ends only if no node comes again before the value is left, which is why the bound counts the
nodes as well (`Program.budget`). Where the budget is spent, the same error is reported as at the
limit of depth.

No bound is known in advance for a keyword of a host that has values of its own making evaluated,
neither the one it is given nor of less height than that. Its program is described here as far as
the budget goes.

What is evaluated is written for any monad in which notes are observed (`Program.evaluateIn`); the
evaluation without an observer is `Program.evaluate`.
-/

namespace TaggedSchema

/-! ## 1. Frames -/

/-- Where an evaluation stands. -/
structure Frame where
  instancePath : Pointer
  schemaPath : Pointer
  depth : Nat

namespace Frame

/-- The frame of a whole instance and the root of a schema. -/
def root : Frame := ⟨.root, .root, 0⟩

/-- The frame of a schema that is evaluated at the same place of the instance. -/
def nested (f : Frame) (segments : List String) : Frame :=
  ⟨f.instancePath, ⟨f.schemaPath.segments ++ segments⟩, f.depth + 1⟩

/-- The frame of a schema that is evaluated one segment further in the instance. -/
def descended (f : Frame) (segment : String) (segments : List String) : Frame :=
  ⟨f.instancePath.join segment, ⟨f.schemaPath.segments ++ segments⟩, 0⟩

/-- The segments of a place in the schema. -/
def segmentsOf (keyword : String) : SchemaPlace → List String
  | .own none => [keyword]
  | .own (some segment) => [keyword, segment]
  | .sibling name => [name]

/-- The frame of a request of a keyword. -/
def requested (f : Frame) (keyword : String) (place : SchemaPlace) (segment : Option String) :
    Frame :=
  match segment with
  | some segment => f.descended segment (segmentsOf keyword place)
  | none => f.nested (segmentsOf keyword place)

/-- An error of a keyword in this frame. -/
def error (f : Frame) (keyword message : String) : ValidationError :=
  ⟨f.instancePath, f.schemaPath.join keyword, keyword, message⟩

end Frame

/-- How a schema is evaluated: the report, with what the schema has to add. -/
abbrev Evaluator (m : Type → Type) := NodeId → Json → Frame → Report → m Report

/-! ## 2. Rules -/

namespace Rule

variable {m : Type → Type} [Monad m]

/-- Carries on the dialogue of a keyword. -/
def converse (observe : String → m Unit) (eval : Evaluator m) (keyword : String) (f : Frame) :
    Dialogue → Report → m Report
  | .done, out => pure out
  | .report message next, out =>
    converse observe eval keyword f next (out.push (f.error keyword message))
  | .evaluate place request next, out => do
    let after ← eval request.schema request.value (f.requested keyword place request.segment) out
    converse observe eval keyword f (next (after.size == out.size)) after
  | .test request next, out => do
    let apart ← eval request.schema request.value (f.requested keyword (.own none) request.segment)
      (.empty true)
    converse observe eval keyword f (next apart.isEmpty) out
  | .whenFull next, out => converse observe eval keyword f (next out.isFull) out
  | .locate next, out => converse observe eval keyword f (next f.instancePath) out
  | .note label next, out => do
    observe label
    converse observe eval keyword f next out

/-- Reports the properties that are missing. -/
def runRequired (f : Frame) (keyword : String) (members : List (String × Json))
    (names : List String) (out : Report) : Report :=
  names.foldl (fun out name =>
    if (members.lookup name).isSome then out
    else out.push (f.error keyword ("must have required property '" ++ name ++ "'"))) out

/-- Evaluates the schemas of the properties that are present. -/
def runProperties (eval : Evaluator m) (f : Frame) (keyword : String)
    (members : List (String × Json)) : List (String × NodeId) → Report → m Report
  | [], out => pure out
  | (name, schema) :: rest, out =>
    if out.isFull then pure out
    else
      match members.lookup name with
      | some value => do
        let out ← eval schema value (f.descended name [keyword, name]) out
        runProperties eval f keyword members rest out
      | none => runProperties eval f keyword members rest out

/-- Evaluates every schema of a list, from a position on. -/
def runAll (eval : Evaluator m) (f : Frame) (keyword : String) (value : Json) :
    Nat → List NodeId → Report → m Report
  | _, [], out => pure out
  | index, schema :: rest, out =>
    if out.isFull then pure out
    else do
      let out ← eval schema value (f.nested [keyword, Nat.repr index]) out
      runAll eval f keyword value (index + 1) rest out

/-- Evaluates the schemas of a list apart, from a position on, up to the first that holds. The
    answer is `none` if one holds, and otherwise what each of them reports. -/
def tryUntil (eval : Evaluator m) (f : Frame) (keyword : String) (value : Json) (scratch : Report) :
    Nat → List NodeId → m (Option (List Report))
  | _, [] => pure (some [])
  | index, schema :: rest => do
    let apart ← eval schema value (f.nested [keyword, Nat.repr index]) scratch
    if apart.isEmpty then pure none
    else do
      let more ← tryUntil eval f keyword value scratch (index + 1) rest
      pure (more.map (apart :: ·))

/-- Evaluates every schema of a list apart, from a position on. -/
def tryAll (eval : Evaluator m) (f : Frame) (keyword : String) (value : Json) (scratch : Report) :
    Nat → List NodeId → m (List Report)
  | _, [] => pure []
  | index, schema :: rest => do
    let apart ← eval schema value (f.nested [keyword, Nat.repr index]) scratch
    let more ← tryAll eval f keyword value scratch (index + 1) rest
    pure (apart :: more)

/-- Reports that no schema of `anyOf` holds, after what each of them reports. -/
def runAnyOf (eval : Evaluator m) (f : Frame) (keyword : String) (value : Json)
    (schemas : List NodeId) (out : Report) : m Report := do
  match ← tryUntil eval f keyword value out.scratch 0 schemas with
  | none => pure out
  | some failures =>
    pure ((failures.foldl Report.absorb out).push
      (f.error keyword "must match a schema in anyOf"))

/-- Reports that not exactly one branch of `oneOf` holds; if none does, after what each of them
    reports. -/
def runOneOf (eval : Evaluator m) (f : Frame) (keyword : String) (value : Json)
    (branches : List NodeId) (out : Report) : m Report := do
  let results ← tryAll eval f keyword value out.scratch 0 branches
  let matched := (results.filter Report.isEmpty).length
  if matched = 1 then pure out
  else
    let out := if matched = 0 then results.foldl Report.absorb out else out
    pure (out.push (f.error keyword
      ("must match exactly one schema in oneOf (matched " ++ Nat.repr matched ++ ")")))

/-- Evaluates the branch that the tag of an object selects. An instance that selects none is
    reported under `discriminator`. -/
def runDispatch (eval : Evaluator m) (f : Frame) (keyword : String) (d : Discriminator)
    (branches : List NodeId) (typeChecked : Bool) (value : Json) (out : Report) : m Report :=
  let error (f : Frame) (message : String) : m Report :=
    pure (out.push (f.error "discriminator" message))
  let atTag : Frame := { f with instancePath := f.instancePath.join d.property }
  match value with
  | .object members =>
    match members.lookup d.property with
    | none => error f ("tag \"" ++ d.property ++ "\" must be present")
    | some raw =>
      match Tag.ofJson? raw with
      | none => error atTag ("tag \"" ++ d.property ++ "\" must be string, number or boolean")
      | some tag =>
        match d.branchFor? tag with
        | none => error atTag ("value of tag \"" ++ d.property ++ "\" must be in oneOf")
        | some index =>
          match branches[index]? with
          | some branch => eval branch value (f.nested [keyword, Nat.repr index]) out
          | none => pure out
  | _ => if typeChecked then pure out else error f "must be object"

/-- Adds to a report what a keyword has against a value. -/
def run (observe : String → m Unit) (eval : Evaluator m) (keyword : String) (value : Json)
    (f : Frame) (out : Report) : Rule → m Report
  | never =>
    pure (out.push ⟨f.instancePath, f.schemaPath, keyword, "boolean schema is false"⟩)
  | type types =>
    pure (if types.any (·.accepts value) then out
      else out.push (f.error keyword ("must be " ++ ",".intercalate (types.map InstanceType.name))))
  | const expected =>
    pure (if value.sameValue expected then out
      else out.push (f.error keyword "must be equal to constant"))
  | enum allowed =>
    pure (if allowed.any value.sameValue then out
      else out.push (f.error keyword "must be equal to one of the allowed values"))
  | required names =>
    match value with
    | .object members => pure (runRequired f keyword members names out)
    | _ => pure out
  | properties entries =>
    match value with
    | .object members => runProperties eval f keyword members entries out
    | _ => pure out
  | ref target => eval target value (f.nested [keyword]) out
  | allOf schemas => runAll eval f keyword value 0 schemas out
  | anyOf schemas => runAnyOf eval f keyword value schemas out
  | oneOf branches => runOneOf eval f keyword value branches out
  | dispatch d branches typeChecked => runDispatch eval f keyword d branches typeChecked value out
  | assertion act => converse observe eval keyword f (act value) out

end Rule

/-! ## 3. Programs -/

namespace Program

variable {m : Type → Type} [Monad m]

/-- Runs the rules of a node in order, until the report is full. -/
def runKeywords (observe : String → m Unit) (eval : Evaluator m) (value : Json) (f : Frame) :
    List CompiledKeyword → Report → m Report
  | [], out => pure out
  | keyword :: rest, out =>
    if out.isFull then pure out
    else do
      let out ← keyword.rule.run observe eval keyword.name value f out
      runKeywords observe eval value f rest out

/-- The error of an evaluation that is nested too deeply. -/
def depthError (p : Program) (f : Frame) : ValidationError :=
  ⟨f.instancePath, f.schemaPath, "$ref",
    "maximum evaluation depth (" ++ Nat.repr p.maxDepth ++ ") exceeded"⟩

/-- Evaluates a node, within a number of evaluations inside each other. -/
def evaluateIn (observe : String → m Unit) (p : Program) : Nat → Evaluator m
  | 0 => fun _ _ f out => pure (out.push (p.depthError f))
  | fuel + 1 => fun id value f out =>
    if p.maxDepth < f.depth then pure (out.push (p.depthError f))
    else
      match p.nodes[id]? with
      | some node => runKeywords observe (evaluateIn observe p fuel) value f node.keywords out
      | none => pure out

/-- Evaluates a node without an observer. -/
def evaluate (p : Program) (fuel : Nat) : Evaluator Id := evaluateIn (fun _ => pure ()) p fuel

/-- The number of evaluations inside each other that a value can need, where every keyword has only
    the value it is given evaluated, or values of less height. -/
def budget (p : Program) (value : Json) : Nat :=
  (value.height + 1) * (p.maxDepth + 2) * (p.nodes.size + 1)

/-- The report on an instance, evaluated from the root. -/
def reportIn (observe : String → m Unit) (p : Program) (failFast : Bool) (value : Json) :
    m Report :=
  evaluateIn observe p (p.budget value) p.root value .root (.empty failFast)

/-- The report on an instance, without an observer. -/
def report (p : Program) (failFast : Bool) (value : Json) : Report :=
  p.evaluate (p.budget value) p.root value .root (.empty failFast)

end Program

end TaggedSchema
