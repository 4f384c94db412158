import TaggedSchema.Json.Reader
import TaggedSchema.Proofs.Nesting
import TaggedSchema.Proofs.Relocation

/-!
# What a keyword is told of a schema

A keyword may have a schema evaluated into the report, and is told whether that added no error; or
apart from the report, and is told whether no error was found. Only the second answer is about the
schema alone. The first is read off the size of the report before and after, and a full report takes
no errors, so there every schema is said to pass (`Program.size_evaluate_beq`).

No report is the worse for it, since whatever a keyword does on a full one is dropped
(`Program.converse_of_isFull`). But a keyword of a host may have effects of its own, and such effects
follow the answer.

The answers are the same for whoever observes the evaluation (`Program.yields_evaluateIn`).
-/

namespace TaggedSchema

/-! ## 1. Observers -/

/-- The computation has one result, whatever it does besides. -/
def Yields {m : Type → Type} [Monad m] (α : Type) (a : Id α) (x : m α) : Prop :=
  x = x >>= fun _ => pure a

section Observers

variable {m : Type → Type} [Monad m] [LawfulMonad m]

/-- What comes after such a computation goes on from its one result. -/
theorem Yields.bind_eq {α β : Type} {a : Id α} {x : m α} (h : Yields α a x) (k : α → m β) :
    x >>= k = x >>= fun _ => k a :=
  calc x >>= k = (x >>= fun _ => pure a) >>= k := congrArg (· >>= k) h
    _ = x >>= fun _ => pure a >>= k := bind_assoc ..
    _ = x >>= fun _ => k a := by simp only [pure_bind]

/-- Two continuations do the same behind such a computation, if they do on its one result. -/
theorem Yields.bind_congr {α β : Type} {a : Id α} {x : m α} (h : Yields α a x) {k k' : α → m β}
    (hk : k a = k' a) : x >>= k = x >>= k' := by
  rw [h.bind_eq k, h.bind_eq k', hk]

theorem correspondence_yields : @Correspondence Id m _ _ Yields where
  pure a := by
    show pure a = pure a >>= fun _ => pure a
    rw [pure_bind]
  bind {α β a x k k'} hx hk := by
    show x >>= k' = (x >>= k') >>= fun _ => pure (k a)
    rw [hx.bind_eq, bind_assoc]
    exact congrArg _ (funext fun _ => hk a)

/-- **Observing an evaluation does not change its result.** -/
theorem Program.yields_evaluateIn (observe : String → m Unit) (p : Program) (fuel : Nat)
    (id : NodeId) (value : Json) (f : Frame) (out : Report) :
    Yields Report (p.evaluate fuel id value f out) (p.evaluateIn observe fuel id value f out) := by
  have hR : @Correspondence Id m _ _ Yields := correspondence_yields
  -- A note has no result but that it is taken.
  have hobserve : ∀ label, Yields Unit (pure ()) (observe label) := fun label => by
    show observe label = observe label >>= fun _ => pure ()
    rw [← bind_pure (observe label)]
    simp
  induction fuel generalizing id value f out with
  | zero => exact hR.pure _
  | succ fuel ih =>
    exact step_corresponds hR hobserve (p := p) (c := ⟨id, value, f⟩)
      (fun c' _ out => ih c'.node c'.value c'.frame out) out

end Observers

/-! ## 2. Answers -/

namespace Program

variable (p : Program) (fuel : Nat)

/-- **The schema holds of the value**: evaluated into a report of its own, it adds no error. -/
def holds (id : NodeId) (value : Json) (f : Frame) : Bool :=
  (p.evaluate fuel id value f (.empty false)).isEmpty

/-- The request is met: its schema holds of its value, at the place of the instance where the request
    wants it evaluated. -/
def meets (keyword : String) (f : Frame) (r : Request) : Bool :=
  p.holds fuel r.schema r.value (f.requested keyword (.own none) r.segment)

theorem holds_eq_isEmpty_errors (id : NodeId) (value : Json) (f : Frame) :
    p.holds fuel id value f = (p.errors fuel id value f).isEmpty := by
  unfold holds
  rw [p.evaluate_eq_pushAll, Report.isEmpty_empty_pushAll]

/-- It does not matter for that whether the report of its own takes one error or all. -/
theorem isEmpty_evaluate (failFast : Bool) (id : NodeId) (value : Json) (f : Frame) :
    (p.evaluate fuel id value f (.empty failFast)).isEmpty = p.holds fuel id value f := by
  rw [holds_eq_isEmpty_errors, p.evaluate_eq_pushAll, Report.isEmpty_empty_pushAll]

/-- Nor does it matter where in the schema the request was made. -/
theorem holds_requested (keyword : String) (f : Frame) (place : SchemaPlace) (r : Request) :
    p.holds fuel r.schema r.value (f.requested keyword place r.segment)
      = p.meets fuel keyword f r := by
  unfold meets
  rw [holds_eq_isEmpty_errors, holds_eq_isEmpty_errors]
  unfold Frame.requested
  cases r.segment <;> exact p.isEmpty_errors_schemaPath fuel _ _ _ _ _ _

/-- **What the size of a report tells of a schema** that is evaluated into it: on a full report
    nothing, and on any other whether it holds. -/
theorem size_evaluate_beq (id : NodeId) (value : Json) (f : Frame) (out : Report) :
    ((p.evaluate fuel id value f out).size == out.size)
      = (out.isFull || p.holds fuel id value f) := by
  rw [holds_eq_isEmpty_errors, p.evaluate_eq_pushAll]
  cases hfull : out.isFull with
  | true =>
    rw [Report.pushAll_full hfull, Bool.true_or]
    exact beq_self_eq_true _
  | false => rw [Report.size_pushAll_beq hfull, Bool.false_or]

/-- Whatever a keyword does on a full report is dropped. -/
theorem converse_of_isFull {out : Report} (hfull : out.isFull = true) (keyword : String) (f : Frame)
    (d : Dialogue) :
    Rule.converse (fun _ => (pure () : Id Unit)) (p.evaluate fuel) keyword f d out = out := by
  rw [Rule.converse_eq_pushAll (p.evaluate_eq_pushAll fuel), Report.pushAll_full hfull]

end Program

/-- **What a keyword is told.** For every program, request, place and report, and for whoever observes:
    of a schema that is evaluated into the report, a keyword is told that it passes if the report is
    full or the request is met, and of one that is evaluated apart, if the request is met. So the two
    answers agree unless the report is full and the request is not met. That a request is met means
    that its schema adds no error to a report of its own, of either mode and wherever in the schema
    the request is made. What a keyword does on a full report is dropped, whatever it is told. -/
theorem Program.answers {m : Type → Type} [Monad m] [LawfulMonad m] (observe : String → m Unit)
    (p : Program) (fuel : Nat) (keyword : String) (f : Frame) (r : Request) (out : Report) :
    (∀ place next,
      Rule.converse observe (p.evaluateIn observe fuel) keyword f (.evaluate place r next) out
        = p.evaluateIn observe fuel r.schema r.value (f.requested keyword place r.segment) out
            >>= Rule.converse observe (p.evaluateIn observe fuel) keyword f
              (next (out.isFull || p.meets fuel keyword f r))) ∧
    (∀ next,
      Rule.converse observe (p.evaluateIn observe fuel) keyword f (.test r next) out
        = p.evaluateIn observe fuel r.schema r.value (f.requested keyword (.own none) r.segment)
            (.empty true)
            >>= fun _ => Rule.converse observe (p.evaluateIn observe fuel) keyword f
              (next (p.meets fuel keyword f r)) out) ∧
    (∀ place failFast,
      (p.evaluate fuel r.schema r.value (f.requested keyword place r.segment)
        (.empty failFast)).isEmpty = p.meets fuel keyword f r) ∧
    ((out.isFull || p.meets fuel keyword f r) = p.meets fuel keyword f r ↔
      (out.isFull = true → p.meets fuel keyword f r = true)) ∧
    (out.isFull = true → ∀ d,
      Rule.converse (fun _ => (pure () : Id Unit)) (p.evaluate fuel) keyword f d out = out) := by
  refine ⟨fun place next => ?_, fun next => ?_, fun place failFast => ?_, ?_,
    fun hfull d => p.converse_of_isFull fuel hfull keyword f d⟩
  · have hone := p.yields_evaluateIn observe fuel r.schema r.value
      (f.requested keyword place r.segment) out
    refine hone.bind_congr ?_
    rw [p.size_evaluate_beq, p.holds_requested]
  · have hone := p.yields_evaluateIn observe fuel r.schema r.value
      (f.requested keyword (.own none) r.segment) (.empty true)
    refine hone.bind_congr ?_
    rw [p.isEmpty_evaluate]
    rfl
  · rw [p.isEmpty_evaluate, p.holds_requested]
  · cases out.isFull <;> cases p.meets fuel keyword f r <;> simp

/-- An observer who keeps all notes in a list. -/
def listNotes (label : String) : StateM (List String) Unit := modify (· ++ [label])

/-- A program of the `false` schema alone. -/
def neverProgram : Program := ⟨#[⟨.ofDocument "", [⟨"false", .never⟩]⟩], 0, true, 256⟩

/-- Of the `false` schema a keyword is told, on a report that is full, that it passes, and apart from the
    report, that it fails. -/
theorem Program.answers_never :
    LawfulMonad (StateM (List String)) ∧
    neverProgram.meets 3 "items" .root ⟨0, .null, none⟩ = false ∧
    (Report.mk true [Frame.root.error "items" "child 0 failed"]).isFull = true ∧
    (∀ next, Rule.converse listNotes (neverProgram.evaluateIn listNotes 3) "items" .root
        (.evaluate (.own none) ⟨0, .null, none⟩ next)
        ⟨true, [Frame.root.error "items" "child 0 failed"]⟩
      = neverProgram.evaluateIn listNotes 3 0 .null (Frame.root.requested "items" (.own none) none)
          ⟨true, [Frame.root.error "items" "child 0 failed"]⟩
          >>= Rule.converse listNotes (neverProgram.evaluateIn listNotes 3) "items" .root
            (next true)) ∧
    ∀ next, Rule.converse listNotes (neverProgram.evaluateIn listNotes 3) "items" .root
        (.test ⟨0, .null, none⟩ next) ⟨true, [Frame.root.error "items" "child 0 failed"]⟩
      = neverProgram.evaluateIn listNotes 3 0 .null (Frame.root.requested "items" (.own none) none)
          (.empty true)
          >>= fun _ => Rule.converse listNotes (neverProgram.evaluateIn listNotes 3) "items" .root
            (next false) ⟨true, [Frame.root.error "items" "child 0 failed"]⟩ := by
  have hfails : neverProgram.meets 3 "items" .root ⟨0, .null, none⟩ = false := by decide +kernel
  have hanswers := Program.answers listNotes neverProgram 3 "items" .root ⟨0, .null, none⟩
    ⟨true, [Frame.root.error "items" "child 0 failed"]⟩
  refine ⟨inferInstance, hfails, rfl, fun next => ?_, fun next => ?_⟩
  · have htold := hanswers.1 (.own none) next
    rwa [hfails] at htold
  · have htold := hanswers.2.1 next
    rwa [hfails] at htold

/-! ## 3. A keyword that tells -/

/-- A keyword of a host that has each schema of its list evaluated into the report, and notes what it
    is told. -/
def announcing : Plugin := fun o => do
  let schemas ← o.subschemas
  return some fun value => schemas.foldr (fun schema next =>
    .evaluate (.own none) ⟨schema, value, none⟩ fun passes =>
      .note (if passes then "passes" else "fails") next) .done

/-- The compiler of a host that has given `items` to that keyword, in fail-fast mode. -/
def announcingCompiler : Compiler :=
  ⟨Registry.default.register "items" announcing, { Options.default with failFast := true }⟩

/-- **A schema that fails is said to pass**: of two `false` schemas the keyword notes that the first
    fails and that the second passes, though neither of them ever holds. -/
theorem Compiler.full_report_passes_failing :
    ∃ v, announcingCompiler.compileDocument
        (.object [("items", .array [.bool false, .bool false])]) = .ok v ∧
      (v.validateIn listNotes .null []).2
        = ["fails", "passes"] ∧
      ∀ id ∈ [1, 2], v.program.meets 2 "items" .root ⟨id, .null, none⟩ = false := by
  have hnotes : ((announcingCompiler.compileDocument
      (.object [("items", .array [.bool false, .bool false])])).toOption.any fun v =>
        decide ((v.validateIn listNotes .null []).2 = ["fails", "passes"]) &&
          [1, 2].all fun id => !v.program.meets 2 "items" .root ⟨id, .null, none⟩) = true := by
    decide +kernel
  obtain ⟨v, hv, hnotes⟩ := any_toOption_eq_true.mp hnotes
  obtain ⟨htold, hfails⟩ := Bool.and_eq_true_iff.mp hnotes
  refine ⟨v, hv, of_decide_eq_true htold, fun id hid => ?_⟩
  simpa using List.all_eq_true.mp hfails id hid

end TaggedSchema
