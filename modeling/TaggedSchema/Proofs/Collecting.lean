import TaggedSchema.Proofs.Report

/-!
# Runs of a report

A report is filled by steps: an error is pushed, or another report is absorbed, which has been
filled by steps of its own, in a mode of its own. Whatever the steps are, such a run is one run of
pushes (`Report.takeAll_eq`), and so it leaves the errors in order, each absorbed report with what
it has kept, and of all this the first only if the report is in fail-fast mode
(`Report.takeAll_spec`).
-/

namespace TaggedSchema.Report

/-- A step of a run: an error is pushed, or a report is absorbed that was empty, of some mode,
    before steps of its own. -/
inductive Step where
  | push (e : ValidationError)
  | absorb (failFast : Bool) (steps : List Step)

/-! ## 1. Runs -/

mutual

/-- The report after a step. -/
def take (r : Report) : Step → Report
  | .push e => r.push e
  | .absorb failFast steps => r.absorb (takeAll (empty failFast) steps)
termination_by structural step => step

/-- The report after a run of steps. -/
def takeAll (r : Report) : List Step → Report
  | [] => r
  | step :: rest => takeAll (r.take step) rest
termination_by structural steps => steps

end

/-- What a report of a mode keeps of some errors. -/
def kept (failFast : Bool) (errors : List ValidationError) : List ValidationError :=
  if failFast then errors.take 1 else errors

mutual

/-- The errors that a step offers: the one that is pushed, or what the absorbed report has kept. -/
def Step.offered : Step → List ValidationError
  | .push e => [e]
  | .absorb failFast steps => kept failFast (offeredAll steps)
termination_by structural step => step

/-- The errors that a run offers, in order. -/
def offeredAll : List Step → List ValidationError
  | [] => []
  | step :: rest => step.offered ++ offeredAll rest
termination_by structural steps => steps

end

mutual

/-- All errors that are pushed in a step, onto whatever report. -/
def Step.pushed : Step → List ValidationError
  | .push e => [e]
  | .absorb _ steps => pushedAll steps
termination_by structural step => step

/-- All errors that are pushed in a run, in order. -/
def pushedAll : List Step → List ValidationError
  | [] => []
  | step :: rest => step.pushed ++ pushedAll rest
termination_by structural steps => steps

end

mutual

/-- No absorbed report is in fail-fast mode, however deep. -/
def Step.Collecting : Step → Prop
  | .push _ => True
  | .absorb failFast steps => failFast = false ∧ CollectingAll steps
termination_by structural step => step

/-- So it is of all steps of a run. -/
def CollectingAll : List Step → Prop
  | [] => True
  | step :: rest => step.Collecting ∧ CollectingAll rest
termination_by structural steps => steps

end

/-! ## 2. What a run amounts to -/

theorem errors_empty_pushAll (failFast : Bool) (es : List ValidationError) :
    ((empty failFast).pushAll es).errors = kept failFast es := by
  cases failFast with
  | false => rw [pushAll_collecting rfl]; rfl
  | true => rw [pushAll_empty_failFast]; rfl

mutual

theorem take_eq (r : Report) : (step : Step) → r.take step = r.pushAll step.offered
  | .push e => rfl
  | .absorb failFast steps => by
    rw [take, takeAll_eq, absorb_eq_pushAll, errors_empty_pushAll, Step.offered]
termination_by structural step => step

/-- **A run of steps is one run of pushes.** -/
theorem takeAll_eq (r : Report) :
    (steps : List Step) → r.takeAll steps = r.pushAll (offeredAll steps)
  | [] => rfl
  | step :: rest => by
    rw [takeAll, take_eq, takeAll_eq, offeredAll, pushAll_append]
termination_by structural steps => steps

end

/-- **What a run leaves** in a report that was empty. -/
theorem errors_takeAll (failFast : Bool) (steps : List Step) :
    ((empty failFast).takeAll steps).errors = kept failFast (offeredAll steps) := by
  rw [takeAll_eq, errors_empty_pushAll]

theorem kept_sublist (failFast : Bool) (es : List ValidationError) :
    (kept failFast es).Sublist es := by
  unfold kept
  split
  · exact List.take_sublist 1 es
  · exact .refl es

mutual

theorem offered_sublist : (step : Step) → step.offered.Sublist step.pushed
  | .push _ => .refl _
  | .absorb failFast steps => (kept_sublist failFast _).trans (offeredAll_sublist steps)
termination_by structural step => step

/-- Nothing is offered but what was pushed, in the order in which it was. -/
theorem offeredAll_sublist : (steps : List Step) → (offeredAll steps).Sublist (pushedAll steps)
  | [] => .refl _
  | step :: rest => (offered_sublist step).append (offeredAll_sublist rest)
termination_by structural steps => steps

end

mutual

theorem offered_collecting : (step : Step) → step.Collecting → step.offered = step.pushed
  | .push _, _ => rfl
  | .absorb failFast steps, ⟨hmode, hsteps⟩ => by
    rw [Step.offered, Step.pushed, offeredAll_collecting steps hsteps, hmode]
    rfl
termination_by structural step => step

/-- Where no absorbed report is in fail-fast mode, everything is offered. -/
theorem offeredAll_collecting : (steps : List Step) → CollectingAll steps →
    offeredAll steps = pushedAll steps
  | [], _ => rfl
  | step :: rest, ⟨hstep, hrest⟩ => by
    rw [offeredAll, pushedAll, offered_collecting step hstep, offeredAll_collecting rest hrest]
termination_by structural steps => steps

end

theorem offeredAll_append (steps steps' : List Step) :
    offeredAll (steps ++ steps') = offeredAll steps ++ offeredAll steps' := by
  induction steps with
  | nil => rfl
  | cons step rest ih => rw [List.cons_append, offeredAll, offeredAll, ih, List.append_assoc]

/-- What a run has left so far stays in front, whatever follows. -/
theorem errors_takeAll_prefix (failFast : Bool) (before after : List Step) :
    ((empty failFast).takeAll before).errors
      <+: ((empty failFast).takeAll (before ++ after)).errors := by
  rw [errors_takeAll, errors_takeAll, offeredAll_append]
  cases failFast with
  | false => exact List.prefix_append _ _
  | true =>
    cases offeredAll before with
    | nil => exact List.nil_prefix
    | cons e es => exact List.prefix_rfl

/-- An absorbed report that was filled by pushes alone offers them all, or only the first. -/
theorem offered_pushes (failFast : Bool) (es : List ValidationError) :
    (Step.absorb failFast (es.map .push)).offered = if failFast then es.take 1 else es := by
  have hpushes : offeredAll (es.map .push) = es := by
    induction es with
    | nil => rfl
    | cons e es ih => rw [List.map_cons, offeredAll, ih]; rfl
  rw [Step.offered, hpushes, kept]

theorem isFull_takeAll (failFast : Bool) (steps : List Step) :
    ((empty failFast).takeAll steps).isFull = true ↔
      failFast = true ∧ ((empty failFast).takeAll steps).errors ≠ [] := by
  rw [takeAll_eq, isFull, failFast_pushAll, Bool.and_eq_true, isEmpty, Bool.not_eq_true',
    ← Bool.not_eq_true, List.isEmpty_iff]
  rfl

/-- **Any run of a report** that was empty, of either mode, whose absorbed reports were filled by
    runs of their own, of either mode. It leaves the errors that its steps offer, in order, and in
    fail-fast mode the first of them: an absorbed report offers what it has kept, which of errors
    that were pushed onto it is the first in fail-fast mode, and else all. What is left is part of
    what was pushed, in that order, and all of it where nothing is in fail-fast mode; it stays in
    front whatever follows. The report is full exactly if it is in fail-fast mode and has an
    error. -/
theorem takeAll_spec (failFast : Bool) (steps : List Step) :
    ((empty failFast).takeAll steps).failFast = failFast ∧
    ((empty failFast).takeAll steps).errors
      = (if failFast then (offeredAll steps).take 1 else offeredAll steps) ∧
    (∀ mode es, (Step.absorb mode (es.map .push)).offered = if mode then es.take 1 else es) ∧
    (∀ mode inner, (Step.absorb mode inner).offered = ((empty mode).takeAll inner).errors) ∧
    ((empty failFast).takeAll steps).errors.Sublist (pushedAll steps) ∧
    (failFast = false → CollectingAll steps →
      ((empty failFast).takeAll steps).errors = pushedAll steps) ∧
    (∀ after, ((empty failFast).takeAll steps).errors
      <+: ((empty failFast).takeAll (steps ++ after)).errors) ∧
    (((empty failFast).takeAll steps).isFull = true ↔
      failFast = true ∧ ((empty failFast).takeAll steps).errors ≠ []) := by
  have herrors := errors_takeAll failFast steps
  refine ⟨?_, herrors, offered_pushes, fun mode inner => ?_, ?_, fun hmode hsteps => ?_,
    errors_takeAll_prefix failFast steps, isFull_takeAll failFast steps⟩
  · rw [takeAll_eq, failFast_pushAll, failFast_empty]
  · rw [errors_takeAll, Step.offered]
  · rw [herrors]
    exact (kept_sublist failFast _).trans (offeredAll_sublist steps)
  · rw [herrors, hmode, offeredAll_collecting steps hsteps]
    rfl

/-- An error of a keyword, both places at the root. -/
def errorOf (keyword : String) : ValidationError := ⟨.root, .root, keyword, ""⟩

/-- Two errors are pushed onto a report that is then absorbed. -/
def absorbsTwo (failFast : Bool) : List Step :=
  [.push (errorOf "type"),
    .absorb failFast [.push (errorOf "minItems"), .push (errorOf "contains")]]

/-- Both are kept, unless the absorbed report is in fail-fast mode. -/
theorem takeAll_spec_absorbsTwo :
    CollectingAll (absorbsTwo false) ∧
      ((empty false).takeAll (absorbsTwo false)).errors
        = [errorOf "type", errorOf "minItems", errorOf "contains"] ∧
      ((empty false).takeAll (absorbsTwo true)).errors
        = [errorOf "type", errorOf "minItems"] := by
  have hcollecting : CollectingAll (absorbsTwo false) :=
    ⟨trivial, ⟨rfl, trivial, trivial, trivial⟩, trivial⟩
  exact ⟨hcollecting, (takeAll_spec false _).2.2.2.2.2.1 rfl hcollecting,
    (takeAll_spec false (absorbsTwo true)).2.1⟩

end TaggedSchema.Report
