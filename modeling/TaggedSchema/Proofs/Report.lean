import TaggedSchema.Report

/-!
# Laws of collecting

A report is only ever changed by pushing errors onto it. This file fixes what a run of pushes
amounts to, in both modes:

* a collecting report takes them all, in order (`pushAll_collecting`);
* a fail-fast report that has an error takes none (`pushAll_full`), and an empty one the first
  (`pushAll_empty_failFast`);
* what a scratch report of the same mode has kept, pushed on, is what all of it would have been
  (`absorb_scratch`): nothing that could have counted is lost on the way.
-/

namespace TaggedSchema.Report

/-- A report onto which errors have been pushed, one after another. -/
def pushAll (r : Report) (errors : List ValidationError) : Report := errors.foldl push r

/-! ## 1. One push -/

@[simp] theorem failFast_push (r : Report) (e : ValidationError) :
    (r.push e).failFast = r.failFast := by
  unfold push
  split <;> rfl

theorem push_of_isFull {r : Report} (h : r.isFull = true) (e : ValidationError) : r.push e = r := by
  simp only [push, h, if_true]

theorem push_of_not_isFull {r : Report} (h : r.isFull = false) (e : ValidationError) :
    r.push e = ⟨r.failFast, r.errors ++ [e]⟩ := by
  simp [push, h]

@[simp] theorem isFull_empty (failFast : Bool) : (empty failFast).isFull = false := by
  simp [empty, isFull, isEmpty]

@[simp] theorem failFast_empty (failFast : Bool) : (empty failFast).failFast = failFast := rfl

theorem isFull_eq_false_of_collecting {r : Report} (h : r.failFast = false) : r.isFull = false := by
  simp [isFull, h]

/-- A report that is not full is a collecting one or empty. -/
theorem isFull_eq_false_iff {r : Report} :
    r.isFull = false ↔ r.failFast = false ∨ r.errors = [] := by
  cases hf : r.failFast <;> simp [isFull, isEmpty, hf]

/-! ## 2. Many pushes -/

@[simp] theorem pushAll_nil (r : Report) : r.pushAll [] = r := rfl

@[simp] theorem pushAll_cons (r : Report) (e : ValidationError) (es : List ValidationError) :
    r.pushAll (e :: es) = (r.push e).pushAll es := rfl

theorem pushAll_append (r : Report) (es es' : List ValidationError) :
    r.pushAll (es ++ es') = (r.pushAll es).pushAll es' := List.foldl_append

theorem pushAll_singleton (r : Report) (e : ValidationError) : r.pushAll [e] = r.push e := rfl

theorem absorb_eq_pushAll (r other : Report) : r.absorb other = r.pushAll other.errors := rfl

@[simp] theorem failFast_pushAll (r : Report) (es : List ValidationError) :
    (r.pushAll es).failFast = r.failFast := by
  induction es generalizing r with
  | nil => rfl
  | cons e es ih => rw [pushAll_cons, ih, failFast_push]

/-- **A full report takes nothing.** -/
theorem pushAll_full {r : Report} (h : r.isFull = true) (es : List ValidationError) :
    r.pushAll es = r := by
  induction es with
  | nil => rfl
  | cons e es ih => rw [pushAll_cons, push_of_isFull h, ih]

/-- **A collecting report takes everything, in order.** -/
theorem pushAll_collecting {r : Report} (h : r.failFast = false) (es : List ValidationError) :
    r.pushAll es = ⟨false, r.errors ++ es⟩ := by
  induction es generalizing r with
  | nil =>
    cases r
    simp_all
  | cons e es ih =>
    rw [pushAll_cons, push_of_not_isFull (isFull_eq_false_of_collecting h)]
    have hes := ih (r := ⟨r.failFast, r.errors ++ [e]⟩) h
    rw [hes]
    simp

/-- **An empty fail-fast report takes the first error only.** -/
theorem pushAll_empty_failFast (es : List ValidationError) :
    (empty true).pushAll es = ⟨true, es.take 1⟩ := by
  cases es with
  | nil => rfl
  | cons e es =>
    rw [pushAll_cons, push_of_not_isFull (isFull_empty true)]
    exact pushAll_full rfl es

/-- Pushing the first error already fills a fail-fast report, so the rest makes no difference. -/
theorem pushAll_take_one {r : Report} (h : r.failFast = true) (es : List ValidationError) :
    r.pushAll (es.take 1) = r.pushAll es := by
  cases es with
  | nil => rfl
  | cons e es =>
    have hfull : (r.push e).isFull = true := by
      by_cases hr : r.isFull = true
      · rw [push_of_isFull hr, hr]
      · rw [push_of_not_isFull (by simpa using hr)]
        simp [isFull, isEmpty, h]
    rw [pushAll_cons, pushAll_full hfull es]
    rfl

/-- What pushing amounts to, by the mode of the report and whether it has an error. -/
theorem pushAll_eq (r : Report) (es : List ValidationError) :
    r.pushAll es
      = if r.failFast then (if r.isEmpty then ⟨true, es.take 1⟩ else r)
        else ⟨false, r.errors ++ es⟩ := by
  cases hf : r.failFast with
  | false => exact pushAll_collecting hf es
  | true =>
    rw [if_pos rfl]
    cases he : r.isEmpty with
    | false => exact pushAll_full (by rw [isFull, hf, he]; rfl) es
    | true =>
      obtain ⟨failFast, errors⟩ := r
      cases hf
      cases List.isEmpty_iff.mp he
      exact pushAll_empty_failFast es

/-- Whatever the mode, an empty report takes nothing but what is pushed. -/
theorem mem_of_mem_pushAll_empty {failFast : Bool} {es : List ValidationError} {e : ValidationError}
    (h : e ∈ ((empty failFast).pushAll es).errors) : e ∈ es := by
  cases failFast with
  | false =>
    rw [pushAll_collecting rfl] at h
    exact h
  | true =>
    rw [pushAll_empty_failFast] at h
    exact List.mem_of_mem_take h

/-- An empty report takes as many changed errors as unchanged ones. -/
theorem errors_empty_pushAll_map (failFast : Bool) (es : List ValidationError)
    (change : ValidationError → ValidationError) :
    ((empty failFast).pushAll (es.map change)).errors
      = ((empty failFast).pushAll es).errors.map change := by
  cases failFast with
  | false =>
    rw [pushAll_collecting rfl, pushAll_collecting rfl]
    rfl
  | true =>
    rw [pushAll_empty_failFast, pushAll_empty_failFast]
    exact (List.map_take ..).symm

/-! ## 3. Verdicts -/

/-- A report stays empty only when there was nothing to push. -/
@[simp] theorem isEmpty_empty_pushAll (failFast : Bool) (es : List ValidationError) :
    ((empty failFast).pushAll es).isEmpty = es.isEmpty := by
  cases failFast with
  | false =>
    rw [pushAll_collecting rfl]
    rfl
  | true =>
    rw [pushAll_empty_failFast]
    cases es <;> rfl

/-- The size of a report that is not full grows exactly when there is something to push. -/
theorem size_pushAll_beq {r : Report} (h : r.isFull = false) (es : List ValidationError) :
    ((r.pushAll es).size == r.size) = es.isEmpty := by
  rcases isFull_eq_false_iff.mp h with hc | he
  · rw [pushAll_collecting hc]
    cases es <;> simp [size]
  · obtain ⟨failFast, errors⟩ := r
    simp only at he
    subst he
    have hempty := isEmpty_empty_pushAll failFast es
    simp only [isEmpty, empty] at hempty
    rw [← hempty]
    cases hp : (pushAll ⟨failFast, []⟩ es).errors <;> simp [size, hp]

/-! ## 4. Scratch reports -/

/-- **What a scratch report keeps of some errors counts as much as all of them.** -/
theorem absorb_scratch (r : Report) (es : List ValidationError) :
    r.absorb (r.scratch.pushAll es) = r.pushAll es := by
  unfold scratch
  rw [absorb_eq_pushAll]
  cases h : r.failFast with
  | false =>
    have hs := pushAll_collecting (failFast_empty false) es
    rw [hs]
    rfl
  | true =>
    rw [pushAll_empty_failFast]
    exact pushAll_take_one h es

/-- The same for several scratch reports in a row. -/
theorem foldl_absorb_scratch (r : Report) (ess : List (List ValidationError)) :
    (ess.map r.scratch.pushAll).foldl absorb r = r.pushAll ess.flatten := by
  suffices h : ∀ s : Report, s.failFast = r.failFast →
      (ess.map r.scratch.pushAll).foldl absorb s = s.pushAll ess.flatten from h r rfl
  induction ess with
  | nil => exact fun _ _ => rfl
  | cons es ess ih =>
    intro s hs
    have hscratch : r.scratch = s.scratch := by rw [scratch, scratch, hs]
    rw [List.map_cons, List.foldl_cons, hscratch, absorb_scratch, ← hscratch,
      ih _ (by rw [failFast_pushAll, hs]), List.flatten_cons, pushAll_append]

end TaggedSchema.Report
