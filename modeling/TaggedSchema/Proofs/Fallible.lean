/-!
# Steps that may fail

When a sequence of steps succeeds. Every function of the library that can refuse its input is such a
sequence, so these lemmas take apart all of them.
-/

namespace TaggedSchema

variable {ε α β : Type}

theorem bind_eq_ok {x : Except ε α} {k : α → Except ε β} {b : β} :
    (x >>= k) = .ok b ↔ ∃ a, x = .ok a ∧ k a = .ok b := by
  cases x with
  | error e => exact ⟨fun h => (by cases h), fun ⟨_, h, _⟩ => (by cases h)⟩
  | ok a => exact ⟨fun h => ⟨a, rfl, h⟩, fun ⟨_, h, hk⟩ => (by cases h; exact hk)⟩

theorem bind_eq_error {x : Except ε α} {k : α → Except ε β} {e : ε} :
    (x >>= k) = .error e ↔ x = .error e ∨ ∃ a, x = .ok a ∧ k a = .error e := by
  cases x with
  | error e' =>
    exact ⟨fun h => Or.inl (by cases h; rfl),
      fun h => h.elim (fun h => by cases h; rfl) fun ⟨_, h, _⟩ => (by cases h)⟩
  | ok a =>
    exact ⟨fun h => Or.inr ⟨a, rfl, h⟩,
      fun h => h.elim (fun h => (by cases h)) fun ⟨_, h, hk⟩ => (by cases h; exact hk)⟩

/-- A last step that cannot fail. -/
theorem bind_pure_eq_ok {x : Except ε α} {k : α → β} {b : β} :
    (x >>= fun a => pure (k a)) = .ok b ↔ ∃ a, x = .ok a ∧ k a = b := by
  rw [bind_eq_ok]
  exact ⟨fun ⟨a, hx, hk⟩ => ⟨a, hx, Except.ok.inj hk⟩, fun ⟨a, hx, hk⟩ => ⟨a, hx, hk ▸ rfl⟩⟩

/-- What comes after a step matters for its results only. -/
theorem bind_congr_ok {x : Except ε α} {k k' : α → Except ε β}
    (h : ∀ a, x = .ok a → k a = k' a) : x >>= k = x >>= k' := by
  cases x with
  | error e => rfl
  | ok a => exact h a rfl

/-- Naming an error in another way does not change what succeeds. -/
theorem mapError_eq_ok_iff {ε' : Type} {x : Except ε α} {e : ε → ε'} {a : α} :
    x.mapError e = .ok a ↔ x = .ok a := by
  cases x with
  | error _ => exact ⟨nofun, nofun⟩
  | ok a' => exact ⟨fun h => congrArg _ (Except.ok.inj h), fun h => congrArg _ (Except.ok.inj h)⟩

/-- A test of what a step gives. -/
theorem any_toOption_eq_true {x : Except ε α} {test : α → Bool} :
    x.toOption.any test = true ↔ ∃ a, x = .ok a ∧ test a = true := by
  cases x with
  | error e => exact ⟨fun h => (by cases h), fun ⟨_, h, _⟩ => (by cases h)⟩
  | ok a => exact ⟨fun h => ⟨a, rfl, h⟩, fun ⟨_, h, ht⟩ => (by cases h; exact ht)⟩

/-! ## Errors -/

/-- What a step reports. -/
def reported? : Except ε α → Option ε
  | .ok _ => none
  | .error e => some e

/-- A test of what a step reports. -/
theorem any_reported?_eq_true {x : Except ε α} {test : ε → Bool} :
    (reported? x).any test = true ↔ ∃ e, x = .error e ∧ test e = true := by
  cases x with
  | error e => exact ⟨fun h => ⟨e, rfl, h⟩, fun ⟨_, h, ht⟩ => (by cases h; exact ht)⟩
  | ok a => exact ⟨fun h => (by cases h), fun ⟨_, h, _⟩ => (by cases h)⟩

/-- Whatever the step reports has a property. -/
def FailsOnly (Q : ε → Prop) (x : Except ε α) : Prop := ∀ e, x = .error e → Q e

section FailsOnly

variable {Q : ε → Prop} {x : Except ε α}

theorem failsOnly_ok {a : α} : FailsOnly Q (.ok a : Except ε α) := fun _ h => by cases h

theorem failsOnly_error {e : ε} (h : Q e) : FailsOnly Q (.error e : Except ε α) :=
  fun _ he => Except.error.inj he ▸ h

/-- Steps one after another report what each of them may. -/
theorem FailsOnly.bind {k : α → Except ε β} (hx : FailsOnly Q x)
    (hk : ∀ a, x = .ok a → FailsOnly Q (k a)) : FailsOnly Q (x >>= k) :=
  fun e he => (bind_eq_error.mp he).elim (hx e) fun ⟨a, ha, h⟩ => hk a ha e h

/-- A last step that cannot fail reports nothing. -/
theorem FailsOnly.bind_pure {k : α → β} (hx : FailsOnly Q x) :
    FailsOnly Q (x >>= fun a => pure (k a)) :=
  hx.bind fun _ _ => failsOnly_ok

theorem FailsOnly.mapM {step : β → Except ε α} {l : List β}
    (h : ∀ b ∈ l, FailsOnly Q (step b)) : FailsOnly Q (l.mapM step) := by
  induction l with
  | nil => exact failsOnly_ok
  | cons b rest ih =>
    obtain ⟨hfirst, hrest⟩ := List.forall_mem_cons.mp h
    rw [List.mapM_cons]
    exact hfirst.bind fun _ _ => (ih hrest).bind_pure

/-- The step does what another does, unless it reports something that has a property. -/
def SameUnless (Q : ε → Prop) (x y : Except ε α) : Prop := x = y ∨ ∃ e, x = .error e ∧ Q e

theorem SameUnless.bind {y : Except ε α} {k l : α → Except ε β} (h : SameUnless Q x y)
    (hk : ∀ a, x = .ok a → SameUnless Q (k a) (l a)) : SameUnless Q (x >>= k) (y >>= l) := by
  rcases h with rfl | ⟨e, rfl, hQ⟩
  · cases x with
    | error e => exact Or.inl rfl
    | ok a => exact hk a rfl
  · exact Or.inr ⟨e, rfl, hQ⟩

theorem sameUnless_false {y : Except ε α} : SameUnless (fun _ => False) x y ↔ x = y :=
  or_iff_left fun ⟨_, _, h⟩ => h

end FailsOnly

/-! ## Lists of steps -/

/-- A list of steps that may give nothing gives what each of them gives. -/
theorem mapM_eq_some {step : α → Option β} {l : List α} {found : List β} :
    l.mapM step = some found ↔ l.map step = found.map some := by
  induction l generalizing found with
  | nil => cases found <;> simp
  | cons a rest ih =>
    rw [List.mapM_cons, List.map_cons]
    cases step a with
    | none => cases found <;> simp
    | some first =>
      show (rest.mapM step).bind (fun more => some (first :: more)) = _ ↔ _
      constructor
      · intro h
        obtain ⟨more, hmore, h⟩ := Option.bind_eq_some_iff.mp h
        cases h
        rw [List.map_cons, ih.mp hmore]
      · intro h
        cases found with
        | nil => cases h
        | cons b more =>
          obtain ⟨hfirst, hmore⟩ := List.cons_eq_cons.mp h
          cases hfirst
          exact Option.bind_eq_some_iff.mpr ⟨more, ih.mpr hmore, rfl⟩

theorem mem_of_mapM_eq_some {step : α → Option β} {l : List α} {found : List β}
    (h : l.mapM step = some found) {a : α} (ha : a ∈ l) : ∃ b ∈ found, step a = some b := by
  have hmem := List.mem_map_of_mem (f := step) ha
  rw [mapM_eq_some.mp h] at hmem
  obtain ⟨b, hb, he⟩ := List.mem_map.mp hmem
  exact ⟨b, hb, he.symm⟩

/-- Either all steps give something, or one gives nothing. -/
theorem mapM_eq_none_iff {step : α → Option β} {l : List α} :
    l.mapM step = none ↔ ∃ a ∈ l, step a = none := by
  constructor
  · intro h
    induction l with
    | nil => cases h
    | cons a rest ih =>
      cases hfirst : step a with
      | none => exact ⟨a, List.mem_cons_self, hfirst⟩
      | some first =>
        rw [List.mapM_cons, hfirst] at h
        cases hrest : rest.mapM step with
        | none =>
          obtain ⟨b, hb, hnone⟩ := ih hrest
          exact ⟨b, List.mem_cons_of_mem _ hb, hnone⟩
        | some more =>
          rw [hrest] at h
          cases h
  · rintro ⟨a, ha, hnone⟩
    cases hall : l.mapM step with
    | none => rfl
    | some found =>
      obtain ⟨b, _, hb⟩ := mem_of_mapM_eq_some hall ha
      rw [hnone] at hb
      cases hb

end TaggedSchema
