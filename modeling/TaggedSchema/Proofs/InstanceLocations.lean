import TaggedSchema.Proofs.DistinctKeys
import TaggedSchema.Proofs.Positions
import TaggedSchema.Proofs.Provenance

/-!
# Instance locations of errors

The instance location of every error resolves in the instance (`Compiler.instanceLocation_resolves`).
Each evaluation stands at a place of the instance (`Json.HasAt`): its path leads to its value, or its
value is the key of the member that the path leads to, where names are checked. A request that stays
keeps that, and a request that descends takes the segment that names the part it is about. A key has
no parts, so below it nothing descends any more.

An object is taken to have one member for each key, as every object that is read from a text has
(`Json.distinctKeys_of_read?`): with two members of one key the path of the second leads to the
first.
-/

namespace TaggedSchema

/-! ## 1. Where evaluations stand -/

/-- What is at the path is the value; or the value is a key, and the path is that of its member. -/
def Json.HasAt (whole : Json) (path : Pointer) (value : Json) : Prop :=
  ∃ part, path.resolve whole = some part ∧ (part = value ∨ ∃ key, value = .string key)

namespace Json.HasAt

variable {whole value : Json} {path : Pointer}

theorem isSome (h : whole.HasAt path value) : (path.resolve whole).isSome = true := by
  obtain ⟨part, hpart, _⟩ := h
  rw [hpart]
  rfl

/-- What is no string stands at its path. -/
theorem resolve_eq (h : whole.HasAt path value) (hvalue : ∀ key, value ≠ .string key) :
    path.resolve whole = some value := by
  obtain ⟨part, hpart, rfl | ⟨key, hkey⟩⟩ := h
  · exact hpart
  · exact absurd hkey (hvalue key)

/-- **A part stands one segment further**, under the segment that names it. -/
theorem partAt (hwhole : whole.DistinctKeys) (h : whole.HasAt path value) {segment : String}
    {part : Json} (hpart : Json.PartAt segment part value) :
    whole.HasAt ⟨path.segments ++ [segment]⟩ part := by
  have hresolve : path.resolve whole = some value := by
    refine h.resolve_eq fun key he => ?_
    rw [he] at hpart
    cases hpart
  have hstep := Pointer.resolve_append hresolve segment
  have hkeys := Pointer.distinctKeys_of_resolve hwhole hresolve
  cases hpart with
  | item hitem =>
    refine ⟨part, ?_, Or.inl rfl⟩
    rw [hstep]
    simp only [Pointer.step?, Pointer.index?_repr, Option.bind_some, hitem]
  | member hmember =>
    refine ⟨part, ?_, Or.inl rfl⟩
    rw [hstep]
    exact (lookup_eq_some_iff_mem hkeys.nodup).mpr hmember
  | @key _ _ member hmember =>
    refine ⟨member, ?_, Or.inr ⟨_, rfl⟩⟩
    rw [hstep]
    exact (lookup_eq_some_iff_mem hkeys.nodup).mpr hmember

/-- The value of a request stands where the frame of the request says. -/
theorem request (hwhole : whole.DistinctKeys) (h : whole.HasAt path value) {r : Request}
    (hr : r.Locates value) : whole.HasAt ⟨path.segments ++ r.segment.toList⟩ r.value := by
  unfold Request.Locates at hr
  cases hsegment : r.segment with
  | none =>
    rw [hsegment] at hr
    dsimp only at hr
    rw [hr, Option.toList_none, List.append_nil]
    exact h
  | some segment =>
    rw [hsegment] at hr
    exact h.partAt hwhole hr

end Json.HasAt

/-! ## 2. Places of errors -/

/-- What says why an instance selects no branch is reported at the instance or at its tag. -/
theorem Discriminator.Refuses.resolves {d : Discriminator} {f : Frame} {whole value : Json}
    {e : ValidationError} (h : d.Refuses f value e) (hf : whole.HasAt f.instancePath value) :
    (e.instanceLocation.resolve whole).isSome = true := by
  have htag {members : List (String × Json)} {raw : Json}
      (hf : whole.HasAt f.instancePath (.object members))
      (hraw : members.lookup d.property = some raw) :
      ((f.instancePath.join d.property).resolve whole).isSome = true := by
    have hobject := hf.resolve_eq fun _ he => by cases he
    have hstep := Pointer.resolve_append hobject d.property
    have hresolve : (f.instancePath.join d.property).resolve whole = some raw :=
      hstep.trans hraw
    rw [hresolve]
    rfl
  cases h with
  | notObject _ => exact hf.isSome
  | absent _ => exact hf.isSome
  | noTag hraw _ => exact htag hf hraw
  | unknown hraw _ _ => exact htag hf hraw

theorem Rule.Reports.resolves {rule : Rule} {keyword : String} {f : Frame} {whole value : Json}
    {e : ValidationError} (h : rule.Reports keyword value f e)
    (hf : whole.HasAt f.instancePath value) :
    (e.instanceLocation.resolve whole).isSome = true := by
  cases h with
  | never => exact hf.isSome
  | own _ => exact hf.isSome
  | refused hrefuses => exact hrefuses.resolves hf

namespace Compiler

variable {c : Compiler} {g : Graph} {start : NodeId} {p : Program} {value : Json}

/-- Every evaluation stands at a place of the instance. -/
theorem maintains_place [Pattern.Library] (hc : c.registry.IsBuiltin)
    (hp : c.compile g start = .ok p) (hvalue : value.DistinctKeys) :
    p.Maintains (fun _ part f => value.HasAt f.instancePath part)
      (fun e => (e.instanceLocation.resolve value).isSome = true) where
  depth := fun _ _ _ hf => hf.isSome
  step := by
    intro id part f hf node hnode k hk
    obtain ⟨_, _, _, hconfined⟩ := confined_of_compile hc hp hnode hk
    refine (hconfined part).mono fun segments r hr => ?_
    rw [Frame.moved_instancePath]
    exact hf.request hvalue hr.1
  report := fun _ _ _ hf _ _ _ _ _ he => he.resolves hf

/-- **Instance locations are places of the instance.** In a report on an instance, whatever the mode,
    the instance location of every error resolves in the instance. -/
theorem instanceLocation_resolves [Pattern.Library] (hc : c.registry.IsBuiltin)
    (hp : c.compile g start = .ok p) (hvalue : value.DistinctKeys) (failFast : Bool) :
    ∀ e ∈ (p.report failFast value).errors,
      (e.instanceLocation.resolve value).isSome = true := by
  intro e he
  have hroot : value.HasAt Frame.root.instancePath value :=
    ⟨value, Pointer.resolve_root value, Or.inl rfl⟩
  exact (maintains_place hc hp hvalue).mem_report hroot he

/-- Objects with a tag and short names. -/
def named : Json :=
  .object
    [("discriminator", .object [("propertyName", .string "t")]),
      ("oneOf", .array
        [.object
          [("properties", .object [("t", .object [("const", .string "a")])]),
            ("required", .array [.string "t"])]]),
      ("propertyNames", .object [("enum", .array [.string "t"])])]

/-- One error at a tag and one below a name. -/
theorem instanceLocation_resolves_named :
    ∃ g p value, Graph.ofDocument named = .ok g ∧ (builtin .default).compile g g.root = .ok p ∧
      Json.read? "\x7b\"long\": 1, \"t\": \"b\"\x7d" = some value ∧
      (p.report false value).errors.map (fun e => (e.instanceLocation.segments, e.keyword))
        = [(["t"], "discriminator"), (["long"], "enum")] ∧
      ∀ e ∈ (p.report false value).errors,
        (e.instanceLocation.resolve value).isSome = true := by
  have hall : ((Graph.ofDocument named).toOption.any fun g =>
      ((builtin .default).compile g g.root).toOption.any fun p =>
        (Json.read? "\x7b\"long\": 1, \"t\": \"b\"\x7d").any fun value =>
          (p.report false value).errors.map (fun e => (e.instanceLocation.segments, e.keyword))
            == [(["t"], "discriminator"), (["long"], "enum")]) = true := by decide +kernel
  obtain ⟨g, hg, hall⟩ := any_toOption_eq_true.mp hall
  obtain ⟨p, hp, hall⟩ := any_toOption_eq_true.mp hall
  obtain ⟨value, hvalue, hall⟩ := (Option.any_eq_true _ _).mp hall
  exact ⟨g, p, value, hg, hp, hvalue, beq_iff_eq.mp hall,
    instanceLocation_resolves Registry.isBuiltin_default hp (Json.distinctKeys_of_read? hvalue)
      false⟩

end Compiler

end TaggedSchema
