import TaggedSchema.Proofs.Provenance

/-!
# Evaluating elsewhere

Where a node is evaluated makes no difference but in the locations of what is found: under other
paths it finds the same errors, in the same order, each under these paths
(`Compiler.evaluate_relocates`). Every frame of an evaluation is the frame at the root, moved as a
whole (`Frame.under`), and no built-in keyword asks where it is; so each kind of rule commutes with
moving the errors of the nodes it has evaluated, and nodes do by induction on the evaluations inside
each other.
-/

namespace TaggedSchema

/-! ## 1. Moving frames and errors -/

/-- The error, with both places taken from other places. -/
def ValidationError.under (ip sp : Pointer) (e : ValidationError) : ValidationError :=
  { e with
    instanceLocation := ip.concat e.instanceLocation
    schemaLocation := sp.concat e.schemaLocation }

/-- The frame, with both places taken from other places. -/
def Frame.under (ip sp : Pointer) (f : Frame) : Frame :=
  { f with instancePath := ip.concat f.instancePath, schemaPath := sp.concat f.schemaPath }

section Moving

variable (ip sp : Pointer)

theorem Pointer.concat_join (p q : Pointer) (segment : String) :
    (p.concat q).join segment = p.concat (q.join segment) := by
  simp only [concat, join, List.append_assoc]

namespace Frame

theorem under_root (depth : Nat) :
    (⟨.root, .root, depth⟩ : Frame).under ip sp = ⟨ip, sp, depth⟩ := by
  simp only [under, Pointer.concat, Pointer.root, List.append_nil]

@[simp] theorem error_under (f : Frame) (keyword message : String) :
    (f.under ip sp).error keyword message = (f.error keyword message).under ip sp := by
  simp only [error, under, ValidationError.under, Pointer.concat_join]

@[simp] theorem nested_under (f : Frame) (segments : List String) :
    (f.under ip sp).nested segments = (f.nested segments).under ip sp := by
  simp only [nested, under, Pointer.concat, List.append_assoc]

@[simp] theorem descended_under (f : Frame) (segment : String) (segments : List String) :
    (f.under ip sp).descended segment segments = (f.descended segment segments).under ip sp := by
  simp only [descended, under, Pointer.concat_join]
  simp only [Pointer.concat, List.append_assoc]

@[simp] theorem requested_under (f : Frame) (keyword : String) (place : SchemaPlace)
    (segment : Option String) :
    (f.under ip sp).requested keyword place segment
      = (f.requested keyword place segment).under ip sp := by
  cases segment with
  | none => exact nested_under ip sp f _
  | some segment => exact descended_under ip sp f segment _

/-- The frame of a tag. -/
theorem joined_under (f : Frame) (segment : String) :
    ({ f.under ip sp with instancePath := (f.under ip sp).instancePath.join segment } : Frame)
      = ({ f with instancePath := f.instancePath.join segment } : Frame).under ip sp := by
  simp only [under, Pointer.concat_join]

end Frame

end Moving

/-- What is found elsewhere is what is found here, moved. -/
def Finder.Relocates (find : Finder) (ip sp : Pointer) : Prop :=
  ∀ id value f, find id value (f.under ip sp) = (find id value f).map (·.under ip sp)

/-! ## 2. Rules -/

section Rules

variable {ip sp : Pointer} {find : Finder}

/-- A dialogue finds elsewhere what it finds here, if the place in the instance stays or is never
    asked for. -/
theorem Dialogue.errors_under (h : find.Relocates ip sp) {kind : SchemaPlace → Request → Prop}
    {d : Dialogue} (hd : ip = .root ∨ d.Confined kind) (keyword : String) (f : Frame) :
    d.errors find keyword (f.under ip sp) = (d.errors find keyword f).map (·.under ip sp) := by
  induction d with
  | done => rfl
  | report message next ih => simp only [errors, Frame.error_under, ih hd, List.map_cons]
  | evaluate place request next ih =>
    have hfound := h request.schema request.value (f.requested keyword place request.segment)
    simp only [errors, Frame.requested_under, hfound, List.isEmpty_map, List.map_append]
    rw [ih _ (hd.imp_right fun hconfined => hconfined.2 _)]
  | test request next ih =>
    have hfound := h request.schema request.value (f.requested keyword (.own none) request.segment)
    simp only [errors, Frame.requested_under, hfound, List.isEmpty_map]
    rw [ih _ (hd.imp_right fun hconfined => hconfined.2 _)]
  | whenFull next ih => exact ih false (hd.imp_right fun hconfined => hconfined false)
  | locate next ih =>
    rcases hd with rfl | hconfined
    · exact ih f.instancePath (Or.inl rfl)
    · exact hconfined.elim
  | note label next ih => exact ih hd

namespace Rule

variable {keyword : String} {value : Json} {f : Frame}

/-- One error, unless a condition holds. -/
theorem error_unless_under (c : Prop) [Decidable c] (message : String) :
    (if c then [] else [(f.under ip sp).error keyword message])
      = (if c then [] else [f.error keyword message]).map (·.under ip sp) := by
  split
  · rfl
  · rw [Frame.error_under]
    rfl

theorem requiredErrors_under (members : List (String × Json)) (names : List String) :
    requiredErrors (f.under ip sp) keyword members names
      = (requiredErrors f keyword members names).map (·.under ip sp) := by
  simp only [requiredErrors, Frame.error_under, List.map_map]
  rfl

theorem propertyErrors_under (h : find.Relocates ip sp) (members : List (String × Json))
    (entries : List (String × NodeId)) :
    propertyErrors find (f.under ip sp) keyword members entries
      = (propertyErrors find f keyword members entries).map (·.under ip sp) := by
  unfold propertyErrors
  rw [List.map_flatMap]
  congr 1
  funext entry
  cases members.lookup entry.1 with
  | none => rfl
  | some part =>
    dsimp only
    rw [Frame.descended_under, h]

theorem branchErrors_under (h : find.Relocates ip sp) (schemas : List NodeId) :
    branchErrors find (f.under ip sp) keyword value 0 schemas
      = (branchErrors find f keyword value 0 schemas).map (List.map (·.under ip sp)) := by
  unfold branchErrors
  rw [List.map_map]
  congr 1
  funext ⟨schema, index⟩
  show find schema value ((f.under ip sp).nested [keyword, Nat.repr index])
    = (find schema value (f.nested [keyword, Nat.repr index])).map (·.under ip sp)
  rw [Frame.nested_under, h]

theorem anyOfErrors_under (found : List (List ValidationError)) :
    anyOfErrors (f.under ip sp) keyword (found.map (List.map (·.under ip sp)))
      = (anyOfErrors f keyword found).map (·.under ip sp) := by
  have hany : (found.map (List.map (·.under ip sp))).any List.isEmpty = found.any List.isEmpty := by
    rw [List.any_map]
    congr 1
    funext es
    exact List.isEmpty_map
  unfold anyOfErrors
  rw [hany]
  split
  · rfl
  · rw [List.map_append, List.map_flatten, Frame.error_under]
    rfl

theorem oneOfErrors_under (found : List (List ValidationError)) :
    oneOfErrors (f.under ip sp) keyword (found.map (List.map (·.under ip sp)))
      = (oneOfErrors f keyword found).map (·.under ip sp) := by
  have hmatched : ((found.map (List.map (·.under ip sp))).filter List.isEmpty).length
      = (found.filter List.isEmpty).length := by
    rw [List.filter_map, List.length_map]
    congr 2
    funext es
    exact List.isEmpty_map
  simp only [oneOfErrors, hmatched]
  split
  · rfl
  · rw [List.map_append, Frame.error_under]
    split
    · rw [List.map_flatten]
      rfl
    · rfl

theorem dispatchErrors_under (h : find.Relocates ip sp) (d : Discriminator)
    (branches : List NodeId) (typeChecked : Bool) :
    dispatchErrors find (f.under ip sp) keyword d branches typeChecked value
      = (dispatchErrors find f keyword d branches typeChecked value).map (·.under ip sp) := by
  unfold dispatchErrors
  cases value with
  | object members =>
    dsimp only
    cases members.lookup d.property with
    | none =>
      dsimp only
      rw [Frame.error_under]
      rfl
    | some raw =>
      dsimp only
      cases Tag.ofJson? raw with
      | none =>
        dsimp only
        rw [Frame.joined_under, Frame.error_under]
        rfl
      | some tag =>
        dsimp only
        cases d.branchFor? tag with
        | none =>
          dsimp only
          rw [Frame.joined_under, Frame.error_under]
          rfl
        | some index =>
          dsimp only
          cases branches[index]? with
          | none => rfl
          | some branch =>
            dsimp only
            rw [Frame.nested_under, h]
  | _ => exact error_unless_under _ _

/-- **A rule finds elsewhere what it finds here.** -/
theorem errors_under (h : find.Relocates ip sp) {kind : List String → Request → Prop} {rule : Rule}
    (hr : ip = .root ∨ rule.Confined kind keyword value) :
    rule.errors find keyword value (f.under ip sp)
      = (rule.errors find keyword value f).map (·.under ip sp) := by
  cases rule with
  | never => rfl
  | type types => exact error_unless_under _ _
  | const expected => exact error_unless_under _ _
  | enum allowed => exact error_unless_under _ _
  | required names =>
    cases value with
    | object members => exact requiredErrors_under members names
    | _ => rfl
  | properties entries =>
    cases value with
    | object members => exact propertyErrors_under h members entries
    | _ => rfl
  | ref target =>
    simp only [errors]
    rw [Frame.nested_under, h]
  | allOf schemas =>
    simp only [errors]
    rw [branchErrors_under h, List.map_flatten]
  | anyOf schemas =>
    simp only [errors]
    rw [branchErrors_under h, anyOfErrors_under]
  | oneOf branches =>
    simp only [errors]
    rw [branchErrors_under h, oneOfErrors_under]
  | dispatch d branches typeChecked => exact dispatchErrors_under h d branches typeChecked
  | assertion act => exact Dialogue.errors_under h hr keyword f

end Rule

end Rules

/-! ## 3. Programs -/

namespace Program

variable {p : Program} {ip sp : Pointer}

/-- A program finds elsewhere what it finds here, if it is built in or the place in the instance
    stays. -/
theorem errors_under_of (hp : ip = .root ∨ p.IsBuiltin) (sp : Pointer) (fuel : Nat) :
    (p.errors fuel).Relocates ip sp := by
  induction fuel with
  | zero => exact fun _ _ _ => rfl
  | succ fuel ih =>
    intro id value f
    simp only [errors]
    have hdepth : (f.under ip sp).depth = f.depth := rfl
    rw [hdepth]
    split
    · rfl
    · cases hnode : p.nodes[id]? with
      | none => rfl
      | some node =>
        dsimp only
        unfold keywordErrors
        rw [List.map_flatMap]
        refine List.flatMap_congr fun k hk => ?_
        exact Rule.errors_under ih
          (hp.imp_right fun hbuiltin => (hbuiltin id node hnode k hk).confined k.name value)

theorem errors_under (hp : p.IsBuiltin) (ip sp : Pointer) (fuel : Nat) :
    (p.errors fuel).Relocates ip sp :=
  errors_under_of (Or.inr hp) sp fuel

/-- **Whether a schema finds anything does not depend on the way in the schema** on which it was
    reached, whatever keywords a host has added. -/
theorem isEmpty_errors_schemaPath (p : Program) (fuel : Nat) (id : NodeId) (value : Json)
    (ip sp sp' : Pointer) (depth : Nat) :
    (p.errors fuel id value ⟨ip, sp, depth⟩).isEmpty
      = (p.errors fuel id value ⟨ip, sp', depth⟩).isEmpty := by
  have hroot (way : Pointer) : (p.errors fuel id value ⟨ip, way, depth⟩).isEmpty
      = (p.errors fuel id value ⟨ip, .root, depth⟩).isEmpty := by
    have hmoved := errors_under_of (p := p) (Or.inl rfl) way fuel id value ⟨ip, .root, depth⟩
    have hframe : (⟨ip, .root, depth⟩ : Frame).under .root way = ⟨ip, way, depth⟩ := by
      simp [Frame.under, Pointer.concat, Pointer.root]
    rw [hframe] at hmoved
    rw [hmoved, List.isEmpty_map]
  rw [hroot sp, hroot sp']

end Program

/-- **Relocation.** Under any two paths a node records, on any report, the errors that it records at
    the root, in the same order, each with both locations below these paths, and with the same
    keyword and message. So neither the errors of a report nor its verdict depend on where in the
    instance or in the schema the node is evaluated. -/
theorem Compiler.evaluate_relocates [Pattern.Library] {c : Compiler} (hc : c.registry.IsBuiltin)
    {g : Graph} {start : NodeId} {p : Program} (hp : c.compile g start = .ok p) (fuel : Nat)
    (id : NodeId)
    (value : Json) (depth : Nat) (ip sp : Pointer) :
    (∀ out, p.evaluate fuel id value ⟨ip, sp, depth⟩ out
      = out.pushAll ((p.recorded fuel id value ⟨.root, .root, depth⟩).map (·.under ip sp))) ∧
    ∀ failFast,
      (p.evaluate fuel id value ⟨ip, sp, depth⟩ (.empty failFast)).errors
        = (p.evaluate fuel id value ⟨.root, .root, depth⟩ (.empty failFast)).errors.map
            (·.under ip sp) ∧
      (p.evaluate fuel id value ⟨ip, sp, depth⟩ (.empty failFast)).isEmpty
        = (p.evaluate fuel id value ⟨.root, .root, depth⟩ (.empty failFast)).isEmpty := by
  have hmoved := Program.errors_under (isBuiltin_of_registry hc hp) ip sp fuel id value
    ⟨.root, .root, depth⟩
  rw [Frame.under_root] at hmoved
  rw [Program.recorded_eq_errors]
  refine ⟨fun out => ?_, fun failFast => ⟨?_, ?_⟩⟩
  · rw [p.evaluate_eq_pushAll, hmoved]
  · rw [p.evaluate_eq_pushAll, p.evaluate_eq_pushAll, hmoved, Report.errors_empty_pushAll_map]
  · rw [p.evaluate_eq_pushAll, p.evaluate_eq_pushAll, hmoved, Report.isEmpty_empty_pushAll,
      Report.isEmpty_empty_pushAll, List.isEmpty_map]

theorem Compiler.evaluate_relocates_letters :
    ∃ g p, Graph.ofDocument letters = .ok g ∧ (builtin .default).compile g g.root = .ok p ∧
      (p.evaluate 7 g.root (.object []) ⟨⟨["x"]⟩, ⟨["properties", "x"]⟩, 3⟩ (.empty false)).errors
        = [⟨⟨["x"]⟩, ⟨["properties", "x", "discriminator"]⟩, "discriminator",
            "tag \"k\" must be present"⟩] := by
  have hall : ((Graph.ofDocument letters).toOption.any fun g =>
      ((builtin .default).compile g g.root).toOption.any fun p =>
        (p.evaluate 7 g.root (.object []) ⟨.root, .root, 3⟩ (.empty false)).errors
          == [⟨.root, ⟨["discriminator"]⟩, "discriminator", "tag \"k\" must be present"⟩])
        = true := by decide +kernel
  obtain ⟨g, hg, hall⟩ := any_toOption_eq_true.mp hall
  obtain ⟨p, hp, hall⟩ := any_toOption_eq_true.mp hall
  refine ⟨g, p, hg, hp, ?_⟩
  have hmoved := (evaluate_relocates Registry.isBuiltin_default hp 7 g.root (.object []) 3 ⟨["x"]⟩
    ⟨["properties", "x"]⟩).2 false
  rw [hmoved.1, beq_iff_eq.mp hall]
  rfl

end TaggedSchema
