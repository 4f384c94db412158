import TaggedSchema.Proofs.Evaluation
import TaggedSchema.Proofs.Requests
import Mathlib.Data.List.Forall2

/-!
# What the errors of a rule depend on

A rule looks at other schemas only through what they have against the values it evaluates them on.
This file says which those are (`Rule.Within`) and that two finders which agree there make the rule
agree (`Rule.errors_rel`). Agreement is any relation of error lists that is kept by everything a
rule does with them (`Agreement`): equality is one, and so is that both lists are empty or neither
is (`SameVerdict`).
-/

namespace TaggedSchema

/-! ## 1. Agreement of error lists -/

/-- A relation of error lists that rules preserve. -/
structure Agreement (R : List ValidationError → List ValidationError → Prop) : Prop where
  refl : ∀ es, R es es
  append : ∀ {es es' more more'}, R es es' → R more more' → R (es ++ more) (es' ++ more')
  isEmpty : ∀ {es es'}, R es es' → es.isEmpty = es'.isEmpty

/-- Both lists are empty, or neither is. -/
def SameVerdict (es es' : List ValidationError) : Prop := es.isEmpty = es'.isEmpty

theorem sameVerdict_iff {es es' : List ValidationError} :
    SameVerdict es es' ↔ (es = [] ↔ es' = []) := by
  unfold SameVerdict
  rw [← List.isEmpty_iff, ← List.isEmpty_iff, Bool.eq_iff_iff]

theorem agreement_eq : Agreement Eq :=
  ⟨fun _ => rfl, fun h h' => h ▸ h' ▸ rfl, fun h => h ▸ rfl⟩

theorem agreement_sameVerdict : Agreement SameVerdict := by
  have happend (es more : List ValidationError) :
      (es ++ more).isEmpty = (es.isEmpty && more.isEmpty) := by
    cases es <;> rfl
  refine ⟨fun _ => rfl, fun h h' => ?_, id⟩
  unfold SameVerdict at *
  rw [happend, happend, h, h']

namespace Agreement

variable {R : List ValidationError → List ValidationError → Prop}

theorem flatten (hR : Agreement R) {found found' : List (List ValidationError)}
    (h : List.Forall₂ R found found') : R found.flatten found'.flatten := by
  induction h with
  | nil => exact hR.refl []
  | cons h _ ih => exact hR.append h ih

theorem map_isEmpty (hR : Agreement R) {found found' : List (List ValidationError)}
    (h : List.Forall₂ R found found') : found.map List.isEmpty = found'.map List.isEmpty := by
  induction h with
  | nil => rfl
  | cons h _ ih => rw [List.map_cons, List.map_cons, hR.isEmpty h, ih]

/-- As many lists are empty on one side as on the other. -/
theorem length_filter_isEmpty (hR : Agreement R) {found found' : List (List ValidationError)}
    (h : List.Forall₂ R found found') :
    (found.filter List.isEmpty).length = (found'.filter List.isEmpty).length := by
  rw [← List.countP_eq_length_filter, ← List.countP_eq_length_filter]
  have hcount (l : List (List ValidationError)) :
      l.countP List.isEmpty = (l.map List.isEmpty).countP id := by
    rw [List.countP_map]
    rfl
  rw [hcount, hcount, hR.map_isEmpty h]

theorem any_isEmpty (hR : Agreement R) {found found' : List (List ValidationError)}
    (h : List.Forall₂ R found found') : found.any List.isEmpty = found'.any List.isEmpty := by
  have hany (l : List (List ValidationError)) :
      l.any List.isEmpty = (l.map List.isEmpty).any id := by
    rw [List.any_map]
    rfl
  rw [hany, hany, hR.map_isEmpty h]

end Agreement

/-! ## 2. What a rule evaluates -/

/-- Schemas of a list, evaluated at the same place. -/
def ListWithin (kind : NodeId → Json → Frame → Prop) (keyword : String) (value : Json) (f : Frame)
    (schemas : List NodeId) : Prop :=
  ∀ index schema, schemas[index]? = some schema →
    kind schema value (f.nested [keyword, Nat.repr index])

/-- Everything a rule may evaluate on a value in a frame is of a kind. -/
def Rule.Within (kind : NodeId → Json → Frame → Prop) (keyword : String) (value : Json)
    (f : Frame) : Rule → Prop
  | .properties entries =>
    ∀ members, value = .object members → ∀ name schema part, (name, schema) ∈ entries →
      members.lookup name = some part → kind schema part (f.descended name [keyword, name])
  | .ref target => kind target value (f.nested [keyword])
  | .allOf schemas => ListWithin kind keyword value f schemas
  | .anyOf schemas => ListWithin kind keyword value f schemas
  | .oneOf branches => ListWithin kind keyword value f branches
  | .dispatch _ branches _ => ListWithin kind keyword value f branches
  | .assertion act =>
    (act value).Within fun r =>
      ∀ place, kind r.schema r.value (f.requested keyword place r.segment)
  | _ => True

/-! ## 3. Rules on agreeing finders -/

variable {R : List ValidationError → List ValidationError → Prop} {find find' : Finder}
  {kind : NodeId → Json → Frame → Prop}

theorem Dialogue.errors_rel (hR : Agreement R) (keyword : String) (f : Frame) {d : Dialogue}
    (h : d.Within fun r => ∀ place,
      R (find r.schema r.value (f.requested keyword place r.segment))
        (find' r.schema r.value (f.requested keyword place r.segment))) :
    R (d.errors find keyword f) (d.errors find' keyword f) := by
  induction d with
  | done => exact hR.refl []
  | report message next ih => exact hR.append (hR.refl [_]) (ih h)
  | evaluate place request next ih =>
    have hanswer := hR.isEmpty (h.1 place)
    simp only [Dialogue.errors]
    rw [hanswer]
    exact hR.append (h.1 place) (ih _ (h.2 _))
  | test request next ih =>
    have hanswer := hR.isEmpty (h.1 (.own none))
    simp only [Dialogue.errors]
    rw [hanswer]
    exact ih _ (h.2 _)
  | whenFull next ih => exact ih false (h false)
  | locate next ih => exact ih f.instancePath (h f.instancePath)
  | note label next ih => exact ih h

theorem Rule.branchErrors_rel {f : Frame} {keyword : String} {value : Json}
    (h : ∀ id v f', kind id v f' → R (find id v f') (find' id v f')) {schemas : List NodeId}
    (hw : ListWithin kind keyword value f schemas) :
    List.Forall₂ R (branchErrors find f keyword value 0 schemas)
      (branchErrors find' f keyword value 0 schemas) := by
  unfold branchErrors
  rw [List.forall₂_map_left_iff, List.forall₂_map_right_iff, List.forall₂_same]
  intro entry hentry
  exact h _ _ _ (hw entry.2 entry.1 (List.mem_zipIdx_iff_getElem?.mp hentry))

theorem Rule.propertyErrors_rel (hR : Agreement R) {f : Frame} {keyword : String}
    (h : ∀ id v f', kind id v f' → R (find id v f') (find' id v f'))
    {members : List (String × Json)} {entries : List (String × NodeId)}
    (hw : ∀ name schema part, (name, schema) ∈ entries → members.lookup name = some part →
      kind schema part (f.descended name [keyword, name])) :
    R (propertyErrors find f keyword members entries)
      (propertyErrors find' f keyword members entries) := by
  induction entries with
  | nil => exact hR.refl []
  | cons entry rest ih =>
    have hrest := ih fun name schema part hmem => hw name schema part (List.mem_cons_of_mem _ hmem)
    refine hR.append ?_ hrest
    dsimp only
    cases hpart : members.lookup entry.1 with
    | none => exact hR.refl []
    | some part => exact h _ _ _ (hw entry.1 entry.2 part List.mem_cons_self hpart)

theorem Rule.oneOfErrors_rel (hR : Agreement R) (f : Frame) (keyword : String)
    {found found' : List (List ValidationError)} (h : List.Forall₂ R found found') :
    R (oneOfErrors f keyword found) (oneOfErrors f keyword found') := by
  unfold oneOfErrors
  rw [hR.length_filter_isEmpty h]
  dsimp only
  split
  · exact hR.refl []
  · refine hR.append ?_ (hR.refl _)
    split
    · exact hR.flatten h
    · exact hR.refl []

theorem Rule.anyOfErrors_rel (hR : Agreement R) (f : Frame) (keyword : String)
    {found found' : List (List ValidationError)} (h : List.Forall₂ R found found') :
    R (anyOfErrors f keyword found) (anyOfErrors f keyword found') := by
  unfold anyOfErrors
  rw [hR.any_isEmpty h]
  split
  · exact hR.refl []
  · exact hR.append (hR.flatten h) (hR.refl _)

theorem Rule.dispatchErrors_rel (hR : Agreement R) {f : Frame} {keyword : String} {value : Json}
    (h : ∀ id v f', kind id v f' → R (find id v f') (find' id v f')) (d : Discriminator)
    {branches : List NodeId} (typeChecked : Bool)
    (hw : ListWithin kind keyword value f branches) :
    R (dispatchErrors find f keyword d branches typeChecked value)
      (dispatchErrors find' f keyword d branches typeChecked value) := by
  unfold dispatchErrors
  cases value with
  | object members =>
    dsimp only
    cases members.lookup d.property with
    | none => exact hR.refl _
    | some raw =>
      dsimp only
      cases Tag.ofJson? raw with
      | none => exact hR.refl _
      | some tag =>
        dsimp only
        cases d.branchFor? tag with
        | none => exact hR.refl _
        | some index =>
          dsimp only
          cases hbranch : branches[index]? with
          | none => exact hR.refl _
          | some branch => exact h _ _ _ (hw index branch hbranch)
  | _ => exact hR.refl _

/-- **Finders that agree on what a rule evaluates make the rule agree.** -/
theorem Rule.errors_rel (hR : Agreement R) {keyword : String} {value : Json} {f : Frame}
    (h : ∀ id v f', kind id v f' → R (find id v f') (find' id v f')) {rule : Rule}
    (hw : rule.Within kind keyword value f) :
    R (rule.errors find keyword value f) (rule.errors find' keyword value f) := by
  cases rule with
  | properties entries =>
    cases value with
    | object members => exact propertyErrors_rel hR h (hw members rfl)
    | _ => exact hR.refl []
  | ref target => exact h _ _ _ hw
  | allOf schemas => exact hR.flatten (branchErrors_rel h hw)
  | anyOf schemas => exact anyOfErrors_rel hR f keyword (branchErrors_rel h hw)
  | oneOf branches => exact oneOfErrors_rel hR f keyword (branchErrors_rel h hw)
  | dispatch d branches typeChecked => exact dispatchErrors_rel hR h d typeChecked hw
  | assertion act =>
    refine Dialogue.errors_rel hR keyword f (Dialogue.Within.mono (fun _ hr place => ?_) hw)
    exact h _ _ _ (hr place)
  | _ => exact hR.refl _

/-- Keywords that agree one by one make nodes that agree. -/
theorem Program.keywordErrors_rel (hR : Agreement R) {value : Json} {f : Frame}
    {keywords keywords' : List CompiledKeyword}
    (h : List.Forall₂ (fun k k' => R (k.rule.errors find k.name value f)
      (k'.rule.errors find' k'.name value f)) keywords keywords') :
    R (keywordErrors find value f keywords) (keywordErrors find' value f keywords') := by
  induction h with
  | nil => exact hR.refl []
  | cons h _ ih => exact hR.append h ih

end TaggedSchema
