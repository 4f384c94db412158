import TaggedSchema.Keyword.Builtin

/-!
# What the built-in keywords ask for

A dialogue may ask for any schema on any value. This file fixes what the built-in checks ask for
(`Check.run_poses`): every request is for a schema that the check holds, under the place at which
it holds it, and about the value itself, where it stays at its place, or about the part of the value
that its segment names, where it descends. No check asks where in the instance it is. A part is an
item, a member, or the key of a member, and is less high than the whole (`Json.Part.height_lt`), so
no chain of descents goes on for ever.
-/

namespace TaggedSchema

/-! ## 1. Parts of a value -/

/-- What a check may descend into. -/
inductive Json.Part : Json → Json → Prop where
  | item {items : List Json} {value : Json} (h : value ∈ items) : Part value (.array items)
  | member {members : List (String × Json)} {key : String} {value : Json}
      (h : (key, value) ∈ members) : Part value (.object members)
  | key {members : List (String × Json)} {key : String} {value : Json}
      (h : (key, value) ∈ members) : Part (.string key) (.object members)

theorem Json.height_le_of_mem_items {value : Json} {items : List Json} (h : value ∈ items) :
    value.height ≤ heightOfItems items := by
  induction items with
  | nil => cases h
  | cons item rest ih =>
    rw [heightOfItems]
    cases h with
    | head => exact Nat.le_max_left _ _
    | tail _ h => exact Nat.le_trans (ih h) (Nat.le_max_right _ _)

theorem Json.height_le_of_mem_members {key : String} {value : Json}
    {members : List (String × Json)} (h : (key, value) ∈ members) :
    value.height ≤ heightOfMembers members := by
  induction members with
  | nil => cases h
  | cons entry rest ih =>
    rw [heightOfMembers]
    cases h with
    | head => exact Nat.le_max_left _ _
    | tail _ h => exact Nat.le_trans (ih h) (Nat.le_max_right _ _)

/-- **Descending lowers the value.** -/
theorem Json.Part.height_lt {part whole : Json} (h : Part part whole) :
    part.height < whole.height := by
  cases h with
  | item h => exact Nat.lt_succ_of_le (height_le_of_mem_items h)
  | member h => exact Nat.lt_succ_of_le (height_le_of_mem_members h)
  | key h => exact Nat.succ_pos _

/-- The part under a segment: the item of an index, the member of a key, or the key itself. -/
inductive Json.PartAt : String → Json → Json → Prop where
  | item {items : List Json} {i : Nat} {value : Json} (h : items[i]? = some value) :
      PartAt (Nat.repr i) value (.array items)
  | member {members : List (String × Json)} {key : String} {value : Json}
      (h : (key, value) ∈ members) : PartAt key value (.object members)
  | key {members : List (String × Json)} {key : String} {value : Json}
      (h : (key, value) ∈ members) : PartAt key (.string key) (.object members)

theorem Json.PartAt.part {segment : String} {part whole : Json} (h : PartAt segment part whole) :
    Part part whole := by
  cases h with
  | item h => exact .item (List.mem_of_getElem? h)
  | member h => exact .member h
  | key h => exact .key h

/-! ## 2. Dialogues that ask for certain things only -/

/-- Every request of the dialogue, whatever the answers before it, is of a kind. -/
def Dialogue.Within (kind : Request → Prop) : Dialogue → Prop
  | .done => True
  | .report _ next => next.Within kind
  | .evaluate _ request next => kind request ∧ ∀ answer, (next answer).Within kind
  | .test request next => kind request ∧ ∀ answer, (next answer).Within kind
  | .whenFull next => ∀ answer, (next answer).Within kind
  | .locate next => ∀ place, (next place).Within kind
  | .note _ next => next.Within kind

theorem Dialogue.Within.mono {kind kind' : Request → Prop} (h : ∀ r, kind r → kind' r)
    {d : Dialogue} (hd : d.Within kind) : d.Within kind' := by
  induction d with
  | done => trivial
  | report message next ih => exact ih hd
  | evaluate place request next ih => exact ⟨h _ hd.1, fun b => ih b (hd.2 b)⟩
  | test request next ih => exact ⟨h _ hd.1, fun b => ih b (hd.2 b)⟩
  | whenFull next ih => exact fun b => ih b (hd b)
  | locate next ih => exact fun place => ih place (hd place)
  | note label next ih => exact ih hd

/-- Every request of the dialogue is of a kind together with its place in the schema, and the
    dialogue never asks where in the instance it is. A schema that is only tested stands under the
    keyword itself. -/
def Dialogue.Confined (kind : SchemaPlace → Request → Prop) : Dialogue → Prop
  | .done => True
  | .report _ next => next.Confined kind
  | .evaluate place request next => kind place request ∧ ∀ answer, (next answer).Confined kind
  | .test request next => kind (.own none) request ∧ ∀ answer, (next answer).Confined kind
  | .whenFull next => ∀ answer, (next answer).Confined kind
  | .locate _ => False
  | .note _ next => next.Confined kind

namespace Dialogue

variable {kind : SchemaPlace → Request → Prop}

/-- What is known of requests at their places is known of the requests. -/
theorem Confined.within {kind' : Request → Prop} (h : ∀ place r, kind place r → kind' r)
    {d : Dialogue} (hd : d.Confined kind) : d.Within kind' := by
  induction d with
  | done => trivial
  | report message next ih => exact ih hd
  | evaluate place request next ih => exact ⟨h _ _ hd.1, fun b => ih b (hd.2 b)⟩
  | test request next ih => exact ⟨h _ _ hd.1, fun b => ih b (hd.2 b)⟩
  | whenFull next ih => exact fun b => ih b (hd b)
  | locate next ih => exact hd.elim
  | note label next ih => exact ih hd

theorem Confined.mono {kind' : SchemaPlace → Request → Prop}
    (h : ∀ place r, kind place r → kind' place r) {d : Dialogue} (hd : d.Confined kind) :
    d.Confined kind' := by
  induction d with
  | done => trivial
  | report message next ih => exact ih hd
  | evaluate place request next ih => exact ⟨h _ _ hd.1, fun b => ih b (hd.2 b)⟩
  | test request next ih => exact ⟨h _ _ hd.1, fun b => ih b (hd.2 b)⟩
  | whenFull next ih => exact fun b => ih b (hd b)
  | locate next ih => exact hd.elim
  | note label next ih => exact ih hd

/-- The evaluations of the dialogue are of one kind, together with their places in the schema, and
    its tests of another, and it never asks where in the instance it is. -/
def Poses (evaluated : SchemaPlace → Request → Prop) (tested : Request → Prop) : Dialogue → Prop
  | .done => True
  | .report _ next => next.Poses evaluated tested
  | .evaluate place request next =>
    evaluated place request ∧ ∀ answer, (next answer).Poses evaluated tested
  | .test request next => tested request ∧ ∀ answer, (next answer).Poses evaluated tested
  | .whenFull next => ∀ answer, (next answer).Poses evaluated tested
  | .locate _ => False
  | .note _ next => next.Poses evaluated tested

variable {evaluated : SchemaPlace → Request → Prop} {tested : Request → Prop}

/-- What is known of both kinds is known of everything the dialogue asks for. -/
theorem Poses.confined (hevaluated : ∀ place r, evaluated place r → kind place r)
    (htested : ∀ r, tested r → kind (.own none) r) {d : Dialogue}
    (hd : d.Poses evaluated tested) : d.Confined kind := by
  induction d with
  | done => trivial
  | report message next ih => exact ih hd
  | evaluate place request next ih => exact ⟨hevaluated _ _ hd.1, fun b => ih b (hd.2 b)⟩
  | test request next ih => exact ⟨htested _ hd.1, fun b => ih b (hd.2 b)⟩
  | whenFull next ih => exact fun b => ih b (hd b)
  | locate next ih => exact hd.elim
  | note label next ih => exact ih hd

theorem Poses.mono {evaluated' : SchemaPlace → Request → Prop} {tested' : Request → Prop}
    (hevaluated : ∀ place r, evaluated place r → evaluated' place r)
    (htested : ∀ r, tested r → tested' r) {d : Dialogue} (hd : d.Poses evaluated tested) :
    d.Poses evaluated' tested' := by
  induction d with
  | done => trivial
  | report message next ih => exact ih hd
  | evaluate place request next ih => exact ⟨hevaluated _ _ hd.1, fun b => ih b (hd.2 b)⟩
  | test request next ih => exact ⟨htested _ hd.1, fun b => ih b (hd.2 b)⟩
  | whenFull next ih => exact fun b => ih b (hd b)
  | locate next ih => exact hd.elim
  | note label next ih => exact ih hd

theorem poses_ite {c : Prop} [Decidable c] {d d' : Dialogue} (h : d.Poses evaluated tested)
    (h' : d'.Poses evaluated tested) : (if c then d else d').Poses evaluated tested := by
  split
  · exact h
  · exact h'

theorem poses_check {place : SchemaPlace} {request : Request} {next : Dialogue}
    (h : evaluated place request) (hnext : next.Poses evaluated tested) :
    (check place request next).Poses evaluated tested :=
  ⟨h, fun _ => hnext⟩

/-- Steps that ask for certain things only make a dialogue that does. -/
theorem poses_each {α : Type} {step : α → Dialogue → Dialogue} {elements : List α}
    (h : ∀ a ∈ elements, ∀ next, next.Poses evaluated tested →
      (step a next).Poses evaluated tested) : (each step elements).Poses evaluated tested := by
  induction elements with
  | nil => trivial
  | cons a rest ih =>
    obtain ⟨ha, hrest⟩ := List.forall_mem_cons.mp h
    intro full
    cases full with
    | true => trivial
    | false => exact ha _ (ih hrest)

end Dialogue

/-! ## 3. The built-in checks -/

/-- The request stays at the value, or descends into a part of it. -/
def Request.About (value : Json) (r : Request) : Prop :=
  match r.segment with
  | none => r.value = value
  | some _ => r.value.Part value

/-- The request stays at the value, or descends into the part that its segment names. -/
def Request.Locates (value : Json) (r : Request) : Prop :=
  match r.segment with
  | none => r.value = value
  | some segment => Json.PartAt segment r.value value

theorem Request.Locates.about {value : Json} {r : Request} (h : r.Locates value) :
    r.About value := by
  unfold Locates at h
  unfold About
  cases hsegment : r.segment with
  | none =>
    rw [hsegment] at h
    exact h
  | some segment =>
    rw [hsegment] at h
    exact Json.PartAt.part h

namespace Check

/-- The schemas that a check holds, each at its place: under the keyword, under an index or a key
    below it, or under a sibling. -/
inductive Offers : Check → SchemaPlace → NodeId → Prop where
  | not {schema : NodeId} : Offers (.not schema) (.own none) schema
  | condition {schema : NodeId} {positive negative : Option NodeId} :
      Offers (.conditional schema positive negative) (.own none) schema
  | positive {condition schema : NodeId} {negative : Option NodeId} :
      Offers (.conditional condition (some schema) negative) (.sibling "then") schema
  | negative {condition schema : NodeId} {positive : Option NodeId} :
      Offers (.conditional condition positive (some schema)) (.sibling "else") schema
  | items {schema : NodeId} {skip : Nat} : Offers (.items schema skip) (.own none) schema
  | position {schemas : List NodeId} {additional : Option NodeId} {i : Nat} {schema : NodeId}
      (h : schemas[i]? = some schema) :
      Offers (.tuple schemas additional) (.own (some (Nat.repr i))) schema
  | additional {schemas : List NodeId} {schema : NodeId} :
      Offers (.tuple schemas (some schema)) (.sibling "additionalItems") schema
  | leading {schemas : List NodeId} {i : Nat} {schema : NodeId} (h : schemas[i]? = some schema) :
      Offers (.leadingItems schemas) (.own (some (Nat.repr i))) schema
  | contains {schema : NodeId} {least : Nat} {most : Option Nat} :
      Offers (.contains schema least most) (.own none) schema
  | additionalProperties {schema : NodeId} {forbidden : Bool} {known : List String}
      {patterns : List NamedPattern} :
      Offers (.additionalProperties schema forbidden known patterns) (.own none) schema
  | pattern {entries : List (NamedPattern × NodeId)} {p : NamedPattern} {schema : NodeId}
      (h : (p, schema) ∈ entries) : Offers (.patternProperties entries) (.own (some p.text)) schema
  | propertyNames {schema : NodeId} : Offers (.propertyNames schema) (.own none) schema
  | dependent {entries : List (String × NodeId)} {name : String} {schema : NodeId}
      (h : (name, schema) ∈ entries) : Offers (.dependentSchemas entries) (.own (some name)) schema

/-- What a check asks for: a schema it holds, at its place, on the value or on the part named. -/
def Asks (c : Check) (value : Json) (place : SchemaPlace) (r : Request) : Prop :=
  r.Locates value ∧ c.Offers place r.schema

/-- The checks that have schemas evaluated at the place of the value. -/
def InPlace : Check → Prop
  | not _ => True
  | conditional .. => True
  | dependentSchemas _ => True
  | _ => False

/-- What a check has evaluated: what it asks for, and at the place of the value only if it is a
    check in place. -/
def Evaluates (c : Check) (value : Json) (place : SchemaPlace) (r : Request) : Prop :=
  c.Asks value place r ∧ (r.segment = none → c.InPlace)

/-- What a check only tests. -/
inductive Tests (value : Json) : Check → Request → Prop where
  | not {schema : NodeId} : Tests value (.not schema) ⟨schema, value, none⟩
  | condition {condition : NodeId} {positive negative : Option NodeId} :
      Tests value (.conditional condition positive negative) ⟨condition, value, none⟩
  | item {schema : NodeId} {least : Nat} {most : Option Nat} {list : List Json} {i : Nat}
      {item : Json} (hvalue : value = .array list) (h : list[i]? = some item) :
      Tests value (.contains schema least most) ⟨schema, item, some (Nat.repr i)⟩

theorem Tests.evaluates {c : Check} {value : Json} {r : Request} (h : Tests value c r) :
    c.Evaluates value (.own none) r := by
  cases h with
  | not => exact ⟨⟨rfl, .not⟩, fun _ => trivial⟩
  | condition => exact ⟨⟨rfl, .condition⟩, fun _ => trivial⟩
  | item hvalue h =>
    subst hvalue
    exact ⟨⟨.item h, .contains⟩, fun hnone => by cases hnone⟩

variable {evaluated : SchemaPlace → Request → Prop} {tested : Request → Prop} {value : Json}

theorem poses_failIf (violation : Option String) : (failIf violation).Poses evaluated tested := by
  cases violation <;> trivial

theorem poses_branch (keyword : String) {schema : Option NodeId}
    (h : ∀ id, schema = some id → evaluated (.sibling keyword) ⟨id, value, none⟩) :
    (branch keyword schema value).Poses evaluated tested := by
  cases schema with
  | none => trivial
  | some schema =>
    refine ⟨h schema rfl, fun passed => ?_⟩
    cases passed <;> trivial

theorem poses_containsVerdict (least : Nat) (most : Option Nat) (found : Nat) :
    (containsVerdict least most found).Poses evaluated tested := by
  unfold containsVerdict
  split
  · trivial
  · cases most with
    | none => trivial
    | some most =>
      dsimp only
      split <;> trivial

theorem poses_countItems {schema : NodeId} (enough : Nat) {verdict : Nat → Dialogue}
    (hv : ∀ n, (verdict n).Poses evaluated tested) {rest : List (Json × Nat)}
    (h : ∀ item ∈ rest, tested ⟨schema, item.1, some (Nat.repr item.2)⟩) (found : Nat) :
    (countItems schema enough verdict found rest).Poses evaluated tested := by
  induction rest generalizing found with
  | nil => exact hv found
  | cons item rest ih =>
    obtain ⟨hitem, hrest⟩ := List.forall_mem_cons.mp h
    unfold countItems
    split
    · exact hv found
    · exact ⟨hitem, fun passes => ih hrest _⟩

theorem partAt_of_mem_zipIdx {list : List Json} {item : Json × Nat} (h : item ∈ list.zipIdx) :
    Json.PartAt (Nat.repr item.2) item.1 (.array list) :=
  .item (List.mem_zipIdx_iff_getElem?.mp h)

/-- The schema beside an item is that of the position of the item. -/
theorem getElem?_of_mem_zip {list : List Json} {schemas : List NodeId}
    {item : (Json × Nat) × NodeId} (h : item ∈ list.zipIdx.zip schemas) :
    list[item.1.2]? = some item.1.1 ∧ schemas[item.1.2]? = some item.2 := by
  obtain ⟨i, hi⟩ := List.mem_iff_getElem?.mp h
  obtain ⟨hitem, hschema⟩ := List.getElem?_zip_eq_some.mp hi
  rw [List.getElem?_zipIdx, Option.map_eq_some_iff] at hitem
  obtain ⟨value, hvalue, he⟩ := hitem
  rw [← he, Nat.zero_add]
  exact ⟨hvalue, hschema⟩

/-- **A check asks for its schemas, at their places, on the value itself or on its parts**, says
    which parts those are, and never asks where it is. What it asks for at the place of the value it
    asks as a check in place; what it only tests are the schemas of `not`, `if` and `contains`. -/
theorem run_poses (c : Check) (value : Json) :
    (c.run value).Poses (c.Evaluates value) (c.Tests value) := by
  have hsome {c : Check} {segment : String} (h : some segment = none) : c.InPlace := by cases h
  cases c with
  | not schema =>
    refine ⟨.not, fun passed => ?_⟩
    cases passed <;> trivial
  | conditional condition positive negative =>
    refine ⟨.condition, fun passed => ?_⟩
    cases passed with
    | true =>
      refine poses_branch _ fun id hid => ⟨⟨rfl, ?_⟩, fun _ => trivial⟩
      subst hid
      exact .positive
    | false =>
      refine poses_branch _ fun id hid => ⟨⟨rfl, ?_⟩, fun _ => trivial⟩
      subst hid
      exact .negative
  | items schema skip =>
    cases value with
    | array list =>
      refine Dialogue.poses_each fun item hitem next hnext => ?_
      have hpart := partAt_of_mem_zipIdx (List.mem_of_mem_drop hitem)
      exact Dialogue.poses_check ⟨⟨hpart, .items⟩, hsome⟩ hnext
    | _ => trivial
  | tuple schemas additional =>
    cases value with
    | array list =>
      refine Dialogue.poses_each fun item hitem next hnext => ?_
      have hpart := partAt_of_mem_zipIdx hitem
      unfold tupleItem
      split
      next hschema => exact Dialogue.poses_check ⟨⟨hpart, .position hschema⟩, hsome⟩ hnext
      next => exact Dialogue.poses_check ⟨⟨hpart, .additional⟩, hsome⟩ hnext
      next => trivial
    | _ => trivial
  | leadingItems schemas =>
    cases value with
    | array list =>
      refine Dialogue.poses_each fun item hitem next hnext => ?_
      obtain ⟨hplace, hschema⟩ := getElem?_of_mem_zip hitem
      exact Dialogue.poses_check ⟨⟨.item hplace, .leading hschema⟩, hsome⟩ hnext
    | _ => trivial
  | contains schema least most =>
    cases value with
    | array list =>
      refine poses_countItems _ (poses_containsVerdict _ _) (fun item hitem => ?_) _
      exact .item rfl (List.mem_zipIdx_iff_getElem?.mp hitem)
    | _ => trivial
  | additionalProperties schema forbidden known patterns =>
    cases value with
    | object members =>
      refine Dialogue.poses_each fun member hmember next hnext => ?_
      exact Dialogue.poses_ite hnext (Dialogue.poses_ite hnext
        (Dialogue.poses_check ⟨⟨.member hmember, .additionalProperties⟩, hsome⟩ hnext))
    | _ => trivial
  | patternProperties entries =>
    cases value with
    | object members =>
      refine Dialogue.poses_each fun pair hpair next hnext => ?_
      obtain ⟨member, hmember, hentry⟩ := List.mem_flatMap.mp hpair
      obtain ⟨entry, hmem, rfl⟩ := List.mem_map.mp hentry
      exact Dialogue.poses_ite
        (Dialogue.poses_check ⟨⟨.member hmember, .pattern hmem⟩, hsome⟩ hnext) hnext
    | _ => trivial
  | propertyNames schema =>
    cases value with
    | object members =>
      refine Dialogue.poses_each fun member hmember next hnext => ?_
      exact Dialogue.poses_check ⟨⟨.key hmember, .propertyNames⟩, hsome⟩ hnext
    | _ => trivial
  | dependentSchemas entries =>
    cases value with
    | object members =>
      refine Dialogue.poses_each fun entry hentry next hnext => ?_
      exact Dialogue.poses_ite
        (Dialogue.poses_check ⟨⟨rfl, .dependent hentry⟩, fun _ => trivial⟩ hnext) hnext
    | _ => trivial
  | bound comparison limit text =>
    cases value with
    | number n => exact Dialogue.poses_ite trivial trivial
    | _ => trivial
  | multipleOf divisor text =>
    cases value with
    | number n => exact Dialogue.poses_ite trivial trivial
    | _ => trivial
  | length limit =>
    cases value with
    | string s => exact poses_failIf _
    | _ => trivial
  | pattern p =>
    cases value with
    | string s => exact Dialogue.poses_ite trivial trivial
    | _ => trivial
  | itemCount limit =>
    cases value with
    | array list => exact poses_failIf _
    | _ => trivial
  | propertyCount limit =>
    cases value with
    | object members => exact poses_failIf _
    | _ => trivial
  | uniqueItems =>
    cases value with
    | array list =>
      simp only [run]
      split <;> trivial
    | _ => trivial

/-- Whatever a check asks for, it asks for as one of its schemas at its place. -/
theorem run_confined (c : Check) (value : Json) : (c.run value).Confined (c.Asks value) :=
  (c.run_poses value).confined (fun _ _ h => h.1) fun _ h => h.evaluates.1

/-- Every request of a check is about the value. -/
theorem run_within (c : Check) (value : Json) : (c.run value).Within (Request.About value) :=
  (c.run_confined value).within fun _ _ h => h.1.about

end Check

end TaggedSchema
