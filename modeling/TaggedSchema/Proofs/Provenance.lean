import TaggedSchema.Proofs.DispatchOutcome

/-!
# Where errors come from

Every error of an evaluation is reported by some rule of some node, or stands for an evaluation that
is nested too deeply; the way from the first node to that one is a way of requests. This file makes
an induction of that. What a rule may have evaluated is told by the segments that lead there in the
schema and by the request itself (`Rule.Requests`, `Rule.Confined`); some of that it hands on, namely
all but what it only tests and alternatives one of which holds (`Rule.HandsOn`). An error of a rule
is its own (`Rule.Reports`) or one of a node that it hands on (`Rule.mem_errors`). So what holds of a
node, a value and a frame, and is kept by every request, is known wherever an error is reported
(`Program.Maintains.mem_report`).

For the programs of built-in keywords each request stays at the value or descends into the part that
its segment names, and its schema is where the segments say (`Compiler.confined_of_compile`).
-/

namespace TaggedSchema

/-! ## 1. What rules may have evaluated -/

/-- The frame of a request: some segments further in the schema, and at the same place of the
    instance or one segment further. -/
def Frame.moved (f : Frame) (segments : List String) (segment : Option String) : Frame :=
  match segment with
  | some segment => f.descended segment segments
  | none => f.nested segments

namespace Frame

theorem requested_eq_moved (f : Frame) (keyword : String) (place : SchemaPlace)
    (segment : Option String) :
    f.requested keyword place segment = f.moved (segmentsOf keyword place) segment := by
  cases segment <;> rfl

@[simp] theorem moved_schemaPath (f : Frame) (segments : List String) (segment : Option String) :
    (f.moved segments segment).schemaPath = ⟨f.schemaPath.segments ++ segments⟩ := by
  cases segment <;> rfl

@[simp] theorem moved_instancePath (f : Frame) (segments : List String) (segment : Option String) :
    (f.moved segments segment).instancePath
      = ⟨f.instancePath.segments ++ segment.toList⟩ := by
  cases segment with
  | none => simp [moved, nested]
  | some segment => rfl

end Frame

namespace Rule

/-- The schemas of a list, asked for by their positions. -/
def ListConfined (kind : List String → Request → Prop) (keyword : String) (value : Json)
    (schemas : List NodeId) : Prop :=
  ∀ i id, schemas[i]? = some id → kind [keyword, Nat.repr i] ⟨id, value, none⟩

/-- Everything a rule may have evaluated on a value is of a kind, by the segments that lead there in
    the schema and by the request. A rule that is left to a plugin does not ask where it is. -/
def Confined (kind : List String → Request → Prop) (keyword : String) (value : Json) :
    Rule → Prop
  | properties entries =>
    ∀ members, value = .object members → ∀ name schema part, (name, schema) ∈ entries →
      members.lookup name = some part → kind [keyword, name] ⟨schema, part, some name⟩
  | ref target => kind [keyword] ⟨target, value, none⟩
  | allOf schemas => ListConfined kind keyword value schemas
  | anyOf schemas => ListConfined kind keyword value schemas
  | oneOf branches => ListConfined kind keyword value branches
  | dispatch _ branches _ => ListConfined kind keyword value branches
  | assertion act =>
    (act value).Confined fun place r => kind (Frame.segmentsOf keyword place) r
  | _ => True

/-- The errors that a rule reports itself. -/
inductive Reports (keyword : String) (value : Json) (f : Frame) : Rule → ValidationError → Prop where
  /-- The `false` schema is reported where it stands. -/
  | never : Reports keyword value f never
      ⟨f.instancePath, f.schemaPath, keyword, "boolean schema is false"⟩
  | own {rule : Rule} {message : String} (h : rule ≠ .never) :
      Reports keyword value f rule (f.error keyword message)
  | refused {d : Discriminator} {branches : List NodeId} {typeChecked : Bool} {e : ValidationError}
      (h : d.Refuses f value e) : Reports keyword value f (dispatch d branches typeChecked) e

end Rule

theorem Rule.Confined.mono {kind kind' : List String → Request → Prop} {keyword : String}
    {value : Json} (h : ∀ segments r, kind segments r → kind' segments r) {rule : Rule}
    (hr : rule.Confined kind keyword value) : rule.Confined kind' keyword value := by
  cases rule with
  | properties entries =>
    intro members hvalue name schema part hentry hpart
    exact h _ _ (hr members hvalue name schema part hentry hpart)
  | ref target => exact h _ _ hr
  | allOf schemas => exact fun i id hid => h _ _ (hr i id hid)
  | anyOf schemas => exact fun i id hid => h _ _ (hr i id hid)
  | oneOf branches => exact fun i id hid => h _ _ (hr i id hid)
  | dispatch d branches typeChecked => exact fun i id hid => h _ _ (hr i id hid)
  | assertion act => exact Dialogue.Confined.mono (fun place r => h _ r) hr
  | _ => trivial

/-- The rules of built-in keywords ask about the value or a part of it, and not where they are. -/
theorem Rule.IsBuiltin.confined {rule : Rule} (h : rule.IsBuiltin) (keyword : String)
    (value : Json) : rule.Confined (fun _ r => r.About value) keyword value := by
  cases rule with
  | assertion act =>
    obtain ⟨check, rfl⟩ := h
    exact (check.run_confined value).mono fun _ _ hr => hr.1.about
  | properties entries =>
    rintro members rfl name schema part _ hpart
    exact .member (mem_of_lookup hpart)
  | ref target => exact rfl
  | allOf schemas => exact fun _ _ _ => rfl
  | anyOf schemas => exact fun _ _ _ => rfl
  | oneOf branches => exact fun _ _ _ => rfl
  | dispatch d branches typeChecked => exact fun _ _ _ => rfl
  | _ => trivial

/-! ## 2. What rules request -/

/-- The dialogue asks for a schema at a place, after some answers. A schema that is only tested
    stands under the keyword itself. -/
def Dialogue.Requests (place : SchemaPlace) (request : Request) : Dialogue → Prop
  | .done => False
  | .report _ next => next.Requests place request
  | .evaluate asked asking next =>
    (asked = place ∧ asking = request) ∨ ∃ answer, (next answer).Requests place request
  | .test asking next =>
    (.own none = place ∧ asking = request) ∨ ∃ answer, (next answer).Requests place request
  | .whenFull next => ∃ answer, (next answer).Requests place request
  | .locate next => ∃ answer, (next answer).Requests place request
  | .note _ next => next.Requests place request

/-- What a rule may ask for on a value, by the segments that lead there in the schema. -/
inductive Rule.Requests (keyword : String) (value : Json) :
    Rule → List String → Request → Prop where
  | property {members : List (String × Json)} {entries : List (String × NodeId)} {name : String}
      {schema : NodeId} {part : Json} (hvalue : value = .object members)
      (hentry : (name, schema) ∈ entries) (hpart : members.lookup name = some part) :
      Requests keyword value (.properties entries) [keyword, name] ⟨schema, part, some name⟩
  | ref {target : NodeId} : Requests keyword value (.ref target) [keyword] ⟨target, value, none⟩
  | allOf {schemas : List NodeId} {i : Nat} {id : NodeId} (h : schemas[i]? = some id) :
      Requests keyword value (.allOf schemas) [keyword, Nat.repr i] ⟨id, value, none⟩
  | anyOf {schemas : List NodeId} {i : Nat} {id : NodeId} (h : schemas[i]? = some id) :
      Requests keyword value (.anyOf schemas) [keyword, Nat.repr i] ⟨id, value, none⟩
  | oneOf {branches : List NodeId} {i : Nat} {id : NodeId} (h : branches[i]? = some id) :
      Requests keyword value (.oneOf branches) [keyword, Nat.repr i] ⟨id, value, none⟩
  | dispatch {d : Discriminator} {branches : List NodeId} {typeChecked : Bool} {i : Nat}
      {id : NodeId} (h : branches[i]? = some id) :
      Requests keyword value (.dispatch d branches typeChecked) [keyword, Nat.repr i]
        ⟨id, value, none⟩
  | assertion {act : Assertion} {place : SchemaPlace} {r : Request}
      (h : (act value).Requests place r) :
      Requests keyword value (.assertion act) (Frame.segmentsOf keyword place) r

/-- A confined dialogue asks for nothing else. -/
theorem Dialogue.Confined.of_requests {kind : SchemaPlace → Request → Prop} {d : Dialogue}
    (h : d.Confined kind) {place : SchemaPlace} {r : Request} (hr : d.Requests place r) :
    kind place r := by
  induction d with
  | done => exact hr.elim
  | report message next ih => exact ih h hr
  | evaluate asked asking next ih =>
    rcases hr with ⟨rfl, rfl⟩ | ⟨answer, hr⟩
    · exact h.1
    · exact ih answer (h.2 answer) hr
  | test asking next ih =>
    rcases hr with ⟨rfl, rfl⟩ | ⟨answer, hr⟩
    · exact h.1
    · exact ih answer (h.2 answer) hr
  | whenFull next ih =>
    obtain ⟨answer, hr⟩ := hr
    exact ih answer (h answer) hr
  | locate next ih => exact h.elim
  | note label next ih => exact ih h hr

/-- **A confined rule requests nothing else.** -/
theorem Rule.Confined.of_requests {kind : List String → Request → Prop} {keyword : String}
    {value : Json} {rule : Rule} (h : rule.Confined kind keyword value) {segments : List String}
    {r : Request} (hr : rule.Requests keyword value segments r) : kind segments r := by
  cases hr with
  | property hvalue hentry hpart => exact h _ hvalue _ _ _ hentry hpart
  | ref => exact h
  | allOf hid => exact h _ _ hid
  | anyOf hid => exact h _ _ hid
  | oneOf hid => exact h _ _ hid
  | dispatch hid => exact h _ _ hid
  | assertion hr => exact Dialogue.Confined.of_requests h hr

/-! ## 3. What rules hand on -/

/-- The dialogue has a schema evaluated on the report, when it is told what a finder finds. -/
def Dialogue.HandsOn (find : Finder) (keyword : String) (f : Frame) (place : SchemaPlace)
    (request : Request) : Dialogue → Prop
  | .done => False
  | .report _ next => next.HandsOn find keyword f place request
  | .evaluate asked asking next =>
    (asked = place ∧ asking = request) ∨
      (next (find asking.schema asking.value
        (f.requested keyword asked asking.segment)).isEmpty).HandsOn find keyword f place request
  | .test asking next =>
    (next (find asking.schema asking.value
      (f.requested keyword (.own none) asking.segment)).isEmpty).HandsOn find keyword f place request
  | .whenFull next => (next false).HandsOn find keyword f place request
  | .locate next => (next f.instancePath).HandsOn find keyword f place request
  | .note _ next => next.HandsOn find keyword f place request

/-- What a rule requests whose errors become its own: alternatives only where none of them holds,
    and nothing that is only tested. -/
inductive Rule.HandsOn (find : Finder) (keyword : String) (value : Json) (f : Frame) :
    Rule → List String → Request → Prop where
  | property {members : List (String × Json)} {entries : List (String × NodeId)} {name : String}
      {schema : NodeId} {part : Json} (hvalue : value = .object members)
      (hentry : (name, schema) ∈ entries) (hpart : members.lookup name = some part) :
      HandsOn find keyword value f (.properties entries) [keyword, name] ⟨schema, part, some name⟩
  | ref {target : NodeId} :
      HandsOn find keyword value f (.ref target) [keyword] ⟨target, value, none⟩
  | allOf {schemas : List NodeId} {i : Nat} {id : NodeId} (h : schemas[i]? = some id) :
      HandsOn find keyword value f (.allOf schemas) [keyword, Nat.repr i] ⟨id, value, none⟩
  | anyOf {schemas : List NodeId} {i : Nat} {id : NodeId}
      (hnone : [] ∉ branchErrors find f keyword value 0 schemas) (h : schemas[i]? = some id) :
      HandsOn find keyword value f (.anyOf schemas) [keyword, Nat.repr i] ⟨id, value, none⟩
  | oneOf {branches : List NodeId} {i : Nat} {id : NodeId}
      (hnone : [] ∉ branchErrors find f keyword value 0 branches) (h : branches[i]? = some id) :
      HandsOn find keyword value f (.oneOf branches) [keyword, Nat.repr i] ⟨id, value, none⟩
  | dispatch {d : Discriminator} {branches : List NodeId} {typeChecked : Bool} {i : Nat}
      {id : NodeId} (hselected : d.selected? value = some i) (h : branches[i]? = some id) :
      HandsOn find keyword value f (.dispatch d branches typeChecked) [keyword, Nat.repr i]
        ⟨id, value, none⟩
  | assertion {act : Assertion} {place : SchemaPlace} {r : Request}
      (h : (act value).HandsOn find keyword f place r) :
      HandsOn find keyword value f (.assertion act) (Frame.segmentsOf keyword place) r

section HandingOn

variable {find : Finder} {keyword : String} {value : Json} {f : Frame}

theorem Dialogue.HandsOn.requests {place : SchemaPlace} {r : Request} {d : Dialogue}
    (h : d.HandsOn find keyword f place r) : d.Requests place r := by
  induction d with
  | done => exact h
  | report message next ih => exact ih h
  | evaluate asked asking next ih => exact h.imp_right fun h => ⟨_, ih _ h⟩
  | test asking next ih => exact Or.inr ⟨_, ih _ h⟩
  | whenFull next ih => exact ⟨_, ih _ h⟩
  | locate next ih => exact ⟨_, ih _ h⟩
  | note label next ih => exact ih h

/-- What is handed on is requested. -/
theorem Rule.HandsOn.requests {rule : Rule} {segments : List String} {r : Request}
    (h : rule.HandsOn find keyword value f segments r) :
    rule.Requests keyword value segments r := by
  cases h with
  | property hvalue hentry hpart => exact .property hvalue hentry hpart
  | ref => exact .ref
  | allOf h => exact .allOf h
  | anyOf _ h => exact .anyOf h
  | oneOf _ h => exact .oneOf h
  | dispatch _ h => exact .dispatch h
  | assertion h => exact .assertion h.requests

end HandingOn

/-! ## 4. Errors of rules -/

section Errors

variable {find : Finder} {keyword : String} {value : Json} {f : Frame} {e : ValidationError}

/-- **An error of a dialogue** is its own, or one of a schema that it hands on. -/
theorem Dialogue.mem_errors {d : Dialogue} (he : e ∈ d.errors find keyword f) :
    (∃ message, e = f.error keyword message) ∨
      ∃ place r, d.HandsOn find keyword f place r ∧
        e ∈ find r.schema r.value (f.requested keyword place r.segment) := by
  induction d with
  | done => cases he
  | report message next ih =>
    rcases List.mem_cons.mp he with rfl | he
    · exact Or.inl ⟨message, rfl⟩
    · exact ih he
  | evaluate place request next ih =>
    rcases List.mem_append.mp he with he | he
    · exact Or.inr ⟨place, request, Or.inl ⟨rfl, rfl⟩, he⟩
    · refine (ih _ he).imp_right ?_
      rintro ⟨place', r, hr, he⟩
      exact ⟨place', r, Or.inr hr, he⟩
  | test request next ih => exact ih _ he
  | whenFull next ih => exact ih _ he
  | locate next ih => exact ih _ he
  | note label next ih => exact ih he

/-- All errors that it hands on are errors of it. -/
theorem Dialogue.HandsOn.mem_errors {d : Dialogue} {place : SchemaPlace} {r : Request}
    (h : d.HandsOn find keyword f place r)
    (he : e ∈ find r.schema r.value (f.requested keyword place r.segment)) :
    e ∈ d.errors find keyword f := by
  induction d with
  | done => exact h.elim
  | report message next ih => exact List.mem_cons_of_mem _ (ih h)
  | evaluate asked asking next ih =>
    rcases h with ⟨rfl, rfl⟩ | h
    · exact List.mem_append_left _ he
    · exact List.mem_append_right _ (ih _ h)
  | test asking next ih => exact ih _ h
  | whenFull next ih => exact ih _ h
  | locate next ih => exact ih _ h
  | note label next ih => exact ih h

namespace Rule

/-- A condition that fails is reported once. -/
theorem eq_of_mem_unless {c : Prop} [Decidable c] {reported : ValidationError}
    (he : e ∈ if c then [] else [reported]) : e = reported := by
  split at he
  · cases he
  · exact List.mem_singleton.mp he

theorem mem_flatten_branchErrors {schemas : List NodeId} :
    e ∈ (branchErrors find f keyword value 0 schemas).flatten ↔
      ∃ i id, schemas[i]? = some id ∧ e ∈ find id value (f.nested [keyword, Nat.repr i]) := by
  constructor
  · intro he
    obtain ⟨found, hfound, he⟩ := List.mem_flatten.mp he
    obtain ⟨⟨schema, i⟩, hentry, rfl⟩ := List.mem_map.mp hfound
    exact ⟨i, schema, List.mem_zipIdx_iff_getElem?.mp hentry, he⟩
  · rintro ⟨i, id, hid, he⟩
    have hentry : (id, i) ∈ schemas.zipIdx := List.mem_zipIdx_iff_getElem?.mpr hid
    exact List.mem_flatten.mpr ⟨_, List.mem_map_of_mem hentry, he⟩

theorem mem_propertyErrors {members : List (String × Json)} {entries : List (String × NodeId)} :
    e ∈ propertyErrors find f keyword members entries ↔
      ∃ name schema part, (name, schema) ∈ entries ∧ members.lookup name = some part ∧
        e ∈ find schema part (f.descended name [keyword, name]) := by
  constructor
  · intro he
    obtain ⟨⟨name, schema⟩, hentry, he⟩ := List.mem_flatMap.mp he
    cases hpart : members.lookup name with
    | none =>
      simp only [hpart] at he
      cases he
    | some part =>
      simp only [hpart] at he
      exact ⟨name, schema, part, hentry, hpart, he⟩
  · rintro ⟨name, schema, part, hentry, hpart, he⟩
    refine List.mem_flatMap.mpr ⟨_, hentry, ?_⟩
    simp only [hpart]
    exact he

theorem any_isEmpty_iff {found : List (List ValidationError)} :
    found.any List.isEmpty = true ↔ [] ∈ found := by
  simp [List.any_eq_true]

theorem anyOfErrors_eq {found : List (List ValidationError)} :
    anyOfErrors f keyword found
      = if [] ∈ found then []
        else found.flatten ++ [f.error keyword "must match a schema in anyOf"] := by
  simp only [anyOfErrors, any_isEmpty_iff]

theorem matched_eq_zero_iff {found : List (List ValidationError)} :
    (found.filter List.isEmpty).length = 0 ↔ [] ∉ found := by
  rw [List.length_eq_zero_iff, List.filter_eq_nil_iff]
  exact ⟨fun h hmem => h [] hmem rfl,
    fun h found hmem hempty => h (List.isEmpty_iff.mp hempty ▸ hmem)⟩

/-- The errors of schemas of `anyOf` are errors of it only where none of them holds. -/
theorem mem_anyOfErrors {found : List (List ValidationError)}
    (he : e ∈ anyOfErrors f keyword found) :
    (∃ message, e = f.error keyword message) ∨ ([] ∉ found ∧ e ∈ found.flatten) := by
  rw [anyOfErrors_eq] at he
  split at he
  · cases he
  next hnone =>
    rcases List.mem_append.mp he with he | he
    · exact Or.inr ⟨hnone, he⟩
    · exact Or.inl ⟨_, List.mem_singleton.mp he⟩

/-- So are those of branches of `oneOf`. -/
theorem mem_oneOfErrors {found : List (List ValidationError)}
    (he : e ∈ oneOfErrors f keyword found) :
    (∃ message, e = f.error keyword message) ∨ ([] ∉ found ∧ e ∈ found.flatten) := by
  simp only [oneOfErrors] at he
  split at he
  · cases he
  · rcases List.mem_append.mp he with he | he
    · split at he
      next hnone => exact Or.inr ⟨matched_eq_zero_iff.mp hnone, he⟩
      next => cases he
    · exact Or.inl ⟨_, List.mem_singleton.mp he⟩

/-- An error of a dispatch says why the instance selects no branch, or is one of the branch. -/
theorem mem_dispatchErrors {d : Discriminator} {branches : List NodeId} {typeChecked : Bool}
    (he : e ∈ dispatchErrors find f keyword d branches typeChecked value) :
    d.Refuses f value e ∨ ∃ i id, d.selected? value = some i ∧ branches[i]? = some id ∧
      e ∈ find id value (f.nested [keyword, Nat.repr i]) := by
  cases hselected : d.selected? value with
  | some i =>
    cases hbranch : branches[i]? with
    | some branch =>
      rw [Discriminator.dispatchErrors_of_selected hselected hbranch] at he
      exact Or.inr ⟨i, branch, rfl, hbranch, he⟩
    | none =>
      obtain ⟨members, raw, tag, rfl, hraw, htag, hi⟩ :=
        Discriminator.selected?_eq_some_iff.mp hselected
      simp only [dispatchErrors, hraw, htag, hi, hbranch] at he
      cases he
  | none =>
    by_cases hexcluded : value.members? = none ∧ typeChecked = true
    · rw [hexcluded.2, Discriminator.dispatchErrors_of_excluded hexcluded.1] at he
      cases he
    · obtain ⟨e', hrefuses, hfound⟩ :=
        Discriminator.dispatchErrors_of_refused hselected hexcluded f keyword branches
      rw [hfound] at he
      exact Or.inl (List.mem_singleton.mp he ▸ hrefuses)

/-- **An error of a rule is its own, or one of a schema that it hands on.** -/
theorem mem_errors {rule : Rule} (he : e ∈ rule.errors find keyword value f) :
    rule.Reports keyword value f e ∨
      ∃ segments r, rule.HandsOn find keyword value f segments r ∧
        e ∈ find r.schema r.value (f.moved segments r.segment) := by
  have hown {rule : Rule} {message : String} (hrule : rule ≠ .never)
      (he : e = f.error keyword message) : rule.Reports keyword value f e := he ▸ .own hrule
  cases rule with
  | never =>
    rw [List.mem_singleton.mp he]
    exact Or.inl .never
  | type types => exact Or.inl (hown (by simp) (eq_of_mem_unless he))
  | const expected => exact Or.inl (hown (by simp) (eq_of_mem_unless he))
  | enum allowed => exact Or.inl (hown (by simp) (eq_of_mem_unless he))
  | required names =>
    cases value with
    | object members =>
      obtain ⟨name, _, rfl⟩ := List.mem_map.mp he
      exact Or.inl (.own (by simp))
    | _ => cases he
  | properties entries =>
    cases value with
    | object members =>
      obtain ⟨name, schema, part, hentry, hpart, he⟩ := mem_propertyErrors.mp he
      exact Or.inr ⟨_, _, .property rfl hentry hpart, he⟩
    | _ => cases he
  | ref target => exact Or.inr ⟨_, _, .ref, he⟩
  | allOf schemas =>
    obtain ⟨i, id, hid, he⟩ := mem_flatten_branchErrors.mp he
    exact Or.inr ⟨_, _, .allOf hid, he⟩
  | anyOf schemas =>
    rcases mem_anyOfErrors he with ⟨message, he⟩ | ⟨hnone, he⟩
    · exact Or.inl (hown (by simp) he)
    · obtain ⟨i, id, hid, he⟩ := mem_flatten_branchErrors.mp he
      exact Or.inr ⟨_, _, .anyOf hnone hid, he⟩
  | oneOf branches =>
    rcases mem_oneOfErrors he with ⟨message, he⟩ | ⟨hnone, he⟩
    · exact Or.inl (hown (by simp) he)
    · obtain ⟨i, id, hid, he⟩ := mem_flatten_branchErrors.mp he
      exact Or.inr ⟨_, _, .oneOf hnone hid, he⟩
  | dispatch d branches typeChecked =>
    rcases mem_dispatchErrors he with hrefuses | ⟨i, id, hselected, hid, he⟩
    · exact Or.inl (.refused hrefuses)
    · exact Or.inr ⟨_, _, .dispatch hselected hid, he⟩
  | assertion act =>
    rcases Dialogue.mem_errors he with ⟨message, he⟩ | ⟨place, r, hr, he⟩
    · exact Or.inl (hown (by simp) he)
    · rw [Frame.requested_eq_moved] at he
      exact Or.inr ⟨_, r, .assertion hr, he⟩

/-- **All errors that a rule hands on are errors of it.** -/
theorem HandsOn.mem_errors {rule : Rule} {segments : List String} {r : Request}
    (h : rule.HandsOn find keyword value f segments r)
    (he : e ∈ find r.schema r.value (f.moved segments r.segment)) :
    e ∈ rule.errors find keyword value f := by
  cases h with
  | property hvalue hentry hpart =>
    subst hvalue
    exact mem_propertyErrors.mpr ⟨_, _, _, hentry, hpart, he⟩
  | ref => exact he
  | allOf hid => exact mem_flatten_branchErrors.mpr ⟨_, _, hid, he⟩
  | anyOf hnone hid =>
    show e ∈ anyOfErrors f keyword _
    rw [anyOfErrors_eq, if_neg hnone]
    exact List.mem_append_left _ (mem_flatten_branchErrors.mpr ⟨_, _, hid, he⟩)
  | oneOf hnone hid =>
    have hmatched := matched_eq_zero_iff.mpr hnone
    show e ∈ oneOfErrors f keyword _
    simp only [oneOfErrors, hmatched]
    exact List.mem_append_left _ (mem_flatten_branchErrors.mpr ⟨_, _, hid, he⟩)
  | dispatch hselected hid =>
    show e ∈ dispatchErrors find f keyword _ _ _ value
    rw [Discriminator.dispatchErrors_of_selected hselected hid]
    exact he
  | assertion hr =>
    rw [← Frame.requested_eq_moved] at he
    exact hr.mem_errors he

end Rule

end Errors

/-! ## 5. Errors of programs -/

namespace Program

/-- **An invariant of evaluations**: it is kept by every request of every rule, and where it holds,
    what is reported has a property. -/
structure Maintains (p : Program) (invariant : NodeId → Json → Frame → Prop)
    (property : ValidationError → Prop) : Prop where
  depth : ∀ id value f, invariant id value f → property (p.depthError f)
  step : ∀ id value f, invariant id value f → ∀ node, p.nodes[id]? = some node →
    ∀ k ∈ node.keywords, k.rule.Confined
      (fun segments r => invariant r.schema r.value (f.moved segments r.segment)) k.name value
  report : ∀ id value f, invariant id value f → ∀ node, p.nodes[id]? = some node →
    ∀ k ∈ node.keywords, ∀ e, k.rule.Reports k.name value f e → property e

variable {p : Program} {invariant : NodeId → Json → Frame → Prop}
  {property : ValidationError → Prop}

/-- Where the invariant holds, every error has the property, by induction on the evaluations inside
    each other. -/
theorem Maintains.mem_errors (h : p.Maintains invariant property) {fuel : Nat} {id : NodeId}
    {value : Json} {f : Frame} (hf : invariant id value f) {e : ValidationError}
    (he : e ∈ p.errors fuel id value f) : property e := by
  induction fuel generalizing id value f with
  | zero =>
    rw [List.mem_singleton.mp he]
    exact h.depth id value f hf
  | succ fuel ih =>
    simp only [errors] at he
    split at he
    · rw [List.mem_singleton.mp he]
      exact h.depth id value f hf
    · cases hnode : p.nodes[id]? with
      | none =>
        rw [hnode] at he
        cases he
      | some node =>
        rw [hnode] at he
        obtain ⟨k, hk, he⟩ := List.mem_flatMap.mp he
        rcases Rule.mem_errors he with hreports | ⟨segments, r, hr, he⟩
        · exact h.report id value f hf node hnode k hk e hreports
        · exact ih ((h.step id value f hf node hnode k hk).of_requests hr.requests) he

/-- **Every error of a report has the property**, where the invariant holds at the root. -/
theorem Maintains.mem_report (h : p.Maintains invariant property) {failFast : Bool} {value : Json}
    (hroot : invariant p.root value .root) {e : ValidationError}
    (he : e ∈ (p.report failFast value).errors) : property e := by
  rw [report_eq_pushAll] at he
  exact h.mem_errors hroot (Report.mem_of_mem_pushAll_empty he)

end Program

/-! ## 6. Programs of built-in keywords -/

namespace Compiler

variable {c : Compiler} {g : Graph} {start id : NodeId} {p : Program}

variable [Pattern.Library]

/-- The rule of a keyword has nothing evaluated but what its node leads to, on the value or a part
    of it. -/
theorem confined_of_keywordRule (hc : c.registry.IsBuiltin) {n : Node}
    {d : Option Discriminator} {name : String} {written : Json} {rule : Rule}
    (hrule : c.keywordRule g id n d name written = .ok (some rule)) (value : Json) :
    rule.Confined (fun segments r => r.Locates value ∧ n.LeadsTo segments r.schema) name value := by
  rcases keywordRule_cases hrule with
    ⟨core, hname, hcore⟩ | ⟨_, hnone⟩ | ⟨plugin, act, _, hplugin, hact, he⟩
  · have hlist {keyword : String} {schemas : List NodeId}
        (hschemas : n.childList? keyword = some schemas) :
        Rule.ListConfined (fun segments r => r.Locates value ∧ n.LeadsTo segments r.schema)
          keyword value schemas :=
      fun i id hid => ⟨rfl, Node.leadsTo_of_childList? hschemas hid⟩
    have hkeyword : name = core.name := name_of_ofName? hname
    subst hkeyword
    cases hcore with
    | type h => trivial
    | const => trivial
    | enum h => trivial
    | required h => trivial
    | properties h =>
      rintro members rfl key schema part hentry hpart
      exact ⟨.member (mem_of_lookup hpart), Node.leadsTo_of_childMap? h hentry⟩
    | ref h => exact ⟨rfl, .reference h⟩
    | allOf h => exact hlist h
    | anyOf h => exact hlist h
    | oneOf h _ => exact hlist h
    | dispatch h _ => exact hlist h
  · cases hnone
  · cases act with
    | none => cases he
    | some act =>
      cases he
      obtain ⟨entry, hentry, rfl⟩ := hc _ _ hplugin
      obtain ⟨check, hcheck, rfl⟩ := Builtin.exists_check_of_plugin hact
      refine (check.run_confined value).mono fun place r hr => ⟨hr.1, ?_⟩
      exact Builtin.leadsOwn_of_mem hentry _ check hcheck place r.schema hr.2

/-- **What a compiled node has evaluated is where the schema has it**, on the value or a part of
    it, as the request says. -/
theorem confined_of_compile (hc : c.registry.IsBuiltin) (hp : c.compile g start = .ok p)
    {node : CompiledNode} (hnode : p.nodes[id]? = some node) {k : CompiledKeyword}
    (hk : k ∈ node.keywords) :
    ∃ n, g.node? id = some n ∧ c.compileNode g id n = .ok node ∧ ∀ value,
      k.rule.Confined (fun segments r => r.Locates value ∧ n.LeadsTo segments r.schema) k.name
        value := by
  obtain ⟨_, n, hn, hcompiled⟩ := compileNode_of_keyword hp hnode hk
  refine ⟨n, hn, hcompiled, fun value => ?_⟩
  rcases keywordRule_of_compileNode hcompiled hk with hnever | ⟨_, _, _, _, hrule⟩
  · rw [hnever]
    trivial
  · exact confined_of_keywordRule hc hrule value

end Compiler

end TaggedSchema
