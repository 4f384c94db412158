import TaggedSchema.Proofs.DistinctKeys
import TaggedSchema.Proofs.Positions
import Mathlib.Data.Set.Function

/-!
# Pointers as addresses

A place in a document is come to step by step, by the key of a member or the index of an item
(`Json.Leads`). A pointer has texts for both, and does not say which of them a text is: the value
that it meets does. This file shows that nothing is lost by that. Along different places run
different pointers, and every pointer that resolves runs along a place (`Pointer.bijOn_along`), since
an item has no second spelling: what names an item is the canonical decimal of its index
(`Pointer.step?_array_eq_some_iff`), and any other text names none.

With the laws of appending, cutting off and beginning with pointers, this is
`Pointer.addresses_places`.
-/

namespace TaggedSchema

namespace Json

/-! ## 1. Places -/

/-- A step from a value to one of its parts. -/
inductive Step where
  | key (name : String)
  | index (i : Nat)
deriving DecidableEq

/-- The part to which a step leads. -/
inductive StepsTo : Step → Json → Json → Prop where
  | key {name : String} {members : List (String × Json)} {part : Json}
      (h : (name, part) ∈ members) : StepsTo (.key name) (.object members) part
  | index {i : Nat} {items : List Json} {part : Json} (h : items[i]? = some part) :
      StepsTo (.index i) (.array items) part

/-- **Steps that lead from a value to a value inside it.** -/
inductive Leads : List Step → Json → Json → Prop where
  | here {value : Json} : Leads [] value value
  | on {step : Step} {path : List Step} {value part target : Json} (h : StepsTo step value part)
      (hrest : Leads path part target) : Leads (step :: path) value target

/-- The places of a value. -/
def places (value : Json) : Set (List Step) := {path | ∃ target, Leads path value target}

/-- What a pointer has for a step. -/
def Step.segment : Step → String
  | .key name => name
  | .index i => Nat.repr i

end Json

namespace Pointer

open Json

/-- The pointer one step further. -/
def extend (p : Pointer) : Step → Pointer
  | .key name => p.join name
  | .index i => p.joinIndex i

/-- The pointer along a path. -/
def along (path : List Step) : Pointer := path.foldl extend root

/-- The pointers that resolve in a value. -/
def resolving (value : Json) : Set Pointer := {p | ∃ target, p.resolve value = some target}

theorem extend_eq (p : Pointer) (step : Step) : p.extend step = p.join step.segment := by
  cases step <;> rfl

theorem foldl_extend (p : Pointer) (path : List Step) :
    path.foldl extend p = ⟨p.segments ++ path.map Step.segment⟩ := by
  induction path generalizing p with
  | nil => simp
  | cons step rest ih => rw [List.foldl_cons, ih, extend_eq, join]; simp

@[simp] theorem segments_along (path : List Step) :
    (along path).segments = path.map Step.segment := by
  rw [along, foldl_extend]
  rfl

/-! ## 2. Spellings of indices -/

/-- A canonical decimal: a zero alone, or digits of which the first is no zero. -/
def IsCanonical (segment : String) : Prop :=
  segment = "0" ∨
    segment ≠ "" ∧ segment.toList.head? ≠ some '0' ∧ ∀ c ∈ segment.toList, c.isDigit = true

theorem index?_eq_some_iff {segment : String} {i : Nat} :
    index? segment = some i ↔ segment = Nat.repr i :=
  ⟨eq_repr_of_index?, fun h => h ▸ index?_repr i⟩

/-- **Just the canonical decimals are indices.** -/
theorem isSome_index?_iff {segment : String} :
    (index? segment).isSome = true ↔ IsCanonical segment := by
  unfold index? IsCanonical
  rw [← String.toList_inj, ne_eq, ← String.toList_eq_nil_iff]
  split
  next hnil => simp [hnil]
  next hzero => simp [hzero]
  next digits hnil hzero =>
    have hother : ¬segment.toList = "0".toList := hzero
    rw [or_iff_right hother, and_iff_right hnil, ← List.all_eq_true]
    split
    next h => exact iff_of_true rfl h
    next h => exact iff_of_false (by simp) h

theorem repr_injective : Function.Injective Nat.repr := fun i j h =>
  Option.some.inj ((index?_repr i).symm.trans ((congrArg index? h).trans (index?_repr j)))

/-- **An item is named by the decimal of its index**, and by nothing else. -/
theorem step?_array_eq_some_iff {items : List Json} {segment : String} {part : Json} :
    step? (.array items) segment = some part ↔
      ∃ i, segment = Nat.repr i ∧ items[i]? = some part := by
  rw [step?, Option.bind_eq_some_iff]
  simp only [index?_eq_some_iff]

/-! ## 3. One step -/

variable {value part : Json}

/-- What a segment names is where a step with that segment leads. -/
theorem exists_step_of_step? {segment : String} (h : step? value segment = some part) :
    ∃ step : Step, step.segment = segment ∧ StepsTo step value part := by
  cases value with
  | object members => exact ⟨.key segment, rfl, .key (mem_of_lookup h)⟩
  | array items =>
    obtain ⟨i, rfl, hitem⟩ := step?_array_eq_some_iff.mp h
    exact ⟨.index i, rfl, .index hitem⟩
  | _ => cases h

/-- Where a step leads, its segment names something: that part, if no key comes twice. -/
theorem exists_step?_of_stepsTo {step : Step} (h : StepsTo step value part) :
    ∃ found, step? value step.segment = some found ∧ StepsTo step value found ∧
      (value.DistinctKeys → found = part) := by
  cases h with
  | @key name members _ h =>
    have hmem : name ∈ members.map (·.1) := List.mem_map_of_mem h
    cases hlookup : members.lookup name with
    | none => exact absurd hmem (lookup_eq_none_iff.mp hlookup)
    | some found =>
      refine ⟨found, hlookup, .key (mem_of_lookup hlookup), fun hkeys => ?_⟩
      exact Option.some.inj (hlookup.symm.trans ((lookup_eq_some_iff_mem hkeys.nodup).mpr h))
  | @index i items _ h =>
    exact ⟨part, step?_array_eq_some_iff.mpr ⟨i, rfl, h⟩, .index h, fun _ => rfl⟩

/-- At one value a segment belongs to one step. -/
theorem step_eq_of_segment {step step' : Step} {part' : Json} (h : StepsTo step value part)
    (h' : StepsTo step' value part') (hsegment : step.segment = step'.segment) : step = step' := by
  cases h with
  | key =>
    cases h' with
    | key => exact congrArg Step.key hsegment
  | index =>
    cases h' with
    | index => exact congrArg Step.index (repr_injective hsegment)

/-- Nor does a step lead to two parts that differ, if no key comes twice. -/
theorem part_eq_of_stepsTo (hkeys : value.DistinctKeys) {step : Step} {part' : Json}
    (h : StepsTo step value part) (h' : StepsTo step value part') : part = part' := by
  obtain ⟨found, hfound, _, hsame⟩ := exists_step?_of_stepsTo h
  obtain ⟨found', hfound', _, hsame'⟩ := exists_step?_of_stepsTo h'
  rw [← hsame hkeys, ← hsame' hkeys]
  exact Option.some.inj (hfound.symm.trans hfound')

theorem part_of_stepsTo {step : Step} (h : StepsTo step value part) : part.Part value := by
  cases h with
  | key h => exact .member h
  | index h => exact .item (List.mem_of_getElem? h)

/-! ## 4. Whole paths -/

theorem resolve_cons (segment : String) (segments : List String) (value : Json) :
    resolve ⟨segment :: segments⟩ value = (step? value segment).bind (resolve ⟨segments⟩) :=
  rfl

/-- **A pointer that resolves runs along a path**, and that leads to what it resolves to: by induction
    on the segments, each of them naming the part to which a step leads. -/
theorem exists_path_of_resolve {p : Pointer} {target : Json} (h : p.resolve value = some target) :
    ∃ path, along path = p ∧ Leads path value target := by
  obtain ⟨segments⟩ := p
  suffices hpath : ∃ path, path.map Step.segment = segments ∧ Leads path value target by
    obtain ⟨path, rfl, hleads⟩ := hpath
    exact ⟨path, congrArg Pointer.mk (segments_along path), hleads⟩
  induction segments generalizing value with
  | nil =>
    cases h
    exact ⟨[], rfl, .here⟩
  | cons segment rest ih =>
    rw [resolve_cons, Option.bind_eq_some_iff] at h
    obtain ⟨part, hpart, hrest⟩ := h
    obtain ⟨step, rfl, hstep⟩ := exists_step_of_step? hpart
    obtain ⟨path, rfl, hleads⟩ := ih hrest
    exact ⟨step :: path, rfl, .on hstep hleads⟩

/-- The pointer along a path to a value resolves to that value. -/
theorem resolve_along (hkeys : value.DistinctKeys) {path : List Step} {target : Json}
    (h : Leads path value target) : (along path).resolve value = some target := by
  suffices hsegments : resolve ⟨path.map Step.segment⟩ value = some target by
    rwa [← segments_along path] at hsegments
  induction h with
  | here => rfl
  | on h _ ih =>
    obtain ⟨found, hfound, _, hsame⟩ := exists_step?_of_stepsTo h
    obtain rfl := hsame hkeys
    rw [List.map_cons, resolve_cons, hfound]
    exact ih (hkeys.part (part_of_stepsTo h))

/-- **Along different places run different pointers**: by induction on both paths, the first steps
    being those of one value. -/
theorem path_eq_of_along (hkeys : value.DistinctKeys) {path path' : List Step}
    {target target' : Json} (h : Leads path value target) (h' : Leads path' value target')
    (halong : along path = along path') : path = path' := by
  have hsegments := congrArg Pointer.segments halong
  rw [segments_along, segments_along] at hsegments
  clear halong
  induction h generalizing path' target' with
  | here =>
    rw [List.map_nil, eq_comm, List.map_eq_nil_iff] at hsegments
    exact hsegments.symm
  | on h _ ih =>
    cases h' with
    | here => cases hsegments
    | on h' hrest' =>
      obtain ⟨hsegment, hrest⟩ := List.cons.inj hsegments
      obtain rfl := step_eq_of_segment h h' hsegment
      obtain rfl := part_eq_of_stepsTo hkeys h h'
      exact congrArg _ (ih (hkeys.part (part_of_stepsTo h)) hrest' hrest)

/-- **Places and the pointers that resolve correspond one to one.** -/
theorem bijOn_along (hkeys : value.DistinctKeys) :
    Set.BijOn along value.places (resolving value) := by
  refine ⟨fun path ⟨target, h⟩ => ⟨target, resolve_along hkeys h⟩,
    fun path ⟨target, h⟩ path' ⟨target', h'⟩ => path_eq_of_along hkeys h h',
    fun p ⟨target, h⟩ => ?_⟩
  obtain ⟨path, halong, hleads⟩ := exists_path_of_resolve h
  exact ⟨path, ⟨target, hleads⟩, halong⟩

/-! ## 5. Laws of pointers -/

theorem resolve_concat (p q : Pointer) (document : Json) :
    (p.concat q).resolve document = (p.resolve document).bind q.resolve := by
  unfold resolve concat
  rw [List.foldlM_append]
  rfl

theorem startsWith_iff {p q : Pointer} : p.startsWith q = true ↔ ∃ rest, p = q.concat rest := by
  obtain ⟨segments⟩ := p
  rw [startsWith, List.isPrefixOf_iff_prefix]
  constructor
  · rintro ⟨rest, rfl⟩
    exact ⟨⟨rest⟩, rfl⟩
  · rintro ⟨rest, h⟩
    exact ⟨rest.segments, (congrArg Pointer.segments h).symm⟩

theorem parent?_join (p : Pointer) (segment : String) : (p.join segment).parent? = some p := by
  simp [parent?, isRoot, join]

/-- What has a parent is that parent and a segment. -/
theorem parent?_eq_some_iff {p q : Pointer} :
    p.parent? = some q ↔ ∃ segment, p = q.join segment := by
  refine ⟨fun h => ?_, fun ⟨segment, h⟩ => h ▸ parent?_join q segment⟩
  obtain ⟨segments⟩ := p
  unfold parent? isRoot at h
  split at h
  next => cases h
  next hne =>
    rw [List.isEmpty_iff] at hne
    cases h
    exact ⟨segments.getLast hne, congrArg Pointer.mk (List.dropLast_concat_getLast hne).symm⟩

theorem parent?_eq_none_iff {p : Pointer} : p.parent? = none ↔ p = root := by
  obtain ⟨segments⟩ := p
  simp [parent?, isRoot, root]

/-- **Pointers are addresses of places.** In a document with one member for each key, the pointer along
    a path to a value resolves to that value; a pointer that resolves to a value runs along exactly
    one path of the document, and that leads to the value; so the places of a document and the
    pointers that resolve in it correspond one to one. An item is named by the canonical decimal of
    its index alone. Resolving a pointer that is made of two is resolving one after the other, a
    pointer starts with another iff it is the other with something appended, and the parent of what
    `join` or `joinIndex` makes is what it was made from, the root alone having none. -/
theorem addresses_places :
    (∀ document : Json, document.DistinctKeys →
      (∀ path target, Leads path document target →
        (along path).resolve document = some target) ∧
      (∀ p target, p.resolve document = some target →
        ∃ path, Leads path document target ∧
          ∀ path' ∈ document.places, along path' = p ↔ path' = path) ∧
      Set.BijOn along document.places (resolving document)) ∧
    (∀ items segment part, step? (.array items) segment = some part ↔
      ∃ i, segment = Nat.repr i ∧ items[i]? = some part) ∧
    (∀ segment, (index? segment).isSome = true ↔ IsCanonical segment) ∧
    (∀ (p q : Pointer) document,
      (p.concat q).resolve document = (p.resolve document).bind q.resolve) ∧
    (∀ p q : Pointer, p.startsWith q = true ↔ ∃ rest, p = q.concat rest) ∧
    (∀ (p : Pointer) segment i,
      (p.join segment).parent? = some p ∧ (p.joinIndex i).parent? = some p) ∧
    (∀ p q : Pointer, p.parent? = some q ↔ ∃ segment, p = q.join segment) ∧
    ∀ p : Pointer, p.parent? = none ↔ p = root := by
  refine ⟨fun document hkeys => ⟨fun _ _ => resolve_along hkeys, fun p target h => ?_,
      bijOn_along hkeys⟩, fun _ _ _ => step?_array_eq_some_iff, fun _ => isSome_index?_iff,
    resolve_concat, fun _ _ => startsWith_iff,
    fun p segment i => ⟨parent?_join p segment, parent?_join p _⟩, fun _ _ => parent?_eq_some_iff,
    fun _ => parent?_eq_none_iff⟩
  obtain ⟨path, rfl, hleads⟩ := exists_path_of_resolve h
  exact ⟨path, hleads, fun path' ⟨_, hleads'⟩ =>
    ⟨path_eq_of_along hkeys hleads' hleads, congrArg along⟩⟩

/-- A document with a zero as a key and zeros as indices. -/
def zeros : Json :=
  .object
    [("", .array [.array [.null], .object [("0", .bool true)]]), ("0", .bool false)]

/-- The same text is a key in one place and an index in another. -/
theorem addresses_places_zeros :
    zeros.DistinctKeys ∧
      (along [.key "", .index 1, .key "0"]).resolve zeros = some (.bool true) ∧
      (along [.key "", .index 0, .index 0]).resolve zeros = some .null ∧
      ∃ path, Leads path zeros (.bool false) ∧
        ∀ path' ∈ zeros.places, along path' = ⟨["0"]⟩ ↔ path' = path := by
  have hnull : Json.null.DistinctKeys := distinctKeys_of_scalar rfl rfl
  have hbool (b : Bool) : (Json.bool b).DistinctKeys := distinctKeys_of_scalar rfl rfl
  have hkeys : zeros.DistinctKeys := by simp [zeros, hnull, hbool]
  obtain ⟨hresolve, hpath, -⟩ := addresses_places.1 zeros hkeys
  have hlist : StepsTo (.key "") zeros (.array [.array [.null], .object [("0", .bool true)]]) :=
    .key List.mem_cons_self
  exact ⟨hkeys, hresolve _ _ (.on hlist (.on (.index rfl) (.on (.key List.mem_cons_self) .here))),
    hresolve _ _ (.on hlist (.on (.index rfl) (.on (.index rfl) .here))), hpath ⟨["0"]⟩ _ rfl⟩

end Pointer

end TaggedSchema
