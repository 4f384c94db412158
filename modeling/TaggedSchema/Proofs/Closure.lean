import TaggedSchema.Proofs.Links

/-!
# The locations that a schema leads to

Which locations a schema consists of can be said of the store alone: the location it starts from,
the places of subschemas below it, the targets of its references, and so on (`Store.Closure`). So
can what each of them needs (`Store.WellFormedAt`), and what is wrong with one that lacks it
(`Store.FaultAt`).

This file fixes that resolution never leaves the closure: whatever is noted lies in it, and every
error is the fault of a location in it (`Draft.expand_keeps`). One predicate says both of a step of
resolution (`Draft.Keeps`); it is proved step by step, for any set of locations that has the places
and targets of what it contains (`Store.Closes`).
-/

namespace TaggedSchema

/-! ## 1. Places and targets -/

/-- The value is a schema. -/
def Json.IsSchema : Json → Prop
  | .object _ => True
  | .bool _ => True
  | _ => False

/-- The value has the shape of a keyword that holds subschemas. -/
def Structure.Fits : Structure → Json → Prop
  | .single, value => value.IsSchema
  | .list, value => ∃ items, value = .array items
  | .map, value => ∃ members, value = .object members
  | .singleOrList, value => value.IsSchema ∨ ∃ items, value = .array items

/-- **The places of subschemas** in an object that stands at a location: a structural keyword, an
    item of its array, or a member of its object. -/
inductive Subschema (l : Location) (keywords : List (String × Json)) : Location → Prop where
  | single {keyword : String} {value : Json} {shape : Structure} (h : (keyword, value) ∈ keywords)
      (hkeyword : Structure.of? keyword = some shape)
      (hshape : shape = .single ∨ shape = .singleOrList) (hvalue : value.IsSchema) :
      Subschema l keywords (l.join keyword)
  | item {keyword : String} {items : List Json} {shape : Structure} {index : Nat}
      (h : (keyword, .array items) ∈ keywords) (hkeyword : Structure.of? keyword = some shape)
      (hshape : shape = .list ∨ shape = .singleOrList) (hlt : index < items.length) :
      Subschema l keywords ((l.join keyword).join (Nat.repr index))
  | member {keyword : String} {members : List (String × Json)} {key : String}
      (h : (keyword, .object members) ∈ keywords)
      (hkeyword : Structure.of? keyword = some .map) (hkey : key ∈ members.map (·.1)) :
      Subschema l keywords ((l.join keyword).join key)

namespace Store

variable [Uri.Library]

/-- What the document part of a reference is read as, in a document. -/
def readIn (s : Store) (document text : String) : String :=
  resolveUri ((s.baseUri document).getD document) text

/-- What a reference names, seen from a document: its document part as it is read there, if that
    names a document of the store, and its fragment as a pointer. -/
def targetOf? (s : Store) (document text : String) : Option Location :=
  match Pointer.parse (Draft.fragmentOf text) with
  | .ok pointer => (s.canonicalBase (s.readIn document text)).map (⟨·, pointer⟩)
  | .error _ => none

/-- **The locations that a schema leads to.** What a reference names belongs to them whether or not
    anything stands there. -/
inductive Closure (s : Store) (start : Location) : Location → Prop where
  | start : Closure s start start
  | child {l l' : Location} {keywords : List (String × Json)} (h : Closure s start l)
      (hvalue : s.lookup? l = some (.object keywords)) (hplace : Subschema l keywords l') :
      Closure s start l'
  | target {l l' : Location} {keywords : List (String × Json)} {text : String}
      (h : Closure s start l) (hvalue : s.lookup? l = some (.object keywords))
      (href : keywords.lookup "$ref" = some (.string text))
      (htarget : s.targetOf? l.document text = some l') : Closure s start l'

/-- A set of locations with the places and targets of everything in it. -/
structure Closes (s : Store) (P : Location → Prop) : Prop where
  child : ∀ {l l' keywords}, P l → s.lookup? l = some (.object keywords) →
    Subschema l keywords l' → P l'
  target : ∀ {l l' keywords text}, P l → s.lookup? l = some (.object keywords) →
    keywords.lookup "$ref" = some (.string text) → s.targetOf? l.document text = some l' → P l'

theorem closes_closure (s : Store) (start : Location) : s.Closes (s.Closure start) :=
  ⟨.child, .target⟩

/-! ## 2. Well-formed locations and their faults -/

/-- **What every location of a schema needs**: a schema, types that can be read, structural keywords
    of the right shape, and a reference that is a text and names something that exists. -/
structure WellFormedAt (s : Store) (l : Location) : Prop where
  schema : ∃ value, s.lookup? l = some value ∧ value.IsSchema
  typed : ∀ keywords raw, s.lookup? l = some (.object keywords) →
    keywords.lookup "type" = some raw → ∃ types, InstanceType.declared? raw = some types
  shaped : ∀ keywords keyword raw shape, s.lookup? l = some (.object keywords) →
    (keyword, raw) ∈ keywords → Structure.of? keyword = some shape → shape.Fits raw
  referring : ∀ keywords raw, s.lookup? l = some (.object keywords) →
    keywords.lookup "$ref" = some raw → ∃ text target value, raw = .string text ∧
      s.targetOf? l.document text = some target ∧ s.lookup? target = some value

/-- **What is wrong with a location**, and the error that says so. -/
inductive FaultAt (s : Store) (l : Location) : ResolutionError → Prop where
  | nothing {keyword : String} (h : s.lookup? l = none) :
      FaultAt s l (.malformed l keyword "subschema vanished during resolution")
  | noSchema {keyword : String} {value : Json} (h : s.lookup? l = some value)
      (hvalue : ¬ value.IsSchema) :
      FaultAt s l (.malformed l keyword "expected a schema (object or boolean)")
  | type {keywords : List (String × Json)} {raw : Json}
      (h : s.lookup? l = some (.object keywords)) (hraw : keywords.lookup "type" = some raw)
      (hnone : InstanceType.declared? raw = none) :
      FaultAt s l (.malformed l "type"
        ("expected a type name or an array of type names, found " ++ raw.text))
  | shape {keywords : List (String × Json)} {keyword : String} {raw : Json} {shape : Structure}
      (h : s.lookup? l = some (.object keywords)) (hraw : (keyword, raw) ∈ keywords)
      (hshape : Structure.of? keyword = some shape) (hfits : ¬ shape.Fits raw) :
      FaultAt s l (.malformed l keyword ("unexpected value " ++ raw.text))
  | noText {keywords : List (String × Json)} {raw : Json}
      (h : s.lookup? l = some (.object keywords)) (hraw : keywords.lookup "$ref" = some raw)
      (hnot : ∀ text, raw ≠ .string text) :
      FaultAt s l (.malformed l "$ref" ("expected a string, found " ++ raw.text))
  | fragment {keywords : List (String × Json)} {text : String} {e : PointerError}
      (h : s.lookup? l = some (.object keywords))
      (href : keywords.lookup "$ref" = some (.string text))
      (herror : Pointer.parse (Draft.fragmentOf text) = .error e) :
      FaultAt s l (.malformed l "$ref"
        ("unsupported fragment in \"" ++ text ++ "\": " ++ e.message))
  | unregistered {keywords : List (String × Json)} {text : String} {pointer : Pointer}
      (h : s.lookup? l = some (.object keywords))
      (href : keywords.lookup "$ref" = some (.string text))
      (hpointer : Pointer.parse (Draft.fragmentOf text) = .ok pointer)
      (hnone : s.canonicalBase (s.readIn l.document text) = none) :
      FaultAt s l (.danglingReference l text ⟨s.readIn l.document text, pointer⟩)
  | dangling {keywords : List (String × Json)} {text : String} {target : Location}
      (h : s.lookup? l = some (.object keywords))
      (href : keywords.lookup "$ref" = some (.string text))
      (htarget : s.targetOf? l.document text = some target) (hnone : s.lookup? target = none) :
      FaultAt s l (.danglingReference l text target)

variable {s : Store} {l : Location}

/-- Under a name that is not registered nothing is found. -/
theorem lookup?_eq_none_of_unregistered (h : s.canonicalBase l.document = none) :
    s.lookup? l = none := by
  unfold lookup? document?
  rw [h]
  rfl

/-- A fault is reported where it is. -/
theorem FaultAt.location_eq {e : ResolutionError} (h : s.FaultAt l e) : e.location = l := by
  cases h <;> rfl

/-- The target of a reference that dangles is not found, and the reference is there. -/
theorem FaultAt.of_dangling {source target : Location} {text : String}
    (h : s.FaultAt l (.danglingReference source text target)) :
    source = l ∧ (∃ keywords, s.lookup? l = some (.object keywords) ∧
      keywords.lookup "$ref" = some (.string text)) ∧ s.lookup? target = none := by
  cases h with
  | unregistered h href _ hnone =>
    exact ⟨rfl, ⟨_, h, href⟩, lookup?_eq_none_of_unregistered hnone⟩
  | dangling h href _ hnone => exact ⟨rfl, ⟨_, h, href⟩, hnone⟩

/-- **A location with a fault is not well-formed.** -/
theorem FaultAt.not_wellFormed {e : ResolutionError} (h : s.FaultAt l e) : ¬ s.WellFormedAt l := by
  intro hwell
  cases h with
  | nothing h =>
    obtain ⟨value, hvalue, _⟩ := hwell.schema
    rw [h] at hvalue
    cases hvalue
  | noSchema h hnot =>
    obtain ⟨value, hvalue, hschema⟩ := hwell.schema
    rw [h] at hvalue
    cases hvalue
    exact hnot hschema
  | type h hraw hnone =>
    obtain ⟨types, htypes⟩ := hwell.typed _ _ h hraw
    rw [hnone] at htypes
    cases htypes
  | shape h hraw hshape hfits => exact hfits (hwell.shaped _ _ _ _ h hraw hshape)
  | noText h hraw hnot =>
    obtain ⟨text, _, _, he, _⟩ := hwell.referring _ _ h hraw
    exact hnot text he
  | fragment h href herror =>
    obtain ⟨text, target, _, he, htarget, _⟩ := hwell.referring _ _ h href
    cases he
    unfold targetOf? at htarget
    rw [herror] at htarget
    cases htarget
  | unregistered h href hpointer hnone =>
    obtain ⟨text, target, _, he, htarget, _⟩ := hwell.referring _ _ h href
    cases he
    unfold targetOf? at htarget
    rw [hpointer, hnone] at htarget
    cases htarget
  | dangling h href htarget hnone =>
    obtain ⟨text, target, value, he, htarget', hvalue⟩ := hwell.referring _ _ h href
    cases he
    rw [htarget] at htarget'
    cases htarget'
    rw [hnone] at hvalue
    cases hvalue

end Store

/-! ## 3. Places as resolution finds them -/

namespace Draft

/-- The locations of the places of a keyword. -/
def Places.locations (l : Location) : Places → List Location
  | .single => [l]
  | .list count => ((List.range count).map Nat.repr).map l.join
  | .map keys => keys.map l.join

theorem bodyOf?_eq_none_iff {value : Json} : bodyOf? value = none ↔ ¬ value.IsSchema := by
  cases value <;> simp [bodyOf?, Json.IsSchema]

/-- The places of a keyword, by its shape and its value. -/
inductive PlacesAre (shape : Structure) : Json → Places → Prop where
  | single {value : Json} (hshape : shape = .single ∨ shape = .singleOrList)
      (hvalue : value.IsSchema) : PlacesAre shape value .single
  | list {items : List Json} (hshape : shape = .list ∨ shape = .singleOrList) :
      PlacesAre shape (.array items) (.list items.length)
  | map {members : List (String × Json)} (hshape : shape = .map) :
      PlacesAre shape (.object members) (.map (members.map (·.1)))

theorem places?_eq_some_iff {shape : Structure} {value : Json} {places : Places} :
    places? shape value = some places ↔ PlacesAre shape value places := by
  constructor
  · intro h
    unfold places? at h
    split at h <;> cases h
    · exact .single (Or.inl rfl) trivial
    · exact .single (Or.inl rfl) trivial
    · exact .single (Or.inr rfl) trivial
    · exact .single (Or.inr rfl) trivial
    · exact .list (Or.inl rfl)
    · exact .list (Or.inr rfl)
    · exact .map rfl
  · intro h
    cases h with
    | @single value hshape hvalue =>
      rcases hshape with rfl | rfl <;> cases value <;> first | rfl | exact hvalue.elim
    | list hshape => rcases hshape with rfl | rfl <;> rfl
    | map hshape =>
      subst hshape
      rfl

/-- There are places where the shape is right. -/
theorem exists_places?_iff {shape : Structure} {value : Json} :
    (∃ places, places? shape value = some places) ↔ shape.Fits value := by
  cases shape <;> cases value <;> simp [places?, Structure.Fits, Json.IsSchema]

/-- A structural keyword of the wrong shape, and the error about it. -/
def Misshaped (l : Location) (keywords : List (String × Json)) (e : ResolutionError) : Prop :=
  ∃ keyword value shape, (keyword, value) ∈ keywords ∧ Structure.of? keyword = some shape ∧
    ¬ shape.Fits value ∧ e = .malformed l keyword ("unexpected value " ++ value.text)

theorem misshaped_of_placesOf {l : Location} {keywords : List (String × Json)}
    {e : ResolutionError} (h : placesOf l keywords = .error e) : Misshaped l keywords e := by
  induction keywords with
  | nil => cases h
  | cons entry rest ih =>
    obtain ⟨keyword, value⟩ := entry
    have hrest (hmore : placesOf l rest = .error e) : Misshaped l ((keyword, value) :: rest) e := by
      obtain ⟨k, v, shape, hmem, hspec⟩ := ih hmore
      exact ⟨k, v, shape, List.mem_cons_of_mem _ hmem, hspec⟩
    unfold placesOf at h
    split at h
    next => exact hrest h
    next shape hshape =>
      split at h
      next places hplaces =>
        cases hmore : placesOf l rest with
        | error e' =>
          rw [hmore] at h
          cases h
          exact hrest hmore
        | ok more =>
          rw [hmore] at h
          cases h
      next hnone =>
        cases h
        refine ⟨keyword, value, shape, List.mem_cons_self, hshape, fun hfits => ?_, rfl⟩
        obtain ⟨places, hplaces⟩ := exists_places?_iff.mpr hfits
        rw [hnone] at hplaces
        cases hplaces

/-- The places that resolution finds are places of subschemas. -/
theorem subschema_of_mem_locations {l l' : Location} {keywords : List (String × Json)}
    {places : List (String × Places)} (h : placesOf l keywords = .ok places) {name : String}
    {p : Places} (hp : (name, p) ∈ places) (hl : l' ∈ p.locations (l.join name)) :
    Subschema l keywords l' := by
  obtain ⟨value, shape, hvalue, hshape, hplace⟩ := mem_placesOf h hp
  cases places?_eq_some_iff.mp hplace with
  | single hsingle hschema =>
    cases List.mem_singleton.mp hl
    exact .single hvalue hshape hsingle hschema
  | list hlist =>
    obtain ⟨segment, hsegment, rfl⟩ := List.mem_map.mp hl
    obtain ⟨index, hindex, rfl⟩ := List.mem_map.mp hsegment
    exact .item hvalue hshape hlist (List.mem_range.mp hindex)
  | map hmap =>
    obtain ⟨key, hkey, rfl⟩ := List.mem_map.mp hl
    exact .member hvalue (hmap ▸ hshape) hkey

/-! ## 4. Steps that stay inside -/

/-- All nodes stand at locations of a set. -/
def Inside (P : Location → Prop) (nodes : Array Node) : Prop := ∀ id l, StandsAt nodes id l → P l

/-- **A step of resolution stays inside a set of locations**: what it notes stands there, and what
    it reports is the fault of a location there. -/
structure Keeps [Uri.Library] (s : Store) (P : Location → Prop) {α : Type} (draft : α → Draft)
    (x : Except ResolutionError α) : Prop where
  inside : ∀ a, x = .ok a → Inside P (draft a).nodes
  fault : ∀ e, x = .error e → ∃ l, P l ∧ s.FaultAt l e

section Steps

variable {s : Store} {P : Location → Prop} {α β : Type} {draft : α → Draft} {draft' : β → Draft}
  {d : Draft} {l : Location} {keyword : String}

theorem lookup_of_referenceText {keywords : List (String × Json)} {text : String}
    (h : referenceText l keywords = .ok (some text)) :
    keywords.lookup "$ref" = some (.string text) := by
  unfold referenceText at h
  split at h
  next => cases h
  next text' href =>
    cases h
    exact href
  next => cases h

variable [Uri.Library]

theorem keeps_ok {a : α} (h : Inside P (draft a).nodes) : Keeps s P draft (.ok a) :=
  ⟨fun _ he => Except.ok.inj he ▸ h, fun _ he => by cases he⟩

theorem keeps_error {e : ResolutionError} (hl : P l) (h : s.FaultAt l e) :
    Keeps s P draft (.error e) :=
  ⟨fun _ he => (by cases he), fun _ he => Except.error.inj he ▸ ⟨l, hl, h⟩⟩

/-- Steps one after another stay inside when each of them does. -/
theorem keeps_bind {x : Except ResolutionError α} {k : α → Except ResolutionError β}
    (hx : ∀ e, x = .error e → ∃ l, P l ∧ s.FaultAt l e)
    (hk : ∀ a, x = .ok a → Keeps s P draft' (k a)) : Keeps s P draft' (x >>= k) := by
  cases x with
  | error e =>
    obtain ⟨l, hl, hfault⟩ := hx e rfl
    exact keeps_error hl hfault
  | ok a => exact hk a rfl

theorem Keeps.bind {x : Except ResolutionError α} {k : α → Except ResolutionError β}
    (hx : Keeps s P draft x) (hk : ∀ a, Inside P (draft a).nodes → Keeps s P draft' (k a)) :
    Keeps s P draft' (x >>= k) :=
  keeps_bind hx.fault fun a ha => hk a (hx.inside a ha)

/-- Types are refused where they are faulty. -/
theorem faultAt_of_declaredTypes {value : Json} {e : ResolutionError}
    (h : s.lookup? l = some value) (herror : declaredTypes l value = .error e) :
    s.FaultAt l e := by
  unfold declaredTypes at herror
  split at herror
  next => cases herror
  next raw hraw =>
    split at herror
    next => cases herror
    next hnone =>
      cases herror
      cases value with
      | object keywords => exact .type h hraw hnone
      | _ => cases hraw

theorem note_keeps (hd : Inside P d.nodes) (hl : P l) (keyword : String) :
    Keeps s P (·.2) (d.note s l keyword) := by
  unfold note
  split
  next => exact keeps_ok hd
  next =>
    split
    next => exact keeps_ok hd
    next value hvalue =>
      split
      next hnone => exact keeps_error hl (.noSchema hvalue (bodyOf?_eq_none_iff.mp hnone))
      next body _ =>
        refine keeps_bind (fun e he => ⟨l, hl, faultAt_of_declaredTypes hvalue he⟩)
          fun types _ => keeps_ok fun id l' hat => ?_
        rcases standsAt_push.mp hat with hat | ⟨_, rfl⟩
        · exact hd id l' hat
        · exact hl

/-- Nothing is noted where nothing is. -/
theorem lookup?_of_note {d' : Draft} (h : d.note s l keyword = .ok (none, d')) :
    s.lookup? l = none := by
  unfold note at h
  split at h
  next => cases h
  next =>
    split at h
    next hnone => exact hnone
    next =>
      split at h
      next => cases h
      next =>
        obtain ⟨_, _, h⟩ := bind_eq_ok.mp h
        cases h

theorem noteChild_keeps (hd : Inside P d.nodes) (hl : P l) (keyword : String) :
    Keeps s P (·.2) (d.noteChild s l keyword) := by
  have hnote := note_keeps (s := s) hd hl keyword
  refine keeps_bind hnote.fault fun found hfound => ?_
  obtain ⟨found, d'⟩ := found
  cases found with
  | none => exact keeps_error hl (.nothing (lookup?_of_note hfound))
  | some id => exact keeps_ok (hnote.inside _ hfound)

theorem noteAll_keeps {segments : List String} (hd : Inside P d.nodes)
    (hl : ∀ segment ∈ segments, P (l.join segment)) (keyword : String) :
    Keeps s P (·.2) (noteAll s l keyword d segments) := by
  induction segments generalizing d with
  | nil => exact keeps_ok hd
  | cons segment rest ih =>
    obtain ⟨hfirst, hrest⟩ := List.forall_mem_cons.mp hl
    refine (noteChild_keeps hd hfirst keyword).bind fun child hchild => ?_
    exact (ih hchild hrest).bind fun more hmore => keeps_ok hmore

theorem noteChildren_keeps {places : Places} (hd : Inside P d.nodes)
    (hl : ∀ l' ∈ places.locations (l.join keyword), P l') :
    Keeps s P (·.2) (noteChildren s l keyword d places) := by
  cases places with
  | single =>
    exact (noteChild_keeps hd (hl _ (List.mem_singleton.mpr rfl)) keyword).bind
      fun child hchild => keeps_ok hchild
  | list count =>
    refine (noteAll_keeps hd (fun segment hsegment => hl _ ?_) keyword).bind
      fun children hchildren => keeps_ok hchildren
    exact List.mem_map_of_mem hsegment
  | map keys =>
    refine (noteAll_keeps hd (fun segment hsegment => hl _ ?_) keyword).bind
      fun children hchildren => keeps_ok hchildren
    exact List.mem_map_of_mem hsegment

theorem noteKeywords_keeps {places : List (String × Places)} (hd : Inside P d.nodes)
    (hl : ∀ entry ∈ places, ∀ l' ∈ entry.2.locations (l.join entry.1), P l') :
    Keeps s P (·.2) (noteKeywords s l d places) := by
  induction places generalizing d with
  | nil => exact keeps_ok hd
  | cons entry rest ih =>
    obtain ⟨hfirst, hrest⟩ := List.forall_mem_cons.mp hl
    refine (noteChildren_keeps hd hfirst).bind fun children hchildren => ?_
    exact (ih hchildren hrest).bind fun more hmore => keeps_ok hmore

theorem noteReference_keeps {keywords : List (String × Json)} {text : String}
    (hd : Inside P d.nodes) (hl : P l) (h : s.lookup? l = some (.object keywords))
    (href : keywords.lookup "$ref" = some (.string text))
    (htarget : ∀ l', s.targetOf? l.document text = some l' → P l') :
    Keeps s P (·.2) (noteReference s d l text) := by
  unfold noteReference
  split
  next e herror => exact keeps_error hl (.fragment h href herror)
  next pointer hpointer =>
    dsimp only
    split
    next hnone => exact keeps_error hl (.unregistered h href hpointer hnone)
    next key hkey =>
      have hnames : s.targetOf? l.document text = some ⟨key, pointer⟩ := by
        unfold Store.targetOf? Store.readIn
        rw [hpointer]
        dsimp only
        rw [hkey]
        rfl
      have hnote := note_keeps (s := s) hd (htarget _ hnames) "$ref"
      refine keeps_bind hnote.fault fun found hfound => ?_
      obtain ⟨found, d'⟩ := found
      cases found with
      | none => exact keeps_error hl (.dangling h href hnames (lookup?_of_note hfound))
      | some id => exact keeps_ok (hnote.inside _ hfound)

/-- A reference is refused where it is no text. -/
theorem faultAt_of_referenceText {keywords : List (String × Json)} {e : ResolutionError}
    (h : s.lookup? l = some (.object keywords)) (herror : referenceText l keywords = .error e) :
    s.FaultAt l e := by
  unfold referenceText at herror
  split at herror
  next => cases herror
  next => cases herror
  next other hnot hraw =>
    cases herror
    exact .noText h hraw fun text he => hnot text he

/-- **One expansion stays inside** every set that has the places and targets of what it contains. -/
theorem expand_keeps (hP : s.Closes P) (hd : Inside P d.nodes) {id : NodeId}
    (hwritten : ∀ n, d.nodes[id]? = some n → n.Written s) :
    Keeps s P (fun d => d) (expand s d id) := by
  unfold expand
  split
  next => exact keeps_ok hd
  next n hn =>
    split
    next => exact keeps_ok hd
    next keywords hbody =>
      have hl : P n.location := hd id n.location ⟨n, hn, rfl⟩
      have hvalue : s.lookup? n.location = some (.object keywords) := by
        obtain ⟨_, value, hvalue, hwrites, _⟩ := hwritten n hn
        rw [hbody] at hwrites
        cases value <;> cases hwrites
        exact hvalue
      have hshape (e : ResolutionError) (he : placesOf n.location keywords = .error e) :
          ∃ l, P l ∧ s.FaultAt l e := by
        obtain ⟨keyword, raw, shape, hraw, hkeyword, hfits, rfl⟩ := misshaped_of_placesOf he
        exact ⟨_, hl, .shape hvalue hraw hkeyword hfits⟩
      refine keeps_bind hshape fun places hplaces => ?_
      refine keeps_bind (fun e he => ⟨_, hl, faultAt_of_referenceText hvalue he⟩)
        fun reference hreference => ?_
      have hchildren := noteKeywords_keeps (s := s) hd fun entry hentry l' hl' =>
        hP.child hl hvalue (subschema_of_mem_locations hplaces hentry hl')
      refine hchildren.bind fun children hd' => ?_
      cases reference with
      | none =>
        refine keeps_ok fun id' l hat => hd' id' l ((standsAt_modify ?_).mp hat)
        exact fun _ => ⟨rfl, rfl, rfl⟩
      | some text =>
        have href := lookup_of_referenceText hreference
        have htarget := noteReference_keeps hd' hl hvalue href fun _ => hP.target hl hvalue href
        refine htarget.bind fun target hd'' => keeps_ok fun id' l hat =>
          hd'' id' l ((standsAt_modify ?_).mp hat)
        exact fun _ => ⟨rfl, rfl, rfl⟩

end Steps

end Draft

end TaggedSchema
