import TaggedSchema.Proofs.Analysis
import TaggedSchema.Proofs.FailFast
import TaggedSchema.Proofs.Transparency

/-!
# What resolution and compilation cannot say of each other

Two kinds of errors say that the library contradicts itself. Resolution reports a subschema that has
vanished where it has just seen one, and the compiler and the plugins report children that are not
what resolution should have found. This file shows that neither is ever reported.

The places of a schema are looked up again through the store, with keys and indices as segments; in
documents of distinct keys each of them is found there (`Store.exists_of_subschema`). And every
structural keyword of a node has children of the shape that its readers ask for
(`Graph.Resolved.hasShape_of_keyword`), so what is left of the errors of each reader is about values
(`Builtin.consistentAt_of_mem`, `Compiler.consistent_coreRule`).
-/

namespace TaggedSchema

/-! ## 1. Texts of errors -/

/-- A text that begins in another way is another text. -/
theorem append_ne_of_head? (first : Char) {start rest other : String}
    (hstart : start.toList.head? = some first) (hother : other.toList.head? ≠ some first) :
    start ++ rest ≠ other := by
  rintro rfl
  refine hother ?_
  rw [String.toList_append, List.head?_append, hstart]
  rfl

/-- What is said of a subschema that resolution does not find again. -/
def vanished : String := "subschema vanished during resolution"

/-- The error says that a subschema has vanished. -/
def ResolutionError.IsVanished : ResolutionError → Prop
  | malformed _ _ reason => reason = vanished
  | _ => False

/-- What plugins say of a keyword without the subschemas that they ask for. -/
def shapeReasons : List String :=
  ["must be a schema", "must be an array of schemas", "must be an object of schemas",
    "must be a schema or an array of schemas"]

/-- The fault says that resolution has not found what the compiler needs. -/
def Fault.IsInconsistency (f : Fault) : Prop :=
  f.kind = .malformedSchema ∨
    ∃ keyword, ∃ reason ∈ shapeReasons, f = .invalidKeywordValue keyword reason

theorem Fault.not_isInconsistency_of_kind {f : Fault} (hmalformed : f.kind ≠ .malformedSchema)
    (hvalue : f.kind ≠ .invalidKeywordValue) : ¬ f.IsInconsistency := by
  rintro (h | ⟨keyword, reason, _, rfl⟩)
  · exact hmalformed h
  · exact hvalue rfl

theorem Fault.not_isInconsistency_of_reason {keyword reason : String} (h : reason ∉ shapeReasons) :
    ¬ (invalidKeywordValue keyword reason).IsInconsistency := by
  rintro (hkind | ⟨keyword', reason', hmem, he⟩)
  · cases hkind
  · cases he
    exact h hmem

/-- The reasons of plugins about shapes begin alike. -/
theorem append_not_mem_shapeReasons (first : Char) {start rest : String}
    (hstart : start.toList.head? = some first) (hfirst : first ≠ 'm') :
    start ++ rest ∉ shapeReasons := by
  have hall : ∀ reason ∈ shapeReasons, reason.toList.head? = some 'm' := by decide
  intro hmem
  have hother : (start ++ rest).toList.head? ≠ some first := fun he =>
    hfirst (Option.some.inj (he.symm.trans (hall _ hmem)))
  exact append_ne_of_head? first hstart hother rfl

/-! ## 2. Places that are found again -/

namespace Store

variable {s : Store} {l l' : Location} {value : Json}

variable [Uri.Library]

/-- One segment further stands what the segment names. -/
theorem lookup?_join (h : s.lookup? l = some value) (segment : String) :
    s.lookup? (l.join segment) = Pointer.step? value segment := by
  obtain ⟨document, hdocument, hresolve⟩ := Option.bind_eq_some_iff.mp h
  unfold lookup?
  show (s.document? l.document).bind (l.pointer.join segment).resolve = _
  rw [hdocument, Option.bind_some]
  exact Pointer.resolve_append hresolve segment

/-- **At every place of a subschema something is found.** -/
theorem exists_of_subschema (hs : s.DistinctKeys) {keywords : List (String × Json)}
    (h : s.lookup? l = some (.object keywords)) (hplace : Subschema l keywords l') :
    ∃ found, s.lookup? l' = some found := by
  have hat {keyword : String} {raw : Json} (hmem : (keyword, raw) ∈ keywords) :
      s.lookup? (l.join keyword) = some raw :=
    (lookup?_join h keyword).trans
      ((lookup_eq_some_iff_mem (hs.of_lookup? h).nodup).mpr hmem)
  cases hplace with
  | single hmem => exact ⟨_, hat hmem⟩
  | @item _ items _ index hmem _ _ hlt =>
    refine ⟨items[index], (lookup?_join (hat hmem) _).trans ?_⟩
    show (Pointer.index? (Nat.repr index)).bind (fun i => items[i]?) = _
    rw [Pointer.index?_repr, Option.bind_some, List.getElem?_eq_getElem hlt]
  | @member _ members key hmem _ hkey =>
    obtain ⟨entry, hentry, rfl⟩ := List.mem_map.mp hkey
    have hnodup := (hs.of_lookup? (hat hmem)).nodup
    exact ⟨entry.2, (lookup?_join (hat hmem) _).trans
      ((lookup_eq_some_iff_mem hnodup).mpr hentry)⟩

end Store

/-! ## 3. Resolution -/

namespace Draft

variable {s : Store} {d : Draft} {l : Location} {keyword : String}

/-- What a step of resolution reports is not that a subschema has vanished. -/
abbrev Finds {α : Type} (x : Except ResolutionError α) : Prop :=
  FailsOnly (fun e => ¬ e.IsVanished) x

theorem finds_declaredTypes (l : Location) (value : Json) : Finds (declaredTypes l value) := by
  unfold declaredTypes
  split
  next => exact failsOnly_ok
  next =>
    split
    next => exact failsOnly_ok
    next => exact failsOnly_error (append_ne_of_head? 'e' (by decide) (by decide))

theorem finds_placesOf (l : Location) (keywords : List (String × Json)) :
    Finds (placesOf l keywords) := fun e he => by
  obtain ⟨keyword, value, shape, _, _, _, rfl⟩ := misshaped_of_placesOf he
  exact append_ne_of_head? 'u' (by decide) (by decide)

theorem finds_referenceText (l : Location) (keywords : List (String × Json)) :
    Finds (referenceText l keywords) := by
  unfold referenceText
  split
  next => exact failsOnly_ok
  next => exact failsOnly_ok
  next => exact failsOnly_error (append_ne_of_head? 'e' (by decide) (by decide))

variable [Uri.Library]

theorem finds_note (l : Location) (keyword : String) : Finds (d.note s l keyword) := by
  unfold note
  split
  next => exact failsOnly_ok
  next =>
    split
    next => exact failsOnly_ok
    next =>
      split
      next => exact failsOnly_error (show ¬ _ = vanished by decide)
      next => exact (finds_declaredTypes l _).bind fun _ _ => failsOnly_ok

theorem finds_noteChild (h : ∃ found, s.lookup? l = some found) (keyword : String) :
    Finds (d.noteChild s l keyword) := by
  refine (finds_note l keyword).bind fun found hfound => ?_
  obtain ⟨found, d'⟩ := found
  cases found with
  | none =>
    obtain ⟨value, hvalue⟩ := h
    rw [lookup?_of_note hfound] at hvalue
    cases hvalue
  | some id => exact failsOnly_ok

theorem finds_noteAll {segments : List String}
    (h : ∀ segment ∈ segments, ∃ found, s.lookup? (l.join segment) = some found) :
    Finds (noteAll s l keyword d segments) := by
  induction segments generalizing d with
  | nil => exact failsOnly_ok
  | cons segment rest ih =>
    obtain ⟨hfirst, hrest⟩ := List.forall_mem_cons.mp h
    exact (finds_noteChild hfirst keyword).bind fun _ _ => (ih hrest).bind fun _ _ => failsOnly_ok

theorem finds_noteChildren {places : Places}
    (h : ∀ l' ∈ places.locations (l.join keyword), ∃ found, s.lookup? l' = some found) :
    Finds (noteChildren s l keyword d places) := by
  cases places with
  | single =>
    exact (finds_noteChild (h _ (List.mem_singleton.mpr rfl)) keyword).bind fun _ _ => failsOnly_ok
  | list count =>
    refine (finds_noteAll fun segment hsegment => h _ ?_).bind fun _ _ => failsOnly_ok
    exact List.mem_map_of_mem hsegment
  | map keys =>
    refine (finds_noteAll fun segment hsegment => h _ ?_).bind fun _ _ => failsOnly_ok
    exact List.mem_map_of_mem hsegment

theorem finds_noteKeywords {places : List (String × Places)}
    (h : ∀ entry ∈ places, ∀ l' ∈ entry.2.locations (l.join entry.1),
      ∃ found, s.lookup? l' = some found) : Finds (noteKeywords s l d places) := by
  induction places generalizing d with
  | nil => exact failsOnly_ok
  | cons entry rest ih =>
    obtain ⟨hfirst, hrest⟩ := List.forall_mem_cons.mp h
    exact (finds_noteChildren hfirst).bind fun _ _ => (ih hrest).bind fun _ _ => failsOnly_ok

theorem finds_noteReference (source : Location) (text : String) :
    Finds (noteReference s d source text) := by
  unfold noteReference
  split
  next e _ =>
    refine failsOnly_error ?_
    show ¬ "unsupported fragment in \"" ++ text ++ "\": " ++ e.message = vanished
    rw [String.append_assoc, String.append_assoc]
    exact append_ne_of_head? 'u' (by decide) (by decide)
  next =>
    dsimp only
    split
    next => exact failsOnly_error id
    next =>
      refine (finds_note _ _).bind fun found _ => ?_
      obtain ⟨found, d'⟩ := found
      cases found with
      | none => exact failsOnly_error id
      | some id => exact failsOnly_ok

/-- **One expansion finds every subschema.** -/
theorem finds_expand (hs : s.DistinctKeys) {id : NodeId}
    (hwritten : ∀ n, d.nodes[id]? = some n → n.Written s) : Finds (expand s d id) := by
  unfold expand
  split
  next => exact failsOnly_ok
  next n hn =>
    split
    next => exact failsOnly_ok
    next keywords hbody =>
      have hvalue : s.lookup? n.location = some (.object keywords) := by
        obtain ⟨_, value, hvalue, hwrites, _⟩ := hwritten n hn
        rw [hbody] at hwrites
        cases value <;> cases hwrites
        exact hvalue
      refine (finds_placesOf _ _).bind fun places hplaces => ?_
      refine (finds_referenceText _ _).bind fun reference _ => ?_
      have hchildren : Finds (noteKeywords s n.location d places) :=
        finds_noteKeywords fun entry hentry l' hl' =>
          Store.exists_of_subschema hs hvalue (subschema_of_mem_locations hplaces hentry hl')
      refine hchildren.bind fun _ _ => ?_
      cases reference with
      | none => exact failsOnly_ok
      | some text => exact (finds_noteReference _ _).bind fun _ _ => failsOnly_ok

/-- **So does the loop.** -/
theorem Runs.finds (hs : s.DistinctKeys) {outcome : Except ResolutionError Draft}
    (h : Runs s d outcome) (hsound : Sound s d.nodes d.pending) : Finds outcome := by
  induction h with
  | done => exact failsOnly_ok
  | @fail nodes id rest _ he =>
    exact he ▸ finds_expand (d := ⟨nodes, rest⟩) hs (hsound.written id)
  | @turn nodes id rest _ _ he _ ih => exact ih (Sound.expand (d := ⟨nodes, rest⟩) hsound he).1

end Draft

/-- **Resolution never loses a subschema**, in documents of distinct keys. -/
theorem Graph.finds_resolve [Uri.Library] {s : Store} (hs : s.DistinctKeys) (root : String) :
    Draft.Finds (resolve s root) := by
  have h := resolves_resolve s root
  generalize resolve s root = outcome at h
  cases h with
  | unregistered => exact failsOnly_error id
  | refused _ h => exact failsOnly_error (Draft.finds_note (d := ⟨#[], []⟩) _ _ _ h)
  | missing => exact failsOnly_error id
  | @run _ id d outcome hbase h hrun =>
    have hsound := (Draft.sound_of_first (Store.mem_names_of_canonicalBase hbase) h).1
    have hfinds := hrun.finds hs hsound
    cases outcome with
    | ok d => exact failsOnly_ok
    | error e => exact failsOnly_error (hfinds e rfl)

/-! ## 4. Discriminators and plugins -/

/-- What the step reports is no inconsistency. -/
abbrev Consistent {α : Type} (x : Except SchemaError α) : Prop :=
  FailsOnly (fun e => ¬ e.fault.IsInconsistency) x

theorem consistent_of_kind {α : Type} {e : SchemaError} (hmalformed : e.kind ≠ .malformedSchema)
    (hvalue : e.kind ≠ .invalidKeywordValue) : Consistent (.error e : Except SchemaError α) :=
  failsOnly_error (Fault.not_isInconsistency_of_kind hmalformed hvalue)

theorem consistent_of_reason {α : Type} {l : Location} {keyword reason : String}
    (h : reason ∉ shapeReasons) :
    Consistent (.error ⟨l, .invalidKeywordValue keyword reason⟩ : Except SchemaError α) :=
  failsOnly_error (Fault.not_isInconsistency_of_reason h)

/-- The analysis of a discriminator is consistent. -/
theorem Discriminator.consistent_ofNode [Uri.Library] {s : Store} {g : Graph} (hg : g.Resolved s)
    (owner : NodeId) : Consistent (ofNode g owner) := by
  unfold ofNode
  cases g.node? owner with
  | none => exact consistent_of_kind nofun nofun
  | some n =>
    refine FailsOnly.bind ?_ fun property _ e he => ?_
    · unfold propertyOf
      dsimp only
      repeat' split
      all_goals first
        | exact failsOnly_ok
        | exact consistent_of_kind nofun nofun
    · rcases declaresAll_or_fault hg owner property with ⟨_, _, hall⟩ | ⟨e', hfault⟩
      · cases (ofBranches_of_declaresAll hg hall).symm.trans he
      · cases (ofBranches_of_fault hg hfault).symm.trans he
        cases hfault with
        | noBranches => exact Fault.not_isInconsistency_of_kind nofun nofun
        | branch _ _ _ hfault =>
          cases hfault with
          | badEnum => exact Fault.not_isInconsistency_of_reason (by decide)
          | _ => exact Fault.not_isInconsistency_of_kind nofun nofun

namespace Occurrence

/-- The keyword has children of the shape that belongs to it, if one does. -/
def Fits (o : Occurrence) : Prop :=
  ∀ shape, Structure.of? o.keyword = some shape → o.node.HasShape o.keyword shape

variable {o : Occurrence}

theorem Fits.subschema (h : o.Fits) (hshape : Structure.of? o.keyword = some .single) :
    Consistent o.subschema := by
  obtain ⟨id, hid⟩ := h .single hshape
  unfold Occurrence.subschema
  rw [hid]
  exact failsOnly_ok

theorem Fits.subschemas (h : o.Fits) (hshape : Structure.of? o.keyword = some .list) :
    Consistent o.subschemas := by
  obtain ⟨ids, hids⟩ := h .list hshape
  unfold Occurrence.subschemas
  rw [hids]
  exact failsOnly_ok

theorem Fits.subschemaMap (h : o.Fits) (hshape : Structure.of? o.keyword = some .map) :
    Consistent o.subschemaMap := by
  obtain ⟨entries, hentries⟩ := h .map hshape
  unfold Occurrence.subschemaMap
  rw [hentries]
  exact failsOnly_ok

end Occurrence

namespace Builtin

variable {o : Occurrence}

theorem consistent_count : Consistent (count o) := by
  unfold count
  split
  next => exact failsOnly_ok
  next => exact consistent_of_reason (by decide)

theorem consistent_siblingCount (name : String) : Consistent (siblingCount o name) := by
  unfold siblingCount
  split
  next => exact failsOnly_ok
  next =>
    split
    next => exact failsOnly_ok
    next => exact consistent_of_reason (by decide)

theorem consistent_number : Consistent (number o) := by
  unfold number
  split
  next => exact failsOnly_ok
  next => exact consistent_of_reason (by decide)

theorem consistent_keyPattern [Pattern.Library] (text : String) :
    Consistent (keyPattern o text) := by
  unfold keyPattern
  split
  next => exact failsOnly_ok
  next e _ =>
    refine consistent_of_reason ?_
    rw [String.append_assoc, String.append_assoc]
    exact append_not_mem_shapeReasons 'p' (by decide) (by decide)

/-- A keyword reports no inconsistency where it has children of its shape. -/
def ConsistentAt (name : String) (compile : Occurrence → Except SchemaError (Option Check)) : Prop :=
  ∀ o : Occurrence, o.keyword = name → o.Fits → Consistent (compile o)

theorem consistentAt_passive (name : String) : ConsistentAt name passive :=
  fun _ _ _ => failsOnly_ok

theorem consistentAt_not : ConsistentAt "not" not :=
  fun _ ho h => (h.subschema (ho ▸ rfl)).bind_pure

theorem consistentAt_propertyNames : ConsistentAt "propertyNames" propertyNames :=
  fun _ ho h => (h.subschema (ho ▸ rfl)).bind_pure

theorem consistentAt_leadingItems : ConsistentAt "prefixItems" leadingItems :=
  fun _ ho h => (h.subschemas (ho ▸ rfl)).bind_pure

theorem consistentAt_dependentSchemas : ConsistentAt "dependentSchemas" dependentSchemas :=
  fun _ ho h => (h.subschemaMap (ho ▸ rfl)).bind_pure

theorem consistentAt_conditional : ConsistentAt "if" conditional := fun _ ho h =>
  (h.subschema (ho ▸ rfl)).bind fun _ _ => by split <;> exact failsOnly_ok

theorem consistentAt_contains : ConsistentAt "contains" contains := fun _ ho h =>
  (consistent_siblingCount _).bind fun _ _ => (consistent_siblingCount _).bind fun _ _ =>
    (h.subschema (ho ▸ rfl)).bind_pure

theorem consistentAt_additionalProperties [Pattern.Library] :
    ConsistentAt "additionalProperties" additionalProperties := fun _ ho h =>
  (h.subschema (ho ▸ rfl)).bind fun _ _ =>
    (FailsOnly.mapM fun _ _ => consistent_keyPattern _).bind_pure

theorem consistentAt_patternProperties [Pattern.Library] :
    ConsistentAt "patternProperties" patternProperties :=
  fun _ ho h => (h.subschemaMap (ho ▸ rfl)).bind fun _ _ =>
    (FailsOnly.mapM fun _ _ => (consistent_keyPattern _).bind_pure).bind_pure

theorem consistentAt_items : ConsistentAt "items" items := by
  intro o ho h
  unfold items
  rcases h .singleOrList (ho ▸ rfl) with ⟨id, hid⟩ | ⟨ids, hids⟩
  · rw [Occurrence.children?, Node.children?_of_child? hid]
    exact failsOnly_ok
  · rw [Occurrence.children?, Node.children?_of_childList? hids]
    exact failsOnly_ok

theorem consistentAt_bound (name : String) (comparison : Comparison) :
    ConsistentAt name (bound comparison) := fun _ _ _ => consistent_number.bind_pure

theorem consistentAt_multipleOf : ConsistentAt "multipleOf" multipleOf := fun _ _ _ =>
  consistent_number.bind fun _ _ => by
    split
    · exact consistent_of_reason (by decide)
    · exact failsOnly_ok

theorem consistentAt_length (name : String) (limit : Nat → Limit) :
    ConsistentAt name (length limit) := fun _ _ _ => consistent_count.bind_pure

theorem consistentAt_itemCount (name : String) (limit : Nat → Limit) :
    ConsistentAt name (itemCount limit) := fun _ _ _ => consistent_count.bind_pure

theorem consistentAt_propertyCount (name : String) (limit : Nat → Limit) :
    ConsistentAt name (propertyCount limit) := fun _ _ _ => consistent_count.bind_pure

theorem consistentAt_pattern [Pattern.Library] : ConsistentAt "pattern" pattern := by
  intro o _ _
  unfold pattern
  split
  next =>
    split
    next => exact failsOnly_ok
    next =>
      exact consistent_of_reason
        (append_not_mem_shapeReasons 'i' (by decide) (by decide))
  next => exact consistent_of_reason (by decide)

theorem consistentAt_format : ConsistentAt "format" format := by
  intro o _ _
  unfold format
  split
  next => exact failsOnly_ok
  next => exact consistent_of_reason (by decide)

theorem consistentAt_uniqueItems : ConsistentAt "uniqueItems" uniqueItems := by
  intro o _ _
  unfold uniqueItems
  split
  next => exact failsOnly_ok
  next => exact failsOnly_ok
  next => exact consistent_of_reason (by decide)

/-- **No built-in keyword reports an inconsistency** where it has children of its shape. -/
theorem consistentAt_of_mem [Pattern.Library] {name : String}
    {compile : Occurrence → Except SchemaError (Option Check)} (h : (name, compile) ∈ keywords) :
    ConsistentAt name compile := by
  have hall : ∀ entry ∈ keywords, ConsistentAt entry.1 entry.2 := by
    simp only [keywords, List.forall_mem_cons]
    exact ⟨consistentAt_not, consistentAt_items, consistentAt_leadingItems,
      consistentAt_passive _, consistentAt_contains, consistentAt_passive _,
      consistentAt_passive _, consistentAt_additionalProperties, consistentAt_patternProperties,
      consistentAt_propertyNames, consistentAt_dependentSchemas, consistentAt_conditional,
      consistentAt_passive _, consistentAt_passive _, consistentAt_bound _ _,
      consistentAt_bound _ _, consistentAt_bound _ _, consistentAt_bound _ _,
      consistentAt_multipleOf, consistentAt_length _ _, consistentAt_length _ _,
      consistentAt_pattern, consistentAt_format, consistentAt_itemCount _ _,
      consistentAt_itemCount _ _, consistentAt_propertyCount _ _,
      consistentAt_propertyCount _ _, consistentAt_uniqueItems,
      fun _ h => absurd h List.not_mem_nil⟩
  exact hall _ h

end Builtin

/-! ## 5. Compilation -/

/-- The types of a node are there where `type` is written. -/
theorem Graph.Resolved.exists_declaredTypes [Uri.Library] {s : Store} {g : Graph}
    (hg : g.Resolved s) {id : NodeId} {n : Node} (hn : g.node? id = some n)
    (hkeyword : n.hasKeyword "type" = true) :
    ∃ types, n.declaredTypes = some types := by
  obtain ⟨raw, hraw⟩ := Option.isSome_iff_exists.mp hkeyword
  unfold Node.keyword? Node.keywords at hraw
  cases hbody : n.body with
  | bool b =>
    rw [hbody] at hraw
    cases hraw
  | object keywords =>
    rw [hbody] at hraw
    obtain ⟨_, schema, _, hwrites, htypes⟩ := hg.written id n hn
    rw [hbody] at hwrites
    cases schema <;> cases hwrites
    unfold Draft.declaredTypes at htypes
    rw [show (Json.object keywords).get? "type" = some raw from hraw] at htypes
    dsimp only at htypes
    split at htypes
    next types _ => exact ⟨types, (Except.ok.inj htypes).symm⟩
    next => cases htypes

namespace Compiler

variable {s : Store} {g : Graph} {id : NodeId} {n : Node}

theorem consistent_resolved {α : Type} {keyword : CoreKeyword} {found : Option α}
    (h : ∃ a, found = some a) : Consistent (resolved n keyword found) := by
  obtain ⟨a, rfl⟩ := h
  exact failsOnly_ok

variable [Uri.Library]

/-- **A keyword of the core reports no inconsistency.** -/
theorem consistent_coreRule (hg : g.Resolved s) (hn : g.node? id = some n)
    {core : CoreKeyword} (hkeyword : n.hasKeyword core.name = true) (d : Option Discriminator)
    (value : Json) : Consistent (coreRule n d value core) := by
  have hshape (shape : Structure) (h : Structure.of? core.name = some shape) :
      n.HasShape core.name shape := hg.hasShape_of_keyword hn h hkeyword
  unfold coreRule
  cases core with
  | type => exact (consistent_resolved (hg.exists_declaredTypes hn hkeyword)).bind_pure
  | const => exact failsOnly_ok
  | enum =>
    dsimp only
    split
    next => exact failsOnly_ok
    next => exact consistent_of_reason (by decide)
  | required =>
    dsimp only
    split
    next => exact failsOnly_ok
    next => exact consistent_of_reason (by decide)
  | properties => exact (consistent_resolved (hshape .map rfl)).bind_pure
  | ref => exact (consistent_resolved (hg.exists_reference hn hkeyword)).bind_pure
  | allOf => exact (consistent_resolved (hshape .list rfl)).bind_pure
  | anyOf => exact (consistent_resolved (hshape .list rfl)).bind_pure
  | oneOf =>
    refine (consistent_resolved (hshape .list rfl)).bind fun _ _ => ?_
    split <;> exact failsOnly_ok
  | discriminator => exact failsOnly_ok

variable [Pattern.Library]

/-- **Neither does a keyword of a plugin**, if the plugins are the built-in ones. -/
theorem consistent_pluginRule (hg : g.Resolved s) (hn : g.node? id = some n) {o : Options}
    {name : String} {value : Json} (hmem : (name, value) ∈ n.keywords) :
    Consistent ((builtin o).pluginRule g id n name value) := by
  unfold pluginRule
  split
  next plugin hplugin =>
    obtain ⟨compile, hcompile, rfl⟩ := Registry.exists_compile_of_find? hplugin
    have hfits : Occurrence.Fits ⟨name, value, id, n, g⟩ := fun shape hshape =>
      hg.hasShape_of_keyword hn hshape (Node.hasKeyword_of_mem hmem)
    exact (Builtin.consistentAt_of_mem hcompile _ rfl hfits).bind_pure.bind_pure
  next =>
    split
    · exact consistent_of_kind nofun nofun
    · exact failsOnly_ok

theorem consistent_keywordRule (hg : g.Resolved s) (hn : g.node? id = some n) {o : Options}
    {d : Option Discriminator} {name : String} {value : Json} (hmem : (name, value) ∈ n.keywords) :
    Consistent ((builtin o).keywordRule g id n d name value) := by
  unfold keywordRule
  split
  next core hcore =>
    have hkeyword := Node.hasKeyword_of_mem hmem
    rw [name_of_ofName? hcore] at hkeyword
    exact consistent_coreRule hg hn hkeyword d value
  next =>
    split
    · exact failsOnly_ok
    · exact consistent_pluginRule hg hn hmem

theorem consistent_keywordRules (hg : g.Resolved s) (hn : g.node? id = some n) {o : Options}
    {d : Option Discriminator} {keywords : List (String × Json)}
    (h : ∀ entry ∈ keywords, entry ∈ n.keywords) :
    Consistent ((builtin o).keywordRules g id n d keywords) := by
  induction keywords with
  | nil => exact failsOnly_ok
  | cons entry rest ih =>
    obtain ⟨hfirst, hrest⟩ := List.forall_mem_cons.mp h
    exact (consistent_keywordRule hg hn hfirst).bind fun _ _ => (ih hrest).bind_pure

theorem consistent_compileNode (hg : g.Resolved s) (hn : g.node? id = some n) {o : Options} :
    Consistent ((builtin o).compileNode g id n) := by
  unfold compileNode
  split
  next => exact failsOnly_ok
  next => exact failsOnly_ok
  next keywords hbody =>
    have hall : ∀ entry ∈ keywords, entry ∈ n.keywords := by
      unfold Node.keywords
      rw [hbody]
      exact fun _ hentry => hentry
    refine FailsOnly.bind ?_ fun d _ => (consistent_keywordRules hg hn hall).bind_pure
    unfold discriminatorOf
    split
    · exact (Discriminator.consistent_ofNode hg id).bind_pure
    · exact failsOnly_ok

/-- **Compiling a resolved graph reports no inconsistency.** -/
theorem consistent_compile (hg : g.Resolved s) (o : Options) (start : NodeId) :
    Consistent ((builtin o).compile g start) := by
  have hnodes (ids : List NodeId) : Consistent ((builtin o).compileNodes g ids) := by
    induction ids with
    | nil => exact failsOnly_ok
    | cons id rest ih =>
      unfold compileNodes
      split
      next => exact ih
      next n hn => exact (consistent_compileNode hg hn).bind fun _ _ => ih.bind_pure
  rw [compile_eq]
  refine (hnodes _).bind fun compiled _ => ?_
  unfold finish
  split
  · exact consistent_of_kind nofun nofun
  · exact failsOnly_ok

end Compiler

/-! ## 6. Together -/

/-- **Resolved graphs are consistent.** For every store and every name: if its documents have distinct
    keys, resolution never reports that a subschema has vanished. If there is a graph, every
    structural keyword of a node has children of the shape that its readers ask for; so compiling it
    with the built-in keywords, from any node and with any options, never reports that something was
    not resolved, and no plugin reports that its keyword lacks the subschemas it asks for. -/
theorem Graph.resolved_is_consistent [Uri.Library] [Pattern.Library] (s : Store) (root : String) :
    (s.DistinctKeys → ∀ l keyword reason, resolve s root = .error (.malformed l keyword reason) →
      reason ≠ "subschema vanished during resolution") ∧
    ∀ g, resolve s root = .ok g →
      (∀ id n name shape, g.node? id = some n → Structure.of? name = some shape →
        n.hasKeyword name = true → n.HasShape name shape) ∧
      ∀ o start e, (Compiler.builtin o).compile g start = .error e →
        e.kind ≠ .malformedSchema ∧
        ∀ keyword reason, e.fault = .invalidKeywordValue keyword reason →
          reason ∉ ["must be a schema", "must be an array of schemas",
            "must be an object of schemas", "must be a schema or an array of schemas"] := by
  refine ⟨fun hs l keyword reason he => finds_resolve hs root _ he, fun g hg => ?_⟩
  obtain ⟨hresolved, _⟩ := resolved_of_resolve hg
  refine ⟨fun id n name shape hn => hresolved.hasShape_of_keyword hn, fun o start e he => ?_⟩
  have hconsistent := Compiler.consistent_compile hresolved o start e he
  refine ⟨fun hkind => hconsistent (Or.inl hkind), fun keyword reason hfault hmem => ?_⟩
  exact hconsistent (Or.inr ⟨keyword, reason, hmem, hfault⟩)

/-- A schema with places under an index and under an escaped key, and with a count that is none. -/
def miscounted : Json :=
  .object [("items", .array [.object [("minLength", .string "two")]]),
    ("properties", .object [("a/b", .bool true)])]

/-- A schema with an escaped key above a value that is no schema. -/
def misshapen : Json :=
  .object [("properties", .object [("a/b", .object [("not", .string "this")])])]

/-- In one schema all places are found, and what is reported is a value; in the other resolution
    reports a value as well, and no place that has vanished. -/
theorem Graph.resolved_is_consistent_miscounted :
    (∃ g n e, ofDocument miscounted = .ok g ∧ g.node? g.root = some n ∧
      n.HasShape "items" .singleOrList ∧ n.HasShape "properties" .map ∧
      (Compiler.builtin .default).compile g g.root = .error e ∧
      e.location = ⟨Store.defaultBase, ⟨["items", "0", "minLength"]⟩⟩ ∧
      e.kind ≠ .malformedSchema) ∧
    ∃ l keyword reason, ofDocument misshapen = .error (.malformed l keyword reason) ∧
      l = ⟨Store.defaultBase, ⟨["properties", "a/b"]⟩⟩ ∧
      reason ≠ "subschema vanished during resolution" := by
  have hmiscounted : ((ofDocument miscounted).toOption.any fun g =>
      (g.node? g.root).any fun n => n.hasKeyword "items" && n.hasKeyword "properties" &&
        (reported? ((Compiler.builtin .default).compile g g.root)).any fun e => decide
          (e.location = ⟨Store.defaultBase, ⟨["items", "0", "minLength"]⟩⟩)) = true := by
    decide +kernel
  have hmisshapen : ((reported? (ofDocument misshapen)).any fun e => decide
      (e = .malformed ⟨Store.defaultBase, ⟨["properties", "a/b"]⟩⟩ "not"
        "unexpected value \"this\"")) = true := by
    decide +kernel
  constructor
  · obtain ⟨g, hg, hall⟩ := any_toOption_eq_true.mp hmiscounted
    obtain ⟨n, hn, hall⟩ := (Option.any_eq_true _ _).mp hall
    obtain ⟨hkeywords, herror⟩ := Bool.and_eq_true_iff.mp hall
    obtain ⟨hitems, hproperties⟩ := Bool.and_eq_true_iff.mp hkeywords
    obtain ⟨e, he, hlocation⟩ := any_reported?_eq_true.mp herror
    obtain ⟨_, hgraphs⟩ := resolved_is_consistent (.single miscounted) Store.defaultBase
    obtain ⟨hshapes, hreports⟩ := hgraphs g hg
    exact ⟨g, n, e, hg, hn, hshapes _ _ _ _ hn rfl hitems, hshapes _ _ _ _ hn rfl hproperties,
      he, of_decide_eq_true hlocation, (hreports _ _ _ he).1⟩
  · have hkeys : misshapen.DistinctKeys := by simp [misshapen]
    obtain ⟨hfinds, _⟩ := resolved_is_consistent (.single misshapen) Store.defaultBase
    obtain ⟨_, he, hmalformed⟩ := any_reported?_eq_true.mp hmisshapen
    obtain rfl := of_decide_eq_true hmalformed
    exact ⟨_, _, _, he, rfl, hfinds (Store.distinctKeys_single hkeys) _ _ _ he⟩

end TaggedSchema
