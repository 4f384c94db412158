import TaggedSchema.Json.Reader
import TaggedSchema.Pointer
import TaggedSchema.Proofs.Entries
import TaggedSchema.Proofs.Requests
import Mathlib.Logic.Relation

/-!
# Values whose keys are distinct

An object of a document has one member for each key. The type of values does not say so; this file
says it of a value and all its parts (`Json.DistinctKeys`), and that it is so of every value that is
read from a text (`Json.distinctKeys_of_read?`): an object is built by inserting its members, and
insertion keeps the keys in strictly ascending order.
-/

namespace TaggedSchema.Json

/-- No object in the value has two members of one key. -/
def DistinctKeys (value : Json) : Prop :=
  ∀ members, Relation.ReflTransGen Part (.object members) value → (members.map (·.1)).Nodup

/-! ## 1. Parts -/

section Parts

variable {value : Json} {items : List Json} {members : List (String × Json)}

theorem DistinctKeys.part (h : value.DistinctKeys) {other : Json} (hpart : other.Part value) :
    other.DistinctKeys :=
  fun members hpath => h members (hpath.tail hpart)

theorem DistinctKeys.nodup (h : (object members).DistinctKeys) : (members.map (·.1)).Nodup :=
  h members .refl

/-- A value has distinct keys when it has them itself and its parts have. -/
theorem distinctKeys_of_parts (h : ∀ members, value = .object members → (members.map (·.1)).Nodup)
    (hparts : ∀ part, Part part value → part.DistinctKeys) : value.DistinctKeys := by
  intro members hpath
  cases hpath with
  | refl => exact h members rfl
  | tail hpath hpart => exact hparts _ hpart members hpath

/-- What is neither an array nor an object has no parts. -/
theorem distinctKeys_of_scalar (hitems : value.items? = none) (hmembers : value.members? = none) :
    value.DistinctKeys := by
  refine distinctKeys_of_parts (fun members he => ?_) fun part hpart => ?_
  · rw [he] at hmembers
    cases hmembers
  · cases hpart with
    | item h => cases hitems
    | member h => cases hmembers
    | key h => cases hmembers

@[simp] theorem distinctKeys_string (s : String) : (string s).DistinctKeys :=
  distinctKeys_of_scalar rfl rfl

@[simp] theorem distinctKeys_number (a : Number) : (number a).DistinctKeys :=
  distinctKeys_of_scalar rfl rfl

@[simp] theorem distinctKeys_array :
    (array items).DistinctKeys ↔ ∀ item ∈ items, item.DistinctKeys := by
  refine ⟨fun h item hitem => h.part (.item hitem), fun h => ?_⟩
  refine distinctKeys_of_parts (fun _ he => by cases he) fun part hpart => ?_
  cases hpart with
  | item hitem => exact h part hitem

@[simp] theorem distinctKeys_object : (object members).DistinctKeys ↔
    (members.map (·.1)).Nodup ∧ ∀ m ∈ members, m.2.DistinctKeys := by
  refine ⟨fun h => ⟨h.nodup, fun m hm => h.part (.member hm)⟩, fun ⟨hkeys, h⟩ => ?_⟩
  refine distinctKeys_of_parts (fun _ he => by cases he; exact hkeys) fun part hpart => ?_
  cases hpart with
  | member hmember => exact h _ hmember
  | key _ => exact distinctKeys_string _

end Parts

end TaggedSchema.Json

namespace TaggedSchema.Pointer

theorem part_of_step? {value part : Json} {segment : String} (h : step? value segment = some part) :
    part.Part value := by
  unfold step? at h
  split at h
  next members => exact .member (mem_of_lookup h)
  next items =>
    obtain ⟨i, _, hi⟩ := Option.bind_eq_some_iff.mp h
    exact .item (List.mem_of_getElem? hi)
  next => cases h

/-- Where a path leads, keys are as distinct as in the whole. -/
theorem distinctKeys_of_resolve {path : Pointer} {whole value : Json} (hwhole : whole.DistinctKeys)
    (h : path.resolve whole = some value) : value.DistinctKeys := by
  unfold resolve at h
  generalize path.segments = segments at h
  induction segments generalizing whole with
  | nil =>
    cases h
    exact hwhole
  | cons segment rest ih =>
    obtain ⟨part, hpart, h⟩ := Option.bind_eq_some_iff.mp h
    exact ih (hwhole.part (part_of_step? hpart)) h

end TaggedSchema.Pointer

namespace TaggedSchema.Json

/-! ## 2. Insertion -/

section Insertion

variable {key : String} {value : Json} {members : List (String × Json)} {m : String × Json}

/-- The keys are in strictly ascending order. -/
def Ascending (members : List (String × Json)) : Prop :=
  members.Pairwise fun a b => a.1 < b.1

theorem Ascending.nodup (h : Ascending members) : (members.map (·.1)).Nodup := by
  refine List.pairwise_map.mpr (h.imp fun hlt he => ?_)
  rw [he] at hlt
  exact String.lt_irrefl _ hlt

theorem mem_of_mem_insert (h : m ∈ insert key value members) : m = (key, value) ∨ m ∈ members := by
  induction members with
  | nil => exact Or.inl (List.mem_singleton.mp h)
  | cons first rest ih =>
    unfold insert at h
    split at h
    · exact List.mem_cons.mp h
    · split at h
      · rcases List.mem_cons.mp h with he | hmem
        · exact Or.inl he
        · exact Or.inr (List.mem_cons_of_mem _ hmem)
      · rcases List.mem_cons.mp h with he | hmem
        · exact Or.inr (he ▸ List.mem_cons_self)
        · exact (ih hmem).imp_right (List.mem_cons_of_mem _)

/-- **Insertion keeps the order of keys.** -/
theorem Ascending.insert (h : Ascending members) : Ascending (insert key value members) := by
  induction members with
  | nil => exact List.pairwise_singleton _ _
  | cons first rest ih =>
    obtain ⟨hfirst, hrest⟩ := List.pairwise_cons.mp h
    unfold Json.insert
    split
    next hlt =>
      refine List.pairwise_cons.mpr ⟨fun m hm => ?_, h⟩
      rcases List.mem_cons.mp hm with rfl | hm
      · exact hlt
      · exact String.lt_trans hlt (hfirst m hm)
    next hge =>
      split
      next he => exact List.pairwise_cons.mpr ⟨fun m hm => he ▸ hfirst m hm, hrest⟩
      next hne =>
        refine List.pairwise_cons.mpr ⟨fun m hm => ?_, ih hrest⟩
        rcases mem_of_mem_insert hm with rfl | hm
        · exact Std.lt_of_le_of_ne hge hne
        · exact hfirst m hm

/-- An object that is built from members has distinct keys, if the members have. -/
theorem distinctKeys_ofMembers (h : ∀ m ∈ members, m.2.DistinctKeys) :
    (ofMembers members).DistinctKeys := by
  have hbuilt : ∀ (rest acc : List (String × Json)), Ascending acc →
      (∀ m ∈ acc, m.2.DistinctKeys) → (∀ m ∈ rest, m.2.DistinctKeys) →
      (object (rest.foldl (fun acc m => Json.insert m.1 m.2 acc) acc)).DistinctKeys := by
    intro rest
    induction rest with
    | nil => exact fun acc hacc hall _ => distinctKeys_object.mpr ⟨hacc.nodup, hall⟩
    | cons first rest ih =>
      intro acc hacc hall hrest
      obtain ⟨hfirst, hrest⟩ := List.forall_mem_cons.mp hrest
      refine ih _ hacc.insert (fun m hm => ?_) hrest
      rcases mem_of_mem_insert hm with rfl | hm
      · exact hfirst
      · exact hall m hm
  exact hbuilt members [] List.Pairwise.nil (fun _ hm => absurd hm List.not_mem_nil) h

end Insertion

/-! ## 3. Reading -/

/-- What the three readers yield with that much fuel has distinct keys. -/
structure ReadsDistinct (fuel : Nat) : Prop where
  value : ∀ {s value rest}, readValue? fuel s = some (value, rest) → value.DistinctKeys
  items : ∀ {s items rest}, readItems? fuel s = some (items, rest) →
    ∀ item ∈ items, item.DistinctKeys
  members : ∀ {s members rest}, readMembers? fuel s = some (members, rest) →
    ∀ m ∈ members, m.2.DistinctKeys

namespace ReadsDistinct

variable {fuel : Nat} {s rest : List Char}

theorem readValue (h : ReadsDistinct fuel) {found : Json}
    (hread : readValue? (fuel + 1) s = some (found, rest)) : found.DistinctKeys := by
  unfold readValue? at hread
  split at hread
  · obtain ⟨⟨text, after⟩, _, he⟩ := Option.bind_eq_some_iff.mp hread
    cases he
    exact distinctKeys_of_scalar rfl rfl
  · split at hread
    · cases hread
      exact distinctKeys_array.mpr fun _ hitem => absurd hitem List.not_mem_nil
    · obtain ⟨⟨items, after⟩, hitems, he⟩ := Option.bind_eq_some_iff.mp hread
      cases he
      exact distinctKeys_array.mpr (h.items hitems)
  · split at hread
    · cases hread
      exact distinctKeys_object.mpr ⟨List.nodup_nil, fun _ hm => absurd hm List.not_mem_nil⟩
    · obtain ⟨⟨members, after⟩, hmembers, he⟩ := Option.bind_eq_some_iff.mp hread
      cases he
      exact distinctKeys_ofMembers (h.members hmembers)
  -- the words `null`, `true` and `false`, and numbers
  all_goals
    obtain ⟨_, _, he⟩ := Option.map_eq_some_iff.mp hread
    cases he
    exact distinctKeys_of_scalar rfl rfl

theorem readItems (h : ReadsDistinct fuel) {found : List Json}
    (hread : readItems? (fuel + 1) s = some (found, rest)) : ∀ item ∈ found, item.DistinctKeys := by
  obtain ⟨⟨first, after⟩, hfirst, hread⟩ := Option.bind_eq_some_iff.mp hread
  dsimp only at hread
  split at hread
  · cases hread
    exact List.forall_mem_singleton.mpr (h.value hfirst)
  · obtain ⟨⟨more, after⟩, hmore, he⟩ := Option.bind_eq_some_iff.mp hread
    cases he
    exact List.forall_mem_cons.mpr ⟨h.value hfirst, h.items hmore⟩
  · cases hread

theorem readMembers (h : ReadsDistinct fuel) {found : List (String × Json)}
    (hread : readMembers? (fuel + 1) s = some (found, rest)) : ∀ m ∈ found, m.2.DistinctKeys := by
  unfold readMembers? at hread
  split at hread
  · obtain ⟨⟨key, after⟩, _, hread⟩ := Option.bind_eq_some_iff.mp hread
    dsimp only at hread
    split at hread
    · obtain ⟨⟨first, after⟩, hfirst, hread⟩ := Option.bind_eq_some_iff.mp hread
      dsimp only at hread
      split at hread
      · cases hread
        exact List.forall_mem_singleton.mpr (h.value hfirst)
      · obtain ⟨⟨more, after⟩, hmore, he⟩ := Option.bind_eq_some_iff.mp hread
        cases he
        exact List.forall_mem_cons.mpr ⟨h.value hfirst, h.members hmore⟩
      · cases hread
    · cases hread
  · cases hread

end ReadsDistinct

theorem readsDistinct (fuel : Nat) : ReadsDistinct fuel := by
  induction fuel with
  | zero =>
    refine ⟨fun h => ?_, fun h => ?_, fun h => ?_⟩
    · simp [readValue?] at h
    · simp [readItems?] at h
    · simp [readMembers?] at h
  | succ fuel ih => exact ⟨ih.readValue, ih.readItems, ih.readMembers⟩

/-- **Every value that is read from a text has distinct keys.** -/
theorem distinctKeys_of_read? {text : String} {value : Json} (h : read? text = some value) :
    value.DistinctKeys := by
  unfold read? at h
  dsimp only at h
  split at h
  next found rest hread =>
    split at h
    · cases h
      exact (readsDistinct _).value hread
    · cases h
  next => cases h

end TaggedSchema.Json
