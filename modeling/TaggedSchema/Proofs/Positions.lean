import TaggedSchema.Proofs.Entries
import TaggedSchema.Store
import Mathlib.Data.List.Induction

/-!
# The places of a document

`Pointer.resolve` walks a value by segments. This file lists all the walks that end somewhere
(`Json.positions`): there are exactly as many as there are values in the value
(`Json.length_positions`), because an item has one spelling only (`Pointer.eq_repr_of_index?`). So a
store has no more locations than its documents have values, each counted once for every name under
which a document may be addressed (`Store.mem_locations`, `Store.length_locations_le`).
-/

namespace TaggedSchema

/-! ## 1. The spelling of an index -/

namespace Pointer

theorem digitChar_of_isDigit {c : Char} (h : c.isDigit = true) :
    Nat.digitChar (c.toNat - '0'.toNat) = c ∧ c.toNat - '0'.toNat < 10 := by
  unfold Char.isDigit at h
  rw [Bool.and_eq_true, decide_eq_true_eq, decide_eq_true_eq] at h
  have hleast : 48 ≤ c.toNat := UInt32.le_iff_toNat_le.mp h.1
  have hmost : c.toNat ≤ 57 := UInt32.le_iff_toNat_le.mp h.2
  have hzero : '0'.toNat = 48 := rfl
  have hall : ∀ d < 10, Nat.digitChar d = Char.ofNat (d + 48) := by decide
  have hlt : c.toNat - 48 < 10 := by omega
  refine ⟨?_, hlt⟩
  rw [hzero, hall _ hlt, Nat.sub_add_cancel hleast, Char.ofNat_toNat]

/-- Digits without a leading zero are those of the number they spell. -/
theorem toDigits_ofDigitChars {digits : List Char} (hne : digits ≠ [])
    (hhead : digits.head? ≠ some '0') (hall : ∀ c ∈ digits, c.isDigit = true) :
    Nat.toDigits 10 (Nat.ofDigitChars 10 digits 0) = digits ∧
      0 < Nat.ofDigitChars 10 digits 0 := by
  induction digits using List.reverseRecOn with
  | nil => exact absurd rfl hne
  | append_singleton front c ih =>
    obtain ⟨hc, hlt⟩ := digitChar_of_isDigit (hall c (by simp))
    rw [Nat.ofDigitChars_append, Nat.ofDigitChars_cons, Nat.ofDigitChars_nil]
    by_cases hfront : front = []
    · subst hfront
      rw [Nat.ofDigitChars_nil, Nat.mul_zero, Nat.zero_add, Nat.toDigits_of_lt_base hlt, hc]
      refine ⟨rfl, Nat.pos_of_ne_zero fun hz => hhead ?_⟩
      rw [hz] at hc
      rw [← hc]
      rfl
    · have hfirst : (front ++ [c]).head? = front.head? := by
        cases front with
        | nil => exact absurd rfl hfront
        | cons a rest => rfl
      obtain ⟨hdigits, hpos⟩ := ih hfront (hfirst ▸ hhead)
        (fun d hd => hall d (List.mem_append_left _ hd))
      rw [← Nat.toDigits_append_toDigits (by decide) hpos hlt, hdigits,
        Nat.toDigits_of_lt_base hlt, hc]
      exact ⟨rfl, by omega⟩

/-- **An index has one spelling.** -/
theorem eq_repr_of_index? {segment : String} {i : Nat} (h : index? segment = some i) :
    segment = Nat.repr i := by
  rw [← String.toList_inj, Nat.toList_repr]
  unfold index? at h
  split at h
  · cases h
  next hdigits =>
    cases h
    exact hdigits
  next digits hne _ =>
    split at h
    next hdigits =>
      obtain ⟨hhead, hall⟩ := hdigits
      have hspelled := toDigits_ofDigitChars hne hhead (List.all_eq_true.mp hall)
      rw [← Option.some.inj h]
      exact hspelled.1.symm
    next => cases h

/-- The digits of a number that is not zero have no leading zero. -/
theorem head?_toDigits {i : Nat} (h : 0 < i) : (Nat.toDigits 10 i).head? ≠ some '0' := by
  induction i using Nat.strongRecOn with
  | _ i ih =>
    by_cases hlt : i < 10
    · have hall : ∀ d < 10, 0 < d → Nat.digitChar d ≠ '0' := by decide
      rw [Nat.toDigits_of_lt_base hlt]
      exact fun he => hall i hlt h (Option.some.inj he)
    · have hle : 10 ≤ i := by omega
      have hpos : 0 < i / 10 := by omega
      have hfront := ih (i / 10) (by omega) hpos
      have hne : Nat.toDigits 10 (i / 10) ≠ [] := Nat.toDigits_ne_nil
      obtain ⟨first, rest, hdigits⟩ := List.exists_cons_of_ne_nil hne
      rw [Nat.toDigits_of_base_le (by decide) hle, hdigits]
      rw [hdigits] at hfront
      exact hfront

/-- **The spelling of an index names it.** -/
theorem index?_repr (i : Nat) : index? (Nat.repr i) = some i := by
  have hdigits : ∀ c ∈ Nat.toDigits 10 i, c.isDigit = true :=
    fun c hc => Nat.isDigit_of_mem_toDigits (by decide) (Nat.le_refl 10) hc
  have hvalue := Nat.ofDigitChars_ten_toDigits (n := i)
  unfold index?
  rw [Nat.toList_repr]
  split
  next hnil => exact absurd hnil Nat.toDigits_ne_nil
  next hzero =>
    rw [hzero] at hvalue
    rw [← hvalue]
    rfl
  next digits hne hnot =>
    have hpos : 0 < i := by
      refine Nat.pos_of_ne_zero fun hz => hnot ?_
      rw [hz]
      rfl
    rw [if_pos ⟨head?_toDigits hpos, List.all_eq_true.mpr hdigits⟩]
    exact congrArg some hvalue
end Pointer

/-! ## 2. Walks through a value -/

namespace Pointer

theorem resolve_root (value : Json) : root.resolve value = some value := rfl

/-- A path is resolved segment by segment. -/
theorem resolve_append {path : Pointer} {whole value : Json} (h : path.resolve whole = some value)
    (segment : String) :
    resolve ⟨path.segments ++ [segment]⟩ whole = step? value segment := by
  unfold resolve at h
  unfold resolve
  rw [List.foldlM_append, h]
  show (step? value segment).bind pure = step? value segment
  exact Option.bind_fun_some _

end Pointer

namespace Json

mutual

/-- The segments of all walks that end at a value. -/
def positions : Json → List (List String)
  | .array items => [] :: positionsOfItems 0 items
  | .object members => [] :: positionsOfMembers members
  | _ => [[]]
termination_by structural value => value

/-- Those that begin with an item, from an index on. -/
def positionsOfItems : Nat → List Json → List (List String)
  | _, [] => []
  | index, item :: rest =>
    item.positions.map (Nat.repr index :: ·) ++ positionsOfItems (index + 1) rest
termination_by structural _ items => items

/-- Those that begin with a member. -/
def positionsOfMembers : List (String × Json) → List (List String)
  | [] => []
  | (key, value) :: rest => value.positions.map (key :: ·) ++ positionsOfMembers rest
termination_by structural members => members

end

mutual

/-- **There are as many places in a value as values.** -/
theorem length_positions : (value : Json) → value.positions.length = value.size
  | .array items => by rw [positions, List.length_cons, length_positionsOfItems, size]
  | .object members => by rw [positions, List.length_cons, length_positionsOfMembers, size]
  | .null => rfl
  | .bool _ => rfl
  | .number _ => rfl
  | .string _ => rfl

theorem length_positionsOfItems :
    (index : Nat) → (items : List Json) → (positionsOfItems index items).length = sizeOfItems items
  | _, [] => rfl
  | index, item :: rest => by
    rw [positionsOfItems, List.length_append, List.length_map, length_positions,
      length_positionsOfItems, sizeOfItems]

theorem length_positionsOfMembers :
    (members : List (String × Json)) → (positionsOfMembers members).length = sizeOfMembers members
  | [] => rfl
  | (key, value) :: rest => by
    rw [positionsOfMembers, List.length_append, List.length_map, length_positions,
      length_positionsOfMembers, sizeOfMembers]

end

theorem size_le_of_mem_members {key : String} {value : Json} {members : List (String × Json)}
    (h : (key, value) ∈ members) : value.size ≤ sizeOfMembers members := by
  induction members with
  | nil => cases h
  | cons entry rest ih =>
    rw [sizeOfMembers]
    cases h with
    | head => exact Nat.le_add_right _ _
    | tail _ h => exact Nat.le_trans (ih h) (Nat.le_add_left _ _)

theorem nil_mem_positions (value : Json) : [] ∈ value.positions := by
  cases value <;> simp [positions]

theorem mem_positionsOfItems {items : List Json} {start i : Nat} {item : Json}
    (h : items[i]? = some item) {rest : List String} (hrest : rest ∈ item.positions) :
    Nat.repr (start + i) :: rest ∈ positionsOfItems start items := by
  induction items generalizing start i with
  | nil => cases h
  | cons first more ih =>
    rw [positionsOfItems]
    cases i with
    | zero =>
      cases h
      exact List.mem_append_left _ (List.mem_map_of_mem hrest)
    | succ i =>
      have hmore : Nat.repr (start + 1 + i) :: rest ∈ positionsOfItems (start + 1) more := ih h
      rw [Nat.add_right_comm] at hmore
      exact List.mem_append_right _ hmore

theorem mem_positionsOfMembers {members : List (String × Json)} {key : String} {value : Json}
    (h : members.lookup key = some value) {rest : List String} (hrest : rest ∈ value.positions) :
    key :: rest ∈ positionsOfMembers members := by
  induction members with
  | nil => cases h
  | cons entry more ih =>
    obtain ⟨k, v⟩ := entry
    rw [positionsOfMembers]
    rw [List.lookup_cons] at h
    by_cases hk : key = k
    · subst hk
      rw [beq_self_eq_true] at h
      cases h
      exact List.mem_append_left _ (List.mem_map_of_mem hrest)
    · rw [beq_eq_false_iff_ne.mpr hk] at h
      exact List.mem_append_right _ (ih h)

/-- One segment leads to a value whose places continue those of the whole. -/
theorem cons_mem_positions {value part : Json} {segment : String}
    (h : Pointer.step? value segment = some part) {rest : List String}
    (hrest : rest ∈ part.positions) : segment :: rest ∈ value.positions := by
  cases value with
  | array items =>
    obtain ⟨i, hindex, hitem⟩ := Option.bind_eq_some_iff.mp h
    have hmem : Nat.repr (0 + i) :: rest ∈ positionsOfItems 0 items :=
      mem_positionsOfItems hitem hrest
    rw [Nat.zero_add, ← Pointer.eq_repr_of_index? hindex] at hmem
    exact List.mem_cons_of_mem _ hmem
  | object members => exact List.mem_cons_of_mem _ (mem_positionsOfMembers h hrest)
  | _ => cases h

/-- **A walk that ends somewhere is listed.** -/
theorem mem_positions {p : Pointer} {document value : Json} (h : p.resolve document = some value) :
    p.segments ∈ document.positions := by
  obtain ⟨segments⟩ := p
  unfold Pointer.resolve at h
  induction segments generalizing document with
  | nil => exact nil_mem_positions document
  | cons segment rest ih =>
    obtain ⟨part, hpart, hrest⟩ := Option.bind_eq_some_iff.mp h
    exact cons_mem_positions hpart (ih hrest)

end Json

/-! ## 3. The locations of a store -/

namespace Store

/-- The names that an identifier can be resolved to: the keys of documents and of aliases. -/
def names (s : Store) : List String := s.documents.map (·.1) ++ s.aliases.map (·.2)

variable [Uri.Library]

/-- The locations in the document of a name. -/
def locationsIn (s : Store) (name : String) : List Location :=
  match s.document? name with
  | some document => document.positions.map fun segments => ⟨name, ⟨segments⟩⟩
  | none => []

/-- All locations under the names of a store. -/
def locations (s : Store) : List Location := s.names.flatMap s.locationsIn

theorem mem_names_of_canonicalBase {s : Store} {uri key : String}
    (h : s.canonicalBase uri = some key) : key ∈ s.names := by
  unfold canonicalBase at h
  dsimp only at h
  split at h
  next hkey =>
    obtain ⟨document, hdocument⟩ := Option.isSome_iff_exists.mp hkey
    cases h
    exact List.mem_append_left _ (mem_keys_of_lookup hdocument)
  next => exact List.mem_append_right _ (mem_values_of_lookup h)

theorem mem_locations {s : Store} {l : Location} {value : Json} (hname : l.document ∈ s.names)
    (h : s.lookup? l = some value) : l ∈ s.locations := by
  obtain ⟨document, hdocument, hvalue⟩ := Option.bind_eq_some_iff.mp h
  refine List.mem_flatMap.mpr ⟨l.document, hname, ?_⟩
  rw [locationsIn, hdocument]
  exact List.mem_map.mpr ⟨l.pointer.segments, Json.mem_positions hvalue, rfl⟩

theorem size_le_valueCount {s : Store} {name : String} {document : Json}
    (h : s.document? name = some document) : document.size ≤ s.valueCount := by
  obtain ⟨key, _, hkey⟩ := Option.bind_eq_some_iff.mp h
  exact Json.size_le_of_mem_members (mem_of_lookup hkey)

/-- **The locations of a store are no more than its names times its values.** -/
theorem length_locations_le (s : Store) :
    s.locations.length ≤ (s.documents.length + s.aliases.length) * s.valueCount := by
  have hnames : s.names.length = s.documents.length + s.aliases.length := by
    rw [names, List.length_append, List.length_map, List.length_map]
  rw [← hnames, locations]
  induction s.names with
  | nil => exact Nat.zero_le _
  | cons name rest ih =>
    rw [List.flatMap_cons, List.length_append, List.length_cons, Nat.add_mul, Nat.one_mul,
      Nat.add_comm]
    refine Nat.add_le_add ih ?_
    unfold locationsIn
    cases hdocument : s.document? name with
    | none => exact Nat.zero_le _
    | some document =>
      dsimp only
      rw [List.length_map, Json.length_positions]
      exact size_le_valueCount hdocument

end Store

end TaggedSchema
