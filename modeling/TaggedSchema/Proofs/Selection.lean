import TaggedSchema.Proofs.Passing
import TaggedSchema.Proofs.Requests

/-!
# Which branch can hold

`oneOf` tries its branches, a dispatch takes the one that the tag selects. This file says when each
of them finds nothing (`Rule.oneOfErrors_eq_nil_iff`, `Rule.dispatchErrors_eq_nil_iff`), and why it
comes to the same: a branch with declared tags that an object passes has been selected by the tag of
that object (`Discriminator.selected_of_passes`). Equality of keywords is no equality of tags above
`2 ^ 53`, so both sides of the comparison are numbers that are floats.
-/

namespace TaggedSchema

/-! ## 1. Exactly one -/

/-- Exactly one element has the property when it stands at one position and at no other. -/
theorem length_filter_eq_one_iff {α : Type} {has : α → Bool} {l : List α} :
    (l.filter has).length = 1 ↔
      ∃ (i : Nat) (a : α), l[i]? = some a ∧ has a = true ∧
        ∀ (j : Nat) (b : α), l[j]? = some b → has b = true → j = i := by
  induction l with
  | nil => simp
  | cons first rest ih =>
    by_cases hfirst : has first = true
    · rw [List.filter_cons_of_pos hfirst, List.length_cons]
      constructor
      · intro h
        have hrest := List.filter_eq_nil_iff.mp (List.length_eq_zero_iff.mp (Nat.succ.inj h))
        refine ⟨0, first, rfl, hfirst, fun j b hb hhas => ?_⟩
        cases j with
        | zero => rfl
        | succ j => exact absurd hhas (hrest b (List.mem_of_getElem? hb))
      · rintro ⟨i, a, _, _, hunique⟩
        have hi : 0 = i := hunique 0 first rfl hfirst
        subst hi
        have hrest : rest.filter has = [] := by
          refine List.filter_eq_nil_iff.mpr fun b hb hhas => ?_
          obtain ⟨j, hj⟩ := List.mem_iff_getElem?.mp hb
          exact Nat.succ_ne_zero j (hunique (j + 1) b hj hhas)
        rw [hrest, List.length_nil]
    · rw [List.filter_cons_of_neg hfirst, ih]
      constructor
      · rintro ⟨i, a, ha, hhas, hunique⟩
        refine ⟨i + 1, a, ha, hhas, fun j b hb hhas' => ?_⟩
        cases j with
        | zero =>
          cases hb
          exact absurd hhas' hfirst
        | succ j => rw [hunique j b hb hhas']
      · rintro ⟨i, a, ha, hhas, hunique⟩
        cases i with
        | zero =>
          cases ha
          exact absurd hhas hfirst
        | succ i =>
          refine ⟨i, a, ha, hhas, fun j b hb hhas' => ?_⟩
          exact Nat.succ.inj (hunique (j + 1) b hb hhas')

namespace Rule

variable {find : Finder} {f : Frame} {keyword : String} {branches : List NodeId}

/-- **`oneOf` finds nothing** when exactly one branch finds nothing. -/
theorem oneOfErrors_eq_nil_iff {value : Json} :
    oneOfErrors f keyword (branchErrors find f keyword value 0 branches) = [] ↔
      ∃ i branch, branches[i]? = some branch ∧
        find branch value (f.nested [keyword, Nat.repr i]) = [] ∧
        ∀ j other, branches[j]? = some other →
          find other value (f.nested [keyword, Nat.repr j]) = [] → j = i := by
  have hget (i : Nat) : (branchErrors find f keyword value 0 branches)[i]?
      = branches[i]?.map fun branch => find branch value (f.nested [keyword, Nat.repr i]) := by
    unfold branchErrors
    rw [List.getElem?_map, List.getElem?_zipIdx, Option.map_map, Nat.zero_add]
    rfl
  have hone : oneOfErrors f keyword (branchErrors find f keyword value 0 branches) = [] ↔
      ((branchErrors find f keyword value 0 branches).filter List.isEmpty).length = 1 := by
    unfold oneOfErrors
    dsimp only
    split
    next h => exact ⟨fun _ => h, fun _ => rfl⟩
    next h => exact ⟨fun he => absurd (List.append_eq_nil_iff.mp he).2 (List.cons_ne_nil _ _),
      fun he => absurd he h⟩
  rw [hone, length_filter_eq_one_iff]
  simp only [hget, Option.map_eq_some_iff, List.isEmpty_iff]
  constructor
  · rintro ⟨i, _, ⟨branch, hbranch, rfl⟩, hnone, hunique⟩
    exact ⟨i, branch, hbranch, hnone,
      fun j other hother hnone' => hunique j _ ⟨other, hother, rfl⟩ hnone'⟩
  · rintro ⟨i, branch, hbranch, hnone, hunique⟩
    refine ⟨i, _, ⟨branch, hbranch, rfl⟩, hnone, ?_⟩
    rintro j _ ⟨other, hother, rfl⟩ hnone'
    exact hunique j other hother hnone'

/-- **A dispatch finds nothing** in an object when its tag selects a branch that finds nothing. -/
theorem dispatchErrors_eq_nil_iff {d : Discriminator} {typeChecked : Bool}
    {members : List (String × Json)} :
    dispatchErrors find f keyword d branches typeChecked (.object members) = [] ↔
      ∃ raw tag i, members.lookup d.property = some raw ∧ Tag.ofJson? raw = some tag ∧
        d.branchFor? tag = some i ∧ ∀ branch, branches[i]? = some branch →
          find branch (.object members) (f.nested [keyword, Nat.repr i]) = [] := by
  unfold dispatchErrors
  dsimp only
  cases hraw : members.lookup d.property with
  | none => simp
  | some raw =>
    cases htag : Tag.ofJson? raw with
    | none => simp [htag]
    | some tag =>
      cases hindex : d.branchFor? tag with
      | none => simp [htag, hindex]
      | some i => cases hbranch : branches[i]? <;> simp [htag, hindex, hbranch]

end Rule

/-! ## 2. Numbers that are floats -/

/-- All numbers in the value are floats or integers that are floats. -/
def Json.IsExact (value : Json) : Prop :=
  ∀ a, Relation.ReflTransGen Json.Part (.number a) value → a.Exact

theorem Json.IsExact.part {value part : Json} (h : value.IsExact) (hpart : part.Part value) :
    part.IsExact :=
  fun a ha => h a (ha.tail hpart)

theorem Json.IsExact.number {value : Json} (h : value.IsExact) (a : Number)
    (ha : value = .number a) : a.Exact :=
  h a (ha ▸ .refl)

namespace Discriminator

/-- A value that the branches of an owner declare for a property. -/
def Declared (g : Graph) (owner : NodeId) (property : String) (value : Json) : Prop :=
  ∃ branches branch concrete tagNode values, branchesOf g owner = some branches ∧
    branch ∈ branches ∧ ConcreteBranch g owner branch concrete ∧
    TagSchema g concrete property tagNode ∧ Allows tagNode values ∧ value ∈ values

/-! ## 3. Branches that hold -/

variable {c : Compiler} {store : Store} {g : Graph} {root owner : NodeId} {p : Program}
  {property : String} {members : List (String × Json)}

variable [Uri.Library]

/-- The branches of a reached owner are reached. -/
theorem mem_reached_of_branch (hg : g.Resolved store) (hroot : root < g.size)
    (howner : owner ∈ Compiler.reached g root) {branches : List NodeId}
    (h : branchesOf g owner = some branches) {branch : NodeId} (hbranch : branch ∈ branches) :
    branch ∈ Compiler.reached g root := by
  obtain ⟨n, hn, hlist⟩ := Option.bind_eq_some_iff.mp h
  exact Compiler.mem_reached_of_child hg hroot howner hn (Node.children?_of_childList? hlist) rfl
    hbranch

/-- An object that passes a tagged branch, and the owner, has the property. -/
theorem isSome_of_tagged (hg : g.Resolved store) (hroot : root < g.size)
    (hp : c.compile g root = .ok p) (howner : owner ∈ Compiler.reached g root)
    (hownerPass : p.Passes owner (.object members)) {branch : NodeId}
    (hbranch : branch ∈ Compiler.reached g root) (hpass : p.Passes branch (.object members))
    {tags : List Tag} (htagged : TaggedBranch g owner property branch tags) :
    (members.lookup property).isSome = true := by
  obtain ⟨concrete, ⟨id, hend, _, hn⟩, _, hrequired⟩ := htagged
  rcases hrequired with hrequired | hrequired
  · unfold ownerRequires at hrequired
    cases hownerNode : g.node? owner with
    | none =>
      rw [hownerNode] at hrequired
      cases hrequired
    | some n =>
      rw [hownerNode] at hrequired
      exact Compiler.isSome_of_requires hp howner hownerNode hownerPass hrequired
  · obtain ⟨hreached, hconcrete⟩ := Compiler.passes_chain hg hroot hp hbranch hend.1 hpass
    exact Compiler.isSome_of_requires hp hreached hn hconcrete hrequired

/-- **A branch that an object passes is the one that its tag selects.** What the branch allows for
    the property equals the tag, and was entered for this branch. -/
theorem selected_of_passes (hg : g.Resolved store) (hroot : root < g.size)
    (hp : c.compile g root = .ok p) {branches : List NodeId} {tags : List (List Tag)}
    (hall : DeclaresAll g owner property branches tags)
    (hexact : ∀ a, Declared g owner property (.number a) → a.Exact) {i : Nat} {branch : NodeId}
    (hi : branches[i]? = some branch) (hbranch : branch ∈ Compiler.reached g root) {raw : Json}
    (hraw : members.lookup property = some raw) (hnumber : raw.IsExact)
    (hpass : p.Passes branch (.object members)) :
    ∃ tag, Tag.ofJson? raw = some tag ∧ DispatchTable.get? ⟨rowsOf 0 tags⟩ tag = some i := by
  obtain ⟨hbranches, htagged, hnodup⟩ := hall
  obtain ⟨hlt, rfl⟩ := List.getElem?_eq_some_iff.mp hi
  have hlt' : i < tags.length := htagged.length_eq ▸ hlt
  obtain ⟨concrete, hconcrete, ⟨tagNode, values, htag, hvalues, hmade⟩, _⟩ :=
    (List.forall₂_iff_get.mp htagged).2 i hlt hlt'
  have ⟨id, hend, _, hn⟩ := hconcrete
  have ⟨child, target, hchild, htend, htn⟩ := htag
  -- Down to the schema of the property, which the tag passes.
  obtain ⟨hreached, hpass⟩ := Compiler.passes_chain hg hroot hp hbranch hend.1 hpass
  obtain ⟨hreached, hpass⟩ := Compiler.passes_property hg hroot hp hreached hn hpass hchild hraw
  obtain ⟨hreached, hpass⟩ := Compiler.passes_chain hg hroot hp hreached htend.1 hpass
  obtain ⟨value, hvalue, hsame⟩ := Compiler.sameValue_of_allows hp hreached htn hpass hvalues
  -- What it equals is declared, so it makes a tag of this branch, and the tag makes the same.
  have hmem := List.mem_map_of_mem (f := Tag.ofJson?) hvalue
  rw [hmade] at hmem
  obtain ⟨tag, hdeclared, hscalar⟩ := List.mem_map.mp hmem
  have hdeclaredExact : ∀ a, value = .number a → a.Exact := fun a ha =>
    hexact a ⟨branches, branches[i], concrete, tagNode, values, hbranches,
      List.getElem_mem hlt, hconcrete, htag, hvalues, ha ▸ hvalue⟩
  have hscalars := Json.sameScalar_of_sameValue hnumber.number hdeclaredExact
    ⟨tag, hscalar.symm⟩ hsame
  refine ⟨tag, (Tag.eq_iff_sameScalar hscalar.symm).mpr hscalars, ?_⟩
  exact (get?_rowsOf hnodup).mpr ⟨_, List.getElem?_eq_getElem hlt', hdeclared⟩

end Discriminator

end TaggedSchema
