import TaggedSchema.Proofs.DepthLimit

/-!
# Which way the guard fails

An evaluation that is nested too deeply is an error like any other, so a schema in which it lies
fails rather than holds. But a schema that fails is not always bad for the instance: `not` wants its
schema to fail, `if` goes another way where its schema fails, a branch of `oneOf` that fails leaves
the place to another one, and an item that fails `contains` is not one too many. These take the
verdict on a schema for something else than it is (`Rule.Judges`), and there the guard opens
(`Compiler.depth_guard_opens`).

Everywhere else it fails closed. Raising the limit keeps an instance valid as long as no evaluation
that is judged in this way passes because of it (`Compiler.depth_guard_fails_closed`).
-/

namespace TaggedSchema

/-! ## 1. Judged verdicts -/

/-- The checks for which a schema that holds can be worse than one that fails. -/
def Check.IsJudge : Check → Prop
  | .not _ => True
  | .conditional .. => True
  | .contains _ _ (some _) => True
  | _ => False

/-- The rules for which a schema that holds can be worse than one that fails. -/
def Rule.IsJudge : Rule → Prop
  | .oneOf _ => True
  | .assertion act => ∃ c : Check, act = c.run ∧ c.IsJudge
  | _ => False

/-- What a rule asks for to judge it. The branches of a dispatch are none of that: only the selected
    one is evaluated, and it has to hold. -/
inductive Rule.Judges (keyword : String) (value : Json) :
    Rule → List String → Request → Prop where
  | branch {branches : List NodeId} {i : Nat} {id : NodeId} (h : branches[i]? = some id) :
      Judges keyword value (.oneOf branches) [keyword, Nat.repr i] ⟨id, value, none⟩
  | tested {c : Check} {r : Request} (hc : c.IsJudge) (h : c.Tests value r) :
      Judges keyword value (.assertion c.run) [keyword] r

/-- An evaluation inside another whose verdict is judged. -/
inductive Program.Judges (p : Program) (a : Call) : Call → Prop where
  | request {node : CompiledNode} {k : CompiledKeyword} {segments : List String} {r : Request}
      (hdepth : a.frame.depth ≤ p.maxDepth) (hnode : p.nodes[a.node]? = some node)
      (hk : k ∈ node.keywords) (hr : k.rule.Judges k.name a.value segments r) :
      Judges p a ⟨r.schema, r.value, a.frame.moved segments r.segment⟩

/-- The evaluation finds nothing wrong. -/
def Program.Accepts (p : Program) (a : Call) : Prop := p.found a.node a.value a.frame = []

/-- Whether a rule is one of the core and no judge. -/
def Rule.isPlain : Rule → Bool
  | .oneOf _ => false
  | .assertion _ => false
  | _ => true

theorem Rule.not_isJudge_of_isPlain {rule : Rule} (h : rule.isPlain = true) : ¬ rule.IsJudge := by
  intro hjudge
  cases rule with
  | oneOf branches => cases h
  | assertion act => cases h
  | _ => exact hjudge

theorem Rule.Judges.isJudge {rule : Rule} {keyword : String} {value : Json}
    {segments : List String} {r : Request} (h : rule.Judges keyword value segments r) :
    rule.IsJudge := by
  cases h with
  | branch => trivial
  | tested hc => exact ⟨_, rfl, hc⟩

/-- Of all checks that test, only one that counts up to a lower limit is no judge. -/
theorem Check.Tests.isJudge {c : Check} {value : Json} {r : Request} (h : c.Tests value r)
    (hc : ∀ schema least, c ≠ .contains schema least none) : c.IsJudge := by
  cases h with
  | not => trivial
  | condition => trivial
  | @item schema least most =>
    cases most with
    | none => exact absurd rfl (hc schema least)
    | some most => trivial

/-! ## 2. Rules that keep what holds -/

/-- What holds by the first finder holds by the second. -/
def Keeps (es es' : List ValidationError) : Prop := es = [] → es' = []

section Keeping

variable {find find' : Finder} {keyword : String} {value : Json} {f : Frame}

/-- Where more schemas hold, and the tested ones are the same, a dialogue still finds nothing. -/
theorem Dialogue.keeps {d : Dialogue}
    (h : d.Poses
      (fun place r => Keeps (find r.schema r.value (f.requested keyword place r.segment))
        (find' r.schema r.value (f.requested keyword place r.segment)))
      (fun r => SameVerdict (find r.schema r.value (f.requested keyword (.own none) r.segment))
        (find' r.schema r.value (f.requested keyword (.own none) r.segment)))) :
    Keeps (d.errors find keyword f) (d.errors find' keyword f) := by
  induction d with
  | done => exact id
  | report message next ih =>
    intro hnone
    cases hnone
  | evaluate place request next ih =>
    intro hnone
    simp only [errors] at hnone ⊢
    obtain ⟨hfirst, hrest⟩ := List.append_eq_nil_iff.mp hnone
    have hfirst' := h.1 hfirst
    rw [hfirst] at hrest
    rw [hfirst', List.nil_append]
    exact ih _ (h.2 _) hrest
  | test request next ih =>
    have hanswer : _ = _ := h.1
    simp only [errors]
    rw [hanswer]
    exact ih _ (h.2 _)
  | whenFull next ih => exact ih false (h false)
  | locate next ih => exact h.elim
  | note label next ih => exact ih h

/-- Counting up to a lower limit: more items pass, and the limit is met no later. -/
theorem Check.keeps_countItems {schema : NodeId} {least : Nat} {rest : List (Json × Nat)}
    {count count' : Nat} (hle : count ≤ count')
    (h : ∀ place r,
      (countItems schema least (containsVerdict least none) count rest).Requests place r →
        Keeps (find r.schema r.value (f.requested keyword place r.segment))
          (find' r.schema r.value (f.requested keyword place r.segment))) :
    Keeps
      ((countItems schema least (containsVerdict least none) count rest).errors find keyword f)
      ((countItems schema least (containsVerdict least none) count' rest).errors find' keyword
        f) := by
  have hverdict {n : Nat} {finder : Finder} :
      (containsVerdict least none n).errors finder keyword f = [] ↔ least ≤ n := by
    unfold containsVerdict
    by_cases hless : n < least
    · rw [if_pos hless]
      exact ⟨fun hnone => (by cases hnone), fun hmore => absurd hmore (Nat.not_le.mpr hless)⟩
    · rw [if_neg hless]
      exact ⟨fun _ => Nat.le_of_not_lt hless, fun _ => rfl⟩
  intro hnone
  induction rest generalizing count count' with
  | nil => exact hverdict.mpr (Nat.le_trans (hverdict.mp hnone) hle)
  | cons item rest ih =>
    unfold countItems at hnone h ⊢
    by_cases henough : least ≤ count'
    · rw [if_pos henough]
      exact hverdict.mpr henough
    · have hfew : ¬ least ≤ count := fun hmore => henough (Nat.le_trans hmore hle)
      rw [if_neg hfew] at hnone h
      rw [if_neg henough]
      have hitem := h (.own none) _ (Or.inl ⟨rfl, rfl⟩)
      refine ih ?_ (fun place r hr => h place r (Or.inr ⟨_, hr⟩)) hnone
      -- the item counts by the second finder if it counts by the first
      by_cases hpasses : (find schema item.1 (f.requested keyword (.own none)
          (some (Nat.repr item.2)))).isEmpty = true
      · have hpasses' := hitem (List.isEmpty_iff.mp hpasses)
        rw [if_pos hpasses, if_pos (List.isEmpty_iff.mpr hpasses')]
        omega
      · rw [if_neg hpasses]
        split <;> omega

/-- **A check keeps what holds**, if the tests of a judge keep what fails. -/
theorem Check.keeps (c : Check)
    (h : ∀ place r, (c.run value).Requests place r →
      Keeps (find r.schema r.value (f.requested keyword place r.segment))
        (find' r.schema r.value (f.requested keyword place r.segment)))
    (hjudge : c.IsJudge → ∀ r, c.Tests value r →
      Keeps (find' r.schema r.value (f.requested keyword (.own none) r.segment))
        (find r.schema r.value (f.requested keyword (.own none) r.segment))) :
    Keeps ((c.run value).errors find keyword f) ((c.run value).errors find' keyword f) := by
  by_cases hcount : ∃ schema least, c = .contains schema least none
  · obtain ⟨schema, least, rfl⟩ := hcount
    cases value with
    | array list => exact keeps_countItems (Nat.le_refl 0) h
    | _ => exact id
  · refine Dialogue.keeps ((c.run_poses value).requests.mono (fun place r hr => h place r hr.2) ?_)
    rintro r ⟨htests, hrequests⟩
    have hc := htests.isJudge fun schema least heq => hcount ⟨schema, least, heq⟩
    exact sameVerdict_iff.mpr ⟨h _ r hrequests, hjudge hc r htests⟩

namespace Rule

theorem keeps_flatten {found found' : List (List ValidationError)}
    (h : List.Forall₂ Keeps found found') : Keeps found.flatten found'.flatten := by
  intro hnone
  induction h with
  | nil => rfl
  | cons hfirst _ ih =>
    obtain ⟨hes, hrest⟩ := List.append_eq_nil_iff.mp hnone
    rw [List.flatten_cons, hfirst hes, ih hrest]
    rfl

theorem keeps_anyOfErrors {found found' : List (List ValidationError)}
    (h : List.Forall₂ Keeps found found') :
    Keeps (anyOfErrors f keyword found) (anyOfErrors f keyword found') := by
  have hany : found.any List.isEmpty = true → found'.any List.isEmpty = true := by
    induction h with
    | nil => exact id
    | cons hfirst _ ih =>
      rw [List.any_cons, List.any_cons, Bool.or_eq_true, Bool.or_eq_true]
      rintro (hes | hrest)
      · exact Or.inl (List.isEmpty_iff.mpr (hfirst (List.isEmpty_iff.mp hes)))
      · exact Or.inr (ih hrest)
  intro hnone
  unfold anyOfErrors at hnone ⊢
  by_cases hholds : found.any List.isEmpty = true
  · rw [if_pos (hany hholds)]
  · rw [if_neg hholds] at hnone
    exact absurd (List.append_eq_nil_iff.mp hnone).2 (List.cons_ne_nil _ _)

theorem keeps_propertyErrors {members : List (String × Json)} {entries : List (String × NodeId)}
    (h : ∀ name schema part, (name, schema) ∈ entries → members.lookup name = some part →
      Keeps (find schema part (f.descended name [keyword, name]))
        (find' schema part (f.descended name [keyword, name]))) :
    Keeps (propertyErrors find f keyword members entries)
      (propertyErrors find' f keyword members entries) := by
  intro hnone
  refine List.flatMap_eq_nil_iff.mpr fun entry hentry => ?_
  have hfirst := List.flatMap_eq_nil_iff.mp hnone entry hentry
  cases hpart : members.lookup entry.1 with
  | none => rfl
  | some part =>
    simp only [hpart] at hfirst ⊢
    exact h entry.1 entry.2 part hentry hpart hfirst

theorem keeps_dispatchErrors (d : Discriminator) {branches : List NodeId} (typeChecked : Bool)
    (h : ∀ i id, branches[i]? = some id →
      Keeps (find id value (f.nested [keyword, Nat.repr i]))
        (find' id value (f.nested [keyword, Nat.repr i]))) :
    Keeps (dispatchErrors find f keyword d branches typeChecked value)
      (dispatchErrors find' f keyword d branches typeChecked value) := by
  unfold dispatchErrors
  cases value with
  | object members =>
    dsimp only
    cases members.lookup d.property with
    | none => exact id
    | some raw =>
      dsimp only
      cases Tag.ofJson? raw with
      | none => exact id
      | some tag =>
        dsimp only
        cases d.branchFor? tag with
        | none => exact id
        | some i =>
          dsimp only
          cases hbranch : branches[i]? with
          | none => exact id
          | some branch => exact h i branch hbranch
  | _ => exact id

/-- **A rule keeps what holds**, if what it judges keeps what fails. -/
theorem keeps {rule : Rule} (hrule : rule.IsBuiltin)
    (h : ∀ segments r, rule.Requests keyword value segments r →
      Keeps (find r.schema r.value (f.moved segments r.segment))
        (find' r.schema r.value (f.moved segments r.segment)))
    (hjudged : ∀ segments r, rule.Judges keyword value segments r →
      Keeps (find' r.schema r.value (f.moved segments r.segment))
        (find r.schema r.value (f.moved segments r.segment))) :
    Keeps (rule.errors find keyword value f) (rule.errors find' keyword value f) := by
  have hlist {R : List ValidationError → List ValidationError → Prop} {schemas : List NodeId}
      (hR : ∀ i id, schemas[i]? = some id → R (find id value (f.nested [keyword, Nat.repr i]))
        (find' id value (f.nested [keyword, Nat.repr i]))) :
      List.Forall₂ R (branchErrors find f keyword value 0 schemas)
        (branchErrors find' f keyword value 0 schemas) := by
    have hwithin : ListWithin (fun id v f' => R (find id v f') (find' id v f')) keyword value f
        schemas := hR
    exact branchErrors_rel (fun _ _ _ hrel => hrel) hwithin
  cases rule with
  | properties entries =>
    cases value with
    | object members =>
      exact keeps_propertyErrors fun name schema part hentry hpart =>
        h _ ⟨schema, part, some name⟩ (.property rfl hentry hpart)
    | _ => exact id
  | ref target => exact h _ ⟨target, value, none⟩ .ref
  | allOf schemas =>
    exact keeps_flatten (hlist fun i id hid => h _ ⟨id, value, none⟩ (.allOf hid))
  | anyOf schemas =>
    exact keeps_anyOfErrors (hlist fun i id hid => h _ ⟨id, value, none⟩ (.anyOf hid))
  | oneOf branches =>
    have hsame : List.Forall₂ SameVerdict (branchErrors find f keyword value 0 branches)
        (branchErrors find' f keyword value 0 branches) :=
      hlist fun i id hid => sameVerdict_iff.mpr
        ⟨h _ ⟨id, value, none⟩ (.oneOf hid), hjudged _ ⟨id, value, none⟩ (.branch hid)⟩
    exact (sameVerdict_iff.mp (oneOfErrors_rel agreement_sameVerdict f keyword hsame)).mp
  | dispatch d branches typeChecked =>
    exact keeps_dispatchErrors d typeChecked fun i id hid =>
      h _ ⟨id, value, none⟩ (.dispatch hid)
  | assertion act =>
    obtain ⟨c, rfl⟩ := hrule
    refine c.keeps (fun place r hr => ?_) fun hc r htests => ?_
    · have hrequest := h _ r (.assertion hr)
      rwa [← Frame.requested_eq_moved] at hrequest
    · have htested := hjudged _ r (.tested hc htests)
      rwa [Frame.requested_eq_moved]
  | _ => exact id

end Rule

end Keeping

/-! ## 3. Two limits -/

namespace Program

variable {p : Program}

/-- **What holds under a limit holds under a greater one**, if every judged evaluation that holds
    under the greater one does so already under the first. -/
theorem accepts_maxDepth (hp : p.IsBuiltin) {d : Nat} (hd : p.maxDepth ≤ d) {a : Call}
    (h : ∀ b c, Relation.ReflTransGen p.Nests a b → p.Judges b c →
      Program.Accepts { p with maxDepth := d } c → p.Accepts c)
    (ha : p.Accepts a) : Program.Accepts { p with maxDepth := d } a := by
  have hraised : Program.IsBuiltin { p with maxDepth := d } := hp
  induction a using (wellFounded_nests hp).induction with
  | _ a ih =>
    unfold Accepts at ha ⊢
    rw [found_eq hp] at ha
    rw [found_eq hraised]
    by_cases hdepth : p.maxDepth < a.frame.depth
    · rw [if_pos hdepth] at ha
      cases ha
    · have hkept : a.frame.depth ≤ p.maxDepth := Nat.le_of_not_lt hdepth
      rw [if_neg hdepth] at ha
      rw [if_neg (Nat.not_lt.mpr (Nat.le_trans hkept hd))]
      dsimp only
      cases hnode : p.nodes[a.node]? with
      | none => rfl
      | some node =>
        rw [hnode] at ha
        refine List.flatMap_eq_nil_iff.mpr fun k hk => ?_
        have hrule := List.flatMap_eq_nil_iff.mp ha k hk
        refine Rule.keeps (hp _ _ hnode k hk) (fun segments r hr hholds => ?_)
          (fun segments r hr hholds => ?_) hrule
        · have hnests := Nests.request hkept hnode hk hr
          exact ih _ hnests (fun b c hb => h b c (hb.head hnests)) hholds
        · exact h a _ .refl (.request hkept hnode hk hr) hholds

theorem isValid_iff_accepts (hp : p.IsBuiltin) (value : Json) :
    (Validator.mk p).isValid value = true ↔ p.Accepts (p.rootCall value) := by
  unfold Validator.isValid
  rw [report_of_found hp, Report.isEmpty_empty_pushAll, List.isEmpty_iff]
  rfl

end Program

/-- **Where the depth guard fails closed.** Compiling with a greater limit changes nothing but the
    limit. An instance on which no evaluation exceeds the smaller limit has the same report under both.
    An instance that is valid under the smaller limit is valid under the greater one, unless there is
    a judged evaluation inside that holds under the greater limit and does not under the smaller. So
    it is in any case where no rule is a judge: neither `not`, nor `if`, nor `contains` with an upper
    limit, nor a `oneOf` that is no dispatch. -/
theorem Compiler.depth_guard_fails_closed [Pattern.Library] {c : Compiler}
    (hc : c.registry.IsBuiltin) {g : Graph} {start : NodeId} {p : Program}
    (hp : c.compile g start = .ok p) {d : Nat}
    (hd : p.maxDepth ≤ d) :
    ∃ q, (Compiler.mk c.registry { c.options with maxDepth := d }).compile g start = .ok q ∧
      q = { p with maxDepth := d } ∧
      (∀ value, (∀ a, Relation.ReflTransGen p.Nests (p.rootCall value) a →
          a.frame.depth ≤ p.maxDepth) →
        ∀ failFast, q.report failFast value = p.report failFast value) ∧
      (∀ value, (∀ a b, Relation.ReflTransGen p.Nests (p.rootCall value) a → p.Judges a b →
          q.Accepts b → p.Accepts b) →
        (Validator.mk p).isValid value = true → (Validator.mk q).isValid value = true) ∧
      ((∀ (id : NodeId) (node : CompiledNode), p.nodes[id]? = some node →
          ∀ k ∈ node.keywords, ¬ k.rule.IsJudge) →
        ∀ value, (Validator.mk p).isValid value = true → (Validator.mk q).isValid value = true) := by
  have hbuiltin := isBuiltin_of_registry hc hp
  have hraised : Program.IsBuiltin { p with maxDepth := d } := hbuiltin
  have hcompile : (Compiler.mk c.registry { c.options with maxDepth := d }).compile g start
      = .ok { p with maxDepth := d } := by
    have hmapped := compile_maxDepth c.registry c.options d g start
    rw [show (Compiler.mk c.registry c.options).compile g start = .ok p from hp] at hmapped
    exact hmapped
  have hkeeps (value : Json)
      (h : ∀ a b, Relation.ReflTransGen p.Nests (p.rootCall value) a → p.Judges a b →
        Program.Accepts { p with maxDepth := d } b → p.Accepts b)
      (hvalid : (Validator.mk p).isValid value = true) :
      (Validator.mk { p with maxDepth := d }).isValid value = true := by
    rw [Program.isValid_iff_accepts hbuiltin] at hvalid
    rw [Program.isValid_iff_accepts hraised]
    exact Program.accepts_maxDepth hbuiltin hd h hvalid
  refine ⟨_, hcompile, rfl, fun value hkept failFast => ?_, hkeeps, fun hnone value => ?_⟩
  · rw [Program.report_eq_settled hraised, Program.report_eq_settled hbuiltin]
    refine (Program.settled_maxDepth hbuiltin (a := p.rootCall value) (fun b hb => ?_) _).symm
    exact ⟨hkept b hb, Nat.le_trans (hkept b hb) hd⟩
  · refine hkeeps value fun a b _ hjudges => ?_
    obtain ⟨_, hnode, hk, hr⟩ := hjudges
    exact absurd hr.isJudge (hnone _ _ hnode _ hk)

/-- A schema that asks for itself, or for a string. -/
def persistent : Json :=
  .object [("anyOf", .array
    [.object [("$ref", .string "#")], .object [("type", .string "string")]])]

/-- With a limit of two the schema is cut short on every instance, and what it holds for then it
    holds for with any limit. -/
theorem Compiler.depth_guard_fails_closed_persistent :
    ∃ g p, Graph.ofDocument persistent = .ok g ∧
      (builtin { Options.default with maxDepth := 2 }).compile g g.root = .ok p ∧
      (Validator.mk p).isValid (.string "a") = true ∧
      (∃ a ∈ p.calls true (.string "a"), p.maxDepth < a.frame.depth) ∧
      ∀ d, 2 ≤ d → ∀ value, (Validator.mk p).isValid value = true →
        (Validator.mk { p with maxDepth := d }).isValid value = true := by
  have hall : ((Graph.ofDocument persistent).toOption.any fun g =>
      ((builtin { Options.default with maxDepth := 2 }).compile g g.root).toOption.any fun p =>
        (Validator.mk p).isValid (.string "a") &&
          ((p.calls true (.string "a")).any fun a => decide (p.maxDepth < a.frame.depth)) &&
          p.nodes.toList.all fun node => node.keywords.all fun k => k.rule.isPlain) = true := by
    decide +kernel
  obtain ⟨g, hg, hall⟩ := any_toOption_eq_true.mp hall
  obtain ⟨p, hp, hall⟩ := any_toOption_eq_true.mp hall
  obtain ⟨hall, hplain⟩ := Bool.and_eq_true_iff.mp hall
  obtain ⟨hvalid, hcut⟩ := Bool.and_eq_true_iff.mp hall
  obtain ⟨a, ha, hdeep⟩ := List.any_eq_true.mp hcut
  refine ⟨g, p, hg, hp, hvalid, ⟨a, ha, of_decide_eq_true hdeep⟩, fun d hd => ?_⟩
  have hlimit : p.maxDepth = 2 := by
    obtain ⟨_, _, _, rfl⟩ := compile_eq_ok_iff.mp hp
    rfl
  obtain ⟨q, _, rfl, _, _, hstatic⟩ :=
    depth_guard_fails_closed Registry.isBuiltin_default hp (hlimit.symm ▸ hd)
  refine hstatic fun id node hnode k hk => ?_
  have hmem : node ∈ p.nodes.toList := Array.mem_toList_iff.mpr (Array.mem_of_getElem? hnode)
  exact Rule.not_isJudge_of_isPlain
    (List.all_eq_true.mp (List.all_eq_true.mp hplain node hmem) k hk)

/-- A schema that must not hold if one other level below it does. -/
def denial : Json := .object [("not", .object [("allOf", .array [.bool true])])]

/-- A schema that must not hold if it holds. -/
def paradox : Json := .object [("not", .object [("$ref", .string "#")])]

/-- **The guard opens under a `not`**: with the smaller limit the schema below it fails, for nothing
    but the limit, and so the instance is valid; with the greater one it is not. The first schema
    needs no recursion, the second is cut short at the default limit. -/
theorem Compiler.depth_guard_opens :
    (∃ v v', compileWith { Options.default with maxDepth := 1 } denial = .ok v ∧
      compileWith { Options.default with maxDepth := 2 } denial = .ok v' ∧
      (v.validate (.bool true)).valid = true ∧ (v'.validate (.bool true)).valid = false) ∧
    ∃ v v', TaggedSchema.compile paradox = .ok v ∧
      compileWith { Options.default with maxDepth := 258 } paradox = .ok v' ∧
      (v.validate (.bool true)).valid = true ∧ (v'.validate (.bool true)).valid = false := by
  have hfirst : ((compileWith { Options.default with maxDepth := 1 } denial).toOption.any fun v =>
      (compileWith { Options.default with maxDepth := 2 } denial).toOption.any fun v' =>
        (v.validate (.bool true)).valid && !(v'.validate (.bool true)).valid) = true := by
    decide +kernel
  have hsecond : ((TaggedSchema.compile paradox).toOption.any fun v =>
      (compileWith { Options.default with maxDepth := 258 } paradox).toOption.any fun v' =>
        (v.validate (.bool true)).valid && !(v'.validate (.bool true)).valid) = true := by
    decide +kernel
  obtain ⟨v, hv, hfirst⟩ := any_toOption_eq_true.mp hfirst
  obtain ⟨v', hv', hfirst⟩ := any_toOption_eq_true.mp hfirst
  obtain ⟨w, hw, hsecond⟩ := any_toOption_eq_true.mp hsecond
  obtain ⟨w', hw', hsecond⟩ := any_toOption_eq_true.mp hsecond
  obtain ⟨hholds, hfails⟩ := Bool.and_eq_true_iff.mp hfirst
  obtain ⟨hholds', hfails'⟩ := Bool.and_eq_true_iff.mp hsecond
  exact ⟨⟨v, v', hv, hv', hholds, Bool.not_eq_true' _ |>.mp hfails⟩,
    w, w', hw, hw', hholds', Bool.not_eq_true' _ |>.mp hfails'⟩

end TaggedSchema
