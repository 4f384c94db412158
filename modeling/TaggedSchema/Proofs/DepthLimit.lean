import TaggedSchema.Proofs.Staying
import TaggedSchema.Proofs.Termination
import Mathlib.Order.Lattice.Nat

/-!
# The limit of depth and deep instances

The limit counts nested evaluations at one place of the instance, and starts again below it, so it
must not be met by an instance that is merely deep. Whether it is met depends on the schema: the
evaluations at one place follow a path of edges that stay (`Graph.stays`), and as long as no such
path comes back to where it was, there is a longest one. A limit that is no less than its length is
never exceeded, no error of it is found anywhere, and any two such limits are as good as each other
(`Compiler.depth_limit_spares_descent`).
-/

namespace TaggedSchema

/-! ## 1. Paths that stay -/

namespace Graph

variable {g : Graph} {nodes path : List NodeId} {id : NodeId}

/-- The lengths of the paths that stay, among some nodes: their numbers of edges. -/
def stayLengths (g : Graph) (nodes : List NodeId) : Set Nat :=
  {k | ∃ path : List NodeId, path.length = k + 1 ∧ List.IsChain (Along g.stays) path ∧
    ∀ id ∈ path, id ∈ nodes}

theorem lt_length_of_stay (hacyclic : ∀ id ∈ nodes, ¬ Relation.TransGen (Along g.stays) id id)
    {k : Nat} (hk : k ∈ g.stayLengths nodes) : k < nodes.length := by
  obtain ⟨path, hlength, hpath, hmem⟩ := hk
  have hnodup := nodup_of_acyclic (fun a ha => hacyclic a (hmem a ha)) hpath
  have hle := (hnodup.subperm hmem).length_le
  omega

/-- **Among nodes that do not come back to themselves there is a longest path.** -/
theorem exists_longest_stay (hid : id ∈ nodes)
    (hacyclic : ∀ id ∈ nodes, ¬ Relation.TransGen (Along g.stays) id id) :
    ∃ longest, IsGreatest (g.stayLengths nodes) longest := by
  have hnonempty : (g.stayLengths nodes).Nonempty :=
    ⟨0, [id], rfl, .singleton id, fun a ha => List.mem_singleton.mp ha ▸ hid⟩
  have hbounded : BddAbove (g.stayLengths nodes) :=
    ⟨nodes.length, fun _ hk => Nat.le_of_lt (lt_length_of_stay hacyclic hk)⟩
  exact ⟨_, Nat.sSup_mem hnonempty hbounded, fun _ hk => le_csSup hbounded hk⟩

/-- Whether every edge that stays leads to a node from which fewer nodes are reached in this way. -/
def isStayAcyclic (g : Graph) : Bool :=
  g.ids.all fun a => (g.stays a).all fun b =>
    (g.reach g.stays [b]).length < (g.reach g.stays [a]).length

/-- Then no node comes back to itself. -/
theorem acyclic_of_isStayAcyclic (h : g.isStayAcyclic = true) (id : NodeId) :
    ¬ Relation.TransGen (Along g.stays) id id := by
  have hedge {a b : NodeId} (hstay : Along g.stays a b) :
      (g.reach g.stays [b]).length < (g.reach g.stays [a]).length := by
    have ha : a ∈ g.ids := by
      by_contra hout
      have hnone : g.node? a = none :=
        Array.getElem?_eq_none (Nat.le_of_not_lt (mt List.mem_range.mpr hout))
      unfold Along stays at hstay
      rw [hnone] at hstay
      cases hstay
    exact of_decide_eq_true (List.all_eq_true.mp (List.all_eq_true.mp h a ha) b hstay)
  have hless {a b : NodeId} (hpath : Relation.TransGen (Along g.stays) a b) :
      (g.reach g.stays [b]).length < (g.reach g.stays [a]).length := by
    induction hpath with
    | single hstay => exact hedge hstay
    | tail _ hstay ih => exact Nat.lt_trans (hedge hstay) ih
  exact fun hcycle => Nat.lt_irrefl _ (hless hcycle)

end Graph

open TaggedSchema.Graph

/-! ## 2. Depths are lengths of paths -/

namespace Compiler

variable {c : Compiler} {store : Store} {g : Graph} {start : NodeId} {p : Program}

variable [Uri.Library] [Pattern.Library]

/-- **The depth of an evaluation is the length of a path that stays and ends at its node.** The path
    is written from its end. -/
theorem exists_stay_of_chain (hregistry : c.registry = .default) (hg : g.Resolved store)
    (hstart : start < g.size) (hp : c.compile g start = .ok p) {value : Json} {a : Call}
    (h : Relation.ReflTransGen p.Nests (p.rootCall value) a) :
    ∃ before, before.length = a.frame.depth ∧
      List.IsChain (fun b a => Along g.stays a b) (a.node :: before) ∧
      ∀ id ∈ a.node :: before, id ∈ reached g start := by
  have hsingle {b : Call} (hzero : b.frame.depth = 0) (hb : b.node ∈ reached g start) :
      ∃ before, before.length = b.frame.depth ∧
        List.IsChain (fun b a => Along g.stays a b) (b.node :: before) ∧
        ∀ id ∈ b.node :: before, id ∈ reached g start :=
    ⟨[], hzero.symm, .singleton _, fun id hid => List.mem_singleton.mp hid ▸ hb⟩
  induction h with
  | refl =>
    have hroot : Relation.ReflTransGen p.Nests (p.rootCall value) (p.rootCall value) := .refl
    exact hsingle rfl (mem_reached_of_chain hregistry hg hstart hp hroot)
  | @tail a b hchain hnests ih =>
    have hreached := mem_reached_of_chain hregistry hg hstart hp (hchain.tail hnests)
    rcases stays_of_nests hregistry hp hnests with ⟨hstay, hdepth⟩ | hzero
    · obtain ⟨before, hlength, hpath, hmem⟩ := ih
      refine ⟨a.node :: before, ?_, List.isChain_cons_cons.mpr ⟨hstay, hpath⟩,
        List.forall_mem_cons.mpr ⟨hreached, hmem⟩⟩
      rw [List.length_cons, hlength, hdepth]
    · exact hsingle hzero hreached

/-- So no depth is greater than the longest path. -/
theorem depth_le_longest (hregistry : c.registry = .default) (hg : g.Resolved store)
    (hstart : start < g.size) (hp : c.compile g start = .ok p) {longest : Nat}
    (hlongest : longest ∈ upperBounds (g.stayLengths (reached g start))) {value : Json} {a : Call}
    (h : Relation.ReflTransGen p.Nests (p.rootCall value) a) : a.frame.depth ≤ longest := by
  obtain ⟨before, hlength, hpath, hmem⟩ := exists_stay_of_chain hregistry hg hstart hp h
  refine hlongest ⟨(a.node :: before).reverse, ?_, List.isChain_reverse.mpr hpath, fun id hid => ?_⟩
  · rw [List.length_reverse, List.length_cons, hlength]
  · exact hmem id (List.mem_reverse.mp hid)

end Compiler

/-! ## 3. Limits that are kept -/

namespace Program

variable {p : Program}

theorem step_of_depth_le {m : Type → Type} [Monad m] {observe : String → m Unit}
    {eval : Evaluator m} {f : Frame} (h : f.depth ≤ p.maxDepth) (id : NodeId) (value : Json)
    (out : Report) :
    p.step observe eval id value f out =
      match p.nodes[id]? with
      | some node => runKeywords observe eval value f node.keywords out
      | none => pure out :=
  if_neg (Nat.not_lt.mpr h)

/-- **Two limits that are both kept make no difference.** -/
theorem settled_maxDepth (hp : p.IsBuiltin) {d : Nat} {a : Call}
    (h : ∀ b, Relation.ReflTransGen p.Nests a b →
      b.frame.depth ≤ p.maxDepth ∧ b.frame.depth ≤ d) (out : Report) :
    p.settled a.node a.value a.frame out
      = Program.settled { p with maxDepth := d } a.node a.value a.frame out := by
  have hlimited : Program.IsBuiltin { p with maxDepth := d } := hp
  induction a using (wellFounded_nests hp).induction generalizing out with
  | _ a ih =>
    obtain ⟨hkept, hkept'⟩ := h a .refl
    rw [settled_eq_step hp, settled_eq_step hlimited, step_of_depth_le hkept,
      step_of_depth_le (p := { p with maxDepth := d }) hkept']
    cases hnode : p.nodes[a.node]? with
    | none => rfl
    | some node =>
      refine runKeywords_corresponds correspondence_eq (fun _ => rfl)
        (fun k hk segments r hr out => ?_) out
      have hnests := Nests.request hkept hnode hk hr
      exact ih _ hnests (fun b hb => h b (hb.head hnests)) out

end Program

/-! ## 4. Errors of the limit -/

/-- An error that a rule reports itself stands under its keyword, or under `discriminator`. -/
theorem Rule.Reports.keyword_eq {rule : Rule} {keyword : String} {value : Json} {f : Frame}
    {e : ValidationError} (h : rule.Reports keyword value f e) :
    e.keyword = keyword ∨ e.keyword = "discriminator" := by
  cases h with
  | never => exact Or.inl rfl
  | own => exact Or.inl rfl
  | refused h => exact Or.inr h.at_discriminator.1

/-- A rule under `$ref` is the reference. -/
theorem Compiler.ref_of_name {c : Compiler} {g : Graph} {id : NodeId} {n : Node}
    {node : CompiledNode} (h : c.compileNode g id n = .ok node) {k : CompiledKeyword}
    (hk : k ∈ node.keywords) (hname : k.name = "$ref") : ∃ target, k.rule = .ref target := by
  have hother : k.name ≠ "false" := by
    rw [hname]
    decide
  obtain ⟨_, _, _, hrule⟩ := keywordRule_of_ne_false h hk hother
  rw [hname] at hrule
  have hcore := coreRule_of_keywordRule .ref hrule
  generalize k.rule = rule at hcore
  cases hcore with
  | ref h => exact ⟨_, rfl⟩

/-- **Where the limit is kept, nothing is found under `$ref`**: the reference itself finds nothing
    but what its target does. -/
theorem Compiler.keyword_ne_of_mem_found [Pattern.Library] {c : Compiler}
    (hc : c.registry.IsBuiltin) {g : Graph} {start : NodeId} {p : Program}
    (hp : c.compile g start = .ok p) {a : Call}
    (h : ∀ b, Relation.ReflTransGen p.Nests a b → b.frame.depth ≤ p.maxDepth) {e : ValidationError}
    (he : e ∈ p.found a.node a.value a.frame) : e.keyword ≠ "$ref" := by
  have hbuiltin := isBuiltin_of_registry hc hp
  induction a using (Program.wellFounded_nests hbuiltin).induction with
  | _ a ih =>
    have hkept := h a .refl
    rw [Program.found_eq hbuiltin, if_neg (Nat.not_lt.mpr hkept)] at he
    cases hnode : p.nodes[a.node]? with
    | none =>
      rw [hnode] at he
      cases he
    | some node =>
      rw [hnode] at he
      obtain ⟨k, hk, he⟩ := List.mem_flatMap.mp he
      obtain ⟨_, n, _, hcompiled⟩ := compileNode_of_keyword hp hnode hk
      have hinside {segments : List String} {r : Request}
          (hr : k.rule.Requests k.name a.value segments r)
          (he : e ∈ p.found r.schema r.value (a.frame.moved segments r.segment)) :
          e.keyword ≠ "$ref" := by
        have hnests := Program.Nests.request hkept hnode hk hr
        exact ih _ hnests (fun b hb => h b (hb.head hnests)) he
      by_cases hname : k.name = "$ref"
      · obtain ⟨target, hrule⟩ := ref_of_name hcompiled hk hname
        rw [hrule] at he hinside
        exact hinside .ref he
      · rcases Rule.mem_errors he with hreports | ⟨segments, r, hr, he⟩
        · rcases hreports.keyword_eq with hkeyword | hkeyword
          · rwa [hkeyword]
          · rw [hkeyword]
            decide
        · exact hinside hr.requests he

/-! ## 5. The limit spares descent -/

/-- **The limit of depth never rejects deep data.** Where no reached node comes back to itself along
    edges that stay, there is a longest path of such edges, and its length is a sufficient limit: with
    this limit or any greater one the schema compiles to the same program but for the limit, no
    evaluation of any instance is deeper than that path is long, none reports an error of the limit,
    be it on the report or apart from it, and the outcome is the same with all these limits. -/
theorem Compiler.depth_limit_spares_descent [Uri.Library] [Pattern.Library] (o : Options)
    {store : Store} {root : String} {g : Graph} (hg : Graph.resolve store root = .ok g)
    {start : NodeId} (hstart : start < g.size)
    {p : Program} (hp : (builtin o).compile g start = .ok p)
    (hacyclic : ∀ id ∈ reached g start, ¬ Relation.TransGen (Along g.stays) id id) :
    ∃ longest, IsGreatest (g.stayLengths (reached g start)) longest ∧
      ∀ d, longest ≤ d → ∃ q,
        (builtin { o with maxDepth := d }).compile g start = .ok q ∧ q = { p with maxDepth := d } ∧
        (∀ failFast value, ∀ a ∈ q.calls failFast value, a.frame.depth ≤ longest ∧
          ∀ fail, ∀ e ∈ (q.settled a.node a.value a.frame (.empty fail)).errors,
            ∀ f, e ≠ q.depthError f) ∧
        ∀ d', longest ≤ d' → ∀ failFast value,
          q.report failFast value = Program.report { p with maxDepth := d' } failFast value := by
  obtain ⟨hresolved, _⟩ := Graph.resolved_of_resolve hg
  have hself := (mem_reach_of_edge (edges_lt_size hresolved) hstart).1
  obtain ⟨longest, hlongest⟩ := exists_longest_stay hself hacyclic
  have hcompile (d : Nat) : (builtin { o with maxDepth := d }).compile g start
      = .ok { p with maxDepth := d } := by
    have hmapped := compile_maxDepth .default o d g start
    rw [show (Compiler.mk .default o).compile g start = .ok p from hp] at hmapped
    exact hmapped
  have hdepth (d : Nat) {value : Json} {a : Call}
      (ha : Relation.ReflTransGen (Program.Nests { p with maxDepth := d })
        (p.rootCall value) a) : a.frame.depth ≤ longest :=
    depth_le_longest rfl hresolved hstart (hcompile d) hlongest.2 ha
  refine ⟨longest, hlongest, fun d hd => ⟨_, hcompile d, rfl, fun failFast value a ha => ?_,
    fun d' hd' failFast value => ?_⟩⟩
  · have hchain := Program.reached_of_mem_calls ha
    refine ⟨hdepth d hchain, fun fail e he f heq => ?_⟩
    have hbuiltin := isBuiltin_of_compile (hcompile d)
    rw [Program.pushes_settled hbuiltin] at he
    have hfound := Report.mem_of_mem_pushAll_empty he
    have hkept (b : Call) (hb : Relation.ReflTransGen
        (Program.Nests { p with maxDepth := d }) a b) : b.frame.depth ≤ d :=
      Nat.le_trans (hdepth d (hchain.trans hb)) hd
    have hkeyword := keyword_ne_of_mem_found Registry.isBuiltin_default (hcompile d) hkept hfound
    rw [heq] at hkeyword
    exact hkeyword rfl
  · have hbuiltin := isBuiltin_of_compile (hcompile d)
    have hbuiltin' := isBuiltin_of_compile (hcompile d')
    rw [Program.report_eq_settled hbuiltin, Program.report_eq_settled hbuiltin']
    refine Program.settled_maxDepth hbuiltin (a := p.rootCall value) (fun b hb => ?_) _
    have hless := hdepth d hb
    exact ⟨Nat.le_trans hless hd, Nat.le_trans hless hd'⟩

/-- A list of objects that each hold the next one. -/
def linked : Json :=
  .object
    [("$defs", .object
      [("Base", .object
        [("properties", .object [("next", .object [("$ref", .string "#/$defs/Node")])]),
          ("type", .string "object")]),
        ("Node", .object [("allOf", .array [.object [("$ref", .string "#/$defs/Base")]])])]),
      ("$ref", .string "#/$defs/Node")]

/-- A list of so many objects behind the first. -/
def links : Nat → Json
  | 0 => .object []
  | n + 1 => .object [("next", links n)]

/-- However long the list is, a limit below five does for it what the default limit does. -/
theorem Compiler.depth_limit_spares_descent_linked :
    ∃ g p longest, Graph.ofDocument linked = .ok g ∧
      (builtin .default).compile g g.root = .ok p ∧
      IsGreatest (g.stayLengths (reached g g.root)) longest ∧ longest < 5 ∧
      ∀ n, (∀ a ∈ p.calls false (links n), a.frame.depth ≤ longest) ∧
        p.report false (links n) = Program.report { p with maxDepth := longest } false (links n) := by
  have hall : ((Graph.ofDocument linked).toOption.any fun g =>
      ((builtin .default).compile g g.root).toOption.any fun _ =>
        g.isStayAcyclic && decide (g.root < g.size) && decide ((reached g g.root).length = 5))
      = true := by decide +kernel
  obtain ⟨g, hg, hall⟩ := any_toOption_eq_true.mp hall
  obtain ⟨p, hp, hall⟩ := any_toOption_eq_true.mp hall
  obtain ⟨hall, hreached⟩ := Bool.and_eq_true_iff.mp hall
  obtain ⟨hacyclic, hroot⟩ := Bool.and_eq_true_iff.mp hall
  have hacyclic := acyclic_of_isStayAcyclic hacyclic
  obtain ⟨longest, hlongest, hlimits⟩ :=
    depth_limit_spares_descent .default hg (of_decide_eq_true hroot) hp fun id _ => hacyclic id
  have hfew := lt_length_of_stay (fun id _ => hacyclic id) hlongest.1
  rw [of_decide_eq_true hreached] at hfew
  obtain ⟨q, hq, _, hcalls, hsame⟩ := hlimits 256 (by omega)
  have hpq : q = p := Except.ok.inj (hq.symm.trans hp)
  rw [hpq] at hcalls hsame
  exact ⟨g, p, longest, hg, hp, hlongest, hfew,
    fun n => ⟨fun a ha => (hcalls false (links n) a ha).1,
      hsame longest (Nat.le_refl _) false (links n)⟩⟩

end TaggedSchema
