import TaggedSchema.Options
import TaggedSchema.Yaml.Reader
import TaggedSchema.Proofs.Entries
import TaggedSchema.Proofs.Fallible

/-!
# Where options come from

Options are read from variables, from a text or from a JSON value, and set field by field
afterwards. Whatever they are read from, a field that is given is what is given for it, a field that
is not has its default, and options are refused exactly where something is given that cannot be read
(`Options.Source.load_eq_ok_iff`).

The one place where the sources disagree is a depth of zero. With it no reference can be followed.
As a variable it is refused, and setting it makes it one. But a text and a JSON value are taken as
they are, so a zero that stands there explicitly stays, unless a depth is set afterwards
(`Options.Source.loads_usable`).

How a YAML text is read is left to a library of YAML, of which nothing is assumed.
-/

namespace TaggedSchema

namespace Options

/-! ## 1. Fields -/

/-- The fields of the options. -/
inductive Field where
  | strictKeywords
  | failFast
  | discriminator
  | maxDepth
deriving DecidableEq

namespace Field

/-- What a field holds: all are flags but the depth. -/
def Value : Field → Type
  | maxDepth => Nat
  | _ => Bool

/-- The value of a field. -/
def get : (f : Field) → Options → f.Value
  | strictKeywords, o => o.strictKeywords
  | failFast, o => o.failFast
  | discriminator, o => o.discriminator
  | maxDepth, o => o.maxDepth

/-- The variable it is read from. -/
def variableName : Field → String
  | strictKeywords => "DISCRIM_STRICT_KEYWORDS"
  | failFast => "DISCRIM_FAIL_FAST"
  | discriminator => "DISCRIM_DISCRIMINATOR"
  | maxDepth => "DISCRIM_MAX_DEPTH"

/-- The member of an object and the key of a mapping it is read from. -/
def name : Field → String
  | strictKeywords => "strictKeywords"
  | failFast => "failFast"
  | discriminator => "discriminator"
  | maxDepth => "maxDepth"

/-- The item of an array it is read from. -/
def position : Field → Nat
  | strictKeywords => 0
  | failFast => 1
  | discriminator => 2
  | maxDepth => 3

/-- What holds of the four of them holds of all. -/
theorem forall_iff {P : Field → Prop} :
    (∀ f, P f) ↔ P strictKeywords ∧ P failFast ∧ P discriminator ∧ P maxDepth := by
  refine ⟨fun h => ⟨h _, h _, h _, h _⟩, fun ⟨hstrict, hfail, hdiscriminator, hdepth⟩ f => ?_⟩
  cases f <;> assumption

end Field

/-- Options are the values of their fields. -/
theorem eq_of_get {o o' : Options} (h : ∀ f : Field, f.get o = f.get o') : o = o' := by
  obtain ⟨hstrict, hfail, hdiscriminator, hdepth⟩ := Field.forall_iff.mp h
  cases o
  cases o'
  simp only [Field.get] at hstrict hfail hdiscriminator hdepth
  rw [hstrict, hfail, hdiscriminator, hdepth]

/-! ## 2. Depths in texts and values -/

/-- The number that a variable spells. -/
theorem natural?_eq_some_iff {text : List Char} {n : Nat} :
    natural? text = some n ↔ (∃ digits : List Char, digits ≠ [] ∧
      (∀ c ∈ digits, c.isDigit = true) ∧ (text = digits ∨ text = '+' :: digits) ∧
      Nat.ofDigitChars 10 digits 0 = n) ∧ n < depthBound := by
  have hunsigned : ∀ digits : List Char, (∀ c ∈ digits, c.isDigit = true) →
      ∀ rest, digits ≠ '+' :: rest := by
    intro digits hall rest heq
    have hplus : '+'.isDigit = true := hall '+' (heq ▸ List.mem_cons_self)
    cases hplus
  unfold natural?
  extract_lets digits m
  have hdigits : ∀ digits' : List Char, (∀ c ∈ digits', c.isDigit = true) →
      (text = digits' ∨ text = '+' :: digits') → digits = digits' := by
    rintro digits' hall (rfl | rfl)
    · unfold digits
      split
      next rest => exact absurd rfl (hunsigned _ hall rest)
      · rfl
    · rfl
  have htext : text = digits ∨ text = '+' :: digits := by
    unfold digits
    split
    · exact .inr rfl
    · exact .inl rfl
  constructor
  · intro h
    split at h
    · cases h
    next hgood =>
      split at h
      next hlt =>
        have hvalue : m = n := Option.some.inj h
        subst hvalue
        rw [Bool.or_eq_true, not_or, List.isEmpty_iff, Bool.not_eq_true', Bool.not_eq_false,
          List.all_eq_true] at hgood
        exact ⟨⟨digits, hgood.1, hgood.2, htext, rfl⟩, hlt⟩
      · cases h
  · rintro ⟨⟨digits', hne, hall, hfrom, rfl⟩, hlt⟩
    have hsame := hdigits digits' hall hfrom
    subst hsame
    have hgood : (digits.isEmpty || !digits.all Char.isDigit) = false := by
      rw [List.isEmpty_eq_false_iff.mpr hne, List.all_eq_true.mpr hall]
      rfl
    rw [hgood]
    exact if_pos hlt

/-- The depth that a number is. -/
theorem jsonDepth?_eq_some_iff {value : Json} {n : Nat} :
    jsonDepth? value = some n ↔ ∃ fits, value = .number (.int n fits) := by
  unfold jsonDepth?
  constructor
  · intro h
    obtain ⟨k, hk, hn⟩ := Option.bind_eq_some_iff.mp h
    cases value with
    | number k' =>
      cases hk
      cases k with
      | int i fits =>
        unfold Number.unsigned? at hn
        dsimp only at hn
        split at hn
        next hle =>
          have hi : i = (n : Int) := by
            have hcast := Option.some.inj hn
            omega
          subst hi
          exact ⟨fits, rfl⟩
        · cases hn
      | float x => cases hn
    | _ => cases hk
  · rintro ⟨fits, rfl⟩
    show (if (0 : Int) ≤ n then some (n : Int).toNat else none) = some n
    rw [if_pos (Int.natCast_nonneg n), Int.toNat_natCast]

/-! ## 3. What is given -/

section Reading

variable [Yaml.Library]

/-- What is given for a field: the text of a variable, a node of a YAML document or a JSON value. -/
inductive Given where
  | raw (text : String)
  | node (value : Yaml.Library.Node)
  | json (value : Json)

namespace Given

/-- As a flag. -/
def flag? : Given → Option Bool
  | raw text => Options.flag? text
  | node value => Yaml.Library.flag? value
  | json value => value.bool?

/-- As a depth. -/
def depth? : Given → Option Nat
  | raw text => Options.depth? text
  | node value => Yaml.Library.natural? value
  | json value => jsonDepth? value

/-- **What is given is the natural number**: in decimal digits with blanks around and perhaps a plus
    sign in front, as a node that spells it, or as a number in integer representation. -/
def Denotes : Given → Nat → Prop
  | raw text, n => ∃ digits : List Char, digits ≠ [] ∧ (∀ c ∈ digits, c.isDigit = true) ∧
      (Text.trim text.toList = digits ∨ Text.trim text.toList = '+' :: digits) ∧
      Nat.ofDigitChars 10 digits 0 = n
  | node value, n => Yaml.Library.natural? value = some n
  | json value, n => ∃ fits, value = .number (.int n fits)

/-- It is the text of a variable. -/
def IsRaw : Given → Prop
  | raw _ => True
  | _ => False

end Given

/-- **What is read as a depth** is a natural number; as a variable it is not zero, and has 64
    bits. -/
theorem Given.depth?_eq_some_iff {g : Given} {n : Nat} :
    g.depth? = some n ↔ g.Denotes n ∧ (g.IsRaw → n < depthBound ∧ 0 < n) := by
  unfold Given.depth? Given.Denotes Given.IsRaw
  cases g with
  | raw text =>
    dsimp only
    unfold Options.depth?
    rw [Option.filter_eq_some_iff, natural?_eq_some_iff, decide_eq_true_iff, and_assoc,
      true_implies]
  | node value => simp
  | json value => simp [jsonDepth?_eq_some_iff]

/-- What is read of what is given for a field. -/
def Field.read? : (f : Field) → Given → Option f.Value
  | strictKeywords, g => g.flag?
  | failFast, g => g.flag?
  | discriminator, g => g.flag?
  | maxDepth, g => g.depth?

/-! ## 4. Sources -/

/-- What options are read from: variables, a YAML or JSON text, or a JSON value. -/
inductive Source where
  | environment (lookup : String → Option String)
  | document (text : String)
  | json (value : Json)

namespace Source

/-- The options that are read. -/
def load : Source → Except OptionsError Options
  | environment lookup => ofVariables lookup
  | document text => Options.read text
  | json value => ofJson value

/-- **The source can give fields**: variables always; a text if it spells a record that gives no
    field twice; a JSON value if it is an object, or an array of at most so many items as there are
    fields. -/
def IsRecord : Source → Prop
  | environment _ => True
  | document text => ∃ entries, Yaml.Library.entries? text = some entries ∧
      ∀ f : Field, (entries.filter (·.1 == f.name)).length ≤ 1
  | json value => (∃ members, value = .object members) ∨
      ∃ items, value = .array items ∧ items.length ≤ 4

/-- **What is given for a field**, if anything. -/
def given? : Source → Field → Option Given
  | environment lookup, f => (lookup f.variableName).map .raw
  | document text, f =>
    ((Yaml.Library.entries? text).bind fun entries => entries.lookup f.name).map .node
  | json (.object members), f => (members.lookup f.name).map .json
  | json (.array items), f => items[f.position]?.map .json
  | json _, _ => none

end Source

end Reading

/-- What is taken for a field: what is read of what is given, or the default if nothing is given. -/
def Taken {α β : Type} (given : Option α) (read : α → Option β) (otherwise b : β) : Prop :=
  match given with
  | none => b = otherwise
  | some a => read a = some b

section Taken

variable {α β γ : Type} {read : β → Option γ} {otherwise c : γ}

theorem taken_map {given : Option α} {g : α → β} :
    Taken (given.map g) read otherwise c ↔ Taken given (fun a => read (g a)) otherwise c := by
  cases given <;> rfl

theorem field_eq_ok_iff {given : Option β} :
    field given read otherwise = .ok c ↔ Taken given read otherwise c := by
  unfold field Taken
  cases given with
  | none => exact ⟨fun h => (Except.ok.inj h).symm, fun h => h ▸ rfl⟩
  | some b =>
    dsimp only
    cases read b with
    | none => exact ⟨nofun, nofun⟩
    | some a =>
      exact ⟨fun h => congrArg some (Except.ok.inj h), fun h => congrArg _ (Option.some.inj h)⟩

/-- A variable is read like any other field, but the error names it. -/
theorem setting_eq_mapError {lookup : String → Option String} {name : String}
    {read : String → Option γ} :
    setting lookup name read otherwise
      = (field (lookup name) read otherwise).mapError fun _ =>
          .invalidValue name ((lookup name).getD "") := by
  unfold setting field
  cases lookup name with
  | none => rfl
  | some text =>
    dsimp only
    cases read text <;> rfl

theorem setting_eq_ok_iff {lookup : String → Option String} {name : String}
    {read : String → Option γ} :
    setting lookup name read otherwise = .ok c ↔ Taken (lookup name) read otherwise c := by
  rw [setting_eq_mapError, mapError_eq_ok_iff, field_eq_ok_iff]

/-- The error of a variable names it and holds what it spells. -/
theorem setting_eq_error {lookup : String → Option String} {name : String}
    {read : String → Option γ} {e : OptionsError}
    (h : setting lookup name read otherwise = .error e) :
    ∃ text, lookup name = some text ∧ read text = none ∧ e = .invalidValue name text := by
  unfold setting at h
  split at h
  · cases h
  next text htext =>
    split at h
    · cases h
    next hnone =>
      cases h
      exact ⟨text, htext, hnone, rfl⟩

theorem entryField_eq_ok_iff {entries : List (String × β)} {name : String} :
    entryField entries name read otherwise = .ok c ↔
      (entries.filter (·.1 == name)).length ≤ 1 ∧
        Taken (entries.lookup name) read otherwise c := by
  rw [lookup_eq_head?_filter]
  unfold entryField
  cases entries.filter (·.1 == name) with
  | nil => exact ⟨fun h => ⟨Nat.zero_le 1, (Except.ok.inj h).symm⟩, fun h => congrArg _ h.2.symm⟩
  | cons entry rest =>
    cases rest with
    | nil =>
      exact ⟨fun h => ⟨Nat.le_refl 1, field_eq_ok_iff.mp h⟩, fun h => field_eq_ok_iff.mpr h.2⟩
    | cons entry' rest =>
      refine ⟨nofun, fun h => ?_⟩
      have hlong := h.1
      simp at hlong

end Taken

/-! ## 5. Loading -/

section Loading

variable [Yaml.Library] {o : Options} {s : Source}

theorem ofVariables_eq_ok_iff {lookup : String → Option String} :
    ofVariables lookup = .ok o ↔
      ∀ f : Field, Taken (lookup f.variableName) (fun text => f.read? (.raw text)) (f.get default)
        (f.get o) := by
  unfold ofVariables
  simp only [bind_eq_ok, setting_eq_ok_iff, Field.forall_iff]
  constructor
  · rintro ⟨_, hdepth, _, hstrict, _, hfail, _, hdiscriminator, heq⟩
    cases heq
    exact ⟨hstrict, hfail, hdiscriminator, hdepth⟩
  · rintro ⟨hstrict, hfail, hdiscriminator, hdepth⟩
    exact ⟨_, hdepth, _, hstrict, _, hfail, _, hdiscriminator, rfl⟩

/-- A refused variable is named by the error, with its text. -/
theorem exists_setting_of_ofVariables_eq_error {lookup : String → Option String} {e : OptionsError}
    (h : ofVariables lookup = .error e) :
    ∃ (f : Field) (text : String), lookup f.variableName = some text ∧
      f.read? (.raw text) = none ∧ e = .invalidValue f.variableName text := by
  unfold ofVariables at h
  simp only [bind_eq_error] at h
  rcases h with h | ⟨_, -, h | ⟨_, -, h | ⟨_, -, h | ⟨_, -, h⟩⟩⟩⟩
  · exact ⟨.maxDepth, setting_eq_error h⟩
  · exact ⟨.strictKeywords, setting_eq_error h⟩
  · exact ⟨.failFast, setting_eq_error h⟩
  · exact ⟨.discriminator, setting_eq_error h⟩
  · cases h

omit [Yaml.Library] in
/-- Options whose fields are read one after the other. -/
theorem fields_eq_ok_iff {strict fail discriminator : Except OptionsError Bool}
    {depth : Except OptionsError Nat} :
    (do
      let strictKeywords ← strict
      let failFast ← fail
      let discriminator ← discriminator
      let maxDepth ← depth
      return { strictKeywords, failFast, discriminator, maxDepth : Options }) = .ok o ↔
      strict = .ok o.strictKeywords ∧ fail = .ok o.failFast ∧
        discriminator = .ok o.discriminator ∧ depth = .ok o.maxDepth := by
  simp only [bind_eq_ok]
  constructor
  · rintro ⟨_, hstrict, _, hfail, _, hdiscriminator, _, hdepth, heq⟩
    cases heq
    exact ⟨hstrict, hfail, hdiscriminator, hdepth⟩
  · rintro ⟨hstrict, hfail, hdiscriminator, hdepth⟩
    exact ⟨_, hstrict, _, hfail, _, hdiscriminator, _, hdepth, rfl⟩

theorem ofJson_object_eq_ok_iff {members : List (String × Json)} :
    ofJson (.object members) = .ok o ↔
      ∀ f : Field, Taken (members.lookup f.name) (fun value => f.read? (.json value))
        (f.get default) (f.get o) := by
  unfold ofJson
  dsimp only
  rw [fields_eq_ok_iff, Field.forall_iff]
  simp only [field_eq_ok_iff]
  rfl

theorem ofJson_array_eq_ok_iff {items : List Json} :
    ofJson (.array items) = .ok o ↔ items.length ≤ 4 ∧
      ∀ f : Field, Taken items[f.position]? (fun value => f.read? (.json value))
        (f.get default) (f.get o) := by
  unfold ofJson
  dsimp only
  split
  next hlong => exact ⟨nofun, fun h => absurd h.1 (Nat.not_le.mpr hlong)⟩
  next hshort =>
    rw [and_iff_right (Nat.not_lt.mp hshort), fields_eq_ok_iff, Field.forall_iff]
    simp only [field_eq_ok_iff]
    rfl

theorem read_eq_ok_iff {text : String} :
    Options.read text = .ok o ↔ ∃ entries, Yaml.Library.entries? text = some entries ∧
      ∀ f : Field, (entries.filter (·.1 == f.name)).length ≤ 1 ∧
        Taken (entries.lookup f.name) (fun value => f.read? (.node value)) (f.get default)
          (f.get o) := by
  unfold Options.read
  cases Yaml.Library.entries? text with
  | none => simp
  | some entries =>
    dsimp only
    rw [fields_eq_ok_iff]
    simp only [entryField_eq_ok_iff, Option.some.injEq, exists_eq_left', Field.forall_iff]
    rfl

/-- **What options are loaded**: a source that can give fields gives those of which every one is
    what is read of what is given for it, or its default where nothing is. -/
theorem Source.load_eq_ok_iff :
    s.load = .ok o ↔ s.IsRecord ∧
      ∀ f : Field, Taken (s.given? f) f.read? (f.get default) (f.get o) := by
  unfold load IsRecord given?
  cases s with
  | environment lookup =>
    dsimp only
    rw [ofVariables_eq_ok_iff, true_and]
    simp only [taken_map]
  | document text =>
    dsimp only
    rw [read_eq_ok_iff]
    cases Yaml.Library.entries? text with
    | none => simp
    | some entries =>
      simp only [Option.some.injEq, exists_eq_left', Option.bind_some, taken_map]
      exact forall_and
  | json value =>
    cases value with
    | object members =>
      dsimp only
      rw [ofJson_object_eq_ok_iff]
      simp [taken_map]
    | array items =>
      dsimp only
      rw [ofJson_array_eq_ok_iff]
      simp [taken_map]
    | _ => simp [ofJson]

/-- A source that is refused cannot give fields, or gives something that cannot be read. -/
theorem Source.exists_error (hgiven : ∃ f g, s.given? f = some g ∧ f.read? g = none) :
    ∃ e, s.load = .error e := by
  obtain ⟨f, g, hg, hnone⟩ := hgiven
  cases hload : s.load with
  | error e => exact ⟨e, rfl⟩
  | ok o =>
    have htaken := (load_eq_ok_iff.mp hload).2 f
    rw [hg] at htaken
    exact absurd (hnone.symm.trans htaken) nofun

end Loading

/-! ## 6. Setting -/

/-- The options after a field has been set. A depth of zero is set as one. -/
def set (o : Options) : (f : Field) → f.Value → Options
  | .strictKeywords, value => { o with strictKeywords := value }
  | .failFast, value => { o with failFast := value }
  | .discriminator, value => { o with discriminator := value }
  | .maxDepth, depth => o.withMaxDepth depth

/-- The options after fields have been set, one after the other. -/
def setAll (o : Options) (settings : List ((f : Field) × f.Value)) : Options :=
  settings.foldl (fun o setting => o.set setting.1 setting.2) o

section Setting

variable {o : Options} {f f' : Field} {settings : List ((f : Field) × f.Value)}

/-- Setting a field leaves the others. -/
theorem get_set_of_ne (hne : f' ≠ f) (value : f'.Value) : f.get (o.set f' value) = f.get o := by
  cases f' <;> cases f <;> first | rfl | exact absurd rfl hne

theorem get_setAll_of_notMem (h : f ∉ settings.map (·.1)) :
    f.get (o.setAll settings) = f.get o := by
  induction settings generalizing o with
  | nil => rfl
  | cons setting rest ih =>
    rw [List.map_cons, List.mem_cons, not_or] at h
    calc f.get (o.setAll (setting :: rest))
        = f.get ((o.set setting.1 setting.2).setAll rest) := rfl
      _ = f.get (o.set setting.1 setting.2) := ih h.2
      _ = f.get o := get_set_of_ne (Ne.symm h.1) setting.2

/-- No setting makes the depth zero. -/
theorem maxDepth_set_pos (value : f.Value) (h : f = .maxDepth ∨ 0 < o.maxDepth) :
    0 < (o.set f value).maxDepth := by
  cases f with
  | maxDepth => exact Nat.lt_of_lt_of_le Nat.one_pos (Nat.le_max_right _ 1)
  | _ => exact h.resolve_left nofun

theorem maxDepth_setAll_pos (h : .maxDepth ∈ settings.map (·.1) ∨ 0 < o.maxDepth) :
    0 < (o.setAll settings).maxDepth := by
  induction settings generalizing o with
  | nil => exact h.resolve_left List.not_mem_nil
  | cons setting rest ih =>
    refine ih ?_
    rcases h with hmem | hpos
    · rw [List.map_cons, List.mem_cons] at hmem
      exact hmem.symm.imp_right fun heq => maxDepth_set_pos setting.2 (.inl heq.symm)
    · exact .inr (maxDepth_set_pos setting.2 (.inr hpos))

end Setting

/-! ## 7. Depths -/

namespace Source

section Depths

variable [Yaml.Library]

/-- **A zero stands in a text or a JSON value** for the depth. -/
def GivesZero (s : Source) : Prop :=
  ∃ g, s.given? .maxDepth = some g ∧ g.Denotes 0 ∧ ¬ g.IsRaw

/-- Options that are loaded have a depth of zero where a zero is given. -/
theorem maxDepth_eq_zero_iff {s : Source} {o : Options} (h : s.load = .ok o) :
    o.maxDepth = 0 ↔ s.GivesZero := by
  have htaken := (load_eq_ok_iff.mp h).2 .maxDepth
  unfold GivesZero
  cases hgiven : s.given? .maxDepth with
  | none =>
    rw [hgiven] at htaken
    have hdepth : o.maxDepth = 256 := htaken
    simp [hdepth]
  | some g =>
    rw [hgiven] at htaken
    have hdepth : g.depth? = some o.maxDepth := htaken
    constructor
    · intro hzero
      rw [hzero, Given.depth?_eq_some_iff] at hdepth
      exact ⟨g, rfl, hdepth.1, fun hraw => absurd (hdepth.2 hraw).2 (Nat.lt_irrefl 0)⟩
    · rintro ⟨g', heq, hzero, hraw⟩
      cases heq
      have hread : g.depth? = some 0 :=
        Given.depth?_eq_some_iff.mpr ⟨hzero, fun h => absurd h hraw⟩
      exact Option.some.inj (hdepth.symm.trans hread)

/-- What denotes neither a positive number nor zero cannot be read as a depth. -/
theorem depth?_eq_none {s : Source} {g : Given} (hg : s.given? .maxDepth = some g)
    (hpositive : ¬ ∃ n, 0 < n ∧ g.Denotes n) (hzero : ¬ s.GivesZero) : g.depth? = none := by
  rw [Option.eq_none_iff_forall_ne_some]
  intro n hn
  obtain ⟨hdenotes, hraw⟩ := Given.depth?_eq_some_iff.mp hn
  rcases Nat.eq_zero_or_pos n with hn0 | hpos
  · subst hn0
    exact hzero ⟨g, hg, hdenotes, fun h => absurd (hraw h).2 (Nat.lt_irrefl 0)⟩
  · exact hpositive ⟨n, hpos, hdenotes⟩

/-- **What can be relied on of options**, whatever they are read from, with whatever library of
    YAML, and whichever fields are set afterwards. A source that can give fields loads what is
    given, with defaults for the rest, and is refused where something given cannot be read. Of what
    is loaded the depth is positive, unless it is an explicit zero of a text or a JSON value and no
    depth is set; fields neither given nor set have their defaults; and anything else for a depth
    but a positive integer is an error. -/
theorem loads_usable (s : Source) :
    (∀ o, s.load = .ok o ↔ s.IsRecord ∧
      ∀ f : Field, Taken (s.given? f) f.read? (f.get default) (f.get o)) ∧
    (∀ o settings, s.load = .ok o →
      (0 < (o.setAll settings).maxDepth ↔
        .maxDepth ∈ settings.map (·.1) ∨ ¬ s.GivesZero) ∧
      ∀ f : Field, s.given? f = none → f ∉ settings.map (·.1) →
        f.get (o.setAll settings) = f.get default) ∧
    (∀ g, s.given? .maxDepth = some g → (¬ ∃ n, 0 < n ∧ g.Denotes n) → ¬ s.GivesZero →
      ∃ e, s.load = .error e) := by
  refine ⟨fun o => load_eq_ok_iff, fun o settings hload => ⟨⟨fun hpos => ?_, fun h => ?_⟩, ?_⟩, ?_⟩
  · by_cases hset : .maxDepth ∈ settings.map (·.1)
    · exact .inl hset
    · have hkept : (o.setAll settings).maxDepth = o.maxDepth := get_setAll_of_notMem hset
      refine .inr fun hzero => ?_
      rw [hkept, (maxDepth_eq_zero_iff hload).mpr hzero] at hpos
      exact Nat.lt_irrefl 0 hpos
  · exact maxDepth_setAll_pos
      (h.imp_right fun hzero => Nat.pos_of_ne_zero (mt (maxDepth_eq_zero_iff hload).mp hzero))
  · intro f hnone hset
    have htaken := (load_eq_ok_iff.mp hload).2 f
    rw [hnone] at htaken
    exact (get_setAll_of_notMem hset).trans htaken
  · intro g hg hpositive hzero
    exact exists_error ⟨.maxDepth, g, hg, depth?_eq_none hg hpositive hzero⟩

end Depths

/-- A JSON value that asks for a depth of eight and nothing else. -/
def eight : Source := .json (.object [("maxDepth", .number (.ofNat 8))])

/-- Whatever is made of its flag `failFast`, the depth is positive and discriminators are honoured;
    and a variable that spells no number is refused. -/
theorem loads_usable_eight :
    eight.load = .ok ⟨false, false, true, 8⟩ ∧
    (∀ settings, (∀ f ∈ settings.map (·.1), f = .failFast) →
      0 < (setAll ⟨false, false, true, 8⟩ settings).maxDepth ∧
      (setAll ⟨false, false, true, 8⟩ settings).discriminator = true) ∧
    ∃ e, (environment fun _ => some "deep").load = .error e := by
  have hload : eight.load = .ok ⟨false, false, true, 8⟩ := rfl
  refine ⟨hload, fun settings hsettings => ?_, ?_⟩
  · have hzero : ¬ eight.GivesZero := mt (maxDepth_eq_zero_iff hload).mpr (by decide)
    obtain ⟨hpos, hdefault⟩ := (loads_usable eight).2.1 _ settings hload
    exact ⟨hpos.mpr (.inr hzero), hdefault .discriminator rfl fun hmem => nomatch hsettings _ hmem⟩
  · refine (loads_usable (.environment fun _ => some "deep")).2.2 (.raw "deep") rfl ?_ ?_
    · rintro ⟨n, -, digits, -, hall, hfrom, -⟩
      have htrim : Text.trim "deep".toList = ['d', 'e', 'e', 'p'] := by decide
      rw [htrim] at hfrom
      rcases hfrom with rfl | hsign
      · exact absurd (hall 'd' List.mem_cons_self) (by decide)
      · cases hsign
    · rintro ⟨g, hg, -, hraw⟩
      cases hg
      exact hraw trivial

/-- **A zero is loaded** from a JSON value and from a text, though a variable that spells it is
    refused, and setting it sets one. -/
theorem zero_depth_loads :
    (Source.json (.object [("maxDepth", .number (.ofNat 0))])).load
      = .ok ⟨false, false, true, 0⟩ ∧
    (Source.document "maxDepth: 0").load = .ok ⟨false, false, true, 0⟩ ∧
    (Source.environment fun name => if name = "DISCRIM_MAX_DEPTH" then some "0" else none).load
      = .error (.invalidValue "DISCRIM_MAX_DEPTH" "0") ∧
    (default.set .maxDepth (0 : Nat)).maxDepth = 1 := by
  have htext : ((Source.document "maxDepth: 0").load.toOption.any fun o =>
      decide (o = ⟨false, false, true, 0⟩)) = true := by decide +kernel
  refine ⟨rfl, ?_, rfl, rfl⟩
  obtain ⟨o, ho, hsame⟩ := any_toOption_eq_true.mp htext
  rw [ho, of_decide_eq_true hsame]

end Source

end Options

end TaggedSchema
