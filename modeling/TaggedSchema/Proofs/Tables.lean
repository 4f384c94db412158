import TaggedSchema.DispatchTable
import TaggedSchema.Json.Reader
import TaggedSchema.Proofs.Entries
import TaggedSchema.Proofs.NumberText

/-!
# Tables after sequences of entries

A dispatch table gets its rows one by one, and refuses a tag that has a branch already. This file
says what a table is after any sequence of entries (`DispatchTable.entered_spec`): one step adds to
what a tag finds only where it found nothing (`DispatchTable.get?_offer`), so the first row of a tag
counts.

The entries of a table are sorted by branch and text. That this order leaves no choice rests on the
texts: a string is read back from its text (`Json.readString?_quoted`), numbers are told apart by
theirs, and the first character tells the type, so two tags have two texts (`Tag.text_injective`).
-/

namespace TaggedSchema

/-! ## 1. The text of a string -/

namespace Json

theorem hexValue?_hexDigit : ∀ n < 32,
    hexValue? (hexDigit (n / 16)) = some (n / 16) ∧ hexValue? (hexDigit n) = some (n % 16) := by
  decide

/-- A control character is read back from its four digits. -/
theorem readUnicode?_digits {c : Char} (h : c.toNat < 32) (rest : List Char) :
    readUnicode? ('0' :: '0' :: hexDigit (c.toNat / 16) :: hexDigit c.toNat :: rest)
      = some (c, rest) := by
  obtain ⟨hhigh, hlow⟩ := hexValue?_hexDigit c.toNat h
  have hzero : hexValue? '0' = some 0 := by decide
  have hunit : ((0 * 16 + 0) * 16 + c.toNat / 16) * 16 + c.toNat % 16 = c.toNat := by omega
  unfold readUnicode? readHex4?
  simp only [hhigh, hlow, hzero, Option.bind_eq_bind, Option.bind_some, Option.pure_def, hunit]
  rw [if_neg (by omega), if_neg (by omega), Char.ofNat_toNat]

/-- **A character is read back from its escape.** -/
theorem readChars?_escapeChar (n : Nat) (c : Char) (rest : List Char) :
    readChars? (n + 1) (escapeChar c ++ rest)
      = (readChars? n rest).map fun (more, rest) => (c :: more, rest) := by
  have hbind : (readChars? n rest).map (fun (more, rest) => (c :: more, rest))
      = (readChars? n rest).bind fun (more, rest) => some (c :: more, rest) :=
    Option.map_eq_bind
  have hchar {k : Nat} (h : c.toNat = k) : c = Char.ofNat k := by rw [← h, Char.ofNat_toNat]
  unfold escapeChar
  rw [hbind]
  split
  next h => subst h; rfl
  split
  next h => subst h; rfl
  split
  next h => subst h; rfl
  split
  next h => subst h; rfl
  split
  next h => subst h; rfl
  split
  next h => rw [hchar h]; rfl
  split
  next h => rw [hchar h]; rfl
  split
  next h =>
    show (readUnicode? ('0' :: '0' :: hexDigit (c.toNat / 16) :: hexDigit c.toNat :: rest)).bind _
      = _
    rw [readUnicode?_digits h]
    rfl
  next hquote hslash _ _ _ _ _ hcontrol =>
    rw [List.singleton_append, readChars?]
    · rw [if_neg (not_or.mpr ⟨hslash, hcontrol⟩)]
      rfl
    · exact hquote
    · exact fun _ h _ => hslash h
    · exact fun _ _ h _ => hslash h

/-- A string is read back from its text, up to its closing quote. -/
theorem readChars?_flatMap (chars : List Char) (n : Nat) (rest : List Char) :
    readChars? (chars.length + 1 + n) (chars.flatMap escapeChar ++ '"' :: rest)
      = some (chars, rest) := by
  induction chars with
  | nil => rw [List.length_nil, Nat.zero_add, Nat.add_comm]; rfl
  | cons c chars ih =>
    rw [List.flatMap_cons, List.append_assoc, List.length_cons, Nat.add_right_comm _ 1 n,
      readChars?_escapeChar, ih]
    rfl

theorem length_le_flatMap (chars : List Char) :
    chars.length ≤ (chars.flatMap escapeChar).length := by
  have hpos (c : Char) : 0 < (escapeChar c).length := by
    unfold escapeChar
    repeat' split
    all_goals exact Nat.succ_pos _
  induction chars with
  | nil => exact Nat.le_refl 0
  | cons c chars ih =>
    rw [List.flatMap_cons, List.length_append, List.length_cons]
    have := hpos c
    omega

/-- **What is quoted is read back.** -/
theorem readString?_quoted (s : String) :
    readString? ((quoted s).toList.drop 1) = some (s, []) := by
  unfold readString? quoted
  rw [String.toList_ofList, List.cons_append, List.drop_one, List.tail_cons]
  have hlength : ∃ n, (s.toList.flatMap escapeChar ++ ['"']).length + 1 = s.toList.length + 1 + n :=
    ⟨(s.toList.flatMap escapeChar).length + 1 - s.toList.length, by
      have := length_le_flatMap s.toList
      rw [List.length_append, List.length_singleton]
      omega⟩
  obtain ⟨n, hn⟩ := hlength
  rw [hn, readChars?_flatMap, Option.map_some]
  dsimp only
  rw [String.ofList_toList]

theorem quoted_injective : Function.Injective quoted := fun s s' h => by
  have hread := readString?_quoted s
  rw [h, readString?_quoted] at hread
  exact (Prod.mk.inj (Option.some.inj hread)).1.symm

end Json

/-! ## 2. The text of a tag -/

namespace Tag

/-- The type of tag whose text begins with a character. -/
def typeNameAt (c : Char) : String :=
  if c = '"' then "string" else if c = 't' ∨ c = 'f' then "boolean" else "number"

/-- **The first character of a tag's text tells its type.** -/
theorem exists_head (t : Tag) :
    ∃ c rest, t.text.toList = c :: rest ∧ typeNameAt c = t.typeName := by
  cases t with
  | string s => exact ⟨'"', _, String.toList_ofList, rfl⟩
  | number n =>
    obtain ⟨c, rest, htext, hc⟩ := n.exists_head
    refine ⟨c, rest, htext, ?_⟩
    have hne {d : Char} (hd : d.isDigit = false) (hminus : d ≠ '-') : c ≠ d := by
      rintro rfl
      rcases hc with rfl | hc
      · exact hminus rfl
      · exact absurd (hd.symm.trans hc) (by decide)
    rw [typeNameAt, if_neg (hne (by decide) (by decide)),
      if_neg (not_or.mpr ⟨hne (by decide) (by decide), hne (by decide) (by decide)⟩)]
    rfl
  | bool b => cases b <;> exact ⟨_, _, rfl, rfl⟩

/-- **Different tags have different texts.** -/
theorem text_injective : Function.Injective text := by
  intro a b heq
  have htype : a.typeName = b.typeName := by
    obtain ⟨c, rest, ha, hc⟩ := a.exists_head
    obtain ⟨d, rest', hb, hd⟩ := b.exists_head
    rw [← heq, ha] at hb
    rw [← hc, ← hd, (List.cons.inj hb).1]
  cases a with
  | string s =>
    cases b with
    | string s' => rw [Json.quoted_injective heq]
    | _ => simp [typeName] at htype
  | number n =>
    cases b with
    | number n' => rw [Number.text_injective heq]
    | _ => simp [typeName] at htype
  | bool x =>
    cases b with
    | bool y => cases x <;> cases y <;> first | rfl | exact absurd heq (by decide)
    | _ => simp [typeName] at htype

end Tag

/-! ## 3. One entry -/

namespace DispatchTable

/-- One entry into a table: what is refused, and the table then. -/
def offer (t : DispatchTable) (tag : Tag) (branch : Nat) : Option Refusal × DispatchTable :=
  match t.insert tag branch with
  | .ok entered => (none, entered)
  | .error refusal => (some refusal, t)

/-- The table after a sequence of entries, refused ones among them. -/
def entered (rows : List (Tag × Nat)) : DispatchTable :=
  rows.foldl (fun t row => (t.offer row.1 row.2).2) empty

variable {t : DispatchTable} {tag : Tag} {branch holder : Nat}

theorem offer_of_some (h : t.get? tag = some holder) :
    t.offer tag branch = (some ⟨tag, holder⟩, t) := by
  rw [offer, insert, h]

theorem offer_of_none (h : t.get? tag = none) :
    t.offer tag branch = (none, ⟨t.rows ++ [(tag, branch)]⟩) := by
  rw [offer, insert, h]

/-- An entry tells nothing new of other tags, nor of a tag that has a branch. -/
theorem get?_offer (t : DispatchTable) (tag tag' : Tag) (branch : Nat) :
    (t.offer tag' branch).2.get? tag = (t.get? tag).or ([(tag', branch)].lookup tag) := by
  cases hget : t.get? tag' with
  | some holder =>
    rw [offer_of_some hget]
    by_cases htag : tag = tag'
    · rw [htag, hget]
      rfl
    · rw [List.lookup_cons, beq_eq_false_iff_ne.mpr htag, List.lookup_nil, Option.or_none]
  | none =>
    rw [offer_of_none hget]
    exact List.lookup_append

/-- No tag gets a second row. -/
theorem nodup_offer (h : (t.rows.map (·.1)).Nodup) (tag : Tag) (branch : Nat) :
    ((t.offer tag branch).2.rows.map (·.1)).Nodup := by
  cases hget : t.get? tag with
  | some holder => rwa [offer_of_some hget]
  | none =>
    rw [offer_of_none hget, List.map_append]
    refine List.nodup_append.mpr ⟨h, List.nodup_singleton _, ?_⟩
    rintro a ha b hb rfl
    obtain rfl := List.mem_singleton.mp hb
    exact lookup_eq_none_iff.mp hget ha

/-! ## 4. A sequence of entries -/

section Run

variable (rows : List (Tag × Nat))

theorem entered_append_singleton (tag : Tag) (branch : Nat) :
    entered (rows ++ [(tag, branch)]) = ((entered rows).offer tag branch).2 := by
  rw [entered, List.foldl_append]
  rfl

/-- **The first row of a tag counts.** -/
theorem get?_entered (tag : Tag) : (entered rows).get? tag = rows.lookup tag := by
  induction rows using List.reverseRecOn with
  | nil => rfl
  | append_singleton rows row ih =>
    rw [entered_append_singleton, get?_offer, ih, List.lookup_append]

theorem nodup_entered : ((entered rows).rows.map (·.1)).Nodup := by
  induction rows using List.reverseRecOn with
  | nil => exact List.nodup_nil
  | append_singleton rows row ih =>
    rw [entered_append_singleton]
    exact nodup_offer ih _ _

theorem mem_entered {tag : Tag} {branch : Nat} :
    (tag, branch) ∈ (entered rows).rows ↔ rows.lookup tag = some branch := by
  rw [← lookup_eq_some_iff_mem (nodup_entered rows), ← get?_entered rows]
  rfl

/-- An entry is refused where an earlier row has its tag, and is one more row elsewhere. -/
theorem offer_entered (tag : Tag) (branch : Nat) : (entered rows).offer tag branch =
    match rows.lookup tag with
    | some holder => (some ⟨tag, holder⟩, entered rows)
    | none => (none, entered (rows ++ [(tag, branch)])) := by
  rw [entered_append_singleton, ← get?_entered]
  cases hget : (entered rows).get? tag with
  | some holder => exact offer_of_some hget
  | none => rw [offer_of_none hget]

/-- There are as many rows as tags. -/
theorem size_entered : (entered rows).size = (rows.map (·.1)).toFinset.card := by
  have hkeys : ((entered rows).rows.map (·.1)).toFinset = (rows.map (·.1)).toFinset := by
    ext tag
    rw [List.mem_toFinset, List.mem_toFinset, ← not_iff_not, ← lookup_eq_none_iff,
      ← lookup_eq_none_iff, ← get?_entered rows]
    rfl
  rw [← hkeys, List.toFinset_card_of_nodup (nodup_entered rows), List.length_map]
  rfl

end Run

/-! ## 5. The order of rows -/

/-- The strict order of rows: by branch, and of one branch by the text of the tag. -/
def Precedes (a b : Tag × Nat) : Prop := a.2 < b.2 ∨ a.2 = b.2 ∧ a.1.text < b.1.text

theorem rowLe_iff {a b : Tag × Nat} :
    rowLe a b = true ↔ a.2 < b.2 ∨ a.2 = b.2 ∧ a.1.text ≤ b.1.text := by
  rw [rowLe, Bool.or_eq_true, Bool.and_eq_true, decide_eq_true_iff, decide_eq_true_iff, beq_iff_eq]

theorem rowLe_trans {a b c : Tag × Nat} (hab : rowLe a b = true) (hbc : rowLe b c = true) :
    rowLe a c = true := by
  rw [rowLe_iff] at hab hbc ⊢
  rcases hab with hab | ⟨hab, htext⟩
  · exact .inl (by omega)
  · rcases hbc with hbc | ⟨hbc, htext'⟩
    · exact .inl (by omega)
    · exact .inr ⟨by omega, String.le_trans htext htext'⟩

theorem rowLe_total (a b : Tag × Nat) : (rowLe a b || rowLe b a) = true := by
  rw [Bool.or_eq_true, rowLe_iff, rowLe_iff]
  rcases Nat.lt_trichotomy a.2 b.2 with hlt | heq | hgt
  · exact .inl (.inl hlt)
  · exact (String.le_total a.1.text b.1.text).imp (fun h => .inr ⟨heq, h⟩)
      fun h => .inr ⟨heq.symm, h⟩
  · exact .inr (.inl hgt)

/-- Two rows that are in order both ways are one: their texts are one, and so are their tags. -/
theorem rowLe_antisymm {a b : Tag × Nat} (hab : rowLe a b = true) (hba : rowLe b a = true) :
    a = b := by
  rw [rowLe_iff] at hab hba
  obtain ⟨heq, htext⟩ : a.2 = b.2 ∧ a.1.text = b.1.text := by
    rcases hab with hab | ⟨heq, htext⟩
    · omega
    · rcases hba with hba | ⟨_, htext'⟩
      · omega
      · exact ⟨heq, String.le_antisymm htext htext'⟩
  exact Prod.ext (Tag.text_injective htext) heq

theorem precedes_of_rowLe {a b : Tag × Nat} (h : rowLe a b = true) (hne : a ≠ b) :
    Precedes a b := by
  refine (rowLe_iff.mp h).imp_right fun ⟨heq, _⟩ => ⟨heq, String.not_le.mp fun hge => hne ?_⟩
  exact rowLe_antisymm h (rowLe_iff.mpr (.inr ⟨heq.symm, hge⟩))

theorem pairwise_entries (t : DispatchTable) : t.entries.Pairwise fun a b => rowLe a b = true := by
  unfold entries
  refine List.pairwise_mergeSort ?_ rowLe_total t.rows
  exact fun _ _ _ => rowLe_trans

theorem mem_entries {row : Tag × Nat} : row ∈ t.entries ↔ row ∈ t.rows :=
  (List.mergeSort_perm t.rows rowLe).mem_iff

/-- **The entries of a table depend on its rows alone**, not on the order in which it holds them. -/
theorem entries_eq_of_perm {t' : DispatchTable} (h : t'.rows.Perm t.rows) :
    t'.entries = t.entries := by
  refine List.Perm.eq_of_pairwise (fun _ _ _ _ => rowLe_antisymm) (pairwise_entries t')
    (pairwise_entries t) ?_
  exact ((List.mergeSort_perm t'.rows rowLe).trans h).trans (List.mergeSort_perm t.rows rowLe).symm

/-- Of a table without two rows of one tag, the entries are in strict order. -/
theorem pairwise_precedes (h : (t.rows.map (·.1)).Nodup) : t.entries.Pairwise Precedes := by
  have hnodup : t.entries.Nodup :=
    (List.mergeSort_perm t.rows rowLe).nodup_iff.mpr (List.Nodup.of_map _ h)
  refine (pairwise_entries t).imp₂ (fun _ _ hle hne => precedes_of_rowLe hle hne) hnodup

/-- Entered in another order, rows of different tags make a table of the same rows. -/
theorem entered_perm {rows rows' : List (Tag × Nat)} (h : rows.Perm rows')
    (hnodup : (rows.map (·.1)).Nodup) : (entered rows').rows.Perm (entered rows).rows := by
  have hnodup' : (rows'.map (·.1)).Nodup := (h.map _).nodup_iff.mp hnodup
  refine (List.perm_ext_iff_of_nodup (List.Nodup.of_map _ (nodup_entered rows'))
    (List.Nodup.of_map _ (nodup_entered rows))).mpr fun (tag, branch) => ?_
  rw [mem_entered, mem_entered, lookup_eq_some_iff_mem hnodup, lookup_eq_some_iff_mem hnodup',
    h.mem_iff]

/-- **A table after any sequence of entries**, whatever tags come again: a tag has the branch of
    its first row, an entry is refused exactly where there is one and then changes nothing, and the
    size counts the tags. The entries are the rows that count, each tag once, in strict order by
    branch and text; neither the order in which a table holds its rows nor, where no tag comes
    twice, the order in which they were entered makes a difference. -/
theorem entered_spec (rows : List (Tag × Nat)) :
    (∀ tag, (entered rows).get? tag = rows.lookup tag) ∧
    (∀ tag branch, (entered rows).offer tag branch =
      match rows.lookup tag with
      | some holder => (some ⟨tag, holder⟩, entered rows)
      | none => (none, entered (rows ++ [(tag, branch)]))) ∧
    (entered rows).size = (rows.map (·.1)).toFinset.card ∧
    (∀ tag branch, (tag, branch) ∈ (entered rows).entries ↔ rows.lookup tag = some branch) ∧
    ((entered rows).entries.map (·.1)).Nodup ∧
    (entered rows).entries.Pairwise Precedes ∧
    (∀ held : DispatchTable, held.rows.Perm (entered rows).rows →
      held.entries = (entered rows).entries) ∧
    (∀ rows', rows.Perm rows' → (rows.map (·.1)).Nodup →
      (entered rows').entries = (entered rows).entries) := by
  refine ⟨get?_entered rows, offer_entered rows, size_entered rows, fun tag branch => ?_, ?_,
    pairwise_precedes (nodup_entered rows), fun _ => entries_eq_of_perm,
    fun _ h hnodup => entries_eq_of_perm (entered_perm h hnodup)⟩
  · rw [mem_entries, mem_entered]
  · exact ((List.mergeSort_perm _ rowLe).map _).nodup_iff.mpr (nodup_entered rows)

/-- Two rows of one branch, for a string and the number that it spells, and a row of another. -/
def oneAndTrue : List (Tag × Nat) :=
  [(.string "1", 1), (.number (.ofNat 1), 1), (.bool true, 0)]

/-- Entered once more, these rows change nothing; entered backwards, they make the same entries. -/
theorem entered_spec_oneAndTrue :
    (oneAndTrue.Perm oneAndTrue.reverse ∧ (oneAndTrue.map (·.1)).Nodup) ∧
      (entered (oneAndTrue ++ oneAndTrue.reverse)).size = 3 ∧
      (entered oneAndTrue).offer (.number (.ofNat 1)) 7
        = (some ⟨.number (.ofNat 1), 1⟩, entered oneAndTrue) ∧
      (entered oneAndTrue.reverse).entries = (entered oneAndTrue).entries := by
  have hperm : oneAndTrue.Perm oneAndTrue.reverse := (List.reverse_perm _).symm
  have hnodup : (oneAndTrue.map (·.1)).Nodup := by decide +kernel
  obtain ⟨-, hoffer, -, -, -, -, -, horder⟩ := entered_spec oneAndTrue
  refine ⟨⟨hperm, hnodup⟩, ?_, ?_, horder _ hperm hnodup⟩
  · rw [(entered_spec _).2.2.1]
    decide +kernel
  · rw [hoffer]
    rfl

end DispatchTable

end TaggedSchema
