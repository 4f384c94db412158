/-!
# Lists of entries

Members of objects, registries, aliases and dispatch tables are lists of keys and values, of which
the first entry of a key counts.
-/

namespace TaggedSchema

variable {α β : Type} [BEq α] [LawfulBEq α] {key : α} {value : β} {entries : List (α × β)}

/-- What is found under a key is an entry. -/
theorem mem_of_lookup (h : entries.lookup key = some value) : (key, value) ∈ entries := by
  obtain ⟨before, after, rfl, _⟩ := List.lookup_eq_some_iff.mp h
  exact List.mem_append_right _ List.mem_cons_self

theorem mem_keys_of_lookup (h : entries.lookup key = some value) : key ∈ entries.map (·.1) :=
  List.mem_map.mpr ⟨_, mem_of_lookup h, rfl⟩

theorem mem_values_of_lookup (h : entries.lookup key = some value) : value ∈ entries.map (·.2) :=
  List.mem_map.mpr ⟨_, mem_of_lookup h, rfl⟩

theorem lookup_eq_none_iff : entries.lookup key = none ↔ key ∉ entries.map (·.1) := by
  rw [List.lookup_eq_none_iff, List.mem_map]
  constructor
  · rintro h ⟨entry, hentry, rfl⟩
    exact bne_iff_ne.mp (h entry hentry) rfl
  · intro h entry hentry
    exact bne_iff_ne.mpr fun he => h ⟨entry, hentry, he.symm⟩

/-- The first entry of a key is the one that is found. -/
theorem lookup_eq_head?_filter {name : String} {entries : List (String × β)} :
    entries.lookup name = (entries.filter (·.1 == name)).head?.map (·.2) := by
  induction entries with
  | nil => rfl
  | cons entry rest ih =>
    obtain ⟨key, value⟩ := entry
    rw [List.lookup_cons, List.filter_cons]
    by_cases h : key = name
    · subst h
      simp
    · have hne : name ≠ key := fun heq => h heq.symm
      rw [beq_eq_false_iff_ne.mpr hne, beq_eq_false_iff_ne.mpr h, ih]
      rfl

/-- Where no key comes twice, every entry counts. -/
theorem lookup_eq_some_iff_mem (h : (entries.map (·.1)).Nodup) :
    entries.lookup key = some value ↔ (key, value) ∈ entries := by
  refine ⟨mem_of_lookup, fun hmem => ?_⟩
  induction entries with
  | nil => cases hmem
  | cons entry rest ih =>
    obtain ⟨k, v⟩ := entry
    obtain ⟨hk, hrest⟩ := List.nodup_cons.mp h
    rcases List.mem_cons.mp hmem with he | hmem
    · cases he
      exact List.lookup_cons_self
    · have hne : key ≠ k := fun he => hk (List.mem_map.mpr ⟨_, hmem, he⟩)
      rw [List.lookup_cons, beq_eq_false_iff_ne.mpr hne]
      exact ih hrest hmem

/-- An entry at the end counts where no earlier one does. -/
theorem lookup_append_singleton {name name' : String} {entries : List (String × β)} :
    (entries ++ [(name', value)]).lookup name
      = (entries.lookup name).or (if name = name' then some value else none) := by
  rw [List.lookup_append, List.lookup_cons, List.lookup_nil]
  by_cases h : name = name'
  · rw [if_pos h, beq_iff_eq.mpr h]
  · rw [if_neg h, beq_eq_false_iff_ne.mpr h]

end TaggedSchema
