import Strongroom.Proofs.Toml.Documents

/-! # Fields come back under their names

A record is written as the values of its fields, each under its name, and without
those that have none. What is looked up under the names later is what there was.
-/

namespace Strongroom.Toml

/-- The fields that have a value, under their names. -/
def listed (names : List String) (values : List (Option Toml)) : List (String × Toml) :=
  (names.zip values).filterMap fun (name, value) => value.map fun value => (name, value)

section Lookup

theorem listed_cons_some (name : String) (value : Toml) (names : List String)
    (values : List (Option Toml)) :
    listed (name :: names) (some value :: values) = (name, value) :: listed names values := rfl

theorem listed_cons_none (name : String) (names : List String) (values : List (Option Toml)) :
    listed (name :: names) (none :: values) = listed names values := rfl

/-- Only names of fields are listed, each at most once and in their order. -/
theorem names_listed (names : List String) (values : List (Option Toml)) :
    ((listed names values).map Prod.fst).Sublist names := by
  induction names generalizing values with
  | nil => exact .slnil
  | cons name names ih =>
      cases values with
      | nil => exact List.nil_sublist _
      | cons value values =>
          cases value with
          | none => exact (ih values).cons name
          | some value => exact (ih values).cons_cons name

theorem value_of_listed {names : List String} {values : List (Option Toml)}
    {pair : String × Toml} (member : pair ∈ listed names values) : some pair.2 ∈ values := by
  obtain ⟨⟨name, value⟩, zipped, same⟩ := List.mem_filterMap.1 member
  obtain ⟨value, rfl, rfl⟩ := Option.map_eq_some_iff.1 same
  exact (List.of_mem_zip zipped).2

theorem find?_listed_of_new {name : String} {names : List String} (new : name ∉ names)
    (values : List (Option Toml)) :
    (listed names values).find? (fun entry => entry.1 == name) = none := by
  refine List.find?_eq_none.2 fun pair member same => new ?_
  rw [← beq_iff_eq.1 same]
  exact (names_listed names values).subset (List.mem_map_of_mem member)

/-- The fields of a record are found under their names, the missing ones too. -/
theorem record?_listed {names : List String} {values : List (Option Toml)}
    (distinct : names.Nodup) (whole : names.length = values.length) :
    (Toml.table (listed names values)).record? names = some values := by
  have found : (names.map fun name =>
      ((listed names values).find? fun entry => entry.1 == name).map Prod.snd) = values := by
    induction names generalizing values with
    | nil => exact (List.length_eq_zero_iff.1 whole.symm).symm
    | cons name names ih =>
        cases values with
        | nil => cases whole
        | cons value values =>
            obtain ⟨new, distinct⟩ := List.nodup_cons.1 distinct
            have others := ih distinct (Nat.succ.inj whole)
            cases value with
            | none =>
                rw [listed_cons_none, List.map_cons, find?_listed_of_new new, others]
                rfl
            | some value =>
                have passed (other : String) (member : other ∈ names) :
                    ((name, value) :: listed names values).find? (fun entry => entry.1 == other) =
                      (listed names values).find? fun entry => entry.1 == other := by
                  refine List.find?_cons_of_neg fun same => new ?_
                  obtain rfl : name = other := beq_iff_eq.1 same
                  exact member
                rw [listed_cons_some, List.map_cons, List.find?_cons_of_pos (by simp)]
                refine congrArg (some value :: ·) (Eq.trans ?_ others)
                exact List.map_congr_left fun other member => by rw [passed other member]
  exact congrArg some found

theorem listed_pairs (pairs : List (String × Toml)) :
    listed (pairs.map Prod.fst) (pairs.map fun pair => some pair.2) = pairs := by
  induction pairs with
  | nil => rfl
  | cons pair pairs ih => rw [List.map_cons, List.map_cons, listed_cons_some, ih]

theorem record?_table {pairs : List (String × Toml)} (distinct : (pairs.map Prod.fst).Nodup) :
    (Toml.table pairs).record? (pairs.map Prod.fst) = some (pairs.map fun pair => some pair.2) := by
  have whole : (pairs.map Prod.fst).length = (pairs.map fun pair => some pair.2).length := by simp
  have found := record?_listed distinct whole
  rw [listed_pairs] at found
  exact found

theorem tidy_listed {names : List String} (bare : ∀ name ∈ names, IsBareName name)
    (distinct : names.Nodup) {values : List (Option Toml)}
    (plain : ∀ value, some value ∈ values → Plain 0 value) : Tidy (listed names values) where
  bare _ member := bare _ ((names_listed names values).subset (List.mem_map_of_mem member))
  plain _ member := plain _ (value_of_listed member)
  distinct := distinct.sublist (names_listed names values)

end Lookup

section Writable

theorem integerChars?_eq_none {n : Nat} : integerChars? n = none ↔ maxInteger < n := by
  unfold integerChars?
  split_ifs with fits
  · simp only [false_iff]
    omega
  · simp only [true_iff]
    omega

theorem itemsChars?_eq_none {items : List Toml} :
    itemsChars? items = none ↔ ∃ item ∈ items, valueChars? item = none := by
  induction items with
  | nil => simp [itemsChars?]
  | cons item items ih =>
      simp only [itemsChars?, List.mem_cons, exists_eq_or_imp, ← ih]
      cases valueChars? item with
      | none => simp
      | some chars => cases itemsChars? items <;> simp

theorem valueChars?_array_eq_none {items : List Toml} :
    valueChars? (.array items) = none ↔ ∃ item ∈ items, valueChars? item = none := by
  rw [← itemsChars?_eq_none, valueChars?]
  cases itemsChars? items <;> simp

theorem entriesChars?_eq_none {pairs : List (String × Toml)} :
    entriesChars? pairs = none ↔ ∃ pair ∈ pairs, valueChars? pair.2 = none := by
  induction pairs with
  | nil => simp [entriesChars?]
  | cons pair pairs ih =>
      simp only [entriesChars?, List.mem_cons, exists_eq_or_imp, ← ih]
      cases valueChars? pair.2 with
      | none => simp
      | some chars => cases entriesChars? pairs <;> simp

/-- A document of pairs cannot be written exactly if one of the values cannot. -/
theorem ofPairs?_eq_none {pairs : List (String × Toml)} :
    ofPairs? pairs = none ↔ ∃ pair ∈ pairs, valueChars? pair.2 = none := by
  rw [← entriesChars?_eq_none, ofPairs?, Option.map_eq_none_iff, linesChars?]
  cases entriesChars? pairs with
  | none => simp
  | some lines => simp

theorem exists_ofSections? {sections : List (String × List (String × Toml))}
    (writable : ∀ part ∈ sections, ∀ pair ∈ part.2, valueChars? pair.2 ≠ none) :
    ∃ text, ofSections? sections = some text := by
  have listed : ∃ parts, sections.mapM sectionChars? = some parts := by
    induction sections with
    | nil => exact ⟨[], rfl⟩
    | cons part sections ih =>
        obtain ⟨first, writable⟩ := List.forall_mem_cons.1 writable
        obtain ⟨parts, others⟩ := ih writable
        cases entries : entriesChars? part.2 with
        | none =>
            obtain ⟨pair, member, fails⟩ := entriesChars?_eq_none.1 entries
            exact absurd fails (first pair member)
        | some lines =>
            rw [List.mapM_cons, others, sectionChars?, linesChars?, entries]
            exact ⟨_, rfl⟩
  obtain ⟨parts, listed⟩ := listed
  rw [ofSections?, listed]
  exact ⟨_, rfl⟩

end Writable

end Strongroom.Toml
