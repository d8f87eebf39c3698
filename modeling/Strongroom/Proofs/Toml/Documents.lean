import Strongroom.Proofs.Toml.Values

/-! # Documents come back from their text

A document of pairs, or of sections of pairs, reads as a table with the same
entries in the same order. Names have to be bare, since they are written as they
are, and no name may come twice.
-/

namespace Strongroom.Toml

/-- A name that stands for itself as a key. -/
def IsBareName (name : String) : Prop :=
  name.toList ≠ [] ∧ ∀ c ∈ name.toList, isBare c = true

instance (name : String) : Decidable (IsBareName name) :=
  @instDecidableAnd _ _ _ (List.decidableBAll _ _)

/-- Pairs that a document can list. -/
structure Tidy (pairs : List (String × Toml)) : Prop where
  bare : ∀ pair ∈ pairs, IsBareName pair.1
  plain : ∀ pair ∈ pairs, Plain 0 pair.2
  distinct : (pairs.map Prod.fst).Nodup

section Keys

theorem IsBareName.front {name : String} (bare : IsBareName name) :
    ∃ c more, name.toList = c :: more ∧ Visible c ∧ c ≠ '[' ∧ c ≠ '"' ∧ c ≠ '\'' := by
  obtain ⟨some, all⟩ := bare
  cases shape : name.toList with
  | nil => exact absurd shape some
  | cons c more =>
      have first : isBare c = true := all c (by rw [shape]; exact List.mem_cons_self)
      exact ⟨c, more, rfl, visible_of_kind first rfl, ne_of_kind first rfl,
        ne_of_kind first rfl, ne_of_kind first rfl⟩

theorem key?_bare {name : String} (bare : IsBareName name) (rest : List Char)
    (stops : ∀ c ∈ rest.head?, isBare c = false) (point : Without '.' (skip rest)) :
    key? (name.toList ++ rest) = some ([name], skip rest) := by
  obtain ⟨c, more, shape, visible, _, double, single⟩ := bare.front
  obtain ⟨front, behind⟩ := Json.takeWhile_dropWhile_append bare.2 stops
  have quoted : lineString? (c :: (more ++ rest)) = none := by
    unfold lineString?
    split
    · rename_i same
      exact absurd (List.cons.inj same).1 double
    · rename_i same
      exact absurd (List.cons.inj same).1 single
    · rfl
  have part : keyPart? (c :: (more ++ rest)) = some (name, rest) := by
    rw [shape, List.cons_append] at front behind
    rw [keyPart?, quoted]
    simp only [front, behind]
    rw [← shape, String.ofList_toList]
  rw [key?, shape, List.cons_append]
  -- the limit leaves fuel for the one part there is
  change keyParts? (78 + 1) _ = _
  rw [keyParts?, skip_of_visible visible, part]
  simp only [Option.bind_eq_bind, Option.bind_some]
  split
  · rename_i same
    exact absurd same (point.ne _)
  · rfl

end Keys

section Lines

theorem line?_name {name : String} (bare : IsBareName name) (draft : Draft) (rest : List Char) :
    line? draft (name.toList ++ rest) = (do
      let (key, rest) ← key? (name.toList ++ rest)
      let '=' :: rest := rest | none
      let (value, rest) ← value? (2 * rest.length + 2) 0 (skip rest)
      return (← draft.put? key value, ← endOfLine? rest)) := by
  obtain ⟨c, more, shape, visible, bracket, _⟩ := bare.front
  unfold line?
  rw [shape, List.cons_append, skip_of_visible visible]
  split
  · rename_i same
    exact absurd (List.cons.inj same).1 visible.2.1
  · rename_i same
    exact absurd (List.cons.inj same).1 bracket
  · rename_i same
    exact absurd (List.cons.inj same).1 bracket
  · split
    · rename_i found
      rw [newLine?_of_visible visible] at found
      cases found
    · rfl

theorem line?_pair {name : String} {value : Toml} {chars : List Char} (bare : IsBareName name)
    (plain : Plain 0 value) (written : valueChars? value = some chars) (draft : Draft)
    (rest : List Char) :
    line? draft (name.toList ++ ' ' :: '=' :: ' ' :: (chars ++ '\n' :: rest)) =
      (draft.put? [name] value).map fun draft => (draft, rest) := by
  obtain ⟨⟨c, more, shape, visible, _⟩, spelled⟩ := spells_valueChars plain written
  have key := key?_bare bare (' ' :: '=' :: ' ' :: (chars ++ '\n' :: rest))
    (by rintro c ⟨⟩; rfl) (by simp [Without, skip, isSpace])
  have blank : skip (' ' :: (chars ++ '\n' :: rest)) = chars ++ '\n' :: rest := by
    rw [shape]
    exact skip_of_visible visible _
  have read := spelled ('\n' :: rest) (2 * (' ' :: (chars ++ '\n' :: rest)).length + 2)
    (by simp [Ends]) (by simp; omega)
  rw [line?_name bare, key]
  simp only [Option.bind_eq_bind, Option.bind_some]
  change (do
    let (value, rest) ← value? _ 0 (skip (' ' :: (chars ++ '\n' :: rest)))
    return (← draft.put? [name] value, ← endOfLine? rest)) = _
  rw [blank, read]
  simp only [Option.bind_eq_bind, Option.bind_some]
  cases draft.put? [name] value with
  | none => rfl
  | some draft => rfl

theorem line?_header {name : String} (bare : IsBareName name) (draft : Draft) (rest : List Char) :
    line? draft ('[' :: (name.toList ++ ']' :: '\n' :: rest)) =
      (draft.begin? false [name]).map fun draft => (draft, rest) := by
  have key := key?_bare bare (']' :: '\n' :: rest) (by rintro c ⟨⟩; rfl)
    (by simp [Without, skip, isSpace])
  obtain ⟨c, more, shape, _, bracket, _⟩ := bare.front
  rw [shape] at key ⊢
  unfold line?
  rw [skip_of_visible (by decide)]
  split
  · rename_i same
    cases same
  · rename_i same
    exact absurd (List.cons.inj (List.cons.inj same).2).1 bracket
  · rename_i same
    cases same
    rw [key]
    simp only [Option.bind_eq_bind, Option.bind_some]
    cases draft.begin? false [name] with
    | none => rfl
    | some draft => rfl
  · rename_i never
    exact absurd rfl (never _)

/-- Reading goes past some lines, and changes the draft meanwhile. Every line
    has a character at least, so a document has fuel for all of its lines. -/
def Passes (draft : Draft) (chars : List Char) (draft' : Draft) : Prop :=
  ∃ count ≤ chars.length, ∀ (fuel : Nat) (rest : List Char),
    lines? (fuel + count) draft (chars ++ rest) = lines? fuel draft' rest

theorem Passes.nil (draft : Draft) : Passes draft [] draft :=
  ⟨0, le_refl 0, fun _ _ => rfl⟩

theorem Passes.append {draft draft' draft'' : Draft} {front behind : List Char}
    (first : Passes draft front draft') (second : Passes draft' behind draft'') :
    Passes draft (front ++ behind) draft'' := by
  obtain ⟨one, inFront, first⟩ := first
  obtain ⟨two, inBehind, second⟩ := second
  refine ⟨two + one, ?_, fun fuel rest => ?_⟩
  · rw [List.length_append]
    omega
  · calc lines? (fuel + (two + one)) draft (front ++ behind ++ rest)
        = lines? (fuel + two + one) draft (front ++ (behind ++ rest)) := by
          rw [List.append_assoc, Nat.add_assoc]
      _ = lines? (fuel + two) draft' (behind ++ rest) := first _ _
      _ = lines? fuel draft'' rest := second _ _

/-- A line that does not begin with a blank is read by itself. -/
theorem passes_line {draft draft' : Draft} {c : Char} {more : List Char}
    (blank : isSpace c = false)
    (read : ∀ rest, line? draft (c :: (more ++ rest)) = some (draft', rest)) :
    Passes draft (c :: more) draft' := by
  refine ⟨1, Nat.succ_le_succ (Nat.zero_le _), fun fuel rest => ?_⟩
  have skipped : skip (c :: (more ++ rest)) = c :: (more ++ rest) := by simp [skip, blank]
  rw [List.cons_append, lines?, skipped]
  simp only [read, Option.bind_eq_bind, Option.bind_some]

theorem passes_newLine (draft : Draft) : Passes draft ['\n'] draft :=
  passes_line rfl fun _ => rfl

theorem passes_pair {name : String} {value : Toml} {chars : List Char} (bare : IsBareName name)
    (plain : Plain 0 value) (written : valueChars? value = some chars) {draft draft' : Draft}
    (put : draft.put? [name] value = some draft') :
    Passes draft (name.toList ++ ' ' :: '=' :: ' ' :: chars ++ ['\n']) draft' := by
  have read (rest : List Char) := line?_pair bare plain written draft rest
  rw [put] at read
  obtain ⟨c, more, shape, visible, _⟩ := bare.front
  rw [shape]
  refine passes_line visible.1 fun rest => ?_
  have here := read rest
  rw [shape] at here
  simpa using here

theorem passes_header {name : String} (bare : IsBareName name) {draft draft' : Draft}
    (begun : draft.begin? false [name] = some draft') :
    Passes draft ('[' :: name.toList ++ [']', '\n']) draft' := by
  refine passes_line rfl fun rest => ?_
  have read := line?_header bare draft rest
  rw [begun] at read
  simpa using read

end Lines

section Drafts

def names (entries : Entries) : List String :=
  entries.map Prod.fst

def leaves (pairs : List (String × Toml)) : Entries :=
  pairs.map fun (name, value) => (name, .leaf value)

@[simp] theorem finishEntries_leaves (inBraces : Bool) (pairs : List (String × Toml)) :
    finishEntries inBraces (leaves pairs) = pairs := by
  induction pairs with
  | nil => rfl
  | cons pair pairs ih =>
      change (pair.1, pair.2) :: finishEntries inBraces (leaves pairs) = _
      rw [ih]

theorem lookup_of_fresh {name : String} {entries : Entries} (fresh : name ∉ names entries) :
    entries.lookup name = none := by
  refine List.lookup_eq_none_iff.2 fun entry member => bne_iff_ne.2 ?_
  rintro rfl
  exact fresh (List.mem_map_of_mem member)

theorem put_of_fresh {name : String} {entries : Entries} (fresh : name ∉ names entries)
    (value : Toml) :
    Entries.put [] name value entries = some (entries ++ [(name, .leaf value)]) := by
  rw [Entries.put, lookup_of_fresh fresh]
  rfl

theorem set_append {name : String} {before : Entries} (fresh : name ∉ names before)
    (old new : Node) :
    Entries.set name new (before ++ [(name, old)]) = before ++ [(name, new)] := by
  induction before with
  | nil => simp [Entries.set]
  | cons entry before ih =>
      simp only [names, List.map_cons, List.mem_cons, not_or] at fresh
      simp [Entries.set, Ne.symm fresh.1, ih fresh.2]

theorem within_last {part : String} {before : Entries} (fresh : part ∉ names before)
    (origin : Origin) (inner : Entries) (change : Entries → Option Entries) :
    Entries.within [part] change (before ++ [(part, .table origin inner)]) =
      (change inner).map fun inner => before ++ [(part, Node.table origin inner)] := by
  have found : (before ++ [(part, Node.table origin inner)]).lookup part =
      some (.table origin inner) := by
    rw [List.lookup_append, lookup_of_fresh fresh]
    simp
  rw [Entries.within, found]
  change (change inner).bind (fun inner => some (Entries.set part _ _)) = _
  cases change inner with
  | none => rfl
  | some inner => simp [set_append fresh]

end Drafts

section Parts

theorem of_linesChars?_cons {name : String} {value : Toml} {pairs : List (String × Toml)}
    {chars : List Char} (written : linesChars? ((name, value) :: pairs) = some chars) :
    ∃ item more, valueChars? value = some item ∧ linesChars? pairs = some more ∧
      chars = (name.toList ++ ' ' :: '=' :: ' ' :: item ++ ['\n']) ++ more := by
  simp only [linesChars?, entriesChars?, Option.bind_eq_bind, Option.bind_eq_some_iff] at written
  obtain ⟨lines, ⟨item, read, more, others, same⟩, whole⟩ := written
  cases same
  cases whole
  refine ⟨item, more.flatMap fun line => line ++ ['\n'], read, ?_, rfl⟩
  simp [linesChars?, others]

/-- The lines of pairs add them to the table that the header stands for, wherever
    in the root it is. -/
theorem passes_pairs (root : Entries → Entries) (header : List String)
    (focused : ∀ inner change, (root inner).within header change = (change inner).map root)
    {pairs : List (String × Toml)} (bare : ∀ pair ∈ pairs, IsBareName pair.1)
    (plain : ∀ pair ∈ pairs, Plain 0 pair.2) {chars : List Char}
    (written : linesChars? pairs = some chars) (inner : Entries)
    (distinct : (names inner ++ pairs.map Prod.fst).Nodup) :
    Passes ⟨root inner, header⟩ chars ⟨root (inner ++ leaves pairs), header⟩ := by
  induction pairs generalizing inner chars with
  | nil =>
      cases written
      rw [leaves, List.map_nil, List.append_nil]
      exact .nil _
  | cons pair pairs ih =>
      obtain ⟨name, value⟩ := pair
      obtain ⟨item, more, read, others, rfl⟩ := of_linesChars?_cons written
      obtain ⟨bareName, bare⟩ := List.forall_mem_cons.1 bare
      obtain ⟨plainValue, plain⟩ := List.forall_mem_cons.1 plain
      -- the names before and after are kept in one list, so that each is new when it comes
      have fresh : name ∉ names inner := by
        intro member
        exact (List.nodup_append.1 distinct).2.2 _ member _ List.mem_cons_self rfl
      have put : Draft.put? ⟨root inner, header⟩ [name] value =
          some ⟨root (inner ++ [(name, .leaf value)]), header⟩ := by
        simp [Draft.put?, focused, put_of_fresh fresh]
      have next := ih bare plain others (inner ++ [(name, .leaf value)])
        (by simpa [names] using distinct)
      have layout : inner ++ [(name, .leaf value)] ++ leaves pairs =
          inner ++ leaves ((name, value) :: pairs) := by
        simp [leaves]
      rw [layout] at next
      exact (passes_pair bareName plainValue read put).append next

theorem passes_section {part : String × List (String × Toml)} (bare : IsBareName part.1)
    (tidy : Tidy part.2) {chars : List Char} (written : sectionChars? part = some chars)
    {before : Entries} (fresh : part.1 ∉ names before) (header : List String) :
    Passes ⟨before, header⟩ chars
      ⟨before ++ [(part.1, .table .header (leaves part.2))], [part.1]⟩ := by
  simp only [sectionChars?, Option.bind_eq_bind, Option.bind_eq_some_iff] at written
  obtain ⟨lines, listed, same⟩ := written
  cases same
  have begun : Draft.begin? ⟨before, header⟩ false [part.1] =
      some ⟨before ++ [(part.1, .table .header [])], [part.1]⟩ := by
    simp [Draft.begin?, Entries.beginTable, Entries.within, lookup_of_fresh fresh]
  have pairs := passes_pairs (fun inner => before ++ [(part.1, .table .header inner)]) [part.1]
    (within_last fresh .header) tidy.bare tidy.plain listed [] tidy.distinct
  have layout : '[' :: part.1.toList ++ ']' :: '\n' :: lines =
      ('[' :: part.1.toList ++ [']', '\n']) ++ lines := by simp
  rw [layout]
  exact (passes_header bare begun).append pairs

/-- Tables with the given names and pairs, each under a header of its own. -/
def tables (sections : List (String × List (String × Toml))) : Entries :=
  sections.map fun (name, pairs) => (name, .table .header (leaves pairs))

@[simp] theorem finishEntries_tables (sections : List (String × List (String × Toml))) :
    finishEntries false (tables sections) =
      sections.map fun (name, pairs) => (name, .table pairs) := by
  induction sections with
  | nil => rfl
  | cons part sections ih =>
      have here : (Node.table .header (leaves part.2)).finish false = .table part.2 := by
        rw [Node.finish, finishEntries_leaves]
        rfl
      change (part.1, (Node.table .header (leaves part.2)).finish false) ::
        finishEntries false (tables sections) = _
      rw [here, ih]
      rfl

theorem passes_sections {sections : List (String × List (String × Toml))}
    (bare : ∀ part ∈ sections, IsBareName part.1) (tidy : ∀ part ∈ sections, Tidy part.2)
    {parts : List (List Char)} (written : sections.mapM sectionChars? = some parts)
    (before : Entries) (header : List String)
    (distinct : (names before ++ sections.map Prod.fst).Nodup) :
    ∃ header', Passes ⟨before, header⟩ (List.intercalate ['\n'] parts)
      ⟨before ++ tables sections, header'⟩ := by
  induction sections generalizing parts before header with
  | nil =>
      cases written
      refine ⟨header, ?_⟩
      rw [tables, List.map_nil, List.append_nil]
      exact .nil _
  | cons part sections ih =>
      simp only [List.mapM_cons, Option.bind_eq_bind, Option.bind_eq_some_iff] at written
      obtain ⟨chars, listed, others, rest, same⟩ := written
      cases same
      obtain ⟨bareName, bare⟩ := List.forall_mem_cons.1 bare
      obtain ⟨tidyPairs, tidy⟩ := List.forall_mem_cons.1 tidy
      have fresh : part.1 ∉ names before := by
        intro member
        exact (List.nodup_append.1 distinct).2.2 _ member _ List.mem_cons_self rfl
      have first := passes_section bareName tidyPairs listed fresh header
      cases sections with
      | nil =>
          obtain rfl : others = [] := (Option.some.inj rest).symm
          refine ⟨[part.1], ?_⟩
          rw [List.intercalate_singleton]
          exact first
      | cons next sections =>
          obtain ⟨header', remaining⟩ := ih bare tidy rest
            (before ++ [(part.1, .table .header (leaves part.2))]) [part.1]
            (by simpa [names] using distinct)
          have layout : before ++ [(part.1, .table .header (leaves part.2))] ++
              tables (next :: sections) = before ++ tables (part :: next :: sections) := by
            simp [tables]
          rw [layout] at remaining
          refine ⟨header', ?_⟩
          cases others with
          | nil => simp [List.mapM_cons, Option.bind_eq_some_iff] at rest
          | cons second others =>
              -- a blank line stands between two sections, and changes nothing
              rw [List.intercalate_cons_cons]
              exact (first.append (passes_newLine _)).append remaining

end Parts

section Whole

theorem parse?_ofList {chars : List Char} (mark : Without '\ufeff' chars) :
    parse? (String.ofList chars) =
      (lines? (chars.length + 1) ⟨[], []⟩ chars).map fun draft =>
        .table (finishEntries false draft.root) := by
  rw [parse?, String.toList_ofList]
  split
  · exact absurd rfl mark
  · cases lines? (chars.length + 1) ⟨[], []⟩ chars with
    | none => rfl
    | some draft => rfl

theorem parse?_newLine {text : String} (mark : Without '\ufeff' text.toList) :
    parse? ("\n" ++ text) = parse? text := by
  have front : "\n" ++ text = String.ofList ('\n' :: text.toList) := by
    rw [String.ofList_cons, String.ofList_toList]
    rfl
  rw [front, parse?_ofList (by simp [Without])]
  conv => rhs; rw [← String.ofList_toList (s := text), parse?_ofList mark]
  rfl

/-- A document is read to the end with the fuel of its characters. -/
theorem parse?_of_passes {chars : List Char} {draft : Draft} (passes : Passes ⟨[], []⟩ chars draft)
    (mark : Without '\ufeff' chars) :
    parse? (String.ofList chars) = some (.table (finishEntries false draft.root)) := by
  obtain ⟨count, inside, read⟩ := passes
  have enough : chars.length + 1 = (chars.length - count + 1) + count := by omega
  have last := read (chars.length - count + 1) []
  rw [List.append_nil, ← enough] at last
  rw [parse?_ofList mark, last]
  rfl

/-- A document of pairs reads as the table of them. -/
theorem parse?_ofPairs {pairs : List (String × Toml)} (tidy : Tidy pairs) {text : String}
    (written : ofPairs? pairs = some text) : parse? text = some (.table pairs) := by
  obtain ⟨chars, listed, rfl⟩ := Option.map_eq_some_iff.1 written
  have passes := passes_pairs id [] (fun inner change => by simp [Entries.within]) tidy.bare
    tidy.plain listed [] tidy.distinct
  have mark : Without '\ufeff' chars := by
    cases pairs with
    | nil =>
        cases listed
        simp [Without]
    | cons pair pairs =>
        obtain ⟨item, more, _, _, rfl⟩ := of_linesChars?_cons listed
        obtain ⟨c, rest, shape, _⟩ := (tidy.bare pair List.mem_cons_self).front
        have here : c ∈ pair.1.toList := by
          rw [shape]
          exact List.mem_cons_self
        have first := (tidy.bare pair List.mem_cons_self).2 c here
        have other : c ≠ '\ufeff' := ne_of_kind first rfl
        simp [Without, shape, other]
  rw [parse?_of_passes passes mark]
  simp

theorem mark_ofSections {sections : List (String × List (String × Toml))} {text : String}
    (written : ofSections? sections = some text) : Without '\ufeff' text.toList := by
  simp only [ofSections?, Option.bind_eq_bind, Option.bind_eq_some_iff] at written
  obtain ⟨parts, listed, same⟩ := written
  cases same
  rw [String.toList_ofList]
  cases sections with
  | nil =>
      cases listed
      simp [Without]
  | cons part sections =>
      simp only [List.mapM_cons, Option.bind_eq_bind, Option.bind_eq_some_iff] at listed
      obtain ⟨chars, first, others, _, same⟩ := listed
      cases same
      simp only [sectionChars?, Option.bind_eq_bind, Option.bind_eq_some_iff] at first
      obtain ⟨lines, _, same⟩ := first
      cases same
      cases others with
      | nil => simp [Without]
      | cons second others => simp [Without, List.intercalate_cons_cons]

/-- A document of sections reads as the table of their tables. -/
theorem parse?_ofSections {sections : List (String × List (String × Toml))}
    (bare : ∀ part ∈ sections, IsBareName part.1) (tidy : ∀ part ∈ sections, Tidy part.2)
    (distinct : (sections.map Prod.fst).Nodup) {text : String}
    (written : ofSections? sections = some text) :
    parse? text = some (.table (sections.map fun (name, pairs) => (name, .table pairs))) := by
  have mark := mark_ofSections written
  simp only [ofSections?, Option.bind_eq_bind, Option.bind_eq_some_iff] at written
  obtain ⟨parts, listed, same⟩ := written
  cases same
  obtain ⟨header, passes⟩ := passes_sections bare tidy listed [] [] distinct
  rw [String.toList_ofList] at mark
  rw [parse?_of_passes passes mark]
  simp

end Whole

end Strongroom.Toml
