import Strongroom.Proofs.Json.RoundTrip
import Strongroom.Proofs.Toml.Strings

/-! # Values come back from their written form

Texts, integers, truth values and arrays of them are written on one line and read
as themselves. The other values are left aside: floats and moments are kept as
they were written, and tables have more than one form.
-/

namespace Strongroom.Toml

/-- Values that stand inside `depth` others and are written in one way. -/
inductive Plain : (depth : Nat) → Toml → Prop where
  | string {depth : Nat} (text : String) : Plain depth (.string text)
  | integer {depth : Nat} (n : Int) : Plain depth (.integer n)
  | boolean {depth : Nat} (b : Bool) : Plain depth (.boolean b)
  | array {depth : Nat} {items : List Toml} : depth + 1 < depthLimit →
    (∀ item ∈ items, Plain (depth + 1) item) → Plain depth (.array items)

section Integers

theorem digit?_of_isDigit {c : Char} (digit : c.isDigit = true) :
    Uuid.digit? c = some (c.toNat - 0x30) := by
  have all : ∀ n < 0x80, (Char.ofNat n).isDigit = true →
      Uuid.digit? (Char.ofNat n) = some ((Char.ofNat n).toNat - 0x30) := by decide
  have bounds : 48 ≤ c.toNat ∧ c.toNat ≤ 57 := Char.isDigit_iff_toNat.1 digit
  have found := all c.toNat (by omega)
  rw [Char.ofNat_toNat] at found
  exact found digit

theorem mem_toDigits {n : Nat} {c : Char} (member : c ∈ Nat.toDigits 10 n) : c.isDigit = true :=
  Nat.isDigit_of_mem_toDigits (by decide) (by decide) member

theorem valueOf_toDigits (n : Nat) : valueOf 10 (Nat.toDigits 10 n) = n := by
  refine Eq.trans ?_ (Json.decimal_toDigits n)
  refine List.foldl_ext _ _ _ fun high d member => ?_
  rw [digit?_of_isDigit (mem_toDigits member)]

theorem grouped_of_digits {digits : List Char} (some : digits ≠ [])
    (all : ∀ d ∈ digits, d.isDigit = true) : grouped Char.isDigit digits = true := by
  induction digits with
  | nil => exact absurd rfl some
  | cons d digits ih =>
      obtain ⟨first, others⟩ := List.forall_mem_cons.1 all
      cases digits with
      | nil => exact first
      | cons e digits =>
          have second : e ≠ '_' := by
            rintro rfl
            cases others '_' List.mem_cons_self
          rw [grouped]
          · simp [first, ih (List.cons_ne_nil _ _) others]
          all_goals simp_all

theorem isDecimal_toDigits (n : Nat) : isDecimal (Nat.toDigits 10 n) = true := by
  have digits : grouped Char.isDigit (Nat.toDigits 10 n) = true :=
    grouped_of_digits Nat.toDigits_ne_nil fun _ => mem_toDigits
  rw [isDecimal, digits, Bool.true_and, Bool.or_eq_true]
  by_cases zero : n = 0
  · subst zero
    exact .inr rfl
  · refine .inl (bne_iff_ne.2 fun first => zero ?_)
    obtain ⟨rest, front⟩ := List.head?_eq_some_iff.1 first
    exact Json.eq_zero_of_toDigits front

theorem sign_toDigits (n : Nat) : sign (Nat.toDigits 10 n) = (false, Nat.toDigits 10 n) := by
  unfold sign
  split
  · rename_i front
    cases mem_toDigits (n := n) (c := '+') (by simp [front])
  · rename_i front
    cases mem_toDigits (n := n) (c := '-') (by simp [front])
  · rfl

theorem integer?_decimal {word : List Char}
    (decimal : ∀ c rest, word = '0' :: c :: rest → c.isDigit = true) :
    integer? word =
      if !isDecimal (sign word).2 then none
      else if (sign word).1 then
        if valueOf 10 (sign word).2 ≤ maxInteger + 1 then
          some (-(valueOf 10 (sign word).2 : Int)) else none
      else if valueOf 10 (sign word).2 ≤ maxInteger then some (valueOf 10 (sign word).2)
      else none := by
  unfold integer?
  split
  · cases decimal 'x' _ rfl
  · cases decimal 'o' _ rfl
  · cases decimal 'b' _ rfl
  · rfl

/-- An integer that can be written reads as itself. -/
theorem integer?_integerChars {n : Int} {chars : List Char}
    (written : integerChars? n = some chars) : integer? chars = some n := by
  unfold integerChars? at written
  split at written
  · rename_i fits
    by_cases negative : n < 0
    · rw [if_pos negative] at written
      cases written
      have small : n.natAbs ≤ maxInteger + 1 := by omega
      have back : -(n.natAbs : Int) = n := by omega
      have split : sign ('-' :: Nat.toDigits 10 n.natAbs) = (true, Nat.toDigits 10 n.natAbs) := rfl
      rw [integer?_decimal, split]
      · simp only [isDecimal_toDigits, valueOf_toDigits, small, back, Bool.not_true,
          Bool.false_eq_true, if_true, if_false]
      · intro c rest front
        cases front
    · rw [if_neg negative] at written
      cases written
      have small : n.natAbs ≤ maxInteger := by omega
      have back : (n.natAbs : Int) = n := by omega
      rw [integer?_decimal, sign_toDigits]
      · simp only [isDecimal_toDigits, valueOf_toDigits, small, back, Bool.not_true,
          Bool.false_eq_true, if_true, if_false]
      · intro c rest front
        exact mem_toDigits (n := n.natAbs) (by simp [front])
  · cases written

end Integers

section Words

/-- What may stand behind a value: nothing, a line, a comma or the end of an
    array. -/
def Ends (rest : List Char) : Prop :=
  ∀ c ∈ rest.head?, c = '\n' ∨ c = ',' ∨ c = ']'

theorem Ends.without {c : Char} {rest : List Char} (ends : Ends rest)
    (other : c ≠ '\n' ∧ c ≠ ',' ∧ c ≠ ']') : Without c rest := by
  intro first
  obtain rfl | rfl | rfl := ends c first
  · exact other.1 rfl
  · exact other.2.1 rfl
  · exact other.2.2 rfl

theorem word_append {chars rest : List Char} (all : ∀ c ∈ chars, isWordChar c = true)
    (ends : Ends rest) : word (chars ++ rest) = (chars, rest) := by
  have stops (c : Char) (first : c ∈ rest.head?) : isWordChar c = false := by
    obtain rfl | rfl | rfl := ends c first
    all_goals rfl
  obtain ⟨front, behind⟩ := Json.takeWhile_dropWhile_append all stops
  unfold word
  rw [front, behind]
  dsimp only
  split
  · exact absurd rfl (ends.without (by decide))
  · rfl

theorem value?_word {chars rest : List Char} {value : Toml} (some : chars ≠ [])
    (all : ∀ c ∈ chars, isWordChar c = true) (read : scalar? chars = .some value)
    (ends : Ends rest) (fuel depth : Nat) :
    value? (fuel + 1) depth (chars ++ rest) = .some (value, rest) := by
  cases chars with
  | nil => exact absurd rfl some
  | cons c chars =>
      have first := all c List.mem_cons_self
      rw [List.cons_append, value?]
      · rw [← List.cons_append, word_append all ends]
        simp [read]
      all_goals
        rintro rest same
        rw [(List.cons.inj same).1] at first
        cases first

theorem scalar?_integer {word : List Char} {n : Int} (read : integer? word = some n) :
    scalar? word = some (.integer n) := by
  have other {text : List Char} (none : integer? text = .none) : word ≠ text := by
    rintro rfl
    rw [none] at read
    cases read
  have yes : (word == "true".toList) = false := beq_eq_false_iff_ne.2 (other (by decide))
  have no : (word == "false".toList) = false := beq_eq_false_iff_ne.2 (other (by decide))
  simp only [scalar?, yes, no, read, Bool.false_eq_true, if_false]

theorem isWordChar_integerChars {n : Int} {chars : List Char}
    (written : integerChars? n = some chars) : chars ≠ [] ∧ ∀ c ∈ chars, isWordChar c = true := by
  have digit {c : Char} (member : c ∈ Nat.toDigits 10 n.natAbs) : isWordChar c = true := by
    simp [isWordChar, Char.isAlphanum, mem_toDigits member]
  unfold integerChars? at written
  split at written
  · split at written
    · cases written
      exact ⟨List.cons_ne_nil _ _, List.forall_mem_cons.2 ⟨rfl, fun _ => digit⟩⟩
    · cases written
      exact ⟨Nat.toDigits_ne_nil, fun _ => digit⟩
  · cases written

end Words

section Arrays

/-- A character that stands at the front, so that nothing is skipped. -/
def Visible (c : Char) : Prop :=
  isSpace c = false ∧ c ≠ '#' ∧ c ≠ '\n' ∧ c ≠ '\r'

instance (c : Char) : Decidable (Visible c) :=
  inferInstanceAs (Decidable (_ ∧ _ ∧ _ ∧ _))

theorem ne_of_kind {kind : Char → Bool} {c d : Char} (yes : kind c = true)
    (no : kind d = false) : c ≠ d := by
  rintro rfl
  rw [no] at yes
  cases yes

theorem visible_of_kind {kind : Char → Bool} {c : Char} (yes : kind c = true)
    (none : [' ', '\t', '#', '\n', '\r'].any kind = false) : Visible c := by
  have other (d : Char) (member : d ∈ [' ', '\t', '#', '\n', '\r']) : c ≠ d :=
    ne_of_kind yes (Bool.eq_false_iff.2 (List.any_eq_false.1 none d member))
  have blank : isSpace c = false := by
    simp [isSpace, other ' ' (by decide), other '\t' (by decide)]
  exact ⟨blank, other '#' (by decide), other '\n' (by decide), other '\r' (by decide)⟩

theorem newLine?_of_visible {c : Char} (visible : Visible c) (rest : List Char) :
    newLine? (c :: rest) = none :=
  newLine?_of_without (fun same => visible.2.2.1 (Option.some.inj same))
    fun same => visible.2.2.2 (Option.some.inj same)

theorem skip_of_visible {c : Char} (visible : Visible c) (rest : List Char) :
    skip (c :: rest) = c :: rest := by
  simp [skip, visible.1]

theorem skipLines_of_visible {c : Char} (visible : Visible c) (fuel : Nat) (rest : List Char) :
    skipLines fuel (c :: rest) = c :: rest := by
  cases fuel with
  | zero => rfl
  | succ fuel =>
      have comment : skipComment (c :: rest) = c :: rest := by
        unfold skipComment
        split
        · rename_i same
          exact absurd (List.cons.inj same).1 visible.2.1
        · rfl
      rw [skipLines, skip_of_visible visible, comment, newLine?_of_visible visible]

theorem skipLines_blank {c : Char} (visible : Visible c) (fuel : Nat) (rest : List Char) :
    skipLines (fuel + 1) (' ' :: c :: rest) = c :: rest := by
  have blank : skip (' ' :: c :: rest) = skip (c :: rest) := rfl
  have same := skipLines_of_visible visible (fuel + 1) rest
  rw [skipLines] at same ⊢
  rw [blank, same]

/-- A text that reads as a value inside `depth` others. -/
def Spells (depth : Nat) (chars : List Char) (value : Toml) : Prop :=
  ∀ (rest : List Char) (fuel : Nat), Ends rest → chars.length ≤ fuel →
    value? fuel depth (chars ++ rest) = some (value, rest)

/-- A text that a value may begin with, inside an array too. -/
def Begins (chars : List Char) : Prop :=
  ∃ c rest, chars = c :: rest ∧ Visible c ∧ c ≠ ']'

theorem items?_blank {chars : List Char} (begins : Begins chars) (fuel depth : Nat)
    (tail : List Char) :
    items? fuel depth (' ' :: (chars ++ tail)) = items? fuel depth (chars ++ tail) := by
  obtain ⟨c, more, rfl, visible, _⟩ := begins
  cases fuel with
  | zero => rfl
  | succ fuel =>
      rw [List.cons_append, items?, items?, skipLines_of_visible visible, List.length_cons,
        skipLines_blank visible]

/-- An item is read up to what stands behind it. -/
theorem items?_item {depth : Nat} {chars : List Char} {item : Toml} (begins : Begins chars)
    (spelled : Spells depth chars item) {rest : List Char} (ends : Ends rest) (fuel : Nat)
    (enough : chars.length ≤ fuel) :
    items? (fuel + 1) depth (chars ++ rest) =
      match skipLines rest.length rest with
      | ']' :: rest => some ([item], rest)
      | ',' :: rest => (items? fuel depth rest).map fun (items, rest) => (item :: items, rest)
      | _ => none := by
  obtain ⟨c, more, rfl, visible, goesOn⟩ := begins
  have read := spelled rest fuel ends enough
  rw [List.cons_append] at read ⊢
  rw [items?, skipLines_of_visible visible]
  split
  · rename_i same
    exact absurd (List.cons.inj same).1 goesOn
  · rw [read]
    rfl

theorem items?_joinItems {depth : Nat} {items : List Toml} {parts : List (List Char)}
    (spelled : List.Forall₂ (fun item chars => Begins chars ∧ Spells depth chars item) items parts)
    (rest : List Char) (fuel : Nat) (enough : (joinItems parts).length < fuel) :
    items? fuel depth (joinItems parts ++ ']' :: rest) = some (items, rest) := by
  induction spelled generalizing fuel with
  | nil =>
      cases fuel with
      | zero => cases enough
      | succ fuel =>
          rw [items?, joinItems, List.nil_append, skipLines_of_visible (by decide)]
          rfl
  | @cons item chars items parts first others ih =>
      obtain ⟨begins, spelled⟩ := first
      cases fuel with
      | zero => cases enough
      | succ fuel =>
          cases others with
          | nil =>
              rw [joinItems] at enough ⊢
              rw [items?_item begins spelled (by simp [Ends]) fuel (Nat.le_of_lt_succ enough),
                skipLines_of_visible (by decide)]
              rfl
          | @cons next nextChars items parts second others =>
              have layout : joinItems (chars :: nextChars :: parts) =
                  chars ++ ',' :: ' ' :: joinItems (nextChars :: parts) := rfl
              have tail : ∃ more, joinItems (nextChars :: parts) = nextChars ++ more := by
                cases parts with
                | nil => exact ⟨[], (List.append_nil _).symm⟩
                | cons third parts => exact ⟨_, rfl⟩
              obtain ⟨more, same⟩ := tail
              rw [layout, List.length_append, List.length_cons, List.length_cons] at enough
              rw [layout, List.append_assoc, List.cons_append, List.cons_append]
              rw [items?_item begins spelled (by simp [Ends]) fuel (by omega),
                skipLines_of_visible (by decide)]
              have read := ih fuel (by omega)
              rw [same, List.append_assoc] at read ⊢
              simp only [items?_blank second.1, read]
              rfl

end Arrays

theorem spells_word {depth : Nat} {chars : List Char} {value : Toml} (some : chars ≠ [])
    (all : ∀ c ∈ chars, isWordChar c = true) (read : scalar? chars = .some value) :
    Begins chars ∧ Spells depth chars value := by
  refine ⟨?_, ?_⟩
  · cases chars with
    | nil => exact absurd rfl some
    | cons c chars =>
        have first := all c List.mem_cons_self
        exact ⟨c, chars, rfl, visible_of_kind first rfl, ne_of_kind first rfl⟩
  · intro rest fuel ends enough
    cases fuel with
    | zero => exact absurd (List.length_eq_zero_iff.1 (Nat.le_zero.1 enough)) some
    | succ fuel => exact value?_word some all read ends fuel depth

theorem stringChars_front (text : List Char) :
    ∃ more, stringChars text = '"' :: more ∨ stringChars text = '\'' :: more := by
  unfold stringChars
  dsimp only
  split_ifs
  · exact ⟨_, .inl rfl⟩
  · exact ⟨_, .inr rfl⟩
  · exact ⟨_, .inl rfl⟩
  · exact ⟨_, .inr rfl⟩
  · exact ⟨_, .inl rfl⟩
  · exact ⟨_, .inl rfl⟩

theorem spells_stringChars (depth : Nat) (text : String) :
    Begins (stringChars text.toList) ∧
      Spells depth (stringChars text.toList) (.string text) := by
  obtain ⟨more, front⟩ := stringChars_front text.toList
  refine ⟨?_, ?_⟩
  · rcases front with front | front
    all_goals exact ⟨_, more, front, by decide, by decide⟩
  · intro rest fuel ends enough
    have read := string?_stringChars text.toList (ends.without (c := '"') (by decide))
      (ends.without (by decide))
    cases fuel with
    | zero => rcases front with front | front <;> simp [front] at enough
    | succ fuel =>
        rcases front with front | front
        all_goals
          rw [front, List.cons_append] at read ⊢
          rw [value?, read]
          simp

theorem forall₂_itemsChars {P : Toml → List Char → Prop} {items : List Toml}
    {parts : List (List Char)}
    (each : ∀ item ∈ items, ∀ chars, valueChars? item = some chars → P item chars)
    (written : itemsChars? items = some parts) : List.Forall₂ P items parts := by
  induction items generalizing parts with
  | nil =>
      cases written
      exact .nil
  | cons item items ih =>
      simp only [itemsChars?, Option.bind_eq_bind, Option.bind_eq_some_iff] at written
      obtain ⟨chars, first, others, rest, same⟩ := written
      cases same
      obtain ⟨here, each⟩ := List.forall_mem_cons.1 each
      exact .cons (here chars first) (ih each rest)

/-- A value that is written begins like one and reads as itself. -/
theorem spells_valueChars {depth : Nat} {value : Toml} (plain : Plain depth value)
    {chars : List Char} (written : valueChars? value = some chars) :
    Begins chars ∧ Spells depth chars value := by
  induction plain generalizing chars with
  | string text =>
      cases written
      exact spells_stringChars _ text
  | integer n =>
      obtain ⟨some, all⟩ := isWordChar_integerChars written
      exact spells_word some all (scalar?_integer (integer?_integerChars written))
  | boolean b =>
      cases written
      cases b with
      | true | false =>
          exact spells_word (List.cons_ne_nil _ _) (List.all_eq_true.1 rfl) rfl
  | @array depth items deep plain ih =>
      simp only [valueChars?, Option.bind_eq_bind, Option.bind_eq_some_iff] at written
      obtain ⟨parts, listed, same⟩ := written
      cases same
      refine ⟨⟨'[', _, rfl, by decide, by decide⟩, ?_⟩
      intro rest fuel _ enough
      have spelled := forall₂_itemsChars (fun item member _ => ih item member) listed
      cases fuel with
      | zero => cases enough
      | succ fuel =>
          simp only [List.length_append, List.length_cons, List.length_nil] at enough
          have read := items?_joinItems spelled rest fuel (by omega)
          rw [List.append_assoc, List.cons_append, List.singleton_append, value?,
            if_neg (Nat.not_le.2 deep), read]
          rfl

end Strongroom.Toml
