import Mathlib.Data.List.Basic
import Mathlib.Data.List.DropRight
import Strongroom.Json.Parser
import Strongroom.Json.Printer

/-! # Values come back from their text

A value that is written with a line for every item reads as itself, whatever
texts and numbers are in it. Numbers that are kept as they were written are left
aside: what they read as depends on their digits.
-/

namespace Strongroom.Json

/-- A value whose numbers are all made of digits alone. -/
inductive Plain : Json → Prop where
  | null : Plain .null
  | bool (b : Bool) : Plain (.bool b)
  | whole (n : Nat) : Plain (.whole n)
  | string (text : Option String) : Plain (.string text)
  | array {items : List Json} : (∀ item ∈ items, Plain item) → Plain (.array items)
  | object {members : List (Option String × Json)} :
    (∀ member ∈ members, Plain member.2) → Plain (.object members)

section Digits

theorem eq_zero_of_toDigits {n : Nat} {rest : List Char}
    (zero : Nat.toDigits 10 n = '0' :: rest) : n = 0 := by
  induction n using Nat.strongRecOn generalizing rest with
  | ind n ih =>
      by_cases small : n < 10
      · have digit : ∀ n < 10, Nat.digitChar n = '0' → n = 0 := by decide
        rw [Nat.toDigits_of_lt_base small] at zero
        exact digit n small (List.cons.inj zero).1
      · rw [Nat.toDigits_of_base_le (by decide) (by omega)] at zero
        cases front : Nat.toDigits 10 (n / 10) with
        | nil => exact absurd front Nat.toDigits_ne_nil
        | cons c more =>
            rw [front] at zero
            obtain ⟨rfl, _⟩ := List.cons.inj zero
            have := ih (n / 10) (by omega) front
            omega

theorem decimal_toDigits (n : Nat) : decimal (Nat.toDigits 10 n) = n :=
  Nat.ofDigitChars_ten_toDigits

/-- What may stand behind a value: nothing, or a line or a comma. -/
def Ends (rest : List Char) : Prop :=
  ∀ c ∈ rest.head?, c = '\n' ∨ c = ','

/-- No digit, point or exponent is in front, so that no number goes on. -/
def Stops (rest : List Char) : Prop :=
  ∀ c ∈ rest.head?, c.isDigit = false ∧ c ≠ '.' ∧ c ≠ 'e' ∧ c ≠ 'E'

theorem Ends.stops {rest : List Char} (ends : Ends rest) : Stops rest := by
  intro c first
  rcases ends c first with rfl | rfl
  all_goals decide

theorem takeWhile_dropWhile_append {p : Char → Bool} {front rest : List Char}
    (all : ∀ c ∈ front, p c = true) (stops : ∀ c ∈ rest.head?, p c = false) :
    (front ++ rest).takeWhile p = front ∧ (front ++ rest).dropWhile p = rest := by
  have whole : rest.takeWhile p = [] ∧ rest.dropWhile p = rest := by
    cases rest with
    | nil => exact ⟨rfl, rfl⟩
    | cons c rest => simp [stops c rfl]
  rw [List.takeWhile_append_of_pos all, List.dropWhile_append_of_pos all, whole.1, whole.2]
  exact ⟨List.append_nil _, rfl⟩

theorem digits_append {ds rest : List Char} (all : ∀ d ∈ ds, d.isDigit) (stops : Stops rest) :
    digits (ds ++ rest) = (ds, rest) := by
  obtain ⟨front, behind⟩ := takeWhile_dropWhile_append all fun c first => (stops c first).1
  rw [digits, front, behind]

theorem number?_toDigits (n : Nat) {rest : List Char} (stops : Stops rest) :
    number? (Nat.toDigits 10 n ++ rest) = some (.whole n, rest) := by
  have all : ∀ d ∈ Nat.toDigits 10 n, d.isDigit := fun d member =>
    Nat.isDigit_of_mem_toDigits (by decide) (by decide) member
  have integer : integerPart? (Nat.toDigits 10 n ++ rest) = some (Nat.toDigits 10 n, rest) := by
    rw [integerPart?, digits_append all stops]
    cases n with
    | zero => rfl
    | succ n =>
        have leads (ds : List Char) : Nat.toDigits 10 (n + 1) ≠ '0' :: ds := fun zero =>
          absurd (eq_zero_of_toDigits zero) (Nat.succ_ne_zero n)
        split
        · rename_i nothing
          exact absurd (congrArg Prod.fst nothing) Nat.toDigits_ne_nil
        · rename_i zero
          exact absurd (congrArg Prod.fst zero) (leads _)
        · rename_i zero
          exact absurd (congrArg Prod.fst zero) (leads _)
        · rename_i same
          rw [same]
  have fraction : fractionPart? rest = some ([], rest) := by
    unfold fractionPart?
    split
    · exact absurd rfl (stops '.' rfl).2.1
    · rfl
  have exponent : exponentPart? rest = some ([], rest) := by
    cases rest with
    | nil => rfl
    | cons c rest =>
        obtain ⟨_, _, lower, upper⟩ := stops c rfl
        simp [exponentPart?, lower, upper]
  have unsigned : ∀ more, Nat.toDigits 10 n ++ rest ≠ '-' :: more := by
    intro more same
    cases front : Nat.toDigits 10 n with
    | nil => exact Nat.toDigits_ne_nil front
    | cons d ds =>
        rw [front] at same
        obtain ⟨rfl, _⟩ := List.cons.inj same
        have := all '-' (front ▸ List.mem_cons_self)
        cases this
  unfold number?
  split
  rename_i parts
  split at parts
  · rename_i negative
    exact absurd negative (unsigned _)
  · cases parts
    simp only [integer, fraction, exponent, Option.bind_eq_bind, Option.bind_some]
    rw [decimal_toDigits]
    rfl

end Digits

section Strings

theorem unit?_digits {n : Nat} (small : n < 32) :
    unit? '0' '0' (Hex.digitChar (n / 16)) (Hex.digitChar (n % 16)) = some n := by
  have all : ∀ n < 32,
      unit? '0' '0' (Hex.digitChar (n / 16)) (Hex.digitChar (n % 16)) = some n := by decide
  exact all n small

theorem ofNat_toNat_char (c : Char) : CodeUnit.ofNat c.toNat = .char c := by
  have valid : c.toNat < 0xD800 ∨ 0xDFFF < c.toNat ∧ c.toNat < 0x110000 := c.valid
  have leads : isLeading c.toNat = false := by
    simp only [isLeading, Bool.and_eq_false_iff, decide_eq_false_iff_not]
    omega
  have trails : isTrailing c.toNat = false := by
    simp only [isTrailing, Bool.and_eq_false_iff, decide_eq_false_iff_not]
    omega
  simp [CodeUnit.ofNat, leads, trails]

/-- A character that was escaped, or need not be, reads as itself. -/
theorem units?_escape (c : Char) {input rest : List Char} {units : List CodeUnit}
    (read : units? input = some (units, rest)) :
    units? (escape c ++ input) = some (.char c :: units, rest) := by
  unfold escape
  split
  case h_8 quote slash _ _ _ _ _ =>
    split
    · rename_i control
      have small : c.toNat < 32 := control
      simp [units?, unit?_digits small, ofNat_toNat_char, read]
    · rename_i visible
      rw [List.singleton_append]
      rw [units?.eq_def]
      split
      · rename_i same
        exact absurd (List.cons.inj same).1 quote
      · rename_i same
        exact absurd (List.cons.inj same).1 slash
      · rename_i same
        exact absurd (List.cons.inj same).1 slash
      · rename_i same
        cases same
        have allowed : ¬ (c.toNat < 0x20 || c == '\\') := by simpa [visible] using slash
        rw [if_neg allowed, read]
        rfl
      · rename_i never
        cases never
  all_goals simp [units?, escaped?, read]

theorem units?_text (text rest : List Char) :
    units? (text.flatMap escape ++ '"' :: rest) = some (text.map .char, rest) := by
  induction text with
  | nil => rfl
  | cons c text ih =>
      rw [List.flatMap_cons, List.append_assoc]
      exact units?_escape c ih

theorem join?_char (text : List Char) : join? (text.map .char) = some text := by
  induction text with
  | nil => rfl
  | cons c text ih => simp [join?, ih]

/-- A literal is a quote, and what reads as its text behind it. -/
theorem string?_literal (text : Option String) (rest : List Char) :
    ∃ inner, literal text = '"' :: inner ∧ string? (inner ++ rest) = some (text, rest) := by
  cases text with
  | none => exact ⟨_, rfl, rfl⟩
  | some text =>
      refine ⟨_, rfl, ?_⟩
      rw [List.append_assoc, string?, List.singleton_append, units?_text]
      simp [join?_char]

end Strings

section Values

@[simp] theorem skip_newLine (level : Nat) (rest : List Char) :
    skip (newLine level ++ rest) = skip rest := by
  have blanks : ∀ c ∈ newLine level, isSpace c := by
    intro c member
    rcases List.mem_cons.1 member with rfl | member
    · rfl
    · rw [(List.mem_replicate.1 member).2]
      rfl
  rw [skip, List.dropWhile_append_of_pos blanks, skip]

theorem ends_newLine (level : Nat) (rest : List Char) : Ends (newLine level ++ rest) := by
  intro c first
  cases first
  exact .inl rfl

theorem ends_comma (rest : List Char) : Ends (',' :: rest) := by
  intro c first
  cases first
  exact .inr rfl

/-- A character that a value may begin with: no blank, and no end of a list. -/
def Begins (c : Char) : Prop :=
  isSpace c = false ∧ c ≠ ']' ∧ c ≠ '\x7d'

instance (c : Char) : Decidable (Begins c) :=
  inferInstanceAs (Decidable (_ ∧ _ ∧ _))

theorem begins_of_isDigit {c : Char} (digit : c.isDigit) : Begins c := by
  have other {d : Char} (no : d.isDigit = false) : c ≠ d := by
    rintro rfl
    rw [no] at digit
    cases digit
  refine ⟨?_, other rfl, other rfl⟩
  simp [isSpace, other (d := ' ') rfl, other (d := '\n') rfl, other (d := '\t') rfl,
    other (d := '\r') rfl]

theorem begins_prettyChars {value : Json} (plain : Plain value) (level : Nat) :
    ∃ c rest, prettyChars level value = c :: rest ∧ Begins c := by
  cases plain with
  | null => exact ⟨_, _, rfl, by decide⟩
  | bool b =>
      cases b with
      | true => exact ⟨_, _, rfl, by decide⟩
      | false => exact ⟨_, _, rfl, by decide⟩
  | whole n =>
      cases front : Nat.toDigits 10 n with
      | nil => exact absurd front Nat.toDigits_ne_nil
      | cons d ds =>
          have digit : d.isDigit := Nat.isDigit_of_mem_toDigits (by decide) (by decide)
            (front ▸ List.mem_cons_self)
          exact ⟨d, ds, front, begins_of_isDigit digit⟩
  | string text =>
      obtain ⟨inner, front, _⟩ := string?_literal text []
      exact ⟨_, _, front, by decide⟩
  | @array items _ =>
      cases items with
      | nil => exact ⟨_, _, rfl, by decide⟩
      | cons item items => exact ⟨_, _, rfl, by decide⟩
  | @object members _ =>
      cases members with
      | nil => exact ⟨_, _, rfl, by decide⟩
      | cons member members => exact ⟨_, _, rfl, by decide⟩

theorem skip_of_begins {c : Char} (begins : Begins c) (rest : List Char) :
    skip (c :: rest) = c :: rest := by
  simp [skip, begins.1]

@[simp] theorem skip_skip (input : List Char) : skip (skip input) = skip input :=
  List.dropWhile_idempotent isSpace input

theorem value?_congr {a b : List Char} (same : skip a = skip b) (fuel : Nat) :
    value? fuel a = value? fuel b := by
  cases fuel with
  | zero => rfl
  | succ fuel => rw [value?, value?, same]

theorem items?_congr {a b : List Char} (same : skip a = skip b) (fuel : Nat) :
    items? fuel a = items? fuel b := by
  cases fuel with
  | zero => rfl
  | succ fuel => rw [items?, items?, value?_congr same]

theorem members?_congr {a b : List Char} (same : skip a = skip b) (fuel : Nat) :
    members? fuel a = members? fuel b := by
  cases fuel with
  | zero => rfl
  | succ fuel => rw [members?, members?, same]

/-- A value that reads as itself at every level, whatever stands behind it. -/
def Reads (value : Json) : Prop :=
  ∀ (level : Nat) (rest : List Char) (fuel : Nat), Ends rest →
    (prettyChars level value).length ≤ fuel →
      value? fuel (prettyChars level value ++ rest) = some (value, rest)

theorem value?_toDigits (n : Nat) {rest : List Char} (stops : Stops rest) (fuel : Nat) :
    value? (fuel + 1) (Nat.toDigits 10 n ++ rest) = some (.whole n, rest) := by
  have number := number?_toDigits n stops
  cases front : Nat.toDigits 10 n with
  | nil => exact absurd front Nat.toDigits_ne_nil
  | cons d ds =>
      have digit : d.isDigit := Nat.isDigit_of_mem_toDigits (by decide) (by decide)
        (front ▸ List.mem_cons_self)
      rw [front] at number
      rw [List.cons_append, value?, skip_of_begins (begins_of_isDigit digit)]
      split
      case h_7 => exact number
      all_goals
        rename_i same
        rw [(List.cons.inj same).1] at digit
        cases digit

theorem value?_literal (text : Option String) (rest : List Char) (fuel : Nat) :
    value? (fuel + 1) (literal text ++ rest) = some (.string text, rest) := by
  obtain ⟨inner, front, read⟩ := string?_literal text rest
  rw [front, List.cons_append, value?, skip_of_begins (by decide)]
  simp [read]

theorem length_literal_pos (text : Option String) : 0 < (literal text).length := by
  obtain ⟨inner, front, _⟩ := string?_literal text []
  simp [front]

theorem reads_whole (n : Nat) : Reads (.whole n) := by
  intro level rest fuel ends enough
  cases fuel with
  | zero => exact absurd (List.length_eq_zero_iff.1 (Nat.le_zero.1 enough)) Nat.toDigits_ne_nil
  | succ fuel => exact value?_toDigits n ends.stops fuel

theorem reads_string (text : Option String) : Reads (.string text) := by
  intro level rest fuel _ enough
  cases fuel with
  | zero => exact absurd enough (Nat.not_le.2 (length_literal_pos text))
  | succ fuel => exact value?_literal text rest fuel

/-- The items of an array read as themselves, up to its end. -/
theorem items?_prettyItems {items : List Json} (some : items ≠ [])
    (reads : ∀ item ∈ items, Reads item) (level : Nat) (rest : List Char) (fuel : Nat)
    (enough : (prettyItems level items).length ≤ fuel) :
    items? fuel (prettyItems level items ++ rest) = .some (items, rest) := by
  induction items generalizing fuel with
  | nil => exact absurd rfl some
  | cons item items ih =>
      have here := reads item List.mem_cons_self
      cases items with
      | nil =>
          rw [prettyItems] at enough ⊢
          simp only [List.append_assoc, List.length_append, List.length_singleton] at enough ⊢
          cases fuel with
          | zero => omega
          | succ fuel =>
              have read := here (level + 1) (newLine level ++ (']' :: rest)) fuel
                (ends_newLine _ _) (by omega)
              rw [items?, value?_congr (skip_newLine _ _), List.singleton_append, read]
              simp only [Option.bind_eq_bind, Option.bind_some, skip_newLine]
              rfl
      | cons next items =>
          have others := ih (List.cons_ne_nil _ _) fun item member =>
            reads item (List.mem_cons_of_mem _ member)
          have layout : prettyItems level (item :: next :: items) = newLine (level + 1) ++
              prettyChars (level + 1) item ++ ',' :: prettyItems level (next :: items) := rfl
          rw [layout] at enough ⊢
          simp only [List.append_assoc, List.length_append, List.length_cons] at enough ⊢
          cases fuel with
          | zero => omega
          | succ fuel =>
              have read := here (level + 1)
                (',' :: (prettyItems level (next :: items) ++ rest)) fuel (ends_comma _) (by omega)
              rw [items?, value?_congr (skip_newLine _ _), List.cons_append, read]
              simp only [Option.bind_eq_bind, Option.bind_some]
              rw [skip_of_begins (by decide)]
              simp [others fuel (by omega)]

/-- A member is read up to what stands behind its value. -/
theorem members?_member (name : Option String) {value : Json} {chars rest : List Char} {fuel : Nat}
    (read : value? fuel chars = some (value, rest)) :
    members? (fuel + 1) (literal name ++ ':' :: chars) =
      match skip rest with
      | '\x7d' :: rest => some ([(name, value)], rest)
      | ',' :: rest =>
        (members? fuel rest).map fun (members, rest) => ((name, value) :: members, rest)
      | _ => none := by
  obtain ⟨inner, front, text⟩ := string?_literal name (':' :: chars)
  rw [members?, front, List.cons_append, skip_of_begins (by decide)]
  simp only [text, Option.bind_eq_bind, Option.bind_some]
  rw [skip_of_begins (by decide)]
  change (value? fuel chars).bind _ = _
  rw [read]
  rfl

theorem members?_prettyMember (name : Option String) {value : Json} (reads : Reads value)
    (level fuel : Nat) {rest : List Char} (ends : Ends rest)
    (enough : (prettyChars level value).length ≤ fuel) :
    members? (fuel + 1)
        (newLine level ++ (literal name ++ (':' :: ' ' :: (prettyChars level value ++ rest)))) =
      match skip rest with
      | '\x7d' :: rest => some ([(name, value)], rest)
      | ',' :: rest =>
        (members? fuel rest).map fun (members, rest) => ((name, value) :: members, rest)
      | _ => none := by
  have blank : skip (' ' :: (prettyChars level value ++ rest)) =
      skip (prettyChars level value ++ rest) := rfl
  have read := reads level rest fuel ends enough
  rw [← value?_congr blank] at read
  rw [members?_congr (skip_newLine _ _)]
  exact members?_member name read

theorem members?_prettyMembers {members : List (Option String × Json)} (some : members ≠ [])
    (reads : ∀ member ∈ members, Reads member.2) (level : Nat) (rest : List Char) (fuel : Nat)
    (enough : (prettyMembers level members).length ≤ fuel) :
    members? fuel (prettyMembers level members ++ rest) = .some (members, rest) := by
  induction members generalizing fuel with
  | nil => exact absurd rfl some
  | cons member members ih =>
      obtain ⟨name, value⟩ := member
      have here : Reads value := reads _ List.mem_cons_self
      cases members with
      | nil =>
          rw [prettyMembers] at enough ⊢
          simp only [List.append_assoc, List.cons_append, List.length_append, List.length_cons,
            List.nil_append] at enough ⊢
          cases fuel with
          | zero => omega
          | succ fuel =>
              rw [members?_prettyMember name here (level + 1) fuel (ends_newLine _ _) (by omega),
                skip_newLine]
              rfl
      | cons next members =>
          have others := ih (List.cons_ne_nil _ _) fun member inside =>
            reads member (List.mem_cons_of_mem _ inside)
          have layout : prettyMembers level ((name, value) :: next :: members) =
              newLine (level + 1) ++ literal name ++ ':' :: ' ' :: prettyChars (level + 1) value ++
                ',' :: prettyMembers level (next :: members) := rfl
          rw [layout] at enough ⊢
          simp only [List.append_assoc, List.cons_append, List.length_append,
            List.length_cons] at enough ⊢
          cases fuel with
          | zero => omega
          | succ fuel =>
              rw [members?_prettyMember name here (level + 1) fuel (ends_comma _) (by omega),
                skip_of_begins (by decide)]
              simp [others fuel (by omega)]

theorem value?_array {body more : List Char} {c : Char} (first : skip body = c :: more)
    (goesOn : c ≠ ']') (fuel : Nat) :
    value? (fuel + 1) ('[' :: body) =
      (items? fuel body).map fun (items, rest) => (.array items, rest) := by
  have same : items? fuel (c :: more) = items? fuel body :=
    items?_congr (by rw [← first, skip_skip]) fuel
  rw [value?, skip_of_begins (by decide)]
  simp only [first]
  split
  · rename_i ends
    exact absurd (List.cons.inj ends).1 goesOn
  · rw [same]

theorem value?_object {body more : List Char} {c : Char} (first : skip body = c :: more)
    (goesOn : c ≠ '\x7d') (fuel : Nat) :
    value? (fuel + 1) ('\x7b' :: body) =
      (members? fuel body).map fun (members, rest) => (.object members, rest) := by
  have same : members? fuel (c :: more) = members? fuel body :=
    members?_congr (by rw [← first, skip_skip]) fuel
  rw [value?, skip_of_begins (by decide)]
  simp only [first]
  split
  · rename_i ends
    exact absurd (List.cons.inj ends).1 goesOn
  · rw [same]

theorem skip_prettyItems {item : Json} (plain : Plain item) (items : List Json) (level : Nat)
    (rest : List Char) :
    ∃ c more, skip (prettyItems level (item :: items) ++ rest) = c :: more ∧ Begins c := by
  obtain ⟨c, more, front, begins⟩ := begins_prettyChars plain (level + 1)
  cases items with
  | nil | cons next items =>
      simp only [prettyItems, front, List.append_assoc, List.cons_append, skip_newLine,
        skip_of_begins begins]
      exact ⟨_, _, rfl, begins⟩

theorem skip_prettyMembers (member : Option String × Json) (members : List (Option String × Json))
    (level : Nat) (rest : List Char) :
    ∃ c more, skip (prettyMembers level (member :: members) ++ rest) = c :: more ∧ Begins c := by
  obtain ⟨inner, front, _⟩ := string?_literal member.1 []
  have begins : Begins '"' := by decide
  cases members with
  | nil | cons next members =>
      simp only [prettyMembers, front, List.append_assoc, List.cons_append, skip_newLine,
        skip_of_begins begins]
      exact ⟨_, _, rfl, begins⟩

theorem reads_of_plain {value : Json} (plain : Plain value) : Reads value := by
  induction plain with
  | null =>
      intro level rest fuel _ enough
      cases fuel with
      | zero => cases enough
      | succ fuel => rfl
  | bool b =>
      intro level rest fuel _ enough
      cases b with
      | true | false =>
          cases fuel with
          | zero => cases enough
          | succ fuel => rfl
  | whole n => exact reads_whole n
  | string text => exact reads_string text
  | @array items plain reads =>
      intro level rest fuel _ enough
      cases fuel with
      | zero => cases items <;> cases enough
      | succ fuel =>
          cases items with
          | nil => rfl
          | cons item items =>
              rw [prettyChars] at enough ⊢
              obtain ⟨c, more, first, begins⟩ :=
                skip_prettyItems (plain item List.mem_cons_self) items level rest
              have read := items?_prettyItems (List.cons_ne_nil item items) reads level rest fuel
                (Nat.le_of_succ_le_succ enough)
              rw [List.cons_append, value?_array first begins.2.1, read]
              rfl
  | @object members plain reads =>
      intro level rest fuel _ enough
      cases fuel with
      | zero => cases members <;> cases enough
      | succ fuel =>
          cases members with
          | nil => rfl
          | cons member members =>
              rw [prettyChars] at enough ⊢
              obtain ⟨c, more, first, begins⟩ := skip_prettyMembers member members level rest
              have read := members?_prettyMembers (List.cons_ne_nil member members) reads level rest
                fuel (Nat.le_of_succ_le_succ enough)
              rw [List.cons_append, value?_object first begins.2.2, read]
              rfl

end Values

/-- A value that is written with a line for every item reads as itself. -/
theorem parse?_pretty {value : Json} (plain : Plain value) : parse? value.pretty = some value := by
  have read := reads_of_plain plain 0 [] (2 * (prettyChars 0 value).length + 2)
    (fun _ none => by cases none) (by omega)
  rw [List.append_nil] at read
  rw [pretty, parse?, String.toList_ofList]
  simp only [read, Option.bind_eq_bind, Option.bind_some]
  rfl

end Strongroom.Json
