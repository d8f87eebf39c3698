import Strongroom.Proofs.Json.RoundTrip

/-! # Texts that are cut

What is read in front of something is read there whatever comes behind it. A
number alone may go on. So of an object nothing less than its whole text reads.
-/

namespace Strongroom.Json

variable {input rest : List Char}

section Numbers

theorem digits_of_left {ds : List Char} (read : digits input = (ds, rest)) (left : rest ≠ [])
    (more : List Char) : digits (input ++ more) = (ds, rest ++ more) := by
  have parts := List.takeWhile_append_dropWhile (p := Char.isDigit) (l := input)
  obtain ⟨rfl, rfl⟩ := Prod.mk.inj read
  have stops : (input.dropWhile Char.isDigit).isEmpty = false := by simpa using left
  have shorter : (input.takeWhile Char.isDigit).length ≠ input.length := by
    intro same
    have whole := congrArg List.length parts
    rw [List.length_append, same] at whole
    exact left (List.eq_nil_of_length_eq_zero (by omega))
  rw [digits, List.takeWhile_append, if_neg shorter, List.dropWhile_append, stops]
  rfl

/-- Digits that may stand before the point. -/
def LeadsWell (ds : List Char) : Prop :=
  ds ≠ [] ∧ ∀ more, ds = '0' :: more → more = []

theorem integerPart?_eq_some {ds : List Char} :
    integerPart? input = some (ds, rest) ↔ digits input = (ds, rest) ∧ LeadsWell ds := by
  unfold integerPart? LeadsWell
  split
  · grind
  · grind
  · grind
  · grind

theorem integerPart?_append {ds : List Char} (read : integerPart? input = some (ds, rest))
    (left : rest ≠ []) (more : List Char) :
    integerPart? (input ++ more) = some (ds, rest ++ more) := by
  obtain ⟨found, leads⟩ := integerPart?_eq_some.1 read
  exact integerPart?_eq_some.2 ⟨digits_of_left found left more, leads⟩

theorem fractionPart?_cons (c : Char) (input : List Char) :
    fractionPart? (c :: input) =
      if c = '.' then
        if (digits input).1 = [] then none else some ('.' :: (digits input).1, (digits input).2)
      else some ([], c :: input) := by
  unfold fractionPart?
  split
  · rename_i point
    obtain ⟨rfl, rfl⟩ := List.cons.inj point
    rw [if_pos rfl]
    rcases digits input with ⟨_ | _, _⟩
    · rfl
    · rfl
  · rename_i none
    rw [if_neg]
    rintro rfl
    exact none input rfl

theorem fractionPart?_append {ds : List Char} (read : fractionPart? input = some (ds, rest))
    (left : rest ≠ []) (more : List Char) :
    fractionPart? (input ++ more) = some (ds, rest ++ more) := by
  cases input with
  | nil =>
      cases read
      exact absurd rfl left
  | cons c input =>
      rw [fractionPart?_cons] at read
      rw [List.cons_append, fractionPart?_cons]
      split at read
      · rename_i point
        split at read
        · cases read
        · rename_i some
          cases read
          rw [if_pos point, digits_of_left (Prod.eta _).symm left more, if_neg some]
      · rename_i none
        cases read
        exact if_neg none

theorem exponentPart?_cons (c : Char) (input : List Char) :
    exponentPart? (c :: input) =
      if c = 'e' ∨ c = 'E' then
        if (digits (exponentSign input).2).1 = [] then none
        else some (c :: ((exponentSign input).1 ++ (digits (exponentSign input).2).1),
          (digits (exponentSign input).2).2)
      else some ([], c :: input) := by
  unfold exponentPart?
  simp only [Bool.or_eq_true, beq_iff_eq]
  split
  · rcases digits (exponentSign input).2 with ⟨_ | _, _⟩
    · rfl
    · rfl
  · rfl

theorem exponentSign_append (some : input ≠ []) (more : List Char) :
    exponentSign (input ++ more) = ((exponentSign input).1, (exponentSign input).2 ++ more) := by
  have unsigned {input : List Char} (plus : ∀ rest, input ≠ '+' :: rest)
      (minus : ∀ rest, input ≠ '-' :: rest) : exponentSign input = ([], input) := by
    unfold exponentSign
    split
    · exact absurd rfl (plus _)
    · exact absurd rfl (minus _)
    · rfl
  cases input with
  | nil => exact absurd rfl some
  | cons c input =>
      by_cases plus : c = '+'
      · subst plus
        rfl
      · by_cases minus : c = '-'
        · subst minus
          rfl
        · rw [List.cons_append, unsigned, unsigned]
          · rfl
          all_goals simp [plus, minus]

theorem exponentPart?_append {ds : List Char} (read : exponentPart? input = some (ds, rest))
    (left : rest ≠ []) (more : List Char) :
    exponentPart? (input ++ more) = some (ds, rest ++ more) := by
  cases input with
  | nil =>
      cases read
      exact absurd rfl left
  | cons c input =>
      rw [exponentPart?_cons] at read
      rw [List.cons_append, exponentPart?_cons]
      split at read
      · rename_i begun
        split at read
        · cases read
        · rename_i some
          have signed : input ≠ [] := by
            rintro rfl
            exact some rfl
          cases read
          rw [if_pos begun, exponentSign_append signed,
            digits_of_left (Prod.eta _).symm left more, if_neg some]
      · rename_i none
        cases read
        exact if_neg none

/-- The sign in front of a number, and what follows it. -/
def signed (input : List Char) : List Char × List Char :=
  match input with
  | '-' :: rest => (['-'], rest)
  | _ => ([], input)

theorem signed_of_ne {c : Char} (none : c ≠ '-') (input : List Char) :
    signed (c :: input) = ([], c :: input) := by
  unfold signed
  split
  · rename_i same
    exact absurd (List.cons.inj same).1 none
  · rfl

/-- The value of a number, by its parts. -/
def ofParts (sign integer fraction exponent : List Char) : Json :=
  if sign.isEmpty && fraction.isEmpty && exponent.isEmpty then .whole (decimal integer)
  else .number (String.ofList (sign ++ integer ++ fraction ++ exponent))

theorem number?_eq_some {value : Json} :
    number? input = some (value, rest) ↔
      ∃ integer fraction exponent behind further,
        integerPart? (signed input).2 = some (integer, behind) ∧
          fractionPart? behind = some (fraction, further) ∧
            exponentPart? further = some (exponent, rest) ∧
              ofParts (signed input).1 integer fraction exponent = value := by
  unfold number?
  split
  rename_i sign unsigned parts
  have parts : signed input = (sign, unsigned) := parts
  rw [parts]
  have built (integer fraction exponent further : List Char) :
      (if sign.isEmpty && fraction.isEmpty && exponent.isEmpty then
          (pure (.whole (decimal integer), further) : Option (Json × List Char))
        else pure (.number (String.ofList (sign ++ integer ++ fraction ++ exponent)), further)) =
        some (ofParts sign integer fraction exponent, further) := by
    unfold ofParts
    split
    · rfl
    · rfl
  simp only [Option.bind_eq_bind, Option.bind_eq_some_iff, Prod.exists, built, Option.some.injEq,
    Prod.mk.injEq]
  constructor
  · rintro ⟨integer, behind, first, fraction, further, second, exponent, _, third, rfl, rfl⟩
    exact ⟨integer, fraction, exponent, behind, further, first, second, third, rfl⟩
  · rintro ⟨integer, fraction, exponent, behind, further, first, second, third, rfl⟩
    exact ⟨integer, behind, first, fraction, further, second, exponent, _, third, rfl, rfl⟩

/-- A number with something behind it does not go on. -/
theorem number?_append {value : Json} (read : number? input = some (value, rest))
    (left : rest ≠ []) (more : List Char) :
    number? (input ++ more) = some (value, rest ++ more) := by
  obtain ⟨integer, fraction, exponent, behind, further, first, second, third, built⟩ :=
    number?_eq_some.1 read
  have left' : further ≠ [] := by
    rintro rfl
    cases third
    exact left rfl
  have left'' : behind ≠ [] := by
    rintro rfl
    cases second
    exact left' rfl
  have signs : signed (input ++ more) = ((signed input).1, (signed input).2 ++ more) := by
    cases input with
    | nil => cases first
    | cons c input =>
        by_cases minus : c = '-'
        · subst minus
          rfl
        · rw [List.cons_append, signed_of_ne minus, signed_of_ne minus]
          rfl
  refine number?_eq_some.2 ⟨integer, fraction, exponent, behind ++ more, further ++ more, ?_,
    fractionPart?_append second left' more, exponentPart?_append third left more, ?_⟩
  · rw [signs]
    exact integerPart?_append first left'' more
  · rw [signs]
    exact built

theorem begins_of_number? {value : Json} {c : Char}
    (read : number? (c :: input) = some (value, rest)) : c = '-' ∨ c.isDigit := by
  obtain ⟨integer, _, _, behind, _, first, _⟩ := number?_eq_some.1 read
  by_cases minus : c = '-'
  · exact .inl minus
  · right
    rw [signed_of_ne minus] at first
    obtain ⟨found, some, _⟩ := integerPart?_eq_some.1 first
    by_contra none
    rw [digits, List.takeWhile_cons_of_neg none] at found
    exact some (Prod.mk.inj found).1.symm

end Numbers

section Values

theorem units?_append {units : List CodeUnit} (read : units? input = some (units, rest))
    (more : List Char) : units? (input ++ more) = some (units, rest ++ more) := by
  fun_induction units? input generalizing units with
  | case1 tail =>
      cases read
      rfl
  | case2 a b c d tail ih =>
      simp only [Option.bind_eq_bind, Option.bind_eq_some_iff] at read
      obtain ⟨n, unit, ⟨units, behind⟩, further, same⟩ := read
      cases same
      simp [units?, unit, ih further]
  | case3 c tail _ ih =>
      simp only [Option.bind_eq_bind, Option.bind_eq_some_iff] at read
      obtain ⟨c', escaped, ⟨units, behind⟩, further, same⟩ := read
      cases same
      have other : c ≠ 'u' := by
        rintro rfl
        cases escaped
      simp [units?, other, escaped, ih further]
  | case4 => cases read
  | case5 c tail quote _ _ plain ih =>
      simp only [Option.bind_eq_bind, Option.bind_eq_some_iff] at read
      obtain ⟨⟨units, behind⟩, further, same⟩ := read
      cases same
      have slash : c ≠ '\\' := by
        rintro rfl
        exact plain rfl
      simp_all [units?]
  | case6 => cases read

theorem string?_append {text : Option String} (read : string? input = some (text, rest))
    (more : List Char) : string? (input ++ more) = some (text, rest ++ more) := by
  simp only [string?, Option.bind_eq_bind, Option.bind_eq_some_iff] at read ⊢
  obtain ⟨⟨units, behind⟩, further, same⟩ := read
  cases same
  exact ⟨_, units?_append further more, rfl⟩

theorem skip_append {c : Char} (first : skip input = c :: rest) (more : List Char) :
    skip (input ++ more) = c :: (rest ++ more) := by
  have stops : (input.dropWhile isSpace).isEmpty = false := by
    rw [show input.dropWhile isSpace = c :: rest from first]
    rfl
  rw [skip, List.dropWhile_append, stops]
  exact congrArg (· ++ more) first

theorem value?_nil (fuel : Nat) : value? fuel [] = none := by
  cases fuel with
  | zero | succ fuel => rfl

theorem items?_nil (fuel : Nat) : items? fuel [] = none := by
  cases fuel with
  | zero => rfl
  | succ fuel => rw [items?, value?_nil]; rfl

theorem members?_nil (fuel : Nat) : members? fuel [] = none := by
  cases fuel with
  | zero | succ fuel => rfl

/-- What is read with some fuel is read with more of it, whatever comes behind. Only a
    number may go on if nothing is left behind it. -/
structure Stays (fuel : Nat) : Prop where
  value {input rest : List Char} {value : Json} :
    value? fuel input = some (value, rest) → rest ≠ [] →
      ∀ more fuel', fuel ≤ fuel' → value? fuel' (input ++ more) = some (value, rest ++ more)
  items {input rest : List Char} {items : List Json} :
    items? fuel input = some (items, rest) →
      ∀ more fuel', fuel ≤ fuel' → items? fuel' (input ++ more) = some (items, rest ++ more)
  members {input rest : List Char} {members : List (Option String × Json)} :
    members? fuel input = some (members, rest) →
      ∀ more fuel', fuel ≤ fuel' → members? fuel' (input ++ more) = some (members, rest ++ more)

theorem Stays.array {fuel : Nat} (stays : Stays fuel) {value : Json}
    (read : value? (fuel + 1) ('[' :: input) = some (value, rest)) (more : List Char)
    {fuel' : Nat} (enough : fuel ≤ fuel') :
    value? (fuel' + 1) ('[' :: (input ++ more)) = some (value, rest ++ more) := by
  cases first : skip input with
  | nil =>
      rw [value?, skip_of_begins (by decide)] at read
      simp only [first, items?_nil] at read
      cases read
  | cons c body =>
      have first' := skip_append first more
      by_cases closed : c = ']'
      · subst closed
        rw [value?, skip_of_begins (by decide)] at read ⊢
        simp only [first, first'] at read ⊢
        cases read
        rfl
      · rw [value?_array first closed] at read
        obtain ⟨⟨items, further⟩, inner, same⟩ := Option.map_eq_some_iff.1 read
        cases same
        rw [value?_array first' closed, stays.items inner more fuel' enough]
        rfl

theorem Stays.object {fuel : Nat} (stays : Stays fuel) {value : Json}
    (read : value? (fuel + 1) ('\x7b' :: input) = some (value, rest)) (more : List Char)
    {fuel' : Nat} (enough : fuel ≤ fuel') :
    value? (fuel' + 1) ('\x7b' :: (input ++ more)) = some (value, rest ++ more) := by
  cases first : skip input with
  | nil =>
      rw [value?, skip_of_begins (by decide)] at read
      simp only [first, members?_nil] at read
      cases read
  | cons c body =>
      have first' := skip_append first more
      by_cases closed : c = '\x7d'
      · subst closed
        rw [value?, skip_of_begins (by decide)] at read ⊢
        simp only [first, first'] at read ⊢
        cases read
        rfl
      · rw [value?_object first closed] at read
        obtain ⟨⟨members, further⟩, inner, same⟩ := Option.map_eq_some_iff.1 read
        cases same
        rw [value?_object first' closed, stays.members inner more fuel' enough]
        rfl

theorem Stays.value_succ {fuel : Nat} (stays : Stays fuel) {value : Json}
    (read : value? (fuel + 1) input = some (value, rest)) (left : rest ≠ []) (more : List Char)
    {fuel' : Nat} (enough : fuel ≤ fuel') :
    value? (fuel' + 1) (input ++ more) = some (value, rest ++ more) := by
  have whole := read
  rw [value?] at read
  split at read
  case h_1 first | h_2 first | h_3 first =>
      cases read
      rw [value?, skip_append first]
      rfl
  case h_4 behind first =>
      obtain ⟨⟨text, further⟩, string, same⟩ := Option.map_eq_some_iff.1 read
      cases same
      rw [value?, skip_append first]
      simp only [string?_append string more]
      rfl
  case h_5 behind first =>
      have bare : skip ('[' :: behind) = skip input := by rw [← first, skip_skip]
      have bare' : skip ('[' :: (behind ++ more)) = skip (input ++ more) := by
        rw [← skip_append first, skip_skip]
      rw [← value?_congr bare] at whole
      rw [← value?_congr bare']
      exact stays.array whole more enough
  case h_6 behind first =>
      have bare : skip ('\x7b' :: behind) = skip input := by rw [← first, skip_skip]
      have bare' : skip ('\x7b' :: (behind ++ more)) = skip (input ++ more) := by
        rw [← skip_append first, skip_skip]
      rw [← value?_congr bare] at whole
      rw [← value?_congr bare']
      exact stays.object whole more enough
  case h_7 =>
      cases first : skip input with
      | nil =>
          rw [first] at read
          cases read
      | cons c body =>
          rw [first] at read
          have begins := begins_of_number? read
          rw [value?, skip_append first]
          split
          case h_7 => exact number?_append read left more
          all_goals
            rename_i same
            obtain ⟨rfl, _⟩ := List.cons.inj same
            rcases begins with never | never
            · cases never
            · cases never

theorem Stays.items_succ {fuel : Nat} (stays : Stays fuel) {items : List Json}
    (read : items? (fuel + 1) input = some (items, rest)) (more : List Char)
    {fuel' : Nat} (enough : fuel ≤ fuel') :
    items? (fuel' + 1) (input ++ more) = some (items, rest ++ more) := by
  rw [items?] at read ⊢
  simp only [Option.bind_eq_bind, Option.bind_eq_some_iff] at read ⊢
  obtain ⟨⟨item, behind⟩, first, read⟩ := read
  dsimp only at read
  have left : behind ≠ [] := by
    rintro rfl
    cases read
  refine ⟨_, stays.value first left more fuel' enough, ?_⟩
  dsimp only
  split at read
  · rename_i closed
    cases read
    rw [skip_append closed]
    rfl
  · rename_i goesOn
    obtain ⟨⟨others, further⟩, inner, same⟩ := Option.map_eq_some_iff.1 read
    cases same
    rw [skip_append goesOn]
    simp only [stays.items inner more fuel' enough]
    rfl
  · cases read

theorem Stays.members_succ {fuel : Nat} (stays : Stays fuel)
    {members : List (Option String × Json)}
    (read : members? (fuel + 1) input = some (members, rest)) (more : List Char)
    {fuel' : Nat} (enough : fuel ≤ fuel') :
    members? (fuel' + 1) (input ++ more) = some (members, rest ++ more) := by
  rw [members?] at read ⊢
  split at read
  · rename_i quoted first
    rw [skip_append first]
    simp only [Option.bind_eq_bind, Option.bind_eq_some_iff] at read ⊢
    obtain ⟨⟨name, behind⟩, text, read⟩ := read
    refine ⟨_, string?_append text more, ?_⟩
    dsimp only at read ⊢
    split at read
    · rename_i colon
      rw [skip_append colon]
      simp only [Option.bind_eq_some_iff] at read ⊢
      obtain ⟨⟨value, further⟩, second, read⟩ := read
      have left : further ≠ [] := by
        rintro rfl
        cases read
      refine ⟨_, stays.value second left more fuel' enough, ?_⟩
      dsimp only at read ⊢
      split at read
      · rename_i closed
        cases read
        rw [skip_append closed]
        rfl
      · rename_i goesOn
        obtain ⟨⟨others, last⟩, inner, same⟩ := Option.map_eq_some_iff.1 read
        cases same
        rw [skip_append goesOn]
        simp only [stays.members inner more fuel' enough]
        rfl
      · cases read
    · cases read
  · cases read

theorem stays (fuel : Nat) : Stays fuel := by
  induction fuel with
  | zero =>
      refine ⟨fun never => ?_, fun never => ?_, fun never => ?_⟩
      all_goals cases never
  | succ fuel ih =>
      have spent {fuel' : Nat} (enough : fuel + 1 ≤ fuel') :
          ∃ less, fuel' = less + 1 ∧ fuel ≤ less :=
        ⟨fuel' - 1, by omega, by omega⟩
      refine ⟨fun read left more fuel' enough => ?_, fun read more fuel' enough => ?_,
        fun read more fuel' enough => ?_⟩
      · obtain ⟨less, rfl, enough'⟩ := spent enough
        exact ih.value_succ read left more enough'
      · obtain ⟨less, rfl, enough'⟩ := spent enough
        exact ih.items_succ read more enough'
      · obtain ⟨less, rfl, enough'⟩ := spent enough
        exact ih.members_succ read more enough'

/-- Of the text of an object nothing less than the whole reads. -/
theorem parse?_eq_none_of_cut {members : List (Option String × Json)}
    (plain : Plain (.object members)) {cut lost : List Char}
    (whole : cut ++ lost = prettyChars 0 (.object members)) (some : lost ≠ []) :
    parse? (String.ofList cut) = none := by
  by_contra read
  obtain ⟨value, read⟩ := Option.ne_none_iff_exists'.1 read
  rw [parse?, String.toList_ofList] at read
  simp only [Option.bind_eq_bind, Option.bind_eq_some_iff] at read
  obtain ⟨⟨value, rest⟩, read, _⟩ := read
  obtain ⟨body, opens⟩ : ∃ body, prettyChars 0 (.object members) = '\x7b' :: body := by
    cases members with
    | nil | cons member members => exact ⟨_, rfl⟩
  cases cut with
  | nil =>
      rw [value?_nil] at read
      cases read
  | cons c cut =>
      obtain ⟨rfl, _⟩ := List.cons.inj (whole.trans opens)
      have more := (stays _).object read lost
        (Nat.le_add_right _ (prettyChars 0 (.object members)).length)
      have again := reads_of_plain plain 0 []
        (2 * ('\x7b' :: cut).length + 1 + (prettyChars 0 (.object members)).length + 1)
        (fun _ none => by cases none) (by omega)
      rw [List.append_nil, ← whole, List.cons_append] at again
      rw [← whole, List.cons_append, again] at more
      obtain ⟨_, nothing⟩ := List.append_eq_nil_iff.1 (Prod.mk.inj (Option.some.inj more)).2.symm
      exact some nothing

end Values

end Strongroom.Json
