import Strongroom.Proofs.Json.RoundTrip

/-! # Values come back without blanks

What was said of the layout with a line for every item holds of the one without
blanks. Brackets and braces stand right behind a number there, so more may follow
a value than a line or a comma.
-/

namespace Strongroom.Json

/-- A text that reads as a value, whatever stands behind that ends a number. -/
def Spells (chars : List Char) (value : Json) : Prop :=
  ∀ (rest : List Char) (fuel : Nat), Stops rest → chars.length ≤ fuel →
    value? fuel (chars ++ rest) = some (value, rest)

/-- Both layouts of a value begin alike. -/
theorem head?_compactChars (value : Json) (level : Nat) :
    (compactChars value).head? = (prettyChars level value).head? := by
  cases value with
  | null | whole n | number literal | string text => rfl
  | bool b => cases b <;> rfl
  | array items => cases items <;> rfl
  | object members => cases members <;> rfl

theorem begins_compactChars {value : Json} (plain : Plain value) :
    ∃ c rest, compactChars value = c :: rest ∧ Begins c := by
  obtain ⟨c, more, front, begins⟩ := begins_prettyChars plain 0
  have first := head?_compactChars value 0
  rw [front] at first
  obtain ⟨rest, same⟩ := List.head?_eq_some_iff.1 first
  exact ⟨c, rest, same, begins⟩

section Lists

theorem stops_cons {c : Char} (ends : c = ',' ∨ c = ']' ∨ c = '\x7d') (rest : List Char) :
    Stops (c :: rest) := by
  intro d first
  cases first
  rcases ends with rfl | rfl | rfl
  all_goals decide

theorem items?_compactItems {items : List Json} (some : items ≠ [])
    (spelled : ∀ item ∈ items, Spells (compactChars item) item) (rest : List Char) (fuel : Nat)
    (enough : (compactItems items).length ≤ fuel) :
    items? fuel (compactItems items ++ rest) = .some (items, rest) := by
  induction items generalizing fuel with
  | nil => exact absurd rfl some
  | cons item items ih =>
      have here := spelled item List.mem_cons_self
      cases items with
      | nil =>
          simp only [compactItems, List.append_assoc, List.length_append, List.singleton_append,
            List.length_singleton] at enough ⊢
          cases fuel with
          | zero => omega
          | succ fuel =>
              have read := here (']' :: rest) fuel (stops_cons (by decide) _) (by omega)
              rw [items?, read]
              rfl
      | cons next items =>
          have layout : compactItems (item :: next :: items) =
              compactChars item ++ ',' :: compactItems (next :: items) := rfl
          rw [layout] at enough ⊢
          simp only [List.append_assoc, List.length_append, List.cons_append,
            List.length_cons] at enough ⊢
          cases fuel with
          | zero => omega
          | succ fuel =>
              have read := here (',' :: (compactItems (next :: items) ++ rest)) fuel
                (stops_cons (by decide) _) (by omega)
              have others := ih (List.cons_ne_nil _ _)
                (fun item member => spelled item (List.mem_cons_of_mem _ member)) fuel (by omega)
              rw [items?, read]
              simp only [Option.bind_eq_bind, Option.bind_some]
              rw [skip_of_begins (by decide)]
              simp [others]

theorem members?_compactMembers {members : List (Option String × Json)} (some : members ≠ [])
    (spelled : ∀ member ∈ members, Spells (compactChars member.2) member.2) (rest : List Char)
    (fuel : Nat) (enough : (compactMembers members).length ≤ fuel) :
    members? fuel (compactMembers members ++ rest) = .some (members, rest) := by
  induction members generalizing fuel with
  | nil => exact absurd rfl some
  | cons member members ih =>
      obtain ⟨name, value⟩ := member
      have here : Spells (compactChars value) value := spelled _ List.mem_cons_self
      cases members with
      | nil =>
          simp only [compactMembers, List.append_assoc, List.cons_append, List.length_append,
            List.length_cons, List.nil_append] at enough ⊢
          cases fuel with
          | zero => omega
          | succ fuel =>
              have read := here ('\x7d' :: rest) fuel (stops_cons (by decide) _) (by omega)
              rw [members?_member name read]
              rfl
      | cons next members =>
          have layout : compactMembers ((name, value) :: next :: members) =
              literal name ++ ':' :: compactChars value ++
                ',' :: compactMembers (next :: members) := rfl
          rw [layout] at enough ⊢
          simp only [List.append_assoc, List.cons_append, List.length_append,
            List.length_cons] at enough ⊢
          cases fuel with
          | zero => omega
          | succ fuel =>
              have others := ih (List.cons_ne_nil _ _)
                (fun member inside => spelled member (List.mem_cons_of_mem _ inside)) fuel
                (by omega)
              have read := here (',' :: (compactMembers (next :: members) ++ rest)) fuel
                (stops_cons (by decide) _) (by omega)
              rw [members?_member name read, skip_of_begins (by decide)]
              simp [others]

theorem skip_compactItems {item : Json} (plain : Plain item) (items : List Json)
    (rest : List Char) :
    ∃ c more, skip (compactItems (item :: items) ++ rest) = c :: more ∧ Begins c := by
  obtain ⟨c, more, front, begins⟩ := begins_compactChars plain
  cases items with
  | nil | cons next items =>
      simp only [compactItems, front, List.append_assoc, List.cons_append, skip_of_begins begins]
      exact ⟨_, _, rfl, begins⟩

theorem skip_compactMembers (member : Option String × Json)
    (members : List (Option String × Json)) (rest : List Char) :
    ∃ c more, skip (compactMembers (member :: members) ++ rest) = c :: more ∧ Begins c := by
  obtain ⟨inner, front, _⟩ := string?_literal member.1 []
  have begins : Begins '"' := by decide
  cases members with
  | nil | cons next members =>
      simp only [compactMembers, front, List.append_assoc, List.cons_append, skip_of_begins begins]
      exact ⟨_, _, rfl, begins⟩

end Lists

theorem spells_compactChars {value : Json} (plain : Plain value) :
    Spells (compactChars value) value := by
  induction plain with
  | null =>
      intro rest fuel _ enough
      cases fuel with
      | zero => cases enough
      | succ fuel => rfl
  | bool b =>
      intro rest fuel _ enough
      cases b with
      | true | false =>
          cases fuel with
          | zero => cases enough
          | succ fuel => rfl
  | whole n =>
      intro rest fuel stops enough
      cases fuel with
      | zero => exact absurd (List.length_eq_zero_iff.1 (Nat.le_zero.1 enough)) Nat.toDigits_ne_nil
      | succ fuel => exact value?_toDigits n stops fuel
  | string text =>
      intro rest fuel _ enough
      cases fuel with
      | zero => exact absurd enough (Nat.not_le.2 (length_literal_pos text))
      | succ fuel => exact value?_literal text rest fuel
  | @array items plain spelled =>
      intro rest fuel _ enough
      cases fuel with
      | zero => cases enough
      | succ fuel =>
          cases items with
          | nil => rfl
          | cons item items =>
              obtain ⟨c, more, first, begins⟩ :=
                skip_compactItems (plain item List.mem_cons_self) items rest
              have read := items?_compactItems (List.cons_ne_nil item items) spelled rest fuel
                (Nat.le_of_succ_le_succ enough)
              rw [compactChars, List.cons_append, value?_array first begins.2.1, read]
              rfl
  | @object members plain spelled =>
      intro rest fuel _ enough
      cases fuel with
      | zero => cases enough
      | succ fuel =>
          cases members with
          | nil => rfl
          | cons member members =>
              obtain ⟨c, more, first, begins⟩ := skip_compactMembers member members rest
              have read := members?_compactMembers (List.cons_ne_nil member members) spelled rest
                fuel (Nat.le_of_succ_le_succ enough)
              rw [compactChars, List.cons_append, value?_object first begins.2.2, read]
              rfl

/-- A value that is written without blanks reads as itself. -/
theorem parse?_compact {value : Json} (plain : Plain value) :
    parse? value.compact = some value := by
  have read := spells_compactChars plain [] (2 * (compactChars value).length + 2)
    (fun _ none => by cases none) (by omega)
  rw [List.append_nil] at read
  rw [compact, parse?, String.toList_ofList]
  simp only [read, Option.bind_eq_bind, Option.bind_some]
  rfl

/-- Both layouts of a value read as it. -/
theorem parse?_layouts {value : Json} (plain : Plain value) {text : String}
    (layout : text ∈ [value.compact, value.pretty]) : parse? text = some value := by
  simp only [List.mem_cons, List.not_mem_nil, or_false] at layout
  rcases layout with rfl | rfl
  · exact parse?_compact plain
  · exact parse?_pretty plain

end Strongroom.Json
