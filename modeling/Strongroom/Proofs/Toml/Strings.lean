import Mathlib.Data.List.Infix
import Mathlib.Tactic.SplitIfs
import Strongroom.Toml.Parser
import Strongroom.Toml.Printer

/-! # Strings come back from their written form

Whichever of its forms a text is written in, it reads as itself, and what stands
behind it is left over, as long as that is no further quote.
-/

namespace Strongroom.Toml

@[simp] theorem consFound_some (c : Char) (text rest : List Char) :
    consFound c (some (text, rest)) = some (c :: text, rest) := rfl

/-- The next character is not a given one. -/
def Without (c : Char) (rest : List Char) : Prop :=
  rest.head? ≠ some c

theorem Without.ne {c : Char} {rest : List Char} (without : Without c rest) (more : List Char) :
    rest ≠ c :: more := by
  rintro rfl
  exact without rfl

theorem newLine?_of_without {input : List Char} (line : Without '\n' input)
    (back : Without '\r' input) : newLine? input = none := by
  unfold newLine?
  split
  · exact absurd rfl line
  · exact absurd rfl back
  · rfl

section Escapes

theorem coded?_upperDigits {n : Nat} (ascii : n < 0x80) :
    coded? ['0', '0', upperDigit (n / 16), upperDigit (n % 16)] = some (Char.ofNat n) := by
  have all : ∀ n < 0x80,
      coded? ['0', '0', upperDigit (n / 16), upperDigit (n % 16)] = some (Char.ofNat n) := by
    decide
  exact all n ascii

theorem basic?_escape {c : Char} (ascii : c.toNat < 0x80) (input : List Char) :
    basic? (escape c ++ input) = consFound c (basic? input) := by
  unfold escape
  split
  case h_8 => simp [basic?, coded?_upperDigits ascii]
  all_goals simp [basic?, escaped?]

theorem blockBasic?_escape {c : Char} (ascii : c.toNat < 0x80) (input : List Char) :
    blockBasic? false (escape c ++ input) = consFound c (blockBasic? false input) := by
  unfold escape
  split
  case h_8 => simp [blockBasic?, coded?_upperDigits ascii]
  all_goals simp [blockBasic?, escaped?, endsLine, skip, isSpace, newLine?]

theorem ascii_of_needsEscape {c : Char} (needs : needsEscape c = true) : c.toNat < 0x80 := by
  simp only [needsEscape, Bool.or_eq_true, Bool.and_eq_true, decide_eq_true_eq,
    beq_iff_eq] at needs
  omega

theorem isPlain_of_needsEscape {c : Char} (needs : needsEscape c = false) (line : c ≠ '\n') :
    isPlain c = true := by
  simp only [needsEscape, Bool.or_eq_false_iff, Bool.and_eq_false_iff, decide_eq_false_iff_not,
    bne_eq_false_iff_eq, beq_eq_false_iff_ne] at needs
  simp only [isPlain, Bool.or_eq_true, Bool.and_eq_true, decide_eq_true_eq, beq_iff_eq]
  obtain ⟨(visible | rfl) | rfl, last⟩ := needs
  · exact .inr ⟨Nat.not_lt.1 visible, last⟩
  · exact .inl rfl
  · exact absurd rfl line

/-- How one character is written before a text. -/
inductive Written (block : Bool) (quotes : Nat) (text : List Char) : Char → List Char → Prop where
  /-- One of the first two quotes in a block stands for itself. -/
  | quote : block = true → quotes < 2 →
    Written block quotes text '"' ('"' :: escapeAll block (quotes + 1) text)
  | line : block = true → Written block quotes text '\n' ('\n' :: escapeAll block 0 text)
  | escaped {c : Char} : c.toNat < 0x80 →
    Written block quotes text c (escape c ++ escapeAll block 0 text)
  | itself {c : Char} : isPlain c = true → c ≠ '"' → c ≠ '\\' →
    Written block quotes text c (c :: escapeAll block 0 text)

theorem written_escapeAll (block : Bool) (quotes : Nat) (c : Char) (text : List Char) :
    Written block quotes text c (escapeAll block quotes (c :: text)) := by
  unfold escapeAll
  split_ifs with quote few line coded
  · obtain rfl := beq_iff_eq.1 quote
    obtain ⟨inBlock, few⟩ := Bool.and_eq_true_iff.1 few
    exact .quote inBlock (of_decide_eq_true few)
  · obtain rfl := beq_iff_eq.1 quote
    exact .escaped (by decide)
  · obtain ⟨same, inBlock⟩ := Bool.and_eq_true_iff.1 line
    obtain rfl := beq_iff_eq.1 same
    exact .line inBlock
  · simp only [Bool.or_eq_true, beq_iff_eq] at coded
    refine .escaped ?_
    rcases coded with ((needs | rfl) | rfl) | rfl
    · exact ascii_of_needsEscape needs
    all_goals decide
  · simp only [Bool.or_eq_true, beq_iff_eq, not_or, Bool.not_eq_true] at coded quote
    obtain ⟨⟨⟨needs, _⟩, line⟩, slash⟩ := coded
    exact .itself (isPlain_of_needsEscape needs line) quote slash

/-- Nothing that is written begins with a bare quote, but for the first two quotes
    in a block. -/
theorem Written.without {block : Bool} {quotes : Nat} {text chars : List Char} {c : Char}
    (written : Written block quotes text c chars) (few : c = '"' → block = true → 2 ≤ quotes)
    (tail : List Char) : Without '"' (chars ++ tail) := by
  cases written with
  | quote inBlock less => exact absurd (few rfl inBlock) (Nat.not_le.2 less)
  | line => simp [Without]
  | escaped =>
      unfold escape
      split
      all_goals simp [Without]
  | itself _ other => simpa [Without] using other

end Escapes

section OneLine

theorem basic?_plain {c : Char} (plain : isPlain c = true) (quote : c ≠ '"') (slash : c ≠ '\\')
    (input : List Char) : basic? (c :: input) = consFound c (basic? input) := by
  rw [basic?]
  · simp [plain, slash]
  all_goals simp_all

/-- Between double quotes, a text is read up to the closing one. -/
theorem basic?_escapeAll (quotes : Nat) (text rest : List Char) :
    basic? (escapeAll false quotes text ++ '"' :: rest) = some (text, rest) := by
  induction text generalizing quotes with
  | nil => simp [escapeAll, basic?]
  | cons c text ih =>
      have written := written_escapeAll false quotes c text
      generalize escapeAll false quotes (c :: text) = chars at written ⊢
      cases written with
      | quote inBlock => cases inBlock
      | line inBlock => cases inBlock
      | escaped ascii => rw [List.append_assoc, basic?_escape ascii, ih, consFound_some]
      | itself plain quote slash =>
          rw [List.cons_append, basic?_plain plain quote slash, ih, consFound_some]

theorem literal?_text {text : List Char} (quiet : ∀ c ∈ text, isPlain c = true ∧ c ≠ '\'')
    (rest : List Char) : literal? (text ++ '\'' :: rest) = some (text, rest) := by
  induction text with
  | nil => simp [literal?]
  | cons c text ih =>
      obtain ⟨⟨plain, other⟩, quiet⟩ := List.forall_mem_cons.1 quiet
      simp [literal?, plain, ih quiet]

end OneLine

section Blocks

variable {rest : List Char}

/-- Up to two quotes may stand before the closing ones. -/
theorem blockBasic?_close {n : Nat} (few : n ≤ 2) (ends : Without '"' rest) :
    blockBasic? false (List.replicate n '"' ++ '"' :: '"' :: '"' :: rest) =
      some (List.replicate n '"', rest) := by
  have one (more : List Char) : rest ≠ '"' :: more := ends.ne more
  have two (more : List Char) : rest ≠ '"' :: '"' :: more := ends.ne _
  obtain rfl | rfl | rfl : n = 0 ∨ n = 1 ∨ n = 2 := by omega
  all_goals simp [List.replicate, blockBasic?]

theorem blockBasic?_quote {input : List Char} (few : ∀ more, input ≠ '"' :: '"' :: more) :
    blockBasic? false ('"' :: input) = consFound '"' (blockBasic? false input) := by
  rw [blockBasic?]
  · simp [isPlain]
  all_goals simp_all

theorem blockBasic?_line (input : List Char) :
    blockBasic? false ('\n' :: input) = consFound '\n' (blockBasic? false input) := by
  simp [blockBasic?]

theorem blockBasic?_plain {c : Char} (plain : isPlain c = true) (quote : c ≠ '"')
    (slash : c ≠ '\\') (input : List Char) :
    blockBasic? false (c :: input) = consFound c (blockBasic? false input) := by
  have other : c ≠ '\r' := by
    rintro rfl
    cases plain
  rw [blockBasic?]
  · simp [plain, slash]
  all_goals simp_all

/-- Behind a bare quote, a text of at most one more quote ends, or no two quotes
    follow. -/
theorem escapeAll_few (quotes : Nat) (text tail : List Char) :
    text = [] ∨ (text = ['"'] ∧ quotes = 0) ∨
      ∀ more, escapeAll true (quotes + 1) text ++ tail ≠ '"' :: '"' :: more := by
  cases text with
  | nil => exact .inl rfl
  | cons c text =>
      refine .inr ?_
      have written := written_escapeAll true (quotes + 1) c text
      -- only behind the first quote of a run is the next one bare; a third never is
      by_cases bare : c = '"' ∧ quotes = 0
      · obtain ⟨rfl, rfl⟩ := bare
        cases text with
        | nil => exact .inl ⟨rfl, rfl⟩
        | cons d text =>
            have shape :
                escapeAll true 1 ('"' :: d :: text) = '"' :: escapeAll true 2 (d :: text) := rfl
            have next := (written_escapeAll true 2 d text).without (fun _ _ => le_refl 2) tail
            refine .inr fun more same => next.ne more ?_
            rw [shape] at same
            exact (List.cons.inj same).2
      · have many (quote : c = '"') (_ : true = true) : 2 ≤ quotes + 1 :=
          Nat.succ_le_succ (Nat.pos_of_ne_zero fun zero => bare ⟨quote, zero⟩)
        exact .inr fun more => (written.without many tail).ne _

/-- Between three double quotes, a text is read up to the closing ones. -/
theorem blockBasic?_escapeAll (quotes : Nat) (text : List Char) (ends : Without '"' rest) :
    blockBasic? false (escapeAll true quotes text ++ '"' :: '"' :: '"' :: rest) =
      some (text, rest) := by
  induction text generalizing quotes with
  | nil => exact blockBasic?_close (n := 0) (Nat.zero_le 2) ends
  | cons c text ih =>
      have written := written_escapeAll true quotes c text
      generalize escapeAll true quotes (c :: text) = chars at written ⊢
      cases written with
      | quote _ less =>
          -- quotes that end the text are read together with the closing ones
          obtain rfl | ⟨rfl, rfl⟩ | few :=
            escapeAll_few quotes text ('"' :: '"' :: '"' :: rest)
          · exact blockBasic?_close (n := 1) (by decide) ends
          · exact blockBasic?_close (n := 2) (by decide) ends
          · rw [List.cons_append, blockBasic?_quote few, ih, consFound_some]
      | line => rw [List.cons_append, blockBasic?_line, ih, consFound_some]
      | escaped ascii => rw [List.append_assoc, blockBasic?_escape ascii, ih, consFound_some]
      | itself plain quote slash =>
          rw [List.cons_append, blockBasic?_plain plain quote slash, ih, consFound_some]

theorem blockLiteral?_close {n : Nat} (few : n ≤ 2) (ends : Without '\'' rest) :
    blockLiteral? (List.replicate n '\'' ++ '\'' :: '\'' :: '\'' :: rest) =
      some (List.replicate n '\'', rest) := by
  have one (more : List Char) : rest ≠ '\'' :: more := ends.ne more
  have two (more : List Char) : rest ≠ '\'' :: '\'' :: more := ends.ne _
  obtain rfl | rfl | rfl : n = 0 ∨ n = 1 ∨ n = 2 := by omega
  all_goals simp [List.replicate, blockLiteral?]

theorem blockLiteral?_quote {input : List Char} (few : ∀ more, input ≠ '\'' :: '\'' :: more) :
    blockLiteral? ('\'' :: input) = consFound '\'' (blockLiteral? input) := by
  rw [blockLiteral?]
  · simp [isPlain]
  all_goals simp_all

theorem blockLiteral?_plain {c : Char} (plain : c = '\n' ∨ isPlain c = true) (quote : c ≠ '\'')
    (input : List Char) : blockLiteral? (c :: input) = consFound c (blockLiteral? input) := by
  have other : c ≠ '\r' := by
    rintro rfl
    exact absurd plain (by decide)
  rw [blockLiteral?]
  · simp [plain]
  all_goals simp_all

theorem literal_few {text : List Char} (few : ¬ ['\'', '\'', '\''] <:+: '\'' :: text)
    (tail : List Char) :
    text = [] ∨ text = ['\''] ∨ ∀ more, text ++ tail ≠ '\'' :: '\'' :: more := by
  match text with
  | [] => exact .inl rfl
  | [c] =>
      refine .inr ?_
      by_cases quote : c = '\''
      · exact .inl (congrArg ([·]) quote)
      · exact .inr fun more same => quote (List.cons.inj same).1
  | c :: d :: text =>
      refine .inr (.inr fun more same => few ?_)
      obtain ⟨first, same⟩ := List.cons.inj same
      obtain ⟨second, _⟩ := List.cons.inj same
      rw [first, second]
      exact ⟨[], text, rfl⟩

/-- Between three single quotes, a text without three of them in a row is read
    up to the closing ones. -/
theorem blockLiteral?_text {text : List Char} (plain : ∀ c ∈ text, c = '\n' ∨ isPlain c = true)
    (few : ¬ ['\'', '\'', '\''] <:+: text) (ends : Without '\'' rest) :
    blockLiteral? (text ++ '\'' :: '\'' :: '\'' :: rest) = some (text, rest) := by
  induction text with
  | nil => exact blockLiteral?_close (n := 0) (Nat.zero_le 2) ends
  | cons c text ih =>
      obtain ⟨first, plain⟩ := List.forall_mem_cons.1 plain
      have read := ih plain fun inside => few (inside.trans (List.suffix_cons c text).isInfix)
      by_cases quote : c = '\''
      · subst quote
        obtain rfl | rfl | few := literal_few few ('\'' :: '\'' :: '\'' :: rest)
        · exact blockLiteral?_close (n := 1) (by decide) ends
        · exact blockLiteral?_close (n := 2) (by decide) ends
        · rw [List.cons_append, blockLiteral?_quote few, read, consFound_some]
      · rw [List.cons_append, blockLiteral?_plain first quote, read, consFound_some]

end Blocks

section Runs

/-- Count a run of a character up to one more character: the longest so far, and
    the one that goes on. -/
def countRun (c : Char) (counts : Nat × Nat) (d : Char) : Nat × Nat :=
  let run := if d == c then counts.2 + 1 else 0
  (max counts.1 run, run)

theorem longestRun_eq (c : Char) (text : List Char) :
    longestRun c text = (text.foldl (countRun c) (0, 0)).1 := rfl

theorem foldl_countRun_le (c : Char) (text : List Char) (counts : Nat × Nat)
    (le : counts.2 ≤ counts.1) :
    counts.1 ≤ (text.foldl (countRun c) counts).1 ∧
      (text.foldl (countRun c) counts).2 ≤ (text.foldl (countRun c) counts).1 := by
  induction text generalizing counts with
  | nil => exact ⟨le_refl _, le⟩
  | cons d text ih =>
      have next : (countRun c counts d).2 ≤ (countRun c counts d).1 := le_max_right _ _
      obtain ⟨grows, stays⟩ := ih _ next
      exact ⟨(le_max_left _ _).trans grows, stays⟩

theorem foldl_countRun_replicate (c : Char) (n : Nat) (counts : Nat × Nat) :
    ((List.replicate n c).foldl (countRun c) counts).2 = counts.2 + n := by
  induction n generalizing counts with
  | zero => rfl
  | succ n ih =>
      have one : (countRun c counts c).2 = counts.2 + 1 := if_pos (beq_self_eq_true c)
      rw [List.replicate_succ, List.foldl_cons, ih, one]
      omega

theorem le_longestRun {c : Char} {n : Nat} {text : List Char}
    (run : List.replicate n c <:+: text) : n ≤ longestRun c text := by
  obtain ⟨before, behind, rfl⟩ := run
  rw [longestRun_eq, List.foldl_append, List.foldl_append]
  have here := (foldl_countRun_le c before (0, 0) (le_refl 0)).2
  have long := foldl_countRun_replicate c n (before.foldl (countRun c) (0, 0))
  have inside := (foldl_countRun_le c (List.replicate n c) _ here).2
  have after := (foldl_countRun_le c behind _ inside).1
  omega

theorem not_mem_of_longestRun {c : Char} {text : List Char} (none : longestRun c text = 0) :
    c ∉ text := by
  intro member
  obtain ⟨before, behind, rfl⟩ := List.append_of_mem member
  have alone : List.replicate 1 c <:+: before ++ c :: behind := ⟨before, behind, by simp⟩
  have := le_longestRun alone
  omega

end Runs

section Forms

variable {text rest : List Char}

theorem dropLineEnd_of_without {input : List Char} (line : Without '\n' input)
    (back : Without '\r' input) : dropLineEnd input = input := by
  rw [dropLineEnd, newLine?_of_without line back]
  rfl

theorem without_escapeAll (lines : text.contains '\n' = false) (tail : List Char) :
    Without '\n' (escapeAll true 0 text ++ '"' :: tail) ∧
      Without '\r' (escapeAll true 0 text ++ '"' :: tail) := by
  cases text with
  | nil => simp [escapeAll, Without]
  | cons c text =>
      have written := written_escapeAll true 0 c text
      generalize escapeAll true 0 (c :: text) = chars at written ⊢
      cases written with
      | quote => simp [Without]
      | line => simp at lines
      | escaped =>
          unfold escape
          split
          all_goals simp [Without]
      | itself plain =>
          have line : c ≠ '\n' := by
            rintro rfl
            simp at lines
          have back : c ≠ '\r' := by
            rintro rfl
            cases plain
          simp [Without, line, back]

theorem string?_lineString {input : List Char}
    (double : ∀ more, input ≠ '"' :: '"' :: '"' :: more)
    (single : ∀ more, input ≠ '\'' :: '\'' :: '\'' :: more) :
    string? input = lineString? input := by
  rw [string?]
  all_goals simp_all

theorem string?_basic (text : List Char) (ends : Without '"' rest) :
    string? ('"' :: escapeAll false 0 text ++ ['"'] ++ rest) = some (text, rest) := by
  rw [List.append_assoc, List.cons_append, List.singleton_append]
  have double (more : List Char) :
      '"' :: (escapeAll false 0 text ++ '"' :: rest) ≠ '"' :: '"' :: '"' :: more := by
    intro same
    obtain ⟨_, same⟩ := List.cons.inj same
    cases text with
    | nil => exact ends.ne more (List.cons.inj same).2
    | cons c text =>
        have never (_ : c = '"') (block : false = true) : 2 ≤ 0 := by cases block
        exact ((written_escapeAll false 0 c text).without never _).ne _ same
  rw [string?_lineString double (fun more same => by cases same)]
  exact basic?_escapeAll 0 text rest

theorem string?_literal (quiet : ∀ c ∈ text, isPlain c = true ∧ c ≠ '\'')
    (ends : Without '\'' rest) : string? ('\'' :: text ++ ['\''] ++ rest) = some (text, rest) := by
  rw [List.append_assoc, List.cons_append, List.singleton_append]
  have single (more : List Char) :
      '\'' :: (text ++ '\'' :: rest) ≠ '\'' :: '\'' :: '\'' :: more := by
    intro same
    obtain ⟨_, same⟩ := List.cons.inj same
    cases text with
    | nil => exact ends.ne more (List.cons.inj same).2
    | cons c text => exact (quiet c List.mem_cons_self).2 (List.cons.inj same).1
  rw [string?_lineString (fun more same => by cases same) single]
  exact literal?_text quiet rest

theorem string?_blockBasic (text : List Char) (ends : Without '"' rest) :
    string? (blockOf '"' (text.contains '\n') (escapeAll true 0 text) ++ rest) =
      some (text, rest) := by
  have read := blockBasic?_escapeAll 0 text ends
  cases lines : text.contains '\n' with
  | true =>
      simp only [blockOf, if_true, List.append_assoc, List.cons_append, List.nil_append, string?]
      exact read
  | false =>
      obtain ⟨line, back⟩ := without_escapeAll lines ('"' :: '"' :: rest)
      simp only [blockOf, Bool.false_eq_true, if_false, List.append_assoc, List.cons_append,
        List.nil_append, string?]
      rw [dropLineEnd_of_without line back]
      exact read

theorem plain_of_any (uncoded : text.any needsEscape = false) :
    ∀ c ∈ text, c = '\n' ∨ isPlain c = true := by
  intro c member
  have needs : needsEscape c = false := by
    simpa using List.any_eq_false.1 uncoded c member
  by_cases line : c = '\n'
  · exact .inl line
  · exact .inr (isPlain_of_needsEscape needs line)

theorem without_text (lines : text.contains '\n' = false)
    (plain : ∀ c ∈ text, c = '\n' ∨ isPlain c = true) (tail : List Char) :
    Without '\n' (text ++ '\'' :: tail) ∧ Without '\r' (text ++ '\'' :: tail) := by
  cases text with
  | nil => simp [Without]
  | cons c text =>
      have line : c ≠ '\n' := by
        rintro rfl
        simp at lines
      have back : c ≠ '\r' := by
        rintro rfl
        exact absurd (plain '\r' List.mem_cons_self) (by decide)
      simp [Without, line, back]

theorem string?_blockLiteral (plain : ∀ c ∈ text, c = '\n' ∨ isPlain c = true)
    (few : ¬ ['\'', '\'', '\''] <:+: text) (ends : Without '\'' rest) :
    string? (blockOf '\'' (text.contains '\n') text ++ rest) = some (text, rest) := by
  have read := blockLiteral?_text plain few ends
  cases lines : text.contains '\n' with
  | true =>
      simp only [blockOf, if_true, List.append_assoc, List.cons_append, List.nil_append, string?]
      exact read
  | false =>
      obtain ⟨line, back⟩ := without_text lines plain ('\'' :: '\'' :: rest)
      simp only [blockOf, Bool.false_eq_true, if_false, List.append_assoc, List.cons_append,
        List.nil_append, string?]
      rw [dropLineEnd_of_without line back]
      exact read

/-- A text reads as itself, in whichever form it is written. Escapes can hold every
    text; the forms without them are chosen only for texts that they can hold. -/
theorem string?_stringChars (text : List Char) (double : Without '"' rest)
    (single : Without '\'' rest) : string? (stringChars text ++ rest) = some (text, rest) := by
  unfold stringChars
  dsimp only
  split_ifs with basic literal blockBasic blockLiteral lines
  · exact string?_basic text double
  · simp only [Bool.and_eq_true, Bool.not_eq_true', beq_iff_eq] at literal
    obtain ⟨⟨uncoded, none⟩, lines⟩ := literal
    refine string?_literal (fun c member => ⟨?_, ?_⟩) single
    · refine (plain_of_any uncoded c member).resolve_left ?_
      rintro rfl
      simp [member] at lines
    · rintro rfl
      exact not_mem_of_longestRun none member
  · exact string?_blockBasic text double
  · simp only [Bool.and_eq_true, Bool.not_eq_true', decide_eq_true_eq] at blockLiteral
    obtain ⟨uncoded, few⟩ := blockLiteral
    have short (inside : ['\'', '\'', '\''] <:+: text) : False := by
      have := le_longestRun (n := 3) inside
      omega
    exact string?_blockLiteral (plain_of_any uncoded) short single
  · exact string?_blockBasic text double
  · exact string?_basic text double

end Forms

end Strongroom.Toml
