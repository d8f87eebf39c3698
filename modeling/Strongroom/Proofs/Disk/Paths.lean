import Strongroom.Catalog.Basic
import Strongroom.Proofs.Blob.Names

/-! # Names in a path

The folder around a path has the names of the path but for the last one. The path
beside it, with another extension, has the same names but for the last one.
-/

namespace Strongroom.Path

/-- Whether a name says something. -/
def Says (name : List Char) : Prop :=
  name ≠ [] ∧ name ≠ ['.']

instance (name : List Char) : Decidable (Says name) :=
  inferInstanceAs (Decidable (_ ∧ _))

def names (text : List Char) : List (List Char) :=
  (split text).filter fun name => Says name

theorem segments_eq (path : Path) :
    path.segments = (names path.text.toList).map String.ofList := rfl

theorem split_ne_nil (text : List Char) : split text ≠ [] := by
  cases text with
  | nil => exact List.cons_ne_nil _ _
  | cons c rest =>
      unfold split
      split
      · exact List.cons_ne_nil _ _
      · split
        all_goals exact List.cons_ne_nil _ _

theorem split_append_slash (before behind : List Char) :
    split (before ++ '/' :: behind) = split before ++ split behind := by
  induction before with
  | nil => rfl
  | cons c before ih =>
      rw [List.cons_append, split, split]
      split
      · rw [ih]
        rfl
      · rw [ih]
        cases front : split before with
        | nil => exact absurd front (split_ne_nil before)
        | cons name more => rfl

theorem names_append_slash (before behind : List Char) :
    names (before ++ '/' :: behind) = names before ++ names behind := by
  rw [names, split_append_slash, List.filter_append]
  rfl

theorem names_single {name : List Char} (plain : '/' ∉ name) (spoken : Says name) :
    names name = [name] := by
  rw [names, split_of_no_slash plain]
  simp [spoken]

theorem names_trimReversed (text : List Char) :
    names (trimReversed text).reverse = names text.reverse := by
  fun_induction trimReversed text with
  | case1 => rfl
  | case2 rest _ ih =>
      rw [ih, List.reverse_cons, names_append_slash]
      exact (List.append_nil _).symm
  | case3 rest ih =>
      have dot : ('.' :: '/' :: rest).reverse = rest.reverse ++ '/' :: ['.'] := by simp
      rw [ih, List.reverse_cons, dot, names_append_slash, names_append_slash]
      rfl
  | case4 => rfl

theorem getLast?_trimReversed (text : List Char) :
    (trimReversed text).getLast? = text.getLast? := by
  fun_induction trimReversed text with
  | case1 => rfl
  | case2 rest more ih =>
      rw [ih]
      cases rest with
      | nil => exact absurd rfl more
      | cons c rest => rfl
  | case3 rest ih => exact ih
  | case4 => rfl

theorem trimReversed_ends (text : List Char) :
    trimReversed text = ['/'] ∨ (∀ rest, trimReversed text ≠ '/' :: rest) ∧
      ∀ rest, trimReversed text ≠ '.' :: '/' :: rest := by
  fun_induction trimReversed text with
  | case1 => exact .inl rfl
  | case2 rest _ ih => exact ih
  | case3 rest ih => exact ih
  | case4 text root slash dot =>
      right
      constructor
      · intro rest same
        exact slash rest same
      · intro rest same
        exact dot rest same

theorem meansFolder_of_trimmed_ne {path : Path} (trimmed : path.trimmed ≠ path.text.toList) :
    path.meansFolder := by
  have cut : trimReversed path.text.toList.reverse ≠ path.text.toList.reverse := by
    intro same
    rw [Path.trimmed, same, List.reverse_reverse] at trimmed
    exact trimmed rfl
  have whole : path.text.toList = path.text.toList.reverse.reverse := (List.reverse_reverse _).symm
  rw [meansFolder, whole]
  generalize path.text.toList.reverse = text at cut
  fun_cases trimReversed text with
  | case1 => exact absurd rfl cut
  | case2 rest =>
      rw [List.reverse_cons, split_append_slash, List.getLast?_append]
      rfl
  | case3 rest =>
      have dot : ('.' :: '/' :: rest).reverse = rest.reverse ++ '/' :: ['.'] := by simp
      rw [dot, split_append_slash, List.getLast?_append]
      rfl
  | case4 text root slash dot =>
      exact absurd (trimReversed.eq_4 text root slash dot) cut

/-- The text of a path up to its last name, and that name. -/
theorem exists_last (path : Path) (some : path.trimmed ≠ []) (root : path.trimmed ≠ ['/']) :
    ∃ front last, path.trimmed = front ++ last ∧ '/' ∉ last ∧ last ≠ [] ∧
      last = (path.trimmed.reverse.takeWhile (· ≠ '/')).reverse ∧
        front = (path.trimmed.reverse.dropWhile (· ≠ '/')).reverse ∧
          (front = [] ∨ ∃ before, front = before ++ ['/'] ∧ last ≠ ['.']) := by
  have ends := trimReversed_ends path.text.toList.reverse
  have whole : path.trimmed.reverse = trimReversed path.text.toList.reverse :=
    List.reverse_reverse _
  rw [← whole] at ends
  generalize path.trimmed = text at *
  have slashed := ends.resolve_left fun same => root (by simpa using congrArg List.reverse same)
  have parts : text.reverse.takeWhile (· ≠ '/') ++ text.reverse.dropWhile (· ≠ '/') =
      text.reverse := List.takeWhile_append_dropWhile
  have plain : ∀ c ∈ text.reverse.takeWhile (· ≠ '/'), c ≠ '/' := fun c member => by
    simpa using List.all_eq_true.1 List.all_takeWhile c member
  have back : ∀ c more, text.reverse.dropWhile (· ≠ '/') = c :: more → c = '/' := by
    intro c more same
    have := List.head?_dropWhile_not (· ≠ '/') text.reverse
    rw [same] at this
    simpa using this
  generalize text.reverse.takeWhile (· ≠ '/') = name at *
  generalize text.reverse.dropWhile (· ≠ '/') = rest at *
  refine ⟨rest.reverse, name.reverse, ?_, ?_, ?_, rfl, rfl, ?_⟩
  · rw [← List.reverse_append, parts, List.reverse_reverse]
  · exact fun member => plain _ (List.mem_reverse.1 member) rfl
  · intro nothing
    obtain rfl := List.reverse_eq_nil_iff.1 nothing
    cases rest with
    | nil => exact some (by simpa using parts.symm)
    | cons c more =>
        obtain rfl := back c more rfl
        exact slashed.1 more parts.symm
  · cases rest with
    | nil => exact .inl rfl
    | cons c more =>
        obtain rfl := back c more rfl
        refine .inr ⟨more.reverse, List.reverse_cons, fun dot => ?_⟩
        have dot : name = ['.'] := by simpa using congrArg List.reverse dot
        rw [dot] at parts
        exact slashed.2 more parts.symm

theorem names_trimmed (path : Path) : names path.trimmed = names path.text.toList := by
  have same := names_trimReversed path.text.toList.reverse
  rwa [List.reverse_reverse] at same

theorem head?_trimmed (path : Path) : path.trimmed.head? = path.text.toList.head? := by
  rw [Path.trimmed, List.head?_reverse, getLast?_trimReversed, List.getLast?_reverse]

theorem names_front {front last : List Char} (plain : '/' ∉ last) (spoken : Says last)
    (leads : front = [] ∨ ∃ before, front = before ++ ['/']) :
    names (front ++ last) = names front ++ [last] := by
  rcases leads with rfl | ⟨before, rfl⟩
  · exact names_single plain spoken
  · rw [List.append_assoc, List.singleton_append, names_append_slash, names_append_slash,
      names_single plain spoken]
    exact congrArg (· ++ [last]) (List.append_nil _).symm

/-- The folder around a path, if its text names one, has the names of the path but
    for the last one. -/
theorem segments_of_parent {path parent : Path} (above : path.parent? = some parent)
    (named : parent.text ≠ "") :
    (∃ name, path.segments = parent.segments ++ [name]) ∧ parent.isAbsolute = path.isAbsolute := by
  by_cases some : path.trimmed = []
  · simp [parent?, some] at above
  by_cases root : path.trimmed = ['/']
  · simp [parent?, root] at above
  obtain ⟨front, last, text, plain, nonempty, _, cut, leads⟩ := exists_last path some root
  have above : parent = ⟨String.ofList (trimReversed front.reverse).reverse⟩ := by
    rw [cut, List.reverse_reverse]
    unfold parent? at above
    split at above
    · cases above
    · cases above
    · exact (Option.some.inj above).symm
  have inside : parent.text.toList = (trimReversed front.reverse).reverse := by
    rw [above, String.toList_ofList]
  rcases leads with rfl | ⟨before, rfl, dot⟩
  · refine absurd ?_ named
    rw [above]
    rfl
  · have before' : names parent.text.toList = names (before ++ ['/']) := by
      rw [inside, names_trimReversed, List.reverse_reverse]
    constructor
    · refine ⟨String.ofList last, ?_⟩
      rw [segments_eq, segments_eq, ← names_trimmed, text,
        names_front plain ⟨nonempty, dot⟩ (.inr ⟨before, rfl⟩), before', List.map_append]
      rfl
    · have head : parent.text.toList.head? = path.text.toList.head? := by
        rw [inside, List.head?_reverse, getLast?_trimReversed, List.getLast?_reverse,
          ← head?_trimmed, text]
        simp [List.head?_append]
      rw [isAbsolute, isAbsolute, head]

theorem stemLength_pos {name : List Char} (nonempty : name ≠ []) : 0 < stemLength name := by
  unfold stemLength
  split
  · exact List.length_pos_iff.2 nonempty
  · rename_i some
    exact List.length_pos_iff.2 some

/-- The path beside another one has its text but for what follows the stem of the
    last name. -/
theorem text_withExtension {path : Path} {extension : String}
    (beside : path.withExtension extension ≠ path) :
    ∃ front last, path.trimmed = front ++ last ∧ '/' ∉ last ∧ Says last ∧ last ≠ ['.', '.'] ∧
      (front = [] ∨ ∃ before, front = before ++ ['/']) ∧
        (path.withExtension extension).text.toList =
          front ++ (last.take (stemLength last) ++ '.' :: extension.toList) := by
  cases named : path.fileName? with
  | none =>
      refine absurd ?_ beside
      rw [withExtension, named]
  | some name =>
      have some : path.trimmed ≠ [] := by
        intro nothing
        simp [fileName?, nothing] at named
      have root : path.trimmed ≠ ['/'] := by
        intro root
        simp [fileName?, root] at named
      obtain ⟨front, last, text, plain, nonempty, tail, _, leads⟩ := exists_last path some root
      have dots : last ≠ ['.'] ∧ last ≠ ['.', '.'] ∧ name = String.ofList last := by
        rw [fileName?, ← tail] at named
        split at named
        · cases named
        · cases named
        · cases named
        · rename_i dot dots
          exact ⟨dot, dots, (Option.some.inj named).symm⟩
      refine ⟨front, last, text, plain, ⟨nonempty, dots.1⟩, dots.2.1, ?_, ?_⟩
      · rcases leads with rfl | ⟨before, rfl, _⟩
        · exact .inl rfl
        · exact .inr ⟨before, rfl⟩
      · have size : path.trimmed.length - last.length + stemLength last =
            front.length + stemLength last := by
          rw [text, List.length_append]
          omega
        rw [withExtension, named]
        simp only [dots.2.2, String.toList_ofList, size]
        rw [text, List.take_length_add_append]
        simp

theorem segments_of_withExtension {path : Path} {extension : String}
    (plain : '/' ∉ extension.toList) (long : 1 < extension.toList.length)
    (beside : path.withExtension extension ≠ path) (file : ¬ path.meansFolder) :
    (path.withExtension extension).isAbsolute = path.isAbsolute ∧ ∃ dirs name other,
      path.segments = dirs ++ [name] ∧
        (path.withExtension extension).segments = dirs ++ [other] ∧
          name ≠ other ∧ name ≠ ".." ∧ other ≠ ".." := by
  have trimmed : path.trimmed = path.text.toList := by
    by_cases same : path.trimmed = path.text.toList
    · exact same
    · exact absurd (meansFolder_of_trimmed_ne same) file
  obtain ⟨front, last, text, noSlash, spoken, dots, leads, written⟩ := text_withExtension beside
  rw [trimmed] at text
  have stem := stemLength_pos spoken.1
  have size : 2 < (last.take (stemLength last) ++ '.' :: extension.toList).length := by
    have := List.length_pos_iff.2 spoken.1
    rw [List.length_append, List.length_take, List.length_cons]
    omega
  have noSlash' : '/' ∉ last.take (stemLength last) ++ '.' :: extension.toList := by
    intro member
    rcases List.mem_append.1 member with member | member
    · exact noSlash (List.mem_of_mem_take member)
    · rcases List.mem_cons.1 member with never | member
      · cases never
      · exact plain member
  have first : (last.take (stemLength last) ++ '.' :: extension.toList).head? = last.head? := by
    rw [List.head?_append, List.head?_take, if_neg (by omega)]
    cases last with
    | nil => exact absurd rfl spoken.1
    | cons c last => rfl
  generalize last.take (stemLength last) ++ '.' :: extension.toList = other at *
  have spoken' : Says other := by
    constructor
    · rintro rfl
      cases size
    · rintro rfl
      exact absurd size (by decide)
  have different : last ≠ other := by
    rintro rfl
    exact beside (congrArg Path.mk (String.toList_inj.1 (written.trans text.symm)))
  have head : (path.withExtension extension).text.toList.head? = path.text.toList.head? := by
    rw [written, text, List.head?_append, List.head?_append, first]
  refine ⟨by rw [isAbsolute, isAbsolute, head], (names front).map String.ofList,
    String.ofList last, String.ofList other, ?_, ?_, ?_, ?_, ?_⟩
  · rw [segments_eq, text, names_front noSlash spoken leads, List.map_append]
    rfl
  · rw [segments_eq, written, names_front noSlash' spoken' leads, List.map_append]
    rfl
  · exact fun same => different (String.ofList_injective same)
  · intro up
    have up : last = ['.', '.'] := by simpa using congrArg String.toList up
    exact dots up
  · intro up
    have up : other = ['.', '.'] := by simpa using congrArg String.toList up
    rw [up] at size
    exact absurd size (by decide)

/-- A name that is one ordinary name of a path. -/
structure IsComponent (name : String) : Prop where
  some : name ≠ ""
  here : name ≠ "."
  back : name ≠ ".."
  plain : '/' ∉ name.toList

section Join

variable {root next : Path} {name : String}

theorem IsComponent.spoken (component : IsComponent name) : Says name.toList := by
  constructor
  · exact fun nothing => component.some (String.toList_eq_nil_iff.1 nothing)
  · intro dot
    apply component.here
    rw [← String.toList_inj, dot]
    rfl

theorem IsComponent.relative (component : IsComponent name) :
    (⟨name⟩ : Path).isAbsolute = false := by
  rw [isAbsolute, beq_eq_false_iff_ne]
  exact fun first => component.plain (List.mem_of_head? first)

/-- A path that goes on from a folder is that of the folder, a slash if need be, and
    what follows. -/
theorem text_join (relative : next.isAbsolute = false) (some : root.text ≠ "") :
    ∃ before, (root.join next).text.toList = (before ++ ['/']) ++ next.text.toList ∧
      names (before ++ ['/']) = names root.text.toList ∧
        (before ++ ['/']).head? = root.text.toList.head? := by
  rw [join, relative, String.isEmpty_eq_false_iff.2 some]
  by_cases slashed : root.text.toList.getLast? = .some '/'
  · obtain ⟨before, whole⟩ := List.getLast?_eq_some_iff.1 slashed
    refine ⟨before, ?_, by rw [whole], by rw [whole]⟩
    simp [whole]
  · have open_ : (root.text.toList.getLast? == .some '/') = false :=
      beq_eq_false_iff_ne.2 slashed
    refine ⟨root.text.toList, ?_, ?_, ?_⟩
    · simp [open_]
    · rw [names_append_slash]
      exact List.append_nil _
    · cases chars : root.text.toList with
      | nil => exact absurd (String.toList_eq_nil_iff.1 chars) some
      | cons c rest => rfl

theorem segments_join_relative (relative : next.isAbsolute = false) (some : root.text ≠ "") :
    (root.join next).segments = root.segments ++ next.segments := by
  obtain ⟨before, text, same, _⟩ := text_join relative some
  have front : names (before ++ ['/']) = names before := by
    rw [names_append_slash]
    exact List.append_nil _
  rw [segments_eq, text, List.append_assoc, List.singleton_append, names_append_slash, ← front,
    same, List.map_append]
  rfl

theorem isAbsolute_join_relative (relative : next.isAbsolute = false) (some : root.text ≠ "") :
    (root.join next).isAbsolute = root.isAbsolute := by
  obtain ⟨before, text, _, head⟩ := text_join relative some
  have first : ((before ++ ['/']) ++ next.text.toList).head? = (before ++ ['/']).head? := by
    rw [List.head?_append]
    cases before with
    | nil | cons => rfl
  rw [isAbsolute, isAbsolute, text, first, head]

theorem segments_join (component : IsComponent name) (some : root.text ≠ "") :
    (root.join ⟨name⟩).segments = root.segments ++ [name] := by
  rw [segments_join_relative component.relative some, segments_eq ⟨name⟩,
    names_single component.plain component.spoken, List.map_singleton, String.ofList_toList]

theorem isAbsolute_join (component : IsComponent name) (some : root.text ≠ "") :
    (root.join ⟨name⟩).isAbsolute = root.isAbsolute :=
  isAbsolute_join_relative component.relative some

theorem meansFolder_join (component : IsComponent name) (some : root.text ≠ "") :
    (root.join ⟨name⟩).meansFolder = false := by
  obtain ⟨before, text, _⟩ := text_join component.relative some
  have last : (split (root.join ⟨name⟩).text.toList).getLast? = .some name.toList := by
    rw [text, List.append_assoc, List.singleton_append, split_append_slash,
      split_of_no_slash component.plain]
    exact List.getLast?_concat
  have spoken := component.spoken
  rw [meansFolder, last]
  simp [spoken.1, spoken.2]

theorem text_join_ne (component : IsComponent name) (some : root.text ≠ "") :
    (root.join ⟨name⟩).text ≠ "" := by
  obtain ⟨before, text, _⟩ := text_join component.relative some
  intro nothing
  rw [nothing] at text
  simp at text

end Join

end Strongroom.Path
