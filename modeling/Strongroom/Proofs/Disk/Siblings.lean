import Strongroom.Proofs.Disk.Places
import Strongroom.Proofs.Disk.Paths

/-! # Paths beside each other

The last name of a path is the last of its names that says something, unless that
leads back. With another last name the path stays in the same folder; a path
without a last name is gone on with.
-/

namespace Strongroom.Path

variable {path : Path} {name other : String}

theorem exists_front (named : path.fileName? = some name) :
    IsComponent name ∧ ∃ front, path.trimmed = front ++ name.toList ∧
      path.parent? = some ⟨String.ofList (trimReversed front.reverse).reverse⟩ ∧
        (front = [] ∨ ∃ before, front = before ++ ['/']) := by
  have some : path.trimmed ≠ [] := by
    intro nothing
    simp [fileName?, nothing] at named
  have root : path.trimmed ≠ ['/'] := by
    intro root
    simp [fileName?, root] at named
  obtain ⟨front, last, text, plain, nonempty, tail, cut, leads⟩ := exists_last path some root
  rw [fileName?, ← tail] at named
  split at named
  · cases named
  · cases named
  · cases named
  · rename_i dot dots
    obtain rfl := Option.some.inj named
    have plain' : '/' ∉ (String.ofList last).toList := by rwa [String.toList_ofList]
    have above : path.parent? = .some ⟨String.ofList (trimReversed front.reverse).reverse⟩ := by
      rw [cut, List.reverse_reverse, parent?]
      split
      · rename_i nothing
        exact absurd nothing some
      · rename_i only
        exact absurd only root
      · rfl
    refine ⟨⟨?_, ?_, ?_, plain'⟩, front, by rw [text, String.toList_ofList], above, ?_⟩
    · exact fun nothing => nonempty (by simpa using congrArg String.toList nothing)
    · exact fun here => dot (by simpa using congrArg String.toList here)
    · exact fun back => dots (by simpa using congrArg String.toList back)
    · rcases leads with rfl | ⟨before, rfl, _⟩
      · exact .inl rfl
      · exact .inr ⟨before, rfl⟩

/-- The last name is the last one that says something, unless it leads back. -/
theorem fileName?_eq (path : Path) :
    path.fileName? = path.segments.getLast?.filter fun name => name ≠ ".." := by
  by_cases some : path.trimmed = []
  · rw [segments_eq, ← names_trimmed, some, fileName?, some]
    rfl
  by_cases root : path.trimmed = ['/']
  · rw [segments_eq, ← names_trimmed, root, fileName?, root]
    rfl
  obtain ⟨front, last, text, plain, nonempty, tail, _, leads⟩ := exists_last path some root
  rw [fileName?, ← tail, segments_eq, ← names_trimmed, text]
  by_cases dot : last = ['.']
  · subst dot
    rcases leads with rfl | ⟨_, _, never⟩
    · rfl
    · exact absurd rfl never
  · have leads : front = [] ∨ ∃ before, front = before ++ ['/'] := by
      rcases leads with rfl | ⟨before, rfl, _⟩
      · exact .inl rfl
      · exact .inr ⟨before, rfl⟩
    rw [names_front plain ⟨nonempty, dot⟩ leads, List.map_append, List.map_singleton,
      List.getLast?_concat]
    by_cases back : last = ['.', '.']
    · subst back
      rfl
    · have ahead : String.ofList last ≠ ".." := fun same =>
        back (by simpa using congrArg String.toList same)
      rw [Option.filter_some_pos (by simpa using ahead)]
      split
      · exact absurd rfl nonempty
      · exact absurd rfl dot
      · exact absurd rfl back
      · rfl

theorem join_empty (component : IsComponent other) : (⟨""⟩ : Path).join ⟨other⟩ = ⟨other⟩ := by
  rw [join, component.relative]
  exact congrArg Path.mk String.empty_append

theorem IsComponent.segments (component : IsComponent name) :
    (⟨name⟩ : Path).segments = [name] := by
  rw [segments_eq, names_single component.plain component.spoken, List.map_singleton,
    String.ofList_toList]

theorem IsComponent.fileName? (component : IsComponent name) :
    (⟨name⟩ : Path).fileName? = .some name := by
  rw [fileName?_eq, component.segments, List.getLast?_singleton,
    Option.filter_some_pos (by simpa using component.back)]

theorem IsComponent.withFileName (component : IsComponent name)
    (component' : IsComponent other) : (⟨name⟩ : Path).withFileName other = ⟨other⟩ := by
  obtain ⟨_, front, text, above, leads⟩ := exists_front component.fileName?
  have file : ¬ (⟨name⟩ : Path).meansFolder := by
    have spoken := component.spoken
    simp [meansFolder, split_of_no_slash component.plain, spoken.1, spoken.2]
  have whole : (⟨name⟩ : Path).trimmed = name.toList := by
    by_contra cut
    exact file (meansFolder_of_trimmed_ne cut)
  obtain rfl : front = [] := by simpa [whole] using text
  rw [Path.withFileName, component.fileName?]
  change ((⟨name⟩ : Path).parent?.getD ⟨""⟩).join ⟨other⟩ = _
  rw [above]
  exact join_empty component'

/-- With another last name a path leads into the same folder. -/
theorem segments_withFileName (named : path.fileName? = some name)
    (component : IsComponent other) :
    (path.withFileName other).isAbsolute = path.isAbsolute ∧ ∃ dirs,
      path.segments = dirs ++ [name] ∧ (path.withFileName other).segments = dirs ++ [other] := by
  obtain ⟨ordinary, front, text, above, leads⟩ := exists_front named
  rw [withFileName, named]
  simp only [above, Option.getD_some]
  rcases leads with rfl | ⟨before, rfl⟩
  · have head : path.isAbsolute = (⟨name⟩ : Path).isAbsolute := by
      rw [isAbsolute, isAbsolute, ← head?_trimmed, text]
      rfl
    change ((⟨""⟩ : Path).join ⟨other⟩).isAbsolute = _ ∧ ∃ dirs, _ ∧
      ((⟨""⟩ : Path).join ⟨other⟩).segments = _
    rw [join_empty component, component.relative, head, ordinary.relative]
    refine ⟨rfl, [], ?_, component.segments⟩
    rw [segments_eq, ← names_trimmed, text]
    exact ordinary.segments
  · let folder : Path := ⟨String.ofList (trimReversed (before ++ ['/']).reverse).reverse⟩
    have inside : folder.text ≠ "" := by
      intro nothing
      have last := getLast?_trimReversed (before ++ ['/']).reverse
      have empty : trimReversed (before ++ ['/']).reverse = [] := by
        simpa [folder] using congrArg String.toList nothing
      rw [empty, List.getLast?_nil, eq_comm, List.getLast?_eq_none_iff] at last
      simp at last
    obtain ⟨⟨last, names⟩, absolute⟩ := segments_of_parent above inside
    obtain rfl : last = name := by
      rw [fileName?_eq, names, List.getLast?_concat] at named
      exact Option.some.inj (Option.filter_eq_some_iff.1 named).1
    refine ⟨(isAbsolute_join component inside).trans absolute, folder.segments, names, ?_⟩
    exact segments_join component inside

theorem segments_withFileName_of_none (unnamed : path.fileName? = none)
    (component : IsComponent other) (some : path.text ≠ "") :
    (path.withFileName other).isAbsolute = path.isAbsolute ∧
      (path.withFileName other).segments = path.segments ++ [other] := by
  rw [withFileName, unnamed]
  exact ⟨isAbsolute_join component some, segments_join component some⟩

end Strongroom.Path

namespace Strongroom.FileTree

variable {tree : FileTree} {path : Path} {name other : String} {place : Location}

theorem place_of_component (component : Path.IsComponent name)
    (leads : tree.locate ⟨name⟩ = .ok place) : place = tree.current ++ [name] := by
  rw [locate_eq_destination leads, destination, component.segments, base, component.relative]
  exact follow_append_singleton tree.current [] component.back

/-- Nothing is at two paths at once that differ in their last names. -/
theorem locate_withFileName_ne (component : Path.IsComponent other)
    (different : path.fileName? ≠ some other)
    (leads : tree.locate (path.withFileName other) = .ok place) :
    tree.locate path ≠ .ok place := by
  intro leads'
  have same : tree.destination (path.withFileName other) = tree.destination path :=
    (locate_eq_destination leads).symm.trans (locate_eq_destination leads')
  rw [destination, destination, base, base] at same
  cases named : path.fileName? with
  | some name =>
      obtain ⟨ordinary, _⟩ := Path.exists_front named
      obtain ⟨absolute, dirs, names, names'⟩ := Path.segments_withFileName named component
      rw [absolute, names, names', follow_append_singleton _ _ component.back,
        follow_append_singleton _ _ ordinary.back] at same
      have one := (List.cons.inj (List.append_cancel_left same)).1
      exact different (named.trans (congrArg some one.symm))
  | none =>
      have some : path.text ≠ "" := by
        intro nothing
        simp [locate, nothing] at leads'
      obtain ⟨absolute, names⟩ := Path.segments_withFileName_of_none named component some
      rw [absolute, names, follow_append_singleton _ _ component.back] at same
      simp at same

end Strongroom.FileTree
