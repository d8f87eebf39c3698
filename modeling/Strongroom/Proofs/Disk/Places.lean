import Mathlib.Data.List.Induction
import Strongroom.Proofs.Disk.Runs

/-! # Places on the disk

Where a path leads depends on the folders alone. On a disk where everything stands
in a folder, what is made or moved leaves the other places as they are.
-/

namespace Strongroom

/-- What stands under a key, when all that stands under one of them is taken away. -/
theorem lookup_filter_ne {κ α : Type} [BEq κ] [LawfulBEq κ] [DecidableEq κ]
    (entries : List (κ × α)) (key other : κ) :
    (entries.filter fun entry => entry.1 ≠ key).lookup other =
      if other = key then none else entries.lookup other := by
  induction entries with
  | nil => simp
  | cons entry entries ih =>
      obtain ⟨here, value⟩ := entry
      by_cases gone : here = key
      · subst gone
        rw [List.filter_cons_of_neg (by simp), ih]
        by_cases same : other = here
        · rw [if_pos same, if_pos same]
        · have differs : (other == here) = false := by simpa using same
          rw [if_neg same, if_neg same, List.lookup_cons, differs]
      · rw [List.filter_cons_of_pos (by simpa using gone), List.lookup_cons, List.lookup_cons, ih]
        by_cases same : other = here
        · subst same
          simp [gone]
        · have differs : (other == here) = false := by simpa using same
          rw [differs]

namespace FileTree

variable {tree tree' : FileTree} {place other : Location} {node : FileNode} {path : Path}

/-- Everything stands in a folder, and so does whoever uses the disk. -/
structure WellFormed (tree : FileTree) : Prop where
  inside : ∀ {place name node}, tree.find? (place ++ [name]) = some node →
    tree.find? place = some .folder
  current : tree.find? tree.current = some .folder

@[simp] theorem find?_nil (tree : FileTree) : tree.find? [] = some .folder := rfl

theorem wellFormed_empty : ({} : FileTree).WellFormed where
  inside {place name node} below := by
    cases place with
    | nil => rfl
    | cons => cases below
  current := rfl

theorem find?_insert (tree : FileTree) {place : Location} (node : FileNode) (proper : place ≠ [])
    (other : Location) :
    (tree.insert place node).find? other =
      if other = place then some node else tree.find? other := by
  unfold find? insert
  by_cases root : other = []
  · subst root
    simp [Ne.symm proper]
  · by_cases same : other = place
    · subst same
      simp [root]
    · have differs : (other == place) = false := by simpa using same
      simp only [root, if_false, same, List.lookup_cons, differs, lookup_filter_ne]

theorem find?_erase (tree : FileTree) {place : Location} (proper : place ≠ []) (other : Location) :
    (tree.erase place).find? other = if other = place then none else tree.find? other := by
  unfold find? erase
  by_cases root : other = []
  · subst root
    simp [Ne.symm proper]
  · simp only [root, if_false, lookup_filter_ne]

theorem proper_of_find? (none : tree.find? place ≠ some .folder) : place ≠ [] := by
  rintro rfl
  exact none rfl

theorem walk_cons {place found : Location} {name : String} {names : List String} :
    tree.walk place (name :: names) = .ok found ↔
      tree.find? place = some .folder ∧
        tree.walk (if name = ".." then place.dropLast else place ++ [name]) names = .ok found := by
  rw [walk]
  cases here : tree.find? place with
  | none => simp
  | some node =>
      cases node with
      | file pieces => simp
      | folder =>
          by_cases up : name = ".."
          · simp [up]
          · simp [up]

/-- Where there are more folders, names lead where they led. -/
theorem walk_mono (folders : ∀ place, tree.find? place = some .folder →
    tree'.find? place = some .folder) {place found : Location} {names : List String}
    (leads : tree.walk place names = .ok found) : tree'.walk place names = .ok found := by
  induction names generalizing place with
  | nil => exact leads
  | cons name names ih =>
      obtain ⟨here, rest⟩ := walk_cons.1 leads
      exact walk_cons.2 ⟨folders place here, ih rest⟩

theorem walk_down {place found : Location} {names : List String} (down : ".." ∉ names)
    (leads : tree.walk place names = .ok found) : found = place ++ names := by
  induction names generalizing place with
  | nil =>
      rw [walk] at leads
      cases leads
      exact (List.append_nil _).symm
  | cons name names ih =>
      rw [List.mem_cons, not_or] at down
      obtain ⟨noBack, rest⟩ := down
      obtain ⟨_, leads⟩ := walk_cons.1 leads
      rw [if_neg (Ne.symm noBack)] at leads
      rw [ih rest leads, List.append_assoc]
      rfl

theorem walk_append {place found : Location} {names more : List String} :
    tree.walk place (names ++ more) = .ok found ↔
      ∃ middle, tree.walk place names = .ok middle ∧ tree.walk middle more = .ok found := by
  induction names generalizing place with
  | nil => simp [walk]
  | cons name names ih =>
      rw [List.cons_append, walk_cons, ih]
      simp only [walk_cons]
      constructor
      · rintro ⟨here, middle, leads, rest⟩
        exact ⟨middle, ⟨here, leads⟩, rest⟩
      · rintro ⟨middle, ⟨here, leads⟩, rest⟩
        exact ⟨here, middle, leads, rest⟩

/-- What stands below a place stands in folders from there on. -/
theorem WellFormed.above (formed : tree.WellFormed) {names : List String} (some : names ≠ [])
    (below : tree.find? (place ++ names) = .some node) : tree.find? place = .some .folder := by
  induction names using List.reverseRecOn generalizing node with
  | nil => exact absurd rfl some
  | append_singleton names name ih =>
      rw [← List.append_assoc] at below
      have here := formed.inside below
      by_cases nothing : names = []
      · rwa [nothing, List.append_nil] at here
      · exact ih nothing here

theorem WellFormed.walk_ok (formed : tree.WellFormed) {names : List String} (down : ".." ∉ names)
    (below : tree.find? (place ++ names) = some node) :
    tree.walk place names = .ok (place ++ names) := by
  induction names generalizing place with
  | nil => simp [walk]
  | cons name names ih =>
      rw [List.mem_cons, not_or] at down
      obtain ⟨noBack, rest⟩ := down
      refine walk_cons.2 ⟨formed.above (List.cons_ne_nil name names) below, ?_⟩
      have split : place ++ name :: names = place ++ [name] ++ names := by simp
      rw [if_neg (Ne.symm noBack), split]
      exact ih rest (split ▸ below)

/-- Around where names lead there is a folder, or it is one itself. -/
theorem WellFormed.around (formed : tree.WellFormed) {found : Location} {names : List String}
    (here : tree.find? place = some .folder) (leads : tree.walk place names = .ok found) :
    tree.find? found = some .folder ∨
      ∃ folder name, found = folder ++ [name] ∧ tree.find? folder = some .folder := by
  cases names using List.reverseRecOn with
  | nil =>
      rw [walk] at leads
      cases leads
      exact .inl here
  | append_singleton names name =>
      obtain ⟨middle, _, last⟩ := walk_append.1 leads
      obtain ⟨folder, last⟩ := walk_cons.1 last
      rw [walk] at last
      cases last
      by_cases up : name = ".."
      · left
        rw [if_pos up]
        cases middle using List.reverseRecOn with
        | nil => rfl
        | append_singleton middle last =>
            rw [List.dropLast_concat]
            exact formed.inside folder
      · right
        exact ⟨middle, name, if_neg up, folder⟩

/-- Where a path leads from, if it is not empty. -/
def base (tree : FileTree) (path : Path) : Location :=
  if path.isAbsolute then [] else tree.current

theorem locate_ok {found : Location} (leads : tree.locate path = .ok found) :
    tree.walk (tree.base path) path.segments = .ok found := by
  unfold locate at leads
  split at leads
  · cases leads
  · exact leads

/-- Where names lead from a place once all folders on the way are there. -/
def follow (place : Location) (names : List String) : Location :=
  names.foldl (fun place name => if name = ".." then place.dropLast else place ++ [name]) place

/-- Where the names of a path lead once all folders on the way are there. -/
def destination (tree : FileTree) (path : Path) : Location :=
  follow (tree.base path) path.segments

theorem walk_eq_follow {found : Location} {names : List String}
    (leads : tree.walk place names = .ok found) : found = follow place names := by
  induction names generalizing place with
  | nil =>
      rw [walk] at leads
      exact (Except.ok.inj leads).symm
  | cons name names ih =>
      obtain ⟨_, rest⟩ := walk_cons.1 leads
      exact ih rest

theorem locate_eq_destination {found : Location} (leads : tree.locate path = .ok found) :
    found = tree.destination path :=
  walk_eq_follow (locate_ok leads)

theorem follow_append_singleton (place : Location) (dirs : List String) {name : String}
    (down : name ≠ "..") : follow place (dirs ++ [name]) = follow place dirs ++ [name] := by
  rw [follow, List.foldl_append, List.foldl_cons, List.foldl_nil, if_neg down]
  rfl

theorem destination_congr (current : tree'.current = tree.current) (path : Path) :
    tree'.destination path = tree.destination path := by
  rw [destination, destination, base, base, current]

theorem locate_of_walk {found : Location} (some : path.text ≠ "")
    (leads : tree.walk (tree.base path) path.segments = .ok found) :
    tree.locate path = .ok found := by
  rw [locate, String.isEmpty_eq_false_iff.2 some]
  exact leads

theorem WellFormed.base (formed : tree.WellFormed) (path : Path) :
    tree.find? (tree.base path) = some .folder := by
  unfold FileTree.base
  split
  · rfl
  · exact formed.current

/-- What a path shows: where it leads, and what stands there. -/
def at? (tree : FileTree) (path : Path) : Option (Location × FileNode) :=
  (tree.resolve path).toOption

theorem resolve_of_at? (shows : tree.at? path = some (place, node)) :
    tree.resolve path = .ok (place, node) := by
  unfold at? at shows
  cases found : tree.resolve path with
  | error fault =>
      rw [found] at shows
      cases shows
  | ok other =>
      rw [found] at shows
      cases shows
      rfl

theorem at?_eq_some :
    tree.at? path = some (place, node) ↔
      tree.locate path = .ok place ∧ tree.find? place = some node ∧
        (path.meansFolder → node = .folder) := by
  unfold at? resolve
  cases leads : tree.locate path with
  | error fault => simp [Except.toOption, bind, Except.bind]
  | ok found =>
      simp only [bind, Except.bind]
      cases there : tree.find? found with
      | none =>
          simp only [Except.toOption, reduceCtorEq, false_iff]
          rintro ⟨⟨⟩, here, _⟩
          simp [there] at here
      | some stands =>
          cases stands with
          | folder =>
              simp only [Except.toOption, Option.some.injEq, Prod.mk.injEq]
              constructor
              · rintro ⟨rfl, rfl⟩
                exact ⟨rfl, there, fun _ => rfl⟩
              · rintro ⟨⟨⟩, here, _⟩
                rw [there] at here
                cases here
                exact ⟨rfl, rfl⟩
          | file pieces =>
              cases means : path.meansFolder with
              | true =>
                  simp only [if_true, Except.toOption, reduceCtorEq, false_iff]
                  rintro ⟨⟨⟩, here, only⟩
                  rw [only trivial, there] at here
                  cases here
              | false =>
                  simp only [Bool.false_eq_true, if_false, Except.toOption, Option.some.injEq,
                    Prod.mk.injEq, false_implies, and_true]
                  constructor
                  · rintro ⟨rfl, rfl⟩
                    exact ⟨rfl, there⟩
                  · rintro ⟨⟨⟩, here⟩
                    rw [there] at here
                    cases here
                    exact ⟨rfl, rfl⟩

theorem ne_folder_of_at? {pieces : List Bytes}
    (shows : tree.at? path = some (place, .file pieces)) : tree.find? place ≠ some .folder := by
  obtain ⟨_, stands, _⟩ := at?_eq_some.1 shows
  rw [stands]
  exact fun never => by cases never

/-- Two disks show the same at a path if it leads to the same places on them, and
    what stands there is the same or cannot be seen. -/
theorem at?_congr (leads : ∀ place, tree.locate path = .ok place ↔ tree'.locate path = .ok place)
    (stands : ∀ place, tree.locate path = .ok place → tree'.find? place = tree.find? place ∨
      path.meansFolder ∧ tree.find? place ≠ some .folder ∧ tree'.find? place ≠ some .folder) :
    tree'.at? path = tree.at? path := by
  refine Option.ext fun found => ?_
  obtain ⟨place, node⟩ := found
  rw [at?_eq_some, at?_eq_some, ← leads]
  refine and_congr_right fun located => ?_
  rcases stands place located with same | ⟨means, none, none'⟩
  · rw [same]
  · constructor
    · rintro ⟨here, only⟩
      exact absurd (only means ▸ here) none'
    · rintro ⟨here, only⟩
      exact absurd (only means ▸ here) none

section Insert

variable {pieces : List Bytes}

theorem folders_insert_file (none : tree.find? place ≠ some .folder) (other : Location) :
    (tree.insert place (.file pieces)).find? other = some .folder ↔
      tree.find? other = some .folder := by
  rw [find?_insert _ _ (proper_of_find? none)]
  split
  · rename_i same
    subst same
    exact ⟨fun never => (by cases never), fun folder => absurd folder none⟩
  · rfl

theorem locate_congr (current : tree'.current = tree.current)
    (folders : ∀ place, tree.find? place = some .folder ↔ tree'.find? place = some .folder)
    (place : Location) : tree.locate path = .ok place ↔ tree'.locate path = .ok place := by
  unfold locate
  split
  · simp
  · rw [current]
    exact ⟨walk_mono fun place => (folders place).1, walk_mono fun place => (folders place).2⟩

theorem WellFormed.insert_file (formed : tree.WellFormed) {folder : Location} {name : String}
    (none : tree.find? (folder ++ [name]) ≠ some .folder)
    (around : tree.find? folder = some .folder) :
    (tree.insert (folder ++ [name]) (.file pieces)).WellFormed where
  current := (folders_insert_file none _).2 formed.current
  inside {place other node} below := by
    rw [folders_insert_file none]
    rw [find?_insert _ _ (proper_of_find? none)] at below
    split at below
    · rename_i same
      obtain ⟨rfl, _⟩ := List.append_inj' same rfl
      exact around
    · exact formed.inside below

/-- A file that is made where a path does not lead, or where it cannot see it, does
    not show there. -/
theorem at?_insert_file (none : tree.find? place ≠ some .folder)
    (aside : tree.locate path = .ok place → path.meansFolder) :
    (tree.insert place (.file pieces)).at? path = tree.at? path := by
  refine at?_congr (locate_congr rfl fun other => (folders_insert_file none other).symm) ?_
  intro other located
  by_cases same : other = place
  · subst same
    exact .inr ⟨aside located, none, mt (folders_insert_file none other).1 none⟩
  · left
    rw [find?_insert _ _ (proper_of_find? none), if_neg same]

theorem at?_insert_self (leads : tree.locate path = .ok place)
    (none : tree.find? place ≠ some .folder) (file : ¬ path.meansFolder) :
    (tree.insert place (.file pieces)).at? path = some (place, .file pieces) := by
  refine at?_eq_some.2 ⟨?_, ?_, fun means => absurd means file⟩
  · exact (locate_congr (by rfl) (fun other => (folders_insert_file none other).symm) place).1 leads
  · rw [find?_insert _ _ (proper_of_find? none), if_pos rfl]

end Insert

/-- Where a path leads is settled, or it leads down. -/
def Steady (tree : FileTree) (path : Path) : Prop :=
  (∃ place, tree.locate path = .ok place) ∨ ".." ∉ path.segments

/-- A path that another one goes on from. -/
structure Leads (first path : Path) : Prop where
  absolute : first.isAbsolute = path.isAbsolute
  names : ∃ name names, path.segments = first.segments ++ name :: names

theorem find?_insert_folder_mono (none : tree.find? place = none) {other : Location}
    (folder : tree.find? other = some .folder) :
    (tree.insert place .folder).find? other = some .folder := by
  have proper : place ≠ [] := by
    rintro rfl
    cases none
  rw [find?_insert _ _ proper]
  split
  · rfl
  · exact folder

theorem makeFolder_ok {first : Path} (made : tree.makeFolder first = .ok tree') :
    ∃ place, tree.locate first = .ok place ∧ tree.find? place = none ∧
      tree' = tree.insert place .folder := by
  unfold makeFolder at made
  cases located : tree.locate first with
  | error fault =>
      rw [located] at made
      cases made
  | ok place =>
      rw [located] at made
      simp only [bind, Except.bind] at made
      split at made
      · cases made
      · rename_i none
        cases made
        exact ⟨place, rfl, none, rfl⟩

theorem WellFormed.makeFolder {first : Path} (formed : tree.WellFormed)
    (made : tree.makeFolder first = .ok tree') : tree'.WellFormed := by
  obtain ⟨place, located, none, rfl⟩ := makeFolder_ok made
  have proper : place ≠ [] := by
    rintro rfl
    cases none
  have mono : ∀ other, tree.find? other = some .folder →
      (tree.insert place .folder).find? other = some .folder := fun _ =>
    find?_insert_folder_mono none
  refine ⟨?_, mono _ formed.current⟩
  intro above name node below
  rw [find?_insert _ _ proper] at below
  split at below
  · rename_i same
    rcases formed.around (formed.base first) (locate_ok located) with
      folder | ⟨folder, last, rfl, around⟩
    · rw [none] at folder
      cases folder
    · obtain ⟨rfl, _⟩ := List.append_inj' same rfl
      exact mono _ around
  · exact mono _ (formed.inside below)

/-- A folder that is made on the way to a path does not show there. -/
theorem at?_makeFolder {first : Path} (formed : tree.WellFormed) (steady : tree.Steady path)
    (leads : Leads first path) (made : tree.makeFolder first = .ok tree') :
    tree'.WellFormed ∧ tree'.Steady path ∧ tree'.at? path = tree.at? path := by
  have formed' := formed.makeFolder made
  obtain ⟨place, located, none, rfl⟩ := makeFolder_ok made
  have walked := locate_ok located
  have proper : place ≠ [] := by
    rintro rfl
    cases none
  obtain ⟨name, names, further⟩ := leads.names
  have based : tree.base first = tree.base path := by
    rw [base, base, leads.absolute]
  rw [based] at walked
  -- Nothing leads on from a place where nothing is.
  have lost : ∀ found, tree.walk (tree.base path) path.segments ≠ .ok found := by
    intro found leads
    rw [further, walk_append] at leads
    obtain ⟨middle, first', rest⟩ := leads
    rw [walked] at first'
    cases first'
    obtain ⟨folder, _⟩ := walk_cons.1 rest
    rw [none] at folder
    cases folder
  have down : ".." ∉ path.segments := by
    rcases steady with ⟨found, leads⟩ | down
    · exact absurd (locate_ok leads) (lost found)
    · exact down
  refine ⟨formed', .inr down, Option.ext fun found => ?_⟩
  obtain ⟨found, node⟩ := found
  rw [at?_eq_some, at?_eq_some]
  constructor
  · rintro ⟨leads', there, _⟩
    have walked' := locate_ok leads'
    have whole : found = tree.base path ++ path.segments := walk_down down walked'
    have shorter : place = tree.base path ++ first.segments :=
      walk_down (fun member => down (further ▸ List.mem_append_left _ member)) walked
    have apart : found ≠ place := by
      rw [whole, shorter, further, ← List.append_assoc]
      intro same
      have := congrArg List.length same
      rw [List.length_append, List.length_cons] at this
      omega
    rw [find?_insert _ _ proper, if_neg apart, whole] at there
    exact absurd (formed.walk_ok down there) (lost _)
  · rintro ⟨leads', _⟩
    exact absurd (locate_ok leads') (lost found)

section Files

variable {pieces : List Bytes} {source target : Path}

theorem folders_erase (none : tree.find? place ≠ some .folder) (other : Location) :
    (tree.erase place).find? other = some .folder ↔ tree.find? other = some .folder := by
  rw [find?_erase _ (proper_of_find? none)]
  split
  · rename_i same
    subst same
    exact ⟨fun never => (by cases never), fun folder => absurd folder none⟩
  · rfl

theorem WellFormed.erase (formed : tree.WellFormed) (none : tree.find? place ≠ some .folder) :
    (tree.erase place).WellFormed where
  current := (folders_erase none _).2 formed.current
  inside {above name node} below := by
    rw [folders_erase none]
    rw [find?_erase _ (proper_of_find? none)] at below
    split at below
    · cases below
    · exact formed.inside below

theorem WellFormed.around_locate (formed : tree.WellFormed) (leads : tree.locate path = .ok place)
    (none : tree.find? place ≠ some .folder) :
    ∃ folder name, place = folder ++ [name] ∧ tree.find? folder = some .folder := by
  rcases formed.around (formed.base path) (locate_ok leads) with folder | around
  · exact absurd folder none
  · exact around

theorem settle_cases {result : Except DiskFault FileTree} {reply : Except DiskFault Unit}
    (settled : tree.settle result = (reply, tree')) :
    (∃ fault, reply = .error fault ∧ tree' = tree) ∨ reply = .ok () ∧ result = .ok tree' := by
  cases result with
  | error fault =>
      cases settled
      exact .inl ⟨fault, rfl, rfl⟩
  | ok changed =>
      cases settled
      exact .inr ⟨rfl, rfl⟩

theorem truncate_ok (emptied : tree.truncate path = .ok tree') :
    ∃ place, tree.locate path = .ok place ∧ ¬ path.meansFolder ∧
      tree.find? place ≠ some .folder ∧ tree' = tree.insert place (.file []) := by
  unfold truncate at emptied
  cases leads : tree.locate path with
  | error fault =>
      rw [leads] at emptied
      cases emptied
  | ok place =>
      rw [leads] at emptied
      simp only [bind, Except.bind] at emptied
      split at emptied
      · cases emptied
      · rename_i file
        split at emptied
        · cases emptied
        · rename_i none
          cases emptied
          exact ⟨place, rfl, file, none, rfl⟩

theorem at?_truncate (emptied : tree.truncate path = .ok tree') :
    ∃ place, tree'.at? path = some (place, .file []) := by
  obtain ⟨place, leads, file, none, rfl⟩ := truncate_ok emptied
  exact ⟨place, at?_insert_self leads none file⟩

/-- What is written goes to the end of the file that the path shows. -/
theorem append_eq (tree : FileTree) (path : Path) (data : Bytes) :
    tree.append path data = tree ∨ ∃ place pieces, tree.at? path = some (place, .file pieces) ∧
      tree.append path data = tree.insert place (.file (data :: pieces)) := by
  unfold append at?
  cases tree.resolve path with
  | error fault => exact .inl rfl
  | ok found =>
      obtain ⟨place, node⟩ := found
      cases node with
      | folder => exact .inl rfl
      | file pieces => exact .inr ⟨place, pieces, rfl, rfl⟩

theorem append_of_at? (shows : tree.at? path = some (place, .file pieces)) (data : Bytes) :
    tree.append path data = tree.insert place (.file (data :: pieces)) := by
  rw [append, resolve_of_at? shows]

theorem at?_append (shows : tree.at? path = some (place, .file pieces)) (data : Bytes) :
    (tree.append path data).at? path = some (place, .file (data :: pieces)) := by
  obtain ⟨leads, _, file⟩ := at?_eq_some.1 shows
  rw [append_of_at? shows]
  refine at?_insert_self leads (ne_folder_of_at? shows) fun means => ?_
  cases file means

theorem WellFormed.truncate (formed : tree.WellFormed)
    (emptied : tree.truncate path = .ok tree') : tree'.WellFormed := by
  obtain ⟨place, leads, _, none, rfl⟩ := truncate_ok emptied
  obtain ⟨folder, name, rfl, around⟩ := formed.around_locate leads none
  exact formed.insert_file none around

theorem WellFormed.append (formed : tree.WellFormed) (path : Path) (data : Bytes) :
    (tree.append path data).WellFormed := by
  rcases tree.append_eq path data with same | ⟨place, pieces, there, written⟩
  · rwa [same]
  · obtain ⟨leads, _⟩ := at?_eq_some.1 there
    have none := ne_folder_of_at? there
    obtain ⟨folder, name, rfl, around⟩ := formed.around_locate leads none
    rw [written]
    exact formed.insert_file none around

theorem rename_ok (moved : tree.rename source target = .ok tree') :
    ∃ start pieces place, tree.at? source = some (start, .file pieces) ∧
      tree.locate target = .ok place ∧ tree.find? place ≠ some .folder ∧ ¬ target.meansFolder ∧
        (place = start ∧ tree' = tree ∨
          tree' = (tree.erase start).insert place (.file pieces)) := by
  unfold rename at moved
  cases resolved : tree.resolve source with
  | error fault =>
      rw [resolved] at moved
      cases moved
  | ok found =>
      obtain ⟨start, node⟩ := found
      rw [resolved] at moved
      have shows : tree.at? source = some (start, node) := by rw [at?, resolved]; rfl
      cases node with
      | folder => cases moved
      | file pieces =>
          simp only [bind, Except.bind] at moved
          cases leads : tree.locate target with
          | error fault =>
              rw [leads] at moved
              cases moved
          | ok place =>
              rw [leads] at moved
              dsimp only at moved
              split at moved
              · cases moved
              · rename_i none
                refine ⟨start, pieces, place, shows, rfl, none, ?_⟩
                split at moved
                · cases moved
                · rename_i file
                  refine ⟨file, ?_⟩
                  split at moved
                  · rename_i same
                    cases moved
                    rw [Bool.and_eq_true, decide_eq_true_iff] at same
                    exact .inl ⟨same.2, rfl⟩
                  · cases moved
                    exact .inr rfl

theorem at?_rename (moved : tree.rename source target = .ok tree')
    (shows : tree.at? source = some (place, .file pieces)) :
    ∃ place', tree'.at? target = some (place', .file pieces) := by
  obtain ⟨start, _, goal, shows', leads, none, file, outcome⟩ := rename_ok moved
  rw [shows] at shows'
  cases shows'
  obtain ⟨_, stands, _⟩ := at?_eq_some.1 shows
  have sourceNone := ne_folder_of_at? shows
  rcases outcome with ⟨rfl, rfl⟩ | rfl
  · exact ⟨goal, at?_eq_some.2 ⟨leads, stands, fun means => absurd means file⟩⟩
  · have goalNone : (tree.erase place).find? goal ≠ some .folder :=
      mt (folders_erase sourceNone goal).1 none
    have leads' : (tree.erase place).locate target = .ok goal :=
      (locate_congr (by rfl) (fun other => (folders_erase sourceNone other).symm) goal).1 leads
    exact ⟨goal, at?_insert_self leads' goalNone file⟩

theorem WellFormed.rename (formed : tree.WellFormed)
    (moved : tree.rename source target = .ok tree') : tree'.WellFormed := by
  obtain ⟨start, pieces, goal, shows, leads, none, file, outcome⟩ := rename_ok moved
  have sourceNone := ne_folder_of_at? shows
  rcases outcome with ⟨_, rfl⟩ | rfl
  · exact formed
  · obtain ⟨folder, name, rfl, around⟩ := formed.around_locate leads none
    exact (formed.erase sourceNone).insert_file (mt (folders_erase sourceNone _).1 none)
      ((folders_erase sourceNone _).2 around)

end Files

end FileTree

end Strongroom
