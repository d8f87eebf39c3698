import Strongroom.CommandLine.Run
import Strongroom.Proofs.Blob.Shelf
import Strongroom.Proofs.Disk.Siblings

/-! # Where a file is fetched to

A fetch writes a hidden file beside its target and moves it there. Without a path of
its own the target is the last name of the stored one, and whoever chose that name
cannot lead the fetch out of the current folder.
-/

namespace Strongroom

open Strongroom.Path (IsComponent)

namespace Command

variable {out : Path} {name : String}

/-- The last name of the hidden file beside a path. -/
def hiddenName (out : Path) : String :=
  let name := out.fileName?.getD "download"
  s!".{name}.part"

theorem partPath_eq (out : Path) : partPath out = out.withFileName (hiddenName out) := rfl

theorem toList_hiddenName (out : Path) :
    (hiddenName out).toList =
      '.' :: ((out.fileName?.getD "download").toList ++ ['.', 'p', 'a', 'r', 't']) := by
  simp only [hiddenName, String.toList_append]
  rfl

theorem component_hiddenName (out : Path) : IsComponent (hiddenName out) := by
  have text := toList_hiddenName out
  have plain : '/' ∉ (out.fileName?.getD "download").toList := by
    cases named : out.fileName? with
    | none => decide
    | some name => exact (Path.exists_front named).1.plain
  have size : 2 < (hiddenName out).toList.length := by
    rw [text, List.length_cons, List.length_append]
    simp
  refine ⟨?_, ?_, ?_, ?_⟩
  · rintro same
    rw [same] at size
    cases size
  · rintro same
    rw [same] at size
    exact absurd size (by decide)
  · rintro same
    rw [same] at size
    exact absurd size (by decide)
  · rw [text]
    simp [plain]

theorem fileName?_ne_hiddenName (out : Path) : out.fileName? ≠ some (hiddenName out) := by
  intro same
  have length := congrArg (List.length ∘ String.toList) (congrArg (·.getD "download") same)
  simp only [Function.comp_apply, Option.getD_some, toList_hiddenName, List.length_cons,
    List.length_append] at length
  omega

theorem partPath_of_component (component : IsComponent name) :
    partPath ⟨name⟩ = ⟨hiddenName ⟨name⟩⟩ := by
  rw [partPath_eq]
  exact component.withFileName (component_hiddenName _)

/-- Every step changes something at some paths alone. -/
def Within (paths : List Path) {α : Type} (script : Script α) : Prop :=
  script.Asks fun s => ∀ path ∈ s.targets, path ∈ paths

theorem within_pure (paths : List Path) {α : Type} (value : α) :
    Within paths (pure value : Script α) :=
  True.intro

theorem within_ite {paths : List Path} {α : Type} {condition : Prop} [Decidable condition]
    {first second : Script α} (yes : Within paths first) (no : Within paths second) :
    Within paths (if condition then first else second) := by
  by_cases holds : condition
  · rwa [if_pos holds]
  · rwa [if_neg holds]

theorem within_of_looking {paths : List Path} {α : Type} {script : Script α}
    (looks : script.Asks fun s => s.targets = []) : Within paths script := by
  refine looks.mono fun s nothing path member => ?_
  rw [nothing] at member
  cases member

theorem within_of_none {paths : List Path} {s : Step} (nothing : s.targets = []) :
    Within paths (Script.ask s) :=
  within_of_looking ⟨nothing, fun _ => trivial⟩

theorem within_load (paths : List Path) (service : Service) (download : Download) :
    Within paths (download.load service) := by
  unfold Download.load
  split
  · trivial
  · refine (within_of_looking (BlobStore.asks_read _ _)).bind fun found => ?_
    cases found with
    | error | ok => trivial

theorem within_fetch (target : Path) (fuel : Nat) (download : Download) :
    Within [target] (fetch target fuel download) := by
  induction fuel generalizing download with
  | zero => trivial
  | succ fuel ih =>
      unfold fetch
      split
      · trivial
      · refine (within_of_none rfl).bind fun reply => ?_
        cases reply with
        | error | ok => trivial
      · refine Script.Asks.bind ⟨fun path member => member, fun _ => trivial⟩ fun reply => ?_
        cases reply with
        | error fault => trivial
        | ok => exact ih _

/-- A fetch changes something at its target and at the hidden file alone. -/
theorem within_receive (service : Service) (download : Download) (out : Path) :
    Within [partPath out, out] (receive service download out) := by
  have here {s : Step} (targets : s.targets = [partPath out]) :
      Within [partPath out, out] (Script.ask s) := by
    refine ⟨fun path member => ?_, fun _ => trivial⟩
    rw [targets] at member
    exact List.mem_cons.2 (.inl (List.mem_singleton.1 member))
  unfold receive
  refine (here rfl).bind fun reply => ?_
  cases reply with
  | error fault => trivial
  | ok =>
      refine (within_load _ service download).bind fun download => ?_
      have kept := (within_fetch (partPath out) download.bound download).mono
        fun s targets path member =>
          show path ∈ [partPath out, out] from
            List.mem_cons.2 (.inl (List.mem_singleton.1 (targets path member)))
      refine kept.bind fun result => ?_
      cases result with
      | error failure => exact (here rfl).bind fun _ => trivial
      | ok =>
          refine Script.Asks.bind ⟨fun path member => member, fun _ => trivial⟩ fun reply => ?_
          cases reply with
          | error | ok => trivial

end Command

namespace Download

/-- A start that gives a download has found the record and the key of a user's file. -/
structure StartOf (service : Service) (file : FileId) (user : UserId) (record : FileRecord)
    (key : DataKey) : Prop where
  owned : service.ownedRecord file user = .ok record
  known : service.keyOf record.owner = .ok key

theorem returns_start (service : Service) (file : FileId) (user : UserId) :
    (start service file user).Returns fun (result, after) => ∀ download, result = .ok download →
      ∃ record key, StartOf service file user record key ∧
        download = ofSource record key service.config [] ∧
          after = service.note .get record.blobName := by
  unfold start
  cases owned : service.ownedRecord file user with
  | error e => exact fun _ never => by cases never
  | ok record =>
      cases known : service.keyOf record.owner with
      | error e =>
          simp only [known]
          exact fun _ never => by cases never
      | ok key =>
          simp only [known]
          refine (Script.returns_true _).bind fun found _ => ?_
          rcases found with (_ | _ | _ | _ | _ | _ | _ | _ | _ | _ | _) | _
          case ok =>
            dsimp only
            split
            · exact fun _ never => by cases never
            · rintro _ ⟨⟩
              exact ⟨record, key, ⟨owned, known⟩, rfl, rfl⟩
          all_goals exact fun _ never => by cases never

end Download

namespace Command

variable {service : Service} {user : UserId} {file : FileId} {record : FileRecord}

/-- What is said of a stored name that cannot be a target. -/
def unnamed (record : FileRecord) : Outcome :=
  .failed ⟨s!"stored name {Text.quote record.fileName} is not a file name", []⟩

theorem within_start (paths : List Path) (service : Service) (file : FileId) (user : UserId) :
    Within paths (Download.start service file user) := by
  unfold Download.start
  split
  · exact within_pure _ _
  · split
    · exact within_pure _ _
    · refine (within_of_looking (BlobStore.asks_find _ _)).bind fun found => ?_
      split
      · exact within_pure _ _
      · exact within_pure _ _
      · exact within_ite (within_pure _ _) (within_pure _ _)

theorem runGet_of_none (owned : service.ownedRecord file user = .ok record) {out : Option Path}
    (nowhere : target? record out = none) :
    Within [] (runGet service user file out) ∧
      (runGet service user file out).Returns fun outcome =>
        outcome = unnamed record ∨ ∃ halt, outcome = .ofHalt halt (clientFailure file) := by
  have starts := Download.returns_start service file user
  constructor
  · refine (within_start [] service file user).bind_returns starts ?_
    rintro ⟨halt | download, after⟩ gives
    · exact within_pure _ _
    · obtain ⟨found, key, start, rfl, rfl⟩ := gives download rfl
      obtain rfl := Except.ok.inj (start.owned.symm.trans owned)
      have nowhere : target? (Download.ofSource found key service.config []).record out = none :=
        nowhere
      simp only [nowhere]
      exact within_pure _ _
  · refine starts.bind ?_
    rintro ⟨halt | download, after⟩ gives
    · exact .inr ⟨halt, rfl⟩
    · obtain ⟨found, key, start, rfl, rfl⟩ := gives download rfl
      obtain rfl := Except.ok.inj (start.owned.symm.trans owned)
      have nowhere : target? (Download.ofSource found key service.config []).record out = none :=
        nowhere
      simp only [nowhere]
      exact .inl rfl

theorem within_runGet (owned : service.ownedRecord file user = .ok record) {out : Option Path}
    {target : Path} (leads : target? record out = some target) :
    Within [partPath target, target] (runGet service user file out) := by
  refine (within_start _ service file user).bind_returns
    (Download.returns_start service file user) ?_
  rintro ⟨halt | download, after⟩ gives
  · exact within_pure _ _
  · obtain ⟨found, key, start, rfl, rfl⟩ := gives download rfl
    obtain rfl := Except.ok.inj (start.owned.symm.trans owned)
    have leads : target? (Download.ofSource found key service.config []).record out =
        some target := leads
    simp only [leads]
    exact within_receive _ _ _

/-- A script whose targets are two ordinary names changes two children of the current
    folder alone. -/
theorem sameBut_of_components {name hidden : String} {α : Type} {script : Script α} {value : α}
    {tree tree' : FileTree} (component : IsComponent name) (component' : IsComponent hidden)
    (within : Within [⟨hidden⟩, ⟨name⟩] script)
    (runs : Script.Runs FileTree.faltering tree script value tree') :
    FileTree.SameBut
      (fun place => place = tree.current ++ [name] ∨ place = tree.current ++ [hidden])
      tree tree' := by
  refine .of_runs within ?_ runs
  rintro now current place ⟨path, member, located⟩
  rw [← current]
  rcases List.mem_cons.1 member with rfl | other
  · exact .inr (FileTree.place_of_component component' located)
  · obtain rfl := List.mem_singleton.1 other
    exact .inl (FileTree.place_of_component component located)

theorem target?_none (record : FileRecord) :
    target? record none = ((Path.mk record.fileName).fileName?).map Path.mk := rfl

/-- Whatever name a file is stored under, its target in the current folder is the last
    name that says something. If there is none, or it leads back, the file is refused
    and nothing is changed. Else the target and the hidden file are two paths of one
    ordinary name each; no step changes anything at another path, and nothing but these
    two children of the current folder changes, whatever fails. -/
theorem stored_name_stays_in_current_folder
    (owned : service.ownedRecord file user = .ok record) :
    let names := (Path.mk record.fileName).segments
    let script := runGet service user file none
    ((names.getLast? = none ∨ names.getLast? = some "..") ∧ target? record none = none ∧
        (script.Asks fun s => s.targets = []) ∧
          script.Returns fun outcome =>
            outcome = unnamed record ∨ ∃ halt, outcome = .ofHalt halt (clientFailure file)) ∨
      ∃ name hidden, names.getLast? = some name ∧ IsComponent name ∧ IsComponent hidden ∧
        hidden ≠ name ∧ target? record none = some ⟨name⟩ ∧ partPath ⟨name⟩ = ⟨hidden⟩ ∧
          (script.Asks fun s => ∀ path ∈ s.targets, path = ⟨name⟩ ∨ path = ⟨hidden⟩) ∧
            ∀ tree outcome tree', Script.Runs FileTree.faltering tree script outcome tree' →
              FileTree.SameBut
                (fun place => place = tree.current ++ [name] ∨ place = tree.current ++ [hidden])
                tree tree' := by
  intro names script
  have last := Path.fileName?_eq ⟨record.fileName⟩
  cases named : (Path.mk record.fileName).fileName? with
  | none =>
      have nowhere : target? record none = none := by rw [target?_none, named]; rfl
      obtain ⟨within, returns⟩ := runGet_of_none owned nowhere
      refine .inl ⟨?_, nowhere, within.mono fun s targets => ?_, returns⟩
      · rw [named] at last
        cases final : names.getLast? with
        | none => exact .inl rfl
        | some name =>
            have gone := Option.filter_eq_none_iff.1 last.symm name final
            exact .inr (congrArg some (by simpa using gone))
      · exact List.eq_nil_iff_forall_not_mem.2 fun path member => by cases targets path member
  | some name =>
      have component := (Path.exists_front named).1
      have final : names.getLast? = some name := by
        rw [named] at last
        exact (Option.filter_eq_some_iff.1 last.symm).1
      have leads : target? record none = some ⟨name⟩ := by rw [target?_none, named]; rfl
      have beside := partPath_of_component component
      have hidden := component_hiddenName ⟨name⟩
      have within := within_runGet owned leads
      rw [beside] at within
      refine .inr ⟨name, hiddenName ⟨name⟩, final, component, hidden, ?_, leads, beside, ?_, ?_⟩
      · intro same
        apply fileName?_ne_hiddenName ⟨name⟩
        rw [same]
        exact component.fileName?
      · refine within.mono fun s targets path member => ?_
        rcases List.mem_cons.1 (targets path member) with rfl | other
        · exact .inr rfl
        · exact .inl (List.mem_singleton.1 other)
      · exact fun tree outcome tree' runs => sameBut_of_components component hidden within runs

/-- A name that leads far up gives two children of the current folder. -/
theorem passwd_stays_in_current_folder :
    let record : FileRecord := { (default : FileRecord) with fileName := "../../etc/passwd" }
    let service : Service :=
      ⟨.memory [], .memory ⟨[], [record]⟩, ⟨List.replicate 32 0, rfl⟩, {}, ⟨fun _ => 0, 0⟩,
        ⟨fun _ => default, 0⟩, 0, {}, []⟩
    let script := runGet service record.owner record.id none
    service.ownedRecord record.id record.owner = .ok record ∧
      target? record none = some ⟨"passwd"⟩ ∧ partPath ⟨"passwd"⟩ = ⟨".passwd.part"⟩ ∧
        ∀ tree outcome tree', Script.Runs FileTree.faltering tree script outcome tree' →
          FileTree.SameBut
            (fun place => place = tree.current ++ ["passwd"] ∨
              place = tree.current ++ [".passwd.part"])
            tree tree' := by
  intro record service script
  have owned : service.ownedRecord record.id record.owner = .ok record := by
    simp [Service.ownedRecord, Catalog.file?, Catalog.entries, Entries.file?, service]
  have leads : target? record none = some ⟨"passwd"⟩ := by decide
  have beside : partPath ⟨"passwd"⟩ = ⟨".passwd.part"⟩ := by decide
  rcases stored_name_stays_in_current_folder owned with
    ⟨_, nowhere, _⟩ | ⟨name, hidden, _, _, _, _, leads', beside', _, confined⟩
  · rw [leads] at nowhere
    cases nowhere
  · rw [leads] at leads'
    cases leads'
    rw [beside] at beside'
    cases beside'
    exact ⟨owned, leads, beside, confined⟩

example : target? { (default : FileRecord) with fileName := "a/.." } none = none := by decide
example : target? { (default : FileRecord) with fileName := "//x/.//" } none = some ⟨"x"⟩ := by
  decide

end Command

end Strongroom
