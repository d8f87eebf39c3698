import Strongroom.CommandLine.Run
import Strongroom.Proofs.Disk.Footprint
import Strongroom.Proofs.Disk.Paths

/-! # The home folder

A path with a tilde in front leads to the home folder and goes on from there, unless
what follows the tilde is absolute by itself. Then the home folder is lost, and the
path leads wherever that text does. The key file, the store, the catalog and the
configuration are looked for where the expanded path leads, and nowhere else.
-/

namespace Strongroom

namespace Path

variable {home : String} {path rest : Path}

def underTilde (rest : Path) : Path :=
  ⟨"~/" ++ rest.text⟩

theorem expandTilde_underTilde (home : String) (rest : Path) :
    expandTilde home rest.underTilde = join ⟨home⟩ rest := by
  have text : rest.underTilde.text.toList = '~' :: '/' :: rest.text.toList := by
    simp [underTilde]
  rw [expandTilde, text]
  simp

theorem expandTilde_of_ne (other : ∀ rest, path ≠ underTilde rest) :
    expandTilde home path = path := by
  unfold expandTilde
  split
  · rename_i rest text
    refine absurd (congrArg Path.mk ?_) (other ⟨String.ofList rest⟩)
    rw [← String.toList_inj, text]
    simp
  · rfl

theorem text_ne_of_isAbsolute (absolute : path.isAbsolute) : path.text ≠ "" := by
  intro nothing
  rw [isAbsolute, nothing] at absolute
  exact absurd absolute (by decide)

theorem expandTilde_of_isAbsolute (anew : rest.isAbsolute) :
    expandTilde home rest.underTilde = rest := by
  rw [expandTilde_underTilde, join, if_pos anew]

section Home

variable (absolute : (⟨home⟩ : Path).isAbsolute)
include absolute

theorem expandTilde_of_relative (relative : rest.isAbsolute = false) :
    (expandTilde home rest.underTilde).segments =
        (⟨home⟩ : Path).segments ++ rest.segments ∧
      (expandTilde home rest.underTilde).isAbsolute := by
  have some : home ≠ "" := text_ne_of_isAbsolute absolute
  rw [expandTilde_underTilde, segments_join_relative relative some,
    isAbsolute_join_relative relative some]
  exact ⟨rfl, absolute⟩

theorem text_expandTilde_ne (some : path.text ≠ "") : (expandTilde home path).text ≠ "" := by
  by_cases tilde : ∃ rest, path = underTilde rest
  · obtain ⟨rest, rfl⟩ := tilde
    by_cases anew : rest.isAbsolute
    · rw [expandTilde_of_isAbsolute anew]
      exact text_ne_of_isAbsolute anew
    · exact text_ne_of_isAbsolute (expandTilde_of_relative absolute (by simpa using anew)).2
  · rwa [expandTilde_of_ne fun rest same => tilde ⟨rest, same⟩]

end Home

end Path

/-- A step that sees or reads what a path leads to. -/
inductive Step.Consults (path : Path) : Step → Prop where
  | look : Consults path (.look path)
  | read : Consults path (.read path)

/-- A step that finds a folder, or makes it and those around it. -/
inductive Step.Founds (root : Path) : Step → Prop where
  | canonical : Founds root (.canonical root)
  | look {path : Path} (absolute : path.isAbsolute = root.isAbsolute)
      (above : path.segments <+: root.segments) : Founds root (.look path)
  | makeFolder {path : Path} (absolute : path.isAbsolute = root.isAbsolute)
      (above : path.segments <+: root.segments) : Founds root (.makeFolder path)

namespace Script

variable {α β : Type} {path root : Path}

/-- A script has a step, and every step that it may ask for is of one kind. -/
def Does (kind : Step → Prop) : Script α → Prop
  | .done _ => False
  | .step s next => kind s ∧ ∀ reply, (next reply).Asks kind

theorem Does.bind {kind : Step → Prop} {script : Script α} {next : α → Script β}
    (first : script.Does kind) (rest : ∀ value, (next value).Asks kind) :
    (script >>= next).Does kind := by
  cases script with
  | done => exact first.elim
  | step s more => exact ⟨first.1, fun reply => (first.2 reply).bind rest⟩

theorem Does.asks {kind : Step → Prop} {script : Script α} (does : script.Does kind) :
    script.Asks kind := by
  cases script with
  | done => trivial
  | step => exact does

theorem consults_readText (path : Path) : (readText path).Does (Step.Consults path) := by
  refine Does.bind ⟨.read, fun _ => trivial⟩ fun data => ?_
  split
  · exact trivial
  · split
    · exact trivial
    · exact trivial

theorem founds_settled (absolute : path.isAbsolute = root.isAbsolute)
    (above : path.segments <+: root.segments) (fault : DiskFault) :
    (makeFoldersFrom.settled path fault).Asks (Step.Founds root) := by
  refine ⟨.look absolute above, fun reply => ?_⟩
  change (if (reply == some FileKind.folder) = true then _ else _ : Script _).Asks _
  split
  · exact trivial
  · exact trivial

theorem founds_makeFoldersFrom (fuel : Nat)
    (leads : path.text ≠ "" → path.isAbsolute = root.isAbsolute ∧
      path.segments <+: root.segments) :
    (makeFoldersFrom fuel path).Asks (Step.Founds root) := by
  induction fuel generalizing path with
  | zero => exact trivial
  | succ fuel ih =>
      unfold makeFoldersFrom
      split
      · exact trivial
      · rename_i some
        obtain ⟨absolute, above⟩ := leads (by simpa [String.isEmpty_iff] using some)
        refine ⟨.makeFolder absolute above, fun reply => ?_⟩
        rcases reply with (_ | _ | _ | _ | _ | _ | _) | _
        case error.notFound =>
          dsimp only
          split
          · exact trivial
          · rename_i parent around
            refine (ih fun named => ?_).bind fun made => ?_
            · obtain ⟨⟨name, names⟩, same⟩ := Path.segments_of_parent around named
              refine ⟨same.trans absolute, List.IsPrefix.trans ?_ above⟩
              rw [names]
              exact List.prefix_append _ _
            · rcases made with fault | _
              · exact trivial
              · refine ⟨.makeFolder absolute above, fun reply => ?_⟩
                rcases reply with fault | _
                · exact founds_settled absolute above fault
                · exact trivial
        case ok => exact trivial
        all_goals exact founds_settled absolute above _

end Script

namespace Operator

theorem founds_buildFolder (root : Path) : (buildFolder root).Does (Step.Founds root) := by
  refine Script.Does.bind ⟨.look rfl (List.prefix_refl _), fun _ => trivial⟩ fun found => ?_
  have canonical : (Script.ask (.canonical root) >>= fun reply =>
      (pure (reply.map Operator.folder) : Script _)).Asks (Step.Founds root) :=
    ⟨.canonical, fun _ => trivial⟩
  split
  · exact canonical
  · refine Script.Asks.bind ?_ fun made => ?_
    · exact Script.founds_makeFoldersFrom _ fun _ => ⟨rfl, List.prefix_refl _⟩
    · split
      · exact trivial
      · exact canonical

theorem founds_build {storage : StorageConfig} {credentials : Option Credentials}
    (folder : storage.backend = .fs) (some : storage.root ≠ "") :
    (build storage credentials).Does (Step.Founds ⟨storage.root⟩) := by
  unfold build
  rw [folder, String.isEmpty_eq_false_iff.2 some]
  refine (founds_buildFolder _).bind fun built => ?_
  split
  · exact trivial
  · exact trivial

end Operator

section Callers

variable {env : Environment}

theorem Config.consults_load (path : Path) : (load path).Does (Step.Consults path) := by
  refine Script.Does.bind ⟨.look, fun _ => trivial⟩ fun found => ?_
  split
  · refine (Script.consults_readText path).asks.bind fun text => ?_
    split
    · exact trivial
    · split
      · exact trivial
      · exact trivial
  · exact trivial

/-- A key file is all that is read for the master key. -/
theorem MasterKey.consults_load {vault : VaultConfig} {file : String}
    (key : vault.masterKeyFile = some file) :
    (load env vault).Does (Step.Consults (Path.expandTilde env.home ⟨file⟩)) := by
  unfold load material
  rw [key]
  refine Script.Does.bind ?_ fun _ => trivial
  refine (Script.consults_readText _).bind fun text => ?_
  split
  · exact trivial
  · exact trivial

theorem Catalog.consults_openFile (path : Path) :
    (openFile path).Does (Step.Consults path) := by
  refine Script.Does.bind ⟨.look, fun _ => trivial⟩ fun found => ?_
  split
  · refine (Script.consults_readText path).asks.bind fun text => ?_
    split
    · exact trivial
    · exact trivial
  · exact trivial

theorem Catalog.returns_openFile (path : Path) :
    (openFile path).Returns fun opened =>
      ∀ catalog, opened = .ok catalog → ∃ entries, catalog = .file path entries := by
  refine Script.Returns.bind (Script.returns_true _) fun found _ => ?_
  split
  · refine Script.Returns.bind (Script.returns_true _) fun text _ => ?_
    split
    · intro catalog never
      cases never
    · rename_i text
      intro catalog opened
      cases held : read path text with
      | error e =>
          rw [held] at opened
          cases opened
      | ok entries =>
          rw [held] at opened
          cases opened
          exact ⟨entries, rfl⟩
  · intro catalog opened
    cases opened
    exact ⟨{}, rfl⟩

namespace Service

theorem founds_openStore {storage : StorageConfig} (folder : storage.backend = .fs)
    (some : (Path.expandTilde env.home ⟨storage.root⟩).text ≠ "") :
    (openStore env storage).Does
      (Step.Founds (Path.expandTilde env.home ⟨storage.root⟩)) := by
  unfold openStore
  rw [folder]
  refine Script.Does.bind ?_ fun built => ?_
  · exact Operator.founds_build rfl some
  · split
    all_goals exact trivial

/-- A catalog that is kept is opened where its path leads, and stays there. -/
theorem consults_openCatalog {config : Config} (kept : config.storage.backend ≠ .memory) :
    (openCatalog env config).Does
        (Step.Consults (Path.expandTilde env.home ⟨config.vault.catalog⟩)) ∧
      (openCatalog env config).Returns fun opened => ∀ catalog, opened = .ok catalog →
        ∃ entries, catalog =
          .file (Path.expandTilde env.home ⟨config.vault.catalog⟩) entries := by
  unfold openCatalog
  split
  · exact absurd ‹_› kept
  · constructor
    · exact (Catalog.consults_openFile _).bind fun _ => trivial
    · refine (Catalog.returns_openFile _).bind fun opened returned => ?_
      intro catalog ok
      cases opened with
      | error e => cases ok
      | ok found =>
          cases ok
          exact returned catalog rfl

end Service

theorem Invocation.run_eq_load (invocation : Invocation) (random : Entropy) (ids : IdSupply)
    (clock : Nat) :
    ∃ next, invocation.run env random ids clock =
      Config.load (Path.expandTilde env.home invocation.config) >>= next :=
  ⟨_, rfl⟩

end Callers

/-- What follows a tilde goes on from the home folder exactly if it does not begin
    with a slash; else the home folder is lost. Every other path stays, and the
    expanded path is the one that the key file, the store, the catalog and the
    configuration are looked for at. -/
theorem tilde_leads_home_unless_slash {env : Environment}
    (home : (⟨env.home⟩ : Path).isAbsolute) :
    (∀ rest : Path, rest.isAbsolute = false →
      (Path.expandTilde env.home rest.underTilde).segments =
          (⟨env.home⟩ : Path).segments ++ rest.segments ∧
        (Path.expandTilde env.home rest.underTilde).isAbsolute) ∧
    (∀ rest : Path, rest.isAbsolute → Path.expandTilde env.home rest.underTilde = rest) ∧
    (∀ path : Path, (∀ rest, path ≠ .underTilde rest) →
      Path.expandTilde env.home path = path) ∧
    (∀ (vault : VaultConfig) (file : String), vault.masterKeyFile = some file →
      (MasterKey.load env vault).Does (Step.Consults (.expandTilde env.home ⟨file⟩))) ∧
    (∀ storage : StorageConfig, storage.backend = .fs → storage.root ≠ "" →
      (Service.openStore env storage).Does
        (Step.Founds (.expandTilde env.home ⟨storage.root⟩))) ∧
    (∀ config : Config, config.storage.backend ≠ .memory →
      let path := Path.expandTilde env.home ⟨config.vault.catalog⟩
      (Service.openCatalog env config).Does (Step.Consults path) ∧
        (Service.openCatalog env config).Returns fun opened => ∀ catalog,
          opened = .ok catalog → ∃ entries, catalog = .file path entries) ∧
    (∀ (invocation : Invocation) (random : Entropy) (ids : IdSupply) (clock : Nat),
      let path := Path.expandTilde env.home invocation.config
      (∃ next, invocation.run env random ids clock = Config.load path >>= next) ∧
        (Config.load path).Does (Step.Consults path)) := by
  refine ⟨fun rest relative => ?_, fun rest anew => ?_, fun path other => ?_,
    fun vault file key => ?_, fun storage folder some => ?_, fun config kept => ?_,
    fun invocation random ids clock => ⟨?_, ?_⟩⟩
  · exact Path.expandTilde_of_relative home relative
  · exact Path.expandTilde_of_isAbsolute anew
  · exact Path.expandTilde_of_ne other
  · exact MasterKey.consults_load key
  · exact Service.founds_openStore folder (Path.text_expandTilde_ne home some)
  · exact Service.consults_openCatalog kept
  · exact Invocation.run_eq_load invocation random ids clock
  · exact Config.consults_load _

/-- One slash after a tilde leads to the home folder, a second one out of it. -/
theorem second_slash_leads_out :
    let env : Environment := fun name => if name = "HOME" then some "/home/u" else none
    (Path.mk env.home).isAbsolute ∧
      (Path.expandTilde env.home ⟨"~/vault/key"⟩).segments = ["home", "u", "vault", "key"] ∧
      Path.expandTilde env.home ⟨"~//x"⟩ = ⟨"/x"⟩ := by
  intro env
  have home : (Path.mk env.home).isAbsolute := by decide
  have leads := tilde_leads_home_unless_slash home
  have inside := (leads.1 ⟨"vault/key"⟩ (by decide)).1
  have outside := leads.2.1 ⟨"/x"⟩ (by decide)
  exact ⟨home, inside.trans (by decide), outside⟩

end Strongroom
