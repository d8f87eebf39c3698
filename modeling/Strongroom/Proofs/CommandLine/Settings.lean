import Strongroom.CommandLine.Run
import Strongroom.Proofs.Catalog.Durability
import Strongroom.Proofs.Catalog.Forms

/-! # A shown configuration can be loaded again

What is shown of a configuration is a document with every setting that has a
value. Written to a file it is loaded as the same configuration: the settings
without a value are left out, and having none is their default.
-/

namespace Strongroom

/-- The costs of stretching a passphrase fit in a word of 32 bits. -/
structure VaultConfig.Fits (config : VaultConfig) : Prop where
  argon2Memory : config.argon2Memory ≤ maxWord32
  argon2Passes : config.argon2Passes ≤ maxWord32
  argon2Lanes : config.argon2Lanes ≤ maxWord32

/-- The sizes of transfers fit in a signed word of 64 bits. -/
structure TransferConfig.Fits (config : TransferConfig) : Prop where
  blockSize : config.blockSize ≤ Toml.maxInteger
  handoffDepth : config.handoffDepth ≤ Toml.maxInteger
  readBufferSize : config.readBufferSize ≤ Toml.maxInteger
  downloadChunkSize : config.downloadChunkSize ≤ Toml.maxInteger

/-- A configuration whose numbers can be written. -/
structure Config.Fits (config : Config) : Prop where
  vault : config.vault.Fits
  transfer : config.transfer.Fits

namespace Toml

/-- The values that a configuration has: texts, truth values, and numbers that
    fit in an integer. -/
inductive Setting : Toml → Prop where
  | string (text : String) : Setting (.string text)
  | boolean (b : Bool) : Setting (.boolean b)
  | integer {n : Nat} : n ≤ maxInteger → Setting (.integer n)

theorem Setting.plain {value : Toml} (holds : Setting value) : Plain 0 value := by
  cases holds with
  | string text => exact .string text
  | boolean b => exact .boolean b
  | integer => exact .integer _

theorem Setting.writable {value : Toml} (holds : Setting value) : valueChars? value ≠ none := by
  cases holds with
  | string text => simp [valueChars?]
  | boolean b => simp [valueChars?]
  | integer small => exact fun none => absurd small (Nat.not_le.2 (integerChars?_eq_none.1 none))

end Toml

section Sections

@[simp] theorem setting_some {α β : Type} (default : β) (read : α → Option β) (value : α) :
    setting default read (some value) = read value := rfl

@[simp] theorem Backend.ofName?_name (backend : Backend) : ofName? backend.name = some backend := by
  cases backend with
  | fs | s3 | memory => rfl

theorem StorageConfig.ofToml?_listed (config : StorageConfig) :
    ofToml? (.table (Toml.listed fieldNames config.values)) = some config := by
  rw [ofToml?, Toml.record?_listed (by decide) rfl]
  simp [values, Toml.choice?, Toml.bool?]

theorem StorageConfig.setting_of_mem {config : StorageConfig} {value : Toml}
    (member : some value ∈ config.values) : value.Setting := by
  simp only [values, List.mem_cons, Option.some.injEq, List.not_mem_nil, or_false] at member
  rcases member with rfl | rfl | rfl | rfl | rfl | rfl
  all_goals first | exact .string _ | exact .boolean _

theorem setting_optional (text : Option String) :
    setting none (fun value : Toml => value.text?.map some) (text.map .string) = some text := by
  cases text with
  | none => rfl
  | some text => rfl

theorem VaultConfig.ofToml?_listed {config : VaultConfig} (fits : config.Fits) :
    ofToml? (.table (Toml.listed fieldNames config.values)) = some config := by
  rw [ofToml?, Toml.record?_listed (by decide) rfl]
  simp [values, setting_optional, fits.argon2Memory, fits.argon2Passes, fits.argon2Lanes]

theorem VaultConfig.setting_of_mem {config : VaultConfig} (fits : config.Fits) {value : Toml}
    (member : some value ∈ config.values) : value.Setting := by
  have narrow {n : Nat} (small : n ≤ maxWord32) : n ≤ Toml.maxInteger := small.trans (by decide)
  simp only [values, List.mem_cons, Option.some.injEq, List.not_mem_nil, or_false,
    @eq_comm _ (some value), Option.map_eq_some_iff] at member
  rcases member with rfl | ⟨_, _, rfl⟩ | rfl | ⟨_, _, rfl⟩ | rfl | rfl | rfl
  · exact .string _
  · exact .string _
  · exact .string _
  · exact .string _
  · exact .integer (narrow fits.argon2Memory)
  · exact .integer (narrow fits.argon2Passes)
  · exact .integer (narrow fits.argon2Lanes)

theorem TransferConfig.ofToml?_listed {config : TransferConfig} (fits : config.Fits) :
    ofToml? (.table (Toml.listed fieldNames config.values)) = some config := by
  have wide {n : Nat} (small : n ≤ Toml.maxInteger) : n ≤ maxWord64 := small.trans (by decide)
  rw [ofToml?, Toml.record?_listed (by decide) rfl]
  simp [values, wide fits.blockSize, wide fits.handoffDepth, wide fits.readBufferSize,
    wide fits.downloadChunkSize]

theorem TransferConfig.setting_of_mem {config : TransferConfig} (fits : config.Fits)
    {value : Toml} (member : some value ∈ config.values) : value.Setting := by
  simp only [values, List.mem_cons, Option.some.injEq, List.not_mem_nil, or_false] at member
  rcases member with rfl | rfl | rfl | rfl
  · exact .integer fits.blockSize
  · exact .integer fits.handoffDepth
  · exact .integer fits.readBufferSize
  · exact .integer fits.downloadChunkSize

theorem LogConfig.ofToml?_listed (config : LogConfig) :
    ofToml? (.table (Toml.listed fieldNames config.values)) = some config := by
  rw [ofToml?, Toml.record?_listed (by decide) rfl]
  simp [values]

theorem LogConfig.setting_of_mem {config : LogConfig} {value : Toml}
    (member : some value ∈ config.values) : value.Setting := by
  simp only [values, List.mem_cons, Option.some.injEq, List.not_mem_nil, or_false] at member
  rcases member with rfl | rfl
  all_goals exact .string _

end Sections

namespace Config

/-- The sections of a document, each with the settings that have a value. -/
def parts (config : Config) : List (String × List (String × Toml)) :=
  [ ("storage", Toml.listed StorageConfig.fieldNames config.storage.values),
    ("vault", Toml.listed VaultConfig.fieldNames config.vault.values),
    ("transfer", Toml.listed TransferConfig.fieldNames config.transfer.values),
    ("log", Toml.listed LogConfig.fieldNames config.log.values)]

theorem toText?_eq (config : Config) : config.toText? = Toml.ofSections? config.parts := rfl

theorem names_parts (config : Config) : config.parts.map Prod.fst = sectionNames := rfl

/-- A part is the fields of one section, whose names are keys and whose values
    can be written. -/
theorem part_listed {config : Config} (fits : config.Fits)
    {part : String × List (String × Toml)} (member : part ∈ config.parts) :
    ∃ names values, part.2 = Toml.listed names values ∧
      (∀ name ∈ names, Toml.IsBareName name) ∧ names.Nodup ∧
      ∀ value, some value ∈ values → value.Setting := by
  simp only [parts, List.mem_cons, List.not_mem_nil, or_false] at member
  rcases member with rfl | rfl | rfl | rfl
  · exact ⟨_, _, rfl, by decide, by decide, fun _ => StorageConfig.setting_of_mem⟩
  · exact ⟨_, _, rfl, by decide, by decide, fun _ => VaultConfig.setting_of_mem fits.vault⟩
  · exact ⟨_, _, rfl, by decide, by decide, fun _ => TransferConfig.setting_of_mem fits.transfer⟩
  · exact ⟨_, _, rfl, by decide, by decide, fun _ => LogConfig.setting_of_mem⟩

theorem tidy_parts {config : Config} (fits : config.Fits) :
    ∀ part ∈ config.parts, Toml.Tidy part.2 := by
  intro part member
  obtain ⟨names, values, same, bare, distinct, settings⟩ := part_listed fits member
  rw [same]
  exact Toml.tidy_listed bare distinct fun value inside => (settings value inside).plain

/-- Nothing in a configuration that fits keeps it from being shown. -/
theorem exists_toText? {config : Config} (fits : config.Fits) :
    ∃ text, config.toText? = some text := by
  rw [toText?_eq]
  refine Toml.exists_ofSections? fun part member pair inside => ?_
  obtain ⟨names, values, same, _, _, settings⟩ := part_listed fits member
  rw [same] at inside
  exact (settings _ (Toml.value_of_listed inside)).writable

theorem ofToml?_parts {config : Config} (fits : config.Fits) :
    ofToml? (.table (config.parts.map fun (name, pairs) => (name, .table pairs))) =
      some config := by
  have names : (config.parts.map fun part => (part.1, Toml.table part.2)).map Prod.fst =
      sectionNames := rfl
  have distinct : sectionNames.Nodup := by decide
  have found := Toml.record?_table (names ▸ distinct)
  rw [names] at found
  rw [ofToml?, found]
  simp [parts, StorageConfig.ofToml?_listed, VaultConfig.ofToml?_listed fits.vault,
    TransferConfig.ofToml?_listed fits.transfer, LogConfig.ofToml?_listed]

/-- What is shown of a configuration reads as it, behind a blank line too. -/
theorem parse?_toText {config : Config} (fits : config.Fits) {text : String}
    (shown : config.toText? = some text) :
    parse? text = some config ∧ parse? ("\n" ++ text) = some config := by
  rw [toText?_eq] at shown
  have bare : ∀ part ∈ config.parts, Toml.IsBareName part.1 := by
    have all : ∀ name ∈ sectionNames, Toml.IsBareName name := by decide
    intro part member
    rw [← names_parts config] at all
    exact all _ (List.mem_map_of_mem member)
  have distinct : (config.parts.map Prod.fst).Nodup := by
    rw [names_parts]
    decide
  have read := Toml.parse?_ofSections bare (tidy_parts fits) distinct shown
  have behind := Toml.parse?_newLine (Toml.mark_ofSections shown)
  rw [parse?, parse?, behind, read, Option.bind_some, ofToml?_parts fits]
  exact ⟨rfl, rfl⟩

theorem run_load {path : Path} {tree : FileTree} {place : Location} {pieces : List Bytes}
    {text : String} {config : Config} (stands : tree.at? path = some (place, .file pieces))
    (holds : (FileNode.file pieces).content = Bytes.ofText text)
    (read : parse? text = some config) :
    (load path).run tree = (.ok (config, true), tree) := by
  have resolved := FileTree.resolve_of_at? stands
  have looks : (Script.exists? path).run tree = (true, tree) := by
    simp [Script.exists?, Script.ask, Script.run, bind, Script.bind, pure, FileTree.perform,
      resolved, Except.toOption]
  have reads : (Script.readText path).run tree = (.ok text, tree) := by
    simp [Script.readText, Script.ask, Script.run, bind, Script.bind, pure, FileTree.perform,
      resolved, holds, Bytes.text?_ofText]
  refine Script.runs_tree.1 (Script.runs_bind.2 ⟨true, tree, Script.runs_tree.2 looks, ?_⟩)
  refine Script.runs_bind.2 ⟨.ok text, tree, Script.runs_tree.2 reads, ?_⟩
  simp only [read]
  exact .done

end Config

/-- The line above a shown configuration says where it comes from. -/
def Command.headline (path : Path) (found : Bool) : String :=
  if found then s!"# Configuration from: {path.text}\n"
  else s!"# Configuration: defaults (no file at {path.text})\n"

theorem Command.runShowConfig_eq {config : Config} {text : String}
    (shown : config.toText? = some text) (path : Path) (found : Bool) :
    runShowConfig path config found = .printed (headline path found ++ ("\n" ++ text)) := by
  rw [runShowConfig, shown]
  exact congrArg Outcome.printed String.append_assoc

/-- Every record comes back from both layouts of its JSON value, and from its TOML
    document, which only an integer beyond 63 bits keeps from being written. What is
    shown of a configuration below the headline is loaded as that configuration,
    from whatever place it is in. -/
theorem text_forms_read_back {record : FileRecord} (fits : record.Fits) (user : UserRecord)
    {config : Config} (small : config.Fits) :
    (∀ text ∈ [record.toJson.compact, record.toJson.pretty],
      (Json.parse? text).bind FileRecord.ofJson? = some record) ∧
    (Toml.ofPairs? record.toToml = none ↔ Toml.maxInteger < record.fileSize ∨
      Toml.maxInteger < record.blobSize ∨ Toml.maxInteger < record.createdAt) ∧
    (∀ text, Toml.ofPairs? record.toToml = some text →
      (Toml.parse? text).bind FileRecord.ofToml? = some record) ∧
    (∀ text ∈ [user.toJson.compact, user.toJson.pretty],
      (Json.parse? text).bind UserRecord.ofJson? = some user) ∧
    (∃ text, Toml.ofPairs? user.toToml = some text ∧
      (Toml.parse? text).bind UserRecord.ofToml? = some user) ∧
    ∃ text, (∀ path found, Command.runShowConfig path config found =
        .printed (Command.headline path found ++ text)) ∧
      ∀ (path : Path) (tree : FileTree) (place : Location) (pieces : List Bytes),
        tree.at? path = some (place, .file pieces) →
        (FileNode.file pieces).content = Bytes.ofText text →
          (Config.load path).run tree = (.ok (config, true), tree) := by
  refine ⟨fun text layout => ?_, record.ofPairs?_toToml, fun text written => ?_,
    fun text layout => ?_, ?_, ?_⟩
  · exact FileRecord.parse?_layouts fits layout
  · exact FileRecord.parse?_document fits written
  · exact UserRecord.parse?_layouts layout
  · obtain ⟨text, written⟩ := user.exists_ofPairs?_toToml
    exact ⟨text, written, UserRecord.parse?_document written⟩
  · obtain ⟨text, shown⟩ := Config.exists_toText? small
    refine ⟨"\n" ++ text, Command.runShowConfig_eq shown, ?_⟩
    intro path tree place pieces stands holds
    exact Config.run_load stands holds (Config.parse?_toText small shown).2

/-- A record too large for a TOML document, one with quotes of both kinds, and a
    configuration at the limits of its numbers. -/
theorem sample_forms_read_back :
    let record : FileRecord :=
      { id := ⟨⟨7⟩⟩, owner := ⟨⟨8⟩⟩, fileName := "a\"b\\c\x07.txt", fileSize := maxWord64,
        blobName := "files/7", blobSize := 0, createdAt := 0 }
    let user : UserRecord :=
      { id := ⟨⟨8⟩⟩, login := "'''\n\"\"\"\\", wrappedKey := [0, 255] }
    let config : Config :=
      { storage := { backend := .s3, root := "", enforceTls := true }
        vault := { kdfSalt := some "00ff", argon2Memory := maxWord32 }
        transfer := { blockSize := Toml.maxInteger } }
    Toml.ofPairs? record.toToml = none ∧
      (Json.parse? record.toJson.compact).bind FileRecord.ofJson? = some record ∧
      (∃ text, Toml.ofPairs? user.toToml = some text ∧
        (Toml.parse? text).bind UserRecord.ofToml? = some user) ∧
      ∃ text, let tree : FileTree := { entries := [(["c.toml"], .file [Bytes.ofText text])] }
        Command.runShowConfig ⟨"/c.toml"⟩ config true =
            .printed (Command.headline ⟨"/c.toml"⟩ true ++ text) ∧
          (Config.load ⟨"/c.toml"⟩).run tree = (.ok (config, true), tree) := by
  intro record user config
  have fits : record.Fits := ⟨by decide, by decide, by decide⟩
  have small : config.Fits :=
    ⟨⟨by decide, by decide, by decide⟩, ⟨by decide, by decide, by decide, by decide⟩⟩
  obtain ⟨layouts, large, _, _, document, text, shown, loaded⟩ :=
    text_forms_read_back fits user small
  refine ⟨large.2 (.inl (by decide)), layouts _ List.mem_cons_self, document, text, shown _ _, ?_⟩
  exact loaded _ _ ["c.toml"] [Bytes.ofText text] rfl (List.append_nil _)

end Strongroom
