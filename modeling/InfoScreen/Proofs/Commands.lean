import InfoScreen.Program.Run
import InfoScreen.Proofs.BankPaths
import InfoScreen.Proofs.Table
import InfoScreen.Proofs.Traffic

/-!
# Commands write all of their files or none

Everything that can be wrong with the input of a command is found out before it opens its first
file.  After that only the disk could fail: each bank of the tables has a text, and the banks go
into different files.
-/

namespace InfoScreen.Program

structure Report.Untouched (report : Report) : Prop where
  exitCode : report.exitCode = 1
  written : report.written = []

/-- The run has ended well and has written the first banks of some tables, each to the file of its
number and no two to the same. -/
structure Report.WritesBanks (report : Report) (tables : Tables) (count : Nat) (output : String)
    (format : TableFormat) : Prop where
  exitCode : report.exitCode = 0
  length : report.written.length = count
  content : ∀ bank < count, ∃ text, tables.render bank format = .ok text ∧
    report.written[bank]? = some (Table.bankPath output bank count, text)
  beside : ∀ bank < count, ∀ other < count, bank ≠ other →
    Path.Beside (Table.bankPath output bank count).toList (Table.bankPath output other count).toList

section Writing

variable {disk : Disk} {report : Report} {path content : String} {files : List (String × String)}

/-- Ordinary files are all written. -/
theorem writeFiles_eq (hfiles : ∀ file ∈ files, disk.sink? file.1 = some .file) :
    writeFiles disk report files = ({ report with written := report.written ++ files }, none) := by
  induction files generalizing report with
  | nil => rw [writeFiles, List.append_nil]
  | cons file files ih =>
    obtain ⟨hfile, hfiles⟩ := List.forall_mem_cons.mp hfiles
    simp only [writeFiles, hfile, Report.write?, ih hfiles, List.append_assoc,
      List.singleton_append]

/-- The banks of a compiled screen have texts, each under its own number. -/
theorem tableFiles_of_compile {config : Config} {screen : Screen} {tables : Tables}
    (h : Screen.ofConfig config = .ok screen) (hcompile : screen.compile = .ok tables)
    (output : String) (format : TableFormat) :
    (tableFiles tables output format).length = config.bankCount ∧
      ∀ bank < config.bankCount, ∃ text, tables.render bank format = .ok text ∧
        (tableFiles tables output format)[bank]? =
          some (Table.bankPath output bank config.bankCount, text) := by
  obtain ⟨hlength, hbanks⟩ := Bank.split_eq_ok (Screen.compile_eq_ok h hcompile).1
  refine ⟨by rw [tableFiles, List.length_map, hlength], fun bank hbank ↦ ?_⟩
  obtain ⟨entries, hget, -⟩ := hbanks bank hbank
  refine ⟨format.render tables.encoding ⟨bank, entries.toArray⟩, ?_, ?_⟩
  · rw [Tables.render, hget]
    rfl
  · rw [tableFiles, List.getElem?_map, hget, hlength]
    rfl

end Writing

/-! ## Schedules -/

section Schedules

variable {disk : Disk} {layout : Option String} {output : String} {format : TableFormat}
  {changes : List Config.Change} {config : Config} {tables : Tables}

/-- The settings that are in a layout file, or the default ones without a file. -/
inductive Decodes (disk : Disk) : Option String → Config → Prop
  | defaults : Decodes disk none {}
  | file {path text : String} {document : Document} {config : Config}
      (htext : disk.text? path = some text) (hparse : Toml.parse? text.toList = some document)
      (hsettings : Config.ofDocument? false document = some config) :
      Decodes disk (some path) config

/-- A layout file has no text, or the text is not in the notation of layout files, or what it notes
down are not settings. -/
inductive Undecodable (disk : Disk) : Option String → Prop
  | unreadable {path : String} (htext : disk.text? path = none) : Undecodable disk (some path)
  | malformed {path text : String} (htext : disk.text? path = some text)
      (hparse : Toml.parse? text.toList = none) : Undecodable disk (some path)
  | foreign {path text : String} {document : Document} (htext : disk.text? path = some text)
      (hparse : Toml.parse? text.toList = some document)
      (hsettings : Config.ofDocument? false document = none) : Undecodable disk (some path)

theorem decodes_or_undecodable (disk : Disk) (layout : Option String) :
    (∃ config, Decodes disk layout config) ∨ Undecodable disk layout := by
  cases layout with
  | none => exact .inl ⟨{}, .defaults⟩
  | some path =>
    cases htext : disk.text? path with
    | none => exact .inr (.unreadable htext)
    | some text =>
      cases hparse : Toml.parse? text.toList with
      | none => exact .inr (.malformed htext hparse)
      | some document =>
        cases hsettings : Config.ofDocument? false document with
        | none => exact .inr (.foreign htext hparse hsettings)
        | some config => exact .inl ⟨config, .file htext hparse hsettings⟩

theorem Decodes.loadConfig_eq (h : Decodes disk layout config) :
    loadConfig disk layout = .ok config := by
  cases h with
  | defaults => rfl
  | file htext hparse hsettings =>
    simp only [loadConfig, htext, hparse, hsettings, Option.bind_some]

theorem Undecodable.exists_loadConfig_eq (h : Undecodable disk layout) :
    ∃ message, loadConfig disk layout = .error message := by
  cases h with
  | unreadable htext => simp [loadConfig, htext]
  | malformed htext hparse => simp [loadConfig, htext, hparse]
  | foreign htext hparse hsettings => simp [loadConfig, htext, hparse, hsettings]

theorem Decodes.unique {other : Config} (h : Decodes disk layout config)
    (hother : Decodes disk layout other) : config = other :=
  Except.ok.inj (h.loadConfig_eq.symm.trans hother.loadConfig_eq)

theorem Undecodable.not_decodes (h : Undecodable disk layout) : ¬Decodes disk layout config := by
  intro hdecodes
  obtain ⟨message, herror⟩ := h.exists_loadConfig_eq
  cases hdecodes.loadConfig_eq.symm.trans herror

inductive Refuses (disk : Disk) (layout : Option String) (changes : List Config.Change) : Prop
  | undecoded (hload : Undecodable disk layout)
  | rejected (config : Config) (error : CompileError) (hload : Decodes disk layout config)
      (hcheck : Screen.ofConfig (changes.foldl Config.change config) = refuse error)
  | uncompiled (config : Config) (screen : Screen) (error : CompileError)
      (hload : Decodes disk layout config)
      (hcheck : Screen.ofConfig (changes.foldl Config.change config) = .ok screen)
      (hcompile : screen.compile = refuse error)

inductive Makes (disk : Disk) (layout : Option String) (changes : List Config.Change) :
    Config → Tables → Prop
  | intro (config : Config) (screen : Screen) (tables : Tables)
      (hload : Decodes disk layout config)
      (hcheck : Screen.ofConfig (changes.foldl Config.change config) = .ok screen)
      (hcompile : screen.compile = .ok tables) :
      Makes disk layout changes (changes.foldl Config.change config) tables

def Faultless (disk : Disk) (layout : Option String) (changes : List Config.Change) : Prop :=
  ∀ config, Decodes disk layout config → ∀ fault,
    Screen.ofConfig (changes.foldl Config.change config) >>= Screen.compile ≠ halt fault

theorem Makes.not_refuses (h : Makes disk layout changes config tables) :
    ¬Refuses disk layout changes := by
  obtain ⟨config, screen, tables, hload, hcheck, hcompile⟩ := h
  rintro (hload' | ⟨config', error, hload', hcheck'⟩ |
    ⟨config', screen', error, hload', hcheck', hcompile'⟩)
  · exact hload'.not_decodes hload
  · obtain rfl := hload.unique hload'
    exact Outcome.refuse_ne_ok _ _ (hcheck'.symm.trans hcheck)
  · obtain rfl := hload.unique hload'
    obtain rfl := Except.ok.inj (hcheck.symm.trans hcheck')
    exact Outcome.refuse_ne_ok _ _ (hcompile'.symm.trans hcompile)

theorem Makes.faultless (h : Makes disk layout changes config tables) :
    Faultless disk layout changes := by
  obtain ⟨config, screen, tables, hload, hcheck, hcompile⟩ := h
  intro config' hload' fault
  obtain rfl := hload.unique hload'
  rw [hcheck, Outcome.ok_bind, hcompile]
  exact Outcome.ok_ne_halt tables fault

/-- What is neither refused nor stopped by a fault is made into tables. -/
theorem exists_makes (hrefuses : ¬Refuses disk layout changes)
    (hfaultless : Faultless disk layout changes) :
    ∃ config tables, Makes disk layout changes config tables := by
  rcases decodes_or_undecodable disk layout with ⟨config, hdecodes⟩ | hundecodable
  · have hnofault := hfaultless config hdecodes
    cases hcheck : Screen.ofConfig (changes.foldl Config.change config) with
    | error failure =>
      cases failure with
      | refusal error => exact absurd (.rejected config error hdecodes hcheck) hrefuses
      | fault fault =>
        rw [hcheck] at hnofault
        exact absurd rfl (hnofault fault)
    | ok screen =>
      cases hcompile : screen.compile with
      | error failure =>
        cases failure with
        | refusal error =>
          exact absurd (.uncompiled config screen error hdecodes hcheck hcompile) hrefuses
        | fault fault =>
          rw [hcheck, Outcome.ok_bind, hcompile] at hnofault
          exact absurd rfl (hnofault fault)
      | ok tables => exact ⟨_, tables, .intro config screen tables hdecodes hcheck hcompile⟩
  · exact absurd (.undecoded hundecodable) hrefuses

theorem untouched_of_refuses (h : Refuses disk layout changes) :
    (runSchedule disk layout output format changes).Untouched := by
  cases h with
  | undecoded hload =>
    obtain ⟨message, herror⟩ := hload.exists_loadConfig_eq
    rw [runSchedule, herror]
    exact ⟨rfl, rfl⟩
  | rejected config error hload hcheck =>
    rw [runSchedule, hload.loadConfig_eq]
    simp only [hcheck]
    exact ⟨rfl, rfl⟩
  | uncompiled config screen error hload hcheck hcompile =>
    rw [runSchedule, hload.loadConfig_eq]
    simp only [hcheck, Outcome.ok_bind, hcompile]
    exact ⟨rfl, rfl⟩

theorem writesBanks_of_makes (h : Makes disk layout changes config tables)
    (hfiles : ∀ bank < config.bankCount,
      disk.sink? (Table.bankPath output bank config.bankCount) = some .file) :
    (runSchedule disk layout output format changes).WritesBanks tables config.bankCount output
      format := by
  obtain ⟨config, screen, tables, hload, hcheck, hcompile⟩ := h
  obtain ⟨hlength, hcontent⟩ := tableFiles_of_compile hcheck hcompile output format
  have hordinary : ∀ file ∈ tableFiles tables output format, disk.sink? file.1 = some .file := by
    intro file hfile
    obtain ⟨bank, hbank, rfl⟩ := List.getElem_of_mem hfile
    obtain ⟨text, -, hget⟩ := hcontent bank (hlength ▸ hbank)
    rw [List.getElem?_eq_getElem hbank, Option.some.injEq] at hget
    rw [hget]
    exact hfiles bank (hlength ▸ hbank)
  rw [runSchedule, hload.loadConfig_eq]
  simp only [hcheck, Outcome.ok_bind, hcompile, writeTables, writeFiles_eq hordinary]
  refine ⟨rfl, hlength, hcontent, fun bank hbank other hother hne ↦ ?_⟩
  exact Table.beside_bankPath output (by omega) hne

end Schedules

/-- The schedule command writes the tables of all banks, or it refuses what it is given and writes
nothing. -/
structure SchedulesWhole (disk : Disk) (layout : Option String) (output : String)
    (format : TableFormat) (changes : List Config.Change) (report : Report) : Prop where
  refused : Refuses disk layout changes → report.Untouched
  accepted : ¬Refuses disk layout changes → Faultless disk layout changes →
    ∃ config tables, Makes disk layout changes config tables ∧
      ((∀ bank < config.bankCount,
        disk.sink? (Table.bankPath output bank config.bankCount) = some .file) →
          report.WritesBanks tables config.bankCount output format)

structure BootsWhole (disk : Disk) (text output : String) (report : Report) : Prop where
  refused : ∀ error, Boot.Image.ofText text.toList = .error error → report.Untouched
  accepted : ∀ image, Boot.Image.ofText text.toList = .ok image →
    disk.sink? output = some .file →
      report.exitCode = 0 ∧ report.written = [(output, image.render)]

/-- Commands do all of their work or leave the disk as it is. -/
theorem Command.run_whole (disk : Disk) :
    (∀ layout output format changes, SchedulesWhole disk layout output format changes
      (run disk (.schedule layout output format changes))) ∧
    ∀ hexFile output text, disk.text? hexFile = some text →
      BootsWhole disk text output (run disk (.boot hexFile output)) := by
  constructor
  · intro layout output format changes
    refine ⟨untouched_of_refuses, fun hrefuses hfaultless ↦ ?_⟩
    obtain ⟨config, tables, hmakes⟩ := exists_makes hrefuses hfaultless
    exact ⟨config, tables, hmakes, writesBanks_of_makes hmakes⟩
  · intro hexFile output text htext
    constructor
    · intro error herror
      simp only [run, runBoot, htext, herror]
      exact ⟨rfl, rfl⟩
    · intro image himage hfile
      simp only [run, runBoot, htext, himage, writeOutput, writeFiles, hfile, Report.write?]
      exact ⟨rfl, rfl⟩

/-- A disk with one boot program and otherwise broken files, on which all paths can be written. -/
def sampleDisk : Disk where
  read? path :=
    if path = "boot.hex" then some ":0100000042BD\n:00000001FF".toUTF8 else some ":".toUTF8
  sink? _ := some .file

theorem makes_sample : ∃ config tables,
    Makes sampleDisk none [.rowCount 2, .rowsPerBank 1] config tables := by
  have hcompiled : (Screen.ofConfig ([.rowCount 2, .rowsPerBank 1].foldl Config.change {}) >>=
    Screen.compile).toBool = true := by decide +kernel
  cases htables : Screen.ofConfig ([.rowCount 2, .rowsPerBank 1].foldl Config.change {}) >>=
    Screen.compile with
  | error failure =>
    rw [htables] at hcompiled
    cases hcompiled
  | ok tables =>
    obtain ⟨screen, hcheck, hcompile⟩ := Outcome.bind_eq_ok.mp htables
    exact ⟨_, tables, .intro {} screen tables .defaults hcheck hcompile⟩

theorem Command.run_whole_sample :
    (∃ tables, (run sampleDisk (.schedule none "rom/table.json" .json
      [.rowCount 2, .rowsPerBank 1])).WritesBanks tables 2 "rom/table.json" .json) ∧
    (run sampleDisk (.schedule (some "broken.toml") "table.sv" .systemVerilog [])).Untouched ∧
    (run sampleDisk (.schedule none "table.sv" .systemVerilog [.rowCount 0])).Untouched ∧
    (∃ image : Boot.Image, image.bytes = [0x42] ∧
      (run sampleDisk (.boot "boot.hex" "boot.sv")).exitCode = 0 ∧
      (run sampleDisk (.boot "boot.hex" "boot.sv")).written = [("boot.sv", image.render)]) ∧
    (run sampleDisk (.boot "broken.hex" "boot.sv")).Untouched := by
  obtain ⟨hschedules, hboots⟩ := run_whole sampleDisk
  refine ⟨?_, ?_, ?_, ?_, ?_⟩
  · obtain ⟨config, tables, hmakes⟩ := makes_sample
    obtain ⟨_, tables, ⟨loaded, screen, _, hload, -, -⟩, hwrites⟩ :=
      (hschedules none "rom/table.json" .json _).accepted hmakes.not_refuses hmakes.faultless
    cases hload
    exact ⟨tables, hwrites fun _ _ ↦ rfl⟩
  · have htext : sampleDisk.text? "broken.toml" = some ":" := by decide +kernel
    refine (hschedules (some "broken.toml") "table.sv" .systemVerilog []).refused ?_
    exact .undecoded (.malformed htext (by decide +kernel))
  · refine (hschedules none "table.sv" .systemVerilog [.rowCount 0]).refused ?_
    exact .rejected {} _ .defaults rfl
  · have htext : sampleDisk.text? "boot.hex" = some ":0100000042BD\n:00000001FF" := by
      decide +kernel
    have himage : (Boot.Image.ofText ":0100000042BD\n:00000001FF".toList).map
      Boot.Image.bytes = .ok [0x42] := by decide +kernel
    cases hread : Boot.Image.ofText ":0100000042BD\n:00000001FF".toList with
    | error error =>
      rw [hread] at himage
      cases himage
    | ok image =>
      rw [hread] at himage
      exact ⟨image, Except.ok.inj himage, (hboots _ "boot.sv" _ htext).accepted image hread rfl⟩
  · have htext : sampleDisk.text? "broken.hex" = some ":" := by decide +kernel
    exact (hboots _ "boot.sv" _ htext).refused _ rfl

end InfoScreen.Program
