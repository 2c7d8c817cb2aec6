import SysDetector.Library.TextTables
import SysDetector.Fs.Descriptors
import SysDetector.Fs.EventHistory
import SysDetector.Fs.ReadTable
import SysDetector.Proc.Columns
import SysDetector.Tables

namespace SysDetector
open CLib TextTables

def Plain (text : Bytes) : Prop := 9 ∉ text ∧ 10 ∉ text

instance (text : Bytes) : Decidable (Plain text) := inferInstanceAs (Decidable (_ ∧ _))

theorem Plain.append {a b : Bytes} (front : Plain a) (back : Plain b) : Plain (a ++ b) := by
  simp [Plain, front.1, front.2, back.1, back.2]

theorem plain_iff_of_line {text : Bytes} (line : 10 ∉ text) : Plain text ↔ 9 ∉ text :=
  and_iff_left line

theorem plain_decimal (n : Nat) : Plain (decimal n) := by
  have digit : ∀ c ∈ decimal n, isdigit c = true := fun c => isdigit_of_mem_decimal
  exact ⟨fun tab => absurd (digit 9 tab) (by decide), fun newline => absurd (digit 10 newline) (by decide)⟩

theorem plain_decimalInt (i : Int) : Plain (decimalInt i) := by
  unfold decimalInt
  split_ifs
  · exact Plain.append (by decide) (plain_decimal i.natAbs)
  · exact plain_decimal i.natAbs

theorem plain_printNum (num : Nat) : Plain (printNum num) :=
  Plain.append (Plain.append (by decide) (plain_decimal num)) (by decide)

theorem plain_printSwitch (status : Bool) : Plain (printSwitch status) := by
  cases status <;> decide

theorem plainLine_iff {cells : List Bytes} (nonempty : cells ≠ []) :
    PlainLine 9 10 cells ↔ ∀ cell ∈ cells, Plain cell := by
  constructor
  · intro plain cell member
    exact ⟨plain.between cell member, plain.behind cell member⟩
  · intro plain
    exact ⟨nonempty, fun cell member => (plain cell member).1, fun cell member => (plain cell member).2⟩

/-- A header and rows that were printed are read back exactly when the cells of the rows are plain. -/
theorem read_listing_iff {header : List Bytes} (plainHeader : PlainLine 9 10 header) {α : Type}
    (rows : List α) (cells : α → List Bytes) (nonempty : ∀ row, cells row ≠ []) :
    readTable 9 10 (printTable 9 10 (header :: rows.map cells)) = header :: rows.map cells ↔
      ∀ row ∈ rows, ∀ cell ∈ cells row, Plain cell := by
  rw [readTable_printTable_iff (by decide), List.forall_mem_cons, List.forall_mem_map]
  constructor
  · intro plain row member
    exact (plainLine_iff (nonempty row)).mp (plain.2 row member)
  · intro plain
    exact ⟨plainHeader, fun row member => (plainLine_iff (nonempty row)).mpr (plain row member)⟩

/-! ## The fs worker -/

namespace Fs
open Runs

def ConfigRow.cells (row : ConfigRow) : List Bytes :=
  [printNum row.num, decimalInt row.config.id.toInt, row.config.name.text, row.config.path.text,
    row.config.operations.text, printSwitch row.config.monitorSwitch]

def FsEventRecord.cells (localTime : Time → Bytes) (event : FsEventRecord) : List Bytes :=
  [localTime event.ts, decimalInt event.configId.toInt, event.name.text, event.op.text,
    event.path.text]

def Listing.cells (localTime : Time → Bytes) : Listing → List (List Bytes)
  | .config rows => [lit "Num", lit "ID", lit "Name", lit "Path", lit "Operations", lit "Switch"] ::
      rows.map ConfigRow.cells
  | .events rows => [lit "Time", lit "ID", lit "Name", lit "Operation", lit "Path"] ::
      rows.map (FsEventRecord.cells localTime)

theorem Listing.text_eq (localTime : Time → Bytes) (listing : Listing) :
    listing.text localTime = printTable 9 10 (listing.cells localTime) := by
  cases listing with
  | config rows =>
      rw [Listing.cells, printTable, List.map_cons, List.flatten_cons, List.map_map]
      rfl
  | events rows =>
      rw [Listing.cells, printTable, List.map_cons, List.flatten_cons, List.map_map]
      rfl

/-- No tab in a name, a path or a list of operations, and no newline in the path of an event. -/
def Listing.Unmarked : Listing → Prop
  | .config rows => ∀ row ∈ rows, 9 ∉ row.config.name.text ∧ 9 ∉ row.config.path.text ∧
      9 ∉ row.config.operations.text
  | .events rows => ∀ event ∈ rows, 9 ∉ event.name.text ∧ Plain event.path.text

/-! What the texts hold of themselves. -/

def PlainRecord (event : FsEventRecord) : Prop := 10 ∉ event.name.text ∧ Plain event.op.text

def Listing.Read : Listing → Prop
  | .config rows => ∀ row ∈ rows, ReadConfig row.config
  | .events rows => ∀ event ∈ rows, PlainRecord event

structure Listed (s : FsState) : Prop where
  table : ReadTable s
  events : ∀ i, PlainRecord (s.events i)
  outFile : ∀ listing, s.outFile = some listing → listing.Read

theorem plain_maskToOp (mask : UInt32) : Plain (snprintf 64 (maskToOp mask)).text := by
  unfold maskToOp
  split_ifs <;> decide

theorem plain_eventRecord (now : Time) {config : FsConfig} (read : ReadConfig config) (mask : UInt32)
    (path : CharBuf 512) : PlainRecord (eventRecord now config (maskToOp mask) path) := by
  simp only [ReadConfig, texts, List.forall_mem_cons] at read
  refine ⟨?_, plain_maskToOp mask⟩
  rw [eventRecord, snprintf_text]
  exact read.1.2

theorem eventMade_plain {s : FsState} (read : ReadTable s) {now : Time} {ev : InotifyEvent}
    {event : FsEventRecord} (made : eventMade now s ev = some event) : PlainRecord event := by
  obtain ⟨config, found, rfl⟩ := Option.map_eq_some_iff.mp made
  obtain ⟨word, -, rfl⟩ := Option.map_eq_some_iff.mp found
  exact plain_eventRecord now (read (watchIndex word)) ev.mask _

theorem eventsMade_plain {s : FsState} (read : ReadTable s) (input : FsStep) :
    ∀ event ∈ eventsMade s input, PlainRecord event := by
  intro event member
  unfold eventsMade at member
  split at member
  · split_ifs at member
    · obtain ⟨ev, -, made⟩ := List.mem_filterMap.mp member
      exact eventMade_plain read made
    · cases member
  · cases member

/-! What a step leaves in the output file. -/

theorem switchConfig_outFile (env : CommandEnv) (arg : Bytes) (status : Bool) (s : FsState) :
    (switchConfig env arg status s).outFile = s.outFile := by
  unfold switchConfig
  cases findConfig s (atoi arg) with
  | none => rfl
  | some i =>
      obtain ⟨configs, count, directory, bounded, table⟩ := switchTable_frame s i status
      have fits : (switchTable s i status).configCount ≤ MAX_CONFIGS := by
        rw [table]
        exact bounded
      have kept : (rebuildWatches env.watches (switchTable s i status)).outFile = s.outFile := by
        cases opened : opens env.watches (switchTable s i status) with
        | false =>
            rw [rebuildWatches_closed opened, table]
            rfl
        | true =>
            obtain ⟨log, frame⟩ := rebuildWatches_open opened fits
            rw [frame, table]
      exact kept

theorem handleMessage_outFile (env : CommandEnv) (message : Bytes) (s : FsState) :
    (handleMessage env message s).outFile = s.outFile ∨
      (handleMessage env message s).outFile = some (.config (configRows (loadConfigs s))) ∨
      (handleMessage env message s).outFile = some (.events (eventRows (loadConfigs s))) := by
  have loaded : (loadConfigs s).outFile = s.outFile := by
    obtain ⟨_, _, _, frame⟩ := loadConfigs_frame s
    rw [frame]
  have refused : ((loadConfigs s).sendResponse 1).outFile = s.outFile := loaded
  have switched : ∀ arg status, (switchConfig env arg status (loadConfigs s)).outFile = s.outFile :=
    fun arg status => (switchConfig_outFile env arg status _).trans loaded
  have listed : ∀ scope, (listCommand env scope (loadConfigs s)).outFile = s.outFile ∨
      (listCommand env scope (loadConfigs s)).outFile = some (.config (configRows (loadConfigs s))) ∨
      (listCommand env scope (loadConfigs s)).outFile =
        some (.events (eventRows (loadConfigs s))) := by
    intro scope
    unfold listCommand listConfigs listEvents
    split_ifs
    · exact .inr (.inl rfl)
    · exact .inl loaded
    · exact .inr (.inr rfl)
    · exact .inl loaded
    · exact .inl loaded
  unfold handleMessage handleCommand
  split_ifs
  · exact .inl rfl
  · cases splitCommand (cstr message) with
    | nil => exact .inl rfl
    | cons opt args =>
        dsimp only
        cases args.head? with
        | none =>
            dsimp only
            split_ifs
            · exact listed none
            · exact .inl refused
        | some arg =>
            dsimp only
            split_ifs
            · exact .inl (switched arg true)
            · exact .inl (switched arg false)
            · exact listed (some arg)
            · exact .inl refused

theorem Listed.message {s : FsState} (listed : Listed s) (env : CommandEnv) (message : Bytes)
    {listing : Listing} (left : (handleMessage env message s).outFile = some listing) :
    listing.Read := by
  rcases handleMessage_outFile env message s with same | rows | rows
  · rw [same] at left
    exact listed.outFile listing left
  · rw [rows, Option.some.injEq] at left
    subst left
    intro row member
    obtain ⟨i, -, rfl⟩ := List.mem_map.mp member
    exact listed.table.loadConfigs i
  · rw [rows, Option.some.injEq] at left
    subst left
    intro event member
    obtain ⟨i, -, rfl⟩ := List.mem_map.mp member
    have same : (loadConfigs s).events = s.events := congrArg Rings.Ring.slots (loadConfigs_ring s)
    rw [same]
    exact listed.events _

theorem Listed.step {s : FsState} (input : FsStep) (listed : Listed s) : Listed (step s input) := by
  have ring : (Fs.step s input).events =
      ((eventsMade s input).foldl Rings.Ring.push (eventRing s)).slots :=
    congrArg Rings.Ring.slots (step_ring s input)
  refine ⟨listed.table.step input, ?_, ?_⟩
  · rw [ring]
    exact Rings.Ring.forall_slots_pushAll listed.events (eventsMade_plain listed.table input)
  · intro listing left
    cases input with
    | message env message => exact listed.message env message left
    | monitor env =>
        obtain ⟨_, _, _, _, _, records⟩ := monitorOnce_records env s
        rw [Fs.step, records] at left
        exact listed.outFile listing left
    | edit directory => exact listed.outFile listing left

theorem initial_listed (env : WatchEnv) (directory : Directory) :
    Listed (.initial env directory) := by
  obtain ⟨configs, count, bounded, frame⟩ := loadConfigs_frame (.zero directory)
  have fits : (loadConfigs (.zero directory)).configCount ≤ MAX_CONFIGS := by
    rw [frame]
    exact bounded
  have ring : eventRing (.initial env directory) = eventRing (.zero directory) :=
    (rebuildWatches_ring env fits).trans (loadConfigs_ring (.zero directory))
  have events : (FsState.initial env directory).events = fun _ => .zero :=
    congrArg Rings.Ring.slots ring
  refine ⟨initial_readTable env directory, fun i => ?_, fun listing left => ?_⟩
  · rw [events]
    exact ⟨List.not_mem_nil, List.not_mem_nil, List.not_mem_nil⟩
  · have none : (FsState.initial env directory).outFile = none := by
      show (rebuildWatches env (loadConfigs (.zero directory))).outFile = none
      cases opened : opens env (loadConfigs (.zero directory)) with
      | false =>
          rw [rebuildWatches_closed opened, frame]
          rfl
      | true =>
          obtain ⟨log, rebuilt⟩ := rebuildWatches_open opened fits
          rw [rebuilt, frame]
          rfl
    rw [none] at left
    cases left

theorem ConfigRow.plain_iff {row : ConfigRow} (read : ReadConfig row.config) :
    (∀ cell ∈ row.cells, Plain cell) ↔ 9 ∉ row.config.name.text ∧ 9 ∉ row.config.path.text ∧
      9 ∉ row.config.operations.text := by
  simp only [ReadConfig, texts, List.forall_mem_cons] at read
  obtain ⟨name, path, operations, -⟩ := read
  simp [ConfigRow.cells, plain_printNum, plain_decimalInt, plain_printSwitch,
    plain_iff_of_line name.2, plain_iff_of_line path.2, plain_iff_of_line operations.2]

theorem FsEventRecord.plain_iff {localTime : Time → Bytes} (clock : ∀ ts, Plain (localTime ts))
    {event : FsEventRecord} (plain : PlainRecord event) :
    (∀ cell ∈ event.cells localTime, Plain cell) ↔
      9 ∉ event.name.text ∧ Plain event.path.text := by
  simp [FsEventRecord.cells, clock, plain_decimalInt, plain_iff_of_line plain.1, plain.2]

theorem read_configs {rows : List ConfigRow} (read : (Listing.config rows).Read)
    (localTime : Time → Bytes) :
    (readTable 9 10 ((Listing.config rows).text localTime)).length = rows.length + 1 := by
  have lines : ∀ cells ∈ (Listing.config rows).cells localTime, ∀ cell ∈ cells, 10 ∉ cell := by
    rw [Listing.cells, List.forall_mem_cons, List.forall_mem_map]
    refine ⟨by decide, fun row member => ?_⟩
    have own := read row member
    simp only [ReadConfig, texts, List.forall_mem_cons] at own
    obtain ⟨name, path, operations, -⟩ := own
    simp [ConfigRow.cells, (plain_printNum _).2, (plain_decimalInt _).2, (plain_printSwitch _).2,
      name.2, path.2, operations.2]
  rw [Listing.text_eq, readTable_lines (by decide) lines, List.length_map, Listing.cells,
    List.length_cons, List.length_map]

/-- A listing of the running worker shows the rows it was made of exactly when there is no tab in a
text of theirs and no newline in a path; a config is one line in any case. -/
theorem fs_listing_read_iff (localTime : Time → Bytes) (clock : ∀ ts, Plain (localTime ts))
    (env : WatchEnv) (directory : Directory) (steps : List FsStep) (listing : Listing)
    (left : (run step (.initial env directory) steps).outFile = some listing) :
    (readTable 9 10 (listing.text localTime) = listing.cells localTime ↔ listing.Unmarked) ∧
      ∀ rows, listing = .config rows →
        (readTable 9 10 (listing.text localTime)).length = rows.length + 1 := by
  have listed : Listed (run step (.initial env directory) steps) :=
    run_of_step step (J := Listed) (fun _ input listed => listed.step input)
      (initial_listed env directory) steps
  have read := listed.outFile listing left
  constructor
  · rw [Listing.text_eq]
    cases listing with
    | config rows =>
        rw [Listing.cells, read_listing_iff ⟨by decide, by decide, by decide⟩ rows ConfigRow.cells
          fun _ => List.cons_ne_nil _ _]
        exact forall₂_congr fun row member => ConfigRow.plain_iff (read row member)
    | events rows =>
        rw [Listing.cells, read_listing_iff ⟨by decide, by decide, by decide⟩ rows
          (FsEventRecord.cells localTime) fun _ => List.cons_ne_nil _ _]
        exact forall₂_congr fun event member => FsEventRecord.plain_iff clock (read event member)
  · rintro rows rfl
    exact read_configs read localTime

def tabDirectory : Directory := some [confFile "a.conf" 11 "NAME=a\tb\nPATH=/srv\n"]

def tabListing : Listing := .config [⟨0, parseConfig (lit "NAME=a\tb\nPATH=/srv\n") 11⟩]

theorem fs_listing_read_iff_tab :
    (readTable 9 10 (tabListing.text fun _ => []) = tabListing.cells (fun _ => []) ↔
        tabListing.Unmarked) ∧
      ∀ rows, tabListing = .config rows →
        (readTable 9 10 (tabListing.text fun _ => [])).length = rows.length + 1 :=
  fs_listing_read_iff (fun _ => []) (fun _ => by decide) (growingWatches 0) tabDirectory
    [.message ⟨growingWatches 1, true⟩ (lit "list")] tabListing (by decide)

example : (readTable 9 10 (tabListing.text fun _ => [])).map List.length = [6, 7] := by decide

end Fs

/-! ## The proc worker -/

namespace Proc
open Runs

def ConfigRow.cells (row : ConfigRow) : List Bytes :=
  [printNum row.num, decimal row.config.configId.toNat] ++ columns row.config ++
    [decimalInt row.config.monitorPeriod.toInt, printSwitch row.config.monitorSwitch]

def TrackedRow.cells (row : TrackedRow) : List Bytes :=
  [decimal row.pid.toNat, decimal row.ppid.toNat, row.comm.text, row.filename.text,
    decimalInt row.runtime ++ lit "s", row.argv.text]

/-- The header of the configs ends in a tab, so that an empty cell is read behind it. -/
def Listing.cells : Listing → List (List Bytes)
  | .config rows => [lit "Num", lit "ID", lit "Name", lit "User", lit "Recover", lit "Monitor",
      lit "Stop", lit "Alarm", lit "Period", lit "Switch", []] :: rows.map ConfigRow.cells
  | .tracked rows => [lit "PID", lit "PPID", lit "COMM", lit "FILE", lit "RUNTIME", lit "ARGV"] ::
      rows.map TrackedRow.cells

theorem Listing.text_eq (listing : Listing) : listing.text = printTable 9 10 listing.cells := by
  cases listing with
  | config rows =>
      rw [Listing.cells, printTable, List.map_cons, List.flatten_cons, List.map_map]
      rfl
  | tracked rows =>
      rw [Listing.cells, printTable, List.map_cons, List.flatten_cons, List.map_map]
      rfl

def Listing.Unmarked : Listing → Prop
  | .config rows => ∀ row ∈ rows, ∀ text ∈ columns row.config, Plain text
  | .tracked rows => ∀ row ∈ rows, Plain row.comm.text ∧ Plain row.filename.text ∧
      Plain row.argv.text

theorem ConfigRow.plain_iff (row : ConfigRow) :
    (∀ cell ∈ row.cells, Plain cell) ↔ ∀ text ∈ columns row.config, Plain text := by
  simp [ConfigRow.cells, columns, plain_printNum, plain_decimal, plain_decimalInt, plain_printSwitch]

theorem TrackedRow.plain_iff (row : TrackedRow) : (∀ cell ∈ row.cells, Plain cell) ↔
    Plain row.comm.text ∧ Plain row.filename.text ∧ Plain row.argv.text := by
  have runtime : Plain (decimalInt row.runtime ++ lit "s") :=
    (plain_decimalInt row.runtime).append (by decide)
  simp [TrackedRow.cells, plain_decimal, runtime]

theorem read_iff (listing : Listing) :
    readTable 9 10 listing.text = listing.cells ↔ listing.Unmarked := by
  rw [Listing.text_eq]
  cases listing with
  | config rows =>
      rw [Listing.cells, read_listing_iff ⟨by decide, by decide, by decide⟩ rows ConfigRow.cells
        fun _ => List.cons_ne_nil _ _]
      exact forall₂_congr fun row _ => ConfigRow.plain_iff row
  | tracked rows =>
      rw [Listing.cells, read_listing_iff ⟨by decide, by decide, by decide⟩ rows TrackedRow.cells
        fun _ => List.cons_ne_nil _ _]
      exact forall₂_congr fun row _ => TrackedRow.plain_iff row

theorem read_configs {rows : List ConfigRow}
    (lines : ∀ row ∈ rows, ∀ text ∈ columns row.config, 10 ∉ text) :
    (readTable 9 10 (Listing.config rows).text).length = rows.length + 1 := by
  have cells : ∀ cells ∈ (Listing.config rows).cells, ∀ cell ∈ cells, 10 ∉ cell := by
    rw [Listing.cells, List.forall_mem_cons, List.forall_mem_map]
    refine ⟨by decide, fun row member => ?_⟩
    have own := lines row member
    simp only [columns, List.forall_mem_cons] at own
    obtain ⟨name, user, recover, monitor, stop, alarm, -⟩ := own
    simp [ConfigRow.cells, columns, (plain_printNum _).2, (plain_decimal _).2, (plain_decimalInt _).2,
      (plain_printSwitch _).2, name, user, recover, monitor, stop, alarm]
  rw [Listing.text_eq, readTable_lines (by decide) cells, List.length_map, Listing.cells,
    List.length_cons, List.length_map]

/-- A listing of the running worker shows the rows it was made of exactly when no text of theirs
holds a tab or a newline. A config that was loaded is one line in any case, if none of its texts is
blank. -/
theorem proc_listing_read_iff (dir : ProcDirectory) (steps : List ProcStep) (listing : Listing)
    (left : (run step (.initial (dir.loads.map Load.config)) steps).outFile = some listing) :
    (readTable 9 10 listing.text = listing.cells ↔ listing.Unmarked) ∧
      ∀ rows, listing = .config rows →
        (∀ row ∈ rows, ∀ text ∈ columns row.config, ¬ IsBlank text) →
          (readTable 9 10 listing.text).length = rows.length + 1 := by
  refine ⟨read_iff listing, ?_⟩
  rintro rows rfl solid
  have lines := (columns_kept dir steps).outFile _ left
  refine read_configs fun row member text inside newline => ?_
  obtain ⟨blank, own, isBlank⟩ := lines row member ⟨text, inside, newline⟩
  exact solid row member blank own isBlank

def blankUserDirectory : ProcDirectory where
  entries := [⟨lit "sh.conf", true, .reg, some ⟨0, 7⟩, some (lit "NAME=sh\nUSER=\n")⟩]
  distinct := by decide
  typed := by decide
  noNul := by decide
  short := by decide

def blankUserListing : Listing :=
  .config (blankUserDirectory.loads.map fun load => ⟨0, load.config⟩)

theorem proc_listing_read_iff_blank :
    (readTable 9 10 blankUserListing.text = blankUserListing.cells ↔ blankUserListing.Unmarked) ∧
      ∀ rows, blankUserListing = .config rows →
        (∀ row ∈ rows, ∀ text ∈ columns row.config, ¬ IsBlank text) →
          (readTable 9 10 blankUserListing.text).length = rows.length + 1 :=
  proc_listing_read_iff blankUserDirectory [.message ⟨0, true⟩ (lit "list")] blankUserListing
    (by decide)

example : (readTable 9 10 blankUserListing.text).map List.length = [11, 4, 7] := by decide

end Proc

end SysDetector
