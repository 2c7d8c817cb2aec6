import SysDetector.Library.ListFacts
import SysDetector.Fs.ReadTable
import SysDetector.Fs.Descriptors

namespace SysDetector.Fs
open CLib ListFacts Runs

def FsConfig.unfiltered (config : FsConfig) : FsConfig := { config with operations := default }

def InotifyCall.unfiltered : InotifyCall → InotifyCall
  | .addWatch config wd => .addWatch config.unfiltered wd
  | .rmWatch wd => .rmWatch wd

def Listing.unfiltered : Listing → Listing
  | .config rows => .config (rows.map fun row => ⟨row.num, row.config.unfiltered⟩)
  | .events rows => .events rows

def FsState.unfiltered (s : FsState) : FsState :=
  { s with
    configs := fun i => (s.configs i).unfiltered
    directory := none
    inotifyCalls := s.inotifyCalls.map InotifyCall.unfiltered
    outFile := s.outFile.map Listing.unfiltered }

/-- Files that say the same but for the operations, on a disk with room to write them. -/
structure AlikeFile (f g : DirEntry) : Prop where
  name : f.name = g.name
  stat : f.stat = g.stat
  readable : f.readable = g.readable
  writable : f.writable = g.writable
  room : f.room = none ∧ g.room = none
  content : (parseConfig f.content 0).unfiltered = (parseConfig g.content 0).unfiltered

def AlikeDirectory : Directory → Directory → Prop := Option.Rel (List.Forall₂ AlikeFile)

structure AlikeState (s t : FsState) : Prop where
  state : s.unfiltered = t.unfiltered
  directory : AlikeDirectory s.directory t.directory

inductive AlikeStep : FsStep → FsStep → Prop
  | message (env : CommandEnv) (message : Bytes) : AlikeStep (.message env message) (.message env message)
  | monitor (env : ReadEnv) : AlikeStep (.monitor env) (.monitor env)
  | edit {directory directory' : Directory} (alike : AlikeDirectory directory directory') :
      AlikeStep (.edit directory) (.edit directory')

/-! ## Texts -/

section
variable {config config' : FsConfig}

theorem unfiltered_iff : config.unfiltered = config'.unfiltered ↔
    config.id = config'.id ∧ config.monitorSwitch = config'.monitorSwitch ∧
      config.name = config'.name ∧ config.path = config'.path ∧
      config.alarmCmd = config'.alarmCmd := by
  simp [FsConfig.unfiltered]

theorem written_unfiltered (read : ReadConfig config) (read' : ReadConfig config')
    (same : config.unfiltered = config'.unfiltered) :
    (parseConfig (configText config) 0).unfiltered =
      (parseConfig (configText config') 0).unfiltered := by
  have written := parse_written read (Nat.le_succ _) 0
  have written' := parse_written read' (Nat.le_succ _) 0
  rw [List.take_length] at written written'
  obtain ⟨-, switch, name, path, alarm⟩ := unfiltered_iff.mp same
  rw [written, written', unfiltered_iff]
  simp only [switch, name, path, command, alarm, and_self]

end

theorem parseLine_id (config : FsConfig) (id : Int32) (line : Bytes) :
    parseLine { config with id := id } line = { parseLine config line with id := id } := by
  unfold parseLine assign
  dsimp only
  split_ifs
  · rfl
  · split
    · rfl
    · split_ifs <;> rfl

theorem parseLines_id (lines : List Bytes) (config : FsConfig) (id : Int32) :
    lines.foldl parseLine { config with id := id } =
      { lines.foldl parseLine config with id := id } := by
  induction lines generalizing config with
  | nil => rfl
  | cons line lines ih => rw [List.foldl_cons, List.foldl_cons, parseLine_id, ih]

theorem parseConfig_withId (text : Bytes) (id : Int32) :
    parseConfig text id = { parseConfig text 0 with id := id } :=
  parseLines_id (fgets 512 text) (blankConfig 0) id

theorem parse_unfiltered {text text' : Bytes}
    (same : (parseConfig text 0).unfiltered = (parseConfig text' 0).unfiltered) (id : Int32) :
    (parseConfig text id).unfiltered = (parseConfig text' id).unfiltered := by
  rw [parseConfig_withId text, parseConfig_withId text']
  exact congrArg (fun config : FsConfig => { config with id := id }) same

/-! ## Tables -/

section
variable {s t : FsState}

theorem AlikeState.configs (alike : AlikeState s t) (i : Nat) :
    (s.configs i).unfiltered = (t.configs i).unfiltered :=
  congrFun (congrArg FsState.configs alike.state) i

theorem AlikeState.seen {α : Type} (alike : AlikeState s t) (f : FsState → α)
    (blind : ∀ u : FsState, f u.unfiltered = f u) : f s = f t := by
  rw [← blind s, ← blind t, alike.state]

theorem AlikeState.configCount (alike : AlikeState s t) : s.configCount = t.configCount :=
  alike.seen FsState.configCount fun _ => rfl

theorem AlikeState.setConfig (alike : AlikeState s t) (i : Nat) {config config' : FsConfig}
    (same : config.unfiltered = config'.unfiltered) :
    AlikeState (s.setConfig i config) (t.setConfig i config') := by
  have places : ∀ j, (Function.update s.configs i config j).unfiltered =
      (Function.update t.configs i config' j).unfiltered := by
    intro j
    by_cases here : j = i
    · subst here
      rw [Function.update_self, Function.update_self, same]
    · rw [Function.update_of_ne here, Function.update_of_ne here, alike.configs]
  refine ⟨?_, alike.directory⟩
  have table := congrArg (fun s' : FsState => { s' with configs := fun j =>
    (Function.update s.configs i config j).unfiltered }) alike.state
  refine Eq.trans table ?_
  simp only [places]
  rfl

theorem AlikeState.count (alike : AlikeState s t) (n : Nat) :
    AlikeState { s with configCount := n } { t with configCount := n } :=
  ⟨congrArg (fun s' : FsState => { s' with configCount := n }) alike.state, alike.directory⟩

theorem AlikeState.parseConfigFile (alike : AlikeState s t) {f g : DirEntry}
    (same : AlikeFile f g) (id : Int32) :
    AlikeState (parseConfigFile f id s) (parseConfigFile g id t) := by
  have parsed := parse_unfiltered same.content id
  obtain ⟨-, -, name, path, -⟩ := unfiltered_iff.mp parsed
  have stored := alike.setConfig t.configCount parsed
  unfold Fs.parseConfigFile
  dsimp only
  rw [alike.configCount, same.readable, name, path]
  split_ifs
  · exact alike
  · have counted := stored.count (t.configCount + 1)
    have count : (s.setConfig t.configCount (parseConfig f.content id)).configCount =
      t.configCount := alike.configCount
    rw [count]
    exact counted
  · exact stored
  · exact alike

theorem AlikeState.loadEntry (alike : AlikeState s t) {f g : DirEntry} (same : AlikeFile f g) :
    AlikeState (loadEntry s f) (loadEntry t g) := by
  unfold Fs.loadEntry isHidden
  rw [same.name, same.stat]
  split
  · exact alike
  · cases g.stat with
    | none => exact alike
    | some st =>
        dsimp only
        split_ifs
        · exact alike.parseConfigFile same st.id
        · exact alike

theorem AlikeState.loadConfigs (alike : AlikeState s t) :
    AlikeState (loadConfigs s) (loadConfigs t) := by
  have cleared := alike.count 0
  unfold Fs.loadConfigs
  dsimp only
  rcases rel_cases alike.directory with ⟨listed, listed'⟩ | ⟨fs, gs, listed, listed', each⟩
  · rw [listed, listed'] at cleared ⊢
    exact cleared
  · rw [listed, listed'] at cleared ⊢
    exact List.rel_foldl (fun _ _ alike _ _ same => alike.loadEntry same) cleared each

/-! ## Rewriting -/

theorem AlikeFile.overwrite {f g target target' : DirEntry} (same : AlikeFile f g)
    (targets : AlikeFile target target') {text text' : Bytes}
    (content : (parseConfig text 0).unfiltered = (parseConfig text' 0).unfiltered) :
    AlikeFile (overwrite target text f) (overwrite target' text' g) := by
  have shown : SameFile f target ↔ SameFile g target' := by
    rw [SameFile, SameFile, same.stat, targets.stat]
  unfold Fs.overwrite
  split_ifs with here there there
  · exact ⟨same.name, same.stat, same.readable, same.writable, same.room, content⟩
  · exact absurd (shown.mp here) there
  · exact absurd (shown.mpr there) here
  · exact same

theorem AlikeState.withDirectory (alike : AlikeState s t) {directory directory' : Directory}
    (same : AlikeDirectory directory directory') :
    AlikeState { s with directory := directory } { t with directory := directory' } :=
  ⟨alike.state, same⟩

theorem AlikeState.writeConfigFile (alike : AlikeState s t) {config config' : FsConfig}
    (same : config.unfiltered = config'.unfiltered) (read : ReadConfig config)
    (read' : ReadConfig config') :
    AlikeState (writeConfigFile config s) (writeConfigFile config' t) := by
  obtain ⟨id, -⟩ := unfiltered_iff.mp same
  unfold Fs.writeConfigFile
  rcases rel_cases alike.directory with ⟨listed, listed'⟩ | ⟨fs, gs, listed, listed', each⟩
  · rw [listed, listed']
    exact alike
  · have targets : Option.Rel AlikeFile (configTarget config fs) (configTarget config' gs) := by
      refine rel_find each fun f g same => ?_
      rw [isHidden, isHidden, same.name, same.stat, id]
    rw [listed, listed']
    dsimp only
    rcases rel_cases targets with ⟨found, found'⟩ | ⟨target, target', found, found', aim⟩
    · rw [found, found']
      exact alike
    · rw [found, found']
      dsimp only
      rw [aim.writable]
      split_ifs
      · have stored : ∀ file : DirEntry, file.room = none → ∀ text, file.stored text = text := by
          intro file room text
          rw [DirEntry.stored, room]
        rw [stored target aim.room.1, stored target' aim.room.2]
        refine alike.withDirectory (.some ?_)
        exact List.rel_map (fun _ _ same =>
          same.overwrite aim (written_unfiltered read read' ‹_›)) each
      · exact alike

theorem findConfig_alike (alike : AlikeState s t) (id : Int32) :
    findConfig s id = findConfig t id :=
  alike.seen (findConfig · id) fun _ => rfl

theorem AlikeState.switchTable (alike : AlikeState s t) (read : ReadTable s) (read' : ReadTable t)
    (i : Nat) (status : Bool) : AlikeState (switchTable s i status) (switchTable t i status) := by
  have same : ({ s.configs i with monitorSwitch := status } : FsConfig).unfiltered =
      ({ t.configs i with monitorSwitch := status } : FsConfig).unfiltered :=
    congrArg (fun config : FsConfig => { config with monitorSwitch := status }) (alike.configs i)
  have switched := alike.setConfig i same
  have own : ReadTable (s.setConfig i { s.configs i with monitorSwitch := status }) :=
    read.setConfig i (read i)
  have own' : ReadTable (t.setConfig i { t.configs i with monitorSwitch := status }) :=
    read'.setConfig i (read' i)
  exact (switched.writeConfigFile (switched.configs i) (own i) (own' i)).loadConfigs

/-! ## What does not look at the directory -/

theorem AlikeState.map (alike : AlikeState s t) {f : FsState → FsState}
    (commutes : ∀ s, (f s).unfiltered = f s.unfiltered)
    (keeps : ∀ u, u.configCount = t.configCount → (f u).directory = u.directory) :
    AlikeState (f s) (f t) := by
  constructor
  · rw [commutes, commutes, alike.state]
  · rw [keeps s alike.configCount, keeps t rfl]
    exact alike.directory

theorem watchOne_unfiltered (env : WatchEnv) (s : FsState) (i : Nat) :
    (watchOne env s i).unfiltered = watchOne env s.unfiltered i := by
  unfold watchOne FsState.logLine
  dsimp only [FsState.unfiltered, FsConfig.unfiltered]
  split_ifs <;> simp [InotifyCall.unfiltered, FsConfig.unfiltered]

theorem ensureInotify_unfiltered (env : WatchEnv) (s : FsState) :
    (ensureInotify env s).unfiltered = ensureInotify env s.unfiltered := by
  unfold ensureInotify
  rw [show s.unfiltered.inotifyOpen = s.inotifyOpen from rfl]
  split_ifs <;> rfl

theorem rebuildWatches_unfiltered (env : WatchEnv) (s : FsState) :
    (rebuildWatches env s).unfiltered = rebuildWatches env s.unfiltered := by
  unfold rebuildWatches
  rw [← ensureInotify_unfiltered]
  generalize ensureInotify env s = s
  dsimp only
  rw [show s.unfiltered.inotifyOpen = s.inotifyOpen from rfl]
  split_ifs
  · refine Eq.trans (List.foldl_hom FsState.unfiltered
      (fun s i => (watchOne_unfiltered env s i).symm)).symm ?_
    congr 1
    simp [FsState.unfiltered, InotifyCall.unfiltered]
  · rfl

theorem AlikeState.rebuildWatches (alike : AlikeState s t) (env : WatchEnv)
    (fits : t.configCount ≤ MAX_CONFIGS) :
    AlikeState (rebuildWatches env s) (rebuildWatches env t) := by
  refine alike.map (rebuildWatches_unfiltered env) fun u count => ?_
  rw [← count] at fits
  exact (rebuildWatches_keeps env fits).1

theorem recordEvent_unfiltered (now : Time) (config : FsConfig) (op : Bytes) (path : CharBuf 512)
    (s : FsState) : (recordEvent now config op path s).unfiltered =
      recordEvent now config.unfiltered op path s.unfiltered := by
  unfold recordEvent
  rw [show s.unfiltered.eventCount = s.eventCount from rfl,
    show config.unfiltered.alarmCmd = config.alarmCmd from rfl]
  split_ifs <;> rfl

theorem handleInotifyEvent_unfiltered (now : Time) (s : FsState) (ev : InotifyEvent) :
    (handleInotifyEvent now s ev).unfiltered = handleInotifyEvent now s.unfiltered ev := by
  have owner : eventConfig s.unfiltered ev.wd = (eventConfig s ev.wd).map FsConfig.unfiltered := by
    unfold eventConfig
    rw [Option.map_map]
    rfl
  unfold handleInotifyEvent
  rw [owner]
  cases eventConfig s ev.wd with
  | none => rfl
  | some config => exact recordEvent_unfiltered now config _ _ s

theorem handleEvents_unfiltered (now : Time) (s : FsState) (events : List InotifyEvent) :
    (events.foldl (handleInotifyEvent now) s).unfiltered =
      events.foldl (handleInotifyEvent now) s.unfiltered :=
  (List.foldl_hom FsState.unfiltered
    (fun s ev => (handleInotifyEvent_unfiltered now s ev).symm)).symm

theorem monitorOnce_unfiltered (env : ReadEnv) (s : FsState) :
    (monitorOnce env s).unfiltered = monitorOnce env s.unfiltered := by
  have drained : env.reads.foldl (fun s events => events.foldl (handleInotifyEvent env.now) s)
      s.unfiltered =
        (env.reads.foldl (fun s events => events.foldl (handleInotifyEvent env.now) s) s).unfiltered :=
    List.foldl_hom FsState.unfiltered fun s events => (handleEvents_unfiltered env.now s events).symm
  unfold monitorOnce
  dsimp only
  rw [show s.unfiltered.inotifyOpen = s.inotifyOpen from rfl, drained]
  split_ifs <;> rfl

theorem AlikeState.monitorOnce (alike : AlikeState s t) (env : ReadEnv) :
    AlikeState (monitorOnce env s) (monitorOnce env t) := by
  refine alike.map (monitorOnce_unfiltered env) fun u _ => ?_
  obtain ⟨_, _, _, _, _, records⟩ := monitorOnce_records env u
  rw [records]

theorem listCommand_unfiltered (env : CommandEnv) (scope : Option Bytes) (s : FsState) :
    (listCommand env scope s).unfiltered = listCommand env scope s.unfiltered := by
  unfold listCommand listConfigs listEvents
  split_ifs <;>
    simp [FsState.unfiltered, FsState.sendResponse, Listing.unfiltered, configRows, eventRows]

theorem AlikeState.answers (alike : AlikeState s t) {f : FsState → FsState}
    (commutes : ∀ s, (f s).unfiltered = f s.unfiltered) (answers : ∀ s, OnlyAnswers s (f s)) :
    AlikeState (f s) (f t) :=
  alike.map commutes fun u _ => (answers u).directory

theorem AlikeState.sendResponse (alike : AlikeState s t) (code : Int32) :
    AlikeState (s.sendResponse code) (t.sendResponse code) :=
  alike.answers (f := fun s => s.sendResponse code) (fun _ => rfl) fun _ => ⟨_, _, _, rfl⟩

theorem AlikeState.logLine (alike : AlikeState s t) (line : LogLine) :
    AlikeState (s.logLine line) (t.logLine line) :=
  alike.answers (f := fun s => s.logLine line) (fun _ => rfl) fun _ => ⟨_, _, _, rfl⟩

/-! ## Messages -/

theorem AlikeState.switchConfig (alike : AlikeState s t) (read : ReadTable s) (read' : ReadTable t)
    (env : CommandEnv) (arg : Bytes) (status : Bool) :
    AlikeState (switchConfig env arg status s) (switchConfig env arg status t) := by
  unfold Fs.switchConfig
  rw [findConfig_alike alike]
  cases findConfig t (atoi arg) with
  | none => exact alike.sendResponse 1
  | some i =>
      have fits : (Fs.switchTable t i status).configCount ≤ MAX_CONFIGS := by
        obtain ⟨_, _, _, bounded, table⟩ := switchTable_frame t i status
        rw [table]
        exact bounded
      have rebuilt := (alike.switchTable read read' i status).rebuildWatches env.watches fits
      obtain ⟨id, -⟩ := unfiltered_iff.mp (rebuilt.configs i)
      dsimp only
      rw [id]
      exact (rebuilt.logLine _).sendResponse 0

theorem AlikeState.handleMessage (alike : AlikeState s t) (read : ReadTable s) (read' : ReadTable t)
    (env : CommandEnv) (message : Bytes) : AlikeState (handleMessage env message s) (handleMessage env message t) := by
  have listed : ∀ scope, AlikeState (listCommand env scope (Fs.loadConfigs s))
      (listCommand env scope (Fs.loadConfigs t)) := fun scope =>
    alike.loadConfigs.answers (listCommand_unfiltered env scope) (listCommand_answers env scope)
  unfold Fs.handleMessage handleCommand
  split_ifs
  · exact alike
  · cases splitCommand (cstr message) with
    | nil => exact alike.sendResponse 1
    | cons opt args =>
        dsimp only
        cases args.head? with
        | none =>
            dsimp only
            split_ifs
            · exact listed none
            · exact alike.loadConfigs.sendResponse 1
        | some arg =>
            dsimp only
            split_ifs
            · exact alike.loadConfigs.switchConfig read.loadConfigs read'.loadConfigs env arg true
            · exact alike.loadConfigs.switchConfig read.loadConfigs read'.loadConfigs env arg false
            · exact listed (some arg)
            · exact alike.loadConfigs.sendResponse 1

end

/-! ## Runs -/

theorem step_alike {s t : FsState} (alike : AlikeState s t ∧ ReadTable s ∧ ReadTable t)
    {input input' : FsStep} (same : AlikeStep input input') :
    AlikeState (step s input) (step t input') ∧ ReadTable (step s input) ∧
      ReadTable (step t input') := by
  obtain ⟨alike, read, read'⟩ := alike
  refine ⟨?_, read.step input, read'.step input'⟩
  cases same with
  | message env message => exact alike.handleMessage read read' env message
  | monitor env => exact alike.monitorOnce env
  | edit same => exact alike.withDirectory same

theorem initial_alike (env : WatchEnv) {directory directory' : Directory}
    (same : AlikeDirectory directory directory') :
    AlikeState (.initial env directory) (.initial env directory') := by
  have zero : AlikeState (.zero directory) (.zero directory') := ⟨rfl, same⟩
  obtain ⟨_, _, bounded, frame⟩ := loadConfigs_frame (.zero directory')
  have fits : (loadConfigs (.zero directory')).configCount ≤ MAX_CONFIGS := by
    rw [frame]
    exact bounded
  exact (zero.loadConfigs.rebuildWatches env fits).logLine .startingMonitoring

/-- Whatever the files say for OPERATIONS, the same events are recorded and logged, the same alarms
run, the same paths watched and the same responses sent. -/
theorem operations_never_read (env : WatchEnv) {directory directory' : Directory}
    (same : AlikeDirectory directory directory') {steps steps' : List FsStep}
    (each : List.Forall₂ AlikeStep steps steps') :
    let s := run step (.initial env directory) steps
    let t := run step (.initial env directory') steps'
    eventRows s = eventRows t ∧ s.logFile = t.logFile ∧ s.alarms = t.alarms ∧
      s.watchConfig = t.watchConfig ∧ s.responses = t.responses ∧ s.unfiltered = t.unfiltered ∧
      AlikeDirectory s.directory t.directory := by
  obtain ⟨alike, -⟩ : AlikeState (run step (.initial env directory) steps)
      (run step (.initial env directory') steps') ∧ _ ∧ _ :=
    List.rel_foldl (P := fun s t => AlikeState s t ∧ ReadTable s ∧ ReadTable t) (R := AlikeStep)
      (fun _ _ alike _ _ same => step_alike alike same)
      ⟨initial_alike env same, initial_readTable env _, initial_readTable env _⟩ each
  exact ⟨alike.seen eventRows fun _ => rfl, alike.seen FsState.logFile fun _ => rfl,
    alike.seen FsState.alarms fun _ => rfl, alike.seen FsState.watchConfig fun _ => rfl,
    alike.seen FsState.responses fun _ => rfl, alike.state, alike.directory⟩

def deleteDirectory : Directory :=
  some [confFile "web.conf" 12 "MONITOR_SWITCH=on\nNAME=web\nPATH=/srv/www\nOPERATIONS=delete\n"]

def chmodDirectory : Directory :=
  some [confFile "web.conf" 12 "OPERATIONS=chmod\nMONITOR_SWITCH=on\nNAME=web\nPATH=/srv/www\n"]

def writtenSteps (directory : Directory) : List FsStep :=
  [.monitor ⟨100, [[⟨1, IN_CREATE, some (lit "x")⟩]], false⟩, .edit directory,
    .message ⟨growingWatches 1, true⟩ (lit "stop 12")]

theorem delete_chmod_alike : AlikeDirectory deleteDirectory chmodDirectory :=
  .some (.cons ⟨rfl, rfl, rfl, rfl, ⟨rfl, rfl⟩, by decide⟩ .nil)

theorem operations_never_read_delete :
    let s := run step (.initial (growingWatches 0) deleteDirectory) (writtenSteps deleteDirectory)
    let t := run step (.initial (growingWatches 0) chmodDirectory) (writtenSteps chmodDirectory)
    eventRows s = eventRows t ∧ s.logFile = t.logFile ∧ s.alarms = t.alarms ∧
      s.watchConfig = t.watchConfig ∧ s.responses = t.responses ∧ s.unfiltered = t.unfiltered ∧
      AlikeDirectory s.directory t.directory :=
  operations_never_read (growingWatches 0) delete_chmod_alike
    (.cons (.monitor _) (.cons (.edit delete_chmod_alike) (.cons (.message _ _) .nil)))

example : (eventRows (run step (.initial (growingWatches 0) deleteDirectory)
    (writtenSteps deleteDirectory))).map (fun record => record.op.text) = [lit "write"] := by
  decide

end SysDetector.Fs
