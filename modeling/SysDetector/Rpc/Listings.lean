import SysDetector.Library.SharedOutput
import SysDetector.Rpc.Matching
import SysDetector.Tables

/-!
# The bodies of list commands

The tables of both workers go through one file, which the server reads after any response to a
`list`. `list_bodies_own`: what it returns is what the addressed worker wrote for that command if
that worker was the last to open the file and has closed it, and nobody else wrote to it since. That
is so in runs in which each command is answered in time and each table written
(`answered_bodies_own`), and not after a list that writes none (`stale_table_returned`).
-/

namespace SysDetector.Rpc
open CLib Runs RequestReply SharedOutput

def isListCommand : Command → Bool
  | .proc opt _ | .fs opt _ => opt = lit "list"
  | .list _ _ => false

def WorkerState : Worker → Type
  | .proc => Proc.ProcState
  | .fs => Fs.FsState

def WorkerEnv : Worker → Type
  | .proc => Proc.CommandEnv
  | .fs => Fs.CommandEnv

def WorkerInput : Worker → Type
  | .proc => ProcInput
  | .fs => FsInput

def WorkerCode : Worker → Type
  | .proc => Proc.ResponseCode
  | .fs => Int32

/-- The table is what the handling leaves in the output file, where it was taken away before. -/
def procParty : Party Proc.ProcState (QueuedCommand .proc) Proc.CommandEnv ProcInput
    Proc.ResponseCode UInt8 where
  toPeer := procPeer
  text env request s :=
    (Proc.handleMessage env request.message { s with outFile := none }).outFile.map
      Proc.Listing.text
  fetches request := isListCommand request.command

def fsParty (localTime : Fs.Time → Bytes) : Party Fs.FsState (QueuedCommand .fs) Fs.CommandEnv
    FsInput Int32 UInt8 where
  toPeer := fsPeer
  text env request s :=
    (Fs.handleMessage env request.message { s with outFile := none }).outFile.map
      (Fs.Listing.text localTime)
  fetches request := isListCommand request.command

def workerParty (localTime : Fs.Time → Bytes) : ∀ w, Party (WorkerState w) (QueuedCommand w)
    (WorkerEnv w) (WorkerInput w) (WorkerCode w) UInt8
  | .proc => procParty
  | .fs => fsParty localTime

def serverStep (localTime : Fs.Time → Bytes) :=
  sharedStep (workerParty localTime) MQ_MAXMSG

def workersStart (configs : List Proc.ProcessConfig) (env : Fs.WatchEnv)
    (directory : Fs.Directory) : ∀ w, WorkerState w
  | .proc => Proc.ProcState.initial configs
  | .fs => Fs.FsState.initial env directory

theorem list_bodies_own (localTime : Fs.Time → Bytes) (configs : List Proc.ProcessConfig)
    (env : Fs.WatchEnv) (directory : Fs.Directory) (file : Bytes)
    (steps : List (SharedStep QueuedCommand WorkerEnv WorkerInput))
    (reads : Guarded (serverStep localTime) ReadsOwn
      (.start (workersStart configs env directory) file) steps) :
    Always (serverStep localTime) (fun s => s.output.BodiesOwn)
      (.start (workersStart configs env directory) file) steps :=
  bodies_own_of_guarded _ _ reads

def listSteps : List (SharedStep QueuedCommand WorkerEnv WorkerInput) :=
  [.send .proc procList, .take .proc (⟨0, true⟩ : Proc.CommandEnv), .write .proc 100, .close .proc,
    .emit .proc, .receive, .read true]

theorem list_bodies_own_proc : Always (serverStep fun _ => []) (fun s => s.output.BodiesOwn)
    (.start (workersStart [] ⟨true, fun _ => 1⟩ none) []) listSteps := by
  apply list_bodies_own
  simp only [listSteps, guarded_cons, guarded_nil]
  refine ⟨trivial, trivial, trivial, trivial, trivial, trivial, ?_, trivial⟩
  have whole : LeftWhole Worker.proc 0 [.opened .proc 0, .wrote .proc 0, .closed .proc 0] :=
    ⟨[.wrote .proc 0, .closed .proc 0], ⟨⟨[], rfl⟩, by simp⟩, by simp⟩
  intro w ticket client
  cases client
  exact .inr whole

/-! ## A table that is left over -/

def fsBogusList : QueuedCommand .fs where
  command := .fs (lit "list") [lit "bogus"]
  message := lit "list bogus"
  accepted := by decide
  addressed := rfl

def staleSteps : List (SharedStep QueuedCommand WorkerEnv WorkerInput) :=
  listSteps ++ [.send .fs fsBogusList, .take .fs (⟨⟨true, fun _ => 1⟩, true⟩ : Fs.CommandEnv),
    .emit .fs, .receive, .read true]

theorem stale_table_returned : ¬ ∀ (localTime : Fs.Time → Bytes)
    (configs : List Proc.ProcessConfig) (env : Fs.WatchEnv) (directory : Fs.Directory)
    (file : Bytes) (steps : List (SharedStep QueuedCommand WorkerEnv WorkerInput)),
    Always (serverStep localTime) (fun s => s.output.BodiesOwn)
      (.start (workersStart configs env directory) file) steps := by
  intro own
  have last := (own (fun _ => []) [] ⟨true, fun _ => 1⟩ none [] staleSteps).last
  have stale : ((run (serverStep fun _ => [])
      (.start (workersStart [] ⟨true, fun _ => 1⟩ none) []) staleSteps).output.bodies.any fun body =>
        decide (body.text ≠ [] ∧ body ∉ (run (serverStep fun _ => [])
          (.start (workersStart [] ⟨true, fun _ => 1⟩ none) []) staleSteps).output.written)) =
      true := by
    decide
  obtain ⟨body, returned, foreign⟩ := List.any_eq_true.mp stale
  rw [decide_eq_true_eq] at foreign
  rcases last body returned with empty | written
  · exact foreign.1 empty
  · exact foreign.2 written

/-! ## Commands that are answered in time -/

def FsListsTable (message : Bytes) : Prop :=
  ∃ args, Fs.splitCommand (cstr message) = lit "list" :: args ∧
    (args.head? = none ∨ args.head? = some (lit "config") ∨ args.head? = some (lit "events"))

def TableWritten : ∀ w, WorkerEnv w → QueuedCommand w → Prop
  | .proc, (env : Proc.CommandEnv), request =>
      (Proc.ListsTable request.message → env.outFileOpens = true) ∧
        (isListCommand request.command = true → Proc.ListsTable request.message)
  | .fs, (env : Fs.CommandEnv), request => isListCommand request.command = true →
      FsListsTable request.message ∧ env.outFileOpens = true

/-- The server never gives up on a response, every list names a table of the addressed worker, and
the output file opens. -/
def AnsweredInTime (s : SharedState WorkerState QueuedCommand WorkerCode UInt8) :
    SharedStep QueuedCommand WorkerEnv WorkerInput → Prop
  | .take w env => ∀ ticket request rest, (s.parties w).requests = (ticket, request) :: rest →
      TableWritten w env request
  | .timeout | .fail => False
  | _ => True

theorem proc_table_written {env : Proc.CommandEnv} {message : Bytes} (s : Proc.ProcState)
    (lists : Proc.ListsTable message) (opens : env.outFileOpens = true) :
    (Proc.handleMessage env message s).outFile ≠ none := by
  obtain ⟨args, tokens, table⟩ := lists
  have valid : Proc.procIsValidOpt Proc.PROC_LIST = true := by decide
  have different : lit "tracked" ≠ lit "config" := by decide
  rw [Proc.handleMessage_tokens tokens, if_pos valid, Proc.handleCommand_list,
    Proc.handleListCommand]
  rcases table with table | table | table <;> rw [table] <;>
    simp [different, Proc.handleConfigListCommand, Proc.handleTrackedListCommand,
      Proc.openProcOutFile, opens, Proc.ProcState.sendResponse]

theorem fs_table_written {env : Fs.CommandEnv} {message : Bytes} (s : Fs.FsState)
    (lists : FsListsTable message) (opens : env.outFileOpens = true) :
    (Fs.handleMessage env message s).outFile ≠ none := by
  obtain ⟨args, tokens, table⟩ := lists
  have different : lit "events" ≠ lit "config" ∧ lit "list" ≠ lit "start" ∧
    lit "list" ≠ lit "stop" := by decide
  rw [Fs.handleMessage_tokens tokens, Fs.handleCommand, tokens]
  rcases table with table | table | table <;> dsimp only <;> rw [table] <;>
    simp [different, Fs.listCommand, Fs.listConfigs, Fs.listEvents, opens, Fs.FsState.sendResponse]

theorem prompt_of_answeredInTime (localTime : Fs.Time → Bytes)
    {s : SharedState WorkerState QueuedCommand WorkerCode UInt8}
    {input : SharedStep QueuedCommand WorkerEnv WorkerInput} (answered : AnsweredInTime s input) :
    Prompt (workerParty localTime) s input := by
  cases input with
  | take w env =>
      intro ticket request rest requests
      have written := answered ticket request rest requests
      cases w with
      | proc =>
          obtain ⟨opens, lists⟩ := written
          refine ⟨sentSince_oneMore
            ((Proc.handleMessage_one_response_iff _ request.nonempty _).mpr opens), ?_⟩
          intro fetches none
          have table := lists fetches
          exact proc_table_written _ table (opens table) (Option.map_eq_none_iff.mp none)
      | fs =>
          refine ⟨sentSince_oneMore (Fs.handleMessage_one_response _ request.nonempty _), ?_⟩
          intro fetches none
          obtain ⟨table, opens⟩ := written fetches
          exact fs_table_written _ table opens (Option.map_eq_none_iff.mp none)
  | timeout => exact answered
  | fail => exact answered
  | _ => trivial

theorem answered_bodies_own (localTime : Fs.Time → Bytes) (configs : List Proc.ProcessConfig)
    (env : Fs.WatchEnv) (directory : Fs.Directory) (file : Bytes)
    (steps : List (SharedStep QueuedCommand WorkerEnv WorkerInput))
    (answered : Guarded (serverStep localTime) AnsweredInTime
      (.start (workersStart configs env directory) file) steps) :
    Always (serverStep localTime) (fun s => s.output.BodiesOwn)
      (.start (workersStart configs env directory) file) steps := by
  have prompt : Guarded (serverStep localTime) (Prompt (workerParty localTime))
      (.start (workersStart configs env directory) file) steps :=
    fun past input rest split => prompt_of_answeredInTime localTime (answered past input rest split)
  exact bodies_own_of_guarded _ _ (reads_own_of_prompt _ _ prompt)

end SysDetector.Rpc
