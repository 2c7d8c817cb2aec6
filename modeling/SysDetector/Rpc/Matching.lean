import SysDetector.Library.RequestReply
import SysDetector.Rpc.Server
import SysDetector.Proc.Worker
import SysDetector.Responses

namespace SysDetector.Rpc
open CLib Runs RequestReply

inductive ProcInput
  | event (now : Proc.Time) (e : Proc.ProcEvent)
  | monitor (env : Proc.MonitorEnv)

def sentSince {α : Type} (before after : List α) : List α := after.drop before.length

def procPeer : Peer Proc.ProcState (QueuedCommand .proc) Proc.CommandEnv ProcInput
    Proc.ResponseCode where
  handle env request s :=
    let s' := Proc.handleMessage env request.message s
    (s', sentSince s.responses s'.responses)
  act
    | .event now e, s => (Proc.handleEvent now e s).2
    | .monitor env, s => Proc.monitorStep env s

inductive FsInput
  | monitor (env : Fs.ReadEnv)
  | edit (directory : Fs.Directory)

def fsPeer : Peer Fs.FsState (QueuedCommand .fs) Fs.CommandEnv FsInput Int32 where
  handle env request s :=
    let s' := Fs.handleMessage env request.message s
    (s', sentSince s.responses s'.responses)
  act
    | .monitor env, s => Fs.monitorOnce env s
    | .edit directory, s => { s with directory := directory }

def procStep := step procPeer MQ_MAXMSG

def fsStep := step fsPeer MQ_MAXMSG

def ProcAnswered := Answered (ρ := QueuedCommand .proc) (ε := Proc.CommandEnv) (ι := ProcInput)
  (σ := Proc.ProcState) (α := Proc.ResponseCode)
  fun env request _ => Proc.ListsTable request.message → env.outFileOpens = true

def FsAnswered := Answered (ρ := QueuedCommand .fs) (ε := Fs.CommandEnv) (ι := FsInput)
  (σ := Fs.FsState) (α := Int32) fun _ _ _ => True

theorem sentSince_oneMore {α : Type} {before after : List α} (one : OneMore before after) :
    (sentSince before after).length = 1 := by
  obtain ⟨code, rfl⟩ := one
  simp [sentSince]

/-- In runs in which the server never gives up on a response and every table can be written, each
code is returned for the command it was sent for, and the response queue is empty whenever a command
is about to be sent. -/
theorem responses_match (configs : List Proc.ProcessConfig)
    (procSteps : List (Step (QueuedCommand .proc) Proc.CommandEnv ProcInput))
    (env : Fs.WatchEnv) (directory : Fs.Directory)
    (fsSteps : List (Step (QueuedCommand .fs) Fs.CommandEnv FsInput))
    (procAnswered : Guarded procStep ProcAnswered (.start (.initial configs)) procSteps)
    (fsAnswered : Guarded fsStep FsAnswered (.start (.initial env directory)) fsSteps) :
    Always procStep Matched (.start (.initial configs)) procSteps ∧
      Always fsStep Matched (.start (.initial env directory)) fsSteps := by
  constructor
  · refine matched_of_answered (fun env request s once => ?_) _ procAnswered
    exact sentSince_oneMore ((Proc.handleMessage_one_response_iff env request.nonempty s).mpr once)
  · refine matched_of_answered (fun env request s _ => ?_) _ fsAnswered
    exact sentSince_oneMore (Fs.handleMessage_one_response env request.nonempty s)

/-! ## One command after another -/

def procList : QueuedCommand .proc where
  command := .proc (lit "list") []
  message := lit "list"
  accepted := by decide
  addressed := rfl

def procStop : QueuedCommand .proc where
  command := .proc (lit "stop") [lit "1"]
  message := lit "stop 1"
  accepted := by decide
  addressed := rfl

def fsList : QueuedCommand .fs where
  command := .fs (lit "list") []
  message := lit "list"
  accepted := by decide
  addressed := rfl

theorem responses_match_list :
    Always procStep Matched (.start (.initial []))
        [.send procList, .take ⟨0, true⟩, .emit, .receive] ∧
      Always fsStep Matched (.start (.initial ⟨true, fun _ => 1⟩ none))
        [.send fsList, .take ⟨⟨true, fun _ => 1⟩, true⟩, .emit, .receive] := by
  apply responses_match
  · simp only [guarded_cons, guarded_nil]
    exact ⟨trivial, fun _ _ _ _ _ => rfl, trivial, trivial, trivial⟩
  · simp only [guarded_cons, guarded_nil]
    exact ⟨trivial, fun _ _ _ _ => trivial, trivial, trivial, trivial⟩

def lateSteps : List (Step (QueuedCommand .proc) Proc.CommandEnv ProcInput) :=
  [.send procList, .timeout, .take ⟨6, true⟩, .emit, .send procStop, .receive]

theorem late_response_returned : ¬ ∀ (configs : List Proc.ProcessConfig)
    (steps : List (Step (QueuedCommand .proc) Proc.CommandEnv ProcInput)),
    Matched (run procStep (.start (.initial configs)) steps) := by
  intro matched
  have paired := (matched [] lateSteps).paired ⟨1, 0, .cmdSuccess⟩ (by decide)
  cases paired

end SysDetector.Rpc
