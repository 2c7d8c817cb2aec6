import SysDetector.Library.Lag
import SysDetector.Rpc.Matching

namespace SysDetector.Rpc
open CLib Runs RequestReply

/-- Whenever the worker takes a message that asks for a table, the output file opens. -/
def TablesOpen (s : State Proc.ProcState (QueuedCommand .proc) Proc.ResponseCode) :
    Step (QueuedCommand .proc) Proc.CommandEnv ProcInput → Prop
  | .take env => ∀ ticket request rest, s.requests = (ticket, request) :: rest →
      Proc.ListsTable request.message → env.outFileOpens = true
  | _ => True

def procCount := countStep procPeer MQ_MAXMSG

def fsCount := countStep fsPeer MQ_MAXMSG

section
variable {configs : List Proc.ProcessConfig}
  {procSteps : List (Step (QueuedCommand .proc) Proc.CommandEnv ProcInput)}

theorem proc_answersOnce (open_ : Guarded procCount (fun sk => TablesOpen sk.1)
    (.start (.initial configs), 0) procSteps) :
    Guarded procCount (fun sk => AnswersOnce procPeer sk.1) (.start (.initial configs), 0)
      procSteps := by
  intro past input rest split
  have opens := open_ past input rest split
  cases input with
  | take env =>
      intro ticket request queued first
      exact sentSince_oneMore ((Proc.handleMessage_one_response_iff env request.nonempty _).mpr
        (opens ticket request queued first))
  | _ => trivial

theorem fs_answersOnce (start : State Fs.FsState (QueuedCommand .fs) Int32 × Nat)
    (fsSteps : List (Step (QueuedCommand .fs) Fs.CommandEnv FsInput)) :
    Guarded fsCount (fun sk => AnswersOnce fsPeer sk.1) start fsSteps := by
  intro past input rest _
  cases input with
  | take env =>
      intro ticket request queued _
      exact sentSince_oneMore (Fs.handleMessage_one_response env request.nonempty _)
  | _ => trivial

/-- Once commands were given up, every code returned is that of the command so many before, and as
many messages stay in the queues: nothing the server does later makes up for it. -/
theorem responses_lag (env : Fs.WatchEnv) (directory : Fs.Directory)
    (fsSteps : List (Step (QueuedCommand .fs) Fs.CommandEnv FsInput))
    (open_ : Guarded procCount (fun sk => TablesOpen sk.1) (.start (.initial configs), 0)
      procSteps) :
    Always procCount (fun sk => LagsBy sk.2 sk.1) (.start (.initial configs), 0) procSteps ∧
      Always fsCount (fun sk => LagsBy sk.2 sk.1) (.start (.initial env directory), 0) fsSteps :=
  ⟨(always_lagging _ (proc_answersOnce open_)).mono _ fun _ lagging => lagging.lagsBy,
    (always_lagging _ (fs_answersOnce _ fsSteps)).mono _ fun _ lagging => lagging.lagsBy⟩

theorem lateSteps_open :
    Guarded procCount (fun sk => TablesOpen sk.1) (.start (.initial []), 0) lateSteps := by
  simp only [lateSteps, guarded_cons, guarded_nil]
  exact ⟨trivial, trivial, fun _ _ _ _ _ => rfl, trivial, trivial, trivial, trivial⟩

def lateFsSteps : List (Step (QueuedCommand .fs) Fs.CommandEnv FsInput) :=
  [.send fsList, .timeout, .send fsList, .timeout]

theorem responses_lag_late :
    Always procCount (fun sk => LagsBy sk.2 sk.1) (.start (.initial []), 0) lateSteps ∧
      Always fsCount (fun sk => LagsBy sk.2 sk.1)
        (.start (.initial ⟨true, fun _ => 1⟩ none), 0) lateFsSteps :=
  responses_lag ⟨true, fun _ => 1⟩ none lateFsSteps lateSteps_open

instance : Nonempty (QueuedCommand .proc) := ⟨procList⟩
instance : Nonempty (QueuedCommand .fs) := ⟨fsList⟩
instance : Nonempty Proc.CommandEnv := ⟨⟨0, true⟩⟩
instance : Nonempty Fs.CommandEnv := ⟨⟨⟨true, fun _ => 1⟩, true⟩⟩

def GoesOn {σ ρ ε ι α : Type} (p : Peer σ ρ ε ι α) (sk : State σ ρ α × Nat) : Prop :=
  sk.2 ≤ 11 ∧ ¬ Stuck p MQ_MAXMSG sk.1

/-- Neither the server nor the worker can go on exactly when 21 commands were given up and the
server wants to send another. As long as every `mq_receive` that fails finds the queue empty, no
more than 11 commands are ever given up, and it does not come to that. -/
theorem stuck_iff_given_up (env : Fs.WatchEnv) (directory : Fs.Directory)
    (fsSteps : List (Step (QueuedCommand .fs) Fs.CommandEnv FsInput))
    (open_ : Guarded procCount (fun sk => TablesOpen sk.1) (.start (.initial configs), 0)
      procSteps) :
    (Always procCount (fun sk => Stuck procPeer MQ_MAXMSG sk.1 ↔ sk.1.waiting = none ∧ sk.2 = 21)
        (.start (.initial configs), 0) procSteps ∧
      (.fail ∉ procSteps → Always procCount (GoesOn procPeer) (.start (.initial configs), 0)
        procSteps)) ∧
    (Always fsCount (fun sk => Stuck fsPeer MQ_MAXMSG sk.1 ↔ sk.1.waiting = none ∧ sk.2 = 21)
        (.start (.initial env directory), 0) fsSteps ∧
      (.fail ∉ fsSteps → Always fsCount (GoesOn fsPeer) (.start (.initial env directory), 0)
        fsSteps)) :=
  ⟨always_stuck_iff (by decide) _ (proc_answersOnce open_),
    always_stuck_iff (by decide) _ (fs_answersOnce _ fsSteps)⟩

theorem stuck_iff_given_up_late :
    (Always procCount (fun sk => Stuck procPeer MQ_MAXMSG sk.1 ↔ sk.1.waiting = none ∧ sk.2 = 21)
        (.start (.initial []), 0) lateSteps ∧
      (.fail ∉ lateSteps → Always procCount (GoesOn procPeer) (.start (.initial []), 0)
        lateSteps)) ∧
    (Always fsCount (fun sk => Stuck fsPeer MQ_MAXMSG sk.1 ↔ sk.1.waiting = none ∧ sk.2 = 21)
        (.start (.initial ⟨true, fun _ => 1⟩ none), 0) lateFsSteps ∧
      (.fail ∉ lateFsSteps → Always fsCount (GoesOn fsPeer)
        (.start (.initial ⟨true, fun _ => 1⟩ none), 0) lateFsSteps)) :=
  stuck_iff_given_up ⟨true, fun _ => 1⟩ none lateFsSteps lateSteps_open

end

end SysDetector.Rpc
