import SysDetector.Library.CLib

namespace SysDetector.Rpc
open CLib

def MAX_MSG_SIZE : Nat := 1024

def MQ_MAXMSG : Nat := 10

inductive Command
  | proc (opt : Bytes) (identifier : List Bytes)
  | fs (opt : Bytes) (identifier : List Bytes)
  | list (opt : Bytes) (identifier : Bytes)
deriving DecidableEq

inductive Worker
  | proc
  | fs
deriving DecidableEq

inductive RpcError
  | invalidProcOperation
  | invalidFsOperation
  | listNotImplemented
  | messageTooLarge
deriving DecidableEq

def PROC_POSSIBLE_OPT_VALUES : List Bytes := [lit "start", lit "stop", lit "list"]
def FS_POSSIBLE_OPT_VALUES : List Bytes := [lit "start", lit "stop", lit "list"]

def queuesForCommand : Command → Worker
  | .fs _ _ => .fs
  | _ => .proc

def commandText (opt : Bytes) (identifier : List Bytes) : Bytes :=
  if identifier = [] then opt else opt ++ lit " " ++ (lit " ").intercalate identifier

def validateCommand : Command → Except RpcError Bytes
  | .proc opt identifier =>
      if PROC_POSSIBLE_OPT_VALUES.contains opt then .ok (commandText opt identifier)
      else .error .invalidProcOperation
  | .fs opt identifier =>
      if FS_POSSIBLE_OPT_VALUES.contains opt then .ok (commandText opt identifier)
      else .error .invalidFsOperation
  | .list _ _ => .error .listNotImplemented

def checkLength (message : Bytes) : Except RpcError Bytes :=
  if message.length > MAX_MSG_SIZE then .error .messageTooLarge else .ok message

def commandMessage (command : Command) : Except RpcError Bytes := do
  checkLength (← validateCommand command)

structure QueuedCommand (worker : Worker) where
  command : Command
  message : Bytes
  accepted : commandMessage command = .ok message
  addressed : queuesForCommand command = worker

theorem commandText_ne_nil {opt : Bytes} (identifier : List Bytes) (nonempty : opt ≠ []) :
    commandText opt identifier ≠ [] := by
  unfold commandText
  split_ifs <;> simp [nonempty]

theorem validateCommand_ne_nil {command : Command} {message : Bytes}
    (valid : validateCommand command = .ok message) : message ≠ [] := by
  cases command with
  | proc opt identifier =>
      simp only [validateCommand] at valid
      split_ifs at valid with known
      cases valid
      apply commandText_ne_nil
      rintro rfl
      exact absurd known (by decide)
  | fs opt identifier =>
      simp only [validateCommand] at valid
      split_ifs at valid with known
      cases valid
      apply commandText_ne_nil
      rintro rfl
      exact absurd known (by decide)
  | list opt identifier => cases valid

theorem commandMessage_ne_nil {command : Command} {message : Bytes}
    (accepted : commandMessage command = .ok message) : message ≠ [] := by
  unfold commandMessage at accepted
  cases valid : validateCommand command with
  | error e =>
      rw [valid] at accepted
      cases accepted
  | ok text =>
      rw [valid] at accepted
      change checkLength text = .ok message at accepted
      unfold checkLength at accepted
      split_ifs at accepted
      cases accepted
      exact validateCommand_ne_nil valid

theorem QueuedCommand.nonempty {worker : Worker} (request : QueuedCommand worker) :
    request.message ≠ [] :=
  commandMessage_ne_nil request.accepted

end SysDetector.Rpc
