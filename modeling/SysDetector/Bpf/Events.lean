import SysDetector.Library.BpfHelpers
import SysDetector.Proc.State

namespace SysDetector.Bpf
open CLib BpfHelpers Proc

abbrev ExecArgs := Fin ARGV_MAX_ARGS → CharBuf ARGV_ARG_LEN

def noArgs : ExecArgs := fun _ => default

def EXEC_ARGS_MAX_ENTRIES : Nat := 4096

abbrev ExecArgsCache := HashMap UInt32 ExecArgs EXEC_ARGS_MAX_ENTRIES

structure ExecveContext where
  tgid : UInt32
  argv : UInt64
  memory : Memory

/-- `sched_process_exec`. The kernel's copy of the file name may be unreadable; its recorded length
counts the terminator. -/
structure ExecContext where
  tgid : UInt32
  parentTgid : UInt32
  comm : CharBuf TASK_COMM_LEN
  filename : Option Bytes
  filenameLen : Nat
  stackId : UInt32

structure ExitContext where
  tgid : UInt32
  parentTgid : UInt32
  comm : CharBuf TASK_COMM_LEN
  stackId : UInt32

structure ForkContext where
  childPid : UInt32
  parentPid : UInt32
  childComm : CharBuf TASK_COMM_LEN
  stackId : UInt32

def argvSlot (argv : UInt64) (i : Nat) : UInt64 := argv + 8 * UInt64.ofNat i

def captureArg (mem : Memory) (argv : UInt64) (i : Nat) : CharBuf ARGV_ARG_LEN :=
  let argp := probeReadPointer mem (argvSlot argv i)
  if argp ≠ 0 then probeReadStr ARGV_ARG_LEN mem argp else default

def handleExecve (ctx : ExecveContext) (cache : ExecArgsCache) : ExecArgsCache :=
  cache.update ctx.tgid fun i => captureArg ctx.memory ctx.argv i

def readFilename (ctx : ExecContext) : CharBuf TASK_NAME_MAX :=
  match ctx.filename with
  | none => default
  | some filename =>
      let read := snprintf TASK_NAME_MAX filename
      if read.text.length + 1 > ctx.filenameLen then default else read

def getExecInfo (ctx : ExecContext) (cache : ExecArgsCache) : ProcEvent × ExecArgsCache :=
  ({ type := .exec
     pid := ctx.tgid
     ppid := ctx.parentTgid
     comm := ctx.comm
     filename := readFilename ctx
     argv := (cache.lookup ctx.tgid).getD fun _ => default
     stackId := ctx.stackId },
   cache.delete ctx.tgid)

def getExitInfo (ctx : ExitContext) : ProcEvent where
  type := .exit
  pid := ctx.tgid
  ppid := ctx.parentTgid
  comm := ctx.comm
  filename := default
  argv := fun _ => default
  stackId := ctx.stackId

def getForkInfo (ctx : ForkContext) : ProcEvent where
  type := .fork
  pid := ctx.childPid
  ppid := ctx.parentPid
  comm := ctx.childComm
  filename := default
  argv := fun _ => default
  stackId := ctx.stackId

end SysDetector.Bpf
