import SysDetector.Proc.State

namespace SysDetector.Proc
open CLib SlotTable

def SHORT_LIVED_PROC_SECONDS : Int := 2
def SHORT_LIVED_BURST_WINDOW_SECONDS : Int := 10
def SHORT_LIVED_BURST_THRESHOLD : Int32 := 5

def trackedView : View TrackedProcess UInt32 Time where
  active := TrackedProcess.active
  key := TrackedProcess.pid
  stamp := TrackedProcess.lastSeen

def counterView : View ShortLivedCounter (CharBuf TASK_COMM_LEN) Time where
  active := ShortLivedCounter.active
  key := ShortLivedCounter.comm
  stamp := ShortLivedCounter.windowStart

def findTrackedProcess (s : ProcState) (pid : UInt32) : Option (Fin MAX_TRACKED_PROCS) :=
  trackedView.find s.trackedProcs pid

def allocTrackedProcessSlot (s : ProcState) : Fin MAX_TRACKED_PROCS × ProcState :=
  let i := trackedView.alloc s.trackedProcs
  let proc := s.trackedProcs i
  (i, if proc.active then s.writeLog (.droppingTracked proc.pid proc.comm) else s)

def trackedSlotFor (s : ProcState) (pid : UInt32) : Fin MAX_TRACKED_PROCS × ProcState :=
  match findTrackedProcess s pid with
  | some i => (i, s)
  | none => allocTrackedProcessSlot s

def pathBasename (path : Bytes) : Bytes := afterLast 47 path

def isEnabledConfiguredProcess (s : ProcState) (e : ProcEvent) : Bool :=
  s.configs.any fun config => config.monitorSwitch &&
    (config.name.text == e.comm.text || config.name.text == pathBasename e.filename.text)

def isTrackedOrEnabledConfiguredProcess (s : ProcState) (e : ProcEvent) : Bool :=
  (findTrackedProcess s e.pid).isSome || isEnabledConfiguredProcess s e

def joinArgs (bufLen : Nat) : Bytes → List (CharBuf ARGV_ARG_LEN) → Bytes
  | buf, [] => buf
  | buf, arg :: rest =>
      if arg.text = [] then joinArgs bufLen buf rest
      else
        let piece := (if 0 < buf.length then lit " " else []) ++ arg.text
        if piece.length ≥ bufLen - buf.length then
          buf ++ piece.take (bufLen - buf.length - 1)
        else joinArgs bufLen (buf ++ piece) rest

def joinEventArgv (e : ProcEvent) (bufLen : Nat) : Bytes :=
  joinArgs bufLen [] (List.ofFn e.argv)

def containsAny (value : Bytes) (patterns : List String) : Bool :=
  patterns.any fun pattern => contains value (lit pattern)

def shellInterpreters : List String := ["bash -c", "sh -c", "/bash -c", "/sh -c"]
def reverseShellFlags : List String := ["nc -e", "ncat -e", "netcat -e", "/dev/tcp/"]
def inlineInterpreters : List String :=
  ["python -c", "python3 -c", "perl -e", "ruby -e", "php -r"]

def suspiciousLines (e : ProcEvent) (argv : Bytes) : List LogLine :=
  let hasDownloader := containsAny argv ["curl ", "wget "]
  let hasPipeShell := containsAny argv ["| sh", "|sh", "| bash", "|bash"]
  (if containsAny argv shellInterpreters then [.suspiciousShell e.pid e.comm argv] else []) ++
  (if hasDownloader && hasPipeShell then [.downloadToShell e.pid e.comm argv] else []) ++
  (if containsAny argv reverseShellFlags then [.reverseShell e.pid e.comm argv] else []) ++
  (if containsAny argv inlineInterpreters then [.inlineInterpreter e.pid e.comm argv] else [])

def detectSuspiciousExec (e : ProcEvent) (argv : Bytes) (s : ProcState) : ProcState :=
  (suspiciousLines e argv).foldl ProcState.writeLog s

def execRecord (now : Time) (e : ProcEvent) : TrackedProcess where
  pid := e.pid
  ppid := e.ppid
  comm := snprintf TASK_COMM_LEN e.comm.text
  filename := snprintf TASK_NAME_MAX e.filename.text
  argv := snprintf ARGV_MAX_LEN (joinEventArgv e ARGV_MAX_LEN)
  firstSeen := now
  lastSeen := now
  active := true

def trackProcExec (now : Time) (e : ProcEvent) (s : ProcState) : Bool × ProcState :=
  if isEnabledConfiguredProcess s e then
    let (slot, s) := trackedSlotFor s e.pid
    let s := s.setTracked slot (execRecord now e)
    (true, detectSuspiciousExec e (joinEventArgv e ARGV_MAX_LEN) s)
  else (false, s)

def shortLivedCounterFor (s : ProcState) (comm : CharBuf TASK_COMM_LEN) (now : Time) :
    Fin MAX_TRACKED_PROCS × ShortLivedCounter :=
  match counterView.find s.shortLivedCounters comm with
  | some i => (i, s.shortLivedCounters i)
  | none => (counterView.alloc s.shortLivedCounters,
      { comm := comm, windowStart := now, count := 0, active := true })

def recordShortLivedProcess (proc : TrackedProcess) (runtime : Int) (now : Time)
    (s : ProcState) : ProcState :=
  let (slot, counter) := shortLivedCounterFor s proc.comm now
  let counter := if now - counter.windowStart > SHORT_LIVED_BURST_WINDOW_SECONDS then
      { counter with windowStart := now, count := 0 } else counter
  let counter := { counter with count := counter.count + 1 }
  let s := s.setCounter slot counter
  let s := s.writeLog (.shortLivedProcess proc.pid proc.comm runtime)
  if counter.count ≥ SHORT_LIVED_BURST_THRESHOLD then
    s.writeLog (.shortLivedBurst counter.comm counter.count) else s

def trackProcExit (now : Time) (e : ProcEvent) (s : ProcState) : Bool × ProcState :=
  if isTrackedOrEnabledConfiguredProcess s e then
    match findTrackedProcess s e.pid with
    | none => (false, s)
    | some slot =>
        let proc := { s.trackedProcs slot with lastSeen := now }
        let s := s.setTracked slot proc
        let runtime := proc.lastSeen - proc.firstSeen
        let s := s.writeLog (.proc proc.pid proc.comm proc.filename proc.argv runtime)
        let s := if runtime ≤ SHORT_LIVED_PROC_SECONDS then
            recordShortLivedProcess proc runtime now s else s
        (true, s.setTracked slot { proc with active := false })
  else (false, s)

def forkRecord (now : Time) (e : ProcEvent) (parent : TrackedProcess) : TrackedProcess :=
  { parent with
    pid := e.pid
    ppid := e.ppid
    comm := snprintf TASK_COMM_LEN e.comm.text
    lastSeen := now
    active := true }

def trackProcFork (now : Time) (e : ProcEvent) (s : ProcState) : Bool × ProcState :=
  match findTrackedProcess s e.ppid with
  | none => (false, s)
  | some parent =>
      -- The slot of the child can be the parent's own, when the table is full.
      let (child, s) := trackedSlotFor s e.pid
      let s := s.setTracked child (forkRecord now e (s.trackedProcs parent))
      (true, s.writeLog
        (.fork e.pid e.ppid e.comm (s.trackedProcs parent).comm e.stackId))

def procEventExec (now : Time) (e : ProcEvent) (s : ProcState) : ProcState :=
  if isEnabledConfiguredProcess s e then
    let argv := joinEventArgv e ARGV_MAX_LEN
    let (tracked, s) := trackProcExec now e s
    if tracked then s.writeLog (.exec e.pid e.ppid e.comm e.filename argv e.stackId) else s
  else s

def procEventExit (now : Time) (e : ProcEvent) (s : ProcState) : ProcState :=
  let (tracked, s) := trackProcExit now e s
  if tracked then s.writeLog (.exit e.pid e.ppid e.comm e.stackId) else s

def procEventFork (now : Time) (e : ProcEvent) (s : ProcState) : ProcState :=
  (trackProcFork now e s).2

def handleEvent (now : Time) (e : ProcEvent) (s : ProcState) : Int × ProcState :=
  if s.ebpfRunning then
    match e.type with
    | .exec => (0, procEventExec now e s)
    | .exit => (0, procEventExit now e s)
    | .fork => (0, procEventFork now e s)
    | .other => (-1, s)
  else (0, s)

end SysDetector.Proc
