import SysDetector.Library.RestartHangs
import SysDetector.Rpc.Lag

/-!
# Restarts of the workers

The server and one worker over the names of the message queues, where the worker is stopped, killed
and started again at any moment. `restarts_keep_order`: responses are returned in the order of the
commands. `fs_commands_survive`: the fs worker gets every command, whatever restarts it had, and its
stale responses stay. `lag_since_clean_stop`, `clean_stop_forgets`: those of the proc worker go when
it is stopped. `call_hangs_iff`: a call that waits in `mq_send` while the proc worker ends waits for
good.
-/

namespace SysDetector.Rpc
open CLib Runs RequestReply Restarts

/-- `proc_init_mq` unlinks the command queue before it creates it, and the signal handler lets `main`
come to its end, where both queues are unlinked. -/
def procService : Service Proc.ProcState (QueuedCommand .proc) Proc.CommandEnv ProcInput
    (List Proc.ProcessConfig) Proc.ResponseCode where
  peer := procPeer
  revive configs _ := .initial configs
  renews := true
  cleans := true

/-- The fs worker unlinks no queue, and a signal ends it at once. -/
def fsService : Service Fs.FsState (QueuedCommand .fs) Fs.CommandEnv FsInput
    (Fs.WatchEnv × Fs.Directory) Int32 where
  peer := fsPeer
  revive begin _ := .initial begin.1 begin.2
  renews := false
  cleans := false

abbrev ProcSystem := System Proc.ProcState (QueuedCommand .proc) Proc.ResponseCode

abbrev ProcMove := Move (QueuedCommand .proc) Proc.CommandEnv ProcInput (List Proc.ProcessConfig)

abbrev FsMove := Move (QueuedCommand .fs) Fs.CommandEnv FsInput (Fs.WatchEnv × Fs.Directory)

def moveProc := Restarts.step procService MQ_MAXMSG

def moveFs := Restarts.step fsService MQ_MAXMSG

/-- Whenever the worker receives a message that asks for a table, the output file opens. -/
def TablesOpenAt (s : ProcSystem) : ProcMove → Prop
  | .process (.take env) => ∀ ticket request rest,
      s.requests.held s.requests.linked = (ticket, request) :: rest →
        Proc.ListsTable request.message → env.outFileOpens = true
  | _ => True

theorem proc_repliesOnce {s : ProcSystem} {move : ProcMove} (opens : TablesOpenAt s move) :
    RepliesOnce procService s move := by
  unfold RepliesOnce
  split
  · next env =>
      intro ticket request rest queued
      exact sentSince_oneMore ((Proc.handleMessage_one_response_iff env request.nonempty _).mpr
        (opens ticket request rest queued))
  · trivial

theorem fs_repliesOnce (s : System Fs.FsState (QueuedCommand .fs) Int32) (move : FsMove) :
    RepliesOnce fsService s move := by
  unfold RepliesOnce
  split
  · next env =>
      intro ticket request rest _
      exact sentSince_oneMore (Fs.handleMessage_one_response env request.nonempty _)
  · trivial

/-- Whatever is stopped, killed and started again, every response is returned once at most, in the
order of the commands, and for no command before its own. -/
theorem restarts_keep_order (proc : Proc.ProcState) (procMoves : List ProcMove) (fs : Fs.FsState)
    (fsMoves : List FsMove) (open_ : Guarded moveProc TablesOpenAt (.start proc) procMoves) :
    Always moveProc InOrder (.start proc) procMoves ∧ Always moveFs InOrder (.start fs) fsMoves := by
  constructor
  · refine always_inOrder proc fun past input rest split => ?_
    exact proc_repliesOnce (open_ past input rest split)
  · exact always_inOrder fs fun past input rest _ => fs_repliesOnce _ input

def killedProc : List ProcMove :=
  [.process (.start []), .process .ready, .process .test, .client .openReplies,
    .client (.openRequests procStop), .client .send, .process (.take ⟨6, true⟩), .process .kill,
    .process (.start []), .process .ready, .process .test, .client .timeout, .client .openReplies,
    .client (.openRequests procList), .client .send, .process (.take ⟨7, true⟩), .process .emit,
    .client .receive]

def killedFs : List FsMove :=
  [.process (.start (⟨true, fun _ => 1⟩, none)), .client .openReplies,
    .client (.openRequests fsList), .client .send, .process .kill, .client .timeout,
    .process (.start (⟨true, fun _ => 1⟩, none)), .process .ready, .process .test,
    .process (.take ⟨⟨true, fun _ => 1⟩, true⟩), .process .emit, .client .openReplies,
    .client (.openRequests fsList), .client .send, .client .receive]

/-- The response from before the restart is returned for the next command. -/
example : (run moveFs (.start (.zero none)) killedFs).returned.map
    (fun exchange => (exchange.request, exchange.answered)) = [(1, 0)] := rfl

theorem restarts_keep_order_killed :
    Always moveProc InOrder (.start (.initial [])) killedProc ∧
      Always moveFs InOrder (.start (.zero none)) killedFs := by
  apply restarts_keep_order
  simp only [killedProc, guarded_cons, guarded_nil]
  exact ⟨trivial, trivial, trivial, trivial, trivial, trivial, fun _ _ _ _ _ => rfl, trivial, trivial,
    trivial, trivial, trivial, trivial, trivial, trivial, fun _ _ _ _ _ => rfl, trivial, trivial,
    trivial⟩

/-- The worker receives every command once, in order, over all its restarts; and of the responses to
commands that the server gave up, only those stay away that a kill came before. -/
theorem fs_commands_survive (fs : Fs.FsState) (moves : List FsMove) :
    Always (tallyStep fsService MQ_MAXMSG) (fun st => Handed st.1 ∧ LeftOver st.1.view st.2)
      (.start fs, ⟨0, 0⟩) moves :=
  always_handed rfl rfl fs fun _ input _ _ => fs_repliesOnce _ input

/-- As long as the worker is not killed, and stopped between two calls only, a code returned is that
of the command as many before as were given up since the worker last ended. -/
theorem lag_since_clean_stop (proc : Proc.ProcState) {moves : List ProcMove}
    (allowed : Guarded (tallyStep procService MQ_MAXMSG)
      (fun st move => Gentle procService st.1 move ∧ TablesOpenAt st.1 move) (.start proc, ⟨0, 0⟩)
      moves) :
    Always (tallyStep procService MQ_MAXMSG) (fun st => LagsBy st.2.givenUp st.1.view)
      (.start proc, ⟨0, 0⟩) moves := by
  refine always_lagsBy rfl rfl proc fun past input rest split => ?_
  obtain ⟨gentle, opens⟩ := allowed past input rest split
  exact ⟨gentle, proc_repliesOnce opens⟩

def lateMoves : List ProcMove :=
  [.process (.start []), .process .ready, .process .test, .client .openReplies,
    .client (.openRequests procStop), .client .send, .client .timeout, .process (.take ⟨6, true⟩),
    .process .emit, .process .stop, .process .test]

def nextMoves : List ProcMove :=
  [.process (.start []), .process .ready, .process .test, .client .openReplies,
    .client (.openRequests procList), .client .send, .process (.take ⟨7, true⟩), .process .emit,
    .client .receive]

example : (run moveProc (.start (.initial []))
    (lateMoves ++ .process .cleanUp :: nextMoves)).returned.map
      (fun exchange => (exchange.request, exchange.answered)) = [(1, 1)] := rfl

theorem lag_since_clean_stop_late :
    Always (tallyStep procService MQ_MAXMSG) (fun st => LagsBy st.2.givenUp st.1.view)
      (.start (.initial []), ⟨0, 0⟩) (lateMoves ++ .process .cleanUp :: nextMoves) := by
  apply lag_since_clean_stop
  simp only [lateMoves, nextMoves, List.cons_append, List.nil_append, guarded_cons, guarded_nil]
  have opens : ∀ (s : ProcSystem) now, TablesOpenAt s (.process (.take ⟨now, true⟩)) :=
    fun _ _ _ _ _ _ _ => rfl
  exact ⟨⟨trivial, trivial⟩, ⟨trivial, trivial⟩, ⟨trivial, trivial⟩, ⟨trivial, trivial⟩,
    ⟨trivial, trivial⟩, ⟨trivial, trivial⟩, ⟨trivial, trivial⟩, ⟨trivial, opens _ _⟩,
    ⟨trivial, trivial⟩, ⟨.inl rfl, trivial⟩, ⟨trivial, trivial⟩, ⟨fun _ => rfl, trivial⟩,
    ⟨trivial, trivial⟩, ⟨trivial, trivial⟩, ⟨trivial, trivial⟩, ⟨trivial, trivial⟩,
    ⟨trivial, trivial⟩, ⟨trivial, trivial⟩, ⟨trivial, opens _ _⟩, ⟨trivial, trivial⟩,
    ⟨trivial, trivial⟩, trivial⟩

/-- Once the worker ended between two calls, no response to an earlier command is ever returned,
whatever becomes of the worker and the server afterwards. -/
theorem clean_stop_forgets (proc : Proc.ProcState) (before after : List ProcMove)
    (clean : cleansUp procService (run moveProc (.start proc) before) (.process .cleanUp) = true)
    (idle : (run moveProc (.start proc) before).client = .idle) :
    Forgotten (run moveProc (.start proc) before).sent
      (run moveProc (.start proc) before).returned
      (run moveProc (.start proc) (before ++ .process .cleanUp :: after)).view :=
  forgotten_after proc before after clean idle

theorem clean_stop_forgets_late :
    Forgotten (run moveProc (.start (.initial [])) lateMoves).sent
      (run moveProc (.start (.initial [])) lateMoves).returned
      (run moveProc (.start (.initial [])) (lateMoves ++ .process .cleanUp :: nextMoves)).view :=
  clean_stop_forgets (.initial []) lateMoves nextMoves rfl rfl

/-! ## Calls that wait for room -/

/-- A call that waits in `mq_send` to the proc worker waits for good, and with it every other call,
exactly when its queue is full and the worker that reads it, if there is one, takes no message any
more. The fs worker can always be brought to take one. -/
theorem call_hangs_iff (proc : Proc.ProcState) {moves : List ProcMove}
    (open_ : Guarded moveProc TablesOpenAt (.start proc) moves) {r c : Nat}
    {request : QueuedCommand .proc}
    (client : (run moveProc (.start proc) moves).client = .sending r c request) :
    (Shut MQ_MAXMSG (run moveProc (.start proc) moves) c ↔
      ∀ more : List ProcMove, .client .fail ∉ more →
        (run moveProc (.start proc) (moves ++ more)).client = .sending r c request ∧
        (run moveProc (.start proc) (moves ++ more)).returned =
          (run moveProc (.start proc) moves).returned) ∧
      ∀ (fs : Fs.FsState) (fsMoves : List FsMove) (r c : Nat) (request : QueuedCommand .fs),
        (run moveFs (.start fs) fsMoves).client = .sending r c request →
          Releases fsService MQ_MAXMSG (run moveFs (.start fs) fsMoves) := by
  constructor
  · refine run_hung_iff ⟨0, true⟩ rfl (by decide) proc (fun past input rest split => ?_) client
    exact proc_repliesOnce (open_ past input rest split)
  · intro fs fsMoves r c request client
    exact run_releases ⟨⟨true, fun _ => 1⟩, true⟩ (⟨true, fun _ => 1⟩, none) rfl rfl (by decide) fs
      client

def leavingMoves : List ProcMove :=
  [.process (.start []), .process .ready, .process .stop, .process .test] ++
    (List.replicate 10 [.client .openReplies, .client (.openRequests procList), .client .send,
      .client .timeout]).flatten ++
    [.client .openReplies, .client (.openRequests procList)]

theorem leavingMoves_open :
    Guarded moveProc TablesOpenAt (.start (.initial [])) leavingMoves := by
  intro past input rest split
  have member : input ∈ leavingMoves := by simp [split]
  unfold TablesOpenAt
  split
  · simp [leavingMoves] at member
  · trivial

theorem leaving_sending :
    (run moveProc (.start (.initial [])) leavingMoves).client = .sending 0 0 procList := rfl

theorem leaving_shut : Shut MQ_MAXMSG (run moveProc (.start (.initial [])) leavingMoves) 0 where
  full := Nat.le_of_eq rfl
  closed p alive _ := by
    have left : (run moveProc (.start (.initial [])) leavingMoves).process =
        some ⟨0, .ended, [], true⟩ := rfl
    rw [left] at alive
    cases alive
    exact .inl rfl

theorem call_hangs_iff_leaving :
    Shut MQ_MAXMSG (run moveProc (.start (.initial [])) leavingMoves) 0 ∧
      ((∀ more : List ProcMove, .client .fail ∉ more →
        (run moveProc (.start (.initial [])) (leavingMoves ++ more)).client =
          .sending 0 0 procList ∧
        (run moveProc (.start (.initial [])) (leavingMoves ++ more)).returned =
          (run moveProc (.start (.initial [])) leavingMoves).returned) ∧
      Releases fsService MQ_MAXMSG (run moveFs (.start (.zero none))
        [.process (.start (⟨true, fun _ => 1⟩, none)), .client .openReplies,
          .client (.openRequests fsList)])) := by
  obtain ⟨proc, fs⟩ := call_hangs_iff (.initial []) leavingMoves_open leaving_sending
  exact ⟨leaving_shut, proc.mp leaving_shut, fs (.zero none) _ 0 0 fsList rfl⟩

end SysDetector.Rpc
