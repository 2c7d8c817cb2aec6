import SysDetector.Library.Provenance
import SysDetector.Rpc.Listings
import SysDetector.Rpc.Replies

/-!
# Connections of several clients

The server takes each connection in a task of its own, and a command only under the lock that all of
them share. One step is a turn of one connection, of the one that holds the lock, or of a worker.
-/

namespace SysDetector.Rpc
open CLib Runs RequestReply SharedOutput

/-! ## The server -/

/-- A reading of the monotonic clock, in milliseconds. -/
abbrev Instant := Nat

def RESPONSE_TIMEOUT : Nat := 5000

def POLL_INTERVAL : Nat := 50

inductive CallError
  | deserialize (cause : String)
  | refused (error : RpcError)
  | responseQueue (cause : String)
  | commandQueue (cause : String)
  | send (cause : String)
  | timedOut
  | receive (cause : String)
  | invalidUtf8
deriving DecidableEq

def RpcError.text : RpcError → String
  | .invalidProcOperation => "Invalid PROC operation"
  | .invalidFsOperation => "Invalid FS operation"
  | .listNotImplemented => "LIST operation is not implemented"
  | .messageTooLarge => "Message too large"

def CallError.text : CallError → String
  | .deserialize cause => "Failed to deserialize command: " ++ cause
  | .refused error => error.text
  | .responseQueue cause => "Response queue open failed: " ++ cause
  | .commandQueue cause => "Command send queue open failed: " ++ cause
  | .send cause => "Command send failed: " ++ cause
  | .timedOut => "Response receive timed out"
  | .receive cause => "Response receive failed: " ++ cause
  | .invalidUtf8 => "Invalid UTF-8 response"

def errorResponse (e : CallError) : RpcResponse := ⟨1, "Error: " ++ e.text ++ "\n"⟩

/-- A command on its way to a worker; the ticket is for the statements below and unknown to the
server. -/
structure Call where
  worker : Worker
  ticket : Nat
  request : QueuedCommand worker

inductive Phase
  | reading
  | sending (w : Worker) (request : QueuedCommand w)
  | waiting (call : Call) (deadline wake : Instant)
  | fetching (call : Call) (recvStr : Bytes)
  | responding (response : RpcResponse) (written : Nat)

/-- The stream is all that the client will ever write, and `arrived` how much of it the server has
got. -/
structure Connection where
  stream : Bytes
  arrived : Nat
  phase : Phase
  call : Option Call

def Connection.accepted (stream : Bytes) : Connection where
  stream := stream
  arrived := 0
  phase := .reading
  call := none

def Connection.sent (conn : Connection) (call : Call) (now : Instant) : Connection :=
  { conn with
    phase := .waiting call (now + RESPONSE_TIMEOUT) now
    call := some call }

abbrev Shared := SharedState WorkerState QueuedCommand WorkerCode UInt8

structure ServerState where
  shared : Shared
  ledger : Ledger QueuedCommand WorkerCode UInt8
  connections : List Connection
  lock : Option Nat

def ServerState.start (shared : Shared) : ServerState where
  shared := shared
  ledger := .empty
  connections := []
  lock := none

def ServerState.setPhase (s : ServerState) (c : Nat) (phase : Phase) : ServerState :=
  { s with connections := s.connections.modify c fun conn => { conn with phase := phase } }

def ServerState.release (s : ServerState) (c : Nat) (response : RpcResponse) : ServerState :=
  { s.setPhase c (.responding response 0) with lock := none }

def readRequest (stream : Bytes) : Option (Bytes × Bytes) := do
  let (lenBuf, stream) ← readExact 4 stream
  readExact (beNat lenBuf) stream

structure CallEnv where
  responseQueue : Option String
  commandQueue : Option String

/-- The part of `handle_command` before `mq_send`. -/
def beginCall (decode : Bytes → Except String Command) (env : CallEnv) (message : Bytes) :
    Except CallError (Σ w, QueuedCommand w) :=
  match decode message with
  | .error cause => .error (.deserialize cause)
  | .ok command =>
      match validateCommand command with
      | .error e => .error (.refused e)
      | .ok _ =>
          match env.responseQueue with
          | some cause => .error (.responseQueue cause)
          | none =>
              match accepted : commandMessage command with
              | .error e => .error (.refused e)
              | .ok text =>
                  match env.commandQueue with
                  | some cause => .error (.commandQueue cause)
                  | none => .ok ⟨queuesForCommand command, ⟨command, text, accepted, rfl⟩⟩

def codeOf : ∀ w, WorkerCode w → Int32
  | .proc => fun code : Proc.ResponseCode => code.value
  | .fs => fun code : Int32 => code

/-- The part of `handle_command` after the receive. -/
def endCall (recvStr : Bytes) (body : String) : RpcResponse :=
  (rpcResponse recvStr body).getD (errorResponse .invalidUtf8)

inductive Work
  | take (w : Worker) (env : WorkerEnv w)
  | write (w : Worker) (n : Nat)
  | close (w : Worker)
  | emit (w : Worker)
  | act (w : Worker) (input : WorkerInput w)

def Work.shared : Work → SharedStep QueuedCommand WorkerEnv WorkerInput
  | .take w env => .take w env
  | .write w n => .write w n
  | .close w => .close w
  | .emit w => .emit w
  | .act w input => .act w input

inductive ConnectionStep
  | connect (stream : Bytes)
  | arrive (c n : Nat)
  | enter (c : Nat) (env : CallEnv)
  | send (now : Instant)
  | sendFails (cause : String)
  | poll (now : Instant)
  | receiveFails (cause : String)
  | read (readable : Bool)
  | respond (c n : Nat)
  | work (input : Work)

section Step
variable (decode : Bytes → Except String Command) (localTime : Fs.Time → Bytes)

def ServerState.share (s : ServerState) (input : SharedStep QueuedCommand WorkerEnv WorkerInput) :
    ServerState :=
  { s with
    shared := serverStep localTime s.shared input
    ledger := record (workerParty localTime) MQ_MAXMSG s.shared s.ledger input }

def ServerState.holder (s : ServerState) : Option (Nat × Connection) :=
  s.lock.bind fun c => s.connections[c]?.map fun conn => (c, conn)

def enterStep (s : ServerState) (c : Nat) (conn : Connection) (env : CallEnv) : ServerState :=
  match conn.phase, readRequest (conn.stream.take conn.arrived) with
  | .reading, some (message, _) =>
      match beginCall decode env message with
      | .error e => s.setPhase c (.responding (errorResponse e) 0)
      | .ok ⟨w, request⟩ => { s.setPhase c (.sending w request) with lock := some c }
  | _, _ => s

def sendStep (s : ServerState) (c : Nat) (conn : Connection) (now : Instant) : ServerState :=
  match conn.phase with
  | .sending w request =>
      if (s.shared.parties w).requests.length < MQ_MAXMSG then
        let call : Call := ⟨w, (s.shared.parties w).sent, request⟩
        let s := s.share localTime (.send w request)
        { s with connections := s.connections.modify c fun conn => conn.sent call now }
      else s
  | _ => s

/-- One turn of the loop of `receive_response_from_fd`, for which the thread has to be awake. -/
def pollStep (s : ServerState) (c : Nat) (conn : Connection) (now : Instant) : ServerState :=
  match conn.phase with
  | .waiting call deadline wake =>
      if now < wake then s
      else
        match (s.shared.parties call.worker).replies with
        | (_, reply) :: _ =>
            let s := s.share localTime .receive
            let recvStr := (responseBuffer (codeOf call.worker reply)).text
            if isListCommand call.request.command then s.setPhase c (.fetching call recvStr)
            else s.release c (endCall recvStr "")
        | [] =>
            if now < deadline then s.setPhase c (.waiting call deadline (now + POLL_INTERVAL))
            else (s.share localTime .timeout).release c (errorResponse .timedOut)
  | _ => s

def readStep (s : ServerState) (c : Nat) (conn : Connection) (readable : Bool) : ServerState :=
  match conn.phase with
  | .fetching _ recvStr =>
      let body := if readable then fromUtf8 s.shared.output.file else none
      (s.share localTime (.read body.isSome)).release c (endCall recvStr (body.getD ""))
  | _ => s

def connectionStep (s : ServerState) : ConnectionStep → ServerState
  | .connect stream => { s with connections := s.connections ++ [.accepted stream] }
  | .arrive c n =>
      { s with connections := s.connections.modify c fun conn =>
        { conn with arrived := conn.arrived + n } }
  | .enter c env =>
      match s.lock, s.connections[c]? with
      | none, some conn => enterStep decode s c conn env
      | _, _ => s
  | .send now => s.holder.elim s fun (c, conn) => sendStep localTime s c conn now
  | .sendFails cause =>
      s.holder.elim s fun (c, conn) =>
        match conn.phase with
        | .sending _ _ => s.release c (errorResponse (.send cause))
        | _ => s
  | .poll now => s.holder.elim s fun (c, conn) => pollStep localTime s c conn now
  | .receiveFails cause =>
      s.holder.elim s fun (c, conn) =>
        match conn.phase with
        | .waiting _ _ _ => (s.share localTime .fail).release c (errorResponse (.receive cause))
        | _ => s
  | .read readable => s.holder.elim s fun (c, conn) => readStep localTime s c conn readable
  | .respond c n =>
      { s with connections := s.connections.modify c fun conn =>
        match conn.phase with
        | .responding response written => { conn with phase := .responding response (written + n) }
        | _ => conn }
  | .work input => s.share localTime input.shared

end Step

def Connection.received (conn : Connection) : Bytes :=
  match conn.phase with
  | .responding response written => (responseFrame response).take written
  | _ => []

/-! ## What is read from a stream -/

theorem readExact_extend {n : Nat} {stream bytes rest : Bytes} (more : Bytes)
    (whole : readExact n stream = some (bytes, rest)) :
    readExact n (stream ++ more) = some (bytes, rest ++ more) := by
  unfold readExact at whole
  split_ifs at whole with enough
  cases whole
  have split : stream ++ more = stream.take n ++ (stream.drop n ++ more) := by
    rw [← List.append_assoc, List.take_append_drop]
  rw [split]
  exact readExact_append (List.length_take_of_le enough) _

theorem readRequest_extend {stream message rest : Bytes} (more : Bytes)
    (whole : readRequest stream = some (message, rest)) :
    readRequest (stream ++ more) = some (message, rest ++ more) := by
  simp only [readRequest, Option.bind_eq_bind, Option.bind_eq_some_iff, Prod.exists] at whole ⊢
  obtain ⟨lenBuf, behind, first, second⟩ := whole
  exact ⟨lenBuf, behind ++ more, readExact_extend more first, readExact_extend more second⟩

def requestFrame (message : Bytes) : Bytes :=
  beBytes 4 (UInt32.ofNat message.length).toNat ++ message

theorem readRequest_frame {message : Bytes} (short : message.length < 2 ^ 32) (rest : Bytes) :
    readRequest (requestFrame message ++ rest) = some (message, rest) := by
  have lengthKept : beNat (beBytes 4 (UInt32.ofNat message.length).toNat) = message.length := by
    rw [beNat_beBytes_of_lt (UInt32.toNat_lt _), UInt32.toNat_ofNat', Nat.mod_eq_of_lt short]
  unfold readRequest requestFrame
  simp only [List.append_assoc, readExact_append (length_beBytes 4 _), Option.bind_eq_bind,
    Option.bind_some, lengthKept]
  exact readExact_append rfl rest

theorem readResponse_extend {stream rest : Bytes} {response : CliResponse} (more : Bytes)
    (whole : readResponse stream = some (response, rest)) :
    readResponse (stream ++ more) = some (response, rest ++ more) := by
  simp only [readResponse, Option.bind_eq_bind, Option.bind_eq_some_iff, Prod.exists] at whole ⊢
  obtain ⟨buf, behind, first, lenBuf, body, second, last⟩ := whole
  refine ⟨buf, behind ++ more, readExact_extend more first, lenBuf, body ++ more,
    readExact_extend more second, ?_⟩
  split_ifs at last ⊢ with long
  · rw [Option.bind_eq_some_iff] at last ⊢
    obtain ⟨⟨text, left⟩, third, same⟩ := last
    cases same
    exact ⟨(text, left ++ more), readExact_extend more third, rfl⟩
  · cases last
    rfl

theorem readResponse_part {response : RpcResponse} (short : (lit response.body).length < 2 ^ 32)
    {written : Nat} {read : CliResponse} {rest : Bytes}
    (whole : readResponse ((responseFrame response).take written) = some (read, rest)) :
    read = ⟨response.code, lit response.body⟩ ∧ rest = [] := by
  have more := readResponse_extend ((responseFrame response).drop written) whole
  have frame := readResponse_frame short []
  rw [List.take_append_drop] at more
  rw [List.append_nil, more, Option.some.injEq, Prod.mk.injEq] at frame
  exact ⟨frame.1, (List.append_eq_nil_iff.mp frame.2).1⟩

theorem fromUtf8_eq_some {bytes : Bytes} {text : String} (valid : fromUtf8 bytes = some text) :
    lit text = bytes := by
  unfold fromUtf8 String.fromUTF8? at valid
  split_ifs at valid
  cases valid
  rfl

end SysDetector.Rpc
