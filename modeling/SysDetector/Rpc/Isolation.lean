import SysDetector.Rpc.Connections

namespace SysDetector.Rpc
open CLib Runs RequestReply SharedOutput

/-! ## Whose response it is -/

section Isolation
variable {decode : Bytes → Except String Command} {localTime : Fs.Time → Bytes}

def Asks (decode : Bytes → Except String Command) (stream : Bytes) {w : Worker}
    (request : QueuedCommand w) : Prop :=
  ∃ message rest, readRequest stream = some (message, rest) ∧ decode message = .ok request.command

/-- The text that `handle_command` received is the code for the call, which its worker took once. -/
def CodeFor (l : Ledger QueuedCommand WorkerCode UInt8) (call : Call) (code : Int32) : Prop :=
  ∃ h ∈ l.handled call.worker, h.ticket = call.ticket ∧ h.request = call.request ∧
    ∃ reply, h.replies = [reply] ∧ code = codeOf call.worker reply

/-- The body is empty, or as much of the table as the worker wrote when it handled the call. -/
def BodyFor (l : Ledger QueuedCommand WorkerCode UInt8) (call : Call) (body : String) : Prop :=
  body = "" ∨ isListCommand call.request.command = true ∧
    ∃ h ∈ l.handled call.worker, h.ticket = call.ticket ∧ h.request = call.request ∧
      ∃ text, h.text = some text ∧ lit body <+: text

/-- A response to a connection that called nobody is an error of the server's. -/
def OwnResponse (decode : Bytes → Except String Command)
    (l : Ledger QueuedCommand WorkerCode UInt8) (conn : Connection) (response : RpcResponse) : Prop :=
  match conn.call with
  | none => ∃ e, response = errorResponse e
  | some call => Asks decode conn.stream call.request ∧ CodeFor l call response.code ∧
      BodyFor l call response.body

def Outside (decode : Bytes → Except String Command)
    (l : Ledger QueuedCommand WorkerCode UInt8) (conn : Connection) : Prop :=
  match conn.phase with
  | .reading => conn.call = none
  | .responding response _ => OwnResponse decode l conn response
  | _ => False

def Inside (decode : Bytes → Except String Command) (shared : Shared)
    (l : Ledger QueuedCommand WorkerCode UInt8) (conn : Connection) : Prop :=
  match conn.phase with
  | .sending _ request => shared.client = .idle ∧ conn.call = none ∧ Asks decode conn.stream request
  | .waiting call _ _ => shared.client = .waiting call.worker call.request ∧
      (shared.parties call.worker).waiting = some call.ticket ∧ conn.call = some call ∧
      Asks decode conn.stream call.request
  | .fetching call recvStr => shared.client = .reading call.worker call.ticket ∧
      conn.call = some call ∧ Asks decode conn.stream call.request ∧
      isListCommand call.request.command = true ∧
      ∃ code, recvStr = (responseBuffer code).text ∧ CodeFor l call code
  | _ => False

structure Isolated (decode : Bytes → Except String Command) (localTime : Fs.Time → Bytes)
    (s : ServerState) : Prop where
  traceable : Traceable (workerParty localTime) s.shared s.ledger
  free : s.lock = none → s.shared.client = .idle
  held : ∀ c, s.lock = some c → ∃ conn : Connection, s.connections[c]? = some conn
  places : ∀ c conn, s.connections[c]? = some conn →
    if s.lock = some c then Inside decode s.shared s.ledger conn else Outside decode s.ledger conn
  asked : ∀ (c : Nat) (conn : Connection) (call : Call), s.connections[c]? = some conn →
    conn.call = some call →
    (s.ledger.asked call.worker)[call.ticket]? = some call.request
  apart : ∀ (c c' : Nat) (conn conn' : Connection) (call call' : Call), s.connections[c]? = some conn →
    s.connections[c']? = some conn' → conn.call = some call → conn'.call = some call' →
    call.worker = call'.worker → call.ticket = call'.ticket → c = c'

section Growth
variable {l l' : Ledger QueuedCommand WorkerCode UInt8} {conn : Connection} {call : Call}

theorem CodeFor.grow {code : Int32} (known : CodeFor l call code) (grows : l.Grows l') :
    CodeFor l' call code := by
  obtain ⟨h, member, same⟩ := known
  exact ⟨h, (grows _).2 member, same⟩

theorem BodyFor.grow {body : String} (known : BodyFor l call body) (grows : l.Grows l') :
    BodyFor l' call body := by
  refine known.imp id fun ⟨list, h, member, same⟩ => ?_
  exact ⟨list, h, (grows _).2 member, same⟩

theorem Outside.grow (outside : Outside decode l conn) (grows : l.Grows l') :
    Outside decode l' conn := by
  unfold Outside at *
  cases phase : conn.phase with
  | reading =>
      rw [phase] at outside
      exact outside
  | responding response written =>
      rw [phase] at outside
      unfold OwnResponse at *
      cases called : conn.call with
      | none =>
          rw [called] at outside
          exact outside
      | some call =>
          rw [called] at outside
          obtain ⟨asks, code, body⟩ := outside
          exact ⟨asks, code.grow grows, body.grow grows⟩
  | _ =>
      rw [phase] at outside
      exact outside.elim

end Growth

/-! ## Steps -/

/-- No response is given up, and every list writes its table. -/
def InTime (s : ServerState) : ConnectionStep → Prop
  | .poll now => ∀ c conn call deadline wake, s.holder = some (c, conn) →
      conn.phase = .waiting call deadline wake →
        (s.shared.parties call.worker).replies = [] → now < deadline
  | .receiveFails _ => ∀ c conn call deadline wake, s.holder = some (c, conn) →
      conn.phase ≠ .waiting call deadline wake
  | .work input => AnsweredInTime s.shared input.shared
  | _ => True

theorem holder_eq_some {s : ServerState} {c : Nat} {conn : Connection} :
    s.holder = some (c, conn) ↔ s.lock = some c ∧ s.connections[c]? = some conn := by
  unfold ServerState.holder
  rw [Option.bind_eq_some_iff]
  constructor
  · rintro ⟨c', lock, found⟩
    obtain ⟨conn', at_, same⟩ := Option.map_eq_some_iff.mp found
    cases same
    exact ⟨lock, at_⟩
  · rintro ⟨lock, at_⟩
    exact ⟨c, lock, by rw [at_]; rfl⟩

theorem holder_step {P : ServerState → Prop} {s : ServerState} {step : Nat × Connection → ServerState}
    (unheld : P s) (each : ∀ c conn, s.lock = some c → s.connections[c]? = some conn →
      P (step (c, conn))) : P (s.holder.elim s step) := by
  cases held : s.holder with
  | none => exact unheld
  | some at_ =>
      obtain ⟨lock, found⟩ := holder_eq_some.mp held
      exact each at_.1 at_.2 lock found

theorem endCall_code (code : Int32) (body : String) :
    endCall (responseBuffer code).text body = ⟨code, body⟩ := by
  rw [endCall, responseBuffer_text, rpcResponse_decimal, Option.getD_some]

theorem fetches_iff (w : Worker) (request : QueuedCommand w) :
    (workerParty localTime w).fetches request = isListCommand request.command := by
  cases w <;> rfl

theorem work_keeps (localTime : Fs.Time → Bytes) (s : Shared) (input : Work) :
    (serverStep localTime s input.shared).client = s.client ∧
      ∀ w, ((serverStep localTime s input.shared).parties w).waiting = (s.parties w).waiting := by
  have onParty : ∀ (w : Worker) (step : Step (QueuedCommand w) (WorkerEnv w) (WorkerInput w)),
      (RequestReply.step (workerParty localTime w).toPeer MQ_MAXMSG (s.parties w) step).waiting =
        (s.parties w).waiting → ∀ w', ((SharedOutput.onParty (workerParty localTime) MQ_MAXMSG s w
          step).parties w').waiting = (s.parties w').waiting := by
    intro w step same
    exact (Function.forall_update_iff _ fun w'
      (party : State (WorkerState w') (QueuedCommand w') (WorkerCode w')) =>
        party.waiting = (s.parties w').waiting).mpr ⟨same, fun w' _ => rfl⟩
  unfold serverStep
  cases input with
  | take w env =>
      have same : (RequestReply.step (workerParty localTime w).toPeer MQ_MAXMSG (s.parties w)
          (.take env)).waiting = (s.parties w).waiting := by
        unfold RequestReply.step
        dsimp only
        split <;> rfl
      unfold Work.shared sharedStep takeRequest
      dsimp only
      split_ifs
      · split
        · split
          · exact ⟨rfl, onParty w _ same⟩
          · exact ⟨rfl, onParty w _ same⟩
        · exact ⟨rfl, fun _ => rfl⟩
      · exact ⟨rfl, fun _ => rfl⟩
  | write w n => exact ⟨rfl, fun _ => rfl⟩
  | close w => exact ⟨rfl, fun _ => rfl⟩
  | emit w =>
      have same : (RequestReply.step (workerParty localTime w).toPeer MQ_MAXMSG (s.parties w)
          .emit).waiting = (s.parties w).waiting := by
        unfold RequestReply.step
        dsimp only
        split
        · split_ifs <;> rfl
        · rfl
      unfold Work.shared sharedStep
      dsimp only
      split_ifs
      · exact ⟨rfl, onParty w _ same⟩
      · exact ⟨rfl, fun _ => rfl⟩
  | act w input => exact ⟨rfl, onParty w _ rfl⟩

section Update
variable {s s' : ServerState} {c : Nat} {conn : Connection} {f : Connection → Connection}

theorem Isolated.update (isolated : Isolated decode localTime s)
    (at_ : s.connections[c]? = some conn) (lock : s.lock = none ∨ s.lock = some c)
    (traceable : Traceable (workerParty localTime) s'.shared s'.ledger)
    (grows : s.ledger.Grows s'.ledger) (connections : s'.connections = s.connections.modify c f)
    (next : s'.lock = some c ∧ Inside decode s'.shared s'.ledger (f conn) ∨
      s'.lock = none ∧ s'.shared.client = .idle ∧ Outside decode s'.ledger (f conn))
    (called : (f conn).call = conn.call ∨ ∃ call, (f conn).call = some call ∧
      call.ticket = (s.ledger.asked call.worker).length ∧
        (s'.ledger.asked call.worker)[call.ticket]? = some call.request) :
    Isolated decode localTime s' := by
  have here : s'.connections[c]? = some (f conn) := by
    rw [connections, List.getElem?_modify_eq, at_]
    rfl
  have there : ∀ c', c' ≠ c → s'.connections[c']? = s.connections[c']? := by
    intro c' other
    rw [connections, List.getElem?_modify_ne _ _ (Ne.symm other)]
  have unlocked : ∀ c', c' ≠ c → s.lock ≠ some c' ∧ s'.lock ≠ some c' := by
    intro c' other
    constructor
    · rcases lock with free | held
      · simp [free]
      · simpa [held] using Ne.symm other
    · rcases next with ⟨held, -⟩ | ⟨free, -⟩
      · simpa [held] using Ne.symm other
      · simp [free]
  have kept : ∀ {w : Worker} {ticket : Nat} {request : QueuedCommand w},
      (s.ledger.asked w)[ticket]? = some request → (s'.ledger.asked w)[ticket]? = some request := by
    intro w ticket request found
    obtain ⟨more, longer⟩ := (grows w).1
    have inside := (List.getElem?_eq_some_iff.mp found).1
    rw [← longer, List.getElem?_append_left inside, found]
  refine ⟨traceable, ?_, ?_, ?_, ?_, ?_⟩
  · rintro free
    rcases next with ⟨held, -⟩ | ⟨-, idle, -⟩
    · rw [free] at held
      cases held
    · exact idle
  · rintro c' held
    by_cases same : c' = c
    · subst same
      exact ⟨_, here⟩
    · exact absurd held (unlocked c' same).2
  · intro c' conn' at'
    by_cases same : c' = c
    · subst same
      obtain rfl : f conn = conn' := Option.some.inj (here.symm.trans at')
      rcases next with ⟨held, inside⟩ | ⟨free, -, outside⟩
      · rw [if_pos held]
        exact inside
      · rw [if_neg (by simp [free])]
        exact outside
    · rw [there c' same] at at'
      have place := isolated.places c' conn' at'
      rw [if_neg (unlocked c' same).1] at place
      rw [if_neg (unlocked c' same).2]
      exact place.grow grows
  · intro c' conn' call' at' call
    by_cases same : c' = c
    · subst same
      obtain rfl : f conn = conn' := Option.some.inj (here.symm.trans at')
      rcases called with before | ⟨fresh, new, -, asked⟩
      · exact kept (isolated.asked c' conn call' at_ (before.symm.trans call))
      · obtain rfl : fresh = call' := Option.some.inj (new.symm.trans call)
        exact asked
    · rw [there c' same] at at'
      exact kept (isolated.asked c' conn' call' at' call)
  · have mixed : ∀ c' conn' call' call'', c' ≠ c → s'.connections[c']? = some conn' →
        conn'.call = some call' → (f conn).call = some call'' → call'.worker = call''.worker →
          call'.ticket = call''.ticket → False := by
      intro c' conn' call' call'' other at' call own worker ticket
      rw [there c' other] at at'
      rcases called with before | ⟨fresh, new, last, -⟩
      · exact other (isolated.apart c' c conn' conn call' call'' at' at_ call
          (before.symm.trans own) worker ticket)
      · obtain rfl : fresh = call'' := Option.some.inj (new.symm.trans own)
        have earlier := isolated.asked c' conn' call' at' call
        have inside := (List.getElem?_eq_some_iff.mp earlier).1
        rw [worker, ticket, last] at inside
        exact absurd inside (lt_irrefl _)
    intro c₁ c₂ conn₁ conn₂ call₁ call₂ at₁ at₂ own₁ own₂ worker ticket
    by_cases first : c₁ = c
    · subst first
      obtain rfl : f conn = conn₁ := Option.some.inj (here.symm.trans at₁)
      by_contra other
      exact mixed c₂ conn₂ call₂ call₁ (Ne.symm other) at₂ own₂ own₁ worker.symm ticket.symm
    · by_cases second : c₂ = c
      · subst second
        obtain rfl : f conn = conn₂ := Option.some.inj (here.symm.trans at₂)
        exact (mixed c₁ conn₁ call₁ call₂ first at₁ own₁ own₂ worker ticket).elim
      · rw [there c₁ first] at at₁
        rw [there c₂ second] at at₂
        exact isolated.apart c₁ c₂ conn₁ conn₂ call₁ call₂ at₁ at₂ own₁ own₂ worker ticket

end Update

section Steps
variable {s : ServerState} {c : Nat} {conn : Connection}

theorem beginCall_ok {env : CallEnv} {message : Bytes} {w : Worker} {request : QueuedCommand w}
    (begun : beginCall decode env message = .ok ⟨w, request⟩) : decode message = .ok request.command := by
  unfold beginCall at begun
  cases read : decode message with
  | error cause =>
      rw [read] at begun
      cases begun
  | ok command =>
      simp only [read] at begun
      split at begun
      · cases begun
      · split at begun
        · cases begun
        · split at begun
          · cases begun
          · split at begun
            · cases begun
            · cases begun
              rfl

theorem Isolated.enter (isolated : Isolated decode localTime s) (free : s.lock = none)
    (at_ : s.connections[c]? = some conn) (env : CallEnv) :
    Isolated decode localTime (enterStep decode s c conn env) := by
  have place := isolated.places c conn at_
  rw [if_neg (by simp [free])] at place
  unfold enterStep
  split
  · next message rest phase read =>
      rw [Outside, phase] at place
      split
      · next e _ =>
          refine isolated.update at_ (.inl free) isolated.traceable (.refl _) rfl
            (.inr ⟨free, isolated.free free, ?_⟩) (.inl rfl)
          show OwnResponse _ _ _ _
          unfold OwnResponse
          dsimp only
          rw [show conn.call = none from place]
          exact ⟨e, rfl⟩
      · next w request begun =>
          refine isolated.update at_ (.inl free) isolated.traceable (.refl _) rfl (.inl ⟨rfl, ?_⟩)
            (.inl rfl)
          have whole := readRequest_extend (conn.stream.drop conn.arrived) read
          rw [List.take_append_drop] at whole
          exact ⟨isolated.free free, place, message, _, whole, beginCall_ok begun⟩
  · exact isolated

theorem Isolated.traced (isolated : Isolated decode localTime s)
    (input : SharedStep QueuedCommand WorkerEnv WorkerInput)
    (prompt : Prompt (workerParty localTime) s.shared input) :
    Traceable (workerParty localTime) (s.share localTime input).shared
      (s.share localTime input).ledger :=
  isolated.traceable.step prompt

theorem Isolated.grows (_ : Isolated decode localTime s)
    (input : SharedStep QueuedCommand WorkerEnv WorkerInput) :
    s.ledger.Grows (s.share localTime input).ledger :=
  record_grows input

theorem Isolated.send (isolated : Isolated decode localTime s) (held : s.lock = some c)
    (at_ : s.connections[c]? = some conn) (now : Instant) :
    Isolated decode localTime (sendStep localTime s c conn now) := by
  have place := isolated.places c conn at_
  rw [if_pos held] at place
  unfold sendStep
  split
  · next w request phase =>
      rw [Inside, phase] at place
      obtain ⟨idle, uncalled, asks⟩ := place
      split_ifs with room
      · have traceable := isolated.traced (.send w request) trivial
        have party := isolated.traceable.accounted.parties w
        have quiet : (s.shared.parties w).waiting = none := by
          by_contra waits
          obtain ⟨_, client⟩ := (isolated.traceable.ready.parties w).waits waits
          rw [idle] at client
          cases client
        have sent : serverStep localTime s.shared (.send w request) =
            { onParty (workerParty localTime) MQ_MAXMSG s.shared w (.send request) with
              client := .waiting w request } := by
          unfold serverStep sharedStep
          simp only [idle, room, if_true]
        have asked : record (workerParty localTime) MQ_MAXMSG s.shared s.ledger (.send w request) =
            s.ledger.ask w request := by
          unfold record
          simp only [idle, room, if_true]
        refine isolated.update at_ (.inr held) traceable (record_grows _) rfl (.inl ⟨held, ?_⟩)
          (.inr ⟨_, rfl, party.sent, ?_⟩)
        · refine ⟨?_, ?_, rfl, asks⟩
          · show (serverStep localTime s.shared (.send w request)).client = _
            rw [sent]
          · show ((serverStep localTime s.shared (.send w request)).parties w).waiting = _
            rw [sent]
            unfold onParty
            dsimp only
            rw [Function.update_self, RequestReply.step, if_pos ⟨quiet, room⟩]
        · show ((record (workerParty localTime) MQ_MAXMSG s.shared s.ledger
            (.send w request)).asked w)[(s.shared.parties w).sent]? = _
          rw [asked, Ledger.ask]
          dsimp only
          rw [Function.update_self, party.sent, List.getElem?_concat_length]
      · exact isolated
  · exact isolated

theorem Isolated.release (isolated : Isolated decode localTime s) (held : s.lock = some c)
    (at_ : s.connections[c]? = some conn) {shared : Shared}
    {l : Ledger QueuedCommand WorkerCode UInt8}
    (traceable : Traceable (workerParty localTime) shared l) (grows : s.ledger.Grows l)
    (idle : shared.client = .idle) {response : RpcResponse} (own : OwnResponse decode l conn response) :
    Isolated decode localTime
      (ServerState.release { s with shared := shared, ledger := l } c response) :=
  isolated.update at_ (.inr held) traceable grows rfl (.inr ⟨rfl, idle, own⟩) (.inl rfl)

theorem Isolated.sendFails (isolated : Isolated decode localTime s) (held : s.lock = some c)
    (at_ : s.connections[c]? = some conn) {w : Worker} {request : QueuedCommand w}
    (phase : conn.phase = .sending w request) (cause : String) :
    Isolated decode localTime (s.release c (errorResponse (.send cause))) := by
  have place := isolated.places c conn at_
  rw [if_pos held, Inside, phase] at place
  obtain ⟨idle, uncalled, -⟩ := place
  refine isolated.release held at_ isolated.traceable (.refl _) idle ?_
  unfold OwnResponse
  rw [uncalled]
  exact ⟨_, rfl⟩

theorem Isolated.poll (isolated : Isolated decode localTime s) (held : s.lock = some c)
    (at_ : s.connections[c]? = some conn) {now : Instant} (inTime : InTime s (.poll now)) :
    Isolated decode localTime (pollStep localTime s c conn now) := by
  have place := isolated.places c conn at_
  rw [if_pos held] at place
  unfold pollStep
  split
  · next call deadline wake phase =>
      rw [Inside, phase] at place
      obtain ⟨client, waiting, called, asks⟩ := place
      have known := isolated.asked c conn call at_ called
      by_cases asleep : now < wake
      · rw [if_pos asleep]
        exact isolated
      · rw [if_neg asleep]
        split
        · next answered reply rest replies =>
            have traceable := isolated.traced .receive trivial
            have received : (serverStep localTime s.shared .receive).client =
                if isListCommand call.request.command then .reading call.worker call.ticket
                else .idle := by
              unfold serverStep sharedStep receiveReply
              simp only [client, waiting, replies, fetches_iff]
            obtain ⟨h, member, ticket, request, single⟩ :=
              isolated.traceable.reply waiting replies known
            have grows := isolated.grows .receive
            have code : CodeFor s.ledger call (codeOf call.worker reply) :=
              ⟨h, member, ticket, request, reply, single, rfl⟩
            dsimp only
            split_ifs with list
            · refine isolated.update at_ (.inr held) traceable grows rfl (.inl ⟨held, ?_⟩) (.inl rfl)
              rw [if_pos list] at received
              exact ⟨received, called, asks, list, _, rfl, code⟩
            · rw [if_neg list] at received
              refine isolated.release held at_ traceable grows received ?_
              rw [endCall_code, OwnResponse, called]
              exact ⟨asks, code, .inl rfl⟩
        · next empty =>
            split_ifs with early
            · refine isolated.update at_ (.inr held) isolated.traceable (.refl _) rfl
                (.inl ⟨held, ?_⟩) (.inl rfl)
              exact ⟨client, waiting, called, asks⟩
            · exact absurd (inTime c conn call deadline wake (holder_eq_some.mpr ⟨held, at_⟩) phase
                empty) early
  · exact isolated

theorem Isolated.read (isolated : Isolated decode localTime s) (held : s.lock = some c)
    (at_ : s.connections[c]? = some conn) (readable : Bool) :
    Isolated decode localTime (readStep localTime s c conn readable) := by
  have place := isolated.places c conn at_
  rw [if_pos held] at place
  unfold readStep
  split
  · next call recvStr phase =>
      rw [Inside, phase] at place
      obtain ⟨client, called, asks, list, code, rfl, known⟩ := place
      generalize shown : (if readable then fromUtf8 s.shared.output.file else none) = body
      have traceable := isolated.traced (.read body.isSome) trivial
      have idle : (serverStep localTime s.shared (.read body.isSome)).client = .idle := by
        unfold serverStep sharedStep
        simp only [client]
      refine isolated.release held at_ traceable (record_grows _) idle ?_
      rw [endCall_code, OwnResponse, called]
      refine ⟨asks, known, ?_⟩
      cases body with
      | none => exact .inl rfl
      | some text =>
          obtain ⟨h, member, ticket, request, -⟩ := known
          rw [← ticket] at client
          obtain ⟨table, wrote, part⟩ := isolated.traceable.text member client
          split_ifs at shown with opened
          rw [← fromUtf8_eq_some shown] at part
          exact .inr ⟨list, h, member, ticket, request, table, wrote, part⟩
  · exact isolated

theorem Isolated.work (isolated : Isolated decode localTime s) {input : Work}
    (inTime : InTime s (.work input)) :
    Isolated decode localTime (s.share localTime input.shared) := by
  obtain ⟨client, waiting⟩ := work_keeps localTime s.shared input
  have grows := isolated.grows input.shared
  refine ⟨isolated.traced _ (prompt_of_answeredInTime localTime inTime), ?_, isolated.held, ?_,
    ?_, isolated.apart⟩
  · intro free
    exact client.trans (isolated.free free)
  · intro c conn at_
    have place := isolated.places c conn at_
    show if s.lock = some c then _ else _
    split_ifs at place ⊢
    · unfold Inside at *
      cases phase : conn.phase with
      | sending w request =>
          rw [phase] at place
          obtain ⟨idle, rest⟩ := place
          exact ⟨client.trans idle, rest⟩
      | waiting call deadline wake =>
          rw [phase] at place
          obtain ⟨asking, ticket, rest⟩ := place
          exact ⟨client.trans asking, (waiting call.worker).trans ticket, rest⟩
      | fetching call recvStr =>
          rw [phase] at place
          obtain ⟨reading, called, asks, list, code, same, known⟩ := place
          exact ⟨client.trans reading, called, asks, list, code, same, known.grow grows⟩
      | _ =>
          rw [phase] at place
          exact place.elim
    · exact place.grow grows
  · intro c conn call at_ called
    have found := isolated.asked c conn call at_ called
    obtain ⟨more, longer⟩ := (grows call.worker).1
    have inside := (List.getElem?_eq_some_iff.mp found).1
    show ((s.share localTime input.shared).ledger.asked call.worker)[call.ticket]? = _
    rw [← longer, List.getElem?_append_left inside, found]

theorem Isolated.connect (isolated : Isolated decode localTime s) (stream : Bytes) :
    Isolated decode localTime
      { s with connections := s.connections ++ [.accepted stream] } := by
  have cases_ : ∀ (c : Nat) (conn : Connection), (s.connections ++ [.accepted stream])[c]? = some conn →
      s.connections[c]? = some conn ∨
        s.connections[c]? = none ∧ conn = .accepted stream := by
    intro c conn at_
    rcases lt_or_ge c s.connections.length with inside | beyond
    · rw [List.getElem?_append_left inside] at at_
      exact .inl at_
    · rw [List.getElem?_append_right beyond, List.getElem?_singleton] at at_
      split_ifs at at_
      exact .inr ⟨List.getElem?_eq_none beyond, (Option.some.inj at_).symm⟩
  refine ⟨isolated.traceable, isolated.free, ?_, ?_, ?_, ?_⟩
  · intro c held
    obtain ⟨conn, at_⟩ := isolated.held c held
    have inside := (List.getElem?_eq_some_iff.mp at_).1
    exact ⟨conn, by rw [List.getElem?_append_left inside, at_]⟩
  · intro c conn at_
    rcases cases_ c conn at_ with old | ⟨new, rfl⟩
    · exact isolated.places c conn old
    · show if s.lock = some c then _ else _
      rw [if_neg]
      · rfl
      · intro held
        obtain ⟨conn, old⟩ := isolated.held c held
        rw [new] at old
        cases old
  · intro c conn call at_ called
    rcases cases_ c conn at_ with old | ⟨-, rfl⟩
    · exact isolated.asked c conn call old called
    · cases called
  · intro c c' conn conn' call call' at_ at' called called'
    rcases cases_ c conn at_ with old | ⟨-, rfl⟩
    · rcases cases_ c' conn' at' with old' | ⟨-, rfl⟩
      · exact isolated.apart c c' conn conn' call call' old old' called called'
      · cases called'
    · cases called

theorem Isolated.transfer (isolated : Isolated decode localTime s) (c : Nat)
    {f : Connection → Connection} (called : ∀ conn, (f conn).call = conn.call)
    (inside : ∀ conn, Inside decode s.shared s.ledger conn →
      Inside decode s.shared s.ledger (f conn))
    (outside : ∀ conn, Outside decode s.ledger conn → Outside decode s.ledger (f conn)) :
    Isolated decode localTime { s with connections := s.connections.modify c f } := by
  have before : ∀ (c' : Nat) (conn' : Connection), (s.connections.modify c f)[c']? = some conn' →
      ∃ conn, s.connections[c']? = some conn ∧ (conn' = f conn ∨ conn' = conn) := by
    intro c' conn' at'
    rw [List.getElem?_modify, Option.map_eq_map, Option.map_eq_some_iff] at at'
    obtain ⟨conn, at_, same⟩ := at'
    refine ⟨conn, at_, ?_⟩
    split_ifs at same
    · exact .inl same.symm
    · exact .inr same.symm
  have sameCall : ∀ {conn conn' : Connection}, conn' = f conn ∨ conn' = conn →
      conn'.call = conn.call := by
    rintro conn conn' (rfl | rfl)
    · exact called conn
    · rfl
  refine ⟨isolated.traceable, isolated.free, ?_, ?_, ?_, ?_⟩
  · intro c' held
    obtain ⟨conn, at_⟩ := isolated.held c' held
    have long := (List.getElem?_eq_some_iff.mp at_).1
    rw [← List.length_modify f s.connections c] at long
    exact ⟨_, List.getElem?_eq_getElem long⟩
  · intro c' conn' at'
    obtain ⟨conn, at_, same⟩ := before c' conn' at'
    have place := isolated.places c' conn at_
    show if s.lock = some c' then _ else _
    rcases same with rfl | rfl
    · split_ifs at place ⊢
      · exact inside conn place
      · exact outside conn place
    · exact place
  · intro c' conn' call at' called'
    obtain ⟨conn, at_, same⟩ := before c' conn' at'
    exact isolated.asked c' conn call at_ ((sameCall same).symm.trans called')
  · intro c₁ c₂ conn₁ conn₂ call₁ call₂ at₁ at₂ own₁ own₂
    obtain ⟨old₁, before₁, same₁⟩ := before c₁ conn₁ at₁
    obtain ⟨old₂, before₂, same₂⟩ := before c₂ conn₂ at₂
    exact isolated.apart c₁ c₂ old₁ old₂ call₁ call₂ before₁ before₂
      ((sameCall same₁).symm.trans own₁) ((sameCall same₂).symm.trans own₂)

theorem connectionStep_isolated (isolated : Isolated decode localTime s) {input : ConnectionStep}
    (inTime : InTime s input) : Isolated decode localTime (connectionStep decode localTime s input) := by
  cases input with
  | connect stream => exact isolated.connect stream
  | arrive c n =>
      exact isolated.transfer c (fun _ => rfl) (fun _ inside => inside) fun _ outside => outside
  | enter c env =>
      unfold connectionStep
      dsimp only
      split
      · next free at_ => exact isolated.enter free at_ env
      · exact isolated
  | send now => exact holder_step isolated fun c conn held at_ => isolated.send held at_ now
  | sendFails cause =>
      refine holder_step isolated fun c conn held at_ => ?_
      dsimp only
      split
      · next phase => exact isolated.sendFails held at_ phase cause
      · exact isolated
  | poll now => exact holder_step isolated fun c conn held at_ => isolated.poll held at_ inTime
  | receiveFails cause =>
      refine holder_step isolated fun c conn held at_ => ?_
      dsimp only
      split
      · next call deadline wake phase =>
          exact absurd phase (inTime c conn call deadline wake (holder_eq_some.mpr ⟨held, at_⟩))
      · exact isolated
  | read readable => exact holder_step isolated fun c conn held at_ => isolated.read held at_ readable
  | respond c n =>
      refine isolated.transfer c ?_ ?_ ?_
      · intro conn
        split <;> rfl
      · intro conn inside
        split
        · next response written phase =>
            rw [Inside, phase] at inside
            exact inside.elim
        · exact inside
      · intro conn outside
        split
        · next response written phase =>
            rw [Outside, phase] at outside
            exact outside
        · exact outside
  | work input => exact isolated.work inTime

end Steps

theorem isolated_start (configs : List Proc.ProcessConfig) (env : Fs.WatchEnv)
    (directory : Fs.Directory) (file : Bytes) :
    Isolated decode localTime (.start (.start (workersStart configs env directory) file)) := by
  refine ⟨traceable_start _ _ _, fun _ => rfl, ?_, ?_, ?_, ?_⟩
  · intro c held
    cases held
  · intro c conn at_
    cases at_
  · intro c conn call at_
    cases at_
  · intro c c' conn conn' call call' at_
    cases at_

def Phase.inCall : Phase → Bool
  | .sending _ _ | .waiting _ _ _ | .fetching _ _ => true
  | .reading | .responding _ _ => false

structure ClientsApart (decode : Bytes → Except String Command) (localTime : Fs.Time → Bytes)
    (s : ServerState) : Prop where
  exclusive : ∀ (c : Nat) (conn : Connection), s.connections[c]? = some conn → conn.phase.inCall = true → s.lock = some c
  own : ∀ (c : Nat) (conn : Connection) response written, s.connections[c]? = some conn →
    conn.phase = .responding response written → OwnResponse decode s.ledger conn response
  read : ∀ (c : Nat) (conn : Connection) response written, s.connections[c]? = some conn →
    conn.phase = .responding response written → (lit response.body).length < 2 ^ 32 →
      ∀ read rest, readResponse conn.received = some (read, rest) →
        read = ⟨response.code, lit response.body⟩ ∧ rest = []
  apart : ∀ (c c' : Nat) (conn conn' : Connection) (call call' : Call), s.connections[c]? = some conn →
    s.connections[c']? = some conn' → conn.call = some call → conn'.call = some call' →
    call.worker = call'.worker → call.ticket = call'.ticket → c = c'
  once : ∀ w, ((s.ledger.handled w).map Handling.ticket).Nodup
  made : ∀ w, ∀ h ∈ s.ledger.handled w, ∃ env peer,
    h.replies = ((workerParty localTime w).handle env h.request peer).2 ∧
      h.text = (workerParty localTime w).text env h.request peer

theorem Isolated.clientsApart {s : ServerState} (isolated : Isolated decode localTime s) :
    ClientsApart decode localTime s where
  exclusive c conn at_ inCall := by
    have place := isolated.places c conn at_
    by_contra free
    rw [if_neg free, Outside] at place
    unfold Phase.inCall at inCall
    split at inCall
    · next phase =>
        rw [phase] at place
        exact place
    · next phase =>
        rw [phase] at place
        exact place
    · next phase =>
        rw [phase] at place
        exact place
    · cases inCall
    · cases inCall
  own c conn response written at_ phase := by
    have place := isolated.places c conn at_
    split_ifs at place
    · rw [Inside, phase] at place
      exact place.elim
    · rw [Outside, phase] at place
      exact place
  read c conn response written at_ phase short read rest whole := by
    rw [Connection.received, phase] at whole
    exact readResponse_part short whole
  apart := isolated.apart
  once w := (isolated.traceable.accounted.parties w).distinct
  made := isolated.traceable.made

theorem always_isolated (configs : List Proc.ProcessConfig) (env : Fs.WatchEnv)
    (directory : Fs.Directory) (file : Bytes) {steps : List ConnectionStep}
    (inTime : Guarded (connectionStep decode localTime) InTime
      (.start (.start (workersStart configs env directory) file)) steps) :
    Always (connectionStep decode localTime) (Isolated decode localTime)
      (.start (.start (workersStart configs env directory) file)) steps :=
  always_of_guarded (connectionStep decode localTime) (J := Isolated decode localTime)
    (fun _ _ isolated inTime => connectionStep_isolated isolated inTime)
    (isolated_start configs env directory file) inTime

/-- Whatever the order of the connections and the workers: as long as no response is given up, each
client gets the response to the command that it sent, made by the worker it was sent to when that
handled this command, or an error of the server's if none was sent. -/
theorem clients_isolated (decode : Bytes → Except String Command) (localTime : Fs.Time → Bytes)
    (configs : List Proc.ProcessConfig) (env : Fs.WatchEnv) (directory : Fs.Directory) (file : Bytes)
    (steps : List ConnectionStep)
    (inTime : Guarded (connectionStep decode localTime) InTime
      (.start (.start (workersStart configs env directory) file)) steps) :
    Always (connectionStep decode localTime) (ClientsApart decode localTime)
      (.start (.start (workersStart configs env directory) file)) steps := by
  exact (always_isolated configs env directory file inTime).mono _
    fun _ isolated => isolated.clientsApart

end Isolation

/-! ## Two clients at once -/

def procListJson : Bytes := lit "\x7b\"PROC\":\x7b\"opt\":\"list\",\"identifier\":[]\x7d\x7d"

def fsListJson : Bytes := lit "\x7b\"FS\":\x7b\"opt\":\"list\",\"identifier\":[]\x7d\x7d"

def decodeLists (message : Bytes) : Except String Command :=
  if message = procListJson then .ok (.proc (lit "list") [])
  else if message = fsListJson then .ok (.fs (lit "list") [])
  else .error "expected value at line 1 column 1"

def twoClients : List ConnectionStep :=
  [.connect (requestFrame procListJson), .connect (requestFrame fsListJson), .arrive 0 2,
    .arrive 1 100, .arrive 0 100, .enter 1 ⟨none, none⟩, .enter 0 ⟨none, none⟩, .send 1000,
    .poll 1000, .work (.take .fs (⟨⟨true, fun _ => 1⟩, true⟩ : Fs.CommandEnv)),
    .work (.write .fs 100), .work (.close .fs), .work (.emit .fs), .poll 1050, .read true,
    .enter 0 ⟨none, none⟩, .send 1100, .respond 1 1000,
    .work (.take .proc (⟨0, true⟩ : Proc.CommandEnv)), .work (.write .proc 100),
    .work (.close .proc), .work (.emit .proc), .poll 1100, .read true, .respond 0 1000]

abbrev twoClientsStart : ServerState := .start (.start (workersStart [] ⟨true, fun _ => 1⟩ none) [])

def beforeDeadline (s : ServerState) (now : Instant) : Bool :=
  s.holder.all fun (_, conn) =>
    match conn.phase with
    | .waiting _ deadline _ => decide (now < deadline)
    | _ => true

theorem inTime_of_beforeDeadline {s : ServerState} {now : Instant}
    (early : beforeDeadline s now = true) : InTime s (.poll now) := by
  intro c conn call deadline wake held phase _
  rw [beforeDeadline, held, Option.all_some] at early
  simpa [phase] using early

def workerOpens : ∀ w, WorkerEnv w → Bool
  | .proc => fun env : Proc.CommandEnv => env.outFileOpens
  | .fs => fun env : Fs.CommandEnv => env.outFileOpens

theorem inTime_of_lists {s : ServerState} {w : Worker} {env : WorkerEnv w}
    (opens : workerOpens w env = true)
    (lists : ((s.shared.parties w).requests.all fun queued => queued.2.message = lit "list") = true) :
    InTime s (.work (.take w env)) := by
  intro ticket request rest requests
  rw [requests, List.all_cons, Bool.and_eq_true, decide_eq_true_eq] at lists
  have text : request.message = lit "list" := lists.1
  cases w with
  | proc =>
      refine ⟨fun _ => opens, fun _ => ?_⟩
      rw [text]
      exact ⟨[], by decide, .inl rfl⟩
  | fs =>
      intro _
      rw [text]
      exact ⟨⟨[], by decide, .inl rfl⟩, opens⟩

theorem twoClients_inTime :
    Guarded (connectionStep decodeLists fun _ => []) InTime twoClientsStart twoClients := by
  simp only [twoClients, guarded_cons, guarded_nil, and_true]
  refine ⟨trivial, trivial, trivial, trivial, trivial, trivial, trivial, trivial,
    inTime_of_beforeDeadline ?_, inTime_of_lists rfl ?_, trivial, trivial, trivial,
    inTime_of_beforeDeadline ?_, trivial, trivial, trivial, trivial, inTime_of_lists rfl ?_, trivial,
    trivial, trivial, inTime_of_beforeDeadline ?_, trivial, trivial⟩
  all_goals decide +kernel

theorem clients_isolated_two : Always (connectionStep decodeLists fun _ => [])
    (ClientsApart decodeLists fun _ => []) twoClientsStart twoClients :=
  clients_isolated decodeLists (fun _ => []) [] ⟨true, fun _ => 1⟩ none [] twoClients twoClients_inTime

end SysDetector.Rpc
