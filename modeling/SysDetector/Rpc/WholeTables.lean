import SysDetector.Library.ListFacts
import SysDetector.Rpc.Isolation

namespace SysDetector.Rpc
open CLib Runs RequestReply SharedOutput ListFacts

/-- Whatever the fs worker prints is written before it closes the file, and the server can read it
for the client of a list. -/
def ReadsWhole (s : ServerState) : ConnectionStep → Prop
  | .work (.close .fs) => ∀ pen, s.shared.output.pens .fs = some pen → pen.text.length ≤ pen.done
  | .read readable => ∀ ticket, s.shared.client = .reading .fs ticket →
      readable = true ∧ fromUtf8 s.shared.output.file ≠ none
  | _ => True

def ShowsWhole (l : Ledger QueuedCommand WorkerCode UInt8) (conn : Connection) : Prop :=
  ∀ response written ticket (request : QueuedCommand .fs),
    conn.phase = .responding response written → conn.call = some ⟨.fs, ticket, request⟩ →
      isListCommand request.command = true →
        ∃ h ∈ l.handled .fs, h.ticket = ticket ∧ h.text = some (lit response.body)

structure WholeTables (s : ServerState) : Prop where
  written : WrittenWhole s.ledger s.shared.output .fs
  shown : ∀ conn ∈ s.connections, ShowsWhole s.ledger conn

section Steps
variable {decode : Bytes → Except String Command} {localTime : Fs.Time → Bytes} {s : ServerState}
  {c : Nat} {conn : Connection}

theorem ShowsWhole.grow {l l' : Ledger QueuedCommand WorkerCode UInt8} (shows_ : ShowsWhole l conn)
    (grows : l.Grows l') : ShowsWhole l' conn := by
  intro response written ticket request phase called list
  obtain ⟨h, member, same⟩ := shows_ response written ticket request phase called list
  exact ⟨h, (grows .fs).2 member, same⟩

theorem showsWhole_of_uncalled (l : Ledger QueuedCommand WorkerCode UInt8)
    (uncalled : conn.call = none) : ShowsWhole l conn := by
  intro response written ticket request phase called
  rw [uncalled] at called
  cases called

theorem showsWhole_of_waiting (l : Ledger QueuedCommand WorkerCode UInt8)
    (waits : ∀ response written, conn.phase ≠ .responding response written) : ShowsWhole l conn :=
  fun response written _ _ phase _ _ => absurd phase (waits response written)

theorem WholeTables.modify (whole : WholeTables s) {f : Connection → Connection} (lock : Option Nat)
    (here : ∀ conn, s.connections[c]? = some conn → ShowsWhole s.ledger (f conn)) :
    WholeTables { s with connections := s.connections.modify c f, lock := lock } :=
  ⟨whole.written, forall_mem_modify_at whole.shown here⟩

theorem WholeTables.release (whole : WholeTables s) (response : RpcResponse)
    (here : ∀ conn, s.connections[c]? = some conn →
      ShowsWhole s.ledger { conn with phase := .responding response 0 }) :
    WholeTables (s.release c response) :=
  whole.modify none here

theorem WholeTables.share (whole : WholeTables s) (isolated : Isolated decode localTime s)
    (input : SharedStep QueuedCommand WorkerEnv WorkerInput)
    (finished : input = .close .fs → ∀ pen, s.shared.output.pens .fs = some pen →
      pen.text.length ≤ pen.done) :
    WholeTables (s.share localTime input) where
  written := by
    have grows := isolated.grows input
    exact (whole.written.move isolated.traceable.accounted.output finished
      (output_move _ _ s.shared input)).grow grows
  shown conn member := (whole.shown conn member).grow (isolated.grows input)

theorem WholeTables.enter (whole : WholeTables s) (isolated : Isolated decode localTime s)
    (free : s.lock = none) (at_ : s.connections[c]? = some conn) (env : CallEnv) :
    WholeTables (enterStep decode s c conn env) := by
  have place := isolated.places c conn at_
  rw [if_neg (by simp [free])] at place
  unfold enterStep
  split
  · next message rest phase read =>
      rw [Outside, phase] at place
      split
      · refine whole.modify s.lock fun conn' at' => ?_
        rw [at_, Option.some.injEq] at at'
        exact showsWhole_of_uncalled _ (at' ▸ place)
      · refine whole.modify (some c) fun conn' _ => showsWhole_of_waiting _ ?_
        rintro response written ⟨⟩
  · exact whole

theorem WholeTables.send (whole : WholeTables s) (isolated : Isolated decode localTime s)
    (now : Instant) : WholeTables (sendStep localTime s c conn now) := by
  unfold sendStep
  split
  · next w request _ =>
    split_ifs
    · have shared := whole.share isolated (.send w request) (by rintro ⟨⟩)
      refine shared.modify s.lock fun conn' _ => showsWhole_of_waiting _ ?_
      rintro response written ⟨⟩
    · exact whole
  · exact whole

theorem WholeTables.poll (whole : WholeTables s) (isolated : Isolated decode localTime s)
    (held : s.lock = some c) (at_ : s.connections[c]? = some conn) {now : Instant}
    (inTime : InTime s (.poll now)) : WholeTables (pollStep localTime s c conn now) := by
  have place := isolated.places c conn at_
  rw [if_pos held] at place
  unfold pollStep
  split
  · next call deadline wake phase =>
      rw [Inside, phase] at place
      obtain ⟨client, waiting, called, asks⟩ := place
      by_cases asleep : now < wake
      · rw [if_pos asleep]
        exact whole
      · rw [if_neg asleep]
        split
        · have shared := whole.share isolated .receive (by rintro ⟨⟩)
          dsimp only
          split_ifs with list
          · refine shared.modify s.lock fun conn' _ => showsWhole_of_waiting _ ?_
            rintro response written ⟨⟩
          · refine shared.release _ fun conn' at' => ?_
            -- The command is no list.
            intro response written ticket request _ called' isList
            have same : conn = conn' := Option.some.inj (at_.symm.trans at')
            subst same
            cases called.symm.trans called'
            exact absurd isList list
        · next empty =>
            split_ifs with early
            · refine whole.modify s.lock fun conn' _ => showsWhole_of_waiting _ ?_
              rintro response written ⟨⟩
            · exact absurd (inTime c conn call deadline wake (holder_eq_some.mpr ⟨held, at_⟩) phase
                empty) early
  · exact whole

theorem WholeTables.read (whole : WholeTables s) (isolated : Isolated decode localTime s)
    (held : s.lock = some c) (at_ : s.connections[c]? = some conn) {readable : Bool}
    (reads : ReadsWhole s (.read readable)) :
    WholeTables (readStep localTime s c conn readable) := by
  have place := isolated.places c conn at_
  rw [if_pos held] at place
  unfold readStep
  split
  · next call recvStr phase =>
      rw [Inside, phase] at place
      obtain ⟨client, called, asks, list, code, rfl, known⟩ := place
      have shared := whole.share isolated
        (.read (if readable then fromUtf8 s.shared.output.file else none).isSome) (by rintro ⟨⟩)
      refine shared.release _ fun conn' at' => ?_
      intro response written ticket request responds called' isList
      have same : conn = conn' := Option.some.inj (at_.symm.trans at')
      subst same
      cases called.symm.trans called'
      obtain ⟨rfl, valid⟩ := reads ticket client
      obtain ⟨body, text⟩ := Option.ne_none_iff_exists'.mp valid
      obtain ⟨h, member, own, wrote⟩ := isolated.traceable.wholeText whole.written client
      rw [if_pos rfl, text, endCall_code] at responds
      cases responds
      refine ⟨h, (isolated.grows _ .fs).2 member, own, ?_⟩
      rw [wrote, Option.getD_some, fromUtf8_eq_some text]
  · exact whole

theorem wholeTables_step (whole : WholeTables s) (isolated : Isolated decode localTime s)
    {input : ConnectionStep} (inTime : InTime s input) (reads : ReadsWhole s input) :
    WholeTables (connectionStep decode localTime s input) := by
  cases input with
  | connect stream =>
      refine ⟨whole.written, List.forall_mem_append.mpr ⟨whole.shown, ?_⟩⟩
      rw [List.forall_mem_singleton]
      exact showsWhole_of_uncalled _ rfl
  | arrive c n =>
      refine whole.modify s.lock fun conn at_ => ?_
      exact whole.shown conn (List.mem_of_getElem? at_)
  | enter c env =>
      unfold connectionStep
      dsimp only
      split
      · next free at_ => exact whole.enter isolated free at_ env
      · exact whole
  | send now => exact holder_step whole fun c conn held at_ => whole.send isolated now
  | sendFails cause =>
      refine holder_step whole fun c conn held at_ => ?_
      dsimp only
      split
      · next phase =>
          have place := isolated.places c conn at_
          rw [if_pos held, Inside, phase] at place
          refine whole.release _ fun conn' at' => ?_
          rw [at_, Option.some.injEq] at at'
          exact showsWhole_of_uncalled _ (at' ▸ place.2.1)
      · exact whole
  | poll now => exact holder_step whole fun c conn held at_ => whole.poll isolated held at_ inTime
  | receiveFails cause =>
      refine holder_step whole fun c conn held at_ => ?_
      dsimp only
      split
      · next call deadline wake phase =>
          exact absurd phase (inTime c conn call deadline wake (holder_eq_some.mpr ⟨held, at_⟩))
      · exact whole
  | read readable => exact holder_step whole fun c conn held at_ => whole.read isolated held at_ reads
  | respond c n =>
      refine whole.modify s.lock fun conn at_ => ?_
      have before := whole.shown conn (List.mem_of_getElem? at_)
      split
      · next response written phase =>
          intro response' written' ticket request phase' called list
          cases phase'
          exact before response written ticket request phase called list
      · exact before
  | work input =>
      refine whole.share isolated input.shared fun closes => ?_
      cases input <;> cases closes
      exact reads

end Steps

theorem wholeTables_start (shared : Shared) (unwritten : shared.output.written = []) :
    WholeTables (.start shared) := by
  constructor
  · intro ticket text member
    rw [show (ServerState.start shared).shared.output.written = [] from unwritten] at member
    cases member
  · intro conn member
    cases member

theorem wholeTables_run {decode : Bytes → Except String Command} {localTime : Fs.Time → Bytes}
    (configs : List Proc.ProcessConfig) (env : Fs.WatchEnv) (directory : Fs.Directory) (file : Bytes)
    {steps : List ConnectionStep}
    (inTime : Guarded (connectionStep decode localTime) InTime
      (.start (.start (workersStart configs env directory) file)) steps)
    (reads : Guarded (connectionStep decode localTime) ReadsWhole
      (.start (.start (workersStart configs env directory) file)) steps) :
    WholeTables (run (connectionStep decode localTime)
      (.start (.start (workersStart configs env directory) file)) steps) := by
  have guard : Guarded (connectionStep decode localTime)
      (fun s input => InTime s input ∧ ReadsWhole s input)
      (.start (.start (workersStart configs env directory) file)) steps :=
    fun before input rest split => ⟨inTime before input rest split, reads before input rest split⟩
  have both := always_of_guarded (connectionStep decode localTime)
    (J := fun s => Isolated decode localTime s ∧ WholeTables s)
    (fun _ _ both each => ⟨connectionStep_isolated both.1 each.1,
      wholeTables_step both.2 both.1 each.1 each.2⟩)
    ⟨isolated_start configs env directory file, wholeTables_start _ rfl⟩ guard
  exact both.last.2

end SysDetector.Rpc
