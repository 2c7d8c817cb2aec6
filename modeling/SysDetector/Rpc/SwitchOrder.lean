import SysDetector.Library.Chronicles
import SysDetector.Fs.SwitchOutcome
import SysDetector.Fs.SwitchStore
import SysDetector.Rpc.Messages
import SysDetector.Rpc.WholeTables

/-!
# One order of all switch commands

The clients of the fs worker as users of one store of switches. `switches_linearizable`: every
response is what the store had to say after the commands before it, in the order in which they were
sent under the lock; a command that is sent later comes later; and where tables are written and read
whole, each list shows all switches.
-/

namespace SysDetector.Rpc
open CLib Runs RequestReply SharedOutput Registers

/-! ## What the worker goes by -/

def switchWrites (request : QueuedCommand .fs) : List (Int32 × Bool) :=
  (Fs.switchCommand request.message).toList

def switchesAfter (directory : Fs.Directory) (commands : List (QueuedCommand .fs)) :
    List (Int32 × Bool) :=
  (Fs.switches directory).map (held (commands.flatMap switchWrites))

def ListsConfigs (message : Bytes) : Prop :=
  ∃ args, Fs.splitCommand (cstr message) = lit "list" :: args ∧
    (args.head? = none ∨ args.head? = some (lit "config"))

def ShowsSwitches (localTime : Fs.Time → Bytes) (store : List (Int32 × Bool)) (table : Bytes) : Prop :=
  ∃ rows : List Fs.ConfigRow, rows.map (fun row => Fs.switchOf row.config) = store ∧
    table = (Fs.Listing.config rows).text localTime

/-- The response is what a store with these switches has to say to the command. -/
structure RespondsFrom (localTime : Fs.Time → Bytes) (store : List (Int32 × Bool))
    (request : QueuedCommand .fs) (response : RpcResponse) : Prop where
  switched : ∀ id status, Fs.switchCommand request.message = some (id, status) →
    response.code = if id ∈ store.map Prod.fst then 0 else 1
  listed : ListsConfigs request.message → response.code = 0 ∧
    ∃ table, ShowsSwitches localTime store table ∧ lit response.body <+: table

section Worker
variable {directory : Fs.Directory}

def Led (directory : Fs.Directory) (past : List (QueuedCommand .fs)) (s : Fs.FsState) : Prop :=
  Fs.Stores directory s (switchesAfter directory past)

theorem switchesAfter_concat (past : List (QueuedCommand .fs)) (request : QueuedCommand .fs) :
    switchesAfter directory (past ++ [request]) =
      run write (switchesAfter directory past) (switchWrites request) := by
  unfold switchesAfter
  rw [← run_write, ← run_write, List.flatMap_append, List.flatMap_singleton, run_append]

theorem Led.handle {past : List (QueuedCommand .fs)} {s : Fs.FsState} (led : Led directory past s)
    (env : Fs.CommandEnv) (request : QueuedCommand .fs) :
    Led directory (past ++ [request]) (Fs.handleMessage env request.message s) := by
  have stores := Fs.serviceStep_stores led (.message env request.message)
  rw [Led, switchesAfter_concat]
  exact stores

theorem Led.monitor {past : List (QueuedCommand .fs)} {s : Fs.FsState} (led : Led directory past s)
    (env : Fs.ReadEnv) : Led directory past (Fs.monitorOnce env s) :=
  Fs.serviceStep_stores led (.monitor env)

theorem led_start (env : Fs.WatchEnv) (keeping : Fs.KeepingDirectory directory) :
    Led directory [] (.initial env directory) := by
  have none : switchesAfter directory [] = Fs.switches directory :=
    List.map_id'' (fun _ => rfl) _
  obtain ⟨here, loaded⟩ := Fs.restart_directory env directory
  rw [Led, none]
  exact ⟨loaded, here.symm ▸ keeping, congrArg Fs.essentialsOf here, congrArg Fs.switches here⟩

theorem loaded_iff (id : Int32) : (Fs.loadedConfig directory id).isSome = true ↔
    id ∈ (Fs.switches directory).map Prod.fst := by
  unfold Fs.loadedConfig Fs.switches
  rw [List.find?_isSome, List.map_map, List.mem_map]
  simp

theorem switch_code {env : Fs.CommandEnv} {message : Bytes} {id : Int32} {status : Bool}
    (command : Fs.switchCommand message = some (id, status)) (s : Fs.FsState) :
    sentSince s.responses (Fs.handleMessage env message s).responses =
      [if id ∈ (Fs.switches s.directory).map Prod.fst then 0 else 1] := by
  rw [Fs.switch_responses command, sentSince, List.drop_left]
  simp only [loaded_iff]

theorem handleMessage_listsConfigs {env : Fs.CommandEnv} {message : Bytes}
    (lists : ListsConfigs message) (s : Fs.FsState) : Fs.handleMessage env message s =
      (Fs.listConfigs env (Fs.loadConfigs s)).sendResponse 0 := by
  obtain ⟨args, tokens, scope⟩ := lists
  have different : lit "list" ≠ lit "start" ∧ lit "list" ≠ lit "stop" := by decide
  rw [Fs.handleMessage_tokens tokens, Fs.handleCommand, tokens]
  rcases scope with scope | scope <;> dsimp only <;> rw [scope] <;>
    simp [different, Fs.listCommand]

theorem list_code {env : Fs.CommandEnv} {message : Bytes} (lists : ListsConfigs message)
    (s : Fs.FsState) : sentSince s.responses (Fs.handleMessage env message s).responses = [0] := by
  obtain ⟨configs, count, -, frame⟩ := Fs.loadConfigs_frame s
  have responses : (Fs.listConfigs env (Fs.loadConfigs s)).responses = s.responses := by
    unfold Fs.listConfigs
    split_ifs <;> rw [frame]
  rw [handleMessage_listsConfigs lists, Fs.FsState.sendResponse, responses, sentSince,
    List.drop_left]

theorem listed_switches (env : Fs.CommandEnv) {message : Bytes} (lists : ListsConfigs message)
    (s : Fs.FsState) : ∃ rows : List Fs.ConfigRow,
      rows.map (fun row => Fs.switchOf row.config) = Fs.switches s.directory ∧
        ∀ listing, (Fs.handleMessage env message { s with outFile := none }).outFile = some listing →
          listing = .config rows := by
  refine ⟨Fs.configRows (Fs.loadConfigs { s with outFile := none }), ?_, ?_⟩
  · have table := Fs.tableConfigs_loadConfigs { s with outFile := none }
    rw [Fs.configRows, List.map_map, Fs.switches, ← table, Fs.tableConfigs, List.map_map]
    rfl
  · intro listing left
    obtain ⟨configs, count, -, frame⟩ := Fs.loadConfigs_frame { s with outFile := none }
    rw [handleMessage_listsConfigs lists] at left
    unfold Fs.listConfigs at left
    split_ifs at left
    · exact (Option.some.inj left).symm
    · rw [frame] at left
      cases left

theorem shown_of_text {localTime : Fs.Time → Bytes} {env : Fs.CommandEnv}
    {request : QueuedCommand .fs} (lists : ListsConfigs request.message) {s : Fs.FsState}
    {text : Bytes} (wrote : (fsParty localTime).text env request s = some text) :
    ShowsSwitches localTime (Fs.switches s.directory) text := by
  obtain ⟨rows, shown, only⟩ := listed_switches env lists s
  obtain ⟨listing, left, rfl⟩ := Option.map_eq_some_iff.mp wrote
  rw [only listing left]
  exact ⟨rows, shown, rfl⟩

theorem handling_responds {localTime : Fs.Time → Bytes} {store : List (Int32 × Bool)}
    {s : Fs.FsState} (switches : Fs.switches s.directory = store) (env : Fs.CommandEnv)
    {request : QueuedCommand .fs} {response : RpcResponse}
    (code : ((fsParty localTime).handle env request s).2 = [response.code])
    (body : response.body = "" ∨ ∃ text, (fsParty localTime).text env request s = some text ∧
      lit response.body <+: text) :
    RespondsFrom localTime store request response := by
  subst switches
  constructor
  · intro id status command
    have answered := (switch_code command s).symm.trans code
    exact (List.singleton_inj.mp answered).symm
  · intro lists
    have answered := (list_code lists s).symm.trans code
    refine ⟨(List.singleton_inj.mp answered).symm, ?_⟩
    rcases body with empty | ⟨text, wrote, part⟩
    · obtain ⟨rows, shown, -⟩ := listed_switches env lists s
      refine ⟨_, ⟨rows, shown, rfl⟩, ?_⟩
      rw [empty]
      exact List.nil_prefix
    · exact ⟨text, shown_of_text lists wrote, part⟩

theorem commandMessage_fs {opt message : Bytes} {identifier : List Bytes}
    (accepted : commandMessage (.fs opt identifier) = .ok message) :
    opt ∈ FS_POSSIBLE_OPT_VALUES ∧ message = commandText opt identifier := by
  by_cases known : FS_POSSIBLE_OPT_VALUES.contains opt = true
  · have valid : validateCommand (.fs opt identifier) = .ok (commandText opt identifier) :=
      if_pos known
    rw [commandMessage, valid] at accepted
    change checkLength (commandText opt identifier) = .ok message at accepted
    unfold checkLength at accepted
    split_ifs at accepted
    exact ⟨by simpa using known, (Except.ok.inj accepted).symm⟩
  · have refused : validateCommand (.fs opt identifier) = .error .invalidFsOperation := if_neg known
    rw [commandMessage, refused] at accepted
    cases accepted

theorem isList_of_listsConfigs {request : QueuedCommand .fs} (lists : ListsConfigs request.message) :
    isListCommand request.command = true := by
  obtain ⟨command, message, accepted, addressed⟩ := request
  obtain ⟨args, (tokens : (strtok 32 (cstr message)).take 3 = lit "list" :: args), -⟩ := lists
  cases command with
  | fs opt identifier =>
      have words : ∀ value ∈ FS_POSSIBLE_OPT_VALUES, IsWord 32 value ∧ 0 ∉ value := by decide
      obtain ⟨known, rfl⟩ := commandMessage_fs accepted
      obtain ⟨isWord, noNul⟩ := words opt known
      have first := congrArg List.head? tokens
      rw [List.head?_take, if_neg (by decide), commandText_first isWord noNul identifier,
        List.head?_cons, Option.some.injEq] at first
      exact decide_eq_true first
  | proc opt identifier => cases addressed
  | list opt identifier => cases accepted

end Worker

/-! ## The order in the ledger -/

section Order
variable {decode : Bytes → Except String Command} {localTime : Fs.Time → Bytes}
  {directory : Fs.Directory}

def Unedited : ConnectionStep → Prop
  | .work (.act .fs (input : FsInput)) => ∀ edited, input ≠ .edit edited
  | _ => True

abbrev FsChronicled (localTime : Fs.Time → Bytes) (directory : Fs.Directory) (s : ServerState) : Prop :=
  Chronicled (workerParty localTime .fs) (Led directory) (s.ledger.handled .fs)
    (s.shared.parties .fs).peer

theorem chronicled_share {s : ServerState} (chronicled : FsChronicled localTime directory s)
    (input : SharedStep QueuedCommand WorkerEnv WorkerInput)
    (unedited : ∀ own : FsInput, input = .act .fs own → ∀ edited, own ≠ .edit edited) :
    FsChronicled localTime directory (s.share localTime input) := by
  refine Chronicled.step (p := workerParty localTime) (w := .fs) (I := Led directory) chronicled
    input ?_ ?_
  · exact fun env request past peer led => led.handle env request
  · intro own acts past peer led
    cases own with
    | monitor env => exact led.monitor env
    | edit edited => exact absurd rfl (unedited _ acts edited)

end Order

/-! ## What a step does to the calls -/

def KeepsCalls (before after : List Connection) : Prop :=
  ∀ (c : Nat) (conn : Connection) (call : Call), after[c]? = some conn → conn.call = some call →
    ∃ earlier : Connection, before[c]? = some earlier ∧ earlier.call = some call

theorem keepsCalls_refl (connections : List Connection) : KeepsCalls connections connections :=
  fun _ conn _ at_ called => ⟨conn, at_, called⟩

theorem keepsCalls_modify {connections : List Connection} {c : Nat} {f : Connection → Connection}
    (same : ∀ conn, (f conn).call = conn.call) : KeepsCalls connections (connections.modify c f) := by
  intro c' conn call at_ called
  rw [List.getElem?_modify] at at_
  obtain ⟨earlier, there, change⟩ := Option.map_eq_some_iff.mp at_
  refine ⟨earlier, there, ?_⟩
  rw [← called, ← change]
  split_ifs
  · exact (same earlier).symm
  · rfl

theorem keepsCalls_accepted (connections : List Connection) (stream : Bytes) :
    KeepsCalls connections (connections ++ [.accepted stream]) := by
  intro c conn call at_ called
  by_cases inside : c < connections.length
  · rw [List.getElem?_append_left inside] at at_
    exact ⟨conn, at_, called⟩
  · rw [List.getElem?_append_right (Nat.le_of_not_lt inside)] at at_
    obtain rfl := List.mem_singleton.mp (List.mem_of_getElem? at_)
    cases called

inductive ConnectionMove (localTime : Fs.Time → Bytes) (s : ServerState) (input : ConnectionStep) :
    ServerState → Prop
  | answers {connections : List Connection} {lock : Option Nat}
      (calls : KeepsCalls s.connections connections) :
      ConnectionMove localTime s input { s with connections := connections, lock := lock }
  | shares {connections : List Connection} {lock : Option Nat}
      (own : SharedStep QueuedCommand WorkerEnv WorkerInput)
      (acts : ∀ w act, own = .act w act → input = .work (.act w act))
      (calls : KeepsCalls s.connections connections) :
      ConnectionMove localTime s input
        { s.share localTime own with connections := connections, lock := lock }
  | sends (w : Worker) (request : QueuedCommand w) (c : Nat) (now : Instant) :
      ConnectionMove localTime s input
        { s.share localTime (.send w request) with
          connections := s.connections.modify c fun conn =>
            conn.sent ⟨w, (s.shared.parties w).sent, request⟩ now }

section Moves
variable {localTime : Fs.Time → Bytes} {s : ServerState} {input : ConnectionStep}

theorem move_unchanged : ConnectionMove localTime s input s :=
  .answers (keepsCalls_refl _)

theorem move_phase (c : Nat) (phase : Phase) : ConnectionMove localTime s input (s.setPhase c phase) :=
  @ConnectionMove.answers localTime s input _ s.lock (keepsCalls_modify fun _ => rfl)

theorem move_release (c : Nat) (response : RpcResponse) :
    ConnectionMove localTime s input (s.release c response) :=
  .answers (keepsCalls_modify fun _ => rfl)

theorem connection_move (decode : Bytes → Except String Command) (localTime : Fs.Time → Bytes)
    (s : ServerState) (input : ConnectionStep) :
    ConnectionMove localTime s input (connectionStep decode localTime s input) := by
  cases input with
  | connect stream => exact .answers (keepsCalls_accepted _ _)
  | arrive c n => exact .answers (keepsCalls_modify fun _ => rfl)
  | enter c env =>
      unfold connectionStep
      dsimp only
      split
      · unfold enterStep
        split
        · split
          · exact move_phase _ _
          · exact .answers (keepsCalls_modify fun _ => rfl)
        · exact move_unchanged
      · exact move_unchanged
  | send now =>
      refine holder_step move_unchanged fun c conn _ _ => ?_
      unfold sendStep
      dsimp only
      split
      · split_ifs
        · exact .sends _ _ _ _
        · exact move_unchanged
      · exact move_unchanged
  | sendFails cause =>
      refine holder_step move_unchanged fun c conn _ _ => ?_
      dsimp only
      split
      · exact move_release _ _
      · exact move_unchanged
  | poll now =>
      refine holder_step move_unchanged fun c conn _ _ => ?_
      have shared : ∀ own : SharedStep QueuedCommand WorkerEnv WorkerInput, own = .receive ∨ own = .timeout →
          ∀ w act, own = .act w act → ConnectionStep.poll now = .work (.act w act) := by
        rintro own (rfl | rfl) w act ⟨⟩
      unfold pollStep
      dsimp only
      split
      · next call deadline wake _ =>
          by_cases asleep : now < wake
          · rw [if_pos asleep]
            exact move_unchanged
          · rw [if_neg asleep]
            split
            · split_ifs
              · exact .shares _ (shared _ (.inl rfl)) (keepsCalls_modify fun _ => rfl)
              · exact .shares _ (shared _ (.inl rfl)) (keepsCalls_modify fun _ => rfl)
            · split_ifs
              · exact move_phase _ _
              · exact .shares _ (shared _ (.inr rfl)) (keepsCalls_modify fun _ => rfl)
      · exact move_unchanged
  | receiveFails cause =>
      refine holder_step move_unchanged fun c conn _ _ => ?_
      dsimp only
      split
      · refine .shares .fail ?_ (keepsCalls_modify fun _ => rfl)
        rintro w act ⟨⟩
      · exact move_unchanged
  | read readable =>
      refine holder_step move_unchanged fun c conn _ _ => ?_
      unfold readStep
      dsimp only
      split
      · refine .shares (.read _) ?_ (keepsCalls_modify fun _ => rfl)
        rintro w act ⟨⟩
      · exact move_unchanged
  | respond c n =>
      refine .answers (keepsCalls_modify fun conn => ?_)
      split <;> rfl
  | work input =>
      refine .shares input.shared ?_ (keepsCalls_refl _)
      intro w act own
      cases input <;> cases own
      rfl

end Moves

/-! ## Runs -/

section Runs
variable {decode : Bytes → Except String Command} {localTime : Fs.Time → Bytes}
  {directory : Fs.Directory}

theorem chronicled_step {s : ServerState} {input : ConnectionStep}
    (chronicled : FsChronicled localTime directory s) (unedited : Unedited input) :
    FsChronicled localTime directory (connectionStep decode localTime s input) := by
  have move := connection_move decode localTime s input
  generalize connectionStep decode localTime s input = s' at move
  cases move with
  | answers _ => exact chronicled
  | shares own acts _ =>
      refine chronicled_share chronicled own fun act same edited => ?_
      rw [acts .fs act same] at unedited
      exact unedited edited
  | sends w request c now =>
      refine chronicled_share chronicled (.send w request) ?_
      rintro act ⟨⟩

structure Since (s t : ServerState) : Prop where
  asked : ∀ w, (s.ledger.asked w).length ≤ (t.ledger.asked w).length
  calls : ∀ (c : Nat) (conn : Connection) (call : Call), t.connections[c]? = some conn →
    conn.call = some call →
      (∃ earlier : Connection, s.connections[c]? = some earlier ∧ earlier.call = some call) ∨
        (s.ledger.asked call.worker).length ≤ call.ticket

theorem Since.step {s t : ServerState} (since : Since s t) (isolated : Isolated decode localTime t)
    (input : ConnectionStep) : Since s (connectionStep decode localTime t input) := by
  have longer : ∀ own w,
      (s.ledger.asked w).length ≤ ((t.share localTime own).ledger.asked w).length := by
    intro own w
    exact (since.asked w).trans (isolated.grows own w).1.length_le
  have kept : ∀ {connections : List Connection}, KeepsCalls t.connections connections →
      ∀ (c : Nat) (conn : Connection) (call : Call), connections[c]? = some conn →
        conn.call = some call →
          (∃ earlier : Connection, s.connections[c]? = some earlier ∧ earlier.call = some call) ∨
            (s.ledger.asked call.worker).length ≤ call.ticket := by
    intro connections keeps c conn call at_ called
    obtain ⟨before, there, own⟩ := keeps c conn call at_ called
    exact since.calls c before call there own
  have move := connection_move decode localTime t input
  generalize connectionStep decode localTime t input = t' at move
  cases move with
  | answers calls => exact ⟨since.asked, kept calls⟩
  | shares own _ calls => exact ⟨longer own, kept calls⟩
  | sends w request c now =>
      refine ⟨longer _, fun c' conn call at_ called => ?_⟩
      rw [List.getElem?_modify] at at_
      obtain ⟨before, there, change⟩ := Option.map_eq_some_iff.mp at_
      split_ifs at change
      · subst change
        cases called
        refine .inr ?_
        rw [(isolated.traceable.accounted.parties w).sent]
        exact since.asked w
      · subst change
        exact since.calls c' before call there called

theorem since_run {s : ServerState} (isolated : Isolated decode localTime s)
    {later : List ConnectionStep} (inTime : Guarded (connectionStep decode localTime) InTime s later) :
    Since s (run (connectionStep decode localTime) s later) := by
  have both := always_of_guarded (connectionStep decode localTime)
    (J := fun t => Isolated decode localTime t ∧ Since s t)
    (fun _ input both inTime => ⟨connectionStep_isolated both.1 inTime, both.2.step both.1 input⟩)
    ⟨isolated, fun _ => le_rfl, fun _ conn _ at_ called => .inl ⟨conn, at_, called⟩⟩ inTime
  exact both.last.2

theorem Since.later {s t : ServerState} (since : Since s t) (isolated : Isolated decode localTime s)
    {c c' : Nat} {conn conn' : Connection} {call call' : Call} (at_ : s.connections[c]? = some conn)
    (called : conn.call = some call)
    (unsent : ∀ earlier : Connection, s.connections[c']? = some earlier → earlier.call = none)
    (at' : t.connections[c']? = some conn') (called' : conn'.call = some call')
    (worker : call.worker = call'.worker) : call.ticket < call'.ticket := by
  have asked := (List.getElem?_eq_some_iff.mp (isolated.asked c conn call at_ called)).1
  rcases since.calls c' conn' call' at' called' with ⟨earlier, there, own⟩ | after
  · rw [unsent earlier there] at own
    cases own
  · rw [← worker] at after
    exact asked.trans_le after

theorem chronicled_run (configs : List Proc.ProcessConfig) (env : Fs.WatchEnv) (file : Bytes)
    (keeping : Fs.KeepingDirectory directory) {steps : List ConnectionStep}
    (unedited : ∀ input ∈ steps, Unedited input) :
    FsChronicled localTime directory (run (connectionStep decode localTime)
      (.start (.start (workersStart configs env directory) file)) steps) := by
  have guard : Guarded (connectionStep decode localTime) (fun _ input => Unedited input)
      (.start (.start (workersStart configs env directory) file)) steps :=
    fun before input rest split => unedited input (by simp [split])
  refine (always_of_guarded (connectionStep decode localTime)
    (J := FsChronicled localTime directory)
    (fun _ _ chronicled unedited => chronicled_step chronicled unedited) ?_ guard).last
  refine ⟨led_start env keeping, ?_⟩
  rintro i h ⟨⟩

/-- The responses of the fs worker are those of a store of switches that takes the commands in the
order of their tickets, and the directory holds what it holds after those that were taken. -/
structure Linearized (localTime : Fs.Time → Bytes) (directory : Fs.Directory) (s : ServerState) :
    Prop where
  responses : ∀ (c : Nat) (conn : Connection) response written ticket (request : QueuedCommand .fs),
    s.connections[c]? = some conn → conn.phase = .responding response written →
      conn.call = some ⟨.fs, ticket, request⟩ →
        (s.ledger.asked .fs)[ticket]? = some request ∧ ticket < (s.ledger.handled .fs).length ∧
          RespondsFrom localTime (switchesAfter directory ((s.ledger.asked .fs).take ticket)) request
            response
  store : Fs.switches ((s.shared.parties .fs).peer : Fs.FsState).directory =
    switchesAfter directory ((s.ledger.asked .fs).take (s.ledger.handled .fs).length)

theorem linearized {s : ServerState} (isolated : Isolated decode localTime s)
    (chronicled : FsChronicled localTime directory s) : Linearized localTime directory s := by
  have party := isolated.traceable.accounted.parties .fs
  refine ⟨?_, ?_⟩
  · intro c conn response written ticket request at_ phase called
    have own := isolated.clientsApart.own c conn response written at_ phase
    rw [OwnResponse, called] at own
    obtain ⟨-, code, body⟩ := own
    obtain ⟨(h : Handling (QueuedCommand .fs) (WorkerCode .fs) UInt8), member, (own : h.ticket = ticket),
      (asked : h.request = request), reply, single, answered⟩ := code
    subst own asked
    have place := party.at_ticket member
    have taken := (List.getElem?_eq_some_iff.mp place).1
    obtain ⟨env, before, led, replies, text⟩ := chronicled.made _ h place
    rw [party.requests_before taken.le] at led
    refine ⟨party.taken h member, taken, handling_responds led.switches env ?_ ?_⟩
    · rw [answered]
      exact replies.symm.trans single
    · refine body.imp id ?_
      rintro ⟨-, h', member', ticket, -, shown, wrote, part⟩
      have same : h' = h := party.unique member' member ticket
      exact ⟨shown, text.symm.trans (congrArg Handling.text same.symm |>.trans wrote), part⟩
  · have led : Led directory ((s.ledger.handled .fs).map Handling.request) (s.shared.parties .fs).peer :=
      chronicled.now
    rw [party.requests_eq] at led
    exact led.switches

def ListsShown (localTime : Fs.Time → Bytes) (directory : Fs.Directory) (s : ServerState) : Prop :=
  ∀ (c : Nat) (conn : Connection) response written ticket (request : QueuedCommand .fs),
    s.connections[c]? = some conn → conn.phase = .responding response written →
      conn.call = some ⟨.fs, ticket, request⟩ → ListsConfigs request.message →
        ShowsSwitches localTime (switchesAfter directory ((s.ledger.asked .fs).take ticket))
          (lit response.body)

theorem listsShown {s : ServerState} (isolated : Isolated decode localTime s)
    (chronicled : FsChronicled localTime directory s) (whole : WholeTables s) :
    ListsShown localTime directory s := by
  intro c conn response written ticket request at_ phase called lists
  have party := isolated.traceable.accounted.parties .fs
  obtain ⟨(h : Handling (QueuedCommand .fs) (WorkerCode .fs) UInt8), member, (own : h.ticket = ticket),
    wrote⟩ := whole.shown conn (List.mem_of_getElem? at_) response written ticket request phase called
      (isList_of_listsConfigs lists)
  have asked : h.request = request := by
    have known := party.taken h member
    rw [own, isolated.asked c conn _ at_ called, Option.some.injEq] at known
    exact known.symm
  subst own asked
  have place := party.at_ticket member
  obtain ⟨env, before, led, -, text⟩ := chronicled.made _ h place
  rw [party.requests_before (List.getElem?_eq_some_iff.mp place).1.le] at led
  rw [← led.switches]
  exact shown_of_text lists (text.symm.trans wrote)

end Runs

/-! ## A client that reads what another one wrote -/

def fsStopJson : Bytes := lit "\x7b\"FS\":\x7b\"opt\":\"stop\",\"identifier\":[\"12\"]\x7d\x7d"

def decodeSwitches (message : Bytes) : Except String Command :=
  if message = fsStopJson then .ok (.fs (lit "stop") [lit "12"]) else decodeLists message

def stopCall : List ConnectionStep :=
  [.connect (requestFrame fsStopJson), .arrive 0 100, .enter 0 ⟨none, none⟩, .send 1000,
    .work (.take .fs (⟨Fs.growingWatches 1, true⟩ : Fs.CommandEnv)), .work (.emit .fs), .poll 1000,
    .respond 0 1000]

def listCall : List ConnectionStep :=
  [.connect (requestFrame fsListJson), .arrive 1 100, .enter 1 ⟨none, none⟩, .send 1100,
    .work (.take .fs (⟨Fs.growingWatches 1, true⟩ : Fs.CommandEnv)), .work (.write .fs 1000),
    .work (.close .fs), .work (.emit .fs), .poll 1100, .read true, .respond 1 1000]

abbrev webStart : ServerState :=
  .start (.start (workersStart [] (Fs.growingWatches 0) Fs.webDirectory) [])

theorem inTime_of_switches {s : ServerState} {env : Fs.CommandEnv}
    (switches : ((s.shared.parties .fs).requests.all fun queued =>
      !isListCommand queued.2.command) = true) :
    InTime s (.work (.take .fs env)) := by
  intro ticket request rest requests list
  rw [requests, List.all_cons, Bool.and_eq_true, Bool.not_eq_true'] at switches
  exact absurd (list.symm.trans switches.1) (by simp)

theorem stopList_inTime : Guarded (connectionStep decodeSwitches fun _ => []) InTime webStart
    (stopCall ++ listCall) := by
  simp only [stopCall, listCall, List.cons_append, List.nil_append, guarded_cons, guarded_nil,
    and_true]
  refine ⟨trivial, trivial, trivial, trivial, inTime_of_switches ?_, trivial,
    inTime_of_beforeDeadline ?_, trivial, trivial, trivial, trivial, trivial, inTime_of_lists rfl ?_,
    trivial, trivial, trivial, inTime_of_beforeDeadline ?_, trivial, trivial⟩
  all_goals decide +kernel

theorem readsWhole_close {s : ServerState}
    (finished : ((s.shared.output.pens .fs).all fun pen => pen.text.length ≤ pen.done) = true) :
    ReadsWhole s (.work (.close .fs)) := by
  intro pen at_
  rw [at_, Option.all_some, decide_eq_true_eq] at finished
  exact finished

theorem stopList_readsWhole : Guarded (connectionStep decodeSwitches fun _ => []) ReadsWhole webStart
    (stopCall ++ listCall) := by
  simp only [stopCall, listCall, List.cons_append, List.nil_append, guarded_cons, guarded_nil,
    and_true]
  refine ⟨trivial, trivial, trivial, trivial, trivial, trivial, trivial, trivial, trivial, trivial,
    trivial, trivial, trivial, trivial, readsWhole_close ?_, trivial, trivial,
    fun _ _ => ⟨rfl, Option.isSome_iff_ne_none.mp ?_⟩, trivial⟩
  all_goals decide +kernel

example : (run (connectionStep decodeSwitches fun _ => []) webStart
    (stopCall ++ listCall)).connections.map (fun conn => readResponse conn.received) =
    [some (⟨0, []⟩, []), some (⟨0, lit "Num\tID\tName\tPath\tOperations\tSwitch\n" ++
      lit "[0]\t12\tweb\t/srv/www\twrite,delete,rename,chmod\tOff\n"⟩, [])] := by
  decide +kernel

end SysDetector.Rpc
