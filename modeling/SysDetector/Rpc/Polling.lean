import SysDetector.Library.Ranking
import SysDetector.Rpc.Isolation

namespace SysDetector.Rpc
open CLib Runs RequestReply SharedOutput

def phaseHeld (s : ServerState) : Option Phase := s.holder.map fun held => held.2.phase

def Waits (s : ServerState) : Prop :=
  ∃ call deadline wake, phaseHeld s = some (.waiting call deadline wake)

def polls (s : ServerState) : ConnectionStep → Nat
  | .poll now =>
      match phaseHeld s with
      | some (.waiting _ _ wake) => if wake ≤ now then 1 else 0
      | _ => 0
  | _ => 0

def pollsLeft (deadline wake : Nat) : Nat :=
  (deadline - wake + (POLL_INTERVAL - 1)) / POLL_INTERVAL + 1

def pollsAhead (s : ServerState) : Nat :=
  match phaseHeld s with
  | some (.waiting _ deadline wake) => pollsLeft deadline wake
  | _ => 0

theorem pollsLeft_poll {deadline wake now : Nat} (awake : wake ≤ now) (early : now < deadline) :
    1 + pollsLeft deadline (now + POLL_INTERVAL) ≤ pollsLeft deadline wake := by
  unfold pollsLeft POLL_INTERVAL
  omega

theorem pollsLeft_sent (now : Nat) : pollsLeft (now + RESPONSE_TIMEOUT) now = 101 := by
  unfold pollsLeft
  rw [Nat.add_sub_cancel_left]
  rfl

section Held
variable {s : ServerState} {c : Nat} {conn : Connection}

theorem phaseHeld_of (held : s.lock = some c) (at_ : s.connections[c]? = some conn) :
    phaseHeld s = some conn.phase := by
  rw [phaseHeld, holder_eq_some.mpr ⟨held, at_⟩]
  rfl

theorem phaseHeld_released (free : s.lock = none) : phaseHeld s = none := by
  rw [phaseHeld, ServerState.holder, free]
  rfl

theorem phaseHeld_modify (held : s.lock = some c) (at_ : s.connections[c]? = some conn) (c' : Nat)
    {f : Connection → Connection} (same : (f conn).phase = conn.phase) :
    phaseHeld { s with connections := s.connections.modify c' f } = some conn.phase := by
  by_cases here : c' = c
  · subst here
    have now : (s.connections.modify c' f)[c']? = some (f conn) := by
      rw [List.getElem?_modify_eq, at_]
      rfl
    rw [phaseHeld_of (s := { s with connections := s.connections.modify c' f }) held now, same]
  · have now : (s.connections.modify c' f)[c]? = some conn := by
      rw [List.getElem?_modify_ne _ _ here, at_]
    exact phaseHeld_of (s := { s with connections := s.connections.modify c' f }) held now

theorem phaseHeld_setPhase (held : s.lock = some c) (at_ : s.connections[c]? = some conn)
    (phase : Phase) : phaseHeld (s.setPhase c phase) = some phase := by
  have now : (s.setPhase c phase).connections[c]? = some { conn with phase := phase } := by
    rw [ServerState.setPhase, List.getElem?_modify_eq, at_]
    rfl
  exact phaseHeld_of (s := s.setPhase c phase) held now

theorem waits_iff : Waits s ↔ ∃ c conn call deadline wake, s.lock = some c ∧
    s.connections[c]? = some conn ∧ conn.phase = .waiting call deadline wake := by
  constructor
  · rintro ⟨call, deadline, wake, phase⟩
    obtain ⟨⟨c, conn⟩, holds, same⟩ := Option.map_eq_some_iff.mp phase
    obtain ⟨held, at_⟩ := holder_eq_some.mp holds
    exact ⟨c, conn, call, deadline, wake, held, at_, same⟩
  · rintro ⟨c, conn, call, deadline, wake, held, at_, phase⟩
    exact ⟨call, deadline, wake, by rw [phaseHeld_of held at_, phase]⟩

end Held

section Steps
variable {decode : Bytes → Except String Command} {localTime : Fs.Time → Bytes} {s : ServerState}
  {c : Nat} {conn : Connection} {call : Call} {deadline wake : Instant}

theorem poll_pays (held : s.lock = some c) (at_ : s.connections[c]? = some conn)
    (phase : conn.phase = .waiting call deadline wake) (now : Instant) :
    polls s (.poll now) + pollsAhead (connectionStep decode localTime s (.poll now)) ≤
      pollsAhead s := by
  have holds := holder_eq_some.mpr ⟨held, at_⟩
  have before : phaseHeld s = some (.waiting call deadline wake) := by
    rw [phaseHeld_of held at_, phase]
  have ahead : pollsAhead s = pollsLeft deadline wake := by rw [pollsAhead, before]
  have step : connectionStep decode localTime s (.poll now) = pollStep localTime s c conn now := by
    rw [connectionStep, holds]
    rfl
  have last : ∀ s' : ServerState, s'.lock = none →
      polls s (.poll now) + pollsAhead s' ≤ pollsLeft deadline wake := by
    intro s' free
    have once : polls s (.poll now) ≤ 1 := by
      rw [polls, before]
      dsimp only
      split_ifs <;> omega
    rw [pollsAhead, phaseHeld_released free]
    exact once.trans (Nat.le_add_left 1 _)
  have fetched : ∀ (s' : ServerState) (recvStr : Bytes), phaseHeld s' = some (.fetching call recvStr) →
      polls s (.poll now) + pollsAhead s' ≤ pollsLeft deadline wake := by
    intro s' recvStr fetching
    have once : polls s (.poll now) ≤ 1 := by
      rw [polls, before]
      dsimp only
      split_ifs <;> omega
    rw [pollsAhead, fetching]
    exact once.trans (Nat.le_add_left 1 _)
  rw [step, ahead]
  unfold pollStep
  rw [phase]
  dsimp only
  by_cases asleep : now < wake
  · rw [if_pos asleep, polls, before]
    dsimp only
    rw [if_neg (Nat.not_le.mpr asleep), ahead, Nat.zero_add]
  · rw [if_neg asleep]
    split
    · next answered reply rest replies =>
        split_ifs with list
        · refine fetched _ (responseBuffer (codeOf call.worker reply)).text ?_
          exact phaseHeld_setPhase (s := s.share localTime .receive) held at_ _
        · exact last _ rfl
    · next empty =>
        split_ifs with early
        · have awake : wake ≤ now := Nat.not_lt.mp asleep
          rw [polls, before, pollsAhead, phaseHeld_setPhase held at_]
          dsimp only
          rw [if_pos awake]
          exact pollsLeft_poll awake early
        · exact last _ rfl

theorem step_pays (waits : Waits s) (input : ConnectionStep) :
    polls s input + pollsAhead (connectionStep decode localTime s input) ≤ pollsAhead s := by
  obtain ⟨c, conn, call, deadline, wake, held, at_, phase⟩ := waits_iff.mp waits
  have holds := holder_eq_some.mpr ⟨held, at_⟩
  have before := phaseHeld_of held at_
  have kept : ∀ s' : ServerState, phaseHeld s' = some conn.phase →
      0 + pollsAhead s' ≤ pollsAhead s := by
    intro s' same
    rw [pollsAhead, pollsAhead, same, before, Nat.zero_add]
  have ignored : ∀ s', s' = s → 0 + pollsAhead s' ≤ pollsAhead s := by
    rintro _ rfl
    exact (Nat.zero_add _).le
  cases input with
  | poll now => exact poll_pays held at_ phase now
  | connect stream =>
      have inside := (List.getElem?_eq_some_iff.mp at_).1
      have found : (s.connections ++ [.accepted stream])[c]? = some conn := by
        rw [List.getElem?_append_left inside, at_]
      exact kept _ (phaseHeld_of held found)
  | arrive c' n =>
      exact kept _ (phaseHeld_modify held at_ c' rfl)
  | enter c' env =>
      refine ignored _ ?_
      rw [connectionStep, held]
  | send now =>
      refine ignored _ ?_
      rw [connectionStep, holds]
      show sendStep localTime s c conn now = s
      rw [sendStep, phase]
  | sendFails cause =>
      refine ignored _ ?_
      unfold connectionStep
      simp only [holds, Option.elim_some, phase]
  | receiveFails cause =>
      have released : connectionStep decode localTime s (.receiveFails cause) =
          (s.share localTime .fail).release c (errorResponse (.receive cause)) := by
        unfold connectionStep
        simp only [holds, Option.elim_some, phase]
      rw [released, pollsAhead, phaseHeld_released rfl]
      exact Nat.zero_le _
  | read readable =>
      refine ignored _ ?_
      rw [connectionStep, holds]
      show readStep localTime s c conn readable = s
      rw [readStep, phase]
  | respond c' n =>
      refine kept _ (phaseHeld_modify held at_ c' ?_)
      rw [phase]
      exact phase
  | work input =>
      exact kept _ (phaseHeld_of (s := s.share localTime input.shared) held at_)

end Steps

/-- From the sending of a command on, no more than 101 polls find it without a response, whatever
happens in between. -/
theorem polls_bounded (decode : Bytes → Except String Command) (localTime : Fs.Time → Bytes)
    (s : ServerState) (now : Instant) (steps : List ConnectionStep)
    (sending : ∃ w request, phaseHeld s = some (.sending w request))
    (waits : Guarded (connectionStep decode localTime) (fun s _ => Waits s)
      (connectionStep decode localTime s (.send now)) steps) :
    total (connectionStep decode localTime) polls (connectionStep decode localTime s (.send now))
      steps ≤ 101 := by
  obtain ⟨w, request, phase⟩ := sending
  obtain ⟨⟨c, conn⟩, holds, same⟩ := Option.map_eq_some_iff.mp phase
  obtain ⟨held, at_⟩ := holder_eq_some.mp holds
  have sent : pollsAhead (connectionStep decode localTime s (.send now)) ≤ 101 := by
    rw [connectionStep, holds]
    show pollsAhead (sendStep localTime s c conn now) ≤ 101
    rw [sendStep, same]
    dsimp only
    split_ifs with room
    · let call : Call := ⟨w, (s.shared.parties w).sent, request⟩
      have found : (s.connections.modify c fun conn => conn.sent call now)[c]? =
          some (conn.sent call now) := by
        rw [List.getElem?_modify_eq, at_]
        rfl
      have after := phaseHeld_of (s := { s.share localTime (.send w request) with
        connections := s.connections.modify c fun conn => conn.sent call now }) held found
      show pollsAhead { s.share localTime (.send w request) with
        connections := s.connections.modify c fun conn => conn.sent call now } ≤ 101
      rw [pollsAhead, after]
      exact (pollsLeft_sent now).le
    · rw [pollsAhead, phase]
      exact Nat.zero_le _
  have pays := total_le_rank (connectionStep decode localTime) pollsAhead polls
    (fun s input waits => step_pays waits input) waits
  omega

def Phase.isWaiting : Phase → Bool
  | .waiting _ _ _ => true
  | _ => false

theorem waits_of {s : ServerState} (waiting : (phaseHeld s).any Phase.isWaiting = true) : Waits s := by
  obtain ⟨phase, held, isWaiting⟩ := Option.any_eq_true _ _ |>.mp waiting
  cases phase with
  | waiting call deadline wake => exact ⟨call, deadline, wake, held⟩
  | _ => cases isWaiting

def beforeSend : ServerState :=
  run (connectionStep decodeLists fun _ => []) twoClientsStart
    [.connect (requestFrame fsListJson), .arrive 0 100, .enter 0 ⟨none, none⟩]

def impatientPolls : List ConnectionStep :=
  [.poll 1000, .poll 1020, .connect (requestFrame procListJson), .poll 1050,
    .work (.take .fs (⟨⟨true, fun _ => 1⟩, true⟩ : Fs.CommandEnv)), .poll 1200]

theorem beforeSend_sending : ∃ w request, phaseHeld beforeSend = some (.sending w request) := by
  refine ⟨.fs, ⟨.fs (lit "list") [], lit "list", by decide, rfl⟩, ?_⟩
  rfl

theorem impatientPolls_wait : Guarded (connectionStep decodeLists fun _ => []) (fun s _ => Waits s)
    (connectionStep decodeLists (fun _ => []) beforeSend (.send 1000)) impatientPolls := by
  simp only [impatientPolls, guarded_cons, guarded_nil, and_true]
  refine ⟨waits_of ?_, waits_of ?_, waits_of ?_, waits_of ?_, waits_of ?_, waits_of ?_⟩
  all_goals decide +kernel

theorem polls_bounded_impatient : total (connectionStep decodeLists fun _ => []) polls
    (connectionStep decodeLists (fun _ => []) beforeSend (.send 1000)) impatientPolls ≤ 101 :=
  polls_bounded decodeLists (fun _ => []) beforeSend 1000 impatientPolls beforeSend_sending
    impatientPolls_wait

end SysDetector.Rpc
