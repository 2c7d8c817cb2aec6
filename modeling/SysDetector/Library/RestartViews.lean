import SysDetector.Library.Lag
import SysDetector.Library.Restarts

namespace Restarts
open Runs NamedQueues RequestReply

variable {σ ρ ε ι κ α : Type}

def System.reading (s : System σ ρ α) : Option Nat := s.client.replies.or s.replies.linked

def System.view (s : System σ ρ α) : State σ ρ α where
  peer := s.peer
  sent := s.sent
  waiting := s.client.ticket
  requests := s.requests.held s.requests.linked
  unsent := s.unsent
  replies := s.replies.held s.reading
  returned := s.returned

def clientStep (capacity : Nat) (s : System σ ρ α) : ClientMove ρ → Option (Step ρ ε ι)
  | .openReplies | .openRequests _ => none
  | .send =>
      match s.client with
      | .sending _ c request =>
          if (s.requests.contents c).length < capacity then some (.send request) else none
      | _ => none
  | .receive => some .receive
  | .timeout => some .timeout
  | .fail => some .fail

def processStep (s : System σ ρ α) : ProcessMove ε ι κ → Option (Step ρ ε ι)
  | .take env =>
      match s.process with
      | some p => if p.place = .receiving then some (.take env) else none
      | none => none
  | .emit => some .emit
  | .act input =>
      match s.process with
      | some p => if p.place = .starting then none else some (.act input)
      | none => none
  | .start _ | .ready | .test | .stop | .cleanUp | .kill => none

def plainStep (capacity : Nat) (s : System σ ρ α) : Move ρ ε ι κ → Option (Step ρ ε ι)
  | .client move => clientStep capacity s move
  | .process move => processStep s move

def ClientLoses (s : System σ ρ α) : ClientMove ρ → Prop
  | .openRequests _ | .receive | .fail => ∃ r ∈ s.client.replies, s.replies.linked ≠ some r
  | .send => ∃ c ∈ s.client.requests, s.requests.linked ≠ some c
  | .openReplies | .timeout => False

def ProcessLoses (v : Service σ ρ ε ι κ α) (s : System σ ρ α) : ProcessMove ε ι κ → Prop
  | .start _ => s.process = none ∧ v.renews = true ∧ s.requests.held s.requests.linked ≠ []
  | .emit => s.replies.linked = none ∧ s.unsent ≠ []
  | .stop => v.cleans = false ∧ s.unsent ≠ []
  | .cleanUp => s.process ≠ none ∧ v.cleans = true
  | .kill => s.unsent ≠ []
  | .ready | .test | .take _ | .act _ => False

def Loses (v : Service σ ρ ε ι κ α) (s : System σ ρ α) : Move ρ ε ι κ → Prop
  | .client move => ClientLoses s move
  | .process move => ProcessLoses v s move

structure Thinned (whole : Prop) (t s : State σ ρ α) : Prop where
  requests : t.requests.Sublist s.requests
  unsent : t.unsent.Sublist s.unsent
  replies : t.replies.Sublist s.replies
  sent : t.sent = s.sent
  waiting : t.waiting = s.waiting
  returned : t.returned = s.returned
  kept : whole → t.requests = s.requests ∧ t.unsent = s.unsent ∧ t.replies = s.replies

theorem Thinned.refl (whole : Prop) (s : State σ ρ α) : Thinned whole s s where
  requests := .refl _
  unsent := .refl _
  replies := .refl _
  sent := rfl
  waiting := rfl
  returned := rfl
  kept _ := ⟨rfl, rfl, rfl⟩

theorem Thinned.inFlight {whole : Prop} {t s : State σ ρ α} (thinned : Thinned whole t s) :
    (inFlight t).Sublist (inFlight s) :=
  ((thinned.replies.map _).append (thinned.unsent.map _)).append (thinned.requests.map _)

theorem Thinned.inFlight_eq {whole : Prop} {t s : State σ ρ α} (thinned : Thinned whole t s)
    (all : whole) : RequestReply.inFlight t = RequestReply.inFlight s := by
  obtain ⟨requests, unsent, replies⟩ := thinned.kept all
  simp only [RequestReply.inFlight, requests, unsent, replies]

section Views
variable {v : Service σ ρ ε ι κ α} {capacity : Nat} {s : System σ ρ α}

theorem Sound.linked_sublist (sound : Sound s) :
    (s.replies.held s.replies.linked).Sublist (s.replies.held s.reading) := by
  unfold System.reading
  cases replies : s.client.replies with
  | none => rw [Option.none_or]
  | some r =>
      rw [Option.some_or]
      cases linked : s.replies.linked with
      | none => exact List.nil_sublist _
      | some i => rw [(sound.listens r replies).2 i linked]

theorem Sound.reading_linked (sound : Sound s) {r : Nat} (linked : s.replies.linked = some r) :
    s.reading = some r := by
  unfold System.reading
  cases replies : s.client.replies with
  | none => rw [Option.none_or, linked]
  | some q => rw [Option.some_or, (sound.listens q replies).2 r linked]

theorem linked_eq (linked : ¬ ∃ r ∈ s.client.replies, s.replies.linked ≠ some r) :
    s.replies.linked = s.reading := by
  unfold System.reading
  cases replies : s.client.replies with
  | none => rw [Option.none_or]
  | some r =>
      rw [Option.some_or]
      by_contra other
      exact linked ⟨r, replies, other⟩

variable (v capacity s) in
def Viewed (s' : System σ ρ α) (move : Move ρ ε ι κ) : Prop :=
  Thinned (¬ Loses v s move) s'.view
    ((plainStep capacity s move).elim s.view (RequestReply.step v.peer capacity s.view))

theorem viewed_of_eq {s' : System σ ρ α} {move : Move ρ ε ι κ}
    (same : s'.view = (plainStep capacity s move).elim s.view (RequestReply.step v.peer capacity s.view)) :
    Viewed v capacity s s' move := by
  rw [Viewed, same]
  exact .refl _ _

theorem viewed_of_nothing {move : Move ρ ε ι κ} (nothing : plainStep capacity s move = none) :
    Viewed v capacity s s move :=
  viewed_of_eq (by rw [nothing, Option.elim_none])

variable (v capacity) in
theorem idle_view (sound : Sound s) :
    Viewed v capacity s { s with client := .idle } (.client .fail) where
  requests := .refl _
  unsent := .refl _
  replies := sound.linked_sublist
  sent := rfl
  waiting := rfl
  returned := rfl
  kept linked := ⟨rfl, rfl, congrArg s.replies.held (linked_eq linked)⟩

theorem openReplies_view (client : s.client = .idle) :
    System.view { s with client := .opened s.replies.create.1, replies := s.replies.create.2 } =
      s.view := by
  simp only [System.view, System.reading, client, Client.ticket, Client.replies, Option.some_or,
    Option.none_or, Named.held_some, Named.contents_created, System.unsent]

theorem send_view (sound : Sound s) {r c : Nat} {request : ρ}
    (client : s.client = .sending r c request)
    (room : (s.requests.contents c).length < capacity) :
    Viewed v capacity s { s with
      client := .waiting r s.sent
      requests := s.requests.put c (s.sent, request)
      sent := s.sent + 1 } (.client .send) := by
  have known : s.client.requests = some c := by rw [client, Client.requests]
  obtain ⟨valid, behind⟩ := sound.sends c known
  have idle : s.view.waiting = none := by rw [System.view, client, Client.ticket]
  have plain : clientStep (ε := ε) (ι := ι) capacity s .send = some (.send request) := by
    simp only [clientStep, client, room, if_true]
  have replies : s.view.replies = s.replies.contents r := by
    rw [System.view, System.reading, client, Client.replies, Option.some_or, Named.held_some]
  rw [Viewed, plainStep, plain, Option.elim_some, RequestReply.step]
  by_cases linked : s.requests.linked = some c
  · have requests : s.view.requests = s.requests.contents c := by
      rw [System.view, linked, Named.held_some]
    have after : (s.requests.put c (s.sent, request)).held s.requests.linked =
        s.view.requests ++ [(s.sent, request)] := by
      rw [requests, linked, Named.held_some, Named.contents_put _ valid, if_pos rfl]
    rw [if_pos ⟨idle, by rwa [requests]⟩]
    exact ⟨after ▸ .refl _, .refl _, replies ▸ .refl _, rfl, rfl, rfl,
      fun _ => ⟨after, rfl, replies.symm⟩⟩
  · have empty : s.requests.held s.requests.linked = [] := behind.resolve_left linked
    have after : (s.requests.put c (s.sent, request)).held s.requests.linked = [] := by
      cases other : s.requests.linked with
      | none => rfl
      | some i =>
          rw [other] at linked empty
          have apart : c ≠ i := fun same => linked (by rw [same])
          rw [Named.held_some, Named.contents_put _ valid, if_neg apart]
          exact empty
    have free : s.view.requests.length < capacity := by
      rw [System.view, empty]
      exact Nat.zero_lt_of_lt room
    rw [if_pos ⟨idle, free⟩]
    refine ⟨?_, .refl _, replies ▸ .refl _, rfl, rfl, rfl, fun whole => ?_⟩
    · exact after ▸ List.nil_sublist _
    · exact absurd ⟨c, known, linked⟩ whole

theorem receive_view (sound : Sound s) {r ticket answered : Nat} {reply : α}
    {rest : List (Nat × α)} (client : s.client = .waiting r ticket)
    (contents : s.replies.contents r = (answered, reply) :: rest) :
    Viewed v capacity s { s with
      client := .idle
      replies := s.replies.drop r
      returned := s.returned ++ [⟨ticket, answered, reply⟩] } (.client .receive) := by
  have held : s.client.replies = some r := by rw [client, Client.replies]
  have waiting : s.view.waiting = some ticket := by rw [System.view, client, Client.ticket]
  have replies : s.view.replies = (answered, reply) :: rest := by
    rw [System.view, System.reading, held, Option.some_or, Named.held_some, contents]
  have plain : RequestReply.step v.peer capacity s.view .receive = { s.view with
      waiting := none
      replies := rest
      returned := s.returned ++ [⟨ticket, answered, reply⟩] } := by
    rw [RequestReply.step, waiting, replies]
    rfl
  have left : s.replies.linked = some r → (s.replies.drop r).held s.replies.linked = rest := by
    intro linked
    rw [linked, Named.held_some, Named.contents_drop_self, contents, List.tail_cons]
  rw [Viewed, plainStep, clientStep, Option.elim_some, plain]
  refine ⟨.refl _, .refl _, ?_, rfl, rfl, rfl, fun whole => ⟨rfl, rfl, ?_⟩⟩
  · cases linked : s.replies.linked with
    | none =>
        rw [System.view, System.reading, Client.replies, Option.none_or, Named.linked_drop, linked]
        exact List.nil_sublist _
    | some i =>
        have same : s.replies.linked = some r := by rw [linked, (sound.listens r held).2 i linked]
        exact left same ▸ .refl _
  · by_contra other
    exact whole ⟨r, held, fun linked => other (left linked)⟩

theorem openRequests_view (sound : Sound s) (request : ρ) :
    Viewed v capacity s (clientMove capacity s (.openRequests request))
      (.client (.openRequests request)) := by
  unfold clientMove
  dsimp only
  split
  · next r opened =>
      split
      · next c linked =>
          refine viewed_of_eq ?_
          simp only [plainStep, clientStep, Option.elim_none, System.view, System.reading, opened,
            Client.ticket, Client.replies, System.unsent]
      · have failed : RequestReply.step v.peer capacity s.view .fail = s.view := by
          simp only [RequestReply.step, System.view, opened, Client.ticket]
        rw [Viewed, plainStep, clientStep, Option.elim_none, ← failed]
        exact idle_view v capacity sound
  · exact viewed_of_nothing rfl

theorem waiting_none (elsewhere : ∀ r ticket, s.client ≠ .waiting r ticket) :
    s.view.waiting = none := by
  cases place : s.client with
  | waiting r ticket => exact absurd place (elsewhere r ticket)
  | _ => simp only [System.view, place, Client.ticket]

theorem receive_stays (nothing : s.view.waiting = none ∨ s.view.replies = []) :
    Viewed v capacity s s (.client .receive) := by
  have stays : RequestReply.step v.peer capacity s.view .receive = s.view := by
    refine receive_eq_self_iff.mpr fun asking => ?_
    exact nothing.resolve_left asking
  refine viewed_of_eq ?_
  rw [plainStep, clientStep, Option.elim_some, stays]

theorem view_replies {r ticket : Nat} (waiting : s.client = .waiting r ticket) :
    s.view.replies = s.replies.contents r := by
  rw [System.view, System.reading, waiting, Client.replies, Option.some_or, Named.held_some]

theorem timeout_view (sound : Sound s) :
    Viewed v capacity s (clientMove capacity s .timeout) (.client .timeout) := by
  rw [Viewed, plainStep, clientStep, Option.elim_some]
  unfold clientMove
  dsimp only
  split
  · next r ticket waiting =>
      have replies := view_replies waiting
      split
      · next nothing =>
          rw [nothing] at replies
          have plain : RequestReply.step v.peer capacity s.view .timeout =
              RequestReply.step v.peer capacity s.view .fail := by
            rw [RequestReply.step, if_pos replies, RequestReply.step]
          have idle := idle_view v capacity sound
          rw [plain]
          have left : (System.view { s with client := .idle }).replies.Sublist s.view.replies :=
            idle.replies
          rw [replies, List.sublist_nil] at left
          exact { idle with kept := fun _ => ⟨rfl, rfl, left.trans replies.symm⟩ }
      · next some =>
          rw [← replies] at some
          rw [RequestReply.step, if_neg some]
          exact .refl _ _
  · next elsewhere =>
      have idle := waiting_none elsewhere
      have same : { s.view with waiting := none } = s.view := by rw [← idle]
      rw [RequestReply.step, same, ite_self]
      exact .refl _ _

theorem clientMove_view (sound : Sound s) (move : ClientMove ρ) :
    Viewed v capacity s (clientMove capacity s move) (.client move) := by
  cases move with
  | openReplies =>
      unfold clientMove
      dsimp only
      split
      · next idle => exact viewed_of_eq (openReplies_view idle)
      · exact viewed_of_nothing rfl
  | openRequests request => exact openRequests_view sound request
  | send =>
      unfold clientMove
      dsimp only
      split
      · next r c request sending =>
          split
          · next room => exact send_view sound sending room
          · next full =>
              exact viewed_of_nothing (by simp only [plainStep, clientStep, sending, full, if_false])
      · next elsewhere =>
          refine viewed_of_nothing ?_
          unfold plainStep clientStep
          dsimp only
          split
          · next r c request sending => exact absurd sending (elsewhere r c request)
          · rfl
  | receive =>
      unfold clientMove
      dsimp only
      split
      · next r ticket waiting =>
          split
          · next answered reply rest contents => exact receive_view sound waiting contents
          · next nothing => exact receive_stays (.inr (by rw [view_replies waiting, nothing]))
      · next elsewhere => exact receive_stays (.inl (waiting_none elsewhere))
  | timeout => exact timeout_view sound
  | fail => exact idle_view v capacity sound

theorem withProcess_view {p p' : Process α} (alive : s.process = some p)
    (same : p'.unsent = p.unsent) : System.view { s with process := some p' } = s.view := by
  simp only [System.view, System.unsent, alive, Option.elim_some, same, System.reading]

theorem ended_view {move : ProcessMove ε ι κ} (plain : processStep (ρ := ρ) s move = none)
    (loses : s.unsent ≠ [] → ProcessLoses v s move) :
    Viewed v capacity s { s with process := none } (.process move) := by
  rw [Viewed, plainStep, plain, Option.elim_none]
  refine ⟨.refl _, List.nil_sublist _, .refl _, rfl, rfl, rfl, fun whole => ⟨rfl, ?_, rfl⟩⟩
  by_contra some
  exact whole (loses fun none => some none.symm)

theorem take_view (sound : Sound s) {p : Process α} (alive : s.process = some p)
    (receiving : p.place = .receiving) (env : ε) :
    Viewed v capacity s (takeRequest v env p s) (.process (.take env)) := by
  have plain : processStep (ρ := ρ) (ι := ι) (κ := κ) s (.take env) = some (.take env) := by
    simp only [processStep, alive, receiving, if_true]
  have linked := sound.reader p alive
  have unsent : s.view.unsent = [] := by
    rw [System.view, System.unsent, alive, Option.elim_some,
      sound.settled p alive (by rw [receiving]; simp)]
  have requests : s.view.requests = s.requests.contents p.requests := by
    rw [System.view, linked, Named.held_some]
  refine viewed_of_eq ?_
  rw [plainStep, plain, Option.elim_some, RequestReply.step, requests, unsent]
  unfold takeRequest
  cases contents : s.requests.contents p.requests with
  | nil =>
      dsimp only
      exact withProcess_view alive rfl
  | cons first rest =>
      obtain ⟨ticket, request⟩ := first
      have left : (s.requests.drop p.requests).held s.requests.linked = rest := by
        rw [linked, Named.held_some, Named.contents_drop_self, contents, List.tail_cons]
      dsimp only
      rw [← left]
      rfl

theorem emit_view (sound : Sound s) {p : Process α} (alive : s.process = some p) :
    Viewed v capacity s (emitReply capacity p s) (.process .emit) := by
  have now : s.view.unsent = p.unsent := by
    rw [System.view, System.unsent, alive, Option.elim_some]
  rw [Viewed, plainStep, processStep, Option.elim_some, RequestReply.step]
  unfold emitReply
  cases unsent : p.unsent with
  | nil =>
      rw [now, unsent]
      exact .refl _ _
  | cons reply rest =>
      rw [unsent] at now
      rw [now]
      dsimp only
      cases linked : s.replies.linked with
      | none =>
          have lost : Loses v s (.process .emit) := by
            refine ⟨linked, ?_⟩
            rw [show s.unsent = reply :: rest from now]
            exact List.cons_ne_nil _ _
          dsimp only
          split
          · exact ⟨.refl _, .refl _, List.sublist_append_left _ _, rfl, rfl, rfl,
              fun whole => absurd lost whole⟩
          · refine ⟨.refl _, ?_, .refl _, rfl, rfl, rfl, fun whole => absurd lost whole⟩
            exact now ▸ List.sublist_cons_self reply rest
      | some r =>
          have reading := sound.reading_linked linked
          have replies : s.view.replies = s.replies.contents r := by
            rw [System.view, reading, Named.held_some]
          have after : (s.replies.put r reply).held s.reading = s.view.replies ++ [reply] := by
            rw [replies, reading, Named.held_some,
              Named.contents_put _ (s.replies.valid r linked), if_pos rfl]
          dsimp only
          rw [replies]
          split
          · rw [← replies, ← after]
            exact .refl _ _
          · exact .refl _ _

theorem cleanUp_view (clean : ProcessLoses v s .cleanUp) : Viewed v capacity s { s with
    process := none
    requests := s.requests.unlink
    replies := s.replies.unlink } (.process .cleanUp) := by
  refine ⟨List.nil_sublist _, List.nil_sublist _, ?_, rfl, rfl, rfl, fun whole => absurd clean whole⟩
  show (s.replies.unlink.held (s.client.replies.or none)).Sublist
    (s.replies.held (s.client.replies.or s.replies.linked))
  cases s.client.replies with
  | none =>
      rw [Option.none_or, Named.held_none]
      exact List.nil_sublist _
  | some r => exact .refl _

theorem launch_view (ended : s.process = none) (input : κ) :
    Viewed v capacity s (launch v input s) (.process (.start input)) := by
  have unsent : s.view.unsent = [] := by rw [System.view, System.unsent, ended, Option.elim_none]
  have requests : (launch v input s).view.requests =
      if v.renews then [] else s.requests.held s.requests.linked := by
    unfold launch System.view
    dsimp only
    rw [Named.linked_create, Named.held_some, Named.contents_created]
    split
    · rfl
    · rfl
  rw [Viewed, plainStep, processStep, Option.elim_none]
  refine ⟨?_, List.nil_sublist _, .refl _, rfl, rfl, rfl, fun whole => ⟨?_, unsent.symm, rfl⟩⟩
  · rw [requests]
    split
    · exact List.nil_sublist _
    · exact .refl _
  · rw [requests]
    split
    · next renews =>
        by_contra some
        exact whole ⟨ended, renews, fun none => some none.symm⟩
    · rfl

theorem processMove_view (sound : Sound s) {p : Process α} (alive : s.process = some p)
    (move : ProcessMove ε ι κ) :
    Viewed v capacity s (processMove v capacity p s move) (.process move) := by
  have kept : ∀ (p' : Process α) (move : ProcessMove ε ι κ), processStep (ρ := ρ) s move = none →
      p'.unsent = p.unsent → Viewed v capacity s { s with process := some p' } (.process move) := by
    intro p' move nothing same
    refine viewed_of_eq ?_
    rw [plainStep, nothing, Option.elim_none, withProcess_view alive same]
  cases move with
  | start input => exact viewed_of_nothing rfl
  | ready =>
      unfold processMove
      dsimp only
      split
      · exact kept _ _ rfl rfl
      · exact viewed_of_nothing rfl
  | test =>
      unfold processMove
      dsimp only
      split
      · exact kept _ _ rfl rfl
      · exact viewed_of_nothing rfl
  | take env =>
      unfold processMove
      dsimp only
      split
      · next receiving => exact take_view sound alive receiving env
      · next elsewhere =>
          exact viewed_of_nothing (by simp only [plainStep, processStep, alive, elsewhere, if_false])
  | emit => exact emit_view sound alive
  | act input =>
      unfold processMove
      dsimp only
      split
      · next starting =>
          exact viewed_of_nothing (by simp only [plainStep, processStep, alive, starting, if_true])
      · next started =>
          have plain : processStep (ρ := ρ) (ε := ε) (κ := κ) s (.act input) = some (.act input) := by
            simp only [processStep, alive, started, if_false]
          refine viewed_of_eq ?_
          rw [plainStep, plain, Option.elim_some]
          rfl
  | stop =>
      unfold processMove
      dsimp only
      split
      · exact kept _ _ rfl rfl
      · next dies => exact ended_view rfl fun some => ⟨Bool.eq_false_iff.mpr dies, some⟩
  | cleanUp =>
      unfold processMove
      dsimp only
      split
      · next allowed =>
          refine cleanUp_view ⟨?_, allowed.1⟩
          rw [alive]
          exact Option.some_ne_none p
      · exact viewed_of_nothing rfl
  | kill => exact ended_view rfl fun some => some

theorem gone_view (ended : s.process = none) (move : ProcessMove ε ι κ) :
    Viewed v capacity s s (.process move) := by
  cases move with
  | take env => exact viewed_of_nothing (by simp only [plainStep, processStep, ended])
  | act input => exact viewed_of_nothing (by simp only [plainStep, processStep, ended])
  | emit =>
      have unsent : s.view.unsent = [] := by rw [System.view, System.unsent, ended, Option.elim_none]
      refine viewed_of_eq ?_
      rw [plainStep, processStep, Option.elim_some, RequestReply.step, unsent]
  | _ => exact viewed_of_nothing rfl

theorem step_view (sound : Sound s) (move : Move ρ ε ι κ) :
    Viewed v capacity s (step v capacity s move) move := by
  cases move with
  | client move => exact clientMove_view sound move
  | process move =>
      unfold step serviceMove
      dsimp only
      split
      · next p move alive => exact processMove_view sound alive _
      · next ended => exact launch_view ended _
      · next ended _ => exact gone_view ended _

end Views

end Restarts
