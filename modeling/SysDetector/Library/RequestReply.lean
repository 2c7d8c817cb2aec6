import SysDetector.Library.Runs

/-!
# Requests and replies over two queues

A client sends one request at a time over a bounded first-in first-out queue and takes the first
message of a second one for its reply. Neither carries an identifier. Tickets, which the parties do
not see, say which request a reply was sent for. `matched_of_answered`: every reply taken is the
one for the request at hand as long as each request is answered once and none is given up.
-/

namespace RequestReply
open Runs

/-- The serving party: how it handles a request, with the replies it sends, and what it does on its
own. -/
structure Peer (σ ρ ε ι α : Type) where
  handle : ε → ρ → σ → σ × List α
  act : ι → σ → σ

structure Exchange (α : Type) where
  request : Nat
  answered : Nat
  reply : α
deriving DecidableEq

structure State (σ ρ α : Type) where
  peer : σ
  sent : Nat
  waiting : Option Nat
  requests : List (Nat × ρ)
  unsent : List (Nat × α)
  replies : List (Nat × α)
  returned : List (Exchange α)

inductive Step (ρ ε ι : Type)
  | send (request : ρ)
  | take (env : ε)
  | emit
  | receive
  | timeout
  | fail
  | act (input : ι)

variable {σ ρ ε ι α : Type}

def State.start (peer : σ) : State σ ρ α where
  peer := peer
  sent := 0
  waiting := none
  requests := []
  unsent := []
  replies := []
  returned := []

def step (p : Peer σ ρ ε ι α) (capacity : Nat) (s : State σ ρ α) : Step ρ ε ι → State σ ρ α
  | .send request =>
      if s.waiting = none ∧ s.requests.length < capacity then
        { s with
          sent := s.sent + 1
          waiting := some s.sent
          requests := s.requests ++ [(s.sent, request)] }
      else s
  | .take env =>
      match s.requests, s.unsent with
      | (ticket, request) :: rest, [] =>
          { s with
            peer := (p.handle env request s.peer).1
            requests := rest
            unsent := (p.handle env request s.peer).2.map fun reply => (ticket, reply) }
      | _, _ => s
  | .emit =>
      match s.unsent with
      | reply :: rest =>
          if s.replies.length < capacity then
            { s with unsent := rest, replies := s.replies ++ [reply] }
          else s
      | [] => s
  | .receive =>
      match s.waiting, s.replies with
      | some request, (answered, reply) :: rest =>
          { s with
            waiting := none
            replies := rest
            returned := s.returned ++ [⟨request, answered, reply⟩] }
      | _, _ => s
  | .timeout => if s.replies = [] then { s with waiting := none } else s
  | .fail => { s with waiting := none }
  | .act input => { s with peer := p.act input s.peer }

/-- Every reply taken was sent for the request it was taken for, and no reply is left over when the
client is about to send. -/
structure Matched (s : State σ ρ α) : Prop where
  paired : ∀ exchange ∈ s.returned, exchange.answered = exchange.request
  drained : s.waiting = none → s.replies = []

def Answered (once : ε → ρ → σ → Prop) (s : State σ ρ α) : Step ρ ε ι → Prop
  | .take env => ∀ ticket request rest, s.requests = (ticket, request) :: rest →
      once env request s.peer
  | .timeout | .fail => False
  | _ => True

def inFlight (s : State σ ρ α) : List Nat :=
  s.replies.map Prod.fst ++ s.unsent.map Prod.fst ++ s.requests.map Prod.fst

structure Paired (s : State σ ρ α) : Prop where
  paired : ∀ exchange ∈ s.returned, exchange.answered = exchange.request
  flight : inFlight s = s.waiting.toList

theorem Paired.idle {s : State σ ρ α} (inv : Paired s) (idle : s.waiting = none) :
    s.replies = [] ∧ s.unsent = [] ∧ s.requests = [] := by
  have nothing := inv.flight
  rw [idle, inFlight] at nothing
  simp only [Option.toList_none, List.append_eq_nil_iff, List.map_eq_nil_iff] at nothing
  exact ⟨nothing.1.1, nothing.1.2, nothing.2⟩

theorem Paired.first_request {s : State σ ρ α} (inv : Paired s) {ticket : Nat} {request : ρ}
    {rest : List (Nat × ρ)} (requests : s.requests = (ticket, request) :: rest) :
    s.waiting = some ticket ∧ rest = [] := by
  have flight := inv.flight
  rw [inFlight, requests] at flight
  cases waiting : s.waiting with
  | none => simp [waiting] at flight
  | some asked =>
      rw [waiting, Option.toList_some, List.map_cons, List.append_eq_singleton_iff] at flight
      rcases flight with ⟨-, last⟩ | ⟨-, none⟩
      · simp only [List.cons.injEq, List.map_eq_nil_iff] at last
        exact ⟨by rw [last.1], last.2⟩
      · cases none

theorem Paired.first_reply {s : State σ ρ α} (inv : Paired s) {reply : Nat × α}
    {rest : List (Nat × α)} (replies : s.replies = reply :: rest) :
    s.waiting = some reply.1 ∧ rest = [] ∧ s.unsent = [] ∧ s.requests = [] := by
  have flight := inv.flight
  rw [inFlight, replies] at flight
  cases waiting : s.waiting with
  | none => simp [waiting] at flight
  | some asked =>
      rw [waiting, Option.toList_some, List.map_cons, List.cons_append, List.cons_append,
        List.cons.injEq, List.append_eq_nil_iff, List.append_eq_nil_iff] at flight
      obtain ⟨same, ⟨rest, unsent⟩, requests⟩ := flight
      exact ⟨by rw [same], List.map_eq_nil_iff.mp rest, List.map_eq_nil_iff.mp unsent,
        List.map_eq_nil_iff.mp requests⟩

theorem Paired.matched {s : State σ ρ α} (inv : Paired s) : Matched s where
  paired := inv.paired
  drained idle := (inv.idle idle).1

section Steps
variable {p : Peer σ ρ ε ι α} {capacity : Nat} {s : State σ ρ α}

theorem send_paired (request : ρ) (inv : Paired s) : Paired (step p capacity s (.send request)) := by
  unfold step
  dsimp only
  split
  · next allowed =>
      refine ⟨inv.paired, ?_⟩
      obtain ⟨replies, unsent, requests⟩ := inv.idle allowed.1
      simp [inFlight, replies, unsent, requests]
  · exact inv

theorem take_paired {env : ε} (inv : Paired s)
    (once : ∀ ticket request rest, s.requests = (ticket, request) :: rest →
      (p.handle env request s.peer).2.length = 1) :
    Paired (step p capacity s (.take env)) := by
  unfold step
  cases requests : s.requests with
  | nil => exact inv
  | cons first rest =>
      obtain ⟨ticket, request⟩ := first
      cases unsent : s.unsent with
      | cons reply others => exact inv
      | nil =>
          obtain ⟨reply, single⟩ := List.length_eq_one_iff.mp (once ticket request rest requests)
          refine ⟨inv.paired, ?_⟩
          have flight := inv.flight
          simp only [inFlight, requests, unsent] at flight
          simpa [inFlight, single] using flight

theorem emit_paired (inv : Paired s) : Paired (step p capacity s .emit) := by
  unfold step
  cases unsent : s.unsent with
  | nil => exact inv
  | cons reply rest =>
      dsimp only
      split
      · refine ⟨inv.paired, ?_⟩
        have flight := inv.flight
        simp only [inFlight, unsent] at flight
        simpa [inFlight] using flight
      · exact inv

theorem receive_paired (inv : Paired s) : Paired (step p capacity s .receive) := by
  unfold step
  cases waiting : s.waiting with
  | none => exact inv
  | some request =>
      cases replies : s.replies with
      | nil => exact inv
      | cons first rest =>
          obtain ⟨answered, reply⟩ := first
          have flight := inv.flight
          simp only [inFlight, waiting, replies, List.map_cons, List.cons_append,
            Option.toList_some, List.cons.injEq] at flight
          refine ⟨?_, by simpa [inFlight] using flight.2⟩
          intro exchange member
          rcases List.mem_append.mp member with old | new
          · exact inv.paired exchange old
          · rw [List.mem_singleton.mp new]
            exact flight.1

theorem step_paired {once : ε → ρ → σ → Prop}
    (single : ∀ env request peer, once env request peer →
      (p.handle env request peer).2.length = 1)
    {input : Step ρ ε ι} (inv : Paired s) (answered : Answered once s input) :
    Paired (step p capacity s input) := by
  cases input with
  | send request => exact send_paired request inv
  | take env =>
      exact take_paired inv fun ticket request rest first =>
        single env request s.peer (answered ticket request rest first)
  | emit => exact emit_paired inv
  | receive => exact receive_paired inv
  | timeout => exact answered.elim
  | fail => exact answered.elim
  | act input => exact ⟨inv.paired, inv.flight⟩

theorem matched_of_answered {once : ε → ρ → σ → Prop}
    (single : ∀ env request peer, once env request peer →
      (p.handle env request peer).2.length = 1)
    (peer : σ) {steps : List (Step ρ ε ι)}
    (answered : Guarded (step p capacity) (Answered once) (.start peer) steps) :
    Always (step p capacity) Matched (.start peer) steps := by
  have start : Paired (State.start peer : State σ ρ α) := by
    refine ⟨?_, rfl⟩
    intro exchange member
    cases member
  exact (always_of_guarded _ (fun s input inv allowed => step_paired single inv allowed) start
    answered).mono _ fun s inv => inv.matched

end Steps

end RequestReply
