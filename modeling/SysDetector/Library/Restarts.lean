import SysDetector.Library.RequestReply
import SysDetector.Library.NamedQueues

namespace Restarts
open NamedQueues RequestReply

structure Service (σ ρ ε ι κ α : Type) where
  peer : Peer σ ρ ε ι α
  revive : κ → σ → σ
  renews : Bool
  cleans : Bool

inductive Place
  | starting
  | testing
  | receiving
  | ended
deriving DecidableEq

structure Process (α : Type) where
  requests : Nat
  place : Place
  unsent : List (Nat × α)
  leaving : Bool

inductive Client (ρ : Type)
  | idle
  | opened (replies : Nat)
  | sending (replies requests : Nat) (request : ρ)
  | waiting (replies ticket : Nat)

namespace Client
variable {ρ : Type}

def replies : Client ρ → Option Nat
  | .idle => none
  | .opened r | .sending r _ _ | .waiting r _ => some r

def requests : Client ρ → Option Nat
  | .sending _ c _ => some c
  | .idle | .opened _ | .waiting _ _ => none

def ticket : Client ρ → Option Nat
  | .waiting _ ticket => some ticket
  | .idle | .opened _ | .sending _ _ _ => none

end Client

structure System (σ ρ α : Type) where
  peer : σ
  process : Option (Process α)
  client : Client ρ
  requests : Named (Nat × ρ)
  replies : Named (Nat × α)
  sent : Nat
  taken : List Nat
  returned : List (Exchange α)

inductive ClientMove (ρ : Type)
  | openReplies
  | openRequests (request : ρ)
  | send
  | receive
  | timeout
  | fail

inductive ProcessMove (ε ι κ : Type)
  | start (input : κ)
  | ready
  | test
  | take (env : ε)
  | emit
  | act (input : ι)
  | stop
  | cleanUp
  | kill

inductive Move (ρ ε ι κ : Type)
  | client (move : ClientMove ρ)
  | process (move : ProcessMove ε ι κ)

variable {σ ρ ε ι κ α : Type}

def System.start (peer : σ) : System σ ρ α where
  peer := peer
  process := none
  client := .idle
  requests := .empty
  replies := .empty
  sent := 0
  taken := []
  returned := []

def launch (v : Service σ ρ ε ι κ α) (input : κ) (s : System σ ρ α) : System σ ρ α :=
  let requests := if v.renews then s.requests.unlink else s.requests
  { s with
    peer := v.revive input s.peer
    process := some ⟨requests.create.1, .starting, [], false⟩
    requests := requests.create.2 }

def takeRequest (v : Service σ ρ ε ι κ α) (env : ε) (p : Process α) (s : System σ ρ α) :
    System σ ρ α :=
  match s.requests.contents p.requests with
  | (ticket, request) :: _ =>
      { s with
        peer := (v.peer.handle env request s.peer).1
        process := some { p with
          place := .testing
          unsent := (v.peer.handle env request s.peer).2.map fun reply => (ticket, reply) }
        requests := s.requests.drop p.requests
        taken := s.taken ++ [ticket] }
  | [] => { s with process := some { p with place := .testing } }

/-- A reply is lost if its queue has no name when the process wants to open it. -/
def emitReply (capacity : Nat) (p : Process α) (s : System σ ρ α) : System σ ρ α :=
  match p.unsent with
  | reply :: rest =>
      match s.replies.linked with
      | none => { s with process := some { p with unsent := rest } }
      | some r =>
          if (s.replies.contents r).length < capacity then
            { s with
              process := some { p with unsent := rest }
              replies := s.replies.put r reply }
          else s
  | [] => s

def processMove (v : Service σ ρ ε ι κ α) (capacity : Nat) (p : Process α) (s : System σ ρ α) :
    ProcessMove ε ι κ → System σ ρ α
  | .start _ => s
  | .ready => if p.place = .starting then { s with process := some { p with place := .testing } } else s
  | .test =>
      if p.place = .testing ∧ p.unsent = [] then
        { s with process := some { p with place := if p.leaving then .ended else .receiving } }
      else s
  | .take env => if p.place = .receiving then takeRequest v env p s else s
  | .emit => emitReply capacity p s
  | .act input => if p.place = .starting then s else { s with peer := v.peer.act input s.peer }
  | .stop =>
      if v.cleans then { s with process := some { p with leaving := true } }
      else { s with process := none }
  | .cleanUp =>
      if v.cleans ∧ (p.place = .starting ∨ p.place = .ended) then
        { s with process := none, requests := s.requests.unlink, replies := s.replies.unlink }
      else s
  | .kill => { s with process := none }

def clientMove (capacity : Nat) (s : System σ ρ α) : ClientMove ρ → System σ ρ α
  | .openReplies =>
      match s.client with
      | .idle => { s with client := .opened s.replies.create.1, replies := s.replies.create.2 }
      | _ => s
  | .openRequests request =>
      match s.client with
      | .opened r =>
          match s.requests.linked with
          | some c => { s with client := .sending r c request }
          | none => { s with client := .idle }
      | _ => s
  | .send =>
      match s.client with
      | .sending r c request =>
          if (s.requests.contents c).length < capacity then
            { s with
              client := .waiting r s.sent
              requests := s.requests.put c (s.sent, request)
              sent := s.sent + 1 }
          else s
      | _ => s
  | .receive =>
      match s.client with
      | .waiting r ticket =>
          match s.replies.contents r with
          | (answered, reply) :: _ =>
              { s with
                client := .idle
                replies := s.replies.drop r
                returned := s.returned ++ [⟨ticket, answered, reply⟩] }
          | [] => s
      | _ => s
  | .timeout =>
      match s.client with
      | .waiting r _ => if s.replies.contents r = [] then { s with client := .idle } else s
      | _ => s
  | .fail => { s with client := .idle }

def serviceMove (v : Service σ ρ ε ι κ α) (capacity : Nat) (s : System σ ρ α)
    (move : ProcessMove ε ι κ) : System σ ρ α :=
  match s.process, move with
  | some p, move => processMove v capacity p s move
  | none, .start input => launch v input s
  | none, _ => s

def step (v : Service σ ρ ε ι κ α) (capacity : Nat) (s : System σ ρ α) :
    Move ρ ε ι κ → System σ ρ α
  | .client move => clientMove capacity s move
  | .process move => serviceMove v capacity s move

/-! ## What the parties hold on to -/

def System.unsent (s : System σ ρ α) : List (Nat × α) := s.process.elim [] Process.unsent

structure Sound (s : System σ ρ α) : Prop where
  reader : ∀ p ∈ s.process, s.requests.linked = some p.requests
  listens : ∀ r ∈ s.client.replies, r < s.replies.queues.length ∧ ∀ i ∈ s.replies.linked, i = r
  sends : ∀ c ∈ s.client.requests, c < s.requests.queues.length ∧
    (s.requests.linked = some c ∨ s.requests.held s.requests.linked = [])
  settled : ∀ p ∈ s.process, p.place ≠ .testing → p.unsent = []

theorem start_sound (peer : σ) : Sound (System.start peer : System σ ρ α) where
  reader := by simp [System.start]
  listens := by simp [System.start, Client.replies]
  sends := by simp [System.start, Client.requests]
  settled := by simp [System.start]

section Steps
variable {v : Service σ ρ ε ι κ α} {capacity : Nat} {s : System σ ρ α}

theorem Sound.withClient (sound : Sound s) {client : Client ρ}
    (replies : ∀ r ∈ client.replies, r ∈ s.client.replies)
    (requests : ∀ c ∈ client.requests, s.requests.linked = some c) :
    Sound { s with client := client } where
  reader := sound.reader
  listens r member := sound.listens r (replies r member)
  sends c member := ⟨s.requests.valid c (requests c member), .inl (requests c member)⟩
  settled := sound.settled

theorem Sound.idle (sound : Sound s) : Sound { s with client := .idle } :=
  sound.withClient (by simp [Client.replies]) (by simp [Client.requests])

theorem openReplies_sound (sound : Sound s) :
    Sound { s with client := .opened s.replies.create.1, replies := s.replies.create.2 } where
  reader := sound.reader
  listens := by
    rintro r ⟨⟩
    refine ⟨s.replies.create_valid, ?_⟩
    intro i linked
    rw [Named.linked_create] at linked
    cases linked
    rfl
  sends := by simp [Client.requests]
  settled := sound.settled

theorem send_sound (sound : Sound s) {r c : Nat} {request : ρ}
    (client : s.client = .sending r c request) (entry : Nat × ρ) (sent : Nat) : Sound { s with
      client := .waiting r sent
      requests := s.requests.put c entry
      sent := s.sent + 1 } where
  reader := sound.reader
  listens q member := sound.listens q (by rwa [client])
  sends := by simp [Client.requests]
  settled := sound.settled

theorem receive_sound (sound : Sound s) (r : Nat) (returned : List (Exchange α)) :
    Sound { s with
      client := .idle
      replies := s.replies.drop r
      returned := returned } where
  reader := sound.reader
  listens := by simp [Client.replies]
  sends := by simp [Client.requests]
  settled := sound.settled

theorem clientMove_sound (sound : Sound s) (move : ClientMove ρ) :
    Sound (clientMove capacity s move) := by
  unfold clientMove
  split
  · split
    · exact openReplies_sound sound
    · exact sound
  · split
    · next r client =>
        split
        · next c linked =>
            refine sound.withClient ?_ ?_
            · rw [client]
              exact fun _ member => member
            · rintro _ ⟨⟩
              exact linked
        · exact sound.idle
    · exact sound
  · split
    · next r c request client =>
        split
        · exact send_sound sound client _ _
        · exact sound
    · exact sound
  · split
    · split
      · exact receive_sound sound _ _
      · exact sound
    · exact sound
  · split
    · split
      · exact sound.idle
      · exact sound
    · exact sound
  · exact sound.idle

theorem Sound.withProcess (sound : Sound s) {p p' : Process α} (alive : s.process = some p)
    (same : p'.requests = p.requests) (settled : p'.place ≠ .testing → p'.unsent = []) :
    Sound { s with process := some p' } where
  reader := by
    rintro _ ⟨⟩
    rw [same]
    exact sound.reader p alive
  listens := sound.listens
  sends := sound.sends
  settled := by
    rintro _ ⟨⟩
    exact settled

theorem Sound.ended (sound : Sound s) : Sound { s with process := none } where
  reader := by simp
  listens := sound.listens
  sends := sound.sends
  settled := by simp

theorem Sound.dropped (sound : Sound s) (c : Nat) :
    Sound { s with requests := s.requests.drop c } where
  reader := sound.reader
  listens := sound.listens
  sends d member := by
    obtain ⟨known, linked | empty⟩ := sound.sends d member
    · exact ⟨by rwa [Named.length_drop], .inl linked⟩
    · refine ⟨by rwa [Named.length_drop], .inr ?_⟩
      cases linked : s.requests.linked with
      | none => rw [Named.linked_drop, linked, Named.held_none]
      | some i =>
          rw [linked, Named.held_some] at empty
          rw [Named.linked_drop, linked, Named.held_some, Named.contents_drop, empty, List.tail_nil,
            ite_self]
  settled := sound.settled

theorem Sound.replied (sound : Sound s) (r : Nat) (reply : Nat × α) :
    Sound { s with replies := s.replies.put r reply } where
  reader := sound.reader
  listens q member := by
    obtain ⟨known, linked⟩ := sound.listens q member
    exact ⟨by rwa [Named.length_put], linked⟩
  sends := sound.sends
  settled := sound.settled

theorem takeRequest_sound (sound : Sound s) {p : Process α} (alive : s.process = some p) (env : ε) :
    Sound (takeRequest v env p s) := by
  unfold takeRequest
  split
  · next ticket request rest contents =>
      have dropped := sound.dropped p.requests
      refine ⟨?_, dropped.listens, dropped.sends, ?_⟩
      · rintro _ ⟨⟩
        exact dropped.reader p alive
      · rintro _ ⟨⟩ elsewhere
        exact absurd rfl elsewhere
  · exact sound.withProcess alive rfl (by simp)

theorem emitReply_sound (sound : Sound s) {p : Process α} (alive : s.process = some p) :
    Sound (emitReply capacity p s) := by
  have settled := sound.settled p alive
  unfold emitReply
  split
  · next reply rest unsent =>
      have testing : p.place = .testing := by
        by_contra elsewhere
        rw [settled elsewhere] at unsent
        cases unsent
      split
      · exact sound.withProcess alive rfl fun elsewhere => absurd testing elsewhere
      · next r linked =>
          split
          · have replied := sound.replied r reply
            refine ⟨?_, replied.listens, replied.sends, ?_⟩
            · rintro _ ⟨⟩
              exact replied.reader p alive
            · rintro _ ⟨⟩ elsewhere
              exact absurd testing elsewhere
          · exact sound
  · exact sound

theorem cleanUp_sound (sound : Sound s) : Sound { s with
    process := none
    requests := s.requests.unlink
    replies := s.replies.unlink } where
  reader := by simp
  listens r member := ⟨(sound.listens r member).1, by simp⟩
  sends c member := ⟨(sound.sends c member).1, .inr rfl⟩
  settled := by simp

theorem processMove_sound (sound : Sound s) {p : Process α} (alive : s.process = some p)
    (move : ProcessMove ε ι κ) : Sound (processMove v capacity p s move) := by
  have settled := sound.settled p alive
  unfold processMove
  split
  · exact sound
  · split
    · exact sound.withProcess alive rfl (by simp)
    · exact sound
  · split
    · next allowed => exact sound.withProcess alive rfl fun _ => allowed.2
    · exact sound
  · split
    · exact takeRequest_sound sound alive _
    · exact sound
  · exact emitReply_sound sound alive
  · split
    · exact sound
    · exact ⟨sound.reader, sound.listens, sound.sends, sound.settled⟩
  · split
    · exact sound.withProcess alive rfl settled
    · exact sound.ended
  · split
    · exact cleanUp_sound sound
    · exact sound
  · exact sound.ended

theorem launch_sound (sound : Sound s) (input : κ) : Sound (launch v input s) where
  reader := by
    rintro _ ⟨⟩
    exact Named.linked_create _
  listens := sound.listens
  sends c member := by
    obtain ⟨known, behind⟩ := sound.sends c member
    have fresh : ∀ q : Named (Nat × ρ), q.create.2.held q.create.2.linked = q.held q.linked := by
      intro q
      rw [Named.linked_create, Named.held_some, Named.contents_created]
    unfold launch
    dsimp only
    split
    · refine ⟨lt_of_lt_of_le known s.requests.unlink.length_create, .inr ?_⟩
      rw [fresh, Named.linked_unlink, Named.held_none]
    · refine ⟨lt_of_lt_of_le known s.requests.length_create, ?_⟩
      rcases behind with linked | empty
      · left
        rw [Named.create_linked _ linked]
        exact linked
      · right
        rw [fresh, empty]
  settled := by
    rintro _ ⟨⟩ -
    rfl

theorem step_sound (sound : Sound s) (move : Move ρ ε ι κ) : Sound (step v capacity s move) := by
  cases move with
  | client move => exact clientMove_sound sound move
  | process move =>
      unfold step serviceMove
      dsimp only
      split
      · next p move alive => exact processMove_sound sound alive _
      · exact launch_sound sound _
      · exact sound

end Steps

end Restarts
