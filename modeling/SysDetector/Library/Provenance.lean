import Mathlib.Data.List.Nodup
import SysDetector.Library.SharedOutput

/-!
# What replies and texts were made for

A ledger beside parties that share an output file: the requests by their tickets, and for each that
was taken what its handling answered and wrote. Every reply on its way, and every text that was
written to the file, is of the handling of the request with its ticket (`accounted_step`).
-/

namespace SharedOutput
open Runs RequestReply

structure Handling (ρ α β : Type) where
  ticket : Nat
  request : ρ
  replies : List α
  text : Option (List β)

variable {W β : Type}

structure Ledger (ρ α : W → Type) (β : Type) where
  asked : ∀ w, List (ρ w)
  handled : ∀ w, List (Handling (ρ w) (α w) β)

variable {σ ρ ε ι α : W → Type}

def Ledger.empty : Ledger ρ α β where
  asked _ := []
  handled _ := []

section Record
variable [DecidableEq W] (p : ∀ w, Party (σ w) (ρ w) (ε w) (ι w) (α w) β) (capacity : Nat)

def Ledger.ask (l : Ledger ρ α β) (w : W) (request : ρ w) : Ledger ρ α β :=
  { l with asked := Function.update l.asked w (l.asked w ++ [request]) }

def Ledger.handle (l : Ledger ρ α β) (w : W) (handling : Handling (ρ w) (α w) β) : Ledger ρ α β :=
  { l with handled := Function.update l.handled w (l.handled w ++ [handling]) }

def recordTake (s : SharedState σ ρ α β) (l : Ledger ρ α β) (w : W) (env : ε w) : Ledger ρ α β :=
  match (s.parties w).requests, (s.parties w).unsent with
  | (ticket, request) :: _, [] =>
      l.handle w ⟨ticket, request, ((p w).handle env request (s.parties w).peer).2,
        (p w).text env request (s.parties w).peer⟩
  | _, _ => l

def record (s : SharedState σ ρ α β) (l : Ledger ρ α β) : SharedStep ρ ε ι → Ledger ρ α β
  | .send w request =>
      match s.client with
      | .idle => if (s.parties w).requests.length < capacity then l.ask w request else l
      | _ => l
  | .take w env => if (s.output.pens w).isNone then recordTake p s l w env else l
  | _ => l

end Record

/-! ## One party -/

structure PartyAccounted {σ ρ α : Type} (asked : List ρ) (handled : List (Handling ρ α β))
    (party : State σ ρ α) : Prop where
  sent : party.sent = asked.length
  order : handled.map Handling.ticket ++ party.requests.map Prod.fst = List.range asked.length
  queued : ∀ ticket request, (ticket, request) ∈ party.requests → asked[ticket]? = some request
  taken : ∀ h ∈ handled, asked[h.ticket]? = some h.request
  replies : ∀ ticket reply, (ticket, reply) ∈ party.replies ++ party.unsent →
    ∃ h ∈ handled, h.ticket = ticket ∧ reply ∈ h.replies

section Party
variable {σ ρ ε ι α : Type} {p : Peer σ ρ ε ι α} {capacity : Nat} {asked : List ρ}
  {handled : List (Handling ρ α β)} {party : State σ ρ α}

theorem PartyAccounted.ask (accounted : PartyAccounted asked handled party) (request : ρ) :
    PartyAccounted (asked ++ [request]) handled
      { party with
        sent := party.sent + 1
        waiting := some party.sent
        requests := party.requests ++ [(party.sent, request)] } := by
  have kept : ∀ {ticket : Nat} {request' : ρ}, asked[ticket]? = some request' →
      (asked ++ [request])[ticket]? = some request' := by
    intro ticket request' found
    have inside := (List.getElem?_eq_some_iff.mp found).1
    rw [List.getElem?_append_left inside, found]
  refine ⟨?_, ?_, ?_, fun h member => kept (accounted.taken h member), accounted.replies⟩
  · rw [List.length_append, ← accounted.sent]
    rfl
  · dsimp only
    rw [List.map_append, ← List.append_assoc, accounted.order, accounted.sent, List.length_append]
    exact List.range_succ.symm
  · intro ticket request' member
    rcases List.mem_append.mp member with old | new
    · exact kept (accounted.queued ticket request' old)
    · rw [List.mem_singleton, Prod.mk.injEq] at new
      rw [new.1, new.2, accounted.sent, List.getElem?_concat_length]

theorem PartyAccounted.take (accounted : PartyAccounted asked handled party) {env : ε} {ticket : Nat}
    {request : ρ} {rest : List (Nat × ρ)} (requests : party.requests = (ticket, request) :: rest)
    (unsent : party.unsent = []) (text : Option (List β)) :
    PartyAccounted asked
      (handled ++ [⟨ticket, request, (p.handle env request party.peer).2, text⟩])
      (step p capacity party (.take env)) := by
  have first := accounted.queued ticket request (by rw [requests]; exact List.mem_cons_self)
  have taken : step p capacity party (.take env) =
      { party with
        peer := (p.handle env request party.peer).1
        requests := rest
        unsent := (p.handle env request party.peer).2.map fun reply => (ticket, reply) } := by
    simp only [step, requests, unsent]
  rw [taken]
  refine ⟨accounted.sent, ?_, ?_, ?_, ?_⟩
  · rw [← accounted.order, requests, List.map_append, List.append_assoc]
    rfl
  · intro ticket' request' member
    exact accounted.queued ticket' request' (by rw [requests]; exact List.mem_cons_of_mem _ member)
  · intro h member
    rcases List.mem_append.mp member with old | new
    · exact accounted.taken h old
    · rw [List.mem_singleton.mp new]
      exact first
  · intro ticket' reply member
    rcases List.mem_append.mp member with old | new
    · obtain ⟨h, inside, same⟩ := accounted.replies ticket' reply (List.mem_append_left _ old)
      exact ⟨h, List.mem_append_left _ inside, same⟩
    · obtain ⟨reply', made, same⟩ := List.mem_map.mp new
      rw [Prod.mk.injEq] at same
      obtain ⟨rfl, rfl⟩ := same
      exact ⟨_, List.mem_append_right _ (List.mem_singleton_self _), rfl, made⟩

theorem PartyAccounted.moves (accounted : PartyAccounted asked handled party) {party' : State σ ρ α}
    (sent : party'.sent = party.sent) (requests : party'.requests = party.requests)
    (replies : ∀ reply ∈ party'.replies ++ party'.unsent, reply ∈ party.replies ++ party.unsent) :
    PartyAccounted asked handled party' where
  sent := sent.trans accounted.sent
  order := by
    rw [requests]
    exact accounted.order
  queued := by
    rw [requests]
    exact accounted.queued
  taken := accounted.taken
  replies ticket reply member := accounted.replies ticket reply (replies _ member)

theorem PartyAccounted.distinct (accounted : PartyAccounted asked handled party) :
    (handled.map Handling.ticket).Nodup := by
  have all := List.nodup_range (n := asked.length)
  rw [← accounted.order] at all
  exact (List.nodup_append.mp all).1

theorem PartyAccounted.unique (accounted : PartyAccounted asked handled party)
    {h h' : Handling ρ α β} (member : h ∈ handled) (member' : h' ∈ handled)
    (same : h.ticket = h'.ticket) : h = h' :=
  List.inj_on_of_nodup_map accounted.distinct member member' same

theorem PartyAccounted.emit (accounted : PartyAccounted asked handled party) :
    PartyAccounted asked handled (step p capacity party .emit) := by
  unfold step
  cases unsent : party.unsent with
  | nil => exact accounted
  | cons reply rest =>
      dsimp only
      split
      · refine accounted.moves rfl rfl fun r member => ?_
        rw [unsent]
        simpa using member
      · exact accounted

theorem PartyAccounted.receive (accounted : PartyAccounted asked handled party) :
    PartyAccounted asked handled (step p capacity party .receive) := by
  unfold step
  dsimp only
  split
  · next request answered reply rest waiting replies =>
      refine accounted.moves rfl rfl fun r member => ?_
      rw [replies]
      exact List.mem_cons_of_mem _ member
  · exact accounted

theorem PartyAccounted.timeout (accounted : PartyAccounted asked handled party) :
    PartyAccounted asked handled (step p capacity party .timeout) := by
  unfold step
  dsimp only
  split
  · exact accounted.moves rfl rfl fun _ member => member
  · exact accounted

end Party

/-! ## All parties and the file -/

def PenAccounted {ρ α : Type} (handled : List (Handling ρ α β)) (held : Option (Pen β)) : Prop :=
  ∀ pen, held = some pen → ∃ h ∈ handled, h.ticket = pen.ticket ∧ h.text = some pen.text

structure OutputAccounted (l : Ledger ρ α β) (o : Output W β) : Prop where
  pens : ∀ w, PenAccounted (l.handled w) (o.pens w)
  written : ∀ body ∈ o.written, ∃ h ∈ l.handled body.party, h.ticket = body.ticket ∧
    ∃ text, h.text = some text ∧ body.text <+: text

structure Accounted (s : SharedState σ ρ α β) (l : Ledger ρ α β) : Prop where
  parties : ∀ w, PartyAccounted (l.asked w) (l.handled w) (s.parties w)
  output : OutputAccounted l s.output

section Output
variable [DecidableEq W] {l : Ledger ρ α β} {o : Output W β}

theorem OutputAccounted.write [Inhabited β] (accounted : OutputAccounted l o) (w : W) (n : Nat) :
    OutputAccounted l (o.write w n) := by
  unfold Output.write
  cases at_ : o.pens w with
  | none => exact accounted
  | some pen =>
      dsimp only
      split_ifs
      · exact accounted
      · refine ⟨?_, accounted.written⟩
        refine (Function.forall_update_iff _ fun w => PenAccounted (l.handled w)).mpr ⟨?_, ?_⟩
        · rintro pen' ⟨⟩
          exact accounted.pens w pen at_
        · exact fun w' _ => accounted.pens w'

theorem OutputAccounted.close (accounted : OutputAccounted l o) (w : W) :
    OutputAccounted l (o.close w) := by
  unfold Output.close
  cases at_ : o.pens w with
  | none => exact accounted
  | some pen =>
      constructor
      · refine (Function.forall_update_iff _ fun w => PenAccounted (l.handled w)).mpr ⟨?_, ?_⟩
        · intro pen' closed
          cases closed
        · exact fun w' _ => accounted.pens w'
      · intro body member
        rcases List.mem_append.mp member with old | new
        · exact accounted.written body old
        · obtain ⟨h, inside, ticket, text⟩ := accounted.pens w pen at_
          rw [List.mem_singleton.mp new]
          exact ⟨h, inside, ticket, pen.text, text, List.take_prefix _ _⟩

theorem handle_own (l : Ledger ρ α β) (w : W) (handling : Handling (ρ w) (α w) β) :
    (l.handle w handling).handled w = l.handled w ++ [handling] := Function.update_self _ _ _

theorem handle_other {w w' : W} (other : w' ≠ w) (handling : Handling (ρ w) (α w) β) :
    (l.handle w handling).handled w' = l.handled w' := Function.update_of_ne other _ _

theorem mem_handle {w w' : W} {handling : Handling (ρ w) (α w) β} {h : Handling (ρ w') (α w') β}
    (member : h ∈ l.handled w') : h ∈ (l.handle w handling).handled w' := by
  by_cases same : w' = w
  · subst same
    rw [handle_own]
    exact List.mem_append_left _ member
  · rw [handle_other same]
    exact member

theorem OutputAccounted.handle (accounted : OutputAccounted l o) (w : W)
    (handling : Handling (ρ w) (α w) β) : OutputAccounted (l.handle w handling) o where
  pens w' pen at_ := by
    obtain ⟨h, member, same⟩ := accounted.pens w' pen at_
    exact ⟨h, mem_handle member, same⟩
  written body member := by
    obtain ⟨h, inside, same⟩ := accounted.written body member
    exact ⟨h, mem_handle inside, same⟩

theorem OutputAccounted.openFile {w : W} {text : List β} (accounted : OutputAccounted l o)
    (handling : Handling (ρ w) (α w) β) (writes : handling.text = some text) :
    OutputAccounted (l.handle w handling) (o.openFile w handling.ticket text) := by
  obtain ⟨pens, written⟩ := accounted.handle w handling
  refine ⟨?_, written⟩
  refine (Function.forall_update_iff _ fun w' =>
    PenAccounted ((l.handle w handling).handled w')).mpr ⟨?_, ?_⟩
  · rintro pen ⟨⟩
    refine ⟨handling, ?_, rfl, writes⟩
    rw [handle_own]
    exact List.mem_append_right _ (List.mem_singleton_self _)
  · exact fun w' _ => pens w'

end Output

section Steps
variable [DecidableEq W] {p : ∀ w, Party (σ w) (ρ w) (ε w) (ι w) (α w) β} {capacity : Nat}
  {s : SharedState σ ρ α β} {l : Ledger ρ α β}

theorem Accounted.onParty (accounted : Accounted s l) {w : W} {input : Step (ρ w) (ε w) (ι w)}
    (own : PartyAccounted (l.asked w) (l.handled w)
      (RequestReply.step (p w).toPeer capacity (s.parties w) input)) :
    Accounted (SharedOutput.onParty p capacity s w input) l := by
  refine ⟨?_, accounted.output⟩
  exact (Function.forall_update_iff _ fun w party =>
    PartyAccounted (l.asked w) (l.handled w) party).mpr ⟨own, fun w' _ => accounted.parties w'⟩

theorem Accounted.send (accounted : Accounted s l) {w : W} (request : ρ w)
    (idle : (s.parties w).waiting = none) (room : (s.parties w).requests.length < capacity) :
    Accounted { SharedOutput.onParty p capacity s w (.send request) with
      client := .waiting w request } (l.ask w request) := by
  refine ⟨fun w' => ?_, ⟨accounted.output.pens, accounted.output.written⟩⟩
  unfold Ledger.ask SharedOutput.onParty
  dsimp only
  by_cases same : w' = w
  · subst same
    rw [Function.update_self, Function.update_self, RequestReply.step, if_pos ⟨idle, room⟩]
    exact (accounted.parties w').ask request
  · rw [Function.update_of_ne same, Function.update_of_ne same]
    exact accounted.parties w'

theorem Accounted.take (accounted : Accounted s l) (w : W) (env : ε w) :
    Accounted (takeRequest p capacity s w env) (recordTake p s l w env) := by
  unfold takeRequest recordTake
  cases requests : (s.parties w).requests with
  | nil => exact accounted
  | cons first rest =>
      obtain ⟨ticket, request⟩ := first
      cases unsent : (s.parties w).unsent with
      | cons reply others => exact accounted
      | nil =>
          let handling : Handling (ρ w) (α w) β := ⟨ticket, request,
            ((p w).handle env request (s.parties w).peer).2,
            (p w).text env request (s.parties w).peer⟩
          have parties : ∀ w', PartyAccounted ((l.handle w handling).asked w')
              ((l.handle w handling).handled w')
              ((SharedOutput.onParty p capacity s w (.take env)).parties w') := by
            intro w'
            unfold SharedOutput.onParty
            dsimp only
            by_cases same : w' = w
            · subst same
              rw [handle_own, Function.update_self]
              exact (accounted.parties w').take requests unsent _
            · rw [handle_other same, Function.update_of_ne same]
              exact accounted.parties w'
          dsimp only
          split
          · next text writes => exact ⟨parties, accounted.output.openFile handling writes⟩
          · exact ⟨parties, accounted.output.handle w handling⟩

variable [Inhabited β]

theorem accounted_step (accounted : Accounted s l) (input : SharedStep ρ ε ι)
    (idle : s.client = .idle → ∀ w, (s.parties w).waiting = none) :
    Accounted (sharedStep p capacity s input) (record p capacity s l input) := by
  cases input with
  | send w request =>
      unfold sharedStep record
      cases client : s.client with
      | idle =>
          dsimp only
          split_ifs with room
          · exact accounted.send request (idle client w) room
          · exact accounted
      | waiting w request => exact accounted
      | reading w ticket => exact accounted
  | take w env =>
      unfold sharedStep record
      dsimp only
      split_ifs
      · exact accounted.take w env
      · exact accounted
  | write w n => exact ⟨accounted.parties, accounted.output.write w n⟩
  | close w => exact ⟨accounted.parties, accounted.output.close w⟩
  | emit w =>
      unfold sharedStep
      dsimp only
      split
      · exact accounted.onParty (accounted.parties w).emit
      · exact accounted
  | receive =>
      unfold sharedStep receiveReply
      dsimp only
      split
      · next w request client =>
          split
          · have received : Accounted (onParty p capacity s w .receive) l :=
              accounted.onParty (accounted.parties w).receive
            exact ⟨received.parties, received.output⟩
          · exact accounted
      · exact accounted
  | read readable =>
      unfold sharedStep
      dsimp only
      split
      · exact ⟨accounted.parties, ⟨accounted.output.pens, accounted.output.written⟩⟩
      · exact accounted
  | timeout =>
      unfold sharedStep
      dsimp only
      split
      · next w request client =>
          split
          · have gone : Accounted (onParty p capacity s w .timeout) l :=
              accounted.onParty (accounted.parties w).timeout
            exact ⟨gone.parties, gone.output⟩
          · exact accounted
      · exact accounted
  | fail =>
      unfold sharedStep
      dsimp only
      split
      · next w request client =>
          have gone : PartyAccounted (l.asked w) (l.handled w)
              (RequestReply.step (p w).toPeer capacity (s.parties w) .fail) :=
            (accounted.parties w).moves rfl rfl fun _ member => member
          have failed := accounted.onParty gone
          exact ⟨failed.parties, failed.output⟩
      · exact accounted
  | act w input =>
      have acted : PartyAccounted (l.asked w) (l.handled w)
          (RequestReply.step (p w).toPeer capacity (s.parties w) (.act input)) :=
        (accounted.parties w).moves rfl rfl fun _ member => member
      exact accounted.onParty acted

end Steps

/-! ## Runs in which every request is answered in time -/

def Ledger.Grows (l l' : Ledger ρ α β) : Prop :=
  ∀ w, l.asked w <+: l'.asked w ∧ l.handled w ⊆ l'.handled w

theorem Ledger.Grows.refl (l : Ledger ρ α β) : l.Grows l :=
  fun _ => ⟨List.prefix_rfl, List.Subset.refl _⟩

structure Traceable (p : ∀ w, Party (σ w) (ρ w) (ε w) (ι w) (α w) β) (s : SharedState σ ρ α β)
    (l : Ledger ρ α β) : Prop where
  ready : Ready p s
  file : FileInvariant s.output
  accounted : Accounted s l
  single : ∀ w, ∀ h ∈ l.handled w, h.replies.length = 1
  made : ∀ w, ∀ h ∈ l.handled w, ∃ env peer,
    h.replies = ((p w).handle env h.request peer).2 ∧ h.text = (p w).text env h.request peer

section Traceable
variable {p : ∀ w, Party (σ w) (ρ w) (ε w) (ι w) (α w) β} {s : SharedState σ ρ α β}
  {l : Ledger ρ α β}

theorem Traceable.reply (traceable : Traceable p s l) {w : W} {ticket answered : Nat}
    {reply : α w} {rest : List (Nat × α w)} {request : ρ w}
    (waiting : (s.parties w).waiting = some ticket)
    (replies : (s.parties w).replies = (answered, reply) :: rest)
    (asked : (l.asked w)[ticket]? = some request) :
    ∃ h ∈ l.handled w, h.ticket = ticket ∧ h.request = request ∧ h.replies = [reply] := by
  obtain ⟨first, -⟩ := (traceable.ready.parties w).paired.first_reply replies
  obtain rfl : ticket = answered := Option.some.inj (waiting.symm.trans first)
  have party := traceable.accounted.parties w
  obtain ⟨h, member, same, made⟩ := party.replies ticket reply (by rw [replies]; simp)
  refine ⟨h, member, same, ?_, ?_⟩
  · have known := party.taken h member
    rw [same, asked, Option.some.injEq] at known
    exact known.symm
  · obtain ⟨only, single⟩ := List.length_eq_one_iff.mp (traceable.single w h member)
    rw [single, List.mem_singleton] at made
    rw [single, made]

theorem Traceable.text (traceable : Traceable p s l) {w : W} {h : Handling (ρ w) (α w) β}
    (member : h ∈ l.handled w) (client : s.client = .reading w h.ticket) :
    ∃ text, h.text = some text ∧ s.output.file <+: text := by
  obtain ⟨during, holds, closed⟩ := traceable.ready.whole w h.ticket client
  have written := (traceable.file.left w h.ticket during holds closed).2
  obtain ⟨h', member', same, text, wrote, part⟩ := traceable.accounted.output.written _ written
  obtain rfl := (traceable.accounted.parties w).unique member member' same.symm
  exact ⟨text, wrote, part⟩

def WrittenWhole (l : Ledger ρ α β) (o : Output W β) (w : W) : Prop :=
  ∀ ticket text, ⟨w, ticket, text⟩ ∈ o.written →
    ∃ h ∈ l.handled w, h.ticket = ticket ∧ h.text = some text

theorem WrittenWhole.grow {l' : Ledger ρ α β} {o : Output W β} {w : W}
    (whole : WrittenWhole l o w) (grows : l.Grows l') : WrittenWhole l' o w := by
  intro ticket text member
  obtain ⟨h, inside, same⟩ := whole ticket text member
  exact ⟨h, (grows w).2 inside, same⟩

theorem WrittenWhole.move [DecidableEq W] [Inhabited β] {w : W}
    {input : SharedStep ρ ε ι} {o : Output W β} (whole : WrittenWhole l s.output w)
    (accounted : OutputAccounted l s.output)
    (finished : input = .close w → ∀ pen, s.output.pens w = some pen → pen.text.length ≤ pen.done)
    (move : OutputMove s input o) : WrittenWhole l o w := by
  cases move with
  | quiet => exact whole
  | opens ticket text => exact whole
  | @writes w' n =>
      unfold WrittenWhole
      rw [(write_record s.output w' n).1]
      exact whole
  | @closes w' =>
      unfold Output.close
      cases at_ : s.output.pens w' with
      | none => exact whole
      | some pen =>
          intro ticket text member
          rcases List.mem_append.mp member with before | last
          · exact whole ticket text before
          · cases List.mem_singleton.mp last
            obtain ⟨h, inside, ticket, wrote⟩ := accounted.pens w pen at_
            refine ⟨h, inside, ticket, ?_⟩
            rw [wrote, List.take_of_length_le (finished rfl pen at_)]
  | reads client => exact whole

theorem Traceable.wholeText (traceable : Traceable p s l) {w : W}
    (whole : WrittenWhole l s.output w) {ticket : Nat} (client : s.client = .reading w ticket) :
    ∃ h ∈ l.handled w, h.ticket = ticket ∧ h.text = some s.output.file := by
  obtain ⟨during, holds, closed⟩ := traceable.ready.whole w ticket client
  exact whole ticket _ (traceable.file.left w ticket during holds closed).2

end Traceable

section Grows
variable [DecidableEq W] {p : ∀ w, Party (σ w) (ρ w) (ε w) (ι w) (α w) β} {capacity : Nat}
  {s : SharedState σ ρ α β} {l : Ledger ρ α β}

theorem ask_grows (l : Ledger ρ α β) (w : W) (request : ρ w) : l.Grows (l.ask w request) := by
  intro w'
  refine ⟨?_, List.Subset.refl _⟩
  unfold Ledger.ask
  by_cases same : w' = w
  · subst same
    dsimp only
    rw [Function.update_self]
    exact List.prefix_append _ _
  · dsimp only
    rw [Function.update_of_ne same]

theorem recordTake_grows (w : W) (env : ε w) : l.Grows (recordTake p s l w env) := by
  unfold recordTake
  split
  · exact fun w' => ⟨List.prefix_rfl, fun _ member => mem_handle member⟩
  · exact .refl l

theorem record_grows (input : SharedStep ρ ε ι) : l.Grows (record p capacity s l input) := by
  cases input with
  | send w request =>
      unfold record
      dsimp only
      split
      · split_ifs
        · exact ask_grows l w request
        · exact .refl l
      · exact .refl l
  | take w env =>
      unfold record
      dsimp only
      split_ifs
      · exact recordTake_grows w env
      · exact .refl l
  | _ => exact .refl l

theorem record_handled {P : ∀ w, Handling (ρ w) (α w) β → Prop} (input : SharedStep ρ ε ι)
    (old : ∀ w, ∀ h ∈ l.handled w, P w h)
    (new : ∀ w env ticket request rest, input = .take w env →
      (s.parties w).requests = (ticket, request) :: rest →
        P w ⟨ticket, request, ((p w).handle env request (s.parties w).peer).2,
          (p w).text env request (s.parties w).peer⟩) :
    ∀ w, ∀ h ∈ (record p capacity s l input).handled w, P w h := by
  cases input with
  | send w request =>
      unfold record
      dsimp only
      split
      · split_ifs <;> exact old
      · exact old
  | take w env =>
      unfold record recordTake
      dsimp only
      split_ifs
      · split
        · next ticket request rest requests unsent =>
            intro w' h member
            by_cases same : w' = w
            · subst same
              rw [handle_own] at member
              rcases List.mem_append.mp member with before | last
              · exact old w' h before
              · rw [List.mem_singleton.mp last]
                exact new w' env ticket request rest rfl requests
            · rw [handle_other same] at member
              exact old w' h member
        · exact old
      · exact old
  | _ => exact old

variable [Inhabited β]

theorem Traceable.step (traceable : Traceable p s l) {input : SharedStep ρ ε ι}
    (prompt : Prompt p s input) :
    Traceable p (sharedStep p capacity s input) (record p capacity s l input) where
  ready := sharedStep_ready traceable.ready prompt
  file := file_move traceable.file (output_move p capacity s input)
  accounted := by
    refine accounted_step traceable.accounted input fun idle w => ?_
    by_contra waits
    obtain ⟨request, client⟩ := (traceable.ready.parties w).waits waits
    rw [idle] at client
    cases client
  single := by
    refine record_handled input traceable.single ?_
    rintro w env ticket request rest rfl requests
    exact (prompt ticket request rest requests).1
  made := record_handled input traceable.made fun w env ticket request rest _ _ => ⟨env, _, rfl, rfl⟩

end Grows

theorem traceable_start (p : ∀ w, Party (σ w) (ρ w) (ε w) (ι w) (α w) β) (peers : ∀ w, σ w)
    (file : List β) : Traceable p (.start peers file) .empty := by
  have unopened : ∀ w ticket during, ¬ Holds w ticket (Output.start file : Output W β).ops during := by
    rintro w ticket during ⟨⟨before, opened⟩, -⟩
    simp [Output.start] at opened
  refine ⟨⟨fun w => ⟨⟨?_, rfl⟩, ?_, ?_, ?_⟩, ?_⟩, ⟨?_, ?_⟩, ⟨fun w => ⟨rfl, rfl, ?_, ?_, ?_⟩, ?_, ?_⟩,
    ?_, ?_⟩
  · intro exchange member
    cases member
  · intro waiting
    exact absurd rfl waiting
  · intro pen at_
    cases at_
  · intro request ticket client
    cases client
  · intro w ticket client
    cases client
  · exact fun w ticket during holds => absurd holds (unopened w ticket during)
  · exact fun w ticket during holds => absurd holds (unopened w ticket during)
  · intro ticket request member
    cases member
  · intro h member
    cases member
  · intro ticket reply member
    cases member
  · intro w pen at_
    cases at_
  · intro body member
    cases member
  · intro w h member
    cases member
  · intro w h member
    cases member

end SharedOutput
