import Mathlib.Logic.Function.Basic
import SysDetector.Library.RequestReply
import SysDetector.Library.Traces

/-!
# Replies with an output file

Several parties that answer requests over their own queues, for one client, and leave what is too
long for a reply in one file that they share. A party truncates the file when it opens it, writes
from the start on and closes it before it replies; the client reads the file after the reply.
`bodies_own_of_guarded`: what the client reads is what was written for its request, as long as
nobody else touches the file between the opening and the reading.
-/

namespace SharedOutput
open Runs Traces RequestReply

/-! ## The file -/

structure Pen (β : Type) where
  ticket : Nat
  text : List β
  done : Nat

inductive FileOp (W : Type)
  | opened (w : W) (ticket : Nat)
  | wrote (w : W) (ticket : Nat)
  | closed (w : W) (ticket : Nat)
deriving DecidableEq

structure Body (W β : Type) where
  party : W
  ticket : Nat
  text : List β
deriving DecidableEq

structure Output (W β : Type) where
  file : List β
  pens : W → Option (Pen β)
  ops : List (FileOp W)
  written : List (Body W β)
  bodies : List (Body W β)

variable {W β : Type}

/-- What is written past the end of the file leaves a hole. -/
def writeAt [Inhabited β] (offset : Nat) (chunk file : List β) : List β :=
  file.take offset ++ List.replicate (offset - file.length) default ++ chunk ++
    file.drop (offset + chunk.length)

namespace Output

def start (file : List β) : Output W β where
  file := file
  pens _ := none
  ops := []
  written := []
  bodies := []

def openFile [DecidableEq W] (o : Output W β) (w : W) (ticket : Nat) (text : List β) :
    Output W β :=
  { o with
    file := []
    pens := Function.update o.pens w (some ⟨ticket, text, 0⟩)
    ops := o.ops ++ [.opened w ticket] }

def write [DecidableEq W] [Inhabited β] (o : Output W β) (w : W) (n : Nat) : Output W β :=
  match o.pens w with
  | none => o
  | some pen =>
      let chunk := (pen.text.drop pen.done).take n
      if chunk = [] then o
      else
        { o with
          file := writeAt pen.done chunk o.file
          pens := Function.update o.pens w (some { pen with done := pen.done + chunk.length })
          ops := o.ops ++ [.wrote w pen.ticket] }

def close [DecidableEq W] (o : Output W β) (w : W) : Output W β :=
  match o.pens w with
  | none => o
  | some pen =>
      { o with
        pens := Function.update o.pens w none
        ops := o.ops ++ [.closed w pen.ticket]
        written := o.written ++ [⟨w, pen.ticket, pen.text.take pen.done⟩] }

def read (o : Output W β) (w : W) (ticket : Nat) (readable : Bool) : Output W β :=
  { o with bodies := o.bodies ++ [⟨w, ticket, if readable then o.file else []⟩] }

def BodiesOwn (o : Output W β) : Prop := ∀ body ∈ o.bodies, body.text = [] ∨ body ∈ o.written

end Output

/-! ## The parties and the client -/

/-- `text` is what the handling of a request writes, unless it does not open the file, and `fetches`
says after which requests the client reads the file. -/
structure Party (σ ρ ε ι α β : Type) extends Peer σ ρ ε ι α where
  text : ε → ρ → σ → Option (List β)
  fetches : ρ → Bool

inductive Client (ρ : W → Type)
  | idle
  | waiting (w : W) (request : ρ w)
  | reading (w : W) (ticket : Nat)

variable {σ ρ ε ι α : W → Type}

structure SharedState (σ ρ α : W → Type) (β : Type) where
  parties : ∀ w, State (σ w) (ρ w) (α w)
  client : Client ρ
  output : Output W β

def SharedState.start (peers : ∀ w, σ w) (file : List β) : SharedState σ ρ α β where
  parties w := .start (peers w)
  client := .idle
  output := .start file

inductive SharedStep (ρ ε ι : W → Type)
  | send (w : W) (request : ρ w)
  | take (w : W) (env : ε w)
  | write (w : W) (n : Nat)
  | close (w : W)
  | emit (w : W)
  | receive
  | read (readable : Bool)
  | timeout
  | fail
  | act (w : W) (input : ι w)

section Machine
variable [DecidableEq W]
variable (p : ∀ w, Party (σ w) (ρ w) (ε w) (ι w) (α w) β) (capacity : Nat)

def onParty (s : SharedState σ ρ α β) (w : W) (input : Step (ρ w) (ε w) (ι w)) :
    SharedState σ ρ α β :=
  { s with
    parties := Function.update s.parties w
      (RequestReply.step (p w).toPeer capacity (s.parties w) input) }

def takeRequest (s : SharedState σ ρ α β) (w : W) (env : ε w) : SharedState σ ρ α β :=
  match (s.parties w).requests, (s.parties w).unsent with
  | (ticket, request) :: _, [] =>
      let s' := onParty p capacity s w (.take env)
      match (p w).text env request (s.parties w).peer with
      | some text => { s' with output := s'.output.openFile w ticket text }
      | none => s'
  | _, _ => s

def receiveReply (s : SharedState σ ρ α β) : SharedState σ ρ α β :=
  match s.client with
  | .waiting w request =>
      match (s.parties w).waiting, (s.parties w).replies with
      | some ticket, _ :: _ =>
          { onParty p capacity s w .receive with
            client := if (p w).fetches request then .reading w ticket else .idle }
      | _, _ => s
  | _ => s

def sharedStep [Inhabited β] (s : SharedState σ ρ α β) : SharedStep ρ ε ι → SharedState σ ρ α β
  | .send w request =>
      match s.client with
      | .idle =>
          if (s.parties w).requests.length < capacity then
            { onParty p capacity s w (.send request) with client := .waiting w request }
          else s
      | _ => s
  | .take w env => if (s.output.pens w).isNone then takeRequest p capacity s w env else s
  | .write w n => { s with output := s.output.write w n }
  | .close w => { s with output := s.output.close w }
  | .emit w => if (s.output.pens w).isNone then onParty p capacity s w .emit else s
  | .receive => receiveReply p capacity s
  | .read readable =>
      match s.client with
      | .reading w ticket =>
          { s with client := .idle, output := s.output.read w ticket readable }
      | _ => s
  | .timeout =>
      match s.client with
      | .waiting w _ =>
          if (s.parties w).replies = [] then
            { onParty p capacity s w .timeout with client := .idle }
          else s
      | _ => s
  | .fail =>
      match s.client with
      | .waiting w _ => { onParty p capacity s w .fail with client := .idle }
      | _ => s
  | .act w input => onParty p capacity s w (.act input)

end Machine

/-! ## The file between an opening and a reading -/

def Holds (w : W) (ticket : Nat) (ops during : List (FileOp W)) : Prop :=
  (∃ before, ops = before ++ .opened w ticket :: during) ∧
    ∀ op ∈ during, op = .wrote w ticket ∨ op = .closed w ticket

def LeftWhole (w : W) (ticket : Nat) (ops : List (FileOp W)) : Prop :=
  ∃ during, Holds w ticket ops during ∧ .closed w ticket ∈ during

def ReadsOwn (s : SharedState σ ρ α β) : SharedStep ρ ε ι → Prop
  | .read true => ∀ w ticket, s.client = .reading w ticket →
      s.output.file = [] ∨ LeftWhole w ticket s.output.ops
  | _ => True

theorem holds_concat {w : W} {ticket : Nat} {ops during : List (FileOp W)} {op : FileOp W} :
    Holds w ticket (ops ++ [op]) during ↔ (op = .opened w ticket ∧ during = []) ∨
      ∃ earlier, Holds w ticket ops earlier ∧ during = earlier ++ [op] ∧
        (op = .wrote w ticket ∨ op = .closed w ticket) := by
  constructor
  · rintro ⟨⟨before, split⟩, own⟩
    rcases split_concat split with ⟨-, opened, rfl⟩ | ⟨earlier, split', rfl⟩
    · exact .inl ⟨opened, rfl⟩
    · refine .inr ⟨earlier, ⟨⟨before, split'⟩, fun op' member => ?_⟩, rfl, own op (by simp)⟩
      exact own op' (List.mem_append_left _ member)
  · rintro (⟨rfl, rfl⟩ | ⟨earlier, ⟨⟨before, rfl⟩, own⟩, rfl, last⟩)
    · exact ⟨⟨ops, rfl⟩, by simp⟩
    · refine ⟨⟨before, by simp⟩, fun op' member => ?_⟩
      rcases List.mem_append.mp member with inside | new
      · exact own op' inside
      · rw [List.mem_singleton.mp new]
        exact last

theorem writeAt_end [Inhabited β] {chunk file : List β} :
    writeAt file.length chunk file = file ++ chunk := by
  rw [writeAt, List.take_length, Nat.sub_self, List.replicate_zero, List.append_nil,
    List.drop_eq_nil_of_le (Nat.le_add_right _ _), List.append_nil]

theorem writeAt_chunk [Inhabited β] {text file : List β} {done : Nat}
    (inside : done ≤ text.length) (shown : file = text.take done) (n : Nat) :
    writeAt done ((text.drop done).take n) file =
      text.take (done + ((text.drop done).take n).length) := by
  have length : done = file.length := by rw [shown, List.length_take, min_eq_left inside]
  have cut := List.prefix_iff_eq_take.mp (List.take_prefix n (text.drop done))
  rw [List.take_add, ← cut, ← shown]
  nth_rewrite 1 [length]
  exact writeAt_end

structure FileInvariant (o : Output W β) : Prop where
  left : ∀ w ticket during, Holds w ticket o.ops during → .closed w ticket ∈ during →
    o.pens w = none ∧ ⟨w, ticket, o.file⟩ ∈ o.written
  held : ∀ w ticket during, Holds w ticket o.ops during → .closed w ticket ∉ during →
    ∃ pen, o.pens w = some pen ∧ pen.ticket = ticket ∧ pen.done ≤ pen.text.length ∧
      o.file = pen.text.take pen.done

section Invariant
variable [DecidableEq W] {o : Output W β}

theorem openFile_invariant (o : Output W β) (w : W) (ticket : Nat) (text : List β) :
    FileInvariant (o.openFile w ticket text) := by
  constructor
  · intro w' ticket' during holds closed
    rcases holds_concat.mp holds with ⟨-, rfl⟩ | ⟨earlier, -, -, other | other⟩
    · cases closed
    · cases other
    · cases other
  · intro w' ticket' during holds closed
    rcases holds_concat.mp holds with ⟨opened, rfl⟩ | ⟨earlier, -, -, other | other⟩
    · cases opened
      exact ⟨⟨ticket, text, 0⟩, Function.update_self _ _ _, rfl, Nat.zero_le _, rfl⟩
    · cases other
    · cases other

theorem write_invariant [Inhabited β] (inv : FileInvariant o) (w : W) (n : Nat) :
    FileInvariant (o.write w n) := by
  unfold Output.write
  cases at_ : o.pens w with
  | none => exact inv
  | some pen =>
      dsimp only
      split_ifs with empty
      · exact inv
      · constructor
        · intro w' ticket during holds closed
          rcases holds_concat.mp holds with ⟨other, -⟩ | ⟨earlier, holds', rfl, wrote | other⟩
          · cases other
          · cases wrote
            have before : .closed w pen.ticket ∈ earlier := by simpa using closed
            have away := (inv.left _ _ _ holds' before).1
            rw [at_] at away
            cases away
          · cases other
        · intro w' ticket during holds closed
          rcases holds_concat.mp holds with ⟨other, -⟩ | ⟨earlier, holds', rfl, wrote | other⟩
          · cases other
          · cases wrote
            have before : .closed w pen.ticket ∉ earlier := by simpa using closed
            obtain ⟨pen', at', -, inside, shown⟩ := inv.held _ _ _ holds' before
            rw [at_, Option.some.injEq] at at'
            subst at'
            refine ⟨_, Function.update_self _ _ _, rfl, ?_, ?_⟩
            · simp only [List.length_take, List.length_drop]
              omega
            · exact writeAt_chunk inside shown n
          · cases other

theorem close_invariant (inv : FileInvariant o) (w : W) : FileInvariant (o.close w) := by
  unfold Output.close
  cases at_ : o.pens w with
  | none => exact inv
  | some pen =>
      constructor
      · intro w' ticket during holds closed
        rcases holds_concat.mp holds with ⟨other, -⟩ | ⟨earlier, holds', rfl, other | last⟩
        · cases other
        · cases other
        · cases last
          refine ⟨Function.update_self _ _ _, ?_⟩
          by_cases before : .closed w pen.ticket ∈ earlier
          · have away := (inv.left _ _ _ holds' before).1
            rw [at_] at away
            cases away
          · obtain ⟨pen', at', -, -, shown⟩ := inv.held _ _ _ holds' before
            rw [at_, Option.some.injEq] at at'
            subst at'
            dsimp only
            rw [shown]
            exact List.mem_append_right _ (List.mem_singleton_self _)
      · intro w' ticket during holds closed
        rcases holds_concat.mp holds with ⟨other, -⟩ | ⟨earlier, holds', rfl, other | last⟩
        · cases other
        · cases other
        · cases last
          simp at closed

theorem write_record [Inhabited β] (o : Output W β) (w : W) (n : Nat) :
    (o.write w n).written = o.written ∧ (o.write w n).bodies = o.bodies := by
  unfold Output.write
  split
  · exact ⟨rfl, rfl⟩
  · dsimp only
    split_ifs <;> exact ⟨rfl, rfl⟩

theorem close_record (o : Output W β) (w : W) :
    o.written ⊆ (o.close w).written ∧ (o.close w).bodies = o.bodies := by
  unfold Output.close
  split
  · exact ⟨fun body member => member, rfl⟩
  · exact ⟨List.subset_append_left _ _, rfl⟩

end Invariant

/-! ## Runs -/

section Runs
variable [DecidableEq W] [Inhabited β] {p : ∀ w, Party (σ w) (ρ w) (ε w) (ι w) (α w) β}
  {capacity : Nat}

inductive OutputMove (s : SharedState σ ρ α β) : SharedStep ρ ε ι → Output W β → Prop
  | quiet {input} : OutputMove s input s.output
  | opens {w env} (ticket : Nat) (text : List β) :
      OutputMove s (.take w env) (s.output.openFile w ticket text)
  | writes {w n} : OutputMove s (.write w n) (s.output.write w n)
  | closes {w} : OutputMove s (.close w) (s.output.close w)
  | reads {w ticket readable} (client : s.client = .reading w ticket) :
      OutputMove s (.read readable) (s.output.read w ticket readable)

variable (p capacity) in
theorem output_move (s : SharedState σ ρ α β) (input : SharedStep ρ ε ι) :
    OutputMove s input (sharedStep p capacity s input).output := by
  cases input with
  | send w request =>
      rw [sharedStep]
      split
      · split_ifs <;> exact .quiet
      · exact .quiet
  | take w env =>
      rw [sharedStep, takeRequest]
      split_ifs
      · split
        · dsimp only
          split
          · exact .opens _ _
          · exact .quiet
        · exact .quiet
      · exact .quiet
  | write w n => exact .writes
  | close w => exact .closes
  | emit w =>
      rw [sharedStep]
      split_ifs <;> exact .quiet
  | receive =>
      rw [sharedStep, receiveReply]
      split
      · split <;> exact .quiet
      · exact .quiet
  | read readable =>
      rw [sharedStep]
      split
      · next client => exact .reads client
      · exact .quiet
  | timeout =>
      rw [sharedStep]
      split
      · split_ifs <;> exact .quiet
      · exact .quiet
  | fail =>
      rw [sharedStep]
      split <;> exact .quiet
  | act w input => exact .quiet

theorem file_move {s : SharedState σ ρ α β} {input : SharedStep ρ ε ι} {o : Output W β}
    (inv : FileInvariant s.output) (move : OutputMove s input o) : FileInvariant o := by
  cases move with
  | quiet => exact inv
  | opens ticket text => exact openFile_invariant _ _ _ _
  | writes => exact write_invariant inv _ _
  | closes => exact close_invariant inv _
  | reads client => exact ⟨inv.left, inv.held⟩

theorem bodiesOwn_move {s : SharedState σ ρ α β} {input : SharedStep ρ ε ι} {o : Output W β}
    (inv : FileInvariant s.output) (own : s.output.BodiesOwn) (reads : ReadsOwn s input)
    (move : OutputMove s input o) : o.BodiesOwn := by
  cases move with
  | quiet => exact own
  | opens ticket text => exact own
  | @writes w n =>
      obtain ⟨written, bodies⟩ := write_record s.output w n
      rwa [Output.BodiesOwn, written, bodies]
  | @closes w =>
      obtain ⟨written, bodies⟩ := close_record s.output w
      intro body member
      rw [bodies] at member
      exact (own body member).imp id fun before => written before
  | @reads w ticket readable client =>
      intro body member
      rcases List.mem_append.mp member with before | new
      · exact own body before
      · rw [List.mem_singleton.mp new]
        cases readable with
        | false => exact .inl rfl
        | true =>
            refine (reads w ticket client).imp id fun ⟨during, holds, closed⟩ => ?_
            exact (inv.left w ticket during holds closed).2

theorem bodies_own_of_guarded (peers : ∀ w, σ w) (file : List β)
    {steps : List (SharedStep ρ ε ι)}
    (reads : Guarded (sharedStep p capacity) ReadsOwn (.start peers file) steps) :
    Always (sharedStep p capacity) (fun s => s.output.BodiesOwn) (.start peers file) steps := by
  refine (always_of_guarded (sharedStep p capacity)
    (J := fun s => FileInvariant s.output ∧ s.output.BodiesOwn) ?_ ?_ reads).mono _
      fun s inv => inv.2
  · rintro s input ⟨inv, own⟩ reads
    have move := output_move p capacity s input
    exact ⟨file_move inv move, bodiesOwn_move inv own reads move⟩
  · refine ⟨⟨?_, ?_⟩, fun body member => by cases member⟩
    all_goals
      rintro w ticket during ⟨⟨before, opened⟩, -⟩
      simp [SharedState.start, Output.start] at opened

end Runs

/-! ## Runs in which every request is answered in time -/

section Prompt
variable {p : ∀ w, Party (σ w) (ρ w) (ε w) (ι w) (α w) β} {s : SharedState σ ρ α β} {w : W}

variable (p) in
def Prompt (s : SharedState σ ρ α β) : SharedStep ρ ε ι → Prop
  | .take w env => ∀ ticket request rest, (s.parties w).requests = (ticket, request) :: rest →
      ((p w).handle env request (s.parties w).peer).2.length = 1 ∧
        ((p w).fetches request = true → (p w).text env request (s.parties w).peer ≠ none)
  | .timeout | .fail => False
  | _ => True

variable (p) in
structure PartyReady (client : Client ρ) (o : Output W β) (w : W)
    (party : State (σ w) (ρ w) (α w)) : Prop where
  paired : Paired party
  waits : party.waiting ≠ none → ∃ request, client = .waiting w request
  pen : ∀ pen, o.pens w = some pen → party.waiting = some pen.ticket ∧ party.unsent ≠ []
  asked : ∀ request ticket, client = .waiting w request → (p w).fetches request = true →
    party.waiting = some ticket → party.requests = [(ticket, request)] ∨
      party.requests = [] ∧ ∃ during, Holds w ticket o.ops during ∧
        (o.pens w = none → .closed w ticket ∈ during)

variable (p) in
structure Ready (s : SharedState σ ρ α β) : Prop where
  parties : ∀ w, PartyReady p s.client s.output w (s.parties w)
  whole : ∀ w ticket, s.client = .reading w ticket → LeftWhole w ticket s.output.ops

theorem PartyReady.idle {client client' : Client ρ} {o o' : Output W β}
    {party : State (σ w) (ρ w) (α w)} (ready : PartyReady p client o w party)
    (idle : party.waiting = none) (pens : o'.pens w = o.pens w) :
    PartyReady p client' o' w party where
  paired := ready.paired
  waits waiting := absurd idle waiting
  pen pen at_ := by
    rw [pens] at at_
    exact absurd (ready.pen pen at_).1 (by simp [idle])
  asked request ticket _ _ waiting := by
    rw [idle] at waiting
    cases waiting

theorem PartyReady.noPen {client : Client ρ} {o : Output W β} {party : State (σ w) (ρ w) (α w)}
    (ready : PartyReady p client o w party) (unsent : party.unsent = []) : o.pens w = none := by
  cases at_ : o.pens w with
  | none => rfl
  | some pen => exact absurd unsent (ready.pen pen at_).2

theorem Ready.others (ready : Ready p s) {request : ρ w} (client : s.client = .waiting w request)
    {w' : W} (other : w' ≠ w) : (s.parties w').waiting = none := by
  by_contra waiting
  obtain ⟨request', client'⟩ := (ready.parties w').waits waiting
  rw [client, Client.waiting.injEq] at client'
  exact other client'.1.symm

structure Taken (ticket : Nat) (party : State (σ w) (ρ w) (α w)) : Prop where
  paired : Paired party
  waiting : party.waiting = some ticket
  requests : party.requests = []
  unsent : party.unsent ≠ []

theorem PartyReady.take {client : Client ρ} {o : Output W β} {party : State (σ w) (ρ w) (α w)}
    (own : PartyReady p client o w party) (capacity : Nat) {env : ε w} {request : ρ w} {ticket : Nat}
    {rest : List (Nat × ρ w)} (requests : party.requests = (ticket, request) :: rest)
    (unsent : party.unsent = []) (single : ((p w).handle env request party.peer).2.length = 1) :
    Taken ticket (RequestReply.step (p w).toPeer capacity party (.take env)) := by
  obtain ⟨waiting, rfl⟩ := own.paired.first_request requests
  have taken : RequestReply.step (p w).toPeer capacity party (.take env) =
      { party with
        peer := ((p w).handle env request party.peer).1
        requests := []
        unsent := ((p w).handle env request party.peer).2.map fun reply => (ticket, reply) } := by
    simp only [RequestReply.step, requests, unsent]
  have replies : ((p w).handle env request party.peer).2 ≠ [] := by
    intro none
    rw [none] at single
    cases single
  constructor
  · refine take_paired own.paired fun ticket' request' rest same => ?_
    rw [requests] at same
    cases same
    exact single
  · rw [taken]
    exact waiting
  · rw [taken]
  · rw [taken]
    exact mt List.map_eq_nil_iff.mp replies

theorem Taken.unopened {ticket : Nat} {party : State (σ w) (ρ w) (α w)} (taken : Taken ticket party)
    {client : Client ρ} {request : ρ w} (asking : client = .waiting w request) {o : Output W β}
    (noPen : o.pens w = none) (ignored : (p w).fetches request ≠ true) :
    PartyReady p client o w party where
  paired := taken.paired
  waits _ := ⟨request, asking⟩
  pen pen at_ := by cases noPen.symm.trans at_
  asked request' ticket' client' fetches _ := by
    rw [asking] at client'
    cases client'
    exact absurd fetches ignored

variable [DecidableEq W]

theorem ready_update {client : Client ρ} {o : Output W β} (party : State (σ w) (ρ w) (α w))
    (own : PartyReady p client o w party)
    (others : ∀ w', w' ≠ w → PartyReady p client o w' (s.parties w'))
    (whole : ∀ w ticket, client = .reading w ticket → LeftWhole w ticket o.ops) :
    Ready p ⟨Function.update s.parties w party, client, o⟩ :=
  ⟨(Function.forall_update_iff _ fun w' party => PartyReady p client o w' party).mpr
    ⟨own, others⟩, whole⟩

theorem pen_ready (ready : Ready p s) {pen : Pen β} (at_ : s.output.pens w = some pen)
    {o : Output W β} {next : Option (Pen β)} {op : FileOp W}
    (pens : o.pens = Function.update s.output.pens w next)
    (same : ∀ pen', next = some pen' → pen'.ticket = pen.ticket)
    (ops : o.ops = s.output.ops ++ [op])
    (own : op = .wrote w pen.ticket ∨ op = .closed w pen.ticket)
    (closed : next = none → op = .closed w pen.ticket) : Ready p { s with output := o } := by
  have party := ready.parties w
  obtain ⟨waiting, unsent⟩ := party.pen pen at_
  obtain ⟨asking, client⟩ := party.waits (by simp [waiting])
  have now : o.pens w = next := by rw [pens, Function.update_self]
  constructor
  · intro w'
    by_cases other : w' = w
    · subst other
      refine ⟨party.paired, party.waits, ?_, ?_⟩
      · intro pen' at'
        rw [waiting, same pen' (now.symm.trans at')]
        exact ⟨rfl, unsent⟩
      · intro request ticket asks fetches waits
        refine (party.asked request ticket asks fetches waits).imp id ?_
        rintro ⟨none, during, holds, -⟩
        rw [waiting, Option.some.injEq] at waits
        subst waits
        refine ⟨none, during ++ [op], ?_, ?_⟩
        · rw [ops]
          exact holds_concat.mpr (.inr ⟨during, holds, rfl, own⟩)
        · intro away
          rw [closed (now.symm.trans away)]
          exact List.mem_append_right _ (List.mem_singleton_self _)
    · refine (ready.parties w').idle (ready.others client other) ?_
      rw [pens, Function.update_of_ne other]
  · intro w' ticket reading
    rw [show s.client = .reading w' ticket from reading] at client
    cases client

variable {capacity : Nat}

theorem send_ready (ready : Ready p s) (idle : s.client = .idle) (request : ρ w)
    (room : (s.parties w).requests.length < capacity) :
    Ready p { onParty p capacity s w (.send request) with client := .waiting w request } := by
  have quiet : ∀ w', (s.parties w').waiting = none := by
    intro w'
    by_contra waiting
    obtain ⟨request', client⟩ := (ready.parties w').waits waiting
    rw [idle] at client
    cases client
  obtain ⟨-, unsent, requests⟩ := (ready.parties w).paired.idle (quiet w)
  have noPen := (ready.parties w).noPen unsent
  have sent : RequestReply.step (p w).toPeer capacity (s.parties w) (.send request) =
      { s.parties w with
        sent := (s.parties w).sent + 1
        waiting := some (s.parties w).sent
        requests := [((s.parties w).sent, request)] } := by
    rw [RequestReply.step, if_pos ⟨quiet w, room⟩, requests, List.nil_append]
  refine ready_update _ ⟨send_paired request (ready.parties w).paired, ?_, ?_, ?_⟩ ?_ ?_
  · exact fun _ => ⟨request, rfl⟩
  · intro pen at_
    rw [show s.output.pens w = some pen from at_] at noPen
    cases noPen
  · intro request' ticket client _ waiting
    rw [sent] at waiting ⊢
    cases client
    cases waiting
    exact .inl rfl
  · exact fun w' _ => (ready.parties w').idle (quiet w') rfl
  · intro w' ticket reading
    cases reading

theorem Taken.opened {ticket : Nat} {party : State (σ w) (ρ w) (α w)} (taken : Taken ticket party)
    {client : Client ρ} {request : ρ w} (asking : client = .waiting w request) (o : Output W β)
    (text : List β) : PartyReady p client (o.openFile w ticket text) w party where
  paired := taken.paired
  waits _ := ⟨request, asking⟩
  pen := by
    have opened : (o.openFile w ticket text).pens w = some ⟨ticket, text, 0⟩ :=
      Function.update_self _ _ _
    intro pen at_
    obtain rfl : ⟨ticket, text, 0⟩ = pen := Option.some.inj (opened.symm.trans at_)
    exact ⟨taken.waiting, taken.unsent⟩
  asked := by
    have opened : (o.openFile w ticket text).pens w = some ⟨ticket, text, 0⟩ :=
      Function.update_self _ _ _
    intro request' ticket' _ _ waiting'
    obtain rfl : ticket = ticket' := Option.some.inj (taken.waiting.symm.trans waiting')
    refine .inr ⟨taken.requests, [], holds_concat.mpr (.inl ⟨rfl, rfl⟩), fun away => ?_⟩
    cases opened.symm.trans away

theorem take_ready (ready : Ready p s) {env : ε w} (prompt : Prompt p s (.take w env))
    (noPen : s.output.pens w = none) : Ready p (takeRequest p capacity s w env) := by
  unfold takeRequest
  split
  · next ticket request rest requests unsent =>
      have own := ready.parties w
      obtain ⟨single, writes⟩ := prompt ticket request rest requests
      obtain ⟨waiting, rfl⟩ := own.paired.first_request requests
      obtain ⟨asking, client⟩ := own.waits (by simp [waiting])
      have taken := own.take capacity requests unsent single
      have unwhole : ∀ w' ticket', s.client ≠ .reading w' ticket' := by simp [client]
      dsimp only
      split
      · next text wrote =>
          refine ready_update _ (taken.opened client s.output text) ?_
            fun w' ticket' reading => absurd reading (unwhole w' ticket')
          intro w' other
          exact (ready.parties w').idle (ready.others client other) (Function.update_of_ne other _ _)
      · next unwritten =>
          have ignored : (p w).fetches asking ≠ true := by
            intro fetches
            rcases own.asked asking ticket client fetches waiting with queued | ⟨none, -⟩
            · rw [requests] at queued
              cases queued
              exact writes fetches unwritten
            · rw [requests] at none
              cases none
          exact ready_update _ (taken.unopened client noPen ignored) (fun w' _ => ready.parties w')
            fun w' ticket' reading => absurd reading (unwhole w' ticket')
  · exact ready

theorem write_ready [Inhabited β] (ready : Ready p s) (w : W) (n : Nat) :
    Ready p { s with output := s.output.write w n } := by
  unfold Output.write
  split
  · exact ready
  · next pen at_ =>
      dsimp only
      split_ifs
      · exact ready
      · exact pen_ready ready at_ rfl (by rintro pen' ⟨⟩; rfl) rfl (.inl rfl) nofun

theorem close_ready (ready : Ready p s) (w : W) :
    Ready p { s with output := s.output.close w } := by
  unfold Output.close
  split
  · exact ready
  · next pen at_ => exact pen_ready ready at_ rfl nofun rfl (.inr rfl) fun _ => rfl

theorem emit_ready (ready : Ready p s) (noPen : s.output.pens w = none) :
    Ready p (onParty p capacity s w .emit) := by
  have own := ready.parties w
  have same : (RequestReply.step (p w).toPeer capacity (s.parties w) .emit).waiting =
      (s.parties w).waiting ∧ (RequestReply.step (p w).toPeer capacity (s.parties w) .emit).requests =
        (s.parties w).requests := by
    unfold RequestReply.step
    dsimp only
    split
    · split_ifs <;> exact ⟨rfl, rfl⟩
    · exact ⟨rfl, rfl⟩
  refine ready_update _ ⟨emit_paired own.paired, ?_, ?_, ?_⟩ (fun w' _ => ready.parties w')
    ready.whole
  · rw [same.1]
    exact own.waits
  · intro pen at_
    cases noPen.symm.trans at_
  · rw [same.1, same.2]
    exact own.asked

theorem receive_ready (ready : Ready p s) : Ready p (receiveReply p capacity s) := by
  unfold receiveReply
  split
  · next w request client =>
      split
      · next ticket reply rest waiting replies =>
          have own := ready.parties w
          obtain ⟨-, -, unsent, requests⟩ := own.paired.first_reply replies
          have noPen := own.noPen unsent
          have received : (RequestReply.step (p w).toPeer capacity (s.parties w)
              .receive).waiting = none := by
            simp only [RequestReply.step, waiting, replies]
          refine ready_update _ ⟨receive_paired own.paired, ?_, ?_, ?_⟩ ?_ ?_
          · intro waits
            exact absurd received waits
          · intro pen at_
            cases noPen.symm.trans at_
          · intro request' ticket' _ _ waiting'
            rw [received] at waiting'
            cases waiting'
          · exact fun w' other => (ready.parties w').idle (ready.others client other) rfl
          · intro w' ticket' reading
            split_ifs at reading with fetches
            · cases reading
              rcases own.asked request ticket client fetches waiting with queued | ⟨-, left⟩
              · rw [requests] at queued
                cases queued
              · obtain ⟨during, holds, closed⟩ := left
                exact ⟨during, holds, closed noPen⟩
      · exact ready
  · exact ready

variable [Inhabited β]

theorem sharedStep_ready (ready : Ready p s) {input : SharedStep ρ ε ι}
    (prompt : Prompt p s input) : Ready p (sharedStep p capacity s input) := by
  cases input with
  | send w request =>
      rw [sharedStep]
      split
      · next idle =>
          split_ifs with room
          · exact send_ready ready idle request room
          · exact ready
      · exact ready
  | take w env =>
      rw [sharedStep]
      split_ifs with noPen
      · exact take_ready ready prompt (Option.isNone_iff_eq_none.mp noPen)
      · exact ready
  | write w n => exact write_ready ready w n
  | close w => exact close_ready ready w
  | emit w =>
      rw [sharedStep]
      split_ifs with noPen
      · exact emit_ready ready (Option.isNone_iff_eq_none.mp noPen)
      · exact ready
  | receive => exact receive_ready ready
  | read readable =>
      rw [sharedStep]
      split
      · next w ticket client =>
          refine ⟨fun w' => ?_, nofun⟩
          refine (ready.parties w').idle ?_ rfl
          by_contra waiting
          obtain ⟨request, asking⟩ := (ready.parties w').waits waiting
          cases client.symm.trans asking
      · exact ready
  | timeout => exact prompt.elim
  | fail => exact prompt.elim
  | act w input =>
      have own := ready.parties w
      exact ready_update _ ⟨⟨own.paired.paired, own.paired.flight⟩, own.waits, own.pen, own.asked⟩
        (fun w' _ => ready.parties w') ready.whole

theorem reads_own_of_prompt (peers : ∀ w, σ w) (file : List β) {steps : List (SharedStep ρ ε ι)}
    (prompt : Guarded (sharedStep p capacity) (Prompt p) (.start peers file) steps) :
    Guarded (sharedStep p capacity) ReadsOwn (.start peers file) steps := by
  have start : Ready p (.start peers file) := by
    refine ⟨fun w => ⟨⟨?_, rfl⟩, ?_, nofun, nofun⟩, nofun⟩
    · intro exchange member
      cases member
    · intro waiting
      exact absurd rfl waiting
  have always := always_of_guarded (sharedStep p capacity) (J := Ready p)
    (fun s input ready prompt => sharedStep_ready ready prompt) start prompt
  refine guarded_of_always (sharedStep p capacity) (L := Prompt p) ?_ always prompt
  intro s input ready _
  cases input with
  | read readable =>
      cases readable with
      | false => trivial
      | true => exact fun w ticket client => .inr (ready.whole w ticket client)
  | _ => trivial

end Prompt

end SharedOutput
