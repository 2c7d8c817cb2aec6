import SysDetector.Library.Provenance

/-!
# What a party went by when it handled a request

A relation between the requests that a party has handled and its own state: if each handling and
each own doing keeps it, it holds of the state that any of the handlings began with, for the requests
before it (`Chronicled.step`). In what order the requests were handled is in their tickets.
-/

namespace SharedOutput
open Runs RequestReply

variable {W β : Type}

structure Chronicled {σ ρ ε ι α : Type} (p : Party σ ρ ε ι α β) (I : List ρ → σ → Prop)
    (handled : List (Handling ρ α β)) (peer : σ) : Prop where
  now : I (handled.map Handling.request) peer
  made : ∀ i h, handled[i]? = some h → ∃ env before, I ((handled.take i).map Handling.request) before ∧
    h.replies = (p.handle env h.request before).2 ∧ h.text = p.text env h.request before

theorem Chronicled.handle {σ ρ ε ι α : Type} {p : Party σ ρ ε ι α β} {I : List ρ → σ → Prop}
    {handled : List (Handling ρ α β)} {peer : σ} (chronicled : Chronicled p I handled peer) {env : ε}
    {request : ρ} (ticket : Nat)
    (kept : I (handled.map Handling.request ++ [request]) (p.handle env request peer).1) :
    Chronicled p I
      (handled ++ [⟨ticket, request, (p.handle env request peer).2, p.text env request peer⟩])
      (p.handle env request peer).1 where
  now := by simpa using kept
  made i h at_ := by
    have inside := (List.getElem?_eq_some_iff.mp at_).1
    rw [List.length_append, List.length_singleton] at inside
    rw [List.take_append_of_le_length (Nat.le_of_lt_succ inside)]
    rcases Nat.lt_succ_iff_lt_or_eq.mp inside with earlier | rfl
    · rw [List.getElem?_append_left earlier] at at_
      exact chronicled.made i h at_
    · rw [List.getElem?_concat_length, Option.some.injEq] at at_
      subst at_
      rw [List.take_length]
      exact ⟨env, peer, chronicled.now, rfl, rfl⟩

/-! ## The order of the handlings -/

section Order
variable {σ ρ α : Type} {asked : List ρ} {handled : List (Handling ρ α β)} {party : State σ ρ α}

theorem PartyAccounted.ticket_eq (accounted : PartyAccounted asked handled party) {i : Nat}
    {h : Handling ρ α β} (at_ : handled[i]? = some h) : h.ticket = i := by
  have inside := (List.getElem?_eq_some_iff.mp at_).1
  have order := congrArg (fun tickets : List Nat => tickets[i]?) accounted.order
  rw [List.getElem?_append_left (by rw [List.length_map]; exact inside), List.getElem?_map, at_,
    Option.map_some] at order
  obtain ⟨known, same⟩ := List.getElem?_eq_some_iff.mp order.symm
  rw [List.getElem_range] at same
  exact same.symm

theorem PartyAccounted.at_ticket (accounted : PartyAccounted asked handled party)
    {h : Handling ρ α β} (member : h ∈ handled) : handled[h.ticket]? = some h := by
  obtain ⟨i, at_⟩ := List.mem_iff_getElem?.mp member
  rw [accounted.ticket_eq at_, at_]

theorem PartyAccounted.requests_eq (accounted : PartyAccounted asked handled party) :
    handled.map Handling.request = asked.take handled.length := by
  apply List.ext_getElem?
  intro i
  rw [List.getElem?_map, List.getElem?_take]
  split_ifs with inside
  · have at_ := List.getElem?_eq_getElem inside
    have known := accounted.taken _ (List.getElem_mem inside)
    rw [accounted.ticket_eq at_] at known
    rw [at_, known]
    rfl
  · rw [List.getElem?_eq_none (Nat.le_of_not_lt inside)]
    rfl

theorem PartyAccounted.requests_before (accounted : PartyAccounted asked handled party) {i : Nat}
    (inside : i ≤ handled.length) :
    (handled.take i).map Handling.request = asked.take i := by
  rw [List.map_take, accounted.requests_eq, List.take_take, min_eq_left inside]

end Order

/-! ## Steps -/

section Step
variable [DecidableEq W] {σ ρ ε ι α : W → Type} {p : ∀ w, Party (σ w) (ρ w) (ε w) (ι w) (α w) β}
  {capacity : Nat} {s : SharedState σ ρ α β} {l : Ledger ρ α β} {w : W}
  {I : List (ρ w) → σ w → Prop}

theorem onParty_peer {w' : W} {input : Step (ρ w') (ε w') (ι w')}
    (same : (RequestReply.step (p w').toPeer capacity (s.parties w') input).peer =
      (s.parties w').peer) :
    ((onParty p capacity s w' input).parties w).peer = (s.parties w).peer := by
  unfold onParty
  dsimp only
  by_cases own : w = w'
  · subst own
    rw [Function.update_self, same]
  · rw [Function.update_of_ne own]

theorem Chronicled.take (chronicled : Chronicled (p w) I (l.handled w) (s.parties w).peer)
    (w' : W) (env : ε w')
    (handles : ∀ env request past peer, I past peer →
      I (past ++ [request]) ((p w).handle env request peer).1) :
    Chronicled (p w) I ((recordTake p s l w' env).handled w)
      ((takeRequest p capacity s w' env).parties w).peer := by
  unfold recordTake takeRequest
  cases requests : (s.parties w').requests with
  | nil => exact chronicled
  | cons first rest =>
      obtain ⟨ticket, request⟩ := first
      cases unsent : (s.parties w').unsent with
      | cons reply others => exact chronicled
      | nil =>
          have taken : (RequestReply.step (p w').toPeer capacity (s.parties w') (.take env)).peer =
              ((p w').handle env request (s.parties w').peer).1 := by
            simp only [RequestReply.step, requests, unsent]
          have both : Chronicled (p w) I ((l.handle w' ⟨ticket, request,
              ((p w').handle env request (s.parties w').peer).2,
              (p w').text env request (s.parties w').peer⟩).handled w)
              ((onParty p capacity s w' (.take env)).parties w).peer := by
            unfold onParty
            dsimp only
            by_cases own : w = w'
            · subst own
              rw [handle_own, Function.update_self, taken]
              exact chronicled.handle ticket (handles env request _ _ chronicled.now)
            · rw [handle_other own, Function.update_of_ne own]
              exact chronicled
          dsimp only
          split <;> exact both

variable [Inhabited β]

theorem Chronicled.step (chronicled : Chronicled (p w) I (l.handled w) (s.parties w).peer)
    (input : SharedStep ρ ε ι)
    (handles : ∀ env request past peer, I past peer →
      I (past ++ [request]) ((p w).handle env request peer).1)
    (acts : ∀ own, input = .act w own → ∀ past peer, I past peer → I past ((p w).act own peer)) :
    Chronicled (p w) I ((record p capacity s l input).handled w)
      ((sharedStep p capacity s input).parties w).peer := by
  have kept : ∀ {w' : W} {input : Step (ρ w') (ε w') (ι w')},
      (RequestReply.step (p w').toPeer capacity (s.parties w') input).peer = (s.parties w').peer →
        Chronicled (p w) I (l.handled w) ((onParty p capacity s w' input).parties w).peer := by
    intro w' input same
    rw [onParty_peer same]
    exact chronicled
  cases input with
  | send w' request =>
      have same : (RequestReply.step (p w').toPeer capacity (s.parties w') (.send request)).peer =
          (s.parties w').peer := by
        unfold RequestReply.step
        dsimp only
        split_ifs <;> rfl
      unfold sharedStep record
      cases s.client with
      | idle =>
          dsimp only
          split_ifs
          · exact kept same
          · exact chronicled
      | _ => exact chronicled
  | take w' env =>
      unfold sharedStep record
      dsimp only
      split_ifs
      · exact chronicled.take w' env handles
      · exact chronicled
  | write _ _ => exact chronicled
  | close _ => exact chronicled
  | emit w' =>
      have same : (RequestReply.step (p w').toPeer capacity (s.parties w') .emit).peer =
          (s.parties w').peer := by
        unfold RequestReply.step
        dsimp only
        split
        · split_ifs <;> rfl
        · rfl
      unfold sharedStep
      dsimp only
      split_ifs
      · exact kept same
      · exact chronicled
  | receive =>
      have same : ∀ w', (RequestReply.step (p w').toPeer capacity (s.parties w') .receive).peer =
          (s.parties w').peer := by
        intro w'
        unfold RequestReply.step
        dsimp only
        split <;> rfl
      unfold sharedStep receiveReply
      dsimp only
      split
      · split
        · exact kept (same _)
        · exact chronicled
      · exact chronicled
  | read _ =>
      unfold sharedStep
      dsimp only
      split <;> exact chronicled
  | timeout =>
      have same : ∀ w', (RequestReply.step (p w').toPeer capacity (s.parties w') .timeout).peer =
          (s.parties w').peer := by
        intro w'
        unfold RequestReply.step
        dsimp only
        split_ifs <;> rfl
      unfold sharedStep
      dsimp only
      split
      · split_ifs
        · exact kept (same _)
        · exact chronicled
      · exact chronicled
  | fail =>
      unfold sharedStep
      dsimp only
      split
      · exact kept rfl
      · exact chronicled
  | act w' own =>
      unfold sharedStep record onParty
      dsimp only
      by_cases here : w = w'
      · subst here
        rw [Function.update_self]
        exact ⟨acts own rfl _ _ chronicled.now, chronicled.made⟩
      · rw [Function.update_of_ne here]
        exact chronicled

end Step

end SharedOutput
