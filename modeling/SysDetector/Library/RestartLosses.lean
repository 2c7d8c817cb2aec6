import SysDetector.Library.RestartOrder

namespace Restarts
open Runs NamedQueues RequestReply

variable {σ ρ ε ι κ α : Type}

/-! ## Queues that keep their names -/

structure Kept (v : Service σ ρ ε ι κ α) (s : System σ ρ α) : Prop where
  requests : ∀ c ∈ s.client.requests, s.requests.linked = some c
  replies : ∀ r ∈ s.client.replies, s.replies.linked = some r
  named : s.replies.linked = none → s.unsent = [] ∧ s.requests.held s.requests.linked = []
  gone : v.renews = true → s.process = none → s.requests.linked = none

/-- A server that renews its queue is not killed, and one that cleans up does so between calls. -/
def Gentle (v : Service σ ρ ε ι κ α) (s : System σ ρ α) : Move ρ ε ι κ → Prop
  | .process .cleanUp => v.cleans = true → s.client = .idle
  | .process .stop => v.cleans = true ∨ v.renews = false
  | .process .kill => v.renews = false
  | _ => True

section Steps
variable {v : Service σ ρ ε ι κ α} {capacity : Nat} {s : System σ ρ α}

theorem gentle_of_stays (cleans : v.cleans = false) (renews : v.renews = false) (s : System σ ρ α)
    (move : Move ρ ε ι κ) : Gentle v s move := by
  cases move with
  | client move => trivial
  | process move =>
      cases move with
      | cleanUp =>
          intro clean
          rw [cleans] at clean
          cases clean
      | stop => exact .inr renews
      | kill => exact renews
      | _ => trivial

theorem start_kept (peer : σ) : Kept v (System.start peer : System σ ρ α) where
  requests := by simp [System.start, Client.requests]
  replies := by simp [System.start, Client.replies]
  named _ := ⟨rfl, rfl⟩
  gone _ _ := rfl

theorem Kept.withClient (kept : Kept v s) {client : Client ρ}
    (replies : ∀ r ∈ client.replies, r ∈ s.client.replies)
    (requests : ∀ c ∈ client.requests, s.requests.linked = some c) :
    Kept v { s with client := client } where
  requests := requests
  replies r member := kept.replies r (replies r member)
  named := kept.named
  gone := kept.gone

theorem Kept.idle (kept : Kept v s) : Kept v { s with client := .idle } :=
  kept.withClient (by simp [Client.replies]) (by simp [Client.requests])

theorem openReplies_kept (kept : Kept v s) : Kept v { s with
    client := .opened s.replies.create.1
    replies := s.replies.create.2 } where
  requests := by simp [Client.requests]
  replies := by
    rintro r ⟨⟩
    exact s.replies.linked_create
  named none := by
    rw [Named.linked_create] at none
    cases none
  gone := kept.gone

theorem send_kept (kept : Kept v s) {r c : Nat} {request : ρ}
    (client : s.client = .sending r c request) (entry : Nat × ρ) (sent : Nat) : Kept v { s with
      client := .waiting r sent
      requests := s.requests.put c entry
      sent := s.sent + 1 } := by
  have named : s.replies.linked = some r := kept.replies r (by rw [client, Client.replies]; rfl)
  refine ⟨by simp [Client.requests], ?_, fun none => ?_, kept.gone⟩
  · rintro _ ⟨⟩
    exact named
  · rw [named] at none
    cases none

theorem receive_kept (kept : Kept v s) (r : Nat) (returned : List (Exchange α)) : Kept v { s with
    client := .idle
    replies := s.replies.drop r
    returned := returned } where
  requests := by simp [Client.requests]
  replies := by simp [Client.replies]
  named := kept.named
  gone := kept.gone

theorem clientMove_kept (kept : Kept v s) (move : ClientMove ρ) :
    Kept v (clientMove capacity s move) := by
  unfold clientMove
  split
  · split
    · exact openReplies_kept kept
    · exact kept
  · split
    · next r client =>
        split
        · next c linked =>
            refine kept.withClient ?_ ?_
            · rw [client]
              exact fun _ member => member
            · rintro _ ⟨⟩
              exact linked
        · exact kept.idle
    · exact kept
  · split
    · next r c request client =>
        split
        · exact send_kept kept client _ _
        · exact kept
    · exact kept
  · split
    · split
      · exact receive_kept kept _ _
      · exact kept
    · exact kept
  · split
    · split
      · exact kept.idle
      · exact kept
    · exact kept
  · exact kept.idle

theorem Kept.withProcess (kept : Kept v s) {p p' : Process α} (alive : s.process = some p)
    (same : p'.unsent = p.unsent) : Kept v { s with process := some p' } where
  requests := kept.requests
  replies := kept.replies
  named none := by
    have before := kept.named none
    rwa [System.unsent, alive, Option.elim_some, ← same] at before
  gone _ none := by cases none

theorem Kept.ended (kept : Kept v s) (stays : v.renews = false) :
    Kept v { s with process := none } where
  requests := kept.requests
  replies := kept.replies
  named none := ⟨rfl, (kept.named none).2⟩
  gone renews := by
    rw [stays] at renews
    cases renews

theorem takeRequest_kept (sound : Sound s) (kept : Kept v s) {p : Process α}
    (alive : s.process = some p) (env : ε) : Kept v (takeRequest v env p s) := by
  have linked := sound.reader p alive
  unfold takeRequest
  split
  · next ticket request rest contents =>
      refine ⟨kept.requests, kept.replies, fun none => ?_, fun _ none => by cases none⟩
      have empty := (kept.named none).2
      rw [linked, Named.held_some, contents] at empty
      cases empty
  · exact kept.withProcess alive rfl

theorem emitReply_kept (kept : Kept v s) {p : Process α} (alive : s.process = some p) :
    Kept v (emitReply capacity p s) := by
  unfold emitReply
  split
  · next reply rest unsent =>
      have named : s.replies.linked ≠ none := by
        intro none
        have before := (kept.named none).1
        rw [System.unsent, alive, Option.elim_some, unsent] at before
        cases before
      split
      · next none => exact absurd none named
      · split
        · exact ⟨kept.requests, kept.replies, fun none => absurd none named, fun _ none => by cases none⟩
        · exact kept
  · exact kept

theorem processMove_kept (sound : Sound s) (kept : Kept v s) {p : Process α}
    (alive : s.process = some p) {move : ProcessMove ε ι κ} (gentle : Gentle v s (.process move)) :
    Kept v (processMove v capacity p s move) := by
  cases move with
  | start input => exact kept
  | ready =>
      unfold processMove
      dsimp only
      split
      · exact kept.withProcess alive rfl
      · exact kept
  | test =>
      unfold processMove
      dsimp only
      split
      · exact kept.withProcess alive rfl
      · exact kept
  | take env =>
      unfold processMove
      dsimp only
      split
      · exact takeRequest_kept sound kept alive env
      · exact kept
  | emit => exact emitReply_kept kept alive
  | act input =>
      unfold processMove
      dsimp only
      split
      · exact kept
      · exact ⟨kept.requests, kept.replies, kept.named, kept.gone⟩
  | stop =>
      unfold processMove
      dsimp only
      split
      · exact kept.withProcess alive rfl
      · next dies => exact kept.ended (gentle.resolve_left dies)
  | cleanUp =>
      unfold processMove
      dsimp only
      split
      · next allowed =>
          have idle := gentle allowed.1
          exact ⟨by simp [idle, Client.requests], by simp [idle, Client.replies],
            fun _ => ⟨rfl, rfl⟩, fun _ _ => rfl⟩
      · exact kept
  | kill => exact kept.ended gentle

theorem launch_kept (kept : Kept v s) (ended : s.process = none) (input : κ) :
    Kept v (launch v input s) where
  requests c member := by
    have linked := kept.requests c member
    have stays : v.renews ≠ true := by
      intro renews
      rw [kept.gone renews ended] at linked
      cases linked
    unfold launch
    dsimp only
    rw [if_neg stays, Named.create_linked _ linked]
    exact linked
  replies := kept.replies
  named none := by
    refine ⟨rfl, ?_⟩
    have empty := (kept.named none).2
    unfold launch
    dsimp only
    rw [Named.linked_create, Named.held_some, Named.contents_created]
    split
    · rfl
    · exact empty
  gone _ none := by cases none

theorem step_kept (sound : Sound s) (kept : Kept v s) {move : Move ρ ε ι κ}
    (gentle : Gentle v s move) : Kept v (step v capacity s move) := by
  cases move with
  | client move => exact clientMove_kept kept move
  | process move =>
      unfold step serviceMove
      dsimp only
      split
      · next p move alive => exact processMove_kept sound kept alive gentle
      · next ended => exact launch_kept kept ended _
      · exact kept

end Steps

/-! ## How many messages are left -/

structure Tally where
  givenUp : Nat
  cutOff : Nat

def cleansUp (v : Service σ ρ ε ι κ α) (s : System σ ρ α) : Move ρ ε ι κ → Bool
  | .process .cleanUp =>
      v.cleans && s.process.any fun p => p.place = .starting || p.place = .ended
  | _ => false

def cutsOff (v : Service σ ρ ε ι κ α) (s : System σ ρ α) : Move ρ ε ι κ → Bool
  | .process .kill => !s.unsent.isEmpty
  | .process .stop => !v.cleans && !s.unsent.isEmpty
  | _ => false

/-- Requests given up and replies cut off since both queues were unlinked. -/
def tally (v : Service σ ρ ε ι κ α) (capacity : Nat) (s : System σ ρ α) (t : Tally)
    (move : Move ρ ε ι κ) : Tally :=
  if cleansUp v s move then ⟨0, 0⟩
  else
    { givenUp := t.givenUp + ((plainStep capacity s move).any (givesUp s.view)).toNat
      cutOff := t.cutOff + (cutsOff v s move).toNat }

def tallyStep (v : Service σ ρ ε ι κ α) (capacity : Nat) (st : System σ ρ α × Tally)
    (move : Move ρ ε ι κ) : System σ ρ α × Tally :=
  (step v capacity st.1 move, tally v capacity st.1 st.2 move)

/-- The messages in the queues are those of requests given up and of the one at hand, but for the
replies that were cut off. -/
def LeftOver (s : State σ ρ α) (t : Tally) : Prop :=
  (inFlight s).length + t.cutOff = t.givenUp + s.waiting.toList.length

section Counts
variable {p : Peer σ ρ ε ι α} {capacity : Nat} {s : State σ ρ α}

theorem send_leftOver {t : Tally} (left : LeftOver s t) (request : ρ) :
    LeftOver (RequestReply.step p capacity s (.send request)) t := by
  unfold RequestReply.step
  dsimp only
  split
  · next allowed =>
      simp only [LeftOver, length_inFlight, allowed.1, Option.toList_none, List.length_nil] at left
      simp only [LeftOver, length_inFlight, List.length_append, Option.toList_some,
        List.length_singleton]
      omega
  · exact left

theorem take_leftOver {t : Tally} (left : LeftOver s t) {env : ε}
    (once : AnswersOnce p s (.take env)) :
    LeftOver (RequestReply.step p capacity s (.take env)) t := by
  unfold RequestReply.step
  cases requests : s.requests with
  | nil => exact left
  | cons first rest =>
      obtain ⟨ticket, request⟩ := first
      cases unsent : s.unsent with
      | cons reply others => exact left
      | nil =>
          have single := once ticket request rest requests
          simp only [LeftOver, length_inFlight, requests, unsent, List.length_nil,
            List.length_cons] at left
          simp only [LeftOver, length_inFlight, List.length_map, single]
          omega

theorem emit_leftOver {t : Tally} (left : LeftOver s t) :
    LeftOver (RequestReply.step p capacity s .emit) t := by
  unfold RequestReply.step
  cases unsent : s.unsent with
  | nil => exact left
  | cons reply rest =>
      dsimp only
      split
      · simp only [LeftOver, length_inFlight, unsent, List.length_cons] at left
        simp only [LeftOver, length_inFlight, List.length_append, List.length_singleton]
        omega
      · exact left

theorem receive_leftOver {t : Tally} (left : LeftOver s t) :
    LeftOver (RequestReply.step p capacity s .receive) t := by
  unfold RequestReply.step
  cases waiting : s.waiting with
  | none => exact left
  | some request =>
      cases replies : s.replies with
      | nil => exact left
      | cons reply rest =>
          simp only [LeftOver, length_inFlight, waiting, replies, List.length_cons,
            Option.toList_some, List.length_nil] at left
          simp only [LeftOver, length_inFlight, Option.toList_none, List.length_nil]
          omega

theorem LeftOver.gaveUp {t : Tally} (left : LeftOver s t) :
    LeftOver { s with waiting := none } ⟨t.givenUp + s.waiting.isSome.toNat, t.cutOff⟩ := by
  simp only [LeftOver, length_inFlight] at left ⊢
  cases waiting : s.waiting with
  | none =>
      rw [waiting] at left
      exact left
  | some request =>
      rw [waiting, Option.toList_some, List.length_singleton] at left
      rw [Option.toList_none, List.length_nil, Option.isSome_some, Bool.toNat_true]
      omega

theorem plain_single (single : s.unsent.length ≤ 1) (input : Step ρ ε ι)
    (once : AnswersOnce p s input) : (RequestReply.step p capacity s input).unsent.length ≤ 1 := by
  cases input with
  | take env =>
      unfold RequestReply.step
      cases requests : s.requests with
      | nil => exact single
      | cons first rest =>
          obtain ⟨ticket, request⟩ := first
          cases unsent : s.unsent with
          | cons reply others => exact single
          | nil =>
              dsimp only
              rw [List.length_map]
              exact (once ticket request rest requests).le
  | emit =>
      unfold RequestReply.step
      cases unsent : s.unsent with
      | nil => exact single
      | cons reply rest =>
          have one : (reply :: rest).length ≤ 1 := unsent ▸ single
          dsimp only
          split
          · exact Nat.le_of_succ_le one
          · exact single
  | send request =>
      unfold RequestReply.step
      dsimp only
      split <;> exact single
  | receive =>
      unfold RequestReply.step
      cases s.waiting with
      | none => exact single
      | some request =>
          cases s.replies with
          | nil => exact single
          | cons reply rest => exact single
  | timeout =>
      unfold RequestReply.step
      dsimp only
      split <;> exact single
  | fail => exact single
  | act input => exact single

theorem plain_leftOver {t : Tally} (left : LeftOver s t) (input : Step ρ ε ι)
    (once : AnswersOnce p s input) : LeftOver (RequestReply.step p capacity s input)
      ⟨t.givenUp + (givesUp s input).toNat, t.cutOff⟩ := by
  cases input with
  | send request => exact send_leftOver left request
  | take env => exact take_leftOver left once
  | emit => exact emit_leftOver left
  | receive => exact receive_leftOver left
  | timeout =>
      unfold RequestReply.step givesUp
      dsimp only
      cases replies : s.replies with
      | nil =>
          rw [if_pos rfl, List.isEmpty_nil, Bool.and_true, ← replies]
          exact left.gaveUp
      | cons reply rest =>
          rw [if_neg (List.cons_ne_nil _ _), List.isEmpty_cons, Bool.and_false]
          exact left
  | fail => exact left.gaveUp
  | act input => exact left

end Counts

section Losses
variable {v : Service σ ρ ε ι κ α} {capacity : Nat} {s : System σ ρ α}

theorem Kept.loses (kept : Kept v s) {move : Move ρ ε ι κ} (loses : Loses v s move) :
    cutsOff v s move = true ∨ move = .process .cleanUp := by
  have named : ∀ move : ClientMove ρ, ¬ ClientLoses s move := by
    intro move lost
    cases move with
    | openReplies => exact lost
    | timeout => exact lost
    | send =>
        obtain ⟨c, member, unlinked⟩ := lost
        exact unlinked (kept.requests c member)
    | _ =>
        obtain ⟨r, member, unlinked⟩ := lost
        exact unlinked (kept.replies r member)
  cases move with
  | client move => exact absurd loses (named move)
  | process move =>
      cases move with
      | start input =>
          obtain ⟨ended, renews, some⟩ := loses
          rw [kept.gone renews ended] at some
          exact absurd rfl some
      | emit => exact absurd (kept.named loses.1).1 loses.2
      | stop =>
          left
          rw [cutsOff, loses.1, Bool.not_false, Bool.true_and, Bool.not_eq_true',
            List.isEmpty_eq_false_iff]
          exact loses.2
      | kill =>
          left
          rw [cutsOff, Bool.not_eq_true', List.isEmpty_eq_false_iff]
          exact loses
      | cleanUp => exact .inr rfl
      | _ => exact loses.elim

variable (capacity) in
theorem cutsOff_loses {move : Move ρ ε ι κ} (cut : cutsOff v s move = true) :
    Loses v s move ∧ s.unsent ≠ [] ∧ step v capacity s move = { s with process := none } ∧
      plainStep capacity s move = none ∧ cleansUp v s move = false := by
  have alive : s.unsent ≠ [] → ∃ p, s.process = some p := by
    intro some
    by_contra none
    rw [not_exists] at none
    have ended : s.process = Option.none := Option.eq_none_iff_forall_ne_some.mpr none
    rw [System.unsent, ended] at some
    exact some rfl
  cases move with
  | client move => cases cut
  | process move =>
      cases move with
      | kill =>
          rw [cutsOff, Bool.not_eq_true', List.isEmpty_eq_false_iff] at cut
          obtain ⟨p, running⟩ := alive cut
          refine ⟨cut, cut, ?_, rfl, rfl⟩
          simp only [step, serviceMove, running, processMove]
      | stop =>
          rw [cutsOff, Bool.and_eq_true, Bool.not_eq_true', Bool.not_eq_true',
            List.isEmpty_eq_false_iff] at cut
          obtain ⟨p, running⟩ := alive cut.2
          refine ⟨cut, cut.2, ?_, rfl, rfl⟩
          simp only [step, serviceMove, running, processMove, cut.1, Bool.false_eq_true, if_false]
      | _ => cases cut

def System.unlinked (s : System σ ρ α) : System σ ρ α :=
  { s with process := none, requests := s.requests.unlink, replies := s.replies.unlink }

variable (capacity) in
theorem cleansUp_step {move : Move ρ ε ι κ} (clean : cleansUp v s move = true) :
    v.cleans = true ∧ move = .process .cleanUp ∧ step v capacity s move = s.unlinked := by
  cases move with
  | client move => cases clean
  | process move =>
      cases move with
      | cleanUp =>
          rw [cleansUp, Bool.and_eq_true] at clean
          obtain ⟨cleans, place⟩ := clean
          cases running : s.process with
          | none =>
              rw [running] at place
              cases place
          | some p =>
              rw [running, Option.any_some, Bool.or_eq_true, decide_eq_true_iff,
                decide_eq_true_iff] at place
              refine ⟨cleans, rfl, ?_⟩
              simp only [step, serviceMove, running, processMove, cleans, place, true_and, if_true,
                System.unlinked]
      | _ => cases clean

theorem cleanUp_stays (undue : cleansUp v s (.process .cleanUp) = false) :
    step v capacity s (.process .cleanUp) = s := by
  cases running : s.process with
  | none => simp only [step, serviceMove, running]
  | some p =>
      have refused : ¬ (v.cleans = true ∧ (p.place = .starting ∨ p.place = .ended)) := by
        intro allowed
        rw [cleansUp, running, Option.any_some, allowed.1, Bool.true_and, Bool.or_eq_false_iff,
          decide_eq_false_iff_not, decide_eq_false_iff_not] at undue
        exact allowed.2.elim undue.1 undue.2
      simp only [step, serviceMove, running, processMove, refused, if_false]

theorem move_cases (kept : Kept v s) (move : Move ρ ε ι κ) :
    cleansUp v s move = true ∨
      (cleansUp v s move = false ∧ cutsOff v s move = true) ∨
      (cleansUp v s move = false ∧ move = .process .cleanUp) ∨
      (cleansUp v s move = false ∧ cutsOff v s move = false ∧ ¬ Loses v s move) := by
  cases clean : cleansUp v s move with
  | true => exact .inl rfl
  | false =>
      cases cut : cutsOff v s move with
      | true => exact .inr (.inl ⟨rfl, rfl⟩)
      | false =>
          by_cases loses : Loses v s move
          · rcases kept.loses loses with cuts | undue
            · rw [cut] at cuts
              cases cuts
            · exact .inr (.inr (.inl ⟨rfl, undue⟩))
          · exact .inr (.inr (.inr ⟨rfl, rfl, loses⟩))

theorem view_of_kept {J : State σ ρ α → Prop} (congruent : ∀ t u : State σ ρ α, t.sent = u.sent →
      t.waiting = u.waiting → inFlight t = inFlight u → J u → J t)
    (sound : Sound s) {move : Move ρ ε ι κ} (nothing : ¬ Loses v s move)
    (plain : J ((plainStep capacity s move).elim s.view (RequestReply.step v.peer capacity s.view))) :
    J (step v capacity s move).view := by
  have viewed : Viewed v capacity s (step v capacity s move) move := step_view sound move
  exact congruent _ _ viewed.sent viewed.waiting (viewed.inFlight_eq nothing) plain

theorem unlinked_empty (idle : s.client = .idle) :
    inFlight s.unlinked.view = [] ∧ s.unlinked.view.waiting = none := by
  constructor
  · simp only [inFlight, System.view, System.unlinked, System.unsent, System.reading, idle,
      Client.replies, Option.none_or, Named.linked_unlink, Named.held_none, Option.elim_none,
      List.map_nil, List.append_nil]
  · simp only [System.view, System.unlinked, idle, Client.ticket]

theorem lagging_of_empty {u : State σ ρ α} (empty : inFlight u = []) (waiting : u.waiting = none) :
    Lagging 0 u where
  newest := by simp [waiting]
  enough := by simp [waiting]
  flight := by simp [empty, waiting]

theorem step_leftOver (sound : Sound s) (kept : Kept v s) (single : s.unsent.length ≤ 1)
    {t : Tally} (left : LeftOver s.view t) {move : Move ρ ε ι κ} (gentle : Gentle v s move)
    (once : RepliesOnce v s move) :
    LeftOver (step v capacity s move).view (tally v capacity s t move) := by
  rcases move_cases kept move with clean | ⟨undue, cut⟩ | ⟨undue, rfl⟩ | ⟨undue, uncut, nothing⟩
  · obtain ⟨cleans, rfl, after⟩ := cleansUp_step capacity clean
    obtain ⟨empty, waiting⟩ := unlinked_empty (gentle cleans)
    rw [tally, clean, if_pos rfl, after, LeftOver, empty, waiting]
    rfl
  · obtain ⟨-, some, after, plain, -⟩ := cutsOff_loses capacity cut
    have one : s.unsent.length = 1 := Nat.le_antisymm single (List.length_pos_iff.mpr some)
    rw [tally, undue, cut, plain, after]
    have before : s.view.unsent.length = 1 := one
    rw [LeftOver, length_inFlight, before] at left
    rw [LeftOver, length_inFlight]
    show s.view.replies.length + 0 + s.view.requests.length + (t.cutOff + 1) =
      t.givenUp + 0 + s.view.waiting.toList.length
    omega
  · rw [cleanUp_stays undue, tally, undue]
    exact left
  · rw [tally, undue, uncut]
    refine view_of_kept (J := fun u => LeftOver u _) ?_ sound nothing ?_
    · intro u w _ waiting same before
      rw [LeftOver, waiting, same]
      exact before
    · cases plain : plainStep capacity s move with
      | none => exact left
      | some input => exact plain_leftOver left input (plain_once once plain)

theorem step_single (sound : Sound s) (single : s.unsent.length ≤ 1) {move : Move ρ ε ι κ}
    (once : RepliesOnce v s move) : (step v capacity s move).unsent.length ≤ 1 :=
  step_keeps (J := fun u => u.unsent.length ≤ 1) sound move
    (fun _ plain => plain_single single _ (plain_once once plain))
    (fun _ _ thinned few => thinned.unsent.length_le.trans few) single

theorem not_cutsOff (cleans : v.cleans = true) (renews : v.renews = true) {move : Move ρ ε ι κ}
    (gentle : Gentle v s move) : cutsOff v s move = false := by
  cases move with
  | client move => rfl
  | process move =>
      cases move with
      | stop => rw [cutsOff, cleans, Bool.not_true, Bool.false_and]
      | kill =>
          rw [Gentle, renews] at gentle
          cases gentle
      | _ => rfl

theorem step_lagging (cleans : v.cleans = true) (renews : v.renews = true) (sound : Sound s)
    (kept : Kept v s) {t : Tally} (lagging : Lagging t.givenUp s.view) {move : Move ρ ε ι κ}
    (gentle : Gentle v s move) (once : RepliesOnce v s move) :
    Lagging (tally v capacity s t move).givenUp (step v capacity s move).view := by
  rcases move_cases kept move with clean | ⟨undue, cut⟩ | ⟨undue, rfl⟩ | ⟨undue, uncut, nothing⟩
  · obtain ⟨-, rfl, after⟩ := cleansUp_step capacity clean
    obtain ⟨empty, waiting⟩ := unlinked_empty (gentle cleans)
    rw [tally, clean, if_pos rfl, after]
    exact lagging_of_empty empty waiting
  · rw [not_cutsOff cleans renews gentle] at cut
    cases cut
  · rw [cleanUp_stays undue, tally, undue]
    exact lagging
  · rw [tally, undue]
    refine view_of_kept (J := Lagging _) ?_ sound nothing ?_
    · intro u w sent waiting same before
      exact ⟨by rw [waiting, sent]; exact before.newest, by rw [waiting, sent]; exact before.enough,
        by rw [waiting, sent, same]; exact before.flight⟩
    · cases plain : plainStep capacity s move with
      | none => exact lagging
      | some input =>
          have after : Lagging (if givesUp s.view input then t.givenUp + 1 else t.givenUp)
              (RequestReply.step v.peer capacity s.view input) :=
            RequestReply.step_lagging input lagging (plain_once once plain)
          rw [Option.any_some]
          cases gives : givesUp s.view input with
          | true =>
              rw [gives] at after
              exact after
          | false =>
              rw [gives] at after
              exact after

/-- Every request is handed to the server, in order, or waits in the queue. -/
def Handed (s : System σ ρ α) : Prop :=
  s.taken ++ (s.requests.held s.requests.linked).map Prod.fst = List.range s.sent

theorem send_handed (kept : Kept v s) (handed : Handed s) : Handed (clientMove capacity s .send) := by
  unfold clientMove
  dsimp only
  split
  · next r c request client =>
      have linked := kept.requests c (by rw [client, Client.requests]; rfl)
      split
      · rw [Handed, linked, Named.held_some] at handed
        show s.taken ++ ((s.requests.put c (s.sent, request)).held s.requests.linked).map Prod.fst =
          List.range (s.sent + 1)
        rw [linked, Named.held_some, Named.contents_put _ (s.requests.valid c linked), if_pos rfl,
          List.map_append, ← List.append_assoc, handed, List.map_singleton, List.range_succ]
      · exact handed
  · exact handed

theorem take_handed (sound : Sound s) {p : Process α} (alive : s.process = some p)
    (handed : Handed s) (env : ε) : Handed (takeRequest v env p s) := by
  have linked := sound.reader p alive
  unfold takeRequest
  split
  · next ticket request rest contents =>
      rw [Handed, linked, Named.held_some, contents] at handed
      show (s.taken ++ [ticket]) ++ ((s.requests.drop p.requests).held s.requests.linked).map Prod.fst =
        List.range s.sent
      rw [linked, Named.held_some, Named.contents_drop_self, contents, List.tail_cons,
        List.append_assoc]
      exact handed
  · exact handed

theorem clientMove_handed (kept : Kept v s) (handed : Handed s) (move : ClientMove ρ) :
    Handed (clientMove capacity s move) := by
  cases move with
  | send => exact send_handed kept handed
  | openReplies =>
      unfold clientMove
      dsimp only
      split <;> exact handed
  | openRequests request =>
      unfold clientMove
      dsimp only
      split
      · split <;> exact handed
      · exact handed
  | receive =>
      unfold clientMove
      dsimp only
      split
      · split <;> exact handed
      · exact handed
  | timeout =>
      unfold clientMove
      dsimp only
      split
      · split <;> exact handed
      · exact handed
  | fail => exact handed

theorem processMove_handed (cleans : v.cleans = false) (sound : Sound s) {p : Process α}
    (alive : s.process = some p) (handed : Handed s) (move : ProcessMove ε ι κ) :
    Handed (processMove v capacity p s move) := by
  cases move with
  | take env =>
      unfold processMove
      dsimp only
      split
      · exact take_handed sound alive handed env
      · exact handed
  | emit =>
      unfold processMove emitReply
      dsimp only
      split
      · split
        · exact handed
        · split <;> exact handed
      · exact handed
  | cleanUp =>
      unfold processMove
      dsimp only
      rw [cleans, if_neg (by simp)]
      exact handed
  | start input => exact handed
  | kill => exact handed
  | _ =>
      unfold processMove
      dsimp only
      split <;> exact handed

theorem step_handed (cleans : v.cleans = false) (renews : v.renews = false) (sound : Sound s)
    (kept : Kept v s) (handed : Handed s) (move : Move ρ ε ι κ) :
    Handed (step v capacity s move) := by
  cases move with
  | client move => exact clientMove_handed kept handed move
  | process move =>
      unfold step serviceMove
      dsimp only
      split
      · next p move alive => exact processMove_handed cleans sound alive handed _
      · unfold launch Handed
        dsimp only
        rw [renews, if_neg Bool.false_ne_true, Named.linked_create, Named.held_some,
          Named.contents_created]
        exact handed
      · exact handed

/-! ## What a clean end forgets -/

/-- No reply to the requests up to `sent` is on its way, and none was taken beside the old ones. -/
structure Forgotten (sent : Nat) (old : List (Exchange α)) (s : State σ ρ α) : Prop where
  later : sent ≤ s.sent
  flight : ∀ ticket ∈ inFlight s, sent ≤ ticket
  returned : ∀ exchange ∈ s.returned, exchange ∈ old ∨ sent ≤ exchange.answered

theorem mem_inFlight {s : State σ ρ α} {ticket : Nat} : ticket ∈ inFlight s ↔
    ticket ∈ s.replies.map Prod.fst ∨ ticket ∈ s.unsent.map Prod.fst ∨
      ticket ∈ s.requests.map Prod.fst := by
  rw [inFlight, List.mem_append, List.mem_append, or_assoc]

theorem Forgotten.plain {sent : Nat} {old : List (Exchange α)} {p : Peer σ ρ ε ι α}
    {s : State σ ρ α} (forgotten : Forgotten sent old s) (input : Step ρ ε ι) :
    Forgotten sent old (RequestReply.step p capacity s input) := by
  obtain ⟨later, flight, returned⟩ := forgotten
  cases input with
  | send request =>
      unfold RequestReply.step
      dsimp only
      split
      · refine ⟨Nat.le_succ_of_le later, fun ticket member => ?_, returned⟩
        simp only [inFlight, List.map_append, ← List.append_assoc] at member
        rcases List.mem_append.mp member with before | new
        · exact flight ticket before
        · rw [List.map_singleton, List.mem_singleton] at new
          rw [new]
          exact later
      · exact ⟨later, flight, returned⟩
  | take env =>
      unfold RequestReply.step
      cases requests : s.requests with
      | nil => exact ⟨later, flight, returned⟩
      | cons first rest =>
          obtain ⟨asked, request⟩ := first
          cases unsent : s.unsent with
          | cons reply others => exact ⟨later, flight, returned⟩
          | nil =>
              refine ⟨later, fun ticket member => flight ticket ?_, returned⟩
              rw [mem_inFlight] at member ⊢
              rw [requests, List.map_cons, List.mem_cons]
              rcases member with reply | new | queued
              · exact .inl reply
              · rw [List.map_map, List.mem_map] at new
                obtain ⟨_, _, same⟩ := new
                exact .inr (.inr (.inl same.symm))
              · exact .inr (.inr (.inr queued))
  | emit =>
      unfold RequestReply.step
      cases unsent : s.unsent with
      | nil => exact ⟨later, flight, returned⟩
      | cons reply rest =>
          dsimp only
          split
          · refine ⟨later, fun ticket member => flight ticket ?_, returned⟩
            rw [mem_inFlight] at member ⊢
            rw [List.map_append, List.mem_append, List.map_singleton, List.mem_singleton] at member
            rw [unsent, List.map_cons, List.mem_cons]
            rcases member with (queued | new) | waiting | requests
            · exact .inl queued
            · exact .inr (.inl (.inl new))
            · exact .inr (.inl (.inr waiting))
            · exact .inr (.inr requests)
          · exact ⟨later, flight, returned⟩
  | receive =>
      unfold RequestReply.step
      cases s.waiting with
      | none => exact ⟨later, flight, returned⟩
      | some request =>
          cases replies : s.replies with
          | nil => exact ⟨later, flight, returned⟩
          | cons reply rest =>
              have first : ∀ ticket ∈ reply.1 :: rest.map Prod.fst, sent ≤ ticket := by
                intro ticket member
                refine flight ticket (mem_inFlight.mpr (.inl ?_))
                rwa [replies, List.map_cons]
              refine ⟨later, fun ticket member => ?_, fun exchange member => ?_⟩
              · rcases mem_inFlight.mp member with queued | others
                · exact first ticket (List.mem_cons_of_mem _ queued)
                · exact flight ticket (mem_inFlight.mpr (.inr others))
              · rcases List.mem_append.mp member with before | new
                · exact returned exchange before
                · rw [List.mem_singleton.mp new]
                  exact .inr (first reply.1 List.mem_cons_self)
  | timeout =>
      unfold RequestReply.step
      dsimp only
      split <;> exact ⟨later, flight, returned⟩
  | fail => exact ⟨later, flight, returned⟩
  | act input => exact ⟨later, flight, returned⟩

theorem Forgotten.thinned {sent : Nat} {old : List (Exchange α)} {whole : Prop} {t s : State σ ρ α}
    (forgotten : Forgotten sent old s) (thinned : Thinned whole t s) : Forgotten sent old t where
  later := by
    rw [thinned.sent]
    exact forgotten.later
  flight ticket member := forgotten.flight ticket (thinned.inFlight.subset member)
  returned := by
    rw [thinned.returned]
    exact forgotten.returned

theorem unlinked_forgets (idle : s.client = .idle) :
    Forgotten s.sent s.returned s.unlinked.view where
  later := Nat.le_refl _
  flight ticket member := by
    rw [(unlinked_empty idle).1] at member
    cases member
  returned exchange member := .inl member

/-! ## Runs -/

theorem run_forgets {sent : Nat} {old : List (Exchange α)} (sound : Sound s)
    (forgotten : Forgotten sent old s.view) (moves : List (Move ρ ε ι κ)) :
    Forgotten sent old (run (step v capacity) s moves).view := by
  have both : Sound (run (step v capacity) s moves) ∧
      Forgotten sent old (run (step v capacity) s moves).view := by
    refine run_of_step (J := fun u => Sound u ∧ Forgotten sent old u.view) _ ?_
      ⟨sound, forgotten⟩ moves
    intro u move inv
    exact ⟨step_sound inv.1 move, step_keeps inv.1 move (fun input _ => inv.2.plain input)
      (fun _ _ thinned forgotten => forgotten.thinned thinned) inv.2⟩
  exact both.2

/-- However the run goes on after a clean end between two calls, no reply to an earlier request is
taken any more. -/
theorem forgotten_after (peer : σ) (before after : List (Move ρ ε ι κ))
    (clean : cleansUp v (run (step v capacity) (.start peer) before) (.process .cleanUp) = true)
    (idle : (run (step v capacity) (.start peer) before).client = .idle) :
    Forgotten (run (step v capacity) (.start peer) before).sent
      (run (step v capacity) (.start peer) before).returned
      (run (step v capacity) (.start peer) (before ++ .process .cleanUp :: after)).view := by
  have sound : Sound (run (step v capacity) (.start peer) before) :=
    run_of_step (J := Sound) _ (fun _ move sound => step_sound sound move) (start_sound peer) before
  have unlinked := unlinked_forgets idle
  rw [← (cleansUp_step capacity clean).2.2] at unlinked
  rw [run_append, run_cons]
  exact run_forgets (step_sound sound _) unlinked after

/-- While nobody kills the server and it ends between calls only, the replies taken are those of as
many requests before as were given up since it last ended. -/
theorem always_lagsBy (cleans : v.cleans = true) (renews : v.renews = true) (peer : σ)
    {moves : List (Move ρ ε ι κ)}
    (allowed : Guarded (tallyStep v capacity) (fun st move => Gentle v st.1 move ∧
      RepliesOnce v st.1 move) (.start peer, ⟨0, 0⟩) moves) :
    Always (tallyStep v capacity) (fun st => LagsBy st.2.givenUp st.1.view) (.start peer, ⟨0, 0⟩)
      moves := by
  have always : Always (tallyStep v capacity)
      (fun st => Sound st.1 ∧ Kept v st.1 ∧ Lagging st.2.givenUp st.1.view) (.start peer, ⟨0, 0⟩)
      moves := by
    refine always_of_guarded (J := fun st => Sound st.1 ∧ Kept v st.1 ∧
      Lagging st.2.givenUp st.1.view) _ ?_ ?_ allowed
    · intro st move inv guard
      exact ⟨step_sound inv.1 move, step_kept inv.1 inv.2.1 guard.1,
        step_lagging cleans renews inv.1 inv.2.1 inv.2.2 guard.1 guard.2⟩
    · exact ⟨start_sound peer, start_kept peer, lagging_of_empty rfl rfl⟩
  exact always.mono _ fun _ inv => inv.2.2.lagsBy

/-- A server that never unlinks its queues is handed every request once, in order, over all its
restarts, and no message gets lost but the replies cut off. -/
theorem always_handed (cleans : v.cleans = false) (renews : v.renews = false) (peer : σ)
    {moves : List (Move ρ ε ι κ)}
    (once : Guarded (tallyStep v capacity) (fun st => RepliesOnce v st.1) (.start peer, ⟨0, 0⟩)
      moves) :
    Always (tallyStep v capacity) (fun st => Handed st.1 ∧ LeftOver st.1.view st.2)
      (.start peer, ⟨0, 0⟩) moves := by
  have always : Always (tallyStep v capacity) (fun st => (Sound st.1 ∧ Kept v st.1 ∧
      st.1.unsent.length ≤ 1) ∧ Handed st.1 ∧ LeftOver st.1.view st.2) (.start peer, ⟨0, 0⟩)
      moves := by
    refine always_of_guarded (J := fun st => (Sound st.1 ∧ Kept v st.1 ∧
      st.1.unsent.length ≤ 1) ∧ Handed st.1 ∧ LeftOver st.1.view st.2) _ ?_ ?_ once
    · rintro st move ⟨⟨sound, kept, single⟩, handed, left⟩ once
      have gentle := gentle_of_stays cleans renews st.1 move
      exact ⟨⟨step_sound sound move, step_kept sound kept gentle, step_single sound single once⟩,
        step_handed cleans renews sound kept handed move,
        step_leftOver sound kept single left gentle once⟩
    · exact ⟨⟨start_sound peer, start_kept peer, Nat.zero_le _⟩, rfl, rfl⟩
  exact always.mono _ fun _ inv => inv.2

end Losses

end Restarts
