import SysDetector.Library.RequestReply

/-!
# Replies that lag behind

What becomes of the two queues when the client gives up on replies. Every request that is given up
leaves one message in the queues for good: from then on the first reply is for a request that many
before (`always_lagging`). The parties only get stuck once the queues are full of such messages
(`stuck_iff`), and timeouts alone never come that far (`always_short`).
-/

namespace RequestReply
open Runs

variable {σ ρ ε ι α : Type}

def givesUp (s : State σ ρ α) : Step ρ ε ι → Bool
  | .timeout => s.waiting.isSome && s.replies.isEmpty
  | .fail => s.waiting.isSome
  | _ => false

def countStep (p : Peer σ ρ ε ι α) (capacity : Nat) (sk : State σ ρ α × Nat) (input : Step ρ ε ι) :
    State σ ρ α × Nat :=
  (step p capacity sk.1 input, if givesUp sk.1 input then sk.2 + 1 else sk.2)

def AnswersOnce (p : Peer σ ρ ε ι α) (s : State σ ρ α) : Step ρ ε ι → Prop
  | .take env => ∀ ticket request rest, s.requests = (ticket, request) :: rest →
      (p.handle env request s.peer).2.length = 1
  | _ => True

structure LagsBy (k : Nat) (s : State σ ρ α) : Prop where
  left : (inFlight s).length = k + s.waiting.toList.length
  front : ∀ request answered reply rest, s.waiting = some request →
    s.replies = (answered, reply) :: rest → answered + k = request

structure Lagging (k : Nat) (s : State σ ρ α) : Prop where
  newest : ∀ ticket ∈ s.waiting, ticket + 1 = s.sent
  enough : k + s.waiting.toList.length ≤ s.sent
  flight : inFlight s = List.range' (s.sent - (k + s.waiting.toList.length))
    (k + s.waiting.toList.length)

theorem Lagging.lagsBy {k : Nat} {s : State σ ρ α} (lagging : Lagging k s) : LagsBy k s where
  left := by rw [lagging.flight, List.length_range']
  front := by
    intro request answered reply rest waiting replies
    have newest := lagging.newest request waiting
    have enough := lagging.enough
    have flight := lagging.flight
    rw [waiting, Option.toList_some, List.length_singleton] at enough flight
    rw [inFlight, replies, List.range'_succ] at flight
    have first := (List.cons.inj flight).1
    omega

section Steps
variable {p : Peer σ ρ ε ι α} {capacity k : Nat} {s : State σ ρ α}

theorem send_lagging (lagging : Lagging k s) (request : ρ) :
    Lagging k (step p capacity s (.send request)) := by
  unfold step
  dsimp only
  split
  · next allowed =>
      obtain ⟨-, enough, flight⟩ := lagging
      rw [allowed.1, Option.toList_none, List.length_nil, Nat.add_zero] at enough flight
      refine ⟨?_, Nat.succ_le_succ enough, ?_⟩
      · rintro ticket ⟨⟩
        rfl
      · have last : s.sent - k + k = s.sent := Nat.sub_add_cancel enough
        simp only [inFlight, List.map_append, List.map_singleton, ← List.append_assoc] at flight ⊢
        rw [flight, Option.toList_some, List.length_singleton, Nat.add_sub_add_right,
          List.range'_1_concat, last]
  · exact lagging

theorem take_lagging (lagging : Lagging k s) {env : ε} (once : AnswersOnce p s (.take env)) :
    Lagging k (step p capacity s (.take env)) := by
  unfold step
  cases requests : s.requests with
  | nil => exact lagging
  | cons first rest =>
      obtain ⟨ticket, request⟩ := first
      cases unsent : s.unsent with
      | cons reply others => exact lagging
      | nil =>
          obtain ⟨reply, single⟩ := List.length_eq_one_iff.mp (once ticket request rest requests)
          refine ⟨lagging.newest, lagging.enough, ?_⟩
          have flight := lagging.flight
          simp only [inFlight, requests, unsent] at flight
          simpa [inFlight, single] using flight

theorem emit_lagging (lagging : Lagging k s) : Lagging k (step p capacity s .emit) := by
  unfold step
  cases unsent : s.unsent with
  | nil => exact lagging
  | cons reply rest =>
      dsimp only
      split
      · refine ⟨lagging.newest, lagging.enough, ?_⟩
        have flight := lagging.flight
        simp only [inFlight, unsent] at flight
        simpa [inFlight] using flight
      · exact lagging

theorem receive_lagging (lagging : Lagging k s) : Lagging k (step p capacity s .receive) := by
  unfold step
  cases waiting : s.waiting with
  | none => exact lagging
  | some request =>
      cases replies : s.replies with
      | nil => exact lagging
      | cons reply rest =>
          obtain ⟨-, enough, flight⟩ := lagging
          rw [waiting, Option.toList_some, List.length_singleton] at enough flight
          rw [inFlight, replies, List.range'_succ] at flight
          have others := (List.cons.inj flight).2
          rw [show s.sent - (k + 1) + 1 = s.sent - k by omega] at others
          exact ⟨by simp, Nat.le_of_succ_le enough, others⟩

theorem Lagging.gaveUp (lagging : Lagging k s) {request : Nat} (waiting : s.waiting = some request) :
    Lagging (k + 1) { s with waiting := none } := by
  obtain ⟨-, enough, flight⟩ := lagging
  rw [waiting] at enough flight
  exact ⟨nofun, enough, flight⟩

theorem giveUp_lagging (lagging : Lagging k s) :
    Lagging (if s.waiting.isSome then k + 1 else k) { s with waiting := none } := by
  cases waiting : s.waiting with
  | none =>
      have same : { s with waiting := none } = s := by rw [← waiting]
      rw [same]
      exact lagging
  | some request => exact lagging.gaveUp waiting

theorem step_lagging (input : Step ρ ε ι) (lagging : Lagging k s) (once : AnswersOnce p s input) :
    Lagging (if givesUp s input then k + 1 else k) (step p capacity s input) := by
  cases input with
  | send request => exact send_lagging lagging request
  | take env => exact take_lagging lagging once
  | emit => exact emit_lagging lagging
  | receive => exact receive_lagging lagging
  | timeout =>
      rw [step, givesUp]
      cases replies : s.replies with
      | nil =>
          rw [if_pos rfl, List.isEmpty_nil, Bool.and_true, ← replies]
          exact giveUp_lagging lagging
      | cons reply rest =>
          rw [if_neg (List.cons_ne_nil _ _), List.isEmpty_cons, Bool.and_false]
          exact lagging
  | fail => exact giveUp_lagging lagging
  | act input => exact ⟨lagging.newest, lagging.enough, lagging.flight⟩

theorem always_lagging (peer : σ) {steps : List (Step ρ ε ι)}
    (once : Guarded (countStep p capacity) (fun sk => AnswersOnce p sk.1) (.start peer, 0) steps) :
    Always (countStep p capacity) (fun sk => Lagging sk.2 sk.1) (.start peer, 0) steps := by
  have start : Lagging 0 (State.start peer : State σ ρ α) := ⟨nofun, Nat.le_refl 0, rfl⟩
  exact always_of_guarded _ (fun sk input lagging => step_lagging input lagging) start once

/-! ## Full queues -/

structure Fits (capacity : Nat) (s : State σ ρ α) : Prop where
  requests : s.requests.length ≤ capacity
  unsent : s.unsent.length ≤ 1
  replies : s.replies.length ≤ capacity

theorem step_fits (input : Step ρ ε ι) (fits : Fits capacity s) (once : AnswersOnce p s input) :
    Fits capacity (step p capacity s input) := by
  obtain ⟨requests, unsent, replies⟩ := fits
  cases input with
  | send request =>
      unfold step
      dsimp only
      split
      · next allowed =>
          refine ⟨?_, unsent, replies⟩
          rw [List.length_append]
          exact allowed.2
      · exact ⟨requests, unsent, replies⟩
  | take env =>
      unfold step
      cases waiting : s.requests with
      | nil => exact ⟨requests, unsent, replies⟩
      | cons first rest =>
          obtain ⟨ticket, request⟩ := first
          cases s.unsent with
          | cons reply others => exact ⟨requests, unsent, replies⟩
          | nil =>
              rw [waiting] at requests
              refine ⟨Nat.le_of_succ_le requests, ?_, replies⟩
              rw [List.length_map]
              exact (once ticket request rest waiting).le
  | emit =>
      unfold step
      cases sending : s.unsent with
      | nil => exact ⟨requests, unsent, replies⟩
      | cons reply rest =>
          dsimp only
          split
          · next room =>
              rw [sending] at unsent
              refine ⟨requests, Nat.le_of_succ_le unsent, ?_⟩
              rw [List.length_append]
              exact room
          · exact ⟨requests, unsent, replies⟩
  | receive =>
      unfold step
      cases s.waiting with
      | none => exact ⟨requests, unsent, replies⟩
      | some request =>
          cases queued : s.replies with
          | nil => exact ⟨requests, unsent, replies⟩
          | cons reply rest =>
              rw [queued] at replies
              exact ⟨requests, unsent, Nat.le_of_succ_le replies⟩
  | timeout =>
      unfold step
      dsimp only
      split <;> exact ⟨requests, unsent, replies⟩
  | fail => exact ⟨requests, unsent, replies⟩
  | act input => exact ⟨requests, unsent, replies⟩

theorem length_inFlight (s : State σ ρ α) :
    (inFlight s).length = s.replies.length + s.unsent.length + s.requests.length := by
  simp only [inFlight, List.length_append, List.length_map]

variable (p capacity) in
/-- Neither party can go on, except that the client gives up. -/
structure Stuck (s : State σ ρ α) : Prop where
  send : ∀ request, step p capacity s (.send request) = s
  take : ∀ env, step p capacity s (.take env) = s
  emit : step p capacity s .emit = s
  receive : step p capacity s .receive = s

theorem send_eq_self_iff (request : ρ) : step p capacity s (.send request) = s ↔
    (s.waiting = none → capacity ≤ s.requests.length) := by
  unfold step
  dsimp only
  split
  · next allowed =>
      refine iff_of_false (fun same => ?_) fun full => absurd allowed.2 (full allowed.1).not_gt
      exact absurd (congrArg State.sent same) (Nat.succ_ne_self _)
  · next refused =>
      exact iff_of_true rfl fun idle => Nat.le_of_not_lt fun room => refused ⟨idle, room⟩

theorem take_eq_self_iff (env : ε) :
    step p capacity s (.take env) = s ↔ (s.unsent = [] → s.requests = []) := by
  unfold step
  cases requests : s.requests with
  | nil => exact iff_of_true rfl fun _ => rfl
  | cons first rest =>
      cases unsent : s.unsent with
      | cons reply others => exact iff_of_true rfl nofun
      | nil =>
          refine iff_of_false (fun same => ?_) (by simp)
          have shorter := congrArg (fun t => t.requests.length) same
          rw [requests] at shorter
          exact absurd shorter (Nat.succ_ne_self _).symm

theorem emit_eq_self_iff : step p capacity s .emit = s ↔
    (s.unsent ≠ [] → capacity ≤ s.replies.length) := by
  unfold step
  cases unsent : s.unsent with
  | nil => exact iff_of_true rfl fun some => absurd rfl some
  | cons reply rest =>
      dsimp only
      split
      · next room =>
          refine iff_of_false (fun same => ?_) fun full =>
            absurd room (full (List.cons_ne_nil _ _)).not_gt
          have shorter := congrArg (fun t => t.unsent.length) same
          rw [unsent] at shorter
          exact absurd shorter (Nat.succ_ne_self _).symm
      · next full => exact iff_of_true rfl fun _ => Nat.le_of_not_lt full

theorem receive_eq_self_iff : step p capacity s .receive = s ↔
    (s.waiting ≠ none → s.replies = []) := by
  unfold step
  cases waiting : s.waiting with
  | none => exact iff_of_true rfl fun some => absurd rfl some
  | some request =>
      cases replies : s.replies with
      | nil => exact iff_of_true rfl fun _ => rfl
      | cons reply rest =>
          refine iff_of_false (fun same => ?_) fun none => by cases none (by simp)
          have idle := congrArg State.waiting same
          rw [waiting] at idle
          cases idle

theorem stuck_iff [Nonempty ρ] [Nonempty ε] (positive : 0 < capacity) (lagging : Lagging k s)
    (fits : Fits capacity s) :
    Stuck p capacity s ↔ s.waiting = none ∧ k = 2 * capacity + 1 := by
  have left := lagging.lagsBy.left
  rw [length_inFlight] at left
  obtain ⟨requests, unsent, replies⟩ := fits
  constructor
  · rintro ⟨send, take, emit, receive⟩
    have full := (send_eq_self_iff _).mp (send (Classical.arbitrary ρ))
    have taken := (take_eq_self_iff _).mp (take (Classical.arbitrary ε))
    rw [emit_eq_self_iff] at emit
    rw [receive_eq_self_iff] at receive
    have idle : s.waiting = none := by
      by_contra asking
      have noReplies := receive asking
      have noUnsent : s.unsent = [] := by
        by_contra some
        have none := emit some
        rw [noReplies] at none
        exact absurd positive none.not_gt
      obtain ⟨request, waiting⟩ := Option.ne_none_iff_exists'.mp asking
      rw [noReplies, noUnsent, taken noUnsent, waiting] at left
      cases left
    have some : s.unsent ≠ [] := by
      intro none
      have room := full idle
      rw [taken none] at room
      exact absurd positive room.not_gt
    have one := List.length_pos_iff.mpr some
    have noRoom := full idle
    have noReply := emit some
    rw [idle, Option.toList_none, List.length_nil] at left
    exact ⟨idle, by omega⟩
  · rintro ⟨idle, rfl⟩
    rw [idle, Option.toList_none, List.length_nil] at left
    have some : s.unsent ≠ [] := List.length_pos_iff.mp (by omega)
    constructor
    · intro request
      exact (send_eq_self_iff request).mpr fun _ => by omega
    · intro env
      exact (take_eq_self_iff env).mpr fun none => absurd none some
    · exact emit_eq_self_iff.mpr fun _ => by omega
    · exact receive_eq_self_iff.mpr fun asking => absurd idle asking

/-! ## Timeouts alone -/

theorem step_short (input : Step ρ ε ι) (lagging : Lagging k s) (fits : Fits capacity s)
    (short : k ≤ capacity + 1) (noFailure : input ≠ .fail) :
    (if givesUp s input then k + 1 else k) ≤ capacity + 1 := by
  split_ifs with abandoned
  · cases input with
    | timeout =>
        rw [givesUp, Bool.and_eq_true, Option.isSome_iff_exists, List.isEmpty_iff] at abandoned
        obtain ⟨⟨request, waiting⟩, replies⟩ := abandoned
        have left := lagging.lagsBy.left
        rw [length_inFlight, replies, waiting, Option.toList_some, List.length_singleton,
          List.length_nil] at left
        have requests := fits.requests
        have unsent := fits.unsent
        omega
    | fail => exact absurd rfl noFailure
    | _ => cases abandoned
  · exact short

theorem always_fits (peer : σ) {steps : List (Step ρ ε ι)}
    (once : Guarded (countStep p capacity) (fun sk => AnswersOnce p sk.1) (.start peer, 0) steps) :
    Always (countStep p capacity) (fun sk => Fits capacity sk.1) (.start peer, 0) steps := by
  have empty : Fits capacity (State.start peer : State σ ρ α) :=
    ⟨Nat.zero_le _, Nat.zero_le _, Nat.zero_le _⟩
  exact always_of_guarded _ (J := fun sk => Fits capacity sk.1)
    (fun sk input fits => step_fits input fits) empty once

theorem always_short (peer : σ) {steps : List (Step ρ ε ι)}
    (once : Guarded (countStep p capacity) (fun sk => AnswersOnce p sk.1) (.start peer, 0) steps)
    (noFailure : .fail ∉ steps) :
    Always (countStep p capacity) (fun sk => sk.2 ≤ capacity + 1) (.start peer, 0) steps := by
  have lagging := always_lagging peer once
  have fits := always_fits peer once
  have guard : Guarded (countStep p capacity)
      (fun sk input => Lagging sk.2 sk.1 ∧ Fits capacity sk.1 ∧ input ≠ .fail) (.start peer, 0)
      steps := by
    intro past input rest split
    have before : past <+: steps := ⟨input :: rest, split.symm⟩
    refine ⟨lagging past before, fits past before, ?_⟩
    rintro rfl
    exact noFailure (by simp [split])
  exact always_of_guarded _ (J := fun sk => sk.2 ≤ capacity + 1)
    (fun sk input short allowed => step_short input allowed.1 allowed.2.1 short allowed.2.2)
    (Nat.zero_le _) guard

/-- The parties get stuck when as many requests were given up as there is room for messages. -/
theorem always_stuck_iff [Nonempty ρ] [Nonempty ε] (positive : 0 < capacity) (peer : σ)
    {steps : List (Step ρ ε ι)}
    (once : Guarded (countStep p capacity) (fun sk => AnswersOnce p sk.1) (.start peer, 0) steps) :
    Always (countStep p capacity) (fun sk => Stuck p capacity sk.1 ↔
        sk.1.waiting = none ∧ sk.2 = 2 * capacity + 1) (.start peer, 0) steps ∧
      (.fail ∉ steps → Always (countStep p capacity)
        (fun sk => sk.2 ≤ capacity + 1 ∧ ¬ Stuck p capacity sk.1) (.start peer, 0) steps) := by
  have always : Always (countStep p capacity) (fun sk => Stuck p capacity sk.1 ↔
      sk.1.waiting = none ∧ sk.2 = 2 * capacity + 1) (.start peer, 0) steps :=
    fun past before =>
      stuck_iff positive (always_lagging peer once past before) (always_fits peer once past before)
  refine ⟨always, fun noFailure past before => ?_⟩
  have short := always_short peer once noFailure past before
  refine ⟨short, fun stuck => ?_⟩
  have many := ((always past before).mp stuck).2
  omega

end Steps

end RequestReply
