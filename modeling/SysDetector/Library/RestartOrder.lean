import SysDetector.Library.RestartViews

namespace Restarts
open Runs NamedQueues RequestReply

variable {σ ρ ε ι κ α : Type}

/-! ## The order of replies -/

def tickets (s : State σ ρ α) : List Nat := s.returned.map Exchange.answered ++ inFlight s

structure Ordered (s : State σ ρ α) : Prop where
  sorted : (tickets s).Pairwise (· < ·)
  below : ∀ ticket ∈ tickets s, ticket < s.sent
  newest : ∀ ticket ∈ s.waiting, ticket + 1 = s.sent
  own : ∀ exchange ∈ s.returned, exchange.answered ≤ exchange.request

section Plain
variable {p : Peer σ ρ ε ι α} {capacity : Nat} {s : State σ ρ α}

theorem send_ordered (ordered : Ordered s) (request : ρ) :
    Ordered (RequestReply.step p capacity s (.send request)) := by
  obtain ⟨sorted, below, newest, own⟩ := ordered
  unfold RequestReply.step
  dsimp only
  split
  · have more : tickets { s with
        sent := s.sent + 1
        waiting := some s.sent
        requests := s.requests ++ [(s.sent, request)] } = tickets s ++ [s.sent] := by
      simp only [tickets, inFlight, List.map_append, List.map_singleton, List.append_assoc]
    refine ⟨?_, ?_, ?_, own⟩
    · rw [more, List.pairwise_append]
      refine ⟨sorted, List.pairwise_singleton _ _, fun ticket member last single => ?_⟩
      rw [List.mem_singleton.mp single]
      exact below ticket member
    · intro ticket member
      rw [more, List.mem_append, List.mem_singleton] at member
      rcases member with old | rfl
      · exact Nat.lt_succ_of_lt (below ticket old)
      · exact Nat.lt_succ_self _
    · rintro ticket ⟨⟩
      rfl
  · exact ⟨sorted, below, newest, own⟩

theorem take_ordered (ordered : Ordered s) {env : ε} (once : AnswersOnce p s (.take env)) :
    Ordered (RequestReply.step p capacity s (.take env)) := by
  unfold RequestReply.step
  cases requests : s.requests with
  | nil => exact ordered
  | cons first rest =>
      obtain ⟨ticket, request⟩ := first
      cases unsent : s.unsent with
      | cons reply others => exact ordered
      | nil =>
          obtain ⟨reply, single⟩ := List.length_eq_one_iff.mp (once ticket request rest requests)
          have same : tickets { s with
              peer := (p.handle env request s.peer).1
              requests := rest
              unsent := (p.handle env request s.peer).2.map fun reply => (ticket, reply) } =
                tickets s := by
            simp only [tickets, inFlight, requests, unsent, single, List.map_cons, List.map_nil,
              List.append_nil, List.append_assoc, List.singleton_append]
          obtain ⟨sorted, below, newest, own⟩ := ordered
          exact ⟨by rwa [same], by rwa [same], newest, own⟩

theorem emit_ordered (ordered : Ordered s) : Ordered (RequestReply.step p capacity s .emit) := by
  unfold RequestReply.step
  cases unsent : s.unsent with
  | nil => exact ordered
  | cons reply rest =>
      dsimp only
      split
      · have same : tickets { s with unsent := rest, replies := s.replies ++ [reply] } =
            tickets s := by
          simp only [tickets, inFlight, unsent, List.map_cons, List.map_append, List.map_nil,
            List.append_assoc, List.singleton_append]
        obtain ⟨sorted, below, newest, own⟩ := ordered
        exact ⟨by rwa [same], by rwa [same], newest, own⟩
      · exact ordered

theorem receive_ordered (ordered : Ordered s) :
    Ordered (RequestReply.step p capacity s .receive) := by
  unfold RequestReply.step
  cases waiting : s.waiting with
  | none => exact ordered
  | some request =>
      cases replies : s.replies with
      | nil => exact ordered
      | cons first rest =>
          obtain ⟨answered, reply⟩ := first
          have same : tickets { s with
              waiting := none
              replies := rest
              returned := s.returned ++ [⟨request, answered, reply⟩] } = tickets s := by
            simp only [tickets, inFlight, replies, List.map_cons, List.map_append, List.map_nil,
              List.append_assoc, List.cons_append, List.nil_append]
          obtain ⟨sorted, below, newest, own⟩ := ordered
          have first : answered ∈ tickets s := by
            simp only [tickets, inFlight, replies, List.map_cons, List.mem_append, List.mem_cons]
            exact .inr (.inl (.inl (.inl trivial)))
          refine ⟨by rwa [same], by rwa [same], by simp, ?_⟩
          intro exchange member
          rcases List.mem_append.mp member with old | new
          · exact own exchange old
          · rw [List.mem_singleton.mp new]
            have bound := below answered first
            have last := newest request waiting
            dsimp only
            omega

theorem Ordered.gaveUp (ordered : Ordered s) : Ordered { s with waiting := none } :=
  ⟨ordered.sorted, ordered.below, by simp, ordered.own⟩

theorem plain_ordered (ordered : Ordered s) (input : Step ρ ε ι) (once : AnswersOnce p s input) :
    Ordered (RequestReply.step p capacity s input) := by
  cases input with
  | send request => exact send_ordered ordered request
  | take env => exact take_ordered ordered once
  | emit => exact emit_ordered ordered
  | receive => exact receive_ordered ordered
  | timeout =>
      unfold RequestReply.step
      dsimp only
      split
      · exact ordered.gaveUp
      · exact ordered
  | fail => exact ordered.gaveUp
  | act input => exact ⟨ordered.sorted, ordered.below, ordered.newest, ordered.own⟩

theorem Ordered.thinned {whole : Prop} {t s : State σ ρ α} (ordered : Ordered s)
    (thinned : Thinned whole t s) : Ordered t := by
  have fewer : (tickets t).Sublist (tickets s) := by
    unfold tickets
    rw [thinned.returned]
    exact (List.Sublist.refl _).append thinned.inFlight
  refine ⟨ordered.sorted.sublist fewer, ?_, ?_, ?_⟩
  · rw [thinned.sent]
    exact fun ticket member => ordered.below ticket (fewer.subset member)
  · rw [thinned.sent, thinned.waiting]
    exact ordered.newest
  · rw [thinned.returned]
    exact ordered.own

end Plain

def RepliesOnce (v : Service σ ρ ε ι κ α) (s : System σ ρ α) : Move ρ ε ι κ → Prop
  | .process (.take env) => ∀ ticket request rest,
      s.requests.held s.requests.linked = (ticket, request) :: rest →
        (v.peer.handle env request s.peer).2.length = 1
  | _ => True

/-- Each reply was taken once at most, in the order of the requests, and never for a request before
its own. -/
structure InOrder (s : System σ ρ α) : Prop where
  once : (s.returned.map Exchange.answered).Pairwise (· < ·)
  own : ∀ exchange ∈ s.returned, exchange.answered ≤ exchange.request

section Runs
variable {v : Service σ ρ ε ι κ α} {capacity : Nat} {s : System σ ρ α}

theorem plainStep_take {move : Move ρ ε ι κ} {env : ε}
    (plain : plainStep capacity s move = some (.take env)) : move = .process (.take env) := by
  cases move with
  | client move =>
      unfold plainStep clientStep at plain
      dsimp only at plain
      split at plain
      · cases plain
      · cases plain
      · split at plain
        · split at plain <;> cases plain
        · cases plain
      · cases plain
      · cases plain
      · cases plain
  | process move =>
      unfold plainStep processStep at plain
      dsimp only at plain
      split at plain
      · split at plain
        · split at plain
          · cases plain
            rfl
          · cases plain
        · cases plain
      · cases plain
      · split at plain
        · split at plain <;> cases plain
        · cases plain
      all_goals cases plain

theorem plain_once {move : Move ρ ε ι κ} (once : RepliesOnce v s move) {input : Step ρ ε ι}
    (plain : plainStep capacity s move = some input) : AnswersOnce v.peer s.view input := by
  cases input with
  | take env =>
      rw [plainStep_take plain] at once
      exact once
  | _ => trivial

theorem step_keeps {J : State σ ρ α → Prop} (sound : Sound s) (move : Move ρ ε ι κ)
    (plain : ∀ input, plainStep capacity s move = some input →
      J (RequestReply.step v.peer capacity s.view input))
    (thinned : ∀ t u, Thinned (¬ Loses v s move) t u → J u → J t) (kept : J s.view) :
    J (step v capacity s move).view := by
  have viewed : Viewed v capacity s (step v capacity s move) move := step_view sound move
  refine thinned _ _ viewed ?_
  cases found : plainStep capacity s move with
  | none => exact kept
  | some input => exact plain input found

theorem step_ordered (sound : Sound s) (ordered : Ordered s.view) {move : Move ρ ε ι κ}
    (once : RepliesOnce v s move) : Ordered (step v capacity s move).view :=
  step_keeps sound move (fun input plain => plain_ordered ordered input (plain_once once plain))
    (fun _ _ thinned ordered => ordered.thinned thinned) ordered

theorem start_ordered (peer : σ) : Ordered (System.start peer : System σ ρ α).view where
  sorted := List.Pairwise.nil
  below := by
    intro ticket member
    cases member
  newest := by
    intro ticket member
    cases member
  own := by
    intro exchange member
    cases member

theorem Ordered.inOrder (ordered : Ordered s.view) : InOrder s where
  once := (List.pairwise_append.mp ordered.sorted).1
  own := ordered.own

theorem always_inOrder (peer : σ) {moves : List (Move ρ ε ι κ)}
    (once : Guarded (step v capacity) (RepliesOnce v) (.start peer) moves) :
    Always (step v capacity) InOrder (.start peer) moves := by
  have always : Always (step v capacity) (fun s => Sound s ∧ Ordered s.view) (.start peer) moves := by
    refine always_of_guarded _ (fun s move both once => ?_)
      ⟨start_sound peer, start_ordered peer⟩ once
    exact ⟨step_sound both.1 move, step_ordered both.1 both.2 once⟩
  exact always.mono _ fun s both => both.2.inOrder

end Runs

end Restarts
