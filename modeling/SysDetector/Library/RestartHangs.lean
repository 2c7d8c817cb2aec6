import SysDetector.Library.RestartLosses

namespace Restarts
open Runs NamedQueues RequestReply

variable {σ ρ ε ι κ α : Type}

/-- What keeps a process from taking another request: it has left its loop, is about to, or waits
for room for its replies. -/
def Blocked (capacity : Nat) (s : System σ ρ α) (p : Process α) : Prop :=
  p.place = .ended ∨ (p.leaving = true ∧ p.place ≠ .receiving) ∨
    (p.place = .testing ∧ ∃ r ∈ s.replies.linked,
      capacity < (s.replies.contents r).length + p.unsent.length)

structure Shut (capacity : Nat) (s : System σ ρ α) (c : Nat) : Prop where
  full : capacity ≤ (s.requests.contents c).length
  closed : ∀ p ∈ s.process, p.requests = c → Blocked capacity s p

structure Bounded (capacity : Nat) (s : System σ ρ α) : Prop where
  requests : ∀ i, (s.requests.contents i).length ≤ capacity
  replies : ∀ i, (s.replies.contents i).length ≤ capacity

section Bounds
variable {v : Service σ ρ ε ι κ α} {capacity : Nat} {s : System σ ρ α} {β : Type}

theorem put_bounded {q : Named β} (bounded : ∀ i, (q.contents i).length ≤ capacity) {i : Nat}
    (valid : i < q.queues.length) (room : (q.contents i).length < capacity) (b : β) (j : Nat) :
    ((q.put i b).contents j).length ≤ capacity := by
  rw [Named.contents_put q valid]
  split
  · next same =>
      subst same
      rw [List.length_append]
      exact room
  · exact bounded j

theorem drop_bounded {q : Named β} (bounded : ∀ i, (q.contents i).length ≤ capacity) (i j : Nat) :
    ((q.drop i).contents j).length ≤ capacity := by
  rw [Named.contents_drop]
  split
  · rw [List.length_tail]
    exact (Nat.sub_le _ _).trans (bounded j)
  · exact bounded j

theorem start_bounded (peer : σ) : Bounded capacity (System.start peer : System σ ρ α) where
  requests _ := Nat.zero_le _
  replies _ := Nat.zero_le _

theorem clientMove_bounded (sound : Sound s) (bounded : Bounded capacity s) (move : ClientMove ρ) :
    Bounded capacity (clientMove capacity s move) := by
  unfold clientMove
  split
  · split
    · refine ⟨bounded.requests, fun i => ?_⟩
      show (s.replies.create.2.contents i).length ≤ capacity
      rw [Named.contents_create]
      exact bounded.replies i
    · exact bounded
  · split
    · split <;> exact ⟨bounded.requests, bounded.replies⟩
    · exact bounded
  · split
    · next r c request client =>
        split
        · next room =>
            have valid := (sound.sends c (by rw [client, Client.requests]; rfl)).1
            exact ⟨put_bounded bounded.requests valid room _, bounded.replies⟩
        · exact bounded
    · exact bounded
  · split
    · split
      · exact ⟨bounded.requests, drop_bounded bounded.replies _⟩
      · exact bounded
    · exact bounded
  · split
    · split
      · exact ⟨bounded.requests, bounded.replies⟩
      · exact bounded
    · exact bounded
  · exact ⟨bounded.requests, bounded.replies⟩

theorem processMove_bounded (bounded : Bounded capacity s) (p : Process α)
    (move : ProcessMove ε ι κ) : Bounded capacity (processMove v capacity p s move) := by
  cases move with
  | start input => exact bounded
  | kill => exact ⟨bounded.requests, bounded.replies⟩
  | take env =>
      unfold processMove takeRequest
      dsimp only
      split
      · split
        · exact ⟨drop_bounded bounded.requests _, bounded.replies⟩
        · exact ⟨bounded.requests, bounded.replies⟩
      · exact bounded
  | emit =>
      unfold processMove emitReply
      dsimp only
      split
      · split
        · exact ⟨bounded.requests, bounded.replies⟩
        · next r linked =>
            split
            · next room =>
                exact ⟨bounded.requests,
                  put_bounded bounded.replies (s.replies.valid r linked) room _⟩
            · exact bounded
      · exact bounded
  | _ =>
      unfold processMove
      dsimp only
      split <;> exact ⟨bounded.requests, bounded.replies⟩

theorem step_bounded (sound : Sound s) (bounded : Bounded capacity s) (move : Move ρ ε ι κ) :
    Bounded capacity (step v capacity s move) := by
  cases move with
  | client move => exact clientMove_bounded sound bounded move
  | process move =>
      unfold step serviceMove
      dsimp only
      split
      · exact processMove_bounded bounded _ _
      · refine ⟨fun i => ?_, bounded.replies⟩
        unfold launch
        dsimp only
        rw [Named.contents_create]
        split <;> exact bounded.requests i
      · exact bounded

end Bounds

/-! ## No way out -/

section Hangs
variable {v : Service σ ρ ε ι κ α} {capacity : Nat} {s : System σ ρ α} {r c : Nat} {request : ρ}

theorem clientMove_shut (client : s.client = .sending r c request) (shut : Shut capacity s c)
    {move : ClientMove ρ} (works : move ≠ .fail) : clientMove capacity s move = s := by
  cases move with
  | send =>
      unfold clientMove
      rw [client]
      exact if_neg shut.full.not_gt
  | fail => exact absurd rfl works
  | _ =>
      unfold clientMove
      rw [client]

theorem Shut.withProcess (shut : Shut capacity s c) {p' : Process α}
    (blocked : p'.requests = c → Blocked capacity s p') :
    Shut capacity { s with process := some p' } c where
  full := shut.full
  closed := by
    rintro _ ⟨⟩ reads
    exact blocked reads

theorem takeRequest_shut (shut : Shut capacity s c) {p : Process α}
    (elsewhere : p.requests ≠ c) (env : ε) : Shut capacity (takeRequest v env p s) c := by
  unfold takeRequest
  split
  · refine ⟨?_, ?_⟩
    · show capacity ≤ ((s.requests.drop p.requests).contents c).length
      rw [Named.contents_drop, if_neg elsewhere]
      exact shut.full
    · rintro _ ⟨⟩ reads
      exact absurd reads elsewhere
  · exact shut.withProcess fun reads => absurd reads elsewhere

theorem emitReply_shut (shut : Shut capacity s c) {p : Process α} (alive : s.process = some p) :
    Shut capacity (emitReply capacity p s) c := by
  have blocked := shut.closed p alive
  unfold emitReply
  split
  · next reply rest unsent =>
      split
      · next none =>
          refine shut.withProcess fun reads => ?_
          rcases blocked reads with ended | leaving | ⟨-, r, linked, -⟩
          · exact .inl ended
          · exact .inr (.inl leaving)
          · rw [none] at linked
            cases linked
      · next q linked =>
          split
          · refine ⟨shut.full, ?_⟩
            rintro _ ⟨⟩ reads
            rcases blocked reads with ended | leaving | ⟨testing, r, named, many⟩
            · exact .inl ended
            · exact .inr (.inl leaving)
            · rw [linked] at named
              cases named
              refine .inr (.inr ⟨testing, q, linked, ?_⟩)
              rw [unsent, List.length_cons] at many
              show capacity < ((s.replies.put q reply).contents q).length + rest.length
              rw [Named.contents_put _ (s.replies.valid q linked), if_pos rfl, List.length_append,
                List.length_singleton]
              omega
          · exact shut
  · exact shut

theorem processMove_shut (bounded : Bounded capacity s) (shut : Shut capacity s c) {p : Process α}
    (alive : s.process = some p) (move : ProcessMove ε ι κ) :
    Shut capacity (processMove v capacity p s move) c := by
  have blocked := shut.closed p alive
  have gone : Shut capacity { s with process := none } c := ⟨shut.full, by simp⟩
  cases move with
  | start input => exact shut
  | ready =>
      unfold processMove
      dsimp only
      split
      · next starting =>
          refine shut.withProcess fun reads => ?_
          rcases blocked reads with ended | ⟨leaving, -⟩ | ⟨testing, -⟩
          · rw [starting] at ended
            cases ended
          · exact .inr (.inl ⟨leaving, by simp⟩)
          · rw [starting] at testing
            cases testing
      · exact shut
  | test =>
      unfold processMove
      dsimp only
      split
      · next allowed =>
          refine shut.withProcess fun reads => ?_
          rcases blocked reads with ended | ⟨leaving, -⟩ | ⟨-, r, -, many⟩
          · rw [allowed.1] at ended
            cases ended
          · left
            dsimp only
            rw [leaving, if_pos rfl]
          · rw [allowed.2, List.length_nil] at many
            exact absurd many (bounded.replies r).not_gt
      · exact shut
  | take env =>
      unfold processMove
      dsimp only
      split
      · next receiving =>
          refine takeRequest_shut shut (fun reads => ?_) env
          rcases blocked reads with ended | ⟨-, elsewhere⟩ | ⟨testing, -⟩
          · rw [receiving] at ended
            cases ended
          · exact elsewhere receiving
          · rw [receiving] at testing
            cases testing
      · exact shut
  | emit => exact emitReply_shut shut alive
  | act input =>
      unfold processMove
      dsimp only
      split
      · exact shut
      · exact ⟨shut.full, shut.closed⟩
  | stop =>
      unfold processMove
      dsimp only
      split
      · refine shut.withProcess fun reads => ?_
        rcases blocked reads with ended | leaving | ⟨testing, -⟩
        · exact .inl ended
        · exact .inr (.inl ⟨rfl, leaving.2⟩)
        · exact .inr (.inl ⟨rfl, by simp [testing]⟩)
      · exact gone
  | cleanUp =>
      unfold processMove
      dsimp only
      split
      · exact ⟨shut.full, by simp⟩
      · exact shut
  | kill => exact gone

theorem launch_shut (renews : v.renews = true) (valid : c < s.requests.queues.length)
    (shut : Shut capacity s c) (input : κ) : Shut capacity (launch v input s) c := by
  unfold launch
  rw [renews, if_pos rfl]
  refine ⟨?_, ?_⟩
  · show capacity ≤ (s.requests.unlink.create.2.contents c).length
    rw [Named.contents_create]
    exact shut.full
  · rintro _ ⟨⟩ reads
    have fresh := (s.requests.unlink.create_unlinked rfl).1
    dsimp only at reads
    rw [fresh, Named.length_unlink] at reads
    exact absurd reads valid.ne'

theorem processMove_client (p : Process α) (s : System σ ρ α) (move : ProcessMove ε ι κ) :
    (processMove v capacity p s move).client = s.client ∧
      (processMove v capacity p s move).returned = s.returned := by
  cases move with
  | start input => exact ⟨rfl, rfl⟩
  | kill => exact ⟨rfl, rfl⟩
  | take env =>
      unfold processMove takeRequest
      dsimp only
      split
      · split <;> exact ⟨rfl, rfl⟩
      · exact ⟨rfl, rfl⟩
  | emit =>
      unfold processMove emitReply
      dsimp only
      split
      · split
        · exact ⟨rfl, rfl⟩
        · split <;> exact ⟨rfl, rfl⟩
      · exact ⟨rfl, rfl⟩
  | _ =>
      unfold processMove
      dsimp only
      split <;> exact ⟨rfl, rfl⟩

variable (v capacity) in
theorem serviceMove_client (s : System σ ρ α) (move : ProcessMove ε ι κ) :
    (step v capacity s (.process move)).client = s.client ∧
      (step v capacity s (.process move)).returned = s.returned := by
  unfold step serviceMove
  dsimp only
  split
  · exact processMove_client _ s _
  · exact ⟨rfl, rfl⟩
  · exact ⟨rfl, rfl⟩

theorem step_shut (renews : v.renews = true) (sound : Sound s) (bounded : Bounded capacity s)
    (client : s.client = .sending r c request) (shut : Shut capacity s c) {move : Move ρ ε ι κ}
    (works : move ≠ .client .fail) : (step v capacity s move).client = s.client ∧
      (step v capacity s move).returned = s.returned ∧ Shut capacity (step v capacity s move) c := by
  cases move with
  | client move =>
      have stays : step v capacity s (.client move) = s :=
        clientMove_shut client shut fun fails => works (by rw [fails])
      rw [stays]
      exact ⟨rfl, rfl, shut⟩
  | process move =>
      have valid := (sound.sends c (by rw [client, Client.requests]; rfl)).1
      obtain ⟨same, nothing⟩ := serviceMove_client v capacity s move
      refine ⟨same, nothing, ?_⟩
      unfold step serviceMove
      dsimp only
      split
      · next p move alive => exact processMove_shut bounded shut alive _
      · exact launch_shut renews valid shut _
      · exact shut

theorem run_shut (renews : v.renews = true) (sound : Sound s) (bounded : Bounded capacity s)
    (client : s.client = .sending r c request) (shut : Shut capacity s c)
    {moves : List (Move ρ ε ι κ)} (works : .client .fail ∉ moves) :
    (run (step v capacity) s moves).client = s.client ∧
      (run (step v capacity) s moves).returned = s.returned := by
  induction moves generalizing s with
  | nil => exact ⟨rfl, rfl⟩
  | cons move moves ih =>
      rw [List.mem_cons, not_or] at works
      obtain ⟨same, nothing, after⟩ :=
        step_shut renews sound bounded client shut (Ne.symm works.1)
      have rest := ih (step_sound sound move) (step_bounded sound bounded move)
        (same.trans client) after works.2
      rw [run_cons, rest.1, rest.2]
      exact ⟨same, nothing⟩

/-! ## Ways out -/

variable (v capacity s) in
/-- Some moves get the client out without a failing system call. -/
def Releases : Prop := ∃ moves : List (Move ρ ε ι κ), .client .fail ∉ moves ∧
  (run (step v capacity) s moves).client ≠ s.client

theorem Releases.before (sound : Sound s) (bounded : Bounded capacity s) (move : ProcessMove ε ι κ)
    {u : System σ ρ α} (becomes : step v capacity s (.process move) = u)
    (later : Sound u → Bounded capacity u → u.client = s.client → Releases v capacity u) :
    Releases v capacity s := by
  have same : u.client = s.client := becomes ▸ (serviceMove_client v capacity s move).1
  obtain ⟨moves, works, out⟩ := later (becomes ▸ step_sound sound _)
    (becomes ▸ step_bounded sound bounded _) same
  refine ⟨.process move :: moves, ?_, ?_⟩
  · rw [List.mem_cons, not_or]
    exact ⟨by simp, works⟩
  · rwa [run_cons, becomes, ← same]

theorem room_releases (client : s.client = .sending r c request)
    (room : (s.requests.contents c).length < capacity) : Releases v capacity s := by
  refine ⟨[.client .send], by simp, ?_⟩
  have sent : (step v capacity s (.client .send)).client = .waiting r s.sent := by
    unfold step clientMove
    dsimp only
    rw [client]
    dsimp only
    rw [if_pos room]
  rw [run_cons, run_nil, sent, client]
  simp

theorem receiving_releases (sound : Sound s) (bounded : Bounded capacity s) (positive : 0 < capacity)
    (env : ε) (client : s.client = .sending r c request) {p : Process α}
    (alive : s.process = some p) (reads : p.requests = c) (receiving : p.place = .receiving) :
    Releases v capacity s := by
  have taken : step v capacity s (.process (.take env)) = takeRequest v env p s := by
    simp only [step, serviceMove, alive, processMove, receiving, if_true]
  have bound := bounded.requests c
  refine Releases.before sound bounded (.take env) taken fun _ _ same => ?_
  refine room_releases (same.trans client) ?_
  unfold takeRequest
  rw [reads]
  cases contents : s.requests.contents c with
  | nil =>
      dsimp only
      rw [contents]
      exact positive
  | cons first rest =>
      rw [contents] at bound
      dsimp only
      rw [Named.contents_drop_self, contents]
      exact bound

theorem testing_releases (sound : Sound s) (bounded : Bounded capacity s) (positive : 0 < capacity)
    (env : ε) (client : s.client = .sending r c request) {p : Process α}
    (alive : s.process = some p) (reads : p.requests = c) (testing : p.place = .testing)
    (stays : p.leaving = false) (unsent : p.unsent = []) : Releases v capacity s := by
  have tested : step v capacity s (.process .test) =
      { s with process := some { p with place := .receiving } } := by
    simp only [step, serviceMove, alive, processMove, testing, unsent, stays, and_self, if_true,
      Bool.false_eq_true, if_false]
  refine Releases.before sound bounded .test tested fun sound bounded _ => ?_
  exact receiving_releases sound bounded positive env client rfl reads rfl

theorem starting_releases (sound : Sound s) (bounded : Bounded capacity s) (positive : 0 < capacity)
    (env : ε) (client : s.client = .sending r c request) {p : Process α}
    (alive : s.process = some p) (reads : p.requests = c) (starting : p.place = .starting)
    (stays : p.leaving = false) : Releases v capacity s := by
  have unsent := sound.settled p alive (by simp [starting])
  have ready : step v capacity s (.process .ready) =
      { s with process := some { p with place := .testing } } := by
    simp only [step, serviceMove, alive, processMove, starting, if_true]
  refine Releases.before sound bounded .ready ready fun sound bounded _ => ?_
  exact testing_releases sound bounded positive env client rfl reads rfl stays unsent

theorem emitting_releases (sound : Sound s) (bounded : Bounded capacity s) (positive : 0 < capacity)
    (env : ε) (client : s.client = .sending r c request) {p : Process α}
    (alive : s.process = some p) (reads : p.requests = c) (testing : p.place = .testing)
    (stays : p.leaving = false) {reply : Nat × α} (unsent : p.unsent = [reply])
    (room : ∀ q ∈ s.replies.linked, (s.replies.contents q).length < capacity) :
    Releases v capacity s := by
  cases linked : s.replies.linked with
  | none =>
      have emitted : step v capacity s (.process .emit) =
          { s with process := some { p with unsent := [] } } := by
        simp only [step, serviceMove, alive, processMove, emitReply, unsent, linked]
      refine Releases.before sound bounded .emit emitted fun sound bounded _ => ?_
      exact testing_releases sound bounded positive env client rfl reads testing stays rfl
  | some q =>
      have emitted : step v capacity s (.process .emit) = { s with
          process := some { p with unsent := [] }
          replies := s.replies.put q reply } := by
        simp only [step, serviceMove, alive, processMove, emitReply, unsent, linked,
          room q linked, if_true]
      refine Releases.before sound bounded .emit emitted fun sound bounded _ => ?_
      exact testing_releases sound bounded positive env client rfl reads testing stays rfl

/-- A client that waits for room waits for good exactly when the queue is full and no process can
take anything from it any more. -/
theorem hung_iff (env : ε) (renews : v.renews = true) (sound : Sound s)
    (bounded : Bounded capacity s) (single : s.unsent.length ≤ 1) (positive : 0 < capacity)
    (client : s.client = .sending r c request) :
    ¬ Releases v capacity s ↔ Shut capacity s c := by
  constructor
  · intro stuck
    refine ⟨?_, ?_⟩
    · by_contra room
      exact stuck (room_releases client (Nat.lt_of_not_le room))
    · intro p alive reads
      by_contra free
      rw [Blocked, not_or, not_or] at free
      obtain ⟨inside, remains, answers⟩ := free
      have stays : p.place ≠ .receiving → p.leaving = false := by
        intro elsewhere
        by_contra leaves
        exact remains ⟨by simpa using leaves, elsewhere⟩
      refine stuck ?_
      cases place : p.place with
      | ended => exact absurd place inside
      | receiving => exact receiving_releases sound bounded positive env client alive reads place
      | starting =>
          exact starting_releases sound bounded positive env client alive reads place
            (stays (by simp [place]))
      | testing =>
          have remaining := stays (by simp [place])
          rw [System.unsent, alive, Option.elim_some] at single
          cases unsent : p.unsent with
          | nil =>
              exact testing_releases sound bounded positive env client alive reads place remaining
                unsent
          | cons reply rest =>
              have one : p.unsent = [reply] := by
                rw [unsent, List.length_cons] at single
                rw [unsent, List.length_eq_zero_iff.mp (Nat.le_zero.mp (Nat.le_of_succ_le_succ single))]
              refine emitting_releases sound bounded positive env client alive reads place remaining
                one fun q linked => ?_
              by_contra full
              refine answers ⟨place, q, linked, ?_⟩
              rw [one, List.length_singleton]
              exact Nat.lt_succ_of_le (Nat.le_of_not_lt full)
  · rintro shut ⟨moves, works, out⟩
    exact out (run_shut renews sound bounded client shut works).1

theorem kept_releases (env : ε) (input : κ) (renews : v.renews = false) (sound : Sound s)
    (bounded : Bounded capacity s) (kept : Kept v s) (positive : 0 < capacity)
    (client : s.client = .sending r c request) : Releases v capacity s := by
  have linked : s.requests.linked = some c := kept.requests c (by rw [client, Client.requests]; rfl)
  have revived : ∀ u : System σ ρ α, Sound u → Bounded capacity u → u.process = none →
      u.requests.linked = some c → u.client = .sending r c request → Releases v capacity u := by
    intro u sound bounded ended linked client
    have started : step v capacity u (.process (.start input)) = launch v input u := by
      simp only [step, serviceMove, ended]
    have reads : u.requests.create.1 = c := by rw [Named.create_linked _ linked]
    refine Releases.before sound bounded (.start input) started fun sound bounded _ => ?_
    unfold launch at sound bounded ⊢
    rw [renews, if_neg Bool.false_ne_true] at sound bounded ⊢
    exact starting_releases sound bounded positive env client rfl reads rfl rfl
  cases alive : s.process with
  | none => exact revived s sound bounded alive linked client
  | some p =>
      have killed : step v capacity s (.process .kill) = { s with process := none } := by
        simp only [step, serviceMove, alive, processMove]
      refine Releases.before sound bounded .kill killed fun sound bounded _ => ?_
      exact revived _ sound bounded rfl linked client

/-! ## Runs -/

theorem run_hung_iff (env : ε) (renews : v.renews = true) (positive : 0 < capacity) (peer : σ)
    {moves : List (Move ρ ε ι κ)}
    (once : Guarded (step v capacity) (RepliesOnce v) (.start peer) moves)
    (client : (run (step v capacity) (.start peer) moves).client = .sending r c request) :
    Shut capacity (run (step v capacity) (.start peer) moves) c ↔
      ∀ more : List (Move ρ ε ι κ), .client .fail ∉ more →
        (run (step v capacity) (.start peer) (moves ++ more)).client = .sending r c request ∧
        (run (step v capacity) (.start peer) (moves ++ more)).returned =
          (run (step v capacity) (.start peer) moves).returned := by
  have always : Always (step v capacity)
      (fun u => Sound u ∧ Bounded capacity u ∧ u.unsent.length ≤ 1) (.start peer) moves := by
    refine always_of_guarded _ ?_ ?_ once
    · intro u move inv once
      exact ⟨step_sound inv.1 move, step_bounded inv.1 inv.2.1 move, step_single inv.1 inv.2.2 once⟩
    · exact ⟨start_sound peer, start_bounded peer, Nat.zero_le _⟩
  obtain ⟨sound, bounded, single⟩ := always.last
  constructor
  · intro shut more works
    rw [run_append, ← client]
    exact run_shut renews sound bounded client shut works
  · intro stuck
    refine (hung_iff env renews sound bounded single positive client).mp ?_
    rintro ⟨more, works, out⟩
    have still := (stuck more works).1
    rw [run_append, ← client] at still
    exact out still

theorem run_releases (env : ε) (input : κ) (cleans : v.cleans = false) (renews : v.renews = false)
    (positive : 0 < capacity) (peer : σ) {moves : List (Move ρ ε ι κ)}
    (client : (run (step v capacity) (.start peer) moves).client = .sending r c request) :
    Releases v capacity (run (step v capacity) (.start peer) moves) := by
  have always : Always (step v capacity) (fun u => Sound u ∧ Bounded capacity u ∧ Kept v u)
      (.start peer) moves := by
    refine always_of_step _ ?_ ?_ moves
    · intro u move inv
      exact ⟨step_sound inv.1 move, step_bounded inv.1 inv.2.1 move,
        step_kept inv.1 inv.2.2 (gentle_of_stays cleans renews u move)⟩
    · exact ⟨start_sound peer, start_bounded peer, start_kept peer⟩
  obtain ⟨sound, bounded, kept⟩ := always.last
  exact kept_releases env input renews sound bounded kept positive client

end Hangs

end Restarts
