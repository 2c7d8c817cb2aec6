import Mathlib.Data.List.Induction

namespace Traces

variable {α : Type*}

def Each (Q : List α → α → Prop) (trace : List α) : Prop :=
  ∀ past a rest, trace = past ++ a :: rest → Q past a

def Since (a b : α) (trace : List α) : Prop :=
  ∃ past after, trace = past ++ a :: after ∧ b ∉ after

theorem each_nil (Q : List α → α → Prop) : Each Q [] := by
  intro past a rest split
  simp at split

theorem split_concat {trace past rest : List α} {a c : α}
    (split : trace ++ [c] = past ++ a :: rest) :
    (trace = past ∧ c = a ∧ rest = []) ∨
      ∃ rest', trace = past ++ a :: rest' ∧ rest = rest' ++ [c] := by
  cases rest using List.reverseRecOn with
  | nil =>
      left
      obtain ⟨same, last⟩ := List.append_inj' split rfl
      exact ⟨same, by simpa using last, rfl⟩
  | append_singleton rest d =>
      right
      rw [← List.cons_append, ← List.append_assoc] at split
      obtain ⟨same, last⟩ := List.append_inj' split rfl
      refine ⟨rest, same, ?_⟩
      rw [(List.singleton_inj.mp last)]

theorem each_concat {Q : List α → α → Prop} {trace : List α} {c : α} :
    Each Q (trace ++ [c]) ↔ Each Q trace ∧ Q trace c := by
  constructor
  · intro each
    refine ⟨fun past a rest split => each past a (rest ++ [c]) ?_, each trace c [] rfl⟩
    rw [split, List.append_assoc, List.cons_append]
  · rintro ⟨each, last⟩ past a rest split
    rcases split_concat split with ⟨rfl, rfl, -⟩ | ⟨rest', earlier, -⟩
    · exact last
    · exact each past a rest' earlier

theorem since_concat {a b c : α} {trace : List α} :
    Since a b (trace ++ [c]) ↔ c = a ∨ Since a b trace ∧ c ≠ b := by
  constructor
  · rintro ⟨past, after, split, absent⟩
    rcases split_concat split with ⟨-, same, -⟩ | ⟨after', earlier, rfl⟩
    · exact .inl same
    · right
      rw [List.mem_append, List.mem_singleton, not_or] at absent
      exact ⟨⟨past, after', earlier, absent.1⟩, Ne.symm absent.2⟩
  · rintro (rfl | ⟨⟨past, after, rfl, absent⟩, other⟩)
    · exact ⟨trace, [], rfl, List.not_mem_nil⟩
    · refine ⟨past, after ++ [c], by simp, ?_⟩
      rw [List.mem_append, List.mem_singleton, not_or]
      exact ⟨absent, Ne.symm other⟩

theorem each_toList {Q : List α → α → Prop} {trace : List α} {next : Option α} :
    Each Q (trace ++ next.toList) ↔ Each Q trace ∧ ∀ c, next = some c → Q trace c := by
  cases next with
  | none => simp
  | some c => rw [Option.toList_some, each_concat]; simp

theorem since_toList {a b : α} {trace : List α} {next : Option α} :
    Since a b (trace ++ next.toList) ↔ next = some a ∨ Since a b trace ∧ next ≠ some b := by
  cases next with
  | none => simp
  | some c => rw [Option.toList_some, since_concat]; simp

theorem Since.append {a b : α} {trace more : List α} (since : Since a b trace) (absent : b ∉ more) :
    Since a b (trace ++ more) := by
  obtain ⟨past, after, rfl, never⟩ := since
  refine ⟨past, after ++ more, by simp, ?_⟩
  rw [List.mem_append, not_or]
  exact ⟨never, absent⟩

theorem not_since_nil (a b : α) : ¬ Since a b [] := by
  rintro ⟨past, after, split, -⟩
  simp at split

theorem not_since_iff {a b : α} {trace : List α} :
    ¬ Since a b trace ↔ ∀ past after, trace = past ++ a :: after → b ∈ after := by
  constructor
  · intro never past after split
    by_contra absent
    exact never ⟨past, after, split, absent⟩
  · rintro always ⟨past, after, split, absent⟩
    exact absent (always past after split)

end Traces
