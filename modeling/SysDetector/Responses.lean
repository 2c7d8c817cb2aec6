import SysDetector.Proc.Frames
import SysDetector.Fs.Frames

namespace SysDetector
open CLib

def OneMore {α : Type} (before after : List α) : Prop := ∃ code, after = before ++ [code]

/-! ## The proc worker -/

namespace Proc

def ListsTable (message : Bytes) : Prop :=
  ∃ args, procSplitSpace (cstr message) = PROC_LIST :: args ∧
    (args.head? = none ∨ args.head? = some (lit "config") ∨ args.head? = some (lit "tracked"))

theorem switch_one_response (env : CommandEnv) (status : Bool) (arg : Option Bytes)
    (s : ProcState) : OneMore s.responses
      (handleCommand env (if status then PROC_START else PROC_STOP) arg s).responses := by
  by_cases refused : s.ebpfRunning = status ∨ configIndex s arg = none
  · obtain ⟨log, code, frame⟩ := handleCommand_refused env arg status rfl refused
    rw [frame]
    exact ⟨code, rfl⟩
  · rw [not_or] at refused
    obtain ⟨i, named⟩ := Option.ne_none_iff_exists'.mp refused.2
    obtain ⟨log, frame⟩ := handleCommand_switched env status rfl
      (Bool.eq_not_of_ne refused.1) named
    rw [frame]
    exact ⟨_, rfl⟩

theorem list_responses_table (env : CommandEnv) {scope : Option Bytes} (s : ProcState)
    (table : scope = none ∨ scope = some (lit "config") ∨ scope = some (lit "tracked")) :
    (handleListCommand env scope s).responses =
      s.responses ++ if env.outFileOpens then [.cmdSuccess] else [.cmdEbpfErr, .cmdSuccess] := by
  have different : lit "tracked" ≠ lit "config" := by decide
  unfold handleListCommand handleConfigListCommand handleTrackedListCommand openProcOutFile
  rcases table with rfl | rfl | rfl <;> cases env.outFileOpens <;> simp [different]

theorem list_responses_other (env : CommandEnv) {scope : Option Bytes} (s : ProcState)
    (other : ¬ (scope = none ∨ scope = some (lit "config") ∨ scope = some (lit "tracked"))) :
    (handleListCommand env scope s).responses = s.responses ++ [.cmdInvalid] := by
  rw [← or_assoc, not_or] at other
  unfold handleListCommand
  rw [if_neg other.1, if_neg other.2]
  rfl

theorem not_oneMore_two {α : Type} (before : List α) (a b : α) :
    ¬ OneMore before (before ++ [a, b]) := by
  intro ⟨code, same⟩
  simp at same

theorem handleMessage_one_response_iff (env : CommandEnv) {message : Bytes}
    (nonempty : message ≠ []) (s : ProcState) :
    OneMore s.responses (handleMessage env message s).responses ↔
      (ListsTable message → env.outFileOpens = true) := by
  unfold handleMessage ListsTable
  rw [if_neg nonempty]
  cases tokens : procSplitSpace (cstr message) with
  | nil => exact iff_of_true ⟨_, rfl⟩ (by simp)
  | cons opt args =>
      by_cases list : opt = PROC_LIST
      · subst list
        have valid : procIsValidOpt PROC_LIST = true := by decide
        simp only [valid, if_true, handleCommand_list, List.cons.injEq, true_and, exists_eq_left']
        by_cases table : args.head? = none ∨ args.head? = some (lit "config") ∨
            args.head? = some (lit "tracked")
        · rw [list_responses_table env s table]
          cases env.outFileOpens with
          | true => exact iff_of_true ⟨_, rfl⟩ fun _ => rfl
          | false =>
              refine iff_of_false ?_ fun opens => absurd (opens table) Bool.false_ne_true
              simpa using not_oneMore_two s.responses .cmdEbpfErr .cmdSuccess
        · rw [list_responses_other env s table]
          exact iff_of_true ⟨_, rfl⟩ fun listed => absurd listed table
      · refine iff_of_true ?_ fun ⟨_, same, _⟩ => absurd (List.cons.inj same).1 list
        dsimp only
        split_ifs with valid
        · simp only [procIsValidOpt, PROC_POSSIBLE_OPT_VALUES, List.mem_cons, List.not_mem_nil,
            or_false, list, decide_eq_true_eq] at valid
          rcases valid with rfl | rfl
          · exact switch_one_response env true args.head? s
          · exact switch_one_response env false args.head? s
        · exact ⟨_, rfl⟩

end Proc

/-! ## The fs worker -/

namespace Fs

theorem switchConfig_one_response (env : CommandEnv) (arg : Bytes) (status : Bool) (s : FsState) :
    OneMore s.responses (switchConfig env arg status s).responses :=
  ⟨_, switchConfig_responses env arg status s⟩

theorem listCommand_one_response (env : CommandEnv) (scope : Option Bytes) (s : FsState) :
    OneMore s.responses (listCommand env scope s).responses := by
  unfold listCommand listConfigs listEvents FsState.sendResponse
  cases env.outFileOpens <;> split_ifs <;> exact ⟨_, rfl⟩

theorem handleMessage_one_response (env : CommandEnv) {message : Bytes}
    (nonempty : message ≠ []) (s : FsState) :
    OneMore s.responses (handleMessage env message s).responses := by
  have loaded : (loadConfigs s).responses = s.responses := by
    obtain ⟨configs, count, -, frame⟩ := loadConfigs_frame s
    rw [frame]
  unfold handleMessage handleCommand
  rw [if_neg nonempty]
  cases splitCommand (cstr message) with
  | nil => exact ⟨1, rfl⟩
  | cons opt args =>
      rw [← loaded]
      cases args with
      | nil =>
          simp only [List.head?_nil]
          split_ifs
          · exact listCommand_one_response env none _
          · exact ⟨1, rfl⟩
      | cons arg rest =>
          simp only [List.head?_cons]
          split_ifs
          · exact switchConfig_one_response env arg true _
          · exact switchConfig_one_response env arg false _
          · exact listCommand_one_response env (some arg) _
          · exact ⟨1, rfl⟩

end Fs

/-- The fs worker sends exactly one response to every message; the proc worker does unless the
message asks for a table and the output file does not open. -/
theorem one_response_iff (message : Bytes) (nonempty : message ≠ []) :
    (∀ env s, OneMore s.responses (Proc.handleMessage env message s).responses ↔
      (Proc.ListsTable message → env.outFileOpens = true)) ∧
    ∀ env s, OneMore s.responses (Fs.handleMessage env message s).responses :=
  ⟨fun env s => Proc.handleMessage_one_response_iff env nonempty s,
    fun env s => Fs.handleMessage_one_response env nonempty s⟩

theorem one_response_iff_list :
    (∀ env s, OneMore s.responses (Proc.handleMessage env (lit "list") s).responses ↔
      (Proc.ListsTable (lit "list") → env.outFileOpens = true)) ∧
    ∀ env s, OneMore s.responses (Fs.handleMessage env (lit "list") s).responses :=
  one_response_iff (lit "list") (by decide)

theorem failed_listing_answered_twice : ¬ ∀ message : Bytes, message ≠ [] →
    (∀ env s, OneMore s.responses (Proc.handleMessage env message s).responses) ∧
    ∀ env s, OneMore s.responses (Fs.handleMessage env message s).responses := by
  intro one
  have nonempty : lit "list" ≠ [] := by decide
  have opens := (Proc.handleMessage_one_response_iff ⟨0, false⟩ nonempty (.initial [])).mp
    ((one (lit "list") nonempty).1 _ _) ⟨[], by decide, .inl rfl⟩
  cases opens

end SysDetector
