import SysDetector.Library.Reservations
import SysDetector.Library.Runs
import SysDetector.Bpf.Events

namespace SysDetector.Bpf
open CLib BpfHelpers Proc Runs Reservations

/-- `handle_exec`, `handle_exit` and `handle_fork`. -/
inductive Handler
  | exec (ctx : ExecContext)
  | exit (ctx : ExitContext)
  | fork (ctx : ForkContext)

def Handler.info (cache : ExecArgsCache) : Handler → ProcEvent × ExecArgsCache
  | .exec ctx => getExecInfo ctx cache
  | .exit ctx => (getExitInfo ctx, cache)
  | .fork ctx => (getForkInfo ctx, cache)

inductive ProgramRun
  | execve (ctx : ExecveContext)
  /-- The program that fills a slot of the ring buffer. -/
  | event (program : Claim Handler)

def runProgram (cache : ExecArgsCache) : ProgramRun → ExecArgsCache
  | .execve ctx => handleExecve ctx cache
  | .event program => (program.producer.info cache).2

def capturedArgs (ctx : ExecveContext) : ExecArgs := fun i => captureArg ctx.memory ctx.argv i

def Touches (tgid : UInt32) : ProgramRun → Prop
  | .execve ctx => ctx.tgid = tgid
  | .event ⟨_, .exec ctx⟩ => ctx.tgid = tgid
  | .event ⟨_, .exit _⟩ | .event ⟨_, .fork _⟩ => False

/-- The arguments are those of the last call of the process, and no event of it has taken them. -/
def LastStored (tgid : UInt32) (args : ExecArgs) (past : List ProgramRun) : Prop :=
  ∃ earlier ctx later, past = earlier ++ .execve ctx :: later ∧ ctx.tgid = tgid ∧
    args = capturedArgs ctx ∧ ∀ other ∈ later, ¬ Touches tgid other

theorem LastStored.next {tgid : UInt32} {args : ExecArgs} {past : List ProgramRun}
    (stored : LastStored tgid args past) {program : ProgramRun} (other : ¬ Touches tgid program) :
    LastStored tgid args (past ++ [program]) := by
  obtain ⟨earlier, ctx, later, rfl, own, same, untouched⟩ := stored
  refine ⟨earlier, ctx, later ++ [program], by simp, own, same, ?_⟩
  simpa [or_imp, forall_and] using ⟨untouched, other⟩

theorem lookup_runProgram {cache : ExecArgsCache} {tgid : UInt32} {args : ExecArgs}
    (program : ProgramRun) (found : (runProgram cache program).lookup tgid = some args) :
    (∃ ctx, program = .execve ctx ∧ ctx.tgid = tgid ∧
      args = capturedArgs ctx) ∨
    ¬ Touches tgid program ∧ cache.lookup tgid = some args := by
  cases program with
  | execve ctx =>
      rcases HashMap.lookup_of_update found with ⟨own, same⟩ | ⟨other, kept⟩
      · exact .inl ⟨ctx, rfl, own.symm, same⟩
      · exact .inr ⟨other.symm, kept⟩
  | event program =>
      obtain ⟨position, handler⟩ := program
      cases handler with
      | exec ctx =>
          obtain ⟨other, kept⟩ := HashMap.lookup_of_delete found
          exact .inr ⟨other.symm, kept⟩
      | exit ctx => exact .inr ⟨not_false, found⟩
      | fork ctx => exact .inr ⟨not_false, found⟩

theorem stored_of_lookup {tgid : UInt32} {args : ExecArgs} (past : List ProgramRun)
    (found : (run runProgram .empty past).lookup tgid = some args) : LastStored tgid args past := by
  induction past using List.reverseRecOn with
  | nil => cases found
  | append_singleton past program ih =>
      rw [run_append, run_cons, run_nil] at found
      rcases lookup_runProgram program found with ⟨ctx, rfl, own, same⟩ | ⟨other, kept⟩
      · refine ⟨past, ctx, [], rfl, own, same, ?_⟩
        intro _ member
        cases member
      · exact (ih kept).next other

theorem execInfo_argv (past : List ProgramRun) (ctx : ExecContext) :
    let args := (getExecInfo ctx (run runProgram .empty past)).1.argv
    args = noArgs ∨ LastStored ctx.tgid args past := by
  dsimp only [getExecInfo]
  cases found : (run runProgram .empty past).lookup ctx.tgid with
  | none => exact .inl rfl
  | some args => exact .inr (stored_of_lookup past found)

end SysDetector.Bpf
