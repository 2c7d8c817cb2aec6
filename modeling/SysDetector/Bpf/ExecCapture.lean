import SysDetector.Bpf.Events

namespace SysDetector.Bpf
open CLib BpfHelpers Proc

structure ArgVector (mem : Memory) (argv : UInt64) where
  args : List Bytes
  held : ∀ i arg, args[i]? = some arg → ∃ ptr, ptr ≠ 0 ∧
    readBytes mem 8 (argvSlot argv i) = some ptr ∧ CStringAt mem ptr arg
  terminated : readBytes mem 8 (argvSlot argv args.length) = some 0

def expectedArgs (args : List Bytes) : ExecArgs := fun i =>
  match args[i.val]? with
  | some arg => snprintf ARGV_ARG_LEN arg
  | none => default

def LeadsNowhere (mem : Memory) (a : UInt64) : Prop :=
  ∀ ptr, readBytes mem 8 a = some ptr → ptr ≠ 0 →
    mem ptr = some 0 ∨ readString mem ARGV_ARG_LEN ptr = none

theorem captureArg_of_null {mem : Memory} {argv : UInt64} {i : Nat}
    (null : probeReadPointer mem (argvSlot argv i) = 0) : captureArg mem argv i = default := by
  simp [captureArg, null]

section Capture
variable {mem : Memory} {argv : UInt64} (vector : ArgVector mem argv)

theorem captureArg_inside {i : Nat} {arg : Bytes} (inside : vector.args[i]? = some arg) :
    captureArg mem argv i = snprintf ARGV_ARG_LEN arg := by
  obtain ⟨ptr, nonzero, word, string⟩ := vector.held i arg inside
  have argp : probeReadPointer mem (argvSlot argv i) = ptr := by simp [probeReadPointer, word]
  simp only [captureArg, argp, ne_eq, nonzero, not_false_eq_true, if_true]
  exact probeReadStr_of_cstring string

theorem captureArg_terminator : captureArg mem argv vector.args.length = default :=
  captureArg_of_null (by simp [probeReadPointer, vector.terminated])

end Capture

theorem captureArg_eq_empty {mem : Memory} {argv : UInt64} {i : Nat} :
    captureArg mem argv i = default ↔ LeadsNowhere mem (argvSlot argv i) := by
  unfold LeadsNowhere
  cases word : readBytes mem 8 (argvSlot argv i) with
  | none =>
      refine iff_of_true (captureArg_of_null ?_) (by simp)
      simp [probeReadPointer, word]
  | some ptr =>
      have argp : probeReadPointer mem (argvSlot argv i) = ptr := by simp [probeReadPointer, word]
      by_cases null : ptr = 0
      · exact iff_of_true (captureArg_of_null (argp.trans null)) (by simp [null])
      · simp only [captureArg, argp, ne_eq, null, not_false_eq_true, if_true, Option.some.injEq,
          forall_eq', forall_const]
        exact probeReadStr_eq_empty (by decide)

/-- The slots stored for the caller are its first arguments and nothing else exactly when no word
read beyond the terminator leads to a string. -/
theorem captured_args_iff (ctx : ExecveContext) (cache : ExecArgsCache)
    (vector : ArgVector ctx.memory ctx.argv) (slots : ExecArgs)
    (stored : (handleExecve ctx cache).lookup ctx.tgid = some slots) :
    slots = expectedArgs vector.args ↔ ∀ i : Fin ARGV_MAX_ARGS, vector.args.length < i.val →
      LeadsNowhere ctx.memory (argvSlot ctx.argv i) := by
  have captured : slots = fun i : Fin ARGV_MAX_ARGS => captureArg ctx.memory ctx.argv i :=
    HashMap.eq_of_lookup_update stored
  rw [captured, funext_iff]
  refine forall_congr' fun i => ?_
  rcases lt_trichotomy i.val vector.args.length with inside | last | beyond
  · have arg : vector.args[i.val]? = some vector.args[i.val] := List.getElem?_eq_getElem inside
    refine iff_of_true ?_ fun beyond => absurd inside beyond.not_gt
    rw [captureArg_inside vector arg]
    simp only [expectedArgs, arg]
  · refine iff_of_true ?_ fun beyond => absurd last beyond.ne'
    rw [last, captureArg_terminator]
    simp [expectedArgs, last]
  · have empty : expectedArgs vector.args i = default := by
      simp [expectedArgs, List.getElem?_eq_none beyond.le]
    rw [empty, captureArg_eq_empty]
    exact ⟨fun nowhere _ => nowhere, fun nowhere => nowhere beyond⟩

/-! ## One argument, then the environment -/

def segment (base : UInt64) (bytes : Bytes) : Memory := fun a => bytes[(a - base).toNat]?

def shellMemory : Memory := fun a =>
  (segment 0x1000 ([0, 0x20, 0, 0, 0, 0, 0, 0] ++ List.replicate 8 0 ++
    [0, 0x30, 0, 0, 0, 0, 0, 0] ++ List.replicate 8 0) a) <|>
  (segment 0x2000 (lit "sh" ++ [0]) a) <|> (segment 0x3000 (lit "KEY=1" ++ [0]) a)

def shellContext : ExecveContext where
  tgid := 7
  argv := 0x1000
  memory := shellMemory

def shellVector : ArgVector shellContext.memory shellContext.argv where
  args := [lit "sh"]
  held := by
    intro i arg held
    cases i with
    | zero =>
        cases held
        exact ⟨0x2000, by decide, by decide, by decide, by decide, by decide, by decide, rfl⟩
    | succ i => cases held
  terminated := by decide

theorem captured_args_iff_shell :
    let slots : ExecArgs := fun i => captureArg shellMemory 0x1000 i
    slots = expectedArgs [lit "sh"] ↔ ∀ i : Fin ARGV_MAX_ARGS, 1 < i.val →
      LeadsNowhere shellMemory (argvSlot 0x1000 i) :=
  captured_args_iff shellContext .empty shellVector _ rfl

theorem environment_captured : ¬ ∀ (ctx : ExecveContext) (cache : ExecArgsCache)
    (vector : ArgVector ctx.memory ctx.argv) (slots : ExecArgs),
    (handleExecve ctx cache).lookup ctx.tgid = some slots → slots = expectedArgs vector.args := by
  intro onlyArgs
  have captured := congrFun (onlyArgs shellContext .empty shellVector _ rfl) 2
  have text := congrArg CharBuf.text captured
  revert text
  decide

end SysDetector.Bpf
