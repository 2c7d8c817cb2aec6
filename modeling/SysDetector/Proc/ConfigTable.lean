import SysDetector.Library.GrownTable
import SysDetector.Proc.ConfigFiles

namespace SysDetector.Proc
open CLib GrownTable Runs

abbrev ConfigTable := Table ProcessConfig

structure LoadCall where
  filename : Bytes
  configId : UInt64
  text : Option Bytes
  reallocates : Bool

def parseConfigFile (call : LoadCall) (t : ConfigTable) : Int32 × ConfigTable :=
  match call.text with
  | none => (-1, t)
  | some text =>
      match parseConfig text call.configId with
      | none => (-1, t)
      | some config =>
          match realloc call.reallocates t.cells (t.count + 1) with
          | none => (-1, { t with cells := none })
          | some cells =>
              (0, { cells := some (cells.set t.count (some config)), count := t.count + 1 })

def loadAll (calls : List LoadCall) : ConfigTable :=
  run (fun t call => (parseConfigFile call t).2) .empty calls

def LoadCall.parsed (call : LoadCall) : Option ProcessConfig :=
  call.text.bind fun text => parseConfig text call.configId

def LoadCall.loaded (call : LoadCall) : Option ProcessConfig :=
  if call.reallocates then call.parsed else none

theorem parseConfigFile_load (call : LoadCall) (t : ConfigTable) :
    (parseConfigFile call t).2 = load LoadCall.parsed LoadCall.reallocates t call := by
  unfold parseConfigFile load LoadCall.parsed Table.append
  cases call.text with
  | none => rfl
  | some text =>
      dsimp only
      rw [Option.bind_some]
      cases parseConfig text call.configId with
      | none => rfl
      | some config =>
          dsimp only
          cases realloc call.reallocates t.cells (t.count + 1) <;> rfl

theorem loadAll_eq (calls : List LoadCall) :
    loadAll calls = run (load LoadCall.parsed LoadCall.reallocates) .empty calls := by
  have steps : (fun t call => (parseConfigFile call t).2) =
      load LoadCall.parsed LoadCall.reallocates := by
    funext t call
    exact parseConfigFile_load call t
  rw [loadAll, steps]

/-- Whenever `realloc` fails for a file that is accepted, no config was loaded before it. -/
def ReallocFailsOnEmpty (calls : List LoadCall) : Prop :=
  ∀ past call rest, calls = past ++ call :: rest → call.parsed.isSome → call.reallocates = false →
    past.filterMap LoadCall.loaded = []

/-- The table holds what the calls so far have loaded, at the end and after every call, exactly when
`realloc` fails for no accepted file behind a loaded one. -/
theorem configs_kept_iff (calls : List LoadCall) :
    (Holds (loadAll calls) (calls.filterMap LoadCall.loaded) ↔ ReallocFailsOnEmpty calls) ∧
      ((∀ past, past <+: calls → Holds (loadAll past) (past.filterMap LoadCall.loaded)) ↔
        ReallocFailsOnEmpty calls) := by
  simp only [loadAll_eq]
  exact loads_hold_iff LoadCall.parsed LoadCall.reallocates calls

theorem configs_lost :
    ¬ ∀ calls : List LoadCall, Holds (loadAll calls) (calls.filterMap LoadCall.loaded) := by
  intro kept
  have both := kept [⟨lit "sh.conf", 7, some (lit "NAME=sh\n"), true⟩,
    ⟨lit "bash.conf", 8, some (lit "NAME=bash\n"), false⟩]
  exact absurd both (by decide)

theorem loadAll_holds {calls : List LoadCall} (succeeds : ∀ call ∈ calls, call.reallocates = true) :
    Holds (loadAll calls) (calls.filterMap LoadCall.loaded) := by
  apply (configs_kept_iff calls).1.mpr
  intro past call rest same _ fails
  have member : call ∈ calls := by simp [same]
  rw [succeeds call member] at fails
  cases fails

end SysDetector.Proc
