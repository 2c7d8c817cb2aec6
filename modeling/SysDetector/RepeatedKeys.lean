import SysDetector.Proc.ConfigTable
import SysDetector.Proc.WholeLines
import SysDetector.Fs.ConfigText

namespace SysDetector
open CLib

/-! ## The proc worker -/

namespace Proc
open GrownTable

def RepeatsKey (text : Bytes) : Prop := ¬ ((writtenSettings text).map Prod.fst).Nodup

instance (text : Bytes) : Decidable (RepeatsKey text) := inferInstanceAs (Decidable (¬ _))

/-- What a text is rejected for: an unknown key or a bad value, or that it ends without a name. -/
def Flawed (text : Bytes) : Prop :=
  (∃ field ∈ readFields text, ¬ ValidField field) ∨ (lastValue .name (settings text)).getD [] = []

theorem storedConfig_name (text : Bytes) (configId : UInt64) :
    (storedConfig text configId).name.text = [] ↔ (lastValue .name (settings text)).getD [] = [] := by
  have stored := storedConfig_get .name text configId
  cases last : lastValue .name (settings text) with
  | none =>
      rw [last] at stored
      have blank : (storedConfig text configId).name = default := stored
      rw [blank]
      exact iff_of_true rfl rfl
  | some value =>
      rw [last] at stored
      have name : (storedConfig text configId).name = snprintf 64 value := stored
      have noNul := noNul_of_mem_settings (mem_of_lastValue last)
      rw [name, Option.getD_some]
      show (cstr value).take 63 = [] ↔ value = []
      rw [cstr_of_notMem noNul]
      simp

theorem parseConfig_eq_none_iff (text : Bytes) (configId : UInt64) :
    parseConfig text configId = none ↔ Flawed text := by
  have accepted := parseConfig_eq_some_iff text configId
  simp only [finishConfig_eq_some_iff, ne_eq, storedConfig_name] at accepted
  rw [Option.eq_none_iff_forall_ne_some, Flawed]
  constructor
  · intro rejected
    by_contra flawless
    push Not at flawless
    exact rejected _ ((accepted _).mpr ⟨flawless.1, flawless.2, rfl⟩)
  · rintro flawed config read
    obtain ⟨valid, named, -⟩ := (accepted config).mp read
    rcases flawed with ⟨field, member, invalid⟩ | nameless
    · exact invalid (valid field member)
    · exact named nameless

theorem parseConfigFile_rejects_iff {call : LoadCall} {text : Bytes} (opened : call.text = some text)
    (t : ConfigTable) : parseConfigFile call t = (-1, t) ↔
      Flawed text ∨ (call.reallocates = false ∧ t.cells = none) := by
  obtain ⟨cells, count⟩ := t
  rw [← parseConfig_eq_none_iff text call.configId]
  unfold parseConfigFile
  rw [opened]
  dsimp only
  cases parseConfig text call.configId with
  | none => simp
  | some config =>
      unfold realloc
      cases call.reallocates with
      | false => simp [eq_comm]
      | true =>
          simp only [if_true, Prod.mk.injEq, reduceCtorEq, Bool.true_eq_false, false_and, or_self,
            iff_false, not_and]
          intro result
          exact absurd result (by decide)

end Proc

/-! ## The fs worker -/

namespace Fs

def knownKeys : List Bytes :=
  [lit "NAME", lit "PATH", lit "OPERATIONS", lit "ALARM_COMMAND", lit "MONITOR_SWITCH"]

def lineKey (line : Bytes) : Option Bytes :=
  (keyValue line).bind fun entry => if knownKeys.contains entry.1 then some entry.1 else none

def RepeatsKey (text : Bytes) : Prop := ¬ ((textLines text).filterMap lineKey).Nodup

instance (text : Bytes) : Decidable (RepeatsKey text) := inferInstanceAs (Decidable (¬ _))

def Flawed (text : Bytes) : Prop :=
  (lastValue (lit "NAME") (entries text)).getD [] = [] ∨
    (lastValue (lit "PATH") (entries text)).getD [] = []

instance (text : Bytes) : Decidable (Flawed text) := inferInstanceAs (Decidable (_ ∨ _))

theorem field_empty_iff {text : Bytes} (key : Bytes) {field : CharBuf MAX_FIELD_LEN}
    (stored : field = ((lastValue key (entries text)).map (snprintf MAX_FIELD_LEN)).getD
      (snprintf MAX_FIELD_LEN [])) :
    field.text = [] ↔ (lastValue key (entries text)).getD [] = [] := by
  rw [stored]
  cases last : lastValue key (entries text) with
  | none => exact iff_of_true rfl rfl
  | some value =>
      rw [Option.map_some, Option.getD_some, Option.getD_some,
        readValue_field (entries_readValue (mem_of_lastValue last))]
      simp

theorem flawed_iff (text : Bytes) (id : Int32) :
    Flawed text ↔ (parseConfig text id).name.text = [] ∨ (parseConfig text id).path.text = [] := by
  have name : (parseConfig text id).name.text = [] ↔ _ := field_empty_iff (lit "NAME") (by
    rw [parseConfig_eq, assignAll_field assign_name]
    rfl)
  have path : (parseConfig text id).path.text = [] ↔ _ := field_empty_iff (lit "PATH") (by
    rw [parseConfig_eq, assignAll_field assign_path]
    rfl)
  rw [name, path, Flawed]

theorem parseConfigFile_rejects_iff (file : DirEntry) (id : Int32) (s : FsState) :
    tableConfigs (parseConfigFile file id s) = tableConfigs s ↔
      s.configCount ≥ MAX_CONFIGS ∨ file.readable = false ∨ Flawed file.content := by
  unfold parseConfigFile
  rw [flawed_iff file.content id]
  by_cases full : s.configCount ≥ MAX_CONFIGS
  · simp [full]
  · rw [if_neg full]
    cases file.readable with
    | false => simp
    | true =>
        simp only [if_true]
        split_ifs with fields
        · have longer : tableConfigs s ++ [parseConfig file.content id] ≠ tableConfigs s := by simp
          have unflawed : ¬ ((parseConfig file.content id).name.text = [] ∨
              (parseConfig file.content id).path.text = []) := not_or.mpr fields
          simp only [full, unflawed, or_self, iff_false]
          intro same
          exact longer ((tableConfigs_push _).symm.trans same)
        · have flawed : (parseConfig file.content id).name.text = [] ∨
              (parseConfig file.content id).path.text = [] := by
            by_contra none
            exact fields (not_or.mp none)
          simp only [flawed, or_true, iff_true]
          exact tableConfigs_setConfig _

end Fs

/-- A text with a key on two lines is rejected, and leaves the table as it is, exactly when it is
flawed otherwise; or when there is no room for its config, in the table of the fs worker, or when
`realloc` fails while there is no table, in the proc worker. -/
theorem repeats_rejected_iff (filename : Bytes) (configId : UInt64) (text : Bytes)
    (reallocates : Bool) (t : Proc.ConfigTable) (file : Fs.DirEntry) (id : Int32) (s : Fs.FsState) :
    ((Proc.RepeatsKey text →
        Proc.parseConfigFile ⟨filename, configId, some text, reallocates⟩ t = (-1, t)) ↔
      (Proc.RepeatsKey text → Proc.Flawed text ∨ (reallocates = false ∧ t.cells = none))) ∧
    ((Fs.RepeatsKey file.content →
        Fs.tableConfigs (Fs.parseConfigFile file id s) = Fs.tableConfigs s) ↔
      (Fs.RepeatsKey file.content →
        s.configCount ≥ Fs.MAX_CONFIGS ∨ file.readable = false ∨ Fs.Flawed file.content)) := by
  constructor
  · rw [Proc.parseConfigFile_rejects_iff rfl]
  · rw [Fs.parseConfigFile_rejects_iff]

theorem repeats_accepted :
    (¬ ∀ (text : Bytes) (t : Proc.ConfigTable), Proc.RepeatsKey text →
      Proc.parseConfigFile ⟨lit "sh.conf", 7, some text, true⟩ t = (-1, t)) ∧
    ¬ ∀ (file : Fs.DirEntry) (id : Int32) (s : Fs.FsState), Fs.RepeatsKey file.content →
      Fs.tableConfigs (Fs.parseConfigFile file id s) = Fs.tableConfigs s := by
  constructor
  · intro rejected
    have result := congrArg Prod.fst (rejected (lit "NAME=sh\nNAME=bash\n") .empty (by decide))
    exact absurd result (by decide)
  · intro rejected
    let file : Fs.DirEntry :=
      ⟨lit "web.conf", none, true, true, lit "NAME=web\nPATH=/srv\nNAME=log\n", none⟩
    have same := rejected file 7 (.zero none) (by decide)
    rw [Fs.parseConfigFile_rejects_iff] at same
    exact absurd same (by decide)

end SysDetector
