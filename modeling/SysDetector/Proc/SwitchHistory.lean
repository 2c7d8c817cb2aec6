import SysDetector.Proc.EventGate

namespace SysDetector.Proc
open CLib Runs

structure SwitchMessage where
  env : CommandEnv
  text : Bytes
  status : Bool
  configId : UInt64
  args : List Bytes
  spells : procSplitSpace (cstr text) = (if status then PROC_START else PROC_STOP) :: args
  names : args.head?.bind strtoul = some configId

def handleSwitchMessage (s : ProcState) (c : SwitchMessage) : ProcState :=
  handleMessage c.env c.text s

def configIds (s : ProcState) : List UInt64 := s.configs.map ProcessConfig.configId

def requestedSwitch (config : ProcessConfig) (commands : List SwitchMessage) : Bool :=
  match (commands.filter fun c => c.configId == config.configId).getLast? with
  | some c => c.status
  | none => config.monitorSwitch

def lastStatus (gate : Bool) (commands : List SwitchMessage) : Bool :=
  match commands.getLast? with
  | some c => c.status
  | none => gate

def gateMoves (gate : Bool) : List SwitchMessage → List SwitchMessage
  | [] => []
  | c :: rest => if gate = c.status then gateMoves gate rest else c :: gateMoves c.status rest

def SwitchesFollow (configs : List ProcessConfig) (commands : List SwitchMessage) (s : ProcState) :
    Prop :=
  ∀ (i : Nat) config, configs[i]? = some config →
    (switches s)[i]? = some (requestedSwitch config commands)

def indexOf (s : ProcState) (configId : UInt64) : Nat := (configIds s).idxOf configId

/-! ## One command -/

theorem findIdx?_configId {s : ProcState} {configId : UInt64} (loaded : configId ∈ configIds s) :
    (s.configs.findIdx? fun config => config.configId == configId) =
      some (indexOf s configId) := by
  have found : (configIds s).findIdx? (· == configId) = some (indexOf s configId) :=
    List.findIdx?_eq_some_of_exists ⟨configId, loaded, beq_self_eq_true configId⟩
  rw [← found, configIds, List.findIdx?_map]
  rfl

theorem switchCommand_message {s : ProcState} {c : SwitchMessage}
    (loaded : c.configId ∈ configIds s) :
    switchCommand s c.text = some (c.status, indexOf s c.configId) := by
  have spelled : (if c.status then PROC_START else PROC_STOP) = PROC_START ∨
      (if c.status then PROC_START else PROC_STOP) = PROC_STOP := by
    cases c.status <;> simp
  have kind : decide ((if c.status then PROC_START else PROC_STOP) = PROC_START) = c.status := by
    cases c.status <;> decide
  unfold switchCommand
  simp only [c.spells, spelled, if_true, configIndex, c.names, Option.bind_some,
    findIdx?_configId loaded, Option.map_some, kind]

theorem configIds_setMonitorSwitch (s : ProcState) (i : Nat) (status : Bool) (now : Time) :
    configIds (setMonitorSwitch s i status now) = configIds s := by
  apply List.ext_getElem?
  intro j
  simp only [configIds, setMonitorSwitch, List.getElem?_map, List.getElem?_modify]
  by_cases same : i = j <;> cases s.configs[j]? <;> simp [same]

theorem handleSwitchMessage_frame {s : ProcState} {c : SwitchMessage}
    (loaded : c.configId ∈ configIds s) :
    configIds (handleSwitchMessage s c) = configIds s ∧
      (handleSwitchMessage s c).ebpfRunning = c.status ∧
      switches (handleSwitchMessage s c) =
        if s.ebpfRunning = c.status then switches s
        else (switches s).set (indexOf s c.configId) c.status := by
  have command := switchCommand_message loaded
  unfold handleSwitchMessage
  rcases handleMessage_switch c.env c.text s with
    ⟨status, i, log, responses, command', openGate, frame⟩ | ⟨refused, log, responses, out, frame⟩
  · rw [command] at command'
    obtain ⟨rfl, rfl⟩ := Prod.mk.inj (Option.some.inj command')
    have moved : s.ebpfRunning ≠ c.status := by simp [openGate]
    rw [if_neg moved, frame, ← switches_setMonitorSwitch s _ c.status c.env.now]
    exact ⟨configIds_setMonitorSwitch s _ c.status c.env.now, rfl, rfl⟩
  · have same := refused _ _ command
    rw [if_pos same, frame]
    exact ⟨rfl, same, rfl⟩

/-! ## Sequences of commands -/

section History
variable {s : ProcState} {commands : List SwitchMessage}

theorem run_configIds (loaded : ∀ c ∈ commands, c.configId ∈ configIds s) :
    configIds (run handleSwitchMessage s commands) = configIds s := by
  induction commands generalizing s with
  | nil => rfl
  | cons c rest ih =>
      have same := (handleSwitchMessage_frame (loaded c List.mem_cons_self)).1
      rw [run_cons, ih, same]
      intro d member
      rw [same]
      exact loaded d (List.mem_cons_of_mem c member)

theorem run_ebpfRunning (loaded : ∀ c ∈ commands, c.configId ∈ configIds s)
    (stopped : s.ebpfRunning = false) :
    (run handleSwitchMessage s commands).ebpfRunning = lastStatus false commands := by
  cases commands using List.reverseRecOn with
  | nil => exact stopped
  | append_singleton past c =>
      have known : ∀ d ∈ past, d.configId ∈ configIds s :=
        fun d member => loaded d (List.mem_append_left _ member)
      have present : c.configId ∈ configIds (run handleSwitchMessage s past) := by
        rw [run_configIds known]
        exact loaded c (by simp)
      simpa [lastStatus] using (handleSwitchMessage_frame present).2.1

theorem lastStatus_cons (gate : Bool) (c : SwitchMessage) (rest : List SwitchMessage) :
    lastStatus gate (c :: rest) = lastStatus c.status rest := by
  unfold lastStatus
  rw [List.getLast?_cons]
  cases rest.getLast? <;> rfl

theorem gateMoves_append (gate : Bool) (past : List SwitchMessage) (c : SwitchMessage) :
    gateMoves gate (past ++ [c]) =
      gateMoves gate past ++ if lastStatus gate past = c.status then [] else [c] := by
  induction past generalizing gate with
  | nil => rfl
  | cons d rest ih =>
      rw [lastStatus_cons, List.cons_append]
      unfold gateMoves
      by_cases refused : gate = d.status
      · rw [if_pos refused, if_pos refused, ih, refused]
      · rw [if_neg refused, if_neg refused, ih, List.cons_append]

theorem requestedSwitch_append (config : ProcessConfig) (past : List SwitchMessage)
    (c : SwitchMessage) : requestedSwitch config (past ++ [c]) =
      if c.configId = config.configId then c.status else requestedSwitch config past := by
  by_cases named : c.configId = config.configId <;> simp [requestedSwitch, named]

theorem last_naming_append {configId : UInt64} {past : List SwitchMessage} {c : SwitchMessage}
    {Q : List SwitchMessage → SwitchMessage → Prop} :
    (∀ before d after, past ++ [c] = before ++ d :: after → d.configId = configId →
        (∀ later ∈ after, later.configId ≠ configId) → Q before d) ↔
      if c.configId = configId then Q past c
      else ∀ before d after, past = before ++ d :: after → d.configId = configId →
        (∀ later ∈ after, later.configId ≠ configId) → Q before d := by
  split_ifs with named
  · constructor
    · intro all
      exact all past c [] rfl named (by simp)
    · intro here before d after split names last
      rcases List.eq_nil_or_concat after with rfl | ⟨rest, e, rfl⟩
      · obtain ⟨rfl, same⟩ := List.append_inj' split rfl
        obtain ⟨rfl, -⟩ := List.cons.inj same
        exact here
      · rw [List.concat_eq_append, ← List.cons_append, ← List.append_assoc] at split
        obtain ⟨-, same⟩ := List.append_inj' split rfl
        obtain ⟨rfl, -⟩ := List.cons.inj same
        exact absurd named (last c (by simp))
  · constructor
    · rintro all before d after rfl names last
      refine all before d (after ++ [c]) (by simp) names ?_
      intro later member
      rcases List.mem_append.mp member with old | new
      · exact last later old
      · rwa [List.mem_singleton.mp new]
    · intro all before d after split names last
      rcases List.eq_nil_or_concat after with rfl | ⟨rest, e, rfl⟩
      · obtain ⟨-, same⟩ := List.append_inj' split rfl
        obtain ⟨rfl, -⟩ := List.cons.inj same
        exact absurd names named
      · rw [List.concat_eq_append, ← List.cons_append, ← List.append_assoc] at split
        obtain ⟨inside, -⟩ := List.append_inj' split rfl
        exact all before d rest inside names fun later member => last later (by simp [member])

end History

/-- The command moves the gate, since the one before asked for the opposite, or has nothing to
move. -/
def TakesEffect (config : ProcessConfig) (before : List SwitchMessage) (c : SwitchMessage) : Prop :=
  lastStatus false before = !c.status ∨ requestedSwitch config (gateMoves false before) = c.status

/-- Whether `c` is refused does not depend on `d` coming first, or does not matter. -/
def OrderFree (config : ProcessConfig) (past : List SwitchMessage) (c d : SwitchMessage) : Prop :=
  (lastStatus false past = c.status ↔ d.status = c.status) ∨
    requestedSwitch config (gateMoves false past) = c.status

theorem takesEffect_iff (config : ProcessConfig) (commands : List SwitchMessage) :
    requestedSwitch config (gateMoves false commands) = requestedSwitch config commands ↔
      ∀ before c after, commands = before ++ c :: after → c.configId = config.configId →
        (∀ later ∈ after, later.configId ≠ config.configId) → TakesEffect config before c := by
  induction commands using List.reverseRecOn with
  | nil => simp [gateMoves]
  | append_singleton past c ih =>
      rw [last_naming_append, gateMoves_append, requestedSwitch_append]
      by_cases named : c.configId = config.configId
      · rw [if_pos named, if_pos named, TakesEffect]
        by_cases refused : lastStatus false past = c.status
        · simp [refused]
        · rw [if_neg refused, requestedSwitch_append, if_pos named]
          simp [Bool.eq_not_of_ne refused]
      · rw [if_neg named, if_neg named, ← ih]
        split_ifs
        · rw [List.append_nil]
        · rw [requestedSwitch_append, if_neg named]

section Loaded
variable {configs : List ProcessConfig} {commands : List SwitchMessage}

theorem indexOf_of_distinct (distinct : (configs.map ProcessConfig.configId).Nodup) {i : Nat}
    {config : ProcessConfig} (loaded : configs[i]? = some config) :
    (configs.map ProcessConfig.configId).idxOf config.configId = i := by
  obtain ⟨inside, rfl⟩ := List.getElem?_eq_some_iff.mp loaded
  have inside' : i < (configs.map ProcessConfig.configId).length := by simpa using inside
  simpa using distinct.idxOf_getElem i inside'

theorem switches_run (distinct : (configs.map ProcessConfig.configId).Nodup)
    (known : ∀ c ∈ commands, c.configId ∈ configs.map ProcessConfig.configId) {i : Nat}
    {config : ProcessConfig} (loaded : configs[i]? = some config) :
    (switches (run handleSwitchMessage (.initial configs) commands))[i]? =
      some (requestedSwitch config (gateMoves false commands)) := by
  induction commands using List.reverseRecOn with
  | nil => simp [switches, ProcState.initial, requestedSwitch, gateMoves, loaded]
  | append_singleton past c ih =>
      have knownPast : ∀ d ∈ past, d.configId ∈ configIds (.initial configs) :=
        fun d member => known d (List.mem_append_left _ member)
      have sameIds := run_configIds knownPast
      have present : c.configId ∈ configIds (run handleSwitchMessage (.initial configs) past) := by
        rw [sameIds]
        exact known c (by simp)
      obtain ⟨-, -, moved⟩ := handleSwitchMessage_frame present
      rw [run_append, run_cons, run_nil, moved, run_ebpfRunning knownPast rfl, gateMoves_append]
      by_cases refused : lastStatus false past = c.status
      · rw [if_pos refused, if_pos refused, List.append_nil]
        exact ih knownPast
      · rw [if_neg refused, if_neg refused, requestedSwitch_append]
        by_cases named : c.configId = config.configId
        · have index : indexOf (run handleSwitchMessage (.initial configs) past) c.configId = i := by
            rw [indexOf, sameIds, named]
            exact indexOf_of_distinct distinct loaded
          have inside : i < (switches (run handleSwitchMessage (.initial configs) past)).length := by
            rw [← index]
            simpa [switches, configIds, indexOf] using List.idxOf_lt_length_iff.mpr present
          rw [if_pos named, index, List.getElem?_set_self inside]
        · have index : indexOf (run handleSwitchMessage (.initial configs) past) c.configId ≠ i := by
            intro same
            have here : (configs.map ProcessConfig.configId)[i]? = some c.configId := by
              rw [← same, indexOf, sameIds]
              exact List.getElem?_idxOf (known c (by simp))
            rw [List.getElem?_map, loaded] at here
            exact named (Option.some.inj here).symm
          rw [if_neg named, List.getElem?_set_ne index]
          exact ih knownPast

theorem set_eq_self_iff {l : List Bool} {i : Nat} {b : Bool} (inside : i < l.length) :
    l.set i b = l ↔ l[i]? = some b := by
  constructor
  · intro same
    rw [← same, List.getElem?_set_self inside]
  · intro already
    apply List.ext_getElem?
    intro j
    by_cases same : i = j
    · rw [← same, List.getElem?_set_self inside, already]
    · rw [List.getElem?_set_ne same]

theorem moves_commute_iff {l : List Bool} {i j : Nat} (g b d : Bool) (different : i ≠ j)
    (left : i < l.length) (right : j < l.length) :
    ((if b = d then (if g = b then l else l.set i b) else (if g = b then l else l.set i b).set j d) =
        if d = b then (if g = d then l else l.set j d)
        else (if g = d then l else l.set j d).set i b) ↔
      ((g = b ↔ d = b) ∨ l[i]? = some b) ∧ ((g = d ↔ b = d) ∨ l[j]? = some d) := by
  by_cases kinds : b = d
  · subst kinds
    by_cases refused : g = b
    · simp [refused]
    · simp only [refused, if_true, if_false, iff_true, false_or]
      constructor
      · intro same
        have atLeft := congrArg (fun m : List Bool => m[i]?) same
        have atRight := congrArg (fun m : List Bool => m[j]?) same
        simp only [List.getElem?_set_self left, List.getElem?_set_ne different.symm] at atLeft
        simp only [List.getElem?_set_self right, List.getElem?_set_ne different] at atRight
        exact ⟨atLeft.symm, atRight⟩
      · intro ⟨first, second⟩
        rw [(set_eq_self_iff left).mpr first, (set_eq_self_iff right).mpr second]
  · by_cases refused : g = b
    · have accepted : g ≠ d := fun same => kinds (refused.symm.trans same)
      have inside : i < (l.set j d).length := by simpa using left
      simp only [refused, kinds, Ne.symm kinds, if_true, if_false, iff_false, not_true,
        false_or, true_or, and_true]
      rw [eq_comm, set_eq_self_iff inside, List.getElem?_set_ne different.symm]
    · have accepted : g = d := by cases g <;> cases b <;> cases d <;> simp_all
      have inside : j < (l.set i b).length := by simpa using right
      simp only [accepted, kinds, Ne.symm kinds, if_true, if_false, true_or, true_and, false_or,
        iff_false, not_true]
      rw [set_eq_self_iff inside, List.getElem?_set_ne different]

theorem switch_commands_commute_iff (distinct : (configs.map ProcessConfig.configId).Nodup)
    (known : ∀ c ∈ commands, c.configId ∈ configs.map ProcessConfig.configId)
    {config other : ProcessConfig} (first : config ∈ configs) (second : other ∈ configs)
    {c d : SwitchMessage} (namesFirst : c.configId = config.configId)
    (namesSecond : d.configId = other.configId) (different : c.configId ≠ d.configId) :
    switches (run handleSwitchMessage (.initial configs) (commands ++ [c, d])) =
        switches (run handleSwitchMessage (.initial configs) (commands ++ [d, c])) ↔
      OrderFree config commands c d ∧ OrderFree other commands d c := by
  obtain ⟨i, loadedFirst⟩ := List.mem_iff_getElem?.mp first
  obtain ⟨j, loadedSecond⟩ := List.mem_iff_getElem?.mp second
  have sameIds := run_configIds (s := .initial configs) known
  have gate := run_ebpfRunning (s := .initial configs) known rfl
  have switchFirst := switches_run distinct known loadedFirst
  have switchSecond := switches_run distinct known loadedSecond
  have presentFirst : c.configId ∈ configIds (run handleSwitchMessage (.initial configs) commands) := by
    rw [sameIds, namesFirst]
    exact List.mem_map_of_mem first
  have presentSecond : d.configId ∈ configIds (run handleSwitchMessage (.initial configs) commands) := by
    rw [sameIds, namesSecond]
    exact List.mem_map_of_mem second
  have indexFirst : indexOf (run handleSwitchMessage (.initial configs) commands) c.configId = i := by
    rw [indexOf, sameIds, namesFirst]
    exact indexOf_of_distinct distinct loadedFirst
  have indexSecond : indexOf (run handleSwitchMessage (.initial configs) commands) d.configId = j := by
    rw [indexOf, sameIds, namesSecond]
    exact indexOf_of_distinct distinct loadedSecond
  have apart : i ≠ j := by
    rintro rfl
    rw [loadedFirst] at loadedSecond
    exact different (by rw [namesFirst, namesSecond, Option.some.inj loadedSecond])
  simp only [run_append, run_cons, run_nil, OrderFree]
  rw [← gate]
  generalize run handleSwitchMessage (.initial configs) commands = s at *
  obtain ⟨idsC, gateC, movedC⟩ := handleSwitchMessage_frame presentFirst
  obtain ⟨idsD, gateD, movedD⟩ := handleSwitchMessage_frame presentSecond
  have movedCD := (handleSwitchMessage_frame (idsC ▸ presentSecond)).2.2
  have movedDC := (handleSwitchMessage_frame (idsD ▸ presentFirst)).2.2
  have indexD : indexOf (handleSwitchMessage s c) d.configId = j := by
    rw [indexOf, idsC, ← indexSecond, indexOf]
  have indexC : indexOf (handleSwitchMessage s d) c.configId = i := by
    rw [indexOf, idsD, ← indexFirst, indexOf]
  rw [movedCD, movedDC, movedC, movedD, gateC, gateD, indexC, indexD, indexFirst, indexSecond,
    moves_commute_iff _ _ _ apart (List.getElem?_eq_some_iff.mp switchFirst).1
      (List.getElem?_eq_some_iff.mp switchSecond).1, switchFirst, switchSecond]
  simp only [Option.some.injEq]

end Loaded

/-- After any commands on loaded configs every switch is as the last command on its config asks
exactly when the last command on each config takes effect; and two commands on different configs
commute exactly when their order does not decide which of them is refused. -/
theorem switch_follows_last_iff (configs : List ProcessConfig)
    (distinct : (configs.map ProcessConfig.configId).Nodup) (commands : List SwitchMessage)
    (known : ∀ c ∈ commands, c.configId ∈ configs.map ProcessConfig.configId) :
    (SwitchesFollow configs commands (run handleSwitchMessage (.initial configs) commands) ↔
      ∀ config ∈ configs, ∀ before c after, commands = before ++ c :: after →
        c.configId = config.configId → (∀ later ∈ after, later.configId ≠ config.configId) →
        TakesEffect config before c) ∧
    (∀ config ∈ configs, ∀ other ∈ configs, ∀ c d : SwitchMessage,
      c.configId = config.configId → d.configId = other.configId → c.configId ≠ d.configId →
      (switches (run handleSwitchMessage (.initial configs) (commands ++ [c, d])) =
          switches (run handleSwitchMessage (.initial configs) (commands ++ [d, c])) ↔
        OrderFree config commands c d ∧ OrderFree other commands d c)) := by
  refine ⟨⟨?_, ?_⟩, fun config first other second c d namesFirst namesSecond different =>
    switch_commands_commute_iff distinct known first second namesFirst namesSecond different⟩
  · intro follows config loaded
    obtain ⟨i, here⟩ := List.mem_iff_getElem?.mp loaded
    have followed := follows i config here
    rw [switches_run distinct known here, Option.some.injEq] at followed
    exact (takesEffect_iff config commands).mp followed
  · intro effective i config here
    have loaded := List.mem_of_getElem? here
    rw [switches_run distinct known here, (takesEffect_iff config commands).mpr
      (effective config loaded)]

def startFirst : SwitchMessage where
  env := ⟨0, true⟩
  text := lit "start 1"
  status := true
  configId := 1
  args := [lit "1"]
  spells := by decide
  names := by decide

def startSecond : SwitchMessage where
  env := ⟨0, true⟩
  text := lit "start 2"
  status := true
  configId := 2
  args := [lit "2"]
  spells := by decide
  names := by decide

def twoConfigs : List ProcessConfig := [selftestConfig 1 false, selftestConfig 2 false]

theorem switch_follows_last_iff_two :
    (SwitchesFollow twoConfigs [startFirst]
        (run handleSwitchMessage (.initial twoConfigs) [startFirst]) ↔
      ∀ config ∈ twoConfigs, ∀ before c after, [startFirst] = before ++ c :: after →
        c.configId = config.configId → (∀ later ∈ after, later.configId ≠ config.configId) →
        TakesEffect config before c) ∧
    (switches (run handleSwitchMessage (.initial twoConfigs) [startFirst, startFirst, startSecond]) =
        switches (run handleSwitchMessage (.initial twoConfigs)
          [startFirst, startSecond, startFirst]) ↔
      OrderFree (selftestConfig 1 false) [startFirst] startFirst startSecond ∧
        OrderFree (selftestConfig 2 false) [startFirst] startSecond startFirst) := by
  have both := switch_follows_last_iff twoConfigs (by decide) [startFirst] (by decide)
  exact ⟨both.1, both.2 _ (by simp [twoConfigs]) _ (by simp [twoConfigs]) startFirst startSecond rfl
    rfl (by decide)⟩

theorem second_start_swallowed : ¬ ∀ (configs : List ProcessConfig) (commands : List SwitchMessage),
    (configs.map ProcessConfig.configId).Nodup →
    (∀ c ∈ commands, c.configId ∈ configs.map ProcessConfig.configId) →
    SwitchesFollow configs commands (run handleSwitchMessage (.initial configs) commands) := by
  intro follows
  have known : ∀ c ∈ [startFirst, startSecond],
      c.configId ∈ twoConfigs.map ProcessConfig.configId := by decide
  have followed := follows twoConfigs [startFirst, startSecond] (by decide) known 1 _ rfl
  rw [switches_run (by decide) known rfl] at followed
  revert followed
  decide

end SysDetector.Proc
