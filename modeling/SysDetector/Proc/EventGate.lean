import SysDetector.Proc.Frames

namespace SysDetector.Proc
open CLib Runs

def switches (s : ProcState) : List Bool := s.configs.map ProcessConfig.monitorSwitch

def AnotherOn (s : ProcState) (i : Nat) : Prop := ∃ j, j ≠ i ∧ (switches s)[j]? = some true

theorem mem_set_iff {l : List Bool} {i : Nat} {status : Bool} (inside : i < l.length) :
    true ∈ l.set i status ↔ status = true ∨ ∃ j, j ≠ i ∧ l[j]? = some true := by
  rw [List.mem_iff_getElem?]
  constructor
  · intro ⟨j, present⟩
    by_cases same : i = j
    · subst same
      rw [List.getElem?_set_self inside] at present
      exact .inl (Option.some.inj present)
    · rw [List.getElem?_set_ne same] at present
      exact .inr ⟨j, Ne.symm same, present⟩
  · rintro (rfl | ⟨j, other, present⟩)
    · exact ⟨i, List.getElem?_set_self inside⟩
    · exact ⟨j, by rw [List.getElem?_set_ne (Ne.symm other)]; exact present⟩

/-! ## What the steps do to the switches -/

theorem switches_modify (configs : List ProcessConfig) (i : Nat) (f : ProcessConfig → ProcessConfig)
    (status : Bool) (sets : ∀ config, (f config).monitorSwitch = status) :
    (configs.modify i f).map ProcessConfig.monitorSwitch =
      (configs.map ProcessConfig.monitorSwitch).set i status := by
  apply List.ext_getElem?
  intro j
  rw [List.getElem?_map, List.getElem?_modify, List.getElem?_set, List.getElem?_map,
    List.length_map]
  by_cases same : i = j
  · subst same
    by_cases inside : i < configs.length <;> simp [inside, sets]
  · simp [same]

theorem switches_setMonitorSwitch (s : ProcState) (i : Nat) (status : Bool) (now : Time) :
    switches (setMonitorSwitch s i status now) = (switches s).set i status :=
  switches_modify _ _ _ _ fun _ => rfl

theorem switches_stampConfig (s : ProcState) (i : Nat) (currentTime : Time) :
    switches (stampConfig s i currentTime) = switches s := by
  apply List.ext_getElem?
  intro j
  simp only [switches, stampConfig, List.getElem?_map, List.getElem?_modify]
  by_cases same : i = j <;> cases s.configs[j]? <;> simp [same]

theorem switches_monitorStep (env : MonitorEnv) (s : ProcState) :
    switches (monitorStep env s) =
      match s.monitor with
      | .givingUp _ i => (switches s).set i false
      | _ => switches s := by
  obtain ⟨pc, log, runs, frame⟩ := monitorStep_frame env s
  rw [frame]
  show (monitorConfigs s).map _ = _
  unfold monitorConfigs
  cases s.monitor with
  | givingUp currentTime i => exact switches_modify _ _ _ _ fun _ => rfl
  | stamping currentTime i => exact switches_stampConfig s i currentTime
  | _ => rfl

theorem configIndex_inside {s : ProcState} {arg : Option Bytes} {i : Nat}
    (named : configIndex s arg = some i) : i < s.configs.length := by
  simp only [configIndex, Option.bind_eq_some_iff] at named
  obtain ⟨configId, -, found⟩ := named
  exact (List.findIdx?_eq_some_iff_getElem.mp found).1

/-! ## Agreement -/

def GateAgrees (s : ProcState) : Prop := s.ebpfRunning = true ↔ true ∈ switches s

structure GateConsistent (s : ProcState) : Prop where
  agree : s.ebpfRunning = true ↔ ∃ config ∈ s.configs, config.monitorSwitch = true
  dispatched : ∀ now e, isEnabledConfiguredProcess s e = true →
    (e.type = .exec → (handleEvent now e s).2 = procEventExec now e s) ∧
    (e.type = .exit → (handleEvent now e s).2 = procEventExit now e s) ∧
    (e.type = .fork → (handleEvent now e s).2 = procEventFork now e s)
  startable : (∀ config ∈ s.configs, config.monitorSwitch = false) → ∀ env arg,
    (handleCommand env PROC_START arg s).responses ≠ s.responses ++ [.cmdEbpfErr]

theorem mem_switches {s : ProcState} {status : Bool} :
    status ∈ switches s ↔ ∃ config ∈ s.configs, config.monitorSwitch = status :=
  List.mem_map

theorem start_not_refused {env : CommandEnv} {arg : Option Bytes} {s : ProcState}
    (stopped : s.ebpfRunning = false) :
    (handleCommand env PROC_START arg s).responses ≠ s.responses ++ [.cmdEbpfErr] := by
  cases named : configIndex s arg with
  | some i =>
      obtain ⟨log, frame⟩ := handleCommand_switched env true rfl
        (by simp [stopped]) named
      rw [if_pos rfl] at frame
      rw [frame]
      simp
  | none =>
      obtain ⟨log, frame⟩ := handleProcStatusCommand_missing env true
        (s := s.writeLog .startingMonitoring) named
      rw [handleCommand_start, stopped, if_neg Bool.false_ne_true, frame]
      simp

theorem gateConsistent_of_agrees {s : ProcState} (agrees : GateAgrees s) : GateConsistent s where
  agree := agrees.trans mem_switches
  dispatched := by
    intro now e enabled
    unfold isEnabledConfiguredProcess at enabled
    obtain ⟨config, loaded, matched⟩ := List.any_eq_true.mp enabled
    have on : config.monitorSwitch = true := (Bool.and_eq_true_iff.mp matched).1
    have running := agrees.mpr (mem_switches.mpr ⟨config, loaded, on⟩)
    exact ⟨handleEvent_exec running, handleEvent_exit running, handleEvent_fork running⟩
  startable := by
    intro off env arg
    apply start_not_refused
    by_contra running
    obtain ⟨config, loaded, on⟩ := mem_switches.mp (agrees.mp (Bool.of_not_eq_false running))
    rw [off config loaded] at on
    cases on

/-- What a step may not do: stop one config while another is on, or give up on the only config
that is on. -/
def GateGuard (s : ProcState) : ProcStep → Prop
  | .message _ message => ∀ i, switchCommand s message = some (false, i) →
      s.ebpfRunning = true → ¬ AnotherOn s i
  | .event _ _ => True
  | .monitor _ => ∀ currentTime i, s.monitor = .givingUp currentTime i →
      (switches s)[i]? = some true → AnotherOn s i

theorem handleMessage_gateAgrees_iff {env : CommandEnv} {message : Bytes} {s : ProcState}
    (agrees : GateAgrees s) :
    GateAgrees (handleMessage env message s) ↔ GateGuard s (.message env message) := by
  rcases handleMessage_switch env message s with
    ⟨status, i, log, responses, command, openGate, frame⟩ | ⟨refused, log, responses, out, frame⟩
  · obtain ⟨args, -, named⟩ := switchCommand_eq_some command
    have inside : i < (switches s).length := by
      simpa [switches] using configIndex_inside named
    have after : GateAgrees (handleMessage env message s) ↔
        (status = true ↔ true ∈ (switches s).set i status) := by
      rw [frame, ← switches_setMonitorSwitch s i status env.now]
      rfl
    rw [after, mem_set_iff inside]
    cases status with
    | true => simp [GateGuard, command]
    | false =>
        have running : s.ebpfRunning = true := by simpa using openGate
        simp [GateGuard, command, running, AnotherOn]
  · have same : GateAgrees (handleMessage env message s) := by
      rw [frame]
      exact agrees
    apply iff_of_true same
    intro i command running
    rw [refused false i command] at running
    cases running

theorem monitorStep_gateAgrees_iff {env : MonitorEnv} {s : ProcState} (agrees : GateAgrees s) :
    GateAgrees (monitorStep env s) ↔ GateGuard s (.monitor env) := by
  have gate : (monitorStep env s).ebpfRunning = s.ebpfRunning := by
    obtain ⟨pc, log, runs, frame⟩ := monitorStep_frame env s
    rw [frame]
  simp only [GateAgrees, GateGuard] at agrees ⊢
  rw [gate, switches_monitorStep, agrees]
  cases at_ : s.monitor with
  | givingUp currentTime i =>
      simp only [MonitorPc.givingUp.injEq, and_imp]
      by_cases on : (switches s)[i]? = some true
      · have inside : i < (switches s).length := (List.getElem?_eq_some_iff.mp on).1
        have present : true ∈ switches s := List.mem_of_getElem? on
        rw [mem_set_iff inside]
        simp [present, on, AnotherOn]
      · have unchanged : true ∈ (switches s).set i false ↔ true ∈ switches s := by
          rw [List.mem_iff_getElem?, List.mem_iff_getElem?]
          refine exists_congr fun j => ?_
          by_cases same : i = j
          · subst same
            rw [List.getElem?_set]
            simp [on]
          · rw [List.getElem?_set_ne same]
        simp [unchanged, on]
  | _ => simp

theorem step_gateAgrees_iff {s : ProcState} {input : ProcStep} (agrees : GateAgrees s) :
    GateAgrees (step s input) ↔ GateGuard s input := by
  cases input with
  | message env message => exact handleMessage_gateAgrees_iff agrees
  | event now e =>
      refine iff_of_true ?_ trivial
      simpa [GateAgrees, switches, step] using agrees
  | monitor env => exact monitorStep_gateAgrees_iff agrees

/-- The gate and the switches agree throughout a run exactly when all configs are loaded off, no
config is stopped while another is on and the monitor thread never gives up on the only one. -/
theorem gate_consistent_iff (configs : List ProcessConfig) (steps : List ProcStep) :
    Always step GateConsistent (.initial configs) steps ↔
      (∀ config ∈ configs, config.monitorSwitch = false) ∧
        Guarded step GateGuard (.initial configs) steps := by
  have agrees_of : ∀ s, GateConsistent s → GateAgrees s :=
    fun s consistent => consistent.agree.trans mem_switches.symm
  have loadedOff : GateAgrees (.initial configs) ↔
      ∀ config ∈ configs, config.monitorSwitch = false := by
    simp [GateAgrees, switches, ProcState.initial]
  have guarded : GateAgrees (.initial configs) →
      (Always step GateConsistent (.initial configs) steps ↔
        Guarded step GateGuard (.initial configs) steps) := by
    intro start
    apply always_iff_guarded step (J := GateAgrees) (L := fun _ _ => True)
    · exact fun s => gateConsistent_of_agrees
    · exact fun s input agrees _ guard => (step_gateAgrees_iff agrees).mpr guard
    · exact fun s input agrees _ consistent =>
        (step_gateAgrees_iff agrees).mp (agrees_of _ consistent)
    · exact start
    · exact fun _ _ _ _ => trivial
  constructor
  · intro always
    have start := agrees_of _ (always [] List.nil_prefix)
    exact ⟨loadedOff.mp start, (guarded start).mp always⟩
  · intro ⟨off, guard⟩
    exact (guarded (loadedOff.mpr off)).mpr guard

theorem loaded_on_gate_closed : ¬ ∀ (configs : List ProcessConfig) (steps : List ProcStep),
    GateConsistent (run step (.initial configs) steps) := by
  intro consistent
  have agree := (consistent [selftestConfig 1 true] []).agree
  have running := agree.mpr ⟨_, List.mem_singleton_self _, rfl⟩
  cases running

end SysDetector.Proc
