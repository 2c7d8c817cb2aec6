import SysDetector.Library.Tokens
import SysDetector.Rpc.Server
import SysDetector.Proc.Commands

namespace SysDetector.Rpc
open CLib

/-! ## The buffers -/

structure BufferUse where
  memory : Bytes
  written : List Nat

/-- The zeroed buffer with the message in front; `beyond` is the memory behind it. -/
def received (message beyond : Bytes) : Bytes :=
  message ++ List.replicate (MAX_MSG_SIZE - message.length) 0 ++ beyond

/-- `proc_split_space` calls `strtok` at most `MAX_MSG_SIZE` times. -/
def procBuffer (message beyond : Bytes) : BufferUse :=
  if message = [] then ⟨received message beyond, []⟩
  else
    let memory := (received message beyond).set message.length 0
    ⟨memory, message.length :: (strtokWrites 32 (cstr memory)).take MAX_MSG_SIZE⟩

/-- The loop over the three parts calls `strtok` at most four times. -/
def fsBuffer (message beyond : Bytes) : BufferUse :=
  let memory := received message beyond
  if message = [] then ⟨memory, []⟩ else ⟨memory, (strtokWrites 32 (cstr memory)).take 4⟩

structure InBounds (use : BufferUse) : Prop where
  written : ∀ i ∈ use.written, i < MAX_MSG_SIZE
  terminated : ∃ i < MAX_MSG_SIZE, use.memory[i]? = some 0

theorem length_of_sent {message : Bytes} (sent : checkLength message = .ok message) :
    message.length ≤ MAX_MSG_SIZE := by
  unfold checkLength at sent
  split_ifs at sent with large
  exact Nat.le_of_not_gt large

section Received
variable {message : Bytes} (short : message.length < MAX_MSG_SIZE) (beyond : Bytes)
include short

theorem received_split : ∃ rest, received message beyond = message ++ 0 :: rest := by
  obtain ⟨room, lengths⟩ : ∃ room, MAX_MSG_SIZE - message.length = room + 1 :=
    ⟨MAX_MSG_SIZE - message.length - 1, by omega⟩
  refine ⟨List.replicate room 0 ++ beyond, ?_⟩
  rw [received, lengths, List.replicate_succ]
  simp

theorem received_nul : (received message beyond)[message.length]? = some 0 := by
  obtain ⟨rest, split⟩ := received_split short beyond
  simp [split]

theorem procBuffer_memory : (procBuffer message beyond).memory = received message beyond := by
  unfold procBuffer
  split_ifs with nothing
  · rfl
  · obtain ⟨rest, split⟩ := received_split short beyond
    simp [split]

theorem procBuffer_inBounds : InBounds (procBuffer message beyond) where
  written := by
    have nul := received_nul short beyond
    have memory := procBuffer_memory short beyond
    unfold procBuffer at memory ⊢
    split_ifs at memory ⊢ with nothing
    · simp
    · intro i member
      rcases List.mem_cons.mp member with rfl | byStrtok
      · exact short
      · have inside := strtokWrites_lt (List.mem_of_mem_take byStrtok)
        dsimp only at memory
        rw [memory] at inside
        exact inside.trans_le ((length_cstr_le nul).trans short.le)
  terminated := by
    rw [procBuffer_memory short beyond]
    exact ⟨message.length, short, received_nul short beyond⟩

end Received

theorem procBuffer_inBounds_iff {message : Bytes} (sent : checkLength message = .ok message)
    (beyond : Bytes) : InBounds (procBuffer message beyond) ↔ message.length < MAX_MSG_SIZE := by
  constructor
  · intro inBounds
    by_contra full
    have nonempty : message ≠ [] := by
      rintro rfl
      exact full (by decide)
    have written := inBounds.written message.length
    rw [procBuffer, if_neg nonempty] at written
    exact full (written List.mem_cons_self)
  · intro short
    exact procBuffer_inBounds short beyond

theorem fsBuffer_inBounds {message : Bytes} (beyond : Bytes)
    (terminated : ∃ i < MAX_MSG_SIZE, (received message beyond)[i]? = some 0) :
    InBounds (fsBuffer message beyond) := by
  obtain ⟨i, inside, nul⟩ := terminated
  unfold fsBuffer
  split_ifs with nothing
  · exact ⟨by simp, i, inside, nul⟩
  · refine ⟨fun j member => ?_, i, inside, nul⟩
    have before := strtokWrites_lt (List.mem_of_mem_take member)
    exact before.trans_le ((length_cstr_le nul).trans inside.le)

theorem fsBuffer_memory (message beyond : Bytes) :
    (fsBuffer message beyond).memory = received message beyond := by
  unfold fsBuffer
  split_ifs <;> rfl

theorem fsBuffer_inBounds_iff {message : Bytes} (sent : checkLength message = .ok message)
    (beyond : Bytes) : InBounds (fsBuffer message beyond) ↔
      message.length < MAX_MSG_SIZE ∨ 0 ∈ message := by
  constructor
  · intro inBounds
    obtain ⟨i, inside, nul⟩ := inBounds.terminated
    rw [fsBuffer_memory] at nul
    by_contra full
    obtain ⟨long, noNul⟩ := not_or.mp full
    have length : message.length = MAX_MSG_SIZE :=
      (length_of_sent sent).antisymm (Nat.le_of_not_lt long)
    rw [received, length, Nat.sub_self, List.replicate_zero, List.append_nil,
      List.getElem?_append_left (by omega)] at nul
    exact noNul (List.mem_of_getElem? nul)
  · intro fits
    apply fsBuffer_inBounds
    rcases fits with short | nul
    · exact ⟨message.length, short, received_nul short beyond⟩
    · obtain ⟨i, inside, at_i⟩ := List.getElem_of_mem nul
      refine ⟨i, inside.trans_le (length_of_sent sent), ?_⟩
      rw [received, List.append_assoc, List.getElem?_append_left inside,
        List.getElem?_eq_getElem inside, at_i]

/-- Of the messages that pass the server's check, those that both workers take within their buffers
are the ones shorter than the buffers. The fs worker alone also takes a full one with a NUL in it. -/
theorem buffers_in_bounds_iff (message : Bytes) (sent : checkLength message = .ok message)
    (beyond : Bytes) :
    (InBounds (procBuffer message beyond) ∧ InBounds (fsBuffer message beyond) ↔
      message.length < MAX_MSG_SIZE) ∧
    (InBounds (procBuffer message beyond) ↔ message.length < MAX_MSG_SIZE) ∧
    (InBounds (fsBuffer message beyond) ↔ message.length < MAX_MSG_SIZE ∨ 0 ∈ message) := by
  have proc := procBuffer_inBounds_iff sent beyond
  have fs := fsBuffer_inBounds_iff sent beyond
  refine ⟨?_, proc, fs⟩
  rw [proc, fs]
  exact ⟨fun both => both.1, fun short => ⟨short, .inl short⟩⟩

theorem buffers_in_bounds_iff_list :
    (InBounds (procBuffer (lit "list") []) ∧ InBounds (fsBuffer (lit "list") []) ↔
      (lit "list").length < MAX_MSG_SIZE) ∧
    (InBounds (procBuffer (lit "list") []) ↔ (lit "list").length < MAX_MSG_SIZE) ∧
    (InBounds (fsBuffer (lit "list") []) ↔ (lit "list").length < MAX_MSG_SIZE ∨ 0 ∈ lit "list") :=
  buffers_in_bounds_iff (lit "list") (by decide) []

def longIdentifier : Bytes := List.replicate 1018 120

theorem commandMessage_proc {opt : Bytes} {identifier : List Bytes}
    (known : PROC_POSSIBLE_OPT_VALUES.contains opt = true)
    (fits : (commandText opt identifier).length ≤ MAX_MSG_SIZE) :
    commandMessage (.proc opt identifier) = .ok (commandText opt identifier) := by
  have valid : validateCommand (.proc opt identifier) = .ok (commandText opt identifier) :=
    if_pos known
  rw [commandMessage, valid]
  exact if_neg (Nat.not_lt.mpr fits)

theorem length_longCommand : (commandText (lit "start") [longIdentifier]).length = 1024 := by
  rw [commandText, if_neg (List.cons_ne_nil _ _), List.intercalate_singleton, List.length_append,
    longIdentifier, List.length_replicate]
  decide

theorem full_message_overflows : ¬ ∀ (command : Command) (message beyond : Bytes),
    commandMessage command = .ok message →
      InBounds (procBuffer message beyond) ∧ InBounds (fsBuffer message beyond) := by
  intro inBounds
  have known : PROC_POSSIBLE_OPT_VALUES.contains (lit "start") = true := by decide
  have accepted := commandMessage_proc known length_longCommand.le
  have proc := (inBounds _ _ [] accepted).1
  have sent : checkLength (commandText (lit "start") [longIdentifier]) =
      .ok (commandText (lit "start") [longIdentifier]) := if_neg length_longCommand.not_gt
  have short := (procBuffer_inBounds_iff sent []).mp proc
  rw [length_longCommand] at short
  exact absurd short (by decide)

/-! ## The tokens -/

theorem commandText_eq (opt : Bytes) (identifier : List Bytes) :
    commandText opt identifier = [32].intercalate (opt :: identifier) := by
  unfold commandText
  split_ifs with nothing
  · rw [nothing, List.intercalate_singleton]
  · obtain ⟨first, others, rfl⟩ := List.exists_cons_of_ne_nil nothing
    rw [List.intercalate_cons_cons]
    rfl

theorem commandText_split (opt : Bytes) (identifier : List Bytes) :
    commandText opt identifier = opt ∨
      ∃ rest, commandText opt identifier = opt ++ 32 :: rest := by
  unfold commandText
  split_ifs
  · exact .inl rfl
  · exact .inr ⟨(lit " ").intercalate identifier, List.append_assoc _ _ _⟩

theorem proc_opt_word {opt : Bytes} (known : PROC_POSSIBLE_OPT_VALUES.contains opt = true) :
    IsWord 32 opt ∧ 0 ∉ opt := by
  have every : ∀ value ∈ PROC_POSSIBLE_OPT_VALUES, IsWord 32 value ∧ 0 ∉ value := by decide
  exact every opt (by simpa using known)

theorem validateCommand_proc {opt message : Bytes} {identifier : List Bytes}
    (valid : validateCommand (.proc opt identifier) = .ok message) :
    PROC_POSSIBLE_OPT_VALUES.contains opt = true ∧ message = commandText opt identifier := by
  simp only [validateCommand] at valid
  split_ifs at valid with known
  cases valid
  exact ⟨known, rfl⟩

theorem procSplitSpace_short {message : Bytes} (short : message.length < Proc.MAX_MSG_SIZE) :
    Proc.procSplitSpace (cstr message) = strtok 32 (cstr message) := by
  apply List.take_of_length_le
  have inside := (List.takeWhile_prefix (· ≠ 0) (l := message)).length_le
  have tokens := length_strtok 32 (cstr message)
  unfold cstr at tokens ⊢
  omega

theorem commandText_first {opt : Bytes} (isWord : IsWord 32 opt) (noNul : 0 ∉ opt)
    (identifier : List Bytes) : (strtok 32 (cstr (commandText opt identifier))).head? = some opt := by
  rcases commandText_split opt identifier with alone | ⟨rest, joined⟩
  · rw [alone, cstr_of_notMem noNul, strtok_word isWord, List.head?_cons]
  · have separator : cstr ([32] ++ rest) = [32] ++ cstr rest := cstr_append (by decide) rest
    rw [List.singleton_append, List.singleton_append] at separator
    rw [joined, cstr_append noNul, separator, strtok_cons isWord, List.head?_cons]

theorem zero_notMem_commandText {opt : Bytes} {identifier : List Bytes} (noNul : 0 ∉ opt)
    (clean : ∀ id ∈ identifier, 0 ∉ id) : 0 ∉ commandText opt identifier := by
  rw [commandText_eq]
  apply notMem_intercalate (by decide)
  intro word member
  rcases List.mem_cons.mp member with rfl | member
  · exact noNul
  · exact clean word member

/-- The worker's tokens are the option and the identifiers exactly when each identifier is a word
of its own; the first token is the option in any case. -/
theorem tokens_iff (opt : Bytes) (identifier : List Bytes) (message : Bytes)
    (valid : validateCommand (.proc opt identifier) = .ok message)
    (short : message.length < Proc.MAX_MSG_SIZE) :
    (Proc.procSplitSpace (cstr message) = opt :: identifier ↔
      ∀ id ∈ identifier, id ≠ [] ∧ 32 ∉ id ∧ 0 ∉ id) ∧
    (Proc.procSplitSpace (cstr message)).head? = some opt := by
  obtain ⟨known, rfl⟩ := validateCommand_proc valid
  obtain ⟨isWord, noNul⟩ := proc_opt_word known
  rw [procSplitSpace_short short]
  refine ⟨⟨fun tokens id member => ?_, fun clean => ?_⟩, commandText_first isWord noNul identifier⟩
  · have token : id ∈ strtok 32 (cstr (commandText opt identifier)) := by
      rw [tokens]
      exact List.mem_cons_of_mem opt member
    obtain ⟨⟨nonempty, noSpace⟩, inside⟩ := strtok_words token
    exact ⟨nonempty, noSpace, fun nul => zero_notMem_cstr _ (inside 0 nul)⟩
  · have whole := zero_notMem_commandText noNul fun id member => (clean id member).2.2
    rw [cstr_of_notMem whole, commandText_eq]
    apply strtok_intercalate
    intro word member
    rcases List.mem_cons.mp member with rfl | member
    · exact isWord
    · exact ⟨(clean word member).1, (clean word member).2.1⟩

theorem tokens_iff_start :
    (Proc.procSplitSpace (cstr (lit "start 12 ab")) = lit "start" :: [lit "12", lit "ab"] ↔
      ∀ id ∈ [lit "12", lit "ab"], id ≠ [] ∧ 32 ∉ id ∧ 0 ∉ id) ∧
    (Proc.procSplitSpace (cstr (lit "start 12 ab"))).head? = some (lit "start") :=
  tokens_iff (lit "start") [lit "12", lit "ab"] (lit "start 12 ab") (by decide) (by decide)

end SysDetector.Rpc
