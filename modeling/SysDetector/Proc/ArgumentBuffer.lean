import SysDetector.Library.Buffers
import SysDetector.Proc.Arguments
import SysDetector.Proc.Worker

namespace SysDetector.Proc
open CLib Buffers

abbrev ArgvSlots := Fin ARGV_MAX_ARGS → CharArray ARGV_ARG_LEN

def joinSlots (bufLen : UInt64) : UInt64 → List (CharArray ARGV_ARG_LEN) → Buffer → Buffer
  | _, [], b => b
  | offset, slot :: rest, b =>
      if slot.bytes.head? = some 0 then joinSlots bufLen offset rest b
      else
        let (written, b) := b.snprintf offset (bufLen - offset)
          ((if 0 < offset then lit " " else []) ++ slot.str.text)
        if written < 0 then b
        else if sizeOfInt written ≥ bufLen - offset then b.put (bufLen - 1) 0
        else joinSlots bufLen (offset + sizeOfInt written) rest b

def joinEventArgvInto (slots : ArgvSlots) (bufLen : UInt64) (b : Buffer) : Buffer :=
  if bufLen = 0 then b else joinSlots bufLen 0 (List.ofFn slots) (b.put 0 0)

structure Joining (bufLen : UInt64) (memory : Nat → UInt8) (offset : UInt64) (joined : Bytes)
    (b : Buffer) : Prop where
  holds : b.Holds joined
  place : offset.toNat = joined.length
  room : joined.length < bufLen.toNat
  within : b.Within bufLen memory

section
variable {bufLen offset : UInt64} {memory : Nat → UInt8} {joined : Bytes} {b : Buffer}

theorem Joining.left (joining : Joining bufLen memory offset joined b) :
    (bufLen - offset).toNat = bufLen.toNat - joined.length ∧ bufLen - offset ≠ 0 := by
  have before : offset ≤ bufLen := by
    rw [UInt64.le_iff_toNat_le, joining.place]
    exact Nat.le_of_lt joining.room
  have left : (bufLen - offset).toNat = bufLen.toNat - joined.length := by
    rw [UInt64.toNat_sub_of_le _ _ before, joining.place]
  refine ⟨left, fun none => ?_⟩
  rw [none, UInt64.toNat_zero] at left
  exact absurd joining.room (by omega)

theorem Joining.separator (joining : Joining bufLen memory offset joined b) :
    (if 0 < offset then lit " " else []) = if 0 < joined.length then lit " " else [] := by
  have same : 0 < offset ↔ 0 < joined.length := by
    rw [UInt64.lt_iff_toNat_lt, joining.place, UInt64.toNat_zero]
  simp only [same]

theorem piece_plain (slot : CharArray ARGV_ARG_LEN) (joined : Bytes) :
    0 ∉ (if 0 < joined.length then lit " " else []) ++ slot.str.text ∧
      ((if 0 < joined.length then lit " " else []) ++ slot.str.text).length < 2 ^ 31 := by
  have short : slot.str.text.length ≤ 63 := slot.str.short
  have blank : 0 ∉ lit " " ∧ (lit " ").length = 1 := by decide
  constructor
  · rw [List.mem_append]
    refine not_or.mpr ⟨?_, slot.str.noNul⟩
    split_ifs
    · exact blank.1
    · exact List.not_mem_nil
  · rw [List.length_append]
    split_ifs
    · rw [blank.2]
      omega
    · rw [List.length_nil]
      omega

theorem Joining.snprintf (joining : Joining bufLen memory offset joined b) {piece : Bytes}
    (noNul : 0 ∉ piece) :
    let printed := (b.snprintf offset (bufLen - offset) piece).2
    printed.Holds (joined ++ piece.take (bufLen.toNat - joined.length - 1)) ∧
      printed.Within bufLen memory := by
  obtain ⟨left, room⟩ := joining.left
  have holds := joining.holds.snprintf joining.place room piece
  rw [cstr_of_notMem noNul, left] at holds
  refine ⟨holds, joining.within.snprintf room ?_ piece⟩
  rw [left, joining.place]
  exact Nat.add_sub_of_le (Nat.le_of_lt joining.room)

theorem Joining.full (joining : Joining bufLen memory offset joined b) {piece : Bytes}
    (noNul : 0 ∉ piece) (full : bufLen.toNat - joined.length ≤ piece.length) :
    let cut := (b.snprintf offset (bufLen - offset) piece).2.put (bufLen - 1) 0
    cut.Holds (joined ++ piece.take (bufLen.toNat - joined.length - 1)) ∧
      cut.Within bufLen memory := by
  obtain ⟨holds, within⟩ := joining.snprintf noNul
  have room := joining.room
  have last : (bufLen - 1).toNat = bufLen.toNat - 1 := by
    apply UInt64.toNat_sub_of_le
    rw [UInt64.le_iff_toNat_le, UInt64.toNat_one]
    omega
  constructor
  · apply holds.terminate
    rw [last, List.length_append, List.length_take]
    omega
  · apply within.put
    rw [last]
    omega

theorem Joining.next (joining : Joining bufLen memory offset joined b) {piece : Bytes}
    (noNul : 0 ∉ piece) (fits : piece.length < bufLen.toNat - joined.length) {written : UInt64}
    (length : written.toNat = piece.length) :
    Joining bufLen memory (offset + written) (joined ++ piece)
      (b.snprintf offset (bufLen - offset) piece).2 := by
  obtain ⟨holds, within⟩ := joining.snprintf noNul
  rw [List.take_of_length_le (Nat.le_sub_one_of_lt fits)] at holds
  have small := bufLen.toNat_lt
  refine ⟨holds, ?_, ?_, within⟩
  · rw [UInt64.toNat_add, joining.place, length, List.length_append]
    exact Nat.mod_eq_of_lt (by omega)
  · rw [List.length_append]
    omega

theorem joinSlots_joins (joining : Joining bufLen memory offset joined b)
    (slots : List (CharArray ARGV_ARG_LEN)) :
    (joinSlots bufLen offset slots b).Holds
        (joinArgs bufLen.toNat joined (slots.map CharArray.str)) ∧
      (joinSlots bufLen offset slots b).Within bufLen memory := by
  induction slots generalizing offset joined b with
  | nil => exact ⟨joining.holds, joining.within⟩
  | cons slot rest ih =>
      rw [List.map_cons]
      unfold joinSlots joinArgs
      by_cases empty : slot.str.text = []
      · rw [if_pos ((head_eq_zero_iff slot).mpr empty), if_pos empty]
        exact ih joining
      · rw [if_neg (mt (head_eq_zero_iff slot).mp empty), if_neg empty, joining.separator]
        obtain ⟨noNul, small⟩ := piece_plain slot joined
        dsimp only
        generalize (if 0 < joined.length then lit " " else []) ++ slot.str.text = piece at *
        have returned : (b.snprintf offset (bufLen - offset) piece).1 = Int32.ofNat piece.length := by
          rw [Buffer.snprintf, cstr_of_notMem noNul]
        have length := sizeOfInt_ofNat small
        obtain ⟨left, -⟩ := joining.left
        rw [returned, if_neg (not_ofNat_neg small)]
        by_cases full : piece.length ≥ bufLen.toNat - joined.length
        · have stops : sizeOfInt (Int32.ofNat piece.length) ≥ bufLen - offset := by
            rw [ge_iff_le, UInt64.le_iff_toNat_le, length, left]
            exact full
          rw [if_pos stops, if_pos full]
          exact joining.full noNul full
        · have goesOn : ¬ sizeOfInt (Int32.ofNat piece.length) ≥ bufLen - offset := by
            rw [ge_iff_le, UInt64.le_iff_toNat_le, length, left]
            exact full
          rw [if_neg goesOn, if_neg full]
          exact ih (joining.next noNul (Nat.lt_of_not_le full) length)

end

/-- In a buffer of any length the string is as much of the joined arguments as leaves room for its
terminator; nothing is written behind the buffer, and `snprintf` is always told the room that is
left. -/
theorem argv_joined_within (e : ProcEvent) (slots : ArgvSlots) (bufLen : UInt64)
    (room : 1 ≤ bufLen) (memory : Nat → UInt8) :
    let b := joinEventArgvInto slots bufLen (.start memory)
    cstr (b.bytes bufLen.toNat) =
        (fullArgv { e with argv := fun i => (slots i).str }).take (bufLen.toNat - 1) ∧
      0 ∈ b.bytes bufLen.toNat ∧ (∀ i ∈ b.written, i < bufLen.toNat) ∧
      (∀ i, bufLen.toNat ≤ i → b.memory i = memory i) ∧
      ∀ call ∈ b.calls, call.size ≠ 0 ∧ call.offset.toNat + call.size.toNat = bufLen.toNat := by
  have positive : 0 < bufLen.toNat := by
    rw [UInt64.le_iff_toNat_le, UInt64.toNat_one] at room
    exact room
  have started : Joining bufLen memory 0 [] ((Buffer.start memory).put 0 0) :=
    ⟨holds_nil _, rfl, positive, (within_start bufLen memory).put (i := 0) positive 0⟩
  have some : bufLen ≠ 0 := by
    rintro rfl
    exact absurd positive (Nat.lt_irrefl 0)
  obtain ⟨holds, within⟩ := joinSlots_joins started (List.ofFn slots)
  have slotTexts : (List.ofFn slots).map CharArray.str = List.ofFn fun i => (slots i).str :=
    List.map_ofFn
  rw [slotTexts] at holds
  have joined := joinEventArgv_eq { e with argv := fun i => (slots i).str } positive
  rw [joinEventArgv] at joined
  rw [joined] at holds
  rw [joinEventArgvInto, if_neg some]
  obtain ⟨string, terminated⟩ := holds.cstr_bytes (n := bufLen.toNat) (by
    rw [List.length_take]
    omega)
  exact ⟨string, terminated, within.written, within.behind, within.calls⟩

def shSlots : ArgvSlots := fun i =>
  padded (snprintf ARGV_ARG_LEN (if i = 1 then lit "sh" else if i = 4 then lit "-c" else []))
    (by decide)

theorem argv_joined_within_sh :
    let b := joinEventArgvInto shSlots 5 (.start fun _ => 255)
    cstr (b.bytes 5) = lit "sh -" ∧ 0 ∈ b.bytes 5 ∧ (∀ i ∈ b.written, i < 5) ∧
      (∀ i, 5 ≤ i → b.memory i = 255) ∧
      ∀ call ∈ b.calls, call.size ≠ 0 ∧ call.offset.toNat + call.size.toNat = 5 := by
  have within := argv_joined_within (shellEvent .exec 42 1) shSlots 5 (by decide) fun _ => 255
  exact ⟨within.1.trans (by decide), within.2⟩

end SysDetector.Proc
