import Mathlib.Data.List.Range
import SysDetector.Library.CLib

/-!
# Writing strings into a buffer

Memory from the start of a buffer on, with a record of the indices that were written and of the
calls of `snprintf`. What is behind the buffer can be written too: that a program does not do so is
to be proved (`Buffer.Within`).
-/

namespace Buffers
open CLib

structure FormatCall where
  offset : UInt64
  size : UInt64
deriving DecidableEq

structure CharArray (size : Nat) where
  bytes : Bytes
  length : bytes.length = size
  terminated : 0 ∈ bytes

def CharArray.str {size : Nat} (a : CharArray size) : CharBuf size where
  text := cstr a.bytes
  noNul := zero_notMem_cstr a.bytes
  short := by
    obtain ⟨i, inside, nul⟩ := List.mem_iff_getElem.mp a.terminated
    have le := length_cstr_le (List.getElem?_eq_some_iff.mpr ⟨inside, nul⟩)
    have last : i < size := a.length ▸ inside
    exact Nat.le_trans le (Nat.le_sub_one_of_lt last)

def padded {size : Nat} (s : CharBuf size) (room : 0 < size) : CharArray size where
  bytes := s.text ++ List.replicate (size - s.text.length) 0
  length := by
    have short := s.short
    rw [List.length_append, List.length_replicate]
    omega
  terminated := by
    have short := s.short
    apply List.mem_append_right
    exact List.mem_replicate.mpr ⟨by omega, rfl⟩

structure Buffer where
  memory : Nat → UInt8
  written : List Nat
  calls : List FormatCall

def Buffer.start (memory : Nat → UInt8) : Buffer := ⟨memory, [], []⟩

def Buffer.bytes (b : Buffer) (n : Nat) : Bytes := (List.range n).map b.memory

def Buffer.write (b : Buffer) (i : Nat) (bytes : Bytes) : Buffer :=
  { b with
    memory := fun j => if i ≤ j then (bytes[j - i]?).getD (b.memory j) else b.memory j
    written := b.written ++ List.range' i bytes.length }

def Buffer.put (b : Buffer) (i : UInt64) (c : UInt8) : Buffer := b.write i.toNat [c]

/-- `snprintf(buf + offset, size, "%s", s)`, which returns the length of the whole string. -/
def Buffer.snprintf (b : Buffer) (offset size : UInt64) (s : Bytes) : Int32 × Buffer :=
  let b := { b with calls := b.calls ++ [⟨offset, size⟩] }
  (Int32.ofNat (cstr s).length,
    if size = 0 then b else b.write offset.toNat ((cstr s).take (size.toNat - 1) ++ [0]))

def sizeOfInt (i : Int32) : UInt64 := i.toInt64.toUInt64

theorem not_ofNat_neg {k : Nat} (small : k < 2 ^ 31) : ¬ Int32.ofNat k < 0 := by
  rw [Int32.lt_iff_toInt_lt, Int32.toInt_ofNat_of_lt small]
  simp

theorem sizeOfInt_ofNat {k : Nat} (small : k < 2 ^ 31) : (sizeOfInt (Int32.ofNat k)).toNat = k := by
  have wide : (Int32.ofNat k).toInt64.toInt = k := by
    rw [Int32.toInt_toInt64, Int32.toInt_ofNat_of_lt small]
  have positive : 0 ≤ (Int32.ofNat k).toInt64 := by
    rw [Int64.le_iff_toInt_le, wide]
    exact Int.natCast_nonneg k
  rw [sizeOfInt, Int64.toNat_toUInt64_of_le positive, Int64.toNatClampNeg, wide]
  exact Int.toNat_natCast k

theorem head_eq_zero_iff {size : Nat} (a : CharArray size) :
    a.bytes.head? = some 0 ↔ a.str.text = [] := by
  obtain ⟨bytes, -, terminated⟩ := a
  show _ ↔ cstr bytes = []
  cases bytes with
  | nil => cases terminated
  | cons c rest => simp [cstr, List.takeWhile_cons]

/-! ## Strings -/

structure Buffer.Holds (b : Buffer) (s : Bytes) : Prop where
  noNul : 0 ∉ s
  text : ∀ i c, s[i]? = some c → b.memory i = c
  terminator : b.memory s.length = 0

theorem write_memory_before {b : Buffer} {i j : Nat} (before : j < i) (bytes : Bytes) :
    (b.write i bytes).memory j = b.memory j := if_neg (Nat.not_le.mpr before)

theorem write_memory_inside {b : Buffer} {j : Nat} {bytes : Bytes} {c : UInt8}
    (inside : bytes[j]? = some c) (i : Nat) : (b.write i bytes).memory (i + j) = c := by
  show (if i ≤ i + j then _ else _) = c
  rw [if_pos (Nat.le_add_right i j), Nat.add_sub_cancel_left, inside, Option.getD_some]

theorem write_memory_behind {b : Buffer} {i j : Nat} {bytes : Bytes}
    (behind : i + bytes.length ≤ j) : (b.write i bytes).memory j = b.memory j := by
  show (if i ≤ j then _ else _) = _
  have outside : bytes[j - i]? = none := List.getElem?_eq_none (by omega)
  rw [outside, Option.getD_none, ite_self]

theorem Buffer.Holds.write {b : Buffer} {s piece : Bytes} (holds : b.Holds s) (noNul : 0 ∉ piece) :
    (b.write s.length (piece ++ [0])).Holds (s ++ piece) where
  noNul := by
    rw [List.mem_append]
    exact not_or.mpr ⟨holds.noNul, noNul⟩
  text := by
    intro i c here
    by_cases before : i < s.length
    · rw [List.getElem?_append_left before] at here
      rw [write_memory_before before]
      exact holds.text i c here
    · have behind : s.length ≤ i := Nat.le_of_not_lt before
      rw [List.getElem?_append_right behind] at here
      have inside : (piece ++ [0])[i - s.length]? = some c :=
        (List.getElem?_append_left (List.getElem?_eq_some_iff.mp here).1).trans here
      have place := write_memory_inside (b := b) inside s.length
      rwa [Nat.add_sub_cancel' behind] at place
  terminator := by
    rw [List.length_append]
    exact write_memory_inside (List.getElem?_concat_length) s.length

theorem Buffer.Holds.snprintf {b : Buffer} {s : Bytes} (holds : b.Holds s) {offset size : UInt64}
    (place : offset.toNat = s.length) (room : size ≠ 0) (piece : Bytes) :
    (b.snprintf offset size piece).2.Holds (s ++ (cstr piece).take (size.toNat - 1)) := by
  have noNul : 0 ∉ (cstr piece).take (size.toNat - 1) :=
    fun member => zero_notMem_cstr piece (List.mem_of_mem_take member)
  have logged : ({ b with calls := b.calls ++ [⟨offset, size⟩] } : Buffer).Holds s :=
    ⟨holds.noNul, holds.text, holds.terminator⟩
  show Buffer.Holds (if size = 0 then _ else _) _
  rw [if_neg room, place]
  exact logged.write noNul

theorem Buffer.Holds.terminate {b : Buffer} {s : Bytes} (holds : b.Holds s) {i : UInt64}
    (place : i.toNat = s.length) : (b.put i 0).Holds s := by
  have again := holds.write (List.not_mem_nil (a := 0))
  rw [List.append_nil] at again
  rw [Buffer.put, place]
  exact again

theorem holds_nil (b : Buffer) : (b.put 0 0).Holds [] where
  noNul := List.not_mem_nil
  text := by
    intro i c here
    cases here
  terminator := write_memory_inside (b := b) (j := 0) rfl 0

theorem Buffer.Holds.bytes {b : Buffer} {s : Bytes} (holds : b.Holds s) {n : Nat}
    (room : s.length < n) : ∃ rest, b.bytes n = s ++ 0 :: rest := by
  obtain ⟨k, rfl⟩ := Nat.exists_eq_add_of_lt room
  have front : (List.range s.length).map b.memory = s := by
    apply List.ext_getElem (by simp)
    intro i _ inside
    rw [List.getElem_map, List.getElem_range]
    exact holds.text i s[i] (List.getElem?_eq_getElem inside)
  refine ⟨((List.range k).map Nat.succ).map fun i => b.memory (s.length + i), ?_⟩
  rw [Buffer.bytes, Nat.add_assoc, List.range_add, List.map_append, front, List.map_map,
    List.range_succ_eq_map, List.map_cons]
  congr 2
  exact holds.terminator

theorem Buffer.Holds.cstr_bytes {b : Buffer} {s : Bytes} (holds : b.Holds s) {n : Nat}
    (room : s.length < n) : cstr (b.bytes n) = s ∧ 0 ∈ b.bytes n := by
  obtain ⟨rest, split⟩ := holds.bytes room
  rw [split]
  refine ⟨?_, List.mem_append_right _ List.mem_cons_self⟩
  rw [cstr_append_nul, cstr_of_notMem holds.noNul]

/-! ## Staying inside -/

/-- Nothing was written from index `n` on, and every call of `snprintf` was told the room that was
left up to there. -/
structure Buffer.Within (b : Buffer) (n : UInt64) (memory : Nat → UInt8) : Prop where
  written : ∀ i ∈ b.written, i < n.toNat
  behind : ∀ i, n.toNat ≤ i → b.memory i = memory i
  calls : ∀ call ∈ b.calls, call.size ≠ 0 ∧ call.offset.toNat + call.size.toNat = n.toNat

theorem within_start (n : UInt64) (memory : Nat → UInt8) : (Buffer.start memory).Within n memory where
  written := List.forall_mem_nil _
  behind := fun _ _ => rfl
  calls := List.forall_mem_nil _

theorem Buffer.Within.write {b : Buffer} {n : UInt64} {memory : Nat → UInt8}
    (within : b.Within n memory) {i : Nat} {bytes : Bytes} (fits : i + bytes.length ≤ n.toNat) :
    (b.write i bytes).Within n memory where
  written := by
    intro j member
    rcases List.mem_append.mp member with before | here
    · exact within.written j before
    · exact Nat.lt_of_lt_of_le (List.mem_range'_1.mp here).2 fits
  behind := by
    intro j outside
    rw [write_memory_behind (Nat.le_trans fits outside)]
    exact within.behind j outside
  calls := within.calls

theorem Buffer.Within.put {b : Buffer} {n : UInt64} {memory : Nat → UInt8}
    (within : b.Within n memory) {i : UInt64} (inside : i.toNat < n.toNat) (c : UInt8) :
    (b.put i c).Within n memory := by
  unfold Buffer.put
  exact within.write inside

theorem Buffer.Within.snprintf {b : Buffer} {n : UInt64} {memory : Nat → UInt8}
    (within : b.Within n memory) {offset size : UInt64} (room : size ≠ 0)
    (left : offset.toNat + size.toNat = n.toNat) (piece : Bytes) :
    (b.snprintf offset size piece).2.Within n memory := by
  have logged : ({ b with calls := b.calls ++ [⟨offset, size⟩] } : Buffer).Within n memory := by
    refine ⟨within.written, within.behind, ?_⟩
    intro call member
    rcases List.mem_append.mp member with before | here
    · exact within.calls call before
    · rw [List.mem_singleton.mp here]
      exact ⟨room, left⟩
  have positive : 0 < size.toNat := by
    rw [Nat.pos_iff_ne_zero, ne_eq, ← UInt64.toNat_zero, UInt64.toNat_inj]
    exact room
  show Buffer.Within (if size = 0 then _ else _) n memory
  rw [if_neg room]
  apply logged.write
  rw [List.length_append, List.length_take, List.length_singleton]
  omega

end Buffers
