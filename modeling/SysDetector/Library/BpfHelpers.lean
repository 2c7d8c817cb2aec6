import SysDetector.Library.CLib

namespace BpfHelpers
open CLib

abbrev Memory := UInt64 → Option UInt8

def readBytes (mem : Memory) : Nat → UInt64 → Option UInt64
  | 0, _ => some 0
  | count + 1, a => do
      let low ← mem a
      let high ← readBytes mem count (a + 1)
      return low.toUInt64 + 256 * high

def probeReadPointer (mem : Memory) (a : UInt64) : UInt64 := (readBytes mem 8 a).getD 0

def readString (mem : Memory) : Nat → UInt64 → Option Bytes
  | 0, _ => some []
  | count + 1, a =>
      match mem a with
      | none => none
      | some c => if c = 0 then some [] else (readString mem count (a + 1)).map (c :: ·)

def probeReadStr (size : Nat) (mem : Memory) (a : UInt64) : CharBuf size :=
  match readString mem size a with
  | some s => snprintf size s
  | none => default

def CStringAt (mem : Memory) : UInt64 → Bytes → Prop
  | a, [] => mem a = some 0
  | a, c :: s => c ≠ 0 ∧ mem a = some c ∧ CStringAt mem (a + 1) s

theorem CStringAt.noNul {mem : Memory} {a : UInt64} {s : Bytes} (h : CStringAt mem a s) :
    0 ∉ s := by
  induction s generalizing a with
  | nil => simp
  | cons c s ih =>
      obtain ⟨nonzero, -, rest⟩ := h
      simp [nonzero.symm, ih rest]

theorem readString_of_cstring {mem : Memory} {a : UInt64} {s : Bytes} (h : CStringAt mem a s)
    (count : Nat) : readString mem count a = some (s.take count) := by
  induction count generalizing a s with
  | zero => rfl
  | succ count ih =>
      cases s with
      | nil =>
          have terminator : mem a = some 0 := h
          simp [readString, terminator]
      | cons c s =>
          obtain ⟨nonzero, here, rest⟩ := h
          simp [readString, here, nonzero, ih rest]

theorem probeReadStr_of_cstring {size : Nat} {mem : Memory} {a : UInt64} {s : Bytes}
    (h : CStringAt mem a s) : probeReadStr size mem a = snprintf size s := by
  have inside : 0 ∉ s.take size := fun member => h.noNul (List.mem_of_mem_take member)
  simp only [probeReadStr, readString_of_cstring h]
  apply CharBuf.ext
  simp only [snprintf, cstr_of_notMem inside, cstr_of_notMem h.noNul, List.take_take]
  congr 1
  omega

theorem readString_noNul {mem : Memory} {count : Nat} {a : UInt64} {s : Bytes}
    (h : readString mem count a = some s) : 0 ∉ s := by
  induction count generalizing a s with
  | zero =>
      cases h
      simp
  | succ count ih =>
      unfold readString at h
      split at h
      · cases h
      · split_ifs at h with zero
        · cases h
          simp
        · obtain ⟨rest, read, rfl⟩ := Option.map_eq_some_iff.mp h
          simp [Ne.symm zero, ih read]

theorem probeReadStr_eq_empty {size : Nat} (big : 1 < size) {mem : Memory}
    {a : UInt64} : probeReadStr size mem a = default ↔
      mem a = some 0 ∨ readString mem size a = none := by
  obtain ⟨count, rfl⟩ : ∃ count, size = count + 2 := ⟨size - 2, by omega⟩
  have emptyText : (default : CharBuf (count + 2)).text = [] := rfl
  constructor
  · intro empty
    have text := congrArg CharBuf.text empty
    rw [emptyText] at text
    cases read : readString mem (count + 2) a with
    | none => exact .inr rfl
    | some s =>
        left
        simp only [probeReadStr, read, snprintf, cstr_of_notMem (readString_noNul read)] at text
        have nothing : s = [] := by
          cases s with
          | nil => rfl
          | cons c s => simp at text
        subst nothing
        unfold readString at read
        split at read
        · cases read
        · next c here =>
            split_ifs at read with zero
            · rw [here, zero]
            · simp at read
  · rintro (terminator | unreadable)
    · simp only [probeReadStr, readString, terminator, if_true]
      rfl
    · simp only [probeReadStr, unreadable]

/-! ## Hash maps -/

structure HashMap (κ β : Type) (size : Nat) where
  entries : List (κ × β)
  distinct : (entries.map Prod.fst).Nodup
  bounded : entries.length ≤ size

namespace HashMap
variable {κ β : Type} [DecidableEq κ] {size : Nat}

def empty : HashMap κ β size where
  entries := []
  distinct := List.nodup_nil
  bounded := Nat.zero_le size

def lookup (m : HashMap κ β size) (k : κ) : Option β :=
  (m.entries.find? fun entry => entry.1 = k).map Prod.snd

def delete (m : HashMap κ β size) (k : κ) : HashMap κ β size where
  entries := m.entries.filter fun entry => entry.1 ≠ k
  distinct := m.distinct.sublist (List.filter_sublist.map Prod.fst)
  bounded := (List.length_filter_le _ _).trans m.bounded

theorem delete_absent (m : HashMap κ β size) (k : κ) :
    k ∉ (m.delete k).entries.map Prod.fst := by
  simp [delete]

/-- `bpf_map_update_elem` with `BPF_ANY`, which fails when the key is new and the map full. -/
def update (m : HashMap κ β size) (k : κ) (v : β) : HashMap κ β size :=
  if room : (m.delete k).entries.length < size then
    { entries := (k, v) :: (m.delete k).entries
      distinct := List.nodup_cons.mpr ⟨m.delete_absent k, (m.delete k).distinct⟩
      bounded := room }
  else m

def HasRoom (m : HashMap κ β size) (k : κ) : Prop := (m.delete k).entries.length < size

instance (m : HashMap κ β size) (k : κ) : Decidable (m.HasRoom k) :=
  inferInstanceAs (Decidable (_ < _))

theorem entries_update {m : HashMap κ β size} {k : κ} (room : m.HasRoom k) (v : β) :
    (m.update k v).entries = (k, v) :: (m.delete k).entries := by
  unfold HasRoom at room
  rw [update, dif_pos room]

theorem update_of_full {m : HashMap κ β size} {k : κ} (full : ¬ m.HasRoom k) (v : β) :
    m.update k v = m := by
  unfold HasRoom at full
  rw [update, dif_neg full]

theorem eq_of_lookup_update {m : HashMap κ β size} {k : κ} {v w : β}
    (h : (m.update k v).lookup k = some w) : w = v := by
  unfold update at h
  split at h
  · next room => simpa [lookup, eq_comm] using h
  · next full =>
      obtain ⟨entry, found, -⟩ := Option.map_eq_some_iff.mp h
      have member := List.mem_of_find?_eq_some found
      have key : entry.1 = k := by simpa using List.find?_some found
      have shorter : (m.delete k).entries.length < m.entries.length := by
        rw [delete, List.length_filter_lt_length_iff_exists]
        exact ⟨entry, member, by simp [key]⟩
      exact absurd (shorter.trans_le m.bounded) full

theorem lookup_of_delete {m : HashMap κ β size} {k k' : κ} {v : β}
    (found : (m.delete k).lookup k' = some v) : k' ≠ k ∧ m.lookup k' = some v := by
  by_cases same : k' = k
  · obtain ⟨entry, at_, -⟩ := Option.map_eq_some_iff.mp found
    have member := List.mem_of_find?_eq_some at_
    have key : entry.1 = k' := by simpa using List.find?_some at_
    have here : entry.1 ∈ (m.delete k).entries.map Prod.fst := List.mem_map_of_mem member
    rw [key, same] at here
    exact absurd here (m.delete_absent k)
  · refine ⟨same, ?_⟩
    have others : (m.delete k).lookup k' = m.lookup k' := by
      unfold lookup delete
      rw [List.find?_filter]
      congr 2
      funext entry
      by_cases key : entry.1 = k'
      · simp [key, same]
      · simp [key]
    rw [← others, found]

theorem lookup_of_update {m : HashMap κ β size} {k k' : κ} {v w : β}
    (found : (m.update k v).lookup k' = some w) :
    k' = k ∧ w = v ∨ k' ≠ k ∧ m.lookup k' = some w := by
  by_cases same : k' = k
  · subst same
    exact .inl ⟨rfl, eq_of_lookup_update found⟩
  · by_cases room : m.HasRoom k
    · have entries := entries_update room v
      unfold lookup at found
      rw [entries, List.find?_cons_of_neg (by simpa using Ne.symm same)] at found
      exact .inr (lookup_of_delete found)
    · rw [update_of_full room] at found
      exact .inr ⟨same, found⟩

end HashMap

end BpfHelpers
