import SysDetector.Library.CLib

namespace CLib

def IsWord (sep : UInt8) (word : Bytes) : Prop := word ≠ [] ∧ sep ∉ word

instance (sep : UInt8) (word : Bytes) : Decidable (IsWord sep word) :=
  inferInstanceAs (Decidable (_ ∧ _))

theorem strtokFrom_word {sep : UInt8} {word : Bytes} (clean : sep ∉ word) (start rest : Bytes) :
    strtokFrom sep start (word ++ rest) = strtokFrom sep (start ++ word) rest := by
  induction word generalizing start with
  | nil => simp
  | cons c word ih =>
      have other : c ≠ sep := fun same => clean (List.mem_cons.mpr (.inl same.symm))
      have later : sep ∉ word := fun member => clean (List.mem_cons_of_mem c member)
      rw [List.cons_append, strtokFrom, if_neg other, ih later]
      simp

theorem strtok_word {sep : UInt8} {word : Bytes} (isWord : IsWord sep word) :
    strtok sep word = [word] := by
  have scanned := strtokFrom_word isWord.2 [] []
  rw [List.append_nil, List.nil_append] at scanned
  rw [strtok, scanned, strtokFrom, if_neg isWord.1]

theorem strtok_cons {sep : UInt8} {word : Bytes} (isWord : IsWord sep word) (rest : Bytes) :
    strtok sep (word ++ sep :: rest) = word :: strtok sep rest := by
  rw [strtok, strtokFrom_word isWord.2, List.nil_append, strtokFrom, if_pos rfl, if_neg isWord.1]
  rfl

theorem strtok_intercalate {sep : UInt8} {words : List Bytes}
    (areWords : ∀ word ∈ words, IsWord sep word) :
    strtok sep ([sep].intercalate words) = words := by
  induction words with
  | nil => rfl
  | cons word words ih =>
      have first := areWords word List.mem_cons_self
      have others := ih fun other member => areWords other (List.mem_cons_of_mem word member)
      cases words with
      | nil => rw [List.intercalate_singleton, strtok_word first]
      | cons next words =>
          rw [List.intercalate_cons_cons, List.append_assoc, List.singleton_append,
            strtok_cons first, others]

theorem notMem_intercalate {c : UInt8} {sep : Bytes} {words : List Bytes} (clean : c ∉ sep)
    (apart : ∀ word ∈ words, c ∉ word) : c ∉ sep.intercalate words := by
  induction words with
  | nil => exact List.not_mem_nil
  | cons word words ih =>
      have first := apart word List.mem_cons_self
      have others := ih fun other member => apart other (List.mem_cons_of_mem word member)
      cases words with
      | nil => rwa [List.intercalate_singleton]
      | cons next words =>
          rw [List.intercalate_cons_cons]
          simp only [List.mem_append, first, clean, others, or_self, not_false_eq_true]

theorem strtokFrom_words {sep : UInt8} {start s word : Bytes} (clean : sep ∉ start)
    (member : word ∈ strtokFrom sep start s) :
    IsWord sep word ∧ ∀ c ∈ word, c ∈ start ++ s := by
  induction s generalizing start with
  | nil =>
      rw [strtokFrom] at member
      split_ifs at member with nothing
      · cases member
      · cases List.mem_singleton.mp member
        exact ⟨⟨nothing, clean⟩, by simp⟩
  | cons d s ih =>
      rw [strtokFrom] at member
      split_ifs at member with atSep nothing
      · obtain ⟨isWord, inside⟩ := ih List.not_mem_nil member
        refine ⟨isWord, fun c part => ?_⟩
        exact List.mem_append_right _ (List.mem_cons_of_mem d (inside c part))
      · rcases List.mem_cons.mp member with rfl | later
        · exact ⟨⟨nothing, clean⟩, fun c part => List.mem_append_left _ part⟩
        · obtain ⟨isWord, inside⟩ := ih List.not_mem_nil later
          refine ⟨isWord, fun c part => ?_⟩
          exact List.mem_append_right _ (List.mem_cons_of_mem d (inside c part))
      · have longer : sep ∉ start ++ [d] := by
          simpa [clean] using Ne.symm atSep
        obtain ⟨isWord, inside⟩ := ih longer member
        exact ⟨isWord, by simpa using inside⟩

theorem strtok_words {sep : UInt8} {s word : Bytes} (member : word ∈ strtok sep s) :
    IsWord sep word ∧ ∀ c ∈ word, c ∈ s := by
  simpa using strtokFrom_words List.not_mem_nil member

theorem length_strtokFrom (sep : UInt8) (start s : Bytes) :
    (strtokFrom sep start s).length ≤ start.length + s.length := by
  induction s generalizing start with
  | nil =>
      rw [strtokFrom]
      split_ifs with nothing
      · simp
      · have := List.length_pos_iff.mpr nothing
        rw [List.length_singleton]
        omega
  | cons c s ih =>
      have next := ih []
      have longer := ih (start ++ [c])
      rw [List.length_nil] at next
      rw [List.length_append, List.length_singleton] at longer
      rw [strtokFrom, List.length_cons]
      split_ifs
      · omega
      · rw [List.length_cons]
        omega
      · omega

theorem length_strtok (sep : UInt8) (s : Bytes) : (strtok sep s).length ≤ s.length := by
  have bound := length_strtokFrom sep [] s
  rw [List.length_nil, Nat.zero_add] at bound
  exact bound

/-! ## The places written -/

/-- The indices at which `strtok` ends a token by writing over the separator behind it. The scan
stands at index `i`, behind a byte of a token or not. -/
def strtokWritesFrom (sep : UInt8) (i : Nat) (inToken : Bool) : Bytes → List Nat
  | [] => []
  | c :: rest =>
      if c = sep then
        if inToken then i :: strtokWritesFrom sep (i + 1) false rest
        else strtokWritesFrom sep (i + 1) false rest
      else strtokWritesFrom sep (i + 1) true rest

def strtokWrites (sep : UInt8) (s : Bytes) : List Nat := strtokWritesFrom sep 0 false s

theorem strtokWritesFrom_lt {sep : UInt8} {i j : Nat} {inToken : Bool} {s : Bytes}
    (member : j ∈ strtokWritesFrom sep i inToken s) : j < i + s.length := by
  induction s generalizing i inToken with
  | nil => cases member
  | cons c s ih =>
      rw [List.length_cons]
      rw [strtokWritesFrom] at member
      split_ifs at member
      · rcases List.mem_cons.mp member with rfl | later
        · omega
        · have := ih later
          omega
      · have := ih member
        omega
      · have := ih member
        omega

theorem strtokWrites_lt {sep : UInt8} {j : Nat} {s : Bytes} (member : j ∈ strtokWrites sep s) :
    j < s.length := by
  simpa using strtokWritesFrom_lt member

example : strtok 32 (lit " start  12") = [lit "start", lit "12"] ∧
    strtokWrites 32 (lit " start  12") = [6] := by decide

end CLib
