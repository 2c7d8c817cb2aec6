import Mathlib.Data.List.DropRight
import SysDetector.Library.Numerals

namespace CLib

/-! ## Text -/

def fromUtf8 (bytes : Bytes) : Option String := String.fromUTF8? ⟨bytes.toArray⟩

theorem fromUtf8_lit (s : String) : fromUtf8 (lit s) = some s := by
  unfold fromUtf8 lit
  simp [String.fromUTF8?, String.fromUTF8, s.isValidUTF8]

theorem lit_ofList {chars : List Char} (ascii : ∀ c ∈ chars, c.toNat < 128) :
    lit (String.ofList chars) = chars.map fun c => UInt8.ofNat c.toNat := by
  induction chars with
  | nil => rfl
  | cons c chars ih =>
      rw [List.forall_mem_cons] at ascii
      have rest := ih ascii.2
      have small : c.utf8Size = 1 := Char.utf8Size_eq_one_iff.mpr (by
        rw [UInt32.le_iff_toNat_le]
        exact Nat.le_of_lt_succ ascii.1)
      unfold lit at rest ⊢
      rw [String.toUTF8_eq_toByteArray, String.toByteArray_ofList] at rest ⊢
      rw [List.map_cons, ← rest, List.utf8Encode_cons, List.utf8Encode_singleton,
        String.utf8EncodeChar_eq_singleton small]
      simp
      rfl

/-- The characters with the Unicode property `White_Space`. -/
def isWhitespace (c : Char) : Bool :=
  let n := c.toNat
  (9 ≤ n ∧ n ≤ 13) ∨ n = 32 ∨ n = 0x85 ∨ n = 0xA0 ∨ n = 0x1680 ∨ (0x2000 ≤ n ∧ n ≤ 0x200A) ∨
    n = 0x2028 ∨ n = 0x2029 ∨ n = 0x202F ∨ n = 0x205F ∨ n = 0x3000

def trimText (s : String) : String :=
  .ofList ((s.toList.dropWhile isWhitespace).rdropWhile isWhitespace)

theorem trimText_of_solid {s : String} (solid : ∀ c ∈ s.toList, isWhitespace c = false) :
    trimText s = s := by
  have starts : s.toList.dropWhile isWhitespace = s.toList := by
    rw [List.dropWhile_eq_self_iff]
    intro nonempty space
    rw [solid _ (List.getElem_mem nonempty)] at space
    cases space
  have ends : s.toList.rdropWhile isWhitespace = s.toList := by
    rw [List.rdropWhile_eq_self_iff]
    intro nonempty space
    rw [solid _ (List.getLast_mem nonempty)] at space
    cases space
  rw [trimText, starts, ends, String.ofList_toList]

/-! ## Numbers -/

def parseI32 (s : Bytes) : Option Int32 :=
  let negative := s.head? = some 45
  let digits := if negative ∨ s.head? = some 43 then s.tail else s
  if digits = [] ∨ digits.any (fun c => !isdigit c) then none
  else
    let n : Nat := digits.foldl (fun n c => 10 * n + (c.toNat - 48)) 0
    let i : Int := if negative then -n else n
    if -2 ^ 31 ≤ i ∧ i < 2 ^ 31 then some (Int32.ofInt i) else none

def decimalText (i : Int) : String :=
  .ofList (if i < 0 then '-' :: Nat.toDigits 10 i.natAbs else Nat.toDigits 10 i.natAbs)

theorem decimalText_chars {i : Int} {c : Char} (member : c ∈ (decimalText i).toList) :
    c.toNat = 45 ∨ 48 ≤ c.toNat ∧ c.toNat ≤ 57 := by
  rw [decimalText, String.toList_ofList] at member
  split_ifs at member
  · rcases List.mem_cons.mp member with rfl | digit
    · exact .inl rfl
    · exact .inr (digit_toNat digit)
  · exact .inr (digit_toNat member)

theorem decimalText_solid {i : Int} {c : Char} (member : c ∈ (decimalText i).toList) :
    isWhitespace c = false := by
  have bounds := decimalText_chars member
  simp only [isWhitespace, decide_eq_false_iff_not]
  omega

theorem lit_decimalText (i : Int) : lit (decimalText i) = decimalInt i := by
  have ascii : ∀ c ∈ (decimalText i).toList, c.toNat < 128 := by
    intro c member
    have bounds := decimalText_chars member
    omega
  unfold decimalText at ascii ⊢
  rw [String.toList_ofList] at ascii
  rw [lit_ofList ascii, decimalInt, decimal]
  split_ifs
  · rfl
  · rfl

theorem zero_notMem_decimalInt (i : Int) : 0 ∉ decimalInt i := by
  have digits : 0 ∉ decimal i.natAbs := by
    intro member
    cases isdigit_of_mem_decimal member
  unfold decimalInt
  split_ifs
  · exact fun member => (List.mem_append.mp member).elim (by decide) digits
  · exact digits

theorem length_decimal_le {n k : Nat} (small : n < 10 ^ k) (positive : 0 < k) :
    (decimal n).length ≤ k := by
  rw [decimal, List.length_map]
  exact (Nat.length_toDigits_le_iff (by decide) positive).mpr small

theorem length_decimalInt_le (i : Int32) : (decimalInt i.toInt).length ≤ 11 := by
  have low := i.le_toInt
  have high := i.toInt_lt
  have digits : (decimal i.toInt.natAbs).length ≤ 10 := length_decimal_le (by omega) (by decide)
  unfold decimalInt
  split_ifs
  · have sign : (lit "-").length = 1 := rfl
    rw [List.length_append]
    omega
  · omega

theorem parseI32_decimalInt (i : Int32) : parseI32 (decimalInt i.toInt) = some i := by
  have low := i.le_toInt
  have high := i.toInt_lt
  have digits : (decimal i.toInt.natAbs).any (fun c => !isdigit c) = false := by
    rw [List.any_eq_false]
    intro c member
    simp [isdigit_of_mem_decimal member]
  have value := foldl_decimal i.toInt.natAbs
  have bounds : -2 ^ 31 ≤ i.toInt ∧ i.toInt < 2 ^ 31 := ⟨low, high⟩
  unfold decimalInt
  split_ifs with negative
  · have shape : lit "-" ++ decimal i.toInt.natAbs = 45 :: decimal i.toInt.natAbs := rfl
    have abs : -(i.toInt.natAbs : Int) = i.toInt := by omega
    simp only [shape, parseI32, List.head?_cons, List.tail_cons, true_or, if_true, decimal_ne_nil,
      digits, Bool.false_eq_true, or_self, if_false, value, abs, bounds, and_self, Int32.ofInt_toInt]
  · obtain ⟨c, rest, shape⟩ := List.exists_cons_of_ne_nil (decimal_ne_nil i.toInt.natAbs)
    have first : c ∈ decimal i.toInt.natAbs := shape ▸ List.mem_cons_self
    obtain ⟨-, noMinus, noPlus⟩ := isdigit_plain (isdigit_of_mem_decimal first)
    have abs : (i.toInt.natAbs : Int) = i.toInt := by omega
    have head : (decimal i.toInt.natAbs).head? = some c := by
      rw [shape]
      rfl
    simp only [parseI32, head, Option.some.injEq, noMinus, noPlus, or_self, if_false,
      Bool.false_eq_true, decimal_ne_nil, digits, value, abs, bounds, and_self, if_true,
      Int32.ofInt_toInt]

/-! ## Words -/

def beBytes : Nat → Nat → Bytes
  | 0, _ => []
  | k + 1, n => beBytes k (n / 256) ++ [UInt8.ofNat n]

def beNat (bytes : Bytes) : Nat := bytes.foldl (fun n c => 256 * n + c.toNat) 0

theorem length_beBytes (k n : Nat) : (beBytes k n).length = k := by
  induction k generalizing n with
  | zero => rfl
  | succ k ih => rw [beBytes, List.length_append, ih, List.length_singleton]

theorem beNat_beBytes (k n : Nat) : beNat (beBytes k n) = n % 256 ^ k := by
  induction k generalizing n with
  | zero => rw [Nat.pow_zero, Nat.mod_one]; rfl
  | succ k ih =>
      have last : (UInt8.ofNat n).toNat = n % 256 := UInt8.toNat_ofNat'
      have rest := ih (n / 256)
      unfold beNat at rest ⊢
      rw [beBytes, List.foldl_append, rest, List.foldl_cons, List.foldl_nil, last,
        Nat.pow_succ', Nat.mod_mul, Nat.add_comm]

theorem beNat_beBytes_of_lt {k n : Nat} (fits : n < 256 ^ k) : beNat (beBytes k n) = n := by
  rw [beNat_beBytes, Nat.mod_eq_of_lt fits]

def leBytes (k n : Nat) : Bytes := (beBytes k n).reverse

def leNat (bytes : Bytes) : Nat := beNat bytes.reverse

theorem length_leBytes (k n : Nat) : (leBytes k n).length = k := by
  rw [leBytes, List.length_reverse, length_beBytes]

theorem leNat_leBytes_of_lt {k n : Nat} (fits : n < 256 ^ k) : leNat (leBytes k n) = n := by
  rw [leNat, leBytes, List.reverse_reverse, beNat_beBytes_of_lt fits]

/-! ## Reading -/

def readExact (n : Nat) (stream : Bytes) : Option (Bytes × Bytes) :=
  if n ≤ stream.length then some (stream.take n, stream.drop n) else none

theorem readExact_append {n : Nat} {bytes : Bytes} (length : bytes.length = n) (rest : Bytes) :
    readExact n (bytes ++ rest) = some (bytes, rest) := by
  subst length
  rw [readExact, if_pos (by simp), List.take_left, List.drop_left]

end CLib
