import SysDetector.Library.CLib

namespace CLib

def decimal (n : Nat) : Bytes := (Nat.toDigits 10 n).map fun c => UInt8.ofNat c.toNat

def decimalInt (i : Int) : Bytes := if i < 0 then lit "-" ++ decimal i.natAbs else decimal i.natAbs

theorem digit_toNat {n : Nat} {c : Char} (member : c ∈ Nat.toDigits 10 n) :
    48 ≤ c.toNat ∧ c.toNat ≤ 57 := by
  have digit := Nat.isDigit_of_mem_toDigits (by decide) (by decide) member
  simpa [Char.isDigit, UInt32.le_iff_toNat_le] using digit

theorem isdigit_of_mem_decimal {n : Nat} {c : UInt8} (member : c ∈ decimal n) :
    isdigit c = true := by
  obtain ⟨digit, inside, rfl⟩ := List.mem_map.mp member
  have bounds := digit_toNat inside
  simp only [isdigit, UInt8.le_iff_toNat_le, UInt8.toNat_ofNat', UInt8.reduceToNat,
    decide_eq_true_eq]
  omega

theorem decimal_ne_nil (n : Nat) : decimal n ≠ [] :=
  fun empty => Nat.toDigits_ne_nil (List.map_eq_nil_iff.mp empty)

theorem foldl_decimal (n : Nat) :
    (decimal n).foldl (fun m c => 10 * m + (c.toNat - 48)) 0 = n := by
  have value : (Nat.toDigits 10 n).foldl (fun m c => 10 * m + (c.toNat - 48)) 0 = n :=
    Nat.ofDigitChars_ten_toDigits
  have byte : ∀ c ∈ Nat.toDigits 10 n, (UInt8.ofNat c.toNat).toNat = c.toNat := by
    intro c member
    have bounds := digit_toNat member
    rw [UInt8.toNat_ofNat']
    omega
  rw [decimal, List.foldl_map]
  nth_rewrite 2 [← value]
  exact List.foldl_ext _ _ _ fun m c member => by rw [byte c member]

theorem isdigit_plain {c : UInt8} (digit : isdigit c = true) :
    isspace c = false ∧ c ≠ 45 ∧ c ≠ 43 := by
  simp only [isdigit, isspace, UInt8.le_iff_toNat_le, UInt8.reduceToNat, ← UInt8.toNat_inj,
    decide_eq_true_eq, decide_eq_false_iff_not, ne_eq] at digit ⊢
  omega

theorem scanInteger_digits {text : Bytes} (nonempty : text ≠ [])
    (digits : ∀ c ∈ text, isdigit c = true) : scanInteger text =
      some (false, text.foldl (fun m c => 10 * m + (c.toNat - 48)) 0, []) := by
  obtain ⟨c, rest, rfl⟩ := List.exists_cons_of_ne_nil nonempty
  obtain ⟨unspaced, noMinus, noPlus⟩ := isdigit_plain (digits c List.mem_cons_self)
  have all : (c :: rest).takeWhile isdigit = c :: rest := List.takeWhile_eq_self_iff.mpr digits
  have none : (c :: rest).dropWhile isdigit = [] := List.dropWhile_eq_nil_iff.mpr digits
  simp [scanInteger, unspaced, noMinus, noPlus, all, none]

theorem scanInteger_decimal (n : Nat) : scanInteger (decimal n) = some (false, n, []) := by
  rw [scanInteger_digits (decimal_ne_nil n) fun c => isdigit_of_mem_decimal, foldl_decimal]

theorem decimal_injective {m n : Nat} (same : decimal m = decimal n) : m = n := by
  rw [← foldl_decimal m, same, foldl_decimal]

theorem atoi_decimal {n : Nat} (fits : n < 2 ^ 31) : atoi (decimal n) = Int32.ofNat n := by
  have scanned : strtol (decimal n) = n := by
    rw [strtol, scanInteger_decimal]
    show max (-2 ^ 63) (min (2 ^ 63 - 1) (n : Int)) = n
    omega
  rw [atoi, scanned]
  rfl

end CLib
