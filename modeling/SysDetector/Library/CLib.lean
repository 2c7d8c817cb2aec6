import Mathlib.Algebra.GroupWithZero.Nat
import Mathlib.Algebra.Group.Int.Defs
import Mathlib.Data.List.Infix
import Mathlib.Data.List.TakeWhile

/-!
# The C library on byte strings

C strings are lists of bytes without their terminator. A `char` array of fixed size is a
`CharBuf`, which carries the proof that its string leaves a byte for the terminator.
-/

namespace CLib

abbrev Bytes := List UInt8

def lit (s : String) : Bytes := s.toUTF8.data.toList

def cstr (buffer : Bytes) : Bytes := buffer.takeWhile (· ≠ 0)

theorem zero_notMem_cstr (buffer : Bytes) : 0 ∉ cstr buffer := by
  intro member
  simpa using List.mem_takeWhile_imp member

theorem cstr_of_notMem {s : Bytes} (h : 0 ∉ s) : cstr s = s := by
  rw [cstr, List.takeWhile_eq_self_iff]
  intro c member
  simp only [decide_eq_true_eq]
  rintro rfl
  exact h member

theorem cstr_append {word : Bytes} (noNul : 0 ∉ word) (rest : Bytes) :
    cstr (word ++ rest) = word ++ cstr rest := by
  have nonzero : ∀ c ∈ word, decide (c ≠ 0) = true := by
    intro c member
    rw [decide_eq_true_eq]
    rintro rfl
    exact noNul member
  rw [cstr, List.takeWhile_append_of_pos nonzero]
  rfl

theorem cstr_append_nul (s rest : Bytes) : cstr (s ++ 0 :: rest) = cstr s := by
  induction s with
  | nil => rfl
  | cons c s ih =>
      unfold cstr at ih ⊢
      rw [List.cons_append, List.takeWhile_cons, List.takeWhile_cons, ih]

theorem length_cstr_le {buffer : Bytes} {i : Nat} (nul : buffer[i]? = some 0) :
    (cstr buffer).length ≤ i := by
  induction buffer generalizing i with
  | nil => cases nul
  | cons c buffer ih =>
      rw [cstr, List.takeWhile_cons]
      split_ifs with nonzero
      · cases i with
        | zero =>
            cases nul
            exact absurd nonzero (by decide)
        | succ i => exact Nat.succ_le_succ (ih nul)
      · exact Nat.zero_le i

theorem cstr_append_of_mem {word : Bytes} (nul : 0 ∈ word) (rest : Bytes) :
    cstr (word ++ rest) = cstr word := by
  obtain ⟨front, back, rfl⟩ := List.append_of_mem nul
  rw [List.append_assoc, List.cons_append, cstr_append_nul, cstr_append_nul]

@[ext] structure CharBuf (size : Nat) where
  text : Bytes
  noNul : 0 ∉ text
  short : text.length ≤ size - 1
deriving DecidableEq

/-- `snprintf(buf, size, "%s", s)`: the string, cut so that its terminator fits. -/
def snprintf (size : Nat) (s : Bytes) : CharBuf size where
  text := (cstr s).take (size - 1)
  noNul := fun member => zero_notMem_cstr s (List.mem_of_mem_take member)
  short := List.length_take_le _ _

instance (size : Nat) : Inhabited (CharBuf size) := ⟨snprintf size []⟩

@[simp] theorem snprintf_text {size : Nat} (b : CharBuf size) : snprintf size b.text = b := by
  apply CharBuf.ext
  show (cstr b.text).take (size - 1) = b.text
  rw [cstr_of_notMem b.noNul, List.take_of_length_le b.short]

/-!
## Characters and strings

`strcaseeq`, `startsWith` and `contains` are the tests `strcasecmp(a, b) == 0`,
`strncmp(s, p, strlen(p)) == 0` and `strstr(s, p) != NULL`.
-/

def isspace (c : UInt8) : Bool := c = 32 ∨ (9 ≤ c ∧ c ≤ 13)

def isdigit (c : UInt8) : Bool := 48 ≤ c ∧ c ≤ 57

def tolower (c : UInt8) : UInt8 := if 65 ≤ c ∧ c ≤ 90 then c + 32 else c

def strcaseeq (a b : Bytes) : Bool := a.map tolower = b.map tolower

def startsWith (s p : Bytes) : Bool := s.take p.length = p

def hasSuffix (s suffix : Bytes) : Bool := decide (suffix <:+ s)

def contains (s p : Bytes) : Bool := decide (p <:+: s)

def afterLast (c : UInt8) (s : Bytes) : Bytes :=
  (s.reverse.takeWhile (· ≠ c)).reverse

/-! ## Tokens, as repeated calls of `strtok` return them -/

def strtokFrom (sep : UInt8) : Bytes → Bytes → List Bytes
  | token, [] => if token = [] then [] else [token]
  | token, c :: rest =>
      if c = sep then
        if token = [] then strtokFrom sep [] rest else token :: strtokFrom sep [] rest
      else strtokFrom sep (token ++ [c]) rest

def strtok (sep : UInt8) (s : Bytes) : List Bytes := strtokFrom sep [] s

/-! ## Numbers -/

def scanInteger (s : Bytes) : Option (Bool × Nat × Bytes) :=
  let s := s.dropWhile isspace
  let negative := s.head? = some 45
  let s := if negative ∨ s.head? = some 43 then s.tail else s
  let digits := s.takeWhile isdigit
  if digits = [] then none
  else some (negative, digits.foldl (fun n c => 10 * n + (c.toNat - 48)) 0, s.dropWhile isdigit)

/-- `strtoul` in base ten, when it consumes the whole string and does not overflow. A minus sign
negates in unsigned arithmetic and is no error. -/
def strtoul (s : Bytes) : Option UInt64 :=
  match scanInteger s with
  | some (negative, n, []) =>
      if 2 ^ 64 ≤ n then none
      else some (if negative then 0 - UInt64.ofNat n else UInt64.ofNat n)
  | _ => none

def strtol (s : Bytes) : Int :=
  match scanInteger s with
  | some (negative, n, _) =>
      max (-2 ^ 63) (min (2 ^ 63 - 1) (if negative then -(n : Int) else n))
  | none => 0

def strtolRest (s : Bytes) : Bytes :=
  match scanInteger s with
  | some (_, _, rest) => rest
  | none => s

def atoi (s : Bytes) : Int32 := Int32.ofInt (strtol s)

/-! ## Lines, as repeated calls of `fgets` return them -/

def trim (s : Bytes) : Bytes :=
  ((s.dropWhile isspace).reverse.dropWhile isspace).reverse

def fgetsFrom (size : Nat) : Bytes → Bytes → List Bytes
  | line, [] => if line = [] then [] else [line]
  | line, c :: rest =>
      if c = 10 ∨ line.length + 2 = size then (line ++ [c]) :: fgetsFrom size [] rest
      else fgetsFrom size (line ++ [c]) rest

def fgets (size : Nat) (file : Bytes) : List Bytes := fgetsFrom size [] file

def splitAt (c : UInt8) (s : Bytes) : Option (Bytes × Bytes) :=
  if c ∈ s then some (s.takeWhile (· ≠ c), (s.dropWhile (· ≠ c)).tail) else none

example : strtok 32 (lit "start  12 ") = [lit "start", lit "12"] := by decide

example : strtoul (lit " 42") = some 42 ∧ strtoul (lit "42x") = none := by decide

end CLib
