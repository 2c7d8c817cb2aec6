import SysDetector.Library.CLib

/-!
# Records of different lengths in one buffer

Records stand one behind the other, and each says how long it is. `walk` goes from one to the next
by these lengths until it is past the end; `walk_encoded`: over records as they were encoded it
comes to each of them once, in order, and stops at the end.
-/

namespace Records
open CLib

/-- How a record is read from its first byte on. What it gives, and its length, do not depend on
what stands behind it. -/
structure Format (α β : Type*) where
  encode : α → Bytes
  value : α → β
  size : Bytes → Nat
  decode : Bytes → β
  size_pos : ∀ bytes, 0 < size bytes
  size_encode : ∀ a rest, size (encode a ++ rest) = (encode a).length
  decode_encode : ∀ a rest, decode (encode a ++ rest) = value a

variable {α β σ : Type*}

namespace Format

def encodeAll (f : Format α β) (records : List α) : Bytes := records.flatMap f.encode

def placed (f : Format α β) : Nat → List α → List (Nat × β)
  | _, [] => []
  | ptr, a :: rest => (ptr, f.value a) :: placed f (ptr + (f.encode a).length) rest

def walk (f : Format α β) (visit : σ → Nat × β → σ) (buf : Bytes) (len ptr : Nat) (s : σ) :
    Nat × σ :=
  if ptr < len then
    walk f visit buf len (ptr + f.size (buf.drop ptr)) (visit s (ptr, f.decode (buf.drop ptr)))
  else (ptr, s)
termination_by len - ptr
decreasing_by
  have forward := f.size_pos (buf.drop ptr)
  omega

theorem encodeAll_cons (f : Format α β) (a : α) (records : List α) :
    f.encodeAll (a :: records) = f.encode a ++ f.encodeAll records := List.flatMap_cons

theorem encode_pos (f : Format α β) (a : α) : 0 < (f.encode a).length := by
  rw [← f.size_encode a []]
  exact f.size_pos _

theorem walk_placed (f : Format α β) (visit : σ → Nat × β → σ) (front beyond : Bytes)
    (records : List α) (s : σ) :
    f.walk visit (front ++ f.encodeAll records ++ beyond)
        (front.length + (f.encodeAll records).length) front.length s =
      (front.length + (f.encodeAll records).length,
        (f.placed front.length records).foldl visit s) := by
  induction records generalizing front s with
  | nil =>
      rw [walk, if_neg (by simp [encodeAll])]
      rfl
  | cons a records ih =>
      have inside : front.length < front.length + (f.encodeAll (a :: records)).length := by
        have some := f.encode_pos a
        rw [encodeAll_cons, List.length_append]
        omega
      have here : (front ++ f.encodeAll (a :: records) ++ beyond).drop front.length =
          f.encode a ++ (f.encodeAll records ++ beyond) := by
        rw [List.append_assoc, List.drop_left, encodeAll_cons, List.append_assoc]
      have next := ih (front ++ f.encode a) (visit s (front.length, f.value a))
      rw [List.length_append, List.append_assoc front, ← encodeAll_cons, Nat.add_assoc,
        ← List.length_append, ← encodeAll_cons] at next
      rw [walk, if_pos inside, here, f.size_encode, f.decode_encode]
      exact next

theorem walk_encoded (f : Format α β) (visit : σ → Nat × β → σ) (records : List α) (beyond : Bytes)
    (s : σ) :
    f.walk visit (f.encodeAll records ++ beyond) (f.encodeAll records).length 0 s =
      ((f.encodeAll records).length, (f.placed 0 records).foldl visit s) := by
  have all := f.walk_placed visit [] beyond records s
  rw [List.nil_append, List.length_nil, Nat.zero_add] at all
  exact all

theorem placed_values (f : Format α β) (ptr : Nat) (records : List α) :
    (f.placed ptr records).map Prod.snd = records.map f.value := by
  induction records generalizing ptr with
  | nil => rfl
  | cons a records ih => rw [placed, List.map_cons, List.map_cons, ih]

end Format

end Records
