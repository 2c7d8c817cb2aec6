import SysDetector.Proc.Tracking

namespace SysDetector.Proc
open CLib

def nonEmptyArgs (e : ProcEvent) : List Bytes :=
  ((List.ofFn e.argv).map CharBuf.text).filter (· ≠ [])

def fullArgv (e : ProcEvent) : Bytes := (lit " ").intercalate (nonEmptyArgs e)

theorem intercalate_cons {α : Type} (sep first : List α) (rest : List (List α)) :
    sep.intercalate (first :: rest) = first ++ rest.flatMap (sep ++ ·) := by
  induction rest generalizing first with
  | nil => rw [List.intercalate_singleton, List.flatMap_nil, List.append_nil]
  | cons second rest ih =>
      rw [List.intercalate_cons_cons, ih, List.flatMap_cons, List.append_assoc, List.append_assoc]

def argsBehind (buf : Bytes) (args : List (CharBuf ARGV_ARG_LEN)) : Bytes :=
  let texts := (args.map CharBuf.text).filter (· ≠ [])
  if buf = [] then (lit " ").intercalate texts else texts.flatMap (lit " " ++ ·)

theorem argsBehind_skip (buf : Bytes) {arg : CharBuf ARGV_ARG_LEN} (empty : arg.text = [])
    (rest : List (CharBuf ARGV_ARG_LEN)) : argsBehind buf (arg :: rest) = argsBehind buf rest := by
  simp [argsBehind, empty]

theorem argsBehind_cons (buf : Bytes) {arg : CharBuf ARGV_ARG_LEN} (some : arg.text ≠ [])
    (rest : List (CharBuf ARGV_ARG_LEN)) :
    argsBehind buf (arg :: rest) =
      (if 0 < buf.length then lit " " else []) ++ arg.text ++
        argsBehind (buf ++ ((if 0 < buf.length then lit " " else []) ++ arg.text)) rest := by
  have next : buf ++ ((if 0 < buf.length then lit " " else []) ++ arg.text) ≠ [] := by
    simp [some]
  have kept : ((arg :: rest).map CharBuf.text).filter (· ≠ []) =
      arg.text :: (rest.map CharBuf.text).filter (· ≠ []) := by
    simp [some]
  unfold argsBehind
  rw [kept]
  dsimp only
  rw [if_neg next]
  by_cases empty : buf = []
  · subst empty
    rw [if_pos rfl, intercalate_cons, if_neg (by decide), List.nil_append]
  · rw [if_neg empty, if_pos (List.length_pos_iff.mpr empty), List.flatMap_cons]

theorem joinArgs_eq {n : Nat} {buf : Bytes} (inside : buf.length < n)
    (args : List (CharBuf ARGV_ARG_LEN)) :
    joinArgs n buf args = (buf ++ argsBehind buf args).take (n - 1) := by
  induction args generalizing buf with
  | nil =>
      have nothing : argsBehind buf [] = [] := by simp [argsBehind]
      have whole : buf.length ≤ n - 1 := Nat.le_pred_of_lt inside
      rw [nothing, List.append_nil, List.take_of_length_le whole]
      rfl
  | cons arg rest ih =>
      unfold joinArgs
      by_cases empty : arg.text = []
      · rw [if_pos empty, ih inside, argsBehind_skip buf empty]
      · rw [if_neg empty, argsBehind_cons buf empty]
        generalize (if 0 < buf.length then lit " " else []) ++ arg.text = piece
        dsimp only
        split_ifs with full
        · have room : n - 1 = buf.length + (n - buf.length - 1) := by omega
          rw [room, List.take_length_add_append, List.take_append_of_le_length (by omega)]
        · have fits : (buf ++ piece).length < n := by
            rw [List.length_append]
            omega
          rw [ih fits, List.append_assoc]

theorem joinEventArgv_eq (e : ProcEvent) {n : Nat} (room : 0 < n) :
    joinEventArgv e n = (fullArgv e).take (n - 1) := by
  have start : ([] : Bytes).length < n := room
  rw [joinEventArgv, joinArgs_eq start, List.nil_append]
  rfl

end SysDetector.Proc
