/-
# Codes

A code writes a value as characters that can be read off the front of a longer text, so what is
written one after the other is read back piece by piece.

* `Code` : writing and reading, with the round trip as a field;
* `Code.nat`, `Code.text` : numbers and texts;
* `Code.pair`, `Code.option`, `Code.via` : codes made of codes;
* `Code.decode_encode` : the round trip for whole texts.
-/
import Mathlib.Data.List.Basic

namespace Codes

/-- Writing and reading: what was written is read back, whatever comes after it. -/
structure Code (α : Type) where
  write : α → List Char
  read : List Char → Option (α × List Char)
  read_write : ∀ a rest, read (write a ++ rest) = some (a, rest)

variable {α β : Type}

/-! ## Numbers and texts -/

/-- As many strokes as the number says, and a stop. -/
def readStrokes : List Char → Option (ℕ × List Char)
  | [] => none
  | c :: cs =>
      if c = '1' then (readStrokes cs).map fun p => (p.1 + 1, p.2)
      else if c = '.' then some (0, cs)
      else none

theorem readStrokes_replicate (n : ℕ) (rest : List Char) :
    readStrokes (List.replicate n '1' ++ '.' :: rest) = some (n, rest) := by
  induction n with
  | zero => rfl
  | succ n ih =>
    rw [List.replicate_succ, List.cons_append]
    unfold readStrokes
    rw [if_pos rfl, ih]
    rfl

/-- Numbers, stroke by stroke. -/
def Code.nat : Code ℕ where
  write n := List.replicate n '1' ++ ['.']
  read := readStrokes
  read_write := by
    intro n rest
    rw [List.append_assoc]
    exact readStrokes_replicate n rest

/-- Texts, with their lengths before them. -/
def Code.text : Code String where
  write s := Code.nat.write s.toList.length ++ s.toList
  read cs := (Code.nat.read cs).map fun p => (String.ofList (p.2.take p.1), p.2.drop p.1)
  read_write := by
    intro s rest
    rw [List.append_assoc, Code.nat.read_write, Option.map_some, List.take_left, List.drop_left,
      String.ofList_toList]

/-! ## Codes made of codes -/

/-- Two values, one after the other. -/
def Code.pair (a : Code α) (b : Code β) : Code (α × β) where
  write p := a.write p.1 ++ b.write p.2
  read cs := (a.read cs).bind fun p => (b.read p.2).map fun q => ((p.1, q.1), q.2)
  read_write := by
    intro p rest
    rw [List.append_assoc, a.read_write, Option.bind_some, b.read_write]
    rfl

/-- A value that may be missing, after a sign of whether it is there. -/
def Code.option (a : Code α) : Code (Option α) where
  write
    | none => ['-']
    | some x => '+' :: a.write x
  read
    | [] => none
    | c :: cs => if c = '+' then (a.read cs).map fun p => (some p.1, p.2) else some (none, cs)
  read_write := by
    intro x rest
    cases x with
    | none => rfl
    | some x =>
      show (if '+' = '+' then (a.read (a.write x ++ rest)).map _ else _) = _
      rw [if_pos rfl, a.read_write]
      rfl

/-- A code for what can be turned into values of a code and back. -/
def Code.via (a : Code α) (f : β → α) (g : α → β) (hgf : Function.LeftInverse g f) : Code β where
  write x := a.write (f x)
  read cs := (a.read cs).map fun p => (g p.1, p.2)
  read_write := by
    intro x rest
    rw [a.read_write, Option.map_some, hgf]

/-! ## Whole texts -/

/-- The value as a text. -/
def Code.encode (a : Code α) (x : α) : String := String.ofList (a.write x)

/-- The value that a text is for. -/
def Code.decode (a : Code α) (s : String) : Option α := (a.read s.toList).map (·.1)

theorem Code.decode_encode (a : Code α) (x : α) : a.decode (a.encode x) = some x := by
  unfold Code.decode Code.encode
  have hread := a.read_write x []
  rw [List.append_nil] at hread
  rw [String.toList_ofList, hread]
  rfl

end Codes
