import Skript.RunFault

/-!
# The console

What a script has printed so far, and the input it has not read yet, both in bytes. Output may
have a limited capacity: a text that does not fit is cut off there, and the write fails.
-/
namespace Skript

structure Console where
  input : List UInt8 := []
  output : Array UInt8 := #[]
  /-- The number of bytes that the output can hold in all, if it is limited. -/
  capacity : Option Nat := none
  /-- Whether output can be flushed. -/
  flushable : Bool := true

namespace Console

/-- The bytes of a text. -/
def encode (s : String) : List UInt8 :=
  s.toUTF8.data.toList

/-- Appends bytes to the output, as far as it has room for them. -/
def write (bytes : List UInt8) (c : Console) : Except RunCause Unit × Console :=
  match c.capacity with
  | none => (.ok (), { c with output := c.output ++ bytes })
  | some limit =>
      let room := limit - c.output.size
      if bytes.length ≤ room then (.ok (), { c with output := c.output ++ bytes })
      else (.error (.console .sinkFull), { c with output := c.output ++ bytes.take room })

/-- Writes a text on a line of its own. -/
def printLine (s : String) (c : Console) : Except RunCause Unit × Console :=
  c.write (encode s ++ encode "\n")

/-- Writes a prompt and flushes it. -/
def prompt (s : String) (c : Console) : Except RunCause Unit × Console :=
  match c.write (encode s) with
  | (.ok _, c) => if c.flushable then (.ok (), c) else (.error (.console .flushRefused), c)
  | (.error cause, c) => (.error cause, c)

/-- The line break of a line of input. -/
def lineBreak : UInt8 := 10

/-- The first line of some bytes, with its line break, and the bytes after it. -/
def splitLine : List UInt8 → List UInt8 × List UInt8
  | [] => ([], [])
  | b :: bs =>
      if b = lineBreak then ([b], bs)
      else
        let (line, rest) := splitLine bs
        (b :: line, rest)

theorem splitLine_append (bs : List UInt8) : (splitLine bs).1 ++ (splitLine bs).2 = bs := by
  induction bs with
  | nil => rfl
  | cons b bs ih =>
      by_cases h : b = lineBreak
      · simp [splitLine, h]
      · simp [splitLine, h, ih]

/-- A line without its line break, and without a carriage return right before that. -/
def dropLineBreak (line : List Char) : List Char :=
  match line.reverse with
  | '\n' :: '\r' :: cs => cs.reverse
  | '\n' :: cs => cs.reverse
  | _ => line

/-- Takes the next line of the input. A line that is not encoded text is taken too. -/
def readLine (c : Console) : Except RunCause String × Console :=
  if c.input.isEmpty then (.error .inputUnavailable, c)
  else
    let (line, rest) := splitLine c.input
    match String.fromUTF8? ⟨line.toArray⟩ with
    | some s => (.ok (String.ofList (dropLineBreak s.toList)), { c with input := rest })
    | none => (.error (.console .notUtf8), { c with input := rest })

end Console

end Skript
