/-
The C strings of server_impl.c: strlen on a buffer, strtol, and the test that
decides whether a buffer holds a seek command.

`int` and `uint32_t` conversions keep the value modulo 2^32; `long` has 64
bits.  The locale is the C locale.
-/

import Mathlib.Data.List.TakeWhile
import Aesd.Driver.CharDevice

set_option autoImplicit false

namespace Aesd.Server

open Driver

/-- What a buffer holds as a C string: the bytes before its first NUL. -/
def cString (bytes : List Byte) : List Byte := bytes.takeWhile (· ≠ 0)

theorem cString_isPrefix (bytes : List Byte) : cString bytes <+: bytes :=
  List.takeWhile_prefix _

theorem cString_eq_self {bytes : List Byte} (plain : (0 : Byte) ∉ bytes) :
    cString bytes = bytes := by
  apply List.takeWhile_eq_self_iff.mpr
  intro byte member
  rw [decide_eq_true_eq]
  exact fun zero => plain (zero ▸ member)

def comma : Byte := 44

/-! ### strtol -/

def isSpace (byte : Byte) : Bool := byte = 32 || (9 ≤ byte && byte ≤ 13)

def isDigit (byte : Byte) : Bool := 48 ≤ byte && byte ≤ 57

def decimal (digits : List Byte) : Nat :=
  digits.foldl (fun value digit => value * 10 + (digit.toNat - 48)) 0

def longMin : Int := -2 ^ 63
def longMax : Int := 2 ^ 63 - 1

/-- The optional sign: whether it is a minus, and what follows. -/
def sign : List Byte → Bool × List Byte
  | [] => (false, [])
  | byte :: rest =>
      if byte = 45 then (true, rest) else if byte = 43 then (false, rest) else (false, byte :: rest)

/-- strtol in base ten: the number and the text behind it.  Without a number
there is none, and `endptr` is left at the start. -/
def strtol (text : List Byte) : Option (Int × List Byte) :=
  let (negative, digits) := sign (text.dropWhile isSpace)
  let number := digits.takeWhile isDigit
  if number = [] then none
  else
    let value : Int := if negative then -(decimal number : Int) else decimal number
    some (max longMin (min longMax value), digits.dropWhile isDigit)

/-! ### AESDCHAR_IOCSEEKTO:X,Y -/

/-- The text `AESDCHAR_IOCSEEKTO:`. -/
def seekPrefix : List Byte :=
  ['A', 'E', 'S', 'D', 'C', 'H', 'A', 'R', '_', 'I', 'O', 'C', 'S', 'E', 'E', 'K', 'T', 'O',
    ':'].map Char.toUInt8

def uint32 (value : Int) : Nat := (value % 2 ^ 32).toNat

/-- The argument of the ioctl, if the C string in the buffer is taken as a
seek command. -/
def seekCommand (buffer : List Byte) : Option AesdSeekto :=
  if seekPrefix <+: buffer ∧ seekPrefix.length < buffer.length ∧
      comma ∈ buffer.drop (seekPrefix.length + 1) then
    match strtol (buffer.drop seekPrefix.length) with
    | some (x, separator :: operand) =>
        if separator = comma then
          (strtol operand).map (fun y => { writeCmd := uint32 x, writeCmdOffset := uint32 y.1 })
        else none
    | _ => none
  else none

/-- A text with the prefix nowhere in it has no piece that is a seek command. -/
theorem seekCommand_eq_none {text piece : List Byte} (absent : ¬seekPrefix <:+: text)
    (inside : piece <:+: text) : seekCommand piece = none := by
  unfold seekCommand
  rw [if_neg]
  rintro ⟨front, _longer, _comma⟩
  exact absent (front.isInfix.trans inside)

/-- AESDCHAR_IOCSEEKTO:2,1 and a newline. -/
example : seekCommand (seekPrefix ++ [50, comma, 49, newline]) = some ⟨2, 1⟩ := by decide

end Aesd.Server
