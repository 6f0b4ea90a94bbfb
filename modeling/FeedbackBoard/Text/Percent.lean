import FeedbackBoard.Text.Symbol

/-!
# Percent encoding

In addresses a byte may be written as a percent sign and two hexadecimal digits.
A percent sign without two digits stands for itself.

Main definitions:

- `percentDecoded`: the bytes of an encoded text.
- `formDecoded`: the text of a name or value in a query, where a plus sign is a space.
- `formPairs`: the names and values of a query.
- `pathDecoded?`: the text of a part of a path.
-/

namespace FeedbackBoard

/-- The value of a hexadecimal digit that is given as a byte. -/
def hexByte? (byte : UInt8) : Option Nat :=
  let n := byte.toNat
  if 48 ≤ n ∧ n ≤ 57 then some (n - 48)
  else if 65 ≤ n ∧ n ≤ 70 then some (n - 55)
  else if 97 ≤ n ∧ n ≤ 102 then some (n - 87)
  else none

/-- The bytes of an encoded text. -/
def percentDecoded : List UInt8 → List UInt8
  | 37 :: a :: b :: rest =>
    match hexByte? a, hexByte? b with
    | some high, some low => UInt8.ofNat (high * 16 + low) :: percentDecoded rest
    | _, _ => 37 :: percentDecoded (a :: b :: rest)
  | byte :: rest => byte :: percentDecoded rest
  | [] => []

/-- The text of a part of a query; damaged places become replacement characters. -/
def formDecoded (chars : List Char) : String :=
  let spaced := chars.map fun c => if c = '+' then ' ' else c
  String.ofList (lenient (symbolsOfBytes (percentDecoded (bytesOfChars spaced))))

/-- The names and values of a query; parts without content are passed over. -/
def formPairs (query : List Char) : List (String × String) :=
  (query.splitOn '&').filterMap fun part =>
    if part = [] then none
    else
      some (formDecoded (part.takeWhile (· != '=')),
        formDecoded ((part.dropWhile (· != '=')).drop 1))

/-- The text of a part of a path, if its bytes spell one. -/
def pathDecoded? (chars : List Char) : Option String :=
  (sound? (symbolsOfBytes (percentDecoded (bytesOfChars chars)))).map String.ofList

end FeedbackBoard
