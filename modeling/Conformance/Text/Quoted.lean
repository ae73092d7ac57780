import Conformance.Text.Printable

/-!
# Quoted text and quoted bytes

The literal form of a text: single quotes around it, or double quotes where it holds a single quote
and no double one. Inside, the backslash and the surrounding quote are escaped by a backslash,
line feed, carriage return and tab by a letter, and every other character that is not printable
by its code point in hexadecimal. Bytes are quoted by the same rules, with every byte outside
printable ASCII escaped. Bytes that can change escape the single quote whatever surrounds them.

## Main definitions

* `Text.quote`, `Text.quoteBytes`, `Text.quoteMutableBytes`
* `Text.hex` — hexadecimal digits of a fixed width
-/

namespace Conformance.Text

/-- `n` in hexadecimal, with zeros in front up to the width. -/
def hex (width n : Nat) : List Char :=
  let digits := Nat.toDigits 16 n
  List.replicate (width - digits.length) '0' ++ digits

/-- The quote around a text that holds these characters. -/
def chooseQuote (single double : Bool) : Char :=
  if single && !double then '"' else '\''

/-- A character inside quotes. -/
def escapeChar (quote c : Char) : List Char :=
  if c == quote || c == '\\' then ['\\', c]
  else if c == '\n' then ['\\', 'n']
  else if c == '\r' then ['\\', 'r']
  else if c == '\t' then ['\\', 't']
  else if isPrintable c then [c]
  else if c.toNat ≤ 0xff then '\\' :: 'x' :: hex 2 c.toNat
  else if c.toNat ≤ 0xffff then '\\' :: 'u' :: hex 4 c.toNat
  else '\\' :: 'U' :: hex 8 c.toNat

/-- A byte inside quotes, where the quote `special` is escaped. -/
def escapeByte (special : Char) (b : UInt8) : List Char :=
  let c := Char.ofNat b.toNat
  if c == special || c == '\\' then ['\\', c]
  else if c == '\n' then ['\\', 'n']
  else if c == '\r' then ['\\', 'r']
  else if c == '\t' then ['\\', 't']
  else if 0x20 ≤ b && b < 0x7f then [c]
  else '\\' :: 'x' :: hex 2 b.toNat

/-- The literal form of a text. -/
def quote (text : String) : String :=
  let cs := text.toList
  let q := chooseQuote (cs.contains '\'') (cs.contains '"')
  String.ofList (q :: cs.flatMap (escapeChar q) ++ [q])

/-- The quote around bytes. -/
def chooseByteQuote (data : List UInt8) : Char :=
  chooseQuote (data.contains 0x27) (data.contains 0x22)

/-- Bytes inside a quote, with `special` escaped. -/
def surroundBytes (quote special : Char) (data : List UInt8) : String :=
  String.ofList ('b' :: quote :: data.flatMap (escapeByte special) ++ [quote])

/-- The literal form of bytes. -/
def quoteBytes (data : List UInt8) : String :=
  let q := chooseByteQuote data
  surroundBytes q q data

/-- The literal form of bytes that can change. -/
def quoteMutableBytes (data : List UInt8) : String :=
  surroundBytes (chooseByteQuote data) '\'' data

end Conformance.Text
