import MqttWire.Text.Printable
import MqttWire.Limits

/-! # Quoted text and numerals in messages

How messages show a piece of text, a list of bytes, and numbers in base two and
sixteen.
-/

namespace MqttWire.Text

/-- Digits of a number in a base up to sixteen, in lower case, filled up with
    zeros to `width` digits. -/
def numeral (base width value : Nat) : String :=
  let digits := Nat.toDigits base value
  String.ofList (List.replicate (width - digits.length) '0' ++ digits)

/-- A character inside quotes: NUL, tab, line feed, carriage return, the quote
    and the backslash have short forms, other characters without a shape show
    their code. -/
def quoteChar (c : Char) : List Char :=
  match c with
  | '\x00' => ['\\', '0']
  | '\t' => ['\\', 't']
  | '\n' => ['\\', 'n']
  | '\r' => ['\\', 'r']
  | '"' => ['\\', '"']
  | '\\' => ['\\', '\\']
  | c =>
      if isPrintable c then [c]
      else ['\\', 'u', '\x7b'] ++ Nat.toDigits 16 c.toNat ++ ['\x7d']

/-- Text in double quotes. -/
def quoted (text : String) : String :=
  String.ofList (['"'] ++ text.toList.flatMap quoteChar ++ ['"'])

/-- Bytes in decimal, between brackets. -/
def byteList (bytes : Bytes) : String :=
  "[" ++ ", ".intercalate (bytes.map fun byte => toString byte.toNat) ++ "]"

/-- Four binary digits. -/
def nibble (value : Nat) : String := "0b" ++ numeral 2 4 value

/-- Eight binary digits. -/
def binaryByte (value : UInt8) : String := "0b" ++ numeral 2 8 value.toNat

/-- Two hexadecimal digits. -/
def hexByte (value : UInt8) : String := "0x" ++ numeral 16 2 value.toNat

end MqttWire.Text
