import DiagramStream.Text.Printable

/-!
Texts shown in messages: in single quotes, or in double quotes when that saves escaping a single one.
-/

namespace DiagramStream.Text

def hexDigits (width : Nat) (n : Nat) : List Char :=
  let digits := Nat.toDigits 16 n
  List.replicate (width - digits.length) '0' ++ digits

-- The shortest of the three code point escapes that fits.
def codeEscape (c : Char) : List Char :=
  if c.toNat < 0x100 then '\\' :: 'x' :: hexDigits 2 c.toNat
  else if c.toNat < 0x10000 then '\\' :: 'u' :: hexDigits 4 c.toNat
  else '\\' :: 'U' :: hexDigits 8 c.toNat

def quotedChar (quote c : Char) : List Char :=
  if c == quote || c == '\\' then ['\\', c]
  else if c == '\n' then ['\\', 'n']
  else if c == '\r' then ['\\', 'r']
  else if c == '\t' then ['\\', 't']
  else if isPrintable c then [c]
  else codeEscape c

def singleQuote : Char := '\x27'

-- Double quotes are chosen only for a text that holds a single quote and no double one.
def quoteFor (text : List Char) : Char :=
  if text.contains singleQuote && !text.contains '"' then '"' else singleQuote

def quotedChars (text : List Char) : List Char :=
  let quote := quoteFor text
  quote :: text.flatMap (quotedChar quote) ++ [quote]

def quoted (text : String) : String := String.ofList (quotedChars text.toList)

end DiagramStream.Text
