import SchemaQuery.Unicode.Classes

/-!
# Quoted text

A text shown between double quotes in a message. Tabs, line ends, the null character, quotes and
backslashes have short escapes; other characters that cannot be read back from the page are given
by their number in hexadecimal.
-/

set_option autoImplicit false

namespace SchemaQuery.Text

open SchemaQuery.Unicode

def quoteChar (c : Char) : List Char :=
  match c with
  | '"' => ['\\', '"']
  | '\\' => ['\\', '\\']
  | '\t' => ['\\', 't']
  | '\r' => ['\\', 'r']
  | '\n' => ['\\', 'n']
  | '\x00' => ['\\', '0']
  | c =>
    if isUnquotable c then '\\' :: 'u' :: '\x7b' :: Nat.toDigits 16 c.toNat ++ ['\x7d']
    else [c]

def quote (s : List Char) : List Char := '"' :: s.flatMap quoteChar ++ ['"']

end SchemaQuery.Text
