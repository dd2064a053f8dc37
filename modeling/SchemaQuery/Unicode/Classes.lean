import SchemaQuery.Unicode.Alphabetic
import SchemaQuery.Unicode.Numeric
import SchemaQuery.Unicode.Unprintable
import SchemaQuery.Unicode.GraphemeExtend

/-!
# Character classes

The classes that the notation is written with: white space between words, the letters and numerals
of a word, and the characters that a quoted text cannot show as they are.
-/

set_option autoImplicit false

namespace SchemaQuery.Unicode

def whiteSpace : Ranges :=
  [(0x9, 0xD), (0x20, 0x20), (0x85, 0x85), (0xA0, 0xA0), (0x1680, 0x1680), (0x2000, 0x200A),
    (0x2028, 0x2029), (0x202F, 0x202F), (0x205F, 0x205F), (0x3000, 0x3000)]

def isWhite (c : Char) : Bool := whiteSpace.contains c.toNat

def isLetter (c : Char) : Bool := alphabetic.contains c.toNat

def isAlphanumeric (c : Char) : Bool := isLetter c || numeric.contains c.toNat

def isWordChar (c : Char) : Bool := isAlphanumeric c || c == '_'

def isWordStart (c : Char) : Bool := isLetter c || c == '_'

def isDecimalDigit (c : Char) : Bool := '0' ≤ c && c ≤ '9'

def hangulFillers : Ranges := [(0x115F, 0x1160), (0x3164, 0x3164), (0xFFA0, 0xFFA0)]

def isHalfwidthMark (c : Char) : Bool := c == '\uFF9E' || c == '\uFF9F'

def isUnquotable (c : Char) : Bool :=
  (graphemeExtend.contains c.toNat && !isHalfwidthMark c) || hangulFillers.contains c.toNat
    || unprintable.contains c.toNat

theorem isWordChar_of_isWordStart {c : Char} (h : isWordStart c = true) : isWordChar c = true := by
  simp only [isWordStart, isWordChar, isAlphanumeric, Bool.or_eq_true] at h ⊢
  rcases h with h | h
  · exact Or.inl (Or.inl h)
  · exact Or.inr h

end SchemaQuery.Unicode
