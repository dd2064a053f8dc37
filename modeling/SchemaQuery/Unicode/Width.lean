import SchemaQuery.Unicode.Emoji
import SchemaQuery.Unicode.WidthTables

/-!
# Width of a text

How many columns a text takes on a terminal. Most characters take one, East Asian wide characters
and pictures two, combining characters none. Some characters merge with those that follow: selectors
turn a symbol into a picture or back, joined pictures and pairs of flag letters show as one, and a
few scripts have ligatures. The width is therefore added up from the end of the text, and each
character is looked at together with what stands to its right.
-/

set_option autoImplicit false

namespace SchemaQuery.Unicode

inductive Right where
  | plain
  | lineFeed
  | skinTone
  | emoji
  | joined
  | joinedKeycap
  | flagLetter
  | flagLetters
  | joinedFlagLetter
  | joinedFlagsEven
  | joinedFlagsOdd
  | tagEnd
  | tagLetters (count : Nat)
  | tagDigits (count : Nat)
  | arabicAlef
  | hebrewLamed (joined : Bool)
  | bugineseYa (joined : Bool)
  | bugineseVowelYa
  | tifinaghConsonant (joined : Bool)
  | tifinaghJoiner
  | lisuTone
  | orkhonI (joined : Bool)
  | khmerLetter
  | kiratRaiE
  | kiratRaiAi
  deriving DecidableEq, Repr

structure Following where
  right : Right := .plain
  asPicture : Bool := false
  asSymbol : Bool := false
  asWideQuote : Bool := false
  deriving DecidableEq, Repr

namespace Right

def isLigature : Right → Bool
  | arabicAlef | hebrewLamed _ | bugineseYa _ | bugineseVowelYa | tifinaghConsonant _
  | tifinaghJoiner | lisuTone | orkhonI _ | khmerLetter => true
  | _ => false

def join : Right → Right
  | hebrewLamed _ => hebrewLamed true
  | bugineseYa _ => bugineseYa true
  | tifinaghConsonant _ => tifinaghConsonant true
  | orkhonI _ => orkhonI true
  | r => r

def isJoined : Right → Bool
  | joined | joinedKeycap => true
  | _ => false

end Right

def isWithin (low high : Nat) (c : Char) : Bool := low ≤ c.toNat && c.toNat ≤ high

def isFlagLetter (c : Char) : Bool := isWithin 0x1F1E6 0x1F1FF c

def isSkinTone (c : Char) : Bool := isWithin 0x1F3FB 0x1F3FF c

def isTifinaghConsonant (c : Char) : Bool := isWithin 0x2D31 0x2D65 c || c.toNat == 0x2D6F

def isZeroWidth (c : Char) : Bool := zeroWidth.contains c.toNat

def arabicAlefs : Ranges :=
  [(0x622, 0x623), (0x625, 0x625), (0x627, 0x627), (0x671, 0x673), (0x675, 0x675), (0x773, 0x774),
    (0x870, 0x882)]

def arabicLams : Ranges :=
  [(0x644, 0x644), (0x6B5, 0x6B8), (0x76A, 0x76A), (0x8A6, 0x8A6), (0x8C7, 0x8C7)]

def khmerSubscripts : Ranges :=
  [(0x1780, 0x1782), (0x1784, 0x1787), (0x1789, 0x178C), (0x178E, 0x1793), (0x1795, 0x1798),
    (0x179B, 0x179D), (0x17A0, 0x17A0), (0x17A2, 0x17A2), (0x17A7, 0x17A7), (0x17AB, 0x17AC),
    (0x17AF, 0x17AF)]

def ligatureTransparent : Ranges :=
  [(0x34F, 0x34F), (0x17B4, 0x17B5), (0x180B, 0x180D), (0x180F, 0x180F), (0xFE00, 0xFE0F),
    (0xE0100, 0xE01EF)]

def columns (c : Char) : Int :=
  let n := c.toNat
  if n = 0x17D8 then 3
  else if n = 0x17A4 then 2
  else if doubleWidth.contains n then 2
  else if zeroWidth.contains n then 0
  else 1

def rightOf (c : Char) : Right :=
  let n := c.toNat
  if isFlagLetter c then .flagLetter
  else if isSkinTone c then .skinTone
  else if emojiByDefault.contains n then .emoji
  else if arabicAlefs.contains n then .arabicAlef
  else if n = 0x5DC then .hebrewLamed false
  else if n = 0x1A10 then .bugineseYa false
  else if isTifinaghConsonant c then .tifinaghConsonant false
  else if n = 0xA4FC ∨ n = 0xA4FD then .lisuTone
  else if n = 0x10C03 then .orkhonI false
  else if khmerSubscripts.contains n then .khmerLetter
  else if n = 0x16D67 then .kiratRaiE
  else if n = 0x16D68 then .kiratRaiAi
  else .plain

/-- The columns that `c` adds to a ligature or picture on its right, with what the two make up. -/
def merge? (c : Char) (right : Right) : Option (Int × Right) :=
  let n := c.toNat
  let isTagLetter := isWithin 0xE0061 0xE007A c
  let isTagDigit := isWithin 0xE0030 0xE0039 c
  match right with
  | .arabicAlef =>
    if arabicLams.contains n then some (0, .plain)
    else if isZeroWidth c && !joiningOpaque.contains n then some (0, .arabicAlef)
    else none
  | .hebrewLamed true => if n = 0x5D0 then some (0, .plain) else none
  | .khmerLetter => if n = 0x17D2 then some (-1, .plain) else none
  | .bugineseYa true => if n = 0x1A17 then some (0, .bugineseVowelYa) else none
  | .bugineseVowelYa => if n = 0x1A15 then some (0, .plain) else none
  | .tifinaghConsonant joined =>
    if n = 0x2D7F then some (1, .tifinaghJoiner)
    else if joined && isTifinaghConsonant c then some (0, .plain)
    else none
  | .tifinaghJoiner => if isTifinaghConsonant c then some (-1, .plain) else none
  | .lisuTone => if isWithin 0xA4F8 0xA4FB c then some (0, .plain) else none
  | .orkhonI true => if n = 0x10C32 then some (0, .plain) else none
  | .kiratRaiE =>
    if n = 0x16D63 ∨ n = 0x16D69 then some (0, .plain)
    else if n = 0x16D67 then some (0, .kiratRaiAi)
    else if n = 0x16D68 then some (1, .kiratRaiE)
    else none
  | .kiratRaiAi => if n = 0x16D63 then some (0, .plain) else none
  | .skinTone =>
    if skinToneBase.contains n then some (0, .emoji)
    else if n = 0x200D then some (0, .joined)
    else none
  | .flagLetter => if isFlagLetter c then some (1, .flagLetters) else none
  | .flagLetters =>
    if isFlagLetter c then some (1, .flagLetters)
    else if n = 0x200D then some (0, .joined)
    else none
  | .emoji => if n = 0x200D then some (0, .joined) else none
  | .joinedFlagLetter => if isFlagLetter c then some (-1, .joinedFlagsEven) else none
  | .joinedFlagsOdd =>
    if isFlagLetter c then some (-1, .joinedFlagsEven)
    else if n = 0x200D then some (0, .joined)
    else none
  | .joinedFlagsEven =>
    if isFlagLetter c then some (3, .joinedFlagsOdd)
    else if n = 0x200D then some (0, .joined)
    else none
  | .joined =>
    if n = 0x20E3 then some (0, .joinedKeycap)
    else if isFlagLetter c then some (1, .joinedFlagLetter)
    else if isSkinTone c then some (0, .skinTone)
    else if n = 0xE007F then some (0, .tagEnd)
    else if emojiByDefault.contains n then some (0, .emoji)
    else none
  | .tagEnd =>
    if isTagLetter then some (0, .tagLetters 1)
    else if isTagDigit then some (0, .tagDigits 1)
    else none
  | .tagLetters count =>
    if isTagLetter && count < 6 then some (0, .tagLetters (count + 1))
    else if isTagDigit && count < 5 then some (0, .tagDigits 1)
    else if n = 0x1F3F4 ∧ 3 ≤ count then some (0, .emoji)
    else none
  | .tagDigits count =>
    if isTagDigit && count < 3 then some (0, .tagDigits (count + 1))
    else if n = 0x1F3F4 ∧ count = 3 then some (0, .emoji)
    else none
  | _ => none

def addPlain (c : Char) (right : Right) : Int × Following :=
  if right.isLigature && right != .arabicAlef && c.toNat == 0x200D then (0, { right := right.join })
  else if right.isLigature && right != .arabicAlef && ligatureTransparent.contains c.toNat then
    (0, { right })
  else
    match merge? c right with
    | some (width, right) => (width, { right })
    | none => (columns c, { right := rightOf c })

namespace Following

def visible (next : Following) : Following := if next.right.isLigature then next else {}

def dropPicture (next : Following) : Following :=
  if next.asPicture then { next.visible with asPicture := false } else next

def requestPicture (next : Following) : Following :=
  if next.right.isJoined then { next with asPicture := true }
  else { next.visible with asPicture := true }

end Following

def isSelectableQuote (c : Char) : Bool :=
  c == '\u2018' || c == '\u2019' || c == '\u201C' || c == '\u201D'

def addUnpictured (c : Char) (next : Following) : Int × Following :=
  let n := c.toNat
  if n ≤ 0xA0 then
    if c = '\n' then (1, { right := .lineFeed })
    else if c = '\r' ∧ next.right = .lineFeed then (0, {})
    else (1, {})
  else if n = 0xFE0F then (0, next.requestPicture)
  else if n = 0xFE0E then (0, { next.visible with asSymbol := true })
  else if n = 0xFE01 then (0, { next.visible with asWideQuote := true })
  else if next.asSymbol && symbolOnRequest.contains n then (1, {})
  else if next.asWideQuote && isSelectableQuote c then (2, {})
  else addPlain c next.right

def add (c : Char) (next : Following) : Int × Following :=
  if next.asPicture && emojiOnRequest.contains c.toNat then
    (if next.right.isJoined then 0 else 2, { right := .emoji })
  else addUnpictured c next.dropPicture

/-- The columns of a text, and what its front is for a character to its left. -/
def addAll : List Char → Int × Following
  | [] => (0, {})
  | c :: s =>
    let r := addAll s
    let a := add c r.2
    (r.1 + a.1, a.2)

def width (s : String) : Nat := (addAll s.toList).1.toNat

end SchemaQuery.Unicode
