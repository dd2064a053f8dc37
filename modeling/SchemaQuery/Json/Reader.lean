import SchemaQuery.Json.NumberText
import SchemaQuery.Json.TextScan

/-!
# Reading JSON text

The reader turns a text into its tree and says whether only blanks follow it. It goes as far as the
text can be passed over: a number beyond every double or a lone surrogate does not stop it. Every
third step of the recursion at the latest uses up a character, so three times the length of the text
bounds its depth.
-/

set_option autoImplicit false

namespace SchemaQuery.Json

open SchemaQuery.Unicode

def isBlank (c : Char) : Bool := c == ' ' || c == '\n' || c == '\t' || c == '\r'

def skipBlanks (s : List Char) : List Char := s.dropWhile isBlank

def afterLetters : (letters s : List Char) → Except Fault (List Char)
  | [], s => .ok s
  | _ :: _, [] => .error .truncated
  | l :: letters, c :: s => if l = c then afterLetters letters s else .error .malformed

abbrev Read (α : Type) := α × Option (List Char)

def readWord (letters : List Char) (value : Tree) (flaw : Fault → Breakage) (s : List Char) :
    Read Tree :=
  match afterLetters letters s with
  | .ok rest => (value, some rest)
  | .error fault => (.broken (flaw fault), none)

def readScalar (s : List Char) : Read Tree :=
  match s with
  | [] => (.broken .absent, none)
  | c :: rest =>
    if c = 'n' then readWord ['u', 'l', 'l'] .null .null rest
    else if c = 't' then readWord ['r', 'u', 'e'] (.bool true) .bool rest
    else if c = 'f' then readWord ['a', 'l', 's', 'e'] (.bool false) .bool rest
    else if c = '"' then
      match readText rest with
      | .whole value rest => (.text value, some rest)
      | .broken read skipped => (.broken (.text read skipped), none)
    else if c = '-' || isDecimalDigit c then
      match NumberText.read s with
      | .ok (n, rest) => (.number n.value, some rest)
      | .error fault => (.broken (.number fault), none)
    else (.broken .alien, none)

mutual

def readValue : (steps : Nat) → List Char → Read Tree
  | 0, _ => (.broken .absent, none)
  | steps + 1, s =>
    match skipBlanks s with
    | '[' :: rest =>
      let r := readItems steps rest
      (.array r.1, r.2)
    | '\x7b' :: rest =>
      let r := readMembers steps rest
      (.object r.1, r.2)
    | s => readScalar s

def readItems : (steps : Nat) → List Char → Read TreeItems
  | 0, _ => (.stop .truncated, none)
  | steps + 1, s =>
    match skipBlanks s with
    | [] => (.stop .truncated, none)
    | ']' :: rest => (.close, some rest)
    | s => readItem steps s

def readItem : (steps : Nat) → List Char → Read TreeItems
  | 0, _ => (.stop .truncated, none)
  | steps + 1, s =>
    match readValue steps s with
    | (value, none) => (.item value (.stop .malformed), none)
    | (value, some rest) =>
      match skipBlanks rest with
      | [] => (.item value (.stop .truncated), none)
      | ']' :: rest => (.item value .close, some rest)
      | ',' :: rest =>
        let r := readItem steps rest
        (.item value r.1, r.2)
      | _ => (.item value (.stop .malformed), none)

def readMembers : (steps : Nat) → List Char → Read TreeMembers
  | 0, _ => (.stop .truncated, none)
  | steps + 1, s =>
    match skipBlanks s with
    | '\x7d' :: rest => (.close, some rest)
    | s => readMember steps s

def readMember : (steps : Nat) → List Char → Read TreeMembers
  | 0, _ => (.stop .truncated, none)
  | steps + 1, s =>
    match skipBlanks s with
    | [] => (.nameless .truncated .truncated, none)
    | '"' :: rest =>
      match readText rest with
      | .broken read skipped => (.nameless read skipped, none)
      | .whole name rest =>
        match skipBlanks rest with
        | [] => (.member name (.broken .absent) (.stop .truncated), none)
        | ':' :: rest =>
          match readValue steps rest with
          | (value, none) => (.member name value (.stop .malformed), none)
          | (value, some rest) =>
            match skipBlanks rest with
            | [] => (.member name value (.stop .truncated), none)
            | '\x7d' :: rest => (.member name value .close, some rest)
            | ',' :: rest =>
              let r := readMember steps rest
              (.member name value r.1, r.2)
            | _ => (.member name value (.stop .malformed), none)
        | _ => (.member name (.broken .alien) (.stop .malformed), none)
    | _ => (.nameless .malformed .malformed, none)

end

def readTree (s : List Char) : Tree × Bool :=
  match readValue (3 * s.length + 3) s with
  | (tree, some rest) => (tree, (skipBlanks rest).isEmpty)
  | (tree, none) => (tree, false)

end SchemaQuery.Json
