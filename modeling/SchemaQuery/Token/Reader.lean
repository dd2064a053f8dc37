import SchemaQuery.Text.Trim
import SchemaQuery.Token.Basic

/-!
# Reading tokens

White space and comments from `//` to the end of the line may stand between tokens. One step takes
the next token, or the character that cannot open one, off the front of the text; every step uses at
least one character, so reading goes on to the end of the text after a fault too.
-/

set_option autoImplicit false

namespace SchemaQuery.Token

open SchemaQuery.Unicode SchemaQuery.Text

/-- What follows the white space and comments at the front; `inComment` is set inside a comment. -/
def skipGap : (inComment : Bool) → List Char → List Char
  | _, [] => []
  | true, c :: s => skipGap (c != '\n') s
  | false, c :: s =>
    if isWhite c then skipGap false s
    else if c = '/' then
      match s with
      | '/' :: s => skipGap true s
      | _ => c :: s
    else c :: s

def unescape (c : Char) : Char :=
  match c with
  | 'n' => '\n'
  | 't' => '\t'
  | 'r' => '\r'
  | c => c

def quoted? : List Char → Option (List Char × List Char)
  | [] => none
  | ['\\'] => none
  | '\\' :: c :: s => (quoted? s).map fun r => (unescape c :: r.1, r.2)
  | c :: s =>
    if c = '"' then some ([], s) else (quoted? s).map fun r => (c :: r.1, r.2)

def isNumberChar (c : Char) : Bool := isDecimalDigit c || c == '.'

def opensNumber (c : Char) (s : List Char) : Bool :=
  isDecimalDigit c || (c == '-' && (s.head?.any isDecimalDigit))

def read (c : Char) (s : List Char) : Except TokenError Token × List Char :=
  match mark? c with
  | some token => (.ok token, s)
  | none =>
    if c = '"' then
      match quoted? s with
      | some (value, rest) => (.ok (.text (String.ofList value)), rest)
      | none => (.error .unterminated, [])
    else if opensNumber c s then
      (.ok (.number (String.ofList (c :: s.takeWhile isNumberChar))), s.dropWhile isNumberChar)
    else if isWordStart c then
      (.ok (.word (String.ofList (c :: s.takeWhile isWordChar))), s.dropWhile isWordChar)
    else (.error (.unexpected c), s)

def next? (s : List Char) : Option (Except TokenError Token × List Char) :=
  match skipGap false s with
  | [] => none
  | c :: rest => some (read c rest)

theorem length_skipGap_le (inComment : Bool) (s : List Char) :
    (skipGap inComment s).length ≤ s.length := by
  fun_induction skipGap inComment s <;> simp_all <;> omega

theorem length_quoted?_lt {s value rest : List Char} (h : quoted? s = some (value, rest)) :
    rest.length < s.length := by
  fun_induction quoted? s generalizing value rest with
  | case1 => simp at h
  | case2 => simp at h
  | case3 c s ih =>
    obtain ⟨r, hr, he⟩ := Option.map_eq_some_iff.1 h
    have := ih hr
    simp only [Prod.mk.injEq] at he
    simp only [List.length_cons, ← he.2]
    omega
  | case4 s => simp_all
  | case5 c s _ _ _ ih =>
    obtain ⟨r, hr, he⟩ := Option.map_eq_some_iff.1 h
    have := ih hr
    simp only [Prod.mk.injEq] at he
    simp only [List.length_cons, ← he.2]
    omega

theorem length_read_le (c : Char) (s : List Char) : (read c s).2.length ≤ s.length := by
  unfold read
  split
  · exact Nat.le_refl _
  · split
    · split
      · rename_i h
        exact Nat.le_of_lt (length_quoted?_lt h)
      · simp
    · split
      · exact length_dropWhile_le _ _
      · split
        · exact length_dropWhile_le _ _
        · exact Nat.le_refl _

/-- Every step uses at least one character. -/
theorem length_next?_lt {s rest : List Char} {r : Except TokenError Token}
    (h : next? s = some (r, rest)) : rest.length < s.length := by
  unfold next? at h
  split at h
  · simp at h
  · rename_i c tail hg
    have hs := length_skipGap_le false s
    have hr := length_read_le c tail
    simp only [Option.some.injEq] at h
    rw [h] at hr
    rw [hg, List.length_cons] at hs
    exact Nat.lt_of_lt_of_le (Nat.lt_succ_of_le hr) hs

def readAll (s : List Char) : Except TokenError (List Token) :=
  match _h : next? s with
  | none => .ok []
  | some (.error e, _) => .error e
  | some (.ok token, rest) => (readAll rest).map (token :: ·)
termination_by s.length
decreasing_by exact length_next?_lt _h

theorem readAll_of_end {s : List Char} (h : next? s = none) : readAll s = .ok [] := by
  rw [readAll]
  split <;> simp_all

theorem readAll_of_fault {s rest : List Char} {e : TokenError}
    (h : next? s = some (.error e, rest)) : readAll s = .error e := by
  rw [readAll]
  split <;> simp_all

theorem readAll_of_token {s rest : List Char} {token : Token}
    (h : next? s = some (.ok token, rest)) : readAll s = (readAll rest).map (token :: ·) := by
  rw [readAll]
  split <;> simp_all

def steps : Nat → List Char → List (Option (Except TokenError Token))
  | 0, _ => []
  | n + 1, s =>
    match next? s with
    | none => none :: steps n []
    | some (r, rest) => some r :: steps n rest

end SchemaQuery.Token
