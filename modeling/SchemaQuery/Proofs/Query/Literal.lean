import SchemaQuery.Json.Reader
import SchemaQuery.Token.Reader

/-!
# Object literals

What an object literal of a program means. Its text is cut into words, quoted texts and marks, with
white space and comments between them, and a machine takes these in one by one and keeps the
containers that are still open on a stack. A key is a quoted text or a bare word. Members keep their
order, and a number keeps its spelling.
-/

set_option autoImplicit false

namespace SchemaQuery

inductive Literal where
  | null
  | bool (b : Bool)
  | number (spelling : String)
  | text (s : String)
  | array (items : List Literal)
  | object (members : List (String × Literal))

namespace Literal

open SchemaQuery.Unicode SchemaQuery.Text

inductive Piece where
  | mark (c : Char)
  | word (s : String)
  | text (s : String)
  | stray (c : Char)

def isMark (c : Char) : Bool :=
  c == '[' || c == ']' || c == '\x7b' || c == '\x7d' || c == ':' || c == ','

def isPlain (c : Char) : Bool := isWordChar c || c == '.' || c == '+' || c == '-'

def cut (c : Char) (s : List Char) : Piece × List Char :=
  if isMark c then (.mark c, s)
  else if c = '"' then
    match Json.readText s with
    | .whole (some t) rest => (.text t, rest)
    | _ => (.stray c, [])
  else if isPlain c then
    (.word (String.ofList (c :: s.takeWhile isPlain)), s.dropWhile isPlain)
  else (.stray c, s)

def next? (s : List Char) : Option (Piece × List Char) :=
  match Token.skipGap false s with
  | [] => none
  | c :: rest => some (cut c rest)

theorem length_scanText_lt {s rest : List Char} (h : (Json.scanText s).2 = .ok rest) :
    rest.length < s.length := by
  fun_induction Json.scanText s generalizing rest with
  | case1 | case2 | case4 | case5 | case7 | case9 => cases h
  | case3 a b c d s n hn ih =>
    have hrest := ih h
    simp only [List.length_cons]
    omega
  | case6 c s _ _ e he ih =>
    have hrest := ih h
    simp only [List.length_cons]
    omega
  | case8 =>
    cases h
    exact Nat.lt_succ_self _
  | case10 c s _ _ _ _ _ _ ih =>
    have hrest := ih h
    simp only [List.length_cons]
    omega

theorem length_readText_lt {s rest : List Char} {t : Option String}
    (h : Json.readText s = .whole t rest) : rest.length < s.length := by
  apply length_scanText_lt
  unfold Json.readText at h
  split at h
  · rename_i pieces after hscan
    cases h
    rw [hscan]
  · split at h <;> cases h

theorem length_cut_le (c : Char) (s : List Char) : (cut c s).2.length ≤ s.length := by
  unfold cut
  split
  · exact Nat.le_refl _
  · split
    · split
      · rename_i h
        exact Nat.le_of_lt (length_readText_lt h)
      · exact Nat.zero_le _
    · split
      · exact length_dropWhile_le _ _
      · exact Nat.le_refl _

theorem length_next?_lt {s rest : List Char} {p : Piece} (h : next? s = some (p, rest)) :
    rest.length < s.length := by
  have hgap := Token.length_skipGap_le false s
  unfold next? at h
  split at h
  · cases h
  · rename_i c tail hskip
    have hcut := length_cut_le c tail
    rw [Option.some.inj h] at hcut
    rw [hskip, List.length_cons] at hgap
    exact Nat.lt_of_lt_of_le (Nat.lt_succ_of_le hcut) hgap

def pieces (s : List Char) : List Piece :=
  match _h : next? s with
  | none => []
  | some (p, rest) => p :: pieces rest
termination_by s.length
decreasing_by exact length_next?_lt _h

theorem pieces_of_end {s : List Char} (h : next? s = none) : pieces s = [] := by
  rw [pieces]
  split <;> simp_all

theorem pieces_of_piece {s rest : List Char} {p : Piece} (h : next? s = some (p, rest)) :
    pieces s = p :: pieces rest := by
  rw [pieces]
  split <;> simp_all

def scalar? (s : String) : Option Literal :=
  if s = "null" then some .null
  else if s = "true" then some (.bool true)
  else if s = "false" then some (.bool false)
  else
    match Json.NumberText.read s.toList with
    | .ok (_, []) => some (.number s)
    | _ => none

def key? : Piece → Option String
  | .text s => some s
  | .word s => if s.toList.all isWordChar then some s else none
  | _ => none

inductive Frame where
  | array (done : List Literal)
  | object (done : List (String × Literal)) (key : String)

inductive Mode where
  | value
  | first
  | key
  | firstKey
  | colon
  | after (v : Literal)

structure State where
  frames : List Frame
  mode : Mode

def open? (frames : List Frame) : Piece → Option State
  | .mark '[' => some ⟨.array [] :: frames, .first⟩
  | .mark '\x7b' => some ⟨.object [] "" :: frames, .firstKey⟩
  | .text s => some ⟨frames, .after (.text s)⟩
  | .word s => (scalar? s).map fun v => ⟨frames, .after v⟩
  | _ => none

def takeKey? : List Frame → Piece → Option State
  | .object done _ :: frames, p => (key? p).map fun k => ⟨.object done k :: frames, .colon⟩
  | _, _ => none

def close? (v : Literal) : List Frame → Piece → Option State
  | .array done :: frames, .mark ',' => some ⟨.array (done ++ [v]) :: frames, .value⟩
  | .array done :: frames, .mark ']' => some ⟨frames, .after (.array (done ++ [v]))⟩
  | .object done k :: frames, .mark ',' => some ⟨.object (done ++ [(k, v)]) k :: frames, .key⟩
  | .object done k :: frames, .mark '\x7d' => some ⟨frames, .after (.object (done ++ [(k, v)]))⟩
  | _, _ => none

def step (state : State) (p : Piece) : Option State :=
  match state.mode with
  | .value => open? state.frames p
  | .first =>
    match state.frames, p with
    | .array [] :: frames, .mark ']' => some ⟨frames, .after (.array [])⟩
    | frames, p => open? frames p
  | .key => takeKey? state.frames p
  | .firstKey =>
    match state.frames, p with
    | .object [] _ :: frames, .mark '\x7d' => some ⟨frames, .after (.object [])⟩
    | frames, p => takeKey? frames p
  | .colon =>
    match p with
    | .mark ':' => some ⟨state.frames, .value⟩
    | _ => none
  | .after v => close? v state.frames p

def result? (state : State) : Option Literal :=
  match state with
  | ⟨[], .after v⟩ => some v
  | _ => none

def resume (state : State) (s : List Char) : Option Literal :=
  ((pieces s).foldlM step state).bind result?

def read (s : List Char) : Option Literal := resume ⟨[], .value⟩ s

end Literal

end SchemaQuery
