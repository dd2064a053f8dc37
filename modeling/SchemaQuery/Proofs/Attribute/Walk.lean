import SchemaQuery.Attribute.Argument

/-!
# A reader with a position

The arguments of an attribute are read here from all tokens at once and a position among them. The
position moves on at the end too, and it is moved back where a reader has gone too far. A loop may
take a round for each token and a last one; if it goes on after that, there is no result. What
happens to the position and to the count of open groups is kept on record. There is one rule for
each action, and two for a loop: it is left, or a round that uses tokens is followed by the others.
-/

set_option autoImplicit false

namespace SchemaQuery

open Token Argument

inductive Loop where
  | arguments
  | path
  | trail
  | entries
  | group
  deriving DecidableEq, Repr

inductive Move where
  /-- A round that is not the last one, from one position to another. -/
  | round (loop : Loop) (before after : Nat)
  | back (pos : Nat)
  /-- A group is to be passed over from this token on, or from the end. -/
  | enter (token : Option Token)
  | close (depth : Nat)
  deriving DecidableEq, Repr

def Move.Sound : Move → Prop
  | .round _ before after => before < after
  | .back pos => 0 < pos
  | .enter token => ∃ t, token = some t ∧ opens t = true
  | .close depth => 0 < depth

structure Walk where
  pos : Nat
  moves : List Move
  deriving DecidableEq, Repr

abbrev Walking := StateT Walk Option

inductive Turn (α β : Type) where
  | again (a : α)
  | leave (b : β)

namespace Walk

def start : Walk := ⟨0, []⟩

def note (move : Move) : Walking Unit := modify fun w => { w with moves := w.moves ++ [move] }

def skip (count : Nat) : Walking Unit := modify fun w => { w with pos := w.pos + count }

def stepBack : Walking Unit := do
  note (.back (← get).pos)
  modify fun w => { w with pos := w.pos - 1 }

def close (depth : Nat) : Walking Nat := do
  note (.close depth)
  return depth - 1

/-- Takes so many turns at most, until one leaves the loop. Every round but the last goes on
record. -/
def rounds {α β : Type} (name : Loop) (turn : α → Walking (Turn α β)) :
    (limit : Nat) → α → Walking β
  | 0, _ => failure
  | limit + 1, a => do
    let before := (← get).pos
    match ← turn a with
    | .again a =>
      note (.round name before (← get).pos)
      rounds name turn limit a
    | .leave b => return b

section Readers

variable (tokens : List Token)

def peek (offset : Nat) : Walking (Option Token) := return tokens[(← get).pos + offset]?

def advance : Walking (Option Token) := do
  let token ← peek tokens 0
  skip 1
  return token

def loop {α β : Type} (name : Loop) (turn : α → Walking (Turn α β)) (a : α) : Walking β :=
  rounds name turn (tokens.length + 1) a

def groupTurn (depth : Nat) : Walking (Turn Nat Unit) := do
  match ← advance tokens with
  | none =>
    stepBack
    return .leave ()
  | some token =>
    if opens token then return .again (depth + 1)
    else if closes token then
      let depth ← close depth
      if depth = 0 then return .leave () else return .again depth
    else return .again depth

def group : Walking Unit := do
  note (.enter (← peek tokens 0))
  loop tokens .group (groupTurn tokens) 0

def entryTurn (words : List String) : Walking (Turn (List String) (List String)) := do
  match ← peek tokens 0 with
  | some .rightBracket =>
    let _ ← advance tokens
    return .leave words
  | none => return .leave words
  | some (.word name) =>
    let _ ← advance tokens
    return .again (words ++ [name])
  | some token =>
    if opens token then
      group tokens
      return .again words
    else
      let _ ← advance tokens
      return .again words

def pathTurn (name : String) : Walking (Turn String String) := do
  match ← peek tokens 0 with
  | some .dot =>
    let _ ← advance tokens
    match ← advance tokens with
    | some (.word part) => return .again (name ++ "." ++ part)
    | _ => return .again name
  | _ => return .leave name

def trailTurn (_ : Unit) : Walking (Turn Unit Unit) := do
  match ← peek tokens 0 with
  | none | some .comma => return .leave ()
  | some _ =>
    let _ ← advance tokens
    return .again ()

def bareValue : Walking ArgumentValue := do
  match ← advance tokens with
  | some (.text s) => return .text s
  | some (.number s) => return .number s
  | some (.word name) =>
    let name ← loop tokens .path (pathTurn tokens) name
    if (← peek tokens 0) = some .leftParen then
      group tokens
      return .other
    else return .word name
  | some .leftBracket => return .list (← loop tokens .entries (entryTurn tokens) [])
  | some .leftParen =>
    stepBack
    group tokens
    return .other
  | _ => return .other

def value : Walking ArgumentValue := do
  let v ← bareValue tokens
  loop tokens .trail (trailTurn tokens) ()
  return v

def label : Walking (Option String) := do
  match ← peek tokens 0, ← peek tokens 1 with
  | some (.word name), some .colon =>
    skip 2
    return some name
  | _, _ => return none

def argumentTurn (arguments : List Argument) :
    Walking (Turn (List Argument) (List Argument)) := do
  match ← peek tokens 0 with
  | none => return .leave arguments
  | some .comma =>
    let _ ← advance tokens
    return .again arguments
  | some _ =>
    let name ← label tokens
    let v ← value tokens
    return .again (arguments ++ [⟨name, v⟩])

def arguments : Walking (List Argument) := loop tokens .arguments (argumentTurn tokens) []

end Readers

structure Stands (tokens rest : List Token) (w : Walk) : Prop where
  rest_eq : tokens.drop w.pos = rest
  sound : ∀ move ∈ w.moves, move.Sound

/-- Where the tokens `rest` are to come, the action ends with the value `a`, and then the tokens
`behind` are to come. -/
def Reads {α : Type} (tokens : List Token) (x : Walking α) (rest : List Token) (a : α)
    (behind : List Token) : Prop :=
  ∀ w, Stands tokens rest w → ∃ w', x w = some (a, w') ∧ Stands tokens behind w'

def Loops {α β : Type} (tokens : List Token) (name : Loop) (turn : α → Walking (Turn α β)) (a : α)
    (rest : List Token) (b : β) (behind : List Token) : Prop :=
  ∀ limit, rest.length < limit → Reads tokens (rounds name turn limit a) rest b behind

section Rules

variable {α β : Type} {tokens rest middle behind : List Token} {a : α} {b : β}

theorem Stands.note {w : Walk} {move : Move} (h : Stands tokens rest w) (hmove : move.Sound) :
    Stands tokens rest { w with moves := w.moves ++ [move] } where
  rest_eq := h.rest_eq
  sound := by
    intro other hother
    rcases List.mem_append.1 hother with hother | hother
    · exact h.sound other hother
    · rw [List.mem_singleton.1 hother]
      exact hmove

/-- The position has moved on where fewer tokens are to come. -/
theorem Stands.pos_lt {w w' : Walk} (h : Stands tokens rest w) (h' : Stands tokens behind w')
    (hlt : behind.length < rest.length) : w.pos < w'.pos := by
  have hrest := congrArg List.length h.rest_eq
  have hbehind := congrArg List.length h'.rest_eq
  rw [List.length_drop] at hrest hbehind
  omega

theorem reads_pure (a : α) : Reads tokens (pure a) rest a rest := fun w h => ⟨w, rfl, h⟩

theorem Reads.bind {x : Walking α} {f : α → Walking β} (hx : Reads tokens x rest a middle)
    (hf : Reads tokens (f a) middle b behind) : Reads tokens (x >>= f) rest b behind := by
  intro w h
  obtain ⟨w₁, hrun, h₁⟩ := hx w h
  obtain ⟨w₂, hnext, h₂⟩ := hf w₁ h₁
  refine ⟨w₂, ?_, h₂⟩
  show (x w).bind (fun r => f r.1 r.2) = _
  rw [hrun]
  exact hnext

theorem reads_note {move : Move} (h : move.Sound) : Reads tokens (note move) rest () rest :=
  fun _ hw => ⟨_, rfl, hw.note h⟩

theorem reads_skip (count : Nat) : Reads tokens (skip count) rest () (rest.drop count) := by
  intro w h
  refine ⟨_, rfl, ?_, h.sound⟩
  rw [← h.rest_eq, List.drop_drop]

theorem reads_peek (offset : Nat) : Reads tokens (peek tokens offset) rest rest[offset]? rest := by
  intro w h
  refine ⟨w, ?_, h⟩
  rw [← h.rest_eq, List.getElem?_drop]
  rfl

theorem reads_advance : Reads tokens (advance tokens) rest rest[0]? (rest.drop 1) :=
  (reads_peek 0).bind ((reads_skip 1).bind (reads_pure _))

/-- A step back undoes the step in front of it. -/
theorem reads_advance_back {f : Option Token → Walking α} {x : Walking α}
    (hf : f rest[0]? = stepBack >>= fun _ => x) (hx : Reads tokens x rest a behind) :
    Reads tokens (advance tokens >>= f) rest a behind := by
  intro w h
  have htoken : tokens[w.pos + 0]? = rest[0]? := by rw [← h.rest_eq, List.getElem?_drop]
  have hroom : (Move.back (w.pos + 1)).Sound := Nat.succ_pos w.pos
  obtain ⟨w', hrun, h'⟩ := hx _ (h.note hroom)
  refine ⟨w', ?_, h'⟩
  show f tokens[w.pos + 0]? { w with pos := w.pos + 1 } = _
  rw [htoken, hf]
  exact hrun

theorem reads_close {depth : Nat} (h : 0 < depth) :
    Reads tokens (close depth) rest (depth - 1) rest := by
  have hopen : (Move.close depth).Sound := h
  exact (reads_note hopen).bind (reads_pure _)

variable {name : Loop} {turn : α → Walking (Turn α β)} {a' : α}

theorem rounds_leave {w w' : Walk} (h : turn a w = some (.leave b, w')) (limit : Nat) :
    rounds name turn (limit + 1) a w = some (b, w') := by
  show (turn a w).bind _ = _
  rw [h]
  rfl

/-- A round goes on record before the next one is taken. -/
theorem rounds_again {w w' : Walk} (h : turn a w = some (.again a', w')) (limit : Nat) :
    rounds name turn (limit + 1) a w = rounds name turn limit a'
      { w' with moves := w'.moves ++ [.round name w.pos w'.pos] } := by
  show (turn a w).bind _ = _
  rw [h]
  rfl

theorem loops_leave (h : Reads tokens (turn a) rest (.leave b) behind) :
    Loops tokens name turn a rest b behind := by
  intro limit hlimit w hw
  obtain ⟨limit, rfl⟩ := Nat.exists_eq_add_of_lt hlimit
  obtain ⟨w', hrun, h'⟩ := h w hw
  exact ⟨w', rounds_leave hrun _, h'⟩

/-- A round that uses tokens may be followed by others. -/
theorem loops_again (h : Reads tokens (turn a) rest (.again a') middle)
    (hlt : middle.length < rest.length) (hrest : Loops tokens name turn a' middle b behind) :
    Loops tokens name turn a rest b behind := by
  intro limit hlimit w hw
  obtain ⟨limit, rfl⟩ := Nat.exists_eq_add_of_lt hlimit
  obtain ⟨w₁, hrun, h₁⟩ := h w hw
  have hround : (Move.round name w.pos w₁.pos).Sound := hw.pos_lt h₁ hlt
  have hrounds := hrest (rest.length + limit) (Nat.lt_add_right limit hlt)
  obtain ⟨w₂, hnext, h₂⟩ := hrounds _ (h₁.note hround)
  exact ⟨w₂, (rounds_again hrun _).trans hnext, h₂⟩

/-- There are no more tokens to come than there are in all. -/
theorem Loops.reads (h : Loops tokens name turn a rest b behind) :
    Reads tokens (loop tokens name turn a) rest b behind := by
  intro w hw
  have hle : rest.length ≤ tokens.length := hw.rest_eq ▸ (List.drop_suffix _ _).length_le
  exact h _ (Nat.lt_succ_of_le hle) w hw

end Rules

end Walk

end SchemaQuery
