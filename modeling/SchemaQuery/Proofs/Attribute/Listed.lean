import SchemaQuery.Proofs.Attribute.Nesting
import SchemaQuery.Proofs.Token.Grammar

/-!
# Well-formed lists of arguments

A value is a text, a number, a dotted path, a call, a group or a list, and a list holds any tokens
in which groups are closed. Values with commas between them are read back one by one, whatever
stands inside their groups, and a name leads to the first argument that carries it.
-/

set_option autoImplicit false

namespace SchemaQuery.Argument

open Token

def nameTokens : Option String → List Token
  | none => []
  | some name => [.word name, .colon]

def Ends (rest : List Token) : Prop := rest = [] ∨ ∃ tail, rest = .comma :: tail

def pathTokens (name : String) (parts : List String) : List Token :=
  .word name :: parts.flatMap fun part => [.dot, .word part]

inductive Denotes : (tokens : List Token) → ArgumentValue → Prop
  | text (s : String) : Denotes [.text s] (.text s)
  | number (digits : String) : Denotes [.number digits] (.number digits)
  | path (name : String) (parts : List String) :
      Denotes (pathTokens name parts) (.word (String.intercalate "." (name :: parts)))
  | call (name : String) (parts : List String) {inner : List Token} : Nested inner →
      Denotes (pathTokens name parts ++ .leftParen :: (inner ++ [.rightParen])) .other
  | group {inner : List Token} : Nested inner →
      Denotes (.leftParen :: (inner ++ [.rightParen])) .other
  | list {inner : List Token} : Nested inner →
      Denotes (.leftBracket :: (inner ++ [.rightBracket])) (.list (outerWords inner))

/-- The tokens make up the arguments, with a comma or several between two of them and any number of
commas in front of the first and behind the last. -/
inductive Listed : List Argument → (tokens : List Token) → Prop
  | nil : Listed [] []
  | comma {arguments : List Argument} {tokens : List Token} : Listed arguments tokens →
      Listed arguments (.comma :: tokens)
  | argument {a : Argument} {arguments : List Argument} {value rest : List Token} :
      Denotes value a.value → Ends rest → Listed arguments rest →
      Listed (a :: arguments) (nameTokens a.name ++ (value ++ rest))

def First (p : Argument → Prop) (arguments : List Argument) (a : Argument) : Prop :=
  ∃ before after, arguments = before ++ a :: after ∧ p a ∧ ∀ b ∈ before, ¬ p b

section Values

variable {rest : List Token}

theorem dotted_of_no_dot (name : String) (h : rest.head? ≠ some .dot) :
    dotted name rest = (name, rest) := by
  cases rest with
  | nil => rfl
  | cons token rest => cases token <;> first | rfl | exact absurd rfl h

/-- A path is taken in up to the last word that a dot leads to. -/
theorem dotted_path (name : String) (parts : List String) (h : rest.head? ≠ some .dot) :
    dotted name (parts.flatMap (fun part => [.dot, .word part]) ++ rest) =
      (String.intercalate "." (name :: parts), rest) := by
  induction parts generalizing name with
  | nil => exact dotted_of_no_dot name h
  | cons part parts ih =>
    show dotted (name ++ "." ++ part) (parts.flatMap (fun part => [.dot, .word part]) ++ rest) = _
    rw [ih]
    cases parts with
    | nil => simp [String.intercalate_cons_cons]
    | cons next parts => simp [String.intercalate_cons_cons, String.append_assoc]

theorem Ends.not_dot (h : Ends rest) : rest.head? ≠ some .dot := by
  rcases h with rfl | ⟨tail, rfl⟩ <;> simp

theorem readValue_path (name : String) (parts : List String) (h : Ends rest) :
    readValue (pathTokens name parts ++ rest) =
      (.word (String.intercalate "." (name :: parts)), rest) := by
  rw [pathTokens, List.cons_append, readValue, dotted_path name parts h.not_dot]
  rcases h with rfl | ⟨tail, rfl⟩ <;> rfl

theorem readValue_call (name : String) (parts : List String) {inner : List Token}
    (hinner : Nested inner) (rest : List Token) :
    readValue (pathTokens name parts ++ .leftParen :: (inner ++ .rightParen :: rest)) =
      (.other, rest) := by
  rw [pathTokens, List.cons_append, readValue, dotted_path name parts (by simp)]
  exact congrArg _ (skipGroup_closing hinner rfl rest)

/-- A value is read as what its tokens make up, if a comma or nothing follows. -/
theorem readValue_of_denotes {tokens : List Token} {v : ArgumentValue} (hv : Denotes tokens v)
    (h : Ends rest) : readValue (tokens ++ rest) = (v, rest) := by
  cases hv with
  | text s => rfl
  | number digits => rfl
  | path name parts => exact readValue_path name parts h
  | call name parts hinner =>
    rw [List.append_assoc, List.cons_append, List.append_assoc]
    exact readValue_call name parts hinner rest
  | group hinner =>
    rw [List.cons_append, List.append_assoc]
    exact congrArg _ (skipGroup_closing hinner rfl rest)
  | list hinner =>
    rw [List.cons_append, List.append_assoc, List.singleton_append, readValue,
      listWords_closing hinner]

/-- Where no name stands in front of a value, none is taken for one. -/
theorem Denotes.unnamed {tokens : List Token} {v : ArgumentValue} (hv : Denotes tokens v)
    (h : Ends rest) (name : String) (tail : List Token) :
    tokens ++ rest ≠ .word name :: .colon :: tail := by
  have hpath (first : String) (parts : List String) {rest : List Token}
      (hrest : rest.head? ≠ some .colon) :
      pathTokens first parts ++ rest ≠ .word name :: .colon :: tail := by
    intro heq
    cases parts with
    | nil =>
      have htail : rest = .colon :: tail := (List.cons.inj heq).2
      rw [htail] at hrest
      exact hrest rfl
    | cons part parts => cases heq
  cases hv with
  | path first parts =>
    apply hpath
    rcases h with rfl | ⟨tail, rfl⟩ <;> simp
  | call first parts =>
    rw [List.append_assoc]
    exact hpath first parts (by simp)
  | text | number | group | list => intro heq; cases heq

theorem Denotes.opens {tokens : List Token} {v : ArgumentValue} (hv : Denotes tokens v) :
    ∃ token tail, tokens = token :: tail ∧ token ≠ .comma := by
  cases hv <;> exact ⟨_, _, rfl, by simp⟩

end Values

section Rows

variable {rest : List Token}

theorem skipToComma_of_ends (h : Ends rest) : skipToComma rest = rest := by
  rcases h with rfl | ⟨tail, rfl⟩ <;> rfl

/-- An argument is read from its own tokens and from nothing behind them. -/
theorem next_of_denotes {a : Argument} {value : List Token} (hv : Denotes value a.value)
    (h : Ends rest) : next (nameTokens a.name ++ (value ++ rest)) = (a, rest) := by
  have hvalue := readValue_of_denotes hv h
  obtain ⟨name, v⟩ := a
  cases name with
  | some name =>
    show next (.word name :: .colon :: (value ++ rest)) = _
    rw [next, hvalue, skipToComma_of_ends h]
  | none =>
    show next (value ++ rest) = _
    unfold next
    split
    · rename_i heq
      exact absurd heq (hv.unnamed h _ _)
    · simp only [hvalue, skipToComma_of_ends h]

theorem ofTokens_of_denotes {a : Argument} {value : List Token} (hv : Denotes value a.value)
    (h : Ends rest) :
    ofTokens (nameTokens a.name ++ (value ++ rest)) = a :: ofTokens rest := by
  have hnext := next_of_denotes hv h
  obtain ⟨token, tail, htokens, hne⟩ :
      ∃ token tail, nameTokens a.name ++ (value ++ rest) = token :: tail ∧ token ≠ .comma := by
    cases a.name with
    | some name => exact ⟨_, _, rfl, by simp⟩
    | none =>
      obtain ⟨token, tail, rfl, hne⟩ := hv.opens
      exact ⟨token, tail ++ rest, rfl, hne⟩
  rw [htokens] at hnext ⊢
  rw [ofTokens_cons hne, hnext]

theorem ofTokens_of_listed {arguments : List Argument} {tokens : List Token}
    (h : Listed arguments tokens) : ofTokens tokens = arguments := by
  induction h with
  | nil => exact ofTokens_nil
  | comma _ ih => rw [ofTokens_comma_cons, ih]
  | argument hv hends _ ih => rw [ofTokens_of_denotes hv hends, ih]

end Rows

section Lookup

variable {arguments : List Argument} {name : String}

theorem find?_eq_some_iff_first {p : Argument → Bool} {a : Argument} :
    arguments.find? p = some a ↔ First (p · = true) arguments a := by
  rw [List.find?_eq_some_iff_append]
  constructor
  · rintro ⟨hp, before, after, heq, hbefore⟩
    exact ⟨before, after, heq, hp, fun b hb => by simpa using hbefore b hb⟩
  · rintro ⟨before, after, heq, hp, hbefore⟩
    exact ⟨hp, before, after, heq, fun b hb => by simpa using hbefore b hb⟩

/-- A name leads to the value of the first argument that carries it, or else, where the name may be
left out, to the value of the first argument without a name. -/
theorem find?_eq_some_iff {positional : Bool} {v : ArgumentValue} :
    find? arguments name positional = some v ↔
      (∃ a, First (·.name = some name) arguments a ∧ a.value = v) ∨
      (∀ a ∈ arguments, a.name ≠ some name) ∧ positional = true ∧
        ∃ a, First (·.name = none) arguments a ∧ a.value = v := by
  have hnamed (a : Argument) : arguments.find? (·.name == some name) = some a ↔
      First (·.name = some name) arguments a := by
    simp [find?_eq_some_iff_first]
  have hunnamed (a : Argument) : arguments.find? (·.name == none) = some a ↔
      First (·.name = none) arguments a := by
    simp [find?_eq_some_iff_first]
  unfold find?
  cases hfind : arguments.find? (·.name == some name) with
  | some a =>
    have hmem : a ∈ arguments := List.mem_of_find?_eq_some hfind
    have hname : a.name = some name := by simpa using List.find?_some hfind
    simp only [← hnamed, hfind, Option.some.injEq, exists_eq_left']
    constructor
    · exact Or.inl
    · rintro (h | ⟨hnone, -⟩)
      · exact h
      · exact absurd hname (hnone a hmem)
  | none =>
    have hnone : ∀ a ∈ arguments, a.name ≠ some name := by simpa using hfind
    simp only [← hnamed, ← hunnamed, hfind]
    cases positional with
    | false => simp
    | true => simpa using fun _ _ _ => hnone

end Lookup

/-- A well-formed list of arguments is read back from every text that spells its tokens. A name
leads to the value of the first argument that carries it, or else, where the name may be left out,
to the value of the first argument without a name. -/
theorem readAll_listed {s : List Char} {tokens : List Token} {arguments : List Argument}
    (hs : Spelled s tokens) (h : Listed arguments tokens) :
    readAll s = .ok arguments ∧
    ∀ (name : String) (positional : Bool) (v : ArgumentValue),
      find? arguments name positional = some v ↔
        (∃ a, First (·.name = some name) arguments a ∧ a.value = v) ∨
        (∀ a ∈ arguments, a.name ≠ some name) ∧ positional = true ∧
          ∃ a, First (·.name = none) arguments a ∧ a.value = v := by
  refine ⟨?_, fun name positional v => find?_eq_some_iff⟩
  rw [readAll, readAll_of_spelled hs]
  exact congrArg Except.ok (ofTokens_of_listed h)

def oddList : String :=
  ", name : \"a,b\" ,, ns.map.x, f.g(x, [y: z]), ((p), q), fields: [id, at.b, (no), [no], c: d],// x"

theorem readAll_listed_odd :
    readAll oddList.toList = .ok [⟨some "name", .text "a,b"⟩, ⟨none, .word "ns.map.x"⟩,
      ⟨none, .other⟩, ⟨none, .other⟩, ⟨some "fields", .list ["id", "at", "b", "c", "d"]⟩] := by
  have hcall : Nested [.word "x", .comma, .leftBracket, .word "y", .colon, .word "z",
      .rightBracket] := by decide
  have hgroup : Nested [.leftParen, .word "p", .rightParen, .comma, .word "q"] := by decide
  have hitems : Nested [.word "id", .comma, .word "at", .dot, .word "b", .comma, .leftParen,
      .word "no", .rightParen, .comma, .leftBracket, .word "no", .rightBracket, .comma, .word "c",
      .colon, .word "d"] := by decide
  have hend {rest : List Token} : Ends (.comma :: rest) := Or.inr ⟨rest, rfl⟩
  have hfields := @Listed.argument ⟨some "fields", _⟩ _ _ _ (.list hitems) hend (.comma .nil)
  have hothers := @Listed.argument ⟨none, _⟩ _ _ _ (.call "f" ["g"] hcall) hend
    (.comma (@Listed.argument ⟨none, _⟩ _ _ _ (.group hgroup) hend (.comma hfields)))
  have hlist := Listed.comma (@Listed.argument ⟨some "name", _⟩ _ _ _ (.text "a,b") hend
    (.comma (.comma (@Listed.argument ⟨none, _⟩ _ _ _ (.path "ns" ["map", "x"]) hend
      (.comma hothers)))))
  exact (readAll_listed (spelled_of_readAll (by decide +kernel)) hlist).1

end SchemaQuery.Argument
