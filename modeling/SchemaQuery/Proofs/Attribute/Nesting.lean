import SchemaQuery.Attribute.Argument

/-!
# Groups in an argument text

In a nested sequence of tokens every group is closed by a mark of its own kind. A reader that counts
the open groups comes out of such a sequence with the count that it went in with, so it passes over
a group as a whole, and a list ends at its own bracket.
-/

set_option autoImplicit false

namespace SchemaQuery.Argument

open Token

def closing? : Token → Option Token
  | .leftParen => some .rightParen
  | .leftBracket => some .rightBracket
  | _ => none

inductive Nested : List Token → Prop
  | nil : Nested []
  | plain {token : Token} {rest : List Token} : opens token = false → closes token = false →
      Nested rest → Nested (token :: rest)
  | group {first last : Token} {inner rest : List Token} : closing? first = some last →
      Nested inner → Nested rest → Nested (first :: (inner ++ last :: rest))

def outside : (depth : Nat) → List Token → List Token
  | _, [] => []
  | depth, token :: rest =>
    if opens token then outside (depth + 1) rest
    else if closes token then outside (depth - 1) rest
    else if depth = 0 then token :: outside 0 rest
    else outside depth rest

def word? : Token → Option String
  | .word name => some name
  | _ => none

def outerWords (tokens : List Token) : List String := (outside 0 tokens).filterMap word?

theorem closing?_eq_some {first last : Token} (h : closing? first = some last) :
    opens first = true ∧ closes last = true := by
  cases first <;> cases h <;> exact ⟨rfl, rfl⟩

theorem opens_of_closes {token : Token} (h : closes token = true) : opens token = false := by
  cases token <;> first | rfl | cases h

section Checking

def closesUp : (awaited : List Token) → List Token → Bool
  | awaited, [] => awaited.isEmpty
  | awaited, token :: rest =>
    match closing? token with
    | some last => closesUp (last :: awaited) rest
    | none =>
      if closes token then awaited.head? == some token && closesUp awaited.tail rest
      else closesUp awaited rest

def Unwinds : (awaited : List Token) → List Token → Prop
  | [], tokens => Nested tokens
  | last :: awaited, tokens =>
    ∃ g rest, tokens = g ++ last :: rest ∧ Nested g ∧ Unwinds awaited rest

theorem Unwinds.plain {awaited rest : List Token} {token : Token} (ho : opens token = false)
    (hc : closes token = false) (h : Unwinds awaited rest) : Unwinds awaited (token :: rest) := by
  cases awaited with
  | nil => exact Nested.plain ho hc h
  | cons last awaited =>
    obtain ⟨g, behind, rfl, hg, hbehind⟩ := h
    exact ⟨token :: g, behind, rfl, .plain ho hc hg, hbehind⟩

theorem Unwinds.group {awaited rest : List Token} {first last : Token}
    (hmarks : closing? first = some last) (h : Unwinds (last :: awaited) rest) :
    Unwinds awaited (first :: rest) := by
  obtain ⟨inner, behind, rfl, hinner, hbehind⟩ := h
  cases awaited with
  | nil => exact Nested.group hmarks hinner hbehind
  | cons next awaited =>
    obtain ⟨g, tail, rfl, hg, htail⟩ := hbehind
    exact ⟨first :: (inner ++ last :: g), tail, by simp, .group hmarks hinner hg, htail⟩

theorem unwinds_of_closesUp {awaited tokens : List Token} (h : closesUp awaited tokens = true) :
    Unwinds awaited tokens := by
  induction tokens generalizing awaited with
  | nil =>
    rw [closesUp, List.isEmpty_iff] at h
    rw [h]
    exact Nested.nil
  | cons token rest ih =>
    rw [closesUp] at h
    cases hmarks : closing? token with
    | some last =>
      rw [hmarks] at h
      exact Unwinds.group hmarks (ih h)
    | none =>
      simp only [hmarks] at h
      cases hc : closes token with
      | false =>
        rw [hc] at h
        have ho : opens token = false := by cases token <;> first | rfl | cases hmarks
        exact Unwinds.plain ho hc (ih h)
      | true =>
        simp only [hc, if_true, Bool.and_eq_true, beq_iff_eq] at h
        cases awaited with
        | nil => cases h.1
        | cons last awaited =>
          cases h.1
          exact ⟨[], rest, rfl, .nil, ih h.2⟩

theorem closesUp_append {g : List Token} (hg : Nested g) (awaited rest : List Token) :
    closesUp awaited (g ++ rest) = closesUp awaited rest := by
  induction hg generalizing awaited rest with
  | nil => rfl
  | @plain token g ho hc _ ih =>
    have hmarks : closing? token = none := by cases token <;> first | rfl | cases ho
    rw [List.cons_append, closesUp, hmarks]
    simp only [hc, Bool.false_eq_true, if_false, ih]
  | @group first last inner g hmarks _ _ ihinner ihrest =>
    obtain ⟨-, hclose⟩ := closing?_eq_some hmarks
    have hlast : closing? last = none := by cases first <;> cases hmarks <;> rfl
    rw [List.cons_append, closesUp, hmarks, List.append_assoc]
    simp only [ihinner, List.cons_append, closesUp, hlast, hclose, if_true, List.head?_cons,
      List.tail_cons, beq_self_eq_true, Bool.true_and, ihrest]

theorem closesUp_iff {tokens : List Token} : closesUp [] tokens = true ↔ Nested tokens := by
  refine ⟨unwinds_of_closesUp, fun h => ?_⟩
  have hnil := closesUp_append h [] []
  rwa [List.append_nil] at hnil

instance : DecidablePred Nested := fun _ => decidable_of_iff _ closesUp_iff

end Checking

section Counting

variable {α : Type} {f : Nat → List Token → α}

structure Counts (f : Nat → List Token → α) : Prop where
  opening : ∀ depth {token : Token} rest, opens token = true →
    f (depth + 1) (token :: rest) = f (depth + 2) rest
  closing : ∀ depth {token : Token} rest, closes token = true →
    f (depth + 2) (token :: rest) = f (depth + 1) rest
  plain : ∀ depth {token : Token} rest, opens token = false → closes token = false →
    f (depth + 1) (token :: rest) = f (depth + 1) rest

/-- Inside a group a nested sequence makes no difference. -/
theorem Counts.nested (hf : Counts f) {g : List Token} (hg : Nested g) (depth : Nat)
    (rest : List Token) : f (depth + 1) (g ++ rest) = f (depth + 1) rest := by
  induction hg generalizing depth rest with
  | nil => rfl
  | plain ho hc _ ih => rw [List.cons_append, hf.plain depth _ ho hc, ih]
  | group hmarks _ _ ihinner ihrest =>
    obtain ⟨hopen, hclose⟩ := closing?_eq_some hmarks
    rw [List.cons_append, hf.opening depth _ hopen, List.append_assoc, ihinner, List.cons_append,
      hf.closing depth _ hclose, ihrest]

theorem counts_skipGroup : Counts skipGroup where
  opening depth token rest h := by rw [skipGroup, if_pos h]
  closing depth token rest h := by
    have hopen : ¬ depth + 2 ≤ 1 := by omega
    rw [skipGroup, opens_of_closes h, if_pos h, if_neg hopen]
    rfl
  plain depth token rest ho hc := by rw [skipGroup, ho, hc]; rfl

theorem counts_outside : Counts outside where
  opening depth token rest h := by rw [outside, if_pos h]
  closing depth token rest h := by rw [outside, opens_of_closes h, if_pos h]; rfl
  plain depth token rest ho hc := by rw [outside, ho, hc]; rfl

theorem listWords_succ (depth : Nat) (token : Token) (rest : List Token) :
    listWords (depth + 1) (token :: rest) =
      if opens token then listWords (depth + 2) rest
      else if closes token then listWords depth rest
      else listWords (depth + 1) rest := by
  rw [listWords] <;> simp

theorem counts_listWords : Counts listWords where
  opening depth token rest h := by rw [listWords_succ, if_pos h]
  closing depth token rest h := by rw [listWords_succ, opens_of_closes h, if_pos h]; rfl
  plain depth token rest ho hc := by rw [listWords_succ, ho, hc]; rfl

end Counting

section Groups

variable {first last : Token} {g inner rest : List Token}

/-- A group is passed over up to the mark that closes it. -/
theorem skipGroup_closing (hinner : Nested inner) (hlast : closes last = true)
    (rest : List Token) : skipGroup 1 (inner ++ last :: rest) = rest := by
  rw [counts_skipGroup.nested hinner, skipGroup, opens_of_closes hlast, if_pos hlast]
  rfl

theorem outside_group (h : closing? first = some last) (hinner : Nested inner)
    (rest : List Token) : outside 0 (first :: (inner ++ last :: rest)) = outside 0 rest := by
  obtain ⟨hopen, hclose⟩ := closing?_eq_some h
  rw [outside, if_pos hopen, counts_outside.nested hinner, outside, opens_of_closes hclose,
    if_pos hclose]
  rfl

theorem outside_plain {token : Token} (ho : opens token = false) (hc : closes token = false)
    (rest : List Token) : outside 0 (token :: rest) = token :: outside 0 rest := by
  rw [outside, ho, hc]
  rfl

theorem listWords_group (h : closing? first = some last) (hinner : Nested inner)
    (rest : List Token) : listWords 0 (first :: (inner ++ last :: rest)) = listWords 0 rest := by
  obtain ⟨hopen, hclose⟩ := closing?_eq_some h
  have hfirst : listWords 0 (first :: (inner ++ last :: rest)) =
      listWords 1 (inner ++ last :: rest) := by
    cases first <;> first | rfl | cases hopen
  rw [hfirst, counts_listWords.nested hinner, listWords_succ, opens_of_closes hclose,
    if_pos hclose]
  rfl

theorem listWords_plain {token : Token} (ho : opens token = false) (hc : closes token = false)
    (rest : List Token) : listWords 0 (token :: rest) =
      ((word? token).toList ++ (listWords 0 rest).1, (listWords 0 rest).2) := by
  cases token <;> first | rfl | exact absurd ho (by decide) | exact absurd hc (by decide)

/-- A list takes in the words outside of the groups in it, and goes on behind them. -/
theorem listWords_append (hg : Nested g) (rest : List Token) :
    listWords 0 (g ++ rest) = (outerWords g ++ (listWords 0 rest).1, (listWords 0 rest).2) := by
  induction hg with
  | nil => rfl
  | @plain token g ho hc _ ih =>
    rw [List.cons_append, listWords_plain ho hc, ih, outerWords, outerWords, outside_plain ho hc,
      List.filterMap_cons]
    cases word? token <;> rfl
  | group h hinner _ _ ih =>
    rw [List.cons_append, List.append_assoc, List.cons_append, listWords_group h hinner, ih,
      outerWords, outerWords, outside_group h hinner]

/-- A list ends at its own bracket. -/
theorem listWords_closing (hinner : Nested inner) (rest : List Token) :
    listWords 0 (inner ++ .rightBracket :: rest) = (outerWords inner, rest) := by
  rw [listWords_append hinner, listWords, List.append_nil]

end Groups

end SchemaQuery.Argument
