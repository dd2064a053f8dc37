import SchemaQuery.Proofs.Attribute.Record
import SchemaQuery.Proofs.Attribute.Separation

/-!
# Where the position goes

Each of the readers with a position comes to its end, with the value that is read from the tokens to
come, and at the place where that reading stops. A group that is never closed leads all loops that
are running to the end of the tokens. The record of the whole, which shows all that is done, has no
round that stays where it was and no step that is not allowed.
-/

set_option autoImplicit false

namespace SchemaQuery

open Token Argument

namespace Walk

section Groups

variable {tokens : List Token} {token : Token} (rest : List Token)

theorem reads_groupTurn_opening (h : opens token = true) (depth : Nat) :
    Reads tokens (groupTurn tokens depth) (token :: rest) (.again (depth + 1)) rest := by
  refine reads_advance.bind ?_
  simp only [List.getElem?_cons_zero, h, if_true]
  exact reads_pure _

theorem reads_groupTurn_plain (ho : opens token = false) (hc : closes token = false) (depth : Nat) :
    Reads tokens (groupTurn tokens depth) (token :: rest) (.again depth) rest := by
  refine reads_advance.bind ?_
  simp only [List.getElem?_cons_zero, ho, hc, Bool.false_eq_true, if_false]
  exact reads_pure _

theorem reads_groupTurn_closing (h : closes token = true) {depth : Nat} (hdepth : 0 < depth)
    {turn : Turn Nat Unit}
    (hturn : (if depth - 1 = 0 then .leave () else .again (depth - 1)) = turn) :
    Reads tokens (groupTurn tokens depth) (token :: rest) turn rest := by
  subst hturn
  refine reads_advance.bind ?_
  simp only [List.getElem?_cons_zero, opens_of_closes h, h, Bool.false_eq_true, if_false, if_true]
  refine (reads_close hdepth).bind ?_
  split
  · exact reads_pure _
  · exact reads_pure _

/-- The reader that counts open groups ends behind the last of them or at the end. -/
theorem loops_group {depth : Nat} (h : 0 < depth) :
    Loops tokens .group (groupTurn tokens) depth rest () (skipGroup depth rest) := by
  fun_induction skipGroup depth rest with
  | case1 depth => exact loops_leave (reads_advance_back rfl (reads_pure _))
  | case2 depth token rest ho ih =>
    exact loops_again (reads_groupTurn_opening rest ho depth) (Nat.lt_succ_self _)
      (ih (Nat.succ_pos _))
  | case3 depth token rest _ hc hle =>
    have hlast : depth - 1 = 0 := Nat.sub_eq_zero_of_le hle
    exact loops_leave (reads_groupTurn_closing rest hc h (if_pos hlast))
  | case4 depth token rest _ hc hle ih =>
    have hopen : 0 < depth - 1 := by omega
    have hnotLast : depth - 1 ≠ 0 := Nat.ne_of_gt hopen
    exact loops_again (reads_groupTurn_closing rest hc h (if_neg hnotLast))
      (Nat.lt_succ_self _) (ih hopen)
  | case5 depth token rest ho hc ih =>
    rw [Bool.not_eq_true] at ho hc
    exact loops_again (reads_groupTurn_plain rest ho hc depth) (Nat.lt_succ_self _) (ih h)

/-- A group is entered with no group open, and its own mark is counted first. -/
theorem reads_group (h : opens token = true) :
    Reads tokens (group tokens) (token :: rest) () (skipGroup 1 rest) := by
  have hentered : (Move.enter (some token)).Sound := ⟨token, rfl, h⟩
  refine (reads_peek 0).bind ((reads_note hentered).bind ?_)
  exact (loops_again (reads_groupTurn_opening rest h 0) (Nat.lt_succ_self _)
    (loops_group rest (Nat.succ_pos 0))).reads

end Groups

section Lists

variable {tokens : List Token} {token : Token} (words : List String) (rest : List Token)

/-- What is inside a group does not count, whether the group is closed or not. -/
theorem listWords_skipGroup (depth : Nat) :
    listWords (depth + 1) rest = listWords 0 (skipGroup (depth + 1) rest) := by
  induction rest generalizing depth with
  | nil => rfl
  | cons token rest ih =>
    rw [listWords_succ, skipGroup]
    cases ho : opens token with
    | true => exact ih (depth + 1)
    | false =>
      cases hc : closes token with
      | false => exact ih depth
      | true =>
        cases depth with
        | zero => rfl
        | succ depth => exact ih depth

theorem listWords_opening (h : opens token = true) :
    listWords 0 (token :: rest) = listWords 0 (skipGroup 1 rest) := by
  rw [← listWords_skipGroup]
  cases token <;> first | rfl | cases h

theorem reads_entryTurn_opening (h : opens token = true) :
    Reads tokens (entryTurn tokens words) (token :: rest) (.again words) (skipGroup 1 rest) := by
  refine (reads_peek 0).bind ?_
  cases token with
  | leftParen | leftBracket => exact (reads_group rest rfl).bind (reads_pure _)
  | _ => cases h

/-- A list is read up to its closing bracket or to the end. -/
theorem loops_entries :
    Loops tokens .entries (entryTurn tokens) words rest
      (words ++ (listWords 0 rest).1) (listWords 0 rest).2 := by
  induction hlength : rest.length using Nat.strongRecOn generalizing words rest with
  | _ n ih =>
  subst hlength
  cases rest with
  | nil =>
    have hturn : Reads tokens (entryTurn tokens words) [] (.leave words) [] :=
      (reads_peek 0).bind (reads_pure _)
    rw [listWords, List.append_nil]
    exact loops_leave hturn
  | cons token rest =>
    have hnext (words : List String) := ih rest.length (Nat.lt_succ_self _) words rest rfl
    by_cases ho : opens token = true
    · have hshorter := Nat.lt_succ_of_le (skipGroup_suffix 1 rest).length_le
      rw [listWords_opening rest ho]
      exact loops_again (reads_entryTurn_opening words rest ho) hshorter
        (ih _ hshorter words _ rfl)
    · cases token with
      | leftParen | leftBracket => exact absurd rfl ho
      | rightBracket =>
        rw [listWords, List.append_nil]
        exact loops_leave ((reads_peek 0).bind (reads_advance.bind (reads_pure _)))
      | word name =>
        have hturn : Reads tokens (entryTurn tokens words) (.word name :: rest)
            (.again (words ++ [name])) rest :=
          (reads_peek 0).bind (reads_advance.bind (reads_pure _))
        have hrest := hnext (words ++ [name])
        rw [List.append_assoc] at hrest
        exact loops_again hturn (Nat.lt_succ_self _) hrest
      | _ =>
        exact loops_again ((reads_peek 0).bind (reads_advance.bind (reads_pure _)))
          (Nat.lt_succ_self _) (hnext words)

end Lists

section Values

variable {tokens : List Token}

theorem loops_path (name : String) (rest : List Token) :
    Loops tokens .path (pathTurn tokens) name rest
      (dotted name rest).1 (dotted name rest).2 := by
  fun_induction dotted name rest with
  | case1 name part rest ih =>
    have hturn : Reads tokens (pathTurn tokens name) (.dot :: .word part :: rest)
        (.again (name ++ "." ++ part)) rest :=
      (reads_peek 0).bind (reads_advance.bind (reads_advance.bind (reads_pure _)))
    exact loops_again hturn (Nat.lt_add_of_pos_right Nat.two_pos) ih
  | case2 name token rest hword ih =>
    have hturn : Reads tokens (pathTurn tokens name) (.dot :: token :: rest)
        (.again name) rest := by
      refine (reads_peek 0).bind (reads_advance.bind (reads_advance.bind ?_))
      cases token with
      | word part => exact absurd rfl (hword part)
      | _ => exact reads_pure _
    exact loops_again hturn (Nat.lt_add_of_pos_right Nat.two_pos) ih
  | case3 name =>
    -- the part behind the last dot is looked for at the end
    have hturn : Reads tokens (pathTurn tokens name) [.dot] (.again name) [] :=
      (reads_peek 0).bind (reads_advance.bind (reads_advance.bind (reads_pure _)))
    exact loops_again hturn Nat.one_pos
      (loops_leave ((reads_peek 0).bind (reads_pure _)))
  | case4 name rest _ hdot hlast =>
    have hturn : Reads tokens (pathTurn tokens name) rest (.leave name) rest := by
      refine (reads_peek 0).bind ?_
      cases rest with
      | nil => exact reads_pure _
      | cons token rest =>
        cases token with
        | dot =>
          cases rest with
          | nil => exact absurd rfl hlast
          | cons next rest => exact absurd rfl (hdot next rest)
        | _ => exact reads_pure _
    exact loops_leave hturn

theorem loops_trail (rest : List Token) :
    Loops tokens .trail (trailTurn tokens) () rest () (skipToComma rest) := by
  fun_induction skipToComma rest with
  | case1 | case2 => exact loops_leave ((reads_peek 0).bind (reads_pure _))
  | case3 token rest hcomma ih =>
    have hturn : Reads tokens (trailTurn tokens ()) (token :: rest) (.again ()) rest := by
      refine (reads_peek 0).bind ?_
      cases token with
      | comma => exact absurd rfl hcomma
      | _ => exact reads_advance.bind (reads_pure _)
    exact loops_again hturn (Nat.lt_succ_self _) ih

theorem reads_bareValue (rest : List Token) :
    Reads tokens (bareValue tokens) rest (readValue rest).1 (readValue rest).2 := by
  cases rest with
  | nil => exact reads_advance.bind (reads_pure _)
  | cons token rest =>
    cases token with
    | word name =>
      rw [readValue]
      refine reads_advance.bind ((loops_path name rest).reads.bind ((reads_peek 0).bind ?_))
      rcases dotted name rest with ⟨path, behind⟩
      cases behind with
      | nil => exact reads_pure _
      | cons next behind =>
        cases next with
        | leftParen => exact (reads_group behind rfl).bind (reads_pure _)
        | _ => exact reads_pure _
    | leftBracket => exact reads_advance.bind ((loops_entries [] rest).reads.bind (reads_pure _))
    | leftParen =>
      exact reads_advance_back rfl ((reads_group rest rfl).bind (reads_pure _))
    | _ => exact reads_advance.bind (reads_pure _)

theorem reads_value (rest : List Token) :
    Reads tokens (value tokens) rest (readValue rest).1 (skipToComma (readValue rest).2) :=
  (reads_bareValue rest).bind ((loops_trail _).reads.bind (reads_pure _))

theorem reads_label (rest : List Token) :
    Reads tokens (label tokens) rest (label? rest) (body rest) := by
  refine (reads_peek 0).bind ((reads_peek 1).bind ?_)
  cases rest with
  | nil => exact reads_pure _
  | cons token rest =>
    cases token with
    | word name =>
      cases rest with
      | nil => exact reads_pure _
      | cons next rest =>
        cases next with
        | colon => exact (reads_skip 2).bind (reads_pure _)
        | _ => exact reads_pure _
    | _ => exact reads_pure _

end Values

section Arguments

variable {tokens : List Token}

theorem reads_argumentTurn {token : Token} (h : token ≠ .comma) (arguments : List Argument)
    (rest : List Token) :
    Reads tokens (argumentTurn tokens arguments) (token :: rest)
      (.again (arguments ++ [(next (token :: rest)).1])) (next (token :: rest)).2 := by
  rw [next_eq]
  refine (reads_peek 0).bind ?_
  cases token with
  | comma => exact absurd rfl h
  | _ => exact (reads_label _).bind ((reads_value _).bind (reads_pure _))

theorem loops_arguments (arguments : List Argument) (rest : List Token) :
    Loops tokens .arguments (argumentTurn tokens) arguments rest
      (arguments ++ ofTokens rest) [] := by
  induction hlength : rest.length using Nat.strongRecOn generalizing arguments rest with
  | _ n ih =>
  subst hlength
  cases rest with
  | nil =>
    rw [ofTokens_nil, List.append_nil]
    exact loops_leave ((reads_peek 0).bind (reads_pure _))
  | cons token rest =>
    by_cases hcomma : token = .comma
    · subst hcomma
      rw [ofTokens_comma_cons]
      exact loops_again ((reads_peek 0).bind (reads_advance.bind (reads_pure _)))
        (Nat.lt_succ_self _) (ih _ (Nat.lt_succ_self _) arguments rest rfl)
    · have hshorter := Nat.lt_succ_of_le (next_cons_suffix token rest).length_le
      have hrest := ih _ hshorter (arguments ++ [(next (token :: rest)).1]) _ rfl
      rw [List.append_assoc] at hrest
      rw [ofTokens_cons hcomma]
      exact loops_again (reads_argumentTurn hcomma arguments rest) hshorter hrest

/-- Every argument uses a token. -/
theorem length_ofTokens_le (tokens : List Token) : (ofTokens tokens).length ≤ tokens.length := by
  fun_induction ofTokens tokens with
  | case1 => exact Nat.le_refl _
  | case2 rest ih => exact Nat.le_succ_of_le ih
  | case3 token rest _ ih =>
    have hused := (next_cons_suffix token rest).length_le
    exact Nat.succ_le_succ (Nat.le_trans ih hused)

end Arguments

/-- The reading with a position comes to an end, whatever groups are open or closed by the wrong
mark: no loop needs more rounds than there are tokens and one, and the result is the arguments of
the tokens. No round but the last of its loop leaves the position where it was or moves it back, no
step back is made at the start, groups are entered at an opening mark only, and none is closed that
is not open. In the end the position is behind all tokens, and there are no more arguments than
tokens. -/
theorem arguments_end (tokens : List Token) :
    ∃ w, arguments tokens start = some (ofTokens tokens, w) ∧
      (∀ name before after, .round name before after ∈ w.moves → before < after) ∧
      (∀ pos, .back pos ∈ w.moves → 0 < pos) ∧
      (∀ token, .enter token ∈ w.moves → ∃ t, token = some t ∧ opens t = true) ∧
      (∀ depth, .close depth ∈ w.moves → 0 < depth) ∧
      tokens.length ≤ w.pos ∧ (ofTokens tokens).length ≤ tokens.length := by
  have hstart : Stands tokens tokens start := ⟨rfl, fun move hmove => by cases hmove⟩
  obtain ⟨w, hrun, hend⟩ := (loops_arguments [] tokens).reads start hstart
  exact ⟨w, hrun, fun _ _ _ => hend.sound _, fun _ => hend.sound _, fun _ => hend.sound _,
    fun _ => hend.sound _, List.drop_eq_nil_iff.1 hend.rest_eq, length_ofTokens_le tokens⟩

def unclosed : List Token := [.leftBracket, .leftParen, .leftParen, .rightBracket, .word "a"]

theorem arguments_end_unclosed :
    ∃ w, arguments unclosed start = some ([⟨none, .list []⟩], w) ∧
      w.moves = [.enter (some .leftParen), .round .group 1 2, .round .group 2 3, .close 2,
        .round .group 3 4, .round .group 4 5, .back 6, .round .entries 1 5,
        .round .arguments 0 5] ∧
      (∀ name before after, .round name before after ∈ w.moves → before < after) ∧
      (∀ pos, .back pos ∈ w.moves → 0 < pos) ∧
      (∀ token, .enter token ∈ w.moves → ∃ t, token = some t ∧ opens t = true) ∧
      (∀ depth, .close depth ∈ w.moves → 0 < depth) ∧ unclosed.length ≤ w.pos := by
  have hvalue : arguments unclosed start = some ([⟨none, .list []⟩],
      ⟨5, [.enter (some .leftParen), .round .group 1 2, .round .group 2 3, .close 2,
        .round .group 3 4, .round .group 4 5, .back 6, .round .entries 1 5,
        .round .arguments 0 5]⟩) := by
    decide
  obtain ⟨w, hrun, hrounds, hbacks, henters, hcloses, hpos, -⟩ := arguments_end unclosed
  rw [hvalue, Option.some.injEq, Prod.mk.injEq] at hrun
  obtain ⟨-, rfl⟩ := hrun
  exact ⟨_, hvalue, rfl, hrounds, hbacks, henters, hcloses, hpos⟩

end Walk

end SchemaQuery
