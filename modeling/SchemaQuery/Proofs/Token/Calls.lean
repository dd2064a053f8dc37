import SchemaQuery.Proofs.Token.Grammar

/-!
# Calls of the reader

Tokens are asked for one at a time, also behind a fault and behind the end of the text. A call takes
a piece off the front of what the calls before it have left, and only at the end of the text may this
piece be empty. Reading all tokens at once gives what the calls give, up to the first of them that
finds a fault or the end.
-/

set_option autoImplicit false

namespace SchemaQuery.Token

def call (s : List Char) : Option (Except TokenError Token) × List Char :=
  match next? s with
  | none => (none, [])
  | some (result, rest) => (some result, rest)

def left (s : List Char) : Nat → List Char
  | 0 => s
  | n + 1 => (call (left s n)).2

def found (s : List Char) (n : Nat) : Option (Except TokenError Token) := (call (left s n)).1

def used (s : List Char) (n : Nat) : List Char :=
  (left s n).take ((left s n).length - (left s (n + 1)).length)

section Suffixes

theorem skipGap_suffix (inComment : Bool) (s : List Char) : skipGap inComment s <:+ s := by
  fun_induction skipGap inComment s with
  | case1 => exact List.suffix_refl _
  | case2 c s ih => exact ih.trans (List.suffix_cons c s)
  | case3 c s _ ih => exact ih.trans (List.suffix_cons c s)
  | case4 s _ ih => exact (ih.trans (List.suffix_cons _ s)).trans (List.suffix_cons _ _)
  | case5 => exact List.suffix_refl _
  | case6 => exact List.suffix_refl _

theorem quoted?_suffix {s value rest : List Char} (h : quoted? s = some (value, rest)) :
    rest <:+ s := by
  obtain ⟨spelled, -, rfl⟩ := quoted?_eq_some_iff.1 h
  exact (List.suffix_cons '"' rest).trans (List.suffix_append spelled _)

theorem read_suffix (c : Char) (s : List Char) : (read c s).2 <:+ s := by
  unfold read
  split
  · exact List.suffix_refl s
  · split
    · split
      · rename_i h
        exact quoted?_suffix h
      · exact List.nil_suffix
    · split
      · exact List.dropWhile_suffix _
      · split
        · exact List.dropWhile_suffix _
        · exact List.suffix_refl s

end Suffixes

/-- One step takes a piece off the front of the text that is not empty. -/
theorem exists_piece_of_next? {s rest : List Char} {r : Except TokenError Token}
    (h : next? s = some (r, rest)) : ∃ piece, piece ≠ [] ∧ s = piece ++ rest := by
  unfold next? at h
  split at h
  · cases h
  · rename_i c tail hskip
    rw [Option.some.injEq] at h
    obtain ⟨gap, hgap⟩ := skipGap_suffix false s
    obtain ⟨others, hothers⟩ := read_suffix c tail
    rw [h] at hothers
    refine ⟨gap ++ c :: others, by simp, ?_⟩
    rw [← hgap, hskip, List.append_assoc, List.cons_append, hothers]

section Call

/-- What a call takes off, and that it takes nothing off only at the end, where nothing is left. -/
theorem exists_piece_call (s : List Char) : ∃ piece, s = piece ++ (call s).2 ∧
    ((call s).1 ≠ none → piece ≠ []) ∧ ((call s).1 = none → (call s).2 = []) := by
  cases h : next? s with
  | none =>
    have hcall : call s = (none, []) := by rw [call, h]
    rw [hcall]
    exact ⟨s, (List.append_nil s).symm, fun hne => absurd rfl hne, fun _ => rfl⟩
  | some result =>
    obtain ⟨r, rest⟩ := result
    have hcall : call s = (some r, rest) := by rw [call, h]
    obtain ⟨piece, hne, hs⟩ := exists_piece_of_next? h
    rw [hcall]
    exact ⟨piece, hs, fun _ => hne, fun hnone => nomatch hnone⟩

theorem call_nil : call [] = (none, []) := rfl

theorem steps_succ (n : Nat) (s : List Char) :
    steps (n + 1) s = (call s).1 :: steps n (call s).2 := by
  rw [steps, call]
  cases next? s with
  | none => rfl
  | some result => rfl

theorem readAll_eq (s : List Char) : readAll s = match (call s).1 with
    | none => .ok []
    | some (.error e) => .error e
    | some (.ok token) => (readAll (call s).2).map (token :: ·) := by
  cases h : next? s with
  | none => simp [readAll_of_end h, call, h]
  | some result =>
    obtain ⟨r, rest⟩ := result
    cases r with
    | error e => simp [readAll_of_fault h, call, h]
    | ok token => simp [readAll_of_token h, call, h]

end Call

section Runs

variable (s : List Char)

theorem left_append (n k : Nat) : left s (n + k) = left (left s n) k := by
  induction k with
  | zero => rfl
  | succ k ih => rw [← Nat.add_assoc, left, ih, left]

theorem left_succ (n : Nat) : left s (n + 1) = left (call s).2 n := by
  rw [Nat.add_comm, left_append]
  rfl

theorem steps_eq (n : Nat) : steps n s = (List.range n).map (found s) := by
  induction n generalizing s with
  | zero => rfl
  | succ n ih =>
    have htail : found (call s).2 = found s ∘ Nat.succ := by
      funext k
      rw [Function.comp, found, found, left_succ]
    rw [steps_succ, ih, htail, List.range_succ_eq_map, List.map_cons, List.map_map]
    rfl

/-- A call takes its piece off the front of what is left. -/
theorem left_eq_used_append (n : Nat) : left s n = used s n ++ left s (n + 1) := by
  obtain ⟨piece, hpiece, -⟩ := exists_piece_call (left s n)
  have hrest : left s n = piece ++ left s (n + 1) := hpiece
  have hused : used s n = piece := by
    rw [used]
    conv => lhs; rw [hrest, List.length_append, Nat.add_sub_cancel, List.take_left]
  rw [hused, ← hrest]

theorem used_ne_nil {n : Nat} (h : found s n ≠ none) : used s n ≠ [] := by
  obtain ⟨piece, hpiece, hne, -⟩ := exists_piece_call (left s n)
  have hused : used s n = piece :=
    List.append_cancel_right ((left_eq_used_append s n).symm.trans hpiece)
  rw [hused]
  exact hne h

/-- The pieces come one behind the other. -/
theorem eq_flatMap_used (n : Nat) : s = (List.range n).flatMap (used s) ++ left s n := by
  induction n with
  | zero => rfl
  | succ n ih =>
    rw [List.range_succ, List.flatMap_append, List.flatMap_singleton, List.append_assoc,
      ← left_eq_used_append, ← ih]

theorem length_left_le {n : Nat} (h : ∀ k < n, found s k ≠ none) :
    (left s n).length + n ≤ s.length := by
  induction n with
  | zero => exact Nat.le_refl _
  | succ n ih =>
    have hbefore := ih fun k hk => h k (Nat.lt_succ_of_lt hk)
    have hpiece := List.length_pos_iff.2 (used_ne_nil s (h n (Nat.lt_succ_self n)))
    have hlength := congrArg List.length (left_eq_used_append s n)
    rw [List.length_append] at hlength
    omega

/-- The end is found by one of as many calls as there are characters, or by the next one. -/
theorem exists_found_eq_none : ∃ n ≤ s.length, found s n = none := by
  by_contra hnone
  have hfound : ∀ k < s.length + 1, found s k ≠ none :=
    fun k hk he => hnone ⟨k, Nat.le_of_lt_succ hk, he⟩
  have hlength := length_left_le s hfound
  omega

theorem left_of_found_eq_none {n : Nat} (h : found s n = none) : left s (n + 1) = [] := by
  obtain ⟨-, -, -, hend⟩ := exists_piece_call (left s n)
  exact hend h

theorem left_nil (n : Nat) : left [] n = [] := by
  induction n with
  | zero => rfl
  | succ n ih => rw [left, ih, call_nil]

/-- Behind the end there is nothing to be found any more. -/
theorem found_eq_none_of_le {n k : Nat} (h : found s n = none) (hk : n ≤ k) : found s k = none := by
  rcases Nat.eq_or_lt_of_le hk with rfl | hlt
  · exact h
  · obtain ⟨m, rfl⟩ := Nat.exists_eq_add_of_le hlt
    rw [found, left_append, left_of_found_eq_none s h, left_nil, call_nil]

end Runs

section All

variable {s : List Char}

theorem readAll_eq_ok_iff {tokens : List Token} : readAll s = .ok tokens ↔
    steps (tokens.length + 1) s = tokens.map (fun token => some (.ok token)) ++ [none] := by
  induction tokens generalizing s with
  | nil =>
    rw [readAll_eq, List.length_nil, steps_succ, steps]
    cases (call s).1 with
    | none => simp
    | some r =>
      cases r with
      | error e => simp
      | ok token => cases readAll (call s).2 <;> simp [Except.map]
  | cons token tokens ih =>
    rw [readAll_eq, List.length_cons, steps_succ, List.map_cons, List.cons_append, List.cons.injEq,
      ← ih]
    cases (call s).1 with
    | none => simp
    | some r =>
      cases r with
      | error e => simp
      | ok first => cases readAll (call s).2 <;> simp [Except.map]

theorem readAll_eq_error_iff {e : TokenError} :
    readAll s = .error e ↔ ∃ tokens : List Token, steps (tokens.length + 1) s =
      tokens.map (fun token => some (.ok token)) ++ [some (.error e)] := by
  constructor
  · intro h
    fun_induction readAll s with
    | case1 s hend => cases h
    | case2 s fault rest hnext =>
      cases h
      refine ⟨[], ?_⟩
      rw [List.length_nil, steps_succ, call, hnext]
      rfl
    | case3 s token rest hnext ih =>
      cases hrest : readAll rest with
      | ok others =>
        rw [hrest] at h
        cases h
      | error fault =>
        rw [hrest] at h
        cases h
        obtain ⟨tokens, htokens⟩ := ih hrest
        refine ⟨token :: tokens, ?_⟩
        rw [List.length_cons, steps_succ, call, hnext, htokens]
        rfl
  · rintro ⟨tokens, h⟩
    induction tokens generalizing s with
    | nil =>
      rw [List.length_nil, steps_succ] at h
      rw [readAll_eq, (List.cons.inj h).1]
    | cons token tokens ih =>
      rw [List.length_cons, steps_succ] at h
      obtain ⟨hfirst, hrest⟩ := List.cons.inj h
      rw [readAll_eq, hfirst]
      simp only [ih hrest]
      rfl

end All

/-- Every call but those at the end of the text takes off a piece that is not empty, and the pieces
make up the text. The end is therefore reached by as many calls as there are characters, and no call
finds anything behind it. All tokens of a text are those of its calls up to the end, and a fault is
that of the first call that finds one. -/
theorem calls_advance (s : List Char) :
    (∀ n, steps n s = (List.range n).map (found s)) ∧
    (∀ n, left s n = used s n ++ left s (n + 1) ∧ (found s n ≠ none → used s n ≠ [])) ∧
    (∀ n, s = (List.range n).flatMap (used s) ++ left s n) ∧
    (∀ n, found s n = none → s = (List.range (n + 1)).flatMap (used s)) ∧
    (∃ n ≤ s.length, found s n = none) ∧
    (∀ n k, found s n = none → n ≤ k → found s k = none) ∧
    (∀ tokens, readAll s = .ok tokens ↔
      steps (tokens.length + 1) s = tokens.map (fun token => some (.ok token)) ++ [none]) ∧
    ∀ e, readAll s = .error e ↔ ∃ tokens : List Token,
      steps (tokens.length + 1) s =
        tokens.map (fun token => some (.ok token)) ++ [some (.error e)] := by
  have hpieces (n : Nat) : left s n = used s n ++ left s (n + 1) ∧
      (found s n ≠ none → used s n ≠ []) := ⟨left_eq_used_append s n, used_ne_nil s⟩
  have hwhole (n : Nat) (h : found s n = none) : s = (List.range (n + 1)).flatMap (used s) := by
    have hend := eq_flatMap_used s (n + 1)
    rwa [left_of_found_eq_none s h, List.append_nil] at hend
  exact ⟨steps_eq s, hpieces, eq_flatMap_used s, hwhole, exists_found_eq_none s,
    fun _ _ => found_eq_none_of_le s, fun _ => readAll_eq_ok_iff, fun _ => readAll_eq_error_iff⟩

example : steps 5 "a & \"b".toList = [some (.ok (.word "a")), some (.error (.unexpected '&')),
    some (.error .unterminated), none, none] := by decide +kernel

end SchemaQuery.Token
