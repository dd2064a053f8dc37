import SchemaQuery.Json.NumberText
import SchemaQuery.Proofs.Text.Cuts

/-!
# Numbers are read back

The characters of a number as written are read as the number that they spell, up to a character that
could not prolong it.
-/

set_option autoImplicit false

namespace SchemaQuery.Json

open SchemaQuery.Unicode SchemaQuery.Text

def Stops (rest : List Char) : Prop :=
  ∀ c ∈ rest.head?, isDecimalDigit c = false ∧ c ≠ '.' ∧ c ≠ 'e' ∧ c ≠ 'E'

theorem stops_nil : Stops [] := fun _ h => by cases h

theorem stops_cons {c : Char} (h : isDecimalDigit c = false ∧ c ≠ '.' ∧ c ≠ 'e' ∧ c ≠ 'E')
    (s : List Char) : Stops (c :: s) := by
  intro d hd
  cases hd
  exact h

def AllDigits (ds : List Char) : Prop := ∀ c ∈ ds, isDecimalDigit c = true

namespace NumberText

def fractionChars : List Char → List Char
  | [] => []
  | ds => '.' :: ds

def exponentChars : Option (Bool × List Char) → List Char
  | none => []
  | some (down, ds) => 'e' :: (if down then '-' else '+') :: ds

def chars (n : NumberText) : List Char :=
  (if n.negative then ['-'] else [])
    ++ (n.whole ++ (fractionChars n.fraction ++ exponentChars n.exponent))

structure Proper (n : NumberText) : Prop where
  whole_ne : n.whole ≠ []
  whole_digits : AllDigits n.whole
  whole_zero : n.whole.head? = some '0' → n.whole = ['0']
  fraction_digits : AllDigits n.fraction
  exponent_digits : ∀ e ∈ n.exponent, e.2 ≠ [] ∧ AllDigits e.2

theorem digits_append {ds rest : List Char} (hne : ds ≠ []) (hds : AllDigits ds)
    (hrest : ∀ c ∈ rest.head?, isDecimalDigit c = false) :
    digits (ds ++ rest) = .ok (ds, rest) := by
  obtain ⟨htake, hdrop⟩ := cut_append hds hrest
  unfold digits
  rw [htake, hdrop]
  cases ds with
  | nil => exact absurd rfl hne
  | cons d ds => rfl

theorem exponentPart_chars {exponent : Option (Bool × List Char)}
    (h : ∀ e ∈ exponent, e.2 ≠ [] ∧ AllDigits e.2) {rest : List Char} (hrest : Stops rest) :
    exponentPart (exponentChars exponent ++ rest) = .ok (exponent, rest) := by
  cases exponent with
  | none =>
    cases rest with
    | nil => rfl
    | cons c rest =>
      have hc : ¬ (c = 'e' ∨ c = 'E') := by
        obtain ⟨-, -, he, hE⟩ := hrest c rfl
        simp [he, hE]
      rw [exponentChars, List.nil_append, exponentPart, if_neg hc]
  | some e =>
    obtain ⟨down, ds⟩ := e
    obtain ⟨hne, hds⟩ := h _ rfl
    have hdigits := digits_append hne hds fun c hc => (hrest c hc).1
    rw [exponentChars, List.cons_append, List.cons_append, exponentPart, if_pos (Or.inl rfl)]
    cases down with
    | true =>
      show (digits (ds ++ rest) >>= fun r => pure (some (true, r.1), r.2)) = _
      rw [hdigits]
      rfl
    | false =>
      show (digits (ds ++ rest) >>= fun r => pure (some (false, r.1), r.2)) = _
      rw [hdigits]
      rfl

/-- Behind the fraction there is an exponent or the end of the number. -/
theorem exponentChars_head (exponent : Option (Bool × List Char)) {rest : List Char}
    (hrest : Stops rest) :
    ∀ c ∈ (exponentChars exponent ++ rest).head?, isDecimalDigit c = false ∧ c ≠ '.' := by
  intro c hc
  cases exponent with
  | none => exact ⟨(hrest c hc).1, (hrest c hc).2.1⟩
  | some e =>
    cases hc
    decide

theorem fractionPart_chars {fraction : List Char} (h : AllDigits fraction) {rest : List Char}
    (hrest : ∀ c ∈ rest.head?, isDecimalDigit c = false ∧ c ≠ '.') :
    fractionPart (fractionChars fraction ++ rest) = .ok (fraction, rest) := by
  cases fraction with
  | nil =>
    cases rest with
    | nil => rfl
    | cons c rest =>
      rw [fractionChars, List.nil_append, fractionPart]
      exact fun t he => (hrest c rfl).2 (List.cons.inj he).1
  | cons d ds =>
    rw [fractionChars, List.cons_append, fractionPart]
    · exact digits_append (by simp) h fun c hc => (hrest c hc).1
    · simp

theorem fractionChars_head (fraction : List Char) {rest : List Char}
    (hrest : ∀ c ∈ rest.head?, isDecimalDigit c = false) :
    ∀ c ∈ (fractionChars fraction ++ rest).head?, isDecimalDigit c = false := by
  intro c hc
  cases fraction with
  | nil => exact hrest c hc
  | cons d ds =>
    cases hc
    decide

theorem wholePart_append {whole : List Char} (hne : whole ≠ []) (h : AllDigits whole)
    (hzero : whole.head? = some '0' → whole = ['0']) {rest : List Char}
    (hrest : ∀ c ∈ rest.head?, isDecimalDigit c = false) :
    wholePart (whole ++ rest) = .ok (whole, rest) := by
  cases whole with
  | nil => exact absurd rfl hne
  | cons d ds =>
    by_cases hd : d = '0'
    · subst hd
      have hds : ds = [] := (List.cons.inj (hzero rfl)).2
      subst hds
      have hdigit : rest.head?.any isDecimalDigit = false := by
        cases hhead : rest.head? with
        | none => rfl
        | some c => exact hrest c hhead
      rw [List.singleton_append, wholePart, hdigit]
      rfl
    · rw [← digits_append hne h hrest, List.cons_append, wholePart]
      exact fun t he => hd (List.cons.inj he).1

/-- A number is read back from its characters. -/
theorem read_chars {n : NumberText} (h : n.Proper) {rest : List Char} (hrest : Stops rest) :
    read (n.chars ++ rest) = .ok (n, rest) := by
  have hexponent := exponentPart_chars h.exponent_digits hrest
  have hhead := exponentChars_head n.exponent hrest
  have hfraction := fractionPart_chars h.fraction_digits hhead
  have hwhole := wholePart_append h.whole_ne h.whole_digits h.whole_zero
    (fractionChars_head n.fraction fun c hc => (hhead c hc).1)
  obtain ⟨negative, whole, fraction, exponent⟩ := n
  dsimp only at hexponent hfraction hwhole h
  cases negative with
  | true =>
    simp only [chars, if_true, List.append_assoc, List.cons_append, List.nil_append]
    unfold read
    simp only [hwhole, hfraction, hexponent, bind, Except.bind, pure, Except.pure]
  | false =>
    have hopen : ∀ t, whole ++ (fractionChars fraction ++ (exponentChars exponent ++ rest)) ≠
        '-' :: t := by
      intro t heq
      cases whole with
      | nil => exact h.whole_ne rfl
      | cons d ds =>
        have hd := h.whole_digits d List.mem_cons_self
        rw [(List.cons.inj heq).1] at hd
        cases hd
    simp only [chars, Bool.false_eq_true, if_false, List.append_assoc, List.nil_append]
    unfold read
    split
    rename_i negative tail heq
    split at heq
    · rename_i t ht
      exact absurd ht (hopen t)
    · cases heq
      simp only [hwhole, hfraction, hexponent, bind, Except.bind, pure, Except.pure]

end NumberText

end SchemaQuery.Json
