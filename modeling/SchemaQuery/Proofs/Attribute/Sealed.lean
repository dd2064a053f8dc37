import SchemaQuery.Proofs.Attribute.Pieces
import SchemaQuery.Proofs.Token.Grammar

/-!
# Quotes in argument texts

The scan of a line and the reader of tokens have different views of an argument text: the reader
knows comments in it and the scan does not. A comment runs to the end of the line, though, so on one
line it only hides quotes from the reader, and outside of comments both end a quoted text at the
same quote.
-/

set_option autoImplicit false

namespace SchemaQuery

namespace Attributes

theorem mem_of_mem_foldl {list : List Attribute} {as : Attributes} {a : Attribute}
    (h : a ∈ (list.foldl insert as).items) : a ∈ as.items ∨ a ∈ list := by
  induction list generalizing as with
  | nil => exact Or.inl h
  | cons b list ih =>
    rcases ih h with hmem | hmem
    · by_cases hb : b.marker ∈ as.items.map Attribute.marker
      · rw [insert_of_mem hb] at hmem
        exact Or.inl hmem
      · rw [insert_items hb, List.mem_append, List.mem_singleton] at hmem
        rcases hmem with hmem | rfl
        · exact Or.inl hmem
        · exact Or.inr List.mem_cons_self
    · exact Or.inr (List.mem_cons_of_mem _ hmem)

theorem mem_of_mem_ofList {list : List Attribute} {a : Attribute} (h : a ∈ (ofList list).items) :
    a ∈ list := by
  rcases mem_of_mem_foldl h with hnone | hmem
  · cases hnone
  · exact hmem

end Attributes

namespace Attribute

open SchemaQuery.Unicode SchemaQuery.Text
open Token (Leads Lexeme Spells NeverCloses quoted?)

inductive Sealed : List Char → Prop
  | nil : Sealed []
  | plain {c : Char} {s : List Char} : c ≠ '"' → Sealed s → Sealed (c :: s)
  | quoted {q s : List Char} : Closed q → Sealed s → Sealed ('"' :: (q ++ s))

theorem Sealed.append {s t : List Char} (hs : Sealed s) (ht : Sealed t) : Sealed (s ++ t) := by
  induction hs with
  | nil => exact ht
  | plain hc _ ih => exact .plain hc ih
  | quoted hq _ ih =>
    rw [List.cons_append, List.append_assoc]
    exact .quoted hq ih

theorem Balanced.sealed {s : List Char} (h : Balanced s) : Sealed s := by
  induction h with
  | nil => exact .nil
  | plain hquote _ _ _ ih => exact .plain hquote ih
  | quoted hq _ ih => exact .quoted hq ih
  | group _ _ ihs iht => exact .plain (by decide) (ihs.append (.plain (by decide) iht))

section Quotes

/-- What closes a text for the scan closes it for the reader of tokens. -/
theorem Closed.exists_spells {q : List Char} (h : Closed q) :
    ∃ value spelled, Spells value spelled ∧ q = spelled ++ ['"'] := by
  induction h with
  | quote => exact ⟨[], [], .nil, rfl⟩
  | plain hquote hbackslash _ ih =>
    obtain ⟨value, spelled, hs, rfl⟩ := ih
    exact ⟨_, _, .plain hquote hbackslash hs, rfl⟩
  | escaped _ ih =>
    obtain ⟨value, spelled, hs, rfl⟩ := ih
    exact ⟨_, _, .escaped (Token.pair_iff.2 rfl) hs, rfl⟩

theorem quoted?_of_closed {q : List Char} (h : Closed q) (rest : List Char) :
    ∃ value, quoted? (q ++ rest) = some (value, rest) := by
  obtain ⟨value, spelled, hs, rfl⟩ := h.exists_spells
  rw [List.append_assoc]
  exact ⟨value, Token.quoted?_of_spells hs rest⟩

end Quotes

namespace Sealed

variable {s text rest last : List Char}

/-- The quote that opens a text is closed by the one that the scan finds. -/
theorem of_quote (h : Sealed ('"' :: s)) : ∃ q rest, Closed q ∧ s = q ++ rest ∧ Sealed rest := by
  generalize ht : '"' :: s = t at h
  cases h with
  | nil => cases ht
  | plain hc _ =>
    cases ht
    exact absurd rfl hc
  | quoted hq hrest =>
    cases ht
    exact ⟨_, _, hq, rfl, hrest⟩

theorem of_plain {c : Char} (h : Sealed (c :: s)) (hc : c ≠ '"') : Sealed s := by
  generalize ht : c :: s = t at h
  cases h with
  | nil => cases ht
  | plain _ hrest =>
    cases ht
    exact hrest
  | quoted _ _ =>
    cases ht
    exact absurd rfl hc

theorem behind_plain (h : Sealed (text ++ rest)) (hquote : '"' ∉ text) : Sealed rest := by
  induction text with
  | nil => exact h
  | cons c text ih =>
    rw [List.mem_cons, not_or] at hquote
    exact ih (h.of_plain (Ne.symm hquote.1)) hquote.2

theorem behind_closed (h : Sealed ('"' :: (text ++ rest))) (htext : Closed text) :
    Sealed rest := by
  obtain ⟨q, behind, hq, heq, hbehind⟩ := h.of_quote
  have hskip := skipQuoted_of_closed htext rest
  rw [heq, skipQuoted_of_closed hq] at hskip
  rwa [← hskip]

theorem quote_notMem {p : Char → Bool} (hp : p '"' = false) (hs : ∀ c ∈ s, p c = true) :
    '"' ∉ s := by
  intro hmem
  rw [hs _ hmem] at hp
  cases hp

/-- On one line a gap is white space alone. -/
theorem quote_notMem_gap (hgap : Gap text) (hline : '\n' ∉ text) : '"' ∉ text := by
  induction hgap with
  | nil => exact List.not_mem_nil
  | white hc _ ih =>
    rw [List.mem_cons, not_or] at hline ⊢
    refine ⟨?_, ih hline.2⟩
    rintro rfl
    cases hc
  | comment => exact absurd (by simp) hline

/-- No token ends inside a quoted text. -/
theorem behind_lexeme {token : Token} (h : Sealed (text ++ rest))
    (htoken : Lexeme token text rest) : Sealed rest := by
  cases htoken with
  | @mark c _ _ hmem =>
    have hmarks : ∀ mark ∈ Token.marks, mark.1 ≠ '"' := by decide
    refine h.behind_plain ?_
    rw [List.mem_singleton]
    exact Ne.symm (hmarks _ hmem)
  | text hs =>
    rw [List.cons_append] at h
    exact h.behind_closed (closed_of_spells hs)
  | @number sign digits _ digit hsign hdigit hdigits _ =>
    refine h.behind_plain ?_
    have hsigned : '"' ∉ sign := by
      rcases hsign with rfl | rfl
      · exact List.not_mem_nil
      · decide
    have hnumeral : '"' ∉ Token.numerals := by decide
    have hmore : '"' ∉ digits := by
      intro hquote
      rcases hdigits _ hquote with hmem | hdot
      · exact hnumeral hmem
      · exact absurd hdot (by decide)
    have hfirst : '"' ≠ digit := by
      rintro rfl
      exact hnumeral hdigit
    simp [hsigned, hmore, hfirst]
  | @word first others _ hfirst hothers _ =>
    refine h.behind_plain ?_
    have hmore : '"' ∉ others := quote_notMem (p := isWordChar) (by decide) hothers
    have hne : '"' ≠ first := by
      rintro rfl
      exact absurd hfirst (by decide)
    simp [hmore, hne]

/-- Wherever the reader of tokens comes to on a line, it stands outside the quoted texts of the
scan. -/
theorem behind_tokens {tokens : List Token} (hleads : Leads s tokens last) (h : Sealed s)
    (hline : '\n' ∉ s) : Sealed last := by
  induction hleads with
  | gap hg =>
    rw [List.mem_append, not_or] at hline
    exact h.behind_plain (quote_notMem_gap hg hline.1)
  | token hg hlexeme _ ih =>
    simp only [List.mem_append, not_or] at hline
    have hlexemes := h.behind_plain (quote_notMem_gap hg hline.1)
    exact ih (hlexemes.behind_lexeme hlexeme) hline.2.2

/-- The reader is never left in an open text. -/
theorem readAll_result (h : Sealed s) (hline : '\n' ∉ s) :
    (∃ tokens, Token.readAll s = .ok tokens) ∨ ∃ c, Token.readAll s = .error (.unexpected c) := by
  obtain ⟨tokens, last, result, hleads, hhalts⟩ := Token.exists_leads s
  rw [Token.readAll_of_leads hleads, Token.readAll_of_halts hhalts]
  cases hhalts with
  | ended _ => exact Or.inl ⟨_, rfl⟩
  | unexpected _ => exact Or.inr ⟨_, rfl⟩
  | @unterminated rest hopen =>
    obtain ⟨q, behind, hq, rfl, -⟩ := (behind_tokens hleads h hline).of_quote
    obtain ⟨value, hquoted⟩ := quoted?_of_closed hq behind
    rw [Token.neverCloses_iff, hquoted] at hopen
    cases hopen

end Sealed

/-- At every quote that the reader of tokens comes to, it ends the text where the scan does. -/
def EndsTextsAlike (s : List Char) : Prop :=
  ∀ tokens rest, Leads s tokens ('"' :: rest) →
    ∃ value, quoted? rest = some (value, skipQuoted rest)

theorem Sealed.endsTextsAlike {s : List Char} (h : Sealed s) (hline : '\n' ∉ s) :
    EndsTextsAlike s := by
  intro tokens rest hleads
  obtain ⟨q, behind, hq, rfl, -⟩ := (h.behind_tokens hleads hline).of_quote
  rw [skipQuoted_of_closed hq]
  exact quoted?_of_closed hq behind

section Pieces

variable {s : List Char} {pieces : List Piece} {piece : Piece}

theorem Splits.stands (h : Splits s pieces) (hpiece : piece ∈ pieces) :
    ∃ before rest, s = before ++ (piece.text ++ rest) ∧ piece.Stands rest := by
  induction h with
  | nil => cases hpiece
  | @cons first rest others hfirst _ ih =>
    rcases List.mem_cons.1 hpiece with rfl | hmem
    · exact ⟨[], rest, rfl, hfirst⟩
    · obtain ⟨before, behind, rfl, hstands⟩ := ih hmem
      exact ⟨first.text ++ before, behind, by rw [List.append_assoc], hstands⟩

/-- The argument text of a closed piece is a part of the text, and every quoted text in it is
closed. -/
theorem Splits.sealed_args {block : Bool} {name args : List Char} (h : Splits s pieces)
    (hpiece : .named block name (.closed args) ∈ pieces) :
    Sealed args ∧ ∀ c ∈ args, c ∈ s := by
  obtain ⟨before, rest, rfl, hstands⟩ := h.stands hpiece
  cases hstands with
  | named _ _ htail =>
    have hbalanced : Balanced args := htail
    refine ⟨hbalanced.sealed, fun c hc => ?_⟩
    simp [Piece.text, Tail.text, hc]

theorem Splits.exists_piece {a : Attribute} (h : Splits s pieces) (ha : a ∈ (scan s).items) :
    ∃ piece ∈ pieces, piece.attribute? = some a := by
  rw [scan, occurrences_of_splits h] at ha
  exact List.mem_filterMap.1 (Attributes.mem_of_mem_ofList ha)

end Pieces

/-- The attributes that a scan keeps stand in the one cut of the text into pieces. In a text of one
line every argument text that is closed by its parenthesis is read as tokens, or up to a character
that begins none. It is never left open, for scan and reader end the texts in it alike. -/
theorem closed_arguments_read (s : List Char) (hline : '\n' ∉ s) :
    ∃ pieces, Splits s pieces ∧ (∀ others, Splits s others → others = pieces) ∧
      (∀ a ∈ (scan s).items, ∃ piece ∈ pieces, piece.attribute? = some a) ∧
      ∀ block name args, Piece.named block name (.closed args) ∈ pieces →
        EndsTextsAlike args ∧ ((∃ tokens, Token.readAll args = .ok tokens) ∨
          ∃ c, Token.readAll args = .error (.unexpected c)) := by
  obtain ⟨pieces, hpieces⟩ := exists_splits s
  refine ⟨pieces, hpieces, fun others hothers => splits_unique hpieces hothers,
    fun a ha => hpieces.exists_piece ha, ?_⟩
  intro block name args hpiece
  obtain ⟨hsealed, hpart⟩ := hpieces.sealed_args hpiece
  have hargs : '\n' ∉ args := fun hmem => hline (hpart _ hmem)
  exact ⟨hsealed.endsTextsAlike hargs, hsealed.readAll_result hargs⟩

def notedArgs : List Char := "a // \")\"".toList

def notedLine : List Char := "@r(a // \")\")".toList

theorem closed_arguments_read_noted : '\n' ∉ notedLine ∧
    Splits notedLine [.named false ['r'] (.closed notedArgs)] ∧ EndsTextsAlike notedArgs ∧
      ((∃ tokens, Token.readAll notedArgs = .ok tokens) ∨
        ∃ c, Token.readAll notedArgs = .error (.unexpected c)) := by
  have hline : '\n' ∉ notedLine := by decide
  have hargs : Balanced notedArgs :=
    .plain (by decide) (by decide) (by decide) <| .plain (by decide) (by decide) (by decide) <|
      .plain (by decide) (by decide) (by decide) <| .plain (by decide) (by decide) (by decide) <|
      .plain (by decide) (by decide) (by decide) <|
      .quoted (.plain (by decide) (by decide) .quote) .nil
  have hstands : (Piece.named false ['r'] (.closed notedArgs)).Stands [] :=
    .named (by decide) (List.all_eq_true.1 (by decide)) hargs
  have hsplits : Splits notedLine [.named false ['r'] (.closed notedArgs)] := .cons hstands .nil
  obtain ⟨pieces, -, honly, -, hread⟩ := closed_arguments_read notedLine hline
  have hpieces := honly _ hsplits
  exact ⟨hline, hsplits, hread false ['r'] notedArgs (hpieces ▸ List.mem_singleton.2 rfl)⟩

/-- Over two lines a comment may hide one quote and not the other. -/
example : (scan "@r(//\"\n\")".toList).args? "@r" = some "//\"\n\"" ∧
    Token.readAll "//\"\n\"".toList = .error .unterminated := by decide +kernel

end Attribute

end SchemaQuery
