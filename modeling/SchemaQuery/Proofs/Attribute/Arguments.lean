import SchemaQuery.Proofs.Attribute.Listed
import SchemaQuery.Proofs.Attribute.Written

/-!
# Arguments that are written down

Texts, words and lists of words, with or without names, are read back from the text that spells
them between commas. Such a text is balanced, and so it may stand in the parentheses of an
attribute.
-/

set_option autoImplicit false

namespace SchemaQuery

open SchemaQuery.Unicode SchemaQuery.Text

namespace Argument

open Token

def writtenValue (spell : List Char → List Char) : ArgumentValue → List Char
  | .text s => '"' :: (spell s.toList ++ ['"'])
  | .word name => name.toList
  | .number digits => digits.toList
  | .list words => '[' :: (commaRow (words.map String.toList) ++ [']'])
  | .other => []

def writtenName : Option String → List Char
  | none => []
  | some name => name.toList ++ [':', ' ']

def written (spell : List Char → List Char) (a : Argument) : List Char :=
  writtenName a.name ++ writtenValue spell a.value

def Sound (a : Argument) : Prop :=
  (∀ name ∈ a.name, isName name.toList = true) ∧
    match a.value with
    | .text _ => True
    | .word name => isName name.toList = true
    | .list words => ∀ word ∈ words, isName word.toList = true
    | .number _ => False
    | .other => False

def wordTokens (words : List String) : List Token :=
  commaTokens (words.map fun word => [.word word])

def valueTokens : ArgumentValue → List Token
  | .text s => [.text s]
  | .word name => [.word name]
  | .number digits => [.number digits]
  | .list words => .leftBracket :: (wordTokens words ++ [.rightBracket])
  | .other => []

def tokens (a : Argument) : List Token := nameTokens a.name ++ valueTokens a.value

variable {spell : List Char → List Char}

theorem reads_word {word : String} (h : isName word.toList = true) :
    Reads word.toList [.word word] := by
  have hr := reads_name h
  rwa [String.ofList_toList] at hr

theorem reads_value (hspell : ∀ s, Spells s (spell s)) {a : Argument} (ha : a.Sound) :
    Reads (writtenValue spell a.value) (valueTokens a.value) := by
  obtain ⟨-, hv⟩ := ha
  cases h : a.value with
  | text s =>
    have hr := reads_text (hspell s.toList)
    rwa [String.ofList_toList] at hr
  | word name =>
    rw [h] at hv
    exact reads_word hv
  | list words =>
    rw [h] at hv
    have hwords := reads_commaRow (fun word hw => reads_word (hv word hw))
    have hclose := reads_mark (c := ']') rfl reads_nil
    exact reads_mark rfl (reads_append hwords hclose (opensWord_cons (by decide) _))
  | number digits =>
    rw [h] at hv
    exact hv.elim
  | other =>
    rw [h] at hv
    exact hv.elim

theorem reads_written (hspell : ∀ s, Spells s (spell s)) {a : Argument} (ha : a.Sound) :
    Reads (a.written spell) a.tokens := by
  have hv := reads_value hspell ha
  obtain ⟨hname, -⟩ := ha
  unfold written tokens
  cases h : a.name with
  | none => exact hv
  | some name =>
    have hcolon := reads_mark (c := ':') rfl (reads_blank hv)
    have hr := reads_append (reads_word (hname name h)) hcolon
      (opensWord_cons (by decide) _)
    simpa [writtenName, nameTokens] using hr

theorem nested_wordTokens (words : List String) :
    Nested (wordTokens words) ∧ outerWords (wordTokens words) = words := by
  induction words with
  | nil => exact ⟨.nil, rfl⟩
  | cons word words ih =>
    obtain ⟨hnested, hwords⟩ := ih
    cases words with
    | nil => exact ⟨.plain rfl rfl .nil, rfl⟩
    | cons next words =>
      have hsplit : wordTokens (word :: next :: words) =
          .word word :: .comma :: wordTokens (next :: words) := by
        simp [wordTokens, commaTokens]
      refine ⟨hsplit ▸ .plain rfl rfl (.plain rfl rfl hnested), ?_⟩
      rw [outerWords, hsplit, outside_plain rfl rfl, outside_plain rfl rfl]
      exact congrArg (word :: ·) hwords

theorem denotes_valueTokens {a : Argument} (ha : a.Sound) :
    Denotes (valueTokens a.value) a.value := by
  obtain ⟨-, hv⟩ := ha
  cases hval : a.value with
  | text s => exact .text s
  | word name => exact .path name []
  | list words =>
    obtain ⟨hnested, hwords⟩ := nested_wordTokens words
    have hlist := Denotes.list hnested
    rwa [hwords] at hlist
  | number digits =>
    rw [hval] at hv
    exact hv.elim
  | other =>
    rw [hval] at hv
    exact hv.elim

theorem listed_commaTokens {as : List Argument} (h : ∀ a ∈ as, a.Sound) :
    Listed as (commaTokens (as.map tokens)) := by
  induction as with
  | nil => exact .nil
  | cons a as ih =>
    have ha := denotes_valueTokens (h a List.mem_cons_self)
    have hrest := ih fun b hb => h b (List.mem_cons_of_mem _ hb)
    cases as with
    | nil =>
      have hone := Listed.argument ha (Or.inl rfl) hrest
      rwa [List.append_nil] at hone
    | cons b as =>
      have hmore := Listed.argument ha (Or.inr ⟨_, rfl⟩) hrest.comma
      rwa [← List.append_assoc] at hmore

def row (spell : List Char → List Char) (as : List Argument) : List Char :=
  commaRow (as.map (written spell))

/-- Arguments are read back from their text. -/
theorem readAll_row (hspell : ∀ s, Spells s (spell s)) {as : List Argument}
    (h : ∀ a ∈ as, a.Sound) : readAll (row spell as) = .ok as := by
  have hr := reads_commaRow (fun a ha => reads_written hspell (h a ha))
  have ht : Token.readAll (row spell as) = .ok (commaTokens (as.map tokens)) := readAll_of_reads hr
  rw [readAll, ht]
  exact congrArg Except.ok (ofTokens_of_listed (listed_commaTokens h))

theorem inline_commaRow {parts : List (List Char)} (h : ∀ p ∈ parts, Inline p) :
    Inline (commaRow parts) := by
  induction parts with
  | nil => exact inline_nil
  | cons p parts ih =>
    have hp : Inline p := h p List.mem_cons_self
    have hrest := ih fun q hq => h q (List.mem_cons_of_mem _ hq)
    cases parts with
    | nil => exact hp
    | cons q parts =>
      exact inline_append hp (inline_cons (by decide) (inline_cons (by decide) hrest))

theorem inline_of_isName {s : List Char} (h : isName s = true) : Inline s :=
  inline_of_isWordChar fun _ hc => isWordChar_of_isName h hc

theorem inline_written {a : Argument} (ha : a.Sound)
    (htext : ∀ s, a.value = .text s → Inline (spell s.toList)) : Inline (a.written spell) := by
  obtain ⟨hname, hv⟩ := ha
  apply inline_append
  · cases h : a.name with
    | none => exact inline_nil
    | some name => exact inline_append (inline_of_isName (hname name h)) (by decide)
  · cases h : a.value with
    | text s =>
      exact inline_cons (by decide) (inline_append (htext s h) (by decide))
    | word name =>
      rw [h] at hv
      exact inline_of_isName hv
    | list words =>
      rw [h] at hv
      have hwords : Inline (commaRow (words.map String.toList)) := by
        apply inline_commaRow
        intro p hp
        obtain ⟨word, hw, rfl⟩ := List.mem_map.1 hp
        exact inline_of_isName (hv word hw)
      exact inline_cons (by decide) (inline_append hwords (by decide))
    | number digits =>
      rw [h] at hv
      exact hv.elim
    | other =>
      rw [h] at hv
      exact hv.elim

theorem inline_row {as : List Argument} (h : ∀ a ∈ as, a.Sound)
    (htext : ∀ a ∈ as, ∀ s, a.value = .text s → Inline (spell s.toList)) :
    Inline (row spell as) := by
  apply inline_commaRow
  intro p hp
  obtain ⟨a, ha, rfl⟩ := List.mem_map.1 hp
  exact inline_written (h a ha) (htext a ha)

end Argument

namespace Attribute

def isPlain (s : List Char) : Bool := s.all fun c => c != '"' && c != '(' && c != ')'

theorem balanced_of_plain {s : List Char} (h : isPlain s = true) : Balanced s := by
  induction s with
  | nil => exact Balanced.nil
  | cons c s ih =>
    simp only [isPlain, List.all_cons, Bool.and_eq_true, bne_iff_ne] at h
    exact Balanced.plain h.1.1.1 h.1.1.2 h.1.2 (ih (by simpa [isPlain] using h.2))

theorem balanced_of_isName {s : List Char} (h : Token.isName s = true) : Balanced s := by
  apply balanced_of_plain
  apply List.all_eq_true.2
  intro c hc
  have hw := Token.isWordChar_of_isName h hc
  have hquote : c ≠ '"' := ne_of_isWordChar hw (by decide)
  have hopen : c ≠ '(' := ne_of_isWordChar hw (by decide)
  have hclose : c ≠ ')' := ne_of_isWordChar hw (by decide)
  simp [hquote, hopen, hclose]

theorem balanced_commaRow {parts : List (List Char)} (h : ∀ p ∈ parts, Balanced p) :
    Balanced (Token.commaRow parts) := by
  induction parts with
  | nil => exact Balanced.nil
  | cons p parts ih =>
    have hp : Balanced p := h p List.mem_cons_self
    have hrest := ih fun q hq => h q (List.mem_cons_of_mem _ hq)
    cases parts with
    | nil => exact hp
    | cons q parts =>
      have hcomma : Balanced (',' :: ' ' :: Token.commaRow (q :: parts)) :=
        balanced_append (balanced_of_plain (s := [',', ' ']) rfl) hrest
      exact balanced_append hp hcomma

theorem balanced_written {spell : List Char → List Char} (hspell : ∀ s, Token.Spells s (spell s))
    {a : Argument} (ha : a.Sound) : Balanced (a.written spell) := by
  obtain ⟨hname, hv⟩ := ha
  apply balanced_append
  · cases h : a.name with
    | none => exact Balanced.nil
    | some name =>
      exact balanced_append (balanced_of_isName (hname name h))
        (balanced_of_plain (s := [':', ' ']) rfl)
  · cases h : a.value with
    | text s =>
      have hq := Balanced.quoted (closed_of_spells (hspell s.toList)) Balanced.nil
      rwa [List.append_nil] at hq
    | word name =>
      rw [h] at hv
      exact balanced_of_isName hv
    | list words =>
      rw [h] at hv
      have hwords : Balanced (Token.commaRow (words.map String.toList)) := by
        apply balanced_commaRow
        intro p hp
        obtain ⟨word, hw, rfl⟩ := List.mem_map.1 hp
        exact balanced_of_isName (hv word hw)
      have hclose : Balanced [']'] := balanced_of_plain rfl
      exact Balanced.plain (by decide) (by decide) (by decide) (balanced_append hwords hclose)
    | number digits =>
      rw [h] at hv
      exact hv.elim
    | other =>
      rw [h] at hv
      exact hv.elim

theorem balanced_row {spell : List Char → List Char} (hspell : ∀ s, Token.Spells s (spell s))
    {as : List Argument} (h : ∀ a ∈ as, a.Sound) : Balanced (Argument.row spell as) := by
  apply balanced_commaRow
  intro p hp
  obtain ⟨a, ha, rfl⟩ := List.mem_map.1 hp
  exact balanced_written hspell (h a ha)

end Attribute

end SchemaQuery
