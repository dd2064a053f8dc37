import SchemaQuery.Proofs.Token.Gap

/-!
# The language of tokens

A text is cut into gaps and the spellings of tokens. Each spelling is judged with the text that
really follows it, so no word or number is cut short. The reader finds exactly such cuts: the tokens
of one that reaches the end of the text, or else the character at which every cut comes to a stop.
-/

set_option autoImplicit false

namespace SchemaQuery.Token

open SchemaQuery.Unicode SchemaQuery.Text

def marks : List (Char × Token) :=
  [('(', leftParen), (')', rightParen), ('[', leftBracket), (']', rightBracket), (',', comma),
    (':', colon), ('=', equals), ('.', dot)]

def numerals : List Char := ['0', '1', '2', '3', '4', '5', '6', '7', '8', '9']

inductive Lexeme : (token : Token) → (text rest : List Char) → Prop
  | mark {c : Char} {token : Token} {rest : List Char} : (c, token) ∈ marks →
      Lexeme token [c] rest
  | text {value spelled rest : List Char} : Spells value spelled →
      Lexeme (.text (String.ofList value)) ('"' :: (spelled ++ ['"'])) rest
  | number {sign digits rest : List Char} {digit : Char} : sign = [] ∨ sign = ['-'] →
      digit ∈ numerals → (∀ c ∈ digits, c ∈ numerals ∨ c = '.') →
      (∀ c ∈ rest.head?, c ∉ numerals ∧ c ≠ '.') →
      Lexeme (.number (String.ofList (sign ++ digit :: digits))) (sign ++ digit :: digits) rest
  | word {first : Char} {others rest : List Char} : isWordStart first = true →
      (∀ c ∈ others, isWordChar c = true) → (∀ c ∈ rest.head?, isWordChar c = false) →
      Lexeme (.word (String.ofList (first :: others))) (first :: others) rest

/-- Gaps and the spellings of the tokens lead from the front of the text to `last`. -/
inductive Leads : (s : List Char) → (tokens : List Token) → (last : List Char) → Prop
  | gap {g last : List Char} : Gap g → Leads (g ++ last) [] last
  | token {g text rest last : List Char} {token : Token} {tokens : List Token} : Gap g →
      Lexeme token text rest → Leads rest tokens last →
      Leads (g ++ (text ++ rest)) (token :: tokens) last

def NeverCloses (s : List Char) : Prop :=
  ∀ value spelled rest, Spells value spelled → s ≠ spelled ++ '"' :: rest

/-- In front of `s` the character begins neither a gap nor a text nor any other token. -/
structure Stray (c : Char) (s : List Char) : Prop where
  noGap : OpensNoGap (c :: s)
  noQuote : c ≠ '"'
  noLexeme : ∀ token text rest, Lexeme token text rest → c :: s ≠ text ++ rest

theorem mark?_eq_some_iff {c : Char} {token : Token} :
    mark? c = some token ↔ (c, token) ∈ marks := by
  constructor
  · intro h
    unfold mark? at h
    split at h
    all_goals
      cases h
      try decide
  · intro h
    simp only [marks, List.mem_cons, List.not_mem_nil, or_false, Prod.mk.injEq] at h
    rcases h with h | h | h | h | h | h | h | h
    all_goals
      rw [h.1, h.2]
      rfl

theorem mem_numerals_iff {c : Char} : c ∈ numerals ↔ isDecimalDigit c = true := by
  constructor
  · have hall : numerals.all isDecimalDigit = true := rfl
    exact List.all_eq_true.1 hall c
  · intro h
    obtain ⟨hlow, hhigh⟩ := isDecimalDigit_iff.1 h
    have hnumerals : numerals = (List.range' 48 10).map Char.ofNat := rfl
    have hn : c.toNat ∈ List.range' 48 10 := by
      rw [List.mem_range'_1]
      omega
    rw [hnumerals]
    exact List.mem_map.2 ⟨c.toNat, hn, Char.ofNat_toNat c⟩

theorem isNumberChar_iff {c : Char} : isNumberChar c = true ↔ c ∈ numerals ∨ c = '.' := by
  rw [isNumberChar, Bool.or_eq_true, mem_numerals_iff, beq_iff_eq]

theorem not_isNumberChar_iff {c : Char} : isNumberChar c = false ↔ c ∉ numerals ∧ c ≠ '.' := by
  rw [← Bool.not_eq_true, isNumberChar_iff, not_or]

theorem mark?_of_isDecimalDigit {c : Char} (h : isDecimalDigit c = true) : mark? c = none := by
  unfold mark?
  split
  all_goals first
    | rfl
    | exact absurd h (by decide)

section Quotes

theorem quoted?_eq_some_iff {s value rest : List Char} :
    quoted? s = some (value, rest) ↔
      ∃ spelled, Spells value spelled ∧ s = spelled ++ '"' :: rest := by
  constructor
  · intro h
    fun_induction quoted? s generalizing value rest with
    | case1 => cases h
    | case2 => cases h
    | case3 c s ih =>
      obtain ⟨r, hr, he⟩ := Option.map_eq_some_iff.1 h
      obtain ⟨spelled, hs, rfl⟩ := ih hr
      cases he
      exact ⟨_, Spells.escaped (pair_iff.2 rfl) hs, rfl⟩
    | case4 s =>
      cases h
      exact ⟨[], Spells.nil, rfl⟩
    | case5 c s _ hescape hquote ih =>
      obtain ⟨r, hr, he⟩ := Option.map_eq_some_iff.1 h
      obtain ⟨spelled, hs, rfl⟩ := ih hr
      cases he
      have hbackslash : c ≠ '\\' := by
        intro hc
        cases htail : spelled ++ '"' :: r.2 with
        | nil => simp at htail
        | cons d tail => exact hescape d tail hc htail
      exact ⟨_, Spells.plain hquote hbackslash hs, rfl⟩
  · rintro ⟨spelled, hs, rfl⟩
    exact quoted?_of_spells hs rest

theorem neverCloses_iff {s : List Char} : NeverCloses s ↔ quoted? s = none := by
  constructor
  · intro h
    cases hq : quoted? s with
    | none => rfl
    | some r =>
      obtain ⟨spelled, hs, he⟩ := quoted?_eq_some_iff.1 hq
      exact absurd he (h _ _ _ hs)
  · intro h value spelled rest hs he
    rw [he, quoted?_of_spells hs] at h
    cases h

end Quotes

section Steps

variable {c : Char} {s text rest : List Char} {token : Token}

theorem opensNumber_of_isDecimalDigit (h : isDecimalDigit c = true) (s : List Char) :
    opensNumber c s = true := by
  simp [opensNumber, h]

theorem read_number (hmark : mark? c = none) (hquote : c ≠ '"')
    (hopens : opensNumber c (s ++ rest) = true) (hs : ∀ x ∈ s, isNumberChar x = true)
    (hrest : ∀ x ∈ rest.head?, isNumberChar x = false) :
    read c (s ++ rest) = (.ok (.number (String.ofList (c :: s))), rest) := by
  obtain ⟨htake, hdrop⟩ := cut_append hs hrest
  rw [read, hmark]
  simp only [if_neg hquote, if_pos hopens, htake, hdrop]

/-- The reader takes the spelling of a token off the front of the text. -/
theorem read_of_lexeme (h : Lexeme token text rest) :
    ∃ c s, text ++ rest = c :: s ∧ OpensNoGap (c :: s) ∧ read c s = (.ok token, rest) := by
  cases h with
  | @mark c _ _ hmem =>
    have hmark := mark?_eq_some_iff.2 hmem
    obtain ⟨hwhite, hslash⟩ := isWhite_of_mark hmark
    refine ⟨c, rest, rfl, opensNoGap_cons hwhite hslash rest, ?_⟩
    rw [read, hmark]
  | @text value spelled _ hs =>
    refine ⟨'"', spelled ++ '"' :: rest, by simp, opensNoGap_cons (by decide) (by decide) _, ?_⟩
    rw [read]
    simp only [mark?, quoted?_of_spells hs]
    rfl
  | @number sign digits _ digit hsign hnumeral hnumerals hend =>
    have hdigit : isDecimalDigit digit = true := mem_numerals_iff.1 hnumeral
    have hdigits : ∀ x ∈ digits, isNumberChar x = true :=
      fun x hx => isNumberChar_iff.2 (hnumerals x hx)
    have hrest : ∀ x ∈ rest.head?, isNumberChar x = false :=
      fun x hx => not_isNumberChar_iff.2 (hend x hx)
    have hword := isWordChar_of_isDecimalDigit hdigit
    rcases hsign with rfl | rfl
    · have hslash : digit ≠ '/' := fun e => absurd (e ▸ hdigit) (by decide)
      have hquote : digit ≠ '"' := fun e => absurd (e ▸ hdigit) (by decide)
      have hgap := opensNoGap_cons (isWhite_of_isWordChar hword) hslash (digits ++ rest)
      refine ⟨digit, digits ++ rest, rfl, hgap, ?_⟩
      exact read_number (mark?_of_isDecimalDigit hdigit) hquote
        (opensNumber_of_isDecimalDigit hdigit _) hdigits hrest
    · have hall : ∀ x ∈ digit :: digits, isNumberChar x = true := by
        intro x hx
        rcases List.mem_cons.1 hx with rfl | hx
        · simp [isNumberChar, hdigit]
        · exact hdigits x hx
      refine ⟨'-', digit :: digits ++ rest, rfl, opensNoGap_cons (by decide) (by decide) _, ?_⟩
      exact read_number rfl (by decide) (by simp [opensNumber, hdigit]) hall hrest
  | @word first others _ hfirst hothers hrest =>
    have hwhite := isWhite_of_isWordChar (isWordChar_of_isWordStart hfirst)
    have hslash : first ≠ '/' := fun e => absurd (e ▸ hfirst) (by decide)
    have hends : opensWord rest = false := by
      cases rest with
      | nil => rfl
      | cons d rest => exact hrest d rfl
    exact ⟨first, others ++ rest, rfl, opensNoGap_cons hwhite hslash _,
      read_name hfirst hothers hends⟩

theorem lexeme_of_opensNumber (h : opensNumber c s = true) :
    Lexeme (.number (String.ofList (c :: s.takeWhile isNumberChar)))
      (c :: s.takeWhile isNumberChar) (s.dropWhile isNumberChar) := by
  have hend (t : List Char) : ∀ x ∈ (t.dropWhile isNumberChar).head?, x ∉ numerals ∧ x ≠ '.' :=
    fun x hx => not_isNumberChar_iff.1 (of_mem_head?_dropWhile hx)
  have hnumerals (t : List Char) : ∀ x ∈ t.takeWhile isNumberChar, x ∈ numerals ∨ x = '.' :=
    fun x hx => isNumberChar_iff.1 (List.mem_takeWhile_imp hx)
  cases hc : isDecimalDigit c with
  | true =>
    have hsign : ([] : List Char) = [] ∨ [] = ['-'] := Or.inl rfl
    exact .number hsign (mem_numerals_iff.2 hc) (hnumerals s) (hend s)
  | false =>
    simp only [opensNumber, hc, Bool.false_or, Bool.and_eq_true, beq_iff_eq] at h
    obtain ⟨rfl, hhead⟩ := h
    cases s with
    | nil => cases hhead
    | cons digit s =>
      have hnumeral : digit ∈ numerals := mem_numerals_iff.2 hhead
      have hnumber : isNumberChar digit = true := isNumberChar_iff.2 (Or.inl hnumeral)
      have hsign : ['-'] = [] ∨ ['-'] = ['-'] := Or.inr rfl
      simp only [List.takeWhile_cons, List.dropWhile_cons, if_pos hnumber]
      exact .number hsign hnumeral (hnumerals s) (hend s)

/-- What the reader takes off the front of the text is the spelling of the token. -/
theorem lexeme_of_read (h : read c s = (.ok token, rest)) :
    ∃ text, Lexeme token text rest ∧ c :: s = text ++ rest := by
  unfold read at h
  split at h
  · rename_i hmark
    cases h
    exact ⟨[c], .mark (mark?_eq_some_iff.1 hmark), rfl⟩
  · split at h
    · rename_i hquote
      split at h
      · rename_i hquoted
        cases h
        obtain ⟨spelled, hs, rfl⟩ := quoted?_eq_some_iff.1 hquoted
        exact ⟨_, .text hs, by simp [hquote]⟩
      · cases h
    · split at h
      · rename_i hnumber
        cases h
        exact ⟨_, lexeme_of_opensNumber hnumber, by simp⟩
      · split at h
        · rename_i hword
          cases h
          exact ⟨_, .word hword (fun x hx => List.mem_takeWhile_imp hx)
            (fun x hx => of_mem_head?_dropWhile hx), by simp⟩
        · cases h

theorem read_of_neverCloses (h : NeverCloses s) : read '"' s = (.error .unterminated, []) := by
  rw [read]
  simp only [mark?, neverCloses_iff.1 h]
  rfl

/-- Only two things stop the reader. -/
theorem error_of_read {e : TokenError} (h : read c s = (.error e, rest)) :
    (c = '"' ∧ NeverCloses s ∧ e = .unterminated) ∨ (c ≠ '"' ∧ e = .unexpected c ∧ rest = s) := by
  unfold read at h
  split at h
  · cases h
  · split at h
    · rename_i hquote
      split at h
      · cases h
      · rename_i hopen
        cases h
        exact Or.inl ⟨hquote, neverCloses_iff.2 hopen, rfl⟩
    · rename_i hquote
      split at h
      · cases h
      · split at h
        · cases h
        · cases h
          exact Or.inr ⟨hquote, rfl, rfl⟩

theorem read_of_stray (h : Stray c s) : read c s = (.error (.unexpected c), s) := by
  cases hr : read c s with
  | mk result rest =>
    cases result with
    | ok token =>
      obtain ⟨text, hlexeme, he⟩ := lexeme_of_read hr
      exact absurd he (h.noLexeme _ _ _ hlexeme)
    | error e =>
      rcases error_of_read hr with ⟨hquote, -, -⟩ | ⟨-, rfl, rfl⟩
      · exact absurd hquote h.noQuote
      · rfl

theorem stray_of_read (hgap : OpensNoGap (c :: s)) (hquote : c ≠ '"') {e : TokenError}
    (h : read c s = (.error e, rest)) : Stray c s := by
  refine ⟨hgap, hquote, fun token text behind hlexeme he => ?_⟩
  obtain ⟨d, tail, hd, -, hread⟩ := read_of_lexeme hlexeme
  rw [← he] at hd
  cases hd
  rw [hread] at h
  cases h

end Steps

section Runs

variable {s last : List Char} {tokens : List Token}

theorem next?_of_opensNoGap {c : Char} (h : OpensNoGap (c :: s)) :
    next? (c :: s) = some (read c s) := by
  rw [next?, skipGap_of_opensNoGap h]

theorem readAll_of_leads (h : Leads s tokens last) :
    readAll s = (readAll last).map (tokens ++ ·) := by
  induction h with
  | gap hg =>
    rw [readAll_of_skipGap (hg.skip _)]
    exact (map_self _).symm
  | token hg hlexeme _ ih =>
    obtain ⟨c, tail, hc, hgap, hread⟩ := read_of_lexeme hlexeme
    have hnext := next?_of_opensNoGap hgap
    rw [hread] at hnext
    rw [readAll_of_skipGap (hg.skip _), hc, readAll_of_token hnext, ih, map_map]
    rfl

/-- Where no cut goes on, and what the reader makes of it: at the end of the text, at a quote that is
never closed, or at a character that begins nothing. -/
inductive Halts : (last : List Char) → (result : Except TokenError (List Token)) → Prop
  | ended {s : List Char} : s = [] ∨ OpenComment s → Halts s (.ok [])
  | unterminated {s : List Char} : NeverCloses s → Halts ('"' :: s) (.error .unterminated)
  | unexpected {c : Char} {s : List Char} : Stray c s → Halts (c :: s) (.error (.unexpected c))

theorem readAll_of_halts {result : Except TokenError (List Token)} (h : Halts last result) :
    readAll last = result := by
  cases h with
  | ended hend =>
    rcases hend with rfl | hcomment
    · exact readAll_nil
    · exact readAll_of_end (by rw [next?, skipGap_openComment hcomment])
  | @unterminated s hopen =>
    have hnext := next?_of_opensNoGap (opensNoGap_cons (c := '"') (by decide) (by decide) s)
    rw [read_of_neverCloses hopen] at hnext
    exact readAll_of_fault hnext
  | unexpected hstray =>
    have hnext := next?_of_opensNoGap hstray.noGap
    rw [read_of_stray hstray] at hnext
    exact readAll_of_fault hnext

/-- Every text is cut into gaps and tokens up to a place where no cut goes on. -/
theorem exists_leads (s : List Char) :
    ∃ tokens last result, Leads s tokens last ∧ Halts last result := by
  induction hn : s.length using Nat.strongRecOn generalizing s with
  | _ n ih =>
  subst hn
  obtain ⟨g, front, hg, rfl, hfront⟩ := exists_gap s
  rcases hfront with hgap | hcomment
  · cases front with
    | nil => exact ⟨[], [], _, .gap hg, .ended (Or.inl rfl)⟩
    | cons c s =>
      cases hr : read c s with
      | mk result rest =>
        cases result with
        | ok token =>
          obtain ⟨text, hlexeme, he⟩ := lexeme_of_read hr
          have hshort : rest.length < (g ++ c :: s).length := by
            have hle : rest.length ≤ s.length := by
              have hread := length_read_le c s
              rwa [hr] at hread
            simp only [List.length_append, List.length_cons]
            omega
          obtain ⟨tokens, last, result, hleads, hhalts⟩ := ih rest.length hshort rest rfl
          rw [he]
          exact ⟨token :: tokens, last, result, .token hg hlexeme hleads, hhalts⟩
        | error e =>
          rcases error_of_read hr with ⟨rfl, hopen, -⟩ | ⟨hquote, -, -⟩
          · exact ⟨[], _, _, .gap hg, .unterminated hopen⟩
          · exact ⟨[], _, _, .gap hg, .unexpected (stray_of_read hgap hquote hr)⟩
  · exact ⟨[], front, _, .gap hg, .ended (Or.inr hcomment)⟩

def Spelled (s : List Char) (tokens : List Token) : Prop :=
  ∃ last, Leads s tokens last ∧ (last = [] ∨ OpenComment last)

theorem readAll_of_spelled (h : Spelled s tokens) : readAll s = .ok tokens := by
  obtain ⟨last, hleads, hend⟩ := h
  rw [readAll_of_leads hleads, readAll_of_halts (.ended hend)]
  exact congrArg Except.ok (List.append_nil tokens)

theorem spelled_of_readAll (h : readAll s = .ok tokens) : Spelled s tokens := by
  obtain ⟨done, last, result, hleads, hhalts⟩ := exists_leads s
  rw [readAll_of_leads hleads, readAll_of_halts hhalts] at h
  cases hhalts with
  | ended hend =>
    have htokens : done = tokens := by simpa using Except.ok.inj h
    exact ⟨last, htokens ▸ hleads, hend⟩
  | unterminated _ => cases h
  | unexpected _ => cases h

end Runs

/-- The reader accepts exactly the texts that gaps and the spellings of tokens make up, and gives
these tokens; the end of the text is no token. Of any other text it reports the place where the cut
stops: a quote that is never closed, or a character that begins no token. -/
theorem readAll_exactly (s : List Char) :
    (∀ tokens, readAll s = .ok tokens ↔
      ∃ last, Leads s tokens last ∧ (last = [] ∨ OpenComment last)) ∧
    (readAll s = .error .unterminated ↔
      ∃ tokens rest, Leads s tokens ('"' :: rest) ∧ NeverCloses rest) ∧
    ∀ c, readAll s = .error (.unexpected c) ↔
      ∃ tokens rest, Leads s tokens (c :: rest) ∧ Stray c rest := by
  have hread {tokens : List Token} {last : List Char} {result : Except TokenError (List Token)}
      (hleads : Leads s tokens last) (hhalts : Halts last result) :
      readAll s = result.map (tokens ++ ·) := by
    rw [readAll_of_leads hleads, readAll_of_halts hhalts]
  obtain ⟨done, last, result, hleads, hhalts⟩ := exists_leads s
  rw [hread hleads hhalts]
  refine ⟨fun tokens => ⟨fun h => ?_, ?_⟩, ⟨fun h => ?_, ?_⟩, fun c => ⟨fun h => ?_, ?_⟩⟩
  · cases hhalts with
    | ended hend =>
      have htokens : done = tokens := by simpa using Except.ok.inj h
      rw [← htokens]
      exact ⟨last, hleads, hend⟩
    | unterminated _ => cases h
    | unexpected _ => cases h
  · rintro ⟨stop, hcut, hend⟩
    rw [← hread hleads hhalts, hread hcut (.ended hend)]
    exact congrArg Except.ok (List.append_nil tokens)
  · cases hhalts with
    | ended _ => cases h
    | unterminated hopen => exact ⟨done, _, hleads, hopen⟩
    | unexpected _ => cases h
  · rintro ⟨tokens, rest, hcut, hopen⟩
    rw [← hread hleads hhalts]
    exact hread hcut (.unterminated hopen)
  · cases hhalts with
    | ended _ => cases h
    | unterminated _ => cases h
    | unexpected hstray =>
      cases h
      exact ⟨done, _, hleads, hstray⟩
  · rintro ⟨tokens, rest, hcut, hstray⟩
    rw [← hread hleads hhalts]
    exact hread hcut (.unexpected hstray)

end SchemaQuery.Token
