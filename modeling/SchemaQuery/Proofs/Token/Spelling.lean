import SchemaQuery.Proofs.Text.Cuts
import SchemaQuery.Token.Reader

/-!
# Tokens that are spelled out

What the reader makes of the spelling of one token, whatever follows it: marks and quoted texts end
by themselves, a word ends before the next character that is foreign to words.
-/

set_option autoImplicit false

namespace SchemaQuery.Token

open SchemaQuery.Unicode SchemaQuery.Text

def escapes : List (Char × Char) := [('n', '\n'), ('t', '\t'), ('r', '\r')]

def Pair (c d : Char) : Prop := (c, d) ∈ escapes ∨ c ∉ escapes.map Prod.fst ∧ d = c

inductive Spells : (value spelled : List Char) → Prop
  | nil : Spells [] []
  | plain {c : Char} {value spelled : List Char} : c ≠ '"' → c ≠ '\\' → Spells value spelled →
      Spells (c :: value) (c :: spelled)
  | escaped {c d : Char} {value spelled : List Char} : Pair c d → Spells value spelled →
      Spells (d :: value) ('\\' :: c :: spelled)

theorem pair_iff {c d : Char} : Pair c d ↔ unescape c = d := by
  simp only [Pair, escapes, List.mem_cons, Prod.mk.injEq, List.not_mem_nil, or_false, List.map_cons,
    List.map_nil, not_or]
  constructor
  · rintro ((⟨rfl, rfl⟩ | ⟨rfl, rfl⟩ | ⟨rfl, rfl⟩) | ⟨⟨hn, ht, hr⟩, rfl⟩)
    · rfl
    · rfl
    · rfl
    · unfold unescape
      split
      · exact absurd rfl hn
      · exact absurd rfl ht
      · exact absurd rfl hr
      · rfl
  · intro h
    unfold unescape at h
    split at h
    all_goals
      subst h
      simp_all

def isName : List Char → Bool
  | [] => false
  | c :: s => isWordStart c && s.all isWordChar

theorem isWordChar_of_isName {s : List Char} (h : isName s = true) {c : Char} (hc : c ∈ s) :
    isWordChar c = true := by
  cases s with
  | nil => cases hc
  | cons d s =>
    simp only [isName, Bool.and_eq_true, List.all_eq_true] at h
    rcases List.mem_cons.1 hc with rfl | hmem
    · exact isWordChar_of_isWordStart h.1
    · exact h.2 c hmem

theorem quoted?_of_spells {value spelled : List Char} (h : Spells value spelled)
    (rest : List Char) : quoted? (spelled ++ '"' :: rest) = some (value, rest) := by
  induction h with
  | nil => rfl
  | @plain c value spelled hq hb _ ih =>
    have hstep : quoted? (c :: (spelled ++ '"' :: rest)) =
        if c = '"' then some ([], spelled ++ '"' :: rest)
        else (quoted? (spelled ++ '"' :: rest)).map fun r => (c :: r.1, r.2) := by
      rw [quoted?]
      · intro h
        exact absurd h hb
      · intro d s h
        exact absurd h hb
    rw [List.cons_append, hstep, if_neg hq, ih]
    rfl
  | escaped hpair _ ih =>
    rw [List.cons_append, List.cons_append, quoted?, ih, pair_iff.1 hpair]
    rfl

theorem notMem_of_spells {value spelled : List Char} (h : Spells value spelled) {c : Char}
    (hc : c ∉ value) (hb : c ≠ '\\') (hu : unescape c = c) : c ∉ spelled := by
  induction h with
  | nil => simp
  | plain _ _ _ ih =>
    simp only [List.mem_cons, not_or] at hc ⊢
    exact ⟨hc.1, ih hc.2⟩
  | @escaped d e value spelled hpair _ ih =>
    simp only [List.mem_cons, not_or] at hc ⊢
    have hd : c ≠ d := by
      rintro rfl
      exact hc.1 (hu.symm.trans (pair_iff.1 hpair))
    exact ⟨hb, hd, ih hc.2⟩

def escapeChar (c : Char) : List Char :=
  match c with
  | '"' => ['\\', '"']
  | '\\' => ['\\', '\\']
  | '\n' => ['\\', 'n']
  | c => [c]

def escape (s : List Char) : List Char := s.flatMap escapeChar

theorem spells_escape (s : List Char) : Spells s (escape s) := by
  induction s with
  | nil => exact Spells.nil
  | cons c s ih =>
    have hrest : escape (c :: s) = escapeChar c ++ escape s := List.flatMap_cons
    rw [hrest]
    unfold escapeChar
    split
    · exact Spells.escaped (pair_iff.2 rfl) ih
    · exact Spells.escaped (pair_iff.2 rfl) ih
    · exact Spells.escaped (pair_iff.2 rfl) ih
    · rename_i hq hb _
      exact Spells.plain hq hb ih

theorem lineFeed_notMem_escape (s : List Char) : '\n' ∉ escape s := by
  intro h
  obtain ⟨c, -, hc⟩ := List.mem_flatMap.1 h
  unfold escapeChar at hc
  split at hc
  · exact absurd hc (by decide)
  · exact absurd hc (by decide)
  · exact absurd hc (by decide)
  · rename_i hn
    exact hn (List.mem_singleton.1 hc).symm

theorem skipGap_of_isWhite {c : Char} (h : isWhite c = true) (s : List Char) :
    skipGap false (c :: s) = skipGap false s := by
  conv => lhs; unfold skipGap
  rw [if_pos h]

theorem skipGap_of_solid {c : Char} (hw : isWhite c = false) (hc : c ≠ '/') (s : List Char) :
    skipGap false (c :: s) = c :: s := by
  unfold skipGap
  rw [if_neg (by simp [hw]), if_neg hc]

theorem readAll_of_skipGap {s t : List Char} (h : skipGap false s = skipGap false t) :
    readAll s = readAll t := by
  have hnext : next? s = next? t := by rw [next?, h, next?]
  cases ht : next? t with
  | none => rw [readAll_of_end (hnext.trans ht), readAll_of_end ht]
  | some r =>
    obtain ⟨token, rest⟩ := r
    cases token with
    | error e => rw [readAll_of_fault (hnext.trans ht), readAll_of_fault ht]
    | ok token => rw [readAll_of_token (hnext.trans ht), readAll_of_token ht]

theorem readAll_of_isWhite {c : Char} (h : isWhite c = true) (s : List Char) :
    readAll (c :: s) = readAll s :=
  readAll_of_skipGap (skipGap_of_isWhite h s)

theorem readAll_nil : readAll [] = .ok [] := readAll_of_end rfl

theorem readAll_of_read {c : Char} {s rest : List Char} {token : Token} (hw : isWhite c = false)
    (hc : c ≠ '/') (h : read c s = (.ok token, rest)) :
    readAll (c :: s) = (readAll rest).map (token :: ·) := by
  apply readAll_of_token
  rw [next?, skipGap_of_solid hw hc]
  exact congrArg some h

theorem isWhite_of_mark {c : Char} {token : Token} (h : mark? c = some token) :
    isWhite c = false ∧ c ≠ '/' := by
  unfold mark? at h
  split at h
  all_goals first
    | exact ⟨by decide, by decide⟩
    | cases h

theorem readAll_of_mark {c : Char} {token : Token} (h : mark? c = some token) (s : List Char) :
    readAll (c :: s) = (readAll s).map (token :: ·) := by
  obtain ⟨hw, hc⟩ := isWhite_of_mark h
  apply readAll_of_read hw hc
  simp [read, h]

theorem readAll_of_spells {value spelled : List Char} (h : Spells value spelled)
    (rest : List Char) : readAll ('"' :: (spelled ++ '"' :: rest)) =
      (readAll rest).map (.text (String.ofList value) :: ·) := by
  apply readAll_of_read (by decide) (by decide)
  rw [read]
  simp only [mark?, quoted?_of_spells h]
  rfl

theorem mark?_of_isWordStart {c : Char} (h : isWordStart c = true) : mark? c = none := by
  unfold mark?
  split
  all_goals first
    | rfl
    | exact absurd h (by decide)

theorem read_name {c : Char} {s rest : List Char} (hc : isWordStart c = true)
    (hs : ∀ x ∈ s, isWordChar x = true) (hrest : opensWord rest = false) :
    read c (s ++ rest) = (.ok (.word (String.ofList (c :: s))), rest) := by
  have hquote : c ≠ '"' := fun e => absurd (e ▸ hc) (by decide)
  have hminus : c ≠ '-' := fun e => absurd (e ▸ hc) (by decide)
  have hnumber : opensNumber c (s ++ rest) = false := by
    simp [opensNumber, isDecimalDigit_of_isWordStart hc, hminus]
  have hcut : (s ++ rest).takeWhile isWordChar = s ∧ (s ++ rest).dropWhile isWordChar = rest := by
    cases rest with
    | nil =>
      rw [List.append_nil]
      exact ⟨List.takeWhile_eq_self_iff.2 hs, List.dropWhile_eq_nil_iff.2 hs⟩
    | cons d rest => exact ⟨takeWhile_append_cons hs hrest, dropWhile_append_cons hs hrest⟩
  rw [read, mark?_of_isWordStart hc]
  simp only [if_neg hquote, hnumber, hc, hcut.1, hcut.2]
  rfl

theorem readAll_of_isName {name rest : List Char} (h : isName name = true)
    (hrest : opensWord rest = false) :
    readAll (name ++ rest) = (readAll rest).map (.word (String.ofList name) :: ·) := by
  cases name with
  | nil => simp [isName] at h
  | cons c s =>
    simp only [isName, Bool.and_eq_true, List.all_eq_true] at h
    have hw : isWhite c = false := isWhite_of_isWordChar (isWordChar_of_isWordStart h.1)
    have hslash : c ≠ '/' := fun e => absurd (e ▸ h.1) (by decide)
    exact readAll_of_read hw hslash (read_name h.1 h.2 hrest)

def Reads (s : List Char) (tokens : List Token) : Prop :=
  ∀ rest, opensWord rest = false → readAll (s ++ rest) = (readAll rest).map (tokens ++ ·)

theorem map_map {α β γ ε : Type} (x : Except ε α) (f : α → β) (g : β → γ) :
    (x.map f).map g = x.map fun a => g (f a) := by
  cases x <;> rfl

theorem map_self {ε α : Type} (x : Except ε α) : x.map (fun a => a) = x := by
  cases x <;> rfl

theorem reads_nil : Reads [] [] := by
  intro rest _
  exact (map_self (readAll rest)).symm

theorem reads_append {s t : List Char} {ss ts : List Token} (hs : Reads s ss) (ht : Reads t ts)
    (h : opensWord t = false) : Reads (s ++ t) (ss ++ ts) := by
  intro rest hrest
  have hopen : opensWord (t ++ rest) = false := by
    cases t with
    | nil => exact hrest
    | cons c t => exact h
  rw [List.append_assoc, hs (t ++ rest) hopen, ht rest hrest, map_map]
  simp only [List.append_assoc]

theorem reads_mark {c : Char} {token : Token} (h : mark? c = some token) {s : List Char}
    {tokens : List Token} (hs : Reads s tokens) : Reads (c :: s) (token :: tokens) := by
  intro rest hrest
  rw [List.cons_append, readAll_of_mark h, hs rest hrest, map_map]
  rfl

theorem reads_blank {s : List Char} {tokens : List Token} (hs : Reads s tokens) :
    Reads (' ' :: s) tokens := by
  intro rest hrest
  rw [List.cons_append, readAll_of_isWhite (by decide), hs rest hrest]

theorem reads_name {name : List Char} (h : isName name = true) :
    Reads name [.word (String.ofList name)] := by
  intro rest hrest
  exact readAll_of_isName h hrest

theorem reads_text {value spelled : List Char} (h : Spells value spelled) :
    Reads ('"' :: (spelled ++ ['"'])) [.text (String.ofList value)] := by
  intro rest _
  rw [List.cons_append, List.append_assoc]
  exact readAll_of_spells h rest

theorem readAll_of_reads {s : List Char} {tokens : List Token} (h : Reads s tokens) :
    readAll s = .ok tokens := by
  have hall := h [] rfl
  rw [List.append_nil, readAll_nil] at hall
  rw [hall]
  exact congrArg Except.ok (List.append_nil tokens)

def commaRow : List (List Char) → List Char
  | [] => []
  | [part] => part
  | part :: parts => part ++ ',' :: ' ' :: commaRow parts

def commaTokens : List (List Token) → List Token
  | [] => []
  | [tokens] => tokens
  | tokens :: rest => tokens ++ .comma :: commaTokens rest

theorem reads_commaRow {α : Type} {xs : List α} {part : α → List Char} {tokens : α → List Token}
    (h : ∀ x ∈ xs, Reads (part x) (tokens x)) :
    Reads (commaRow (xs.map part)) (commaTokens (xs.map tokens)) := by
  induction xs with
  | nil => exact reads_nil
  | cons x xs ih =>
    have hx : Reads (part x) (tokens x) := h x List.mem_cons_self
    have hrest := ih fun y hy => h y (List.mem_cons_of_mem _ hy)
    cases xs with
    | nil => exact hx
    | cons y ys =>
      have hcomma := reads_mark (c := ',') rfl (reads_blank hrest)
      exact reads_append hx hcomma (opensWord_cons (by decide) _)

end SchemaQuery.Token
