import Mathlib.Data.List.Chain
import SchemaQuery.Proofs.Attribute.Segments

/-!
# Arguments that segments make up

A segment is read by itself unless it is unfinished or a comma follows its value inside of a group:
then the comma that is taken for the end of the argument is another one. Apart from these segments
there is one argument for each segment that is not empty.
-/

set_option autoImplicit false

namespace SchemaQuery.Argument

open Token

def label? : List Token → Option String
  | .word name :: .colon :: _ => some name
  | _ => none

def body : List Token → List Token
  | .word _ :: .colon :: rest => rest
  | g => g

def ofSegment (g : List Token) : Argument := ⟨label? g, (readValue (body g)).1⟩

def trail (g : List Token) : List Token := (readValue (body g)).2

def endsInDot : List Token → Bool
  | [] => false
  | [.dot] => true
  | .dot :: _ :: rest => endsInDot rest
  | _ => false

def stopsShort : List Token → Bool
  | [] => true
  | .word _ :: rest => endsInDot rest
  | _ => false

def unfinished (g : List Token) : Bool := g != [] && stopsShort (body g)

section Reading

variable {g b rest : List Token}

/-- A path that does not end in a dot takes in nothing of what follows the segment. -/
theorem dotted_append (h : endsInDot g = false) (hrest : rest.head? ≠ some .dot) (name : String) :
    dotted name (g ++ rest) = ((dotted name g).1, (dotted name g).2 ++ rest) := by
  fun_induction dotted name g with
  | case1 name part g ih => exact ih h
  | case2 name token g hword ih =>
    cases token with
    | word part => exact absurd rfl (hword part)
    | _ => exact ih h
  | case3 name => cases h
  | case4 name g hword hdot hlast =>
    cases g with
    | nil => exact dotted_of_no_dot name hrest
    | cons token g =>
      apply dotted_of_no_dot
      rintro ⟨⟩
      cases g with
      | nil => exact hlast rfl
      | cons next g => exact hdot next g rfl

/-- A path that ends in a dot takes the comma behind it for a part of its own. -/
theorem dotted_comma (h : endsInDot g = true) (name : String) (rest : List Token) :
    (dotted name g).2 = [] ∧ dotted name (g ++ .comma :: rest) = dotted (dotted name g).1 rest := by
  fun_induction dotted name g with
  | case1 name part g ih => exact ih h
  | case2 name token g hword ih =>
    cases token with
    | word part => exact absurd rfl (hword part)
    | _ => exact ih h
  | case3 name => exact ⟨rfl, rfl⟩
  | case4 name g hword hdot hlast =>
    unfold endsInDot at h
    split at h
    · cases h
    · exact absurd rfl hlast
    · exact absurd rfl (hdot _ _)
    · cases h

theorem Trailing.dotted (h : Trailing g) (name : String) :
    Trailing (Argument.dotted name g).2 := by
  fun_induction Argument.dotted name g with
  | case1 name part rest ih => exact ih h.of_cons.of_cons
  | case2 name token rest _ ih => exact ih h.of_cons.of_cons
  | case3 => exact .nested .nil
  | case4 => exact h

/-- A value that does not stop short is read from its own segment. -/
theorem readValue_append (hb : Nested b) (hshort : stopsShort b = false) (hrest : Ends rest) :
    readValue (b ++ rest) = ((readValue b).1, (readValue b).2 ++ rest) := by
  have hgroup {g : List Token} (hg : Trailing (.leftParen :: g)) :
      skipGroup 1 (g ++ rest) = skipGroup 1 g ++ rest := by
    obtain ⟨inner, behind, hinner, rfl⟩ := hg.group rfl
    rw [skipGroup_closing hinner rfl, List.append_assoc, List.cons_append,
      skipGroup_closing hinner rfl]
  cases b with
  | nil => cases hshort
  | cons token g =>
    cases token with
    | word name =>
      have htail : Trailing (dotted name g).2 := (trailing_of_nested_cons hb).dotted name
      rw [List.cons_append, readValue, readValue, dotted_append hshort hrest.not_dot]
      rcases hd : dotted name g with ⟨path, behind⟩
      rw [hd] at htail
      cases behind with
      | nil => rcases hrest with rfl | ⟨tail, rfl⟩ <;> rfl
      | cons next behind =>
        cases next with
        | leftParen => exact congrArg _ (hgroup htail)
        | _ => rfl
    | leftParen => exact congrArg _ (hgroup (.nested hb))
    | leftBracket =>
      obtain ⟨inner, tail, hinner, rfl⟩ := (Trailing.nested hb).group rfl
      simp only [List.cons_append, List.append_assoc, readValue, listWords_closing hinner]
    | _ => rfl

/-- Of a value that stops short the comma behind its segment is taken for a part. -/
theorem readValue_comma (hshort : stopsShort b = true) (hdot : rest.head? ≠ some .dot)
    (hgroup : rest.head? ≠ some .leftParen) :
    readValue (b ++ .comma :: rest) = ((readValue b).1, rest) ∧ (readValue b).2 = [] := by
  cases b with
  | nil => exact ⟨rfl, rfl⟩
  | cons token g =>
    cases token with
    | word name =>
      obtain ⟨hnil, hcomma⟩ := dotted_comma hshort name rest
      rw [List.cons_append, readValue, readValue, hcomma, dotted_of_no_dot _ hdot]
      rcases hd : dotted name g with ⟨path, behind⟩
      rw [hd] at hnil
      subst hnil
      refine ⟨?_, rfl⟩
      cases rest with
      | nil => rfl
      | cons next rest => cases next <;> first | rfl | exact absurd rfl hgroup
    | _ => cases hshort

theorem next_eq (g : List Token) : next g = (ofSegment g, skipToComma (trail g)) := by
  unfold next
  split
  · rfl
  · rename_i hname
    have hlabel : label? g = none := by
      unfold label?
      split
      · exact absurd rfl (hname _ _)
      · rfl
    have hbody : body g = g := by
      unfold body
      split
      · exact absurd rfl (hname _ _)
      · rfl
    rw [ofSegment, trail, hlabel, hbody]

/-- The name of a segment is its own, whatever follows it but a colon. -/
theorem label?_append (hne : g ≠ []) (hrest : rest.head? ≠ some .colon) :
    label? (g ++ rest) = label? g ∧ body (g ++ rest) = body g ++ rest := by
  cases g with
  | nil => exact absurd rfl hne
  | cons token g =>
    cases token with
    | word name =>
      cases g with
      | nil =>
        cases rest with
        | nil => exact ⟨rfl, rfl⟩
        | cons next rest => cases next <;> first | exact ⟨rfl, rfl⟩ | exact absurd rfl hrest
      | cons next g => cases next <;> exact ⟨rfl, rfl⟩
    | _ => exact ⟨rfl, rfl⟩

theorem skipToComma_append {t : List Token} (h : Token.comma ∉ t) (rest : List Token) :
    skipToComma (t ++ rest) = skipToComma rest := by
  induction t with
  | nil => rfl
  | cons token t ih =>
    rw [List.mem_cons, not_or] at h
    rw [List.cons_append, ← ih h.2]
    cases token <;> first | rfl | exact absurd rfl h.1

end Reading

section Arguments

variable {g rest : List Token}

theorem Segment.body (h : Segment g) : Nested (body g) := by
  unfold Argument.body
  split
  · exact (h.nested.of_cons rfl).of_cons rfl
  · exact h.nested

/-- In front of a segment that is not empty an argument is read. -/
theorem ofTokens_segment_append (h : Segment g) (hne : g ≠ []) (rest : List Token) :
    ofTokens (g ++ rest) = ofSegment (g ++ rest) :: ofTokens (skipToComma (trail (g ++ rest))) := by
  cases g with
  | nil => exact absurd rfl hne
  | cons token g => rw [List.cons_append, ofTokens_cons h.first_ne, next_eq]

theorem stopsShort_eq_unfinished (hne : g ≠ []) : stopsShort (body g) = unfinished g := by
  simp [unfinished, hne]

theorem ne_nil_of_unfinished (h : unfinished g = true) : g ≠ [] := by
  rintro rfl
  cases h

/-- A segment is read by itself if it is finished and no comma stands behind its value. -/
theorem ofTokens_segment (h : Segment g) (hne : g ≠ []) (hfinished : unfinished g = false)
    (htrail : Token.comma ∉ trail g) (hrest : Ends rest) :
    ofTokens (g ++ rest) = ofSegment g :: ofTokens rest := by
  have hcolon : rest.head? ≠ some .colon := by rcases hrest with rfl | ⟨tail, rfl⟩ <;> simp
  obtain ⟨hlabel, hbody⟩ := label?_append hne hcolon
  have hvalue := readValue_append h.body ((stopsShort_eq_unfinished hne).trans hfinished) hrest
  have hargument : ofSegment (g ++ rest) = ofSegment g := by
    rw [ofSegment, hlabel, hbody, hvalue, ofSegment]
  have hbehind : trail (g ++ rest) = trail g ++ rest := by rw [trail, hbody, hvalue, trail]
  rw [ofTokens_segment_append h hne, hargument, hbehind, skipToComma_append htrail,
    skipToComma_of_ends hrest]

/-- An unfinished segment takes in what follows its comma, up to the next one. -/
theorem ofTokens_unfinished (h : Segment g) (hshort : unfinished g = true)
    (hdot : rest.head? ≠ some .dot) (hgroup : rest.head? ≠ some .leftParen) :
    ofTokens (g ++ .comma :: rest) = ofSegment g :: ofTokens (skipToComma rest) := by
  have hne := ne_nil_of_unfinished hshort
  have hcolon : (Token.comma :: rest).head? ≠ some .colon := by simp
  obtain ⟨hlabel, hbody⟩ := label?_append hne hcolon
  obtain ⟨hvalue, -⟩ :=
    readValue_comma ((stopsShort_eq_unfinished hne).trans hshort) hdot hgroup
  have hargument : ofSegment (g ++ .comma :: rest) = ofSegment g := by
    rw [ofSegment, hlabel, hbody, hvalue, ofSegment]
  have hbehind : trail (g ++ .comma :: rest) = rest := by rw [trail, hbody, hvalue]
  rw [ofTokens_segment_append h hne, hargument, hbehind]

/-- The last segment is read by itself even if it is unfinished. -/
theorem ofTokens_last (h : Segment g) (hne : g ≠ []) (htrail : Token.comma ∉ trail g) :
    ofTokens g = [ofSegment g] := by
  have hread := ofTokens_segment_append h hne []
  have hskip := skipToComma_append htrail []
  rw [List.append_nil] at hread hskip
  rw [hread, hskip, skipToComma, ofTokens_nil]

end Arguments

section Runs

variable {tokens : List Token} {gs : List (List Token)}

/-- No comma follows a value in its own segment, and nothing follows an unfinished segment but
another comma or the end. -/
structure Separate (gs : List (List Token)) : Prop where
  trailing : ∀ g ∈ gs, Token.comma ∉ trail g
  finished : gs.IsChain fun g next => unfinished g = true → next = []

instance : DecidablePred Separate := fun gs =>
  decidable_of_iff
    ((∀ g ∈ gs, Token.comma ∉ trail g) ∧ gs.IsChain fun g next => unfinished g = true → next = [])
    ⟨fun h => ⟨h.1, h.2⟩, fun h => ⟨h.1, h.2⟩⟩

def ofSegments (gs : List (List Token)) : List Argument := (gs.filter (· ≠ [])).map ofSegment

theorem ofSegments_nil_cons (gs : List (List Token)) : ofSegments ([] :: gs) = ofSegments gs := rfl

theorem ofSegments_cons {g : List Token} (hne : g ≠ []) (gs : List (List Token)) :
    ofSegments (g :: gs) = ofSegment g :: ofSegments gs := by
  simp [ofSegments, hne]

/-- One comma after another separates the arguments. -/
theorem ofTokens_of_cut (hcut : Cut tokens gs) (h : Separate gs) :
    ofTokens tokens = ofSegments gs := by
  induction hcut with
  | @last g hg =>
    have htrail : Token.comma ∉ trail g := h.trailing g List.mem_cons_self
    by_cases hne : g = []
    · subst hne
      exact ofTokens_nil
    · rw [ofTokens_last hg hne htrail, ofSegments_cons hne]
      rfl
  | @comma g rest gs hg hrest ih =>
    have htrail : Token.comma ∉ trail g := h.trailing g List.mem_cons_self
    have hgs : ofTokens rest = ofSegments gs :=
      ih ⟨fun g' hg' => h.trailing g' (List.mem_cons_of_mem _ hg'), h.finished.tail⟩
    by_cases hne : g = []
    · subst hne
      rw [List.nil_append, ofTokens_comma_cons, hgs, ofSegments_nil_cons]
    rw [ofSegments_cons hne, ← hgs]
    cases hshort : unfinished g with
    | false =>
      rw [ofTokens_segment hg hne hshort htrail (Or.inr ⟨rest, rfl⟩), ofTokens_comma_cons]
    | true =>
      obtain ⟨next, gs, rfl⟩ := List.exists_cons_of_ne_nil hrest.ne_nil
      have hempty : next = [] := (List.isChain_cons_cons.mp h.finished).1 hshort
      subst hempty
      have hends : Ends rest := hrest.ends
      have hdot : rest.head? ≠ some .dot := hends.not_dot
      have hgroup : rest.head? ≠ some .leftParen := by
        rcases hends with rfl | ⟨tail, rfl⟩ <;> simp
      rw [ofTokens_unfinished hg hshort hdot hgroup, skipToComma_of_ends hends]

end Runs

section Exactness

variable {g : List Token}

theorem body_suffix (g : List Token) : body g <:+ g := by
  unfold body
  split
  · exact (List.suffix_cons _ _).trans (List.suffix_cons _ _)
  · exact List.suffix_rfl

theorem trail_suffix (g : List Token) : trail g <:+ g :=
  (readValue_suffix (body g)).trans (body_suffix g)

theorem skipToComma_of_mem {t : List Token} (h : Token.comma ∈ t) :
    ∃ tail, skipToComma t = .comma :: tail := by
  fun_induction skipToComma t with
  | case1 => cases h
  | case2 rest => exact ⟨rest, rfl⟩
  | case3 token rest hne ih => exact ih (List.mem_of_ne_of_mem (Ne.symm hne) h)

theorem eq_comma_of_ofTokens_eq_nil {t : List Token} (h : ofTokens t = []) :
    ∀ token ∈ t, token = .comma := by
  induction t with
  | nil => simp
  | cons token t ih =>
    by_cases hcomma : token = .comma
    · subst hcomma
      rw [ofTokens_comma_cons] at h
      simpa using ih h
    · rw [ofTokens_cons hcomma] at h
      cases h

/-- If a comma stands behind the value, what stands behind that comma makes another argument. -/
theorem Segment.ofTokens_trail_ne (h : Segment g) (hcomma : Token.comma ∈ trail g) :
    ofTokens (skipToComma (trail g)) ≠ [] := by
  intro hnil
  obtain ⟨tail, htail⟩ := skipToComma_of_mem hcomma
  have hcommas := eq_comma_of_ofTokens_eq_nil hnil
  obtain ⟨front, hfront⟩ := (skipToComma_suffix (trail g)).trans (trail_suffix g)
  rw [htail] at hcommas hfront
  have hlast : g.getLast? = some .comma := by
    rw [← hfront, List.getLast?_append_of_ne_nil _ (List.cons_ne_nil _ tail),
      List.getLast?_eq_getLast_of_ne_nil (List.cons_ne_nil _ tail)]
    exact congrArg some (hcommas _ (List.getLast_mem _))
  exact h.noComma (h.nested.comma_outside hlast)

/-- A segment is read by itself, whatever comes next, just if it is finished and no comma stands
behind its value. -/
theorem Segment.alone_iff (h : Segment g) (hne : g ≠ []) :
    (∀ rest, Ends rest → ofTokens (g ++ rest) = ofSegment g :: ofTokens rest) ↔
      unfinished g = false ∧ Token.comma ∉ trail g := by
  constructor
  · intro halone
    constructor
    · by_contra hshort
      rw [Bool.not_eq_false] at hshort
      -- the word in the next segment is lost
      have hnext := halone [.comma, .word "x"] (Or.inr ⟨_, rfl⟩)
      rw [ofTokens_unfinished h hshort (by simp) (by simp), ofTokens_comma_cons,
        ofTokens_cons (by simp)] at hnext
      simp [skipToComma] at hnext
    · intro hcomma
      have hnext := halone [] (Or.inl rfl)
      have hread := ofTokens_segment_append h hne []
      rw [List.append_nil] at hnext hread
      rw [hnext, ofTokens_nil] at hread
      exact h.ofTokens_trail_ne hcomma (List.cons.inj hread).2.symm
  · rintro ⟨hfinished, htrail⟩ rest hrest
    exact ofTokens_segment h hne hfinished htrail hrest

theorem ofSegment_name_eq_some_iff (name : String) :
    (ofSegment g).name = some name ↔ ∃ rest, g = .word name :: .colon :: rest := by
  show label? g = some name ↔ _
  unfold label?
  split
  · simp
  · rename_i hname
    simp only [reduceCtorEq, false_iff, not_exists]
    intro rest heq
    exact hname name rest heq

end Exactness

/-- One argument is read for each segment that is not empty, in order, where the segments can be
told apart, and its name is set just where the segment begins with a word and a colon. A segment
takes in nothing of what comes next, and makes up no more than one argument, just if it is finished
and no comma stands behind its value. -/
theorem readAll_segments {s : List Char} {tokens : List Token} (hs : Token.readAll s = .ok tokens)
    (h : Nested tokens) :
    (Separate (segments 0 tokens) → readAll s = .ok (ofSegments (segments 0 tokens))) ∧
    ∀ g ∈ segments 0 tokens, g ≠ [] →
      (∀ name, (ofSegment g).name = some name ↔ ∃ rest, g = .word name :: .colon :: rest) ∧
      ((∀ rest, Ends rest → ofTokens (g ++ rest) = ofSegment g :: ofTokens rest) ↔
        unfinished g = false ∧ Token.comma ∉ trail g) := by
  have hcut := cut_segments h
  refine ⟨fun hseparate => ?_, fun g hg hne => ⟨ofSegment_name_eq_some_iff, ?_⟩⟩
  · rw [readAll, hs]
    exact congrArg Except.ok (ofTokens_of_cut hcut hseparate)
  · exact (hcut.segment g hg).alone_iff hne

def roughText : String :=
  "f(a, [b, c]) x, , name: \"a,b\" y, fields: [id, (p, q)], map: , , r."

theorem readAll_segments_rough :
    readAll roughText.toList = .ok [⟨none, .other⟩, ⟨some "name", .text "a,b"⟩,
      ⟨some "fields", .list ["id"]⟩, ⟨some "map", .other⟩, ⟨none, .word "r"⟩] := by
  have hs : Token.readAll roughText.toList = .ok [.word "f", .leftParen, .word "a", .comma,
      .leftBracket, .word "b", .comma, .word "c", .rightBracket, .rightParen, .word "x", .comma,
      .comma, .word "name", .colon, .text "a,b", .word "y", .comma, .word "fields", .colon,
      .leftBracket, .word "id", .comma, .leftParen, .word "p", .comma, .word "q", .rightParen,
      .rightBracket, .comma, .word "map", .colon, .comma, .comma, .word "r", .dot] := by
    decide +kernel
  exact (readAll_segments hs (by decide)).1 (by decide)

/-- A value that is missing lets the next argument go, and a comma in a group behind a value makes
an argument of what follows it. -/
theorem readAll_not_by_segments :
    (∃ tokens, Token.readAll "fields: , references: [id]".toList = .ok tokens ∧ Nested tokens ∧
      ofSegments (segments 0 tokens) =
        [⟨some "fields", .other⟩, ⟨some "references", .list ["id"]⟩] ∧
      readAll "fields: , references: [id]".toList = .ok [⟨some "fields", .other⟩]) ∧
    ∃ tokens, Token.readAll "\"x\" (b, c)".toList = .ok tokens ∧ Nested tokens ∧
      ofSegments (segments 0 tokens) = [⟨none, .text "x"⟩] ∧
      readAll "\"x\" (b, c)".toList = .ok [⟨none, .text "x"⟩, ⟨none, .word "c"⟩] := by
  refine ⟨⟨[.word "fields", .colon, .comma, .word "references", .colon, .leftBracket, .word "id",
    .rightBracket], ?_⟩, ⟨[.text "x", .leftParen, .word "b", .comma, .word "c", .rightParen], ?_⟩⟩
  · decide +kernel
  · decide +kernel

end SchemaQuery.Argument
