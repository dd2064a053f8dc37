import SchemaQuery.Proofs.Json.QuotedText
import SchemaQuery.Proofs.Query.Literal
import SchemaQuery.Proofs.Token.Gap

/-!
# Texts that show a literal

A text shows a literal if the machine goes over it from wherever a value may stand to where the
value has been read, whatever is open and whatever follows. Containers show what their parts show.
-/

set_option autoImplicit false

namespace SchemaQuery.Literal

open SchemaQuery.Unicode SchemaQuery.Text
open Json (quoteChars)

def Apart (s : List Char) : Prop := ∀ c ∈ s.head?, isPlain c = false

theorem apart_cons {c : Char} (h : isPlain c = false) (s : List Char) : Apart (c :: s) := by
  intro d hd
  cases hd
  exact h

theorem isPlain_of_isWhite {c : Char} (h : isWhite c = true) : isPlain c = false := by
  have hword : isWordChar c = false := isWordChar_of_isWhite h
  have hne {d : Char} (hd : isWhite d = false) : c ≠ d := by
    rintro rfl
    rw [h] at hd
    cases hd
  have hdot : c ≠ '.' := hne (by decide)
  have hplus : c ≠ '+' := hne (by decide)
  have hminus : c ≠ '-' := hne (by decide)
  simp [isPlain, hword, hdot, hplus, hminus]

theorem apart_gap {g s : List Char} (hg : Gap g) (hs : Apart s) : Apart (g ++ s) := by
  cases hg with
  | nil => exact hs
  | white hc hg => exact apart_cons (isPlain_of_isWhite hc) _
  | comment hs hg => exact apart_cons (by decide) _

theorem pieces_of_skipGap {s t : List Char} (h : Token.skipGap false s = Token.skipGap false t) :
    pieces s = pieces t := by
  have hnext : next? s = next? t := by rw [next?, next?, h]
  cases ht : next? t with
  | none => rw [pieces_of_end (hnext.trans ht), pieces_of_end ht]
  | some r => rw [pieces_of_piece (hnext.trans ht), pieces_of_piece ht]

theorem pieces_cons {c : Char} (hw : isWhite c = false) (hc : c ≠ '/') (s : List Char) :
    pieces (c :: s) = (cut c s).1 :: pieces (cut c s).2 := by
  apply pieces_of_piece
  rw [next?, Token.skipGap_of_solid hw hc]

section Resume

variable {state : State}

/-- What the piece leads to, and the text from there on. -/
theorem resume_cons {c : Char} (hw : isWhite c = false) (hc : c ≠ '/') {p : Piece}
    {s rest : List Char} (hcut : cut c s = (p, rest)) :
    resume state (c :: s) = (step state p).bind fun next => resume next rest := by
  unfold resume
  rw [pieces_cons hw hc, hcut, List.foldlM_cons]
  exact Option.bind_assoc _ _ _

theorem resume_gap {g : List Char} (h : Gap g) (s : List Char) :
    resume state (g ++ s) = resume state s := by
  unfold resume
  rw [pieces_of_skipGap (h.skip s)]

theorem resume_mark {c : Char} (h : isMark c = true) (s : List Char) :
    resume state (c :: s) = (step state (.mark c)).bind fun next => resume next s := by
  have hcut : cut c s = (.mark c, s) := if_pos h
  simp only [isMark, Bool.or_eq_true, beq_iff_eq] at h
  rcases h with ((((rfl | rfl) | rfl) | rfl) | rfl) | rfl
  all_goals exact resume_cons (by decide) (by decide) hcut

theorem resume_quoteChars (t : String) (s : List Char) :
    resume state (quoteChars t ++ s) = (step state (.text t)).bind fun next => resume next s := by
  rw [quoteChars, List.cons_append, List.append_assoc, List.singleton_append]
  apply resume_cons (by decide) (by decide)
  rw [cut, if_neg (by decide), if_pos rfl, Json.readText_escaped]

theorem isPlain_foreign {c : Char} (h : isPlain c = true) :
    isWhite c = false ∧ c ≠ '/' ∧ isMark c = false ∧ c ≠ '"' := by
  have hne {d : Char} (hd : isPlain d = false) : c ≠ d := by
    rintro rfl
    rw [h] at hd
    cases hd
  refine ⟨?_, hne (by decide), ?_, hne (by decide)⟩
  · rw [Bool.eq_false_iff]
    intro hw
    rw [isPlain_of_isWhite hw] at h
    cases h
  · rw [Bool.eq_false_iff]
    intro hm
    simp only [isMark, Bool.or_eq_true, beq_iff_eq] at hm
    rcases hm with ((((rfl | rfl) | rfl) | rfl) | rfl) | rfl
    all_goals exact absurd h (by decide)

theorem resume_word {w : String} (hne : w.toList ≠ []) (hw : ∀ c ∈ w.toList, isPlain c = true)
    {s : List Char} (hs : Apart s) :
    resume state (w.toList ++ s) = (step state (.word w)).bind fun next => resume next s := by
  cases hl : w.toList with
  | nil => exact absurd hl hne
  | cons c t =>
    rw [hl] at hw
    have hc := isPlain_foreign (hw c List.mem_cons_self)
    have ht : ∀ d ∈ t, isPlain d = true := fun d hd => hw d (List.mem_cons_of_mem _ hd)
    have htake := cut_append ht hs
    have hword : String.ofList (c :: t) = w := by rw [← hl, String.ofList_toList]
    rw [List.cons_append]
    apply resume_cons hc.1 hc.2.1
    rw [cut, hc.2.2.1, if_neg (by simp), if_neg hc.2.2.2, if_pos (hw c List.mem_cons_self), htake.1,
      htake.2, hword]

end Resume

def Mode.Opens (mode : Mode) : Prop := mode = .value ∨ mode = .first

def Mode.OpensKey (mode : Mode) : Prop := mode = .key ∨ mode = .firstKey

def Shows (s : List Char) (v : Literal) : Prop :=
  ∀ (frames : List Frame) (mode : Mode) (rest : List Char), mode.Opens → Apart rest →
    resume ⟨frames, mode⟩ (s ++ rest) = resume ⟨frames, .after v⟩ rest

def ShowsKey (s : List Char) (key : String) : Prop :=
  ∀ (done : List (String × Literal)) (last : String) (frames : List Frame) (mode : Mode)
    (rest : List Char), mode.OpensKey → Apart rest →
      resume ⟨.object done last :: frames, mode⟩ (s ++ rest) =
        resume ⟨.object done key :: frames, .colon⟩ rest

def ShowsItems (s : List Char) (items : List Literal) : Prop :=
  ∀ (done : List Literal) (frames : List Frame) (mode : Mode) (rest : List Char), mode.Opens →
    resume ⟨.array done :: frames, mode⟩ (s ++ ']' :: rest) =
      resume ⟨frames, .after (.array (done ++ items))⟩ rest

def ShowsMembers (s : List Char) (members : List (String × Literal)) : Prop :=
  ∀ (done : List (String × Literal)) (last : String) (frames : List Frame) (mode : Mode)
    (rest : List Char), mode.OpensKey →
      resume ⟨.object done last :: frames, mode⟩ (s ++ '}' :: rest) =
        resume ⟨frames, .after (.object (done ++ members))⟩ rest

theorem step_opens {frames : List Frame} {mode : Mode} (h : mode.Opens) {p : Piece}
    (hp : p ≠ .mark ']') : step ⟨frames, mode⟩ p = open? frames p := by
  rcases h with rfl | rfl
  · rfl
  · unfold step
    split
    · rename_i heq
      cases heq
    · dsimp only
      split
      · exact absurd rfl hp
      · rfl
    all_goals
      rename_i heq
      cases heq

theorem step_opensKey {done : List (String × Literal)} {last : String} {frames : List Frame}
    {mode : Mode} (h : mode.OpensKey) {p : Piece} {key : String} (hp : key? p = some key) :
    step ⟨.object done last :: frames, mode⟩ p = some ⟨.object done key :: frames, .colon⟩ := by
  have htake : takeKey? (.object done last :: frames) p =
      some ⟨.object done key :: frames, .colon⟩ := by
    rw [takeKey?, hp]
    rfl
  rcases h with rfl | rfl
  · exact htake
  · cases p with
    | mark c => cases hp
    | stray c => cases hp
    | word w =>
      rw [← htake]
      cases done <;> rfl
    | text t =>
      rw [← htake]
      cases done <;> rfl

namespace Shows

theorem text (t : String) : Shows (quoteChars t) (.text t) := by
  intro frames mode rest hmode _
  rw [resume_quoteChars, step_opens hmode (by simp)]
  rfl

theorem word {w : String} {v : Literal} (hne : w.toList ≠ [])
    (hw : ∀ c ∈ w.toList, isPlain c = true) (hv : scalar? w = some v) : Shows w.toList v := by
  intro frames mode rest hmode hrest
  rw [resume_word hne hw hrest, step_opens hmode (by simp), open?, hv]
  rfl

theorem array {s : List Char} {items : List Literal} (h : ShowsItems s items) :
    Shows ('[' :: (s ++ [']'])) (.array items) := by
  intro frames mode rest hmode _
  rw [List.cons_append, List.append_assoc, resume_mark (by decide), step_opens hmode (by simp)]
  exact h [] frames .first rest (Or.inr rfl)

theorem array_nil {g : List Char} (h : Gap g) : Shows ('[' :: (g ++ [']'])) (.array []) := by
  intro frames mode rest hmode _
  rw [List.cons_append, List.append_assoc, resume_mark (by decide), step_opens hmode (by simp)]
  show resume ⟨.array [] :: frames, .first⟩ (g ++ ']' :: rest) = _
  rw [resume_gap h, resume_mark (by decide)]
  rfl

theorem object {s : List Char} {members : List (String × Literal)} (h : ShowsMembers s members) :
    Shows ('{' :: (s ++ ['}'])) (.object members) := by
  intro frames mode rest hmode _
  rw [List.cons_append, List.append_assoc, resume_mark (by decide), step_opens hmode (by simp)]
  exact h [] "" frames .firstKey rest (Or.inr rfl)

theorem object_nil {g : List Char} (h : Gap g) : Shows ('{' :: (g ++ ['}'])) (.object []) := by
  intro frames mode rest hmode _
  rw [List.cons_append, List.append_assoc, resume_mark (by decide), step_opens hmode (by simp)]
  show resume ⟨.object [] "" :: frames, .firstKey⟩ (g ++ '}' :: rest) = _
  rw [resume_gap h, resume_mark (by decide)]
  rfl

/-- A text that shows a literal is read as it. -/
theorem read_eq {s : List Char} {v : Literal} (h : Shows s v) : read s = some v := by
  have hread := h [] .value [] (Or.inl rfl) (fun c hc => by cases hc)
  rw [List.append_nil] at hread
  rw [read, hread, resume, pieces_of_end rfl]
  rfl

end Shows

theorem ShowsKey.quoted (key : String) : ShowsKey (quoteChars key) key := by
  intro done last frames mode rest hmode _
  rw [resume_quoteChars, step_opensKey hmode rfl]
  rfl

theorem ShowsKey.bare {key : String} (hne : key.toList ≠ [])
    (h : ∀ c ∈ key.toList, isWordChar c = true) : ShowsKey key.toList key := by
  intro done last frames mode rest hmode hrest
  have hplain : ∀ c ∈ key.toList, isPlain c = true := by
    intro c hc
    simp [isPlain, h c hc]
  have hkey : key? (.word key) = some key := if_pos (List.all_eq_true.2 h)
  rw [resume_word hne hplain hrest, step_opensKey hmode hkey]
  rfl

namespace ShowsItems

variable {s t g : List Char} {v : Literal} {items : List Literal}

theorem gap (hg : Gap g) (h : ShowsItems s items) : ShowsItems (g ++ s) items := by
  intro done frames mode rest hmode
  rw [List.append_assoc, resume_gap hg]
  exact h done frames mode rest hmode

theorem last (hs : Shows s v) (hg : Gap g) : ShowsItems (s ++ g) [v] := by
  intro done frames mode rest hmode
  have hapart : Apart (']' :: rest) := apart_cons (by decide) rest
  rw [List.append_assoc, hs _ mode _ hmode (apart_gap hg hapart), resume_gap hg,
    resume_mark (by decide)]
  rfl

theorem cons (hs : Shows s v) (h : ShowsItems t items) :
    ShowsItems (s ++ ',' :: t) (v :: items) := by
  intro done frames mode rest hmode
  have hrest := h (done ++ [v]) frames .value rest (Or.inl rfl)
  rw [List.append_assoc, List.singleton_append] at hrest
  rw [List.append_assoc, List.cons_append, hs _ mode _ hmode (apart_cons (by decide) _),
    resume_mark (by decide)]
  exact hrest

end ShowsItems

def ShowsMember (s : List Char) (m : String × Literal) : Prop :=
  ∃ k g v, s = k ++ ':' :: (g ++ v) ∧ ShowsKey k m.1 ∧ Gap g ∧ Shows v m.2

theorem ShowsMember.resume_append {s : List Char} {m : String × Literal} (h : ShowsMember s m)
    {done : List (String × Literal)} {last : String} {frames : List Frame} {mode : Mode}
    {rest : List Char} (hmode : mode.OpensKey) (hrest : Apart rest) :
    resume ⟨.object done last :: frames, mode⟩ (s ++ rest) =
      resume ⟨.object done m.1 :: frames, .after m.2⟩ rest := by
  obtain ⟨k, g, v, rfl, hk, hg, hv⟩ := h
  rw [List.append_assoc, List.cons_append, hk done last frames mode _ hmode
    (apart_cons (by decide) _), resume_mark (by decide)]
  show resume ⟨.object done m.1 :: frames, .value⟩ (g ++ v ++ rest) = _
  rw [List.append_assoc, resume_gap hg]
  exact hv _ .value rest (Or.inl rfl) hrest

namespace ShowsMembers

variable {s t g : List Char} {m : String × Literal} {members : List (String × Literal)}

theorem gap (hg : Gap g) (h : ShowsMembers s members) : ShowsMembers (g ++ s) members := by
  intro done last frames mode rest hmode
  rw [List.append_assoc, resume_gap hg]
  exact h done last frames mode rest hmode

theorem last (hs : ShowsMember s m) (hg : Gap g) : ShowsMembers (s ++ g) [m] := by
  intro done last frames mode rest hmode
  have hapart : Apart ('}' :: rest) := apart_cons (by decide) rest
  rw [List.append_assoc, hs.resume_append hmode (apart_gap hg hapart), resume_gap hg,
    resume_mark (by decide)]
  rfl

theorem cons (hs : ShowsMember s m) (h : ShowsMembers t members) :
    ShowsMembers (s ++ ',' :: t) (m :: members) := by
  intro done last frames mode rest hmode
  have hrest := h (done ++ [m]) m.1 frames .key rest (Or.inl rfl)
  rw [List.append_assoc, List.singleton_append] at hrest
  rw [List.append_assoc, List.cons_append, hs.resume_append hmode (apart_cons (by decide) _),
    resume_mark (by decide)]
  exact hrest

end ShowsMembers

end SchemaQuery.Literal
