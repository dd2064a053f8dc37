import SchemaQuery.Proofs.Text.Lines

/-!
# Texts with other margins

White space at either end of a line can be put there, taken away or changed without a change of the
trimmed lines. Two texts of this sort are compared from left to right: they are equal but for white
space around their line feeds, so that they can be cut alike at every character that is not white.
-/

set_option autoImplicit false

namespace SchemaQuery.Text

open SchemaQuery.Unicode

def SameLines (s t : List Char) : Prop :=
  (pieces '\n' s).map trim = (pieces '\n' t).map trim

instance (s t : List Char) : Decidable (SameLines s t) :=
  inferInstanceAs (Decidable ((pieces '\n' s).map trim = (pieces '\n' t).map trim))

def Margin (s : List Char) : Prop := isBlank s = true ∧ '\n' ∉ s

theorem margin_nil : Margin [] := ⟨rfl, List.not_mem_nil⟩

inductive Respaced : List Char → List Char → Prop where
  | nil : Respaced [] []
  | cons {c : Char} {s t : List Char} : c ≠ '\n' → Respaced s t → Respaced (c :: s) (c :: t)
  | feed {before before' after after' s t : List Char} :
    Margin before → Margin before' → Margin after → Margin after' → Respaced s t →
      Respaced (before ++ '\n' :: (after ++ s)) (before' ++ '\n' :: (after' ++ t))

namespace Respaced

variable {s t u v : List Char}

theorem symm (h : Respaced s t) : Respaced t s := by
  induction h with
  | nil => exact .nil
  | cons hc _ ih => exact .cons hc ih
  | feed hb hb' ha ha' _ ih => exact .feed hb' hb ha' ha ih

theorem append_left {w : List Char} (hw : '\n' ∉ w) (h : Respaced s t) :
    Respaced (w ++ s) (w ++ t) := by
  induction w with
  | nil => exact h
  | cons c w ih =>
    rw [List.mem_cons, not_or] at hw
    exact .cons (Ne.symm hw.1) (ih hw.2)

theorem append (h : Respaced s t) (h' : Respaced u v) : Respaced (s ++ u) (t ++ v) := by
  induction h with
  | nil => exact h'
  | cons hc _ ih => exact .cons hc ih
  | feed hb hb' ha ha' _ ih =>
    simp only [List.append_assoc, List.cons_append]
    exact .feed hb hb' ha ha' ih

theorem eq_nil (h : Respaced [] t) : t = [] := by
  generalize hs : ([] : List Char) = s at h
  cases h with
  | nil => rfl
  | cons => cases hs
  | feed => simp at hs

theorem isBlank_break {before after : List Char} (hb : Margin before) (ha : Margin after) :
    isBlank (before ++ '\n' :: after) = true := by
  have hafter : isBlank ('\n' :: after) = true := by
    rw [isBlank, List.all_cons, Bool.and_eq_true]
    exact ⟨by decide, ha.1⟩
  rw [isBlank_append, hb.1, hafter]
  rfl

/-- The texts can be cut alike at a character that is not white. -/
theorem split {front rest : List Char} {c : Char} (hc : isWhite c = false)
    (h : Respaced (front ++ c :: rest) t) :
    ∃ front' rest', t = front' ++ c :: rest' ∧ Respaced front front' ∧ Respaced rest rest' := by
  generalize hs : front ++ c :: rest = s at h
  induction h generalizing front with
  | nil => simp at hs
  | @cons d s t hd h ih =>
    cases front with
    | nil =>
      rw [List.nil_append, List.cons.injEq] at hs
      obtain ⟨rfl, rfl⟩ := hs
      exact ⟨[], t, rfl, .nil, h⟩
    | cons e front =>
      rw [List.cons_append, List.cons.injEq] at hs
      obtain ⟨front', rest', ht, hfront, hrest⟩ := ih hs.2
      rw [hs.1, ht]
      exact ⟨d :: front', rest', rfl, .cons hd hfront, hrest⟩
  | @feed before before' after after' s t hb hb' ha ha' h ih =>
    have hsplit : (before ++ '\n' :: after) ++ s = front ++ c :: rest := by
      rw [hs, List.append_assoc, List.cons_append]
    obtain ⟨more, rfl, hmore⟩ := of_isBlank_append (isBlank_break hb ha) hc hsplit
    obtain ⟨front', rest', ht, hfront, hrest⟩ := ih hmore.symm
    refine ⟨before' ++ '\n' :: (after' ++ front'), rest', ?_, ?_, hrest⟩
    · rw [ht]
      simp only [List.append_assoc, List.cons_append]
    · rw [List.append_assoc, List.cons_append]
      exact .feed hb hb' ha ha' hfront

theorem mem {c : Char} (hc : isWhite c = false) (h : Respaced s t) (hs : c ∈ s) : c ∈ t := by
  obtain ⟨front, rest, rfl⟩ := List.append_of_mem hs
  obtain ⟨front', rest', rfl, -⟩ := h.split hc
  simp

theorem of_cons {c : Char} (hc : isWhite c = false) (h : Respaced (c :: s) t) :
    ∃ t', t = c :: t' ∧ Respaced s t' := by
  have hcut : Respaced ([] ++ c :: s) t := h
  obtain ⟨front, rest, rfl, hfront, hrest⟩ := hcut.split hc
  rw [hfront.eq_nil]
  exact ⟨rest, rfl, hrest⟩

theorem of_append {w : List Char} (hw : ∀ c ∈ w, isWhite c = false) (h : Respaced (w ++ s) t) :
    ∃ t', t = w ++ t' ∧ Respaced s t' := by
  induction w generalizing t with
  | nil => exact ⟨t, rfl, h⟩
  | cons c w ih =>
    obtain ⟨t', rfl, h'⟩ := h.of_cons (hw c List.mem_cons_self)
    obtain ⟨rest, rfl, hrest⟩ := ih (fun d hd => hw d (List.mem_cons_of_mem _ hd)) h'
    exact ⟨rest, rfl, hrest⟩

theorem opensWord_eq (h : Respaced s t) (hs : opensWord s = false) : opensWord t = false := by
  cases t with
  | nil => rfl
  | cons c t =>
    by_contra hc
    have hword : isWordChar c = true := by simpa [opensWord] using hc
    obtain ⟨s', rfl, -⟩ := h.symm.of_cons (isWhite_of_isWordChar hword)
    rw [opensWord, hword] at hs
    cases hs

end Respaced

/-- The first pieces of such texts begin alike and end in white space; the others are the same when
they are trimmed. -/
theorem Respaced.pieces_eq {s t : List Char} (h : Respaced s t) :
    ∃ w ending ending' ps qs, pieces '\n' s = (w ++ ending) :: ps ∧
      pieces '\n' t = (w ++ ending') :: qs ∧ isBlank ending = true ∧ isBlank ending' = true ∧
      ps.map trim = qs.map trim := by
  induction h with
  | nil => exact ⟨[], [], [], [], [], rfl, rfl, rfl, rfl, rfl⟩
  | @cons c s t hc h ih =>
    obtain ⟨w, ending, ending', ps, qs, hs, ht, he, he', hrest⟩ := ih
    refine ⟨c :: w, ending, ending', ps, qs, ?_, ?_, he, he', hrest⟩
    · exact pieces_append_head (w := [c]) (by simp [Ne.symm hc]) hs
    · exact pieces_append_head (w := [c]) (by simp [Ne.symm hc]) ht
  | @feed before before' after after' s t hb hb' ha ha' h ih =>
    obtain ⟨w, ending, ending', ps, qs, hs, ht, he, he', hrest⟩ := ih
    refine ⟨[], before, before', (after ++ (w ++ ending)) :: ps, (after' ++ (w ++ ending')) :: qs,
      ?_, ?_, hb.1, hb'.1, ?_⟩
    · rw [pieces_append hb.2, pieces_append_head ha.2 hs]
      rfl
    · rw [pieces_append hb'.2, pieces_append_head ha'.2 ht]
      rfl
    · rw [List.map_cons, List.map_cons, trim_append_append ha.1 he, trim_append_append ha'.1 he',
        hrest]

theorem Respaced.sameLines {s t : List Char} (h : Respaced s t) : SameLines s t := by
  obtain ⟨w, ending, ending', ps, qs, hs, ht, he, he', hrest⟩ := h.pieces_eq
  rw [SameLines, hs, ht, List.map_cons, List.map_cons, trim_append_of_isBlank _ he,
    trim_append_of_isBlank _ he', hrest]

def fed (ps : List (List Char)) : List Char := ps.flatMap ('\n' :: ·)

theorem fed_pieces (s : List Char) : fed (pieces '\n' s) = '\n' :: s := by
  have hjoin : ∀ ps : List (List Char), ps ≠ [] → fed ps = '\n' :: joinPieces '\n' ps := by
    intro ps hne
    induction ps with
    | nil => exact absurd rfl hne
    | cons p ps ih =>
      cases ps with
      | nil => simp [fed, joinPieces]
      | cons q ps =>
        rw [joinPieces_cons _ _ (by simp), ← ih (by simp)]
        rfl
  rw [hjoin _ (pieces_ne_nil _ _), joinPieces_pieces]

theorem respaced_fed {ps qs : List (List Char)} (h : ps.map trim = qs.map trim)
    (hps : ∀ p ∈ ps, '\n' ∉ p) (hqs : ∀ q ∈ qs, '\n' ∉ q) {ending ending' : List Char}
    (he : Margin ending) (he' : Margin ending') :
    Respaced (ending ++ (fed ps ++ ['\n'])) (ending' ++ (fed qs ++ ['\n'])) := by
  induction ps generalizing qs ending ending' with
  | nil =>
    have hnil : qs = [] := by simpa [eq_comm] using h
    subst hnil
    exact .feed he he' margin_nil margin_nil .nil
  | cons p ps ih =>
    cases qs with
    | nil => simp at h
    | cons q qs =>
      rw [List.map_cons, List.map_cons, List.cons.injEq] at h
      obtain ⟨margin, rest, hmargin, hrest, hp⟩ := exists_trim p
      obtain ⟨margin', rest', hmargin', hrest', hq⟩ := exists_trim q
      have hp' := hps p List.mem_cons_self
      have hq' := hqs q List.mem_cons_self
      rw [hp, List.mem_append, List.mem_append, not_or, not_or] at hp'
      rw [hq, List.mem_append, List.mem_append, not_or, not_or] at hq'
      have htail := ih h.2 (fun x hx => hps x (List.mem_cons_of_mem _ hx))
        (fun x hx => hqs x (List.mem_cons_of_mem _ hx)) ⟨hrest, hp'.2.2⟩ ⟨hrest', hq'.2.2⟩
      have hline := Respaced.feed he he' ⟨hmargin, hp'.1⟩ ⟨hmargin', hq'.1⟩
        (htail.append_left hp'.2.1)
      rw [hp, hq, ← h.1]
      simpa only [fed, List.flatMap_cons, List.append_assoc, List.cons_append] using hline

/-- With line feeds on both sides, texts with the same trimmed lines are respaced. -/
theorem SameLines.respaced {s t : List Char} (h : SameLines s t) :
    Respaced ('\n' :: (s ++ ['\n'])) ('\n' :: (t ++ ['\n'])) := by
  have hfed := respaced_fed h (fun _ => notMem_of_mem_pieces) (fun _ => notMem_of_mem_pieces)
    margin_nil margin_nil
  rw [fed_pieces, fed_pieces] at hfed
  exact hfed

def withMargins (ending indent s : List Char) : List Char :=
  s.flatMap fun c => if c = '\n' then ending ++ '\n' :: indent else [c]

theorem respaced_withMargins {ending indent : List Char} (he : Margin ending) (hi : Margin indent)
    (s : List Char) : Respaced s (withMargins ending indent s) := by
  induction s with
  | nil => exact .nil
  | cons c s ih =>
    rw [withMargins, List.flatMap_cons]
    by_cases hc : c = '\n'
    · rw [if_pos hc, hc, List.append_assoc, List.cons_append]
      exact .feed margin_nil he margin_nil hi ih
    · rw [if_neg hc]
      exact .cons hc ih

end SchemaQuery.Text
