import SchemaQuery.Json.TextScan
import SchemaQuery.Proofs.Json.Spacing

/-!
# Quoted texts are read back

Every text is read back from its escaped form, whatever characters it holds.
-/

set_option autoImplicit false

namespace SchemaQuery.Json

def pieceOf (c : Char) : Unit16 :=
  if (shortEscape? c).isNone ∧ c.toNat < 0x20 then .unit c.toNat else .char c

theorem escaped?_of_shortEscape? {c e : Char} (h : shortEscape? c = some e) :
    escaped? e = some c ∧ e ≠ 'u' := by
  unfold shortEscape? at h
  split at h
  all_goals
    cases h
  all_goals exact ⟨rfl, by decide⟩

theorem scanText_short {e c : Char} (h : escaped? e = some c) (hu : e ≠ 'u') (s : List Char) :
    scanText ('\\' :: e :: s) = scanText.keep (.char c) (scanText s) := by
  rw [scanText]
  · rw [h]
  · intro a b c d t he
    exact absurd he hu
  · intro he
    exact absurd he hu

theorem hexUnit?_control : ∀ n < 32,
    hexUnit? '0' '0' (Nat.digitChar (n / 16)) (Nat.digitChar (n % 16)) = some n := by
  decide

theorem scanText_plain {c : Char} (hq : c ≠ '"') (hb : c ≠ '\\') (hc : ¬ c.toNat < 0x20)
    (s : List Char) : scanText (c :: s) = scanText.keep (.char c) (scanText s) := by
  rw [scanText]
  · rw [if_neg hq, if_neg hc]
  · intro he _
    exact absurd he hb
  · intro a b d e t he
    exact absurd he hb
  · intro t he
    exact absurd he hb
  · intro d t he
    exact absurd he hb

theorem scanText_escapeChar (c : Char) (s : List Char) :
    scanText (escapeChar c ++ s) = scanText.keep (pieceOf c) (scanText s) := by
  unfold escapeChar pieceOf
  cases he : shortEscape? c with
  | some e =>
    obtain ⟨hback, hu⟩ := escaped?_of_shortEscape? he
    have hpiece : ¬ ((some e).isNone = true ∧ c.toNat < 0x20) := by simp
    rw [if_neg hpiece]
    exact scanText_short hback hu s
  | none =>
    by_cases hc : c.toNat < 0x20
    · have hhex := hexUnit?_control c.toNat hc
      simp only [hc, if_true, Option.isNone_none, and_self, List.cons_append, List.nil_append]
      rw [scanText, hhex]
    · have hq : c ≠ '"' := by
        rintro rfl
        cases he
      have hb : c ≠ '\\' := by
        rintro rfl
        cases he
      simp only [hc, if_false, and_false]
      exact scanText_plain hq hb hc s

theorem scanText_escaped (cs : List Char) (rest : List Char) :
    scanText (cs.flatMap escapeChar ++ '"' :: rest) = (cs.map pieceOf, .ok rest) := by
  induction cs with
  | nil => rfl
  | cons c cs ih =>
    rw [List.flatMap_cons, List.append_assoc, scanText_escapeChar, ih]
    rfl

theorem joinUnits_unit {n : Nat} (htrail : isTrail n = false) (hlead : isLead n = false)
    (rest : List Unit16) :
    joinUnits none (.unit n :: rest) = (joinUnits none rest).map (Char.ofNat n :: ·) := by
  conv => lhs; unfold joinUnits
  simp only [htrail, hlead, Bool.false_eq_true, if_false]

theorem joinUnits_pieceOf (cs : List Char) : joinUnits none (cs.map pieceOf) = .ok cs := by
  induction cs with
  | nil => rfl
  | cons c cs ih =>
    rw [List.map_cons, pieceOf]
    by_cases h : (shortEscape? c).isNone ∧ c.toNat < 0x20
    · have htrail : isTrail c.toNat = false := by
        have hlow := h.2
        simp only [isTrail, Bool.and_eq_false_iff, decide_eq_false_iff_not]
        omega
      have hlead : isLead c.toNat = false := by
        have hlow := h.2
        simp only [isLead, Bool.and_eq_false_iff, decide_eq_false_iff_not]
        omega
      rw [if_pos h, joinUnits_unit htrail hlead, ih, Char.ofNat_toNat]
      rfl
    · rw [if_neg h, joinUnits, ih]
      rfl

/-- A text is read back from its characters between quotes. -/
theorem readText_escaped (s : String) (rest : List Char) :
    readText (s.toList.flatMap escapeChar ++ '"' :: rest) = .whole (some s) rest := by
  rw [readText, scanText_escaped]
  show QuotedText.whole
    ((joinUnits none (s.toList.map pieceOf)).toOption.map String.ofList) rest = _
  rw [joinUnits_pieceOf]
  show QuotedText.whole (some (String.ofList s.toList)) rest = _
  rw [String.ofList_toList]

end SchemaQuery.Json
