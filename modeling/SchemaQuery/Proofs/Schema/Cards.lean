import SchemaQuery.Proofs.Schema.Fields
import SchemaQuery.Proofs.Schema.Members
import SchemaQuery.Proofs.Unicode.Width
import SchemaQuery.Schema.Card

/-!
# The columns of a card

The lines of a card have the types of the fields in one column and their badges in another one, and
what stands on a line can be told from its words. The columns hang on one thing about the measure of
texts: where two texts have spaces between them, the widths of both and the spaces add up.
-/

set_option autoImplicit false

namespace SchemaQuery

open SchemaQuery.Unicode SchemaQuery.Text

namespace Text

def words (s : List Char) : List (List Char) := (s.splitOnP isWhite).filter (· != [])

theorem words_append_white {c : Char} (hc : isWhite c = true) (s t : List Char) :
    words (s ++ c :: t) = words s ++ words t := by
  rw [words, List.splitOnP_append_cons s t hc, List.filter_append]
  rfl

theorem words_blanks_append {blanks : List Char} (h : isBlank blanks = true) (t : List Char) :
    words (blanks ++ t) = words t := by
  induction blanks with
  | nil => rfl
  | cons c blanks ih =>
    rw [isBlank, List.all_cons, Bool.and_eq_true] at h
    have hcut := words_append_white h.1 [] (blanks ++ t)
    rw [List.nil_append] at hcut
    rw [List.cons_append, hcut, ih h.2]
    rfl

/-- Blanks between two texts, at least one, divide their words. -/
theorem words_append_blanks {blanks : List Char} (h : isBlank blanks = true) (hne : blanks ≠ [])
    (s t : List Char) : words (s ++ (blanks ++ t)) = words s ++ words t := by
  cases blanks with
  | nil => exact absurd rfl hne
  | cons c blanks =>
    rw [isBlank, List.all_cons, Bool.and_eq_true] at h
    rw [List.cons_append, words_append_white h.1, words_blanks_append h.2]

theorem words_trimRight (s : List Char) : words (trimRight s) = words s := by
  obtain ⟨ending, hending, hs⟩ := exists_trimRight s
  by_cases hne : ending = []
  · rw [hne, List.append_nil] at hs
    rw [← hs]
  · have hcut := words_append_blanks hending hne (trimRight s) []
    rw [List.append_nil, ← hs] at hcut
    rw [hcut]
    exact (List.append_nil _).symm

theorem endsSolid_trimRight (s : List Char) : EndsSolid (trimRight s) := by
  intro c hc
  rw [trimRight, List.getLast?_reverse] at hc
  exact of_mem_head?_dropWhile hc

def Unbroken (s : List Char) : Prop := s ≠ [] ∧ ∀ c ∈ s, isWhite c = false

theorem words_of_unbroken {w : List Char} (h : Unbroken w) : words w = [w] := by
  rw [words, List.splitOnP_eq_singleton h.2]
  simp [h.1]

theorem unbroken_of_isWord {s : List Char} (h : isWord s = true) : Unbroken s :=
  ⟨ne_nil_of_isWord h, fun _ hc => isWhite_of_isWordChar (isWordChar_of_isWord h hc)⟩

end Text

namespace Declaration

variable {line : List Char} {d : Declaration}

/-- The name and the type that are declared are words. -/
theorem isWord_of_ofLine? (h : ofLine? line = some d) :
    isWord d.name.toList = true ∧ isWord d.typeName.toList = true := by
  obtain ⟨⟨name, rest⟩, hname, h⟩ := Option.bind_eq_some_iff.1 h
  obtain ⟨-, -, h⟩ := Option.bind_eq_some_iff.1 h
  obtain ⟨⟨typeName, others⟩, htype, h⟩ := Option.bind_eq_some_iff.1 h
  cases h
  rw [String.toList_ofList, String.toList_ofList]
  exact ⟨(word?_eq_some_iff.1 hname).1, (word?_eq_some_iff.1 htype).1⟩

end Declaration

inductive Model.Parsed (types : ScalarTypes) : Model → Prop
  | block {text : List Char} {m : Model} : (Model.read types text).result = .ok m → Parsed types m
  | document {text : List Char} {d : Document} {m : Model} :
      (Document.read types text).result = .ok d → m ∈ d.models → Parsed types m

theorem Model.Parsed.exists_build {types : ScalarTypes} {m : Model} (h : m.Parsed types) :
    ∃ opened, m = Model.build types opened := by
  cases h with
  | @block text _ hread =>
    rw [Model.read_result] at hread
    cases hopen : BlockKind.model.open text with
    | error e =>
      rw [hopen] at hread
      cases hread
    | ok opened =>
      rw [hopen] at hread
      cases hread
      exact ⟨opened, rfl⟩
  | document hread hm =>
    obtain ⟨-, -, lines, -, hbuild⟩ := Document.exists_block hread hm
    exact ⟨_, hbuild⟩

/-- The names and the types of its fields are words. -/
theorem Model.Parsed.isWord {types : ScalarTypes} {m : Model} (h : m.Parsed types) {f : Field}
    (hf : f ∈ m.fields) : isWord f.name.toList = true ∧ isWord f.typeName.toList = true := by
  obtain ⟨opened, rfl⟩ := h.exists_build
  rw [Model.fields_build, List.mem_map] at hf
  obtain ⟨d, hd, rfl⟩ := hf
  obtain ⟨line, -, hline⟩ := List.mem_filterMap.1 hd
  unfold Declaration.ofMember? at hline
  split at hline
  · cases hline
  · exact Declaration.isWord_of_ofLine? hline

namespace Card

/-- Texts with spaces between them are as wide as both together and the spaces. -/
def AddsUp (measure : String → Nat) : Prop :=
  ∀ (s t : String) {n : Nat}, 0 < n → measure (s ++ spaces n ++ t) = measure s + n + measure t

theorem addsUp_width : AddsUp Unicode.width := fun s t _ hn => width_append_spaces s t hn

namespace AddsUp

variable {measure : String → Nat}

/-- Two spaces can be cut in two ways, and only one of them leaves an empty text in the middle. -/
theorem empty (h : AddsUp measure) : measure "" = 0 := by
  have hwhole := h "" "" (n := 2) (by decide)
  have hback := h "" "" (n := 1) (by decide)
  have hfront := h (spaces 1) "" (n := 1) (by decide)
  have htwo : spaces 1 ++ spaces 1 ++ "" = "" ++ spaces 2 ++ "" := by decide
  have hone : "" ++ spaces 1 ++ "" = spaces 1 := by decide
  rw [hone] at hback
  rw [htwo] at hfront
  omega

theorem spaces_append (h : AddsUp measure) (t : String) {n : Nat} (hn : 0 < n) :
    measure (spaces n ++ t) = n + measure t := by
  have hsum := h "" t hn
  rw [String.empty_append] at hsum
  rw [hsum, h.empty, Nat.zero_add]

theorem append_spaces (h : AddsUp measure) (s : String) {n : Nat} (hn : 0 < n) :
    measure (s ++ spaces n) = measure s + n := by
  have hsum := h s "" hn
  rw [String.append_empty] at hsum
  rw [hsum, h.empty, Nat.add_zero]

end AddsUp

section Widths

variable (measure : String → Nat)

structure Widest (texts : List String) (n : Nat) : Prop where
  bound : ∀ s ∈ texts, measure s ≤ n
  reached : (∃ s ∈ texts, measure s = n) ∨ (texts = [] ∧ n = 0)

variable {measure}

/-- It is the width of a text that no other one exceeds. -/
theorem Widest.eq_measure {texts : List String} {n : Nat} (h : Widest measure texts n) {s : String}
    (hs : s ∈ texts) (hall : ∀ t ∈ texts, measure t ≤ measure s) : n = measure s := by
  rcases h.reached with ⟨t, ht, hw⟩ | ⟨hnone, -⟩
  · exact Nat.le_antisymm (hw ▸ hall t ht) (h.bound s hs)
  · rw [hnone] at hs
    cases hs

theorem widest_cons (s : String) (texts : List String) :
    widest measure (s :: texts) = max (measure s) (widest measure texts) := by
  rw [widest, List.map_cons, List.foldl_cons, Nat.max_comm, List.foldl_assoc]
  rfl

theorem widest_widest (measure : String → Nat) (texts : List String) :
    Widest measure texts (widest measure texts) := by
  induction texts with
  | nil => exact ⟨fun s hs => absurd hs List.not_mem_nil, .inr ⟨rfl, rfl⟩⟩
  | cons s texts ih =>
    rw [widest_cons]
    constructor
    · intro t ht
      rcases List.mem_cons.1 ht with rfl | ht
      · exact Nat.le_max_left _ _
      · exact Nat.le_trans (ih.bound t ht) (Nat.le_max_right _ _)
    · left
      by_cases hle : widest measure texts ≤ measure s
      · exact ⟨s, List.mem_cons_self, (Nat.max_eq_left hle).symm⟩
      · rcases ih.reached with ⟨t, ht, hw⟩ | ⟨-, hnone⟩
        · exact ⟨t, List.mem_cons_of_mem _ ht, by omega⟩
        · omega

end Widths

structure Bears (f : Field) (shown : List String) : Prop where
  order : shown.Sublist ["ID", "Unique", "Relation"]
  id : "ID" ∈ shown ↔ f.isId = true
  unique : "Unique" ∈ shown ↔ f.isUnique = true
  relation : "Relation" ∈ shown ↔ f.relation.isSome = true

def badgesOf (isId isUnique isRelation : Bool) : List String :=
  (if isId then ["ID"] else []) ++ (if isUnique then ["Unique"] else []) ++
    (if isRelation then ["Relation"] else [])

theorem bears_badges (f : Field) : Bears f (badges f) := by
  have hall : ∀ isId isUnique isRelation : Bool, let shown := badgesOf isId isUnique isRelation
      shown.Sublist ["ID", "Unique", "Relation"] ∧ ("ID" ∈ shown ↔ isId = true) ∧
        ("Unique" ∈ shown ↔ isUnique = true) ∧ ("Relation" ∈ shown ↔ isRelation = true) := by
    decide
  obtain ⟨horder, hid, hunique, hrelation⟩ := hall f.isId f.isUnique f.relation.isSome
  exact ⟨horder, hid, hunique, hrelation⟩

/-- The badges stand on one line and are its words. -/
theorem badges_line (f : Field) : Inline (String.intercalate " " (badges f)).toList ∧
    words (String.intercalate " " (badges f)).toList = (badges f).map String.toList := by
  have hall : ∀ isId isUnique isRelation : Bool, let shown := badgesOf isId isUnique isRelation
      Inline (String.intercalate " " shown).toList ∧
        words (String.intercalate " " shown).toList = shown.map String.toList := by
    decide
  exact hall f.isId f.isUnique f.relation.isSome

structure Row where
  behindName : Nat
  behindType : Nat
  badges : List String

namespace Row

variable (r : Row) (f : Field)

def beforeType : String := "  " ++ f.name ++ spaces r.behindName

def beforeBadges : String := r.beforeType f ++ f.displayType ++ spaces r.behindType

def text : String := r.beforeBadges f ++ String.intercalate " " r.badges

structure Shows (measure : String → Nat) (nameWidth typeWidth : Nat) (line : String) : Prop where
  behindName : 2 ≤ r.behindName ∧ measure f.name + r.behindName = nameWidth + 2
  behindType : 2 ≤ r.behindType ∧ measure f.displayType + r.behindType = typeWidth + 2
  typeColumn : measure (r.beforeType f) = nameWidth + 4
  badgeColumn : measure (r.beforeBadges f) = nameWidth + typeWidth + 6
  badges : Bears f r.badges
  trimmed : ∃ blanks, isBlank blanks = true ∧ (r.text f).toList = line.toList ++ blanks
  endsSolid : EndsSolid line.toList
  oneLine : '\n' ∉ line.toList
  words : Text.words line.toList = (f.name :: f.displayType :: r.badges).map String.toList

end Row

def rowOf (measure : String → Nat) (nameWidth typeWidth : Nat) (f : Field) : Row :=
  ⟨nameWidth - measure f.name + 2, typeWidth - measure f.displayType + 2, badges f⟩

variable {measure : String → Nat} {nameWidth typeWidth : Nat} {f : Field}

theorem toList_line (measure : String → Nat) (nameWidth typeWidth : Nat) (f : Field) :
    (line measure nameWidth typeWidth f).toList =
      trimRight ((rowOf measure nameWidth typeWidth f).text f).toList := by
  rw [line, String.toList_ofList, row, pad, pad, Row.text, Row.beforeBadges, Row.beforeType]
  simp only [String.append_assoc]
  rfl

section Columns

variable {r : Row}

theorem measure_beforeType (hmeasure : AddsUp measure) (h : 0 < r.behindName) :
    measure (r.beforeType f) = measure f.name + r.behindName + 2 := by
  have hmargin : "  " = spaces 2 := rfl
  rw [Row.beforeType, hmeasure.append_spaces _ h, hmargin, hmeasure.spaces_append _ (by decide)]
  omega

theorem measure_beforeBadges (hmeasure : AddsUp measure) (hname : 0 < r.behindName)
    (htype : 0 < r.behindType) :
    measure (r.beforeBadges f) =
      measure (r.beforeType f) + (measure f.displayType + r.behindType) := by
  rw [Row.beforeBadges, hmeasure.append_spaces _ htype, Row.beforeType, hmeasure _ _ hname,
    hmeasure.append_spaces _ hname]
  omega

theorem isBlank_spaces (n : Nat) : isBlank (spaces n).toList = true := by
  simp [spaces, isBlank, isWhite_space]

theorem spaces_ne_nil {n : Nat} (h : 0 < n) : (spaces n).toList ≠ [] := by
  rw [spaces, String.toList_ofList, Ne, List.replicate_eq_nil_iff]
  omega

/-- The words of a line are its name, its type and the words behind them. -/
theorem words_text (hname : isWord f.name.toList = true) (htype : isWord f.typeName.toList = true)
    (hbehindName : 0 < r.behindName) (hbehindType : 0 < r.behindType) :
    words (r.text f).toList = f.name.toList :: f.displayType.toList ::
      words (String.intercalate " " r.badges).toList := by
  have hchars : (r.text f).toList = [' ', ' '] ++ (f.name.toList ++ ((spaces r.behindName).toList ++
      (f.displayType.toList ++ ((spaces r.behindType).toList ++
        (String.intercalate " " r.badges).toList)))) := by
    simp [Row.text, Row.beforeBadges, Row.beforeType]
  have hmargin : isBlank [' ', ' '] = true := by decide
  have hshown : Unbroken f.displayType.toList := by
    refine ⟨?_, (Field.displayType_line htype).1⟩
    rw [Field.displayType_toList]
    exact List.append_ne_nil_of_left_ne_nil (ne_nil_of_isWord htype) _
  rw [hchars, words_blanks_append hmargin,
    words_append_blanks (isBlank_spaces _) (spaces_ne_nil hbehindName),
    words_append_blanks (isBlank_spaces _) (spaces_ne_nil hbehindType),
    words_of_unbroken (unbroken_of_isWord hname), words_of_unbroken hshown]
  rfl

theorem notMem_text (hname : isWord f.name.toList = true) (htype : isWord f.typeName.toList = true)
    (hbadges : Inline (String.intercalate " " r.badges).toList) : '\n' ∉ (r.text f).toList := by
  have hspaces (n : Nat) : Inline (spaces n).toList := by simp [spaces, Inline]
  have hmargin : Inline "  ".toList := by decide
  have hbeforeType : Inline (r.beforeType f).toList := by
    rw [Row.beforeType, String.toList_append, String.toList_append]
    exact inline_append (inline_append hmargin (inline_of_isWord hname)) (hspaces _)
  have hbeforeBadges : Inline (r.beforeBadges f).toList := by
    rw [Row.beforeBadges, String.toList_append, String.toList_append]
    exact inline_append (inline_append hbeforeType (Field.displayType_line htype).2) (hspaces _)
  rw [Row.text, String.toList_append]
  exact (inline_append hbeforeBadges hbadges).1

end Columns

/-- The subtraction that fills a column up is exact, since no entry is wider than its column. -/
theorem row_shows (hmeasure : AddsUp measure) (hname : isWord f.name.toList = true)
    (htype : isWord f.typeName.toList = true) (hnames : measure f.name ≤ nameWidth)
    (htypes : measure f.displayType ≤ typeWidth) :
    (rowOf measure nameWidth typeWidth f).Shows f measure nameWidth typeWidth
      (line measure nameWidth typeWidth f) := by
  generalize hrow : rowOf measure nameWidth typeWidth f = r
  have hbehindName : r.behindName = nameWidth - measure f.name + 2 := by rw [← hrow]; rfl
  have hbehindType : r.behindType = typeWidth - measure f.displayType + 2 := by rw [← hrow]; rfl
  have hshown : r.badges = Card.badges f := by rw [← hrow]; rfl
  have htypeColumn := measure_beforeType (f := f) (r := r) hmeasure (by omega)
  have hbadgeColumn := measure_beforeBadges (f := f) (r := r) hmeasure (by omega) (by omega)
  have hline := toList_line measure nameWidth typeWidth f
  rw [hrow] at hline
  obtain ⟨blanks, hblanks, htext⟩ := exists_trimRight (r.text f).toList
  have hbadges := badges_line f
  rw [← hshown] at hbadges
  exact {
    behindName := by omega
    behindType := by omega
    typeColumn := by omega
    badgeColumn := by omega
    badges := hshown ▸ bears_badges f
    trimmed := ⟨blanks, hblanks, by rw [hline]; exact htext⟩
    endsSolid := by
      rw [hline]
      exact endsSolid_trimRight _
    oneLine := by
      have hnone := notMem_text (r := r) hname htype hbadges.1
      rw [htext, ← hline] at hnone
      exact fun hfeed => hnone (List.mem_append_left _ hfeed)
    words := by
      rw [hline, words_trimRight, words_text hname htype (by omega) (by omega)]
      exact congrArg (f.name.toList :: f.displayType.toList :: ·) hbadges.2 }

/-- The card of a model that is read stands in columns for every measure that adds up. -/
theorem model_aligned (hmeasure : AddsUp measure) {types : ScalarTypes} {m : Model}
    (h : m.Parsed types) :
    ∃ nameWidth typeWidth lines, Widest measure (m.fields.map (·.name)) nameWidth ∧
      Widest measure (m.fields.map Field.displayType) typeWidth ∧
      model measure m = heading m ++ "\n" ++ String.join (lines.map fun line => line ++ "\n") ∧
      List.Forall₂ (fun f line => ∃ r : Row, r.Shows f measure nameWidth typeWidth line)
        m.fields lines := by
  have hnames := widest_widest measure (m.fields.map (·.name))
  have htypes := widest_widest measure (m.fields.map Field.displayType)
  refine ⟨_, _, m.fields.map (line measure (widest measure (m.fields.map (·.name)))
    (widest measure (m.fields.map Field.displayType))), hnames, htypes, ?_, ?_⟩
  · rw [model, List.map_map]
    rfl
  · rw [List.forall₂_map_right_iff, List.forall₂_same]
    intro f hf
    obtain ⟨hname, htype⟩ := h.isWord hf
    have hnameFits := hnames.bound f.name (List.mem_map_of_mem hf)
    have htypeFits := htypes.bound f.displayType (List.mem_map_of_mem hf)
    exact ⟨_, row_shows hmeasure hname htype hnameFits htypeFits⟩

/-- The cards of models that are read stand in columns. The card comes behind the text that is there
already and has a heading and a line for each field, in order. Names and types take as many columns
as the widest of them, with two blanks behind it at least, so that the types start in one column and
the badges in another one. A line keeps the name, the type and the badges of its field, and nothing
else but blanks. -/
theorem addModel_aligned {types : ScalarTypes} {m : Model} (h : m.Parsed types) (text : String) :
    ∃ nameWidth typeWidth lines, Widest width (m.fields.map (·.name)) nameWidth ∧
      Widest width (m.fields.map Field.displayType) typeWidth ∧
      addModel text m =
        text ++ heading m ++ "\n" ++ String.join (lines.map fun line => line ++ "\n") ∧
      List.Forall₂ (fun f line => ∃ r : Row, r.Shows f width nameWidth typeWidth line)
        m.fields lines := by
  obtain ⟨nameWidth, typeWidth, lines, hnames, htypes, hcard, hlines⟩ :=
    model_aligned addsUp_width h
  refine ⟨nameWidth, typeWidth, lines, hnames, htypes, ?_, hlines⟩
  rw [addModel, hcard]
  simp only [String.append_assoc]

def wideSchema : String :=
  "model 顧客 \x7b\n  रंग String?\n  番号 Int @id @unique\n  注文 Order[]\n  @@map(\"c\")\n\x7d\n"

def wideModel : Model := ⟨"顧客", some "c",
  [{ name := "रंग", typeName := "String", isRequired := false },
    { name := "番号", typeName := "Int", isId := true, isUnique := true },
    { name := "注文", typeName := "Order", isList := true, relation := some {} }]⟩

theorem addModel_aligned_wide : wideModel.Parsed .standard ∧ ∃ lines,
    addModel "a\n" wideModel =
      "a\n" ++ "model 顧客 → c" ++ "\n" ++ String.join (lines.map fun line => line ++ "\n") ∧
    List.Forall₂ (fun f line => ∃ r : Row, r.Shows f width 4 7 line) wideModel.fields lines := by
  have hread : (Document.read .standard wideSchema.toList).result =
      .ok { models := [wideModel] } := by
    decide +kernel
  have hparsed : wideModel.Parsed .standard := .document hread List.mem_cons_self
  obtain ⟨nameWidth, typeWidth, lines, hnames, htypes, hcard, hlines⟩ :=
    addModel_aligned hparsed "a\n"
  have hname : nameWidth = 4 := hnames.eq_measure (s := "番号") (by decide) (by decide)
  have htype : typeWidth = 7 := htypes.eq_measure (s := "String?") (by decide) (by decide)
  subst hname htype
  exact ⟨hparsed, lines, hcard, hlines⟩

example : model width wideModel = "model 顧客 → c\n  रंग    String?\n  番号  Int      ID Unique\n" ++
    "  注文  Order[]  Relation\n" := by
  decide +kernel

end Card

end SchemaQuery
