import SchemaQuery.Proofs.Schema.Header
import SchemaQuery.Proofs.Schema.Reading
import SchemaQuery.Proofs.Schema.Recognition

/-!
# When a schema is not read

The search for blocks admits headers over several lines and of any number of words; the reading of a
block admits one word on the first line. A block between the two is the only reason for an error,
and nothing else in the text is: the members of a block are read or passed over. Models are read
before enumerations, wherever they stand.
-/

set_option autoImplicit false

namespace SchemaQuery

open SchemaQuery.Unicode SchemaQuery.Text

namespace BlockKind

def Nameless (kind : BlockKind) (s : List Char) (start : Nat) (text : List Char) : Prop :=
  kind.Recognised s start text ∧ ∀ name, ¬ kind.Names text name

def FirstNameless (kind : BlockKind) (s : List Char) (start : Nat) (text : List Char) : Prop :=
  kind.Nameless s start text ∧ ∀ earlier other, kind.Nameless s earlier other → start ≤ earlier

def Lists (kind : BlockKind) (s : List Char) (spans : List (Nat × List Char)) : Prop :=
  spans.Pairwise (fun a b => a.1 < b.1) ∧ ∀ span, span ∈ spans ↔ kind.Recognised s span.1 span.2

theorem lists_spans (kind : BlockKind) (s : List Char) : kind.Lists s (kind.spans s) :=
  ⟨kind.pairwise_spans s, fun _ => mem_spans_iff⟩

section Reader

variable {kind : BlockKind} {s : List Char} {spans : List (Nat × List Char)} {α : Type}
  {build : String × List (List Char) → α} {e : SchemaError}

/-- A nameless block is first among the listed ones if all blocks before it have names. -/
theorem firstNameless_iff (hspans : kind.Lists s spans) {start : Nat} {text : List Char} :
    kind.FirstNameless s start text ↔ (∀ name, ¬ kind.Names text name) ∧
      ∃ before after, spans = before ++ (start, text) :: after ∧
        ∀ span ∈ before, ∃ name, kind.Names span.2 name := by
  obtain ⟨hsorted, hall⟩ := hspans
  constructor
  · rintro ⟨⟨hrecognised, hname⟩, hfirst⟩
    obtain ⟨before, after, hsplit⟩ := List.append_of_mem ((hall (start, text)).2 hrecognised)
    refine ⟨hname, before, after, hsplit, fun span hspan => ?_⟩
    by_contra hnone
    have hmem : span ∈ spans := hsplit ▸ List.mem_append_left _ hspan
    have hle := hfirst span.1 span.2 ⟨(hall span).1 hmem, not_exists.1 hnone⟩
    rw [hsplit, List.pairwise_append] at hsorted
    exact absurd (hsorted.2.2 span hspan _ List.mem_cons_self) (Nat.not_lt.2 hle)
  · rintro ⟨hname, before, after, hsplit, hbefore⟩
    have hmem : (start, text) ∈ spans := by
      rw [hsplit]
      simp
    refine ⟨⟨(hall _).1 hmem, hname⟩, fun earlier other hother => ?_⟩
    have hmem' := (hall (earlier, other)).2 hother.1
    rw [hsplit, List.mem_append, List.mem_cons] at hmem'
    rcases hmem' with hin | heq | hin
    · obtain ⟨name, hnames⟩ := hbefore _ hin
      exact absurd hnames (hother.2 name)
    · cases heq
      exact Nat.le_refl _
    · rw [hsplit, List.pairwise_append, List.pairwise_cons] at hsorted
      exact Nat.le_of_lt (hsorted.2.1.1 _ hin)

theorem map_open_eq_ok_iff {text : List Char} (h : kind.IsBlock text) :
    (∃ a, (kind.open text).map build = .ok a) ↔ ∃ name, kind.Names text name := by
  by_cases hname : ∃ name, kind.Names text name
  · obtain ⟨name, hnames⟩ := hname
    obtain ⟨members, hopen⟩ := open_of_names h hnames
    rw [hopen]
    exact iff_of_true ⟨_, rfl⟩ ⟨name, hnames⟩
  · rw [open_of_not_names h (not_exists.1 hname)]
    refine iff_of_false ?_ hname
    rintro ⟨a, ⟨⟩⟩

theorem map_open_eq_error_iff {text : List Char} (h : kind.IsBlock text) :
    (kind.open text).map build = .error e ↔
      (∀ name, ¬ kind.Names text name) ∧ e = kind.fault text := by
  by_cases hname : ∃ name, kind.Names text name
  · obtain ⟨name, hnames⟩ := hname
    obtain ⟨members, hopen⟩ := open_of_names h hnames
    rw [hopen]
    refine iff_of_false ?_ fun h => h.1 name hnames
    rintro ⟨⟩
  · rw [open_of_not_names h (not_exists.1 hname)]
    rw [and_iff_right (not_exists.1 hname), Except.map, Except.error.injEq, eq_comm]

/-- Blocks are read up to the first one without a name, and the error is about that one. -/
theorem mapM_eq_error_iff_firstNameless :
    (kind.blocks s).mapM (fun text => (kind.open text).map build) = .error e ↔
      ∃ start text, kind.FirstNameless s start text ∧ e = kind.fault text := by
  have hspans := kind.lists_spans s
  have hblock : ∀ span ∈ kind.spans s, kind.IsBlock span.2 := fun span h =>
    isBlock_of_recognised ((hspans.2 span).1 h)
  rw [← map_spans, List.mapM_map, mapM_eq_error_iff]
  constructor
  · rintro ⟨before, ⟨start, text⟩, after, hsplit, hbefore, herror⟩
    rw [hsplit] at hblock
    obtain ⟨hname, he⟩ := (map_open_eq_error_iff (hblock (start, text) (by simp))).1 herror
    refine ⟨start, text, (firstNameless_iff hspans).2 ⟨hname, before, after, hsplit, ?_⟩, he⟩
    intro span hspan
    exact (map_open_eq_ok_iff (hblock span (by simp [hspan]))).1 (hbefore span hspan)
  · rintro ⟨start, text, hfirst, rfl⟩
    obtain ⟨hname, before, after, hsplit, hbefore⟩ := (firstNameless_iff hspans).1 hfirst
    rw [hsplit] at hblock
    refine ⟨before, (start, text), after, hsplit, fun span hspan => ?_, ?_⟩
    · exact (map_open_eq_ok_iff (hblock span (by simp [hspan]))).2 (hbefore span hspan)
    · exact (map_open_eq_error_iff (hblock (start, text) (by simp))).2 ⟨hname, rfl⟩

theorem exists_firstNameless {start : Nat} {text : List Char} (h : kind.Nameless s start text) :
    ∃ start text, kind.FirstNameless s start text := by
  induction start using Nat.strongRecOn generalizing text with
  | _ start ih =>
    by_cases hfirst : ∀ earlier other, kind.Nameless s earlier other → start ≤ earlier
    · exact ⟨start, text, h, hfirst⟩
    · push Not at hfirst
      obtain ⟨earlier, other, hother, hlt⟩ := hfirst
      exact ih earlier hlt hother

/-- All blocks are read if none is without a name. -/
theorem mapM_eq_ok_iff_not_nameless :
    (∃ as, (kind.blocks s).mapM (fun text => (kind.open text).map build) = .ok as) ↔
      ∀ start text, ¬ kind.Nameless s start text := by
  constructor
  · rintro ⟨as, has⟩ start text hnameless
    obtain ⟨first, block, hfirst⟩ := exists_firstNameless hnameless
    have herror : (kind.blocks s).mapM (fun text => (kind.open text).map build) =
        .error (kind.fault block) :=
      mapM_eq_error_iff_firstNameless.2 ⟨first, block, hfirst, rfl⟩
    rw [has] at herror
    cases herror
  · intro hnone
    cases h : (kind.blocks s).mapM fun text => (kind.open text).map build with
    | ok as => exact ⟨as, rfl⟩
    | error e =>
      obtain ⟨start, text, hfirst, -⟩ := mapM_eq_error_iff_firstNameless.1 h
      exact absurd hfirst.1 (hnone start text)

/-- What is read from a block has the name of the block. -/
theorem names_of_map_open {text : List Char} (h : kind.IsBlock text) {a : α} {name : α → String}
    (hbuild : ∀ opened, name (build opened) = opened.1)
    (ha : (kind.open text).map build = .ok a) : kind.Names text (name a) := by
  have hok : ∃ a, (kind.open text).map build = .ok a := ⟨a, ha⟩
  obtain ⟨word, hnames⟩ := (map_open_eq_ok_iff h).1 hok
  obtain ⟨members, hopen⟩ := open_of_names h hnames
  rw [hopen] at ha
  cases ha
  rw [hbuild]
  exact hnames

theorem forall₂_of_mapM {name : α → String} (hbuild : ∀ opened, name (build opened) = opened.1)
    {as : List α} (h : (kind.blocks s).mapM (fun text => (kind.open text).map build) = .ok as) :
    List.Forall₂ (fun span a => (kind.open span.2).map build = .ok a ∧ kind.Names span.2 (name a))
      (kind.spans s) as := by
  have hblock : ∀ span ∈ kind.spans s, kind.IsBlock span.2 := fun span h =>
    isBlock_of_recognised (((kind.lists_spans s).2 span).1 h)
  rw [← map_spans, List.mapM_map, mapM_eq_ok_iff] at h
  have hboth := (List.forall₂_and_left _ _).2 ⟨hblock, h⟩
  exact hboth.imp fun span a ha => ⟨ha.2, names_of_map_open ha.1 hbuild ha.2⟩

end Reader

end BlockKind

/-- The error is about the first model without a name, or about the first such enumeration if all
models have names. -/
def Blames (s : List Char) (e : SchemaError) : Prop :=
  (∃ start text, BlockKind.model.FirstNameless s start text ∧ e = BlockKind.model.fault text) ∨
  (∀ start text, ¬ BlockKind.model.Nameless s start text) ∧
    ∃ start text, BlockKind.enumeration.FirstNameless s start text ∧
      e = BlockKind.enumeration.fault text

def Document.Covers (types : ScalarTypes) (s : List Char) (d : Document) : Prop :=
  ∃ models enums, BlockKind.model.Lists s models ∧ BlockKind.enumeration.Lists s enums ∧
    List.Forall₂ (fun span m => (Model.read types span.2).result = .ok m ∧
      BlockKind.model.Names span.2 m.name) models d.models ∧
    List.Forall₂ (fun span e => Enumeration.read span.2 = .ok e ∧
      BlockKind.enumeration.Names span.2 e.name) enums d.enums

theorem exists_blames_iff {s : List Char} :
    (∃ e, Blames s e) ↔ ∃ kind : BlockKind, ∃ start text, kind.Nameless s start text := by
  constructor
  · rintro ⟨e, ⟨start, text, hfirst, -⟩ | ⟨-, start, text, hfirst, -⟩⟩
    · exact ⟨_, start, text, hfirst.1⟩
    · exact ⟨_, start, text, hfirst.1⟩
  · rintro ⟨kind, start, text, hnameless⟩
    by_cases hmodel : ∃ start text, BlockKind.model.Nameless s start text
    · obtain ⟨_, _, hmodel⟩ := hmodel
      obtain ⟨start, text, hfirst⟩ := BlockKind.exists_firstNameless hmodel
      exact ⟨_, Or.inl ⟨start, text, hfirst, rfl⟩⟩
    · have hnone : ∀ start text, ¬ BlockKind.model.Nameless s start text :=
        fun start text h => hmodel ⟨start, text, h⟩
      cases kind with
      | model => exact absurd hnameless (hnone start text)
      | enumeration =>
        obtain ⟨start, text, hfirst⟩ := BlockKind.exists_firstNameless hnameless
        exact ⟨_, Or.inr ⟨hnone, start, text, hfirst, rfl⟩⟩

namespace Document

variable {types : ScalarTypes} {s : List Char}

theorem read_eq_error_iff_blames {e : SchemaError} :
    (read types s).result = .error e ↔ Blames s e := by
  rw [read_eq_error_iff, funext (Model.read_result types), funext Enumeration.read_eq,
    BlockKind.mapM_eq_error_iff_firstNameless, BlockKind.mapM_eq_error_iff_firstNameless,
    BlockKind.mapM_eq_ok_iff_not_nameless]
  rfl

theorem covers_of_read {d : Document} (h : (read types s).result = .ok d) : d.Covers types s := by
  obtain ⟨hmodels, henums, -⟩ := read_eq_ok_iff.1 h
  rw [funext (Model.read_result types)] at hmodels
  rw [funext Enumeration.read_eq] at henums
  refine ⟨_, _, BlockKind.lists_spans _ s, BlockKind.lists_spans _ s, ?_, ?_⟩
  · simpa only [Model.read_result] using BlockKind.forall₂_of_mapM (Model.build_name types) hmodels
  · simpa only [Enumeration.read_eq] using
      BlockKind.forall₂_of_mapM Enumeration.build_name henums

end Document

/-- A text is not read exactly if a recognised block has no name on its first line. The error is
then about the first such model, and only if there is none about the first such enumeration. In
every other case the document has one model and one enumeration for each recognised block. -/
theorem read_outcome (types : ScalarTypes) (s : List Char) :
    ((∃ e, (Document.read types s).result = .error e) ↔
      ∃ kind : BlockKind, ∃ start text, kind.Nameless s start text) ∧
    (∀ e, (Document.read types s).result = .error e ↔ Blames s e) ∧
    ((∀ (kind : BlockKind) start text, ¬ kind.Nameless s start text) →
      ∃ d, (Document.read types s).result = .ok d ∧ d.Covers types s) := by
  have hfails : (∃ e, (Document.read types s).result = .error e) ↔
      ∃ kind : BlockKind, ∃ start text, kind.Nameless s start text := by
    rw [← exists_blames_iff]
    exact exists_congr fun e => Document.read_eq_error_iff_blames
  refine ⟨hfails, fun e => Document.read_eq_error_iff_blames, fun hnone => ?_⟩
  cases h : (Document.read types s).result with
  | ok d => exact ⟨d, rfl, Document.covers_of_read h⟩
  | error e =>
    obtain ⟨kind, start, text, hnameless⟩ := hfails.1 ⟨e, h⟩
    exact absurd hnameless (hnone kind start text)

def unnamedText : List Char :=
  "enum \x7b\x7d\nmodel A \x7b\x7d\n model \nB \x7b\x7d\nmodel C D \x7b\x7d".toList

def namedText : List Char := "model A\x7b\nmodel B \x7b\n?\x7d\nenum E".toList

theorem read_outcome_unnamed :
    Blames unnamedText (.malformed .model "model") ∧
      (∀ (kind : BlockKind) start text, ¬ kind.Nameless namedText start text) ∧
      ∃ d, (Document.read .standard namedText).result = .ok d ∧ d.Covers .standard namedText := by
  have hfault : (Document.read .standard unnamedText).result =
      .error (.malformed .model "model") := by decide +kernel
  have hread : ∀ e, (Document.read .standard namedText).result ≠ .error e := by
    have hok : (Document.read .standard namedText).result.isOk = true := by decide +kernel
    intro e he
    rw [he] at hok
    cases hok
  have hnone : ∀ (kind : BlockKind) start text, ¬ kind.Nameless namedText start text := by
    intro kind start text h
    obtain ⟨e, he⟩ := (read_outcome .standard namedText).1.2 ⟨kind, start, text, h⟩
    exact hread e he
  exact ⟨((read_outcome .standard unnamedText).2.1 _).1 hfault, hnone,
    (read_outcome .standard namedText).2.2 hnone⟩

end SchemaQuery
