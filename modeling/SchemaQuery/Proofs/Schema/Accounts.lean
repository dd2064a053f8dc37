import SchemaQuery.Proofs.Schema.Reading
import SchemaQuery.Proofs.Schema.RelationText

/-!
# An account of the lines of a schema

Every line inside a model is of one kind, and its kind says what it gives: a field, an event, both
or nothing. The fields of a model and the events of its reading are what its lines give, in order.
The events of a schema are those of its models, up to the first one that cannot be read, and behind
them stands one event if the schema is read.
-/

set_option autoImplicit false

namespace SchemaQuery

open SchemaQuery.Text

inductive LineKind where
  | blank
  | marked
  | field (f : Field) (fault : Option TokenError)
  | foreign (text : List Char)

namespace LineKind

def fields : LineKind → List Field
  | field f _ => [f]
  | blank | marked | foreign _ => []

def events (model : String) : LineKind → List Event
  | field _ fault => (fault.map Event.unreadableRelation).toList
  | foreign text => [.skippedLine model (String.ofList text)]
  | blank | marked => []

inductive Of (types : ScalarTypes) (line : List Char) : LineKind → Prop
  | blank : trim line = [] → Of types line blank
  | marked {rest : List Char} : trim line = '@' :: '@' :: rest → Of types line marked
  | field {f : Field} {fault : Option TokenError} :
      (Field.read types (trim line)).value = some f →
      (∀ e, fault = some e ↔ ∃ place : Declaration.RelationPlace (trim line),
        Token.readAll place.args = .error e) → Of types line (field f fault)
  | foreign : trim line ≠ [] → (∀ rest, trim line ≠ '@' :: '@' :: rest) →
      (Field.read types (trim line)).value = none → Of types line (foreign (trim line))

end LineKind

section Lines

variable (types : ScalarTypes)

/-- A name opens the line of every field. -/
theorem Field.read_of_not_word {line : List Char} (h : word? (trimLeft line) = none) :
    Field.read types line = pure none := by
  rw [read, Declaration.ofLine?, h]
  rfl

theorem Field.read_nil : Field.read types [] = pure none := Field.read_of_not_word types rfl

theorem Field.read_marked (rest : List Char) : Field.read types ('@' :: '@' :: rest) = pure none :=
  Field.read_of_not_word types (by
    have htrim : trimLeft ('@' :: '@' :: rest) = '@' :: '@' :: rest :=
      List.dropWhile_cons_of_neg (by decide)
    have htake : ('@' :: '@' :: rest).takeWhile Unicode.isWordChar = [] :=
      List.takeWhile_cons_of_neg (by decide)
    rw [htrim, word?, htake])

theorem Field.exists_fault (line : List Char) : ∃ fault : Option TokenError,
    (Field.read types line).events = (fault.map Event.unreadableRelation).toList ∧
      ∀ e, fault = some e ↔ ∃ place : Declaration.RelationPlace line,
        Token.readAll place.args = .error e := by
  obtain hnone | ⟨place, e, hread, hevents⟩ := Field.events_read types line
  · refine ⟨none, hnone, fun e => ?_⟩
    rw [← Field.events_read_iff types, hnone]
    simp
  · refine ⟨some e, hevents, fun e' => ?_⟩
    rw [← Field.events_read_iff types, hevents]
    simp

theorem Field.events_of_fault {line : List Char} {fault : Option TokenError}
    (h : ∀ e, fault = some e ↔ ∃ place : Declaration.RelationPlace line,
      Token.readAll place.args = .error e) :
    (Field.read types line).events = (fault.map Event.unreadableRelation).toList := by
  obtain ⟨other, hevents, hother⟩ := Field.exists_fault types line
  have hsame : fault = other := Option.ext fun e => (h e).trans (hother e).symm
  rw [hsame, hevents]

theorem Field.events_of_none {line : List Char} (h : (Field.read types line).value = none) :
    (Field.read types line).events = [] := by
  unfold read at h ⊢
  cases hline : Declaration.ofLine? line with
  | none => rfl
  | some d =>
    rw [hline] at h
    cases h

namespace LineKind

variable {types} {line : List Char} {kind : LineKind}

theorem exists_of (types : ScalarTypes) (line : List Char) : ∃ kind, Of types line kind := by
  by_cases hblank : trim line = []
  · exact ⟨_, .blank hblank⟩
  · by_cases hmarked : ∃ rest, trim line = '@' :: '@' :: rest
    · obtain ⟨rest, hrest⟩ := hmarked
      exact ⟨_, .marked hrest⟩
    · cases hread : (Field.read types (trim line)).value with
      | none => exact ⟨_, .foreign hblank (not_exists.1 hmarked) hread⟩
      | some f =>
        obtain ⟨fault, -, hfault⟩ := Field.exists_fault types (trim line)
        exact ⟨_, .field hread hfault⟩

theorem exists_forall₂ (types : ScalarTypes) (lines : List (List Char)) :
    ∃ kinds, List.Forall₂ (Of types) lines kinds := by
  induction lines with
  | nil => exact ⟨[], .nil⟩
  | cons line lines ih =>
    obtain ⟨kind, hkind⟩ := exists_of types line
    obtain ⟨kinds, hkinds⟩ := ih
    exact ⟨kind :: kinds, .cons hkind hkinds⟩

/-- The line of a field is not blank and has no marks in front. -/
theorem ne_of_field {f : Field} (h : (Field.read types line).value = some f) :
    line ≠ [] ∧ ∀ rest, line ≠ '@' :: '@' :: rest := by
  constructor
  · rintro rfl
    rw [Field.read_nil] at h
    cases h
  · rintro rest rfl
    rw [Field.read_marked] at h
    cases h

theorem Of.eq {other : LineKind} (h : Of types line kind) (h' : Of types line other) :
    other = kind := by
  cases h with
  | blank hblank =>
    cases h' with
    | blank _ => rfl
    | marked hmarked => cases hblank.symm.trans hmarked
    | field hread _ => exact absurd hblank (ne_of_field hread).1
    | foreign hne _ _ => exact absurd hblank hne
  | marked hmarked =>
    cases h' with
    | blank hblank => cases hblank.symm.trans hmarked
    | marked _ => rfl
    | field hread _ => exact absurd hmarked ((ne_of_field hread).2 _)
    | foreign _ hmarks _ => exact absurd hmarked (hmarks _)
  | field hread hfault =>
    cases h' with
    | blank hblank => exact absurd hblank (ne_of_field hread).1
    | marked hmarked => exact absurd hmarked ((ne_of_field hread).2 _)
    | @field f fault hread' hfault' =>
      have hsame : fault = _ := Option.ext fun e => (hfault' e).trans (hfault e).symm
      rw [Option.some.inj (hread'.symm.trans hread), hsame]
    | foreign _ _ hnone => cases hread.symm.trans hnone
  | foreign hne hmarks hnone =>
    cases h' with
    | blank hblank => exact absurd hblank hne
    | marked hmarked => exact absurd hmarked (hmarks _)
    | field hread _ => cases hread.symm.trans hnone
    | foreign _ _ _ => rfl

end LineKind

namespace Model

theorem addLine_of_not_marked (m : Model) {line : List Char}
    (h : ∀ rest, line ≠ '@' :: '@' :: rest) : m.addLine types line = (do
      match ← Field.read types line with
      | some f => pure { m with fields := m.fields ++ [f] }
      | none =>
        Logged.log (.skippedLine m.name (String.ofList line))
        pure m) := by
  unfold addLine
  split
  · exact absurd rfl (h _)
  · rfl

/-- A line that is not blank adds to a model what its kind gives. -/
theorem addLine_of {line : List Char} {kind : LineKind} (h : LineKind.Of types line kind)
    (hne : trim line ≠ []) (m : Model) :
    (m.addLine types (trim line)).value.fields = m.fields ++ kind.fields ∧
      (m.addLine types (trim line)).events = kind.events m.name := by
  cases h with
  | blank hblank => exact absurd hblank hne
  | marked hmarked =>
    rw [hmarked]
    exact ⟨(List.append_nil _).symm, rfl⟩
  | field hread hfault =>
    have hevents := Field.events_of_fault types hfault
    rw [addLine_of_not_marked types m (LineKind.ne_of_field hread).2, Logged.value_bind,
      Logged.events_bind, hread, hevents]
    exact ⟨rfl, List.append_nil _⟩
  | foreign _ hmarks hread =>
    rw [addLine_of_not_marked types m hmarks, Logged.value_bind, Logged.events_bind, hread,
      Field.events_of_none types hread]
    exact ⟨(List.append_nil _).symm, rfl⟩

theorem fields_and_events_of {lines : List (List Char)} {kinds : List LineKind}
    (h : List.Forall₂ (LineKind.Of types) lines kinds) (m : Model) :
    (((lines.map trim).filter (· != [])).foldlM (addLine types) m).value.fields =
        m.fields ++ kinds.flatMap LineKind.fields ∧
      (((lines.map trim).filter (· != [])).foldlM (addLine types) m).events =
        kinds.flatMap (LineKind.events m.name) := by
  induction h generalizing m with
  | nil => exact ⟨(List.append_nil _).symm, rfl⟩
  | @cons line kind lines kinds hkind _ ih =>
    rw [List.map_cons, List.flatMap_cons, List.flatMap_cons]
    -- A blank line is left out before any line is read.
    by_cases hblank : trim line = []
    · have hnone : kind = .blank := LineKind.Of.eq (.blank hblank) hkind
      rw [List.filter_cons_of_neg (by simp [hblank]), hnone]
      exact ih m
    · obtain ⟨hfields, hevents⟩ := addLine_of types hkind hblank m
      obtain ⟨hfields', hevents'⟩ := ih (m.addLine types (trim line)).value
      rw [List.filter_cons_of_pos (by simp [hblank]), List.foldlM_cons, Logged.value_bind,
        Logged.events_bind, hfields', hevents', hfields, hevents, addLine_name]
      exact ⟨List.append_assoc _ _ _, rfl⟩

def NamesTable (line : List Char) (name : String) : Prop :=
  (∃ rest, line = '@' :: '@' :: rest) ∧
    ∃ args arguments, (Attribute.scan line).args? "@@map" = some args ∧
      Argument.readAll args.toList = .ok arguments ∧
        Argument.find? arguments "name" true = some (.text name)

/-- The first line that names a table, and what it names. -/
def FirstTable (lines : List (List Char)) (name : String) : Prop :=
  ∃ before line after, lines = before ++ line :: after ∧ NamesTable (trim line) name ∧
    ∀ earlier ∈ before, ∀ other, ¬ NamesTable (trim earlier) other

theorem tableName?_eq_some_iff {line : List Char} {name : String} : tableName? line = some name ↔
    ∃ args arguments, (Attribute.scan line).args? "@@map" = some args ∧
      Argument.readAll args.toList = .ok arguments ∧
        Argument.find? arguments "name" true = some (.text name) := by
  have hname (arguments : List Argument) : Relation.nameArgument? arguments = some name ↔
      Argument.find? arguments "name" true = some (.text name) := by
    unfold Relation.nameArgument?
    split
    · rename_i other h
      simp [h]
    · rename_i h
      simp only [reduceCtorEq, false_iff]
      exact fun heq => h name heq
  unfold tableName?
  rw [Option.bind_eq_bind, Option.bind_eq_some_iff]
  refine exists_congr fun args => ?_
  cases Argument.readAll args.toList with
  | error e => simp
  | ok arguments => simp [hname]

def tableOf? : List Char → Option String
  | '@' :: '@' :: rest => tableName? ('@' :: '@' :: rest)
  | _ => none

theorem tableOf?_eq_some_iff {line : List Char} {name : String} :
    tableOf? line = some name ↔ NamesTable line name := by
  unfold tableOf?
  split
  · rw [tableName?_eq_some_iff]
    exact (and_iff_right ⟨_, rfl⟩).symm
  · rename_i hmarks
    refine iff_of_false nofun ?_
    rintro ⟨⟨rest, rfl⟩, -⟩
    exact hmarks rest rfl

theorem tableName_addLine (m : Model) (line : List Char) :
    (m.addLine types line).value.tableName = m.tableName.or (tableOf? line) := by
  by_cases hmarked : ∃ rest, line = '@' :: '@' :: rest
  · obtain ⟨rest, rfl⟩ := hmarked
    exact Option.orElse_eq_or
  · have hnone : tableOf? line = none := by
      cases htable : tableOf? line with
      | none => rfl
      | some name => exact absurd (tableOf?_eq_some_iff.1 htable).1 hmarked
    rw [hnone, Option.or_none, addLine_of_not_marked types m (not_exists.1 hmarked),
      Logged.value_bind]
    cases (Field.read types line).value <;> rfl

theorem tableName_foldl (lines : List (List Char)) (m : Model) :
    (lines.foldl (fun m line => (m.addLine types line).value) m).tableName =
      m.tableName.or (lines.findSome? tableOf?) := by
  induction lines generalizing m with
  | nil => exact Option.or_none.symm
  | cons line lines ih =>
    rw [List.foldl_cons, ih, tableName_addLine, Option.or_assoc, List.findSome?_cons]
    cases tableOf? line <;> rfl

/-- A blank line names no table. -/
theorem findSome?_trim (lines : List (List Char)) :
    ((lines.map trim).filter (· != [])).findSome? tableOf? =
      lines.findSome? fun line => tableOf? (trim line) := by
  induction lines with
  | nil => rfl
  | cons line lines ih =>
    rw [List.map_cons, List.findSome?_cons, ← ih]
    by_cases hblank : trim line = []
    · rw [List.filter_cons_of_neg (by simp [hblank]), hblank]
      rfl
    · rw [List.filter_cons_of_pos (by simp [hblank]), List.findSome?_cons]

theorem not_namesTable_iff {line : List Char} :
    (∀ name, ¬ NamesTable line name) ↔ tableOf? line = none := by
  simp only [← tableOf?_eq_some_iff, Option.eq_none_iff_forall_ne_some, ne_eq]

/-- The first line that names a table gives the model its name. -/
theorem findSome?_eq_some_iff_firstTable {lines : List (List Char)} {name : String} :
    (lines.findSome? fun line => tableOf? (trim line)) = some name ↔ FirstTable lines name := by
  rw [List.findSome?_eq_some_iff]
  simp only [FirstTable, not_namesTable_iff, tableOf?_eq_some_iff]

theorem findSome?_eq_none_iff_noTable {lines : List (List Char)} :
    (lines.findSome? fun line => tableOf? (trim line)) = none ↔
      ∀ line ∈ lines, ∀ name, ¬ NamesTable (trim line) name := by
  rw [List.findSome?_eq_none_iff]
  simp only [not_namesTable_iff]

theorem open_eq_ok {kind : BlockKind} {block : List Char} {opened : String × List (List Char)}
    (h : kind.open block = .ok opened) :
    opened.2 = ((interior (lines block)).map trim).filter (· != []) := by
  dsimp only [BlockKind.open] at h
  split at h
  · cases h
    rfl
  · cases h

/-- A model is read from the lines inside its block that are not blank. -/
theorem read_eq_foldlM {block : List Char} {m : Model} (h : (read types block).result = .ok m) :
    (((interior (lines block)).map trim).filter (· != [])).foldlM (addLine types)
      { name := m.name } = ⟨m, (read types block).events⟩ := by
  have hresult := h
  rw [read_result] at hresult
  cases hopen : BlockKind.model.open block with
  | error e =>
    rw [hopen] at hresult
    cases hresult
  | ok opened =>
    rw [hopen] at hresult
    have hbuild : build types opened = m := Except.ok.inj hresult
    have hname : m.name = opened.1 := by rw [← hbuild, build_name]
    have hevents : (read types block).events =
        (opened.2.foldlM (addLine types) { name := opened.1 }).events := by
      rw [read, Reading.events_bind, Reading.result_ofExcept, hopen]
      exact Reading.events_ofLogged _
    rw [← open_eq_ok hopen, hevents, hname, ← hbuild]
    rfl

/-- Nothing is logged about a block that cannot be read. -/
theorem events_of_error {block : List Char} {e : SchemaError}
    (h : (read types block).result = .error e) : (read types block).events = [] := by
  rw [read_result] at h
  cases hopen : BlockKind.model.open block with
  | error e => rw [read, Reading.events_bind, Reading.result_ofExcept, hopen]; rfl
  | ok opened =>
    rw [hopen] at h
    cases h

/-- What a block of a model is read as, and which events there are: what its lines give. -/
theorem account {block : List Char} {m : Model} (h : (read types block).result = .ok m) :
    ∃ kinds, List.Forall₂ (LineKind.Of types) (interior (lines block)) kinds ∧
      m.fields = kinds.flatMap LineKind.fields ∧
        (read types block).events = kinds.flatMap (LineKind.events m.name) := by
  obtain ⟨kinds, hkinds⟩ := LineKind.exists_forall₂ types (interior (lines block))
  have hread := fields_and_events_of types hkinds { name := m.name }
  rw [read_eq_foldlM types h] at hread
  exact ⟨kinds, hkinds, hread.1, hread.2⟩

theorem tableName_eq {block : List Char} {m : Model} (h : (read types block).result = .ok m) :
    m.tableName = (interior (lines block)).findSome? fun line => tableOf? (trim line) := by
  have hvalue : m = (((interior (lines block)).map trim).filter (· != [])).foldl
      (fun m line => (m.addLine types line).value) { name := m.name } := by
    rw [← value_foldlM, read_eq_foldlM types h]
  rw [hvalue, tableName_foldl, findSome?_trim]
  rfl

end Model

end Lines

section Blocks

namespace Reading

variable {α β : Type} {f : α → Reading β} {before : List α}

theorem events_mapM_cons (x : α) (xs : List α) : ((x :: xs).mapM f).events =
    (f x).events ++ match (f x).result with
      | .ok _ => (xs.mapM f).events
      | .error _ => [] := by
  rw [List.mapM_cons, events_bind]
  cases (f x).result with
  | error e => rfl
  | ok y =>
    show (f x).events ++ (xs.mapM f >>= fun ys => pure (y :: ys)).events = _
    rw [events_bind]
    cases (xs.mapM f).result <;> simp

theorem events_mapM_append (h : ∀ x ∈ before, ∃ y, (f x).result = .ok y) (after : List α) :
    ((before ++ after).mapM f).events =
      (before.flatMap fun x => (f x).events) ++ (after.mapM f).events := by
  induction before with
  | nil => rfl
  | cons x before ih =>
    obtain ⟨y, hy⟩ := h x List.mem_cons_self
    have hrest := ih fun x hx => h x (List.mem_cons_of_mem _ hx)
    rw [List.cons_append, events_mapM_cons, hy, List.flatMap_cons, List.append_assoc, ← hrest]

theorem events_mapM (h : ∀ x ∈ before, ∃ y, (f x).result = .ok y) :
    (before.mapM f).events = before.flatMap fun x => (f x).events := by
  have happend := events_mapM_append h []
  rwa [List.append_nil, List.mapM_nil, events_pure, List.append_nil] at happend

end Reading

namespace Document

variable (types : ScalarTypes) (s : List Char)

def modelEvents (blocks : List (List Char)) : List Event :=
  blocks.flatMap fun block => (Model.read types block).events

theorem events_read_of_ok {d : Document} (h : (read types s).result = .ok d) :
    (read types s).events = modelEvents types (BlockKind.model.blocks s) ++
      [.readSchema d.models.length d.enums.length d.provider] := by
  obtain ⟨hmodels, henums, hprovider⟩ := read_eq_ok_iff.1 h
  have hevents := Reading.events_mapM (forall_ok_of_mapM hmodels)
  rw [← Reading.result_mapM] at hmodels
  simp only [read, Reading.events_bind, hmodels, henums, hevents, hprovider,
    Reading.result_ofExcept, Reading.events_ofExcept, Reading.result_ofLogged,
    Reading.events_ofLogged, Reading.events_pure, List.nil_append, List.append_nil]
  rfl

/-- A schema that cannot be read has no event of its own. -/
theorem events_read_of_error {e : SchemaError} (h : (read types s).result = .error e) :
    (read types s).events =
      ((BlockKind.model.blocks s).mapM (Model.read types)).events := by
  rcases read_eq_error_iff.1 h with hmodels | ⟨⟨models, hmodels⟩, henums⟩
  · rw [← Reading.result_mapM] at hmodels
    rw [read, Reading.events_bind, hmodels, List.append_nil]
  · rw [← Reading.result_mapM] at hmodels
    simp only [read, Reading.events_bind, hmodels, henums, Reading.result_ofExcept,
      Reading.events_ofExcept, List.append_nil]

/-- How the reading of a schema comes to an error, and what is logged until then: the events of the
models in front of the first one that cannot be read, or of all. -/
def Fails (e : SchemaError) : Prop :=
  (∃ before block after, BlockKind.model.blocks s = before ++ block :: after ∧
    (∀ earlier ∈ before, ∃ m, (Model.read types earlier).result = .ok m) ∧
    (Model.read types block).result = .error e ∧
      (read types s).events = modelEvents types before) ∨
  (∀ block ∈ BlockKind.model.blocks s, ∃ m, (Model.read types block).result = .ok m) ∧
    (BlockKind.enumeration.blocks s).mapM Enumeration.read = .error e ∧
      (read types s).events = modelEvents types (BlockKind.model.blocks s)

theorem fails_of_read {e : SchemaError} (h : (read types s).result = .error e) :
    Fails types s e := by
  have hevents := events_read_of_error types s h
  rcases read_eq_error_iff.1 h with hmodels | ⟨⟨models, hmodels⟩, henums⟩
  · obtain ⟨before, block, after, hblocks, hbefore, hblock⟩ := mapM_eq_error_iff.1 hmodels
    refine Or.inl ⟨before, block, after, hblocks, hbefore, hblock, ?_⟩
    rw [hevents, hblocks, Reading.events_mapM_append hbefore, Reading.events_mapM_cons, hblock,
      Model.events_of_error types hblock]
    exact List.append_nil _
  · have hall := forall_ok_of_mapM hmodels
    exact Or.inr ⟨hall, henums, hevents.trans (Reading.events_mapM hall)⟩

end Document

end Blocks

def Event.Shows (event : Event) (level : Level) (message : String)
    (details : List (String × String)) : Prop :=
  event.level = level ∧ event.message = message ∧ event.details = details

/-- The lines inside a block are all but the first and the last. -/
theorem length_lt_or_interior (lines : List (List Char)) : lines.length < 2 ∧ interior lines = [] ∨
    ∃ first last, lines = first :: (interior lines ++ [last]) := by
  match lines with
  | [] | [_] => exact Or.inl ⟨by simp, rfl⟩
  | first :: second :: rest =>
    have hlast := List.dropLast_append_getLast (List.cons_ne_nil second rest)
    exact Or.inr ⟨first, _, congrArg (first :: ·) hlast.symm⟩

structure Model.Accounts (types : ScalarTypes) (block : List Char) (m : Model) : Prop where
  inside : (lines block).length < 2 ∧ interior (lines block) = [] ∨
    ∃ first last, lines block = first :: (interior (lines block) ++ [last])
  given : ∃ kinds, List.Forall₂ (LineKind.Of types) (interior (lines block)) kinds ∧
    m.fields = kinds.flatMap LineKind.fields ∧
      (Model.read types block).events = kinds.flatMap (LineKind.events m.name)
  table : ∀ name, m.tableName = some name ↔ FirstTable (interior (lines block)) name
  noTable : m.tableName = none ↔
    ∀ line ∈ interior (lines block), ∀ name, ¬ NamesTable (trim line) name

theorem Model.accounts_of_read {types : ScalarTypes} {block : List Char} {m : Model}
    (h : (Model.read types block).result = .ok m) : m.Accounts types block where
  inside := length_lt_or_interior (lines block)
  given := account types h
  table name := by rw [tableName_eq types h, findSome?_eq_some_iff_firstTable]
  noTable := by rw [tableName_eq types h, findSome?_eq_none_iff_noTable]

/-- What is logged about a model is of no interest but to whoever traces the reading. -/
theorem Model.level_events (types : ScalarTypes) (block : List Char) {event : Event}
    (h : event ∈ (Model.read types block).events) : event.level = .trace := by
  cases hread : (Model.read types block).result with
  | error e =>
    rw [events_of_error types hread] at h
    cases h
  | ok m =>
    obtain ⟨kinds, -, -, hevents⟩ := account types hread
    rw [hevents, List.mem_flatMap] at h
    obtain ⟨kind, -, hevent⟩ := h
    cases kind with
    | blank | marked => cases hevent
    | field f fault =>
      obtain ⟨e, -, rfl⟩ := Option.map_eq_some_iff.1 (Option.mem_toList.1 hevent)
      rfl
    | foreign text =>
      rw [List.mem_singleton.1 hevent]
      rfl

/-- Every line inside a model is of one kind. A model that is read has the fields of its lines, and
its reading the events of its lines, in order, and it is called by the first line that names a
table. A relation that cannot be read makes one event, and its field is that of the line with
nothing in place of the argument text. The events of a schema are those of its models and one behind
them all, or only those of its models as far as these were read. -/
theorem lines_accounted (types : ScalarTypes) :
    (∀ line, ∃! kind, LineKind.Of types line kind) ∧
    (∀ block m, (Model.read types block).result = .ok m → m.Accounts types block) ∧
    (∀ line d a args, Declaration.ofLine? line = some d → d.attributes.get? "@relation" = some a →
      a.args = some args → ∃ place : Declaration.RelationPlace line, place.args = args.toList) ∧
    (∀ line (place : Declaration.RelationPlace line) e, Token.readAll place.args = .error e →
      line = place.front ++ (place.args ++ place.back) ∧
        ∃ f, Field.read types line = ⟨some f, [.unreadableRelation e]⟩ ∧
          Field.read types (place.front ++ place.back) = ⟨some f, []⟩) ∧
    (∀ s d, (Document.read types s).result = .ok d → (Document.read types s).events =
      Document.modelEvents types (BlockKind.model.blocks s) ++
        [.readSchema d.models.length d.enums.length d.provider]) ∧
    (∀ s e, (Document.read types s).result = .error e → Document.Fails types s e) ∧
    (∀ block, ∀ event ∈ (Model.read types block).events, event.level = .trace) ∧
    (∀ model line, (Event.skippedLine model line).Shows .trace "skipping non-field line"
      [("model", model), ("line", line)]) ∧
    (∀ e, (Event.unreadableRelation e).Shows .trace "unreadable relation arguments"
      [("err", e.message)]) ∧
    ∀ models enums provider, (Event.readSchema models enums provider).Shows .debug "parsed schema"
      [("models", toString models), ("enums", toString enums), ("provider", provider)] := by
  refine ⟨fun line => ?_, fun _ _ h => Model.accounts_of_read h,
    fun _ _ _ _ hline ha hargs => Declaration.exists_place hline ha hargs,
    fun _ place _ h => ⟨place.line_eq_append, Field.read_of_place types place h⟩,
    fun s _ h => Document.events_read_of_ok types s h,
    fun s _ h => Document.fails_of_read types s h,
    fun block _ h => Model.level_events types block h,
    fun _ _ => ⟨rfl, rfl, rfl⟩, fun _ => ⟨rfl, rfl, rfl⟩, fun _ _ _ => ⟨rfl, rfl, rfl⟩⟩
  obtain ⟨kind, hkind⟩ := LineKind.exists_of types line
  exact ⟨kind, hkind, fun other hother => hkind.eq hother⟩

def ledgerBlock : List Char :=
  "model A \x7b\n\n a Int\n@@map(\"t\")\n ? \n b B @relation(#)\n\x7d".toList

def ledgerText : List Char := ledgerBlock ++ "\nmodel \nB \x7b\n\x7d".toList

def ledgerLine : List Char := "b B @relation(#)".toList

def ledgerPlace : Declaration.RelationPlace ledgerLine where
  declaration := ⟨"b", "B", false, false, .empty⟩
  head := "b B ".toList
  before := []
  args := ['#']
  isClosed := true
  after := []
  text := "@relation(#)".toList
  line_eq := rfl
  opens := rfl
  splits := by
    have hargs : Attribute.Balanced ['#'] := .plain (by decide) (by decide) (by decide) .nil
    have hstands : (Declaration.relationPiece true ['#']).Stands [] :=
      .named (by decide) (List.all_eq_true.1 (by decide)) hargs
    exact .cons hstands .nil
  first := nofun

theorem lines_accounted_ledger :
    (∃ m, (Model.read .standard ledgerBlock).result = .ok m ∧ m.Accounts .standard ledgerBlock) ∧
    (∃ place : Declaration.RelationPlace ledgerLine, place.args = ['#']) ∧
    (∃ f, Field.read .standard ledgerLine = ⟨some f, [.unreadableRelation (.unexpected '#')]⟩ ∧
      Field.read .standard "b B @relation()".toList = ⟨some f, []⟩) ∧
    (∃ d, (Document.read .standard ledgerBlock).result = .ok d ∧
      (Document.read .standard ledgerBlock).events =
        Document.modelEvents .standard (BlockKind.model.blocks ledgerBlock) ++
          [.readSchema d.models.length d.enums.length d.provider]) ∧
    ∃ e, (Document.read .standard ledgerText).result = .error e ∧
      Document.Fails .standard ledgerText e := by
  obtain ⟨-, hmodel, hplace, hfield, hread, hfails, -⟩ := lines_accounted .standard
  have hok {α ε : Type} {x : Except ε α} (h : x.isOk = true) : ∃ a, x = .ok a := by
    cases x with
    | ok a => exact ⟨a, rfl⟩
    | error e => cases h
  refine ⟨?_, ?_, ?_, ?_, ?_⟩
  · obtain ⟨m, hm⟩ : ∃ m, (Model.read .standard ledgerBlock).result = .ok m :=
      hok (by decide +kernel)
    exact ⟨m, hm, hmodel _ _ hm⟩
  · exact hplace _ _ ⟨"relation", some "#", false⟩ "#" ledgerPlace.ofLine?_eq
      (by decide +kernel) rfl
  · obtain ⟨-, f, hf, hempty⟩ := hfield _ ledgerPlace (.unexpected '#') (by decide +kernel)
    exact ⟨f, hf, hempty⟩
  · obtain ⟨d, hd⟩ : ∃ d, (Document.read .standard ledgerBlock).result = .ok d :=
      hok (by decide +kernel)
    exact ⟨d, hd, hread _ _ hd⟩
  · exact ⟨.malformed .model "model", by decide +kernel, hfails _ _ (by decide +kernel)⟩

end SchemaQuery
