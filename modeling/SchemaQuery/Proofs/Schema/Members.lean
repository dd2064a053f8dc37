import SchemaQuery.Proofs.Schema.LineHead
import SchemaQuery.Proofs.Schema.Relations

/-!
# Reading the members of a model

The line of a regular field is read back as the field, and the line of a table name as the name, in
every layout.
-/

set_option autoImplicit false

namespace SchemaQuery

open SchemaQuery.Unicode SchemaQuery.Text

def Member (s : List Char) : Prop := Solid s ∧ Inline s

namespace Field

def optionalMark (isRequired : Bool) : List Char := if isRequired then [] else ['?']

theorem displayType_toList (f : Field) :
    f.displayType.toList =
      f.typeName.toList ++ (listMark f.isList ++ optionalMark f.isRequired) := by
  unfold Field.displayType listMark optionalMark
  cases f.isList <;> cases f.isRequired <;> simp

theorem displayType_line {f : Field} (h : isWord f.typeName.toList = true) :
    (∀ c ∈ f.displayType.toList, isWhite c = false) ∧ Inline f.displayType.toList := by
  have hmarks : ∀ list required : Bool,
      (listMark list ++ optionalMark required).all (fun c => !isWhite c) = true ∧
        Inline (listMark list ++ optionalMark required) := by decide
  obtain ⟨hsolid, hline⟩ := hmarks f.isList f.isRequired
  rw [displayType_toList]
  constructor
  · intro c hc
    rcases List.mem_append.1 hc with hname | hmark
    · exact isWhite_of_isWordChar (isWordChar_of_isWord h hname)
    · simpa using List.all_eq_true.1 hsolid c hmark
  · exact inline_append (inline_of_isWord h) hline

end Field

namespace Style

variable (style : Style)

theorem fieldSlots_keyed (types : ScalarTypes) (f : Field) :
    Keyed Attribute.marker (style.fieldSlots types f) := by
  intro slot hslot a ha
  simp only [fieldSlots, List.mem_cons, List.not_mem_nil, or_false] at hslot
  rcases hslot with rfl | rfl | rfl | rfl
  · simp only [Option.mem_def, Option.ite_none_right_eq_some] at ha
    rw [← Option.some.inj ha.2]
    rfl
  · simp only [Option.mem_def, Option.ite_none_right_eq_some] at ha
    rw [← Option.some.inj ha.2]
    rfl
  · obtain ⟨text, -, rfl⟩ := Option.map_eq_some_iff.1 ha
    rfl
  · obtain ⟨r, -, rfl⟩ := style.mem_relationAttribute? ha
    rfl

theorem fieldSlots_nodup (types : ScalarTypes) (f : Field) :
    ((style.fieldSlots types f).map Prod.fst).Nodup := by
  simp [fieldSlots]

def attributeRow (types : ScalarTypes) (f : Field) : List Char :=
  Attribute.row (style.arrangeAttributes (style.fieldAttributes types f))

theorem mem_arrangeAttributes {as : List Attribute} {a : Attribute} :
    a ∈ style.arrangeAttributes as ↔ a ∈ as :=
  (style.attributes_perm as).mem_iff

variable {types : ScalarTypes} {f : Field}

theorem arranged_sound (hf : f.Regular types) {a : Attribute}
    (h : a ∈ style.arrangeAttributes (style.fieldAttributes types f)) : a.Sound :=
  style.fieldAttributes_sound hf (style.mem_arrangeAttributes.1 h)

/-- An attribute of a field is found under its marker wherever it stands. -/
theorem get?_ofList_arranged {marker : String} {entry : Option Attribute}
    (h : (marker, entry) ∈ style.fieldSlots types f) :
    (Attributes.ofList (style.arrangeAttributes (style.fieldAttributes types f))).get? marker =
      entry := by
  have hkeyed := style.fieldSlots_keyed types f
  have hdistinct := style.fieldSlots_nodup types f
  have hperm := style.attributes_perm (style.fieldAttributes types f)
  have hnodup : ((style.fieldAttributes types f).map Attribute.marker).Nodup :=
    keys_present_nodup hkeyed hdistinct
  rw [Attributes.get?_ofList, ← find?_key_of_perm hperm.symm hnodup]
  exact find?_present hkeyed hdistinct h

structure Declares (types : ScalarTypes) (d : Declaration) (f : Field) : Prop where
  name : d.name = f.name
  typeName : d.typeName = f.typeName
  isList : d.isList = f.isList
  isOptional : d.isOptional = !f.isRequired
  attributes : ∀ {marker : String} {entry : Option Attribute},
    (marker, entry) ∈ style.fieldSlots types f → d.attributes.get? marker = entry

theorem isId_of_declares {d : Declaration} (hd : style.Declares types d f) :
    d.attributes.has "@id" = f.isId := by
  have hget : d.attributes.get? "@id" = if f.isId then some idAttribute else none :=
    hd.attributes (by simp [fieldSlots])
  rw [Attributes.has, hget]
  cases f.isId <;> rfl

theorem relation_of_declares {d : Declaration} (hf : f.Regular types)
    (hd : style.Declares types d f) : (d.relation types).value = f.relation := by
  have hid : d.attributes.has "@id" = f.isId := style.isId_of_declares hd
  have hrelation : d.attributes.get? "@relation" = style.relationAttribute? types f :=
    hd.attributes (List.mem_of_getElem? (i := 3) rfl)
  unfold Declaration.relation
  rw [hrelation, hid, hd.typeName]
  by_cases h : f.relation = some {} ∧ f.impliesRelation types = true ∧
      style.writesBareRelations = false
  · have himplies := h.2.1
    unfold Field.impliesRelation at himplies
    rw [relationAttribute?, if_pos h, h.1]
    simp only [himplies, if_true]
    rfl
  · rw [relationAttribute?, if_neg h]
    cases hr : f.relation with
    | some r =>
      have hread := style.read_relationAttribute (hf.relation r hr)
      exact congrArg some hread
    | none =>
      have himplies : (!f.isId && !types.contains f.typeName) = false := by
        rcases hf.scalar hr with hs | hs <;> simp [hs]
      simp only [Option.map_none, himplies]
      rfl

theorem field_of_declares {d : Declaration} (hf : f.Regular types)
    (hd : style.Declares types d f) : (d.field types).value = f := by
  have hid : d.attributes.has "@id" = f.isId := style.isId_of_declares hd
  have hunique : d.attributes.has "@unique" = f.isUnique := by
    have hget : d.attributes.get? "@unique" = if f.isUnique then some uniqueAttribute else none :=
      hd.attributes (by simp [fieldSlots])
    rw [Attributes.has, hget]
    cases f.isUnique <;> rfl
  have hdefault : d.attributes.args? "@default" = f.defaultText := by
    have hget : d.attributes.get? "@default" = f.defaultText.map defaultAttribute :=
      hd.attributes (by simp [fieldSlots])
    rw [Attributes.args?, hget]
    cases f.defaultText <;> rfl
  have hrelation := style.relation_of_declares hf hd
  unfold Declaration.field
  rw [Logged.value_bind, hrelation, Logged.value_pure, hd.name, hd.typeName, hd.isList,
    hd.isOptional, hid, hunique, hdefault, Bool.not_not]

theorem isBlank_optional {isRequired : Bool} {pad : List Char}
    (h : pad ∈ if isRequired then none else some []) : isBlank pad = true := by
  cases isRequired <;> cases h
  rfl

def fieldHead (hf : f.Regular types) : Declaration.Head where
  margin := []
  name := f.name.toList
  gap := [' ']
  typeName := f.typeName.toList
  isList := f.isList
  optional := if f.isRequired then none else some []
  isBlank_margin := isBlank_nil
  isWord_name := hf.name
  isBlank_gap := isBlank_space
  gap_ne_nil := List.cons_ne_nil _ _
  isWord_typeName := hf.typeName
  isBlank_optional := fun _ hpad => isBlank_optional hpad

theorem fieldLine_eq (hf : f.Regular types) :
    style.fieldLine types f = (fieldHead hf).text ++ style.attributeRow types f := by
  have hoptional : Declaration.Head.optionalText (fieldHead hf).optional =
      Field.optionalMark f.isRequired := by
    cases hr : f.isRequired <;>
      simp [fieldHead, hr, Field.optionalMark, Declaration.Head.optionalText]
  rw [Declaration.Head.text, hoptional, fieldLine, f.displayType_toList, attributeRow]
  simp [fieldHead]

theorem declares_fieldLine (hf : f.Regular types) :
    ∃ d, Declaration.ofLine? (style.fieldLine types f) = some d ∧ style.Declares types d f := by
  have hsound : ∀ a ∈ style.arrangeAttributes (style.fieldAttributes types f), a.Sound :=
    fun a ha => style.arranged_sound hf ha
  rw [style.fieldLine_eq hf]
  refine ⟨_, (fieldHead hf).ofLine?_append (Attribute.arranges_row hsound), ?_⟩
  constructor
  · exact String.ofList_toList
  · exact String.ofList_toList
  · rfl
  · show (if f.isRequired then none else some []).isSome = !f.isRequired
    cases f.isRequired <;> rfl
  · exact fun hslot => style.get?_ofList_arranged hslot

/-- The line of a regular field is read back as the field. -/
theorem read_fieldLine (hf : f.Regular types) :
    (Field.read types (style.fieldLine types f)).value = some f := by
  obtain ⟨d, hline, hd⟩ := style.declares_fieldLine hf
  unfold Field.read
  rw [hline]
  exact congrArg some (style.field_of_declares hf hd)

theorem fieldLine_head (hf : f.Regular types) :
    ∃ c rest, style.fieldLine types f = c :: rest ∧ isWordChar c = true := by
  rw [fieldLine]
  cases hn : f.name.toList with
  | nil => exact absurd hn (ne_nil_of_isWord hf.name)
  | cons c rest =>
    refine ⟨c, _, rfl, isWordChar_of_isWord hf.name ?_⟩
    rw [hn]
    exact List.mem_cons_self

theorem addLine_fieldLine (hf : f.Regular types) (m : Model) :
    (m.addLine types (style.fieldLine types f)).value = { m with fields := m.fields ++ [f] } := by
  have hread := style.read_fieldLine hf
  obtain ⟨c, rest, hline, hc⟩ := style.fieldLine_head hf
  unfold Model.addLine
  split
  · rename_i heq
    rw [hline, List.cons.injEq] at heq
    rw [heq.1] at hc
    exact absurd hc (by decide)
  · rw [Logged.value_bind, hread]
    rfl

theorem tableAttribute_sound (name : String) : (style.tableAttribute name).Sound := by
  have hname := isNameChar_id (style.tableAttribute name) (by simp [tableAttribute])
  refine ⟨hname.1, hname.2, ?_⟩
  intro text ht
  cases ht
  apply style.balanced_argumentText
  intro a ha
  rw [List.mem_singleton.1 ha]
  exact style.nameArgument_sound name

theorem arrangeArguments_singleton (a : Argument) : style.arrangeArguments [a] = [a] :=
  List.perm_singleton.1 (style.arguments_perm [a])

theorem tableName?_written (name : String) :
    Model.tableName? (style.tableAttribute name).written = some name := by
  have hsound := style.tableAttribute_sound name
  have hoccurrences : Attribute.occurrences (style.tableAttribute name).written =
      [style.tableAttribute name] := by
    have hend : Attribute.Apart [] := by
      intro c hc
      cases hc
    have hrow := Attribute.occurrences_written hsound hend
    rwa [List.append_nil, Attribute.occurrences_nil] at hrow
  have hitems : (Attribute.scan (style.tableAttribute name).written).items =
      [style.tableAttribute name] := by
    rw [Attribute.scan, hoccurrences]
    exact Attributes.ofList_items (List.nodup_singleton _)
  have hargs : (Attribute.scan (style.tableAttribute name).written).args? "@@map" =
      some (style.argumentText [style.nameArgument name]) := by
    rw [Attributes.args?, Attributes.get?, hitems]
    rfl
  have hread : Argument.readAll (style.argumentText [style.nameArgument name]).toList =
      .ok (style.arrangeArguments [style.nameArgument name]) := by
    apply style.readAll_argumentText
    intro a ha
    rw [List.mem_singleton.1 ha]
    exact style.nameArgument_sound name
  have hname : Relation.nameArgument? [style.nameArgument name] = some name := by
    apply style.nameArgument?_eq
    · simp [nameArgument]
    · intro hn
      simp [nameArgument, nameKey, hn]
    · intro hn
      simp [nameArgument, nameKey, hn]
  unfold Model.tableName?
  rw [hargs, Option.bind_eq_bind, Option.bind_some, hread, style.arrangeArguments_singleton]
  exact hname

theorem addLine_table (name : String) (m : Model) (h : m.tableName = none) :
    (m.addLine types (style.tableAttribute name).written).value =
      { m with tableName := some name } := by
  have hmarks : ∃ rest, (style.tableAttribute name).written = '@' :: '@' :: rest := ⟨_, rfl⟩
  have htable := style.tableName?_written name
  obtain ⟨rest, hrest⟩ := hmarks
  rw [hrest] at htable
  rw [hrest, Model.addLine, Logged.value_pure, htable, h]
  rfl

theorem member_fieldLine (hf : f.Regular types) : Member (style.fieldLine types f) := by
  have hsound : ∀ a ∈ style.arrangeAttributes (style.fieldAttributes types f), a.Sound :=
    fun a ha => style.arranged_sound hf ha
  have hargs : ∀ a ∈ style.arrangeAttributes (style.fieldAttributes types f),
      ∀ text ∈ a.args, Inline text.toList := fun a ha text ht =>
    (style.fieldAttributes_args hf (style.mem_arrangeAttributes.1 ha) ht).1
  have htype := Field.displayType_line hf.typeName
  obtain ⟨c, rest, hline, hc⟩ := style.fieldLine_head hf
  refine ⟨⟨?_, ?_, ?_⟩, ?_⟩
  · rw [hline]
    simp
  · intro d hd
    rw [hline] at hd
    cases hd
    exact isWhite_of_isWordChar hc
  · have hne : f.typeName.toList ≠ [] := ne_nil_of_isWord hf.typeName
    have htail : EndsSolid (f.displayType.toList ++ style.attributeRow types f) :=
      endsSolid_append (Attribute.endsSolid_row hsound) (Or.inr (endsSolid_of_forall htype.1))
    have hsplit : style.fieldLine types f = (f.name.toList ++ [' ']) ++
        (f.displayType.toList ++ style.attributeRow types f) := by
      rw [fieldLine, attributeRow]
      simp
    rw [hsplit]
    apply endsSolid_append htail
    left
    rw [f.displayType_toList]
    simp [hne]
  · have hrest : Inline (f.displayType.toList ++ style.attributeRow types f) :=
      inline_append htype.2 (Attribute.inline_row hsound hargs)
    exact inline_append (inline_of_isWord hf.name) (inline_cons (by decide) hrest)

theorem member_table {name : String} (h : BraceFree name) :
    Member (style.tableAttribute name).written := by
  have hsound := style.tableAttribute_sound name
  refine ⟨⟨Attribute.written_ne_nil _, ?_, Attribute.endsSolid_written hsound⟩, ?_⟩
  · intro c hc
    obtain ⟨rest, hrest⟩ := (style.tableAttribute name).written_head
    rw [hrest] at hc
    cases hc
    decide
  · apply Attribute.inline_written hsound
    intro text ht
    cases ht
    apply style.inline_argumentText
    · intro a ha
      rw [List.mem_singleton.1 ha]
      exact style.nameArgument_sound name
    · intro a ha s hs
      rw [List.mem_singleton.1 ha] at hs
      cases hs
      exact h

end Style

namespace Layout

variable (layout : Layout) {types : ScalarTypes}

theorem foldl_fieldLines (m : Model) {fs : List Field} (hfs : ∀ f ∈ fs, f.Regular types)
    (start : Model) :
    (fs.map (layout.fieldLine types m)).foldl (fun m line => (m.addLine types line).value) start =
      { start with fields := start.fields ++ fs } := by
  induction fs generalizing start with
  | nil => simp
  | cons f fs ih =>
    have hf : f.Regular types := hfs f List.mem_cons_self
    rw [List.map_cons, List.foldl_cons, fieldLine, Style.addLine_fieldLine _ hf,
      ih fun g hg => hfs g (List.mem_cons_of_mem _ hg)]
    simp

/-- The members of a model build it up from its name. -/
theorem foldlM_modelLines {m : Model} (hm : m.Regular types) :
    ((layout.modelLines types m).foldlM (Model.addLine types) { name := m.name }).value = m := by
  have htake : ∀ f ∈ m.fields.take (layout.tablePlace m), f.Regular types :=
    fun f hf => hm.fields f (List.mem_of_mem_take hf)
  have hdrop : ∀ f ∈ m.fields.drop (layout.tablePlace m), f.Regular types :=
    fun f hf => hm.fields f (List.mem_of_mem_drop hf)
  have hwhole (table : Option String) (h : m.tableName = table) :
      { name := m.name, tableName := table,
        fields := m.fields.take (layout.tablePlace m) ++ m.fields.drop (layout.tablePlace m) } =
        m := by
    rw [List.take_append_drop, ← h]
  rw [value_foldlM, modelLines, List.foldl_append, List.foldl_append,
    layout.foldl_fieldLines m htake]
  cases htable : m.tableName with
  | none =>
    rw [Option.map_none, Option.toList_none, List.foldl_nil, layout.foldl_fieldLines m hdrop,
      List.nil_append]
    exact hwhole none htable
  | some table =>
    rw [Option.map_some, Option.toList_some, List.foldl_cons, List.foldl_nil, tableLine,
      Style.addLine_table _ table _ rfl, layout.foldl_fieldLines m hdrop, List.nil_append]
    exact hwhole (some table) htable

theorem member_modelLines {m : Model} (hm : m.Regular types) {line : List Char}
    (h : line ∈ layout.modelLines types m) : Member line := by
  simp only [modelLines, List.mem_append, List.mem_map, Option.mem_toList,
    Option.map_eq_some_iff] at h
  rcases h with (⟨f, hf, rfl⟩ | ⟨name, hname, rfl⟩) | ⟨f, hf, rfl⟩
  · exact Style.member_fieldLine _ (hm.fields f (List.mem_of_mem_take hf))
  · exact Style.member_table _ (hm.tableName name hname)
  · exact Style.member_fieldLine _ (hm.fields f (List.mem_of_mem_drop hf))

end Layout

end SchemaQuery
