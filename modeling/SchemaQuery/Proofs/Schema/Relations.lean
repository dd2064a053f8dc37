import SchemaQuery.Proofs.Schema.Layout

/-!
# Attributes of fields and relations

The attributes that are written for a regular field are balanced and stand on one line, and a
relation is read back from its arguments, in whatever order they are.
-/

set_option autoImplicit false

namespace SchemaQuery

open SchemaQuery.Unicode SchemaQuery.Text

namespace Style

variable (style : Style)

theorem isName_key : Token.isName "name".toList = true ∧ Token.isName "fields".toList = true ∧
    Token.isName "references".toList = true ∧ Token.isName "onDelete".toList = true ∧
    Token.isName "onUpdate".toList = true := by
  decide

theorem nameArgument_sound (name : String) : (style.nameArgument name).Sound := by
  refine ⟨?_, trivial⟩
  intro key hkey
  unfold nameArgument nameKey at hkey
  cases h : style.namesName with
  | true =>
    rw [h] at hkey
    cases hkey
    exact isName_key.1
  | false =>
    rw [h] at hkey
    cases hkey

theorem listArgument_sound {key : String} (hkey : Token.isName key.toList = true)
    {words : List String} (hwords : ∀ word ∈ words, Token.isName word.toList = true)
    {a : Argument} (ha : a ∈ style.listArgument key words) : a.Sound := by
  unfold listArgument at ha
  split at ha
  · cases ha
  · cases ha
    refine ⟨?_, hwords⟩
    intro name hname
    cases hname
    exact hkey

theorem wordArgument_sound {key : String} (hkey : Token.isName key.toList = true)
    {word : Option String} (hword : ∀ w ∈ word, Token.isName w.toList = true)
    {a : Argument} (ha : a ∈ wordArgument key word) : a.Sound := by
  cases word with
  | none => cases ha
  | some w =>
    cases ha
    refine ⟨?_, hword w rfl⟩
    intro name hname
    cases hname
    exact hkey

theorem mem_relationArguments {r : Relation} {a : Argument}
    (ha : a ∈ style.relationArguments r) :
    a ∈ r.name.map style.nameArgument ∨ a ∈ style.listArgument "fields" r.fields ∨
      a ∈ style.listArgument "references" r.references ∨ a ∈ wordArgument "onDelete" r.onDelete ∨
      a ∈ wordArgument "onUpdate" r.onUpdate := by
  simpa [relationArguments, present, relationSlots] using ha

theorem relationArguments_sound {r : Relation} (hr : r.Regular) {a : Argument}
    (ha : a ∈ style.relationArguments r) : a.Sound := by
  obtain ⟨-, hf, hrefs, hd, hu⟩ := isName_key
  rcases style.mem_relationArguments ha with ha | ha | ha | ha | ha
  · obtain ⟨name, -, rfl⟩ := Option.map_eq_some_iff.1 ha
    exact style.nameArgument_sound name
  · exact style.listArgument_sound hf hr.fields ha
  · exact style.listArgument_sound hrefs hr.references ha
  · exact wordArgument_sound hd hr.onDelete ha
  · exact wordArgument_sound hu hr.onUpdate ha

theorem relationSlots_keyed (r : Relation) : Keyed Argument.name (style.relationSlots r) := by
  intro slot hslot a ha
  simp only [relationSlots, List.mem_cons, List.not_mem_nil, or_false] at hslot
  rcases hslot with rfl | rfl | rfl | rfl | rfl
  · obtain ⟨name, -, rfl⟩ := Option.map_eq_some_iff.1 ha
    rfl
  · exact name_of_mem_listArgument ha
  · exact name_of_mem_listArgument ha
  · obtain ⟨word, -, rfl⟩ := Option.map_eq_some_iff.1 ha
    rfl
  · obtain ⟨word, -, rfl⟩ := Option.map_eq_some_iff.1 ha
    rfl
where
  name_of_mem_listArgument {key : String} {words : List String} {a : Argument}
      (ha : a ∈ style.listArgument key words) : a.name = some key := by
    unfold listArgument at ha
    split at ha
    · cases ha
    · cases ha
      rfl

theorem relationSlots_nodup (r : Relation) : ((style.relationSlots r).map Prod.fst).Nodup := by
  unfold relationSlots nameKey
  cases style.namesName <;> simp

/-- An argument of a relation is found under its name wherever it stands. -/
theorem find?_relationArguments {r : Relation} {key : Option String} {entry : Option Argument}
    (h : (key, entry) ∈ style.relationSlots r) :
    (style.arrangeArguments (style.relationArguments r)).find? (·.name == key) = entry := by
  have hkeyed := style.relationSlots_keyed r
  have hdistinct := style.relationSlots_nodup r
  have hperm := (style.arguments_perm (style.relationArguments r)).symm
  rw [← find?_key_of_perm hperm (keys_present_nodup hkeyed hdistinct)]
  exact find?_present hkeyed hdistinct h

theorem nameArgument?_eq {as : List Argument} {name : Option String}
    (hfound : as.find? (·.name == style.nameKey) = name.map style.nameArgument)
    (hother : style.namesName = false → as.find? (·.name == some "name") = none)
    (hnone : style.namesName = true → as.find? (·.name == none) = none) :
    Relation.nameArgument? as = name := by
  have hvalue : Argument.find? as "name" true = name.map ArgumentValue.text := by
    unfold Argument.find?
    unfold nameKey at hfound
    cases hn : style.namesName with
    | true =>
      rw [hn] at hfound
      simp only [if_true] at hfound
      rw [hfound, hnone hn]
      cases name <;> rfl
    | false =>
      rw [hn] at hfound
      simp only [Bool.false_eq_true, if_false] at hfound
      rw [hother hn]
      simp only [if_true, hfound]
      cases name <;> rfl
  unfold Relation.nameArgument?
  rw [hvalue]
  cases name <;> rfl

theorem listArgument_eq {as : List Argument} {key : String} {words : List String}
    (h : as.find? (·.name == some key) = style.listArgument key words) :
    Relation.listArgument as key = words := by
  unfold Relation.listArgument Argument.find?
  rw [h, listArgument]
  by_cases hw : words = [] ∧ style.writesEmptyLists = false
  · rw [if_pos hw, hw.1]
    rfl
  · rw [if_neg hw]

theorem wordArgument?_eq {as : List Argument} {key : String} {word : Option String}
    (h : as.find? (·.name == some key) = wordArgument key word) :
    Relation.wordArgument? as key = word := by
  unfold Relation.wordArgument? Argument.find?
  rw [h]
  cases word <;> rfl

theorem find?_other_name {r : Relation} {key : Option String}
    (hkey : key ∉ (style.relationSlots r).map Prod.fst) :
    (style.arrangeArguments (style.relationArguments r)).find? (·.name == key) = none := by
  have hkeyed := style.relationSlots_keyed r
  have hdistinct := style.relationSlots_nodup r
  have hperm := (style.arguments_perm (style.relationArguments r)).symm
  rw [← find?_key_of_perm hperm (keys_present_nodup hkeyed hdistinct)]
  exact find?_present_of_notMem hkeyed hkey

theorem ofArguments_arranged (r : Relation) :
    Relation.ofArguments (style.arrangeArguments (style.relationArguments r)) = r := by
  generalize has : style.arrangeArguments (style.relationArguments r) = as
  have hfound {key : Option String} {entry : Option Argument}
      (h : (key, entry) ∈ style.relationSlots r) : as.find? (·.name == key) = entry :=
    has ▸ style.find?_relationArguments h
  have hother {key : Option String} (h : key ∉ (style.relationSlots r).map Prod.fst) :
      as.find? (·.name == key) = none :=
    has ▸ style.find?_other_name h
  have hname : Relation.nameArgument? as = r.name := by
    apply style.nameArgument?_eq
    · exact hfound (by simp [relationSlots])
    · exact fun hn => hother (by simp [relationSlots, nameKey, hn])
    · exact fun hn => hother (by simp [relationSlots, nameKey, hn])
  have hfields : Relation.listArgument as "fields" = r.fields :=
    style.listArgument_eq (hfound (by simp [relationSlots]))
  have hreferences : Relation.listArgument as "references" = r.references :=
    style.listArgument_eq (hfound (by simp [relationSlots]))
  have hdelete : Relation.wordArgument? as "onDelete" = r.onDelete :=
    wordArgument?_eq (hfound (by simp [relationSlots]))
  have hupdate : Relation.wordArgument? as "onUpdate" = r.onUpdate :=
    wordArgument?_eq (hfound (by simp [relationSlots]))
  unfold Relation.ofArguments
  rw [hname, hfields, hreferences, hdelete, hupdate]

theorem mem_arrangeArguments {as : List Argument} {a : Argument} :
    a ∈ style.arrangeArguments as ↔ a ∈ as :=
  (style.arguments_perm as).mem_iff

theorem readAll_argumentText {as : List Argument} (h : ∀ a ∈ as, a.Sound) :
    Argument.readAll (style.argumentText as).toList = .ok (style.arrangeArguments as) := by
  rw [argumentText, String.toList_ofList]
  exact Argument.readAll_row style.spell_spells
    fun a ha => h a (style.mem_arrangeArguments.1 ha)

theorem balanced_argumentText {as : List Argument} (h : ∀ a ∈ as, a.Sound) :
    Attribute.Balanced (style.argumentText as).toList := by
  rw [argumentText, String.toList_ofList]
  exact Attribute.balanced_row style.spell_spells
    fun a ha => h a (style.mem_arrangeArguments.1 ha)

theorem inline_spell {s : String} (h : BraceFree s) : Inline (style.spell s.toList) := by
  have hspells := style.spell_spells s.toList
  refine ⟨style.spell_line s.toList, ?_, ?_⟩
  · exact Token.notMem_of_spells hspells h.1 (by decide) rfl
  · exact Token.notMem_of_spells hspells h.2 (by decide) rfl

theorem inline_argumentText {as : List Argument} (h : ∀ a ∈ as, a.Sound)
    (htext : ∀ a ∈ as, ∀ s, a.value = .text s → BraceFree s) :
    Inline (style.argumentText as).toList := by
  rw [argumentText, String.toList_ofList]
  apply Argument.inline_row
  · exact fun a ha => h a (style.mem_arrangeArguments.1 ha)
  · intro a ha s hs
    exact style.inline_spell (htext a (style.mem_arrangeArguments.1 ha) s hs)

theorem relationArguments_braceFree {r : Relation} (hr : r.Regular) {a : Argument}
    (ha : a ∈ style.relationArguments r) {s : String} (hs : a.value = .text s) : BraceFree s := by
  rcases style.mem_relationArguments ha with ha | ha | ha | ha | ha
  · obtain ⟨name, hname, rfl⟩ := Option.map_eq_some_iff.1 ha
    cases hs
    exact hr.name _ hname
  · exact (list_ne_text ha hs).elim
  · exact (list_ne_text ha hs).elim
  · obtain ⟨word, -, rfl⟩ := Option.map_eq_some_iff.1 ha
    cases hs
  · obtain ⟨word, -, rfl⟩ := Option.map_eq_some_iff.1 ha
    cases hs
where
  list_ne_text {key : String} {words : List String} {a : Argument} {s : String}
      (ha : a ∈ style.listArgument key words) (hs : a.value = .text s) : False := by
    unfold listArgument at ha
    split at ha
    · cases ha
    · cases ha
      cases hs

theorem relationAttribute_args_eq (r : Relation) : (style.relationAttribute r).args =
    if style.relationArguments r = [] ∧ style.writesEmptyArguments = false then none
    else some (style.argumentText (style.relationArguments r)) := rfl

/-- The relation is read back from the arguments it is written with. -/
theorem read_relationAttribute {r : Relation} (hr : r.Regular) :
    (Relation.read ((style.relationAttribute r).args.getD "")).value = r := by
  have harranged := style.ofArguments_arranged r
  have hread : Argument.readAll ((style.relationAttribute r).args.getD "").toList =
      .ok (style.arrangeArguments (style.relationArguments r)) := by
    rw [relationAttribute_args_eq]
    by_cases h : style.relationArguments r = [] ∧ style.writesEmptyArguments = false
    · have hnil : style.arrangeArguments [] = [] := (style.arguments_perm []).eq_nil
      have hempty : ∀ a ∈ ([] : List Argument), a.Sound := fun a ha => by cases ha
      rw [if_pos h, h.1, hnil]
      exact Argument.readAll_row style.spell_spells hempty
    · rw [if_neg h]
      exact style.readAll_argumentText fun a ha => style.relationArguments_sound hr ha
  unfold Relation.read
  rw [hread]
  exact harranged

theorem isNameChar_id : ∀ a : Attribute, a.name ∈ ["id", "unique", "default", "relation", "map"] →
    a.name.toList ≠ [] ∧ ∀ c ∈ a.name.toList, Attribute.isNameChar c = true := by
  intro a ha
  have hall : a.name.toList ≠ [] ∧ a.name.toList.all Attribute.isNameChar = true := by
    simp only [List.mem_cons, List.not_mem_nil, or_false] at ha
    rcases ha with h | h | h | h | h
    all_goals
      rw [h]
      decide
  exact ⟨hall.1, List.all_eq_true.1 hall.2⟩

theorem relationAttribute_args {r : Relation} (hr : r.Regular) {text : String}
    (ht : text ∈ (style.relationAttribute r).args) :
    Inline text.toList ∧ Attribute.Balanced text.toList := by
  rw [relationAttribute_args_eq] at ht
  by_cases h : style.relationArguments r = [] ∧ style.writesEmptyArguments = false
  · rw [if_pos h] at ht
    cases ht
  · rw [if_neg h] at ht
    cases ht
    have hsound (a : Argument) (ha : a ∈ style.relationArguments r) : a.Sound :=
      style.relationArguments_sound hr ha
    refine ⟨style.inline_argumentText hsound ?_, style.balanced_argumentText hsound⟩
    exact fun a ha s hs => style.relationArguments_braceFree hr ha hs

theorem mem_relationAttribute? {types : ScalarTypes} {f : Field} {a : Attribute}
    (h : a ∈ style.relationAttribute? types f) :
    ∃ r, f.relation = some r ∧ a = style.relationAttribute r := by
  unfold relationAttribute? at h
  split at h
  · cases h
  · obtain ⟨r, hr, rfl⟩ := Option.map_eq_some_iff.1 h
    exact ⟨r, hr, rfl⟩

theorem mem_fieldAttributes {types : ScalarTypes} {f : Field} {a : Attribute}
    (h : a ∈ style.fieldAttributes types f) :
    a = idAttribute ∨ a = uniqueAttribute ∨ (∃ text, f.defaultText = some text ∧
      a = defaultAttribute text) ∨ ∃ r, f.relation = some r ∧ a = style.relationAttribute r := by
  simp only [fieldAttributes, present, fieldSlots, List.flatMap_cons, List.flatMap_nil,
    List.append_nil, List.mem_append, Option.mem_toList] at h
  rcases h with h | h | h | h
  · split at h
    · exact Or.inl (Option.some.inj h).symm
    · cases h
  · split at h
    · exact Or.inr (Or.inl (Option.some.inj h).symm)
    · cases h
  · obtain ⟨text, ht, rfl⟩ := Option.map_eq_some_iff.1 h
    exact Or.inr (Or.inr (Or.inl ⟨text, ht, rfl⟩))
  · exact Or.inr (Or.inr (Or.inr (style.mem_relationAttribute? h)))

theorem fieldAttributes_args {types : ScalarTypes} {f : Field} (hf : f.Regular types)
    {a : Attribute} (h : a ∈ style.fieldAttributes types f) {text : String} (ht : text ∈ a.args) :
    Inline text.toList ∧ Attribute.Balanced text.toList := by
  rcases style.mem_fieldAttributes h with rfl | rfl | ⟨value, hv, rfl⟩ | ⟨r, hr, rfl⟩
  · cases ht
  · cases ht
  · cases ht
    exact hf.defaultText _ hv
  · exact style.relationAttribute_args (hf.relation r hr) ht

theorem fieldAttributes_sound {types : ScalarTypes} {f : Field} (hf : f.Regular types)
    {a : Attribute} (h : a ∈ style.fieldAttributes types f) : a.Sound := by
  have hname : a.name.toList ≠ [] ∧ ∀ c ∈ a.name.toList, Attribute.isNameChar c = true := by
    apply isNameChar_id
    rcases style.mem_fieldAttributes h with rfl | rfl | ⟨value, -, rfl⟩ | ⟨r, -, rfl⟩
    · simp [idAttribute]
    · simp [uniqueAttribute]
    · simp [defaultAttribute]
    · simp [relationAttribute]
  exact ⟨hname.1, hname.2, fun text ht => (style.fieldAttributes_args hf h ht).2⟩

end Style

end SchemaQuery
