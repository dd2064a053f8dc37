import Mathlib.Data.List.Induction
import Mathlib.Data.List.Nodup
import SchemaQuery.Command.Arguments
import SchemaQuery.Proofs.Text.Lines

/-!
# Flags and their values

The arguments behind the first are a row of flags, each with its value if it takes one. A row that is
complete is taken in, and what it asks for depends only on the last value of each option and on the
switches that occur. Any other row is refused at the first place where no flag stands that is known,
or where a flag stands last that takes a value.
-/

set_option autoImplicit false

namespace SchemaQuery

inductive FlagGroup where
  | value (text : String) (option : ValueOption) (value : String)
    (spelled : (text, .value option) ∈ Flag.spellings)
  | switch (text : String) (s : Switch) (spelled : (text, .switch s) ∈ Flag.spellings)

namespace FlagGroup

def arguments : FlagGroup → List String
  | value text _ v _ => [text, v]
  | switch text _ _ => [text]

def flag : FlagGroup → Flag
  | value _ option _ _ => .value option
  | switch _ s _ => .switch s

def valueOf? (option : ValueOption) : FlagGroup → Option String
  | value _ o v _ => if o = option then some v else none
  | switch _ _ _ => none

def lastValue? (groups : List FlagGroup) (option : ValueOption) : Option String :=
  (groups.filterMap (valueOf? option)).getLast?

theorem lastValue?_concat (groups : List FlagGroup) (g : FlagGroup) (option : ValueOption) :
    lastValue? (groups ++ [g]) option = (g.valueOf? option).or (lastValue? groups option) := by
  unfold lastValue?
  rw [List.filterMap_append, List.getLast?_append, List.filterMap_cons]
  cases g.valueOf? option <;> rfl

end FlagGroup

theorem Flag.ofText?_eq_some_iff {text : String} {flag : Flag} :
    ofText? text = some flag ↔ (text, flag) ∈ spellings := by
  constructor
  · intro h
    obtain ⟨entry, hfind, rfl⟩ := Option.map_eq_some_iff.1 h
    have htext := List.find?_some hfind
    rw [beq_iff_eq] at htext
    rw [← htext]
    exact List.mem_of_find?_eq_some hfind
  · have hall : ∀ entry ∈ spellings, ofText? entry.1 = some entry.2 := by decide
    exact hall (text, flag)

theorem Flag.ofText?_eq_none_iff {text : String} :
    ofText? text = none ↔ ∀ flag, (text, flag) ∉ spellings := by
  rw [Option.eq_none_iff_forall_ne_some]
  exact forall_congr' fun flag => not_congr ofText?_eq_some_iff

namespace Arguments

def text? (a : Arguments) : ValueOption → Option String
  | .model => a.model
  | .operation => a.operation
  | .fields => none
  | .request => a.request
  | .client => a.client
  | .output => a.output
  | .crud => a.crudDirectory

def isOn (a : Arguments) : Switch → Bool
  | .types => a.types
  | .describe => a.describe
  | .graph => a.graph

def Lists (text : String) (names : List String) : Prop :=
  ∃ parts : List (List Char), parts ≠ [] ∧ (∀ part ∈ parts, ',' ∉ part) ∧
    text.toList = Text.joinPieces ',' parts ∧
    names = ((parts.map Text.trim).filter (· != [])).map String.ofList

structure Holds (input : String) (groups : List FlagGroup) (a : Arguments) : Prop where
  input : a.input = input
  texts : ∀ option, option ≠ .fields → a.text? option = FlagGroup.lastValue? groups option
  fields : Option.Rel Lists (FlagGroup.lastValue? groups .fields) a.fields
  switches : ∀ s, a.isOn s = true ↔ ∃ g ∈ groups, g.flag = .switch s

/-- The entries begin with one at which a row of flags comes to a stop. -/
inductive Offends : List String → ArgumentsError → Prop
  | unknown {text : String} (rest : List String) : (∀ flag, (text, flag) ∉ Flag.spellings) →
      Offends (text :: rest) (.unknown text)
  | missingValue {text : String} {option : ValueOption} :
      (text, .value option) ∈ Flag.spellings → Offends [text] (.missingValue text)

def take (a : Arguments) : FlagGroup → Arguments
  | .value _ option v _ => a.setValue option v
  | .switch _ s _ => a.setSwitch s

section Reading

variable (a : Arguments)

theorem readFlags_switch {text : String} {s : Switch}
    (h : Flag.ofText? text = some (.switch s)) (rest : List String) :
    a.readFlags (text :: rest) = (a.setSwitch s).readFlags rest := by
  cases rest <;> simp only [readFlags, h]

theorem readFlags_unknown {text : String} (h : Flag.ofText? text = none)
    (rest : List String) : a.readFlags (text :: rest) = .error (.unknown text) := by
  cases rest <;> simp only [readFlags, h]

theorem readFlags_group (g : FlagGroup) (rest : List String) :
    a.readFlags (g.arguments ++ rest) = (a.take g).readFlags rest := by
  cases g with
  | value text option v spelled =>
    show a.readFlags (text :: v :: rest) = _
    rw [readFlags, Flag.ofText?_eq_some_iff.2 spelled]
    rfl
  | switch text s spelled => exact a.readFlags_switch (Flag.ofText?_eq_some_iff.2 spelled) rest

/-- Groups are taken in whatever comes behind them. -/
theorem readFlags_groups (groups : List FlagGroup) (rest : List String) :
    a.readFlags (groups.flatMap FlagGroup.arguments ++ rest) =
      (groups.foldl take a).readFlags rest := by
  induction groups generalizing a with
  | nil => rfl
  | cons g groups ih =>
    rw [List.flatMap_cons, List.append_assoc, readFlags_group, ih]
    rfl

theorem readFlags_offends {last : List String} {e : ArgumentsError} (h : Offends last e) :
    a.readFlags last = .error e := by
  cases h with
  | unknown rest hunknown => exact a.readFlags_unknown (Flag.ofText?_eq_none_iff.2 hunknown) rest
  | missingValue hspelled => rw [readFlags, Flag.ofText?_eq_some_iff.2 hspelled]

end Reading

def Grouped (flags : List String) : Prop := ∃ (groups : List FlagGroup) (last : List String),
  flags = groups.flatMap FlagGroup.arguments ++ last ∧ (last = [] ∨ ∃ e, Offends last e)

namespace Grouped

theorem nil : Grouped [] := ⟨[], [], rfl, Or.inl rfl⟩

theorem offends {last : List String} {e : ArgumentsError} (h : Offends last e) : Grouped last :=
  ⟨[], last, rfl, Or.inr ⟨e, h⟩⟩

theorem cons (g : FlagGroup) {flags : List String} (h : Grouped flags) :
    Grouped (g.arguments ++ flags) := by
  obtain ⟨groups, last, rfl, hlast⟩ := h
  refine ⟨g :: groups, last, ?_, hlast⟩
  rw [List.flatMap_cons, List.append_assoc]

end Grouped

/-- A row is grouped in the way in which it is taken in. -/
theorem grouped (a : Arguments) (flags : List String) : Grouped flags := by
  fun_induction readFlags a flags with
  | case1 => exact .nil
  | case2 a text s h => exact .cons (.switch text s (Flag.ofText?_eq_some_iff.1 h)) .nil
  | case3 a text option h => exact .offends (.missingValue (Flag.ofText?_eq_some_iff.1 h))
  | case4 a text h => exact .offends (.unknown [] (Flag.ofText?_eq_none_iff.1 h))
  | case5 a text v rest s h ih => exact .cons (.switch text s (Flag.ofText?_eq_some_iff.1 h)) ih
  | case6 a text v rest option h ih =>
    exact .cons (.value text option v (Flag.ofText?_eq_some_iff.1 h)) ih
  | case7 a text v rest h => exact .offends (.unknown (v :: rest) (Flag.ofText?_eq_none_iff.1 h))

section Views

variable (a : Arguments)

theorem text?_setValue (o : ValueOption) (v : String) {option : ValueOption}
    (h : option ≠ .fields) :
    (a.setValue o v).text? option = if o = option then some v else a.text? option := by
  cases o <;> cases option <;> first | rfl | exact absurd rfl h

theorem text?_setSwitch (s : Switch) (option : ValueOption) :
    (a.setSwitch s).text? option = a.text? option := by
  cases s <;> cases option <;> rfl

theorem isOn_setValue (o : ValueOption) (v : String) (s : Switch) :
    (a.setValue o v).isOn s = a.isOn s := by
  cases o <;> cases s <;> rfl

theorem isOn_setSwitch (t s : Switch) : (a.setSwitch t).isOn s = (decide (t = s) || a.isOn s) := by
  cases t <;> cases s <;> rfl

end Views

section Holding

variable {a b : Arguments} {input : String} {groups : List FlagGroup}

theorem lists_iff {text : String} {names : List String} :
    Lists text names ↔ names = splitFields text := by
  constructor
  · rintro ⟨parts, hne, hcomma, htext, rfl⟩
    rw [splitFields, htext, Text.pieces_joinPieces hne hcomma]
  · rintro rfl
    exact ⟨Text.pieces ',' text.toList, Text.pieces_ne_nil _ _,
      fun part hpart => Text.notMem_of_mem_pieces hpart, (Text.joinPieces_pieces _ _).symm, rfl⟩

theorem rel_lists_iff {text : Option String} {fields : Option (List String)} :
    Option.Rel Lists text fields ↔ fields = text.map splitFields := by
  cases text <;> cases fields <;> simp [lists_iff]

theorem holds_nil (input : String) : Holds input [] { input } where
  input := rfl
  texts option _ := by cases option <;> rfl
  fields := .none
  switches s := by cases s <;> simp [isOn]

/-- A group sets what it names and leaves everything else as it is. -/
theorem Holds.take (h : Holds input groups a) (g : FlagGroup) :
    Holds input (groups ++ [g]) (a.take g) := by
  cases g with
  | value text o v spelled =>
    refine ⟨?_, fun option hoption => ?_, ?_, fun s => ?_⟩
    · have hinput : (a.setValue o v).input = a.input := by cases o <;> rfl
      exact hinput.trans h.input
    · rw [FlagGroup.lastValue?_concat, ← h.texts option hoption]
      show (a.setValue o v).text? option = _
      rw [a.text?_setValue o v hoption, FlagGroup.valueOf?]
      split <;> rfl
    · rw [FlagGroup.lastValue?_concat, FlagGroup.valueOf?]
      by_cases ho : o = .fields
      · subst ho
        exact .some (lists_iff.2 rfl)
      · have hfields : (a.setValue o v).fields = a.fields := by
          cases o <;> first | rfl | exact absurd rfl ho
        rw [if_neg ho]
        show Option.Rel Lists _ (a.setValue o v).fields
        rw [hfields]
        exact h.fields
    · show (a.setValue o v).isOn s = true ↔ _
      rw [a.isOn_setValue, h.switches]
      simp [FlagGroup.flag]
  | switch text t spelled =>
    refine ⟨?_, fun option hoption => ?_, ?_, fun s => ?_⟩
    · have hinput : (a.setSwitch t).input = a.input := by cases t <;> rfl
      exact hinput.trans h.input
    · rw [FlagGroup.lastValue?_concat, ← h.texts option hoption]
      exact a.text?_setSwitch t option
    · rw [FlagGroup.lastValue?_concat]
      have hfields : (a.setSwitch t).fields = a.fields := by cases t <;> rfl
      show Option.Rel Lists _ (a.setSwitch t).fields
      rw [hfields]
      exact h.fields
    · show (a.setSwitch t).isOn s = true ↔ _
      rw [a.isOn_setSwitch, Bool.or_eq_true, h.switches]
      simp [FlagGroup.flag, or_comm]

theorem holds_foldl (input : String) (groups : List FlagGroup) :
    Holds input groups (groups.foldl Arguments.take { input }) := by
  induction groups using List.reverseRecOn with
  | nil => exact holds_nil input
  | append_singleton groups g ih =>
    rw [List.foldl_append]
    exact ih.take g

/-- The groups leave nothing open. -/
theorem Holds.eq (ha : Holds input groups a) (hb : Holds input groups b) : a = b := by
  have htexts (option : ValueOption) (h : option ≠ .fields) : a.text? option = b.text? option :=
    (ha.texts option h).trans (hb.texts option h).symm
  have hon (s : Switch) : a.isOn s = b.isOn s :=
    Bool.eq_iff_iff.2 ((ha.switches s).trans (hb.switches s).symm)
  have hfields : a.fields = b.fields :=
    (rel_lists_iff.1 ha.fields).trans (rel_lists_iff.1 hb.fields).symm
  cases a
  cases b
  rw [Arguments.mk.injEq]
  exact ⟨ha.input.trans hb.input.symm, htexts .model nofun, htexts .operation nofun, hfields,
    htexts .request nofun, htexts .client nofun, htexts .output nofun, htexts .crud nofun,
    hon .types, hon .describe, hon .graph⟩

end Holding

section Order

/-- Groups of different options are taken in in any order. -/
theorem take_comm (a : Arguments) {g g' : FlagGroup} (h : g.flag ≠ g'.flag) :
    (a.take g).take g' = (a.take g').take g := by
  cases g with
  | value _ o v =>
    cases g' with
    | value _ o' v' => cases o <;> cases o' <;> first | rfl | exact absurd rfl h
    | switch _ s' => cases o <;> cases s' <;> rfl
  | switch _ s =>
    cases g' with
    | value _ o' v' => cases s <;> cases o' <;> rfl
    | switch _ s' => cases s <;> cases s' <;> rfl

theorem foldl_take_perm (a : Arguments) {groups groups' : List FlagGroup}
    (h : groups.Perm groups') (hdistinct : (groups.map FlagGroup.flag).Nodup) :
    groups.foldl take a = groups'.foldl take a := by
  apply h.foldl_eq'
  intro g hg g' hg' a
  by_cases hflag : g.flag = g'.flag
  · rw [List.inj_on_of_nodup_map hdistinct hg hg' hflag]
  · exact a.take_comm hflag

end Order

/-- A row of flags is taken in if and only if it is made of groups, each a known flag with its value
if it takes one. What is asked for then is the last value of each option, the switches that occur and
nothing else. A row that is refused is refused for the first entry behind such groups that begins
none. Groups of different options may come in any order, wherever they stand. -/
theorem read_groups (input : String) :
    (∀ flags a, read input flags = .ok a ↔
      ∃ groups, flags = groups.flatMap FlagGroup.arguments ∧ a.Holds input groups) ∧
    (∀ flags e, read input flags = .error e ↔ ∃ (groups : List FlagGroup) (last : List String),
      flags = groups.flatMap FlagGroup.arguments ++ last ∧ Offends last e) ∧
    (∀ text, (ArgumentsError.unknown text).message = "Unknown option: " ++ text ∧
      (ArgumentsError.missingValue text).message = "Missing value for " ++ text) ∧
    ∀ (before groups groups' : List FlagGroup) (behind : List String),
      groups.Perm groups' → (groups.map FlagGroup.flag).Nodup →
      read input (before.flatMap FlagGroup.arguments ++
          (groups.flatMap FlagGroup.arguments ++ behind)) =
        read input (before.flatMap FlagGroup.arguments ++
          (groups'.flatMap FlagGroup.arguments ++ behind)) := by
  have hread (groups : List FlagGroup) (last : List String) :
      read input (groups.flatMap FlagGroup.arguments ++ last) =
        (groups.foldl Arguments.take { input }).readFlags last := readFlags_groups _ groups last
  have hend (groups : List FlagGroup) : read input (groups.flatMap FlagGroup.arguments) =
      .ok (groups.foldl Arguments.take { input }) := by
    have hnil := hread groups []
    rwa [List.append_nil] at hnil
  have hstop {groups : List FlagGroup} {last : List String} {e : ArgumentsError}
      (h : Offends last e) :
      read input (groups.flatMap FlagGroup.arguments ++ last) = .error e :=
    (hread groups last).trans (readFlags_offends _ h)
  refine ⟨fun flags a => ⟨fun h => ?_, ?_⟩, fun flags e => ⟨fun h => ?_, ?_⟩,
    fun text => ⟨rfl, rfl⟩, ?_⟩
  · obtain ⟨groups, last, rfl, rfl | ⟨e, he⟩⟩ := grouped { input } flags
    · rw [List.append_nil, hend] at h
      cases h
      exact ⟨groups, List.append_nil _, holds_foldl input groups⟩
    · rw [hstop he] at h
      cases h
  · rintro ⟨groups, rfl, hholds⟩
    rw [hend, (holds_foldl input groups).eq hholds]
  · obtain ⟨groups, last, rfl, rfl | ⟨e', he⟩⟩ := grouped { input } flags
    · rw [List.append_nil, hend] at h
      cases h
    · rw [hstop he] at h
      cases h
      exact ⟨groups, last, rfl, he⟩
  · rintro ⟨groups, last, rfl, he⟩
    exact hstop he
  · intro before groups groups' behind hperm hdistinct
    rw [hread, hread, readFlags_groups, readFlags_groups, foldl_take_perm _ hperm hdistinct]

def mixedGroups : List FlagGroup := [.value "-f" .fields " id,, name " (by decide),
  .value "--model" .model "--graph" (by decide), .switch "-t" .types (by decide)]

theorem read_groups_mixed : mixedGroups.Perm mixedGroups.reverse ∧
    (mixedGroups.map FlagGroup.flag).Nodup ∧
    read "s" ["-m", "-p", "-f", " id,, name ", "--model", "--graph", "-t", "-o"] =
      read "s" ["-m", "-p", "-t", "--model", "--graph", "-f", " id,, name ", "-o"] := by
  have hperm : mixedGroups.Perm mixedGroups.reverse := (List.reverse_perm _).symm
  have hdistinct : (mixedGroups.map FlagGroup.flag).Nodup := by decide
  obtain ⟨-, -, -, horder⟩ := read_groups "s"
  have hsame := horder [.value "-m" .model "-p" (by decide)] _ _ ["-o"] hperm hdistinct
  exact ⟨hperm, hdistinct, hsame⟩

end Arguments

end SchemaQuery
