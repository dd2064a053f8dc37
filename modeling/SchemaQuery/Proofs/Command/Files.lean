import SchemaQuery.Command.FileSystem

/-!
# What writing a file changes

A file can be written where no directory is, so every path leads to the same place before and after.
Only the place of the file holds something else.
-/

set_option autoImplicit false

namespace SchemaQuery.FileTree

variable {before after : FileTree}

section Entries

variable (tree : FileTree) {location : Location} (entry : Entry)

theorem entry_put_of_ne {other : Location} (h : other ≠ location) :
    entry? (tree.put location entry) other = tree.entry? other := by
  have hfind : (tree.put location entry).entries.find? (·.1 == other) =
      tree.entries.find? (·.1 == other) := by
    rw [put, List.find?_cons_of_neg (by simpa using Ne.symm h), List.find?_filter]
    congr 1
    funext e
    by_cases he : e.1 = other
    · simp [he, h]
    · simp [he]
  unfold entry?
  rw [hfind]

theorem entry_put_self (h : tree.entry? location ≠ some .directory) :
    entry? (tree.put location entry) location = some entry := by
  have hinside : ¬ (location.isAbove || decide (location = Location.machineRoot)) = true := by
    intro hout
    exact h (if_pos hout)
  unfold entry?
  rw [if_neg hinside, put, List.find?_cons_of_pos (by simp)]
  rfl

end Entries

theorem enter_eq_ok_iff {tree : FileTree} {location : Location} :
    tree.enter location = .ok () ↔ tree.entry? location = some .directory := by
  unfold enter
  cases tree.entry? location with
  | none => simp
  | some entry => cases entry <;> simp

theorem not_directory_of_refusal?_eq_none {tree : FileTree} {location : Location}
    (h : tree.refusal? location = none) : tree.entry? location ≠ some .directory := by
  intro hdirectory
  rw [refusal?, hdirectory] at h
  cases h

def SameDirectories (before after : FileTree) : Prop :=
  ∀ location, after.entry? location = some .directory ↔ before.entry? location = some .directory

theorem sameDirectories_put_file {tree : FileTree} {location : Location}
    (h : tree.entry? location ≠ some .directory) (contents : String) :
    SameDirectories tree (tree.put location (.file contents)) := by
  intro other
  by_cases hother : other = location
  · subst hother
    rw [tree.entry_put_self _ h]
    simp [h]
  · rw [tree.entry_put_of_ne _ hother]

namespace SameDirectories

theorem enter_iff (h : SameDirectories before after) (location : Location) :
    after.enter location = .ok () ↔ before.enter location = .ok () := by
  rw [enter_eq_ok_iff, enter_eq_ok_iff]
  exact h location

theorem down_iff (h : SameDirectories before after) {location next : Location} {name : String} :
    after.down location name = .ok next ↔ before.down location name = .ok next := by
  have henter := h.enter_iff location
  unfold down
  cases ha : after.enter location with
  | ok _ =>
    rw [henter.1 ha]
  | error e =>
    cases hb : before.enter location with
    | ok _ =>
      rw [henter.2 hb] at ha
      cases ha
    | error e' => simp [bind, Except.bind]

/-- Names lead from where a path starts to a place if and only if they led there. -/
theorem follow_iff (h : SameDirectories before after) {path : String} {names : List String}
    {location : Location} :
    after.follow path names = .ok location ↔ before.follow path names = .ok location := by
  unfold follow
  generalize (if Path.isAbsolute path then Location.machineRoot else []) = start
  induction names generalizing start with
  | nil => exact Iff.rfl
  | cons name names ih =>
    rw [List.foldlM_cons, List.foldlM_cons]
    cases hb : before.down start name with
    | ok next =>
      rw [h.down_iff.2 hb]
      exact ih next
    | error e =>
      cases ha : after.down start name with
      | ok next =>
        rw [h.down_iff.1 ha] at hb
        cases hb
      | error e' => simp [bind, Except.bind]

/-- A path leads to a place if and only if it led there. -/
theorem locate_iff (h : SameDirectories before after) {path : String} {location : Location} :
    after.locate path = .ok location ↔ before.locate path = .ok location := by
  unfold locate
  cases checkPath path with
  | error e => exact Iff.rfl
  | ok _ => exact h.follow_iff

theorem trans {between : FileTree} (h : SameDirectories before between)
    (h' : SameDirectories between after) : SameDirectories before after :=
  fun location => (h' location).trans (h location)

end SameDirectories

theorem read_eq_ok_iff {tree : FileTree} {path contents : String} :
    tree.read path = .ok contents ↔ ∃ location, tree.locate path = .ok location ∧
      tree.contents? location = some (.ok contents) ∧ Path.endsInSlash path = false := by
  unfold read contents?
  cases tree.locate path with
  | error e => simp [bind, Except.bind]
  | ok location =>
    simp only [bind, Except.bind, Except.ok.injEq, exists_eq_left']
    cases tree.entry? location with
    | none => simp
    | some entry => cases entry <;> cases Path.endsInSlash path <;> simp [Entry.contents]

theorem write_eq_ok_iff {tree : FileTree} {path contents : String} :
    tree.write path contents = .ok after ↔ Path.endsInSlash path = false ∧
      ∃ location, tree.locate path = .ok location ∧ tree.refusal? location = none ∧
        after = tree.put location (.file contents) := by
  unfold write
  cases Path.endsInSlash path with
  | true =>
    cases tree.enterHolder path <;> simp [bind, Except.bind]
  | false =>
    cases tree.locate path with
    | error e => simp [bind, Except.bind]
    | ok location =>
      simp only [bind, Except.bind, Except.ok.injEq, exists_eq_left', Bool.false_eq_true, if_false,
        true_and]
      cases tree.refusal? location <;> simp [eq_comm]

/-- What could be written can be written still when another file has been written. -/
theorem writes_of_write {tree : FileTree} {path contents : String} {other text : String}
    (h : tree.write path contents = .ok after)
    (hother : ∃ next, tree.write other text = .ok next) :
    ∃ next, after.write other text = .ok next := by
  obtain ⟨_, hnext⟩ := hother
  obtain ⟨-, location, -, hfree, rfl⟩ := write_eq_ok_iff.1 h
  obtain ⟨hslash, place, hlocate, hplace, -⟩ := write_eq_ok_iff.1 hnext
  have hentry := not_directory_of_refusal?_eq_none hfree
  refine ⟨_, write_eq_ok_iff.2 ⟨hslash, place,
    (sameDirectories_put_file hentry contents).locate_iff.2 hlocate, ?_, rfl⟩⟩
  by_cases hsame : place = location
  · subst hsame
    rw [refusal?, tree.entry_put_self _ hentry]
    rfl
  · rwa [refusal?, tree.entry_put_of_ne _ hsame]

/-- The file at the path is all that differs, and it holds the contents: every other place holds
what it held, and what can be read elsewhere is what could be read there. -/
structure Rewritten (before after : FileTree) (path contents : String) : Prop where
  holds : after.read path = .ok contents
  elsewhere : ∃ location, before.locate path = .ok location ∧
    (∀ other, other ≠ location → after.entry? other = before.entry? other) ∧
    ∀ other text, before.locate other ≠ .ok location →
      (after.read other = .ok text ↔ before.read other = .ok text)

theorem rewritten_of_write {tree : FileTree} {path contents : String}
    (h : tree.write path contents = .ok after) : tree.Rewritten after path contents := by
  obtain ⟨hslash, location, hlocate, hfree, rfl⟩ := write_eq_ok_iff.1 h
  have hentry := not_directory_of_refusal?_eq_none hfree
  have hsame := sameDirectories_put_file hentry contents
  have hput : contents? (tree.put location (.file contents)) location = some (.ok contents) := by
    rw [contents?, tree.entry_put_self _ hentry]
    rfl
  refine ⟨read_eq_ok_iff.2 ⟨location, hsame.locate_iff.2 hlocate, hput, hslash⟩, location, hlocate,
    fun other hother => tree.entry_put_of_ne _ hother, ?_⟩
  intro other text hother
  have hplace {place : Location} (hp : tree.locate other = .ok place) :
      contents? (tree.put location (.file contents)) place = tree.contents? place := by
    have hne : place ≠ location := by
      rintro rfl
      exact hother hp
    rw [contents?, tree.entry_put_of_ne _ hne, contents?]
  rw [read_eq_ok_iff, read_eq_ok_iff]
  constructor
  · rintro ⟨place, hp, he, hs⟩
    have hbefore := hsame.locate_iff.1 hp
    exact ⟨place, hbefore, hplace hbefore ▸ he, hs⟩
  · rintro ⟨place, hp, he, hs⟩
    exact ⟨place, hsame.locate_iff.2 hp, (hplace hp).symm ▸ he, hs⟩

end SchemaQuery.FileTree
