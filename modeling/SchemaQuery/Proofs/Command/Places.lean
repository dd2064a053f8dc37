import Mathlib.Data.List.Basic
import SchemaQuery.Proofs.Command.Files
import SchemaQuery.Proofs.Text.Lines

/-!
# Files in a directory

The path of a file in a directory has the names of the directory with that of the file behind them.
It leads to the place under that name in the place that the directory leads to, whatever the path of
the directory looks like.
-/

set_option autoImplicit false

namespace SchemaQuery

/-- An action in sequence comes to a value if and only if both of its parts do. -/
theorem bind_eq_ok_iff {ε α β : Type} {x : Except ε α} {f : α → Except ε β} {b : β} :
    (x >>= f) = .ok b ↔ ∃ a, x = .ok a ∧ f a = .ok b := by
  cases x with
  | error e => exact ⟨fun h => (by cases h), fun ⟨_, h, _⟩ => (by cases h)⟩
  | ok a => exact ⟨fun h => ⟨a, rfl, h⟩, fun ⟨_, h, hf⟩ => (by cases h; exact hf)⟩

namespace Path

structure Plain (file : String) : Prop where
  ne_empty : file.toList ≠ []
  noSlash : '/' ∉ file.toList
  ne_here : file ≠ "."
  ne_above : file ≠ ".."

variable {directory file : String}

/-- The path of a file in a directory, apart from a slash at the end of that of the directory. -/
theorem toList_join (directory file : String) (hne : directory ≠ "") :
    ∃ front, (join directory file).toList = front ++ '/' :: file.toList ∧
      (directory.toList = front ∨ directory.toList = front ++ ['/']) := by
  unfold join
  split
  · rename_i h
    have hslash : directory.toList.getLast? = some '/' := by
      simpa [endsInSlash] using h.resolve_left hne
    obtain ⟨front, hfront⟩ := List.getLast?_eq_some_iff.1 hslash
    exact ⟨front, by simp [hfront], Or.inr hfront⟩
  · exact ⟨directory.toList, by simp, Or.inl rfl⟩

theorem names_join (h : Plain file) : names (join directory file) = names directory ++ [file] := by
  have hfile : (Text.pieces '/' file.toList).filter (· != []) = [file.toList] := by
    rw [Text.pieces_of_notMem h.noSlash]
    simp [h.ne_empty]
  by_cases hne : directory = ""
  · subst hne
    have hjoin : join "" file = file := by simp [join]
    rw [hjoin, names, hfile]
    simp [names, Text.pieces]
  · obtain ⟨front, hjoin, hdirectory⟩ := toList_join directory file hne
    have hnames :
        names directory = ((Text.pieces '/' front).filter (· != [])).map String.ofList := by
      rcases hdirectory with h | h
      · rw [names, h]
      · rw [names, h, Text.pieces_append_separator, List.filter_append]
        simp [Text.pieces]
    rw [hnames, names, hjoin, Text.pieces_append_separator, List.filter_append, hfile]
    simp

theorem isAbsolute_join (h : Plain file) :
    isAbsolute (join directory file) = isAbsolute directory := by
  by_cases hne : directory = ""
  · subst hne
    have hjoin : join "" file = file := by simp [join]
    rw [hjoin, isAbsolute]
    cases hf : file.toList with
    | nil => exact absurd hf h.ne_empty
    | cons c s =>
      have hc : c ≠ '/' := by
        rintro rfl
        exact h.noSlash (by simp [hf])
      simp [isAbsolute, hc]
  · obtain ⟨front, hjoin, hdirectory⟩ := toList_join directory file hne
    have hfront : directory.toList ≠ [] := by simpa using hne
    rw [isAbsolute, isAbsolute, hjoin]
    rcases hdirectory with h | h
    · cases front with
      | nil => exact absurd h hfront
      | cons c front => rw [h]; rfl
    · cases front <;> rw [h] <;> rfl

end Path

namespace FileTree

open SchemaQuery.Path (Plain)

variable {tree : FileTree} {directory file : String} {home location : Location}

theorem down_plain (h : Plain file) (hdown : tree.down home file = .ok location) :
    tree.entry? home = some .directory ∧ location = home ++ [file] := by
  unfold down at hdown
  rw [if_neg h.ne_here, if_neg h.ne_above] at hdown
  obtain ⟨_, henter, hlimit⟩ := bind_eq_ok_iff.1 hdown
  refine ⟨enter_eq_ok_iff.1 henter, ?_⟩
  by_cases hlong : nameLimit < file.utf8ByteSize
  · rw [if_pos hlong] at hlimit
    cases hlimit
  · rw [if_neg hlong] at hlimit
    exact (Except.ok.inj hlimit).symm

/-- The path of a file leads into the directory, just below the place that the directory's own path
leads to. -/
theorem locate_join (h : Plain file)
    (hlocate : tree.locate (Path.join directory file) = .ok location) :
    ∃ home, tree.follow directory (Path.names directory) = .ok home ∧
      tree.entry? home = some .directory ∧ location = home ++ [file] := by
  obtain ⟨_, -, hfollow⟩ := bind_eq_ok_iff.1 hlocate
  rw [follow, Path.isAbsolute_join h, Path.names_join h, List.foldlM_append] at hfollow
  obtain ⟨home, hhome, hlast⟩ := bind_eq_ok_iff.1 hfollow
  rw [List.foldlM_cons] at hlast
  obtain ⟨next, hdown, hnext⟩ := bind_eq_ok_iff.1 hlast
  cases hnext
  exact ⟨home, hhome, down_plain h hdown⟩

end FileTree

end SchemaQuery
