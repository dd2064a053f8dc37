import Mathlib.Data.List.Forall2
import SchemaQuery.Schema.Reader

/-!
# What a reading gives

A schema is read when all its blocks are. The document then has the models and the enumerations of
the blocks in order, and the provider that is assigned first.
-/

set_option autoImplicit false

namespace SchemaQuery

theorem mapM_eq_ok_append_iff {α β ε : Type} {f : α → Except ε β} {xs ys : List α} {zs : List β} :
    (xs ++ ys).mapM f = .ok zs ↔
      ∃ as bs, xs.mapM f = .ok as ∧ ys.mapM f = .ok bs ∧ zs = as ++ bs := by
  rw [List.mapM_append]
  cases xs.mapM f with
  | error e => simp [bind, Except.bind]
  | ok as =>
    cases ys.mapM f with
    | error e => simp [bind, Except.bind]
    | ok bs => simp [bind, Except.bind, pure, Except.pure, eq_comm]

theorem mapM_flatMap_eq_ok {α β γ ε : Type} {f : β → Except ε γ} {piece : α → List β}
    {pick : α → Option γ} {xs : List α}
    (h : ∀ x ∈ xs, (piece x).mapM f = .ok (pick x).toList) :
    (xs.flatMap piece).mapM f = .ok (xs.filterMap pick) := by
  induction xs with
  | nil => rfl
  | cons x xs ih =>
    have hrest := ih fun y hy => h y (List.mem_cons_of_mem _ hy)
    rw [List.flatMap_cons]
    refine mapM_eq_ok_append_iff.2 ⟨_, _, h x List.mem_cons_self, hrest, ?_⟩
    rw [List.filterMap_cons]
    cases pick x <;> rfl

/-- The first element that fails gives the error. -/
theorem mapM_eq_error_iff {α β ε : Type} {f : α → Except ε β} {xs : List α} {e : ε} :
    xs.mapM f = .error e ↔ ∃ before x after, xs = before ++ x :: after ∧
      (∀ y ∈ before, ∃ z, f y = .ok z) ∧ f x = .error e := by
  induction xs with
  | nil => simp [pure, Except.pure]
  | cons x xs ih =>
    rw [List.mapM_cons]
    cases hx : f x with
    | error e' =>
      simp only [bind, Except.bind, Except.error.injEq]
      constructor
      · rintro rfl
        exact ⟨[], x, xs, rfl, by simp, hx⟩
      · rintro ⟨before, y, after, heq, hbefore, hy⟩
        cases before with
        | nil =>
          cases heq
          exact Except.error.inj (hx.symm.trans hy)
        | cons b before =>
          cases heq
          obtain ⟨z, hz⟩ := hbefore x List.mem_cons_self
          rw [hx] at hz
          cases hz
    | ok z =>
      have hrest : (Except.ok z >>= fun z => xs.mapM f >>= fun zs => pure (z :: zs)) = .error e ↔
          xs.mapM f = .error e := by
        cases xs.mapM f <;> simp [bind, Except.bind, pure, Except.pure]
      rw [hrest, ih]
      constructor
      · rintro ⟨before, y, after, rfl, hbefore, hy⟩
        refine ⟨x :: before, y, after, rfl, fun b hb => ?_, hy⟩
        rcases List.mem_cons.1 hb with rfl | hb
        · exact ⟨z, hx⟩
        · exact hbefore b hb
      · rintro ⟨before, y, after, heq, hbefore, hy⟩
        cases before with
        | nil =>
          cases heq
          rw [hx] at hy
          cases hy
        | cons b before =>
          cases heq
          exact ⟨before, y, after, rfl, fun b hb => hbefore b (List.mem_cons_of_mem _ hb), hy⟩

theorem mapM_eq_ok_iff {α β ε : Type} {f : α → Except ε β} {xs : List α} {zs : List β} :
    xs.mapM f = .ok zs ↔ List.Forall₂ (fun x z => f x = .ok z) xs zs := by
  induction xs generalizing zs with
  | nil => simp [pure, Except.pure, eq_comm]
  | cons x xs ih =>
    rw [List.mapM_cons, List.forall₂_cons_left_iff]
    cases hx : f x with
    | error e => simp [bind, Except.bind]
    | ok z =>
      cases hxs : xs.mapM f with
      | error e =>
        have hnone : ∀ ws, ¬ List.Forall₂ (fun x z => f x = .ok z) xs ws := by
          intro ws hws
          rw [← ih, hxs] at hws
          cases hws
        simp [bind, Except.bind, hnone]
      | ok ws =>
        have hall : ∀ us, List.Forall₂ (fun x z => f x = .ok z) xs us ↔ ws = us := by
          intro us
          rw [← ih, hxs, Except.ok.injEq]
        simp [bind, Except.bind, pure, Except.pure, hall, eq_comm]

/-- If all elements together are read, so is each. -/
theorem forall_ok_of_mapM {α β ε : Type} {f : α → Except ε β} {xs : List α} {ys : List β}
    (h : xs.mapM f = .ok ys) : ∀ x ∈ xs, ∃ y, f x = .ok y := by
  have hall := mapM_eq_ok_iff.1 h
  induction hall with
  | nil => exact fun x hx => absurd hx List.not_mem_nil
  | @cons x y xs ys hxy hrest ih =>
    intro z hz
    rcases List.mem_cons.1 hz with rfl | hz
    · exact ⟨y, hxy⟩
    · exact ih (mapM_eq_ok_iff.2 hrest) z hz

def providerKeyword : List Char := "provider".toList

namespace Document

theorem read_result (types : ScalarTypes) (s : List Char) :
    (read types s).result = (do
      let models ← (BlockKind.model.blocks s).mapM fun block => (Model.read types block).result
      let enums ← (BlockKind.enumeration.blocks s).mapM Enumeration.read
      return { models, enums, provider := (provider? s).getD defaultProvider }) := by
  simp only [read, Reading.result_bind, Reading.result_mapM, Reading.result_ofExcept,
    Reading.result_ofLogged, Reading.result_pure]
  rfl

theorem read_eq_ok_iff {types : ScalarTypes} {s : List Char} {d : Document} :
    (read types s).result = .ok d ↔
      (BlockKind.model.blocks s).mapM (fun block => (Model.read types block).result) = .ok d.models ∧
      (BlockKind.enumeration.blocks s).mapM Enumeration.read = .ok d.enums ∧
      d.provider = (provider? s).getD defaultProvider := by
  rw [read_result]
  cases (BlockKind.model.blocks s).mapM (fun block => (Model.read types block).result) with
  | error e => simp [bind, Except.bind]
  | ok models =>
    cases (BlockKind.enumeration.blocks s).mapM Enumeration.read with
    | error e => simp [bind, Except.bind]
    | ok enums =>
      obtain ⟨ms, es, p⟩ := d
      simp [bind, Except.bind, pure, Except.pure, eq_comm]

theorem read_eq_error_iff {types : ScalarTypes} {s : List Char} {e : SchemaError} :
    (read types s).result = .error e ↔
      (BlockKind.model.blocks s).mapM (fun block => (Model.read types block).result) = .error e ∨
      (∃ models, (BlockKind.model.blocks s).mapM
          (fun block => (Model.read types block).result) = .ok models) ∧
        (BlockKind.enumeration.blocks s).mapM Enumeration.read = .error e := by
  rw [read_result]
  cases (BlockKind.model.blocks s).mapM (fun block => (Model.read types block).result) with
  | error e => simp [bind, Except.bind]
  | ok models =>
    cases (BlockKind.enumeration.blocks s).mapM Enumeration.read with
    | error e => simp [bind, Except.bind]
    | ok enums => simp [bind, Except.bind, pure, Except.pure]

end Document

def Model.build (types : ScalarTypes) (opened : String × List (List Char)) : Model :=
  (opened.2.foldlM (Model.addLine types) { name := opened.1 }).value

def Enumeration.build (opened : String × List (List Char)) : Enumeration :=
  { name := opened.1, values := opened.2.map String.ofList }

theorem Model.read_result (types : ScalarTypes) (block : List Char) :
    (Model.read types block).result = (BlockKind.model.open block).map (Model.build types) := by
  rw [Model.read, Reading.result_bind, Reading.result_ofExcept]
  cases BlockKind.model.open block <;> rfl

theorem Enumeration.read_eq (block : List Char) :
    Enumeration.read block = (BlockKind.enumeration.open block).map Enumeration.build := by
  rw [Enumeration.read]
  cases BlockKind.enumeration.open block <;> rfl

theorem Enumeration.build_name (opened : String × List (List Char)) :
    (Enumeration.build opened).name = opened.1 := rfl

theorem value_foldlM {α β : Type} (step : β → α → Logged β) (xs : List α) (b : β) :
    (xs.foldlM step b).value = xs.foldl (fun b x => (step b x).value) b := by
  induction xs generalizing b with
  | nil => rfl
  | cons x xs ih => rw [List.foldlM_cons, Logged.value_bind, ih, List.foldl_cons]

theorem Model.addLine_name (types : ScalarTypes) (m : Model) (line : List Char) :
    (m.addLine types line).value.name = m.name := by
  unfold addLine
  split
  · rfl
  · rw [Logged.value_bind]
    cases (Field.read types line).value <;> rfl

/-- No line changes the name of a model. -/
theorem Model.build_name (types : ScalarTypes) (opened : String × List (List Char)) :
    (Model.build types opened).name = opened.1 := by
  obtain ⟨name, lines⟩ := opened
  have hkept : ∀ m : Model,
      (lines.foldl (fun m line => (m.addLine types line).value) m).name = m.name := by
    induction lines with
    | nil => exact fun m => rfl
    | cons line lines ih => exact fun m => (ih _).trans (m.addLine_name types line)
  rw [Model.build, value_foldlM]
  exact hkept _

end SchemaQuery
