import SchemaQuery.Proofs.Attribute.Walk

/-!
# What is on record

A reader only adds to the record, and what it adds is what its parts do: a round with another one
behind it, a step back, the token that a group is entered on, and how many groups are open when one
is closed. So the record of a run shows these moves, all of them and no others.
-/

set_option autoImplicit false

namespace SchemaQuery.Walk

variable {α β : Type}

def Keeps (x : Walking α) : Prop := ∀ w a w', x w = some (a, w') → w.moves <+: w'.moves

theorem bind_eq_some_iff {x : Walking α} {f : α → Walking β} {w : Walk} {r : β × Walk} :
    (x >>= f) w = some r ↔ ∃ a w', x w = some (a, w') ∧ f a w' = some r := by
  show (x w).bind (fun r => f r.1 r.2) = some r ↔ _
  rw [Option.bind_eq_some_iff, Prod.exists]

section Keeping

theorem keeps_pure (a : α) : Keeps (pure a) := by
  rintro w _ _ ⟨⟩
  exact List.prefix_rfl

theorem Keeps.bind {x : Walking α} {f : α → Walking β} (hx : Keeps x) (hf : ∀ a, Keeps (f a)) :
    Keeps (x >>= f) := by
  intro w b w' hrun
  obtain ⟨a, w₁, hfirst, hlater⟩ := bind_eq_some_iff.1 hrun
  exact (hx w a w₁ hfirst).trans (hf a w₁ b w' hlater)

theorem keeps_get : Keeps get := by
  rintro w _ _ ⟨⟩
  exact List.prefix_rfl

theorem keeps_note (move : Move) : Keeps (note move) := by
  rintro w _ _ ⟨⟩
  exact List.prefix_append _ _

variable {name : Loop} {turn : α → Walking (Turn α β)} {a : α} {w w' : Walk}

/-- If there is a result after a round, it is that of the rounds behind it, with this one on
record. -/
theorem rounds_cases {limit : Nat} {b : β} (h : rounds name turn limit a w = some (b, w')) :
    ∃ before turned w₁, limit = before + 1 ∧ turn a w = some (turned, w₁) ∧
      ((turned = .leave b ∧ w₁ = w') ∨ ∃ a', turned = .again a' ∧
        rounds name turn before a'
          { w₁ with moves := w₁.moves ++ [.round name w.pos w₁.pos] } = some (b, w')) := by
  cases limit with
  | zero => cases h
  | succ before =>
    cases hturn : turn a w with
    | none =>
      have hnone : rounds name turn (before + 1) a w = none := by
        show (turn a w).bind _ = _
        rw [hturn]
        rfl
      rw [hnone] at h
      cases h
    | some r =>
      obtain ⟨turned, w₁⟩ := r
      refine ⟨before, turned, w₁, rfl, rfl, ?_⟩
      cases turned with
      | leave b' =>
        rw [rounds_leave hturn] at h
        cases h
        exact Or.inl ⟨rfl, rfl⟩
      | again a' =>
        rw [rounds_again hturn] at h
        exact Or.inr ⟨a', rfl, h⟩

theorem keeps_rounds (hturn : ∀ a, Keeps (turn a)) (limit : Nat) (a : α) :
    Keeps (rounds name turn limit a) := by
  intro w b w' h
  induction limit generalizing a w with
  | zero => cases h
  | succ limit ih =>
    obtain ⟨before, turned, w₁, hlimit, hfirst, hend⟩ := rounds_cases h
    cases hlimit
    have hround := hturn a w turned w₁ hfirst
    rcases hend with ⟨-, rfl⟩ | ⟨a', -, hrest⟩
    · exact hround
    · exact hround.trans ((List.prefix_append _ _).trans (ih a' _ hrest))

end Keeping

/-- Run from there, the action or a part of it makes the move. What follows a part has to keep the
record, as all readers do. -/
inductive Makes (tokens : List Token) : {α : Type} → Walking α → Walk → Move → Prop
  | round {α β : Type} {name : Loop} {turn : α → Walking (Turn α β)} {a a' : α} {w w' : Walk}
      (limit : Nat) : (∀ a, Keeps (turn a)) → turn a w = some (.again a', w') →
      Makes tokens (rounds name turn (limit + 1) a) w (.round name w.pos w'.pos)
  | back (w : Walk) : Makes tokens stepBack w (.back w.pos)
  | enter (w : Walk) : Makes tokens (group tokens) w (.enter tokens[w.pos]?)
  | close (w : Walk) (depth : Nat) : Makes tokens (Walk.close depth) w (.close depth)
  | first {α β : Type} {x : Walking α} {f : α → Walking β} {w : Walk} {move : Move} :
      (∀ a, Keeps (f a)) → Makes tokens x w move → Makes tokens (x >>= f) w move
  | later {α β : Type} {x : Walking α} {f : α → Walking β} {a : α} {w w' : Walk} {move : Move} :
      x w = some (a, w') → Makes tokens (f a) w' move → Makes tokens (x >>= f) w move

namespace Makes

variable {tokens : List Token} {w w' : Walk} {move : Move} {name : Loop}
  {turn : α → Walking (Turn α β)} {a a' : α}

/-- What a turn does is a part of the loop. -/
theorem of_turn (limit : Nat) (hturn : ∀ a, Keeps (turn a)) (h : Makes tokens (turn a) w move) :
    Makes tokens (rounds name turn (limit + 1) a) w move := by
  refine .later (x := get) rfl (.first (fun turned => ?_) h)
  cases turned with
  | leave b => exact keeps_pure b
  | again a' =>
    exact keeps_get.bind fun _ => (keeps_note _).bind fun _ => keeps_rounds hturn limit a'

/-- So is what the rounds behind it do. -/
theorem of_again (limit : Nat) (hrun : turn a w = some (.again a', w'))
    (h : Makes tokens (rounds name turn limit a')
      { w' with moves := w'.moves ++ [.round name w.pos w'.pos] } move) :
    Makes tokens (rounds name turn (limit + 1) a) w move :=
  .later (x := get) rfl (.later hrun (.later (x := get) rfl (.later (x := note _) rfl h)))

end Makes

/-- The record grows by the moves that the action makes, and by nothing else. -/
structure Honest (tokens : List Token) (x : Walking α) : Prop where
  keeps : Keeps x
  made : ∀ {w : Walk} {a : α} {w' : Walk} {move : Move}, x w = some (a, w') → move ∈ w'.moves →
    move ∈ w.moves ∨ Makes tokens x w move

section Honesty

variable {tokens : List Token}

/-- An action that leaves the record as it is. -/
theorem honest_of_moves_eq {x : Walking α}
    (h : ∀ w a w', x w = some (a, w') → w'.moves = w.moves) : Honest tokens x where
  keeps w a w' hrun := h w a w' hrun ▸ List.prefix_rfl
  made hrun hmove := Or.inl (h _ _ _ hrun ▸ hmove)

/-- An action that puts one move on record, which is the move it makes. -/
theorem honest_of_moves_concat {x : Walking α}
    (h : ∀ w a w', x w = some (a, w') →
      ∃ move, w'.moves = w.moves ++ [move] ∧ Makes tokens x w move) : Honest tokens x where
  keeps := by
    intro w a w' hrun
    obtain ⟨move, hmoves, -⟩ := h w a w' hrun
    rw [hmoves]
    exact List.prefix_append _ _
  made := by
    intro w a w' move hrun hmove
    obtain ⟨last, hmoves, hmakes⟩ := h w a w' hrun
    rw [hmoves, List.mem_append, List.mem_singleton] at hmove
    rcases hmove with hbefore | rfl
    · exact Or.inl hbefore
    · exact Or.inr hmakes

theorem honest_pure (a : α) : Honest tokens (pure a) :=
  honest_of_moves_eq (by rintro _ _ _ ⟨⟩; rfl)

theorem honest_skip (count : Nat) : Honest tokens (skip count) :=
  honest_of_moves_eq (by rintro _ _ _ ⟨⟩; rfl)

theorem honest_peek (offset : Nat) : Honest tokens (peek tokens offset) :=
  honest_of_moves_eq (by rintro _ _ _ ⟨⟩; rfl)

theorem Honest.bind {x : Walking α} {f : α → Walking β} (hx : Honest tokens x)
    (hf : ∀ a, Honest tokens (f a)) : Honest tokens (x >>= f) where
  keeps := hx.keeps.bind fun a => (hf a).keeps
  made hrun hmove := by
    obtain ⟨a, w₁, hfirst, hlater⟩ := bind_eq_some_iff.1 hrun
    rcases (hf a).made hlater hmove with hbefore | hmakes
    · exact (hx.made hfirst hbefore).imp_right (.first fun a => (hf a).keeps)
    · exact Or.inr (.later hfirst hmakes)

theorem honest_advance : Honest tokens (advance tokens) :=
  (honest_peek 0).bind fun _ => (honest_skip 1).bind fun _ => honest_pure _

theorem honest_stepBack : Honest tokens stepBack :=
  honest_of_moves_concat (by rintro w _ _ ⟨⟩; exact ⟨_, rfl, .back w⟩)

theorem honest_close (depth : Nat) : Honest tokens (close depth) :=
  honest_of_moves_concat (by rintro w _ _ ⟨⟩; exact ⟨_, rfl, .close w depth⟩)

theorem honest_rounds {name : Loop} {turn : α → Walking (Turn α β)}
    (hturn : ∀ a, Honest tokens (turn a)) (limit : Nat) (a : α) :
    Honest tokens (rounds name turn limit a) where
  keeps := keeps_rounds (fun a => (hturn a).keeps) limit a
  made := by
    intro w b w' move hrun hmove
    induction limit generalizing a w with
    | zero => cases hrun
    | succ limit ih =>
      obtain ⟨before, turned, w₁, hlimit, hfirst, hend⟩ := rounds_cases hrun
      cases hlimit
      have hkeeps := fun a => (hturn a).keeps
      have honce (h : move ∈ w₁.moves) :
          move ∈ w.moves ∨ Makes tokens (rounds name turn (limit + 1) a) w move :=
        ((hturn a).made hfirst h).imp_right (.of_turn limit hkeeps)
      rcases hend with ⟨-, rfl⟩ | ⟨a', rfl, hrest⟩
      · exact honce hmove
      · rcases ih a' hrest with hbefore | hmakes
        · rcases List.mem_append.1 hbefore with hbefore | hround
          · exact honce hbefore
          · rw [List.mem_singleton.1 hround]
            exact Or.inr (.round limit hkeeps hfirst)
        · exact Or.inr (.of_again limit hfirst hmakes)

theorem honest_loop {name : Loop} {turn : α → Walking (Turn α β)}
    (hturn : ∀ a, Honest tokens (turn a)) (a : α) : Honest tokens (loop tokens name turn a) :=
  honest_rounds hturn _ a

end Honesty

section Readers

variable {tokens : List Token}

theorem honest_groupTurn (depth : Nat) : Honest tokens (groupTurn tokens depth) := by
  refine honest_advance.bind fun token => ?_
  split
  · exact honest_stepBack.bind fun _ => honest_pure _
  · split
    · exact honest_pure _
    · split
      · refine (honest_close depth).bind fun _ => ?_
        split
        · exact honest_pure _
        · exact honest_pure _
      · exact honest_pure _

theorem honest_group : Honest tokens (group tokens) where
  keeps := (honest_peek 0).keeps.bind fun _ => (keeps_note _).bind fun _ =>
    (honest_loop honest_groupTurn 0).keeps
  made := by
    intro w u w' move hrun hmove
    obtain ⟨_, _, ⟨⟩, hrun⟩ := bind_eq_some_iff.1 hrun
    obtain ⟨_, _, ⟨⟩, hloop⟩ := bind_eq_some_iff.1 hrun
    rcases (honest_loop honest_groupTurn 0).made hloop hmove with hbefore | hmakes
    · refine (List.mem_append.1 hbefore).imp_right fun henter => ?_
      rw [List.mem_singleton.1 henter]
      exact .enter w
    · exact Or.inr (.later (x := peek tokens 0) rfl (.later (x := note _) rfl hmakes))

theorem honest_entryTurn (words : List String) : Honest tokens (entryTurn tokens words) := by
  refine (honest_peek 0).bind fun token => ?_
  split
  · exact honest_advance.bind fun _ => honest_pure _
  · exact honest_pure _
  · exact honest_advance.bind fun _ => honest_pure _
  · split
    · exact honest_group.bind fun _ => honest_pure _
    · exact honest_advance.bind fun _ => honest_pure _

theorem honest_pathTurn (name : String) : Honest tokens (pathTurn tokens name) := by
  refine (honest_peek 0).bind fun token => ?_
  split
  · refine honest_advance.bind fun _ => honest_advance.bind fun part => ?_
    split
    · exact honest_pure _
    · exact honest_pure _
  · exact honest_pure _

theorem honest_trailTurn (u : Unit) : Honest tokens (trailTurn tokens u) := by
  refine (honest_peek 0).bind fun token => ?_
  split
  · exact honest_pure _
  · exact honest_pure _
  · exact honest_advance.bind fun _ => honest_pure _

theorem honest_bareValue : Honest tokens (bareValue tokens) := by
  refine honest_advance.bind fun token => ?_
  split
  · exact honest_pure _
  · exact honest_pure _
  · refine (honest_loop honest_pathTurn _).bind fun _ => (honest_peek 0).bind fun next => ?_
    split
    · exact honest_group.bind fun _ => honest_pure _
    · exact honest_pure _
  · exact (honest_loop honest_entryTurn _).bind fun _ => honest_pure _
  · exact honest_stepBack.bind fun _ => honest_group.bind fun _ => honest_pure _
  · exact honest_pure _

theorem honest_value : Honest tokens (value tokens) :=
  honest_bareValue.bind fun _ => (honest_loop honest_trailTurn ()).bind fun _ => honest_pure _

theorem honest_label : Honest tokens (label tokens) := by
  refine (honest_peek 0).bind fun token => (honest_peek 1).bind fun next => ?_
  split
  · exact (honest_skip 2).bind fun _ => honest_pure _
  · exact honest_pure _

theorem honest_argumentTurn (arguments : List Argument) :
    Honest tokens (argumentTurn tokens arguments) := by
  refine (honest_peek 0).bind fun token => ?_
  split
  · exact honest_pure _
  · exact honest_advance.bind fun _ => honest_pure _
  · exact honest_label.bind fun _ => honest_value.bind fun _ => honest_pure _

theorem honest_arguments : Honest tokens (arguments tokens) := honest_loop honest_argumentTurn []

end Readers

/-- Each move that is made is on record in the end. -/
theorem Makes.recorded {tokens : List Token} {x : Walking α} {w w' : Walk} {a : α} {move : Move}
    (h : Makes tokens x w move) (hrun : x w = some (a, w')) : move ∈ w'.moves := by
  induction h generalizing w' with
  | round limit hturn hagain =>
    rw [rounds_again hagain] at hrun
    have hkept := keeps_rounds hturn limit _ _ _ _ hrun
    exact hkept.subset (List.mem_append_right _ List.mem_cons_self)
  | back w =>
    cases hrun
    exact List.mem_append_right _ List.mem_cons_self
  | enter w =>
    obtain ⟨_, _, ⟨⟩, hrun⟩ := bind_eq_some_iff.1 hrun
    obtain ⟨_, _, ⟨⟩, hloop⟩ := bind_eq_some_iff.1 hrun
    have hkept := (honest_loop honest_groupTurn 0).keeps _ _ _ hloop
    exact hkept.subset (List.mem_append_right _ List.mem_cons_self)
  | close w depth =>
    cases hrun
    exact List.mem_append_right _ List.mem_cons_self
  | first hkeeps _ ih =>
    obtain ⟨b, w₁, hx, hf⟩ := bind_eq_some_iff.1 hrun
    exact (hkeeps b _ _ _ hf).subset (ih hx)
  | later hx _ ih =>
    obtain ⟨b, w₁, hx', hf⟩ := bind_eq_some_iff.1 hrun
    rw [hx] at hx'
    cases hx'
    exact ih hf

/-- The record of the whole reading shows the moves that are made in it and no others. -/
theorem mem_moves_iff {tokens : List Token} {as : List Argument} {w : Walk} {move : Move}
    (hrun : arguments tokens start = some (as, w)) :
    move ∈ w.moves ↔ Makes tokens (arguments tokens) start move := by
  constructor
  · intro hmove
    rcases honest_arguments.made hrun hmove with hbefore | hmakes
    · cases hbefore
    · exact hmakes
  · exact fun hmakes => hmakes.recorded hrun

end SchemaQuery.Walk
