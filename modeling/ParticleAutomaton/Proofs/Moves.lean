import ParticleAutomaton.Proofs.Operations

namespace ParticleAutomaton.Board

variable {R γ : Type} [Scalar R] [Generator R γ]

/-- The moves that all operations are made of. -/
inductive Moves (b : Board R γ) : Board R γ → Prop
  | set {p name done c} (h : b.set p name = .ok (done, c)) : Moves b c
  | addBond (bond) : Moves b (b.addBond bond).2
  | removeBonds (p) : Moves b (b.removeBonds p)
  | connect (p cell) : Moves b (b.connect p cell).2
  | draw (random) : Moves b { b with random }
  | step {o c} (h : b.step = .ok (o, c)) : Moves b c
  | handle {m c} (h : b.handle m = .ok c) : Moves b c
  | restore {s r c} (h : b.restore s = .ok (r, c)) : Moves b c
  | flush : Moves b b.flush.2

/-- Moves turn a board into another one. -/
def Passes : Board R γ → Board R γ → Prop := Relation.ReflTransGen Moves

theorem Passes.refl (b : Board R γ) : b.Passes b := Relation.ReflTransGen.refl

theorem Passes.trans {a b c : Board R γ} (h : a.Passes b) (k : b.Passes c) : a.Passes c :=
  Relation.ReflTransGen.trans h k

theorem Moves.passes {b c : Board R γ} (h : b.Moves c) : b.Passes c :=
  Relation.ReflTransGen.single h

/-- What every move keeps, all of them keep. -/
theorem Passes.relates {r : Board R γ → Board R γ → Prop} (refl : ∀ b, r b b)
    (trans : ∀ {a b c}, r a b → r b c → r a c) (step : ∀ {b c}, b.Moves c → r b c)
    {b c : Board R γ} (h : b.Passes c) : r b c := by
  induction h with
  | refl => exact refl b
  | tail _ hm ih => exact trans ih (step hm)

/-- What holds of a board and no move loses holds of all that moves make of it. -/
theorem Passes.invariant {P : Board R γ → Prop} (step : ∀ {b c}, b.Moves c → P b → P c)
    {b c : Board R γ} (h : b.Passes c) (hb : P b) : P c :=
  h.relates (r := fun b c : Board R γ => P b → P c) (fun _ => id) (fun h k hb => k (h hb)) step hb

theorem passes_of_fill {b c : Board R γ} {name : String} (h : b.fill name = .ok c) :
    b.Passes c := by
  refine foldlM_relates Passes.refl Passes.trans (fun p _ b b' hb => ?_) h
  obtain ⟨s, hs, rfl⟩ := map_eq_ok.mp hb
  exact (Moves.set hs).passes

theorem passes_of_updateGo {n : Nat} {stats stats' : UpdateStats} {b c : Board R γ}
    (h : update.go n stats b = .ok (stats', c)) : b.Passes c := by
  induction n generalizing stats b with
  | zero =>
    cases h
    exact .refl _
  | succ n ih =>
    obtain ⟨s, hs, h⟩ := bind_eq_ok.mp h
    exact (Moves.step hs).passes.trans (ih h)

theorem passes_of_update {n : Nat} {stats : UpdateStats} {b c : Board R γ}
    (h : b.update n = .ok (stats, c)) : b.Passes c := passes_of_updateGo h

theorem passes_of_tick {stats : UpdateStats} {b c : Board R γ} (h : b.tick = .ok (stats, c)) :
    b.Passes c :=
  (Moves.draw _).passes.trans (passes_of_update h)

theorem passes_of_paint {image : Image} {n : Nat} {b c : Board R γ}
    (h : b.paint image = .ok (n, c)) : b.Passes c := by
  refine foldlM_relates (r := fun s t : Nat × Board R γ => s.2.Passes t.2) (fun s => .refl s.2)
    Passes.trans (fun p _ s t hs => ?_) h
  simp only at hs
  split at hs
  next =>
    obtain ⟨s', hs', rfl⟩ := map_eq_ok.mp hs
    exact (Moves.set hs').passes
  next =>
    cases hs
    exact .refl _

variable [MessageReader R]

theorem passes_of_handleText {text : String} {b c : Board R γ} (h : b.handleText text = .ok c) :
    b.Passes c := by
  unfold handleText at h
  split at h
  next => exact (Moves.handle h).passes
  next =>
    cases h
    exact .refl _

theorem passes_of_run {op : Operation R} {a : Answer} {b c : Board R γ}
    (h : op.run b = .ok (a, c)) : b.Passes c := by
  cases op with
  | set p name =>
    obtain ⟨s, hs, he⟩ := map_eq_ok.mp h
    cases he
    exact (Moves.set hs).passes
  | fill name =>
    obtain ⟨s, hs, he⟩ := map_eq_ok.mp h
    cases he
    exact passes_of_fill hs
  | addBond bond =>
    cases h
    exact (Moves.addBond bond).passes
  | removeBonds p =>
    cases h
    exact (Moves.removeBonds p).passes
  | connect p cell =>
    cases h
    exact (Moves.connect p cell).passes
  | step =>
    obtain ⟨s, hs, he⟩ := map_eq_ok.mp h
    cases he
    exact (Moves.step hs).passes
  | update n =>
    obtain ⟨s, hs, he⟩ := map_eq_ok.mp h
    cases he
    exact passes_of_update hs
  | tick =>
    obtain ⟨s, hs, he⟩ := map_eq_ok.mp h
    cases he
    exact passes_of_tick hs
  | handle m =>
    obtain ⟨s, hs, he⟩ := map_eq_ok.mp h
    cases he
    exact (Moves.handle hs).passes
  | handleText text =>
    obtain ⟨s, hs, he⟩ := map_eq_ok.mp h
    cases he
    exact passes_of_handleText hs
  | restore s =>
    obtain ⟨s, hs, he⟩ := map_eq_ok.mp h
    cases he
    exact (Moves.restore hs).passes
  | paint image =>
    obtain ⟨s, hs, he⟩ := map_eq_ok.mp h
    cases he
    exact passes_of_paint hs
  | flush =>
    cases h
    exact Moves.flush.passes

theorem Reaches.passes {b c : Board R γ} (h : b.Reaches c) : b.Passes c := by
  induction h with
  | refl => exact .refl b
  | tail _ ht ih =>
    obtain ⟨op, a, ho⟩ := ht
    exact ih.trans (passes_of_run ho)

end ParticleAutomaton.Board
