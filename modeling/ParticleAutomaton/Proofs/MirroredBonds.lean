import ParticleAutomaton.Proofs.NewBoards
import ParticleAutomaton.Proofs.Progress

namespace ParticleAutomaton

theorem Grid.mirrored_new (width height : Nat) (particle : ParticleId) :
    (Grid.new width height particle).field.Mirrored := by
  have hn : ∀ p c, (Grid.new width height particle).field p = some c → c = .empty := by
    intro p c hc
    obtain ⟨d, hd, rfl⟩ := Option.map_eq_some_iff.mp hc
    exact congrArg Cell.bonds (Grid.get?_new hd)
  intro b _ _
  constructor
  · rintro ⟨c, hc, hg⟩
    rw [hn _ c hc] at hg
    exact nomatch hg
  · rintro ⟨c, hc, hg⟩
    rw [hn _ c hc] at hg
    exact nomatch hg

namespace Board

variable {R γ : Type} [Scalar R] [Generator R γ] [MessageReader R]

theorem mirrored_of_reachable {b : Board R γ} (h : b.Reachable) : b.grid.field.Mirrored := by
  obtain ⟨config, rules, random, a, hn, ha⟩ := h
  obtain ⟨filler, hg⟩ := grid_new hn
  exact ha.passes.leadsTo.mirrored (hg ▸ Grid.mirrored_new _ _ _)

/-- On every board that operations can make, a bond between two cells stands at both of them or at
none, and the search for a bond that stands at one of them finds nothing. -/
theorem bonds_at_both_ends {b : Board R γ} (h : b.Reachable) :
    (∀ p q name, b.grid.contains p = true → b.grid.contains q = true →
      (b.grid.outgoing? p name = some (q - p) ↔ b.grid.incoming? q name = some (p - q))) ∧
    b.grid.gap? = none := by
  have hm := mirrored_of_reachable h
  refine ⟨fun p q name hp hq => ?_, Grid.gap?_eq_none_iff.mpr hm⟩
  rw [← Grid.leaves_field (b := ⟨p, q, name⟩), ← Grid.enters_field (b := ⟨p, q, name⟩)]
  exact hm ⟨p, q, name⟩ (Grid.holds_field.mpr hp) (Grid.holds_field.mpr hq)

theorem bonds_at_both_ends_of_linked :
    ∃ b : Board Float RandomSource, b.Reachable ∧
      b.grid.outgoing? ⟨0, 0⟩ "k" = some ⟨1, 0⟩ ∧ b.grid.incoming? ⟨1, 0⟩ "k" = some ⟨-1, 0⟩ ∧
      b.grid.gap? = none := by
  let link : Bond := ⟨⟨0, 0⟩, ⟨1, 0⟩, "k"⟩
  obtain ⟨a, ha⟩ := pair_ok
  obtain ⟨filler, hg⟩ := grid_new ha
  have hp : a.grid.contains ⟨0, 0⟩ = true := Grid.contains_iff.mpr (by simp [hg, Grid.new])
  have hq : a.grid.contains ⟨1, 0⟩ = true := Grid.contains_iff.mpr (by simp [hg, Grid.new])
  have hb : (a.addBond link).2.grid = a.grid.link link := by
    rw [addBond_eq, if_neg (by simp [link, hp])]
  have hr : (a.addBond link).2.Reachable :=
    ⟨_, _, _, a, ha, .single ⟨.addBond link, _, rfl⟩⟩
  obtain ⟨hboth, hgap⟩ := bonds_at_both_ends hr
  have ho : (a.addBond link).2.grid.outgoing? ⟨0, 0⟩ "k" = some ⟨1, 0⟩ :=
    Grid.leaves_field.mp (hb ▸ Grid.leaves_link hp)
  have hc : ∀ p, a.grid.contains p = true → (a.addBond link).2.grid.contains p = true :=
    fun p h => hb ▸ ((Grid.sameStates_link a.grid link).contains p).trans h
  exact ⟨_, hr, ho, (hboth ⟨0, 0⟩ ⟨1, 0⟩ "k" (hc _ hp) (hc _ hq)).mp ho, hgap⟩

end Board

end ParticleAutomaton
