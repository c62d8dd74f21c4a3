import ParticleAutomaton.Lattice.Point

namespace ParticleAutomaton.Point

theorem add_sub_self (p o : Point) : p + o - p = o := by
  rw [eq_iff, sub_x, sub_y, add_x, add_y]
  omega

theorem sub_add_self (p o : Point) : p - (p + o) = -o := by
  rw [eq_iff, sub_x, sub_y, add_x, add_y, neg_x, neg_y]
  omega

theorem sub_add_cancel (p o : Point) : p - o + o = p := by
  rw [eq_iff, add_x, add_y, sub_x, sub_y]
  omega

theorem sub_left_inj {p q r : Point} : q - p = r - p ↔ q = r := by
  rw [eq_iff, eq_iff, sub_x, sub_y, sub_x, sub_y]
  omega

theorem add_eq_iff {p o q : Point} : p + o = q ↔ o = q - p := by
  rw [eq_iff, eq_iff, sub_x, sub_y, add_x, add_y]
  omega

theorem before_iff {p q : Point} :
    p.before q = true ↔ p.x < q.x ∨ p.x = q.x ∧ p.y < q.y := by
  simp [before]

theorem before_irrefl (p : Point) : p.before p = false := by
  simp [before]

theorem before_trans {p q r : Point} (h₁ : p.before q = true) (h₂ : q.before r = true) :
    p.before r = true := by
  rw [before_iff] at *
  omega

theorem before_of_not {p q : Point} (h : p.before q = false) (hne : p ≠ q) : q.before p = true := by
  have hn : ¬ (p.x < q.x ∨ p.x = q.x ∧ p.y < q.y) := by
    rw [← before_iff, h]
    exact Bool.noConfusion
  have hd : ¬ (p.x = q.x ∧ p.y = q.y) := fun he => hne (eq_iff.mpr he)
  rw [before_iff]
  omega

theorem ne_of_before {p q : Point} (h : p.before q = true) : p ≠ q := by
  intro he
  rw [he, before_irrefl] at h
  exact Bool.noConfusion h

end ParticleAutomaton.Point
