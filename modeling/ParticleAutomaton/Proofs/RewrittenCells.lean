import Mathlib
import ParticleAutomaton.Proofs.CellCounts
import ParticleAutomaton.Proofs.OverwrittenCells
import ParticleAutomaton.Proofs.ActivitySync
import ParticleAutomaton.Proofs.WriteFence

namespace ParticleAutomaton

/-- To change what holds at one place of a list without repetitions changes a count by that
place. -/
theorem countP_change {α : Type} [DecidableEq α] {xs : List α} (hd : xs.Nodup) {a : α} (ha : a ∈ xs)
    {p q : α → Bool} (h : ∀ x, x ≠ a → q x = p x) :
    xs.countP q + (if p a then 1 else 0) = xs.countP p + if q a then 1 else 0 := by
  have hperm := List.perm_cons_erase ha
  have hrest : (xs.erase a).countP q = (xs.erase a).countP p :=
    List.countP_congr fun x hx => by rw [h x (hd.mem_erase_iff.mp hx).1]
  rw [hperm.countP_eq, hperm.countP_eq, List.countP_cons, List.countP_cons, hrest]
  omega

namespace Grid

/-- A particle has been written to a cell. If the cell held another one, the bonds that ended there
are gone. -/
structure Rewrites (g : Grid) (p : Point) (i : ParticleId) (h : Grid) : Prop where
  width : h.width = g.width
  height : h.height = g.height
  cell : ∀ {c}, g.get? p = some c →
    ∃ c', h.get? p = some c' ∧ c'.particle = i ∧ c'.writes = c.writes + 1
  other : ∀ {q c}, q ≠ p → g.get? q = some c →
    ∃ c', h.get? q = some c' ∧ c'.particle = c.particle ∧ c'.writes = c.writes
  leaves : ∀ {c}, g.get? p = some c → ∀ k,
    (h.field.Leaves k ↔ g.field.Leaves k ∧ (i ≠ c.particle → ¬ k.EndsAt p))
  enters : ∀ {c}, g.get? p = some c → ∀ k,
    (h.field.Enters k ↔ g.field.Enters k ∧ (i ≠ c.particle → ¬ k.EndsAt p))

theorem Rewrites.contains {g h : Grid} {p : Point} {i : ParticleId} (r : g.Rewrites p i h)
    (q : Point) : h.contains q = g.contains q := by
  simp [Grid.contains, Grid.index?, r.width, r.height]

/-- To overwrite a cell with another particle rewrites it. -/
theorem rewrites_overwritten {g : Grid} (hm : g.field.Mirrored) {p : Point} {c : Cell}
    (hc : g.get? p = some c) {i : ParticleId} (hne : i ≠ c.particle) :
    g.Rewrites p i (Board.overwritten g p i) := by
  have ho := overwrites_overwritten hm (contains_of_get? hc) i
  refine ⟨ho.width, ho.height, ho.cell, ho.other, fun hd k => ?_, fun hd k => ?_⟩
  · cases hc.symm.trans hd
    rw [ho.leaves, imp_iff_right hne]
  · cases hc.symm.trans hd
    rw [ho.enters, imp_iff_right hne]

end Grid

namespace Board

variable {R γ : Type}

/-- A particle of a name has been written to a cell: it is one more cell that shows the name, and
has one more write. If it showed another name, the bonds that ended there are gone. No other cell,
rate or count has changed. -/
structure Rewritten [Scalar R] (b : Board R γ) (p : Point) (name : String) (c : Board R γ) :
    Prop where
  config : c.config = b.config
  remotes : c.remotes = b.remotes
  shown : c.particleName? p = some name
  writes : c.writes? p = (b.writes? p).map (· + 1)
  others : ∀ {q}, q ≠ p → c.particleName? q = b.particleName? q ∧ c.writes? q = b.writes? q
  leaves : ∀ k, c.grid.field.Leaves k ↔
    b.grid.field.Leaves k ∧ (b.particleName? p ≠ some name → ¬ k.EndsAt p)
  enters : ∀ k, c.grid.field.Enters k ↔
    b.grid.field.Enters k ∧ (b.particleName? p ≠ some name → ¬ k.EndsAt p)
  rate : b.registry.rules.activity name = .ok (c.activity.rate p)
  rates : ∀ {q}, q ≠ p → c.activity.rate q = b.activity.rate q
  count : ∀ n : String,
    let n' := Text.truncate (max 1 b.config.maxNameLen) n
    c.count n + (if b.particleName? p = some n' then 1 else 0) =
      b.count n + if name = n' then 1 else 0

/-- A particle of a name has been written to a cell, and no other particle is gone. -/
structure Puts (b : Board R γ) (p : Point) (name : String) (c : Board R γ) : Prop where
  config : c.config = b.config
  remotes : c.remotes = b.remotes
  retains : b.registry.Retains c.registry
  cell : ∃ i, c.registry.name? i = some name ∧ b.grid.Rewrites p i c.grid

variable {b c : Board R γ} {p : Point} {name : String}

theorem Puts.send (h : b.Puts p name c) (journal : Journal R) :
    b.Puts p name { c with journal } := ⟨h.config, h.remotes, h.retains, h.cell⟩

section

variable [RateScalar R]

theorem Puts.other (h : b.Puts p name c) (hb : b.Alike b) {q : Point} (hq : q ≠ p) :
    c.particleName? q = b.particleName? q ∧ c.writes? q = b.writes? q := by
  obtain ⟨i, -, hg⟩ := h.cell
  exact hb.same_cell h.retains (hg.contains q) (hg.other hq)

/-- Where activities and counts fit the cells, they change with the written cell only. -/
theorem Puts.rewritten (h : b.Puts p name c) (hb : b.Alike b) (hc : c.Alike c) (sb : b.Synced)
    (sc : c.Synced) (hp : b.grid.contains p = true) : b.Rewritten p name c := by
  obtain ⟨i, hn, hg⟩ := h.cell
  obtain ⟨cell, hcell⟩ := Grid.get?_of_contains hp
  obtain ⟨cell', hcell', rfl, hwrites⟩ := hg.cell hcell
  obtain ⟨old, hold⟩ := hb.named hcell
  have hk := h.retains
  have hshown : c.particleName? p = some name := by
    rw [Board.particleName?, hcell', Option.map_some, Registry.name_of hn]
  have hshowed : b.particleName? p = some old := by
    rw [Board.particleName?, hcell, Option.map_some, Registry.name_of hold]
  -- To tell the particles apart their names do.
  have hnew : cell'.particle ≠ cell.particle ↔ b.particleName? p ≠ some name := by
    rw [hshowed, not_iff_not, Option.some.injEq]
    constructor
    · intro he
      exact Option.some.inj ((he ▸ hk.name? hold).symm.trans hn)
    · rintro rfl
      exact hc.sound.name_inj hn (hk.name? hold)
  have hpoints : c.grid.points = b.grid.points := by
    unfold Grid.points
    rw [hg.width, hg.height]
  refine ⟨h.config, h.remotes, hshown, ?_, h.other hb, fun k => ?_, fun k => ?_, ?_,
    fun {q} hq => ?_, fun n => ?_⟩
  · rw [writes?, writes?, hcell', hcell, Option.map_some, Option.map_some, hwrites, Option.map_some]
  · rw [hg.leaves hcell, hnew]
  · rw [hg.enters hcell, hnew]
  · rw [← hk.rules]
    exact sc.inside hcell' hn
  · cases hq' : b.grid.get? q with
    | none =>
      have hout := Grid.get?_eq_none_iff.mp hq'
      rw [sb.outside hout, sc.outside ((hg.contains q).trans hout)]
    | some d =>
      obtain ⟨d', hd', hparticle, -⟩ := hg.other hq hq'
      obtain ⟨n, hname⟩ := hb.named hq'
      have hafter := sc.inside hd' (hparticle ▸ hk.name? hname)
      rw [hk.rules, sb.inside hq' hname] at hafter
      exact (Except.ok.inj hafter).symm
  · have hchange := countP_change b.grid.nodup_points (Grid.mem_points.mpr hp)
      (p := fun q => b.particleName? q == some (Text.truncate (max 1 b.config.maxNameLen) n))
      (q := fun q => c.particleName? q == some (Text.truncate (max 1 b.config.maxNameLen) n))
      fun q hq => by rw [(h.other hb hq).1]
    have hbound : c.registry.maxNameLen = max 1 c.config.maxNameLen := sc.maxNameLen
    rw [hc.count_cellsNamed, hb.count_cellsNamed, hbound, sb.maxNameLen, cellsNamed, cellsNamed,
      hpoints, h.config]
    simpa only [hshown, beq_iff_eq, Option.some.injEq] using hchange

/-- A reply with the name that its cell shows changes nothing. -/
theorem applyReply_same (hb : b.Alike b) {m : EvolveReply R} {cell : Cell}
    (hcell : b.grid.get? m.source = some cell)
    (hn : b.registry.name? cell.particle = some m.newState) : b.applyReply m = .ok b := by
  have hfits := hb.sound.bounded hn
  obtain ⟨-, hext, hnew⟩ := hb.sound.intern m.newState
  rw [hfits] at hnew
  have hsame : (b.registry.intern m.newState).1 = cell.particle := by
    have hi := hb.sound.index.mpr hn
    rw [Registry.intern_eq, hfits, hi]
  have hreg : (b.registry.intern m.newState).2 = b.registry :=
    hb.sound.intern_known (hsame ▸ hn)
  unfold applyReply
  rw [hcell]
  simp only [hsame, hreg, if_true, ite_self]

/-- A reply that is not stale and brings another name puts it. -/
theorem applyReply_puts (hb : b.Alike b) (ht : b.registry.rules.Total) (hcovered : b.Covered)
    (hm : b.grid.field.Mirrored) {m : EvolveReply R} {cell : Cell}
    (hcell : b.grid.get? m.source = some cell) (hw : cell.writes = m.writes)
    (hfits : Text.truncate b.registry.maxNameLen m.newState = m.newState)
    (hne : b.registry.name? cell.particle ≠ some m.newState) :
    ∃ c, b.applyReply m = .ok c ∧ b.Puts m.source m.newState c ∧ c.random = b.random ∧
      c.journal.sent = b.journal.sent := by
  obtain ⟨hsound, hext, hnew⟩ := hb.sound.intern m.newState
  rw [hfits] at hnew
  obtain ⟨old, hold⟩ := hb.named hcell
  have hother : (b.registry.intern m.newState).1 ≠ cell.particle := by
    intro he
    refine hne (hold.trans ?_)
    rw [← hb.sound.name?_of_keeps hext.toKeeps hold, ← he, hnew]
  let known : Board R γ := { b with registry := (b.registry.intern m.newState).2 }
  have htotal : known.registry.rules.Total := hext.rules.symm ▸ ht
  obtain ⟨⟨touched, d⟩, hd⟩ := write_ok (hb.intern m.newState).1 htotal hnew m.source
  have happly : b.applyReply m = .ok (d.drawAll touched) := by
    unfold applyReply
    rw [hcell]
    simp only [hw, ne_eq, not_true, if_false, if_neg hother]
    rw [hd]
    rfl
  obtain ⟨ps, hset⟩ := resettled_of_write (b := known) hcovered hd
  have hretains : known.registry.Retains d.registry := hset.retains
  obtain ⟨registry, activity, rfl⟩ := write_eq_ok hd
  refine ⟨_, happly, ⟨rfl, rfl, ?_, _, hretains.name? hnew, ?_⟩, rfl, sent_drawAll ..⟩
  · have hgrown := (Registry.enrolls_intern b.registry m.newState).grows
    exact (hgrown.retains hb.sound.arena).trans hretains
  · exact Grid.rewrites_overwritten hm hcell hother

end

end Board

end ParticleAutomaton
