import ParticleAutomaton.Proofs.Views

namespace ParticleAutomaton.Board

variable {R γ : Type}

theorem get?_overwritten {g : Grid} {p : Point} {c : Cell} (h : g.get? p = some c)
    (particle : ParticleId) :
    ∃ d, (overwritten g p particle).get? p = some d ∧ d.writes = c.writes + 1 := by
  obtain ⟨d, hd, -, hw⟩ := (Grid.sameStates_removeBonds g p).get? h
  refine ⟨_, by rw [overwritten, Grid.put, Grid.get?_modify, if_pos rfl, hd]; rfl, ?_⟩
  exact congrArg (· + 1) hw

variable [Scalar R]

/-- An attempt that ends with asking another board, and what it asks. -/
def Asks (b : Board R γ) (q : EvolveRequest R) (c : Board R γ) : Prop :=
  ∃ registry random p cell d remote, b.grid.get? p = some cell ∧
    c = requestRemote { b with registry, random } p d remote ∧
    c.journal.sent = b.journal.sent.push (remote.address, .evolve q)

/-- The request tells the writes to its cell at the time. -/
theorem Asks.cell {b c : Board R γ} {q : EvolveRequest R} (h : b.Asks q c) :
    c.grid = b.grid ∧ ∃ cell, b.grid.get? q.source = some cell ∧ cell.writes = q.writes := by
  obtain ⟨registry, random, p, cell, d, remote, hc, rfl, hs⟩ := h
  obtain ⟨registry', q', -, hq, hw, -, hr⟩ :=
    requestRemote_eq (b := { b with registry, random }) hc d remote
  rw [hr] at hs ⊢
  have hj : b.journal.sent.push (remote.address, .evolve q') =
      b.journal.sent.push (remote.address, .evolve q) := (Journal.sent_send ..).symm.trans hs
  obtain ⟨he, -⟩ := Array.push_eq_push.mp hj
  cases he
  exact ⟨rfl, cell, hq ▸ hc, hw.symm⟩

theorem asks_of_step [Generator R γ] {b c : Board R γ} (h : b.step = .ok (.remoteRequested, c)) :
    ∃ q, b.Asks q c := by
  cases effect_of_step h with
  | quiet ha hr h => exact absurd rfl hr
  | change ho e e' hp hr hb h => exact nomatch ho
  | request ho h =>
    obtain ⟨registry, random, p, cell, d, remote, -, hc, -, rfl⟩ := h
    obtain ⟨registry', q, -, -, -, -, hr⟩ :=
      requestRemote_eq (b := { b with registry, random }) hc d remote
    refine ⟨q, registry, random, p, cell, d, remote, hc, rfl, ?_⟩
    rw [hr]
    exact Journal.sent_send ..

/-- A reply that comes with other writes than those of its cell changes nothing. -/
theorem applyReply_stale {b : Board R γ} {m : EvolveReply R} {c : Cell}
    (hc : b.grid.get? m.source = some c) (hw : c.writes ≠ m.writes) : b.applyReply m = .ok b := by
  unfold applyReply
  rw [hc]
  exact if_pos hw

theorem cell_of_applyReply {b b' : Board R γ} {m : EvolveReply R} (h : b.applyReply m = .ok b')
    (hne : b' ≠ b) : ∃ c, b.grid.get? m.source = some c ∧ c.writes = m.writes := by
  cases hc : b.grid.get? m.source with
  | none =>
    rw [applyReply, hc] at h
    cases h
    exact absurd rfl hne
  | some c =>
    refine ⟨c, rfl, ?_⟩
    by_contra hw
    rw [applyReply_stale hc hw] at h
    cases h
    exact hne rfl

/-- A reply that changes the board writes its cell: the particle of its name is another one than
that of the cell, or else the registry would have it. -/
theorem writes_of_applyReply {b b' : Board R γ} (ha : b.Alike b) {m : EvolveReply R}
    (h : b.applyReply m = .ok b') (hne : b' ≠ b) :
    ∃ c, b'.grid.get? m.source = some c ∧ m.writes < c.writes := by
  obtain ⟨c, hc, hw⟩ := cell_of_applyReply h hne
  unfold applyReply at h
  rw [hc] at h
  simp only [ne_eq, hw, not_true, if_false] at h
  split at h
  next he =>
    obtain ⟨name, hn⟩ := ha.twins.named_left _ (Grid.particle_mem hc)
    have hn : b.registry.name? (b.registry.intern m.newState).1 = some name := he ▸ hn
    have hr : (b.registry.intern m.newState).2 = b.registry :=
      Registry.Sound.intern_known ha.twins.left hn
    rw [hr] at h
    cases h
    exact absurd rfl hne
  next =>
    obtain ⟨⟨touched, d⟩, hd, h⟩ := bind_eq_ok.mp h
    obtain ⟨registry, activity, rfl⟩ := write_eq_ok hd
    cases h
    obtain ⟨d, hd, hdw⟩ := get?_overwritten hc (b.registry.intern m.newState).1
    exact ⟨d, hd, by omega⟩

theorem write_ok {b : Board R γ} (ha : b.Alike b) (ht : b.registry.rules.Total) {i : ParticleId}
    {name : String} (hn : b.registry.name? i = some name) (p : Point) :
    ∃ s, b.write p i = .ok s := by
  cases hc : b.grid.get? p with
  | none => exact ⟨_, write_of_none hc i⟩
  | some c =>
    obtain ⟨r, hr, -, hk, -⟩ := ha.twins.leftCounted.write ha.twins.left hc hn
    have hr : b.registry.exchange c.particle i = .ok r := hr
    have htr : r.rules.Total := by
      rw [hk.rules]
      exact ht
    obtain ⟨b', hb'⟩ :=
      refreshRate_ok (b := { b with grid := overwritten b.grid p i, registry := r }) htr p
    rw [write_of_some hc, hr, ok_bind, hb', ok_bind]
    exact ⟨_, rfl⟩

/-- A reply that is not stale and names another particle is carried out, if the rules never fail. -/
theorem applyReply_fresh {b : Board R γ} (ha : b.Alike b) (ht : b.registry.rules.Total)
    {m : EvolveReply R} {c : Cell} (hc : b.grid.get? m.source = some c) (hw : c.writes = m.writes)
    (hne : (b.registry.intern m.newState).1 ≠ c.particle) :
    ∃ b', b.applyReply m = .ok b' ∧ b' ≠ b := by
  obtain ⟨hknown, name, -, hn⟩ := ha.intern m.newState
  have hk := (Registry.Sound.intern ha.twins.left m.newState).2.1.rules
  have htr : (b.registry.intern m.newState).2.rules.Total := by
    have hk : (b.registry.intern m.newState).2.rules = b.registry.rules := hk
    rw [hk]
    exact ht
  obtain ⟨⟨touched, d⟩, hd⟩ := write_ok hknown htr hn m.source
  have happly : b.applyReply m = .ok (d.drawAll touched) := by
    unfold applyReply
    rw [hc]
    simp only [hw, ne_eq, not_true, if_false, if_neg hne]
    rw [hd]
    rfl
  refine ⟨_, happly, fun he => ?_⟩
  obtain ⟨registry, activity, rfl⟩ := write_eq_ok hd
  obtain ⟨d, hd, hdw⟩ := get?_overwritten hc (b.registry.intern m.newState).1
  have hg : overwritten b.grid m.source (b.registry.intern m.newState).1 = b.grid :=
    congrArg Board.grid he
  rw [hg, hc] at hd
  cases hd
  omega

variable [Generator R γ]

/-- The writes to a cell since a request tell whether its particle is still the same one. -/
theorem particle_of_asks {b b₁ b₂ b₃ b₄ : Board R γ} {q : EvolveRequest R} {m : EvolveReply R}
    (hq : b.Asks q b₁) (h₂ : b₁.Passes b₂) (h₃ : b₂.Passes b₃)
    (h₄ : b₃.handle (.reply m) = .ok b₄) (hne : b₄ ≠ b₃) (hs : m.source = q.source)
    (hw : m.writes = q.writes) :
    ∃ c d, b.grid.get? q.source = some c ∧ b₂.grid.get? q.source = some d ∧
      d.particle = c.particle := by
  obtain ⟨hg, c, hc, hcw⟩ := hq.cell
  obtain ⟨d, hd, hcd⟩ := h₂.leadsTo.ages.cell (hg ▸ hc)
  obtain ⟨e, he, hde⟩ := h₃.leadsTo.ages.cell hd
  obtain ⟨e', he', hew⟩ := cell_of_applyReply h₄ hne
  rw [hs] at he'
  cases he.symm.trans he'
  have hle := hde.writes
  exact ⟨c, d, hc, hd, hcd.particle_eq (by omega)⟩

/-- After a reply that changes the board, all others for the same writes are stale. -/
theorem handle_of_replied {b b₁ b₂ b₃ : Board R γ} (ha : b.Alike b) {m n : EvolveReply R}
    (h₁ : b.handle (.reply m) = .ok b₁) (hne : b₁ ≠ b) (h₂ : b₁.Passes b₂)
    (h₃ : b₂.handle (.reply n) = .ok b₃) (hs : n.source = m.source) (hw : n.writes = m.writes) :
    b₃ = b₂ := by
  obtain ⟨c, hc, hcw⟩ := writes_of_applyReply ha h₁ hne
  obtain ⟨d, hd, hcd⟩ := h₂.leadsTo.ages.cell hc
  have hle := hcd.writes
  have hstale : b₂.applyReply n = .ok b₂ := applyReply_stale (hs ▸ hd) (by omega)
  exact (Except.ok.inj (hstale.symm.trans h₃)).symm

variable [MessageReader R]

/-- The writes to a cell fence off replies, in all that can become of a board. They never become
fewer, and more with each new particle. A reply with the writes that a request told changes the
board only if the cell of the request held one particle all the time, and of all replies for one
cell with the same writes only one changes the board. -/
theorem writes_fence_replies {b : Board R γ} (h : b.Reachable) :
    (∀ (op : Operation R) a c, op.run b = .ok (a, c) → b.Passes c) ∧
    (∀ c, b.Passes c → ∀ p cell, b.grid.get? p = some cell →
      ∃ cell', c.grid.get? p = some cell' ∧ cell.writes ≤ cell'.writes ∧
        (cell'.particle ≠ cell.particle → cell.writes < cell'.writes)) ∧
    (∀ b₁, b.step = .ok (.remoteRequested, b₁) → ∃ q, b.Asks q b₁) ∧
    (∀ q b₁ b₃ m b₄, b.Asks q b₁ → b₁.Passes b₃ → b₃.handle (.reply m) = .ok b₄ → b₄ ≠ b₃ →
      m.source = q.source → m.writes = q.writes →
      ∃ cell, b.grid.get? q.source = some cell ∧
        ∀ b₂, b₁.Passes b₂ → b₂.Passes b₃ →
          ∃ cell', b₂.grid.get? q.source = some cell' ∧ cell'.particle = cell.particle) ∧
    (∀ m b₁ b₂ n b₃, b.handle (.reply m) = .ok b₁ → b₁ ≠ b → b₁.Passes b₂ →
      b₂.handle (.reply n) = .ok b₃ → n.source = m.source → n.writes = m.writes → b₃ = b₂) := by
  refine ⟨fun _ _ _ => passes_of_run, fun c hc p cell hp => ?_, fun _ => asks_of_step, ?_, ?_⟩
  · obtain ⟨cell', hp', hages⟩ := hc.leadsTo.ages.cell hp
    exact ⟨cell', hp', hages.writes, hages.particle⟩
  · intro q b₁ b₃ m b₄ hq h₁ h₃ hne hs hw
    obtain ⟨-, cell, hc, -⟩ := hq.cell
    refine ⟨cell, hc, fun b₂ h₁₂ h₂₃ => ?_⟩
    obtain ⟨c, d, hc', hd, hp⟩ := particle_of_asks hq h₁₂ h₂₃ h₃ hne hs hw
    cases hc.symm.trans hc'
    exact ⟨d, hd, hp⟩
  · intro m b₁ b₂ n b₃ h₁ hne h₂ h₃ hs hw
    exact handle_of_replied h.alike h₁ hne h₂ h₃ hs hw

theorem writes_fence_replies_of_request :
    ∃ (b b₁ b₂ b₃ b₄ : Board Float RandomSource) (q : EvolveRequest Float) (m : EvolveReply Float),
      b.Reachable ∧ m.source = q.source ∧ m.writes = q.writes ∧
        (b.Asks q b₁ ∧ b₁.handle (.reply m) = .ok b₂ ∧ b₂ ≠ b₁ ∧
          ∃ c d, b.grid.get? q.source = some c ∧ b₁.grid.get? q.source = some d ∧
            d.particle = c.particle) ∧
        (b.handle (.reply m) = .ok b₃ ∧ b₃ ≠ b ∧ b₃.handle (.reply m) = .ok b₄ ∧ b₄ = b₃) := by
  obtain ⟨b, hb⟩ := pair_ok
  have hr : b.Reachable := ⟨_, _, _, b, hb, .refl⟩
  obtain ⟨filler, hg⟩ := grid_new hb
  have hp : b.grid.contains ⟨0, 0⟩ = true := Grid.contains_iff.mpr (by simp [hg, Grid.new])
  obtain ⟨particle, hc, hn⟩ := cell_new hb hp
  have hk := keeps_new hb
  have ht : b.registry.rules.Total := by
    rw [hk.rules]
    exact total_bare
  have hne : (b.registry.intern "a").1 ≠ particle := by
    have hs : b.registry.Sound := hr.alike.twins.left
    obtain ⟨-, he, hname⟩ := hs.intern "a"
    rintro rfl
    have hboth := (hs.name?_of_keeps he.toKeeps hn).symm.trans hname
    rw [hk.maxNameLen] at hboth
    exact absurd hboth (by decide)
  let q : EvolveRequest Float :=
    ⟨⟨0, 0⟩, b.registry.name particle, 0, -0, ⟨0, 0⟩, b.config.address, 0⟩
  let m : EvolveReply Float := ⟨⟨0, 0⟩, "a", 0, 0⟩
  let b₁ : Board Float RandomSource := { b with journal := b.journal.send "far" (.evolve q) }
  have ha₁ : b₁.Alike b₁ := hr.alike.send "far" (.evolve q)
  have hq : b.Asks q b₁ := by
    refine ⟨b.registry, b.random, ⟨0, 0⟩, _, 0, ⟨"far", ⟨0, 0⟩⟩, hc, ?_,
      Journal.sent_send ..⟩
    unfold requestRemote bondEnergyAt
    rw [hc]
    rfl
  obtain ⟨b₂, h₂, hne₂⟩ := applyReply_fresh (m := m) ha₁ ht hc rfl hne
  obtain ⟨b₃, h₃, hne₃⟩ := applyReply_fresh (m := m) hr.alike ht hc rfl hne
  obtain ⟨d, hd, hdw⟩ := writes_of_applyReply hr.alike h₃ hne₃
  have h₄ : b₃.handle (.reply m) = .ok b₃ := applyReply_stale hd (Nat.ne_of_gt hdw)
  obtain ⟨-, -, -, hsame, honce⟩ := writes_fence_replies hr
  obtain ⟨c, hc', hsame⟩ := hsame q b₁ b₁ m b₂ hq (.refl b₁) h₂ hne₂ rfl rfl
  obtain ⟨d, hd, hcd⟩ := hsame b₁ (.refl b₁) (.refl b₁)
  exact ⟨b, b₁, b₂, b₃, b₃, q, m, hr, rfl, rfl, ⟨hq, h₂, hne₂, c, d, hc', hd, hcd⟩, h₃, hne₃, h₄,
    honce m b₃ b₃ m b₃ h₃ hne₃ (.refl b₃) h₄ rfl rfl⟩

end ParticleAutomaton.Board
