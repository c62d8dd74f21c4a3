import ParticleAutomaton.Proofs.FaultlessRuns
import ParticleAutomaton.Proofs.OverwrittenCells

namespace ParticleAutomaton.Board

variable {R γ : Type}

/-- The cells at some places have been given the particles of names and have lost their bonds. All
other cells, and the bonds between these, are as before. -/
structure Recast (b : Board R γ) (ps : List Point) (names : Point → String) (c : Board R γ) :
    Prop where
  retains : b.registry.Retains c.registry
  contains : ∀ p, c.grid.contains p = b.grid.contains p
  shown : ∀ {p}, p ∈ ps → c.particleName? p = some (names p)
  others : ∀ {p}, p ∉ ps → c.particleName? p = b.particleName? p ∧ c.writes? p = b.writes? p
  leaves : ∀ k, c.grid.field.Leaves k ↔ b.grid.field.Leaves k ∧ ∀ p ∈ ps, ¬ k.EndsAt p
  enters : ∀ k, c.grid.field.Enters k ↔ b.grid.field.Enters k ∧ ∀ p ∈ ps, ¬ k.EndsAt p

theorem Recast.refl (b : Board R γ) (names : Point → String) : b.Recast [] names b :=
  ⟨.refl _, fun _ => rfl, nofun, fun _ => ⟨rfl, rfl⟩, fun _ => by simp, fun _ => by simp⟩

theorem Recast.cons {b c d : Board R γ} {p : Point} {name : String} {ps : List Point}
    {names : Point → String} (h : b.Recast [p] (fun _ => name) c) (hp : names p = name)
    (k : c.Recast ps names d) : b.Recast (p :: ps) names d := by
  refine ⟨h.retains.trans k.retains, fun q => (k.contains q).trans (h.contains q), fun {q} hq => ?_,
    fun {q} hq => ?_, fun bond => ?_, fun bond => ?_⟩
  · by_cases hps : q ∈ ps
    · exact k.shown hps
    · obtain rfl := (List.mem_cons.mp hq).resolve_right hps
      rw [(k.others hps).1, h.shown (List.mem_singleton.mpr rfl), hp]
  · obtain ⟨hne, hps⟩ := not_or.mp (mt List.mem_cons.mpr hq)
    obtain ⟨hn, hw⟩ := h.others (mt List.mem_singleton.mp hne)
    obtain ⟨hn', hw'⟩ := k.others hps
    exact ⟨hn'.trans hn, hw'.trans hw⟩
  · rw [k.leaves, h.leaves]
    simp [and_assoc]
  · rw [k.enters, h.enters]
    simp [and_assoc]

section

variable [Scalar R]

theorem recast_of_overwrites {b c : Board R γ} (hb : b.Alike b)
    (hr : b.registry.Retains c.registry) {p : Point} (hp : b.grid.contains p = true)
    {i : ParticleId} {name : String} (hn : c.registry.name? i = some name)
    (ho : b.grid.Overwrites p i c.grid) : b.Recast [p] (fun _ => name) c := by
  refine ⟨hr, ho.contains, fun {q} hq => ?_, fun {q} hq => ?_, fun k => ?_, fun k => ?_⟩
  · obtain rfl := List.mem_singleton.mp hq
    obtain ⟨cell, hcell⟩ := Grid.get?_of_contains hp
    obtain ⟨cell', hcell', hparticle, -⟩ := ho.cell hcell
    rw [particleName?, hcell', Option.map_some, hparticle, Registry.name_of hn]
  · exact hb.same_cell hr (ho.contains q) (ho.other (mt List.mem_singleton.mpr hq))
  · rw [ho.leaves]
    simp
  · rw [ho.enters]
    simp

/-- Gives a cell the particle that is chosen for it, and counts it. -/
def setChosen (choice : Point → Option String) (s : Nat × Board R γ) (p : Point) :
    Except Fault (Nat × Board R γ) :=
  match choice p with
  | some name => (s.2.set p name).map fun t => (s.1 + 1, t.2)
  | none => .ok s

theorem paint_eq (b : Board R γ) (image : Image) :
    b.paint image = (Grid.pointsOf (min b.width image.width) (min b.height image.height)).foldlM
      (setChosen fun p => nearest? (image.pixel p.x.toNat p.y.toNat) b.palette) (0, b) := rfl

end

variable [ShareScalar R]

/-- To set a cell gives it the particle of the name, as the name is cut. -/
theorem Ready.recast_set {b : Board R γ} (h : b.Ready) {p : Point} (hp : b.grid.contains p = true)
    (name : String) : ∃ c, b.set p name = .ok (true, c) ∧
      b.Recast [p] (fun _ => Text.truncate b.registry.maxNameLen name) c := by
  obtain ⟨hknown, -⟩ := h.alike.intern name
  obtain ⟨-, hext, hn⟩ := h.alike.sound.intern name
  let known : Board R γ := { b with registry := (b.registry.intern name).2 }
  have htotal : known.registry.rules.Total := hext.rules.symm ▸ h.total
  obtain ⟨⟨touched, d⟩, hd⟩ := write_ok hknown htotal hn p
  obtain ⟨ps, hsettled⟩ := resettled_of_write (b := known) h.synced.covered hd
  have hkept : known.registry.Retains d.registry := hsettled.retains
  have hgrown := (Registry.enrolls_intern b.registry name).grows
  have hgrid : d.grid = overwritten b.grid p (b.registry.intern name).1 := by
    obtain ⟨registry, activity, rfl⟩ := write_eq_ok hd
    rfl
  have hretains : b.registry.Retains (d.drawAll touched).registry :=
    (hgrown.retains h.alike.sound.arena).trans hkept
  refine ⟨d.drawAll touched, ?_, recast_of_overwrites h.alike hretains hp (hkept.name? hn) ?_⟩
  · unfold set
    rw [hp]
    simp only [Bool.not_true, Bool.false_eq_true, if_false]
    rw [hd]
    rfl
  · have hdrawn : (d.drawAll touched).grid = d.grid := rfl
    rw [hdrawn, hgrid]
    exact Grid.overwrites_overwritten h.mirrored hp _

variable [Generator R γ]

/-- Cells that are set one after the other get the particles of their names. -/
theorem Ready.recast_foldlM {b : Board R γ} (h : b.Ready) {ps : List Point}
    (hps : ∀ p ∈ ps, b.grid.contains p = true) {choice : Point → Option String}
    {names : Point → String} (hchoice : ∀ p ∈ ps, choice p = some (names p)) (n : Nat) :
    ∃ c, ps.foldlM (setChosen choice) (n, b) = .ok (n + ps.length, c) ∧ c.Ready ∧
      b.Recast ps (fun p => Text.truncate b.registry.maxNameLen (names p)) c := by
  induction ps generalizing b n with
  | nil => exact ⟨b, rfl, h, .refl b _⟩
  | cons p ps ih =>
    obtain ⟨hp, hps⟩ := List.forall_mem_cons.mp hps
    obtain ⟨hname, hchoice⟩ := List.forall_mem_cons.mp hchoice
    obtain ⟨c, hset, hc⟩ := h.recast_set hp (names p)
    obtain ⟨d, hfold, hd, hrest⟩ := ih (h.move (.set hset))
      (fun q hq => (hc.contains q).trans (hps q hq)) hchoice (n + 1)
    rw [hc.retains.maxNameLen] at hrest
    have hstep : setChosen choice (n, b) p = .ok (n + 1, c) := by
      simp only [setChosen, hname, hset]
      rfl
    refine ⟨d, ?_, hd, hc.cons rfl hrest⟩
    rw [foldlM_cons, hstep, ok_bind, hfold, List.length_cons, Nat.add_right_comm, Nat.add_assoc]

end ParticleAutomaton.Board
