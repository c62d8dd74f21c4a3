import ParticleAutomaton.Proofs.Events
import ParticleAutomaton.Proofs.Memory

namespace ParticleAutomaton

namespace Grid

/-- The particles of all cells, row by row. -/
def particles (g : Grid) : List ParticleId := g.cells.toList.map (·.particle)

theorem particles_eq (g : Grid) : g.particles = (g.states.toList.map Prod.fst) := by
  simp [particles, states, Function.comp_def]

theorem SameStates.particles {g h : Grid} (e : SameStates g h) : h.particles = g.particles := by
  rw [particles_eq, particles_eq, e.states]

theorem getElem?_particles (g : Grid) (i : Nat) :
    g.particles[i]? = (g.cells[i]?).map (·.particle) := by
  simp [particles]

theorem particle_mem {g : Grid} {p : Point} {c : Cell} (h : g.get? p = some c) :
    c.particle ∈ g.particles := by
  obtain ⟨i, hi⟩ := Option.isSome_iff_exists.mp (contains_of_get? h)
  rw [get?_of_index? hi] at h
  exact List.mem_of_getElem? (i := i) (by rw [getElem?_particles, h]; rfl)

/-- A write takes one cell from the old particle to the new one. -/
theorem count_put {g : Grid} {p : Point} {c : Cell} (h : g.get? p = some c) (new id : ParticleId) :
    (g.put p new).particles.count id + (if id = c.particle then 1 else 0) =
      g.particles.count id + (if id = new then 1 else 0) := by
  obtain ⟨i, hi⟩ := Option.isSome_iff_exists.mp (contains_of_get? h)
  rw [get?_of_index? hi] at h
  have hl : i < g.particles.length := by simpa [particles] using index?_lt hi
  have hset : (g.put p new).particles = g.particles.set i new := by
    refine List.ext_getElem? fun j => ?_
    have hcells : (g.put p new).cells = g.cells.modify i fun c =>
        { c with particle := new, writes := c.writes + 1 } := by simp [put, modify, hi]
    rw [getElem?_particles, hcells, Array.getElem?_modify, List.getElem?_set, getElem?_particles]
    by_cases hij : i = j
    · subst hij
      simp [h, hl]
    · simp [hij]
  have hold : g.particles[i] = c.particle := by
    have hg : g.particles[i]? = some c.particle := by
      rw [getElem?_particles, h]
      rfl
    exact (List.getElem?_eq_some_iff.mp hg).2
  have hpos : id = c.particle → 1 ≤ g.particles.count id := by
    rintro rfl
    exact List.count_pos_iff.mpr (hold ▸ List.getElem_mem hl)
  rw [hset, List.count_set hl, hold]
  simp only [beq_iff_eq, eq_comm (a := c.particle), eq_comm (a := new)]
  split
  next ho =>
    have := hpos ho
    omega
  next => omega

end Grid

namespace Registry

variable {R : Type}

/-- One cell changes from a particle to another one. -/
def exchange (r : Registry R) (old new : ParticleId) : Except Fault (Registry R) :=
  if old ≠ new then (r.dropCount old).map (·.addCount new) else .ok r

theorem keeps_addCount (r : Registry R) (id : ParticleId) : r.Keeps (r.addCount id) :=
  keeps_modify id fun _ => rfl

theorem held_addCount {r : Registry R} {new : ParticleId} {name : String}
    (hn : r.name? new = some name) (id : ParticleId) :
    (r.addCount new).held id = r.held id + (if id = new then 1 else 0) := by
  obtain ⟨p, hp, -⟩ := get?_of_name? hn
  rw [addCount, held_modify]
  split
  next he => simp [he, held, hp]
  next => rfl

theorem dropCount_eq {r : Registry R} {old : ParticleId} (h : 0 < r.held old) :
    r.dropCount old = .ok
      { r with particles := r.particles.modify old fun p => { p with count := p.count - 1 } } := by
  unfold dropCount
  unfold held at h
  split
  next hn =>
    rw [hn] at h
    exact absurd h (Nat.lt_irrefl 0)
  next p hp =>
    rw [hp] at h
    exact if_neg (Nat.ne_of_gt h)

theorem held_dropped {r : Registry R} {old : ParticleId} (h : 0 < r.held old) (id : ParticleId) :
    ({ r with particles := r.particles.modify old fun p => { p with count := p.count - 1 } } :
      Registry R).held id + (if id = old then 1 else 0) = r.held id := by
  rw [held_modify]
  split
  next he =>
    subst he
    unfold held at h ⊢
    cases hp : r.get? id with
    | none => simp [hp] at h
    | some p =>
      simp only [hp, Option.map_some, Option.getD_some] at h ⊢
      omega
  next => rfl

/-- What a new count of a particle keeps, an exchange keeps. -/
theorem exchange_relates {q : Registry R → Registry R → Prop} (refl : ∀ r, q r r)
    (trans : ∀ {r s t}, q r s → q s t → q r t)
    (recount : ∀ (r : Registry R) (id : ParticleId) (f : Nat → Nat),
      q r { r with particles := r.particles.modify id fun p => { p with count := f p.count } })
    {r s : Registry R} {old new : ParticleId} (h : r.exchange old new = .ok s) : q r s := by
  unfold exchange at h
  split at h
  next =>
    obtain ⟨t, ht, rfl⟩ := map_eq_ok.mp h
    refine trans ?_ (recount t new (· + 1))
    unfold dropCount at ht
    split at ht
    next =>
      cases ht
      exact refl r
    next =>
      split at ht
      next => exact nomatch ht
      next =>
        cases ht
        exact recount r old (· - 1)
  next =>
    cases h
    exact refl r

variable [Scalar R]

/-- Counts are nothing that the rules say. -/
theorem Sound.recount {r : Registry R} (h : r.Sound) (id : ParticleId) (f : Nat → Nat) :
    ({ r with particles := r.particles.modify id fun p => { p with count := f p.count } } :
      Registry R).Sound := by
  refine h.modify (fun _ => rfl) fun p hp => ?_
  have hf := h.fits hp
  exact ⟨hf.bounded, hf.appearance, hf.sources, hf.transforms, hf.energies⟩

/-- A particle that a cell holds can be exchanged for another one. -/
theorem Sound.exchange {r : Registry R} (h : r.Sound) {old new : ParticleId} {name : String}
    (hn : r.name? new = some name) (hold : 0 < r.held old) :
    ∃ s, r.exchange old new = .ok s ∧ s.Sound ∧ r.Keeps s ∧ ∀ id,
      s.held id + (if id = old then 1 else 0) = r.held id + (if id = new then 1 else 0) := by
  unfold Registry.exchange
  split
  next hne =>
    rw [dropCount_eq hold]
    have hk := keeps_modify (r := r) old (f := fun p => { p with count := p.count - 1 })
      fun _ => rfl
    have hn' := h.name?_of_keeps hk hn
    refine ⟨_, rfl, (h.recount old (· - 1)).recount new (· + 1), hk.trans (keeps_addCount _ new),
      fun id => ?_⟩
    rw [held_addCount hn', ← held_dropped hold id]
    omega
  next he =>
    rw [not_not.mp he]
    exact ⟨r, rfl, h, .refl r, fun _ => rfl⟩

end Registry

theorem UpdateEvent.write_eq {R : Type} (touched : List Point) (x : Grid × Registry R) (p : Point)
    (old new : ParticleId) :
    UpdateEvent.write (touched, x) p old new =
      if x.1.contains p then (x.2.exchange old new).map fun r => (touched ++ [p], x.1.put p new, r)
      else .ok (touched, x) := by
  obtain ⟨g, r⟩ := x
  unfold UpdateEvent.write Registry.exchange
  simp only
  cases g.contains p with
  | false => rfl
  | true =>
    simp only [Bool.not_true, Bool.false_eq_true, if_false, if_true]
    split
    · cases (r.dropCount old).map (·.addCount new) <;> rfl
    · rfl

end ParticleAutomaton
