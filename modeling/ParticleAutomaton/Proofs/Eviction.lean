import ParticleAutomaton.Proofs.Registry

namespace ParticleAutomaton.Registry

variable {R : Type}

/-- A flush keeps the particles that cells hold. -/
theorem get?_flush (r : Registry R) (id : ParticleId) :
    r.flush.2.get? id = (r.get? id).bind fun p => if p.count = 0 then none else some p.flush := by
  unfold flush get?
  rw [Arena.get?_retain, Arena.get?_mapAll]
  cases r.particles.get? id with
  | none => rfl
  | some p =>
    simp only [Option.map_some, Option.filter_some, Option.bind_some, Particle.flush]
    split
    next h => simpa using h
    next h => simpa using h

theorem held_flush (r : Registry R) (id : ParticleId) : r.flush.2.held id = r.held id := by
  unfold held
  rw [get?_flush]
  cases r.get? id with
  | none => rfl
  | some p =>
    rw [Option.bind_some]
    split
    next hc => simp [hc]
    next => rfl

theorem name?_flush_eq_some_iff {r : Registry R} {id : ParticleId} {name : String} :
    r.flush.2.name? id = some name ↔ r.name? id = some name ∧ 0 < r.held id := by
  unfold name? held
  rw [get?_flush]
  cases r.get? id with
  | none => simp
  | some p =>
    rw [Option.bind_some]
    split
    next hc => simp [hc]
    next hc => simp [Particle.flush, Nat.pos_iff_ne_zero, hc]

theorem getElem?_foldl_erase {gone : List (ParticleId × Particle R)}
    {index : Std.HashMap String ParticleId} {name : String} {id : ParticleId} :
    (gone.foldl (fun index e => index.erase e.2.name) index)[name]? = some id ↔
      index[name]? = some id ∧ ∀ e ∈ gone, e.2.name ≠ name := by
  induction gone generalizing index with
  | nil => simp
  | cons e gone ih =>
    rw [List.foldl_cons, ih, Std.HashMap.getElem?_erase]
    by_cases hn : e.2.name = name
    · simp [hn]
    · simp [hn]

theorem Indexed.flush {r : Registry R} (h : r.Indexed) : r.flush.2.Indexed := by
  refine ⟨(h.arena.mapAll Particle.flush).retain fun p => p.count ≠ 0, fun {name id} => ?_,
    fun {id name} hn => h.bounded (name?_flush_eq_some_iff.mp hn).1⟩
  have hi : r.flush.2.index[name]? = some id ↔ r.index[name]? = some id ∧
      ∀ e ∈ r.particles.toList.filter fun e => e.2.count = 0, e.2.name ≠ name :=
    getElem?_foldl_erase
  rw [hi, h.index, name?_flush_eq_some_iff]
  refine and_congr_right fun hn => ?_
  obtain ⟨p, hp, hpn⟩ := get?_of_name? hn
  have hheld : r.held id = p.count := by simp [held, hp]
  rw [hheld, Nat.pos_iff_ne_zero]
  constructor
  · intro hgone hc
    exact hgone (id, p) (List.mem_filter.mpr ⟨Arena.mem_toList.mpr hp, by simpa using hc⟩) hpn
  · rintro hc ⟨other, q⟩ hq hqn
    obtain ⟨hq, hz⟩ := List.mem_filter.mp hq
    have hq := Arena.mem_toList.mp hq
    have he := h.name_inj hn (hqn ▸ name?_of_get? hq)
    subst he
    cases hp.symm.trans hq
    exact hc (by simpa using hz)

theorem Sound.flush [Scalar R] {r : Registry R} (h : r.Sound) : r.flush.2.Sound := by
  have hi := h.indexed.flush
  refine ⟨hi.arena, hi.index, fun {id p} hp => ?_⟩
  rw [get?_flush] at hp
  obtain ⟨q, hq, hp⟩ := Option.bind_eq_some_iff.mp hp
  have hf := h.fits hq
  split at hp
  next => cases hp
  next =>
    cases hp
    refine ⟨hf.bounded, hf.appearance, fun hs => ?_, fun ht => ?_, fun he => ?_⟩
    · cases hs
    · simp [Particle.flush] at ht
    · simp [Particle.flush] at he

end ParticleAutomaton.Registry
