import ParticleAutomaton.Proofs.RegistryNames
import ParticleAutomaton.Proofs.Truncation

namespace ParticleAutomaton.Registry

variable {R : Type}

/-- The index lists the names of the particles, and none of them is too long. -/
structure Indexed (r : Registry R) : Prop where
  arena : r.particles.WellFormed
  index : ∀ {name id}, r.index[name]? = some id ↔ r.name? id = some name
  bounded : ∀ {id name}, r.name? id = some name → Text.truncate r.maxNameLen name = name

/-- Particles of one name are one. -/
theorem Indexed.name_inj {r : Registry R} (h : r.Indexed) {id other : ParticleId} {name : String}
    (hi : r.name? id = some name) (ho : r.name? other = some name) : id = other :=
  Option.some.inj ((h.index.mpr hi).symm.trans (h.index.mpr ho))

theorem indexed_new (rules : Rulebook R) (maxNameLen : Nat) : (new rules maxNameLen).Indexed := by
  have hn : ∀ id, (new rules maxNameLen).name? id = none :=
    fun id => Option.map_eq_none_iff.mpr (Arena.get?_empty id)
  refine ⟨Arena.wellFormed_empty, fun {name id} => ?_, fun {id name} hname => ?_⟩
  · rw [hn]
    simp [new]
  · rw [hn] at hname
    exact nomatch hname

theorem Indexed.modify {r : Registry R} (h : r.Indexed) (id : ParticleId)
    {f : Particle R → Particle R} (hf : ∀ p, (f p).name = p.name) :
    ({ r with particles := r.particles.modify id f } : Registry R).Indexed := by
  refine ⟨h.arena.modify id f, fun {name other} => ?_, fun {other name} hn => ?_⟩
  · rw [name?_modify r id hf]
    exact h.index
  · rw [name?_modify r id hf] at hn
    exact h.bounded hn

section

variable {r : Registry R} (h : r.particles.WellFormed) (name : String)

include h

theorem get?_enroll (id : ParticleId) :
    (r.enroll name).2.get? id =
      if id = (r.enroll name).1 then some (.new name (r.rules.appearance name)) else r.get? id :=
  Arena.get?_insert h _ id

/-- A new particle has never been there before. -/
theorem get?_enrolled : r.get? (r.enroll name).1 = none := by
  by_contra hne
  obtain ⟨p, hp⟩ := Option.ne_none_iff_exists'.mp hne
  have hlt := Arena.serial_lt h hp
  have hs : (r.enroll name).1.serial = r.particles.created := Arena.serial_insert ..
  omega

theorem name?_enroll (id : ParticleId) :
    (r.enroll name).2.name? id = if id = (r.enroll name).1 then some name else r.name? id := by
  rw [name?, get?_enroll h]
  split <;> rfl

theorem extends_enroll : r.Extends (r.enroll name).2 := by
  have hc : (r.enroll name).2.particles.created = r.particles.created + 1 := Arena.created_insert ..
  have hs : (r.enroll name).1.serial = r.particles.created := Arena.serial_insert ..
  refine ⟨⟨rfl, rfl, by omega, fun {id} hid => ?_⟩, fun id => ?_⟩
  · rw [name?_enroll h, if_neg]
    intro he
    rw [he] at hid
    omega
  · rw [held, get?_enroll h]
    split
    next he =>
      rw [he, held, get?_enrolled h]
      rfl
    next => rfl

end

theorem Indexed.enroll {r : Registry R} (h : r.Indexed) {name : String}
    (hn : r.index[name]? = none) (hb : Text.truncate r.maxNameLen name = name) :
    (r.enroll name).2.Indexed := by
  refine ⟨h.arena.insert _, fun {other id} => ?_, fun {id other} ho => ?_⟩
  · have hi : (r.enroll name).2.index = r.index.insert name (r.enroll name).1 := rfl
    rw [hi, Std.HashMap.getElem?_insert, name?_enroll h.arena]
    by_cases hid : id = (r.enroll name).1
    · subst hid
      have hne : r.index[other]? ≠ some (r.enroll name).1 := by
        rw [Ne, h.index, name?, get?_enrolled h.arena]
        simp
      simp [hne]
    · have hne : name = other → r.index[other]? ≠ some id := by
        rintro rfl hs
        rw [hn] at hs
        cases hs
      simp only [beq_iff_eq, hid, if_false, ← h.index]
      split
      next he => simp [Ne.symm hid, hne he]
      next => rfl
  · rw [name?_enroll h.arena] at ho
    split at ho
    next =>
      cases ho
      exact hb
    next => exact h.bounded ho

/-- A name has a particle from then on, and all others stay what they are. -/
theorem Indexed.intern {r : Registry R} (h : r.Indexed) (name : String) :
    (r.intern name).2.Indexed ∧ r.Extends (r.intern name).2 ∧
      (r.intern name).2.name? (r.intern name).1 = some (Text.truncate r.maxNameLen name) := by
  rw [intern_eq]
  split
  next id hi => exact ⟨h, .refl r, h.index.mp hi⟩
  next hi =>
    refine ⟨h.enroll hi (Text.truncate_truncate ..), extends_enroll h.arena _, ?_⟩
    rw [name?_enroll h.arena, if_pos rfl]

/-- The particle of a name is the one that is there already, or one that was not there before. -/
theorem intern_cases (r : Registry R) (name : String) :
    (r.find? name = some (r.intern name).1 ∧ (r.intern name).2 = r) ∨
      r.find? name = none ∧ r.particles.created ≤ (r.intern name).1.serial := by
  rw [find?, intern_eq]
  split
  next id hi => exact Or.inl ⟨hi, rfl⟩
  next hi => exact Or.inr ⟨hi, (Arena.serial_insert ..).ge⟩

end ParticleAutomaton.Registry
