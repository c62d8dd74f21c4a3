import ParticleAutomaton.Text.Order

namespace ParticleAutomaton

/-- Values under names, in the order of the names. -/
structure NameMap (α : Type) where
  entries : List (String × α)
  sorted : entries.Pairwise fun a b => Text.before a.1 b.1 = true
  deriving DecidableEq

namespace NameMap

variable {α : Type}

def empty : NameMap α := ⟨[], .nil⟩

instance : Inhabited (NameMap α) := ⟨empty⟩

def isEmpty (m : NameMap α) : Bool := m.entries.isEmpty

def get? (m : NameMap α) (name : String) : Option α := m.entries.lookup name

/-- The value takes the place of one under the same name. -/
def insertEntry (name : String) (v : α) : List (String × α) → List (String × α)
  | [] => [(name, v)]
  | (n, w) :: rest =>
    if n = name then (name, v) :: rest
    else if Text.before name n then (name, v) :: (n, w) :: rest
    else (n, w) :: insertEntry name v rest

theorem mem_insertEntry {name : String} {v : α} {es : List (String × α)} {e : String × α}
    (h : e ∈ insertEntry name v es) : e = (name, v) ∨ e ∈ es := by
  induction es with
  | nil => simpa [insertEntry] using h
  | cons p rest ih =>
    obtain ⟨n, w⟩ := p
    unfold insertEntry at h
    split at h
    next =>
      simp only [List.mem_cons] at h ⊢
      exact h.imp_right Or.inr
    next =>
      split at h
      next => simpa only [List.mem_cons] using h
      next =>
        rcases List.mem_cons.mp h with h | h
        · exact Or.inr (List.mem_cons.mpr (Or.inl h))
        · exact (ih h).imp_right (List.mem_cons_of_mem _)

theorem sorted_insertEntry {name : String} {v : α} {es : List (String × α)}
    (h : es.Pairwise fun a b => Text.before a.1 b.1 = true) :
    (insertEntry name v es).Pairwise fun a b => Text.before a.1 b.1 = true := by
  induction es with
  | nil => simp [insertEntry]
  | cons p rest ih =>
    obtain ⟨n, w⟩ := p
    obtain ⟨hn, hr⟩ := List.pairwise_cons.mp h
    unfold insertEntry
    split
    next he => exact List.pairwise_cons.mpr ⟨fun e hm => he ▸ hn e hm, hr⟩
    next hne =>
      split
      next hb =>
        refine List.pairwise_cons.mpr ⟨fun e hm => ?_, h⟩
        rcases List.mem_cons.mp hm with hm | hm
        · exact hm ▸ hb
        · exact Text.before_trans hb (hn e hm)
      next hb =>
        refine List.pairwise_cons.mpr ⟨fun e hm => ?_, ih hr⟩
        rcases mem_insertEntry hm with hm | hm
        · exact hm ▸ Text.before_of_not (Bool.eq_false_iff.mpr hb) (Ne.symm hne)
        · exact hn e hm

def insert (m : NameMap α) (name : String) (v : α) : NameMap α :=
  ⟨insertEntry name v m.entries, sorted_insertEntry m.sorted⟩

def erase (m : NameMap α) (name : String) : NameMap α :=
  ⟨m.entries.filter fun e => e.1 ≠ name, m.sorted.filter _⟩

/-- Of several values under one name the last one counts. -/
def ofList (entries : List (String × α)) : NameMap α :=
  entries.foldl (fun m (name, v) => m.insert name v) empty

end NameMap

end ParticleAutomaton
