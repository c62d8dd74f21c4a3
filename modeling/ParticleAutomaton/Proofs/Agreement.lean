import ParticleAutomaton.Proofs.Results

namespace ParticleAutomaton

variable {α β α' β' ι : Type}

/-- A failure that is not that of a count. -/
def Fault.SparesCounts (f : Fault) : Prop := ∀ name, f ≠ .countUnderflow name

/-- Two results are the same failure, not that of a count, or values that are related. -/
inductive Agree (r : α → β → Prop) : Except Fault α → Except Fault β → Prop
  | ok {a : α} {b : β} (h : r a b) : Agree r (.ok a) (.ok b)
  | error {f : Fault} (hf : f.SparesCounts) : Agree r (.error f) (.error f)

namespace Agree

variable {r : α → β → Prop} {s : α' → β' → Prop} {x : Except Fault α} {y : Except Fault β}

theorem bind {f : α → Except Fault α'} {g : β → Except Fault β'} (h : Agree r x y)
    (hfg : ∀ a b, r a b → Agree s (f a) (g b)) : Agree s (x >>= f) (y >>= g) := by
  cases h with
  | ok h => exact hfg _ _ h
  | error spares => exact .error spares

theorem bind_same {r : α → α' → Prop} {z : Except Fault β} {f : β → Except Fault α}
    {g : β → Except Fault α'} (hz : ∀ e, z = .error e → e.SparesCounts)
    (hfg : ∀ b, Agree r (f b) (g b)) : Agree r (z >>= f) (z >>= g) := by
  cases z with
  | ok b => exact hfg b
  | error e => exact .error (hz e rfl)

theorem bind_left {q : α' → β → Prop} {f : α → Except Fault α'} (h : Agree r x y)
    (hf : ∀ a b, r a b → y = .ok b → ∃ c, f a = .ok c ∧ q c b) : Agree q (x >>= f) y := by
  cases h with
  | ok h =>
    obtain ⟨c, hc, hq⟩ := hf _ _ h rfl
    rw [ok_bind, hc]
    exact .ok hq
  | error spares => exact .error spares

theorem map {f : α → α'} {g : β → β'} (h : Agree r x y) (hfg : ∀ a b, r a b → s (f a) (g b)) :
    Agree s (x.map f) (y.map g) := by
  cases h with
  | ok h => exact .ok (hfg _ _ h)
  | error spares => exact .error spares

theorem mono {r' : α → β → Prop} (h : Agree r x y) (hr : ∀ a b, r a b → r' a b) :
    Agree r' x y := by
  cases h with
  | ok h => exact .ok (hr _ _ h)
  | error spares => exact .error spares

/-- Related values are those of the results. -/
theorem attach (h : Agree r x y) : Agree (fun a b => x = .ok a ∧ y = .ok b ∧ r a b) x y := by
  cases h with
  | ok h => exact .ok ⟨rfl, rfl, h⟩
  | error spares => exact .error spares

theorem symm (h : Agree r x y) : Agree (fun b a => r a b) y x := by
  cases h with
  | ok h => exact .ok h
  | error spares => exact .error spares

/-- Two results that both agree with a third one agree. -/
theorem trans {γ : Type} {q : β → γ → Prop} {z : Except Fault γ} (h : Agree r x y) (k : Agree q y z) :
    Agree (fun a c => ∃ b, r a b ∧ q b c) x z := by
  cases h with
  | ok h =>
    cases k with
    | ok k => exact .ok ⟨_, h, k⟩
  | error spares =>
    cases k
    exact .error spares

theorem foldlM {f : α → ι → Except Fault α} {g : β → ι → Except Fault β} {is : List ι} {a : α} {b : β}
    (h : r a b) (hfg : ∀ i ∈ is, ∀ a b, r a b → Agree r (f a i) (g b i)) :
    Agree r (is.foldlM f a) (is.foldlM g b) := by
  induction is generalizing a b with
  | nil => exact .ok h
  | cons i is ih =>
    rw [foldlM_cons, foldlM_cons]
    exact (hfg i (List.mem_cons_self ..) a b h).bind fun a b hr =>
      ih hr fun i hi => hfg i (List.mem_cons_of_mem _ hi)

theorem self {r : α → α → Prop} {x : Except Fault α} {a : α} (h : Agree r x x) (hx : x = .ok a) :
    r a a := by
  subst hx
  cases h with
  | ok h => exact h

theorem eq_ok {b : β} (h : Agree r x (.ok b)) : ∃ a, x = .ok a ∧ r a b := by
  cases h with
  | ok h => exact ⟨_, rfl, h⟩

theorem eq_error {e : Fault} (h : Agree r x (.error e)) : x = .error e := by
  cases h with
  | error spares => rfl

theorem spares {e : Fault} (h : Agree r x y) (hx : x = .error e) : e.SparesCounts := by
  subst hx
  cases h with
  | error spares => exact spares

end Agree

end ParticleAutomaton
