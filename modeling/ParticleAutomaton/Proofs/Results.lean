import ParticleAutomaton.Fault

namespace ParticleAutomaton

variable {ε α β : Type}

theorem bind_eq_ok {x : Except ε α} {f : α → Except ε β} {b : β} :
    x >>= f = .ok b ↔ ∃ a, x = .ok a ∧ f a = .ok b := by
  cases x with
  | error e => simp [bind, Except.bind]
  | ok a => simp [bind, Except.bind]

theorem bind_eq_error {x : Except ε α} {f : α → Except ε β} {e : ε} :
    x >>= f = .error e ↔ x = .error e ∨ ∃ a, x = .ok a ∧ f a = .error e := by
  cases x with
  | error e => simp [bind, Except.bind]
  | ok a => simp [bind, Except.bind]

theorem map_eq_ok {x : Except ε α} {f : α → β} {b : β} :
    x.map f = .ok b ↔ ∃ a, x = .ok a ∧ f a = b := by
  cases x with
  | error e => simp [Except.map]
  | ok a => simp [Except.map]

theorem exists_map_ok {x : Except ε α} (h : ∃ a, x = .ok a) (f : α → β) :
    ∃ b, x.map f = .ok b := by
  obtain ⟨a, rfl⟩ := h
  exact ⟨f a, rfl⟩

theorem mapError_eq_ok {ε' : Type} {x : Except ε α} {f : ε → ε'} {a : α} :
    x.mapError f = .ok a ↔ x = .ok a := by
  cases x with
  | error e =>
    constructor <;> intro h <;> cases h
  | ok b =>
    constructor <;> intro h <;> cases h <;> rfl

theorem isOk_iff {x : Except ε α} : x.isOk = true ↔ ∃ a, x = .ok a := by
  cases x with
  | error e => simp [Except.isOk, Except.toBool]
  | ok a => simp [Except.isOk, Except.toBool]

theorem any_toOption {x : Except ε α} {p : α → Bool} :
    x.toOption.any p = true ↔ ∃ a, x = .ok a ∧ p a = true := by
  cases x with
  | error e => simp [Except.toOption]
  | ok a => simp [Except.toOption]

theorem ok_bind (a : α) (f : α → Except ε β) : (.ok a : Except ε α) >>= f = f a := rfl

theorem error_bind (e : ε) (f : α → Except ε β) : (.error e : Except ε α) >>= f = .error e := rfl

theorem foldlM_cons (f : β → α → Except ε β) (b : β) (a : α) (as : List α) :
    (a :: as).foldlM f b = f b a >>= fun b => as.foldlM f b := List.foldlM_cons

/-- A fold fails with the failure of one of its steps. -/
theorem exists_of_foldlM_error {f : β → α → Except ε β} {as : List α} {b : β} {e : ε}
    (h : as.foldlM f b = .error e) : ∃ a ∈ as, ∃ b, f b a = .error e := by
  induction as generalizing b with
  | nil => exact nomatch h
  | cons a as ih =>
    rw [foldlM_cons] at h
    cases hb : f b a with
    | error e' =>
      rw [hb] at h
      cases h
      exact ⟨a, List.mem_cons_self .., b, hb⟩
    | ok c =>
      rw [hb] at h
      obtain ⟨a', ha', c', hc'⟩ := ih h
      exact ⟨a', List.mem_cons_of_mem _ ha', c', hc'⟩

/-- What each step of a fold keeps, all of them keep. -/
theorem foldl_relates {r : β → β → Prop} (refl : ∀ b, r b b)
    (trans : ∀ {a b c}, r a b → r b c → r a c) {f : β → α → β} (step : ∀ b a, r b (f b a))
    (as : List α) (b : β) : r b (as.foldl f b) := by
  induction as generalizing b with
  | nil => exact refl b
  | cons a as ih => exact trans (step b a) (ih (f b a))

theorem foldlM_relates {r : β → β → Prop} (refl : ∀ b, r b b)
    (trans : ∀ {a b c}, r a b → r b c → r a c) {f : β → α → Except ε β} {as : List α}
    (step : ∀ a ∈ as, ∀ b b', f b a = .ok b' → r b b') {b b' : β} (h : as.foldlM f b = .ok b') :
    r b b' := by
  induction as generalizing b with
  | nil => exact Except.ok.inj h ▸ refl b
  | cons a as ih =>
    rw [foldlM_cons, bind_eq_ok] at h
    obtain ⟨c, hc, h⟩ := h
    have hs := step a (List.mem_cons_self ..) b c hc
    exact trans hs (ih (fun a ha => step a (List.mem_cons_of_mem _ ha)) h)

theorem mem_of_mapM {f : α → Except ε β} {as : List α} {bs : List β}
    (h : as.mapM f = .ok bs) {b : β} (hb : b ∈ bs) : ∃ a ∈ as, f a = .ok b := by
  induction as generalizing bs with
  | nil =>
    cases h
    exact nomatch hb
  | cons a as ih =>
    rw [List.mapM_cons] at h
    obtain ⟨c, hc, h⟩ := bind_eq_ok.mp h
    obtain ⟨cs, hcs, h⟩ := bind_eq_ok.mp h
    cases h
    rcases List.mem_cons.mp hb with rfl | hb
    · exact ⟨a, List.mem_cons_self .., hc⟩
    · obtain ⟨a', ha', h'⟩ := ih hcs hb
      exact ⟨a', List.mem_cons_of_mem _ ha', h'⟩

/-- A fold whose steps all succeed. -/
theorem foldlM_ok {f : β → α → Except ε β} {as : List α}
    (h : ∀ a ∈ as, ∀ b, ∃ c, f b a = .ok c) (b : β) : ∃ c, as.foldlM f b = .ok c := by
  induction as generalizing b with
  | nil => exact ⟨b, rfl⟩
  | cons a as ih =>
    obtain ⟨c, hc⟩ := h a (List.mem_cons_self ..) b
    rw [foldlM_cons, hc]
    exact ih (fun a ha => h a (List.mem_cons_of_mem _ ha)) c

/-- A fold whose steps all succeed where an invariant holds, and keep it. -/
theorem foldlM_ok_of_invariant {P : β → Prop} {f : β → α → Except ε β} {as : List α}
    (step : ∀ a ∈ as, ∀ b, P b → ∃ c, f b a = .ok c ∧ P c) {b : β} (h : P b) :
    ∃ c, as.foldlM f b = .ok c ∧ P c := by
  induction as generalizing b with
  | nil => exact ⟨b, rfl, h⟩
  | cons a as ih =>
    obtain ⟨c, hc, hP⟩ := step a (List.mem_cons_self ..) b h
    rw [foldlM_cons, hc]
    exact ih (fun a ha => step a (List.mem_cons_of_mem _ ha)) hP

theorem foldlM_ok_while {P : β → Prop} {f : β → α → Except ε β} {as : List α}
    (step : ∀ a ∈ as, ∀ b, P b → ∃ c, f b a = .ok c ∧ P c) {b : β} (h : P b) :
    ∃ c, as.foldlM f b = .ok c := by
  obtain ⟨c, hc, -⟩ := foldlM_ok_of_invariant step h
  exact ⟨c, hc⟩

end ParticleAutomaton
