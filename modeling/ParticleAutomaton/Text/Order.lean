namespace ParticleAutomaton.Text

/-- The order of texts by the numbers of their characters, which is that of their bytes too. -/
def charsBefore : List Char → List Char → Bool
  | _, [] => false
  | [], _ :: _ => true
  | c :: cs, d :: ds => c.toNat < d.toNat || (c.toNat == d.toNat && charsBefore cs ds)

def before (s t : String) : Bool := charsBefore s.toList t.toList

def atMost (s t : String) : Bool := !before t s

theorem charsBefore_irrefl (cs : List Char) : charsBefore cs cs = false := by
  induction cs with
  | nil => rfl
  | cons c cs ih => simp [charsBefore, ih]

theorem charsBefore_trans {as bs cs : List Char} (h₁ : charsBefore as bs = true)
    (h₂ : charsBefore bs cs = true) : charsBefore as cs = true := by
  induction as generalizing bs cs with
  | nil =>
    cases bs with
    | nil => simp [charsBefore] at h₁
    | cons b bs =>
      cases cs with
      | nil => simp [charsBefore] at h₂
      | cons c cs => rfl
  | cons a as ih =>
    cases bs with
    | nil => simp [charsBefore] at h₁
    | cons b bs =>
      cases cs with
      | nil => simp [charsBefore] at h₂
      | cons c cs =>
        simp only [charsBefore, Bool.or_eq_true, Bool.and_eq_true, decide_eq_true_eq,
          beq_iff_eq] at h₁ h₂ ⊢
        rcases h₁ with h₁ | ⟨he₁, h₁⟩
        · rcases h₂ with h₂ | ⟨he₂, -⟩
          · exact Or.inl (Nat.lt_trans h₁ h₂)
          · exact Or.inl (he₂ ▸ h₁)
        · rcases h₂ with h₂ | ⟨he₂, h₂⟩
          · exact Or.inl (he₁ ▸ h₂)
          · exact Or.inr ⟨he₁.trans he₂, ih h₁ h₂⟩

theorem charsBefore_of_not {as bs : List Char} (h : charsBefore as bs = false) (hne : as ≠ bs) :
    charsBefore bs as = true := by
  induction as generalizing bs with
  | nil =>
    cases bs with
    | nil => exact absurd rfl hne
    | cons b bs => simp [charsBefore] at h
  | cons a as ih =>
    cases bs with
    | nil => rfl
    | cons b bs =>
      simp only [charsBefore, Bool.or_eq_false_iff, Bool.and_eq_false_iff, decide_eq_false_iff_not,
        beq_eq_false_iff_ne, Nat.not_lt] at h
      simp only [charsBefore, Bool.or_eq_true, Bool.and_eq_true, decide_eq_true_eq, beq_iff_eq]
      rcases Nat.lt_or_eq_of_le h.1 with hlt | heq
      · exact Or.inl hlt
      · refine Or.inr ⟨heq, ih (h.2.resolve_left (fun hc => hc heq.symm)) ?_⟩
        intro he
        exact hne (by rw [he, Char.toNat_inj.mp heq])

theorem before_irrefl (s : String) : before s s = false := charsBefore_irrefl _

theorem before_trans {s t u : String} (h₁ : before s t = true) (h₂ : before t u = true) :
    before s u = true :=
  charsBefore_trans h₁ h₂

theorem before_of_not {s t : String} (h : before s t = false) (hne : s ≠ t) :
    before t s = true :=
  charsBefore_of_not h fun he => hne (String.toList_inj.mp he)

/-- The longest front of a text that fits a number of bytes. -/
def takeBytes : Nat → List Char → List Char
  | _, [] => []
  | n, c :: cs => if c.utf8Size ≤ n then c :: takeBytes (n - c.utf8Size) cs else []

def truncate (n : Nat) (s : String) : String := String.ofList (takeBytes n s.toList)

end ParticleAutomaton.Text
