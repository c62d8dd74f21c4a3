import ParticleAutomaton.Json.Number
import ParticleAutomaton.Json.Printer
import ParticleAutomaton.Json.Reader

namespace ParticleAutomaton

/-- One digit or more. -/
def IsDigits (ds : List Char) : Prop := ds ≠ [] ∧ ∀ c ∈ ds, c.isDigit = true

theorem isDigits_toDigits (n : Nat) : IsDigits (Nat.toDigits 10 n) :=
  ⟨Nat.toDigits_ne_nil, fun _ hc => Nat.isDigit_of_mem_toDigits (by decide) (by decide) hc⟩

/-- Only zero is written with a zero in front. -/
theorem eq_zero_of_toDigits {n : Nat} {ds : List Char} (h : Nat.toDigits 10 n = '0' :: ds) :
    n = 0 := by
  induction n using Nat.strongRecOn generalizing ds with
  | ind n ih =>
    rw [Nat.toDigits_eq_if (by decide)] at h
    split at h
    next hlt =>
      have hdigit : ∀ n < 10, n.digitChar = '0' → n = 0 := by decide
      exact hdigit n hlt (List.cons.inj h).1
    next hge =>
      obtain ⟨front, hfront⟩ : ∃ front, Nat.toDigits 10 (n / 10) = '0' :: front := by
        cases hq : Nat.toDigits 10 (n / 10) with
        | nil => exact absurd hq Nat.toDigits_ne_nil
        | cons c cs =>
          rw [hq, List.cons_append] at h
          exact ⟨cs, by rw [(List.cons.inj h).1]⟩
      have hzero := ih (n / 10) (by omega) hfront
      omega

theorem toDigits_of_leading_zero {n : Nat} {ds : List Char} (h : Nat.toDigits 10 n = '0' :: ds) :
    ds = [] := by
  rw [eq_zero_of_toDigits h, Nat.toDigits_zero] at h
  exact (List.cons.inj h).2.symm

/-- A numeral as the notation allows it: there are digits, and a zero in front stands alone. -/
structure Numeral.WellFormed (n : Numeral) : Prop where
  whole : IsDigits n.whole
  zero : ∀ ds, n.whole = '0' :: ds → ds = []
  fraction : ∀ c ∈ n.fraction, c.isDigit = true
  exponent : ∀ e, n.exponent = some e → IsDigits e.2

theorem Json.wellFormed_ofInt (n : Int) :
    Numeral.WellFormed ⟨n < 0, Nat.toDigits 10 n.natAbs, [], none⟩ :=
  ⟨isDigits_toDigits _, fun _ => toDigits_of_leading_zero, nofun, nofun⟩

namespace Json

/-! Reading -/

/-- What stands behind digits does not go on with them. -/
def EndsDigits (more : List Char) : Prop := ∀ c cs, more = c :: cs → c.isDigit = false

theorem endsDigits_cons {c : Char} (h : c.isDigit = false) (cs : List Char) :
    EndsDigits (c :: cs) := by
  intro d ds he
  cases he
  exact h

/-- What stands behind a numeral does not go on with it. -/
def EndsNumeral (more : List Char) : Prop :=
  ∀ c cs, more = c :: cs → c.isDigit = false ∧ c ≠ '.' ∧ c ≠ 'e' ∧ c ≠ 'E'

theorem EndsNumeral.digits {more : List Char} (h : EndsNumeral more) : EndsDigits more :=
  fun c cs he => (h c cs he).1

theorem endsNumeral_nil : EndsNumeral [] := nofun

theorem endsNumeral_cons {c : Char} (hd : c.isDigit = false) (hc : c ≠ '.' ∧ c ≠ 'e' ∧ c ≠ 'E')
    (cs : List Char) : EndsNumeral (c :: cs) := by
  intro d ds h
  cases h
  exact ⟨hd, hc⟩

theorem digits?_append {ds more : List Char} (hds : IsDigits ds) (h : EndsDigits more) :
    digits? (ds ++ more) = some (ds, more) := by
  have hstop : more.takeWhile Char.isDigit = [] ∧ more.dropWhile Char.isDigit = more := by
    cases more with
    | nil => exact ⟨rfl, rfl⟩
    | cons c cs =>
      have hc : ¬ c.isDigit = true := by simp [h c cs rfl]
      exact ⟨List.takeWhile_cons_of_neg hc, List.dropWhile_cons_of_neg hc⟩
  have htake : (ds ++ more).takeWhile Char.isDigit = ds := by
    rw [List.takeWhile_append_of_pos hds.2, hstop.1, List.append_nil]
  have hdrop : (ds ++ more).dropWhile Char.isDigit = more := by
    rw [List.dropWhile_append_of_pos hds.2, hstop.2]
  rw [digits?, htake, hdrop, if_neg hds.1]

theorem whole?_append {ds more : List Char} (hds : IsDigits ds)
    (hzero : ∀ cs, ds = '0' :: cs → cs = []) (h : EndsDigits more) :
    whole? (ds ++ more) = some (ds, more) := by
  by_cases hfront : ∃ cs, ds = '0' :: cs
  · obtain ⟨cs, rfl⟩ := hfront
    rw [hzero cs rfl]
    rfl
  · rw [whole?]
    · exact digits?_append hds h
    · intro cs hcs
      cases ds with
      | nil => exact hds.1 rfl
      | cons d ds => exact hfront ⟨ds, congrArg (· :: ds) (List.cons.inj hcs).1⟩

theorem fraction?_append {ds more : List Char} (hds : ∀ c ∈ ds, c.isDigit = true)
    (h : EndsDigits more) (hpoint : ∀ cs, more ≠ '.' :: cs) :
    fraction? ((if ds = [] then [] else '.' :: ds) ++ more) = some (ds, more) := by
  split
  next he =>
    subst he
    rw [List.nil_append, fraction?]
    exact hpoint
  next hne => exact digits?_append ⟨hne, hds⟩ h

/-- The power of ten of a numeral. -/
def exponentText : Option (Bool × List Char) → List Char
  | none => []
  | some (down, ds) => 'e' :: (if down then '-' else '+') :: ds

theorem exponent?_append {e : Option (Bool × List Char)} {more : List Char}
    (he : ∀ x, e = some x → IsDigits x.2) (h : EndsNumeral more) :
    exponent? (exponentText e ++ more) = some (e, more) := by
  match e with
  | none =>
    cases more with
    | nil => rfl
    | cons c cs =>
      obtain ⟨-, -, hc⟩ := h c cs rfl
      rw [exponentText, List.nil_append]
      unfold exponent?
      simp only
      rw [if_neg (not_or.mpr hc)]
  | some (down, ds) =>
    have hread := digits?_append (he _ rfl) h.digits
    cases down <;> simp [exponentText, exponent?, hread]

theorem render_numeral (n : Numeral) :
    n.render = (if n.negative then ['-'] else []) ++ (n.whole ++
      ((if n.fraction = [] then [] else '.' :: n.fraction) ++ exponentText n.exponent)) := by
  rw [Numeral.render]
  simp only [List.append_assoc]
  rfl

theorem endsDigits_exponentText {e : Option (Bool × List Char)} {more : List Char}
    (h : EndsNumeral more) :
    EndsDigits (exponentText e ++ more) ∧ ∀ cs, exponentText e ++ more ≠ '.' :: cs := by
  cases e with
  | none => exact ⟨h.digits, fun cs he => (h '.' cs he).2.1 rfl⟩
  | some e => exact ⟨endsDigits_cons rfl _, fun cs he => absurd (List.cons.inj he).1 (by decide)⟩

/-- A numeral is read back from its text. -/
theorem numeral?_render {n : Numeral} (hn : n.WellFormed) {more : List Char}
    (h : EndsNumeral more) : numeral? (n.render ++ more) = some (n, more) := by
  obtain ⟨negative, whole, fraction, exponent⟩ := n
  obtain ⟨hends, hpoint⟩ := endsDigits_exponentText (e := exponent) h
  have hbehind : EndsDigits ((if fraction = [] then [] else '.' :: fraction) ++
      (exponentText exponent ++ more)) := by
    split
    next => exact hends
    next => exact endsDigits_cons rfl _
  have hwhole := whole?_append hn.whole hn.zero hbehind
  have hfraction := fraction?_append hn.fraction hends hpoint
  have hexponent := exponent?_append hn.exponent h
  rw [render_numeral]
  simp only [List.append_assoc]
  cases negative with
  | true => simp [numeral?, hwhole, hfraction, hexponent]
  | false =>
    have hplain : ∀ cs, whole ++ ((if fraction = [] then [] else '.' :: fraction) ++
        (exponentText exponent ++ more)) ≠ '-' :: cs := by
      intro cs hcs
      cases whole with
      | nil => exact hn.whole.1 rfl
      | cons d ds =>
        have hd := hn.whole.2 d List.mem_cons_self
        rw [(List.cons.inj hcs).1] at hd
        exact absurd hd (by decide)
    rw [if_neg (by decide), List.nil_append]
    unfold numeral?
    split
    next hsign =>
      split at hsign
      next cs hcs => exact absurd hcs (hplain cs)
      next =>
        cases hsign
        simp [hwhole, hfraction, hexponent]

/-- What a numeral starts with, nothing else starts with. -/
theorem exists_render {n : Numeral} (hn : n.WellFormed) :
    ∃ c cs, n.render = c :: cs ∧ (c.isDigit = true ∨ c = '-') := by
  rw [render_numeral]
  cases hw : n.whole with
  | nil => exact absurd hw hn.whole.1
  | cons d ds =>
    have hd := hn.whole.2 d (hw ▸ List.mem_cons_self)
    split
    · exact ⟨'-', _, rfl, Or.inr rfl⟩
    · exact ⟨d, _, rfl, Or.inl hd⟩

end Json

end ParticleAutomaton
