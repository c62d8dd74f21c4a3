import Mathlib.Tactic.ByContra
import Mathlib.Tactic.SplitIfs
import ParticleAutomaton.Proofs.JsonLayouts
import ParticleAutomaton.Proofs.NumeralTexts

namespace ParticleAutomaton.Json

theorem skipBlank_cons {c : Char} (h : isBlank c = false) (cs : List Char) :
    skipBlank (c :: cs) = c :: cs := by
  rw [skipBlank, List.dropWhile_cons_of_neg (by simp [h])]

theorem skipBlank_skipBlank (cs : List Char) : skipBlank (skipBlank cs) = skipBlank cs := by
  unfold skipBlank
  induction cs with
  | nil => rfl
  | cons c cs ih =>
    rw [List.dropWhile_cons]
    split
    next => exact ih
    next h => rw [List.dropWhile_cons_of_neg h]

theorem skipBlank_append {bs : List Char} (h : ∀ c ∈ bs, isBlank c = true) (cs : List Char) :
    skipBlank (bs ++ cs) = skipBlank cs :=
  List.dropWhile_append_of_pos h

/-- A blank ends a numeral. -/
theorem endsNumeral_append {bs cs : List Char} (h : ∀ c ∈ bs, isBlank c = true)
    (hcs : EndsNumeral cs) : EndsNumeral (bs ++ cs) := by
  cases bs with
  | nil => exact hcs
  | cons b bs =>
    have hb := h b List.mem_cons_self
    simp only [isBlank, Bool.or_eq_true, beq_iff_eq] at hb
    rcases hb with ((rfl | rfl) | rfl) | rfl <;> exact endsNumeral_cons rfl (by decide) _

/-! Strings -/

theorem hex4?_hexChar {n : Nat} (h : n < 32) :
    hex4? '0' '0' (hexChar (n / 16)) (hexChar (n % 16)) = some n := by
  revert n
  decide

/-- Another unit in front of those that are read. -/
def withUnit (n : Nat) (read : Option (List Nat × List Char)) : Option (List Nat × List Char) :=
  read.map fun (ns, rest) => (n :: ns, rest)

theorem units?_plain {c : Char} (hquote : c ≠ '"') (hslash : c ≠ '\\') (hcontrol : ¬ c.toNat < 0x20)
    (cs : List Char) : units? (c :: cs) = withUnit c.toNat (units? cs) := by
  rw [units?]
  · rw [if_neg (by simp [hslash, hcontrol])]
    rfl
  · exact hquote
  · intro a b d e rest h
    exact absurd h hslash
  · intro d rest h
    exact absurd h hslash

theorem units?_letter {c : Char} {n : Nat} (h : unescape? c = some n) (cs : List Char) :
    units? ('\\' :: c :: cs) = withUnit n (units? cs) := by
  have hu : c ≠ 'u' := by
    rintro rfl
    exact nomatch h
  rw [units?]
  · rw [h]
    cases units? cs <;> rfl
  · intro a b d e rest hc
    exact absurd hc hu

theorem units?_code {a b c d : Char} {n : Nat} (h : hex4? a b c d = some n) (cs : List Char) :
    units? ('\\' :: 'u' :: a :: b :: c :: d :: cs) = withUnit n (units? cs) := by
  rw [units?, h]
  cases units? cs <;> rfl

/-- An escaped character is read as its code point. -/
theorem units?_escapeChar (c : Char) (cs : List Char) :
    units? (escapeChar c ++ cs) = withUnit c.toNat (units? cs) := by
  unfold escapeChar
  split_ifs with hquote hslash hn hr ht hb hf hcontrol
  · exact units?_letter (by rw [hquote]; rfl) cs
  · exact units?_letter (by rw [hslash]; rfl) cs
  · exact units?_letter (by rw [hn]; rfl) cs
  · exact units?_letter (by rw [hr]; rfl) cs
  · exact units?_letter (by rw [ht]; rfl) cs
  · exact units?_letter (by rw [hb]; rfl) cs
  · exact units?_letter (by rw [hf]; rfl) cs
  · exact units?_code (hex4?_hexChar hcontrol) cs
  · exact units?_plain hquote hslash hcontrol cs

theorem units?_quoted (cs rest : List Char) :
    units? (cs.flatMap escapeChar ++ '"' :: rest) = some (cs.map Char.toNat, rest) := by
  induction cs with
  | nil => rfl
  | cons c cs ih =>
    rw [List.flatMap_cons, List.append_assoc, units?_escapeChar, ih]
    rfl

theorem not_half (c : Char) : isHighHalf c.toNat = false ∧ isLowHalf c.toNat = false := by
  have hvalid : c.toNat < 0xD800 ∨ 0xDFFF < c.toNat ∧ c.toNat < 0x110000 := c.valid
  simp only [isHighHalf, isLowHalf, Bool.and_eq_false_iff, decide_eq_false_iff_not]
  omega

/-- No character is half of a surrogate pair, so all of them come back from their code points. -/
theorem ofUnits?_toNat (cs : List Char) : ofUnits? (cs.map Char.toNat) = some cs := by
  induction cs with
  | nil => rfl
  | cons c cs ih =>
    obtain ⟨hhigh, hlow⟩ := not_half c
    cases cs with
    | nil => simp [ofUnits?, hhigh, hlow]
    | cons d cs =>
      rw [List.map_cons] at ih
      rw [List.map_cons, List.map_cons, ofUnits?, if_neg (by simp [hhigh]), if_neg (by simp [hlow]),
        ih, Char.ofNat_toNat]
      rfl

/-- What is quoted is read as it was. -/
theorem string?_quoted (s : String) (rest : List Char) :
    string? (s.toList.flatMap escapeChar ++ '"' :: rest) = some (some s, rest) := by
  rw [string?, units?_quoted, Option.map_some]
  simp only
  rw [ofUnits?_toNat, Option.map_some, String.ofList_toList]

/-! Trees -/

/-- Blanks in front of a value make no difference. -/
theorem readValue?_congr {cs ds : List Char} (h : skipBlank cs = skipBlank ds) (fuel : Nat) :
    readValue? fuel cs = readValue? fuel ds := by
  cases fuel with
  | zero => rfl
  | succ fuel => simp only [readValue?, h]

theorem readItems?_skipBlank (fuel : Nat) (cs : List Char) :
    readItems? fuel (skipBlank cs) = readItems? fuel cs := by
  cases fuel with
  | zero => rfl
  | succ fuel => simp only [readItems?, readValue?_congr (skipBlank_skipBlank cs)]

theorem readMembers?_skipBlank (fuel : Nat) (cs : List Char) :
    readMembers? fuel (skipBlank cs) = readMembers? fuel cs := by
  cases fuel with
  | zero => rfl
  | succ fuel => simp only [readMembers?, skipBlank_skipBlank]

theorem renderText_append (s : String) (more : List Char) :
    renderText (some s) ++ more = '"' :: (s.toList.flatMap escapeChar ++ '"' :: more) := by
  simp [renderText, quote]

/-- The text of a value in any layout, whatever follows it, gives the value back; a fuel of the
length of the text is enough. -/
structure ReadsBack (v : Json) : Prop where
  starts : ∀ l level, ∃ c cs, v.print l level = c :: cs ∧ isBlank c = false ∧ c ≠ ']'
  reads : ∀ l level fuel more, (v.print l level).length ≤ fuel → EndsNumeral more →
    readValue? fuel (v.print l level ++ more) = some (v, more)

theorem readsBack_str (s : String) : ReadsBack (.str s) := by
  refine ⟨fun l level => ⟨'"', _, rfl, rfl, by decide⟩, fun l level fuel more hf _ => ?_⟩
  obtain ⟨fuel, rfl⟩ := Nat.exists_eq_add_one.mpr (Nat.lt_of_lt_of_le (Nat.succ_pos _) hf)
  rw [str, print, renderText_append, readValue?, skipBlank_cons rfl]
  simp only [string?_quoted]
  rfl

/-- What a numeral starts with, neither a blank nor another value starts with. -/
theorem ne_of_starts_numeral {c d : Char} (hc : c.isDigit = true ∨ c = '-')
    (hd : ¬ (d.isDigit = true ∨ d = '-')) : c ≠ d :=
  fun he => hd (he ▸ hc)

theorem isBlank_of_starts_numeral {c : Char} (hc : c.isDigit = true ∨ c = '-') :
    isBlank c = false := by
  by_contra hblank
  have hd : isBlank c = true := by simpa using hblank
  simp only [isBlank, Bool.or_eq_true, beq_iff_eq] at hd
  rcases hd with ((hd | hd) | hd) | hd <;> exact ne_of_starts_numeral hc (by decide) hd

theorem readValue?_numeral {fuel : Nat} {c : Char} (hc : c.isDigit = true ∨ c = '-')
    (cs : List Char) :
    readValue? (fuel + 1) (c :: cs) =
      (numeral? (c :: cs)).map fun (n, rest) => (.number n, rest) := by
  have hn : c ≠ 'n' := ne_of_starts_numeral hc (by decide)
  have ht : c ≠ 't' := ne_of_starts_numeral hc (by decide)
  have hf : c ≠ 'f' := ne_of_starts_numeral hc (by decide)
  have hquote : c ≠ '"' := ne_of_starts_numeral hc (by decide)
  have hbracket : c ≠ '[' := ne_of_starts_numeral hc (by decide)
  have hbrace : c ≠ '\x7b' := ne_of_starts_numeral hc (by decide)
  rw [readValue?, skipBlank_cons (isBlank_of_starts_numeral hc)]
  split <;> simp_all

theorem readsBack_number {n : Numeral} (h : n.WellFormed) : ReadsBack (.number n) := by
  obtain ⟨c, cs, hn, hc⟩ := exists_render h
  refine ⟨fun l level => ⟨c, cs, hn, isBlank_of_starts_numeral hc,
    ne_of_starts_numeral hc (by decide)⟩, fun l level fuel more hf hmore => ?_⟩
  rw [print] at hf ⊢
  have hpos : 0 < n.render.length := by
    rw [hn]
    exact Nat.succ_pos _
  obtain ⟨fuel, rfl⟩ := Nat.exists_eq_add_one.mpr (Nat.lt_of_lt_of_le hpos hf)
  rw [hn, List.cons_append, readValue?_numeral hc, ← List.cons_append, ← hn,
    numeral?_render h hmore]
  rfl

theorem readsBack_ofInt (n : Int) : ReadsBack (.ofInt n) := readsBack_number (wellFormed_ofInt n)

theorem readsBack_ofNat (n : Nat) : ReadsBack (.ofNat n) := readsBack_ofInt n

/-- Items and members are told apart from the end of a list. -/
theorem readValue?_bracket {fuel : Nat} {cs : List Char} (h : ∀ rest, skipBlank cs ≠ ']' :: rest) :
    readValue? (fuel + 1) ('[' :: cs) =
      (readItems? fuel cs).map fun (vs, rest) => (.array vs, rest) := by
  rw [readValue?, skipBlank_cons rfl]
  simp only [readItems?_skipBlank]

theorem readValue?_brace {fuel : Nat} {cs : List Char} (h : ∀ rest, skipBlank cs ≠ '\x7d' :: rest) :
    readValue? (fuel + 1) ('\x7b' :: cs) =
      (readMembers? fuel cs).map fun (ms, rest) => (.object ms, rest) := by
  rw [readValue?, skipBlank_cons rfl]
  simp only [readMembers?_skipBlank]

/-- Items are read up to the bracket behind them. -/
theorem readItems?_print {vs : List Json} (hne : vs ≠ []) (h : ∀ v ∈ vs, ReadsBack v) (l : Layout)
    {level outer fuel : Nat} (hf : (printItems l level vs).length < fuel) (more : List Char) :
    readItems? fuel (printItems l level vs ++ (l.gap outer ++ ']' :: more)) = some (vs, more) := by
  induction vs generalizing fuel with
  | nil => exact absurd rfl hne
  | cons v vs ih =>
    obtain ⟨hv, hvs⟩ := List.forall_mem_cons.mp h
    rw [printItems] at hf ⊢
    simp only [List.length_append] at hf
    obtain ⟨fuel, rfl⟩ := Nat.exists_eq_add_one.mpr (Nat.zero_lt_of_lt hf)
    rw [List.append_assoc, List.append_assoc, readItems?,
      readValue?_congr (skipBlank_append (l.blank_gap level) _)]
    by_cases hlast : vs = []
    · rw [if_pos hlast, List.nil_append, hv.reads l level fuel _ (by omega)
        (endsNumeral_append (l.blank_gap outer) (endsNumeral_cons rfl (by decide) _))]
      simp only [Option.bind_eq_bind, Option.bind_some, skipBlank_append (l.blank_gap outer),
        skipBlank_cons (show isBlank ']' = false from rfl), hlast]
    · rw [if_neg hlast] at hf ⊢
      rw [List.length_cons] at hf
      rw [List.cons_append, hv.reads l level fuel _ (by omega) (endsNumeral_cons rfl (by decide) _)]
      simp only [Option.bind_eq_bind, Option.bind_some,
        skipBlank_cons (show isBlank ',' = false from rfl)]
      rw [ih hlast hvs (by omega)]
      rfl

/-- Members are read up to the brace behind them. -/
theorem readMembers?_print {ms : List (String × Json)} (hne : ms ≠ [])
    (h : ∀ m ∈ ms, ReadsBack m.2) (l : Layout) {level outer fuel : Nat}
    (hf : (printMembers l level (ms.map fun m => (some m.1, m.2))).length < fuel)
    (more : List Char) :
    readMembers? fuel (printMembers l level (ms.map fun m => (some m.1, m.2)) ++
      (l.gap outer ++ '\x7d' :: more)) =
        some (ms.map fun m => (some m.1, m.2), more) := by
  induction ms generalizing fuel with
  | nil => exact absurd rfl hne
  | cons m ms ih =>
    obtain ⟨name, v⟩ := m
    obtain ⟨hv, hms⟩ := List.forall_mem_cons.mp h
    have hv : ReadsBack v := hv
    rw [List.map_cons, printMembers] at hf ⊢
    simp only [List.length_append, List.length_cons] at hf
    obtain ⟨fuel, rfl⟩ := Nat.exists_eq_add_one.mpr (Nat.zero_lt_of_lt hf)
    simp only [List.append_assoc, List.cons_append]
    rw [readMembers?, skipBlank_append (l.blank_gap level), renderText_append, skipBlank_cons rfl]
    simp only [string?_quoted, Option.bind_eq_bind, Option.bind_some,
      skipBlank_cons (show isBlank ':' = false from rfl)]
    rw [readValue?_congr (skipBlank_append l.blank_space _)]
    by_cases hlast : ms = []
    · subst hlast
      rw [List.map_nil, if_pos rfl, List.nil_append, hv.reads l level fuel _ (by omega)
        (endsNumeral_append (l.blank_gap outer) (endsNumeral_cons rfl (by decide) _))]
      simp only [Option.bind_some, skipBlank_append (l.blank_gap outer),
        skipBlank_cons (show isBlank '\x7d' = false from rfl)]
    · have hmore : ms.map (fun m => (some m.1, m.2)) ≠ [] := by simpa using hlast
      rw [if_neg hmore] at hf ⊢
      rw [List.length_cons] at hf
      rw [List.cons_append, hv.reads l level fuel _ (by omega) (endsNumeral_cons rfl (by decide) _)]
      simp only [Option.bind_some, skipBlank_cons (show isBlank ',' = false from rfl)]
      rw [ih hlast hms (by omega)]
      rfl

/-- An array reads back if its items do. -/
theorem readsBack_array {vs : List Json} (h : ∀ v ∈ vs, ReadsBack v) : ReadsBack (.array vs) := by
  cases vs with
  | nil =>
    refine ⟨fun l level => ⟨'[', _, rfl, rfl, by decide⟩, fun l level fuel more hf _ => ?_⟩
    obtain ⟨fuel, rfl⟩ := Nat.exists_eq_add_one.mpr (Nat.lt_of_lt_of_le (Nat.succ_pos _) hf)
    rfl
  | cons v vs =>
    have htext : ∀ l level more, (array (v :: vs)).print l level ++ more =
        '[' :: (printItems l (level + 1) (v :: vs) ++ (l.gap level ++ ']' :: more)) := by
      intro l level more
      simp [print]
    refine ⟨fun l level => ⟨'[', _, rfl, rfl, by decide⟩, fun l level fuel more hf _ => ?_⟩
    obtain ⟨fuel, rfl⟩ := Nat.exists_eq_add_one.mpr (Nat.lt_of_lt_of_le (Nat.succ_pos _) hf)
    have hlength : (printItems l (level + 1) (v :: vs)).length < fuel := by
      have hwhole := congrArg List.length (htext l level [])
      simp only [List.append_nil, List.length_cons, List.length_append] at hwhole
      omega
    have hstart : ∀ rest, skipBlank (printItems l (level + 1) (v :: vs) ++
        (l.gap level ++ ']' :: more)) ≠ ']' :: rest := by
      intro rest
      obtain ⟨c, cs, hc, hblank, hne⟩ := (h v List.mem_cons_self).starts l (level + 1)
      rw [printItems, List.append_assoc, skipBlank_append (l.blank_gap _), List.append_assoc, hc,
        List.cons_append, skipBlank_cons hblank]
      exact fun he => hne (List.cons.inj he).1
    rw [htext, readValue?_bracket hstart, readItems?_print (by simp) h l hlength]
    rfl

/-- An object of named members reads back if its members do. -/
theorem readsBack_record {ms : List (String × Json)} (h : ∀ m ∈ ms, ReadsBack m.2) :
    ReadsBack (.record ms) := by
  cases ms with
  | nil =>
    refine ⟨fun l level => ⟨'\x7b', _, rfl, rfl, by decide⟩, fun l level fuel more hf _ => ?_⟩
    obtain ⟨fuel, rfl⟩ := Nat.exists_eq_add_one.mpr (Nat.lt_of_lt_of_le (Nat.succ_pos _) hf)
    rfl
  | cons m ms =>
    let members := (m :: ms).map fun m => (some m.1, m.2)
    have htext : ∀ l level more, (object members).print l level ++ more =
        '\x7b' :: (printMembers l (level + 1) members ++ (l.gap level ++ '\x7d' :: more)) := by
      intro l level more
      simp [members, print]
    refine ⟨fun l level => ⟨'\x7b', _, rfl, rfl, by decide⟩, fun l level fuel more hf _ => ?_⟩
    obtain ⟨fuel, rfl⟩ := Nat.exists_eq_add_one.mpr (Nat.lt_of_lt_of_le (Nat.succ_pos _) hf)
    have hlength : (printMembers l (level + 1) members).length < fuel := by
      have hwhole := congrArg List.length (htext l level [])
      simp only [List.append_nil, List.length_cons, List.length_append] at hwhole
      have hf : ((object members).print l level).length ≤ fuel + 1 := hf
      omega
    have hstart : ∀ rest, skipBlank (printMembers l (level + 1) members ++
        (l.gap level ++ '\x7d' :: more)) ≠ '\x7d' :: rest := by
      intro rest
      rw [show members = (some m.1, m.2) :: ms.map fun m => (some m.1, m.2) from rfl,
        printMembers, List.append_assoc, skipBlank_append (l.blank_gap _), List.append_assoc,
        renderText_append, skipBlank_cons rfl]
      exact nofun
    show readValue? (fuel + 1) ((object members).print l level ++ more) = _
    rw [htext, readValue?_brace hstart, readMembers?_print (by simp) h l hlength]
    rfl

theorem ReadsBack.parse?_print {v : Json} (h : ReadsBack v) (l : Layout) :
    Json.parse? (v.print l 0) = some v := by
  have hread := h.reads l 0 (2 * (v.print l 0).length + 2) [] (by omega) endsNumeral_nil
  rw [List.append_nil] at hread
  rw [Json.parse?, hread]
  rfl

/-- A whole text of a value is parsed to the value. -/
theorem ReadsBack.parse? {v : Json} (h : ReadsBack v) : Json.parse? (v.pretty 0) = some v := by
  rw [← print_lines]
  exact h.parse?_print .lines

theorem ReadsBack.parse?_render {v : Json} (h : ReadsBack v) : Json.parse? v.render = some v := by
  rw [← print_tight 0]
  exact h.parse?_print .tight

end ParticleAutomaton.Json
