import Mathlib.Data.List.TakeWhile
import ParticleAutomaton.Macro.Template

namespace ParticleAutomaton

namespace Text

/-- Digits and nothing else, at least one. -/
structure Digits (ds : List Char) : Prop where
  nonempty : ds ≠ []
  digits : ∀ c ∈ ds, c.isDigit = true

/-- No digit comes next. -/
def EndsDigits (rest : List Char) : Prop := ∀ c ∈ rest.head?, c.isDigit = false

/-- All digits in front of the rest, with a number that a signed word of 64 bits holds. -/
structure Number (ds : List Char) (n : Nat) (rest : List Char) : Prop extends Digits ds where
  ends : EndsDigits rest
  value : ofDigits ds = n
  fits : n ≤ maxInt64

/-- No number of a signed word of 64 bits comes next. -/
inductive NoNumber : List Char → Prop
  | absent {cs} (h : EndsDigits cs) : NoNumber cs
  | tooGreat {ds rest} (hd : Digits ds) (he : EndsDigits rest) (hv : maxInt64 < ofDigits ds) :
      NoNumber (ds ++ rest)

theorem takeWhile_digits {ds rest : List Char} (hd : ∀ c ∈ ds, c.isDigit = true)
    (he : EndsDigits rest) : (ds ++ rest).takeWhile Char.isDigit = ds := by
  rw [List.takeWhile_append_of_pos hd]
  cases rest with
  | nil => exact List.append_nil ds
  | cons c rest =>
    have hc : c.isDigit = false := he c rfl
    rw [List.takeWhile_cons, hc]
    exact List.append_nil ds

theorem dropWhile_digits {ds rest : List Char} (hd : ∀ c ∈ ds, c.isDigit = true)
    (he : EndsDigits rest) : (ds ++ rest).dropWhile Char.isDigit = rest := by
  rw [List.dropWhile_append_of_pos hd]
  cases rest with
  | nil => rfl
  | cons c rest =>
    have hc : c.isDigit = false := he c rfl
    rw [List.dropWhile_cons, hc]
    rfl

/-- Every text is its digits and what they end before. -/
theorem exists_digits (cs : List Char) :
    ∃ ds rest, cs = ds ++ rest ∧ (∀ c ∈ ds, c.isDigit = true) ∧ EndsDigits rest := by
  refine ⟨cs.takeWhile Char.isDigit, cs.dropWhile Char.isDigit,
    List.takeWhile_append_dropWhile.symm, fun c hc => List.mem_takeWhile_imp hc, ?_⟩
  intro c hc
  have hhead := List.head?_dropWhile_not Char.isDigit cs
  rw [Option.mem_def.mp hc] at hhead
  simpa using hhead

theorem number?_number {ds rest : List Char} {n : Nat} (h : Number ds n rest) :
    number? (ds ++ rest) = some (n, rest) := by
  unfold number?
  simp only [takeWhile_digits h.digits h.ends, dropWhile_digits h.digits h.ends, h.value]
  exact if_pos ⟨h.nonempty, h.fits⟩

theorem number?_noNumber {cs : List Char} (h : NoNumber cs) : number? cs = none := by
  unfold number?
  cases h with
  | absent h =>
    have hdigits : ∀ c ∈ ([] : List Char), c.isDigit = true := nofun
    have hnone : cs.takeWhile Char.isDigit = [] := takeWhile_digits hdigits h
    simp only [hnone, ne_eq, not_true_eq_false, false_and, if_false]
  | tooGreat hd he hv =>
    simp only [takeWhile_digits hd.digits he]
    exact if_neg fun h => absurd h.2 (Nat.not_le_of_lt hv)

theorem number_or_not (cs : List Char) :
    (∃ ds n rest, cs = ds ++ rest ∧ Number ds n rest) ∨ NoNumber cs := by
  obtain ⟨ds, rest, rfl, hd, he⟩ := exists_digits cs
  by_cases hne : ds = []
  · subst hne
    exact Or.inr (.absent he)
  · rcases Nat.lt_or_ge maxInt64 (ofDigits ds) with hv | hv
    · exact Or.inr (.tooGreat ⟨hne, hd⟩ he hv)
    · exact Or.inl ⟨ds, _, rest, rfl, ⟨hne, hd⟩, he, rfl, hv⟩

end Text

namespace Piece

open Text

/-- An amount and a group, `d.n`, in front of the rest; the amount is one in `n` and in `.n`. -/
inductive Operands : List Char → List Char → Nat → Nat → Prop
  | both {ds ns rest d n} (hd : Number ds d ('.' :: (ns ++ rest))) (hn : Number ns n rest) :
      Operands (ds ++ '.' :: ns) rest d n
  | point {ns rest n} (hn : Number ns n rest) : Operands ('.' :: ns) rest 1 n
  | group {ns rest n} (hn : Number ns n rest) (hp : rest.head? ≠ some '.') :
      Operands ns rest 1 n

/-- There is no group, or a point without a group after it. -/
inductive NoOperands : List Char → Prop
  | both {ds cs d} (hd : Number ds d ('.' :: cs)) (hn : NoNumber cs) : NoOperands (ds ++ '.' :: cs)
  | point {cs} (hn : NoNumber cs) : NoOperands ('.' :: cs)
  | group {cs} (hn : NoNumber cs) (hp : cs.head? ≠ some '.') : NoOperands cs

theorem endsDigits_cons {c : Char} {cs : List Char} (h : c.isDigit = false) :
    EndsDigits (c :: cs) := by
  intro d hd
  cases hd
  exact h

theorem operands?_operands {word rest : List Char} {d n : Nat} (h : Operands word rest d n) :
    operands? (word ++ rest) = some ((d, n), rest) := by
  unfold operands?
  cases h with
  | both hd hn =>
    rw [List.append_assoc, List.cons_append, number?_number hd]
    simp only [number?_number hn, Option.map_some]
  | @point ns rest n hn =>
    have hnone : number? ('.' :: (ns ++ rest)) = none :=
      number?_noNumber (.absent (endsDigits_cons rfl))
    rw [List.cons_append, hnone]
    simp only [number?_number hn, Option.map_some]
  | group hn hp =>
    rw [number?_number hn]
    cases rest with
    | nil => rfl
    | cons c rest =>
      have hc : c ≠ '.' := fun hc => hp (congrArg some hc)
      split
      next he =>
        cases he
        exact absurd rfl hc
      next he =>
        cases he
        rfl
      next he => exact nomatch he

theorem operands?_noOperands {cs : List Char} (h : NoOperands cs) : operands? cs = none := by
  unfold operands?
  cases h with
  | both hd hn =>
    rw [number?_number hd]
    simp only [number?_noNumber hn, Option.map_none]
  | @point cs hn =>
    have hnone : number? ('.' :: cs) = none := number?_noNumber (.absent (endsDigits_cons rfl))
    rw [hnone]
    simp only [number?_noNumber hn, Option.map_none]
  | group hn hp =>
    simp only [number?_noNumber hn]
    split
    next => exact absurd rfl hp
    next => rfl

theorem operands_or_not (cs : List Char) :
    (∃ word rest d n, cs = word ++ rest ∧ Operands word rest d n) ∨ NoOperands cs := by
  rcases number_or_not cs with ⟨ds, d, rest, rfl, hd⟩ | hnone
  · by_cases hp : rest.head? = some '.'
    · obtain ⟨after, rfl⟩ := List.head?_eq_some_iff.mp hp
      rcases number_or_not after with ⟨ns, n, rest, rfl, hn⟩ | hnone
      · exact Or.inl ⟨ds ++ '.' :: ns, rest, d, n, by simp, .both hd hn⟩
      · exact Or.inr (.both hd hnone)
    · exact Or.inl ⟨ds, rest, 1, d, rfl, .group hd hp⟩
  · by_cases hp : cs.head? = some '.'
    · obtain ⟨after, rfl⟩ := List.head?_eq_some_iff.mp hp
      rcases number_or_not after with ⟨ns, n, rest, rfl, hn⟩ | hnone
      · exact Or.inl ⟨'.' :: ns, rest, 1, n, rfl, .point hn⟩
      · exact Or.inr (.point hnone)
    · exact Or.inr (.group hnone hp)

/-- One to three times a letter; fewer than three only if it does not come next. -/
structure Run (letter : Char) (n : Nat) (rest : List Char) : Prop where
  pos : 0 < n
  le : n ≤ 3
  full : n = 3 ∨ rest.head? ≠ some letter

theorem exists_run (letter : Char) (cs : List Char) :
    ∃ n rest, letter :: cs = List.replicate n letter ++ rest ∧ Run letter n rest := by
  by_cases h₁ : cs.head? = some letter
  · obtain ⟨cs, rfl⟩ := List.head?_eq_some_iff.mp h₁
    by_cases h₂ : cs.head? = some letter
    · obtain ⟨cs, rfl⟩ := List.head?_eq_some_iff.mp h₂
      exact ⟨3, cs, rfl, by decide, by decide, Or.inl rfl⟩
    · exact ⟨2, cs, rfl, by decide, by decide, Or.inr h₂⟩
  · exact ⟨1, cs, rfl, by decide, by decide, Or.inr h₁⟩

theorem run_eq {letter : Char} {n : Nat} {rest : List Char} (h : Run letter n rest) :
    run letter (List.replicate n letter ++ rest) = n := by
  obtain ⟨hpos, hle, hfull⟩ := h
  unfold run
  rcases hfull with rfl | hend
  · simp
  · have hstop : ∀ k, (rest.take k).takeWhile (· == letter) = [] := by
      intro k
      cases rest with
      | nil => simp
      | cons c rest =>
        have hc : c ≠ letter := fun hc => hend (congrArg some hc)
        cases k with
        | zero => rfl
        | succ k => simp [hc]
    rw [List.take_append, List.length_replicate, List.take_of_length_le (by simpa using hle),
      List.takeWhile_append_of_pos (by simp), hstop, List.append_nil, List.length_replicate]

/-- The directives: a word after a dollar sign, the text that goes on after it, and what the word
means. Numbers and runs of letters go as far as they can. -/
inductive Directive : List Char → List Char → Piece → Prop
  | dollar (rest) : Directive ['$'] rest (.literal '$')
  | ahead (rest) : Directive ['F'] rest (.direction .ahead)
  | back (rest) : Directive ['B'] rest (.direction .back)
  | left {n rest} (h : Run 'L' n rest) :
      Directive (List.replicate n 'L') rest (.direction (.left n))
  | right {n rest} (h : Run 'R' n rest) :
      Directive (List.replicate n 'R') rest (.direction (.right n))
  | source (rest) : Directive ['S'] rest .source
  | target (rest) : Directive ['T'] rest .target
  | group {ds n rest} (h : Number ds n rest) : Directive ds rest (.group n)
  | plus {word rest d n} (h : Operands word rest d n) : Directive ('+' :: word) rest (.plus d n)
  | minus {word rest d n} (h : Operands word rest d n) : Directive ('-' :: word) rest (.minus d n)
  | modulo {ms word rest m d n} (hm : Number ms m ('+' :: (word ++ rest))) (hpos : 0 < m)
      (h : Operands word rest d n) : Directive ('%' :: (ms ++ '+' :: word)) rest (.modulo m d n)

/-- What directives other than groups start with, after the dollar sign. -/
def signs : List Char := ['$', 'F', 'B', 'L', 'R', 'S', 'T', '+', '-', '%']

/-- What may follow a dollar sign that starts no directive: nothing, a sign that no directive starts
with, a number that is too great, or an operation that lacks something. -/
inductive NoDirective : List Char → Prop
  | ending : NoDirective []
  | sign {c cs} (hc : c ∉ signs) (hd : c.isDigit = false) : NoDirective (c :: cs)
  | group {c cs} (hd : c.isDigit = true) (hn : NoNumber (c :: cs)) : NoDirective (c :: cs)
  | plus {cs} (h : NoOperands cs) : NoDirective ('+' :: cs)
  | minus {cs} (h : NoOperands cs) : NoDirective ('-' :: cs)
  | modulus {cs} (hn : NoNumber cs) : NoDirective ('%' :: cs)
  | zero {ms rest} (hm : Number ms 0 rest) : NoDirective ('%' :: (ms ++ rest))
  | addition {ms m rest} (hm : Number ms m rest) (hp : rest.head? ≠ some '+') :
      NoDirective ('%' :: (ms ++ rest))
  | amount {ms m cs} (hm : Number ms m ('+' :: cs)) (h : NoOperands cs) :
      NoDirective ('%' :: (ms ++ '+' :: cs))

theorem directive?_unsigned {c : Char} {cs : List Char} (h : c ∉ signs) :
    directive? (c :: cs) = (number? (c :: cs)).map fun (n, rest) => (.group n, rest) := by
  unfold directive?
  split <;> first | rfl | (next he => cases he; exact absurd h (by decide))

theorem not_mem_signs {c : Char} (h : c.isDigit = true) : c ∉ signs := by
  have hnone : signs.all (fun d => !d.isDigit) = true := rfl
  intro hc
  have hsign := List.all_eq_true.mp hnone c hc
  rw [h] at hsign
  exact nomatch hsign

theorem replicate_run {letter : Char} {n : Nat} {rest : List Char} (h : Run letter n rest) :
    ∃ cs, List.replicate n letter ++ rest = letter :: cs ∧ run letter (letter :: cs) = n ∧
      cs.drop (n - 1) = rest := by
  obtain ⟨k, rfl⟩ := Nat.exists_eq_succ_of_ne_zero h.pos.ne'
  refine ⟨List.replicate k letter ++ rest, rfl, run_eq h, ?_⟩
  simp

theorem directive?_directive {word rest : List Char} {p : Piece} (h : Directive word rest p) :
    directive? (word ++ rest) = some (p, rest) := by
  cases h with
  | dollar => rfl
  | ahead => rfl
  | back => rfl
  | source => rfl
  | target => rfl
  | @left n _ h =>
    obtain ⟨cs, hcs, hrun, hrest⟩ := replicate_run h
    rw [hcs]
    show some (Piece.direction (.left (run 'L' ('L' :: cs))), _) = _
    rw [hrun, hrest]
  | @right n _ h =>
    obtain ⟨cs, hcs, hrun, hrest⟩ := replicate_run h
    rw [hcs]
    show some (Piece.direction (.right (run 'R' ('R' :: cs))), _) = _
    rw [hrun, hrest]
  | group h =>
    obtain ⟨c, cs, rfl⟩ := List.exists_cons_of_ne_nil h.nonempty
    have hread := number?_number h
    rw [List.cons_append] at hread ⊢
    rw [directive?_unsigned (not_mem_signs (h.digits c (List.mem_cons_self ..))), hread]
    rfl
  | plus h => exact congrArg (Option.map _) (operands?_operands h)
  | minus h => exact congrArg (Option.map _) (operands?_operands h)
  | modulo hm hpos h =>
    rw [List.cons_append, List.append_assoc, List.cons_append]
    unfold directive?
    simp only [number?_number hm, operands?_operands h, if_neg hpos.ne', Option.map_some]

theorem directive?_noDirective {cs : List Char} (h : NoDirective cs) : directive? cs = none := by
  cases h with
  | ending => rfl
  | sign hc hd =>
    rw [directive?_unsigned hc, number?_noNumber (.absent (endsDigits_cons hd))]
    rfl
  | group hd hn =>
    rw [directive?_unsigned (not_mem_signs hd), number?_noNumber hn]
    rfl
  | plus h => exact congrArg (Option.map _) (operands?_noOperands h)
  | minus h => exact congrArg (Option.map _) (operands?_noOperands h)
  | modulus hn =>
    unfold directive?
    simp only [number?_noNumber hn]
  | zero hm =>
    unfold directive?
    simp only [number?_number hm]
    split
    next he =>
      cases he
      exact if_pos rfl
    next => rfl
  | addition hm hp =>
    unfold directive?
    simp only [number?_number hm]
    split
    next he =>
      cases he
      exact absurd rfl hp
    next => rfl
  | amount hm h =>
    unfold directive?
    simp only [number?_number hm, operands?_noOperands h, Option.map_none, ite_self]

theorem modulo_or_not (cs : List Char) :
    (∃ word rest p, '%' :: cs = word ++ rest ∧ Directive word rest p) ∨
      NoDirective ('%' :: cs) := by
  rcases number_or_not cs with ⟨ms, m, rest, rfl, hm⟩ | hnone
  · by_cases hp : rest.head? = some '+'
    · obtain ⟨after, rfl⟩ := List.head?_eq_some_iff.mp hp
      rcases Nat.eq_zero_or_pos m with rfl | hpos
      · exact Or.inr (.zero hm)
      · rcases operands_or_not after with ⟨word, rest, d, n, rfl, h⟩ | hnone
        · exact Or.inl ⟨'%' :: (ms ++ '+' :: word), rest, _, by simp, .modulo hm hpos h⟩
        · exact Or.inr (.amount hm hnone)
    · exact Or.inr (.addition hm hp)
  · exact Or.inr (.modulus hnone)

theorem directive_or_not (cs : List Char) :
    (∃ word rest p, cs = word ++ rest ∧ Directive word rest p) ∨ NoDirective cs := by
  cases cs with
  | nil => exact Or.inr .ending
  | cons c cs =>
    by_cases hsign : c ∈ signs
    · simp only [signs, List.mem_cons, List.not_mem_nil, or_false] at hsign
      rcases hsign with rfl | rfl | rfl | rfl | rfl | rfl | rfl | rfl | rfl | rfl
      · exact Or.inl ⟨['$'], cs, _, rfl, .dollar cs⟩
      · exact Or.inl ⟨['F'], cs, _, rfl, .ahead cs⟩
      · exact Or.inl ⟨['B'], cs, _, rfl, .back cs⟩
      · obtain ⟨n, rest, hcs, h⟩ := exists_run 'L' cs
        exact Or.inl ⟨_, rest, _, hcs, .left h⟩
      · obtain ⟨n, rest, hcs, h⟩ := exists_run 'R' cs
        exact Or.inl ⟨_, rest, _, hcs, .right h⟩
      · exact Or.inl ⟨['S'], cs, _, rfl, .source cs⟩
      · exact Or.inl ⟨['T'], cs, _, rfl, .target cs⟩
      · rcases operands_or_not cs with ⟨word, rest, d, n, rfl, h⟩ | hnone
        · exact Or.inl ⟨_, rest, _, rfl, .plus h⟩
        · exact Or.inr (.plus hnone)
      · rcases operands_or_not cs with ⟨word, rest, d, n, rfl, h⟩ | hnone
        · exact Or.inl ⟨_, rest, _, rfl, .minus h⟩
        · exact Or.inr (.minus hnone)
      · exact modulo_or_not cs
    · cases hd : c.isDigit with
      | false => exact Or.inr (.sign hsign hd)
      | true =>
        rcases number_or_not (c :: cs) with ⟨ds, n, rest, hcs, h⟩ | hnone
        · exact Or.inl ⟨ds, rest, _, hcs, .group h⟩
        · exact Or.inr (.group hd hnone)

/-- What follows a dollar sign starts a directive if it is one of the words of the table. -/
theorem directive?_eq_some_iff {cs rest : List Char} {p : Piece} :
    directive? cs = some (p, rest) ↔ ∃ word, cs = word ++ rest ∧ Directive word rest p := by
  constructor
  · intro h
    rcases directive_or_not cs with ⟨word, rest', p', rfl, hd⟩ | hnone
    · rw [directive?_directive hd] at h
      cases h
      exact ⟨word, rfl, hd⟩
    · rw [directive?_noDirective hnone] at h
      exact nomatch h
  · rintro ⟨word, rfl, hd⟩
    exact directive?_directive hd

theorem directive?_eq_none_iff {cs : List Char} : directive? cs = none ↔ NoDirective cs := by
  constructor
  · intro h
    rcases directive_or_not cs with ⟨word, rest, p, rfl, hd⟩ | hnone
    · rw [directive?_directive hd] at h
      exact nomatch h
    · exact hnone
  · exact directive?_noDirective

/-- A text cut from left to right into words, each with what it means. A dollar sign that starts no
directive is a word of its own. -/
inductive Cut : List Char → List (List Char × Piece) → Prop
  | nil : Cut [] []
  | char {c cs ws} (hc : c ≠ '$') (h : Cut cs ws) : Cut (c :: cs) (([c], .literal c) :: ws)
  | directive {word rest p ws} (hd : Directive word rest p) (h : Cut rest ws) :
      Cut ('$' :: (word ++ rest)) (('$' :: word, p) :: ws)
  | dollar {cs ws} (hn : NoDirective cs) (h : Cut cs ws) :
      Cut ('$' :: cs) ((['$'], .literal '$') :: ws)

/-- No character is lost or repeated. -/
theorem Cut.words {cs : List Char} {ws : List (List Char × Piece)} (h : Cut cs ws) :
    ws.flatMap Prod.fst = cs := by
  induction h with
  | nil => rfl
  | char hc h ih => rw [List.flatMap_cons, ih, List.singleton_append]
  | directive hd h ih => rw [List.flatMap_cons, ih, List.cons_append]
  | dollar hn h ih => rw [List.flatMap_cons, ih, List.singleton_append]

/-- A text is read as the pieces that its words mean. -/
theorem exists_cut (cs : List Char) : ∃ ws, Cut cs ws ∧ ofText cs = ws.map Prod.snd := by
  fun_induction ofText cs with
  | case1 => exact ⟨[], .nil, rfl⟩
  | case2 cs p rest hread ih =>
    obtain ⟨word, rfl, hd⟩ := directive?_eq_some_iff.mp hread
    obtain ⟨ws, hcut, hpieces⟩ := ih
    refine ⟨_, .directive hd hcut, ?_⟩
    rw [hpieces, List.map_cons]
  | case3 cs hread ih =>
    obtain ⟨ws, hcut, hpieces⟩ := ih
    refine ⟨_, .dollar (directive?_eq_none_iff.mp hread) hcut, ?_⟩
    rw [hpieces, List.map_cons]
  | case4 c cs hc ih =>
    obtain ⟨ws, hcut, hpieces⟩ := ih
    refine ⟨_, .char hc hcut, ?_⟩
    rw [hpieces, List.map_cons]

/-- There is one way to cut a text. -/
theorem Cut.unique {cs : List Char} {ws ws' : List (List Char × Piece)} (h : Cut cs ws)
    (h' : Cut cs ws') : ws = ws' := by
  induction h generalizing ws' with
  | nil =>
    cases h'
    rfl
  | char hc h ih =>
    cases h' with
    | char _ h' => rw [ih h']
    | directive => exact absurd rfl hc
    | dollar => exact absurd rfl hc
  | @directive word rest p ws hd h ih =>
    generalize hcs : '$' :: (word ++ rest) = cs at h'
    have hread := directive?_directive hd
    cases h' with
    | nil => exact nomatch hcs
    | char hc => exact absurd (List.cons.inj hcs).1.symm hc
    | directive hd' h' =>
      have htail := (List.cons.inj hcs).2
      have hread' := directive?_directive hd'
      rw [← htail, hread] at hread'
      cases hread'
      rw [List.append_cancel_right htail, ih h']
    | dollar hn =>
      rw [(List.cons.inj hcs).2, directive?_noDirective hn] at hread
      exact nomatch hread
  | dollar hn h ih =>
    generalize hcs : '$' :: _ = cs at h'
    have hread := directive?_noDirective hn
    cases h' with
    | nil => exact nomatch hcs
    | char hc => exact absurd (List.cons.inj hcs).1.symm hc
    | directive hd' h' =>
      rw [(List.cons.inj hcs).2, directive?_directive hd'] at hread
      exact nomatch hread
    | dollar _ h' =>
      cases hcs
      rw [ih h']

end Piece

end ParticleAutomaton
