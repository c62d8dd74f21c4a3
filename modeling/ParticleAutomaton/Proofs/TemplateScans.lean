import ParticleAutomaton.Fault
import ParticleAutomaton.Proofs.Agreement
import ParticleAutomaton.Proofs.TemplateWords

namespace ParticleAutomaton

/-! Templates cut by indices into the array of their characters, with every index checked. What is
read gives the index just past it. -/

namespace Piece

variable {c : Char} {cs rest : List Char} {p : Piece}

theorem ofText_plain (h : c ≠ '$') : ofText (c :: cs) = .literal c :: ofText cs := by
  rw [ofText, if_neg h]

theorem ofText_directive (h : directive? cs = some (p, rest)) :
    ofText ('$' :: cs) = p :: ofText rest := by
  rw [ofText, if_pos rfl]
  split
  next he =>
    rw [h] at he
    cases he
    rfl
  next he =>
    rw [h] at he
    cases he

theorem ofText_no_directive (h : directive? cs = none) :
    ofText ('$' :: cs) = .literal '$' :: ofText cs := by
  rw [ofText, if_pos rfl]
  split
  next he =>
    rw [h] at he
    cases he
  next => rfl

end Piece

namespace Scan

open Text

def number? (cs : Array Char) (start : Nat) : Except Fault (Option (Nat × Nat)) := do
  let rest ← Indexed.onward cs (min start cs.size)
  let ds := rest.takeWhile Char.isDigit
  let n := ofDigits ds
  if ds ≠ [] ∧ n ≤ maxInt64 then .ok (some (n, start + ds.length)) else .ok none

def operands? (cs : Array Char) (start : Nat) : Except Fault (Option ((Nat × Nat) × Nat)) := do
  let first ← number? cs start
  let after := first.elim start fun (_, next) => next
  match cs[after]? with
  | some '.' =>
    let delta := first.elim 1 fun (d, _) => d
    let second ← number? cs (after + 1)
    .ok (second.map fun (n, next) => ((delta, n), next))
  | _ => .ok (first.map fun (n, next) => ((1, n), next))

/-- The directive that starts after a dollar sign. -/
def directive? (cs : Array Char) (start : Nat) : Except Fault (Option (Piece × Nat)) :=
  match cs[start]? with
  | none => .ok none
  | some '$' => .ok (some (.literal '$', start + 1))
  | some 'F' => .ok (some (.direction .ahead, start + 1))
  | some 'B' => .ok (some (.direction .back, start + 1))
  | some 'L' => do
    let n := Piece.run 'L' (← Indexed.onward cs start)
    .ok (some (.direction (.left n), start + n))
  | some 'R' => do
    let n := Piece.run 'R' (← Indexed.onward cs start)
    .ok (some (.direction (.right n), start + n))
  | some 'S' => .ok (some (.source, start + 1))
  | some 'T' => .ok (some (.target, start + 1))
  | some '+' => do
    let operands ← operands? cs (start + 1)
    .ok (operands.map fun ((d, n), next) => (.plus d n, next))
  | some '-' => do
    let operands ← operands? cs (start + 1)
    .ok (operands.map fun ((d, n), next) => (.minus d n, next))
  | some '%' => do
    match ← number? cs (start + 1) with
    | none => .ok none
    | some (m, next) =>
      if m = 0 then .ok none
      else
        match cs[next]? with
        | some '+' =>
          let operands ← operands? cs (next + 1)
          .ok (operands.map fun ((d, n), next) => (.modulo m d n, next))
        | _ => .ok none
  | some _ => do
    let number ← number? cs start
    .ok (number.map fun (n, next) => (.group n, next))

variable {α β : Type} {cs : Array Char} {start : Nat}

/-- What is read up to an index inside is read with the characters from there on as the rest. -/
inductive Reads (cs : Array Char) : Option (α × Nat) → Option (α × List Char) → Prop
  | nothing : Reads cs none none
  | upTo {x : α} {i : Nat} (h : i ≤ cs.size) : Reads cs (some (x, i)) (some (x, cs.toList.drop i))

theorem Reads.map {o : Option (α × Nat)} {o' : Option (α × List Char)} (h : Reads cs o o')
    (f : α → β) :
    Reads cs (o.map fun (x, next) => (f x, next)) (o'.map fun (x, rest) => (f x, rest)) := by
  cases h with
  | nothing => exact .nothing
  | upTo h => exact .upTo h

/-- What is read is turned into something else. -/
theorem exists_reads_map {x : Except Fault (Option (α × Nat))} {o' : Option (α × List Char)}
    (h : ∃ o, x = .ok o ∧ Reads cs o o') (f : α → β) :
    ∃ o, (x >>= fun o => .ok (o.map fun p => (f p.1, p.2))) = Except.ok (ε := Fault) o ∧
      Reads cs o (o'.map fun p => (f p.1, p.2)) := by
  obtain ⟨o, rfl, hr⟩ := h
  exact ⟨_, rfl, hr.map f⟩

theorem lt_size {c : Char} (h : cs[start]? = some c) : start < cs.size :=
  (Array.getElem?_eq_some_iff.mp h).1

theorem drop_eq_cons {c : Char} (h : cs[start]? = some c) :
    cs.toList.drop start = c :: cs.toList.drop (start + 1) := by
  obtain ⟨hlt, rfl⟩ := Array.getElem?_eq_some_iff.mp h
  exact List.drop_eq_getElem_cons hlt

theorem drop_ne_cons {c : Char} (h : cs[start]? ≠ some c) (rest : List Char) :
    cs.toList.drop start ≠ c :: rest := by
  intro he
  refine h ?_
  rw [← Array.getElem?_toList, ← List.head?_drop, he, List.head?_cons]

theorem dropWhile_eq_drop (p : α → Bool) (xs : List α) :
    xs.dropWhile p = xs.drop (xs.takeWhile p).length := by
  have h : (xs.takeWhile p ++ xs.dropWhile p).drop (xs.takeWhile p).length = xs.dropWhile p :=
    List.drop_left
  rw [List.takeWhile_append_dropWhile] at h
  exact h.symm

/-- The digits from an index on end inside, where the rest starts. -/
theorem reads_number (h : start ≤ cs.size) :
    ∃ o, number? cs start = .ok o ∧ Reads cs o (Text.number? (cs.toList.drop start)) := by
  unfold number? Text.number?
  rw [Nat.min_eq_left h, Indexed.onward_ok h, ok_bind]
  simp only
  split
  next =>
    refine ⟨_, rfl, ?_⟩
    rw [dropWhile_eq_drop, List.drop_drop]
    refine .upTo ?_
    have hle := (List.takeWhile_prefix Char.isDigit (l := cs.toList.drop start)).length_le
    have hsize : cs.toList.length = cs.size := Array.length_toList
    rw [List.length_drop] at hle
    omega
  next => exact ⟨_, rfl, .nothing⟩

theorem reads_operands (h : start ≤ cs.size) :
    ∃ o, operands? cs start = .ok o ∧ Reads cs o (Piece.operands? (cs.toList.drop start)) := by
  obtain ⟨first, hfirst, hreads⟩ := reads_number h
  unfold operands? Piece.operands?
  rw [hfirst, ok_bind]
  generalize Text.number? (cs.toList.drop start) = number at hreads
  cases hreads with
  | nothing =>
    simp only [Option.elim_none]
    split
    next hdot =>
      rw [drop_eq_cons hdot]
      exact exists_reads_map (reads_number (lt_size hdot)) _
    next hdot =>
      refine ⟨_, rfl, ?_⟩
      split
      next rest he => exact absurd he (drop_ne_cons hdot rest)
      next => exact .nothing
  | @upTo n next hnext =>
    simp only [Option.elim_some]
    split
    next hdot =>
      rw [drop_eq_cons hdot]
      exact exists_reads_map (reads_number (lt_size hdot)) _
    next hdot =>
      refine ⟨_, rfl, ?_⟩
      split
      next d rest he =>
        obtain ⟨-, he⟩ := Prod.mk.inj (Option.some.inj he)
        exact absurd he (drop_ne_cons hdot rest)
      next he =>
        cases he
        exact .upTo hnext
      next he => exact nomatch he

/-- A row of letters ends inside. -/
theorem reads_run {letter : Char} (h : cs[start]? = some letter) (turn : Nat → Turn) :
    ∃ o, (Indexed.onward cs start >>= fun rest =>
        .ok (some (Piece.direction (turn (Piece.run letter rest)),
          start + Piece.run letter rest))) = Except.ok (ε := Fault) o ∧
      Reads cs o (some (.direction (turn (Piece.run letter (cs.toList.drop start))),
        (cs.toList.drop (start + 1)).drop (Piece.run letter (cs.toList.drop start) - 1))) := by
  have hlt := lt_size h
  have hsize : cs.toList.length = cs.size := Array.length_toList
  rw [Indexed.onward_ok (Nat.le_of_lt hlt)]
  refine ⟨_, rfl, ?_⟩
  have hpos : 0 < Piece.run letter (cs.toList.drop start) := by
    rw [drop_eq_cons h]
    simp [Piece.run]
  have hle : Piece.run letter (cs.toList.drop start) ≤ (cs.toList.drop start).length :=
    Nat.le_trans (List.takeWhile_prefix _).length_le (List.length_take_le' _ _)
  rw [List.length_drop] at hle
  rw [List.drop_drop, Nat.add_assoc, Nat.add_sub_cancel' hpos]
  exact .upTo (by omega)

/-- A remainder needs a modulus that is not zero, and a plus sign behind it. -/
theorem reads_modulo (hc : cs[start]? = some '%') :
    ∃ o, directive? cs start = .ok o ∧ Reads cs o (Piece.directive? (cs.toList.drop start)) := by
  obtain ⟨modulus, hmodulus, hreads⟩ := reads_number (lt_size hc)
  unfold directive? Piece.directive?
  simp only [hc]
  rw [drop_eq_cons hc, hmodulus, ok_bind]
  simp only
  generalize Text.number? (cs.toList.drop (start + 1)) = number at hreads
  cases hreads with
  | nothing => exact ⟨none, rfl, .nothing⟩
  | @upTo m next hnext =>
    simp only
    by_cases hm : m = 0
    · rw [if_pos hm]
      refine ⟨none, rfl, ?_⟩
      split
      next he =>
        obtain ⟨rfl, -⟩ := Prod.mk.inj (Option.some.inj he)
        rw [if_pos hm]
        exact .nothing
      next => exact .nothing
    · rw [if_neg hm]
      split
      next hplus =>
        rw [drop_eq_cons hplus]
        simp only
        rw [if_neg hm]
        exact exists_reads_map (reads_operands (lt_size hplus)) fun p => Piece.modulo m p.1 p.2
      next hplus =>
        refine ⟨none, rfl, ?_⟩
        split
        next rest he =>
          obtain ⟨-, he⟩ := Prod.mk.inj (Option.some.inj he)
          exact absurd he (drop_ne_cons hplus rest)
        next => exact .nothing

/-- The directive after a dollar sign ends inside, and none is looked for beyond the end. -/
theorem reads_directive (h : start ≤ cs.size) :
    ∃ o, directive? cs start = .ok o ∧ Reads cs o (Piece.directive? (cs.toList.drop start)) := by
  by_cases hmodulo : cs[start]? = some '%'
  · exact reads_modulo hmodulo
  unfold directive?
  split
  next hc =>
    rw [List.drop_eq_nil_of_le (Array.getElem?_eq_none_iff.mp hc)]
    exact ⟨none, rfl, .nothing⟩
  case h_2 hc | h_3 hc | h_4 hc | h_7 hc | h_8 hc =>
    rw [drop_eq_cons hc]
    exact ⟨_, rfl, .upTo (lt_size hc)⟩
  next hc =>
    have hrun := reads_run hc .left
    rw [drop_eq_cons hc] at hrun ⊢
    exact hrun
  next hc =>
    have hrun := reads_run hc .right
    rw [drop_eq_cons hc] at hrun ⊢
    exact hrun
  next hc =>
    rw [drop_eq_cons hc]
    exact exists_reads_map (reads_operands (lt_size hc)) fun p => Piece.plus p.1 p.2
  next hc =>
    rw [drop_eq_cons hc]
    exact exists_reads_map (reads_operands (lt_size hc)) fun p => Piece.minus p.1 p.2
  next hc => exact absurd hc hmodulo
  next c _ _ _ _ _ _ _ _ _ _ hc =>
    have hsign : c ∉ Piece.signs := by
      simp only [Piece.signs, List.mem_cons, List.not_mem_nil]
      grind
    have hnumber := exists_reads_map (reads_number h) Piece.group
    rw [drop_eq_cons hc] at hnumber ⊢
    rw [Piece.directive?_unsigned hsign]
    exact hnumber

theorem lt_of_reads_directive {p : Piece} {next : Nat} (hstart : start ≤ cs.size)
    (h : directive? cs start = .ok (some (p, next))) : start < next ∧ next ≤ cs.size := by
  obtain ⟨o, ho, hreads⟩ := reads_directive hstart
  rw [h] at ho
  cases ho
  generalize hd : Piece.directive? (cs.toList.drop start) = directive at hreads
  cases hreads with
  | upTo hnext =>
    have hlength := Piece.directive?_length hd
    have hsize : cs.toList.length = cs.size := Array.length_toList
    rw [List.length_drop, List.length_drop] at hlength
    exact ⟨by omega, hnext⟩

/-- The pieces from an index on. -/
def pieces (cs : Array Char) (i : Nat) : Except Fault (List Piece) :=
  if _hi : i < cs.size then do
    let c ← Indexed.read cs i
    if c = '$' then
      match _hd : directive? cs (i + 1) with
      | .error f => .error f
      | .ok (some (p, next)) => return p :: (← pieces cs next)
      | .ok none => return .literal '$' :: (← pieces cs (i + 1))
    else return .literal c :: (← pieces cs (i + 1))
  else .ok []
termination_by cs.size - i
decreasing_by
  · have hlt := lt_of_reads_directive _hi _hd
    omega
  all_goals omega

/-- To cut by indices gives the pieces of the characters that are left. -/
theorem pieces_eq (h : start ≤ cs.size) :
    pieces cs start = .ok (Piece.ofText (cs.toList.drop start)) := by
  induction hn : cs.size - start using Nat.strong_induction_on generalizing start with
  | _ n ih =>
    unfold pieces
    split
    next hi =>
      have hc : cs[start]? = some cs[start] := Array.getElem?_eq_getElem hi
      have hnext := ih _ (by omega) hi rfl
      have hafter : start + 1 ≤ cs.size := hi
      obtain ⟨o, ho, hreads⟩ := reads_directive hafter
      rw [Indexed.read_ok hc, ok_bind, drop_eq_cons hc]
      split
      next hdollar =>
        rw [hdollar]
        split
        next he => exact nomatch ho.symm.trans he
        next p next he =>
          obtain ⟨hlt, hle⟩ := lt_of_reads_directive hi he
          obtain rfl := Except.ok.inj (ho.symm.trans he)
          generalize hd : Piece.directive? (cs.toList.drop (start + 1)) = directive at hreads
          cases hreads with
          | upTo => rw [ih _ (by omega) hle rfl, Piece.ofText_directive hd]; rfl
        next he =>
          obtain rfl := Except.ok.inj (ho.symm.trans he)
          generalize hd : Piece.directive? (cs.toList.drop (start + 1)) = directive at hreads
          cases hreads with
          | nothing => rw [hnext, Piece.ofText_no_directive hd]; rfl
      next hplain =>
        rw [hnext, Piece.ofText_plain hplain]
        rfl
    next hi =>
      have hend : cs.toList.length ≤ start := Nat.le_of_not_lt hi
      rw [List.drop_eq_nil_of_le hend, Piece.ofText]

end Scan

/-- A text with directives, cut by indices. -/
def Template.scan (text : String) : Except Fault Template :=
  (Scan.pieces text.toList.toArray 0).map fun pieces => ⟨text, pieces⟩

/-- Every text is cut without a look outside, into the pieces that it has. -/
theorem Template.scan_eq (text : String) : scan text = .ok (parse text) := by
  rw [scan, Scan.pieces_eq (Nat.zero_le _)]
  rfl

end ParticleAutomaton
