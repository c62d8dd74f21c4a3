import ParticleAutomaton.Proofs.PatternTails

namespace ParticleAutomaton.Regex.Builder

/-- A builder within one more group. -/
def raise (outer : Level) (b : Builder) : Builder := { b with levels := b.levels ++ [outer] }

variable (outer : Level) (b : Builder)

theorem nameGroup?_raise (name : List Char) :
    (b.raise outer).nameGroup? name = (b.nameGroup? name).map (raise outer) := by
  unfold nameGroup?
  split
  next c more =>
    show (if isNameStart c && more.all isNamePart && !b.names.contains (c :: more) then
      some { (b.raise outer).capture with names := (c :: more) :: b.names } else none) = _
    split <;> rfl
  next => rfl

theorem named?_raise (cs : List Char) :
    (b.raise outer).named? cs = (b.named? cs).map (Prod.map (raise outer) id) := by
  rw [named?_eq, named?_eq]
  unfold nameEnd?
  split
  next rest =>
    rw [nameGroup?_raise, Option.map_map, Option.map_map]
    rfl
  next => rfl

theorem change?_raise (cs : List Char) :
    (b.raise outer).change? cs = (b.change? cs).map (Prod.map (raise outer) id) := by
  rw [change?_eq, change?_eq, Option.map_bind]
  refine congrArg (Option.bind _) (funext fun flags => ?_)
  simp only [Function.comp_apply, changeEnd?]
  split
  next => rfl
  next => split <;> rfl
  next => rfl

theorem map_onFirst {α β : Type} (F : α → β) (c : Char) (g h : List Char → Option α)
    (cs : List Char) :
    (onFirst c g h cs).map F = onFirst c (fun cs => (g cs).map F) (fun cs => (h cs).map F) cs := by
  unfold onFirst
  split
  next d ds => split <;> rfl
  next => rfl

theorem angle?_raise :
    (b.raise outer).angle? = fun cs => (b.angle? cs).map (Prod.map (raise outer) id) := by
  unfold angle?
  simp only [map_onFirst, funext (b.named?_raise outer)]
  rfl

theorem question?_raise :
    (b.raise outer).question? = fun cs => (b.question? cs).map (Prod.map (raise outer) id) := by
  unfold question?
  simp only [map_onFirst, funext (b.named?_raise outer), funext (b.change?_raise outer),
    b.angle?_raise outer]
  rfl

theorem group?_raise (cs : List Char) :
    (b.raise outer).group? cs = (b.group? cs).map (Prod.map (raise outer) id) := by
  rw [group?_eq, group?_eq, groupFront?, groupFront?, map_onFirst, b.question?_raise outer]
  rfl

theorem repeat?_raise (q : Quantifier) :
    (b.raise outer).repeat? q = (b.repeat? q).map (raise outer) := by
  unfold repeat?
  rw [show (b.raise outer).items = b.items from rfl]
  cases b.items with
  | nil => rfl
  | cons item items =>
    dsimp only
    split <;> rfl

theorem literal_raise (c : Char) : (b.raise outer).literal c = (b.literal c).raise outer := by
  have hflags : (b.raise outer).flags = b.flags := rfl
  simp only [literal, hflags]
  split <;> split <;> rfl

theorem escape?_raise (e : Escape) :
    (b.raise outer).escape? e = (b.escape? e).map (raise outer) := by
  have hflags : (b.raise outer).flags = b.flags := rfl
  cases e with
  | char c byte =>
    simp only [escape?, hflags, literal_raise]
    split <;> rfl
  | set s negated => simp only [escape?, hflags, Option.map_map]; rfl
  | property p negated => simp only [escape?, hflags, Option.map_map]; rfl
  | textStart => rfl
  | textEnd => rfl
  | word boundary => rfl

theorem dot?_raise : (b.raise outer).dot? = b.dot?.map (raise outer) := by
  have hflags : (b.raise outer).flags = b.flags := rfl
  simp only [dot?, hflags]
  split <;> rfl

theorem leave?_raise (hb : b.levels ≠ []) :
    (b.raise outer).leave? = b.leave?.map (raise outer) := by
  obtain ⟨branches, items, flags, levels, groups, names⟩ := b
  cases levels with
  | nil => exact absurd rfl hb
  | cons level levels => rfl

/-- The outer group takes no part in a step, as long as it is not closed. -/
theorem step?_raise {c : Char} (hc : c = ')' → b.levels ≠ []) (cs : List Char) :
    (b.raise outer).step? (c :: cs) = (b.step? (c :: cs)).map (Prod.map (raise outer) id) := by
  have hflags : (b.raise outer).flags = b.flags := rfl
  by_cases hsign :
      c ∈ ['(', ')', '|', '[', '?', '*', '+', '\x7b', '\\', '.', '^', '$']
  · simp only [List.mem_cons, List.not_mem_nil, or_false] at hsign
    rcases hsign with rfl | rfl | rfl | rfl | rfl | rfl | rfl | rfl | rfl | rfl | rfl | rfl
    · exact b.group?_raise outer cs
    · simp only [step?, b.leave?_raise outer (hc rfl), Option.map_map]
      rfl
    · rfl
    · simp only [step?, Option.map_map]
      rfl
    · simp only [step?, repeat?_raise, Option.map_map]
      rfl
    · simp only [step?, repeat?_raise, Option.map_map]
      rfl
    · simp only [step?, repeat?_raise, Option.map_map]
      rfl
    · simp only [step?, repeat?_raise, hflags]
      cases quantifier? b.flags.verbose cs with
      | none => rfl
      | some z =>
        simp only [Option.bind_eq_bind, Option.bind_some, Option.map_map]
        rfl
    · simp only [step?, escape?_raise, hflags]
      cases Regex.escape? b.flags.verbose cs with
      | none => rfl
      | some z =>
        simp only [Option.bind_eq_bind, Option.bind_some, Option.map_map]
        rfl
    · simp only [step?, dot?_raise, Option.map_map]
      rfl
    · rfl
    · rfl
  · rw [step?_literal _ hsign, step?_literal _ hsign, literal_raise]
    rfl

variable {b}

theorem steps?_nil {cs : List Char} (h : skip b.flags.verbose cs = []) (n : Nat) :
    steps? n b cs = some b := by
  unfold steps?
  rw [h]

theorem steps?_cons {c : Char} {cs ds : List Char} (h : skip b.flags.verbose cs = c :: ds)
    (n : Nat) :
    steps? (n + 1) b cs = (b.step? (c :: ds)).bind fun z => steps? n z.1 z.2 := by
  rw [steps?.eq_def]
  dsimp only
  rw [h]

theorem skip_nil (v : Bool) : skip v [] = [] := by cases v <;> rfl

theorem skip_dollar (v : Bool) : skip v ['$'] = ['$'] := by cases v <;> decide +kernel

theorem steps?_dollar (n : Nat) : steps? (n + 1) b ['$'] = some b.lineEnd := by
  rw [steps?_cons (skip_dollar _)]
  exact steps?_nil (skip_nil _) n

/-- The text closes a group that it has not opened. -/
def closesOuter : Nat → Builder → List Char → Bool
  | 0, _, _ => false
  | fuel + 1, b, cs =>
    match skip b.flags.verbose cs with
    | [] => false
    | c :: cs =>
      (c == ')' && b.levels.isEmpty) ||
        (b.step? (c :: cs)).any fun z => closesOuter fuel z.1 z.2

theorem closesOuter_cons {c : Char} {cs ds : List Char} (h : skip b.flags.verbose cs = c :: ds)
    {n : Nat} (hout : closesOuter (n + 1) b cs = false) :
    (c = ')' → b.levels ≠ []) ∧
      ∀ b' rest, b.step? (c :: ds) = some (b', rest) → closesOuter n b' rest = false := by
  rw [closesOuter, h] at hout
  simp only [Bool.or_eq_false_iff, Bool.and_eq_false_iff, beq_eq_false_iff_ne,
    List.isEmpty_eq_false_iff] at hout
  obtain ⟨hclose, hrest⟩ := hout
  constructor
  · intro hc
    exact hclose.resolve_left (absurd hc)
  · intro b' rest hstep
    rw [hstep] at hrest
    exact hrest

theorem steps?_of_closesOuter {n : Nat} {cs : List Char} (h : closesOuter n b cs = true) :
    steps? n b cs = none := by
  induction n generalizing b cs with
  | zero => cases h
  | succ n ih =>
    cases hcs : skip b.flags.verbose cs with
    | nil =>
      rw [closesOuter, hcs] at h
      cases h
    | cons c ds =>
      rw [closesOuter, hcs] at h
      rw [steps?_cons hcs]
      rcases Bool.or_eq_true_iff.mp h with hclose | hrest
      · obtain ⟨hc, hb⟩ := Bool.and_eq_true_iff.mp hclose
        rw [beq_iff_eq.mp hc]
        simp [step?, leave?, List.isEmpty_iff.mp hb]
      · cases hstep : b.step? (c :: ds) with
        | none => rfl
        | some z =>
          rw [hstep] at hrest
          exact ih hrest

/-- The pattern with all its groups closed. -/
def finished? (n : Nat) (b : Builder) (cs : List Char) : Option Builder :=
  (steps? n b cs).filter fun b => b.levels.isEmpty

/-- What the ending makes of a pattern in an outer group. -/
def closed (b : Builder) : Builder :=
  let regex := outer.index.elim b.body.regex (Regex.group · b.body.regex)
  lineEnd { b with
    branches := outer.branches
    items := ⟨regex, b.body.depth + 1, false⟩ :: outer.items
    flags := outer.flags
    levels := [] }

theorem finished?_raise_end {cs : List Char} (h : skip b.flags.verbose cs = ending) {m : Nat}
    (hm : 2 ≤ m) :
    finished? m (b.raise outer) cs = if b.levels = [] then some (b.closed outer) else none := by
  obtain ⟨m, rfl⟩ := Nat.exists_eq_add_of_le' hm
  rw [finished?, steps?_cons (b := b.raise outer) h]
  obtain ⟨branches, items, flags, levels, groups, names⟩ := b
  cases levels with
  | nil =>
    simp only [step?, leave?, raise, List.nil_append, Option.map_some, Option.bind_some]
    rw [steps?_dollar]
    rfl
  | cons level levels =>
    simp only [step?, leave?, raise, List.cons_append, Option.map_some, Option.bind_some]
    rw [steps?_dollar, if_neg (List.cons_ne_nil _ _)]
    refine Option.filter_eq_none_iff.mpr ?_
    rintro b' ⟨⟩
    simp [lineEnd, push]

theorem finished?_raise_short {rest : List Char} (h : rest <:+ ['$']) {m : Nat} (hm : 1 ≤ m) :
    finished? m (b.raise outer) rest = none := by
  have hopen (b' : Builder) (hb' : b'.levels = b.levels ++ [outer]) :
      (some b').filter (fun b => b.levels.isEmpty) = none := by
    simp [hb']
  obtain ⟨m, rfl⟩ := Nat.exists_eq_add_of_le' hm
  rcases List.suffix_cons_iff.mp h with rfl | hnil
  · rw [finished?, steps?_dollar]
    exact hopen _ rfl
  · rw [List.suffix_nil.mp hnil, finished?, steps?_nil (skip_nil _)]
    exact hopen _ rfl

theorem skip_brace (v : Bool) (cs : List Char) : skip v ('\x7b' :: cs) = '\x7b' :: cs := by
  cases v with
  | false => rfl
  | true => rfl

/-- Braces that should name a boundary are no repetition. -/
theorem steps?_brace {b' : Builder} {rest : List Char} (h : b.LateStep b' rest) (m : Nat) :
    steps? m (b'.raise outer) rest = none := by
  obtain ⟨hflags, inner, rfl, hinner⟩ := h
  cases m with
  | zero =>
    rw [steps?.eq_def]
    dsimp only
    rw [skip_brace]
  | succ m =>
    have hquantifier : quantifier? b'.flags.verbose (inner ++ ending) = none :=
      quantifier?_none (hflags ▸ hinner)
    have hstep : (b'.raise outer).step? ('\x7b' :: (inner ++ ending)) = none := by
      rw [step?_raise _ _ fun hbrace => absurd hbrace (by decide)]
      simp only [step?, hquantifier]
      rfl
    rw [steps?_cons (skip_brace _ _), hstep]
    rfl

/-- How a pattern alone, with the ending and with the ending in an outer group go together. -/
def Encloses (alone longer nested : Option Builder) : Prop :=
  ∀ w, nested.filter (fun b => b.levels.isEmpty) = some w ↔
    ∃ b, alone.filter (fun b => b.levels.isEmpty) = some b ∧ longer ≠ some b ∧ b.closed outer = w

theorem encloses_none {alone longer nested : Option Builder}
    (hnested : nested.filter (fun b => b.levels.isEmpty) = none)
    (h : alone = none ∨ alone = longer) : Encloses outer alone longer nested := by
  intro w
  rw [hnested]
  constructor
  · intro hw
    cases hw
  · rintro ⟨b, hb, hlonger, -⟩
    obtain ⟨hb, -⟩ := Option.filter_eq_some_iff.mp hb
    rcases h with rfl | rfl
    · cases hb
    · exact absurd hb hlonger

theorem encloses_end {n m : Nat} {cs : List Char} (hcs : skip b.flags.verbose cs = [])
    (hm : 2 ≤ m) :
    Encloses outer (steps? n b cs) (steps? m b (cs ++ ending))
      (steps? m (b.raise outer) (cs ++ ending)) := by
  rw [steps?_nil hcs]
  -- The ending closes the outer group, unless it stands in a comment.
  rcases skip_ending b.flags.verbose cs with h | ⟨-, h⟩
  · rw [hcs, List.nil_append] at h
    intro w
    rw [show Option.filter _ _ = _ from finished?_raise_end outer h hm]
    by_cases hb : b.levels = []
    · obtain ⟨m, rfl⟩ := Nat.exists_eq_add_of_le' hm
      have hlonger : steps? (m + 2) b (cs ++ ending) = none := by
        rw [steps?_cons h]
        simp [step?, leave?, hb]
      have halone : (some b).filter (fun b => b.levels.isEmpty) = some b := by simp [hb]
      rw [if_pos hb, halone, hlonger]
      simp
    · simp [hb]
  · have hnested : steps? m (b.raise outer) (cs ++ ending) = some (b.raise outer) :=
      steps?_nil (b := b.raise outer) h m
    refine encloses_none outer ?_ (Or.inr (steps?_nil h m).symm)
    rw [hnested]
    simp [raise]

theorem encloses {n m : Nat} {cs : List Char} (hn : cs.length ≤ n)
    (hm : (cs ++ ending).length ≤ m) (hout : closesOuter n b cs = false) :
    Encloses outer (steps? n b cs) (steps? m b (cs ++ ending))
      (steps? m (b.raise outer) (cs ++ ending)) := by
  induction n generalizing b m cs with
  | zero =>
    have hcs := List.length_eq_zero_iff.mp (Nat.le_zero.mp hn)
    subst hcs
    exact encloses_end outer (skip_nil _) hm
  | succ n ih =>
    rw [List.length_append, show ending.length = 2 from rfl] at hm
    cases hcs : skip b.flags.verbose cs with
    | nil => exact encloses_end outer hcs (by omega)
    | cons c ds =>
      have hcs' : skip b.flags.verbose (cs ++ ending) = c :: (ds ++ ending) := by
        rcases skip_ending b.flags.verbose cs with h | ⟨h, -⟩
        · rw [h, hcs]
          rfl
        · cases hcs.symm.trans h
      have hlength := (skip_suffix b.flags.verbose cs).length_le
      rw [hcs, List.length_cons] at hlength
      obtain ⟨m, rfl⟩ : ∃ k, m = k + 1 := ⟨m - 1, by omega⟩
      obtain ⟨hclose, hrest⟩ := closesOuter_cons hcs hout
      rw [steps?_cons hcs, steps?_cons hcs', steps?_cons (b := b.raise outer) hcs',
        step?_raise outer b hclose]
      have hsuffix {b' : Builder} {rest : List Char} (h : b.step? (c :: ds) = some (b', rest)) :
          rest <:+ ds := (b.tails_step? c).suffix h
      have hstep := (b.tails_step? c).carries ds
      generalize b.step? (c :: ds) = o at hstep hsuffix hrest
      generalize b.step? (c :: (ds ++ ending)) = o' at hstep
      -- Where a step ends the reading of the text alone, no parenthesis is left for the group.
      cases hstep with
      | refused => exact encloses_none outer rfl (Or.inl rfl)
      | read b' rest =>
        have hshort : rest.length ≤ ds.length := (hsuffix rfl).length_le
        have hless : rest.length ≤ n := by omega
        have hmore : (rest ++ ending).length ≤ m := by
          rw [List.length_append, show ending.length = 2 from rfl]
          omega
        exact ih hless hmore (hrest b' rest rfl)
      | comment b' =>
        refine encloses_none outer (finished?_raise_short outer List.nil_suffix (by omega)) ?_
        exact Or.inr ((steps?_nil (skip_nil _) n).trans (steps?_nil (skip_nil _) m).symm)
      | across b' rest h =>
        exact encloses_none outer (finished?_raise_short outer h (by omega)) (Or.inl rfl)
      | late b' rest h =>
        refine encloses_none outer ?_ (Or.inl rfl)
        have hbrace := steps?_brace outer h m
        simp only [Option.map_some, Option.bind_some, Prod.map_fst, Prod.map_snd, id, hbrace]
        rfl

end ParticleAutomaton.Regex.Builder
