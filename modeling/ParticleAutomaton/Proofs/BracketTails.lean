import ParticleAutomaton.Proofs.SetTails

namespace ParticleAutomaton.Regex

/-- The name of a set behind its sign. -/
def signedName? (negated : Bool) (cs : List Char) : Option ((CharSet × Bool) × List Char) :=
  match cs.dropWhile (· != ':') with
  | ':' :: ']' :: rest => (namedSet? (cs.takeWhile (· != ':'))).map fun s => ((s, negated), rest)
  | _ => none

theorem setName?_caret (cs : List Char) : setName? ('^' :: cs) = signedName? true cs := rfl

theorem setName?_plain {cs : List Char} (hcs : ∀ ds, cs = '^' :: ds → False) :
    setName? cs = signedName? false cs := by
  unfold setName?
  split
  next he =>
    split at he
    next ds => exact (hcs ds rfl).elim
    next => cases he; rfl

theorem signedName?_ending (negated : Bool) (cs : List Char) :
    signedName? negated (cs ++ ending) =
      (signedName? negated cs).map fun z => (z.1, z.2 ++ ending) := by
  unfold signedName?
  cases hdrop : cs.dropWhile (· != ':') with
  | nil =>
    rw [List.dropWhile_append, hdrop]
    rfl
  | cons d ds =>
    rw [takeWhile_append_of_ne_nil (by simp [hdrop]), List.dropWhile_append, hdrop]
    simp only [List.isEmpty_cons, Bool.false_eq_true, if_false]
    by_cases hclose : ∃ rest, d :: ds = ':' :: ']' :: rest
    · obtain ⟨rest, hrest⟩ := hclose
      simp only [hrest, List.cons_append, Option.map_map]
      rfl
    · split
      next rest hrest =>
        cases ds with
        | nil => cases hrest
        | cons e ds =>
          have hd : d = ':' := (List.cons.inj hrest).1
          have he : e = ']' := (List.cons.inj (List.cons.inj hrest).2).1
          exact (hclose ⟨ds, by rw [hd, he]⟩).elim
      next =>
        split
        next rest hrest => exact (hclose ⟨rest, hrest⟩).elim
        next => rfl

theorem signedName?_suffix {negated : Bool} {cs rest : List Char} {x : CharSet × Bool}
    (h : signedName? negated cs = some (x, rest)) : rest <:+ cs := by
  unfold signedName? at h
  split at h
  next left hleft =>
    obtain ⟨s, -, hs⟩ := Option.map_eq_some_iff.mp h
    cases hs
    have hdrop := List.dropWhile_suffix (l := cs) (· != ':')
    rw [hleft] at hdrop
    exact ((List.suffix_cons ..).trans (List.suffix_cons ..)).trans hdrop
  next => cases h

theorem setName?_ending (cs : List Char) :
    setName? (cs ++ ending) = (setName? cs).map fun z => (z.1, z.2 ++ ending) := by
  by_cases hcs : ∃ ds, cs = '^' :: ds
  · obtain ⟨ds, rfl⟩ := hcs
    rw [List.cons_append, setName?_caret, setName?_caret]
    exact signedName?_ending true ds
  · have hne (ds : List Char) (hds : cs = '^' :: ds) : False := hcs ⟨ds, hds⟩
    rw [setName?_plain hne, setName?_plain (append_ending_ne (by decide) hne)]
    exact signedName?_ending false cs

theorem setName?_suffix {cs rest : List Char} {x : CharSet × Bool}
    (h : setName? cs = some (x, rest)) : rest <:+ cs := by
  by_cases hcs : ∃ ds, cs = '^' :: ds
  · obtain ⟨ds, rfl⟩ := hcs
    rw [setName?_caret] at h
    exact (signedName?_suffix h).trans (List.suffix_cons ..)
  · rw [setName?_plain fun ds hds => hcs ⟨ds, hds⟩] at h
    exact signedName?_suffix h

/-- A set with a name, of which the bracket and the colon are read. -/
def namedStep? (f : Flags) (stack : List SetFrame) (items : List SetNode) (z : CharSet × Bool) :
    Option SetStep :=
  (f.negateIf? z.2 (f.fold z.1)).map fun set => .more stack (⟨set, 0⟩ :: items)

def openStep? (f : Flags) (stack : List SetFrame) (items : List SetNode) (cs : List Char) :
    Option (SetStep × List Char) :=
  (bracketFront? f.verbose cs).map fun z => (.more (.bracket items z.1.1 :: stack) z.1.2, z.2)

def nameIn? : List Char → Option ((CharSet × Bool) × List Char)
  | ':' :: cs => setName? cs
  | _ => none

theorem nameIn?_ending (cs : List Char) :
    nameIn? (cs ++ ending) = (nameIn? cs).map fun z => (z.1, z.2 ++ ending) := by
  by_cases hcs : ∃ ds, cs = ':' :: ds
  · obtain ⟨ds, rfl⟩ := hcs
    exact setName?_ending ds
  · have hnone (ds : List Char) (hds : ∀ es, ds = ':' :: es → False) : nameIn? ds = none := by
      simp only [nameIn?]
    have hne (ds : List Char) (hds : cs = ':' :: ds) : False := hcs ⟨ds, hds⟩
    rw [hnone cs hne, hnone _ (append_ending_ne (by decide) hne)]
    rfl

theorem nameIn?_suffix {cs rest : List Char} {x : CharSet × Bool}
    (h : nameIn? cs = some (x, rest)) : rest <:+ cs := by
  unfold nameIn? at h
  split at h
  next ds => exact (setName?_suffix h).trans (List.suffix_cons ..)
  next => cases h

section

variable (f : Flags) (stack : List SetFrame) (items : List SetNode)

theorem inner?_named {cs : List Char} {z : (CharSet × Bool) × List Char}
    (h : nameIn? cs = some z) :
    inner? f stack items cs = (namedStep? f stack items z.1).map (·, z.2) := by
  unfold inner?
  dsimp only
  split
  next hname =>
    cases h.symm.trans (show nameIn? cs = _ from hname)
    rw [namedStep?, Option.map_map]
    rfl
  next hname => cases h.symm.trans (show nameIn? cs = _ from hname)

theorem inner?_open {cs : List Char} (h : nameIn? cs = none) :
    inner? f stack items cs = openStep? f stack items cs := by
  unfold inner?
  dsimp only
  split
  next hname => cases h.symm.trans (show nameIn? cs = _ from hname)
  next => rw [openBracket?_eq, openStep?, Option.map_map]; rfl

theorem tails_openStep? : Tails AtEnding (openStep? f stack items) :=
  (tails_bracketFront? f.verbose).map (fun x => SetStep.more (.bracket items x.1 :: stack) x.2)
    fun _ _ h => h

theorem tails_inner? : Tails AtEnding (inner? f stack items) where
  carries cs := by
    have hname := nameIn?_ending cs
    cases h : nameIn? cs with
    | none =>
      rw [h] at hname
      rw [inner?_open f stack items h, inner?_open f stack items hname]
      exact (tails_openStep? f stack items).carries cs
    | some z =>
      rw [h] at hname
      rw [inner?_named f stack items h, inner?_named f stack items hname]
      exact (Tails.gives (namedStep? f stack items z.1)).carries z.2
  suffix {cs x rest} hcs := by
    cases h : nameIn? cs with
    | none =>
      rw [inner?_open f stack items h] at hcs
      exact (tails_openStep? f stack items).suffix hcs
    | some z =>
      rw [inner?_named f stack items h] at hcs
      obtain ⟨y, -, hy⟩ := Option.map_eq_some_iff.mp hcs
      cases hy
      exact nameIn?_suffix h

theorem tails_rangeStep? (c : Char) : Tails AtEnding fun cs =>
    (setRange? f (c :: cs)).map fun z => (SetStep.more stack (z.1 :: items), z.2) :=
  (tails_setRange?_cons f c).map (fun item => SetStep.more stack (item :: items)) fun _ _ h => h

theorem setStep?_plain {c : Char} (hopen : c ≠ '[') (hclose : c ≠ ']') {cs : List Char}
    (htwice : c ∈ ['&', '-', '~'] → ∀ ds, cs = c :: ds → False) :
    setStep? f stack items (c :: cs) =
      (setRange? f (c :: cs)).map fun z => (SetStep.more stack (z.1 :: items), z.2) := by
  unfold setStep?
  split
  next hcs => exact absurd (List.cons.inj hcs).1 hopen
  next hcs => exact absurd (List.cons.inj hcs).1 hclose
  next ds hcs => cases hcs; exact (htwice (by simp) ds rfl).elim
  next ds hcs => cases hcs; exact (htwice (by simp) ds rfl).elim
  next ds hcs => cases hcs; exact (htwice (by simp) ds rfl).elim
  next => rfl

theorem setStep?_twice {c : Char} (hc : c ∈ ['&', '-', '~']) :
    ∃ op, ∀ cs, setStep? f stack items (c :: c :: cs) =
      some (setStep?.operator f stack items op, cs) := by
  simp only [List.mem_cons, List.not_mem_nil, or_false] at hc
  rcases hc with rfl | rfl | rfl
  · exact ⟨.inter, fun _ => rfl⟩
  · exact ⟨.diff, fun _ => rfl⟩
  · exact ⟨.symmDiff, fun _ => rfl⟩

theorem tails_setStep?_cons (c : Char) :
    Tails AtEnding fun cs => setStep? f stack items (c :: cs) := by
  by_cases hopen : c = '['
  · subst hopen
    exact tails_inner? f stack items
  by_cases hclose : c = ']'
  · subst hclose
    exact .gives (close? f stack items)
  by_cases hc : c ∈ ['&', '-', '~']
  · obtain ⟨op, hop⟩ := setStep?_twice f stack items hc
    refine Tails.onChar c ?_ (.takes (setStep?.operator f stack items op))
      (tails_rangeStep? f stack items c) hop
      fun cs hcs => setStep?_plain f stack items hopen hclose fun _ => hcs
    rintro rfl
    revert hc
    decide
  · have hplain (cs : List Char) : setStep? f stack items (c :: cs) =
        (setRange? f (c :: cs)).map fun z => (SetStep.more stack (z.1 :: items), z.2) :=
      setStep?_plain f stack items hopen hclose fun h => absurd h hc
    rw [funext hplain]
    exact tails_rangeStep? f stack items c

/-- Only a closing bracket finishes a set. -/
theorem close_of_setStep?_done {c : Char} {cs rest : List Char} {s : SetNode}
    (h : setStep? f stack items (c :: cs) = some (.done s, rest)) : c = ']' := by
  unfold setStep? at h
  split at h
  next ds hcs =>
    cases hname : nameIn? ds with
    | none =>
      rw [inner?_open f stack items hname] at h
      obtain ⟨x, -, hx⟩ := Option.map_eq_some_iff.mp h
      cases hx
    | some z =>
      rw [inner?_named f stack items hname, namedStep?, Option.map_map] at h
      obtain ⟨x, -, hx⟩ := Option.map_eq_some_iff.mp h
      cases hx
  next hcs => exact (List.cons.inj hcs).1
  next => cases h
  next => cases h
  next => cases h
  next =>
    obtain ⟨x, -, hx⟩ := Option.map_eq_some_iff.mp h
    cases hx

theorem more_of_setStep?_none {c : Char} {cs cs' rest : List Char} {step : SetStep}
    (hnone : setStep? f stack items (c :: cs) = none)
    (hsome : setStep? f stack items (c :: cs') = some (step, rest)) (s : SetNode) :
    step ≠ .done s := by
  rintro rfl
  cases close_of_setStep?_done f stack items hsome
  have hclose : close? f stack items = none := Option.map_eq_none_iff.mp hnone
  have hsome : (close? f stack items).map (·, cs') = some (.done s, rest) := hsome
  rw [hclose] at hsome
  cases hsome

/-- A step behind blanks. -/
def nextStep? (cs : List Char) : Option (SetStep × List Char) :=
  (skip? f.verbose cs).bind (setStep? f stack items)

theorem tails_nextStep? : Tails AtEnding (nextStep? f stack items) :=
  (Tails.ofCons (tails_setStep?_cons f stack items) rfl).skip?
    (fun h => Or.inl ((tails_setStep?_cons f stack items ')').suffix h)) f.verbose

theorem nextStep?_eq_some {cs rest : List Char} {step : SetStep}
    (h : nextStep? f stack items cs = some (step, rest)) :
    ∃ c ds, c :: ds <:+ cs ∧ rest <:+ ds ∧ (∀ s, step = .done s → c = ']') := by
  obtain ⟨ds, hds, hstep⟩ := Option.bind_eq_some_iff.mp h
  cases ds with
  | nil => exact absurd rfl (skip?_eq_some.mp hds).2
  | cons c ds =>
    refine ⟨c, ds, skip?_suffix hds, (tails_setStep?_cons f stack items c).suffix hstep, ?_⟩
    rintro s rfl
    exact close_of_setStep?_done f stack items hstep

/-- The ending finishes no set. -/
theorem more_of_nextStep?_none {cs rest : List Char} {step : SetStep}
    (hnone : nextStep? f stack items cs = none)
    (hsome : nextStep? f stack items (cs ++ ending) = some (step, rest)) (s : SetNode) :
    step ≠ .done s := by
  unfold nextStep? at hnone hsome
  rcases skip?_ending f.verbose cs with ⟨c, ds, hds, hds'⟩ | ⟨-, hds' | hds'⟩
  · rw [hds] at hnone
    rw [hds'] at hsome
    exact more_of_setStep?_none f stack items hnone hsome s
  · rw [hds', Option.bind_some] at hsome
    rintro rfl
    have hclose : ')' = ']' := close_of_setStep?_done f stack items hsome
    exact absurd hclose (by decide)
  · rw [hds'] at hsome
    cases hsome

/-- What is done behind a step inside of a set. -/
def afterStep? (n : Nat) (step : SetStep) (rest : List Char) : Option (SetNode × List Char) :=
  match step with
  | .done s => some (s, rest)
  | .more stack items => setSteps? f n stack items rest

theorem setSteps?_succ (n : Nat) (cs : List Char) :
    setSteps? f (n + 1) stack items cs =
      (nextStep? f stack items cs).bind fun z => afterStep? f n z.1 z.2 :=
  (Option.bind_assoc ..).symm

/-- A set is finished by a closing bracket. -/
theorem close_mem_of_setSteps? {n : Nat} {stack : List SetFrame} {items : List SetNode}
    {cs : List Char} {z : SetNode × List Char} (h : setSteps? f n stack items cs = some z) :
    ']' ∈ cs := by
  induction n generalizing stack items cs with
  | zero => cases h
  | succ n ih =>
    rw [setSteps?_succ] at h
    obtain ⟨⟨step, rest⟩, hstep, h⟩ := Option.bind_eq_some_iff.mp h
    obtain ⟨c, ds, hcs, hrest, hclose⟩ := nextStep?_eq_some f stack items hstep
    refine hcs.subset ?_
    cases step with
    | done s =>
      rw [hclose s rfl]
      exact List.mem_cons_self
    | more stack' items' => exact List.mem_cons_of_mem c (hrest.subset (ih h))

theorem setSteps?_ending (n : Nat) (stack : List SetFrame) (items : List SetNode)
    {rest : List Char} (h : rest <:+ ending) : setSteps? f n stack items rest = none := by
  cases hz : setSteps? f n stack items rest with
  | none => rfl
  | some z => exact absurd (h.subset (close_mem_of_setSteps? f hz)) (by decide)

theorem setSteps?_suffix {n : Nat} {stack : List SetFrame} {items : List SetNode}
    {cs rest : List Char} {s : SetNode} (h : setSteps? f n stack items cs = some (s, rest)) :
    rest <:+ cs := by
  induction n generalizing stack items cs with
  | zero => cases h
  | succ n ih =>
    rw [setSteps?_succ] at h
    obtain ⟨⟨step, left⟩, hstep, h⟩ := Option.bind_eq_some_iff.mp h
    have hleft := (tails_nextStep? f stack items).suffix hstep
    cases step with
    | done s =>
      cases h
      exact hleft
    | more stack' items' => exact (ih h).trans hleft

theorem carries_setSteps? {n m : Nat} {stack : List SetFrame} {items : List SetNode}
    {cs : List Char} (hn : cs.length ≤ n) (hm : cs.length < m) :
    Carries NeverLate (setSteps? f n stack items cs)
      (setSteps? f m stack items (cs ++ ending)) := by
  induction n generalizing m stack items cs with
  | zero =>
    rw [List.length_eq_zero_iff.mp (Nat.le_zero.mp hn), List.nil_append,
      setSteps?_ending f m stack items List.suffix_rfl]
    exact .refused
  | succ n ih =>
    obtain ⟨m, rfl⟩ := Nat.exists_eq_succ_of_ne_zero (Nat.ne_zero_of_lt hm)
    rw [setSteps?_succ, setSteps?_succ]
    refine ((tails_nextStep? f stack items).carries cs).bind (fun step rest hstep => ?_)
      (fun step => ?_) fun step rest hnone hsome hrest => ?_
    · obtain ⟨c, ds, hcs, hrest, -⟩ := nextStep?_eq_some f stack items hstep
      have hcs := hcs.length_le
      have hrest := hrest.length_le
      rw [List.length_cons] at hcs
      cases step with
      | done s => exact .read s rest
      | more stack' items' => exact ih (by omega) (by omega)
    · cases step with
      | done s => exact .comment s
      | more stack' items' =>
        have hnil (k : Nat) := setSteps?_ending f k stack' items' List.nil_suffix
        simp only [afterStep?, hnil]
        exact .refused
    · cases step with
      | done s => exact absurd rfl (more_of_nextStep?_none f stack items hnone hsome s)
      | more stack' items' => exact setSteps?_ending f m stack' items' hrest

end

theorem bracket?_eq (f : Flags) (cs : List Char) :
    bracket? f cs = (bracketFront? f.verbose cs).bind fun z =>
      setSteps? f (cs.length + 1) [.bracket [] z.1.1] z.1.2 z.2 := by
  unfold bracket?
  rw [openBracket?_eq]
  exact Option.bind_map ..

theorem tails_bracket? (f : Flags) : Tails NeverLate (bracket? f) where
  carries cs := by
    let steps (n : Nat) (x : Bool × List SetNode) (rest : List Char) :=
      setSteps? f n [.bracket [] x.1] x.2 rest
    have hending (n : Nat) (x : Bool × List SetNode) {rest : List Char} (h : rest <:+ ending) :
        steps n x rest = none := setSteps?_ending f n _ _ h
    rw [bracket?_eq, bracket?_eq]
    refine ((tails_bracketFront? f.verbose).carries cs).bind (g := steps (cs.length + 1))
      (fun x rest hfront => ?_) (fun x => ?_) fun x rest _ _ hrest => hending _ x hrest
    · have hrest := ((tails_bracketFront? f.verbose).suffix hfront).length_le
      have hmore : cs.length ≤ (cs ++ ending).length := by simp
      exact carries_setSteps? f (by omega) (by omega)
    · rw [hending _ x List.nil_suffix]
      exact (hending _ x List.nil_suffix).symm ▸ .refused
  suffix {cs x rest} h := by
    rw [bracket?_eq] at h
    obtain ⟨z, hz, h⟩ := Option.bind_eq_some_iff.mp h
    exact (setSteps?_suffix f h).trans ((tails_bracketFront? f.verbose).suffix hz)

end ParticleAutomaton.Regex
