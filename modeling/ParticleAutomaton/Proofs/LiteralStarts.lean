import ParticleAutomaton.Proofs.WholeNames
import ParticleAutomaton.Rules.Match

namespace ParticleAutomaton.Regex

/-- One of the repetitions in front lets the part before them be left out. -/
inductive AllowsNone : List Char → Prop
  | optional (cs : List Char) : AllowsNone ('?' :: cs)
  | any (cs : List Char) : AllowsNone ('*' :: cs)
  | more {cs : List Char} (h : AllowsNone (greed cs).2) : AllowsNone ('+' :: cs)
  | counted {q : Quantifier} {cs rest : List Char} (hq : quantifier? false cs = some (q, rest))
      (hmin : q.min = 0) : AllowsNone ('\x7b' :: cs)
  | moreCounted {q : Quantifier} {cs rest : List Char}
      (hq : quantifier? false cs = some (q, rest)) (h : AllowsNone rest) : AllowsNone ('\x7b' :: cs)

theorem exists_of_leads_repeated {e : Regex} {min : Nat} {max : Option Nat} {greedy : Bool}
    (hmin : min ≠ 0) {x y : Cursor} (h : (e.repeated min max greedy).Leads x y) :
    ∃ z, e.Leads x z := by
  unfold repeated at h
  generalize hbounds : (if e.readsNothing = true then
    (Nat.min min 1, some ((max.map (Nat.min · 1)).getD 1)) else (min, max)) = bounds at h
  have hne : bounds.1 ≠ 0 := by
    rw [← hbounds]
    split
    · show min ⊓ 1 ≠ 0
      omega
    · exact hmin
  simp only at h
  rw [if_neg fun hzero => hne hzero.1] at h
  split at h
  next => exact ⟨y, h⟩
  next =>
    obtain ⟨k, -, h⟩ := h
    obtain ⟨n, hn⟩ : ∃ n, bounds.1 + k = n + 1 := ⟨bounds.1 + k - 1, by omega⟩
    rw [hn] at h
    obtain ⟨z, hz, -⟩ := h
    exact ⟨z, hz⟩

theorem leads_ofItems (items : List Node) :
    (Node.ofItems items).regex.Leads = LeadsAll (items.reverse.map Node.regex) := by
  unfold Node.ofItems
  split
  next => rfl
  next item => exact (leadsAll_singleton item.regex).symm
  next => rw [leads_sequence, List.map_reverse]

/-- Items, the last one first, that stand only at places of a kind and read a text first of all. -/
def Begins (first : Cursor → Prop) (p : List Char) (items : List Node) : Prop :=
  ∀ x y, LeadsAll (items.reverse.map Node.regex) x y → first x ∧ p <+: x.rest

section

variable {first : Cursor → Prop} {p : List Char} {item : Node} {items : List Node}

theorem leadsAll_cons (item : Node) (items : List Node) :
    LeadsAll ((item :: items).reverse.map Node.regex) =
      Relation.Comp (LeadsAll (items.reverse.map Node.regex)) item.regex.Leads := by
  rw [List.reverse_cons, List.map_append, leadsAll_append, List.map_singleton, leadsAll_singleton]

theorem Begins.cons (h : Begins first p items) (item : Node) : Begins first p (item :: items) := by
  intro x y hxy
  rw [leadsAll_cons] at hxy
  obtain ⟨z, hz, -⟩ := hxy
  exact h x z hz

/-- To repeat the last item makes no difference if it is not left out. -/
theorem Begins.repeated (h : Begins first p (item :: items)) {min : Nat} (hmin : min ≠ 0)
    (max : Option Nat) (greedy : Bool) (depth : Nat) :
    Begins first p (⟨item.regex.repeated min max greedy, depth, false⟩ :: items) := by
  intro x y hxy
  rw [leadsAll_cons] at hxy
  obtain ⟨z, hz, hrepeated⟩ := hxy
  obtain ⟨y', hy'⟩ := exists_of_leads_repeated hmin hrepeated
  refine h x y' ?_
  rw [leadsAll_cons]
  exact ⟨z, hz, hy'⟩

end

namespace Builder

variable {b b' : Builder}

/-- An item is put behind the others. -/
def Adds (b b' : Builder) : Prop := ∃ item flags, b' = { b with items := item :: b.items, flags }

/-- A group is opened. -/
def Opens (b b' : Builder) : Prop :=
  ∃ index flags groups names, b' = { b.enter index flags with groups, names }

theorem adds_push (regex : Regex) (depth : Nat) : b.Adds (b.push regex depth) := ⟨_, _, rfl⟩

theorem adds_literal (c : Char) : b.Adds (b.literal c) := by
  unfold literal
  generalize (if b.flags.ascii = true then c.isAlpha else Unicode.hasCase c) = hasCase
  dsimp only
  split
  · exact adds_push ..
  · exact adds_push ..

theorem adds_dot? (h : b.dot? = some b') : b.Adds b' := by
  unfold dot? at h
  obtain ⟨-, h⟩ := Option.ite_none_left_eq_some.mp h
  cases h
  exact adds_push ..

theorem adds_escape? {e : Escape} (h : b.escape? e = some b') : b.Adds b' := by
  unfold escape? at h
  split at h
  · obtain ⟨-, h⟩ := Option.ite_none_left_eq_some.mp h
    cases h
    exact adds_literal _
  · cases h
    exact adds_push ..
  · cases h
    exact adds_push ..
  · cases h
    exact adds_push ..
  · obtain ⟨s, -, rfl⟩ := Option.map_eq_some_iff.mp h
    exact adds_push ..

theorem opens_capture : b.Opens b.capture := ⟨_, _, _, _, rfl⟩

theorem opens_named? {cs rest : List Char} (h : b.named? cs = some (b', rest)) : b.Opens b' := by
  rw [named?_eq] at h
  unfold nameEnd? nameGroup? at h
  split at h
  next =>
    split at h
    next =>
      obtain ⟨z, hz, he⟩ := Option.map_eq_some_iff.mp h
      obtain ⟨-, hz⟩ := Option.ite_none_right_eq_some.mp hz
      cases hz
      cases he
      exact ⟨_, _, _, _, rfl⟩
    next => exact nomatch h
  next => exact nomatch h

theorem change?_cases {cs rest : List Char} (h : b.change? cs = some (b', rest)) :
    b.Adds b' ∨ b.Opens b' := by
  rw [change?_eq] at h
  obtain ⟨flags, -, h⟩ := Option.bind_eq_some_iff.mp h
  unfold changeEnd? at h
  split at h
  next =>
    cases h
    exact Or.inr ⟨_, _, _, _, rfl⟩
  next =>
    obtain ⟨-, h⟩ := Option.ite_none_left_eq_some.mp h
    cases h
    exact Or.inl ⟨_, _, rfl⟩
  next => exact nomatch h

theorem group?_cases {cs rest : List Char} (h : b.group? cs = some (b', rest)) :
    b.Adds b' ∨ b.Opens b' := by
  unfold group? at h
  split at h
  next => exact nomatch h
  next => exact nomatch h
  next => exact nomatch h
  next => exact nomatch h
  next => exact Or.inr (opens_named? h)
  next => exact Or.inr (opens_named? h)
  next => exact change?_cases h
  next =>
    cases h
    exact Or.inr opens_capture

/-- What a step makes of a builder. -/
inductive Moves (b : Builder) (c : Char) (cs : List Char) (b' : Builder) (rest : List Char) : Prop
  | adds (h : b.Adds b')
  | opens (h : b.Opens b')
  | leaves (hc : c = ')') (h : b.leave? = some b')
  | bars (hc : c = '|') (h : b' = b.bar)
  | repeats {q : Quantifier} (h : b.repeat? q = some b')
      (hnone : b.flags.verbose = false → q.min = 0 ∨ AllowsNone rest → AllowsNone (c :: cs))

theorem moves_step? {c : Char} {cs rest : List Char}
    (h : b.step? (c :: cs) = some (b', rest)) : b.Moves c cs b' rest := by
  by_cases hsign :
      c ∈ ['(', ')', '|', '[', '?', '*', '+', '\x7b', '\\', '.', '^', '$']
  · simp only [List.mem_cons, List.not_mem_nil, or_false] at hsign
    rcases hsign with rfl | rfl | rfl | rfl | rfl | rfl | rfl | rfl | rfl | rfl | rfl | rfl
    · rcases group?_cases h with hadds | hopens
      · exact .adds hadds
      · exact .opens hopens
    · obtain ⟨z, hz, he⟩ := Option.map_eq_some_iff.mp h
      cases he
      exact .leaves rfl hz
    · cases h
      exact .bars rfl rfl
    · obtain ⟨z, -, he⟩ := Option.map_eq_some_iff.mp h
      cases he
      exact .adds (adds_push ..)
    · obtain ⟨z, hz, he⟩ := Option.map_eq_some_iff.mp h
      cases he
      exact .repeats hz fun _ _ => .optional cs
    · obtain ⟨z, hz, he⟩ := Option.map_eq_some_iff.mp h
      cases he
      exact .repeats hz fun _ _ => .any cs
    · obtain ⟨z, hz, he⟩ := Option.map_eq_some_iff.mp h
      cases he
      exact .repeats hz fun _ hnone => .more (hnone.resolve_left Nat.one_ne_zero)
    · obtain ⟨⟨q, left⟩, hq, h⟩ := Option.bind_eq_some_iff.mp h
      obtain ⟨z, hz, he⟩ := Option.map_eq_some_iff.mp h
      cases he
      refine .repeats hz fun hverbose hnone => ?_
      rw [hverbose] at hq
      rcases hnone with hmin | hnone
      · exact .counted hq hmin
      · exact .moreCounted hq hnone
    · obtain ⟨⟨e, left⟩, -, h⟩ := Option.bind_eq_some_iff.mp h
      obtain ⟨z, hz, he⟩ := Option.map_eq_some_iff.mp h
      cases he
      exact .adds (adds_escape? hz)
    · obtain ⟨z, hz, he⟩ := Option.map_eq_some_iff.mp h
      cases he
      exact .adds (adds_dot? hz)
    · cases h
      exact .adds (adds_push ..)
    · cases h
      exact .adds (adds_push ..)
  · rw [step?_literal _ hsign] at h
    cases h
    exact .adds (adds_literal c)

/-- Whatever is read further on, the items of a level read a text first of all: nothing that could
leave them out stands behind them, or something else stands there, or in a group there. -/
inductive Keeps (first : Cursor → Prop) (p : List Char) (outer : List Level) (b : Builder)
    (cs : List Char) : Prop
  | front (hlevels : b.levels = outer) (hbranches : b.branches = []) (hflags : b.flags = {})
      (hbegins : Begins first p b.items) (hnone : ¬ AllowsNone cs)
  | behind {item : Node} {items : List Node} (hlevels : b.levels = outer)
      (hbranches : b.branches = []) (hitems : b.items = item :: items)
      (hbegins : Begins first p items)
  | within {inner : List Level} {level : Level} (hlevels : b.levels = inner ++ level :: outer)
      (hbranches : b.branches = []) (hinner : ∀ l ∈ inner, l.branches = [])
      (hlevel : level.branches = []) (hbegins : Begins first p level.items)

section

variable {first : Cursor → Prop} {p : List Char} {outer : List Level} {cs rest : List Char}

theorem Keeps.suffix (h : b.Keeps first p outer cs) : outer <:+ b.levels := by
  cases h with
  | front hlevels => exact hlevels ▸ List.suffix_rfl
  | behind hlevels => exact hlevels ▸ List.suffix_rfl
  | @within inner level hlevels =>
    rw [hlevels]
    exact (List.suffix_cons level outer).trans (List.suffix_append ..)

theorem Keeps.begins (h : b.Keeps first p outer cs) (hlevels : b.levels = outer) :
    b.branches = [] ∧ Begins first p b.items := by
  cases h with
  | front _ hbranches _ hbegins _ => exact ⟨hbranches, hbegins⟩
  | @behind item items _ hbranches hitems hbegins =>
    rw [hitems]
    exact ⟨hbranches, hbegins.cons item⟩
  | within hinner =>
    rw [hinner] at hlevels
    have hlength := congrArg List.length hlevels
    rw [List.length_append, List.length_cons] at hlength
    omega

theorem Keeps.skip (h : b.Keeps first p outer cs) :
    b.Keeps first p outer (Regex.skip b.flags.verbose cs) := by
  cases h with
  | front hlevels hbranches hflags hbegins hnone =>
    rw [hflags]
    exact .front hlevels hbranches hflags hbegins hnone
  | behind hlevels hbranches hitems hbegins => exact .behind hlevels hbranches hitems hbegins
  | within hlevels hbranches hinner hlevel hbegins =>
    exact .within hlevels hbranches hinner hlevel hbegins

/-- A step keeps what is read first, but for one that ends the level or an alternative. -/
theorem Keeps.step {c : Char} (h : b.Keeps first p outer (c :: cs)) (hbar : c ≠ '|')
    (hclose : c = ')' → b.levels ≠ outer) (hstep : b.step? (c :: cs) = some (b', rest)) :
    b'.Keeps first p outer rest := by
  cases moves_step? hstep with
  | adds hadds =>
    obtain ⟨item, flags, rfl⟩ := hadds
    cases h with
    | front hlevels hbranches _ hbegins _ => exact .behind hlevels hbranches rfl hbegins
    | @behind last items hlevels hbranches hitems hbegins =>
      exact .behind hlevels hbranches rfl (hitems ▸ hbegins.cons last)
    | within hlevels hbranches hinner hlevel hbegins =>
      exact .within hlevels hbranches hinner hlevel hbegins
  | opens hopens =>
    obtain ⟨index, flags, groups, names, rfl⟩ := hopens
    -- The group is within the level, or within one that is.
    let opened : Level := ⟨b.branches, b.items, b.flags, index⟩
    have hin (hlevels : b.levels = outer) :
        Keeps first p outer { b.enter index flags with groups, names } rest := by
      have hopened : opened :: b.levels = [] ++ opened :: outer := congrArg (opened :: ·) hlevels
      obtain ⟨hbranches, hbegins⟩ := h.begins hlevels
      exact .within hopened rfl nofun hbranches hbegins
    cases h with
    | front hlevels => exact hin hlevels
    | behind hlevels => exact hin hlevels
    | @within inner level hlevels hbranches hinner hlevel hbegins =>
      have hopened : opened :: b.levels = (opened :: inner) ++ level :: outer :=
        congrArg (opened :: ·) hlevels
      refine .within hopened rfl (fun l hl => ?_) hlevel hbegins
      rcases List.mem_cons.mp hl with rfl | hl
      · exact hbranches
      · exact hinner l hl
  | leaves hc hleave =>
    cases h with
    | front hlevels => exact absurd hlevels (hclose hc)
    | behind hlevels => exact absurd hlevels (hclose hc)
    | @within inner level hlevels hbranches hinner hlevel hbegins =>
      unfold leave? at hleave
      rw [hlevels] at hleave
      cases inner with
      | nil =>
        cases hleave
        exact .behind rfl hlevel rfl hbegins
      | cons l inner =>
        cases hleave
        exact .within rfl (hinner l (List.mem_cons_self ..))
          (fun l' hl' => hinner l' (List.mem_cons_of_mem l hl')) hlevel hbegins
  | bars hc => exact absurd hc hbar
  | @repeats q hrepeat hnone =>
    unfold repeat? at hrepeat
    split at hrepeat
    next => exact nomatch hrepeat
    next item items hitems =>
      obtain ⟨-, hrepeat⟩ := Option.ite_none_left_eq_some.mp hrepeat
      cases hrepeat
      cases h with
      | front hlevels hbranches hflags hbegins hrest =>
        have hverbose : b.flags.verbose = false := by rw [hflags]
        have hkept := fun h => hrest (hnone hverbose h)
        rw [hitems] at hbegins
        have hmin : q.min ≠ 0 := fun hmin => hkept (Or.inl hmin)
        have hagain := hbegins.repeated hmin q.max (q.greedy != b.flags.swapGreed) (item.depth + 1)
        exact .front hlevels hbranches hflags hagain fun hrest => hkept (Or.inr hrest)
      | @behind last others hlevels hbranches hlast hbegins =>
        obtain ⟨-, rfl⟩ := List.cons.inj (hitems.symm.trans hlast)
        exact .behind hlevels hbranches rfl hbegins
      | within hlevels hbranches hinner hlevel hbegins =>
        exact .within hlevels hbranches hinner hlevel hbegins

/-- What stands behind the parenthesis that closes the outermost group. -/
def behindGroup? : Nat → Builder → List Char → Option (List Char)
  | 0, _, _ => none
  | fuel + 1, b, cs =>
    match Regex.skip b.flags.verbose cs with
    | [] => none
    | c :: cs =>
      if c = ')' ∧ b.levels.length = 1 then some cs
      else (b.step? (c :: cs)).bind fun z => behindGroup? fuel z.1 z.2

theorem behindGroup?_step {c : Char} {ds : List Char}
    (hcs : Regex.skip b.flags.verbose cs = c :: ds) (hopen : ¬ (c = ')' ∧ b.levels.length = 1))
    (hstep : b.step? (c :: ds) = some (b', rest)) (n : Nat) :
    behindGroup? (n + 1) b cs = behindGroup? n b' rest := by
  rw [behindGroup?, hcs]
  simp only
  rw [if_neg hopen, hstep]
  rfl

theorem Keeps.run_nil {n : Nat} {w : Builder} (h : b.Keeps first p outer cs)
    (hcs : Regex.skip b.flags.verbose cs = []) (hw : steps? n b cs = some w) :
    w.Keeps first p outer [] := by
  have hskipped := h.skip
  rw [hcs] at hskipped
  rw [steps?_nil hcs] at hw
  cases hw
  exact hskipped

/-- A whole run keeps what is read first, or closes the level behind it. -/
theorem Keeps.run {n : Nat} {w : Builder} (h : b.Keeps first p outer cs) (hbar : '|' ∉ cs)
    (hw : steps? n b cs = some w) :
    w.Keeps first p outer [] ∨ ∃ (m : Nat) (b₁ : Builder) (ds : List Char),
      b₁.levels = outer ∧ b₁.branches = [] ∧ Begins first p b₁.items ∧ ds <:+ cs ∧
        (b₁.leave?.bind fun b₂ => steps? m b₂ ds) = some w ∧
        (outer.length = 1 → behindGroup? n b cs = some ds) := by
  induction n generalizing b cs with
  | zero =>
    cases hcs : Regex.skip b.flags.verbose cs with
    | nil => exact Or.inl (h.run_nil hcs hw)
    | cons c ds =>
      unfold steps? at hw
      rw [hcs] at hw
      cases hw
  | succ n ih =>
    have hskipped := h.skip
    have hsuffix := skip_suffix b.flags.verbose cs
    cases hcs : Regex.skip b.flags.verbose cs with
    | nil => exact Or.inl (h.run_nil hcs hw)
    | cons c ds =>
      rw [hcs] at hskipped hsuffix
      rw [steps?_cons hcs] at hw
      by_cases hclose : c = ')' ∧ b.levels = outer
      · obtain ⟨rfl, hlevels⟩ := hclose
        obtain ⟨hbranches, hbegins⟩ := hskipped.begins hlevels
        refine Or.inr ⟨n, b, ds, hlevels, hbranches, hbegins, ?_, ?_, fun hlength => ?_⟩
        · exact (List.suffix_cons _ ds).trans hsuffix
        · rw [step?, Option.bind_map] at hw
          exact hw
        · rw [behindGroup?, hcs]
          exact if_pos ⟨rfl, hlevels ▸ hlength⟩
      · have hbar' : c ≠ '|' := by
          rintro rfl
          exact hbar (hsuffix.subset (List.mem_cons_self ..))
        obtain ⟨⟨b', rest⟩, hstep, hw⟩ := Option.bind_eq_some_iff.mp hw
        have hkeeps := hskipped.step hbar' (fun hc hlevels => hclose ⟨hc, hlevels⟩) hstep
        have hrest : rest <:+ cs :=
          (((b.tails_step? c).suffix hstep).trans (List.suffix_cons c ds)).trans hsuffix
        rcases ih hkeeps (fun hmem => hbar (hrest.subset hmem)) hw with hkept | hleft
        · exact Or.inl hkept
        · obtain ⟨m, b₁, left, hlevels, hbranches, hbegins, hleft, hw, hbehind⟩ := hleft
          refine Or.inr ⟨m, b₁, left, hlevels, hbranches, hbegins, hleft.trans hrest, hw, ?_⟩
          intro hlength
          have hopen : ¬ (c = ')' ∧ b.levels.length = 1) := by
            rintro ⟨hc, hone⟩
            exact hclose ⟨hc, (hskipped.suffix.eq_of_length (hlength.trans hone.symm)).symm⟩
          rw [behindGroup?_step hcs hopen hstep]
          exact hbehind hlength

end

/-- Characters that stand for themselves. -/
def read (b : Builder) (p : List Char) : Builder :=
  { b with items := (p.map fun c => (⟨.text [c], 0, false⟩ : Node)).reverse ++ b.items }

theorem read_cons (b : Builder) (c : Char) (p : List Char) :
    (b.read [c]).read p = b.read (c :: p) := by
  simp [read]

theorem step?_plain (hflags : b.flags = {}) {c : Char} (hc : literalStart.isMark c = false)
    (cs : List Char) : b.step? (c :: cs) = some (b.read [c], cs) := by
  have hsign : c ∉ ['(', ')', '|', '[', '?', '*', '+', '\x7b', '\\', '.', '^', '$'] := by
    intro hmem
    have hmark : literalStart.isMark c = true := by
      simp only [List.mem_cons, List.not_mem_nil, or_false] at hmem
      rcases hmem with rfl | rfl | rfl | rfl | rfl | rfl | rfl | rfl | rfl | rfl | rfl | rfl <;>
        rfl
    exact Bool.false_ne_true (hc.symm.trans hmark)
  rw [step?_literal _ hsign]
  unfold literal
  rw [hflags]
  rfl

theorem steps?_plain (hflags : b.flags = {}) {p : List Char}
    (hp : ∀ c ∈ p, literalStart.isMark c = false) (n : Nat) (cs : List Char) :
    steps? (n + p.length) b (p ++ cs) = steps? n (b.read p) cs ∧
      behindGroup? (n + p.length) b (p ++ cs) = behindGroup? n (b.read p) cs := by
  induction p generalizing b with
  | nil => exact ⟨rfl, rfl⟩
  | cons c p ih =>
    have hstep := step?_plain hflags (hp c (List.mem_cons_self ..)) (p ++ cs)
    have hskip : Regex.skip b.flags.verbose (c :: (p ++ cs)) = c :: (p ++ cs) := by
      rw [hflags]
      rfl
    have hclose : ¬ (c = ')' ∧ b.levels.length = 1) := by
      rintro ⟨rfl, -⟩
      exact nomatch hp ')' (List.mem_cons_self ..)
    have hrest := ih (b := b.read [c]) hflags fun d hd => hp d (List.mem_cons_of_mem c hd)
    rw [read_cons] at hrest
    constructor
    · rw [List.length_cons, ← Nat.add_assoc, List.cons_append, steps?_cons hskip, hstep]
      exact hrest.1
    · rw [List.length_cons, ← Nat.add_assoc, List.cons_append, behindGroup?_step hskip hclose hstep]
      exact hrest.2

theorem leads_body (hbranches : b.branches = []) :
    b.body.regex.Leads = LeadsAll (b.items.reverse.map Node.regex) := by
  rw [body, hbranches]
  exact leads_ofItems b.items

theorem behindGroup?_anchored (n : Nat) (cs : List Char) :
    behindGroup? (n + 2) {} (NamePattern.anchored cs) =
      behindGroup? n (raise anchorLevel {}) (cs ++ ending) := by
  have hanchored : NamePattern.anchored cs = '^' :: '(' :: '?' :: ':' :: (cs ++ ending) := by
    simp [NamePattern.anchored, ending]
  rw [hanchored]
  rfl

theorem begins_read (p : List Char) :
    Begins (fun _ => True) p (p.map fun c => (⟨.text [c], 0, false⟩ : Node)).reverse := by
  intro x y hxy
  rw [List.reverse_reverse, List.map_map] at hxy
  refine ⟨trivial, ?_⟩
  induction p generalizing x with
  | nil => exact List.nil_prefix
  | cons c p ih =>
    obtain ⟨z, hz, hzy⟩ := hxy
    obtain ⟨z', ⟨hrest, -⟩, rfl⟩ := hz
    rw [hrest]
    exact List.prefix_cons_inj c |>.mpr (ih _ hzy)

end Builder

/-- The literal start of a text is what it starts with, in characters that stand for themselves. -/
theorem literalStart_cases (cs : List Char) :
    literalStart cs <+: cs ∧ (∀ c ∈ literalStart cs, literalStart.isMark c = false) ∧
      (literalStart cs ≠ [] → '|' ∉ cs) := by
  unfold literalStart
  split
  next => exact ⟨List.nil_prefix, nofun, fun hne => absurd rfl hne⟩
  next hbar =>
    have hplain : cs.takeWhile (fun c => !literalStart.isMark c) <+: cs := List.takeWhile_prefix _
    have hmark : ∀ c ∈ cs.takeWhile (fun c => !literalStart.isMark c),
        literalStart.isMark c = false := by
      intro c hc
      simpa using List.mem_takeWhile_imp hc
    have hnone : '|' ∉ cs := by simpa using hbar
    generalize cs.takeWhile (fun c => !literalStart.isMark c) = plain at *
    have hshort : plain.dropLast <+: plain := List.dropLast_prefix plain
    dsimp only
    split
    · split
      · exact ⟨hshort.trans hplain, fun c hc => hmark c (hshort.subset hc), fun _ => hnone⟩
      · exact ⟨hplain, hmark, fun _ => hnone⟩
    · exact ⟨hplain, hmark, fun _ => hnone⟩

open Builder in
/-- Where a text starts with characters that no repetition leaves out, so do all names that its
pattern matches. -/
theorem begins_anchored {p rest : List Char} (hplain : ∀ c ∈ p, literalStart.isMark c = false)
    (hbar : '|' ∉ rest) (hfront : ¬ AllowsNone (rest ++ ending))
    (hgroup : ∀ ds, behindGroup? (NamePattern.anchored (p ++ rest)).length {}
      (NamePattern.anchored (p ++ rest)) = some ds → ¬ AllowsNone ds)
    {e : Node} (he : node? (NamePattern.anchored (p ++ rest)) = some e) {x y : Cursor}
    (h : e.regex.Leads x y) : x.before.isNone = true ∧ p <+: x.rest := by
  have hlength : (NamePattern.anchored (p ++ rest)).length = rest.length + 4 + p.length + 2 := by
    simp [NamePattern.anchored]
    omega
  obtain ⟨hread, hbehind⟩ := steps?_plain (b := raise anchorLevel {}) rfl hplain (rest.length + 4)
    (rest ++ ending)
  obtain ⟨w, hw, rfl⟩ := Option.map_eq_some_iff.mp he
  obtain ⟨hw, hclosed⟩ := Option.filter_eq_some_iff.mp hw
  have hclosed : w.levels = [] := List.isEmpty_iff.mp hclosed
  rw [hlength, steps?_anchored, List.append_assoc, hread] at hw
  have hstart : ((raise anchorLevel {}).read p).Keeps (fun _ => True) p [anchorLevel]
      (rest ++ ending) := by
    refine .front rfl rfl rfl ?_ hfront
    show Begins _ p ((p.map fun c => (⟨.text [c], 0, false⟩ : Node)).reverse ++ [])
    rw [List.append_nil]
    exact begins_read p
  have hbar : '|' ∉ rest ++ ending := by simpa [ending] using hbar
  -- The group that is put around the text is closed at some place, and nothing is left out there.
  rcases hstart.run hbar hw with hopen | hleft
  · exact absurd (hclosed ▸ hopen.suffix) (by simp)
  · obtain ⟨m, b, ds, hlevels, hbranches, hbegins, hds, hw, hfound⟩ := hleft
    have hnone : ¬ AllowsNone ds := by
      refine hgroup ds ?_
      rw [hlength, behindGroup?_anchored, List.append_assoc, hbehind]
      exact hfound rfl
    unfold leave? at hw
    rw [hlevels] at hw
    simp only [Option.bind_some] at hw
    have hgroup : Begins (fun x => x.before.isNone = true) p
        [⟨b.body.regex, b.body.depth + 1, false⟩, ⟨.anchor .textStart, 0, false⟩] := by
      intro x y hxy
      obtain ⟨z, ⟨hbefore, rfl⟩, z', hz', -⟩ := hxy
      rw [leads_body hbranches] at hz'
      exact ⟨hbefore, (hbegins x z' hz').2⟩
    have hbehind : ({ b with
        branches := []
        items := [⟨b.body.regex, b.body.depth + 1, false⟩, ⟨.anchor .textStart, 0, false⟩]
        flags := {}
        levels := [] } : Builder).Keeps (fun x => x.before.isNone = true) p [] ds :=
      .front rfl rfl rfl hgroup hnone
    rcases hbehind.run (fun hmem => hbar (hds.subset hmem)) hw with hkept | hleft
    · obtain ⟨hbranches, hbegins⟩ := hkept.begins hclosed
      rw [leads_body hbranches] at h
      exact hbegins x y h
    · obtain ⟨m, b, ds, hlevels, -, -, -, hw, -⟩ := hleft
      rw [leave?, hlevels] at hw
      cases hw

/-- A repetition lets the literal start of a text be left out: it stands behind the last character
of the start, or behind a parenthesis that closes the group put around the text. -/
def DropsStart (cs : List Char) : Prop :=
  literalStart cs ≠ [] ∧
    (AllowsNone ((cs ++ ending).drop (literalStart cs).length) ∨
      ∃ rest, Builder.behindGroup? (NamePattern.anchored cs).length {} (NamePattern.anchored cs) =
        some rest ∧ AllowsNone rest)

/-- What a text starts with is what all names start with that its pattern matches. -/
theorem literalStart_prefix {cs : List Char} {e : Node}
    (he : node? (NamePattern.anchored cs) = some e) (hne : literalStart cs ≠ [])
    (hdrops : ¬ DropsStart cs) {x y : Cursor} (h : e.regex.Leads x y) :
    x.before.isNone = true ∧ literalStart cs <+: x.rest := by
  obtain ⟨⟨rest, hcs⟩, hplain, hbars⟩ := literalStart_cases cs
  have hbar : '|' ∉ cs := hbars hne
  obtain ⟨hfront, hgroup⟩ := not_or.mp fun hsome => hdrops ⟨hne, hsome⟩
  generalize literalStart cs = p at *
  subst hcs
  rw [List.append_assoc, List.drop_left] at hfront
  exact begins_anchored hplain (fun hmem => hbar (List.mem_append_right p hmem)) hfront
    (fun ds hds hnone => hgroup ⟨ds, hds, hnone⟩) he h

end ParticleAutomaton.Regex
