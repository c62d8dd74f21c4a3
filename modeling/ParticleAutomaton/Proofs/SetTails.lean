import ParticleAutomaton.Proofs.LexerTails
import ParticleAutomaton.Regex.Bracket

namespace ParticleAutomaton.Regex

/-- Inside of brackets the ending may be all that is left to read. -/
def AtEnding {α : Type} (_ : α) (rest : List Char) : Prop := rest = ending

theorem Tails.atEnding {α : Type} {f : List Char → Option (α × List Char)} (h : Tails NeverLate f) :
    Tails AtEnding f := h.mono fun _ _ hx => hx.elim

/-- A reader that makes nothing of the ending goes on behind what is late. -/
theorem Carries.bind {α β : Type} {o o' : Option (α × List Char)} (h : Carries AtEnding o o')
    {g g' : α → List Char → Option (β × List Char)}
    (hread : ∀ x rest, o = some (x, rest) →
      Carries NeverLate (g x rest) (g' x (rest ++ ending)))
    (hnil : ∀ x, Carries NeverLate (g x []) (g' x []))
    (hlate : ∀ x rest, o = none → o' = some (x, rest) → rest <:+ ending → g' x rest = none) :
    Carries NeverLate (o.bind fun z => g z.1 z.2) (o'.bind fun z => g' z.1 z.2) := by
  cases h with
  | refused => exact .refused
  | read x rest => exact hread x rest rfl
  | comment x => exact hnil x
  | across x rest hrest =>
    rw [Option.bind_some, hlate x rest rfl rfl (hrest.trans (List.suffix_cons ')' ['$']))]
    exact .refused
  | late x rest hrest =>
    have hrest : rest = ending := hrest
    rw [Option.bind_some, hlate x rest rfl rfl (hrest ▸ List.suffix_rfl)]
    exact .refused

/-- The item that an escape is. -/
def escapedItem? (f : Flags) : Escape → Option SetItem
  | .char c _ => (f.code? c).map .code
  | e => (f.escapeSet? e).map .set

theorem setItem?_escape (f : Flags) (cs : List Char) :
    setItem? f ('\\' :: cs) =
      (escape? f.verbose cs).bind fun z => (escapedItem? f z.1).map (·, z.2) := by
  refine congrArg (Option.bind _) (funext fun z => ?_)
  obtain ⟨e, rest⟩ := z
  cases e <;> simp only [escapedItem?, Option.map_map] <;> rfl

theorem setItem?_plain (f : Flags) {c : Char} (hc : c ≠ '\\') (cs : List Char) :
    setItem? f (c :: cs) = ((f.code? c).map SetItem.code).map (·, cs) := by
  rw [Option.map_map]
  simp only [setItem?]
  rfl

theorem tails_setItem?_cons (f : Flags) (c : Char) :
    Tails NeverLate fun cs => setItem? f (c :: cs) := by
  by_cases hc : c = '\\'
  · subst hc
    rw [funext (setItem?_escape f)]
    refine (tails_escape? f.verbose).choose (escapedItem? f) fun e rest item hlate hitem => ?_
    obtain ⟨⟨b, rfl⟩, -⟩ := hlate
    cases hitem
  · rw [funext (setItem?_plain f hc)]
    exact .gives _

theorem tails_setItem? (f : Flags) : Tails NeverLate (setItem? f) :=
  .ofCons (tails_setItem?_cons f) rfl

/-- The ending makes no range of a hyphen before it, and hinders none. -/
theorem decider?_ending (v : Bool) (cs : List Char) :
    decider? v (cs ++ ending) = some ((decider? v cs).getD ')') := by
  have hhead (ds : List Char) : (ds ++ ending).head? = some (ds.head?.getD ')') := by
    cases ds <;> rfl
  unfold decider?
  cases v with
  | false => exact hhead cs
  | true =>
    simp only [Bool.not_true, Bool.false_eq_true, if_false]
    rw [dropWhile_ending]
    cases cs.dropWhile Unicode.isSpace with
    | nil => rfl
    | cons c ds =>
      by_cases hc : c = '#'
      · subst hc
        simp only [List.cons_append]
        rw [dropWhile_ending]
        exact hhead _
      · simp [hc]

def singleItem : SetItem → SetNode
  | .code n => ⟨.ofCodes [n], 0⟩
  | .set s => ⟨s, 0⟩

def rangeOf? : SetItem → SetItem → Option SetNode
  | .code m, .code n => if m ≤ n then some ⟨.ofPairs [(m, n)], 0⟩ else none
  | _, _ => none

/-- The end of a range behind its hyphen. -/
def rangeEnd? (f : Flags) (item : SetItem) (cs : List Char) : Option (SetNode × List Char) :=
  (skip? f.verbose cs).bind fun cs =>
    (setItem? f cs).bind fun z => (rangeOf? item z.1).map (·, z.2)

/-- What may stand behind an item. -/
def rangeTail? (f : Flags) (item : SetItem) : List Char → Option (SetNode × List Char)
  | '-' :: cs =>
    if decider? f.verbose cs = some ']' ∨ decider? f.verbose cs = some '-' then
      some (singleItem item, '-' :: cs)
    else rangeEnd? f item cs
  | cs => some (singleItem item, cs)

theorem setRange?_eq (f : Flags) (cs : List Char) :
    setRange? f cs = (setItem? f cs).bind fun z =>
      (skip? f.verbose z.2).bind (rangeTail? f z.1) := by
  refine congrArg (Option.bind _) (funext fun z => congrArg (Option.bind _) (funext fun rest => ?_))
  obtain ⟨item, left⟩ := z
  by_cases hrest : ∃ cs, rest = '-' :: cs
  · obtain ⟨cs, rfl⟩ := hrest
    have hend (m : SetItem) : rangeEnd? f m cs = (skip? f.verbose cs).bind fun cs =>
        (setItem? f cs).bind fun z => (rangeOf? m z.1).map (·, z.2) := rfl
    simp only [rangeTail?, hend]
    cases item <;> simp only [singleItem] <;> refine congrArg (ite _ _) ?_
    all_goals
      refine congrArg (Option.bind _) (funext fun cs => ?_)
      refine congrArg (Option.bind _) (funext fun z => ?_)
      obtain ⟨last, rest⟩ := z
      cases last <;> simp only [rangeOf?]
    all_goals first | rfl | (split <;> rfl)
  · have hplain (cs : List Char) (hcs : rest = '-' :: cs) : False := hrest ⟨cs, hcs⟩
    cases item <;> simp only [rangeTail?, singleItem]

theorem tails_rangeEnd? (f : Flags) (item : SetItem) : Tails NeverLate (rangeEnd? f item) := by
  have hitem : Tails NeverLate fun cs =>
      (setItem? f cs).bind fun z => (rangeOf? item z.1).map (·, z.2) :=
    (tails_setItem? f).choose (rangeOf? item) fun _ _ _ h _ => h
  refine hitem.skip? (fun {x rest} h => Or.inl ?_) f.verbose
  obtain ⟨z, hz, hrest⟩ := Option.bind_eq_some_iff.mp h
  obtain ⟨y, -, hy⟩ := Option.map_eq_some_iff.mp hrest
  cases hy
  exact (tails_setItem?_cons f ')').suffix hz

theorem tails_rangeTail? (f : Flags) (item : SetItem) : Tails NeverLate (rangeTail? f item) := by
  refine Tails.atChar '-' (by decide) (fun cs => ?_) (fun {cs x rest} h => ?_)
    (.takes (singleItem item)) (fun _ => rfl) fun cs h => by simp only [rangeTail?]
  · simp only [rangeTail?, decider?_ending]
    have hdecider (c : Char) (hc : c ≠ ')') :
        some ((decider? f.verbose cs).getD ')') = some c ↔ decider? f.verbose cs = some c := by
      cases decider? f.verbose cs <;> simp [eq_comm, hc]
    simp only [hdecider ']' (by decide), hdecider '-' (by decide)]
    split
    · exact .read (singleItem item) ('-' :: cs)
    · exact (tails_rangeEnd? f item).carries cs
  · simp only [rangeTail?] at h
    split at h
    · cases h
      exact List.suffix_rfl
    · exact ((tails_rangeEnd? f item).suffix h).trans (List.suffix_cons ..)

theorem tails_setRange?_cons (f : Flags) (c : Char) :
    Tails AtEnding fun cs => setRange? f (c :: cs) := by
  have htail (item : SetItem) :
      Tails AtEnding fun cs => (skip? f.verbose cs).bind (rangeTail? f item) := by
    refine (tails_rangeTail? f item).atEnding.skip? (fun {x rest} h => Or.inr ?_) f.verbose
    cases h
    rfl
  rw [funext fun cs => setRange?_eq f (c :: cs)]
  exact (tails_setItem?_cons f c).andThen htail

/-- The front of a set whose text starts with a sign that negates it. -/
def caret? (v : Bool) : List Char → Option (Bool × List Char)
  | '^' :: cs => (skip? v cs).map (true, ·)
  | cs => some (false, cs)

/-- A closing bracket at the front of a set. -/
def frontItems? (v negated : Bool) (items : List SetNode) :
    List Char → Option ((Bool × List SetNode) × List Char)
  | ']' :: cs =>
    if items = [] then (skip? v cs).map ((negated, [⟨.single ']', 0⟩]), ·)
    else some ((negated, items), ']' :: cs)
  | cs => some ((negated, items), cs)

/-- The hyphens and the closing bracket at the front of a set. -/
def frontSigns? (v negated : Bool) (cs : List Char) :
    Option ((Bool × List SetNode) × List Char) :=
  (leadingHyphens? v cs.length [] cs).bind fun z => frontItems? v negated z.1 z.2

/-- What `openBracket?` gives, with the rest of the text apart. -/
def bracketFront? (v : Bool) (cs : List Char) : Option ((Bool × List SetNode) × List Char) :=
  (skip? v cs).bind fun cs => (caret? v cs).bind fun z => frontSigns? v z.1 z.2

theorem frontItems?_eq (v negated : Bool) (items : List SetNode) (cs : List Char) :
    (frontItems? v negated items cs).map (fun z => (z.1.1, z.1.2, z.2)) =
      match items, cs with
      | [], ']' :: cs => (skip? v cs).map fun cs => (negated, [⟨.single ']', 0⟩], cs)
      | items, cs => some (negated, items, cs) := by
  unfold frontItems?
  split
  next cs =>
    cases items with
    | nil =>
      rw [if_pos rfl, Option.map_map]
      rfl
    | cons => rfl
  next hcs =>
    split
    next cs => exact (hcs cs rfl).elim
    next => rfl

theorem openBracket?_eq (v : Bool) (cs : List Char) :
    openBracket? v cs = (bracketFront? v cs).map fun z => (z.1.1, z.1.2, z.2) := by
  simp only [bracketFront?, Option.map_bind]
  refine congrArg (Option.bind _) (funext fun left => ?_)
  simp only [Function.comp_apply, Option.map_bind]
  have hsigns (z : Bool × List Char) :
      ((leadingHyphens? v z.2.length [] z.2).bind fun w =>
        (frontItems? v z.1 w.1 w.2).map fun z => (z.1.1, z.1.2, z.2)) =
      (frontSigns? v z.1 z.2).map fun z => (z.1.1, z.1.2, z.2) := Option.map_bind.symm
  simp only [frontItems?_eq] at hsigns
  split
  next cs => exact congrArg (Option.bind _) (funext hsigns)
  next hcs =>
    rw [show caret? v left = some (false, left) by simp only [caret?]]
    exact hsigns (false, left)

/-- Behind hyphens a closing bracket does not stand for itself. -/
theorem frontItems?_of_ne_nil {v negated : Bool} {items : List SetNode} (h : items ≠ []) :
    frontItems? v negated items = fun cs => some ((negated, items), cs) := by
  funext cs
  unfold frontItems?
  split
  next => rw [if_neg h]
  next => rfl

section

variable (v : Bool)

theorem tails_goOn {α : Type} (x : α) : Tails AtEnding fun cs => (skip? v cs).map (x, ·) := by
  have hmap : (fun cs => (skip? v cs).map (x, ·)) = fun cs =>
      (skip? v cs).bind fun rest => some (x, rest) := funext fun cs => Option.map_eq_bind ..
  rw [hmap]
  refine (Tails.takes x).skip? (fun {y rest} h => Or.inr ?_) v
  cases h
  rfl

theorem tails_caret? : Tails AtEnding (caret? v) :=
  (tails_goOn v true).onChar '^' (by decide) (.takes false) (fun _ => rfl)
    fun cs h => by simp only [caret?]

theorem leadingHyphens?_stop {cs : List Char} (hcs : ∀ ds, cs = '-' :: ds → False) (n : Nat)
    (items : List SetNode) : leadingHyphens? v n items cs = some (items, cs) := by
  unfold leadingHyphens?
  split
  next ds => exact (hcs ds rfl).elim
  next => rfl

theorem carries_leadingHyphens? {n m : Nat} (items : List SetNode) {cs : List Char}
    (hn : cs.length ≤ n) (hm : cs.length ≤ m) :
    Carries AtEnding (leadingHyphens? v n items cs)
      (leadingHyphens? v m items (cs ++ ending)) := by
  have hend (k : Nat) (items : List SetNode) :
      leadingHyphens? v k items ending = some (items, ending) :=
    leadingHyphens?_stop v (fun ds hds => by cases hds) k items
  induction n generalizing m items cs with
  | zero =>
    rw [List.length_eq_zero_iff.mp (Nat.le_zero.mp hn), List.nil_append, hend]
    exact .read items []
  | succ n ih =>
    by_cases hcs : ∃ ds, cs = '-' :: ds
    · obtain ⟨ds, rfl⟩ := hcs
      cases m with
      | zero => exact absurd hm (by simp)
      | succ m =>
        simp only [List.length_cons] at hn hm
        simp only [List.cons_append, leadingHyphens?]
        rcases skip?_ending v ds with ⟨c, rest, hds, hds'⟩ | ⟨hds, hds' | hds'⟩
        · have hlength := (skip?_suffix hds).length_le
          rw [hds, hds']
          exact ih _ (Nat.le_trans hlength (by omega)) (Nat.le_trans hlength (by omega))
        · rw [hds, hds']
          simp only [Option.bind_eq_bind, Option.bind_some, Option.bind_none, hend]
          exact .late _ _ rfl
        · rw [hds, hds']
          exact .refused
    · have hne (ds : List Char) (hds : cs = '-' :: ds) : False := hcs ⟨ds, hds⟩
      rw [leadingHyphens?_stop v hne,
        leadingHyphens?_stop v (append_ending_ne (by decide) hne)]
      exact .read items cs

theorem leadingHyphens?_suffix {n : Nat} {items items' : List SetNode} {cs rest : List Char}
    (h : leadingHyphens? v n items cs = some (items', rest)) : rest <:+ cs := by
  fun_induction leadingHyphens? v n items cs with
  | case1 n items cs ih =>
    obtain ⟨ds, hds, h⟩ := Option.bind_eq_some_iff.mp h
    exact ((ih ds h).trans (skip?_suffix hds)).trans (List.suffix_cons ..)
  | case2 =>
    cases h
    exact List.suffix_rfl

theorem tails_leadingHyphens? (items : List SetNode) :
    Tails AtEnding fun cs => leadingHyphens? v cs.length items cs where
  carries cs := carries_leadingHyphens? v items (Nat.le_refl _) (by simp)
  suffix h := leadingHyphens?_suffix v h

theorem tails_frontItems? (negated : Bool) (items : List SetNode) :
    Tails AtEnding (frontItems? v negated items) := by
  by_cases hitems : items = []
  · have hclose : Tails AtEnding fun cs =>
        (skip? v cs).map ((negated, [(⟨.single ']', 0⟩ : SetNode)]), ·) := tails_goOn v _
    exact hclose.onChar ']' (by decide) (.takes (negated, items))
      (fun cs => by simp only [frontItems?, if_pos hitems]) fun cs h => by simp only [frontItems?]
  · rw [frontItems?_of_ne_nil hitems]
    exact .takes _

theorem tails_frontSigns? (negated : Bool) : Tails AtEnding (frontSigns? v negated) := by
  refine (tails_leadingHyphens? v []).andThenLate (tails_frontItems? v negated) ?_
  intro items rest y left hrest h
  cases hrest
  cases h
  exact Or.inr rfl

theorem tails_bracketFront? : Tails AtEnding (bracketFront? v) := by
  have hsigns : Tails AtEnding fun cs => (caret? v cs).bind fun z => frontSigns? v z.1 z.2 := by
    refine (tails_caret? v).andThenLate (tails_frontSigns? v) ?_
    intro negated rest y left hrest h
    cases hrest
    cases h
    exact Or.inr rfl
  refine hsigns.skip? (fun {x rest} h => Or.inr ?_) v
  cases h
  rfl

end

end ParticleAutomaton.Regex
