import ParticleAutomaton.Proofs.DirectionSlots

namespace ParticleAutomaton.Regex

theorem swaps_setItem?_cons (f : Flags) (c : Char) : Swaps fun cs => setItem? f (c :: cs) := by
  by_cases hc : c = '\\'
  · subst hc
    rw [funext (setItem?_escape f)]
    exact (swaps_escape? f.verbose).choose (escapedItem? f)
  · rw [funext (setItem?_plain f hc)]
    exact .gives _

theorem swaps_setItem? (f : Flags) : Swaps (setItem? f) := .ofCons (swaps_setItem?_cons f) rfl

/-- The items that the letters of directions are. -/
def letterItems : List SetItem := directionLetters.map fun c => .code c.toNat

section

variable {ι : Type} (ν : Naming ι) {v : Bool} {f : Flags}

namespace Slot

/-- The character at the front, if it is known. -/
def next? : List (Slot ι) → Option Char
  | .char c :: _ => some c
  | _ => none

theorem head?_fill {c : Char} (hc : c ∉ directionLetters) (s : List (Slot ι)) :
    (ν.fill s).head? = some c ↔ next? s = some c := by
  cases s with
  | nil => exact Iff.rfl
  | cons x s =>
    cases x with
    | char d => exact Iff.rfl
    | hole i =>
      obtain ⟨d, hd, ds, hds⟩ := ν.directed_hole i s
      rw [hds]
      refine ⟨fun h => absurd ?_ hc, nofun⟩
      rwa [← Option.some.inj h]

def spaces (s : List (Slot ι)) : List (Slot ι) := s.dropWhile (test Unicode.isSpace false)

theorem spaces_fill (s : List (Slot ι)) :
    (ν.fill s).dropWhile Unicode.isSpace = ν.fill (spaces s) := by
  have hspace : ∀ c ∈ directionLetters, Unicode.isSpace c = false := forall_letters.mpr (by decide)
  exact dropWhile_fill ν hspace s

/-- The character that decides whether a hyphen makes a range, if it is known. -/
def decider? (v : Bool) (s : List (Slot ι)) : Option Char :=
  if !v then next? s
  else
    match spaces s with
    | .char '#' :: s => next? (spaces s)
    | s => next? s

theorem decider?_fill {c : Char} (hc : c ∉ directionLetters) (s : List (Slot ι)) :
    Regex.decider? v (ν.fill s) = some c ↔ decider? v s = some c := by
  cases v with
  | false => exact head?_fill ν hc s
  | true =>
    unfold Regex.decider? decider?
    simp only [Bool.not_true, Bool.false_eq_true, if_false]
    rw [spaces_fill]
    cases spaces s with
    | nil => exact Iff.rfl
    | cons x t =>
      cases x with
      | char d =>
        by_cases hd : d = '#'
        · subst hd
          simp only [Naming.fill]
          rw [spaces_fill]
          exact head?_fill ν hc (spaces t)
        · simp [Naming.fill, hd, next?]
      | hole i =>
        have hdirected := ν.directed_hole i t
        have hne : ∀ ds, ν.fill (.hole i :: t) ≠ '#' :: ds := hdirected.ne (by decide)
        split
        next ds hds => exact absurd hds (hne ds)
        next => exact head?_fill ν hc (.hole i :: t)

/-- What stands behind a hyphen after an item of a set that is one of some items: the end of a
range, if it is known and none of them lies behind it, unless the hyphen stands for itself. -/
def hyphen? (f : Flags) (items : List SetItem) (s : List (Slot ι)) :
    Option (Unit × List (Slot ι)) :=
  if decider? f.verbose s = some ']' ∨ decider? f.verbose s = some '-' then
    some ((), .char '-' :: s)
  else ((skip? f.verbose s).bind (reads? (setItem? f))).bind fun z =>
    if items.all fun item => (rangeOf? item z.1).isSome then some ((), z.2) else none

def rangeTail? (f : Flags) (items : List SetItem) : List (Slot ι) → Option (Unit × List (Slot ι)) :=
  onFirst '-' (hyphen? f items) fun s => some ((), s)

def setRange? (f : Flags) (s : List (Slot ι)) : Option (Unit × List (Slot ι)) :=
  (reads? (setItem? f) s).bind fun z => (skip? f.verbose z.2).bind (rangeTail? f [z.1])

theorem follows_hyphen? {items : List SetItem} {item : SetItem} (hitem : item ∈ items) :
    Follows ν Some (fun cs => Regex.rangeTail? f item ('-' :: cs)) (hyphen? f items) where
  follow hs := by
    unfold hyphen? at hs
    simp only [Regex.rangeTail?, decider?_fill ν (by decide : ']' ∉ directionLetters),
      decider?_fill ν (by decide : '-' ∉ directionLetters)]
    split at hs
    next hdecider =>
      cases hs
      rw [if_pos hdecider]
      exact ⟨some (singleItem item), rfl, rfl⟩
    next hdecider =>
      obtain ⟨⟨last, rest⟩, hlast, hs⟩ := Option.bind_eq_some_iff.mp hs
      obtain ⟨t, ht, hlast⟩ := Option.bind_eq_some_iff.mp hlast
      obtain ⟨hrange, hs⟩ := Option.ite_none_right_eq_some.mp hs
      obtain ⟨node, hnode⟩ := Option.isSome_iff_exists.mp (List.all_eq_true.mp hrange item hitem)
      cases hs
      refine ⟨some node, rfl, ?_⟩
      rw [if_neg hdecider, rangeEnd?, skip?_fill ν ht, Option.bind_some,
        (swaps_setItem? f).reads ν hlast, Option.bind_some, hnode]

theorem follows_rangeTail? {items : List SetItem} {item : SetItem} (hitem : item ∈ items) :
    Follows ν Some (Regex.rangeTail? f item) (rangeTail? f items) := by
  have hsingle : Follows ν Some (fun cs => some (singleItem item, cs)) fun s => some ((), s) :=
    .takes rfl
  exact .onFirst (by decide) (follows_hyphen? ν hitem) hsingle (fun _ => rfl) fun cs hcs => by
    simp only [Regex.rangeTail?]

theorem follows_setRange? : Follows ν Some (Regex.setRange? f) (setRange? f) := by
  rw [funext (setRange?_eq f)]
  have hitem : Follows ν (fun r x => r = some x) (setItem? f) (reads? (setItem? f)) :=
    .reads (swaps_setItem? f) fun _ => rfl
  have htail (x : SetItem) :
      Follows ν Some (fun cs => (Regex.skip? f.verbose cs).bind (Regex.rangeTail? f x))
        fun s => (skip? f.verbose s).bind (rangeTail? f [x]) :=
    (follows_rangeTail? ν (List.mem_singleton_self x)).skip? f.verbose
  exact hitem.andThen fun r x hr => ⟨x, hr, htail x⟩

def caret? (v : Bool) : List (Slot ι) → Option (Bool × List (Slot ι)) :=
  onFirst '^' (fun s => (skip? v s).map (true, ·)) fun s => some (false, s)

def leadingHyphens? (v : Bool) : Nat → Bool → List (Slot ι) → Option (Bool × List (Slot ι))
  | 0, _ => fun _ => none
  | fuel + 1, found =>
    onFirst '-' (fun s => (skip? v s).bind (leadingHyphens? v fuel true)) fun s => some (found, s)

def frontItems? (v negated found : Bool) : List (Slot ι) → Option (Bool × List (Slot ι)) :=
  if found then fun s => some (negated, s)
  else onFirst ']' (fun s => (skip? v s).map (negated, ·)) fun s => some (negated, s)

def frontSigns? (v negated : Bool) (s : List (Slot ι)) : Option (Bool × List (Slot ι)) :=
  (leadingHyphens? v (s.length + 1) false s).bind fun z => frontItems? v negated z.1 z.2

def bracketFront? (v : Bool) (s : List (Slot ι)) : Option (Bool × List (Slot ι)) :=
  (skip? v s).bind fun s => (caret? v s).bind fun z => frontSigns? v z.1 z.2

theorem follows_goOn {α β : Type} {R : Option α → β → Prop} {x : α} {y : β} (h : R (some x) y) :
    Follows ν R (fun cs => (Regex.skip? v cs).map (x, ·)) fun s => (skip? v s).map (y, ·) := by
  have hskip := (Follows.takes (ν := ν) h).skip? v
  simpa only [Option.map_eq_bind, Function.comp_def] using hskip

theorem follows_caret? : Follows ν (fun r y => r = some y) (Regex.caret? v) (caret? v) :=
  .onFirst (by decide) (follows_goOn ν rfl) (.takes rfl) (fun _ => rfl) fun cs h => by
    simp only [Regex.caret?]

theorem leadingHyphens?_fill {n m : Nat} {items : List SetNode} {found found' : Bool}
    {s s' : List (Slot ι)} (hitems : items = [] ↔ found = false) (hm : (ν.fill s).length ≤ m)
    (hs : leadingHyphens? v n found s = some (found', s')) :
    ∃ items', (items' = [] ↔ found' = false) ∧
      Regex.leadingHyphens? v m items (ν.fill s) = some (items', ν.fill s') := by
  induction n generalizing m items found s with
  | zero => cases hs
  | succ n ih =>
    rcases onFirst_cases ν (by decide) hs with ⟨t, rfl, ht⟩ | ⟨hne, hs⟩
    · obtain ⟨u, hu, ht⟩ := Option.bind_eq_some_iff.mp ht
      have hskip := skip?_fill ν hu
      have hlength := (Regex.skip?_suffix hskip).length_le
      rw [Naming.fill, List.length_cons] at hm
      obtain ⟨m, rfl⟩ : ∃ k, m = k + 1 := ⟨m - 1, by omega⟩
      have hhyphen : (⟨.single '-', 0⟩ :: items : List SetNode) = [] ↔ true = false := by simp
      obtain ⟨items', hitems', hrest⟩ := ih (m := m) hhyphen (by omega) ht
      refine ⟨items', hitems', ?_⟩
      rw [Naming.fill, Regex.leadingHyphens?, hskip]
      exact hrest
    · cases hs
      exact ⟨items, hitems, leadingHyphens?_stop v hne m items⟩

theorem follows_frontItems? {negated found : Bool} {items : List SetNode}
    (hitems : items = [] ↔ found = false) :
    Follows ν (fun r y => ∃ items, r = some (y, items)) (Regex.frontItems? v negated items)
      (frontItems? v negated found) := by
  cases found with
  | true =>
    have hne : items ≠ [] := fun h => nomatch hitems.mp h
    rw [frontItems?_of_ne_nil hne]
    exact .takes ⟨items, rfl⟩
  | false =>
    have hnil := hitems.mpr rfl
    let close : Bool × List SetNode := (negated, [⟨.single ']', 0⟩])
    exact .onFirst (by decide) (follows_goOn ν (x := close) ⟨_, rfl⟩) (.takes ⟨items, rfl⟩)
      (fun cs => by simp only [Regex.frontItems?, if_pos hnil, close])
      fun cs h => by simp only [Regex.frontItems?]

theorem follows_frontSigns? (negated : Bool) :
    Follows ν (fun r y => ∃ items, r = some (y, items)) (Regex.frontSigns? v negated)
      (frontSigns? v negated) where
  follow hs := by
    obtain ⟨⟨found, rest⟩, hhyphens, hs⟩ := Option.bind_eq_some_iff.mp hs
    obtain ⟨items, hitems, hfill⟩ :=
      leadingHyphens?_fill ν (Iff.intro (fun _ => rfl) fun _ => rfl) (Nat.le_refl _) hhyphens
    rw [Regex.frontSigns?, hfill]
    exact (follows_frontItems? ν hitems).follow hs

theorem follows_bracketFront? : Follows ν (fun r y => ∃ items, r = some (y, items))
    (Regex.bracketFront? v) (bracketFront? v) := by
  have hsigns : Follows ν (fun r y => ∃ items, r = some (y, items))
      (fun cs => (Regex.caret? v cs).bind fun z => Regex.frontSigns? v z.1 z.2)
      fun s => (caret? v s).bind fun z => frontSigns? v z.1 z.2 :=
    (follows_caret? ν).andThen fun r negated hr => ⟨negated, hr, follows_frontSigns? ν negated⟩
  exact hsigns.skip? v

/-- The name of a set behind its sign, if it is one. No hole stands in it. -/
def signedName? (negated : Bool) (s : List (Slot ι)) :
    Option (Option ((CharSet × Bool) × List (Slot ι))) :=
  match s.dropWhile (test (· != ':') true) with
  | .char ':' :: .char ']' :: rest =>
    let name := s.takeWhile (test (· != ':') true)
    if (fromHole name).isEmpty then
      some ((namedSet? (lead name)).map fun z => ((z, negated), rest))
    else none
  | _ => some none

def nameIn? : List (Slot ι) → Option (Option ((CharSet × Bool) × List (Slot ι))) :=
  onFirst ':' (onFirst '^' (signedName? true) (signedName? false)) fun _ => some none

theorem signedName?_fill {negated : Bool} {s : List (Slot ι)}
    {o : Option ((CharSet × Bool) × List (Slot ι))} (h : signedName? negated s = some o) :
    Regex.signedName? negated (ν.fill s) = o.map fun z => (z.1, ν.fill z.2) := by
  have hcolon : ∀ c ∈ directionLetters, (c != ':') = true := forall_letters.mpr (by decide)
  unfold Regex.signedName? signedName? at *
  rw [dropWhile_fill ν hcolon, takeWhile_fill ν hcolon]
  split at h
  next rest hrest =>
    obtain ⟨hknown, h⟩ := Option.ite_none_right_eq_some.mp h
    cases h
    rw [hrest, fill_lead ν (s.takeWhile _), List.isEmpty_iff.mp hknown]
    simp only [Naming.fill, List.append_nil, Option.map_map]
    rfl
  next hother =>
    cases h
    split
    next rest hrest =>
      -- Neither the colon nor the bracket belongs to the name of a direction.
      exfalso
      cases hs : s.dropWhile (test (· != ':') true) with
      | nil =>
        rw [hs] at hrest
        cases hrest
      | cons x t =>
        rw [hs] at hrest
        cases x with
        | hole i => exact (ν.directed_hole i t).ne (by decide) _ hrest
        | char c =>
          obtain ⟨rfl, hclose⟩ := List.cons.inj hrest
          cases t with
          | nil => cases hclose
          | cons x t =>
            cases x with
            | hole i => exact (ν.directed_hole i t).ne (by decide) _ hclose
            | char d =>
              rw [(List.cons.inj hclose).1] at hs
              exact hother t hs
    next => rfl

theorem nameIn?_fill {s : List (Slot ι)} {o : Option ((CharSet × Bool) × List (Slot ι))}
    (h : nameIn? s = some o) :
    Regex.nameIn? (ν.fill s) = o.map fun z => (z.1, ν.fill z.2) := by
  rcases onFirst_cases ν (by decide) h with ⟨t, rfl, ht⟩ | ⟨hne, hs⟩
  · show setName? (ν.fill t) = _
    rcases onFirst_cases ν (by decide) ht with ⟨u, rfl, hu⟩ | ⟨hne, ht⟩
    · exact signedName?_fill ν hu
    · rw [setName?_plain hne]
      exact signedName?_fill ν ht
  · cases hs
    simp only [Regex.nameIn?]
    rfl

/-- A bracket in a set; `opened` tells of each bracket that is open whether it is negated. -/
def inner? (f : Flags) (opened : List Bool) (s : List (Slot ι)) :
    Option (List Bool × List (Slot ι)) :=
  (nameIn? s).bind fun
    | some z => if z.1.2 && f.ascii then none else some (opened, z.2)
    | none => (bracketFront? f.verbose s).map fun z => (z.1 :: opened, z.2)

def close? (f : Flags) : List Bool → Option (List Bool)
  | negated :: opened => if negated && f.ascii then none else some opened
  | [] => none

/-- One step inside a set behind its first character. -/
def charStep? (f : Flags) (opened : List Bool) (c : Char) :
    List (Slot ι) → Option (List Bool × List (Slot ι)) :=
  let range (s : List (Slot ι)) := (setRange? f (.char c :: s)).map fun z => (opened, z.2)
  if c = '[' then inner? f opened
  else if c = ']' then fun s => (close? f opened).map (·, s)
  else if c ∈ ['&', '-', '~'] then onFirst c (fun s => some (opened, s)) range
  else range

/-- Reads a set to its end. The letters of a direction are items of it. -/
def setSteps? (f : Flags) : Nat → List Bool → List (Slot ι) → Option (Unit × List (Slot ι))
  | 0, _, _ => none
  | fuel + 1, opened, s =>
    match skip f.verbose s with
    | [] => none
    | .char c :: s => (charStep? f opened c s).bind fun z =>
      if z.1 = [] then some ((), z.2) else setSteps? f fuel z.1 z.2
    | .hole _ :: s => ((skip? f.verbose s).bind (rangeTail? f letterItems)).bind fun z =>
      setSteps? f fuel opened z.2

def bracket? (f : Flags) (s : List (Slot ι)) : Option (Unit × List (Slot ι)) :=
  (bracketFront? f.verbose s).bind fun z => setSteps? f (s.length + 1) [z.1] z.2

end Slot

/-- Open brackets with what stands before them. At most one operator waits in each. -/
inductive Frames : List SetFrame → List Bool → Prop
  | nil : Frames [] []
  | bracket {stack : List SetFrame} {opened : List Bool} (items : List SetNode) (negated : Bool)
      (h : Frames stack opened) : Frames (.bracket items negated :: stack) (negated :: opened)
  | op {stack : List SetFrame} {opened : List Bool} {items : List SetNode} {negated : Bool}
      (o : SetNode.Op) (left : SetNode) (h : Frames (.bracket items negated :: stack) opened) :
      Frames (.op o left :: .bracket items negated :: stack) opened

/-- What a step inside a set leaves. -/
inductive Reached : Option SetStep → List Bool → Prop
  | more {stack : List SetFrame} {opened : List Bool} (items : List SetNode)
      (h : Frames stack opened) (hne : opened ≠ []) : Reached (some (.more stack items)) opened
  | done (s : SetNode) : Reached (some (.done s)) []

theorem Flags.negateIf?_isSome {negated : Bool} (h : ¬(negated && f.ascii) = true) (s : CharSet) :
    ∃ t, f.negateIf? negated s = some t := by
  unfold Flags.negateIf?
  cases negated with
  | false => exact ⟨s, rfl⟩
  | true =>
    have hascii : f.ascii = false := by simpa using h
    rw [hascii]
    exact ⟨s.compl, rfl⟩

namespace Frames

variable {stack : List SetFrame} {opened opened' : List Bool} {items : List SetNode}

theorem eq_nil (h : Frames stack []) : stack = [] := by
  cases h with
  | nil => rfl
  | op o left h => cases h

theorem applyOp {negated : Bool} (h : Frames stack (negated :: opened)) (f : Flags) (s : SetNode) :
    ∃ s' items stack', Regex.applyOp f s stack = (s', .bracket items negated :: stack') ∧
      Frames stack' opened := by
  cases h with
  | bracket items _ h => exact ⟨s, items, _, rfl, h⟩
  | op o left h =>
    cases h with
    | bracket _ _ h => exact ⟨_, _, _, rfl, h⟩

theorem close (h : Frames stack opened) (hclose : Slot.close? f opened = some opened') :
    Reached (close? f stack items) opened' := by
  cases opened with
  | nil => cases hclose
  | cons negated opened =>
    obtain ⟨hnegated, hclose⟩ := Option.ite_none_left_eq_some.mp hclose
    cases hclose
    obtain ⟨s, outer, stack', happly, hstack⟩ := h.applyOp f (.ofItems items)
    obtain ⟨t, ht⟩ := Flags.negateIf?_isSome hnegated (f.fold s.set)
    have hbracketed : s.bracketed? f negated = some ⟨t, s.depth + 1⟩ := by
      rw [SetNode.bracketed?, ht]
      rfl
    unfold close?
    rw [happly]
    cases stack' with
    | nil =>
      simp only [hbracketed]
      cases hstack
      exact .done _
    | cons frame stack' =>
      simp only [hbracketed]
      refine .more _ hstack ?_
      rintro rfl
      cases hstack.eq_nil

theorem operator (h : Frames stack opened) (hne : opened ≠ []) (o : SetNode.Op) :
    Reached (some (setStep?.operator f stack items o)) opened := by
  obtain ⟨negated, rest, rfl⟩ := List.exists_cons_of_ne_nil hne
  obtain ⟨s, outer, stack', happly, hstack⟩ := h.applyOp f (.ofItems items)
  unfold setStep?.operator
  rw [happly]
  exact .more [] (.op o s (.bracket outer negated hstack)) hne

theorem inner (h : Frames stack opened) (hne : opened ≠ []) (items : List SetNode) :
    Follows ν Reached (inner? f stack items) (Slot.inner? f opened) where
  follow {s y s'} hs := by
    obtain ⟨o, ho, hs⟩ := Option.bind_eq_some_iff.mp hs
    have hname := Slot.nameIn?_fill ν ho
    cases o with
    | some z =>
      obtain ⟨hnegated, hs⟩ := Option.ite_none_left_eq_some.mp hs
      cases hs
      obtain ⟨t, ht⟩ := Flags.negateIf?_isSome hnegated (f.fold z.1.1)
      refine ⟨some _, .more (⟨t, 0⟩ :: items) h hne, ?_⟩
      rw [inner?_named f stack items hname, namedStep?, ht]
      rfl
    | none =>
      obtain ⟨⟨negated, rest⟩, hfront, hs⟩ := Option.map_eq_some_iff.mp hs
      cases hs
      obtain ⟨r, ⟨front, rfl⟩, hfill⟩ := (Slot.follows_bracketFront? ν).follow hfront
      refine ⟨some _, .more front (.bracket items negated h) (List.cons_ne_nil _ _), ?_⟩
      rw [inner?_open f stack items hname, openStep?, hfill]
      rfl

theorem charStep (h : Frames stack opened) (hne : opened ≠ []) (items : List SetNode) (c : Char) :
    Follows ν Reached (fun cs => setStep? f stack items (c :: cs)) (Slot.charStep? f opened c) := by
  have hrange : Follows ν Reached
      (fun cs => (setRange? f (c :: cs)).map fun z => (SetStep.more stack (z.1 :: items), z.2))
      fun s => (Slot.setRange? f (.char c :: s)).map fun z => (opened, z.2) := by
    refine ⟨fun {s y s'} hs => ?_⟩
    obtain ⟨⟨u, rest⟩, hrest, hs⟩ := Option.map_eq_some_iff.mp hs
    cases hs
    obtain ⟨r, hr, hfill⟩ := (Slot.follows_setRange? ν).follow hrest
    obtain ⟨item, rfl⟩ := Option.isSome_iff_exists.mp hr
    have hfill : setRange? f (c :: ν.fill s) = some (item, ν.fill rest) := hfill
    exact ⟨some _, .more (item :: items) h hne, by rw [hfill]; rfl⟩
  unfold Slot.charStep?
  dsimp only
  split
  next hc =>
    subst hc
    exact h.inner ν hne items
  next hopen =>
    split
    next hc =>
      subst hc
      refine ⟨fun {s y s'} hs => ?_⟩
      obtain ⟨opened', hclose, hs⟩ := Option.map_eq_some_iff.mp hs
      cases hs
      exact ⟨_, h.close hclose, rfl⟩
    next hclose =>
      split
      next hc =>
        obtain ⟨o, ho⟩ : ∃ o, ∀ cs, setStep? f stack items (c :: c :: cs) =
            some (setStep?.operator f stack items o, cs) := setStep?_twice f stack items hc
        have hletter : c ∉ directionLetters := by
          simp only [List.mem_cons, List.not_mem_nil, or_false] at hc
          rcases hc with rfl | rfl | rfl <;> decide
        exact .onFirst hletter (.takes (h.operator hne o)) hrange ho
          fun cs hcs => setStep?_plain f stack items hopen hclose fun _ => hcs
      next hc =>
        have hplain (cs : List Char) : setStep? f stack items (c :: cs) =
            (setRange? f (c :: cs)).map fun z => (SetStep.more stack (z.1 :: items), z.2) :=
          setStep?_plain f stack items hopen hclose fun h => absurd h hc
        rw [funext hplain]
        exact hrange

end Frames

section

variable (f : Flags) (stack : List SetFrame)

theorem setItem?_letter {c : Char} (hc : c ∈ directionLetters) (cs : List Char) :
    setItem? f (c :: cs) = some (.code c.toNat, cs) := by
  have hne : c ≠ '\\' := by
    rintro rfl
    exact absurd hc (by decide)
  have hcode : ∀ c ∈ directionLetters, decide (0x80 ≤ c.toNat) = false :=
    forall_letters.mpr (by decide)
  rw [setItem?_plain f hne, Flags.code?, hcode c hc, Bool.and_false]
  rfl

/-- The letters of a direction are items of a set. -/
theorem setSteps?_letters {letters : List Char} (hne : letters ≠ [])
    (hletters : ∀ c ∈ letters, c ∈ directionLetters) {s s' : List (Slot ι)}
    (hs : ((Slot.skip? f.verbose s).bind (Slot.rangeTail? f letterItems)) = some ((), s'))
    {n : Nat} (hn : (letters ++ ν.fill s).length < n) (items : List SetNode) :
    ∃ items' m, (ν.fill s').length < m ∧
      setSteps? f n stack items (letters ++ ν.fill s) =
        setSteps? f m stack items' (ν.fill s') := by
  induction letters generalizing n items with
  | nil => exact absurd rfl hne
  | cons c cs ih =>
    have hc := hletters c (List.mem_cons_self ..)
    have hsign : c ∉ ['[', ']', '&', '-', '~'] := by
      simp only [directionLetters, List.mem_cons, List.not_mem_nil, or_false] at hc
      rcases hc with rfl | rfl | rfl | rfl <;> decide
    simp only [List.mem_cons, List.not_mem_nil, or_false, not_or] at hsign
    obtain ⟨n, rfl⟩ : ∃ k, n = k + 1 := ⟨n - 1, by omega⟩
    rw [List.cons_append, List.length_cons] at hn
    have hdirected : Directed (c :: (cs ++ ν.fill s)) := ⟨c, hc, _, rfl⟩
    have hstep : nextStep? f stack items (c :: (cs ++ ν.fill s)) =
        ((skip? f.verbose (cs ++ ν.fill s)).bind (rangeTail? f (.code c.toNat))).map fun z =>
          (.more stack (z.1 :: items), z.2) := by
      rw [nextStep?, hdirected.skip?, Option.bind_some,
        setStep?_plain f stack items hsign.1 hsign.2.1 (by simp [hsign]), setRange?_eq,
        setItem?_letter f hc]
      rfl
    rw [List.cons_append, setSteps?_succ, hstep]
    by_cases hcs : cs = []
    · subst hcs
      have hitem : SetItem.code c.toNat ∈ letterItems := List.mem_map_of_mem hc
      obtain ⟨r, hr, hfill⟩ :=
        ((Slot.follows_rangeTail? ν hitem).skip? f.verbose).follow hs
      obtain ⟨item, rfl⟩ := Option.isSome_iff_exists.mp hr
      rw [List.nil_append, hfill]
      obtain ⟨ds, hds, htail⟩ := Option.bind_eq_some_iff.mp hfill
      have hlength := ((tails_rangeTail? f _).suffix htail).length_le
      have hlength' := (skip?_suffix hds).length_le
      rw [List.nil_append] at hn
      exact ⟨item :: items, n, by omega, rfl⟩
    · obtain ⟨d, ds, rfl⟩ := List.exists_cons_of_ne_nil hcs
      have hd := hletters d (List.mem_cons_of_mem c (List.mem_cons_self ..))
      have hdirected : Directed (d :: ds ++ ν.fill s) := ⟨d, hd, _, rfl⟩
      have htail : rangeTail? f (.code c.toNat) (d :: ds ++ ν.fill s) =
          some (singleItem (.code c.toNat), d :: ds ++ ν.fill s) := by
        have hhyphen : ∀ es, d :: ds ++ ν.fill s = '-' :: es → False := by
          rintro es hes
          rw [(List.cons.inj hes).1] at hd
          exact absurd hd (by decide)
        simp only [rangeTail?]
      rw [hdirected.skip?, Option.bind_some, htail]
      exact ih (List.cons_ne_nil d ds) (fun e he => hletters e (List.mem_cons_of_mem c he))
        (by omega) _

theorem setSteps?_fill {n m : Nat} {opened : List Bool} {s s' : List (Slot ι)}
    {stack : List SetFrame} (items : List SetNode) (h : Frames stack opened) (hne : opened ≠ [])
    (hm : (ν.fill s).length < m) (hs : Slot.setSteps? f n opened s = some ((), s')) :
    ∃ node, setSteps? f m stack items (ν.fill s) = some (node, ν.fill s') := by
  induction n generalizing m opened items s stack with
  | zero => cases hs
  | succ n ih =>
    have hskip := Slot.skip_fill ν f.verbose s
    have hshort := (skip_suffix f.verbose (ν.fill s)).length_le
    rw [Slot.setSteps?] at hs
    cases hslots : Slot.skip f.verbose s with
    | nil =>
      rw [hslots] at hs
      cases hs
    | cons x t =>
      rw [hslots] at hs hskip
      rw [hskip] at hshort
      have hskip? : skip? f.verbose (ν.fill s) = some (ν.fill (x :: t)) :=
        skip?_eq_some.mpr ⟨hskip, ν.fill_ne_nil (List.cons_ne_nil x t)⟩
      cases x with
      | char c =>
        obtain ⟨⟨opened', rest⟩, hstep, hs⟩ := Option.bind_eq_some_iff.mp hs
        obtain ⟨r, hr, hfill⟩ := (h.charStep ν hne items c).follow hstep
        obtain ⟨m, rfl⟩ : ∃ k, m = k + 1 := ⟨m - 1, by omega⟩
        rw [Naming.fill, List.length_cons] at hshort
        have hnext : nextStep? f stack items (ν.fill s) = r.map (·, ν.fill rest) := by
          rw [nextStep?, hskip?]
          exact hfill
        rw [setSteps?_succ, hnext]
        cases hr with
        | done node =>
          cases hs
          exact ⟨node, rfl⟩
        | more items' h' hne' =>
          have hrest := ((tails_setStep?_cons f stack items c).suffix hfill).length_le
          rw [if_neg hne'] at hs
          exact ih items' h' hne' (by omega) hs
      | hole i =>
        obtain ⟨⟨u, rest⟩, htail, hs⟩ := Option.bind_eq_some_iff.mp hs
        have hsame : setSteps? f m stack items (ν.fill s) =
            setSteps? f m stack items (ν.fill (.hole i :: t)) := by
          obtain ⟨m, rfl⟩ : ∃ k, m = k + 1 := ⟨m - 1, by omega⟩
          rw [setSteps?_succ, setSteps?_succ, nextStep?, nextStep?, hskip?,
            (ν.directed_hole i t).skip?]
        obtain ⟨items', k, hk, hletters⟩ := setSteps?_letters ν f stack (ν.ne_nil i) (ν.letters i)
          htail (Nat.lt_of_le_of_lt hshort hm) items
        rw [hsame, Naming.fill, hletters]
        exact ih items' h hne hk hs

/-- A set in brackets is read alike whatever the directions in it are. -/
theorem follows_bracket? : Follows ν Some (bracket? f) (Slot.bracket? f) where
  follow {s y s'} hs := by
    obtain ⟨⟨negated, rest⟩, hfront, hs⟩ := Option.bind_eq_some_iff.mp hs
    obtain ⟨r, ⟨items, rfl⟩, hfill⟩ := (Slot.follows_bracketFront? ν).follow hfront
    have hlength := ((tails_bracketFront? f.verbose).suffix hfill).length_le
    have hframes : Frames [.bracket [] negated] [negated] := .bracket [] negated .nil
    obtain ⟨node, hnode⟩ := setSteps?_fill ν f items hframes (List.cons_ne_nil _ _)
      (Nat.lt_succ_of_le hlength) hs
    refine ⟨some node, rfl, ?_⟩
    rw [bracket?_eq, hfill]
    exact hnode

end

end

end ParticleAutomaton.Regex
