import ParticleAutomaton.Proofs.Tails

namespace ParticleAutomaton.Regex

theorem tails_count? (v : Bool) : Tails NeverLate (count? v) where
  carries cs := by
    have hlength := (List.dropWhile_suffix (l := cs) Unicode.isSpace).length_le
    have hmore : (cs.dropWhile Unicode.isSpace).length ≤ (cs ++ ending).length := by
      rw [List.length_append]
      omega
    unfold count?
    rw [dropWhile_ending]
    rcases spaced_fuel_ending v Char.isDigit rfl hlength hmore with h | ⟨h, h'⟩
    · rw [h]
      simp only
      split
      · rw [dropWhile_ending]
        exact .read ..
      · exact .refused
    · rw [h']
      generalize spaced v Char.isDigit cs.length (cs.dropWhile Unicode.isSpace) = found at h ⊢
      obtain ⟨ds, rest⟩ := found
      cases h
      simp only
      split
      · exact .comment _
      · exact .refused
  suffix {cs x rest} h := by
    have hspaced := spaced_suffix v Char.isDigit cs.length (cs.dropWhile Unicode.isSpace)
    unfold count? at h
    generalize spaced v Char.isDigit cs.length (cs.dropWhile Unicode.isSpace) = found at h hspaced
    simp only [Option.ite_none_right_eq_some, Option.some.injEq, Prod.mk.injEq] at h
    obtain ⟨-, -, rfl⟩ := h
    have hrest := List.dropWhile_suffix (l := found.2) Unicode.isSpace
    exact (hrest.trans hspaced).trans (List.dropWhile_suffix _)

theorem count?_ending (v : Bool) : count? v ending = none := by
  cases v <;> decide +kernel

theorem greed_ending (cs : List Char) :
    greed (cs ++ ending) = ((greed cs).1, (greed cs).2 ++ ending) := by
  cases cs with
  | nil => rfl
  | cons c cs =>
    by_cases hc : c = '?'
    · subst hc
      rfl
    · simp [greed, hc]

theorem greed_suffix (cs : List Char) : (greed cs).2 <:+ cs := by
  unfold greed
  split
  next rest => exact List.suffix_cons _ rest
  next => exact List.suffix_rfl

theorem tails_greed : Tails NeverLate fun cs => some (greed cs) where
  carries cs := by
    rw [greed_ending]
    exact .read ..
  suffix {cs x rest} h := by
    have hsuffix := greed_suffix cs
    rw [Option.some.inj h] at hsuffix
    exact hsuffix

/-- The upper end of a repetition behind its comma. -/
def upperCount? (v : Bool) (min : Nat) : List Char → Option (Option Nat × List Char)
  | '\x7d' :: cs => some (none, '\x7d' :: cs)
  | cs => (count? v cs).bind fun z => if min ≤ z.1 then some (some z.1, z.2) else none

/-- The upper end of a repetition, which is the lower one if there is no comma. -/
def upper? (v : Bool) (min : Nat) : List Char → Option (Option Nat × List Char)
  | ',' :: cs => (skip? v cs).bind (upperCount? v min)
  | cs => some (some min, cs)

/-- The end of a repetition. -/
def brace? (v : Bool) (min : Nat) (max : Option Nat) : List Char → Option (Quantifier × List Char)
  | '\x7d' :: cs => some (⟨min, max, (greed (skip v cs)).1⟩, (greed (skip v cs)).2)
  | _ => none

theorem upper?_plain {v : Bool} {min : Nat} {cs : List Char}
    (hcs : ∀ ds, cs = ',' :: ds → False) : upper? v min cs = some (some min, cs) := by
  unfold upper?
  split
  next ds => exact (hcs ds rfl).elim
  next => rfl

theorem quantifier?_eq (v : Bool) (cs : List Char) :
    quantifier? v cs = (skip? v cs).bind fun cs => (count? v cs).bind fun z =>
      (upper? v z.1 z.2).bind fun w => brace? v z.1 w.1 w.2 := by
  unfold quantifier?
  refine congrArg (Option.bind _) (funext fun cs => congrArg (Option.bind _) (funext fun z => ?_))
  obtain ⟨min, rest⟩ := z
  dsimp only
  split
  next cs =>
    simp only [upper?, Option.bind_eq_bind, Option.bind_assoc]
    refine congrArg (Option.bind _) (funext fun cs => ?_)
    unfold upperCount?
    split
    next => rfl
    next =>
      simp only [Option.bind_assoc]
      refine congrArg (Option.bind _) (funext fun z => ?_)
      split <;> rfl
  next hother =>
    rw [upper?_plain hother]
    rfl

/-- An upper end that is not below the lower one. -/
def upperEnd? (min max : Nat) : Option (Option Nat) := if min ≤ max then some (some max) else none

theorem upperCount?_count {v : Bool} {min : Nat} {cs : List Char}
    (hcs : ∀ ds, cs = '\x7d' :: ds → False) : upperCount? v min cs =
      (count? v cs).bind fun z => (upperEnd? min z.1).map (·, z.2) := by
  simp only [upperCount?]
  refine congrArg (Option.bind _) (funext fun z => ?_)
  unfold upperEnd?
  split <;> rfl

theorem tails_upperCount? (v : Bool) (min : Nat) : Tails NeverLate (upperCount? v min) := by
  have hcount : Tails NeverLate fun cs =>
      (count? v cs).bind fun z => (upperEnd? min z.1).map (·, z.2) :=
    (tails_count? v).choose (upperEnd? min) fun _ _ _ h _ => h
  let unbounded (cs : List Char) : Option (Option Nat × List Char) := some (none, '\x7d' :: cs)
  have hunbounded (cs : List Char) :
      Carries NeverLate (unbounded cs) (unbounded (cs ++ ending)) := .read none ('\x7d' :: cs)
  exact Tails.atChar '\x7d' (by decide) hunbounded (fun h => by cases h; exact List.suffix_rfl)
    hcount (fun _ => rfl) fun _ => upperCount?_count

theorem tails_upper? (v : Bool) (min : Nat) : Tails NeverLate (upper? v min) := by
  refine ((tails_upperCount? v min).skip? (fun {x rest} h => ?_) v).onChar ',' (by decide)
    (.takes (some min)) (fun _ => rfl) fun cs h => by simp only [upper?]
  -- The ending does not start with a number.
  have hnone : upperCount? v min ending = none := by
    have hcount := count?_ending v
    simp only [ending] at hcount
    simp [upperCount?, ending, hcount]
  cases hnone.symm.trans h

theorem tails_brace? (v : Bool) (min : Nat) (max : Option Nat) :
    Tails NeverLate (brace? v min max) := by
  have hgreed : Tails NeverLate fun cs =>
      some ((⟨min, max, (greed cs).1⟩ : Quantifier), (greed cs).2) :=
    tails_greed.map (Quantifier.mk min max) fun _ _ h => h
  exact (hgreed.skip v).onChar '\x7d' (by decide) .refuses (fun _ => rfl) fun cs h => by
    simp only [brace?]

theorem tails_quantifier? (v : Bool) : Tails NeverLate (quantifier? v) := by
  have hquantifier := (tails_count? v).andThen fun min =>
    (tails_upper? v min).andThen fun max => tails_brace? v min max
  have hskip := hquantifier.skip? (fun {x rest} h => ?_) v
  · exact (funext (quantifier?_eq v)) ▸ hskip
  · rw [count?_ending] at h
    cases h

/-- The end of a number in braces. -/
def hexBrace? (v : Bool) (ds : List Char) : List Char → Option (Char × List Char)
  | '\x7d' :: rest => (charOfHex? ds).map (·, skip v rest)
  | _ => none

/-- A number in braces, or of so many digits. -/
def hexNumber? (v : Bool) (size : Nat) : List Char → Option (Char × List Char)
  | '\x7b' :: cs =>
    let found := spaced v isHex (skip v cs).length (skip v cs)
    hexBrace? v found.1 found.2
  | cs =>
    let found := spaced v isHex size cs
    if found.1.length = size then (charOfHex? found.1).map (·, found.2) else none

theorem hex?_eq (v : Bool) (size : Nat) (cs : List Char) :
    hex? v size cs = (skip? v cs).bind (hexNumber? v size) := rfl

theorem tails_hex? (v : Bool) {size : Nat} (hsize : 0 < size) : Tails NeverLate (hex? v size) := by
  have hkind : isHex ')' = false := by decide
  have hbrace : ∀ ds, Tails NeverLate (hexBrace? v ds) := fun ds =>
    ((Tails.gives (charOfHex? ds)).skip v).onChar '\x7d' (by decide) .refuses (fun _ => rfl)
      fun cs h => by simp only [hexBrace?]
  have hdigits : ∀ ds, Tails NeverLate fun rest =>
      if ds.length = size then (charOfHex? ds).map (·, rest) else none := by
    intro ds
    split
    · exact .gives _
    · exact .refuses
  have hbraced := ((tails_spaced_all v hkind).andThen hbrace).skip v
  have hplain := (tails_spaced v hkind size).andThen hdigits
  have hnumber : Tails NeverLate (hexNumber? v size) :=
    hbraced.onChar '\x7b' (by decide) hplain (fun _ => rfl) fun cs h => by
      simp only [hexNumber?]
      rfl
  refine funext (hex?_eq v size) ▸ hnumber.skip? (fun {x rest} h => ?_) v
  have hnone : hexNumber? v size ending = none := by
    obtain ⟨n, rfl⟩ := Nat.exists_eq_succ_of_ne_zero (Nat.ne_of_gt hsize)
    simp [hexNumber?, ending, spaced, hkind]
  cases hnone.symm.trans h

/-- The property of a name, and whether the name says that it does not hold. -/
def namedProperty? (name : List Char) : Option (Unicode.Property × Bool) :=
  match splitAt? ['!', '='] name with
  | some (table, value) => (Unicode.Property.ofNameValue? table value).map (·, true)
  | none =>
    match (splitAt? [':'] name).or (splitAt? ['='] name) with
    | some (table, value) => (Unicode.Property.ofNameValue? table value).map (·, false)
    | none => (Unicode.Property.ofName? name).map (·, false)

/-- A property with its name in braces. -/
def bracedProperty? (v : Bool) (cs : List Char) : Option ((Unicode.Property × Bool) × List Char) :=
  let found := spaced v (· != '\x7d') cs.length cs
  if found.2 = [] then none else (namedProperty? found.1).map (·, found.2.drop 1)

/-- A property with a name of one letter. -/
def letterProperty? (v : Bool) : List Char → Option ((Unicode.Property × Bool) × List Char)
  | c :: cs =>
    if c = '\\' then none
    else (Unicode.Property.ofName? [c]).map fun p => ((p, false), skip v cs)
  | [] => none

def nameOfProperty? (v : Bool) : List Char → Option ((Unicode.Property × Bool) × List Char)
  | '\x7b' :: cs => bracedProperty? v (skip v cs)
  | cs => letterProperty? v cs

theorem property?_eq (v : Bool) (cs : List Char) :
    property? v cs = (skip? v cs).bind (nameOfProperty? v) := by
  unfold property?
  refine congrArg (Option.bind _) (funext fun cs => ?_)
  unfold nameOfProperty?
  split
  next => rfl
  next => rfl
  next c cs hbrace hslash =>
    split
    next hcs => exact (hbrace (List.cons.inj hcs).1).elim
    next => exact (if_neg hslash).symm
  next => rfl

theorem tails_bracedProperty? (v : Bool) : Tails NeverLate (bracedProperty? v) where
  carries cs := by
    have hmore : cs.length ≤ (cs ++ ending).length := by simp
    have hfuel := spaced_fuel v (· != '\x7d') (Nat.le_refl cs.length) hmore
    simp only [bracedProperty?, hfuel]
    by_cases hrest : (spaced v (· != '\x7d') (cs ++ ending).length cs).2 = []
    · rw [if_pos hrest, if_pos (spaced_through v rfl rfl _ cs (Nat.le_refl _) hrest)]
      exact .refused
    · have hmore := List.append_ne_nil_of_left_ne_nil hrest ending
      rw [spaced_found v _ _ cs hrest, if_neg hrest, if_neg hmore,
        List.drop_append_of_le_length (List.length_pos_iff.mpr hrest)]
      exact (Tails.gives _).carries _
  suffix {cs x rest} h := by
    have hsuffix := spaced_suffix v (· != '\x7d') cs.length cs
    simp only [bracedProperty?] at h
    split at h
    next => cases h
    next =>
      obtain ⟨y, -, hy⟩ := Option.map_eq_some_iff.mp h
      cases hy
      exact (List.drop_suffix ..).trans hsuffix

theorem tails_letterProperty?_cons (v : Bool) (c : Char) :
    Tails NeverLate fun cs => letterProperty? v (c :: cs) := by
  simp only [letterProperty?]
  split
  next => exact .refuses
  next =>
    cases Unicode.Property.ofName? [c] with
    | none => exact .refuses
    | some p => exact (Tails.takes (p, false)).skip v

theorem tails_letterProperty? (v : Bool) : Tails NeverLate (letterProperty? v) :=
  .ofCons (tails_letterProperty?_cons v) rfl

theorem tails_property? (v : Bool) : Tails NeverLate (property? v) := by
  have hname : Tails NeverLate (nameOfProperty? v) :=
    ((tails_bracedProperty? v).skip v).onChar '\x7b' (by decide) (tails_letterProperty? v)
      (fun _ => rfl) fun cs h => by simp only [nameOfProperty?]
  refine funext (property?_eq v) ▸ hname.skip? (fun {x rest} h => ?_) v
  exact Or.inl ((tails_letterProperty?_cons v ')').suffix h)

/-- The braces behind a word boundary take in the ending, though no name stands in it. -/
def LateBrace (v : Bool) (rest : List Char) : Prop :=
  ∃ inner, rest = '\x7b' :: (inner ++ ending) ∧ skip? v inner = none

theorem quantifier?_none {v : Bool} {inner : List Char} (h : skip? v inner = none) :
    quantifier? v (inner ++ ending) = none := by
  rw [quantifier?_eq]
  rcases skip?_ending v inner with ⟨c, rest, hcs, -⟩ | ⟨-, hcs | hcs⟩
  · cases h.symm.trans hcs
  · rw [hcs, Option.bind_some, count?_ending]
    rfl
  · rw [hcs]
    rfl

def isBoundaryName (c : Char) : Bool := c.isAlpha || c == '-'

/-- The end of a boundary with a name. -/
def boundaryEnd? (name : List Char) : List Char → Option (Boundary × List Char)
  | '\x7d' :: rest => (boundaryName? name).map (·, rest)
  | _ => none

/-- The inside of the braces behind a boundary; without a name they are read once more. -/
def boundaryInner? (v : Bool) (cs inner : List Char) : Option (Boundary × List Char) :=
  let found := spaced v isBoundaryName inner.length inner
  if found.1 = [] then some (.edge, cs) else boundaryEnd? found.1 found.2

theorem boundary?_brace (v : Bool) (inner : List Char) :
    boundary? v ('\x7b' :: inner) =
      (skip? v inner).bind (boundaryInner? v ('\x7b' :: inner)) := rfl

theorem tails_boundaryEnd? (name : List Char) : Tails NeverLate (boundaryEnd? name) :=
  (Tails.gives (boundaryName? name)).onChar '\x7d' (by decide) .refuses (fun _ => rfl)
    fun cs h => by simp only [boundaryEnd?]

theorem carries_boundaryInner? (v : Bool) {late : Boundary → List Char → Prop}
    (cs inner : List Char) :
    Carries late (boundaryInner? v cs inner)
      (boundaryInner? v (cs ++ ending) (inner ++ ending)) := by
  have hmore : inner.length ≤ (inner ++ ending).length := by simp
  have hend (name rest : List Char) :
      Carries late (boundaryEnd? name rest) (boundaryEnd? name (rest ++ ending)) :=
    ((tails_boundaryEnd? name).mono fun _ _ h => h.elim).carries rest
  simp only [boundaryInner?]
  rcases spaced_fuel_ending v isBoundaryName rfl (Nat.le_refl _) hmore with h | ⟨h, h'⟩
  · rw [h]
    split
    · exact .read Boundary.edge cs
    · exact hend _ _
  · rw [h', h]
    split
    · exact .read Boundary.edge cs
    · exact .refused

theorem boundaryInner?_suffix {v : Bool} {cs inner rest : List Char} {b : Boundary}
    (hinner : inner <:+ cs) (h : boundaryInner? v cs inner = some (b, rest)) : rest <:+ cs := by
  simp only [boundaryInner?] at h
  split at h
  next =>
    cases h
    exact List.suffix_rfl
  next =>
    have hspaced := spaced_suffix v isBoundaryName inner.length inner
    exact (((tails_boundaryEnd? _).suffix h).trans hspaced).trans hinner

theorem tails_boundary? (v : Bool) : Tails (fun _ => LateBrace v) (boundary? v) := by
  refine Tails.atChar '\x7b' (by decide) (fun inner => ?_) (fun {inner b rest} h => ?_)
    (.takes .edge) (boundary?_brace v) fun cs h => by simp only [boundary?]
  · rcases skip?_ending v inner with ⟨c, rest, hcs, hcs'⟩ | ⟨hcs, hcs' | hcs'⟩
    · rw [hcs, hcs']
      exact carries_boundaryInner? v ('\x7b' :: inner) (c :: rest)
    · rw [hcs, hcs']
      exact .late _ _ ⟨inner, rfl, hcs⟩
    · rw [hcs, hcs']
      exact .refused
  · obtain ⟨ds, hds, h⟩ := Option.bind_eq_some_iff.mp h
    exact boundaryInner?_suffix ((skip?_suffix hds).trans (List.suffix_cons ..)) h

theorem head?_skip_ending (v : Bool) (cs : List Char) :
    ((skip v (cs ++ ending)).head? != some '\x7b') = ((skip v cs).head? != some '\x7b') := by
  rcases skip_ending v cs with h | ⟨h, h'⟩
  · rw [h]
    cases skip v cs <;> rfl
  · rw [h, h']

theorem escape?_letter (v : Bool) {c : Char} (hc : c ∉ ['x', 'u', 'U', 'p', 'P', 'b'])
    (cs : List Char) :
    escape? v (c :: cs) = ((escape? v [c]).map Prod.fst).map (·, cs) := by
  simp only [List.mem_cons, List.not_mem_nil, or_false, not_or] at hc
  obtain ⟨hx, hu, hU, hp, hP, hb⟩ := hc
  unfold escape?
  dsimp only
  split
  all_goals first | contradiction | rfl | skip
  split <;> rfl

def LateWord (v : Bool) (e : Escape) (rest : List Char) : Prop :=
  (∃ b, e = .word b) ∧ LateBrace v rest

theorem tails_escape?_cons (v : Bool) (c : Char) :
    Tails (LateWord v) fun cs => escape? v (c :: cs) := by
  have hhex (size : Nat) (hsize : 0 < size) (byte : Bool) : Tails (LateWord v) fun cs =>
      (hex? v size cs).map fun z => (Escape.char z.1 byte, z.2) :=
    (tails_hex? v hsize).map (Escape.char · byte) fun _ _ h => h.elim
  have hproperty (turn : Bool → Bool) : Tails (LateWord v) fun cs =>
      (property? v cs).map fun z => (Escape.property z.1.1 (turn z.1.2), z.2) :=
    (tails_property? v).map (fun p => Escape.property p.1 (turn p.2)) fun _ _ h => h.elim
  by_cases hc : c ∈ ['x', 'u', 'U', 'p', 'P', 'b']
  · simp only [List.mem_cons, List.not_mem_nil, or_false] at hc
    rcases hc with rfl | rfl | rfl | rfl | rfl | rfl
    · have hescape (cs : List Char) : escape? v ('x' :: cs) = (hex? v 2 cs).map fun z =>
          (Escape.char z.1 ((skip v cs).head? != some '\x7b'), z.2) := rfl
      refine ⟨fun cs => ?_, fun {cs x rest} h => (hhex 2 (by decide) _).suffix h⟩
      rw [hescape, hescape, head?_skip_ending]
      exact (hhex 2 (by decide) _).carries cs
    · exact hhex 4 (by decide) false
    · exact hhex 8 (by decide) false
    · exact hproperty id
    · exact hproperty not
    · exact (tails_boundary? v).map Escape.word fun b _ h => ⟨⟨b, rfl⟩, h⟩
  · rw [funext (escape?_letter v hc)]
    exact .gives _

theorem tails_escape? (v : Bool) : Tails (LateWord v) (escape? v) :=
  .ofCons (tails_escape?_cons v) rfl

end ParticleAutomaton.Regex
