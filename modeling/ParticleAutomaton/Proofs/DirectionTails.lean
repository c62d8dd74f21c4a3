import ParticleAutomaton.Proofs.LexerTails

namespace ParticleAutomaton.Regex

/-- The letters of the names of directions. -/
def directionLetters : List Char := ['n', 'e', 's', 'w']

theorem forall_letters {p : Char → Prop} :
    (∀ c ∈ directionLetters, p c) ↔ p 'n' ∧ p 'e' ∧ p 's' ∧ p 'w' := by
  simp [directionLetters]

/-- A text that starts with a letter of a direction. -/
def Directed (t : List Char) : Prop := ∃ c ∈ directionLetters, ∃ ds, t = c :: ds

def north : List Char := ['n']

theorem directed_north : Directed north := ⟨'n', by decide, [], rfl⟩

/-- A reader that stops in front of one letter of a direction reads the same in front of any
direction and what follows it. -/
structure Swaps {α : Type} (f : List Char → Option (α × List Char)) : Prop where
  swap : ∀ {cs left x t}, Directed t → f (cs ++ north) = some (x, left ++ north) →
    f (cs ++ t) = some (x, left ++ t)
  suffix : ∀ {cs x rest}, f cs = some (x, rest) → rest <:+ cs

section

variable {v : Bool} {t t' cs left : List Char}

theorem Directed.all (ht : Directed t) {p : Char → Bool}
    (hp : directionLetters.all p = true) : ∃ c ds, t = c :: ds ∧ p c = true := by
  obtain ⟨c, hc, ds, rfl⟩ := ht
  exact ⟨c, ds, rfl, List.all_eq_true.mp hp c hc⟩

theorem Directed.ne (ht : Directed t) {c : Char} (hc : c ∉ directionLetters) (ds : List Char) :
    t ≠ c :: ds := by
  obtain ⟨d, hd, es, rfl⟩ := ht
  intro he
  exact hc ((List.cons.inj he).1 ▸ hd)

theorem Directed.append_ne (ht : Directed t) {c : Char} (hc : c ∉ directionLetters)
    (h : ∀ ds, cs = c :: ds → False) (ds : List Char) (hds : cs ++ t = c :: ds) : False := by
  cases cs with
  | nil => exact ht.ne hc ds hds
  | cons d cs => exact h cs (congrArg (· :: cs) (List.cons.inj hds).1)

theorem Directed.head?_ne (ht : Directed t) {c : Char} (hc : c ∉ directionLetters)
    (ds : List Char) : ((ds ++ t).head? != some c) = ((ds ++ north).head? != some c) := by
  have hne {t : List Char} (ht : Directed t) : (t.head? != some c) = true := by
    obtain ⟨d, hd, es, rfl⟩ := ht
    refine bne_iff_ne.mpr fun h => hc ?_
    rwa [← Option.some.inj h]
  cases ds with
  | nil => exact (hne ht).trans (hne directed_north).symm
  | cons d ds => rfl

/-- What is left of a text up to some place behind it is left of the text. -/
theorem exists_left {rest : List Char} (h : rest <:+ cs ++ t) (hlength : t.length ≤ rest.length) :
    ∃ ds, rest = ds ++ t ∧ ds <:+ cs := by
  obtain ⟨ds, rfl⟩ := List.suffix_of_suffix_length_le (List.suffix_append cs t) h hlength
  obtain ⟨front, hfront⟩ := h
  rw [← List.append_assoc] at hfront
  exact ⟨ds, rfl, front, List.append_cancel_right hfront⟩

theorem length_of_suffix {rest : List Char} (h : left ++ t <:+ rest) : t.length ≤ rest.length := by
  have hlength := h.length_le
  rw [List.length_append] at hlength
  omega

namespace Swaps

variable {α β : Type} {f : List Char → Option (α × List Char)}

theorem refuses : Swaps fun _ => (none : Option (α × List Char)) := ⟨fun _ => nofun, nofun⟩

theorem takes (x : α) : Swaps fun cs => some (x, cs) where
  swap _ h := by
    simp only [Option.some.injEq, Prod.mk.injEq] at h ⊢
    obtain ⟨rfl, h⟩ := h
    exact ⟨rfl, by rw [List.append_cancel_right h]⟩
  suffix h := by
    cases h
    exact List.suffix_rfl

theorem gives (o : Option α) : Swaps fun cs => o.map (·, cs) := by
  cases o with
  | none => exact refuses
  | some x => exact takes x

theorem andThen (h : Swaps f) {g : α → List Char → Option (β × List Char)}
    (hg : ∀ x, Swaps (g x)) : Swaps fun cs => (f cs).bind fun z => g z.1 z.2 where
  swap ht hcs := by
    obtain ⟨⟨x, rest⟩, hf, hcs⟩ := Option.bind_eq_some_iff.mp hcs
    obtain ⟨ds, rfl, -⟩ := exists_left (h.suffix hf) (length_of_suffix ((hg x).suffix hcs))
    rw [h.swap ht hf]
    exact (hg x).swap ht hcs
  suffix hcs := by
    obtain ⟨⟨x, rest⟩, hf, hcs⟩ := Option.bind_eq_some_iff.mp hcs
    exact ((hg x).suffix hcs).trans (h.suffix hf)

theorem choose (h : Swaps f) (g : α → Option β) :
    Swaps fun cs => (f cs).bind fun z => (g z.1).map (·, z.2) :=
  h.andThen fun x => gives (g x)

theorem map (h : Swaps f) (g : α → β) : Swaps fun cs => (f cs).map fun z => (g z.1, z.2) := by
  have hmap : (fun cs => (f cs).map fun z => (g z.1, z.2)) =
      fun cs => (f cs).bind fun z => (some (g z.1)).map (·, z.2) :=
    funext fun cs => by cases f cs <;> rfl
  rw [hmap]
  exact h.choose fun x => some (g x)

/-- A reader that reads at least one character. -/
theorem ofCons (h : ∀ c, Swaps fun cs => f (c :: cs)) (hnil : f [] = none) : Swaps f := by
  have hsuffix {cs : List Char} {x : α} {rest : List Char} (hcs : f cs = some (x, rest)) :
      rest <:+ cs.tail := by
    cases cs with
    | nil => cases hnil.symm.trans hcs
    | cons c cs => exact (h c).suffix hcs
  refine ⟨fun {cs left x t} ht hcs => ?_, fun hcs => (hsuffix hcs).trans (List.tail_suffix _)⟩
  cases cs with
  | nil => exact absurd (length_of_suffix (hsuffix hcs)) (by decide)
  | cons c cs => exact (h c).swap ht hcs

/-- A reader that goes another way in front of a character that starts no direction. -/
theorem atChar (c : Char) (hc : c ∉ directionLetters) {g h : List Char → Option (α × List Char)}
    (hg : ∀ {cs left x t}, Directed t → g (cs ++ north) = some (x, left ++ north) →
      g (cs ++ t) = some (x, left ++ t))
    (hgsuffix : ∀ {cs x rest}, g cs = some (x, rest) → rest <:+ c :: cs)
    (hh : Swaps h) (hfg : ∀ cs, f (c :: cs) = g cs)
    (hfh : ∀ cs, (∀ ds, cs = c :: ds → False) → f cs = h cs) : Swaps f where
  swap {cs left x t} ht hcs := by
    by_cases hds : ∃ ds, cs = c :: ds
    · obtain ⟨ds, rfl⟩ := hds
      rw [List.cons_append, hfg] at hcs ⊢
      exact hg ht hcs
    · have hne : ∀ ds, cs = c :: ds → False := fun ds h => hds ⟨ds, h⟩
      rw [hfh _ (directed_north.append_ne hc hne)] at hcs
      rw [hfh _ (ht.append_ne hc hne)]
      exact hh.swap ht hcs
  suffix {cs x rest} hcs := by
    by_cases hds : ∃ ds, cs = c :: ds
    · obtain ⟨ds, rfl⟩ := hds
      rw [hfg] at hcs
      exact hgsuffix hcs
    · rw [hfh _ fun ds h => hds ⟨ds, h⟩] at hcs
      exact hh.suffix hcs

/-- A reader that goes on in another way behind such a character. -/
theorem onChar (c : Char) (hc : c ∉ directionLetters) {g h : List Char → Option (α × List Char)}
    (hg : Swaps g) (hh : Swaps h) (hfg : ∀ cs, f (c :: cs) = g cs)
    (hfh : ∀ cs, (∀ ds, cs = c :: ds → False) → f cs = h cs) : Swaps f :=
  atChar c hc hg.swap (fun h => (hg.suffix h).trans (List.suffix_cons ..)) hh hfg hfh

end Swaps

theorem Directed.skipBlank (ht : Directed t) : skipBlank false t = t := by
  obtain ⟨c, ds, rfl, hc⟩ := ht.all (p := fun c => !(c == '#') && !Unicode.isSpace c) (by decide)
  simp only [Bool.and_eq_true, Bool.not_eq_true'] at hc
  simp [Regex.skipBlank, hc.1, hc.2]

/-- Blanks end in front of a direction, unless it stands in a comment. -/
theorem skipBlank_cases (b : Bool) (cs : List Char) :
    (∀ {t}, Directed t → skipBlank b (cs ++ t) = skipBlank b cs ++ t) ∨
      ∀ {t}, Directed t → (skipBlank b (cs ++ t)).length < t.length := by
  fun_induction skipBlank b cs with
  | case1 b =>
    cases b with
    | false => exact Or.inl fun ht => ht.skipBlank
    | true =>
      refine Or.inr fun ht => ?_
      obtain ⟨c, -, ds, rfl⟩ := ht
      exact Nat.lt_succ_of_le (skipBlank_suffix (c != '\n') ds).length_le
  | case2 c cs ih => exact ih
  | case3 c cs hc ih =>
    simp only [List.cons_append, skipBlank, if_pos hc]
    exact ih
  | case4 c cs hc hs ih =>
    simp only [List.cons_append, skipBlank, if_neg hc, if_pos hs]
    exact ih
  | case5 c cs hc hs =>
    refine Or.inl fun _ => ?_
    rw [List.cons_append, skipBlank, if_neg hc, if_neg hs]

theorem skip_cases (v : Bool) (cs : List Char) :
    (∀ {t}, Directed t → skip v (cs ++ t) = skip v cs ++ t) ∨
      ∀ {t}, Directed t → (skip v (cs ++ t)).length < t.length := by
  cases v with
  | false => exact Or.inl fun _ => rfl
  | true => exact skipBlank_cases false cs

theorem Directed.ne_nil (ht : Directed t) : t ≠ [] := by
  obtain ⟨c, -, ds, rfl⟩ := ht
  exact List.cons_ne_nil c ds

/-- Where something is left behind blanks, they end in front of the direction. -/
theorem skip_left (hlength : 0 < (skip v (cs ++ north)).length) (ht : Directed t) :
    skip v (cs ++ t) = skip v cs ++ t := by
  rcases skip_cases v cs with h | h
  · exact h ht
  · have hshort : (skip v (cs ++ north)).length < 1 := h directed_north
    omega

theorem Directed.skip (ht : Directed t) (v : Bool) : skip v t = t := by
  cases v with
  | false => rfl
  | true => exact ht.skipBlank

theorem Directed.skip? (ht : Directed t) (v : Bool) : skip? v t = some t :=
  skip?_eq_some.mpr ⟨ht.skip v, ht.ne_nil⟩

namespace Swaps

variable {α : Type} {f : List Char → Option (α × List Char)}

/-- Blanks in front of something that is read. -/
theorem skip (h : Swaps f) : Swaps fun cs => f (Regex.skip v cs) where
  swap ht hcs := by
    have hlength := length_of_suffix (h.suffix hcs)
    rw [skip_left hlength directed_north] at hcs
    rw [skip_left hlength ht]
    exact h.swap ht hcs
  suffix hcs := (h.suffix hcs).trans (skip_suffix ..)

/-- A reader that goes on where the pattern must do so. -/
theorem skip? (h : Swaps f) : Swaps fun cs => (Regex.skip? v cs).bind f where
  swap {cs left x t} ht hcs := by
    obtain ⟨rest, hrest, hcs⟩ := Option.bind_eq_some_iff.mp hcs
    obtain ⟨rfl, -⟩ := skip?_eq_some.mp hrest
    have hlength := length_of_suffix (h.suffix hcs)
    have hskip := skip_left hlength ht
    have hne : Regex.skip v (cs ++ t) ≠ [] := by
      rw [hskip]
      exact List.append_ne_nil_of_right_ne_nil _ ht.ne_nil
    rw [skip?_eq_some.mpr ⟨hskip, hskip ▸ hne⟩, Option.bind_some]
    rw [skip_left hlength directed_north] at hcs
    exact h.swap ht hcs
  suffix hcs := by
    obtain ⟨rest, hrest, hcs⟩ := Option.bind_eq_some_iff.mp hcs
    exact (h.suffix hcs).trans (skip?_suffix hrest)

end Swaps

/-- The characters of a kind end where a letter stands that is not of the kind, where something
else stands behind them already, and where there are as many of them as there may be. -/
theorem spaced_swap (ht : Directed t) (kind : Char → Bool) {n : Nat}
    (hstop : (directionLetters.all fun c => !kind c) = true ∨ left ≠ [] ∨
      (spaced v kind n (cs ++ north)).1.length = n)
    (h : (spaced v kind n (cs ++ north)).2 = left ++ north) :
    spaced v kind n (cs ++ t) = ((spaced v kind n (cs ++ north)).1, left ++ t) := by
  induction n generalizing cs with
  | zero =>
    have hzero (ds : List Char) : spaced v kind 0 ds = ([], ds) := by cases ds <;> rfl
    rw [hzero] at h ⊢
    rw [hzero, List.append_cancel_right h]
  | succ n ih =>
    cases cs with
    | nil =>
      rw [List.nil_append, north, spaced] at h hstop
      cases hkind : kind 'n' with
      | true =>
        rw [hkind] at h
        have h : (spaced v kind n (skip v [])).2 = left ++ north := h
        have hrest := (spaced_suffix v kind n (skip v [])).trans (skip_suffix v [])
        rw [h] at hrest
        exact absurd (length_of_suffix hrest) (by decide)
      | false =>
        rw [hkind] at h hstop
        have hleft : left = [] := by
          have hnil : [] ++ north = left ++ north := h
          exact (List.append_cancel_right hnil).symm
        have hletters : (directionLetters.all fun c => !kind c) = true := by
          rcases hstop with hall | hne | hlength
          · exact hall
          · exact absurd hleft hne
          · cases hlength
        have hnone {c : Char} (hc : kind c = false) (ds : List Char) :
            spaced v kind (n + 1) (c :: ds) = ([], c :: ds) := by
          rw [spaced, hc]
          rfl
        obtain ⟨c, ds, rfl, hc⟩ := ht.all hletters
        have hc : kind c = false := by simpa using hc
        rw [hleft, List.nil_append, List.nil_append, north, hnone hkind, hnone hc]
    | cons c cs =>
      rw [List.cons_append, spaced] at h hstop
      rw [List.cons_append, List.cons_append, spaced, spaced]
      cases hc : kind c with
      | false =>
        rw [hc] at h
        have hleft : c :: cs ++ north = left ++ north := h
        rw [← List.append_cancel_right hleft]
        rfl
      | true =>
        simp only [hc, if_true, List.length_cons, Nat.add_right_cancel_iff] at h hstop ⊢
        have hrest := spaced_suffix v kind n (skip v (cs ++ north))
        rw [h] at hrest
        have hlength := length_of_suffix hrest
        rw [skip_left hlength directed_north] at h hstop
        rw [skip_left hlength directed_north, skip_left hlength ht, ih hstop h]

theorem spaced_swap_all (ht : Directed t) (kind : Char → Bool) {n m : Nat}
    (hn : (cs ++ north).length ≤ n) (hm : (cs ++ t).length ≤ m)
    (hstop : (directionLetters.all fun c => !kind c) = true ∨ left ≠ [])
    (h : (spaced v kind n (cs ++ north)).2 = left ++ north) :
    spaced v kind m (cs ++ t) = ((spaced v kind n (cs ++ north)).1, left ++ t) := by
  have hfuel := spaced_fuel v kind hn (Nat.le_trans hn (Nat.le_max_left n m))
  have hfuel' := spaced_fuel v kind hm (Nat.le_trans hm (Nat.le_max_right n m))
  rw [hfuel] at h
  rw [hfuel, hfuel']
  exact spaced_swap ht kind (hstop.imp_right Or.inl) h

theorem dropWhile_append_of_ne_nil {p : Char → Bool} (h : cs.dropWhile p ≠ []) :
    (cs ++ t).dropWhile p = cs.dropWhile p ++ t := by
  rw [List.dropWhile_append, List.isEmpty_eq_false_iff.mpr h]
  rfl

theorem dropWhile_directed (ht : Directed t) (cs : List Char) :
    (cs ++ t).dropWhile Unicode.isSpace = cs.dropWhile Unicode.isSpace ++ t := by
  obtain ⟨c, ds, rfl, hc⟩ := ht.all (p := fun c => !Unicode.isSpace c) (by decide)
  induction cs with
  | nil =>
    have hc : Unicode.isSpace c = false := by simpa using hc
    rw [List.nil_append, List.dropWhile_cons, hc]
    rfl
  | cons d cs ih =>
    rw [List.cons_append, List.dropWhile_cons, List.dropWhile_cons, ih]
    split <;> rfl

theorem swaps_count? (v : Bool) : Swaps (count? v) where
  swap {cs left n t} ht h := by
    simp only [count?, Option.ite_none_right_eq_some, Option.some.injEq, Prod.mk.injEq] at h ⊢
    obtain ⟨hcount, hn, hrest⟩ := h
    have hspaces := List.dropWhile_suffix (l := cs ++ north) Unicode.isSpace
    have hspaces' := List.dropWhile_suffix (l := cs ++ t) Unicode.isSpace
    rw [dropWhile_directed directed_north] at hspaces hcount hn hrest
    rw [dropWhile_directed ht] at hspaces' ⊢
    generalize cs.dropWhile Unicode.isSpace = ds at hspaces hspaces' hcount hn hrest
    have hleft := List.dropWhile_suffix
      (l := (spaced v Char.isDigit (cs ++ north).length (ds ++ north)).2) Unicode.isSpace
    rw [hrest] at hleft
    obtain ⟨es, hes, -⟩ := exists_left
      (spaced_suffix v Char.isDigit (cs ++ north).length (ds ++ north)) (length_of_suffix hleft)
    rw [hes, dropWhile_directed directed_north] at hrest
    rw [spaced_swap_all ht Char.isDigit hspaces.length_le hspaces'.length_le
      (Or.inl (by decide)) hes, dropWhile_directed ht, List.append_cancel_right hrest]
    exact ⟨hcount, hn, rfl⟩
  suffix h := (tails_count? v).suffix h

theorem swaps_upper? (v : Bool) (min : Nat) : Swaps (upper? v min) := by
  let unbounded (cs : List Char) : Option (Option Nat × List Char) := some (none, '\x7d' :: cs)
  have hcount : Swaps (upperCount? v min) := by
    refine Swaps.atChar '\x7d' (by decide) (g := unbounded) (fun {cs left x t} ht h => ?_)
      (fun h => by cases h; exact List.suffix_rfl) ((swaps_count? v).choose (upperEnd? min))
      (fun _ => rfl) fun _ => upperCount?_count
    obtain ⟨rfl, hleft⟩ := Prod.mk.inj (Option.some.inj h)
    have hleft : '\x7d' :: cs ++ north = left ++ north := hleft
    rw [← List.append_cancel_right hleft]
    rfl
  exact (hcount.skip? (v := v)).onChar ',' (by decide) (.takes (some min)) (fun _ => rfl)
    fun cs h => by simp only [upper?]

/-- The brace behind the bounds of a repetition. -/
def closing? {α : Type} (x : α) : List Char → Option (α × List Char)
  | '\x7d' :: cs => some (x, cs)
  | _ => none

/-- The bounds of a repetition and the brace behind them. -/
def bounds? (v : Bool) (cs : List Char) : Option ((Nat × Option Nat) × List Char) :=
  (skip? v cs).bind fun cs => (count? v cs).bind fun z =>
    (upper? v z.1 z.2).bind fun w => closing? (z.1, w.1) w.2

theorem quantifier?_bounds (v : Bool) (cs : List Char) : quantifier? v cs =
    (bounds? v cs).map fun z =>
      (⟨z.1.1, z.1.2, (greed (skip v z.2)).1⟩, (greed (skip v z.2)).2) := by
  have hbrace (min : Nat) (max : Option Nat) (cs : List Char) : brace? v min max cs =
      (closing? (min, max) cs).map fun z =>
        (⟨z.1.1, z.1.2, (greed (skip v z.2)).1⟩, (greed (skip v z.2)).2) := by
    unfold brace?
    split
    next => rfl
    next hcs => simp only [closing?, Option.map_none]
  rw [quantifier?_eq]
  simp only [bounds?, Option.map_bind, Function.comp_def, hbrace]

theorem swaps_closing? {α : Type} (x : α) : Swaps (closing? x) :=
  (Swaps.takes x).onChar '\x7d' (by decide) .refuses (fun _ => rfl) fun cs h => by
    simp only [closing?]

theorem swaps_bounds? (v : Bool) : Swaps (bounds? v) :=
  ((swaps_count? v).andThen fun min => (swaps_upper? v min).andThen fun max =>
    swaps_closing? (min, max)).skip?

/-- A reader that must go on behind the characters of a kind. -/
theorem Swaps.behindSpaced {α : Type} (kind : Char → Bool)
    {g : List Char → List Char → Option (α × List Char)} (hg : ∀ ds, Swaps (g ds))
    (hstop : ∀ ds x, g ds north ≠ some (x, north)) :
    Swaps fun cs => g (spaced v kind cs.length cs).1 (spaced v kind cs.length cs).2 where
  swap {cs left x t} ht h := by
    obtain ⟨ds, hds, -⟩ := exists_left (spaced_suffix v kind (cs ++ north).length (cs ++ north))
      (length_of_suffix ((hg _).suffix h))
    rw [hds] at h
    have hne : ds ≠ [] := by
      rintro rfl
      have hleft := ((hg _).suffix h).length_le
      rw [List.nil_append, List.length_append] at hleft
      rw [List.eq_nil_of_length_eq_zero (by omega : left.length = 0)] at h
      exact hstop _ x h
    rw [spaced_swap_all ht kind (Nat.le_refl _) (Nat.le_refl _) (Or.inr hne) hds]
    exact (hg _).swap ht h
  suffix {cs x rest} h := ((hg _).suffix h).trans (spaced_suffix v kind cs.length cs)

theorem swaps_digits (v : Bool) (size : Nat) : Swaps fun cs =>
    if (spaced v isHex size cs).1.length = size then
      (charOfHex? (spaced v isHex size cs).1).map (·, (spaced v isHex size cs).2) else none where
  swap {cs left c t} ht h := by
    obtain ⟨hlength, h⟩ := Option.ite_none_right_eq_some.mp h
    obtain ⟨d, hd, he⟩ := Option.map_eq_some_iff.mp h
    obtain ⟨rfl, hrest⟩ := Prod.mk.inj he
    rw [spaced_swap ht isHex (Or.inr (Or.inr hlength)) hrest, if_pos hlength, hd, Option.map_some]
  suffix {cs c rest} h := by
    obtain ⟨-, h⟩ := Option.ite_none_right_eq_some.mp h
    obtain ⟨d, -, he⟩ := Option.map_eq_some_iff.mp h
    cases he
    exact spaced_suffix v isHex size cs

theorem swaps_hex? (v : Bool) (size : Nat) : Swaps (hex? v size) := by
  have hbrace (ds : List Char) : Swaps (hexBrace? v ds) :=
    ((Swaps.gives (charOfHex? ds)).skip (v := v)).onChar '\x7d' (by decide) .refuses
      (fun _ => rfl) fun cs h => by simp only [hexBrace?]
  have hbraced : Swaps fun cs => hexBrace? v (spaced v isHex cs.length cs).1
      (spaced v isHex cs.length cs).2 := .behindSpaced isHex hbrace fun _ _ h => by cases h
  have hnumber : Swaps (hexNumber? v size) :=
    (hbraced.skip (v := v)).onChar '\x7b' (by decide) (swaps_digits v size) (fun _ => rfl)
      fun cs h => by simp only [hexNumber?]
  exact funext (hex?_eq v size) ▸ hnumber.skip?

theorem swaps_bracedProperty? (v : Bool) : Swaps (bracedProperty? v) := by
  let close (name rest : List Char) : Option ((Unicode.Property × Bool) × List Char) :=
    if rest = [] then none else (namedProperty? name).map (·, rest.drop 1)
  have hclose {name rest left : List Char} {x : Unicode.Property × Bool}
      (h : close name rest = some (x, left)) :
      left = rest.drop 1 ∧ namedProperty? name = some x := by
    obtain ⟨hne, h⟩ := Option.ite_none_left_eq_some.mp h
    obtain ⟨p, hp, he⟩ := Option.map_eq_some_iff.mp h
    cases he
    exact ⟨rfl, hp⟩
  have hswaps (name : List Char) : Swaps (close name) := by
    refine ⟨fun {cs left x t} ht h => ?_, fun {cs x rest} h => ?_⟩
    · obtain ⟨hleft, hname⟩ := hclose h
      cases cs with
      | nil => exact absurd (congrArg List.length hleft) (by simp [north])
      | cons c cs =>
        have hleft : left ++ north = cs ++ north := hleft
        show (namedProperty? name).map (·, cs ++ t) = _
        rw [hname, List.append_cancel_right hleft, Option.map_some]
    · rw [(hclose h).1]
      exact List.drop_suffix 1 cs
  refine .behindSpaced (· != '\x7d') hswaps fun name x h => ?_
  exact absurd (hclose h).1 (by decide)

theorem swaps_property? (v : Bool) : Swaps (property? v) := by
  have hletter (c : Char) : Swaps fun cs => letterProperty? v (c :: cs) := by
    simp only [letterProperty?]
    split
    next => exact .refuses
    next =>
      cases Unicode.Property.ofName? [c] with
      | none => exact .refuses
      | some p => exact (Swaps.takes (p, false)).skip
  have hname : Swaps (nameOfProperty? v) :=
    ((swaps_bracedProperty? v).skip (v := v)).onChar '\x7b' (by decide) (.ofCons hletter rfl)
      (fun _ => rfl) fun cs h => by simp only [nameOfProperty?]
  exact funext (property?_eq v) ▸ hname.skip?

theorem swaps_boundary? (v : Bool) : Swaps (boundary? v) := by
  have hend (name : List Char) : Swaps (boundaryEnd? name) :=
    (Swaps.gives (boundaryName? name)).onChar '\x7d' (by decide) .refuses (fun _ => rfl)
      fun cs h => by simp only [boundaryEnd?]
  refine Swaps.atChar '\x7b' (by decide) (g := fun inner => boundary? v ('\x7b' :: inner))
    (fun {inner left b t} ht h => ?_) (tails_boundary? v).suffix (.takes .edge) (fun _ => rfl)
    fun cs h => by simp only [boundary?]
  simp only [boundary?_brace] at h ⊢
  obtain ⟨rest, hrest, h⟩ := Option.bind_eq_some_iff.mp h
  obtain ⟨rfl, hne⟩ := skip?_eq_some.mp hrest
  have hskip := skip_left (List.length_pos_iff.mpr hne) ht
  rw [skip?_eq_some.mpr ⟨hskip, List.append_ne_nil_of_right_ne_nil _ ht.ne_nil⟩, Option.bind_some]
  rw [skip_left (List.length_pos_iff.mpr hne) directed_north] at h
  generalize skip v inner = ds at h
  simp only [boundaryInner?] at h ⊢
  split at h
  next hname =>
    -- The letter could be part of a name, so something else stands in front of it.
    cases ds with
    | nil => cases v <;> exact absurd hname (by decide)
    | cons c ds =>
      have hc : isBoundaryName c = false := by
        cases hc : isBoundaryName c with
        | false => rfl
        | true =>
          rw [List.cons_append, List.length_cons, spaced, hc] at hname
          cases hname
      have hnone : (spaced v isBoundaryName (c :: ds ++ t).length (c :: ds ++ t)).1 = [] := by
        rw [List.cons_append, List.length_cons, spaced, hc]
        rfl
      obtain ⟨rfl, hleft⟩ := Prod.mk.inj (Option.some.inj h)
      rw [← List.cons_append] at hleft ⊢
      rw [if_pos hnone, List.append_cancel_right hleft]
  next hname =>
    have hspaced := spaced_suffix v isBoundaryName (ds ++ north).length (ds ++ north)
    obtain ⟨es, hes, -⟩ := exists_left hspaced (length_of_suffix ((hend _).suffix h))
    rw [hes] at h
    have hne : es ≠ [] := by
      rintro rfl
      cases h
    rw [spaced_swap_all ht isBoundaryName (Nat.le_refl _) (Nat.le_refl _) (Or.inr hne) hes,
      if_neg hname]
    exact (hend _).swap ht h

theorem swaps_escape?_cons (v : Bool) (c : Char) : Swaps fun cs => escape? v (c :: cs) := by
  have hhex (size : Nat) (byte : Bool) : Swaps fun cs =>
      (hex? v size cs).map fun z => (Escape.char z.1 byte, z.2) :=
    (swaps_hex? v size).map (Escape.char · byte)
  have hproperty (turn : Bool → Bool) : Swaps fun cs =>
      (property? v cs).map fun z => (Escape.property z.1.1 (turn z.1.2), z.2) :=
    (swaps_property? v).map fun p => Escape.property p.1 (turn p.2)
  by_cases hc : c ∈ ['x', 'u', 'U', 'p', 'P', 'b']
  · simp only [List.mem_cons, List.not_mem_nil, or_false] at hc
    rcases hc with rfl | rfl | rfl | rfl | rfl | rfl
    · have hescape (cs : List Char) : escape? v ('x' :: cs) = (hex? v 2 cs).map fun z =>
          (Escape.char z.1 ((skip v cs).head? != some '\x7b'), z.2) := rfl
      refine ⟨fun {cs left e t} ht h => ?_, (tails_escape?_cons v 'x').suffix⟩
      rw [hescape] at h ⊢
      have hlength : 0 < (skip v (cs ++ north)).length := by
        refine List.length_pos_iff.mpr fun hnil => ?_
        rw [hex?_eq, skip?, hnil] at h
        cases h
      have hbyte : ((skip v (cs ++ t)).head? != some '\x7b') =
          ((skip v (cs ++ north)).head? != some '\x7b') := by
        rw [skip_left hlength ht, skip_left hlength directed_north]
        exact ht.head?_ne (by decide) _
      rw [hbyte]
      exact (hhex 2 _).swap ht h
    · exact hhex 4 false
    · exact hhex 8 false
    · exact hproperty id
    · exact hproperty not
    · exact (swaps_boundary? v).map Escape.word
  · rw [funext (escape?_letter v hc)]
    exact .gives _

theorem swaps_escape? (v : Bool) : Swaps (escape? v) := .ofCons (swaps_escape?_cons v) rfl

end

end ParticleAutomaton.Regex
