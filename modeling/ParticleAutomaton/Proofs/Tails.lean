import ParticleAutomaton.Regex.Lexer

namespace ParticleAutomaton.Regex

/-- What stands behind a pattern that is anchored. -/
def ending : List Char := [')', '$']

theorem append_ending_ne {c : Char} (hc : c ≠ ')') {cs : List Char}
    (h : ∀ ds, cs = c :: ds → False) (ds : List Char) (hds : cs ++ ending = c :: ds) : False := by
  cases cs with
  | nil => exact hc (List.cons.inj hds).1.symm
  | cons d cs => exact h cs (congrArg (· :: cs) (List.cons.inj hds).1)

/-- How what is read of a text and of the same text with an ending belong together. -/
inductive Carries {α : Type} (late : α → List Char → Prop) :
    Option (α × List Char) → Option (α × List Char) → Prop
  | refused : Carries late none none
  | read (x : α) (rest : List Char) : Carries late (some (x, rest)) (some (x, rest ++ ending))
  /-- The ending stands in a comment. -/
  | comment (x : α) : Carries late (some (x, [])) (some (x, []))
  /-- Without the ending there is nothing left to read. -/
  | across (x : α) (rest : List Char) (h : rest <:+ ['$']) : Carries late none (some (x, rest))
  | late (x : α) (rest : List Char) (h : late x rest) : Carries late none (some (x, rest))

/-- A reader that makes the same of a text with an ending, and leaves the end of its text. -/
structure Tails {α : Type} (late : α → List Char → Prop)
    (f : List Char → Option (α × List Char)) : Prop where
  carries : ∀ cs, Carries late (f cs) (f (cs ++ ending))
  suffix : ∀ {cs x rest}, f cs = some (x, rest) → rest <:+ cs

def NeverLate {α : Type} (_ : α) (_ : List Char) : Prop := False

namespace Tails

variable {α β : Type} {late : α → List Char → Prop} {late' : β → List Char → Prop}
  {f : List Char → Option (α × List Char)}

theorem nil (h : Tails late f) : Carries late (f []) (f []) := by
  cases hf : f [] with
  | none => exact .refused
  | some z =>
    have hnil : z.2 = [] := List.suffix_nil.mp (h.suffix hf)
    obtain ⟨x, rest⟩ := z
    cases hnil
    exact .comment x

theorem refuses : Tails late fun _ => none := ⟨fun _ => .refused, nofun⟩

theorem takes (x : α) : Tails late fun cs => some (x, cs) :=
  ⟨fun cs => .read x cs, fun h => by cases h; exact List.suffix_rfl⟩

theorem gives (o : Option α) : Tails late fun cs => o.map (·, cs) := by
  cases o with
  | none => exact refuses
  | some x => exact takes x

/-- A reader that goes on behind another one. -/
theorem andThenLate (h : Tails late f) {g : α → List Char → Option (β × List Char)}
    (hg : ∀ x, Tails late' (g x))
    (hlate : ∀ {x rest y left}, late x rest → g x rest = some (y, left) →
      left <:+ ['$'] ∨ late' y left) :
    Tails late' fun cs => (f cs).bind fun z => g z.1 z.2 where
  carries cs := by
    have hf := h.carries cs
    generalize f cs = o, f (cs ++ ending) = o' at hf
    cases hf with
    | refused => exact .refused
    | read x rest => exact (hg x).carries rest
    | comment x => exact (hg x).nil
    | across x rest hshort =>
      simp only [Option.bind_some]
      cases hx : g x rest with
      | none => exact .refused
      | some z => exact .across z.1 z.2 (((hg x).suffix hx).trans hshort)
    | late x rest hx =>
      simp only [Option.bind_some]
      cases hgx : g x rest with
      | none => exact .refused
      | some z =>
        rcases hlate hx hgx with hshort | hz
        · exact .across z.1 z.2 hshort
        · exact .late z.1 z.2 hz
  suffix hcs := by
    obtain ⟨z, hz, hcs⟩ := Option.bind_eq_some_iff.mp hcs
    exact ((hg z.1).suffix hcs).trans (h.suffix hz)

theorem andThen (h : Tails NeverLate f) {g : α → List Char → Option (β × List Char)}
    (hg : ∀ x, Tails late' (g x)) : Tails late' fun cs => (f cs).bind fun z => g z.1 z.2 :=
  h.andThenLate hg fun hx => hx.elim

/-- What is made of the value that is read. -/
theorem choose (h : Tails late f) (g : α → Option β)
    (hlate : ∀ x rest y, late x rest → g x = some y → late' y rest) :
    Tails late' fun cs => (f cs).bind fun z => (g z.1).map (·, z.2) := by
  refine h.andThenLate (fun x => gives (g x)) fun {x rest y left} hx hy => Or.inr ?_
  obtain ⟨y, hgx, he⟩ := Option.map_eq_some_iff.mp hy
  cases he
  exact hlate x rest y hx hgx

theorem map (h : Tails late f) (g : α → β) (hlate : ∀ x rest, late x rest → late' (g x) rest) :
    Tails late' fun cs => (f cs).map fun z => (g z.1, z.2) := by
  have hmap : (fun cs => (f cs).map fun z => (g z.1, z.2)) =
      fun cs => (f cs).bind fun z => (some (g z.1)).map (·, z.2) :=
    funext fun cs => by cases f cs <;> rfl
  rw [hmap]
  refine h.choose (fun x => some (g x)) fun x rest y hx hy => ?_
  cases hy
  exact hlate x rest hx

theorem mono {late' : α → List Char → Prop} (h : Tails late f)
    (hlate : ∀ x rest, late x rest → late' x rest) : Tails late' f := by
  simpa using h.map id hlate

/-- A reader that reads at least one character. -/
theorem ofCons (h : ∀ c, Tails late fun cs => f (c :: cs)) (hnil : f [] = none) :
    Tails late f where
  carries cs := by
    cases cs with
    | nil =>
      rw [hnil, List.nil_append]
      cases hf : f ending with
      | none => exact .refused
      | some z => exact .across z.1 z.2 ((h ')').suffix hf)
    | cons c cs => exact (h c).carries cs
  suffix {cs x rest} hcs := by
    cases cs with
    | nil => cases hnil.symm.trans hcs
    | cons c cs => exact ((h c).suffix hcs).trans (List.suffix_cons c cs)

/-- A reader that goes another way in front of a character that the ending does not start with. -/
theorem atChar (c : Char) (hc : c ≠ ')') {g h : List Char → Option (α × List Char)}
    (hg : ∀ cs, Carries late (g cs) (g (cs ++ ending)))
    (hgsuffix : ∀ {cs x rest}, g cs = some (x, rest) → rest <:+ c :: cs)
    (hh : Tails late h) (hfg : ∀ cs, f (c :: cs) = g cs)
    (hfh : ∀ cs, (∀ ds, cs = c :: ds → False) → f cs = h cs) : Tails late f where
  carries cs := by
    by_cases hcs : ∃ ds, cs = c :: ds
    · obtain ⟨ds, rfl⟩ := hcs
      rw [List.cons_append, hfg, hfg]
      exact hg ds
    · have hne : ∀ ds, cs = c :: ds → False := fun ds hds => hcs ⟨ds, hds⟩
      rw [hfh _ hne, hfh _ (append_ending_ne hc hne)]
      exact hh.carries cs
  suffix {cs x rest} hcs := by
    by_cases hds : ∃ ds, cs = c :: ds
    · obtain ⟨ds, rfl⟩ := hds
      rw [hfg] at hcs
      exact hgsuffix hcs
    · rw [hfh _ fun ds h => hds ⟨ds, h⟩] at hcs
      exact hh.suffix hcs

/-- A reader that goes on in another way behind such a character. -/
theorem onChar (c : Char) (hc : c ≠ ')') {g h : List Char → Option (α × List Char)}
    (hg : Tails late g) (hh : Tails late h) (hfg : ∀ cs, f (c :: cs) = g cs)
    (hfh : ∀ cs, (∀ ds, cs = c :: ds → False) → f cs = h cs) : Tails late f :=
  atChar c hc hg.carries (fun hcs => (hg.suffix hcs).trans (List.suffix_cons ..)) hh hfg hfh

end Tails

theorem skipBlank_ending (b : Bool) (cs : List Char) :
    skipBlank b (cs ++ ending) = skipBlank b cs ++ ending ∨
      skipBlank b cs = [] ∧ skipBlank b (cs ++ ending) = [] := by
  have hopen : skipBlank false ending = ending := by decide +kernel
  have hcomment : skipBlank true ending = [] := by decide +kernel
  fun_induction skipBlank b cs with
  | case1 b =>
    cases b with
    | false => exact Or.inl hopen
    | true => exact Or.inr ⟨rfl, hcomment⟩
  | case2 c cs ih => exact ih
  | case3 c cs hc ih =>
    rw [List.cons_append, skipBlank, if_pos hc]
    exact ih
  | case4 c cs hc hs ih =>
    rw [List.cons_append, skipBlank, if_neg hc, if_pos hs]
    exact ih
  | case5 c cs hc hs =>
    rw [List.cons_append, skipBlank, if_neg hc, if_neg hs]
    exact Or.inl rfl

theorem skip_ending (v : Bool) (cs : List Char) :
    skip v (cs ++ ending) = skip v cs ++ ending ∨
      skip v cs = [] ∧ skip v (cs ++ ending) = [] := by
  cases v with
  | false => exact Or.inl rfl
  | true => exact skipBlank_ending false cs

theorem skipBlank_suffix (b : Bool) (cs : List Char) : skipBlank b cs <:+ cs := by
  fun_induction skipBlank b cs with
  | case1 => exact List.suffix_rfl
  | case2 c cs ih => exact ih.trans (List.suffix_cons c cs)
  | case3 c cs hc ih => exact ih.trans (List.suffix_cons c cs)
  | case4 c cs hc hs ih => exact ih.trans (List.suffix_cons c cs)
  | case5 => exact List.suffix_rfl

theorem skip_suffix (v : Bool) (cs : List Char) : skip v cs <:+ cs := by
  cases v with
  | false => exact List.suffix_rfl
  | true => exact skipBlank_suffix false cs

theorem skip?_eq_some {v : Bool} {cs rest : List Char} :
    skip? v cs = some rest ↔ skip v cs = rest ∧ rest ≠ [] := by
  unfold skip?
  generalize skip v cs = skipped
  cases skipped with
  | nil => simp +contextual [eq_comm]
  | cons c cs =>
    simp only [Option.some.injEq]
    exact ⟨fun h => ⟨h, h ▸ List.cons_ne_nil c cs⟩, And.left⟩

theorem skip?_suffix {v : Bool} {cs rest : List Char} (h : skip? v cs = some rest) :
    rest <:+ cs := by
  obtain ⟨rfl, -⟩ := skip?_eq_some.mp h
  exact skip_suffix v cs

/-- Where the pattern must go on, the ending is all that can make it do so. -/
theorem skip?_ending (v : Bool) (cs : List Char) :
    (∃ c rest, skip? v cs = some (c :: rest) ∧
      skip? v (cs ++ ending) = some (c :: (rest ++ ending))) ∨
    skip? v cs = none ∧
      (skip? v (cs ++ ending) = some ending ∨ skip? v (cs ++ ending) = none) := by
  unfold skip?
  rcases skip_ending v cs with h | ⟨h, h'⟩
  · rw [h]
    cases skip v cs with
    | nil => exact Or.inr ⟨rfl, Or.inl rfl⟩
    | cons c rest => exact Or.inl ⟨c, rest, rfl, rfl⟩
  · rw [h, h']
    exact Or.inr ⟨rfl, Or.inr rfl⟩

section

variable (v : Bool) (kind : Char → Bool)

theorem spaced_suffix (n : Nat) (cs : List Char) : (spaced v kind n cs).2 <:+ cs := by
  fun_induction spaced v kind n cs with
  | case1 n c cs hc more rest hmore ih =>
    rw [hmore] at ih
    exact (ih.trans (skip_suffix v cs)).trans (List.suffix_cons c cs)
  | case2 n c cs hc => exact List.suffix_rfl
  | case3 n cs h => exact List.suffix_rfl

theorem spaced_fuel {n m : Nat} {cs : List Char} (hn : cs.length ≤ n) (hm : cs.length ≤ m) :
    spaced v kind n cs = spaced v kind m cs := by
  induction n generalizing m cs with
  | zero =>
    rw [List.length_eq_zero_iff.mp (Nat.le_zero.mp hn)]
    cases m <;> rfl
  | succ n ih =>
    cases cs with
    | nil => cases m <;> rfl
    | cons c cs =>
      cases m with
      | zero => exact absurd hm (by simp)
      | succ m =>
        have hskip := (skip_suffix v cs).length_le
        simp only [List.length_cons] at hn hm
        have hrest : spaced v kind n (skip v cs) = spaced v kind m (skip v cs) :=
          ih (by omega) (by omega)
        rw [spaced, spaced, hrest]

/-- The ending is not of the kind, so that it ends the characters of the kind. -/
theorem spaced_ending (hkind : kind ')' = false) (n : Nat) (cs : List Char) :
    spaced v kind n (cs ++ ending) =
        ((spaced v kind n cs).1, (spaced v kind n cs).2 ++ ending) ∨
      (spaced v kind n cs).2 = [] ∧
        spaced v kind n (cs ++ ending) = ((spaced v kind n cs).1, []) := by
  induction n generalizing cs with
  | zero => exact Or.inl (by cases cs <;> rfl)
  | succ n ih =>
    cases cs with
    | nil =>
      refine Or.inl ?_
      show spaced v kind (n + 1) ending = ([], ending)
      rw [ending, spaced, hkind]
      rfl
    | cons c cs =>
      rw [List.cons_append, spaced, spaced]
      cases hc : kind c with
      | false => exact Or.inl rfl
      | true =>
        simp only [if_true]
        rcases skip_ending v cs with h | ⟨h, h'⟩
        · rw [h]
          rcases ih (skip v cs) with h | ⟨h, h'⟩
          · rw [h]
            exact Or.inl rfl
          · rw [h, h']
            exact Or.inr ⟨rfl, rfl⟩
        · rw [h, h']
          refine Or.inr ?_
          cases n <;> exact ⟨rfl, rfl⟩

theorem spaced_fuel_ending (hkind : kind ')' = false) {n m : Nat} {cs : List Char}
    (hn : cs.length ≤ n) (hm : cs.length ≤ m) :
    spaced v kind m (cs ++ ending) =
        ((spaced v kind n cs).1, (spaced v kind n cs).2 ++ ending) ∨
      (spaced v kind n cs).2 = [] ∧
        spaced v kind m (cs ++ ending) = ((spaced v kind n cs).1, []) := by
  rw [spaced_fuel v kind hn hm]
  exact spaced_ending v kind hkind m cs

end

theorem dropWhile_ending (cs : List Char) :
    (cs ++ ending).dropWhile Unicode.isSpace = cs.dropWhile Unicode.isSpace ++ ending := by
  have hclose : Unicode.isSpace ')' = false := by decide
  induction cs with
  | nil => rw [List.nil_append, ending, List.dropWhile_cons, hclose]; rfl
  | cons c cs ih =>
    rw [List.cons_append, List.dropWhile_cons, List.dropWhile_cons, ih]
    split <;> rfl

/-- Where a character that the ending does not have ends a part of the text. -/
theorem dropWhile_stop {p : Char → Bool} (hclose : p ')' = true) (hend : p '$' = true)
    (cs : List Char) :
    cs.dropWhile p = [] ∧ (cs ++ ending).dropWhile p = [] ∨
      cs.dropWhile p ≠ [] ∧ (cs ++ ending).dropWhile p = cs.dropWhile p ++ ending := by
  rw [List.dropWhile_append]
  cases hdrop : cs.dropWhile p with
  | nil => exact Or.inl ⟨rfl, by simp [ending, hclose, hend]⟩
  | cons d ds => exact Or.inr ⟨List.cons_ne_nil d ds, rfl⟩

theorem takeWhile_append_of_ne_nil {p : Char → Bool} {cs : List Char} (h : cs.dropWhile p ≠ [])
    (ds : List Char) : (cs ++ ds).takeWhile p = cs.takeWhile p := by
  rw [List.takeWhile_append, if_neg]
  intro hlength
  apply h
  have hcs := congrArg List.length (List.takeWhile_append_dropWhile (p := p) (l := cs))
  rw [List.length_append] at hcs
  exact List.length_eq_zero_iff.mp (by omega)

/-- A reader that goes on where the pattern must do so. -/
theorem Tails.skip? {α : Type} {late : α → List Char → Prop}
    {f : List Char → Option (α × List Char)} (h : Tails late f)
    (hend : ∀ {x rest}, f ending = some (x, rest) → rest <:+ ['$'] ∨ late x rest) (v : Bool) :
    Tails late fun cs => (Regex.skip? v cs).bind f where
  carries cs := by
    rcases skip?_ending v cs with ⟨c, rest, hcs, hcs'⟩ | ⟨hcs, hcs' | hcs'⟩
    · rw [hcs, hcs']
      exact h.carries (c :: rest)
    · rw [hcs, hcs', Option.bind_none, Option.bind_some]
      cases hfe : f ending with
      | none => exact .refused
      | some z =>
        rcases hend hfe with hshort | hlate
        · exact .across z.1 z.2 hshort
        · exact .late z.1 z.2 hlate
    · rw [hcs, hcs']
      exact .refused
  suffix hcs := by
    obtain ⟨rest, hrest, hcs⟩ := Option.bind_eq_some_iff.mp hcs
    exact (h.suffix hcs).trans (skip?_suffix hrest)

/-- Blanks behind something that was read. -/
theorem Tails.skip {α : Type} {late : α → List Char → Prop}
    {f : List Char → Option (α × List Char)} (h : Tails late f) (v : Bool) :
    Tails late fun cs => f (Regex.skip v cs) where
  carries cs := by
    rcases skip_ending v cs with hcs | ⟨hcs, hcs'⟩
    · rw [hcs]
      exact h.carries _
    · rw [hcs, hcs']
      exact h.nil
  suffix hcs := (h.suffix hcs).trans (skip_suffix ..)

theorem carries_spaced {found found' : List Char × List Char}
    (h : found' = (found.1, found.2 ++ ending) ∨ found.2 = [] ∧ found' = (found.1, [])) :
    Carries NeverLate (some found) (some found') := by
  obtain ⟨ds, rest⟩ := found
  rcases h with rfl | ⟨hrest, rfl⟩
  · exact .read ds rest
  · cases hrest
    exact .comment ds

theorem tails_spaced_all (v : Bool) {kind : Char → Bool} (hkind : kind ')' = false) :
    Tails NeverLate fun cs => some (spaced v kind cs.length cs) where
  carries cs := carries_spaced
    (spaced_fuel_ending v kind hkind (Nat.le_refl _) (by simp : cs.length ≤ (cs ++ ending).length))
  suffix {cs x rest} h := by
    have hsuffix := spaced_suffix v kind cs.length cs
    rw [Option.some.inj h] at hsuffix
    exact hsuffix

theorem tails_spaced (v : Bool) {kind : Char → Bool} (hkind : kind ')' = false) (n : Nat) :
    Tails NeverLate fun cs => some (spaced v kind n cs) where
  carries cs := carries_spaced (spaced_ending v kind hkind n cs)
  suffix {cs x rest} h := by
    have hsuffix := spaced_suffix v kind n cs
    rw [Option.some.inj h] at hsuffix
    exact hsuffix

theorem spaced_found (v : Bool) (kind : Char → Bool) (n : Nat) (cs : List Char)
    (h : (spaced v kind n cs).2 ≠ []) :
    spaced v kind n (cs ++ ending) =
      ((spaced v kind n cs).1, (spaced v kind n cs).2 ++ ending) := by
  induction n generalizing cs with
  | zero => cases cs <;> rfl
  | succ n ih =>
    cases cs with
    | nil => exact absurd rfl h
    | cons c cs =>
      rw [List.cons_append]
      rw [spaced] at h ⊢
      rw [spaced]
      cases hc : kind c with
      | false => rfl
      | true =>
        simp only [hc, if_true] at h ⊢
        rcases skip_ending v cs with hskip | ⟨hskip, -⟩
        · rw [hskip, ih _ h]
        · rw [hskip] at h
          cases n <;> exact absurd rfl h

theorem spaced_through (v : Bool) {kind : Char → Bool} (hclose : kind ')' = true)
    (hend : kind '$' = true) (n : Nat) (cs : List Char) (hn : (cs ++ ending).length ≤ n)
    (h : (spaced v kind n cs).2 = []) : (spaced v kind n (cs ++ ending)).2 = [] := by
  induction n generalizing cs with
  | zero => exact absurd hn (by simp [ending])
  | succ n ih =>
    cases cs with
    | nil =>
      have hskip : skip v ['$'] = ['$'] := by cases v <;> decide +kernel
      have hnil : skip v [] = [] := by cases v <;> rfl
      cases n with
      | zero => exact absurd hn (by simp [ending])
      | succ n =>
        rw [List.nil_append, ending, spaced, hclose, hskip, if_pos rfl, spaced, hend, hnil]
        cases n <;> rfl
    | cons c cs =>
      rw [List.cons_append]
      rw [spaced] at h ⊢
      cases hc : kind c with
      | false => simp [hc] at h
      | true =>
        simp only [hc, if_true] at h ⊢
        rcases skip_ending v cs with hskip | ⟨-, hskip⟩
        · have hlength := (skip_suffix v cs).length_le
          rw [hskip]
          refine ih _ ?_ h
          simp only [List.cons_append, List.length_cons, List.length_append] at hn ⊢
          omega
        · rw [hskip]
          cases n <;> rfl

end ParticleAutomaton.Regex
