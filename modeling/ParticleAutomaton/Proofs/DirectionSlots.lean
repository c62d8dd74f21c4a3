import ParticleAutomaton.Proofs.DirectionTails
import ParticleAutomaton.Proofs.PatternTails

namespace ParticleAutomaton.Regex

/-- A place in a pattern: a character, or a hole that the name of a direction is filled in. -/
inductive Slot (ι : Type)
  | char (c : Char)
  | hole (i : ι)

/-- Names for the holes of a pattern. -/
structure Naming (ι : Type) where
  name : ι → List Char
  ne_nil : ∀ i, name i ≠ []
  letters : ∀ i, ∀ c ∈ name i, c ∈ directionLetters

section

variable {ι : Type}

namespace Naming

def fill (ν : Naming ι) : List (Slot ι) → List Char
  | [] => []
  | .char c :: s => c :: ν.fill s
  | .hole i :: s => ν.name i ++ ν.fill s

variable (ν : Naming ι)

theorem directed_hole (i : ι) (s : List (Slot ι)) : Directed (ν.fill (.hole i :: s)) := by
  obtain ⟨c, ds, hname⟩ := List.exists_cons_of_ne_nil (ν.ne_nil i)
  have hc : c ∈ directionLetters := by
    apply ν.letters i
    rw [hname]
    exact List.mem_cons_self ..
  exact ⟨c, hc, ds ++ ν.fill s, by rw [fill, hname, List.cons_append]⟩

theorem fill_ne_nil {s : List (Slot ι)} (h : s ≠ []) : ν.fill s ≠ [] := by
  cases s with
  | nil => exact absurd rfl h
  | cons x s =>
    cases x with
    | char c => exact List.cons_ne_nil c _
    | hole i => exact (ν.directed_hole i s).ne_nil

theorem fill_append (s s' : List (Slot ι)) : ν.fill (s ++ s') = ν.fill s ++ ν.fill s' := by
  induction s with
  | nil => rfl
  | cons x s ih => cases x <;> simp [fill, ih]

theorem fill_chars (cs : List Char) : ν.fill (cs.map .char) = cs := by
  induction cs with
  | nil => rfl
  | cons c cs ih => rw [List.map_cons, fill, ih]

end Naming

namespace Slot

/-- A test of characters that comes out in one way for all letters of directions. -/
def test (p : Char → Bool) (b : Bool) : Slot ι → Bool
  | .char c => p c
  | .hole _ => b

theorem dropWhile_fill (ν : Naming ι) {p : Char → Bool} {b : Bool}
    (hp : ∀ c ∈ directionLetters, p c = b) (s : List (Slot ι)) :
    (ν.fill s).dropWhile p = ν.fill (s.dropWhile (test p b)) := by
  induction s with
  | nil => rfl
  | cons x s ih =>
    cases x with
    | char c =>
      rw [Naming.fill, List.dropWhile_cons, List.dropWhile_cons, test, ih]
      split <;> rfl
    | hole i =>
      cases b with
      | true =>
        have hname : ∀ c ∈ ν.name i, p c = true := fun c hc => hp c (ν.letters i c hc)
        rw [Naming.fill, List.dropWhile_append_of_pos hname, ih]
        rfl
      | false =>
        obtain ⟨c, hc, ds, hds⟩ := ν.directed_hole i s
        rw [hds, List.dropWhile_cons, hp c hc, ← hds]
        rfl

theorem takeWhile_fill (ν : Naming ι) {p : Char → Bool} (hp : ∀ c ∈ directionLetters, p c = true)
    (s : List (Slot ι)) : (ν.fill s).takeWhile p = ν.fill (s.takeWhile (test p true)) := by
  induction s with
  | nil => rfl
  | cons x s ih =>
    cases x with
    | char c =>
      rw [Naming.fill, List.takeWhile_cons, List.takeWhile_cons, test, ih]
      split <;> rfl
    | hole i =>
      have hname : ∀ c ∈ ν.name i, p c = true := fun c hc => hp c (ν.letters i c hc)
      rw [Naming.fill, List.takeWhile_append_of_pos hname, ih]
      rfl

/-- All characters pass the test, and in a hole all letters of directions. -/
def passes (p : Char → Bool) (s : List (Slot ι)) : Bool := s.all (test p (directionLetters.all p))

theorem all_of_passes (ν : Naming ι) {p : Char → Bool} {s : List (Slot ι)}
    (h : passes p s = true) : (ν.fill s).all p = true := by
  induction s with
  | nil => rfl
  | cons x s ih =>
    obtain ⟨hx, hs⟩ := Bool.and_eq_true_iff.mp h
    cases x with
    | char c => exact Bool.and_eq_true_iff.mpr ⟨hx, ih hs⟩
    | hole i =>
      have hletters := List.all_eq_true.mp hx
      have hname : (ν.name i).all p = true :=
        List.all_eq_true.mpr fun c hc => hletters c (ν.letters i c hc)
      rw [Naming.fill, List.all_append, hname, ih hs]
      rfl

/-- The blanks and comments at the front; a hole in a comment is left out with it. -/
def skipBlank : Bool → List (Slot ι) → List (Slot ι)
  | _, [] => []
  | true, .hole _ :: s => skipBlank true s
  | false, .hole i :: s => .hole i :: s
  | true, .char c :: s => skipBlank (c != '\n') s
  | false, .char c :: s =>
    if c == '#' then skipBlank true s
    else if Unicode.isSpace c then skipBlank false s
    else .char c :: s

def skip (v : Bool) (s : List (Slot ι)) : List (Slot ι) := if v then skipBlank false s else s

def skip? (v : Bool) (s : List (Slot ι)) : Option (List (Slot ι)) :=
  match skip v s with
  | [] => none
  | s => some s

theorem skipBlank_fill (ν : Naming ι) (b : Bool) (s : List (Slot ι)) :
    Regex.skipBlank b (ν.fill s) = ν.fill (skipBlank b s) := by
  fun_induction skipBlank b s with
  | case1 => rfl
  | case2 i s ih =>
    have hcomment (ds : List Char) (hds : ∀ c ∈ ds, c ∈ directionLetters) (rest : List Char) :
        Regex.skipBlank true (ds ++ rest) = Regex.skipBlank true rest := by
      induction ds with
      | nil => rfl
      | cons d ds ih =>
        have hd : (d != '\n') = true := by
          refine bne_iff_ne.mpr ?_
          rintro rfl
          exact absurd (hds _ (List.mem_cons_self ..)) (by decide)
        rw [List.cons_append, Regex.skipBlank, hd]
        exact ih fun c hc => hds c (List.mem_cons_of_mem d hc)
    rw [Naming.fill, hcomment _ (ν.letters i), ih]
  | case3 i s => exact (ν.directed_hole i s).skipBlank
  | case4 c s ih => rw [Naming.fill, Regex.skipBlank, ih]
  | case5 c s hc ih => rw [Naming.fill, Regex.skipBlank, if_pos hc, ih]
  | case6 c s hc hs ih => rw [Naming.fill, Regex.skipBlank, if_neg hc, if_pos hs, ih]
  | case7 c s hc hs => rw [Naming.fill, Regex.skipBlank, if_neg hc, if_neg hs]

theorem skip_fill (ν : Naming ι) (v : Bool) (s : List (Slot ι)) :
    Regex.skip v (ν.fill s) = ν.fill (skip v s) := by
  cases v with
  | false => rfl
  | true => exact skipBlank_fill ν false s

theorem skip?_eq_some {v : Bool} {s s' : List (Slot ι)} :
    skip? v s = some s' ↔ skip v s = s' ∧ s' ≠ [] := by
  unfold skip?
  split
  next hs => simp [hs]
  next hs hne =>
    simp only [Option.some.injEq, iff_self_and]
    rintro rfl
    exact fun h => hne h

theorem skip?_fill (ν : Naming ι) {v : Bool} {s s' : List (Slot ι)} (h : skip? v s = some s') :
    Regex.skip? v (ν.fill s) = some (ν.fill s') := by
  obtain ⟨hskip, hne⟩ := skip?_eq_some.mp h
  exact Regex.skip?_eq_some.mpr ⟨by rw [skip_fill, hskip], ν.fill_ne_nil hne⟩

/-- The characters in front of the first hole. -/
def lead : List (Slot ι) → List Char
  | .char c :: s => c :: lead s
  | _ => []

/-- The first hole and what stands behind it. -/
def fromHole : List (Slot ι) → List (Slot ι)
  | .char _ :: s => fromHole s
  | s => s

theorem fill_lead (ν : Naming ι) (s : List (Slot ι)) :
    ν.fill s = lead s ++ ν.fill (fromHole s) := by
  induction s with
  | nil => rfl
  | cons x s ih =>
    cases x with
    | char c => rw [Naming.fill, ih]; rfl
    | hole i => rfl

theorem fromHole_cases (s : List (Slot ι)) :
    fromHole s = [] ∨ ∃ i s', fromHole s = .hole i :: s' := by
  induction s with
  | nil => exact Or.inl rfl
  | cons x s ih =>
    cases x with
    | char c => exact ih
    | hole i => exact Or.inr ⟨i, s, rfl⟩

/-- What stands for the first hole and all behind it while the characters in front are read. -/
def stop (s : List (Slot ι)) : List Char := if (fromHole s).isEmpty then [] else north

/-- Reads the characters in front of the first hole, if the reader stops there. -/
def reads? {α : Type} (f : List Char → Option (α × List Char)) (s : List (Slot ι)) :
    Option (α × List (Slot ι)) :=
  (f (lead s ++ stop s)).bind fun z =>
    if (stop s).length ≤ z.2.length then
      some (z.1, (z.2.take (z.2.length - (stop s).length)).map .char ++ fromHole s)
    else none

end Slot

theorem Swaps.reads {α : Type} {f : List Char → Option (α × List Char)} (h : Swaps f)
    (ν : Naming ι) {s s' : List (Slot ι)} {x : α} (hs : Slot.reads? f s = some (x, s')) :
    f (ν.fill s) = some (x, ν.fill s') := by
  obtain ⟨⟨y, rest⟩, hf, hs⟩ := Option.bind_eq_some_iff.mp hs
  obtain ⟨hlength, hs⟩ := Option.ite_none_right_eq_some.mp hs
  cases hs
  rw [Slot.fill_lead, ν.fill_append, ν.fill_chars]
  obtain ⟨left, hrest, -⟩ := exists_left (h.suffix hf) hlength
  have hleft : rest.take (rest.length - (Slot.stop s).length) = left := by simp [hrest]
  rw [hleft]
  rw [hrest] at hf
  rcases Slot.fromHole_cases s with hend | ⟨i, t, hhole⟩
  · have hstop : Slot.stop s = [] := by rw [Slot.stop, hend]; rfl
    rw [hend]
    rwa [hstop] at hf
  · have hstop : Slot.stop s = north := by rw [Slot.stop, hhole]; rfl
    rw [hhole]
    rw [hstop] at hf
    exact h.swap (ν.directed_hole i t) hf

/-- A reader of slots leaves what a reader of characters leaves of them once the holes are filled;
the values that the two come to belong together. -/
structure Follows {α β : Type} (ν : Naming ι) (R : Option α → β → Prop)
    (f : List Char → Option (α × List Char)) (g : List (Slot ι) → Option (β × List (Slot ι))) :
    Prop where
  follow : ∀ {s y s'}, g s = some (y, s') → ∃ r, R r y ∧ f (ν.fill s) = r.map (·, ν.fill s')

/-- A reader that goes another way behind a character. -/
def Slot.onFirst {β : Type} (c : Char) (g h : List (Slot ι) → Option β) :
    List (Slot ι) → Option β
  | .char d :: s => if d = c then g s else h (.char d :: s)
  | s => h s

theorem Slot.onFirst_cases (ν : Naming ι) {β : Type} {c : Char} (hc : c ∉ directionLetters)
    {g h : List (Slot ι) → Option β} {s : List (Slot ι)} {y : β}
    (hs : Slot.onFirst c g h s = some y) :
    (∃ t, s = .char c :: t ∧ g t = some y) ∨
      ((∀ ds, ν.fill s = c :: ds → False) ∧ h s = some y) := by
  unfold onFirst at hs
  split at hs
  next d t =>
    split at hs
    next hd => exact Or.inl ⟨t, by rw [hd], hs⟩
    next hd => exact Or.inr ⟨fun ds hds => hd (List.cons.inj hds).1, hs⟩
  next hchar =>
    refine Or.inr ⟨fun ds hds => ?_, hs⟩
    cases s with
    | nil => cases hds
    | cons x s =>
      cases x with
      | char d => exact hchar d s rfl
      | hole i => exact (ν.directed_hole i s).ne hc ds hds

/-- Any value, as long as there is one. -/
def Some {α β : Type} (r : Option α) (_ : β) : Prop := r.isSome = true

namespace Follows

variable {α β γ δ : Type} {ν : Naming ι} {R : Option α → β → Prop} {Q : Option γ → δ → Prop}
  {f : List Char → Option (α × List Char)} {g : List (Slot ι) → Option (β × List (Slot ι))}

theorem refuses : Follows ν R f fun _ => none := ⟨nofun⟩

theorem takes {x : α} {y : β} (h : R (some x) y) :
    Follows ν R (fun cs => some (x, cs)) fun s => some (y, s) :=
  ⟨fun hs => by cases hs; exact ⟨some x, h, rfl⟩⟩

theorem reads (h : Swaps f) {R : Option α → α → Prop} (hR : ∀ x, R (some x) x) :
    Follows ν R f (Slot.reads? f) :=
  ⟨fun hs => ⟨_, hR _, h.reads ν hs⟩⟩

theorem andThen (h : Follows ν R f g) {f' : α → List Char → Option (γ × List Char)}
    {g' : β → List (Slot ι) → Option (δ × List (Slot ι))}
    (hg : ∀ r y, R r y → ∃ x, r = some x ∧ Follows ν Q (f' x) (g' y)) :
    Follows ν Q (fun cs => (f cs).bind fun z => f' z.1 z.2)
      fun s => (g s).bind fun z => g' z.1 z.2 where
  follow hs := by
    obtain ⟨⟨y, rest⟩, hg', hs⟩ := Option.bind_eq_some_iff.mp hs
    obtain ⟨r, hr, hf⟩ := h.follow hg'
    obtain ⟨x, rfl, hnext⟩ := hg r y hr
    rw [hf]
    exact hnext.follow hs

/-- What is made of the values that are read. -/
theorem choose (h : Follows ν R f g) {p : α → Option γ} {q : β → Option δ}
    (hpq : ∀ r y, R r y → ∀ w, q y = some w → Q (r.bind p) w) :
    Follows ν Q (fun cs => (f cs).bind fun z => (p z.1).map (·, z.2))
      fun s => (g s).bind fun z => (q z.1).map (·, z.2) where
  follow hs := by
    obtain ⟨⟨y, rest⟩, hg, hs⟩ := Option.bind_eq_some_iff.mp hs
    obtain ⟨w, hw, hs⟩ := Option.map_eq_some_iff.mp hs
    obtain ⟨r, hr, hf⟩ := h.follow hg
    cases hs
    refine ⟨r.bind p, hpq r y hr _ hw, ?_⟩
    rw [hf]
    cases r <;> rfl

theorem skip (h : Follows ν R f g) (v : Bool) :
    Follows ν R (fun cs => f (Regex.skip v cs)) fun s => g (Slot.skip v s) where
  follow {s y s'} hs := by
    rw [Slot.skip_fill]
    exact h.follow hs

theorem skip? (h : Follows ν R f g) (v : Bool) :
    Follows ν R (fun cs => (Regex.skip? v cs).bind f) fun s => (Slot.skip? v s).bind g where
  follow {s y s'} hs := by
    obtain ⟨t, ht, hs⟩ := Option.bind_eq_some_iff.mp hs
    rw [Slot.skip?_fill ν ht]
    exact h.follow hs

theorem onFirst {c : Char} (hc : c ∉ directionLetters)
    {f f₁ f₂ : List Char → Option (α × List Char)}
    {g₁ g₂ : List (Slot ι) → Option (β × List (Slot ι))}
    (h₁ : Follows ν R f₁ g₁) (h₂ : Follows ν R f₂ g₂) (hcons : ∀ cs, f (c :: cs) = f₁ cs)
    (hother : ∀ cs, (∀ ds, cs = c :: ds → False) → f cs = f₂ cs) :
    Follows ν R f (Slot.onFirst c g₁ g₂) where
  follow hs := by
    rcases Slot.onFirst_cases ν hc hs with ⟨t, rfl, ht⟩ | ⟨hne, hs⟩
    · rw [Naming.fill, hcons]
      exact h₁.follow ht
    · rw [hother _ hne]
      exact h₂.follow hs

end Follows

end

end ParticleAutomaton.Regex
