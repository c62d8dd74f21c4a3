import ParticleAutomaton.Proofs.DirectionSets
import ParticleAutomaton.Proofs.WholeNames

namespace ParticleAutomaton.Regex

/-- What decides whether the rest of a pattern can be read. -/
structure Outline (α : Type) where
  flags : Flags
  /-- Whether the last part of the group, if there is one, is a change of flags. -/
  last : Option Bool
  levels : List Flags
  names : List α

/-- A change of flags behind its letters; the flag tells whether it is for a group of its own. -/
def flagEnd? (letters : List Char) (flags : Flags) : List Char → Option ((Flags × Bool) × List Char)
  | ':' :: rest => some ((flags, true), rest)
  | ')' :: rest => if letters = [] then none else some ((flags, false), rest)
  | _ => none

def flagChange? (f : Flags) (cs : List Char) : Option ((Flags × Bool) × List Char) :=
  (Flags.change? (cs.takeWhile Builder.isFlagLetter) f).bind fun flags =>
    flagEnd? (cs.takeWhile Builder.isFlagLetter) flags (cs.dropWhile Builder.isFlagLetter)

theorem swaps_flagChange? (f : Flags) : Swaps (flagChange? f) where
  swap {cs left x t} _ h := by
    unfold flagChange? at h ⊢
    obtain ⟨flags, hflags, h⟩ := Option.bind_eq_some_iff.mp h
    have hne : cs.dropWhile Builder.isFlagLetter ≠ [] := by
      intro hnil
      rw [List.dropWhile_append, hnil] at h
      cases h
    rw [takeWhile_append_of_ne_nil hne] at hflags h
    rw [dropWhile_append_of_ne_nil hne] at h
    rw [takeWhile_append_of_ne_nil hne, dropWhile_append_of_ne_nil hne, hflags, Option.bind_some]
    generalize cs.dropWhile Builder.isFlagLetter = ds at h hne
    obtain ⟨d, ds, rfl⟩ := List.exists_cons_of_ne_nil hne
    have htakes (y : Flags × Bool) (h : some (y, ds ++ north) = some (x, left ++ north)) :
        some (y, ds ++ t) = some (x, left ++ t) := by
      obtain ⟨rfl, hleft⟩ := Prod.mk.inj (Option.some.inj h)
      rw [List.append_cancel_right hleft]
    rw [List.cons_append] at h ⊢
    by_cases hcolon : d = ':'
    · subst hcolon
      exact htakes _ h
    by_cases hclose : d = ')'
    · subst hclose
      simp only [flagEnd?] at h ⊢
      obtain ⟨hletters, h⟩ := Option.ite_none_left_eq_some.mp h
      rw [if_neg hletters]
      exact htakes _ h
    · simp [flagEnd?, hcolon, hclose] at h
  suffix {cs x rest} h := by
    obtain ⟨flags, -, h⟩ := Option.bind_eq_some_iff.mp h
    refine List.IsSuffix.trans ?_ (List.dropWhile_suffix Builder.isFlagLetter)
    generalize cs.dropWhile Builder.isFlagLetter = ds at h
    unfold flagEnd? at h
    split at h
    next =>
      cases h
      exact List.suffix_cons ..
    next =>
      obtain ⟨-, h⟩ := Option.ite_none_left_eq_some.mp h
      cases h
      exact List.suffix_cons ..
    next => cases h

namespace Outline

section

variable {α : Type} (o : Outline α)

/-- A part is read. -/
def read : Outline α := { o with last := some false }

/-- A group is opened. -/
def enter (flags : Flags) : Outline α :=
  { o with flags, last := none, levels := o.flags :: o.levels }

def leave? : Option (Outline α) :=
  o.levels.head?.map fun flags => { o with flags, last := some false, levels := o.levels.tail }

/-- A change of flags cannot be repeated. -/
def repeat? : Option (Outline α) := if o.last = some false then some o else none

def change (x : Flags × Bool) : Outline α :=
  if x.2 then o.enter x.1 else { o with flags := x.1, last := some true }

end

variable {ι : Type} (o : Outline (List (Slot ι)))

def fill (ν : Naming ι) : Outline (List Char) := ⟨o.flags, o.last, o.levels, o.names.map ν.fill⟩

/-- What is left of a pattern with the holes filled in: no two groups have one name. -/
def settled? (ν : Naming ι) : Option (Outline (List Char)) :=
  if (o.names.map ν.fill).Nodup then some (o.fill ν) else none

def named? (s : List (Slot ι)) : Option (Outline (List (Slot ι)) × List (Slot ι)) :=
  match s.takeWhile (Slot.test (· != '>') true), s.dropWhile (Slot.test (· != '>') true) with
  | x :: name, .char '>' :: rest =>
    if Slot.passes Builder.isNameStart [x] && Slot.passes Builder.isNamePart (x :: name) then
      some ({ o.enter o.flags with names := (x :: name) :: o.names }, rest)
    else none
  | _, _ => none

def change? (s : List (Slot ι)) : Option (Outline (List (Slot ι)) × List (Slot ι)) :=
  (Slot.reads? (flagChange? o.flags) s).bind fun z => (some (o.change z.1)).map (·, z.2)

def refuse {α : Type} (_ : List (Slot ι)) : Option α := none

def angle? : List (Slot ι) → Option (Outline (List (Slot ι)) × List (Slot ι)) :=
  Slot.onFirst '=' refuse (Slot.onFirst '!' refuse o.named?)

def question? : List (Slot ι) → Option (Outline (List (Slot ι)) × List (Slot ι)) :=
  Slot.onFirst '=' refuse (Slot.onFirst '!' refuse
    (Slot.onFirst '<' o.angle? (Slot.onFirst 'P' (Slot.onFirst '<' o.named? refuse) o.change?)))

def groupFront? : List (Slot ι) → Option (Outline (List (Slot ι)) × List (Slot ι)) :=
  Slot.onFirst '?' o.question? fun s => some (o.enter o.flags, s)

/-- A question mark behind a repetition, if there is one, belongs to it. -/
def greed : List (Slot ι) → Option (Unit × List (Slot ι)) :=
  Slot.onFirst '?' (fun s => some ((), s)) fun s => some ((), s)

def repeated? (s : List (Slot ι)) : Option (Outline (List (Slot ι)) × List (Slot ι)) :=
  (greed s).bind fun z => o.repeat?.map (·, z.2)

/-- What an escape stands for can be a part of a pattern. -/
def escapes (e : Escape) : Bool := (({ flags := o.flags } : Builder).escape? e).isSome

/-- The next part of a pattern behind its first character. -/
def charStep? (c : Char) (s : List (Slot ι)) : Option (Outline (List (Slot ι)) × List (Slot ι)) :=
  match c with
  | '(' => o.groupFront? (Slot.skip o.flags.verbose s)
  | ')' => o.leave?.map (·, s)
  | '|' => some ({ o with last := none }, s)
  | '[' => (Slot.bracket? o.flags s).map fun z => (o.read, z.2)
  | '?' => o.repeated? s
  | '*' => o.repeated? s
  | '+' => o.repeated? s
  | '\x7b' => (Slot.reads? (bounds? o.flags.verbose) s).bind fun z =>
    o.repeated? (Slot.skip o.flags.verbose z.2)
  | '\\' => (Slot.reads? (escape? o.flags.verbose) s).bind fun z =>
    (if o.escapes z.1 then some o.read else none).map (·, z.2)
  | '.' => if o.flags.ascii then none else some (o.read, s)
  | _ => some (o.read, s)

/-- Reads a pattern to its end. A direction stands where a part of the pattern can, among the items
of a set, in the name of a group or in a comment. -/
def steps? : Nat → Outline (List (Slot ι)) → List (Slot ι) → Option (Outline (List (Slot ι)))
  | fuel, o, s =>
    match Slot.skip o.flags.verbose s, fuel with
    | [], _ => some o
    | _, 0 => none
    | .char c :: s, fuel + 1 => (o.charStep? c s).bind fun z => steps? fuel z.1 z.2
    | .hole _ :: s, fuel + 1 => steps? fuel o.read s

end Outline

namespace Builder

def outline (b : Builder) : Outline (List Char) :=
  ⟨b.flags, b.items.head?.map Node.directive, b.levels.map Level.flags, b.names⟩

theorem outline_literal (b : Builder) (c : Char) : (b.literal c).outline = b.outline.read := by
  unfold literal
  dsimp only
  split <;> split <;> rfl

theorem outline_leave? (b : Builder) : b.leave?.map outline = b.outline.leave? := by
  unfold leave? outline
  cases b.levels <;> rfl

theorem outline_repeat? (b : Builder) (q : Quantifier) :
    (b.repeat? q).map outline = b.outline.repeat? := by
  unfold repeat? outline Outline.repeat?
  cases b.items with
  | nil => rfl
  | cons item items => cases hitem : item.directive <;> simp [hitem]

theorem outline_dot? (b : Builder) :
    b.dot?.map outline = if b.outline.flags.ascii then none else some b.outline.read := by
  unfold dot?
  dsimp only
  rw [show b.outline.flags = b.flags from rfl]
  split <;> rfl

theorem outline_escape? (b : Builder) (e : Escape) : (b.escape? e).map outline =
    if (({ flags := b.flags } : Builder).escape? e).isSome then some b.outline.read else none := by
  have hset (o : Option CharSet) (ascii : Bool) :
      (o.map fun s => b.push (ofSet s ascii) 0).map outline =
        if o.isSome then some b.outline.read else none := by
    cases o <;> rfl
  cases e with
  | char c byte =>
    simp only [escape?]
    split
    · rfl
    · exact congrArg some (b.outline_literal c)
  | set s negated =>
    simp only [escape?, hset, Option.isSome_map]
  | property p negated =>
    simp only [escape?, hset, Option.isSome_map]
  | textStart => rfl
  | textEnd => rfl
  | word boundary => rfl

/-- A change of flags in a group or as a group. -/
def change (b : Builder) (x : Flags × Bool) : Builder :=
  if x.2 then b.enter none x.1
  else { b with items := ⟨.empty, 0, true⟩ :: b.items, flags := x.1 }

theorem outline_change (b : Builder) (x : Flags × Bool) :
    (b.change x).outline = b.outline.change x := by
  unfold change Outline.change
  split <;> rfl

theorem change?_eq_bind (b : Builder) (cs : List Char) :
    b.change? cs = (flagChange? b.flags cs).bind fun z => (some (b.change z.1)).map (·, z.2) := by
  rw [change?_eq, flagChange?, Option.bind_assoc]
  refine congrArg (Option.bind _) (funext fun flags => ?_)
  generalize cs.dropWhile isFlagLetter = left
  unfold changeEnd?
  split
  next => rfl
  next =>
    simp only [flagEnd?]
    split <;> rfl
  next => simp only [flagEnd?, Option.bind_none]

end Builder

section

open Builder (outline)

variable {ι : Type} {ν : Naming ι}

/-- What starts and goes on like the name of a group does so with its holes filled in. -/
theorem nameOf_passes (ν : Naming ι) {x : Slot ι} {name : List (Slot ι)}
    (hstart : Slot.passes Builder.isNameStart [x] = true)
    (hparts : Slot.passes Builder.isNamePart (x :: name) = true) :
    ∃ c more, ν.fill (x :: name) = c :: more ∧ Builder.isNameStart c = true ∧
      more.all Builder.isNamePart = true := by
  obtain ⟨c, more, hfill⟩ :=
    List.exists_cons_of_ne_nil (ν.fill_ne_nil (List.cons_ne_nil x name))
  have hall := Slot.all_of_passes ν hparts
  rw [hfill] at hall
  refine ⟨c, more, hfill, ?_, (Bool.and_eq_true_iff.mp hall).2⟩
  have hfirst := Slot.all_of_passes ν hstart
  have happend := ν.fill_append [x] name
  obtain ⟨d, ds, hx⟩ := List.exists_cons_of_ne_nil (ν.fill_ne_nil (List.cons_ne_nil x []))
  rw [hx] at hfirst happend
  have hcd : c = d := (List.cons.inj (hfill.symm.trans happend)).1
  exact hcd ▸ (Bool.and_eq_true_iff.mp hfirst).1

/-- A step of the reader of slots and what the reader of characters comes to. -/
structure Settles (ν : Naming ι) (o : Outline (List (Slot ι))) (r : Option Builder)
    (o' : Outline (List (Slot ι))) : Prop where
  names : o.names <:+ o'.names
  outline : (o.names.map ν.fill).Nodup → r.map outline = o'.settled? ν

section

theorem settles {o o' : Outline (List (Slot ι))} {r : Option Builder} (hnames : o'.names = o.names)
    (hr : r.map outline = some (o'.fill ν)) : Settles ν o r o' where
  names := hnames ▸ List.suffix_rfl
  outline hn := by
    rw [Outline.settled?, hnames, if_pos hn]
    exact hr

variable {b : Builder} {o : Outline (List (Slot ι))} (h : b.outline = o.fill ν)

include h

theorem settles_read {r : Option Builder} (hr : r.map outline = some b.outline.read) :
    Settles ν o r o.read :=
  settles rfl (by rw [hr, h]; rfl)

theorem follows_named? : Follows ν (Settles ν o) b.named? o.named? where
  follow {s o' s'} hs := by
    have hend : ∀ c ∈ directionLetters, (c != '>') = true := forall_letters.mpr (by decide)
    rw [Builder.named?_eq, Slot.takeWhile_fill ν hend, Slot.dropWhile_fill ν hend]
    unfold Outline.named? at hs
    split at hs
    next x name rest hname hrest =>
      obtain ⟨hpasses, hs⟩ := Option.ite_none_right_eq_some.mp hs
      obtain ⟨hstart, hparts⟩ := Bool.and_eq_true_iff.mp hpasses
      cases hs
      rw [hname, hrest]
      refine ⟨b.nameGroup? (ν.fill (x :: name)), ⟨List.suffix_cons .., fun hn => ?_⟩, rfl⟩
      obtain ⟨c, more, hfill, hc, hmore⟩ := nameOf_passes ν hstart hparts
      have hnames : b.names = o.names.map ν.fill := congrArg Outline.names h
      have henter : b.capture.outline = (o.enter o.flags).fill ν :=
        congrArg (fun o : Outline (List Char) => o.enter o.flags) h
      rw [Outline.settled?, List.map_cons, hfill, ← hnames]
      rw [← hnames] at hn
      by_cases hmem : c :: more ∈ b.names
      · rw [if_neg fun hnodup => (List.nodup_cons.mp hnodup).1 hmem]
        simp [Builder.nameGroup?, hmem]
      · have hgroup : b.nameGroup? (c :: more) =
            some { b.capture with names := (c :: more) :: b.names } := by
          simp [Builder.nameGroup?, hc, hmore, hmem]
        rw [hgroup, if_pos (List.nodup_cons.mpr ⟨hmem, hn⟩), hnames, ← hfill]
        exact congrArg (fun u : Outline (List Char) =>
          some { u with names := ν.fill (x :: name) :: o.names.map ν.fill }) henter
    next => cases hs

theorem follows_change? : Follows ν (Settles ν o) b.change? o.change? := by
  have hflags : b.flags = o.flags := congrArg Outline.flags h
  rw [funext b.change?_eq_bind, hflags]
  have hread : Follows ν (fun r x => r = some x) (flagChange? o.flags)
      (Slot.reads? (flagChange? o.flags)) := .reads (swaps_flagChange? o.flags) fun _ => rfl
  refine hread.choose (p := fun x => some (b.change x)) (q := fun x => some (o.change x))
    fun r x hr o' ho' => ?_
  cases hr
  cases ho'
  refine settles ?_ ?_
  · unfold Outline.change
    split <;> rfl
  · rw [Option.bind_some, Option.map_some, Builder.outline_change, h]
    unfold Outline.change
    split <;> rfl

theorem follows_groupFront? : Follows ν (Settles ν o) b.groupFront? o.groupFront? := by
  have onFirst {c : Char} (hc : c ∉ directionLetters)
      {f₁ f₂ : List Char → Option (Builder × List Char)}
      {g₁ g₂ : List (Slot ι) → Option (Outline (List (Slot ι)) × List (Slot ι))}
      (h₁ : Follows ν (Settles ν o) f₁ g₁) (h₂ : Follows ν (Settles ν o) f₂ g₂) :
      Follows ν (Settles ν o) (Builder.onFirst c f₁ f₂) (Slot.onFirst c g₁ g₂) :=
    .onFirst hc h₁ h₂ (Builder.onFirst_cons c f₁ f₂) fun _ hcs => Builder.onFirst_other f₁ f₂ hcs
  have hnamed := follows_named? h
  have hangle : Follows ν (Settles ν o) b.angle? o.angle? :=
    onFirst (by decide) .refuses (onFirst (by decide) .refuses hnamed)
  have hrefuse : Follows ν (Settles ν o) Builder.refuse Outline.refuse := .refuses
  have hupper := onFirst (c := 'P') (by decide)
    (onFirst (c := '<') (by decide) hnamed hrefuse) (follows_change? h)
  have hquestion : Follows ν (Settles ν o) b.question? o.question? :=
    onFirst (by decide) .refuses
      (onFirst (by decide) .refuses (onFirst (by decide) hangle hupper))
  have hcapture : b.capture.outline = (o.enter o.flags).fill ν :=
    congrArg (fun o : Outline (List Char) => o.enter o.flags) h
  exact onFirst (by decide) hquestion (.takes (settles rfl (congrArg some hcapture)))

theorem follows_repeated? (q : Bool → Quantifier) : Follows ν (Settles ν o)
    (fun cs => (b.repeat? (q (greed cs).1)).map (·, (greed cs).2)) o.repeated? := by
  have hgreed : Follows ν Some (fun cs => some (greed cs)) Outline.greed :=
    .onFirst (by decide) (.takes (x := false) rfl) (.takes (x := true) rfl) (fun _ => rfl)
      fun cs hcs => by simp only [greed]
  refine hgreed.choose (p := fun g => b.repeat? (q g)) (q := fun _ => o.repeat?)
    fun r _ hr o' ho' => ?_
  obtain ⟨g, rfl⟩ := Option.isSome_iff_exists.mp hr
  obtain ⟨hlast, ho'⟩ := Option.ite_none_right_eq_some.mp ho'
  cases ho'
  refine settles rfl ?_
  rw [Option.bind_some, Builder.outline_repeat?, h]
  exact if_pos hlast

theorem follows_closing :
    Follows ν (Settles ν o) (fun cs => b.step? (')' :: cs)) (o.charStep? ')') where
  follow {s o' s'} hs := by
    obtain ⟨o', ho', hs⟩ := Option.map_eq_some_iff.mp hs
    obtain ⟨flags, hlevel, he⟩ := Option.map_eq_some_iff.mp ho'
    cases hs
    refine ⟨b.leave?, settles (he ▸ rfl) ?_, rfl⟩
    rw [Builder.outline_leave?, h, ← he]
    exact congrArg (Option.map _) hlevel

theorem follows_bar :
    Follows ν (Settles ν o) (fun cs => b.step? ('|' :: cs)) (o.charStep? '|') := by
  have hbar : b.bar.outline = ({ o with last := none } : Outline (List (Slot ι))).fill ν :=
    congrArg (fun o : Outline (List Char) => { o with last := none }) h
  exact .takes (settles rfl (congrArg some hbar))

theorem follows_set :
    Follows ν (Settles ν o) (fun cs => b.step? ('[' :: cs)) (o.charStep? '[') where
  follow {s o' s'} hs := by
    have hflags : b.flags = o.flags := congrArg Outline.flags h
    obtain ⟨⟨_, rest⟩, hset, hs⟩ := Option.map_eq_some_iff.mp hs
    obtain ⟨r, hr, hfill⟩ := (follows_bracket? ν o.flags).follow hset
    obtain ⟨z, rfl⟩ := Option.isSome_iff_exists.mp hr
    cases hs
    refine ⟨some (b.push (ofSet z.set b.flags.ascii) z.depth), settles_read h rfl, ?_⟩
    rw [← hflags] at hfill
    simp only [Builder.step?, hfill]
    rfl

theorem follows_bounds :
    Follows ν (Settles ν o) (fun cs => b.step? ('\x7b' :: cs)) (o.charStep? '\x7b') := by
  have hflags : b.flags = o.flags := congrArg Outline.flags h
  let quantifier (x : Nat × Option Nat) (g : Bool) : Quantifier := ⟨x.1, x.2, g⟩
  let repeated (x : Nat × Option Nat) (cs : List Char) : Option (Builder × List Char) :=
    (b.repeat? (quantifier x (greed cs).1)).map (·, (greed cs).2)
  have hbounds : Follows ν (fun r x => r = some x) (bounds? o.flags.verbose)
      (Slot.reads? (bounds? o.flags.verbose)) := .reads (swaps_bounds? _) fun _ => rfl
  have hrepeat (x : Nat × Option Nat) := follows_repeated? h (quantifier x)
  have hstep (cs : List Char) : b.step? ('\x7b' :: cs) = (bounds? o.flags.verbose cs).bind
      fun z => repeated z.1 (skip o.flags.verbose z.2) := by
    simp only [Builder.step?, quantifier?_bounds, hflags, Option.bind_eq_bind, Option.bind_map]
    rfl
  rw [funext hstep]
  exact hbounds.andThen fun r x hr => ⟨x, hr, (hrepeat x).skip o.flags.verbose⟩

theorem follows_escape :
    Follows ν (Settles ν o) (fun cs => b.step? ('\\' :: cs)) (o.charStep? '\\') := by
  have hflags : b.flags = o.flags := congrArg Outline.flags h
  have hescape : Follows ν (fun r x => r = some x) (escape? o.flags.verbose)
      (Slot.reads? (escape? o.flags.verbose)) := .reads (swaps_escape? _) fun _ => rfl
  have hstep (cs : List Char) : b.step? ('\\' :: cs) = (escape? o.flags.verbose cs).bind
      fun z => (b.escape? z.1).map (·, z.2) := by
    rw [← hflags]
    rfl
  rw [funext hstep]
  refine hescape.choose (q := fun e => if o.escapes e then some o.read else none)
    fun r e hr o' ho' => ?_
  obtain ⟨hescapes, ho'⟩ := Option.ite_none_right_eq_some.mp ho'
  cases hr
  cases ho'
  refine settles_read h ?_
  rw [Option.bind_some, Builder.outline_escape?, hflags]
  exact if_pos hescapes

theorem follows_dot :
    Follows ν (Settles ν o) (fun cs => b.step? ('.' :: cs)) (o.charStep? '.') where
  follow {s o' s'} hs := by
    obtain ⟨hascii, hs⟩ := Option.ite_none_left_eq_some.mp hs
    cases hs
    refine ⟨b.dot?, settles_read h ?_, rfl⟩
    rw [Builder.outline_dot?, h]
    exact if_neg hascii

/-- A step behind a character of the pattern. -/
theorem follows_charStep? (c : Char) :
    Follows ν (Settles ν o) (fun cs => b.step? (c :: cs)) (o.charStep? c) := by
  have hflags : b.flags = o.flags := congrArg Outline.flags h
  by_cases hsign : c ∈ ['(', ')', '|', '[', '?', '*', '+', '\x7b', '\\', '.', '^', '$']
  · simp only [List.mem_cons, List.not_mem_nil, or_false] at hsign
    rcases hsign with rfl | rfl | rfl | rfl | rfl | rfl | rfl | rfl | rfl | rfl | rfl | rfl
    · have hgroup := (follows_groupFront? h).skip o.flags.verbose
      rw [← hflags, ← funext b.group?_eq, hflags] at hgroup
      exact hgroup
    · exact follows_closing h
    · exact follows_bar h
    · exact follows_set h
    · exact follows_repeated? h fun g => ⟨0, some 1, g⟩
    · exact follows_repeated? h fun g => ⟨0, none, g⟩
    · exact follows_repeated? h fun g => ⟨1, none, g⟩
    · exact follows_bounds h
    · exact follows_escape h
    · exact follows_dot h
    · exact .takes (settles_read h rfl)
    · exact .takes (settles_read h rfl)
  · have hliteral : Follows ν (Settles ν o) (fun cs => some (b.literal c, cs))
        fun s => some (o.read, s) :=
      .takes (settles_read h (congrArg some (b.outline_literal c)))
    have hstep : o.charStep? c = fun s => some (o.read, s) := by
      funext s
      simp only [List.mem_cons, List.not_mem_nil, or_false, not_or] at hsign
      simp [Outline.charStep?, hsign]
    rw [hstep, funext (b.step?_literal hsign)]
    exact hliteral

end

theorem Builder.exists_outline (u : Outline (List Char)) : ∃ b : Builder, b.outline = u := by
  let items : List Node := u.last.toList.map fun directive => ⟨.empty, 0, directive⟩
  let levels : List Level := u.levels.map fun flags => ⟨[], [], flags, none⟩
  refine ⟨⟨[], items, u.flags, levels, 0, u.names⟩, ?_⟩
  have hlast : items.head?.map Node.directive = u.last := by
    unfold items
    cases u.last <;> rfl
  have hlevels : levels.map Level.flags = u.levels := by
    simp [levels, Function.comp_def]
  rw [outline, hlast, hlevels]

theorem Outline.steps?_cases {n : Nat} {o o' : Outline (List (Slot ι))} {s : List (Slot ι)}
    (h : o.steps? n s = some o') : Slot.skip o.flags.verbose s = [] ∧ o' = o ∨
      (∃ k c t z, n = k + 1 ∧ Slot.skip o.flags.verbose s = .char c :: t ∧
        o.charStep? c t = some z ∧ z.1.steps? k z.2 = some o') ∨
      ∃ k i t, n = k + 1 ∧ Slot.skip o.flags.verbose s = .hole i :: t ∧
        o.read.steps? k t = some o' := by
  unfold steps? at h
  split at h
  next hs => exact Or.inl ⟨hs, (Option.some.inj h).symm⟩
  next => cases h
  next c t k hs =>
    obtain ⟨z, hz, h⟩ := Option.bind_eq_some_iff.mp h
    exact Or.inr (Or.inl ⟨k, c, t, z, rfl, hs, hz, h⟩)
  next i t k hs => exact Or.inr (Or.inr ⟨k, i, t, rfl, hs, h⟩)

/-- The groups that are named stay so to the end of the pattern. -/
theorem Outline.steps?_names (ν : Naming ι) {n : Nat} {o o' : Outline (List (Slot ι))}
    {s : List (Slot ι)} (h : o.steps? n s = some o') : o.names <:+ o'.names := by
  induction n generalizing o s with
  | zero =>
    obtain ⟨-, rfl⟩ | ⟨k, c, t, z, hk, -⟩ | ⟨k, i, t, hk, -⟩ := steps?_cases h
    · exact List.suffix_rfl
    · cases hk
    · cases hk
  | succ n ih =>
    obtain ⟨-, rfl⟩ | ⟨k, c, t, z, hk, -, hz, h⟩ | ⟨k, i, t, hk, -, h⟩ := steps?_cases h
    · exact List.suffix_rfl
    · cases hk
      obtain ⟨b, hb⟩ := Builder.exists_outline (o.fill ν)
      obtain ⟨r, hr, -⟩ := (follows_charStep? hb c).follow hz
      exact hr.names.trans (ih h)
    · cases hk
      have hread : o.read.names <:+ o'.names := ih h
      exact hread

namespace Builder

theorem steps?_letters (b : Builder) {cs : List Char} (hcs : ∀ c ∈ cs, c ∈ directionLetters)
    (rest : List Char) :
    steps? (cs ++ rest).length b (cs ++ rest) = steps? rest.length (cs.foldl literal b) rest := by
  induction cs generalizing b with
  | nil => rfl
  | cons c cs ih =>
    have hc := hcs c (List.mem_cons_self ..)
    have hdirected : Directed (c :: (cs ++ rest)) := ⟨c, hc, _, rfl⟩
    have hsign : c ∉ ['(', ')', '|', '[', '?', '*', '+', '\x7b', '\\', '.', '^', '$'] := by
      simp only [directionLetters, List.mem_cons, List.not_mem_nil, or_false] at hc
      rcases hc with rfl | rfl | rfl | rfl <;> decide
    rw [List.cons_append, List.length_cons, steps?_cons (hdirected.skip _), step?_literal b hsign]
    exact ih (b.literal c) fun d hd => hcs d (List.mem_cons_of_mem c hd)

theorem outline_letters (b : Builder) {cs : List Char} (hne : cs ≠ []) :
    (cs.foldl literal b).outline = b.outline.read := by
  induction cs generalizing b with
  | nil => exact absurd rfl hne
  | cons c cs ih =>
    rw [List.foldl_cons]
    by_cases hcs : cs = []
    · rw [hcs]
      exact outline_literal b c
    · rw [ih _ hcs, outline_literal]
      rfl

/-- The letters of a direction are parts of the pattern. -/
theorem steps?_hole (b : Builder) (ν : Naming ι) {i : ι} {s t : List (Slot ι)}
    (hs : Slot.skip b.flags.verbose s = .hole i :: t) {m : Nat} (hm : (ν.fill s).length ≤ m) :
    steps? m b (ν.fill s) =
      steps? (ν.fill t).length ((ν.name i).foldl literal b) (ν.fill t) := by
  have hskip := Slot.skip_fill ν b.flags.verbose s
  rw [hs] at hskip
  have hagain := (ν.directed_hole i t).skip b.flags.verbose
  have hlength := (skip_suffix b.flags.verbose (ν.fill s)).length_le
  rw [hskip] at hlength
  have hsame : steps? m b (ν.fill s) = steps? m b (ν.fill (.hole i :: t)) := by
    rw [steps?.eq_def, steps?.eq_def m b (ν.fill (.hole i :: t))]
    dsimp only
    rw [hskip, hagain]
  rw [hsame, steps?_fuel (Nat.le_trans hlength hm) (Nat.le_refl _)]
  exact b.steps?_letters (ν.letters i) (ν.fill t)

end Builder

theorem Outline.settled?_eq_none {o o' : Outline (List (Slot ι))} (h : o.names <:+ o'.names)
    (hn : ¬(o.names.map ν.fill).Nodup) : o'.settled? ν = none :=
  if_neg fun hn' => hn (hn'.sublist (h.map ν.fill).sublist)

/-- With the holes filled in, a pattern that the reader of slots reads is read to its end, unless
two groups get one name. -/
theorem outline_steps? {n m : Nat} {b : Builder} {o o' : Outline (List (Slot ι))}
    {s : List (Slot ι)} (h : b.outline = o.fill ν) (hn : (o.names.map ν.fill).Nodup)
    (hm : (ν.fill s).length ≤ m) (hs : o.steps? n s = some o') :
    (Builder.steps? m b (ν.fill s)).map outline = o'.settled? ν := by
  induction n using Nat.strongRecOn generalizing m b o s with
  | ind n ih =>
    have hflags : b.flags = o.flags := congrArg Outline.flags h
    have hskip := Slot.skip_fill ν b.flags.verbose s
    have hshort := (skip_suffix b.flags.verbose (ν.fill s)).length_le
    rw [hskip, hflags] at hshort
    obtain ⟨hslots, rfl⟩ | ⟨k, c, t, ⟨o₁, rest⟩, rfl, hslots, hstep, hs⟩ |
        ⟨k, i, t, rfl, hslots, hs⟩ :=
      Outline.steps?_cases hs
    · rw [hflags, hslots] at hskip
      rw [Builder.steps?_nil (hflags ▸ hskip), Option.map_some, h]
      exact (if_pos hn).symm
    · rw [hflags, hslots] at hskip
      rw [hslots, Naming.fill, List.length_cons] at hshort
      obtain ⟨m, rfl⟩ : ∃ j, m = j + 1 := ⟨m - 1, by omega⟩
      obtain ⟨r, hr, hfill⟩ := (follows_charStep? h c).follow hstep
      rw [Builder.steps?_cons (hflags ▸ hskip)]
      have hsettled := hr.outline hn
      by_cases hn₁ : (o₁.names.map ν.fill).Nodup
      · rw [Outline.settled?, if_pos hn₁] at hsettled
        obtain ⟨b₁, rfl, hb₁⟩ := Option.map_eq_some_iff.mp hsettled
        have hrest := ((b.tails_step? c).suffix hfill).length_le
        have hfill : b.step? (c :: ν.fill t) = some (b₁, ν.fill rest) := hfill
        rw [hfill]
        exact ih k (Nat.lt_succ_self k) hb₁ hn₁ (by omega) hs
      · rw [Outline.settled?, if_neg hn₁] at hsettled
        have hfill : b.step? (c :: ν.fill t) = none := by
          rw [Option.map_eq_none_iff.mp hsettled] at hfill
          exact hfill
        rw [hfill, Outline.settled?_eq_none (Outline.steps?_names ν hs) hn₁]
        rfl
    · have hread : ((ν.name i).foldl Builder.literal b).outline = o.read.fill ν := by
        rw [b.outline_letters (ν.ne_nil i), h]
        rfl
      rw [b.steps?_hole ν (hflags ▸ hslots) hm]
      exact ih k (Nat.lt_succ_self k) hread hn (Nat.le_refl _) hs

end

end ParticleAutomaton.Regex
