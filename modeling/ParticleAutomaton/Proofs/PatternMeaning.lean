import Mathlib.Logic.Relation
import ParticleAutomaton.Regex.Simplify

namespace ParticleAutomaton

/-- A place in a text, with the rest of the text. -/
structure Cursor where
  before : Option Char
  rest : List Char

namespace Cursor

def place (x : Cursor) : Place := ⟨x.before, x.rest.head?⟩

/-- The first cursor is in front of a character and the second one behind it. -/
def Next (c : Char) (x y : Cursor) : Prop := x.rest = c :: y.rest ∧ y.before = some c

/-- Further on in the same text. -/
def Onwards : Cursor → Cursor → Prop := Relation.ReflTransGen fun x y => ∃ c, Next c x y

theorem onwards_nil {before : Option Char} {y : Cursor} :
    Onwards ⟨before, []⟩ y ↔ y = ⟨before, []⟩ := by
  refine Relation.ReflTransGen.cases_head_iff.trans ⟨?_, fun he => Or.inl he.symm⟩
  rintro (he | ⟨z, ⟨c, hrest, -⟩, -⟩)
  · exact he.symm
  · exact nomatch hrest

theorem next_cons {before : Option Char} {c d : Char} {cs : List Char} {y : Cursor} :
    Next d ⟨before, c :: cs⟩ y ↔ d = c ∧ y = ⟨some c, cs⟩ := by
  obtain ⟨b, rest⟩ := y
  simp only [Next, List.cons.injEq, mk.injEq]
  constructor
  · rintro ⟨⟨rfl, rfl⟩, rfl⟩
    exact ⟨rfl, rfl, rfl⟩
  · rintro ⟨rfl, rfl, rfl⟩
    exact ⟨⟨rfl, rfl⟩, rfl⟩

theorem onwards_cons {before : Option Char} {c : Char} {cs : List Char} {y : Cursor} :
    Onwards ⟨before, c :: cs⟩ y ↔ y = ⟨before, c :: cs⟩ ∨ Onwards ⟨some c, cs⟩ y := by
  refine Relation.ReflTransGen.cases_head_iff.trans (or_congr eq_comm ?_)
  constructor
  · rintro ⟨z, ⟨d, hd⟩, hz⟩
    obtain ⟨rfl, rfl⟩ := next_cons.mp hd
    exact hz
  · intro hy
    exact ⟨_, ⟨c, next_cons.mpr ⟨rfl, rfl⟩⟩, hy⟩

theorem eq_or_before {x y : Cursor} (h : Onwards x y) : y = x ∨ y.before.isSome = true := by
  cases h with
  | refl => exact Or.inl rfl
  | tail _ hstep =>
    obtain ⟨c, -, hc⟩ := hstep
    exact Or.inr (hc ▸ rfl)

def Reads : List Char → Cursor → Cursor → Prop
  | [] => Eq
  | c :: cs => Relation.Comp (Next c) (Reads cs)

theorem reads_append (cs ds : List Char) :
    Reads (cs ++ ds) = Relation.Comp (Reads cs) (Reads ds) := by
  induction cs with
  | nil => exact Relation.eq_comp.symm
  | cons c cs ih =>
    show Relation.Comp (Next c) (Reads (cs ++ ds)) = _
    rw [ih]
    exact Relation.comp_assoc.symm

end Cursor

/-- A relation so many times in a row. -/
def Times {α : Type} (r : α → α → Prop) : Nat → α → α → Prop
  | 0 => Eq
  | n + 1 => Relation.Comp r (Times r n)

theorem times_add {α : Type} (r : α → α → Prop) (m n : Nat) :
    Times r (m + n) = Relation.Comp (Times r m) (Times r n) := by
  induction m with
  | zero =>
    rw [Nat.zero_add]
    exact Relation.eq_comp.symm
  | succ m ih =>
    rw [Nat.succ_add]
    show Relation.Comp r (Times r (m + n)) = _
    rw [ih]
    exact Relation.comp_assoc.symm

theorem times_one {α : Type} (r : α → α → Prop) : Times r 1 = r := Relation.comp_eq

namespace Regex

open Relation (Comp)

/-- The part of a text between two cursors is one that the expression is for. -/
def Leads : Regex → Cursor → Cursor → Prop
  | .empty => Eq
  | .text cs => Cursor.Reads cs
  | .one s _ => fun x y => ∃ c, s.mem c = true ∧ x.Next c y
  | .anchor a => fun x y => a.holds x.place = true ∧ x = y
  | .group _ e => e.Leads
  | .seq a b => Comp a.Leads b.Leads
  | .alt a b => fun x y => a.Leads x y ∨ b.Leads x y
  | .times e min max _ => fun x y =>
    ∃ k, (∀ m ∈ max, k ≤ m - min) ∧ Times e.Leads (min + k) x y

/-- Expressions one behind the other. -/
def LeadsAll : List Regex → Cursor → Cursor → Prop
  | [] => Eq
  | e :: es => Comp e.Leads (LeadsAll es)

theorem leadsAll_append (es fs : List Regex) :
    LeadsAll (es ++ fs) = Comp (LeadsAll es) (LeadsAll fs) := by
  induction es with
  | nil => exact Relation.eq_comp.symm
  | cons e es ih =>
    show Comp e.Leads (LeadsAll (es ++ fs)) = _
    rw [ih]
    exact Relation.comp_assoc.symm

theorem leadsAll_singleton (e : Regex) : LeadsAll [e] = e.Leads := Relation.comp_eq

theorem leadsAll_parts (e : Regex) : LeadsAll e.parts = e.Leads := by
  induction e with
  | seq a b _ ih =>
    show Comp a.Leads (LeadsAll b.parts) = _
    rw [ih]
    rfl
  | _ => exact leadsAll_singleton _

theorem leadsAll_flatMap_parts (es : List Regex) : LeadsAll (es.flatMap parts) = LeadsAll es := by
  induction es with
  | nil => rfl
  | cons e es ih =>
    rw [List.flatMap_cons, leadsAll_append, leadsAll_parts, ih]
    rfl

theorem leadsAll_joinTexts (es : List Regex) : LeadsAll (joinTexts es) = LeadsAll es := by
  fun_induction joinTexts es with
  | case1 => rfl
  | case2 es ih =>
    rw [ih]
    exact Relation.eq_comp.symm
  | case3 cs es ds more hjoin ih =>
    rw [hjoin] at ih
    show Comp (Cursor.Reads (cs ++ ds)) (LeadsAll more) = Comp (Cursor.Reads cs) (LeadsAll es)
    rw [← ih, Cursor.reads_append]
    exact Relation.comp_assoc
  | case4 cs es _ ih => exact congrArg (Comp (Cursor.Reads cs)) ih
  | case5 e es _ _ ih => exact congrArg (Comp e.Leads) ih

theorem leads_ofParts (es : List Regex) : (ofParts es).Leads = LeadsAll es := by
  induction es with
  | nil => rfl
  | cons e es ih =>
    cases es with
    | nil => exact (leadsAll_singleton e).symm
    | cons f es => exact congrArg (Comp e.Leads) ih

theorem leads_sequence (es : List Regex) : (sequence es).Leads = LeadsAll es := by
  rw [sequence, leads_ofParts, leadsAll_joinTexts, leadsAll_flatMap_parts]

end Regex

end ParticleAutomaton
