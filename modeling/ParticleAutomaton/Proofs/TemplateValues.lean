import Mathlib.Data.Int.ModEq
import ParticleAutomaton.Proofs.RuleMatches
import ParticleAutomaton.Proofs.TemplateWords

namespace ParticleAutomaton

namespace Text

/-- What whole numbers a text of digits, with or without a sign, stands for. -/
inductive IsDecimal : List Char → Int → Prop
  | plain {ds} (h : Digits ds) : IsDecimal ds (ofDigits ds)
  | plus {ds} (h : Digits ds) : IsDecimal ('+' :: ds) (ofDigits ds)
  | minus {ds} (h : Digits ds) : IsDecimal ('-' :: ds) (-ofDigits ds)

/-- A signed word of 64 bits holds the number. -/
def IsInt64 (v : Int) : Prop := -2 ^ 63 ≤ v ∧ v < 2 ^ 63

theorem fitsInt64_iff {v : Int} : fitsInt64 v = true ↔ IsInt64 v := by
  unfold fitsInt64 IsInt64
  simp only [Bool.and_eq_true, decide_eq_true_eq]
  omega

theorem natural?_eq_some_iff {cs : List Char} {n : Nat} :
    natural? cs = some n ↔ Digits cs ∧ ofDigits cs = n := by
  unfold natural?
  constructor
  · intro h
    split at h
    next hd =>
      cases h
      exact ⟨⟨hd.1, List.all_eq_true.mp hd.2⟩, rfl⟩
    next => exact nomatch h
  · rintro ⟨hd, rfl⟩
    exact if_pos ⟨hd.nonempty, List.all_eq_true.mpr hd.digits⟩

theorem Digits.head {c : Char} {cs : List Char} (h : Digits (c :: cs)) : c.isDigit = true :=
  h.digits c (List.mem_cons_self ..)

theorem unsigned?_eq_some_iff {cs : List Char} {n : Nat} :
    unsigned? cs = some n ↔
      Digits cs ∧ ofDigits cs = n ∨ ∃ ds, cs = '+' :: ds ∧ Digits ds ∧ ofDigits ds = n := by
  unfold unsigned?
  split
  next ds =>
    rw [natural?_eq_some_iff]
    constructor
    · rintro ⟨hd, rfl⟩
      exact Or.inr ⟨ds, rfl, hd, rfl⟩
    · rintro (⟨hd, -⟩ | ⟨ds', he, hd, rfl⟩)
      · exact absurd hd.head (by decide)
      · cases he
        exact ⟨hd, rfl⟩
  next hplus =>
    rw [natural?_eq_some_iff]
    constructor
    · exact Or.inl
    · rintro (h | ⟨ds, rfl, -⟩)
      · exact h
      · exact absurd rfl (hplus ds)

/-- A text is read as a signed word of 64 bits if it is a decimal numeral of one. -/
theorem int64?_eq_some_iff {cs : List Char} {v : Int} :
    int64? cs = some v ↔ IsDecimal cs v ∧ IsInt64 v := by
  unfold int64?
  rw [Option.filter_eq_some_iff, fitsInt64_iff]
  apply and_congr_left
  intro _
  split
  next ds =>
    simp only [Option.map_eq_some_iff, Option.bind_eq_bind, Option.bind_eq_some_iff,
      Option.pure_def, Option.some.injEq, natural?_eq_some_iff]
    constructor
    · rintro ⟨_, ⟨n, ⟨hd, rfl⟩, rfl⟩, rfl⟩
      exact .minus hd
    · intro h
      generalize hcs : '-' :: ds = cs at h
      cases h with
      | plain h =>
        subst hcs
        exact absurd h.head (by decide)
      | plus h => exact nomatch hcs
      | minus h =>
        cases hcs
        exact ⟨_, ⟨_, ⟨h, rfl⟩, rfl⟩, rfl⟩
  next hminus =>
    simp only [Option.map_eq_some_iff, Option.bind_eq_bind, Option.bind_eq_some_iff,
      Option.pure_def, Option.some.injEq, unsigned?_eq_some_iff]
    constructor
    · rintro ⟨_, ⟨n, ⟨hd, rfl⟩ | ⟨ds, rfl, hd, rfl⟩, rfl⟩, rfl⟩
      · exact .plain hd
      · exact .plus hd
    · intro h
      cases h with
      | plain h => exact ⟨_, ⟨_, Or.inl ⟨h, rfl⟩, rfl⟩, rfl⟩
      | plus h => exact ⟨_, ⟨_, Or.inr ⟨_, rfl, h, rfl⟩, rfl⟩, rfl⟩
      | minus h => exact absurd rfl (hminus _)

end Text

/-- The text is that of a captured group; groups are numbered from one. -/
def Context.Captures (ctx : Context) (n : Nat) (s : String) : Prop :=
  0 < n ∧ ctx.groups[n - 1]? = some s

/-- The captured group is a whole number that a signed word of 64 bits holds. -/
def Context.Counts (ctx : Context) (n : Nat) (v : Int) : Prop :=
  ∃ s, ctx.Captures n s ∧ Text.IsDecimal s.toList v ∧ Text.IsInt64 v

namespace Context

variable {ctx : Context} {n : Nat}

theorem Counts.isInt64 {v : Int} (h : ctx.Counts n v) : Text.IsInt64 v := by
  obtain ⟨_, -, -, hv⟩ := h
  exact hv

theorem group?_eq_some_iff {s : String} : ctx.group? n = some s ↔ ctx.Captures n s := by
  unfold Captures
  cases n with
  | zero => simp [group?]
  | succ n => simp [group?]

theorem groupInt?_eq_some_iff {v : Int} : ctx.groupInt? n = some v ↔ ctx.Counts n v := by
  unfold groupInt? Counts
  simp only [Option.bind_eq_some_iff, group?_eq_some_iff, Text.int64?_eq_some_iff]

end Context

/-- Which way a turn leads. The neighbors are numbered clockwise. -/
inductive Turn.Leads (t : Topology) (dir : Direction) : Turn → Direction → Prop
  | ahead : Leads t dir .ahead dir
  | back {d} (h : t.offset d = -t.offset dir) : Leads t dir .back d
  | left {k d} (h : (d + k) % t.count = dir % t.count) : Leads t dir (.left k) d
  | right {k d} (h : d % t.count = (dir + k) % t.count) : Leads t dir (.right k) d

namespace Topology

theorem neighbor_congr {t : Topology} {d e : Direction} (h : d % t.count = e % t.count) :
    t.neighbor d = t.neighbor e := by
  unfold neighbor
  simp only [h]

theorem offset_mod (t : Topology) (d : Direction) : t.offset (d % t.count) = t.offset d :=
  congrArg Prod.snd (neighbor_congr (Nat.mod_mod d t.count))

theorem offset_back (t : Topology) (d : Direction) : t.offset (t.back d) = -t.offset d := by
  have hall : ∀ i < t.count, t.offset (t.back i) = -t.offset i := by
    cases t <;> decide
  have hback : t.back (d % t.count) = t.back d := by
    unfold back
    rw [Nat.mod_add_mod]
  rw [← offset_mod t d, ← hall _ (Nat.mod_lt d t.count_pos), hback]

theorem offset_inj {t : Topology} {d e : Direction} (h : t.offset d = t.offset e) :
    d % t.count = e % t.count := by
  have hall : ∀ i < t.count, ∀ j < t.count, t.offset i = t.offset j → i = j := by
    cases t <;> decide
  apply hall _ (Nat.mod_lt d t.count_pos) _ (Nat.mod_lt e t.count_pos)
  rw [offset_mod, offset_mod, h]

theorem left_add (t : Topology) (d k : Nat) :
    (t.left d k + k) % t.count = d % t.count := by
  have hlt := Nat.mod_lt k t.count_pos
  have hk := Nat.div_add_mod k t.count
  have hsum : d + t.count - k % t.count + k = d + t.count * (1 + k / t.count) := by
    rw [Nat.mul_add, Nat.mul_one]
    omega
  unfold left
  rw [Nat.mod_add_mod, hsum, Nat.add_mul_mod_self_left]

end Topology

namespace Turn

variable {t : Topology} {dir d e : Direction} {turn : Turn}

theorem leads_apply (t : Topology) (dir : Direction) (turn : Turn) :
    turn.Leads t dir (turn.apply t dir) := by
  cases turn with
  | ahead => exact .ahead
  | back => exact .back (t.offset_back dir)
  | left k => exact .left (t.left_add dir k)
  | right k => exact .right (Nat.mod_mod (dir + k) t.count)

/-- A turn leads one way. -/
theorem Leads.mod_eq (hd : turn.Leads t dir d) (he : turn.Leads t dir e) :
    d % t.count = e % t.count := by
  cases hd with
  | ahead =>
    cases he
    rfl
  | back hd =>
    cases he with
    | back he => exact Topology.offset_inj (hd.trans he.symm)
  | left hd =>
    cases he with
    | left he => exact Nat.ModEq.add_right_cancel' _ (hd.trans he.symm)
  | right hd =>
    cases he with
    | right he => exact hd.trans he.symm

end Turn

namespace Piece

open Text

/-- What a piece is replaced by. -/
inductive Gives (ctx : Context) : Piece → List Char → Prop
  | literal (c) : Gives ctx (.literal c) [c]
  | direction {turn d} (h : turn.Leads ctx.topology ctx.dir d) :
      Gives ctx (.direction turn) (ctx.topology.name d).toList
  | source {s} (h : ctx.source = some s) : Gives ctx .source s.toList
  | target {s} (h : ctx.target = some s) : Gives ctx .target s.toList
  | group {n s} (h : ctx.Captures n s) : Gives ctx (.group n) s.toList
  | plus {d n : Nat} {v} (hv : ctx.Counts n v) (hs : IsInt64 (v + d)) :
      Gives ctx (.plus d n) (toString (v + d)).toList
  | minus {d n : Nat} {v} (hv : ctx.Counts n v) (hs : IsInt64 (v - d)) (h0 : 0 ≤ v - d) :
      Gives ctx (.minus d n) (toString (v - d)).toList
  | modulo {m d n : Nat} {v r : Int} (hv : ctx.Counts n v) (hs : IsInt64 (v + d)) (h0 : 0 ≤ r)
      (hr : r < m) (hmod : r ≡ v + d [ZMOD m]) : Gives ctx (.modulo m d n) (toString r).toList

variable {ctx : Context}

theorem value?_direction {turn : Turn} {cs : List Char} :
    (direction turn).value? ctx = some cs ↔ Gives ctx (.direction turn) cs := by
  have hleads := Turn.leads_apply ctx.topology ctx.dir turn
  constructor
  · intro h
    cases h
    exact .direction hleads
  · intro h
    cases h with
    | direction hd =>
      have hname := congrArg Prod.fst (Topology.neighbor_congr (hleads.mod_eq hd))
      exact congrArg (fun name : String => some name.toList) hname

theorem value?_plus {d n : Nat} {cs : List Char} :
    (plus d n).value? ctx = some cs ↔ Gives ctx (.plus d n) cs := by
  unfold value?
  simp only [Option.map_eq_some_iff, Option.filter_eq_some_iff, Context.groupInt?_eq_some_iff,
    fitsInt64_iff]
  constructor
  · rintro ⟨_, ⟨⟨v, hv, rfl⟩, hs⟩, rfl⟩
    exact .plus hv hs
  · intro h
    cases h with
    | plus hv hs => exact ⟨_, ⟨⟨_, hv, rfl⟩, hs⟩, rfl⟩

theorem value?_minus {d n : Nat} {cs : List Char} :
    (minus d n).value? ctx = some cs ↔ Gives ctx (.minus d n) cs := by
  unfold value?
  simp only [Option.map_eq_some_iff, Option.filter_eq_some_iff, Context.groupInt?_eq_some_iff,
    decide_eq_true_eq]
  constructor
  · rintro ⟨_, ⟨⟨v, hv, rfl⟩, h0⟩, rfl⟩
    have hs : IsInt64 (v - d) := by
      have hword := hv.isInt64
      unfold IsInt64 at hword ⊢
      omega
    exact .minus hv hs h0
  · intro h
    cases h with
    | minus hv hs h0 => exact ⟨_, ⟨⟨_, hv, rfl⟩, h0⟩, rfl⟩

theorem value?_modulo {m d n : Nat} {cs : List Char} (hm : 0 < m) :
    (modulo m d n).value? ctx = some cs ↔ Gives ctx (.modulo m d n) cs := by
  have hpos : (0 : Int) < m := Int.natCast_pos.mpr hm
  unfold value?
  simp only [Option.map_eq_some_iff, Option.filter_eq_some_iff, Context.groupInt?_eq_some_iff,
    fitsInt64_iff]
  constructor
  · rintro ⟨_, ⟨⟨v, hv, rfl⟩, hs⟩, rfl⟩
    have h0 := Int.emod_nonneg (v + d) hpos.ne'
    have hr := Int.emod_lt_of_pos (v + d) hpos
    exact .modulo hv hs h0 hr (Int.mod_modEq (v + d) m)
  · intro h
    cases h with
    | modulo hv hs h0 hr hmod =>
      refine ⟨_, ⟨⟨_, hv, rfl⟩, hs⟩, ?_⟩
      have hrest := Eq.trans (Eq.symm hmod) (Int.emod_eq_of_lt h0 hr)
      rw [hrest]
      rfl

theorem value?_eq_some_iff {p : Piece} {cs : List Char}
    (hm : ∀ {m d n}, p = .modulo m d n → 0 < m) : p.value? ctx = some cs ↔ Gives ctx p cs := by
  cases p with
  | literal c =>
    constructor
    · intro h
      cases h
      exact .literal c
    · intro h
      cases h
      rfl
  | direction turn => exact value?_direction
  | source =>
    constructor
    · intro h
      obtain ⟨s, hs, rfl⟩ := Option.map_eq_some_iff.mp h
      exact .source hs
    · intro h
      cases h with
      | source hs => exact Option.map_eq_some_iff.mpr ⟨_, hs, rfl⟩
  | target =>
    constructor
    · intro h
      obtain ⟨s, hs, rfl⟩ := Option.map_eq_some_iff.mp h
      exact .target hs
    · intro h
      cases h with
      | target hs => exact Option.map_eq_some_iff.mpr ⟨_, hs, rfl⟩
  | group n =>
    constructor
    · intro h
      obtain ⟨s, hs, rfl⟩ := Option.map_eq_some_iff.mp h
      exact .group (Context.group?_eq_some_iff.mp hs)
    · intro h
      cases h with
      | group hs =>
        exact Option.map_eq_some_iff.mpr ⟨_, Context.group?_eq_some_iff.mpr hs, rfl⟩
  | plus d n => exact value?_plus
  | minus d n => exact value?_minus
  | modulo m d n => exact value?_modulo (hm rfl)

/-- What a piece contributes to a text: what it is replaced by, or nothing if that is nothing. -/
def Contributes (ctx : Context) (p : Piece) (cs : List Char) : Prop :=
  Gives ctx p cs ∨ cs = [] ∧ ∀ given, ¬ Gives ctx p given

theorem contributes_iff {p : Piece} {cs : List Char} (hm : ∀ {m d n}, p = .modulo m d n → 0 < m) :
    Contributes ctx p cs ↔ cs = (p.value? ctx).getD [] := by
  unfold Contributes
  simp only [← value?_eq_some_iff hm]
  cases p.value? ctx with
  | none => simp
  | some given => simp [eq_comm]

end Piece

/-- What is related to each element is what a function makes of it, so it is so of all of them. -/
theorem forall₂_iff_eq_map {α β : Type} {r : α → β → Prop} {f : α → β} {as : List α} {bs : List β}
    (h : ∀ a ∈ as, ∀ b, r a b ↔ b = f a) : List.Forall₂ r as bs ↔ bs = as.map f := by
  induction as generalizing bs with
  | nil => simp
  | cons a as ih =>
    have hrest (bs : List β) : List.Forall₂ r as bs ↔ bs = as.map f :=
      ih fun a ha => h a (List.mem_cons_of_mem _ ha)
    constructor
    · intro hr
      cases hr with
      | cons hb hbs =>
        rw [(h a (List.mem_cons_self ..) _).mp hb, (hrest _).mp hbs, List.map_cons]
    · rintro rfl
      exact .cons ((h a (List.mem_cons_self ..) _).mpr rfl) ((hrest _).mpr rfl)

namespace Template

/-- A text is cut in one way, into words that say what is put in their places. -/
theorem cut_and_expand (text : String) :
    ∃ words : List (List Char × Piece),
      (∀ words', Piece.Cut text.toList words' ↔ words' = words) ∧
      words.flatMap Prod.fst = text.toList ∧
      (parse text).pieces = words.map Prod.snd ∧
      ∀ ctx, ∃ values : List (List Char),
        (∀ values', List.Forall₂ (Piece.Contributes ctx) (words.map Prod.snd) values' ↔
          values' = values) ∧
        ((parse text).expand ctx).toList = values.flatten := by
  obtain ⟨words, hcut, hmeant⟩ := Piece.exists_cut text.toList
  have hpieces : (parse text).pieces = words.map Prod.snd := hmeant
  refine ⟨words, fun words' => ⟨fun h => h.unique hcut, fun h => h ▸ hcut⟩, hcut.words, hpieces, ?_⟩
  intro ctx
  refine ⟨(words.map Prod.snd).map fun p => (p.value? ctx).getD [], ?_, ?_⟩
  · intro values'
    apply forall₂_iff_eq_map
    intro p hp cs
    apply Piece.contributes_iff
    rintro m d n rfl
    exact divides_parse text (hpieces ▸ hp)
  · rw [expand, String.toList_ofList, expandChars, hpieces, List.flatMap_def]

example : (parse "c$%10+1.1 $-2.1 $+5.").expand ⟨.square4, 0, none, none, ["9"]⟩ =
    "c0 7 $+5." := by
  decide +kernel

end Template

end ParticleAutomaton
