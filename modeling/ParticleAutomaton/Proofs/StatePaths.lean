import ParticleAutomaton.Proofs.PatternMeaning
import ParticleAutomaton.Regex.Automaton

namespace ParticleAutomaton.Regex

open Relation (Comp)

/-- What a state follows with, where it stands between two cursors. -/
def State.Leads : State → Cursor → Nat → Cursor → Prop
  | .accept => fun _ _ _ => False
  | .char c next => fun x q y => q = next ∧ x.Next c y
  | .set s next => fun x q y => q = next ∧ ∃ c, s.mem c = true ∧ x.Next c y
  | .anchor a next => fun x q y => q = next ∧ a.holds x.place = true ∧ x = y
  | .mark _ next => fun x q y => q = next ∧ x = y
  | .split first second => fun x q y => (q = first ∨ q = second) ∧ x = y

theorem State.leads_choice {greedy : Bool} {onwards leave q : Nat} {x y : Cursor} :
    (State.choice greedy onwards leave).Leads x q y ↔ (q = onwards ∨ q = leave) ∧ x = y := by
  cases greedy with
  | true => exact Iff.rfl
  | false => exact and_congr_left fun _ => Or.comm

/-- So many steps from state to state. -/
inductive Path (states : States) : Nat → Nat → Cursor → Nat → Cursor → Prop
  | refl (q : Nat) (x : Cursor) : Path states 0 q x q x
  | step {n p q r : Nat} {x y z : Cursor} {s : State} (hs : states[p]? = some s)
    (hl : s.Leads x q y) (h : Path states n q y r z) : Path states (n + 1) p x r z

namespace Path

variable {states : States} {m n p q r : Nat} {x y z : Cursor}

theorem trans (h : Path states m p x q y) (h' : Path states n q y r z) :
    Path states (m + n) p x r z := by
  induction h with
  | refl => rwa [Nat.zero_add]
  | step hs hl _ ih =>
    rw [Nat.add_right_comm]
    exact .step hs hl (ih h')

theorem single {s : State} (hs : states[p]? = some s) (hl : s.Leads x q y) :
    Path states 1 p x q y := .step hs hl (.refl q y)

/-- The first step of a path that goes to another state. -/
theorem first (h : Path states n p x r z) (hne : r ≠ p) {s : State} (hs : states[p]? = some s) :
    ∃ m q y, n = m + 1 ∧ s.Leads x q y ∧ Path states m q y r z := by
  cases h with
  | refl => exact absurd rfl hne
  | step hs' hl h =>
    cases hs.symm.trans hs'
    exact ⟨_, _, _, rfl, hl, h⟩

end Path

@[simp]
theorem States.size_add (states : States) (s : State) :
    (states.add s).2.size = states.size + 1 := by
  simp [States.add]

theorem States.getElem?_add (states : States) (s : State) (i : Nat) :
    (states.add s).2[i]? = if i = states.size then some s else states[i]? :=
  Array.getElem?_push

/-- States that have those in them that were built between two times of a construction. -/
def Holds (old new states : States) : Prop :=
  ∀ i, old.size ≤ i → i < new.size → states[i]? = new[i]?

theorem Holds.inner {old new old' new' states : States} (h : Holds old new states)
    (hsize : old.size ≤ old'.size ∧ new'.size ≤ new.size)
    (hsame : ∀ i, old'.size ≤ i → i < new'.size → new[i]? = new'[i]?) : Holds old' new' states := by
  intro i hi hlt
  rw [h i (by omega) (by omega), hsame i hi hlt]

/-- The states that were built lead to the next state by the ways of one relation, and to a state
to leave for by those of another one. -/
structure Build.Forks (build : Build) (leave : Nat) (r l : Cursor → Cursor → Prop) : Prop where
  size : ∀ next old, old.size ≤ (build next old).2.size
  old : ∀ next old i, i < old.size → (build next old).2[i]? = old[i]?
  fresh : ∀ next old i, old.size ≤ i → (build next old).2[i]? ≠ some .accept
  leads : ∀ {next : Nat} {old states : States} {x y : Cursor},
    Holds old (build next old).2 states →
      (r x y → ∃ n, Path states n (build next old).1 x next y) ∧
      (l x y → ∃ n, Path states n (build next old).1 x leave y)
  led : ∀ {next n q : Nat} {old states : States} {x z : Cursor},
    Holds old (build next old).2 states → (q < old.size ∨ (build next old).2.size ≤ q) →
      Path states n (build next old).1 x q z →
        ∃ y m, m ≤ n ∧ (r x y ∧ Path states m next y q z ∨ l x y ∧ Path states m leave y q z)

/-- All ways lead to the next state. -/
def Build.Traces (build : Build) (r : Cursor → Cursor → Prop) : Prop :=
  ∀ leave, build.Forks leave r fun _ _ => False

namespace Build

variable {build build' : Build} {leave : Nat} {r r' l l' : Cursor → Cursor → Prop}

theorem Forks.congr (h : build.Forks leave r l) (hr : ∀ x y, r x y ↔ r' x y)
    (hl : ∀ x y, l x y ↔ l' x y) : build.Forks leave r' l' := by
  have hr : r = r' := funext fun x => funext fun y => propext (hr x y)
  have hl : l = l' := funext fun x => funext fun y => propext (hl x y)
  rwa [← hr, ← hl]

theorem Traces.congr (h : build.Traces r) (hr : ∀ x y, r x y ↔ r' x y) : build.Traces r' :=
  fun leave => (h leave).congr hr fun _ _ => Iff.rfl

theorem Traces.leads (h : build.Traces r) {next : Nat} {old states : States} {x y : Cursor}
    (hs : Holds old (build next old).2 states) (hr : r x y) :
    ∃ n, Path states n (build next old).1 x next y := ((h 0).leads hs).1 hr

theorem Traces.led (h : build.Traces r) {next n q : Nat} {old states : States} {x z : Cursor}
    (hs : Holds old (build next old).2 states) (hq : q < old.size ∨ (build next old).2.size ≤ q)
    (hp : Path states n (build next old).1 x q z) :
    ∃ y m, m ≤ n ∧ r x y ∧ Path states m next y q z := by
  obtain ⟨y, m, hm, h | h⟩ := (h 0).led hs hq hp
  · exact ⟨y, m, hm, h⟩
  · exact h.1.elim

theorem traces_none : Traces (fun next old => (next, old)) Eq := fun leave =>
  { size := fun _ _ => Nat.le_refl _
    old := fun _ _ _ _ => rfl
    fresh := fun _ old i hi => by
      rw [Array.getElem?_eq_none hi]
      exact nofun
    leads := fun _ => ⟨fun he => ⟨0, he ▸ .refl ..⟩, False.elim⟩
    led := fun _ _ h => ⟨_, _, Nat.le_refl _, Or.inl ⟨rfl, h⟩⟩ }

/-- One behind the other: what is behind is built first. -/
theorem Forks.comp (h : build.Forks leave r l) (h' : build'.Forks leave r' l') :
    Forks (fun next old => build (build' next old).1 (build' next old).2) leave
      (Comp r r') fun x y => l x y ∨ Comp r l' x y where
  size next old := Nat.le_trans (h'.size next old) (h.size ..)
  old next old i hi := by
    rw [h.old _ _ _ (Nat.lt_of_lt_of_le hi (h'.size next old)), h'.old _ _ _ hi]
  fresh next old i hi := by
    rcases Nat.lt_or_ge i (build' next old).2.size with hlt | hge
    · rw [h.old _ _ _ hlt]
      exact h'.fresh _ _ _ hi
    · exact h.fresh _ _ _ hge
  leads {next old states x z} hs := by
    have hsize := h'.size next old
    have hgrown := h.size (build' next old).1 (build' next old).2
    have hfront := hs.inner ⟨hsize, Nat.le_refl _⟩ fun _ _ _ => rfl
    have hback := hs.inner ⟨Nat.le_refl _, hgrown⟩ fun i _ hi => h.old _ _ i hi
    constructor
    · rintro ⟨y, hr, hr'⟩
      obtain ⟨m, hm⟩ := (h.leads hfront).1 hr
      obtain ⟨n, hn⟩ := (h'.leads hback).1 hr'
      exact ⟨m + n, hm.trans hn⟩
    · rintro (hl | ⟨y, hr, hl⟩)
      · exact (h.leads hfront).2 hl
      · obtain ⟨m, hm⟩ := (h.leads hfront).1 hr
        obtain ⟨n, hn⟩ := (h'.leads hback).2 hl
        exact ⟨m + n, hm.trans hn⟩
  led {next n q old states x z} hs hq hp := by
    have hsize := h'.size next old
    have hgrown := h.size (build' next old).1 (build' next old).2
    have hfront := hs.inner ⟨hsize, Nat.le_refl _⟩ fun _ _ _ => rfl
    have hback := hs.inner ⟨Nat.le_refl _, hgrown⟩ fun i _ hi => h.old _ _ i hi
    obtain ⟨y, m, hm, ⟨hr, hp⟩ | ⟨hl, hp⟩⟩ := h.led hfront (by omega) hp
    · obtain ⟨y', k, hk, ⟨hr', hp⟩ | ⟨hl, hp⟩⟩ := h'.led hback (by omega) hp
      · exact ⟨y', k, by omega, Or.inl ⟨⟨y, hr, hr'⟩, hp⟩⟩
      · exact ⟨y', k, by omega, Or.inr ⟨Or.inr ⟨y, hr, hl⟩, hp⟩⟩
    · exact ⟨y, m, hm, Or.inr ⟨Or.inl hl, hp⟩⟩

theorem Traces.comp (h : build.Traces r) (h' : build'.Traces r') :
    Traces (fun next old => build (build' next old).1 (build' next old).2) (Comp r r') := by
  intro leave
  refine ((h leave).comp (h' leave)).congr (fun _ _ => Iff.rfl) fun x y => ?_
  simp [Comp]

/-- A state in front of what was built. -/
theorem Traces.add (h : build.Traces r) {state : Nat → Nat → State}
    (hne : ∀ start next, state start next ≠ .accept)
    {front skip : Cursor → Cursor → Prop}
    (hl : ∀ {start next q x y}, (state start next).Leads x q y ↔
      q = start ∧ front x y ∨ q = leave ∧ skip x y) :
    Forks (fun next old => (build next old).2.add (state (build next old).1 next)) leave
      (Comp front r) skip where
  size next old := by
    have hsize := (h leave).size next old
    rw [States.size_add]
    omega
  old next old i hi := by
    have hsize := (h leave).size next old
    rw [States.getElem?_add, if_neg (by omega), (h leave).old _ _ _ hi]
  fresh next old i hi := by
    rw [States.getElem?_add]
    split
    · intro he
      exact hne _ _ (Option.some.inj he)
    · exact (h leave).fresh _ _ _ hi
  leads {next old states x z} hs := by
    have hsize := (h leave).size next old
    have hstate : states[(build next old).2.size]? = some (state (build next old).1 next) := by
      rw [hs _ hsize (by simp), States.getElem?_add, if_pos rfl]
    have hinner : Holds old (build next old).2 states := hs.inner (by simp) fun i _ hi => by
      rw [States.getElem?_add, if_neg (by omega)]
    constructor
    · rintro ⟨y, hfront, hr⟩
      obtain ⟨n, hn⟩ := h.leads hinner hr
      exact ⟨n + 1, .step hstate (hl.mpr (Or.inl ⟨rfl, hfront⟩)) hn⟩
    · intro hskip
      exact ⟨1, .single hstate (hl.mpr (Or.inr ⟨rfl, hskip⟩))⟩
  led {next n q old states x z} hs hq hp := by
    have hsize := (h leave).size next old
    rw [States.size_add] at hq
    have hstate : states[(build next old).2.size]? = some (state (build next old).1 next) := by
      rw [hs _ hsize (by simp), States.getElem?_add, if_pos rfl]
    have hinner : Holds old (build next old).2 states := hs.inner (by simp) fun i _ hi => by
      rw [States.getElem?_add, if_neg (by omega)]
    have hne : q ≠ (build next old).2.size := by omega
    obtain ⟨m, p, y, rfl, hlead, hp⟩ := hp.first hne hstate
    rcases hl.mp hlead with ⟨rfl, hfront⟩ | ⟨rfl, hskip⟩
    · obtain ⟨y', k, hk, hr, hp⟩ := h.led hinner (by omega) hp
      exact ⟨y', k, by omega, Or.inl ⟨⟨y, hfront, hr⟩, hp⟩⟩
    · exact ⟨y, m, by omega, Or.inr ⟨hskip, hp⟩⟩

/-- A state that reads or tests. -/
theorem traces_add {state : Nat → State} (hne : ∀ next, state next ≠ .accept)
    (hl : ∀ {next q x y}, (state next).Leads x q y ↔ q = next ∧ r x y) :
    Traces (fun next old => old.add (state next)) r := by
  intro leave
  have hlead {start q : Nat} {x y : Cursor} :
      (state start).Leads x q y ↔ q = start ∧ r x y ∨ q = leave ∧ False := by
    rw [hl]
    simp
  have hadd : Forks (fun next old => old.add (state next)) leave (Comp r Eq) fun _ _ => False :=
    traces_none.add (fun start _ => hne start) hlead
  rwa [Relation.comp_eq] at hadd

/-- A choice in front of two parts; the second one is built first. -/
theorem Traces.alt (h : build.Traces r) (h' : build'.Traces r') (greedy : Bool) :
    Traces (fun next old =>
      (build next (build' next old).2).2.add
        (.choice greedy (build next (build' next old).2).1 (build' next old).1))
      fun x y => r x y ∨ r' x y := by
  intro leave
  have hsize next old := (h' leave).size next old
  have hgrown next old := (h leave).size next (build' next old).2
  refine ⟨fun next old => ?_, fun next old i hi => ?_, fun next old i hi => ?_,
    fun {next old states x z} hs => ?_, fun {next n q old states x z} hs hq hp => ?_⟩
  · have := hsize next old
    have := hgrown next old
    rw [States.size_add]
    omega
  · have := hsize next old
    have := hgrown next old
    rw [States.getElem?_add, if_neg (by omega), (h leave).old _ _ _ (by omega),
      (h' leave).old _ _ _ hi]
  · rw [States.getElem?_add]
    split
    · cases greedy <;> exact nofun
    · rcases Nat.lt_or_ge i (build' next old).2.size with hlt | hge
      · rw [(h leave).old _ _ _ hlt]
        exact (h' leave).fresh _ _ _ hi
      · exact (h leave).fresh _ _ _ hge
  all_goals
    have hsize := hsize next old
    have hgrown := hgrown next old
    have hstate : states[(build next (build' next old).2).2.size]? = some
        (.choice greedy (build next (build' next old).2).1 (build' next old).1) := by
      rw [hs _ (by omega) (by simp), States.getElem?_add, if_pos rfl]
    have hbelow : (build' next old).2.size ≤ ((build next (build' next old).2).2.add
        (.choice greedy (build next (build' next old).2).1 (build' next old).1)).2.size := by
      rw [States.size_add]
      omega
    have hfirst : Holds (build' next old).2 (build next (build' next old).2).2 states :=
      hs.inner ⟨hsize, by simp⟩ fun i _ hi => by rw [States.getElem?_add, if_neg (by omega)]
    have hsecond : Holds old (build' next old).2 states :=
      hs.inner ⟨Nat.le_refl _, hbelow⟩ fun i _ hi => by
        rw [States.getElem?_add, if_neg (by omega), (h leave).old _ _ _ hi]
  · refine ⟨?_, False.elim⟩
    rintro (hr | hr)
    · obtain ⟨n, hn⟩ := h.leads hfirst hr
      exact ⟨n + 1, .step hstate (State.leads_choice.mpr ⟨Or.inl rfl, rfl⟩) hn⟩
    · obtain ⟨n, hn⟩ := h'.leads hsecond hr
      exact ⟨n + 1, .step hstate (State.leads_choice.mpr ⟨Or.inr rfl, rfl⟩) hn⟩
  · rw [States.size_add] at hq
    have hne : q ≠ (build next (build' next old).2).2.size := by omega
    obtain ⟨m, p, y, rfl, hlead, hp⟩ := hp.first hne hstate
    obtain ⟨rfl | rfl, rfl⟩ := State.leads_choice.mp hlead
    · obtain ⟨y, k, hk, hr, hp⟩ := h.led hfirst (by omega) hp
      exact ⟨y, k, by omega, Or.inl ⟨Or.inl hr, hp⟩⟩
    · obtain ⟨y, k, hk, hr, hp⟩ := h'.led hsecond (by omega) hp
      exact ⟨y, k, by omega, Or.inl ⟨Or.inr hr, hp⟩⟩

theorem traces_row (h : build.Traces r) (n : Nat) : (row build n).Traces (Times r n) := by
  induction n with
  | zero => exact traces_none
  | succ n ih =>
    have hone : Times r (n + 1) = Comp (Times r n) r := by rw [times_add, times_one]
    rw [hone]
    exact ih.comp h

theorem forks_upTo (h : build.Traces r) (greedy : Bool) (leave n : Nat) :
    (upTo build greedy leave n).Forks leave (Times r n) fun x y => ∃ k, k < n ∧ Times r k x y := by
  induction n with
  | zero =>
    exact (traces_none leave).congr (fun _ _ => Iff.rfl) fun x y => by simp
  | succ n ih =>
    have hne (start next : Nat) : State.choice greedy start leave ≠ .accept := by
      cases greedy <;> exact nofun
    have hlead {start q : Nat} {x y : Cursor} : (State.choice greedy start leave).Leads x q y ↔
        q = start ∧ x = y ∨ q = leave ∧ x = y := by
      rw [State.leads_choice, or_and_right]
    have hstage := h.add hne hlead
    have hone : Times r (n + 1) = Comp (Times r n) (Comp Eq r) := by
      rw [times_add, times_one, Relation.eq_comp]
    rw [hone]
    refine (ih.comp hstage).congr (fun _ _ => Iff.rfl) fun x y => ?_
    rw [Relation.comp_eq]
    constructor
    · rintro (⟨k, hk, hx⟩ | hx)
      · exact ⟨k, by omega, hx⟩
      · exact ⟨n, by omega, hx⟩
    · rintro ⟨k, hk, hx⟩
      rcases Nat.lt_or_ge k n with hlt | hge
      · exact Or.inl ⟨k, hlt, hx⟩
      · have hkn : k = n := by omega
        exact Or.inr (hkn ▸ hx)

/-- What is left for and what comes next are the same. -/
theorem traces_upTo (h : build.Traces r) (greedy : Bool) (n : Nat) :
    Traces (fun next old => upTo build greedy next n next old) fun x y =>
      ∃ k, k ≤ n ∧ Times r k x y := by
  have hle : ∀ x y, (∃ k, k ≤ n ∧ Times r k x y) ↔
      Times r n x y ∨ ∃ k, k < n ∧ Times r k x y := by
    intro x y
    constructor
    · rintro ⟨k, hk, hx⟩
      rcases Nat.lt_or_eq_of_le hk with hlt | rfl
      · exact Or.inr ⟨k, hlt, hx⟩
      · exact Or.inl hx
    · rintro (hx | ⟨k, hk, hx⟩)
      · exact ⟨n, Nat.le_refl n, hx⟩
      · exact ⟨k, Nat.le_of_lt hk, hx⟩
  intro leave
  refine ⟨fun next => (forks_upTo h greedy next n).size next,
    fun next => (forks_upTo h greedy next n).old next,
    fun next => (forks_upTo h greedy next n).fresh next,
    fun {next old states x y} hs => ⟨fun hx => ?_, False.elim⟩,
    fun {next n' q old states x z} hs hq hp => ?_⟩
  · have hforks := (forks_upTo h greedy next n).leads (x := x) (y := y) hs
    rcases (hle x y).mp hx with hx | hx
    · exact hforks.1 hx
    · exact hforks.2 hx
  · obtain ⟨y, m, hm, ⟨hx, hp⟩ | ⟨hx, hp⟩⟩ := (forks_upTo h greedy next n).led hs hq hp
    · exact ⟨y, m, hm, Or.inl ⟨(hle x y).mpr (Or.inl hx), hp⟩⟩
    · exact ⟨y, m, hm, Or.inl ⟨(hle x y).mpr (Or.inr hx), hp⟩⟩

theorem size_back (build : Build) (greedy : Bool) (next : Nat) (old : States) :
    (back build greedy next old).2.2.size = (build old.size (old.push .accept)).2.size :=
  Array.size_setIfInBounds

/-- All states but the choice are as the expression built them. -/
theorem getElem?_back (build : Build) (greedy : Bool) (next : Nat) (old : States) {i : Nat}
    (hi : i ≠ old.size) :
    (back build greedy next old).2.2[i]? = (build old.size (old.push .accept)).2[i]? :=
  Array.getElem?_setIfInBounds_ne hi.symm

section

variable (h : build.Traces r) (greedy : Bool)
include h

theorem Traces.lt_back (old : States) :
    old.size < (build old.size (old.push .accept)).2.size := by
  have hsize := (h 0).size old.size (old.push .accept)
  rwa [Array.size_push] at hsize

theorem Traces.choice_back (next : Nat) (old : States) :
    (back build greedy next old).2.2[old.size]? =
      some (.choice greedy (build old.size (old.push .accept)).1 next) :=
  Array.getElem?_setIfInBounds_self_of_lt (h.lt_back old)

theorem Traces.old_back (next : Nat) (old : States) {i : Nat} (hi : i < old.size) :
    (back build greedy next old).2.2[i]? = old[i]? := by
  rw [getElem?_back build greedy next old (Nat.ne_of_lt hi), (h 0).old _ _ _ (by simp; omega),
    Array.getElem?_push, if_neg (Nat.ne_of_lt hi)]

theorem Traces.fresh_back (next : Nat) (old : States) {i : Nat} (hi : old.size ≤ i) :
    (back build greedy next old).2.2[i]? ≠ some .accept := by
  rcases Nat.eq_or_lt_of_le hi with rfl | hlt
  · rw [h.choice_back greedy next old]
    cases greedy <;> exact nofun
  · rw [getElem?_back build greedy next old (Nat.ne_of_gt hlt)]
    exact (h 0).fresh _ _ _ (by simp; omega)

theorem Traces.holds_back {next : Nat} {old states : States}
    (hs : Holds old (back build greedy next old).2.2 states) :
    Holds (old.push .accept) (build old.size (old.push .accept)).2 states ∧
      states[old.size]? = some (.choice greedy (build old.size (old.push .accept)).1 next) := by
  constructor
  · refine hs.inner ⟨by simp, Nat.le_of_eq (size_back ..).symm⟩ fun i hi _ => ?_
    rw [Array.size_push] at hi
    exact getElem?_back build greedy next old (by omega)
  · have hlt := h.lt_back old
    rw [← size_back build greedy next old] at hlt
    rw [hs _ (Nat.le_refl _) hlt]
    exact h.choice_back greedy next old

/-- The choice leads to the expression any number of times. -/
theorem traces_loop : (loop build greedy).Traces fun x y => ∃ k, Times r k x y := by
  intro leave
  refine ⟨fun next old => (size_back build greedy next old).symm ▸ Nat.le_of_lt (h.lt_back old),
    fun next old i => h.old_back greedy next old, fun next old i => h.fresh_back greedy next old,
    fun {next old states x y} hs => ⟨?_, False.elim⟩, fun {next n q old states x z} hs hq hp => ?_⟩
  · obtain ⟨hinner, hchoice⟩ := h.holds_back greedy hs
    rintro ⟨k, hk⟩
    induction k generalizing x with
    | zero =>
      cases hk
      exact ⟨1, .single hchoice (State.leads_choice.mpr ⟨Or.inr rfl, rfl⟩)⟩
    | succ k ih =>
      obtain ⟨x', hr, hk⟩ := hk
      obtain ⟨m, hm⟩ := h.leads hinner hr
      obtain ⟨n, hn⟩ := ih hk
      exact ⟨m + n + 1, .step hchoice (State.leads_choice.mpr ⟨Or.inl rfl, rfl⟩) (hm.trans hn)⟩
  · obtain ⟨hinner, hchoice⟩ := h.holds_back greedy hs
    have hlt := h.lt_back old
    have hq : q < old.size ∨ (build old.size (old.push .accept)).2.size ≤ q :=
      size_back build greedy next old ▸ hq
    have hne : q ≠ old.size := by omega
    -- Each way back to the choice is shorter than the way from it.
    induction n using Nat.strongRecOn generalizing x with
    | ind n ih =>
      obtain ⟨m, p, y, rfl, hlead, hp⟩ := hp.first hne hchoice
      obtain ⟨rfl | rfl, rfl⟩ := State.leads_choice.mp hlead
      · obtain ⟨y, k, hk, hr, hp⟩ := h.led hinner (by rw [Array.size_push]; omega) hp
        obtain ⟨y', k', hk', ⟨⟨j, hj⟩, hp⟩ | hfalse⟩ := ih k (by omega) hp
        · exact ⟨y', k', by omega, Or.inl ⟨⟨j + 1, y, hr, hj⟩, hp⟩⟩
        · exact hfalse.1.elim
      · exact ⟨x, m, by omega, Or.inl ⟨⟨0, rfl⟩, hp⟩⟩

theorem traces_oneOrMore :
    (oneOrMore build greedy).Traces (Comp r fun x y => ∃ k, Times r k x y) := by
  have hloop := traces_loop h greedy
  intro leave
  refine ⟨fun next old => (size_back build greedy next old).symm ▸ Nat.le_of_lt (h.lt_back old),
    fun next old i => h.old_back greedy next old, fun next old i => h.fresh_back greedy next old,
    fun {next old states x y} hs => ⟨?_, False.elim⟩, fun {next n q old states x z} hs hq hp => ?_⟩
  · obtain ⟨hinner, -⟩ := h.holds_back greedy hs
    rintro ⟨x', hr, hk⟩
    obtain ⟨m, hm⟩ := h.leads hinner hr
    obtain ⟨n, hn⟩ := hloop.leads hs hk
    exact ⟨m + n, hm.trans hn⟩
  · obtain ⟨hinner, -⟩ := h.holds_back greedy hs
    have hq' : q < old.size ∨ (build old.size (old.push .accept)).2.size ≤ q :=
      size_back build greedy next old ▸ hq
    obtain ⟨y, m, hm, hr, hp⟩ := h.led hinner (by rw [Array.size_push]; omega) hp
    obtain ⟨y', k, hk, hloops, hp⟩ := hloop.led hs hq hp
    exact ⟨y', k, by omega, Or.inl ⟨⟨y, hr, hloops⟩, hp⟩⟩

theorem traces_optionalLoop :
    (optionalLoop build greedy).Traces fun x y => ∃ k, Times r k x y := by
  refine ((traces_oneOrMore h greedy).alt traces_none greedy).congr fun x y => ?_
  constructor
  · rintro (⟨z, hr, k, hk⟩ | rfl)
    · exact ⟨k + 1, z, hr, hk⟩
    · exact ⟨0, rfl⟩
  · rintro ⟨k, hk⟩
    cases k with
    | zero => exact Or.inr hk
    | succ k =>
      obtain ⟨z, hr, hk⟩ := hk
      exact Or.inl ⟨z, hr, k, hk⟩

end

end Build

theorem traces_text (cs : List Char) : (build (.text cs)).Traces (Cursor.Reads cs) := by
  induction cs with
  | nil => exact Build.traces_none
  | cons c cs ih =>
    have hc : Build.Traces (fun next old => old.add (.char c next)) (Cursor.Next c) :=
      Build.traces_add (fun _ => nofun) Iff.rfl
    exact hc.comp ih

/-- The states of an expression lead to the next state by the texts that the expression is for. -/
theorem traces_build (e : Regex) : e.build.Traces e.Leads := by
  induction e with
  | empty => exact Build.traces_none
  | text cs => exact traces_text cs
  | one s ascii => exact Build.traces_add (fun _ => nofun) Iff.rfl
  | anchor a => exact Build.traces_add (fun _ => nofun) Iff.rfl
  | group i e ih =>
    have hmark (m : Mark) : Build.Traces (fun next old => old.add (.mark m next)) Eq :=
      Build.traces_add (fun _ => nofun) Iff.rfl
    have hgroup := (hmark (.opening i)).comp (ih.comp (hmark (.closing i)))
    rwa [Relation.eq_comp, Relation.comp_eq] at hgroup
  | seq a b iha ihb => exact iha.comp ihb
  | alt a b iha ihb => exact iha.alt ihb true
  | times e min max greedy ih =>
    cases max with
    | some m =>
      refine ((Build.traces_row ih min).comp (Build.traces_upTo ih greedy (m - min))).congr
        fun x y => ?_
      simp only [Leads, Option.mem_some_iff, forall_eq', times_add, Comp]
      constructor
      · rintro ⟨z, hz, k, hk, hy⟩
        exact ⟨k, hk, z, hz, hy⟩
      · rintro ⟨k, hk, z, hz, hy⟩
        exact ⟨z, hz, k, hk, hy⟩
    | none =>
      cases min with
      | zero =>
        have hany : ∀ x y, (∃ k, Times e.Leads k x y) ↔ (e.times 0 none greedy).Leads x y := by
          intro x y
          simp [Leads]
        simp only [build]
        split
        · exact (Build.traces_loop ih greedy).congr hany
        · exact (Build.traces_optionalLoop ih greedy).congr hany
      | succ n =>
        refine ((Build.traces_row ih n).comp (Build.traces_oneOrMore ih greedy)).congr
          fun x y => ?_
        simp only [Leads, Option.mem_def, reduceCtorEq, false_implies, implies_true, true_and,
          times_add, times_one, Comp]
        constructor
        · rintro ⟨z, hz, w, hw, k, hk⟩
          exact ⟨k, w, ⟨z, hz, hw⟩, hk⟩
        · rintro ⟨k, w, ⟨z, hz, hw⟩, hk⟩
          exact ⟨z, hz, w, hw, k, hk⟩

/-- An automaton accepts from one of its states on, at some place further on in the text. -/
def Automaton.Accepts (a : Automaton) (p : Nat) (x : Cursor) : Prop :=
  ∃ n q y, Path a.states n p x q y ∧ a.states[q]? = some .accept

/-- The first state accepts where the expression leads on. -/
theorem Automaton.accepts_ofRegex (e : Regex) (x : Cursor) :
    (Automaton.ofRegex e).Accepts (Automaton.ofRegex e).start x ↔ ∃ y, e.Leads x y := by
  have htraces := traces_build e
  have haccept : (e.build 0 #[.accept]).2[0]? = some .accept := (htraces 0).old _ _ _ (by decide)
  constructor
  · rintro ⟨n, q, z, hp, hq⟩
    have hzero : q < (#[State.accept] : States).size :=
      Nat.lt_of_not_le fun hge => (htraces 0).fresh 0 #[.accept] q hge hq
    obtain ⟨y, -, -, hy, -⟩ := htraces.led (fun _ _ _ => rfl) (Or.inl hzero) hp
    exact ⟨y, hy⟩
  · rintro ⟨y, hy⟩
    have hbuilt : Holds #[.accept] (e.build 0 #[.accept]).2 (e.build 0 #[.accept]).2 :=
      fun _ _ _ => rfl
    obtain ⟨n, hn⟩ := htraces.leads hbuilt hy
    exact ⟨n, 0, y, hn, haccept⟩

end ParticleAutomaton.Regex
