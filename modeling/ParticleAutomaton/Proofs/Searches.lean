import Mathlib.Data.List.TakeWhile
import ParticleAutomaton.Proofs.StatePaths
import ParticleAutomaton.Regex.Matcher

namespace ParticleAutomaton.Regex

/-- The states that a state leads to without reading. -/
def State.exits (p : Place) : State → List Nat
  | .anchor a next => if a.holds p then [next] else []
  | .mark _ next => [next]
  | .split first second => [first, second]
  | .accept | .char .. | .set .. => []

/-- The state that a state leads to by reading a character. -/
def State.read? (c : Char) : State → Option Nat
  | .char d next => if c = d then some next else none
  | .set s next => if s.mem c then some next else none
  | _ => none

theorem State.leads_iff {s : State} {x y : Cursor} {q : Nat} :
    s.Leads x q y ↔ q ∈ s.exits x.place ∧ x = y ∨ ∃ c, x.Next c y ∧ s.read? c = some q := by
  cases s with
  | accept => simp [State.Leads, State.exits, State.read?]
  | char c next =>
    simp only [State.Leads, State.exits, State.read?, List.not_mem_nil, false_and, false_or]
    constructor
    · rintro ⟨rfl, h⟩
      exact ⟨c, h, if_pos rfl⟩
    · rintro ⟨d, h, hread⟩
      split at hread
      next hd => exact ⟨(Option.some.inj hread).symm, hd ▸ h⟩
      next => cases hread
  | set s next =>
    simp only [State.Leads, State.exits, State.read?, List.not_mem_nil, false_and, false_or]
    constructor
    · rintro ⟨rfl, c, hc, h⟩
      exact ⟨c, h, if_pos hc⟩
    · rintro ⟨c, h, hread⟩
      split at hread
      next hc => exact ⟨(Option.some.inj hread).symm, c, hc, h⟩
      next => cases hread
  | anchor a next =>
    by_cases ha : a.holds x.place = true
    · simp [State.Leads, State.exits, State.read?, ha]
    · simp [State.Leads, State.exits, State.read?, ha]
  | mark m next => simp [State.Leads, State.exits, State.read?]
  | split first second => simp [State.Leads, State.exits, State.read?]

namespace Automaton

variable {a : Automaton} {p : Place}

theorem map_state_follow (pos : Nat) (trail : Trail) (s : State) :
    (follow p pos trail s).map Thread.state = s.exits p := by
  cases s with
  | anchor a next =>
    simp only [follow, State.exits]
    split <;> rfl
  | _ => rfl

theorem length_follow (pos : Nat) (trail : Trail) (s : State) :
    (follow p pos trail s).length ≤ 2 := by
  cases s with
  | anchor a next =>
    simp only [follow]
    split <;> simp
  | _ => simp [follow]

/-- One state leads to another one without reading, at a place of the text. -/
def Silent (a : Automaton) (p : Place) (q r : Nat) : Prop :=
  ∃ s, a.states[q]? = some s ∧ r ∈ s.exits p

/-- A state that is left by reading, or not at all. -/
def Rests (a : Automaton) (q : Nat) : Prop := ∃ s, a.states[q]? = some s ∧ isResting s = true

/-- A number of no state leads nowhere. -/
theorem exists_of_reaches {q r : Nat} (hqr : Relation.ReflTransGen (a.Silent p) q r)
    (hr : a.Rests r) : a.states[q]? ≠ none := by
  intro hnone
  rcases hqr.cases_head with rfl | ⟨_, ⟨s, hs, -⟩, -⟩
  · obtain ⟨s, hs, -⟩ := hr
    cases hs.symm.trans hnone
  · cases hs.symm.trans hnone

/-- All that follows a state that was seen was seen too or is still to come. -/
structure Pending (a : Automaton) (p : Place) (seen : Array Bool) (stack ready : List Thread) :
    Prop where
  size : seen.size = a.states.size
  ready : ∀ q, seen[q]? = some true → a.Rests q → ∃ t ∈ ready, t.state = q
  closed : ∀ q r, seen[q]? = some true → a.Silent p q r →
    seen[r]? = some true ∨ r ∈ stack.map Thread.state ∨ a.states[r]? = none

/-- The number of states that were not seen. -/
def unseen (seen : Array Bool) : Nat := seen.toList.count false

theorem unseen_set {seen : Array Bool} {q : Nat} (h : seen[q]? = some false) :
    unseen (seen.setIfInBounds q true) + 1 = unseen seen := by
  obtain ⟨hq, hfalse⟩ := Array.getElem?_eq_some_iff.mp h
  have hlt : q < seen.toList.length := by simpa using hq
  have hmem : false ∈ seen.toList := by
    rw [← hfalse]
    exact Array.getElem_mem_toList hq
  have hpos : 0 < seen.toList.count false := List.count_pos_iff.mpr hmem
  unfold unseen
  rw [Array.toList_setIfInBounds, List.count_set hlt]
  simp only [Array.getElem_toList, hfalse, beq_self_eq_true, if_true, beq_iff_eq,
    Bool.true_eq_false, if_false]
  omega

namespace Pending

variable {seen : Array Bool} {stack ready : List Thread} {t : Thread}

/-- A thread is left out if its state was seen or there is none of its number. -/
theorem pop (h : a.Pending p seen (t :: stack) ready)
    (ht : seen[t.state]? = some true ∨ a.states[t.state]? = none) :
    a.Pending p seen stack ready := by
  refine ⟨h.size, h.ready, fun q r hq hr => ?_⟩
  rcases h.closed q r hq hr with hseen | hstack | hnone
  · exact Or.inl hseen
  · rcases List.mem_cons.mp hstack with rfl | hstack
    · exact ht.elim Or.inl fun hnone => Or.inr (Or.inr hnone)
    · exact Or.inr (Or.inl hstack)
  · exact Or.inr (Or.inr hnone)

theorem visit (h : a.Pending p seen (t :: stack) ready) {s : State}
    (hs : a.states[t.state]? = some s) (ht : seen[t.state]? = some false) (pos : Nat) :
    a.Pending p (seen.setIfInBounds t.state true) (follow p pos t.trail s ++ stack)
      (if isResting s then t :: ready else ready) := by
  obtain ⟨hlt, -⟩ := Array.getElem?_eq_some_iff.mp ht
  have hset (q : Nat) : (seen.setIfInBounds t.state true)[q]? = some true ↔
      q = t.state ∨ seen[q]? = some true := by
    rw [Array.getElem?_setIfInBounds]
    by_cases hq : t.state = q
    · simp [hq, hq ▸ hlt]
    · simp [hq, Ne.symm hq]
  have hmem : ∀ r, r ∈ (follow p pos t.trail s ++ stack).map Thread.state ↔
      r ∈ s.exits p ∨ r ∈ stack.map Thread.state := by
    intro r
    rw [List.map_append, List.mem_append, map_state_follow]
  refine ⟨by rw [Array.size_setIfInBounds, h.size], fun q hq hrests => ?_, fun q r hq hr => ?_⟩
  · rcases (hset q).mp hq with rfl | hq
    · obtain ⟨s', hs', hresting⟩ := hrests
      cases hs.symm.trans hs'
      rw [if_pos hresting]
      exact ⟨t, List.mem_cons_self, rfl⟩
    · obtain ⟨u, hu, hstate⟩ := h.ready q hq hrests
      refine ⟨u, ?_, hstate⟩
      split
      · exact List.mem_cons_of_mem t hu
      · exact hu
  · rw [hset, hmem]
    rcases (hset q).mp hq with rfl | hq
    · obtain ⟨s', hs', hr⟩ := hr
      cases hs.symm.trans hs'
      exact Or.inr (Or.inl (Or.inl hr))
    · rcases h.closed q r hq hr with hseen | hstack | hnone
      · exact Or.inl (Or.inr hseen)
      · rcases List.mem_cons.mp hstack with rfl | hstack
        · exact Or.inl (Or.inl rfl)
        · exact Or.inr (Or.inl (Or.inr hstack))
      · exact Or.inr (Or.inr hnone)

/-- Where nothing is to come, all that can be reached from a seen state was seen. -/
theorem found (h : a.Pending p seen [] ready) {q r : Nat} (hq : seen[q]? = some true)
    (hqr : Relation.ReflTransGen (a.Silent p) q r) (hr : a.Rests r) :
    ∃ t ∈ ready, t.state = r := by
  have hseen : seen[r]? = some true := by
    induction hqr using Relation.ReflTransGen.head_induction_on with
    | refl => exact hq
    | head hstep hrest ih =>
      rcases h.closed _ _ hq hstep with hseen | hstack | hnone
      · exact ih hseen
      · exact nomatch hstack
      · exact absurd hnone (exists_of_reaches hrest hr)
  exact h.ready r hseen hr

end Pending

section

variable (pos fuel : Nat) {seen : Array Bool} {t : Thread} (stack ready : List Thread)

theorem settle_visit {s : State} (hs : a.states[t.state]? = some s)
    (ht : seen[t.state]? = some false) :
    a.settle p pos (fuel + 1) seen (t :: stack) ready =
      a.settle p pos fuel (seen.setIfInBounds t.state true) (follow p pos t.trail s ++ stack)
        (if isResting s then t :: ready else ready) := by
  rw [settle]
  simp only [hs, ht]

theorem settle_pop (h : seen[t.state]? = some true ∨ a.states[t.state]? = none) :
    a.settle p pos (fuel + 1) seen (t :: stack) ready = a.settle p pos fuel seen stack ready := by
  rw [settle]
  split
  next hs ht =>
    rcases h with h | h
    · cases h.symm.trans ht
    · cases h.symm.trans hs
  next => rfl

end

/-- The state of a thread was not seen, or the thread is left out. -/
theorem visits_or_pops {seen : Array Bool} (hsize : seen.size = a.states.size) (t : Thread) :
    (∃ s, a.states[t.state]? = some s ∧ seen[t.state]? = some false) ∨
      (seen[t.state]? = some true ∨ a.states[t.state]? = none) := by
  rcases Nat.lt_or_ge t.state seen.size with hlt | hge
  · cases hseen : seen[t.state] with
    | true => exact Or.inr (Or.inl (Array.getElem?_eq_some_iff.mpr ⟨hlt, hseen⟩))
    | false =>
      have hlt' : t.state < a.states.size := hsize ▸ hlt
      exact Or.inl ⟨_, Array.getElem?_eq_getElem hlt', Array.getElem?_eq_some_iff.mpr ⟨hlt, hseen⟩⟩
  · exact Or.inr (Or.inr (Array.getElem?_eq_none (hsize ▸ hge)))

theorem settle_complete (pos : Nat) {q r : Nat} (hqr : Relation.ReflTransGen (a.Silent p) q r)
    (hr : a.Rests r) (fuel : Nat) (seen : Array Bool) (stack ready : List Thread)
    (h : a.Pending p seen stack ready) (hfuel : stack.length + 2 * unseen seen < fuel)
    (hq : seen[q]? = some true ∨ q ∈ stack.map Thread.state) :
    ∃ t ∈ a.settle p pos fuel seen stack ready, t.state = r := by
  induction fuel generalizing seen stack ready q with
  | zero => omega
  | succ fuel ih =>
    cases stack with
    | nil =>
      rcases hq with hq | hq
      · obtain ⟨t, ht, hstate⟩ := h.found hq hqr hr
        exact ⟨t, List.mem_reverse.mpr ht, hstate⟩
      · exact nomatch hq
    | cons t stack =>
      rw [List.length_cons] at hfuel
      rcases visits_or_pops h.size t with ⟨s, hs, hseen⟩ | hpop
      · rw [settle_visit pos fuel stack ready hs hseen]
        have hunseen := unseen_set hseen
        have hfollow := length_follow (p := p) pos t.trail s
        obtain ⟨hlt, -⟩ := Array.getElem?_eq_some_iff.mp hseen
        refine ih hqr _ _ _ (h.visit hs hseen pos) (by rw [List.length_append]; omega) ?_
        rw [Array.getElem?_setIfInBounds]
        rcases hq with hq | hq
        · refine Or.inl ?_
          rw [if_pos hlt]
          split
          · rfl
          · exact hq
        · rcases List.mem_cons.mp hq with rfl | hq
          · exact Or.inl (by rw [if_pos rfl, if_pos hlt])
          · exact Or.inr (by rw [List.map_append]; exact List.mem_append_right _ hq)
      · rw [settle_pop pos fuel stack ready hpop]
        have hpending := h.pop hpop
        rcases hq with hq | hq
        · exact ih hqr _ _ _ hpending (by omega) (Or.inl hq)
        · rcases List.mem_cons.mp hq with rfl | hq
          · rcases hpop with hpop | hnone
            · exact ih hqr _ _ _ hpending (by omega) (Or.inl hpop)
            · exact absurd hnone (exists_of_reaches hqr hr)
          · exact ih hqr _ _ _ hpending (by omega) (Or.inr hq)

theorem settle_sound (pos fuel : Nat) (seen : Array Bool) (stack ready : List Thread)
    (hsize : seen.size = a.states.size) {t : Thread}
    (ht : t ∈ a.settle p pos fuel seen stack ready) :
    t ∈ ready ∨ a.Rests t.state ∧
      ∃ u ∈ stack, Relation.ReflTransGen (a.Silent p) u.state t.state := by
  induction fuel generalizing seen stack ready with
  | zero => exact Or.inl (List.mem_reverse.mp ht)
  | succ fuel ih =>
    cases stack with
    | nil => exact Or.inl (List.mem_reverse.mp ht)
    | cons u stack =>
      rcases visits_or_pops hsize u with ⟨s, hs, hseen⟩ | hpop
      · rw [settle_visit pos fuel stack ready hs hseen] at ht
        have hsize' : (seen.setIfInBounds u.state true).size = a.states.size := by
          rw [Array.size_setIfInBounds, hsize]
        rcases ih _ _ _ hsize' ht with hready | ⟨hrests, v, hv, hvt⟩
        · split at hready
          next hresting =>
            rcases List.mem_cons.mp hready with rfl | hready
            · exact Or.inr ⟨⟨s, hs, hresting⟩, t, List.mem_cons_self, .refl⟩
            · exact Or.inl hready
          next => exact Or.inl hready
        · refine Or.inr ⟨hrests, ?_⟩
          rcases List.mem_append.mp hv with hv | hv
          · have hexit : v.state ∈ s.exits p := by
              rw [← map_state_follow pos u.trail s]
              exact List.mem_map_of_mem hv
            exact ⟨u, List.mem_cons_self, .head ⟨s, hs, hexit⟩ hvt⟩
          · exact ⟨v, List.mem_cons_of_mem u hv, hvt⟩
      · rw [settle_pop pos fuel stack ready hpop] at ht
        rcases ih _ _ _ hsize ht with hready | ⟨hrests, v, hv, hvt⟩
        · exact Or.inl hready
        · exact Or.inr ⟨hrests, v, List.mem_cons_of_mem u hv, hvt⟩

/-- The threads that rest are those at the states that can be reached without reading. -/
theorem mem_settled (pos : Nat) (threads : List Thread) (q : Nat) :
    (∃ t ∈ a.settled p pos threads, t.state = q) ↔
      a.Rests q ∧ ∃ t ∈ threads, Relation.ReflTransGen (a.Silent p) t.state q := by
  have hnone (r : Nat) : (Array.replicate a.states.size false)[r]? ≠ some true := by
    rw [Array.getElem?_replicate]
    split <;> exact nofun
  have hstart : a.Pending p (.replicate a.states.size false) threads [] :=
    ⟨Array.size_replicate, fun r hr _ => absurd hr (hnone r), fun r _ hr _ => absurd hr (hnone r)⟩
  constructor
  · rintro ⟨t, ht, rfl⟩
    rcases settle_sound pos _ _ _ _ Array.size_replicate ht with hready | hfound
    · exact nomatch hready
    · exact hfound
  · rintro ⟨hrests, t, ht, htq⟩
    have hunseen : unseen (.replicate a.states.size false) = a.states.size := by
      simp [unseen]
    exact settle_complete pos htq hrests _ _ _ _ hstart (by rw [hunseen]; omega)
      (Or.inr (List.mem_map_of_mem ht))

theorem accepts_iff_state {t : Thread} :
    a.accepts t = true ↔ a.states[t.state]? = some .accept := beq_iff_eq

theorem read?_eq (c : Char) (t : Thread) :
    a.read? c t = (a.states[t.state]?.bind (State.read? c)).map (⟨·, t.trail⟩) := by
  unfold read?
  cases a.states[t.state]? with
  | none => rfl
  | some s =>
    cases s with
    | char d next =>
      simp only [Option.bind_some, State.read?]
      split <;> rfl
    | set s next =>
      simp only [Option.bind_some, State.read?]
      split <;> rfl
    | _ => rfl

theorem accepts_of_silent {q r : Nat} {x : Cursor}
    (hqr : Relation.ReflTransGen (a.Silent x.place) q r) (hr : a.Accepts r x) : a.Accepts q x := by
  induction hqr using Relation.ReflTransGen.head_induction_on with
  | refl => exact hr
  | head hstep _ ih =>
    obtain ⟨s, hs, hexit⟩ := hstep
    obtain ⟨n, q', y, hp, haccept⟩ := ih
    exact ⟨n + 1, q', y, .step hs (State.leads_iff.mpr (Or.inl ⟨hexit, rfl⟩)) hp, haccept⟩

/-- A way to accept goes to a state that rests first, and then by a character or no further. -/
theorem accepts_iff {q : Nat} {x : Cursor} :
    a.Accepts q x ↔ ∃ r s, Relation.ReflTransGen (a.Silent x.place) q r ∧
      a.states[r]? = some s ∧
      (s = .accept ∨ ∃ c y r', x.Next c y ∧ s.read? c = some r' ∧ a.Accepts r' y) := by
  constructor
  · rintro ⟨n, q', z, hp, haccept⟩
    induction hp with
    | refl q x => exact ⟨q, _, .refl, haccept, Or.inl rfl⟩
    | step hs hl hp ih =>
      rcases State.leads_iff.mp hl with ⟨hexit, rfl⟩ | ⟨c, hnext, hread⟩
      · obtain ⟨r, s', hqr, hs', h⟩ := ih haccept
        exact ⟨r, s', .head ⟨_, hs, hexit⟩ hqr, hs', h⟩
      · exact ⟨_, _, .refl, hs, Or.inr ⟨c, _, _, hnext, hread, _, _, _, hp, haccept⟩⟩
  · rintro ⟨r, s, hqr, hs, h⟩
    refine accepts_of_silent hqr ?_
    rcases h with rfl | ⟨c, y, r', hnext, hread, n, q', z, hp, haccept⟩
    · exact ⟨0, r, x, .refl r x, hs⟩
    · exact ⟨n + 1, q', z, .step hs (State.leads_iff.mpr (Or.inr ⟨c, hnext, hread⟩)) hp, haccept⟩

theorem rests_of_read? {c : Char} {s : State} {r : Nat} (h : s.read? c = some r) :
    isResting s = true := by
  cases s with
  | char d next => rfl
  | set s next => rfl
  | _ => exact nomatch h

/-- Some thread accepts if one that rests does, or goes on to do so by the next character. -/
theorem accepts_settled (pos : Nat) (threads : List Thread) (x : Cursor) :
    (∃ t ∈ threads, a.Accepts t.state x) ↔
      (∃ t ∈ a.settled x.place pos threads, a.accepts t = true) ∨
        ∃ c y, x.Next c y ∧ ∃ t ∈ a.settled x.place pos threads,
          ∃ u, a.read? c t = some u ∧ a.Accepts u.state y := by
  constructor
  · rintro ⟨t, ht, haccepts⟩
    obtain ⟨r, s, htr, hs, h⟩ := accepts_iff.mp haccepts
    have hrests : a.Rests r := by
      refine ⟨s, hs, ?_⟩
      rcases h with rfl | ⟨c, y, r', -, hread, -⟩
      · rfl
      · exact rests_of_read? hread
    obtain ⟨u, hu, rfl⟩ := (mem_settled pos threads r).mpr ⟨hrests, t, ht, htr⟩
    rcases h with rfl | ⟨c, y, r', hnext, hread, haccepts⟩
    · exact Or.inl ⟨u, hu, accepts_iff_state.mpr hs⟩
    · refine Or.inr ⟨c, y, hnext, u, hu, ⟨r', u.trail⟩, ?_, haccepts⟩
      rw [read?_eq, hs, Option.bind_some, hread, Option.map_some]
  · have hfrom : ∀ {u}, u ∈ a.settled x.place pos threads → a.Accepts u.state x →
        ∃ t ∈ threads, a.Accepts t.state x := by
      intro u hu haccepts
      obtain ⟨-, t, ht, htu⟩ := (mem_settled pos threads u.state).mp ⟨u, hu, rfl⟩
      exact ⟨t, ht, accepts_of_silent htu haccepts⟩
    rintro (⟨u, hu, haccept⟩ | ⟨c, y, hnext, u, hu, v, hread, haccepts⟩)
    · exact hfrom hu ⟨0, _, x, .refl _ x, accepts_iff_state.mp haccept⟩
    · refine hfrom hu ?_
      rw [read?_eq] at hread
      obtain ⟨r, hr, rfl⟩ := Option.map_eq_some_iff.mp hread
      obtain ⟨s, hs, hread⟩ := Option.bind_eq_some_iff.mp hr
      exact accepts_iff.mpr ⟨_, s, .refl, hs, Or.inr ⟨c, y, r, hnext, hread, haccepts⟩⟩

/-- A thread that accepts cuts off others, but then one accepts. -/
theorem accepts_or_kept {ready : List Thread} {c : Char} {good : Thread → Prop} :
    ((∃ t ∈ ready, a.accepts t = true) ∨ ∃ t ∈ ready, ∃ u, a.read? c t = some u ∧ good u) ↔
      (∃ t ∈ ready, a.accepts t = true) ∨
        ∃ u ∈ (ready.takeWhile (!a.accepts ·)).filterMap (a.read? c), good u := by
  constructor
  · rintro (haccept | ⟨t, ht, u, hread, hu⟩)
    · exact Or.inl haccept
    · by_cases haccept : ∃ t ∈ ready, a.accepts t = true
      · exact Or.inl haccept
      · have hall : ready.takeWhile (!a.accepts ·) = ready := by
          rw [List.takeWhile_eq_self_iff]
          intro t ht
          rw [Bool.not_eq_true', Bool.eq_false_iff]
          exact fun h => haccept ⟨t, ht, h⟩
        refine Or.inr ⟨u, List.mem_filterMap.mpr ⟨t, ?_, hread⟩, hu⟩
        rwa [hall]
  · rintro (haccept | ⟨u, hu, hgood⟩)
    · exact Or.inl haccept
    · obtain ⟨t, ht, hread⟩ := List.mem_filterMap.mp hu
      exact Or.inr ⟨t, (List.takeWhile_prefix _).subset ht, u, hread, hgood⟩

/-- Until a match is found, one may start at each place. -/
theorem accepts_started (best : Option Trail) (threads : List Thread) (x : Cursor) :
    (best.isSome = true ∨ ∃ t ∈ if best.isNone then threads ++ [⟨a.start, []⟩] else threads,
      a.Accepts t.state x) ↔
      best.isSome = true ∨ (∃ t ∈ threads, a.Accepts t.state x) ∨ a.Accepts a.start x := by
  cases best with
  | some trail => simp
  | none => simp [or_and_right, exists_or]

theorem isSome_best (best : Option Trail) (ready : List Thread) :
    (((ready.find? a.accepts).map Thread.trail).or best).isSome = true ↔
      best.isSome = true ∨ ∃ t ∈ ready, a.accepts t = true := by
  rw [Option.isSome_or, Option.isSome_map, Bool.or_eq_true, List.find?_isSome, or_comm]

/-- A match is found if there was one, a thread accepts or one that starts here or later does. -/
theorem isSome_run (before : Option Char) (pos : Nat) (best : Option Trail)
    (threads : List Thread) (cs : List Char) :
    (a.run before pos best threads cs).isSome = true ↔
      best.isSome = true ∨ (∃ t ∈ threads, a.Accepts t.state ⟨before, cs⟩) ∨
        ∃ y, Cursor.Onwards ⟨before, cs⟩ y ∧ a.Accepts a.start y := by
  induction cs generalizing before pos best threads with
  | nil =>
    rw [run]
    simp only [Cursor.onwards_nil, exists_eq_left]
    rw [isSome_best, ← accepts_started, accepts_settled pos]
    refine or_congr_right ⟨Or.inl, ?_⟩
    rintro (haccept | ⟨c, y, ⟨hrest, -⟩, -⟩)
    · exact haccept
    · exact nomatch hrest
  | cons c cs ih =>
    rw [run]
    simp only [Cursor.onwards_cons, or_and_right, exists_or, exists_eq_left]
    rw [← or_assoc (a := ∃ t ∈ threads, _), ← or_assoc, ← accepts_started, accepts_settled pos]
    simp only [Cursor.next_cons, Cursor.place, and_assoc, exists_eq_left, exists_and_left]
    generalize a.settled ⟨before, (c :: cs).head?⟩ pos _ = ready
    rw [accepts_or_kept, ← or_assoc (a := best.isSome = true), ← isSome_best, or_assoc]
    split
    next hstop =>
      have hbest := (Bool.and_eq_true_iff.mp hstop).1
      exact iff_of_true hbest (Or.inl hbest)
    next => exact ih ..

theorem isMatch_iff (text : List Char) :
    a.isMatch text = true ↔ ∃ y, Cursor.Onwards ⟨none, text⟩ y ∧ a.Accepts a.start y := by
  unfold isMatch search
  rw [isSome_run]
  simp

end Automaton

/-- A search finds something if the expression is for a part of the text. -/
theorem isMatch_ofRegex (e : Regex) (text : List Char) :
    (Automaton.ofRegex e).isMatch text = true ↔
      ∃ x y, Cursor.Onwards ⟨none, text⟩ x ∧ e.Leads x y := by
  rw [Automaton.isMatch_iff]
  simp only [Automaton.accepts_ofRegex, exists_and_left]

end ParticleAutomaton.Regex
