import ParticleAutomaton.Proofs.ActivityRefresh
import ParticleAutomaton.Proofs.Requests

namespace ParticleAutomaton

namespace Grid

/-- What is seen of a cell: its particle and its bonds. -/
def look? (g : Grid) (p : Point) : Option (ParticleId × CellBonds) :=
  (g.get? p).map fun c => (c.particle, c.bonds)

/-- Outside some places all cells look the same on two grids. -/
def SameOutside (ps : List Point) (g h : Grid) : Prop := ∀ p, p ∉ ps → h.look? p = g.look? p

theorem SameOutside.refl (ps : List Point) (g : Grid) : SameOutside ps g g := fun _ _ => rfl

theorem SameOutside.trans {ps qs : List Point} {g h k : Grid} (hp : SameOutside ps g h)
    (hq : SameOutside qs h k) : SameOutside (ps ++ qs) g k := by
  intro p hout
  rw [List.mem_append, not_or] at hout
  exact (hq p hout.2).trans (hp p hout.1)

theorem SameOutside.mono {ps qs : List Point} {g h : Grid} (hg : SameOutside ps g h)
    (hs : ∀ p ∈ ps, p ∈ qs) : SameOutside qs g h :=
  fun p hout => hg p fun hp => hout (hs p hp)

/-- A change at one of the places makes no difference outside them. -/
theorem SameOutside.modify {ps : List Point} {g h : Grid} (hg : SameOutside ps g h) {p : Point}
    (hp : p ∈ ps) (f : Cell → Cell) : SameOutside ps g (h.modify p f) := by
  intro q hout
  have hne : q ≠ p := fun he => hout (he ▸ hp)
  rw [← hg q hout, look?, get?_modify, if_neg hne, look?]

theorem sameOutside_modify (g : Grid) (p : Point) (f : Cell → Cell) :
    SameOutside [p] g (g.modify p f) :=
  (SameOutside.refl [p] g).modify (List.mem_singleton.mpr rfl) f

theorem leaves_iff_of_look? {g h : Grid} {b : Bond} (he : h.look? b.origin = g.look? b.origin) :
    h.field.Leaves b ↔ g.field.Leaves b := by
  have hbonds : h.field b.origin = g.field b.origin := by
    simpa [look?, field, Function.comp_def] using congrArg (Option.map Prod.snd) he
  rw [BondField.Leaves, hbonds, BondField.Leaves]

/-- What a search for the other ends of bonds does: a cell with bonds gets others and is told. -/
inductive Unlinks (s : List Point × Grid) : List Point × Grid → Prop
  | still : Unlinks s s
  | told {q c} (f : CellBonds → CellBonds) (hc : s.2.get? q = some c) (hb : c.bonds ≠ .empty) :
    Unlinks s (s.1 ++ [q], s.2.modifyBonds q f)

theorem unlinks_outgoing (p : Point) (s : List Point × Grid) (e : String × Point) :
    Unlinks s (unlinkOutgoing p s e) := by
  unfold unlinkOutgoing
  simp only
  split
  next hfound =>
    obtain ⟨c, hc, hn⟩ := Option.bind_eq_some_iff.mp hfound
    refine .told _ hc fun hb => ?_
    rw [hb] at hn
    exact nomatch (NameMap.get?_empty e.1).symm.trans hn
  next => exact .still

theorem unlinks_incoming (p : Point) (s : List Point × Grid) (e : String × Point) :
    Unlinks s (unlinkIncoming p s e) := by
  unfold unlinkIncoming
  simp only
  split
  next hfound =>
    obtain ⟨c, hc, hn⟩ := Option.bind_eq_some_iff.mp hfound
    refine .told _ hc fun hb => ?_
    rw [hb] at hn
    exact nomatch (NameMap.get?_empty e.1).symm.trans hn
  next => exact .still

theorem unlinks_removeBonds {g : Grid} {p : Point} {c : Cell} (hc : g.get? p = some c) :
    Relation.ReflTransGen Unlinks ([], g.modifyBonds p fun _ => .empty) (g.removeBonds p) := by
  have hfold : ∀ (f : List Point × Grid → String × Point → List Point × Grid),
      (∀ s e, Unlinks s (f s e)) → ∀ (es : List (String × Point)) s,
        Relation.ReflTransGen Unlinks s (es.foldl f s) := fun f hf =>
    foldl_relates (fun _ => .refl) .trans fun s e => .single (hf s e)
  unfold removeBonds
  rw [hc]
  exact (hfold _ (unlinks_outgoing p) c.bonds.outgoing.entries _).trans
    (hfold _ (unlinks_incoming p) c.bonds.incoming.entries _)

/-- To take the bonds off a cell tells all other cells that look different afterwards. -/
theorem sameOutside_removeBonds (g : Grid) (p : Point) :
    SameOutside (p :: (g.removeBonds p).1) g (g.removeBonds p).2 := by
  cases hc : g.get? p with
  | none =>
    rw [removeBonds, hc]
    exact .refl _ g
  | some c =>
    have hs := unlinks_removeBonds hc
    generalize g.removeBonds p = s at hs ⊢
    induction hs with
    | refl => exact sameOutside_modify _ _ _
    | tail _ hs ih =>
      cases hs with
      | still => exact ih
      | told f _ _ => exact ih.trans (sameOutside_modify _ _ _)

/-- A cell that loses its bonds is not told itself: it has none when the other ends are looked
for. -/
theorem not_mem_removeBonds (g : Grid) (p : Point) : p ∉ (g.removeBonds p).1 := by
  cases hc : g.get? p with
  | none =>
    rw [removeBonds, hc]
    exact List.not_mem_nil
  | some c =>
    have hs := unlinks_removeBonds hc
    generalize g.removeBonds p = s at hs ⊢
    have hbare : p ∉ s.1 ∧ ∀ d, s.2.get? p = some d → d.bonds = .empty := by
      induction hs with
      | refl =>
        refine ⟨List.not_mem_nil, fun d hd => ?_⟩
        rw [modifyBonds, get?_modify, if_pos rfl] at hd
        obtain ⟨_, -, rfl⟩ := Option.map_eq_some_iff.mp hd
        rfl
      | tail _ hs ih =>
        cases hs with
        | still => exact ih
        | @told q d f hd hb =>
          have hne : p ≠ q := fun he => hb (ih.2 d (he ▸ hd))
          refine ⟨by simpa [ih.1] using hne, fun d' hd' => ih.2 d' ?_⟩
          rwa [modifyBonds, get?_modify, if_neg hne] at hd'
    exact hbare.1

/-- The cells that take part when a bond is recorded: its ends, and the other ends of the bonds that
make way for it. -/
def linked (g : Grid) (b : Bond) : List Point :=
  [b.origin, b.destination] ++
    ((g.field.leaving? b.origin b.name).map (·.destination)).toList ++
      ((g.field.entering? b.destination b.name).map (·.origin)).toList

theorem SameOutside.removeAny {ps : List Point} {g h : Grid} (hg : SameOutside ps g h)
    {b : Option Bond} (hb : ∀ c, b = some c → c.origin ∈ ps ∧ c.destination ∈ ps) :
    SameOutside ps g (h.removeAny b) := by
  cases b with
  | none => exact hg
  | some c => exact (hg.modify (hb c rfl).1 _).modify (hb c rfl).2 _

theorem sameOutside_link (g : Grid) (b : Bond) : SameOutside (g.linked b) g (g.link b) := by
  have horigin : b.origin ∈ g.linked b := by simp [linked]
  have hdestination : b.destination ∈ g.linked b := by simp [linked]
  have hnear : SameOutside (g.linked b) g (g.removeAny (g.field.leaving? b.origin b.name)) := by
    refine (SameOutside.refl _ g).removeAny fun c hc => ?_
    obtain ⟨-, ho, -⟩ := BondField.leaving?_eq_some_iff.mp hc
    exact ⟨ho ▸ horigin, by simp [linked, hc]⟩
  -- A bond that makes way at the destination was there before the one at the origin made way.
  refine ((hnear.removeAny fun c hc => ?_).modify horigin _).modify hdestination _
  obtain ⟨he, hd, hn⟩ := BondField.entering?_eq_some_iff.mp hc
  rw [field_removeAny] at he
  have hbefore : g.field.entering? b.destination b.name = some c :=
    BondField.entering?_eq_some_iff.mpr ⟨(BondField.enters_dropAny.mp he).1, hd, hn⟩
  exact ⟨by simp [linked, hbefore], hd ▸ hdestination⟩

end Grid

namespace UpdateEvent

variable {R : Type}

theorem sameOutside_of_write {g : Grid} {s t : List Point × Grid × Registry R} {p : Point}
    {old new : ParticleId} (h : write s p old new = .ok t) (hs : Grid.SameOutside s.1 g s.2.1) :
    Grid.SameOutside t.1 g t.2.1 := by
  obtain ⟨touched, x⟩ := s
  rw [write_eq] at h
  split at h
  next =>
    obtain ⟨r, hr, rfl⟩ := map_eq_ok.mp h
    exact hs.trans (Grid.sameOutside_modify _ _ _)
  next =>
    cases h
    exact hs

theorem sameOutside_carryOut (plan : Plan) (g : Grid) :
    Grid.SameOutside (plan.edits.map Prod.fst) g (plan.carryOut g) := by
  unfold Plan.carryOut
  generalize plan.edits = edits
  induction edits generalizing g with
  | nil => exact .refl [] g
  | cons edit edits ih =>
    have hedit := Grid.sameOutside_modify g edit.1 fun c => { c with bonds := edit.2 }
    exact Grid.SameOutside.trans hedit (ih _)

/-- A change tells all cells that look different afterwards. -/
theorem sameOutside_of_commit {e : UpdateEvent R} {g g' : Grid} {r r' : Registry R}
    {touched : List Point} (h : e.commit g r = .ok (touched, g', r')) :
    Grid.SameOutside touched g g' := by
  rw [commit_eq] at h
  obtain ⟨s, hs, h⟩ := ParticleAutomaton.bind_eq_ok.mp h
  obtain ⟨t, ht, h⟩ := ParticleAutomaton.bind_eq_ok.mp h
  have hsource : Grid.SameOutside s.1 g s.2.1 := by
    unfold writeSource at hs
    split at hs
    next =>
      cases hs
      exact .refl [] g
    next => exact sameOutside_of_write hs (.refl [] g)
  have htarget := sameOutside_of_write ht hsource
  cases h
  exact (htarget.trans (sameOutside_carryOut e.plan t.2.1)).mono fun p hp =>
    mem_touchPlan.mpr (List.mem_append.mp hp)

end UpdateEvent

theorem Journal.drawn_drawAll {R : Type} (j : Journal R) (ps : List Point) :
    (j.drawAll ps).drawn.toList = j.drawn.toList ++ ps := by
  unfold drawAll
  induction ps generalizing j with
  | nil => simp
  | cons p ps ih =>
    rw [List.foldl_cons, ih, drawn_draw]
    simp

namespace Board

variable {R γ : Type}

/-- From one board to another one all cells that look different are shown, but for some. -/
def ShowsBut (hidden : List Point) (b c : Board R γ) : Prop :=
  ∃ ps : List Point, c.journal.drawn.toList = b.journal.drawn.toList ++ ps ∧
    Grid.SameOutside (ps ++ hidden) b.grid c.grid ∧ ∀ p ∈ hidden, p ∉ ps

/-- From one board to another one all cells that look different are shown. -/
def Shows (b c : Board R γ) : Prop := b.ShowsBut [] c

theorem shows_iff {b c : Board R γ} : b.Shows c ↔
    ∃ ps : List Point, c.journal.drawn.toList = b.journal.drawn.toList ++ ps ∧
      Grid.SameOutside ps b.grid c.grid := by
  simp [Shows, ShowsBut]

/-- Where no cell changes nothing needs to be shown. -/
theorem shows_of_grid {b c : Board R γ} (hg : c.grid = b.grid)
    (hj : c.journal.drawn = b.journal.drawn) : b.Shows c :=
  shows_iff.mpr ⟨[], by rw [hj, List.append_nil], hg ▸ .refl [] b.grid⟩

theorem Shows.refl (b : Board R γ) : b.Shows b := shows_of_grid rfl rfl

theorem shows_connect (b : Board R γ) (p : Point) (cell : RemoteCell) :
    b.Shows (b.connect p cell).2 := by
  unfold connect
  split
  · exact .refl b
  · exact shows_of_grid rfl rfl

theorem Shows.trans {b c d : Board R γ} (h : b.Shows c) (k : c.Shows d) : b.Shows d := by
  obtain ⟨ps, hp, hps⟩ := shows_iff.mp h
  obtain ⟨qs, hq, hqs⟩ := shows_iff.mp k
  refine shows_iff.mpr ⟨ps ++ qs, ?_, hps.trans hqs⟩
  rw [hq, hp, List.append_assoc]

theorem shows_drawAll {b c : Board R γ} {ps : List Point}
    (hj : c.journal.drawn = b.journal.drawn) (hg : Grid.SameOutside ps b.grid c.grid) :
    b.Shows (c.drawAll ps) := by
  refine shows_iff.mpr ⟨ps, ?_, hg⟩
  rw [← hj]
  exact Journal.drawn_drawAll c.journal ps

variable [Scalar R]

/-- A write tells all cells that look different afterwards. -/
theorem sameOutside_of_write {b c : Board R γ} {p : Point} {particle : ParticleId}
    {touched : List Point} (h : b.write p particle = .ok (touched, c)) :
    Grid.SameOutside touched b.grid c.grid ∧ c.journal = b.journal := by
  cases hcell : b.grid.get? p with
  | none =>
    rw [write_of_none hcell] at h
    cases h
    exact ⟨.refl [] b.grid, rfl⟩
  | some cell =>
    rw [write_of_some hcell] at h
    obtain ⟨registry, -, h⟩ := bind_eq_ok.mp h
    obtain ⟨d, hd, h⟩ := bind_eq_ok.mp h
    obtain ⟨registry', activity, rfl⟩ := refreshRate_eq_ok hd
    cases h
    exact ⟨(Grid.sameOutside_removeBonds b.grid p).modify List.mem_cons_self _, rfl⟩

theorem shows_of_set {b c : Board R γ} {p : Point} {name : String} {done : Bool}
    (h : b.set p name = .ok (done, c)) : b.Shows c := by
  rcases set_cases h with rfl | ⟨touched, d, hd, rfl⟩
  · exact .refl _
  · obtain ⟨hg, hj⟩ := sameOutside_of_write hd
    exact shows_drawAll (congrArg Journal.drawn hj) hg

theorem shows_of_fill {b c : Board R γ} {name : String} (h : b.fill name = .ok c) : b.Shows c := by
  refine foldlM_relates Shows.refl Shows.trans (fun p _ b b' hb => ?_) h
  obtain ⟨s, hs, rfl⟩ := map_eq_ok.mp hb
  exact shows_of_set hs

theorem shows_of_paint {image : Image} {n : Nat} {b c : Board R γ}
    (h : b.paint image = .ok (n, c)) : b.Shows c := by
  refine foldlM_relates (r := fun s t : Nat × Board R γ => s.2.Shows t.2) (fun s => .refl s.2)
    Shows.trans (fun p _ s t hs => ?_) h
  simp only at hs
  split at hs
  next =>
    obtain ⟨s', hs', rfl⟩ := map_eq_ok.mp hs
    exact shows_of_set hs'
  next =>
    cases hs
    exact .refl _

theorem shows_of_commit {b c : Board R γ} {e : UpdateEvent R} (h : b.commit e = .ok c) :
    b.Shows c := by
  obtain ⟨touched, grid, registry, d, journal, hc, hd, rfl, hdrawn, -⟩ := commit_cases h
  obtain ⟨registry', activity, rfl⟩ := refreshRates_eq_ok hd
  have hg := UpdateEvent.sameOutside_of_commit hc
  have hshown : b.Shows (drawAll { b with grid, registry := registry', activity } touched) :=
    shows_drawAll rfl hg
  exact hshown.trans (shows_of_grid rfl hdrawn)

theorem shows_of_applyReply {b c : Board R γ} {m : EvolveReply R} (h : b.applyReply m = .ok c) :
    b.Shows c := by
  rcases applyReply_cases h with rfl | rfl | ⟨touched, d, hd, rfl⟩
  · exact .refl _
  · exact shows_of_grid rfl rfl
  · obtain ⟨hg, hj⟩ := sameOutside_of_write hd
    exact shows_drawAll (congrArg Journal.drawn hj) hg

/-- A snapshot that is taken over is shown at all cells. -/
theorem shows_of_restore {b c : Board R γ} {s : Snapshot} {r : Except SnapshotError Unit}
    (h : b.restore s = .ok (r, c)) : b.Shows c := by
  rcases restore_cases h with rfl | rfl | ⟨-, registry, d, -, hd, rfl⟩
  · exact .refl _
  · exact shows_of_grid rfl rfl
  · obtain ⟨registry', activity, rfl⟩ := refreshRates_eq_ok hd
    refine shows_drawAll rfl fun p hp => ?_
    have hages := ages_stage b s.cells
    have hout : (b.stage s.cells).1.contains p = false := by
      simpa [Grid.mem_points] using hp
    show Grid.look? (b.stage s.cells).1 p = b.grid.look? p
    rw [Grid.look?, Grid.look?, Grid.get?_eq_none_iff.mpr hout,
      Grid.get?_eq_none_iff.mpr ((hages.contains p).symm.trans hout)]

variable [Generator R γ]

theorem Effect.shows {b c : Board R γ} {remote : Bool} {o : StepOutcome}
    (h : Effect b remote o c) : b.Shows c := by
  cases h with
  | quiet ha hr h =>
    obtain ⟨registry, random, -, rfl⟩ := h
    exact shows_of_grid rfl rfl
  | request ho h =>
    obtain ⟨registry, random, p, cell, d, remote, -, hc, -, rfl⟩ := h
    obtain ⟨registry', q, -, -, -, -, hr⟩ :=
      requestRemote_eq (b := { b with registry, random }) hc d remote
    rw [hr]
    exact shows_of_grid rfl (Journal.drawn_send ..)
  | change ho e e' hp hr hb h =>
    obtain ⟨registry, random, -, h⟩ := h
    exact (shows_of_grid rfl rfl : b.Shows { b with registry, random }).trans (shows_of_commit h)

theorem shows_of_updateGo {n : Nat} {stats stats' : UpdateStats} {b c : Board R γ}
    (h : update.go n stats b = .ok (stats', c)) : b.Shows c := by
  induction n generalizing stats b with
  | zero =>
    cases h
    exact .refl _
  | succ n ih =>
    obtain ⟨s, hs, h⟩ := bind_eq_ok.mp h
    exact (effect_of_step hs).shows.trans (ih h)

theorem shows_of_tick {stats : UpdateStats} {b c : Board R γ} (h : b.tick = .ok (stats, c)) :
    b.Shows c := by
  have hdraw : ∀ random : γ, b.Shows { b with random } := fun _ => shows_of_grid rfl rfl
  exact (hdraw _).trans (shows_of_updateGo h)

theorem shows_of_handle {b c : Board R γ} {m : Message R} (h : b.handle m = .ok c) :
    b.Shows c := by
  cases m with
  | evolve m =>
    obtain ⟨⟨state, energy, d⟩, hd, h⟩ := bind_eq_ok.mp h
    obtain ⟨o, he⟩ := effect_of_evolveTarget hd
    cases h
    exact he.shows.trans (shows_of_grid rfl (Journal.drawn_send ..))
  | reply m => exact shows_of_applyReply h

theorem shows_of_handleText [MessageReader R] {b c : Board R γ} {text : String}
    (h : b.handleText text = .ok c) : b.Shows c := by
  unfold handleText at h
  split at h
  next => exact shows_of_handle h
  next =>
    cases h
    exact .refl _

end Board

/-- The cells that an operation changes without showing them. -/
def Operation.hidden {R γ : Type} (b : Board R γ) : Operation R → List Point
  | .addBond bond => b.grid.linked bond
  | .removeBonds p => [p]
  | _ => []

namespace Board

variable {R γ : Type}

/-- To record a bond shows no cell at all. -/
theorem showsBut_addBond (b : Board R γ) (bond : Bond) :
    b.ShowsBut (b.grid.linked bond) (b.addBond bond).2 := by
  refine ⟨[], ?_, ?_, fun _ _ => List.not_mem_nil⟩
  · rw [addBond_eq, List.append_nil]
    split <;> rfl
  · rw [addBond_eq]
    split
    · exact .refl _ b.grid
    · exact Grid.sameOutside_link b.grid bond

/-- To take the bonds off a cell shows the cells at their other ends, and not this one. -/
theorem showsBut_removeBonds (b : Board R γ) (p : Point) : b.ShowsBut [p] (b.removeBonds p) := by
  refine ⟨(b.grid.removeBonds p).1, Journal.drawn_drawAll b.journal _, ?_, ?_⟩
  · exact (Grid.sameOutside_removeBonds b.grid p).mono fun q hq =>
      List.mem_append.mpr ((List.mem_cons.mp hq).symm.imp_right List.mem_singleton.mpr)
  · intro q hq
    rw [List.mem_singleton.mp hq]
    exact Grid.not_mem_removeBonds b.grid p

variable [Scalar R] [Generator R γ] [MessageReader R]

/-- All cells that look different after an operation were shown, but for the two operations on
bonds: to record a bond shows none of the cells that it changes, and to take the bonds off a cell
does not show this cell. -/
theorem changes_shown_but_for_bonds {b c : Board R γ} {op : Operation R} {a : Answer}
    (h : op.run b = .ok (a, c)) :
    ∃ ps : List Point, c.journal.drawn.toList = b.journal.drawn.toList ++ ps ∧
      (∀ p, p ∉ ps → p ∉ op.hidden b → c.grid.look? p = b.grid.look? p) ∧
      ∀ p ∈ op.hidden b, p ∉ ps := by
  suffices hshows : b.ShowsBut (op.hidden b) c by
    obtain ⟨ps, hdrawn, hsame, hhidden⟩ := hshows
    refine ⟨ps, hdrawn, fun p hp hq => hsame p ?_, hhidden⟩
    rw [List.mem_append, not_or]
    exact ⟨hp, hq⟩
  cases op with
  | set p name =>
    obtain ⟨s, hs, he⟩ := map_eq_ok.mp h
    cases he
    exact shows_of_set hs
  | fill name =>
    obtain ⟨s, hs, he⟩ := map_eq_ok.mp h
    cases he
    exact shows_of_fill hs
  | addBond bond =>
    cases h
    exact showsBut_addBond b bond
  | removeBonds p =>
    cases h
    exact showsBut_removeBonds b p
  | connect p cell =>
    cases h
    exact shows_connect b p cell
  | step =>
    obtain ⟨s, hs, he⟩ := map_eq_ok.mp h
    cases he
    exact (effect_of_step hs).shows
  | update n =>
    obtain ⟨s, hs, he⟩ := map_eq_ok.mp h
    cases he
    exact shows_of_updateGo hs
  | tick =>
    obtain ⟨s, hs, he⟩ := map_eq_ok.mp h
    cases he
    exact shows_of_tick hs
  | handle m =>
    obtain ⟨s, hs, he⟩ := map_eq_ok.mp h
    cases he
    exact shows_of_handle hs
  | handleText text =>
    obtain ⟨s, hs, he⟩ := map_eq_ok.mp h
    cases he
    exact shows_of_handleText hs
  | restore s =>
    obtain ⟨s, hs, he⟩ := map_eq_ok.mp h
    cases he
    exact shows_of_restore hs
  | paint image =>
    obtain ⟨s, hs, he⟩ := map_eq_ok.mp h
    cases he
    exact shows_of_paint hs
  | flush =>
    cases h
    exact shows_of_grid rfl rfl

/-- A bond comes and goes on a board of two cells, and its origin is never shown. -/
theorem changes_shown_but_for_bonds_of_pair :
    ∃ (b c d : Board Float RandomSource) (ps qs : List Point), b.Reachable ∧
      Operation.run b (.addBond ⟨⟨0, 0⟩, ⟨1, 0⟩, "k"⟩) = .ok (.flag true, c) ∧
      c.journal.drawn.toList = b.journal.drawn.toList ++ ps ∧ ⟨0, 0⟩ ∉ ps ∧ ⟨1, 0⟩ ∉ ps ∧
      c.grid.look? ⟨0, 0⟩ ≠ b.grid.look? ⟨0, 0⟩ ∧
      Operation.run c (.removeBonds ⟨0, 0⟩) = .ok (.done, d) ∧
      d.journal.drawn.toList = c.journal.drawn.toList ++ qs ∧ ⟨0, 0⟩ ∉ qs ∧
      d.grid.look? ⟨0, 0⟩ ≠ c.grid.look? ⟨0, 0⟩ := by
  have hread : ((Rulebook.ofRecords? .square4 (⟨[], [], []⟩ : RuleRecords Float)).toOption.any
      fun _ => true) = true := by decide +kernel
  obtain ⟨rules, hrules, -⟩ := any_toOption.mp hread
  let config : BoardConfig := { width := 2, height := 1 }
  let bond : Bond := ⟨⟨0, 0⟩, ⟨1, 0⟩, "k"⟩
  obtain ⟨b, hb, -, -, ⟨filler, hg⟩, -⟩ := declared_new (RandomSource.ofMix 0)
    (show config.validate = .ok () from rfl) ⟨_, _, hrules⟩ (Rulebook.topology_of_ofRecords hrules)
  have hin : b.grid.contains bond.origin = true := by
    rw [hg]
    rfl
  have hbefore : ¬ b.grid.field.Leaves bond := by
    rw [hg]
    rintro ⟨c, hc, hn⟩
    obtain ⟨d, hd, rfl⟩ := Option.map_eq_some_iff.mp hc
    rw [Grid.get?_new hd] at hn
    exact nomatch hn
  have hbetween : (b.grid.link bond).field.Leaves bond := Grid.leaves_link hin
  have hafter : ¬ ((b.grid.link bond).removeBonds ⟨0, 0⟩).2.field.Leaves bond :=
    fun hl => (Grid.leaves_removeBonds.mp hl).2.1 rfl
  let linked : Board Float RandomSource := { b with grid := b.grid.link bond }
  have hrun : Operation.run b (.addBond bond) = .ok (.flag true, linked) := by
    rw [Operation.run, addBond_eq, if_neg (by simp [bond, hin])]
  obtain ⟨ps, hps, -, hp⟩ := changes_shown_but_for_bonds hrun
  obtain ⟨qs, hqs, -, hq⟩ := changes_shown_but_for_bonds
    (show Operation.run linked (.removeBonds ⟨0, 0⟩) = .ok (.done, _) from rfl)
  have hends : bond.origin ∉ ps ∧ bond.destination ∉ ps :=
    ⟨hp _ (by simp [Operation.hidden, Grid.linked]), hp _ (by simp [Operation.hidden, Grid.linked])⟩
  refine ⟨b, linked, _, ps, qs, hb, hrun, hps, hends.1, hends.2, fun he => ?_, rfl, hqs,
    hq _ (List.mem_singleton.mpr rfl), fun he => ?_⟩
  · exact hbefore ((Grid.leaves_iff_of_look? (b := bond) he).mp hbetween)
  · exact hafter ((Grid.leaves_iff_of_look? (b := bond) he).mpr hbetween)

end Board

end ParticleAutomaton
