import ParticleAutomaton.Proofs.InboundLikeness
import ParticleAutomaton.Proofs.NewBoards
import ParticleAutomaton.Proofs.Moves
import ParticleAutomaton.Proofs.RestoreLikeness

namespace ParticleAutomaton

/-- All that can be seen of a board by name. -/
structure View (R γ : Type) where
  /-- The names, the writes and the bonds of all cells. -/
  contents : Snapshot
  activity : ActivityTree R
  count : String → Nat
  counts : List (String × Nat)
  remotes : List (Point × RemoteCell)
  random : γ
  journal : Journal R

namespace Board

variable {R γ : Type}

def view (b : Board R γ) : View R γ :=
  ⟨b.snapshot, b.activity, b.count, b.counts, b.remotes, b.random, b.journal⟩

namespace Alike

variable [Scalar R] {b c : Board R γ} (h : b.Alike c)

include h

theorem right : c.Alike c :=
  ⟨.refl h.twins.right h.twins.rightCounted h.twins.named_right, rfl, rfl, rfl, rfl, rfl⟩

theorem snapshot : c.snapshot = b.snapshot := by
  have hwidth : c.width = b.width := h.twins.width
  have hheight : c.height = b.height := h.twins.height
  have htopology : c.topology = b.topology := congrArg BoardConfig.topology h.config
  have hcells : c.grid.cells.toList.map (fun d =>
        CellSnapshot.mk (c.registry.name d.particle) d.writes d.bonds.outgoing d.bonds.incoming) =
      b.grid.cells.toList.map fun d =>
        ⟨b.registry.name d.particle, d.writes, d.bonds.outgoing, d.bonds.incoming⟩ := by
    refine h.twins.map_cells fun x y hxy => ?_
    have hname : c.registry.name y.particle = b.registry.name x.particle := hxy.particle.name
    rw [hname, hxy.writes, hxy.bonds]
  unfold Board.snapshot
  rw [hwidth, hheight, htopology, hcells]

theorem particleName? (p : Point) : c.particleName? p = b.particleName? p := by
  unfold Board.particleName?
  cases hb : b.grid.get? p with
  | none => rw [h.get?_none hb]; rfl
  | some cell =>
    obtain ⟨cell', hc, hcell⟩ := h.get?_some hb
    rw [hc, Option.map_some, Option.map_some, hcell.particle.name]

/-- Boards that are the same by name look the same. -/
theorem view : c.view = b.view := by
  have hcount : c.count = b.count := funext fun name => h.twins.count name
  have hcounts : c.counts = b.counts := h.twins.counts
  unfold Board.view
  rw [h.snapshot, h.activity, hcount, hcounts, h.remotes, h.random, h.journal]

end Alike

end Board

namespace Operation

variable {R γ : Type}

def isFlush : Operation R → Bool
  | .flush => true
  | _ => false

/-- Painting looks at the colors of all particles of the registry, also of those that no cell
holds. -/
def isPaint : Operation R → Bool
  | .paint _ => true
  | _ => false

variable [Scalar R] [Generator R γ] [MessageReader R]

/-- What is told and seen in a run of operations, flushes apart, and what is seen at its end. -/
def watch (b : Board R γ) :
    List (Operation R) → List (Answer × View R γ) × Except Fault (View R γ)
  | [] => ([], .ok b.view)
  | op :: ops =>
    match op.run b with
    | .error f => ([], .error f)
    | .ok (answer, c) =>
      let (seen, last) := watch c ops
      (if op.isFlush then seen else (answer, c.view) :: seen, last)

end Operation

namespace Board.Alike

variable {R γ : Type} [Scalar R] [Generator R γ] [MessageReader R] {b c : Board R γ} (h : b.Alike c)

include h

/-- An operation does the same to boards that are the same by name. -/
theorem run {op : Operation R} (hp : op.isPaint = false) (hf : op.isFlush = false) :
    Agree Same (op.run b) (op.run c) := by
  cases op with
  | set p name => exact (h.set p name).map fun s t hst => ⟨congrArg Answer.flag hst.1, hst.2⟩
  | fill name => exact (h.fill name).map fun _ _ hbc => ⟨rfl, hbc⟩
  | addBond bond => exact .ok ⟨congrArg Answer.flag (h.addBond bond).1, (h.addBond bond).2⟩
  | removeBonds p => exact .ok ⟨rfl, h.removeAll p⟩
  | connect p cell => exact .ok ⟨congrArg Answer.flag (h.connect p cell).1, (h.connect p cell).2⟩
  | step => exact h.step.map fun s t hst => ⟨congrArg Answer.outcome hst.1, hst.2⟩
  | update attempts =>
    exact (h.update attempts).map fun s t hst => ⟨congrArg Answer.stats hst.1, hst.2⟩
  | tick => exact h.tick.map fun s t hst => ⟨congrArg Answer.stats hst.1, hst.2⟩
  | handle m => exact (h.handle m).map fun _ _ hbc => ⟨rfl, hbc⟩
  | handleText text => exact (h.handleText text).map fun _ _ hbc => ⟨rfl, hbc⟩
  | restore s => exact (h.restore s).map fun s t hst => ⟨congrArg Answer.restored hst.1, hst.2⟩
  | paint image => exact nomatch hp
  | flush => exact nomatch hf

omit h in
/-- Two runs that differ in flushes alone are watched alike: a flush keeps the boards the same by
name, and any other operation is in both runs. -/
theorem watch {b c : Board R γ} (h : b.Alike c) {ops : List (Operation R)}
    (hp : ∀ op ∈ ops, op.isPaint = false) :
    Operation.watch c ops = Operation.watch b (ops.filter fun op => !op.isFlush) := by
  induction ops generalizing b c with
  | nil => simp [Operation.watch, h.view]
  | cons op ops ih =>
    have hops : ∀ op ∈ ops, op.isPaint = false := fun op ho => hp op (List.mem_cons_of_mem _ ho)
    cases hf : op.isFlush with
    | true =>
      cases op with
      | flush =>
        rw [List.filter_cons_of_neg (by simp [hf]), ← ih h.flush hops]
        simp [Operation.watch, Operation.run, hf]
      | _ => exact nomatch hf
    | false =>
      have hrun := h.run (hp op (List.mem_cons_self ..)) hf
      rw [List.filter_cons_of_pos (by simp [hf])]
      simp only [Operation.watch, hf]
      cases hb : op.run b with
      | error f =>
        rw [hb] at hrun
        rw [hrun.symm.eq_error]
      | ok s =>
        rw [hb] at hrun
        obtain ⟨t, ht, hanswer, hst⟩ := hrun.symm.eq_ok
        simp only [ht, ih hst hops, hst.view, hanswer]

end Board.Alike

namespace Board

variable {R γ : Type} [Scalar R]

theorem alike_new {config : BoardConfig} {rules : Rulebook R} {random : γ} {b : Board R γ}
    (h : new config rules random = .ok b) : b.Alike b := by
  obtain ⟨-, -, activity, -, hb⟩ := new_eq_ok.mp h
  exact ((alike_still config rules random activity).refreshRates _).self hb

variable [Generator R γ]

/-- A move leaves a board the same by name as itself. -/
theorem Moves.alike {b c : Board R γ} (hm : b.Moves c) (h : b.Alike b) : c.Alike c := by
  cases hm with
  | set hc => exact ((h.set _ _).self hc).2
  | addBond bond => exact (h.addBond bond).2
  | removeBonds p => exact h.removeAll p
  | connect p cell => exact (h.connect p cell).2
  | draw random => exact h.reseed random
  | step hc => exact (h.step.self hc).2
  | handle hc => exact (h.handle _).self hc
  | restore hc => exact ((h.restore _).self hc).2
  | flush => exact h.flush.right

variable [MessageReader R]

theorem Reachable.alike {b : Board R γ} (h : b.Reachable) : b.Alike b := by
  obtain ⟨config, rules, random, a, hn, ha⟩ := h
  exact ha.passes.invariant Moves.alike (alike_new hn)

/-- What holds of new boards and no move loses holds of all boards that operations can make. -/
theorem Reachable.invariant {P : Board R γ → Prop}
    (new : ∀ {config rules random b}, new config rules random = .ok b → P b)
    (step : ∀ {b c}, b.Alike b → b.Moves c → P b → P c) {b : Board R γ} (h : b.Reachable) :
    P b := by
  obtain ⟨config, rules, random, a, hn, ha⟩ := h
  have hstep : ∀ {b c : Board R γ}, b.Moves c → b.Alike b ∧ P b → c.Alike c ∧ P c :=
    fun hm hb => ⟨hm.alike hb.1, step hb.1 hm hb.2⟩
  exact (ha.passes.invariant hstep ⟨alike_new hn, new hn⟩).2

end Board

end ParticleAutomaton
