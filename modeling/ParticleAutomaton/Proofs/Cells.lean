import ParticleAutomaton.Grid.Bonds
import ParticleAutomaton.Proofs.Points
import Mathlib.Data.List.Nodup
import Mathlib.Data.List.ProdSigma

namespace ParticleAutomaton.Grid

theorem index?_eq_some_iff {g : Grid} {p : Point} {i : Nat} :
    g.index? p = some i ↔
      (0 ≤ p.x ∧ 0 ≤ p.y ∧ p.x < g.width ∧ p.y < g.height) ∧
        p.x.toNat + p.y.toNat * g.width = i := by
  unfold index?
  split
  next h => simp [h]
  next h => simp [h]

theorem index?_lt {g : Grid} {p : Point} {i : Nat} (h : g.index? p = some i) :
    i < g.cells.size := by
  obtain ⟨⟨hx, hy, hw, hh⟩, rfl⟩ := index?_eq_some_iff.mp h
  rw [g.size_cells]
  have hx' : p.x.toNat < g.width := by omega
  have hy' : p.y.toNat + 1 ≤ g.height := by omega
  calc p.x.toNat + p.y.toNat * g.width < g.width + p.y.toNat * g.width := by omega
    _ = (p.y.toNat + 1) * g.width := by rw [Nat.succ_mul, Nat.add_comm]
    _ ≤ g.height * g.width := Nat.mul_le_mul_right _ hy'
    _ = g.width * g.height := Nat.mul_comm _ _

theorem index?_inj {g : Grid} {p q : Point} {i : Nat} (hp : g.index? p = some i)
    (hq : g.index? q = some i) : p = q := by
  obtain ⟨⟨hx, hy, hw, hh⟩, hi⟩ := index?_eq_some_iff.mp hp
  obtain ⟨⟨hx', hy', hw', hh'⟩, hj⟩ := index?_eq_some_iff.mp hq
  have hwp : 0 < g.width := by omega
  have hm : p.x.toNat = q.x.toNat := by
    have h₁ : (p.x.toNat + p.y.toNat * g.width) % g.width = p.x.toNat := by
      rw [Nat.add_mul_mod_self_right, Nat.mod_eq_of_lt (by omega)]
    have h₂ : (q.x.toNat + q.y.toNat * g.width) % g.width = q.x.toNat := by
      rw [Nat.add_mul_mod_self_right, Nat.mod_eq_of_lt (by omega)]
    rw [← h₁, ← h₂, hi, hj]
  have hd : p.y.toNat = q.y.toNat := by
    have he : p.y.toNat * g.width = q.y.toNat * g.width := by omega
    exact Nat.eq_of_mul_eq_mul_right hwp he
  exact Point.eq_iff.mpr ⟨by omega, by omega⟩

theorem contains_iff {g : Grid} {p : Point} :
    g.contains p = true ↔ 0 ≤ p.x ∧ 0 ≤ p.y ∧ p.x < g.width ∧ p.y < g.height := by
  unfold contains index?
  split
  next h => simp [h]
  next h => simp [h]

theorem get?_of_index? {g : Grid} {p : Point} {i : Nat} (h : g.index? p = some i) :
    g.get? p = g.cells[i]? := by
  rw [get?, h]
  rfl

theorem get?_of_index?_none {g : Grid} {p : Point} (h : g.index? p = none) : g.get? p = none := by
  rw [get?, h]
  rfl

theorem isSome_get? (g : Grid) (p : Point) : (g.get? p).isSome = g.contains p := by
  unfold contains
  cases h : g.index? p with
  | none =>
    rw [get?_of_index?_none h]
    rfl
  | some i =>
    rw [get?_of_index? h]
    simpa using index?_lt h

theorem contains_of_get? {g : Grid} {p : Point} {c : Cell} (h : g.get? p = some c) :
    g.contains p = true := by
  rw [← isSome_get?, h]
  rfl

theorem get?_of_contains {g : Grid} {p : Point} (h : g.contains p = true) :
    ∃ c, g.get? p = some c := by
  rw [← isSome_get?] at h
  exact Option.isSome_iff_exists.mp h

theorem get?_eq_none_iff {g : Grid} {p : Point} : g.get? p = none ↔ g.contains p = false := by
  rw [← isSome_get?]
  simp

@[simp] theorem width_modify (g : Grid) (p : Point) (f : Cell → Cell) :
    (g.modify p f).width = g.width := by
  unfold modify
  split <;> rfl

@[simp] theorem height_modify (g : Grid) (p : Point) (f : Cell → Cell) :
    (g.modify p f).height = g.height := by
  unfold modify
  split <;> rfl

@[simp] theorem index?_modify (g : Grid) (p q : Point) (f : Cell → Cell) :
    (g.modify p f).index? q = g.index? q := by
  simp [index?]

@[simp] theorem contains_modify (g : Grid) (p q : Point) (f : Cell → Cell) :
    (g.modify p f).contains q = g.contains q := by
  simp [contains]

theorem get?_modify (g : Grid) (p q : Point) (f : Cell → Cell) :
    (g.modify p f).get? q = if q = p then (g.get? q).map f else g.get? q := by
  cases hp : g.index? p with
  | none =>
    have he : g.modify p f = g := by simp [modify, hp]
    rw [he]
    split
    next h => rw [h, get?_of_index?_none hp]; rfl
    next => rfl
  | some i =>
    have hcells : (g.modify p f).cells = g.cells.modify i f := by simp [modify, hp]
    cases hq : g.index? q with
    | none =>
      rw [get?_of_index?_none hq, get?_of_index?_none (by simpa using hq)]
      simp
    | some j =>
      rw [get?_of_index? hq, get?_of_index? (by simpa using hq), hcells, Array.getElem?_modify]
      by_cases h : q = p
      · have hij : i = j := Option.some.inj (hp.symm.trans (h ▸ hq))
        simp [h, hij]
      · have hij : i ≠ j := fun hij => h (index?_inj hq (hij ▸ hp))
        simp [h, hij]

theorem get?_new {width height : Nat} {particle : ParticleId} {p : Point} {c : Cell}
    (h : (new width height particle).get? p = some c) : c = Cell.new particle := by
  obtain ⟨i, hi⟩ := Option.isSome_iff_exists.mp (contains_of_get? h)
  rw [get?_of_index? hi, new, Array.getElem?_replicate] at h
  split at h
  next => exact (Option.some.inj h).symm
  next => simp at h

theorem mem_pointsOf {w h : Nat} {p : Point} :
    p ∈ pointsOf w h ↔ 0 ≤ p.x ∧ 0 ≤ p.y ∧ p.x < w ∧ p.y < h := by
  obtain ⟨a, b⟩ := p
  simp only [pointsOf, List.mem_flatMap, List.mem_range, List.mem_map, Point.mk.injEq]
  constructor
  · rintro ⟨y, hy, x, hx, rfl, rfl⟩
    omega
  · rintro ⟨ha, hb, hw, hh⟩
    exact ⟨b.toNat, by omega, a.toNat, by omega, by omega, by omega⟩

theorem nodup_pointsOf (w h : Nat) : (pointsOf w h).Nodup := by
  refine List.nodup_flatMap.mpr ⟨fun y _ => ?_, ?_⟩
  · refine List.nodup_range.map_on fun a _ b _ he => ?_
    have := (Point.mk.injEq .. ▸ he).1
    omega
  · refine List.nodup_range.imp fun {a b} hne => ?_
    intro p hp hq
    obtain ⟨x, -, rfl⟩ := List.mem_map.mp hp
    obtain ⟨x', -, he⟩ := List.mem_map.mp hq
    have := (Point.mk.injEq .. ▸ he).2
    omega

theorem mem_points {g : Grid} {p : Point} : p ∈ g.points ↔ g.contains p = true :=
  mem_pointsOf.trans contains_iff.symm

theorem nodup_points (g : Grid) : g.points.Nodup := nodup_pointsOf _ _

theorem pointsOf_succ (w h : Nat) :
    pointsOf w (h + 1) = pointsOf w h ++ (List.range w).map fun x : Nat => ⟨x, h⟩ := by
  simp [pointsOf, List.range_succ]

theorem length_pointsOf (w h : Nat) : (pointsOf w h).length = w * h := by
  induction h with
  | zero => simp [pointsOf]
  | succ h ih => simp [pointsOf_succ, ih, Nat.mul_succ]

theorem getElem?_pointsOf {w h x y : Nat} (hx : x < w) (hy : y < h) :
    (pointsOf w h)[x + y * w]? = some ⟨x, y⟩ := by
  induction h with
  | zero => omega
  | succ h ih =>
    have hl := length_pointsOf w h
    rw [pointsOf_succ]
    rcases Nat.lt_or_eq_of_le (Nat.le_of_lt_succ hy) with hlt | rfl
    · have hle : (y + 1) * w ≤ h * w := Nat.mul_le_mul_right _ hlt
      rw [Nat.succ_mul] at hle
      have hc : w * h = h * w := Nat.mul_comm _ _
      rw [List.getElem?_append_left (by omega)]
      exact ih hlt
    · have hc : w * y = y * w := Nat.mul_comm _ _
      rw [List.getElem?_append_right (by omega), hl, show x + y * w - w * y = x by omega]
      simp [hx]

theorem getElem?_points {g : Grid} {p : Point} {i : Nat} :
    g.points[i]? = some p ↔ g.index? p = some i := by
  have hforth : ∀ j, g.index? p = some j → g.points[j]? = some p := by
    intro j hj
    obtain ⟨⟨hx, hy, hw, hh⟩, rfl⟩ := index?_eq_some_iff.mp hj
    have he := getElem?_pointsOf (w := g.width) (h := g.height) (x := p.x.toNat) (y := p.y.toNat)
      (by omega) (by omega)
    rw [points, he]
    exact congrArg some (Point.eq_iff.mpr ⟨Int.toNat_of_nonneg hx, Int.toNat_of_nonneg hy⟩)
  refine ⟨fun hi => ?_, hforth i⟩
  obtain ⟨j, hj⟩ := Option.isSome_iff_exists.mp (mem_points.mp (List.mem_of_getElem? hi))
  have hl := (List.getElem?_eq_some_iff.mp hi).1
  rw [hj, (List.getElem?_inj hl g.nodup_points).mp (hi.trans (hforth j hj).symm)]

theorem mem_toList {g : Grid} {p : Point} {c : Cell} : (p, c) ∈ g.toList ↔ g.get? p = some c := by
  rw [toList, List.mem_iff_getElem?]
  constructor
  · rintro ⟨i, hi⟩
    obtain ⟨hp, hc⟩ := List.getElem?_zip_eq_some.mp hi
    rw [get?_of_index? (getElem?_points.mp hp)]
    simpa using hc
  · intro h
    obtain ⟨i, hi⟩ := Option.isSome_iff_exists.mp (contains_of_get? h)
    rw [get?_of_index? hi] at h
    exact ⟨i, List.getElem?_zip_eq_some.mpr ⟨getElem?_points.mpr hi, by simpa using h⟩⟩

end ParticleAutomaton.Grid
