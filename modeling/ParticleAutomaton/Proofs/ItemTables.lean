import ParticleAutomaton.Proofs.LatestShares

namespace ParticleAutomaton

/-- A sampler as it is laid out: its items, weights and starts in arrays of their own, and where
each item stands in them. -/
structure ItemTable (α R : Type) where
  items : Array α
  weights : Array R
  starts : Array R
  index : α → Option Nat
  total : R
  closed : Option R

namespace ItemTable

variable {α R γ : Type} [Scalar R]

def empty : ItemTable α R := ⟨#[], #[], #[], fun _ => none, 0, none⟩

/-- Computes all starts anew. -/
def rebuild (t : ItemTable α R) : ItemTable α R :=
  let (starts, total) := t.weights.foldl
    (fun (starts, total) weight => (starts.push total, total + weight)) (#[], 0)
  { t with starts, total }

def close (t : ItemTable α R) : ItemTable α R :=
  { t with closed := some (Scalar.atLeast 1 t.total) }

def drawRange (t : ItemTable α R) : R := t.closed.getD t.total

/-- The item in whose bucket a draw falls. -/
def locate (t : ItemTable α R) (draw : R) : Except Fault (Option α) :=
  if t.total ≤ draw then .ok none
  else
    match (t.starts.toList.takeWhile fun start => start ≤ draw).length with
    | 0 => .ok none
    | i + 1 => do
      let start ← Indexed.read t.starts i
      let weight ← Indexed.read t.weights i
      if draw < start + weight then
        let item ← Indexed.read t.items i
        .ok (some item)
      else .ok none

/-- Draws an item; none, without a draw, if there are no items. -/
def sample [Generator R γ] (t : ItemTable α R) (g : γ) : Except Fault (Option α × γ) :=
  if t.items.isEmpty then .ok (none, g)
  else do
    let (u, g) := Generator.next (R := R) g
    let item ← t.locate (u * t.drawRange)
    .ok (item, g)

variable [BEq α]

def removeAt (t : ItemTable α R) (i : Nat) : Except Fault (ItemTable α R) := do
  let (removed, items) ← Indexed.swapRemove t.items i
  let (_, weights) ← Indexed.swapRemove t.weights i
  let index (a : α) : Option Nat := if a == removed then none else t.index a
  if i < items.size then
    let moved ← Indexed.read items i
    .ok { t with items, weights, index := fun a => if a == moved then some i else index a }
  else .ok { t with items, weights, index }

def replaceAt (t : ItemTable α R) (i : Nat) (item : α) (weight : R) :
    Except Fault (ItemTable α R) := do
  let weights ← Indexed.write t.weights i weight
  let items ← Indexed.write t.items i item
  .ok { t with items, weights }

/-- Adds an item. One that is there already is replaced, a weight of zero removes it. -/
def add (t : ItemTable α R) (item : α) (weight : R) : Except Fault (ItemTable α R) :=
  if ¬ 0 ≤ weight then .error (.badWeight (Scalar.text weight))
  else
    match t.index item with
    | some i => (if weight ≤ 0 then t.removeAt i else t.replaceAt i item weight).map rebuild
    | none =>
      if weight ≤ 0 then .ok t
      else
        .ok { t with
          items := t.items.push item
          weights := t.weights.push weight
          starts := t.starts.push t.total
          index := fun a => if a == item then some t.items.size else t.index a
          total := t.total + weight }

/-- The weight of an item, zero if it is not there. -/
def weight (t : ItemTable α R) (item : α) : Except Fault R :=
  match t.index item with
  | some i => Indexed.read t.weights i
  | none => .ok 0

end ItemTable

section

variable {α : Type}

theorem getElem?_removeSwap {xs : List α} {i : Nat} (hi : i < xs.length) (j : Nat) :
    (WeightedSampler.removeSwap xs i)[j]? =
      if j + 1 < xs.length then if j = i then xs.getLast? else xs[j]? else none := by
  rcases List.eq_nil_or_concat xs with rfl | ⟨ys, last, rfl⟩
  · exact absurd hi (Nat.not_lt_zero i)
  · rw [List.concat_eq_append] at hi ⊢
    unfold WeightedSampler.removeSwap
    rw [List.getLast?_concat]
    simp only [List.dropLast_concat, List.length_append, List.length_singleton] at hi ⊢
    split
    next he => grind
    next hne => grind

theorem Indexed.swapRemove_ok {xs : Array α} {i : Nat} {x : α} (h : xs[i]? = some x) :
    ∃ ys, swapRemove xs i = .ok (x, ys) ∧ ys.toList = WeightedSampler.removeSwap xs.toList i := by
  obtain ⟨hi, rfl⟩ := Array.getElem?_eq_some_iff.mp h
  have hend : xs.size - 1 < xs.size := by omega
  have hlast : xs[xs.size - 1]? = some xs[xs.size - 1] := Array.getElem?_eq_getElem hend
  refine ⟨(xs.setIfInBounds i xs[xs.size - 1]).pop, ?_, ?_⟩
  · unfold swapRemove
    rw [read_ok h, ok_bind, read_ok hlast, ok_bind, write_ok hi]
    rfl
  · refine List.ext_getElem? fun j => ?_
    rw [getElem?_removeSwap (by simpa using hi)]
    grind

variable [BEq α]

/-- No two items count as one. -/
def Distinct (xs : List α) : Prop := xs.Pairwise fun a b => (a == b) = false

/-- What counts as an item stands at a place of a row. -/
def StandsAt (xs : List α) (i : Nat) (a : α) : Prop := ∃ x, xs[i]? = some x ∧ (x == a) = true

theorem standsAt_lt {xs : List α} {i : Nat} {a : α} (h : StandsAt xs i a) : i < xs.length := by
  obtain ⟨x, hx, -⟩ := h
  exact (List.getElem?_eq_some_iff.mp hx).1

theorem standsAt_removeSwap {xs : List α} {i : Nat} (hi : i < xs.length) {j : Nat} {a : α} :
    StandsAt (WeightedSampler.removeSwap xs i) j a ↔
      j + 1 < xs.length ∧ StandsAt xs (if j = i then xs.length - 1 else j) a := by
  unfold StandsAt
  rw [getElem?_removeSwap hi]
  split
  next hj =>
    rw [and_iff_right hj]
    split
    next => rw [List.getLast?_eq_getElem?]
    next => rfl
  next hj => exact iff_of_false (fun h => nomatch h) fun h => hj h.1

theorem Distinct.push {xs : List α} (h : Distinct xs) {item : α}
    (hn : xs.findIdx? (· == item) = none) : Distinct (xs ++ [item]) := by
  rw [List.findIdx?_eq_none_iff] at hn
  refine List.pairwise_append.mpr ⟨h, List.pairwise_singleton .., fun x hx y hy => ?_⟩
  rw [List.mem_singleton.mp hy]
  exact hn x hx

variable [EquivBEq α] {xs : List α}

/-- Among distinct items what counts as one of them is found where that one stands. -/
theorem Distinct.findIdx?_eq_some_iff (h : Distinct xs) {a : α} {i : Nat} :
    xs.findIdx? (· == a) = some i ↔ StandsAt xs i a := by
  rw [List.findIdx?_eq_some_iff_getElem]
  constructor
  · rintro ⟨hi, hx, -⟩
    exact ⟨xs[i], List.getElem?_eq_getElem hi, hx⟩
  · rintro ⟨x, hx, ha⟩
    obtain ⟨hi, rfl⟩ := List.getElem?_eq_some_iff.mp hx
    refine ⟨hi, ha, fun j hj hja => ?_⟩
    have hne := List.pairwise_iff_getElem.mp h j i (by omega) hi hj
    rw [BEq.trans hja (BEq.symm ha)] at hne
    cases hne

theorem distinct_iff :
    Distinct xs ↔ ∀ {i j : Nat} {a : α}, StandsAt xs i a → StandsAt xs j a → i = j := by
  constructor
  · intro h i j a hi hj
    rw [← h.findIdx?_eq_some_iff] at hi hj
    exact Option.some.inj (hi.symm.trans hj)
  · intro h
    refine List.pairwise_iff_getElem.mpr fun i j hi hj hlt => ?_
    by_contra hxy
    have hsame : (xs[i] == xs[j]) = true := Bool.not_eq_false _ ▸ hxy
    have hij := h ⟨xs[i], List.getElem?_eq_getElem hi, hsame⟩
      ⟨xs[j], List.getElem?_eq_getElem hj, BEq.rfl⟩
    omega

theorem Distinct.removeSwap (h : Distinct xs) {i : Nat} (hi : i < xs.length) :
    Distinct (WeightedSampler.removeSwap xs i) := by
  refine distinct_iff.mpr fun {j k a} hj hk => ?_
  rw [standsAt_removeSwap hi] at hj hk
  -- The last item stands at the place of the removed one, and not at its own any more.
  have hsame := distinct_iff.mp h hj.2 hk.2
  grind

/-- The last item that takes the place of a removed one is found there, the removed one nowhere, and
all others where they were. -/
theorem Distinct.findIdx?_removeSwap (h : Distinct xs) {i : Nat} {removed : α}
    (hi : xs[i]? = some removed) (a : α) :
    (WeightedSampler.removeSwap xs i).findIdx? (· == a) =
      if (WeightedSampler.removeSwap xs i)[i]?.any (a == ·) then some i
      else if a == removed then none else xs.findIdx? (· == a) := by
  have hlt : i < xs.length := (List.getElem?_eq_some_iff.mp hi).1
  have hmoved : (WeightedSampler.removeSwap xs i)[i]?.any (a == ·) = true ↔
      StandsAt (WeightedSampler.removeSwap xs i) i a := by
    rw [Option.any_eq_true]
    exact exists_congr fun x => and_congr_right fun _ => by rw [BEq.comm]
  refine Option.ext fun j => ?_
  rw [(h.removeSwap hlt).findIdx?_eq_some_iff]
  split
  next hm =>
    have hm := hmoved.mp hm
    constructor
    · intro hj
      rw [distinct_iff.mp (h.removeSwap hlt) hj hm]
    · rintro ⟨rfl⟩
      exact hm
  next hm =>
    have hm : ¬ StandsAt (WeightedSampler.removeSwap xs i) i a := fun hs => hm (hmoved.mpr hs)
    rw [standsAt_removeSwap hlt] at hm ⊢
    by_cases ha : (a == removed) = true
    · have hhere : StandsAt xs i a := ⟨removed, hi, BEq.symm ha⟩
      rw [if_pos ha]
      refine iff_of_false (fun hj => ?_) nofun
      have hsame := distinct_iff.mp h hj.2 hhere
      grind
    · have hnot : ¬ StandsAt xs i a := by
        rintro ⟨x, hx, hxa⟩
        rw [hi] at hx
        cases hx
        exact ha (BEq.symm hxa)
      have hbound : StandsAt xs j a → j < xs.length := standsAt_lt
      rw [if_neg ha, h.findIdx?_eq_some_iff]
      grind

theorem standsAt_set {i : Nat} {old item : α} (hi : xs[i]? = some old)
    (he : (old == item) = true) {j : Nat} {a : α} :
    StandsAt (xs.set i item) j a ↔ StandsAt xs j a := by
  obtain ⟨hlt, -⟩ := List.getElem?_eq_some_iff.mp hi
  unfold StandsAt
  rw [List.getElem?_set]
  split
  next hij =>
    subst hij
    rw [hi]
    simp only [Option.some.injEq, exists_eq_left']
    rw [BEq.congr_left he]
  next => rfl

theorem Distinct.set (h : Distinct xs) {i : Nat} {old item : α} (hi : xs[i]? = some old)
    (he : (old == item) = true) : Distinct (xs.set i item) := by
  refine distinct_iff.mpr fun hj hk => ?_
  rw [standsAt_set hi he] at hj hk
  exact distinct_iff.mp h hj hk

/-- An item that is replaced by one that counts as it leaves all items where they were. -/
theorem Distinct.findIdx?_set (h : Distinct xs) {i : Nat} {old item : α} (hi : xs[i]? = some old)
    (he : (old == item) = true) (a : α) :
    (xs.set i item).findIdx? (· == a) = xs.findIdx? (· == a) := by
  refine Option.ext fun j => ?_
  rw [(h.set hi he).findIdx?_eq_some_iff, h.findIdx?_eq_some_iff, standsAt_set hi he]

theorem findIdx?_push {item : α} (hn : xs.findIdx? (· == item) = none) (a : α) :
    (xs ++ [item]).findIdx? (· == a) =
      if a == item then some xs.length else xs.findIdx? (· == a) := by
  rw [List.findIdx?_eq_none_iff] at hn
  rw [List.findIdx?_append, BEq.comm (a := a)]
  by_cases ha : (item == a) = true
  · have hnone : xs.findIdx? (· == a) = none := by
      refine List.findIdx?_eq_none_iff.mpr fun x hx => ?_
      rw [BEq.comm, ← BEq.congr_left ha, BEq.comm]
      exact hn x hx
    rw [hnone, if_pos ha]
    simp [ha]
  · simp [ha]

end

namespace ItemTable

open WeightedSampler

section

variable {α R γ : Type}

/-- A table shows a sampler: its arrays are the columns of the buckets, no two items count as one,
and each item is found where it stands. -/
structure Shows [BEq α] (t : ItemTable α R) (s : WeightedSampler α R) : Prop where
  items : t.items.toList = s.items
  weights : t.weights.toList = s.buckets.map (·.weight)
  starts : t.starts.toList = s.buckets.map (·.start)
  distinct : Distinct s.items
  index : ∀ a, t.index a = s.items.findIdx? (· == a)
  total : t.total = s.total
  closed : t.closed = s.closed

theorem items_of_toList (s : WeightedSampler α R) : s.toList.map Prod.fst = s.items := by
  simp [toList, WeightedSampler.items]

theorem weights_of_toList (s : WeightedSampler α R) :
    s.toList.map Prod.snd = s.buckets.map (·.weight) := by
  simp [toList]

section

variable [BEq α] {t : ItemTable α R} {s : WeightedSampler α R} (h : t.Shows s)

include h

theorem Shows.index_eq (item : α) : t.index item = s.buckets.findIdx? (·.item == item) := by
  rw [h.index, WeightedSampler.items, List.findIdx?_map]
  rfl

variable {i : Nat} {b : Bucket α R} (hb : s.buckets[i]? = some b)

include hb

theorem Shows.item_at : t.items[i]? = some b.item := by
  rw [← Array.getElem?_toList, h.items, WeightedSampler.items, List.getElem?_map, hb]
  rfl

theorem Shows.weight_at : t.weights[i]? = some b.weight := by
  rw [← Array.getElem?_toList, h.weights, List.getElem?_map, hb]
  rfl

theorem Shows.start_at : t.starts[i]? = some b.start := by
  rw [← Array.getElem?_toList, h.starts, List.getElem?_map, hb]
  rfl

end

variable [Scalar R]

/-- Buckets are lined up over the weights alone. -/
theorem foldl_starts (es : List (α × R)) (starts : Array R) (start : R) :
    let x := (es.map Prod.snd).foldl
      (fun (starts, total) weight => (starts.push total, total + weight)) (starts, start)
    x.1.toList = starts.toList ++ (lineUp start es).1.map (·.start) ∧
      x.2 = (lineUp start es).2 := by
  induction es generalizing starts start with
  | nil => simp [lineUp]
  | cons e es ih =>
    obtain ⟨hstarts, htotal⟩ := ih (starts.push start) (start + e.2)
    refine ⟨?_, htotal⟩
    simp only [List.map_cons, List.foldl_cons, hstarts, lineUp, Array.toList_push]
    rw [List.append_assoc]
    rfl

variable [BEq α] {t : ItemTable α R} {s : WeightedSampler α R}

theorem shows_empty : (empty : ItemTable α R).Shows .empty :=
  ⟨rfl, rfl, rfl, .nil, fun _ => rfl, rfl, rfl⟩

theorem Shows.close (h : t.Shows s) : t.close.Shows s.close := by
  refine ⟨h.items, h.weights, h.starts, h.distinct, h.index, h.total, ?_⟩
  rw [ItemTable.close, WeightedSampler.close, h.total]

theorem Shows.weight (h : t.Shows s) (item : α) : t.weight item = .ok (s.weight item) := by
  unfold ItemTable.weight WeightedSampler.weight
  rw [h.index_eq]
  cases hi : s.buckets.findIdx? (·.item == item) with
  | none =>
    have hnone : s.buckets.find? (·.item == item) = none := by
      rw [List.findIdx?_eq_none_iff] at hi
      exact List.find?_eq_none.mpr fun b hb => by simp [hi b hb]
    rw [hnone]
    rfl
  | some i =>
    obtain ⟨hlt, hitem, hfirst⟩ := List.findIdx?_eq_some_iff_getElem.mp hi
    have hfind : s.buckets.find? (·.item == item) = some s.buckets[i] :=
      List.find?_eq_some_iff_getElem.mpr ⟨hitem, i, hlt, rfl, fun j hj => by simp [hfirst j hj]⟩
    rw [hfind]
    exact Indexed.read_ok (h.weight_at (List.getElem?_eq_getElem hlt))

/-- The bucket whose start is the last one not above a draw is the same in both. -/
theorem Shows.locate (h : t.Shows s) (draw : R) : t.locate draw = .ok (s.locate draw) := by
  unfold ItemTable.locate WeightedSampler.locate
  let below := s.buckets.takeWhile fun b => decide (b.start ≤ draw)
  have hrow : ((s.buckets.map (·.start)).takeWhile fun start => decide (start ≤ draw)) =
      below.map (·.start) := List.takeWhile_map
  have hlast : (s.buckets.takeWhile fun b => decide (b.start ≤ draw)).getLast? =
      below[below.length - 1]? := List.getLast?_eq_getElem?
  rw [h.total, h.starts, hrow, List.length_map, hlast]
  split
  next => rfl
  next =>
    have hbelow : below <+: s.buckets := List.takeWhile_prefix _
    cases hn : below.length with
    | zero =>
      rw [List.length_eq_zero_iff.mp hn]
      rfl
    | succ i =>
      have hlt : i < below.length := by omega
      have hb : s.buckets[i]? = some below[i] := List.prefix_iff_getElem?.mp hbelow i hlt
      rw [Nat.add_sub_cancel, List.getElem?_eq_getElem hlt]
      simp only
      rw [Indexed.read_ok (h.start_at hb), ok_bind, Indexed.read_ok (h.weight_at hb), ok_bind]
      split
      next => rw [Indexed.read_ok (h.item_at hb), ok_bind]
      next => rfl

theorem Shows.sample [Generator R γ] (h : t.Shows s) (g : γ) : t.sample g = .ok (s.sample g) := by
  have hempty : t.items.isEmpty = s.isEmpty := by
    rw [← Array.isEmpty_toList, h.items, WeightedSampler.items, List.isEmpty_map]
    rfl
  have hrange : t.drawRange = s.drawRange := by
    rw [ItemTable.drawRange, WeightedSampler.drawRange, h.closed, h.total]
  unfold ItemTable.sample WeightedSampler.sample
  rw [hempty]
  split
  next => rfl
  next =>
    simp only
    rw [hrange, h.locate, ok_bind]

/-- Arrays that show the items and the weights show the sampler once the starts are computed
anew. -/
theorem shows_rebuild {es : List (α × R)} (hitems : t.items.toList = es.map Prod.fst)
    (hweights : t.weights.toList = es.map Prod.snd) (hd : Distinct (es.map Prod.fst))
    (hindex : ∀ a, t.index a = (es.map Prod.fst).findIdx? (· == a))
    (hclosed : t.closed = s.closed) : t.rebuild.Shows (s.rebuild es) := by
  have hrows := items_rebuild s es
  have hcolumn := weights_of_toList (s.rebuild es)
  obtain ⟨hstarts, htotal⟩ := foldl_starts es #[] 0
  rw [toList_rebuild] at hcolumn
  have hfold : t.rebuild = { t with
      starts := ((es.map Prod.snd).foldl
        (fun (starts, total) weight => (starts.push total, total + weight)) (#[], 0)).1
      total := ((es.map Prod.snd).foldl
        (fun (starts, total) weight => (starts.push total, total + weight)) (#[], 0)).2 } := by
    rw [← hweights, Array.foldl_toList]
    rfl
  rw [hfold]
  refine ⟨hitems.trans hrows.symm, hweights.trans hcolumn, hstarts, hrows.symm ▸ hd, ?_, htotal,
    hclosed⟩
  intro a
  rw [hrows]
  exact hindex a

variable [EquivBEq α] {i : Nat} {b : Bucket α R} {item : α} {weight : R}

theorem Shows.removeAt (h : t.Shows s) (hb : s.buckets[i]? = some b) :
    ∃ t', t.removeAt i = .ok t' ∧ t'.rebuild.Shows (s.rebuild (removeSwap s.toList i)) := by
  obtain ⟨items, hitems, hlist⟩ := Indexed.swapRemove_ok (h.item_at hb)
  obtain ⟨weights, hweights, hcolumn⟩ := Indexed.swapRemove_ok (h.weight_at hb)
  have hitem : s.items[i]? = some b.item := by
    rw [← h.items, Array.getElem?_toList, h.item_at hb]
  have hrow : (removeSwap s.toList i).map Prod.fst = removeSwap s.items i := by
    rw [← removeSwap_map, items_of_toList]
  rw [h.items] at hlist
  rw [h.weights, ← weights_of_toList, removeSwap_map] at hcolumn
  have hlt : i < s.items.length := (List.getElem?_eq_some_iff.mp hitem).1
  have hindex (a : α) := h.distinct.findIdx?_removeSwap hitem a
  have hdistinct := hrow.symm ▸ h.distinct.removeSwap hlt
  rw [← hlist] at hindex
  unfold ItemTable.removeAt
  rw [hitems, ok_bind]
  simp only
  rw [hweights, ok_bind]
  simp only
  split
  next hi =>
    -- The last item has come to the place of the removed one, so that it is found there.
    have hmoved : items[i]? = some items[i] := Array.getElem?_eq_getElem hi
    rw [Indexed.read_ok hmoved, ok_bind]
    refine ⟨_, rfl, shows_rebuild (hlist.trans hrow.symm) hcolumn hdistinct (fun a => ?_) h.closed⟩
    rw [hrow, ← hlist, hindex, Array.getElem?_toList, hmoved, Option.any_some, ← h.index]
  next hi =>
    refine ⟨_, rfl, shows_rebuild (hlist.trans hrow.symm) hcolumn hdistinct (fun a => ?_) h.closed⟩
    rw [hrow, ← hlist, hindex, Array.getElem?_toList, Array.getElem?_eq_none (Nat.le_of_not_lt hi),
      Option.any_none, ← h.index]
    exact (if_neg Bool.false_ne_true).symm

theorem Shows.replaceAt (h : t.Shows s) (hb : s.buckets[i]? = some b)
    (he : (b.item == item) = true) (weight : R) :
    ∃ t', t.replaceAt i item weight = .ok t' ∧
      t'.rebuild.Shows (s.rebuild (s.toList.set i (item, weight))) := by
  have hitem : s.items[i]? = some b.item := by
    rw [← h.items, Array.getElem?_toList, h.item_at hb]
  have hrow : (s.toList.set i (item, weight)).map Prod.fst = s.items.set i item := by
    rw [List.map_set, items_of_toList]
  have hcolumn : (s.toList.set i (item, weight)).map Prod.snd = t.weights.toList.set i weight := by
    rw [List.map_set, weights_of_toList, h.weights]
  have hi : i < t.items.size := (Array.getElem?_eq_some_iff.mp (h.item_at hb)).1
  have hw : i < t.weights.size := (Array.getElem?_eq_some_iff.mp (h.weight_at hb)).1
  unfold ItemTable.replaceAt
  rw [Indexed.write_ok hw, ok_bind, Indexed.write_ok hi, ok_bind]
  refine ⟨_, rfl, shows_rebuild ?_ ?_ (hrow.symm ▸ h.distinct.set hitem he) (fun a => ?_) h.closed⟩
  · rw [hrow, ← h.items, Array.toList_setIfInBounds]
  · rw [hcolumn, Array.toList_setIfInBounds]
  · rw [hrow, h.distinct.findIdx?_set hitem he]
    exact h.index a

theorem Shows.push (h : t.Shows s) (hn : t.index item = none) :
    Shows { t with
        items := t.items.push item
        weights := t.weights.push weight
        starts := t.starts.push t.total
        index := fun a => if a == item then some t.items.size else t.index a
        total := t.total + weight }
      { s with
        buckets := s.buckets ++ [⟨item, weight, s.total⟩]
        total := s.total + weight } := by
  rw [h.index] at hn
  have hrow : WeightedSampler.items { s with
      buckets := s.buckets ++ [⟨item, weight, s.total⟩]
      total := s.total + weight } = s.items ++ [item] := List.map_append
  have hsize : t.items.size = s.items.length := by
    rw [← h.items, Array.length_toList]
  refine ⟨?_, ?_, ?_, hrow ▸ h.distinct.push hn, fun a => ?_, ?_, h.closed⟩
  · rw [hrow, Array.toList_push, h.items]
  · rw [Array.toList_push, h.weights, List.map_append]
    rfl
  · rw [Array.toList_push, h.starts, List.map_append, h.total]
    rfl
  · rw [hrow, findIdx?_push hn, ← hsize, ← h.index]
  · rw [h.total]

/-- To add an item to the arrays is to add it to the buckets, with the same refusal. -/
theorem Shows.add (h : t.Shows s) (item : α) (weight : R) :
    Agree Shows (t.add item weight) (s.add item weight) := by
  unfold ItemTable.add WeightedSampler.add
  rw [← h.index_eq]
  split
  next => exact .error nofun
  next =>
    cases hi : t.index item with
    | none =>
      simp only
      split
      next => exact .ok h
      next => exact .ok (h.push hi)
    | some i =>
      obtain ⟨hlt, hitem, -⟩ := List.findIdx?_eq_some_iff_getElem.mp (h.index_eq item ▸ hi)
      have hb : s.buckets[i]? = some s.buckets[i] := List.getElem?_eq_getElem hlt
      simp only
      split
      next =>
        obtain ⟨t', ht, hshows⟩ := h.removeAt hb
        rw [ht]
        exact .ok hshows
      next =>
        obtain ⟨t', ht, hshows⟩ := h.replaceAt hb hitem weight
        rw [ht]
        exact .ok hshows

/-- A table after the same calls as a sampler. -/
def apply (t : ItemTable α R) : Call α R → Except Fault (ItemTable α R)
  | .add item weight => t.add item weight
  | .close => .ok t.close

def run (t : ItemTable α R) (calls : List (Call α R)) : Except Fault (ItemTable α R) :=
  calls.foldlM apply t

/-- The arrays go along with the buckets through all calls: none is read or written outside. -/
theorem Shows.run (h : t.Shows s) (calls : List (Call α R)) :
    Agree Shows (t.run calls) (s.run calls) := by
  refine Agree.foldlM h fun c _ t s h => ?_
  cases c with
  | add item weight => exact h.add item weight
  | close => exact .ok h.close

/-- The table has what is looked up in a sampler. -/
structure Answers (t : ItemTable α R) (s : WeightedSampler α R) : Prop where
  weight : ∀ item, t.weight item = .ok (s.weight item)
  sample : ∀ {γ : Type} [Generator R γ] (g : γ), t.sample g = .ok (s.sample g)
  add : ∀ item weight i size, t.add item weight ≠ .error (.outOfBounds i size)

theorem Shows.answers (h : t.Shows s) : t.Answers s := by
  refine ⟨h.weight, h.sample, fun item weight i size he => ?_⟩
  have hagree := h.add item weight
  generalize hs : s.add item weight = added at hagree
  rw [he] at hagree
  cases hagree
  unfold WeightedSampler.add at hs
  split at hs
  next => exact nomatch hs
  next =>
    split at hs
    next => exact nomatch hs
    next => split at hs <;> exact nomatch hs

/-- The calls that have made a sampler make a table that answers as it does. -/
theorem exists_answers (h : s.Made) :
    ∃ calls t, WeightedSampler.run .empty calls = .ok s ∧ run .empty calls = .ok t ∧
      t.Answers s := by
  obtain ⟨calls, hcalls⟩ := h
  have hagree := (shows_empty (α := α) (R := R)).run calls
  rw [hcalls] at hagree
  obtain ⟨t, ht, hshows⟩ := hagree.eq_ok
  exact ⟨calls, t, hcalls, ht, hshows.answers⟩

end

end ItemTable

end ParticleAutomaton
