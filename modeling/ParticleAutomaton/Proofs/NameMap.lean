import ParticleAutomaton.Text.NameMap

namespace ParticleAutomaton

theorem lookup_cons_ne {κ α : Type} [BEq κ] [LawfulBEq κ] {k n : κ} (h : k ≠ n) (v : α)
    (es : List (κ × α)) : ((n, v) :: es).lookup k = es.lookup k := by
  rw [List.lookup_cons, beq_false_of_ne h]

namespace NameMap

variable {α : Type}

theorem get?_empty (name : String) : (empty : NameMap α).get? name = none := rfl

theorem lookup_insertEntry (name other : String) (v : α) (es : List (String × α)) :
    (insertEntry name v es).lookup other = if other = name then some v else es.lookup other := by
  induction es with
  | nil =>
    by_cases h : other = name
    · simp [insertEntry, h]
    · simp [insertEntry, h]
  | cons e rest ih =>
    obtain ⟨n, w⟩ := e
    unfold insertEntry
    split
    next he =>
      subst he
      by_cases h : other = n
      · simp [h]
      · rw [lookup_cons_ne h, lookup_cons_ne h, if_neg h]
    next hne =>
      split
      next =>
        by_cases h : other = name
        · simp [h]
        · rw [lookup_cons_ne h, if_neg h]
      next =>
        by_cases h : other = n
        · subst h
          simp [hne]
        · rw [lookup_cons_ne h, lookup_cons_ne h, ih]

theorem get?_insert (m : NameMap α) (name other : String) (v : α) :
    (m.insert name v).get? other = if other = name then some v else m.get? other :=
  lookup_insertEntry name other v m.entries

theorem lookup_filter_ne (name other : String) (es : List (String × α)) :
    (es.filter fun e => e.1 ≠ name).lookup other =
      if other = name then none else es.lookup other := by
  induction es with
  | nil => simp
  | cons e rest ih =>
    obtain ⟨n, w⟩ := e
    by_cases hn : n = name
    · subst hn
      rw [List.filter_cons_of_neg (by simp), ih]
      by_cases h : other = n
      · simp [h]
      · rw [lookup_cons_ne h]
    · rw [List.filter_cons_of_pos (by simpa using hn)]
      by_cases h : other = n
      · subst h
        simp [hn]
      · rw [lookup_cons_ne h, lookup_cons_ne h, ih]

theorem get?_erase (m : NameMap α) (name other : String) :
    (m.erase name).get? other = if other = name then none else m.get? other :=
  lookup_filter_ne name other m.entries

theorem lookup_eq_some_of_mem {es : List (String × α)} {name : String} {v : α}
    (hs : es.Pairwise fun a b => Text.before a.1 b.1 = true) (h : (name, v) ∈ es) :
    es.lookup name = some v := by
  induction es with
  | nil => simp at h
  | cons e rest ih =>
    obtain ⟨n, w⟩ := e
    obtain ⟨hn, hr⟩ := List.pairwise_cons.mp hs
    rcases List.mem_cons.mp h with he | hm
    · simp [← he]
    · have hb := hn (name, v) hm
      have hne : name ≠ n := by
        intro he
        rw [he, Text.before_irrefl] at hb
        exact Bool.noConfusion hb
      rw [lookup_cons_ne hne]
      exact ih hr hm

theorem mem_entries_iff (m : NameMap α) {name : String} {v : α} :
    (name, v) ∈ m.entries ↔ m.get? name = some v := by
  constructor
  · exact lookup_eq_some_of_mem m.sorted
  · intro h
    obtain ⟨front, back, he, -⟩ := List.lookup_eq_some_iff.mp h
    rw [he]
    simp

theorem nodup_entries (m : NameMap α) : m.entries.Nodup := by
  refine m.sorted.imp fun {a b} hb he => ?_
  rw [he, Text.before_irrefl] at hb
  exact Bool.noConfusion hb

theorem insertEntry_last {es : List (String × α)} {name : String} {v : α}
    (h : ∀ e ∈ es, Text.before e.1 name = true) :
    insertEntry name v es = es ++ [(name, v)] := by
  induction es with
  | nil => rfl
  | cons e rest ih =>
    obtain ⟨n, w⟩ := e
    obtain ⟨hn, hr⟩ := List.forall_mem_cons.mp h
    have hne : n ≠ name := by
      rintro rfl
      exact Bool.noConfusion ((Text.before_irrefl n).symm.trans hn)
    have hb : ¬Text.before name n = true := by
      intro hb
      exact Bool.noConfusion ((Text.before_irrefl n).symm.trans (Text.before_trans hn hb))
    rw [insertEntry, if_neg hne, if_neg hb, ih hr, List.cons_append]

theorem entries_foldl_insert (m : NameMap α) {es : List (String × α)}
    (h : (m.entries ++ es).Pairwise fun a b => Text.before a.1 b.1 = true) :
    (es.foldl (fun m (name, v) => m.insert name v) m).entries = m.entries ++ es := by
  induction es generalizing m with
  | nil => simp
  | cons e rest ih =>
    have hs : (m.insert e.1 e.2).entries = m.entries ++ [e] :=
      insertEntry_last fun a ha => (List.pairwise_append.mp h).2.2 a ha e (by simp)
    rw [List.foldl_cons, ih (m.insert e.1 e.2) (by simpa [hs] using h), hs]
    simp

theorem ofList_entries (m : NameMap α) : ofList m.entries = m := by
  have he : (ofList m.entries).entries = m.entries :=
    entries_foldl_insert empty (by simpa [empty] using m.sorted)
  cases hm : ofList m.entries with
  | mk es hs =>
    rw [hm] at he
    cases m
    simp_all

end NameMap

end ParticleAutomaton
