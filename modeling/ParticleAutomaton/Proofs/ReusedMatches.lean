import ParticleAutomaton.Rules.Match

namespace ParticleAutomaton

/-- What can be asked of a match. -/
inductive MatchCall
  | bindSource (name : String)
  | bindTarget (name : String)
  | unbindTarget
  | unbind
  | mayMatch (name : String)
  | expand (template : Template)

/-- The calls that bind a source and then a target, as far as they are given. -/
def MatchCall.binds (source target : Option String) : List MatchCall :=
  (source.map bindSource).toList ++ (target.map bindTarget).toList

/-- What a match tells. -/
inductive MatchReply
  | done
  | flag (b : Bool)
  | text (s : String)
  | refused (f : Fault)

namespace MatchReply

variable {σ : Type}

/-- A try to bind a name; one that breaks a promise changes nothing. -/
def ofTry (state : σ) : Except Fault (Bool × σ) → MatchReply × σ
  | .ok (b, next) => (.flag b, next)
  | .error f => (.refused f, state)

def ofText : Except Fault String → MatchReply
  | .ok s => .text s
  | .error f => .refused f

/-- The call had no effect: a name was not bound, or a promise was broken. -/
def isIdle : MatchReply → Bool
  | .flag b => !b
  | .refused _ => true
  | .done | .text _ => false

end MatchReply

variable {R : Type}

namespace NameMatch

def call (m : NameMatch R) : MatchCall → MatchReply × NameMatch R
  | .bindSource name => MatchReply.ofTry m (m.bindSource name)
  | .bindTarget name => MatchReply.ofTry m (m.bindTarget name)
  | .unbindTarget => (.done, m.unbindTarget)
  | .unbind => (.done, m.unbind)
  | .mayMatch name => (.flag (m.rule.mayMatch name), m)
  | .expand template => (.ofText (m.expand template), m)

/-- A match after calls in a row. -/
def after (m : NameMatch R) (cs : List MatchCall) : NameMatch R :=
  cs.foldl (fun m c => (m.call c).2) m

theorem name_of_sourceSlot {rule : DirectedRule R} {name : String} {s : SourceSlot}
    (h : sourceSlot? rule name = some s) : s.name = name := by
  unfold sourceSlot? at h
  split at h
  next => exact nomatch h
  next =>
    obtain ⟨p, -, h⟩ := Option.bind_eq_some_iff.mp h
    obtain ⟨groups, -, h⟩ := Option.bind_eq_some_iff.mp h
    cases h
    rfl

theorem name_of_targetSlot {s : SourceSlot} {name : String} {t : TargetSlot}
    (h : targetSlot? s name = some t) : t.name = name := by
  obtain ⟨p, -, h⟩ := Option.bind_eq_some_iff.mp h
  obtain ⟨groups, -, h⟩ := Option.bind_eq_some_iff.mp h
  cases h
  rfl

/-- The slots are what the names in them make of a rule. -/
inductive Standing (rule : DirectedRule R) : Slots → Prop
  | free : Standing rule .free
  | source {s : SourceSlot} (hs : sourceSlot? rule s.name = some s) : Standing rule (.source s)
  | both {s : SourceSlot} {t : TargetSlot} (hs : sourceSlot? rule s.name = some s)
      (ht : targetSlot? s t.name = some t) : Standing rule (.both s t)

variable {rule : DirectedRule R}

theorem rule_call (m : NameMatch R) (c : MatchCall) : (m.call c).2.rule = m.rule := by
  cases c with
  | bindSource name =>
    simp only [call, bindSource]
    cases m.slots with
    | free =>
      simp only
      cases sourceSlot? m.rule name <;> rfl
    | source s => rfl
    | both s t => rfl
  | bindTarget name =>
    simp only [call, bindTarget]
    cases m.slots with
    | free => rfl
    | source s =>
      simp only
      cases targetSlot? s name <;> rfl
    | both s t => rfl
  | unbindTarget =>
    simp only [call, unbindTarget]
    cases m.slots <;> rfl
  | unbind => rfl
  | mayMatch name => rfl
  | expand template => rfl

theorem rule_after (m : NameMatch R) (cs : List MatchCall) : (m.after cs).rule = m.rule := by
  induction cs generalizing m with
  | nil => rfl
  | cons c cs ih => exact (ih _).trans (rule_call m c)

/-- A call without effect leaves the match as it was. -/
theorem call_idle {m : NameMatch R} {c : MatchCall} (h : (m.call c).1.isIdle = true) :
    (m.call c).2 = m := by
  cases c with
  | bindSource name =>
    simp only [call, bindSource] at h ⊢
    cases hslots : m.slots with
    | free =>
      rw [hslots] at h
      simp only at h ⊢
      cases hs : sourceSlot? m.rule name with
      | none => rfl
      | some s =>
        rw [hs] at h
        exact nomatch h
    | source s => rfl
    | both s t => rfl
  | bindTarget name =>
    simp only [call, bindTarget] at h ⊢
    cases hslots : m.slots with
    | free => rfl
    | source s =>
      rw [hslots] at h
      simp only at h ⊢
      cases ht : targetSlot? s name with
      | none => rfl
      | some t =>
        rw [ht] at h
        exact nomatch h
    | both s t => rfl
  | unbindTarget => exact nomatch h
  | unbind => exact nomatch h
  | mayMatch name => rfl
  | expand template => rfl

/-- No call leaves anything in the slots but what the names in them make of the rule. -/
theorem standing_call {m : NameMatch R} (h : Standing m.rule m.slots) (c : MatchCall) :
    Standing m.rule (m.call c).2.slots := by
  obtain ⟨rule, slots⟩ := m
  cases c with
  | bindSource name =>
    cases h with
    | free =>
      simp only [call, bindSource]
      cases hs : sourceSlot? rule name with
      | none => exact .free
      | some s => exact .source (name_of_sourceSlot hs ▸ hs)
    | source hs => exact .source hs
    | both hs ht => exact .both hs ht
  | bindTarget name =>
    cases h with
    | free => exact .free
    | @source s hs =>
      simp only [call, bindTarget]
      cases ht : targetSlot? s name with
      | none => exact .source hs
      | some t => exact .both hs (name_of_targetSlot ht ▸ ht)
    | both hs ht => exact .both hs ht
  | unbindTarget =>
    cases h with
    | free => exact .free
    | source hs => exact .source hs
    | both hs ht => exact .source hs
  | unbind => exact .free
  | mayMatch name => exact h
  | expand template => exact h

theorem standing_after {m : NameMatch R} (h : Standing m.rule m.slots) (cs : List MatchCall) :
    Standing m.rule (m.after cs).slots := by
  induction cs generalizing m with
  | nil => exact h
  | cons c cs ih =>
    have hnext := standing_call h c
    rw [← rule_call m c] at hnext ⊢
    exact ih hnext

theorem call_bindSource {name : String} {s : SourceSlot} (hs : sourceSlot? rule name = some s) :
    (new rule).call (.bindSource name) = (.flag true, ⟨rule, .source s⟩) := by
  simp only [call, new, bindSource, hs, MatchReply.ofTry]

theorem call_bindTarget {s : SourceSlot} {name : String} {t : TargetSlot}
    (ht : targetSlot? s name = some t) :
    call ⟨rule, .source s⟩ (.bindTarget name) = (.flag true, ⟨rule, .both s t⟩) := by
  simp only [call, bindTarget, ht, MatchReply.ofTry]

/-- A match is what the names in it make of a new one. -/
theorem after_binds {m : NameMatch R} (h : Standing m.rule m.slots) :
    (new m.rule).after (MatchCall.binds m.sourceName? m.targetName?) = m := by
  obtain ⟨rule, slots⟩ := m
  cases h with
  | free => rfl
  | source hs => exact congrArg Prod.snd (call_bindSource hs)
  | @both s t hs ht =>
    show (((new rule).call (.bindSource s.name)).2.call (.bindTarget t.name)).2 = _
    rw [call_bindSource hs, call_bindTarget ht]

end NameMatch

/-- A match as one record that is written over in place. The captured texts of both names stand in
one list; the number of those of the source tells where those of the target start. -/
structure MatchRecord where
  source : Option String
  sourceGroups : Nat
  /-- The pattern that the source makes of the target. -/
  pattern : Option NamePattern
  target : Option String
  groups : List String

namespace MatchRecord

def blank : MatchRecord := ⟨none, 0, none, none, []⟩

def bindSource (rule : DirectedRule R) (r : MatchRecord) (name : String) :
    Except Fault (Bool × MatchRecord) :=
  match r.source with
  | some source => .error (.sourceBound source)
  | none =>
    if !rule.mayMatch name then .ok (false, r)
    else
      match rule.source.bind (·.groups? name) with
      | none => .ok (false, r)
      | some groups =>
        let text := rule.rule.target.expandPattern
          ⟨rule.topology, rule.dir, some name, none, groups⟩
        .ok (true, { r with
          source := some name, sourceGroups := groups.length, groups
          pattern := NamePattern.parse? text })

def bindTarget (r : MatchRecord) (name : String) : Except Fault (Bool × MatchRecord) :=
  if r.source.isNone then .error .targetBeforeSource
  else
    match r.target with
    | some target => .error (.targetBound target)
    | none =>
      match r.pattern.bind (·.groups? name) with
      | none => .ok (false, r)
      | some groups => .ok (true, { r with target := some name, groups := r.groups ++ groups })

def unbindTarget (r : MatchRecord) : MatchRecord :=
  { r with target := none, groups := r.groups.take r.sourceGroups }

def unbind (r : MatchRecord) : MatchRecord :=
  { r with source := none, sourceGroups := 0, pattern := none, target := none, groups := [] }

def expand (rule : DirectedRule R) (r : MatchRecord) (template : Template) : Except Fault String :=
  match r.source, r.target with
  | some source, some target =>
    .ok (template.expand ⟨rule.topology, rule.dir, some source, some target, r.groups⟩)
  | _, _ => .error .expandUnbound

def call (rule : DirectedRule R) (r : MatchRecord) : MatchCall → MatchReply × MatchRecord
  | .bindSource name => MatchReply.ofTry r (r.bindSource rule name)
  | .bindTarget name => MatchReply.ofTry r (r.bindTarget name)
  | .unbindTarget => (.done, r.unbindTarget)
  | .unbind => (.done, r.unbind)
  | .mayMatch name => (.flag (rule.mayMatch name), r)
  | .expand template => (.ofText (r.expand rule template), r)

def after (rule : DirectedRule R) (r : MatchRecord) (cs : List MatchCall) : MatchRecord :=
  cs.foldl (fun r c => (r.call rule c).2) r

/-- The record of a match. -/
def ofSlots : Slots → MatchRecord
  | .free => blank
  | .source s => ⟨some s.name, s.groups.length, s.target, none, s.groups⟩
  | .both s t => ⟨some s.name, s.groups.length, s.target, some t.name, s.groups ++ t.groups⟩

theorem bindSource_blank (rule : DirectedRule R) (name : String) :
    blank.bindSource rule name = .ok (match NameMatch.sourceSlot? rule name with
      | some s => (true, ofSlots (.source s))
      | none => (false, blank)) := by
  simp only [bindSource, blank, NameMatch.sourceSlot?]
  split
  next => rfl
  next =>
    cases rule.source with
    | none => rfl
    | some p =>
      simp only [Option.bind_some, Option.bind_eq_bind]
      cases p.groups? name <;> rfl

theorem bindTarget_ofSlots (s : SourceSlot) (name : String) :
    (ofSlots (.source s)).bindTarget name = .ok (match NameMatch.targetSlot? s name with
      | some t => (true, ofSlots (.both s t))
      | none => (false, ofSlots (.source s))) := by
  simp only [bindTarget, ofSlots, NameMatch.targetSlot?, Option.isNone_some, Bool.false_eq_true,
    if_false]
  cases s.target with
  | none => rfl
  | some p =>
    simp only [Option.bind_some, Option.bind_eq_bind]
    cases p.groups? name <;> rfl

/-- The record follows the slots: a call answers the same and leaves the record of what it
leaves. -/
theorem call_ofSlots (m : NameMatch R) (c : MatchCall) :
    (ofSlots m.slots).call m.rule c = ((m.call c).1, ofSlots (m.call c).2.slots) := by
  obtain ⟨rule, slots⟩ := m
  cases c with
  | bindSource name =>
    cases slots with
    | free =>
      show MatchReply.ofTry blank (blank.bindSource rule name) = _
      rw [bindSource_blank]
      simp only [NameMatch.call, NameMatch.bindSource]
      cases NameMatch.sourceSlot? rule name <;> rfl
    | source s => rfl
    | both s t => rfl
  | bindTarget name =>
    cases slots with
    | free => rfl
    | source s =>
      show MatchReply.ofTry (ofSlots (.source s)) ((ofSlots (.source s)).bindTarget name) = _
      rw [bindTarget_ofSlots]
      simp only [NameMatch.call, NameMatch.bindTarget]
      cases NameMatch.targetSlot? s name <;> rfl
    | both s t => rfl
  | unbindTarget =>
    cases slots with
    | free => rfl
    | source s =>
      simp only [call, unbindTarget, ofSlots, NameMatch.call, NameMatch.unbindTarget,
        List.take_length]
    | both s t =>
      simp only [call, unbindTarget, ofSlots, NameMatch.call, NameMatch.unbindTarget,
        List.take_left]
  | unbind => cases slots <;> rfl
  | mayMatch name => rfl
  | expand template => cases slots <;> rfl

theorem after_ofSlots (m : NameMatch R) (cs : List MatchCall) :
    (ofSlots m.slots).after m.rule cs = ofSlots (m.after cs).slots := by
  induction cs generalizing m with
  | nil => rfl
  | cons c cs ih =>
    show ((ofSlots m.slots).call m.rule c).2.after m.rule cs = _
    rw [call_ofSlots, ← m.rule_call c]
    exact ih _

theorem source_ofSlots (m : NameMatch R) : (ofSlots m.slots).source = m.sourceName? := by
  unfold NameMatch.sourceName?
  cases m.slots <;> rfl

theorem target_ofSlots (m : NameMatch R) : (ofSlots m.slots).target = m.targetName? := by
  unfold NameMatch.targetName?
  cases m.slots <;> rfl

end MatchRecord

namespace NameMatch

/-- After any calls a match is the one that a new match becomes when just the names that stand in it
are bound, so that it answers as that one does; and a call without effect leaves it as it was. The
same holds of a match that is one record written over in place, which answers alike. -/
theorem reused_as_fresh (rule : DirectedRule R) (cs : List MatchCall) :
    let m := (new rule).after cs
    let r := MatchRecord.blank.after rule cs
    (new rule).after (MatchCall.binds m.sourceName? m.targetName?) = m ∧
      MatchRecord.blank.after rule (MatchCall.binds r.source r.target) = r ∧
      (r.source, r.target) = (m.sourceName?, m.targetName?) ∧
      ∀ c, (r.call rule c).1 = (m.call c).1 ∧
        ((m.call c).1.isIdle = true → (m.call c).2 = m ∧ (r.call rule c).2 = r) := by
  intro m r
  have hrule : m.rule = rule := rule_after (new rule) cs
  have hfresh : (new rule).after (MatchCall.binds m.sourceName? m.targetName?) = m :=
    hrule ▸ after_binds (hrule ▸ standing_after (m := new rule) .free cs)
  have hrecord : r = .ofSlots m.slots := MatchRecord.after_ofSlots (new rule) cs
  have hsource : r.source = m.sourceName? := hrecord ▸ MatchRecord.source_ofSlots m
  have htarget : r.target = m.targetName? := hrecord ▸ MatchRecord.target_ofSlots m
  refine ⟨hfresh, ?_, Prod.ext hsource htarget, fun c => ?_⟩
  · rw [hsource, htarget, hrecord]
    exact (MatchRecord.after_ofSlots (new rule) _).trans
      (congrArg (fun n : NameMatch R => MatchRecord.ofSlots n.slots) hfresh)
  · have hcall : r.call rule c = ((m.call c).1, .ofSlots (m.call c).2.slots) := by
      rw [hrecord, ← hrule]
      exact MatchRecord.call_ofSlots m c
    refine ⟨congrArg Prod.fst hcall, fun hidle => ⟨call_idle hidle, ?_⟩⟩
    rw [hcall, call_idle hidle, hrecord]

end NameMatch

end ParticleAutomaton
