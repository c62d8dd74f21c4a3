import ParticleAutomaton.Proofs.BracketTails
import ParticleAutomaton.Regex.Parser

namespace ParticleAutomaton.Regex.Builder

variable (b : Builder)

/-- The group with a name. -/
def nameGroup? : List Char → Option Builder
  | c :: more =>
    if isNameStart c && more.all isNamePart && !b.names.contains (c :: more) then
      some { b.capture with names := (c :: more) :: b.names }
    else none
  | [] => none

/-- The end of a name. -/
def nameEnd? (name : List Char) : List Char → Option (Builder × List Char)
  | '>' :: rest => (b.nameGroup? name).map (·, rest)
  | _ => none

theorem named?_eq (cs : List Char) :
    b.named? cs = b.nameEnd? (cs.takeWhile (· != '>')) (cs.dropWhile (· != '>')) := by
  unfold named?
  generalize cs.takeWhile (· != '>') = name, cs.dropWhile (· != '>') = left
  dsimp only
  split
  next c more rest => simp only [nameEnd?, nameGroup?]; split <;> rfl
  next hleft =>
    unfold nameEnd?
    split
    next rest =>
      cases name with
      | nil => rfl
      | cons c more => exact (hleft c more rest rfl rfl).elim
    next => rfl

theorem tails_nameEnd? (name : List Char) : Tails NeverLate (b.nameEnd? name) :=
  (Tails.gives (b.nameGroup? name)).onChar '>' (by decide) .refuses (fun _ => rfl)
    fun cs h => by simp only [nameEnd?]

theorem tails_named? : Tails NeverLate b.named? where
  carries cs := by
    rw [named?_eq, named?_eq]
    rcases dropWhile_stop (p := (· != '>')) rfl rfl cs with ⟨h, h'⟩ | ⟨h, h'⟩
    · rw [h, h']
      exact .refused
    · rw [h', takeWhile_append_of_ne_nil h]
      exact (b.tails_nameEnd? _).carries _
  suffix {cs x rest} h := by
    rw [named?_eq] at h
    exact ((b.tails_nameEnd? _).suffix h).trans (List.dropWhile_suffix _)

/-- The letters of a change of flags go up to a colon or a parenthesis. -/
def isFlagLetter (c : Char) : Bool := c != ':' && c != ')'

def changeEnd? (letters : List Char) (flags : Flags) : List Char → Option (Builder × List Char)
  | ':' :: rest => some (b.enter none flags, rest)
  | ')' :: rest =>
    if letters = [] then none
    else some ({ b with items := ⟨.empty, 0, true⟩ :: b.items, flags }, rest)
  | _ => none

theorem change?_eq (cs : List Char) :
    b.change? cs = (Flags.change? (cs.takeWhile isFlagLetter) b.flags).bind fun flags =>
      b.changeEnd? (cs.takeWhile isFlagLetter) flags (cs.dropWhile isFlagLetter) := rfl

theorem carries_changeEnd? (letters : List Char) (flags : Flags) (c : Char) (cs : List Char) :
    Carries NeverLate (b.changeEnd? letters flags (c :: cs))
      (b.changeEnd? letters flags (c :: (cs ++ ending))) := by
  by_cases hcolon : c = ':'
  · subst hcolon
    exact .read _ cs
  by_cases hclose : c = ')'
  · subst hclose
    simp only [changeEnd?]
    split
    · exact .refused
    · exact .read _ cs
  · have hnone (ds : List Char) : b.changeEnd? letters flags (c :: ds) = none := by
      simp [changeEnd?, hcolon, hclose]
    rw [hnone, hnone]
    exact .refused

theorem changeEnd?_suffix {letters cs rest : List Char} {flags : Flags} {b' : Builder}
    (h : b.changeEnd? letters flags cs = some (b', rest)) : rest <:+ cs.tail := by
  unfold changeEnd? at h
  split at h
  next left =>
    cases h
    exact List.suffix_rfl
  next left =>
    split at h
    next => cases h
    next =>
      cases h
      exact List.suffix_rfl
  next => cases h

theorem change?_suffix {cs rest : List Char} {b' : Builder}
    (h : b.change? cs = some (b', rest)) : rest <:+ cs := by
  rw [change?_eq] at h
  obtain ⟨flags, -, h⟩ := Option.bind_eq_some_iff.mp h
  exact ((b.changeEnd?_suffix h).trans (List.tail_suffix _)).trans (List.dropWhile_suffix _)

theorem tails_change? : Tails NeverLate b.change? where
  carries cs := by
    cases hdrop : cs.dropWhile isFlagLetter with
    | nil =>
      -- The parenthesis of the ending may finish the change.
      have hnone : b.change? cs = none := by
        rw [change?_eq, hdrop]
        cases Flags.change? (cs.takeWhile isFlagLetter) b.flags <;> rfl
      have hdrop' : (cs ++ ending).dropWhile isFlagLetter = ending := by
        rw [List.dropWhile_append, hdrop]
        rfl
      rw [hnone]
      cases hchange : b.change? (cs ++ ending) with
      | none => exact .refused
      | some z =>
        rw [change?_eq, hdrop'] at hchange
        obtain ⟨flags, -, h⟩ := Option.bind_eq_some_iff.mp hchange
        exact .across z.1 z.2 (b.changeEnd?_suffix h)
    | cons d ds =>
      have hne : cs.dropWhile isFlagLetter ≠ [] := by simp [hdrop]
      have hdrop' : (cs ++ ending).dropWhile isFlagLetter = d :: (ds ++ ending) := by
        rw [List.dropWhile_append, hdrop]
        rfl
      rw [change?_eq, change?_eq, takeWhile_append_of_ne_nil hne, hdrop, hdrop']
      cases Flags.change? (cs.takeWhile isFlagLetter) b.flags with
      | none => exact .refused
      | some flags =>
        exact b.carries_changeEnd? _ flags d ds
  suffix h := b.change?_suffix h

/-- A reader that goes another way behind a character. -/
def onFirst {α : Type} (c : Char) (g h : List Char → Option α) : List Char → Option α
  | d :: cs => if d = c then g cs else h (d :: cs)
  | [] => h []

theorem onFirst_cons {α : Type} (c : Char) (g h : List Char → Option α) (cs : List Char) :
    onFirst c g h (c :: cs) = g cs := if_pos rfl

theorem onFirst_other {α : Type} {c : Char} (g h : List Char → Option α) {cs : List Char}
    (hcs : ∀ ds, cs = c :: ds → False) : onFirst c g h cs = h cs := by
  cases cs with
  | nil => rfl
  | cons d cs => exact if_neg fun hd => hcs cs (congrArg (· :: cs) hd)

theorem tails_onFirst {α : Type} {late : α → List Char → Prop} (c : Char) (hc : c ≠ ')')
    {g h : List Char → Option (α × List Char)} (hg : Tails late g) (hh : Tails late h) :
    Tails late (onFirst c g h) :=
  Tails.onChar c hc hg hh (onFirst_cons c g h) fun _ hcs => onFirst_other g h hcs

def refuse {α : Type} (_ : List Char) : Option α := none

/-- The name of a group, where no assertion about what stands before the group may stand. -/
def angle? : List Char → Option (Builder × List Char) :=
  onFirst '=' refuse (onFirst '!' refuse b.named?)

/-- What stands behind a question mark that opens a group. -/
def question? : List Char → Option (Builder × List Char) :=
  onFirst '=' refuse (onFirst '!' refuse
    (onFirst '<' b.angle? (onFirst 'P' (onFirst '<' b.named? refuse) b.change?)))

def groupFront? : List Char → Option (Builder × List Char) :=
  onFirst '?' b.question? fun cs => some (b.capture, cs)

theorem change?_upper (cs : List Char) : b.change? ('P' :: cs) = none := by
  have hflags (letters : List Char) : Flags.change? ('P' :: letters) b.flags = none := by
    unfold Flags.change?
    split <;> rfl
  rw [change?_eq]
  exact congrArg (Option.bind · _) (hflags _)

theorem group?_eq (cs : List Char) :
    b.group? cs = b.groupFront? (skip b.flags.verbose cs) := by
  unfold group?
  generalize skip b.flags.verbose cs = left
  split
  next => rfl
  next => rfl
  next => rfl
  next => rfl
  next => rfl
  next ds heq hne =>
    refine Eq.symm ?_
    show b.angle? ds = b.named? ds
    rw [angle?, onFirst_other _ _ heq, onFirst_other _ _ hne]
  next ds heq hne _ _ hupper hangle =>
    refine Eq.symm ?_
    show b.question? ds = b.change? ds
    rw [question?, onFirst_other _ _ heq, onFirst_other _ _ hne, onFirst_other _ _ hangle]
    -- No flag has this letter, so that the order in which the readers are tried does not matter.
    by_cases hds : ∃ es, ds = 'P' :: es
    · obtain ⟨es, rfl⟩ := hds
      rw [onFirst_cons, change?_upper, onFirst_other _ _ fun fs hfs => hupper fs (hfs ▸ rfl)]
      rfl
    · rw [onFirst_other _ _ fun es hes => hds ⟨es, hes⟩]
  next hquestion => rw [groupFront?, onFirst_other _ _ hquestion]

theorem tails_group? : Tails NeverLate b.group? := by
  have hangle : Tails NeverLate b.angle? :=
    tails_onFirst '=' (by decide) .refuses (tails_onFirst '!' (by decide) .refuses b.tails_named?)
  have hupper := tails_onFirst 'P' (by decide)
    (tails_onFirst '<' (by decide) b.tails_named? .refuses) b.tails_change?
  have hquestion : Tails NeverLate b.question? :=
    tails_onFirst '=' (by decide) .refuses
      (tails_onFirst '!' (by decide) .refuses (tails_onFirst '<' (by decide) hangle hupper))
  rw [funext b.group?_eq]
  exact (tails_onFirst '?' (by decide) hquestion (.takes b.capture)).skip b.flags.verbose

theorem tails_repeat? (q : Bool → Quantifier) : Tails NeverLate fun cs =>
    (b.repeat? (q (greed cs).1)).map (·, (greed cs).2) :=
  tails_greed.choose (fun g => b.repeat? (q g)) fun _ _ _ h _ => h

/-- After a boundary the braces that should name it may be left. -/
def LateStep (b' : Builder) (rest : List Char) : Prop :=
  b'.flags = b.flags ∧ LateBrace b.flags.verbose rest

theorem tails_step?_escape : Tails b.LateStep fun cs => b.step? ('\\' :: cs) := by
  refine (tails_escape? b.flags.verbose).choose b.escape? fun e rest b' hlate hb' => ?_
  obtain ⟨⟨boundary, rfl⟩, hbrace⟩ := hlate
  cases hb'
  exact ⟨rfl, hbrace⟩

theorem step?_literal {c : Char}
    (hc : c ∉ ['(', ')', '|', '[', '?', '*', '+', '\x7b', '\\', '.', '^', '$'])
    (cs : List Char) : b.step? (c :: cs) = some (b.literal c, cs) := by
  simp only [List.mem_cons, List.not_mem_nil, or_false, not_or] at hc
  simp [step?, hc]

theorem step?_letter {c : Char} (hc : c ∉ ['(', '[', '?', '*', '+', '\x7b', '\\'])
    (cs : List Char) : b.step? (c :: cs) = ((b.step? [c]).map Prod.fst).map (·, cs) := by
  by_cases hsign : c ∈ [')', '|', '.', '^', '$']
  · simp only [List.mem_cons, List.not_mem_nil, or_false] at hsign
    rcases hsign with rfl | rfl | rfl | rfl | rfl
    · simp only [step?]
      cases b.leave? <;> rfl
    · rfl
    · simp only [step?]
      cases b.dot? <;> rfl
    · rfl
    · rfl
  · have hliteral := b.step?_literal (c := c) (by simp_all)
    rw [hliteral, hliteral]
    rfl

theorem tails_step? (c : Char) : Tails b.LateStep fun cs => b.step? (c :: cs) := by
  have hgreed (q : Bool → Quantifier) : Tails b.LateStep fun cs =>
      (b.repeat? (q (greed cs).1)).map (·, (greed cs).2) :=
    (b.tails_repeat? q).mono fun _ _ h => h.elim
  by_cases hc : c ∈ ['(', '[', '?', '*', '+', '\x7b', '\\']
  · simp only [List.mem_cons, List.not_mem_nil, or_false] at hc
    rcases hc with rfl | rfl | rfl | rfl | rfl | rfl | rfl
    · exact b.tails_group?.mono fun _ _ h => h.elim
    · exact (tails_bracket? b.flags).map
        (fun s => b.push (ofSet s.set b.flags.ascii) s.depth) fun _ _ h => h.elim
    · exact hgreed fun g => ⟨0, some 1, g⟩
    · exact hgreed fun g => ⟨0, none, g⟩
    · exact hgreed fun g => ⟨1, none, g⟩
    · exact (tails_quantifier? b.flags.verbose).choose b.repeat? fun _ _ _ h _ => h.elim
    · exact b.tails_step?_escape
  · rw [funext (b.step?_letter hc)]
    exact .gives _

end ParticleAutomaton.Regex.Builder
