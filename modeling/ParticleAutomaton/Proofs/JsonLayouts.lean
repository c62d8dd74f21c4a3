import ParticleAutomaton.Json.Printer
import ParticleAutomaton.Json.Reader

namespace ParticleAutomaton.Json

/-- The blanks that a text has in front of items and of closing brackets, by level, and behind
colons. -/
structure Layout where
  gap : Nat → List Char
  space : List Char
  blank_gap : ∀ level, ∀ c ∈ gap level, isBlank c = true
  blank_space : ∀ c ∈ space, isBlank c = true

namespace Layout

/-- Each item and each member has a line of its own. -/
def lines : Layout where
  gap := indent
  space := [' ']
  blank_gap level c hc := by
    rcases List.mem_cons.mp hc with rfl | hc
    · rfl
    · rw [List.eq_of_mem_replicate hc]
      rfl
  blank_space c hc := by
    rw [List.mem_singleton.mp hc]
    rfl

/-- There are no blanks. -/
def tight : Layout :=
  ⟨fun _ => [], [], fun _ => List.forall_mem_nil _, List.forall_mem_nil _⟩

@[simp]
theorem gap_lines (level : Nat) : lines.gap level = indent level := rfl

@[simp]
theorem space_lines : lines.space = [' '] := rfl

@[simp]
theorem gap_tight (level : Nat) : tight.gap level = [] := rfl

@[simp]
theorem space_tight : tight.space = [] := rfl

end Layout

mutual

/-- A value in a layout. -/
def print (l : Layout) (level : Nat) : Json → List Char
  | .null => ['n', 'u', 'l', 'l']
  | .bool true => ['t', 'r', 'u', 'e']
  | .bool false => ['f', 'a', 'l', 's', 'e']
  | .number n => n.render
  | .text s => renderText s
  | .array [] => ['[', ']']
  | .array items => '[' :: (printItems l (level + 1) items ++ (l.gap level ++ [']']))
  | .object [] => ['\x7b', '\x7d']
  | .object members => '\x7b' :: (printMembers l (level + 1) members ++ (l.gap level ++ ['\x7d']))

def printItems (l : Layout) (level : Nat) : List Json → List Char
  | [] => []
  | v :: vs =>
    l.gap level ++ (v.print l level ++ if vs = [] then [] else ',' :: printItems l level vs)

def printMembers (l : Layout) (level : Nat) : List (Option String × Json) → List Char
  | [] => []
  | (name, v) :: ms =>
    l.gap level ++ (renderText name ++ ':' :: (l.space ++
      (v.print l level ++ if ms = [] then [] else ',' :: printMembers l level ms)))

end

mutual

theorem print_lines (level : Nat) (v : Json) : v.print .lines level = v.pretty level := by
  cases v with
  | null => rfl
  | bool b => cases b <;> rfl
  | number n => rfl
  | text s => rfl
  | array items =>
    cases items with
    | nil => rfl
    | cons v vs => simp [print, pretty, printItems_lines (level + 1) (v :: vs)]
  | object members =>
    cases members with
    | nil => rfl
    | cons m ms => simp [print, pretty, printMembers_lines (level + 1) (m :: ms)]

theorem printItems_lines (level : Nat) (vs : List Json) :
    printItems .lines level vs = prettyItems level vs := by
  cases vs with
  | nil => rfl
  | cons v vs =>
    rw [printItems, print_lines level v, printItems_lines level vs]
    cases vs <;> simp [prettyItems]

theorem printMembers_lines (level : Nat) (ms : List (Option String × Json)) :
    printMembers .lines level ms = prettyMembers level ms := by
  cases ms with
  | nil => rfl
  | cons m ms =>
    obtain ⟨name, v⟩ := m
    rw [printMembers, print_lines level v, printMembers_lines level ms]
    cases ms <;> simp [prettyMembers]

end

mutual

theorem print_tight (level : Nat) (v : Json) : v.print .tight level = v.render := by
  cases v with
  | null => rfl
  | bool b => cases b <;> rfl
  | number n => rfl
  | text s => rfl
  | array items =>
    cases items with
    | nil => rfl
    | cons v vs => simp [print, render, printItems_tight (level + 1) (v :: vs)]
  | object members =>
    cases members with
    | nil => rfl
    | cons m ms => simp [print, render, printMembers_tight (level + 1) (m :: ms)]

theorem printItems_tight (level : Nat) (vs : List Json) :
    printItems .tight level vs = renderItems vs := by
  cases vs with
  | nil => rfl
  | cons v vs =>
    rw [printItems, print_tight level v, printItems_tight level vs]
    cases vs <;> simp [renderItems]

theorem printMembers_tight (level : Nat) (ms : List (Option String × Json)) :
    printMembers .tight level ms = renderMembers ms := by
  cases ms with
  | nil => rfl
  | cons m ms =>
    obtain ⟨name, v⟩ := m
    rw [printMembers, print_tight level v, printMembers_tight level ms]
    cases ms <;> simp [renderMembers]

end

end ParticleAutomaton.Json
