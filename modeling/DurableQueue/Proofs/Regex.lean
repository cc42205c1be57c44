/-! Regular expressions: how an engine reads a text as one, and in which texts it finds it.

Engines differ in what a dot stands for and in the characters that a backslash takes the meaning from. The texts that are
read here have what engines share: alternatives, groups, the quantifiers `*`, `+` and `?`, sets of characters, the dot,
the two anchors, and escaped characters. All else, such as a repetition with numbers, is refused. -/

namespace DurableQueue

/-- What engines differ in. -/
structure Engine where
  /-- Whether a dot stands for the character. -/
  dot : Char → Bool
  /-- Whether the character stands for itself behind a backslash. -/
  escapes : Char → Bool

inductive CharSet where
  | just (c : Char)
  | dot
  | oneOf (members : List Char)
  | noneOf (members : List Char)
  deriving DecidableEq, Repr

def CharSet.contains (engine : Engine) : CharSet → Char → Bool
  | just d, c => c = d
  | dot, c => engine.dot c
  | oneOf members, c => members.contains c
  | noneOf members, c => !members.contains c

inductive Regex where
  | empty
  | one (set : CharSet)
  /-- The beginning of the text. -/
  | start
  /-- The end of the text. -/
  | finish
  | seq (first second : Regex)
  | alt (first second : Regex)
  | star (e : Regex)
  deriving DecidableEq, Repr

namespace Regex

def sequence (parts : List Regex) : Regex := parts.foldr seq empty

/-! ### Reading -/

/-- A group that is being read, or the whole: its alternatives that are complete and the parts of the one under way, the
    newest first. -/
structure Group where
  closed : List Regex := []
  parts : List Regex := []
  /-- The newest part may have a quantifier. -/
  countable : Bool := false
  deriving DecidableEq, Repr

namespace Group

def push (g : Group) (e : Regex) (countable : Bool) : Group := { g with parts := e :: g.parts, countable }

def next (g : Group) : Group := { closed := sequence g.parts.reverse :: g.closed }

def whole (g : Group) : Regex := g.closed.foldl (fun later earlier => alt earlier later) (sequence g.parts.reverse)

/-- Gives the newest part a quantifier. No part has two. -/
def quantify (g : Group) (change : Regex → Regex) : Option Group :=
  match g.countable, g.parts with
  | true, e :: rest => some { g with parts := change e :: rest, countable := false }
  | _, _ => none

end Group

/-- Where in the text a reader is. -/
inductive Mode where
  | plain
  | escaped
  /-- Behind the bracket that begins a set. -/
  | bracket
  | members (negated : Bool) (seen : List Char)
  deriving DecidableEq, Repr

/-- What has been read: the groups around the innermost one, and that one. -/
structure Reading where
  outer : List Group := []
  group : Group := {}
  mode : Mode := .plain
  deriving DecidableEq, Repr

namespace Reading

def add (r : Reading) (e : Regex) : Reading := { r with group := r.group.push e true, mode := .plain }

/-- Reads a character of a set. Ranges, classes and operations on sets are refused. -/
def member (r : Reading) (negated : Bool) (seen : List Char) (c : Char) : Option Reading :=
  if c = ']' then
    if seen = [] then none else some (r.add (one (if negated then .noneOf seen else .oneOf seen)))
  else if c ∈ ['[', '\\', '^', '-', '&', '~'] then none
  else some { r with mode := .members negated (c :: seen) }

def plain (r : Reading) (c : Char) : Option Reading :=
  match c with
  | '\\' => some { r with mode := .escaped }
  | '[' => some { r with mode := .bracket }
  | '.' => some (r.add (one .dot))
  | '^' => some { r with group := r.group.push start false }
  | '$' => some { r with group := r.group.push finish false }
  | '*' => (r.group.quantify star).map fun group => { r with group }
  | '+' => (r.group.quantify fun e => seq e (star e)).map fun group => { r with group }
  | '?' => (r.group.quantify fun e => alt e empty).map fun group => { r with group }
  | '|' => some { r with group := r.group.next }
  | '(' => some { outer := r.group :: r.outer }
  | ')' => match r.outer with
    | [] => none
    | g :: rest => some { outer := rest, group := g.push r.group.whole true }
  | ']' | '{' | '}' => none
  | c => some (r.add (one (.just c)))

def step (engine : Engine) (r : Reading) (c : Char) : Option Reading :=
  match r.mode with
  | .plain => r.plain c
  | .escaped => if engine.escapes c then some (r.add (one (.just c))) else none
  | .bracket => if c = '^' then some { r with mode := .members true [] } else r.member false [] c
  | .members negated seen => r.member negated seen c

end Reading

/-- Reads a text. Every group, set and escape has to be complete at its end. -/
def read (engine : Engine) (text : String) : Option Regex :=
  match text.toList.foldlM (Reading.step engine) {} with
  | some ⟨[], group, .plain⟩ => some group.whole
  | _ => none

/-! ### Meaning -/

/-- An expression matches a part of a text, given what is before it and what is behind it. -/
inductive Matches (engine : Engine) : Regex → List Char → List Char → List Char → Prop where
  | empty (before after : List Char) : Matches engine empty before [] after
  | one {set : CharSet} {c : Char} (before after : List Char) (h : set.contains engine c = true) :
    Matches engine (one set) before [c] after
  | start (after : List Char) : Matches engine start [] [] after
  | finish (before : List Char) : Matches engine finish before [] []
  | seq {e f : Regex} {before s t after : List Char} (first : Matches engine e before s (t ++ after))
    (second : Matches engine f (before ++ s) t after) : Matches engine (seq e f) before (s ++ t) after
  | left {e : Regex} (f : Regex) {before part after : List Char} (h : Matches engine e before part after) :
    Matches engine (alt e f) before part after
  | right (e : Regex) {f : Regex} {before part after : List Char} (h : Matches engine f before part after) :
    Matches engine (alt e f) before part after
  | stop (e : Regex) (before after : List Char) : Matches engine (star e) before [] after
  | again {e : Regex} {before s t after : List Char} (first : Matches engine e before s (t ++ after))
    (rest : Matches engine (star e) (before ++ s) t after) : Matches engine (star e) before (s ++ t) after

def FoundIn (engine : Engine) (e : Regex) (text : String) : Prop :=
  ∃ before part after, text.toList = before ++ part ++ after ∧ Matches engine e before part after

section
variable {engine : Engine} {e f : Regex} {set : CharSet} {before part after : List Char}

theorem matches_empty_iff : Matches engine empty before part after ↔ part = [] := by
  constructor
  · rintro ⟨⟩
    rfl
  · rintro rfl
    exact .empty _ _

theorem matches_one_iff :
    Matches engine (one set) before part after ↔ ∃ c, part = [c] ∧ set.contains engine c = true := by
  constructor
  · rintro ⟨⟩
    exact ⟨_, rfl, ‹_›⟩
  · rintro ⟨c, rfl, h⟩
    exact .one _ _ h

theorem matches_start_iff : Matches engine start before part after ↔ before = [] ∧ part = [] := by
  constructor
  · rintro ⟨⟩
    exact ⟨rfl, rfl⟩
  · rintro ⟨rfl, rfl⟩
    exact .start _

theorem matches_finish_iff : Matches engine finish before part after ↔ after = [] ∧ part = [] := by
  constructor
  · rintro ⟨⟩
    exact ⟨rfl, rfl⟩
  · rintro ⟨rfl, rfl⟩
    exact .finish _

theorem matches_seq_iff : Matches engine (seq e f) before part after ↔
    ∃ s t, part = s ++ t ∧ Matches engine e before s (t ++ after) ∧ Matches engine f (before ++ s) t after := by
  constructor
  · rintro ⟨⟩
    exact ⟨_, _, rfl, ‹_›, ‹_›⟩
  · rintro ⟨s, t, rfl, first, second⟩
    exact .seq first second

/-- A repeated set matches the characters that are all in it. -/
theorem matches_star_one_iff :
    Matches engine (star (one set)) before part after ↔ ∀ c ∈ part, set.contains engine c = true := by
  constructor
  · intro h
    generalize he : star (one set) = e at h
    induction h with
    | stop => simp
    | again first _ _ ih =>
      cases he
      obtain ⟨c, rfl, hc⟩ := matches_one_iff.mp first
      simpa [hc] using ih rfl
    | _ => cases he
  · intro h
    induction part generalizing before with
    | nil => exact .stop _ _ _
    | cons c rest ih =>
      rw [List.forall_mem_cons] at h
      exact .again (s := [c]) (.one _ _ h.1) (ih h.2)

theorem matches_sequence_append_iff {es fs : List Regex} : Matches engine (sequence (es ++ fs)) before part after ↔
    ∃ s t, part = s ++ t ∧ Matches engine (sequence es) before s (t ++ after) ∧
      Matches engine (sequence fs) (before ++ s) t after := by
  induction es generalizing before part with
  | nil =>
    constructor
    · intro h
      exact ⟨[], part, rfl, .empty _ _, by simpa using h⟩
    · rintro ⟨s, t, rfl, nothing, h⟩
      obtain rfl := matches_empty_iff.mp nothing
      simpa using h
  | cons e es ih =>
    have head : ∀ gs, sequence (e :: gs) = seq e (sequence gs) := fun _ => rfl
    rw [List.cons_append, head, head, matches_seq_iff]
    constructor
    · rintro ⟨s, _, rfl, first, others⟩
      obtain ⟨t, u, rfl, second, third⟩ := ih.mp others
      refine ⟨s ++ t, u, (List.append_assoc ..).symm, ?_, by rwa [← List.append_assoc]⟩
      rw [List.append_assoc] at first
      exact .seq first second
    · rintro ⟨_, u, rfl, both, third⟩
      obtain ⟨s, t, rfl, first, second⟩ := matches_seq_iff.mp both
      rw [← List.append_assoc] at first third
      exact ⟨s, t ++ u, List.append_assoc .., first, ih.mpr ⟨t, u, rfl, second, third⟩⟩

/-- Between the two anchors stands the whole text. -/
theorem foundIn_anchored_iff {es : List Regex} {text : String} :
    FoundIn engine (sequence (start :: es ++ [finish])) text ↔ Matches engine (sequence es) [] text.toList [] := by
  have head : sequence (start :: es ++ [finish]) = seq start (sequence (es ++ [finish])) := rfl
  have last : sequence [finish] = seq finish empty := rfl
  constructor
  · rintro ⟨before, part, after, whole, h⟩
    rw [head, matches_seq_iff] at h
    obtain ⟨s, t, rfl, begins, h⟩ := h
    obtain ⟨rfl, rfl⟩ := matches_start_iff.mp begins
    obtain ⟨u, v, rfl, inner, ends⟩ := matches_sequence_append_iff.mp h
    rw [last, matches_seq_iff] at ends
    obtain ⟨w, x, rfl, ends, nothing⟩ := ends
    obtain ⟨behind, rfl⟩ := matches_finish_iff.mp ends
    obtain rfl := matches_empty_iff.mp nothing
    obtain rfl : after = [] := behind
    simpa [whole] using inner
  · intro h
    refine ⟨[], text.toList, [], by simp, ?_⟩
    rw [head, matches_seq_iff]
    refine ⟨[], text.toList, rfl, .start _, ?_⟩
    rw [matches_sequence_append_iff]
    refine ⟨text.toList, [], by simp, h, ?_⟩
    rw [last, matches_seq_iff]
    exact ⟨[], [], rfl, .finish _, .empty _ _⟩

end
end Regex
end DurableQueue
