import DurableQueue.Proofs.Regex
import DurableQueue.Proofs.Subject.Tokens
import DurableQueue.Subject.Pattern

/-! The regular expression of a pattern. An engine reads it part by part, as the tokens of the pattern were written, and
    finds it in the subjects under the pattern, except where a dot leaves a character out that `>` does not: `*` is
    written with a set and `>` with a dot. -/

namespace DurableQueue
namespace Pattern
open Regex Subject

variable {engine : Engine}

/-! ### Reading the expression of a pattern -/

def tokenParts (token : List Char) : List Regex :=
  if token = anyOne then [star (one (.noneOf ['.']))]
  else if token = anyTail then [star (one .dot)]
  else token.map fun c => one (.just c)

/-- What tokens are read as, with the dots between them. -/
def joinParts : List (List Char) → List Regex
  | [] => []
  | [token] => tokenParts token
  | token :: rest => tokenParts token ++ one (.just '.') :: joinParts rest

/-- Characters are read as some parts, whatever has been read before them. -/
def Reads (engine : Engine) (cs : List Char) (es : List Regex) : Prop :=
  ∀ parts countable, ∃ countable', cs.foldlM (Reading.step engine) { group := { parts, countable } } =
    some { group := { parts := es.reverse ++ parts, countable := countable' } }

theorem Reads.nil : Reads engine [] [] := fun _ countable => ⟨countable, rfl⟩

theorem Reads.append {cs ds : List Char} {es fs : List Regex} (h : Reads engine cs es) (h' : Reads engine ds fs) :
    Reads engine (cs ++ ds) (es ++ fs) := by
  intro parts countable
  obtain ⟨between, hc⟩ := h parts countable
  obtain ⟨last, hd⟩ := h' (es.reverse ++ parts) between
  refine ⟨last, ?_⟩
  rw [List.foldlM_append, hc, List.reverse_append, List.append_assoc]
  exact hd

theorem reads_escaped {c : Char} (h : engine.escapes c = true) : Reads engine ['\\', c] [one (.just c)] := by
  intro parts countable
  refine ⟨true, ?_⟩
  simp [Reading.step, Reading.plain, Reading.add, Group.push, h]

theorem reads_plain {c : Char} (h : isSpecial c = false) : Reads engine [c] [one (.just c)] := by
  intro parts countable
  refine ⟨true, ?_⟩
  simp only [List.foldlM_cons, Reading.step, Reading.plain]
  split <;> simp_all [isSpecial, Reading.add, Group.push]

variable (escapes : ∀ c, isSpecial c = true → engine.escapes c = true)
include escapes

theorem reads_escapeChar (c : Char) : Reads engine (escapeChar c) [one (.just c)] := by
  unfold escapeChar
  by_cases special : isSpecial c = true
  · rw [if_pos special]
    exact reads_escaped (escapes c special)
  · rw [if_neg special]
    exact reads_plain (Bool.eq_false_iff.mpr special)

theorem reads_literal (token : List Char) : Reads engine (token.flatMap escapeChar) (token.map fun c => one (.just c)) := by
  induction token with
  | nil => exact Reads.nil
  | cons c rest ih =>
    rw [List.flatMap_cons, List.map_cons]
    exact (reads_escapeChar escapes c).append ih

theorem reads_token (token : List Char) : Reads engine (tokenRegex token) (tokenParts token) := by
  unfold tokenRegex tokenParts
  split
  · exact fun _ _ => ⟨false, rfl⟩
  · split
    · exact fun _ _ => ⟨false, rfl⟩
    · exact reads_literal escapes token

theorem reads_join (tokens : List (List Char)) : Reads engine (joinRegex (tokens.map tokenRegex)) (joinParts tokens) := by
  induction tokens with
  | nil => exact Reads.nil
  | cons token rest ih =>
    cases rest with
    | nil => exact reads_token escapes token
    | cons next rest =>
      have between : Reads engine ['\\', '.'] [one (.just '.')] := reads_escaped (escapes '.' (by decide))
      exact (reads_token escapes token).append (between.append ih)

/-- An engine that escapes the special characters reads the expression of every pattern. -/
theorem read_regex (p : Pattern) :
    Regex.read engine p.regex = some (sequence (start :: joinParts (tokens p.text) ++ [finish])) := by
  obtain ⟨between, inner⟩ := reads_join escapes (tokens p.text) [start] false
  have begins : Reading.step engine {} '^' = some { group := { parts := [start] } } := rfl
  have ends : Reading.step engine { group := { parts := (joinParts (tokens p.text)).reverse ++ [start], countable := between } } '$' =
    some { group := { parts := finish :: ((joinParts (tokens p.text)).reverse ++ [start]) } } := rfl
  rw [Regex.read, regex, String.toList_ofList]
  simp only [List.cons_append, List.foldlM_cons, List.foldlM_append, begins, Option.bind_eq_bind, Option.bind_some, inner,
    ends, List.foldlM_nil, Option.pure_def, Group.whole, List.foldl_nil]
  simp

omit escapes

/-! ### What the parts match -/

section
variable {before part after : List Char}

theorem matches_parts_singleton_iff {e : Regex} :
    Matches engine (sequence [e]) before part after ↔ Matches engine e before part after := by
  have only : sequence [e] = seq e empty := rfl
  rw [only, matches_seq_iff]
  constructor
  · rintro ⟨s, t, rfl, h, nothing⟩
    obtain rfl := matches_empty_iff.mp nothing
    simpa using h
  · intro h
    exact ⟨part, [], by simp, by simpa using h, .empty _ _⟩

theorem matches_literal_iff {token : List Char} :
    Matches engine (sequence (token.map fun c => one (.just c))) before part after ↔ part = token := by
  induction token generalizing before part with
  | nil => exact matches_empty_iff
  | cons c rest ih =>
    have head : sequence ((c :: rest).map fun c => one (.just c)) =
      seq (one (.just c)) (sequence (rest.map fun c => one (.just c))) := rfl
    rw [head, matches_seq_iff]
    constructor
    · rintro ⟨s, t, rfl, first, others⟩
      obtain ⟨d, rfl, hd⟩ := matches_one_iff.mp first
      rw [ih.mp others, of_decide_eq_true hd]
      rfl
    · rintro rfl
      exact ⟨[c], rest, rfl, .one _ _ (decide_eq_true rfl), ih.mpr rfl⟩

theorem matches_anyOne_iff : Matches engine (sequence (tokenParts anyOne)) before part after ↔ '.' ∉ part := by
  rw [tokenParts, if_pos rfl, matches_parts_singleton_iff, matches_star_one_iff]
  constructor
  · intro h dot
    have := h '.' dot
    simp [CharSet.contains] at this
  · intro h c hc
    have : c ≠ '.' := fun e => h (e ▸ hc)
    simp [CharSet.contains, this]

theorem matches_anyTail_iff :
    Matches engine (sequence (tokenParts anyTail)) before part after ↔ ∀ c ∈ part, engine.dot c = true := by
  rw [tokenParts, if_neg (by decide), if_pos rfl, matches_parts_singleton_iff, matches_star_one_iff]
  rfl

/-- A token other than `>` matches what is like one token of a subject. -/
theorem matches_token_iff {token : List Char} (notTail : token ≠ anyTail) (dotless : '.' ∉ token) :
    Matches engine (sequence (tokenParts token)) before part after ↔ '.' ∉ part ∧ (token = anyOne ∨ token = part) := by
  by_cases wild : token = anyOne
  · rw [wild, matches_anyOne_iff]
    simp
  · rw [tokenParts, if_neg wild, if_neg notTail, matches_literal_iff]
    constructor
    · rintro rfl
      exact ⟨dotless, Or.inr rfl⟩
    · rintro ⟨-, same | same⟩
      · exact absurd same wild
      · exact same.symm

/-- A dot stands for all characters in the place of a `>` at the end. -/
def Spans (engine : Engine) (tokens pieces : List (List Char)) : Prop :=
  tokens.getLast? = some anyTail → ∀ piece ∈ pieces.drop (tokens.length - 1), ∀ c ∈ piece, engine.dot c = true

theorem spans_cons_cons_iff {token next piece : List Char} {rest pieces : List (List Char)} :
    Spans engine (token :: next :: rest) (piece :: pieces) ↔ Spans engine (next :: rest) pieces := by
  simp [Spans, List.getLast?_cons_cons]

theorem matches_last_iff (dot : engine.dot '.' = true) {token : List Char} (dotless : '.' ∉ token) :
    Matches engine (sequence (tokenParts token)) before part after ↔
      matchTokens (pieces part) [token] = true ∧ Spans engine [token] (pieces part) := by
  by_cases tail : token = anyTail
  · subst tail
    rw [matches_anyTail_iff, ← forall_mem_pieces_iff dot, matchTokens_anyTail]
    simp [Spans, pieces_ne_nil]
  · have spans : Spans engine [token] (pieces part) := fun h => absurd (by simpa using h) tail
    rw [matches_token_iff tail dotless, and_iff_left spans]
    rcases pieces_cases part with ⟨one, hp⟩ | ⟨first, rest, one, rfl, hp⟩
    · rw [hp, matchTokens_cons_cons tail, matchTokens_nil]
      simp [one]
    · rw [hp, matchTokens_cons_cons tail, matchTokens_nil]
      simp [pieces_ne_nil]

/-- The parts of a pattern match what falls under its tokens, as far as dots reach. -/
theorem matches_join_iff (dot : engine.dot '.' = true) {tokens : List (List Char)} (ne : tokens ≠ [])
    (tailLast : tailMisplaced tokens = false) (dotless : ∀ token ∈ tokens, '.' ∉ token) :
    Matches engine (sequence (joinParts tokens)) before part after ↔
      matchTokens (pieces part) tokens = true ∧ Spans engine tokens (pieces part) := by
  induction tokens generalizing before part with
  | nil => exact absurd rfl ne
  | cons token others ih =>
    rw [List.forall_mem_cons] at dotless
    cases others with
    | nil => exact matches_last_iff dot dotless.1
    | cons next rest =>
      have tails : token ≠ anyTail ∧ tailMisplaced (next :: rest) = false := by
        simpa [tailMisplaced] using tailLast
      have split : sequence (joinParts (token :: next :: rest)) =
        sequence (tokenParts token ++ one (.just '.') :: joinParts (next :: rest)) := rfl
      have dotted : ∀ es, sequence (one (.just '.') :: es) = seq (one (.just '.')) (sequence es) := fun _ => rfl
      rw [split, matches_sequence_append_iff]
      constructor
      · rintro ⟨s, t, rfl, head, h⟩
        obtain ⟨one, like⟩ := (matches_token_iff tails.1 dotless.1).mp head
        rw [dotted, matches_seq_iff] at h
        obtain ⟨u, v, rfl, isDot, h⟩ := h
        obtain ⟨c, rfl, hc⟩ := matches_one_iff.mp isDot
        obtain rfl : c = '.' := of_decide_eq_true hc
        obtain ⟨falls, spans⟩ := (ih (by simp) tails.2 dotless.2).mp h
        rw [List.singleton_append, pieces_append one]
        exact ⟨(matchTokens_cons_cons tails.1).mpr ⟨like, falls⟩, spans_cons_cons_iff.mpr spans⟩
      · rintro ⟨falls, spans⟩
        rcases pieces_cases part with ⟨-, hp⟩ | ⟨first, rest', one, rfl, hp⟩
        · rw [hp, matchTokens_cons_cons tails.1, matchTokens_nil_cons] at falls
          simp at falls
        · rw [hp, matchTokens_cons_cons tails.1] at falls
          rw [hp, spans_cons_cons_iff] at spans
          refine ⟨first, '.' :: rest', rfl, (matches_token_iff tails.1 dotless.1).mpr ⟨one, falls.1⟩, ?_⟩
          rw [dotted]
          exact .seq (s := ['.']) (.one _ _ rfl) ((ih (by simp) tails.2 dotless.2).mpr ⟨falls.2, spans⟩)

end

/-- An engine finds the expression of a pattern in the subjects that fall under it, as far as dots reach. -/
theorem foundIn_regex_iff (escapes : ∀ c, isSpecial c = true → engine.escapes c = true) (dot : engine.dot '.' = true)
    (p : Pattern) (subject : String) : ∃ e, Regex.read engine p.regex = some e ∧
      (FoundIn engine e subject ↔ p.accepts subject = true ∧ Spans engine (tokens p.text) (tokens subject)) :=
  ⟨_, read_regex escapes p, foundIn_anchored_iff.trans
    (matches_join_iff dot (pieces_ne_nil _) p.tail_last fun _ => not_mem_of_mem_pieces)⟩

/-! ### Two engines -/

/-- The engine of the database: a dot stands for every character. -/
def databaseEngine : Engine where
  dot _ := true
  escapes c := !c.isAlphanum

/-- An engine for texts of lines: a dot does not stand for a line feed. Its escapes here are those of the characters with
    a meaning in its expressions, and only some of all it takes: every ASCII character but letters, digits, `<` and `>`. -/
def lineEngine : Engine where
  dot c := c ≠ '\n'
  escapes c := c ∈ ['\\', '.', '+', '*', '?', '(', ')', '|', '[', ']', '\x7b', '\x7d', '^', '$', '#', '&', '-', '~']

/-- The characters that are written behind a backslash. -/
def specials : List Char := ['\\', '.', '+', '*', '?', '(', ')', '|', '[', ']', '\x7b', '\x7d', '^', '$']

theorem isSpecial_iff {c : Char} : isSpecial c = true ↔ c ∈ specials := by
  rw [isSpecial, List.contains_iff_mem]
  rfl

theorem databaseEngine_escapes (c : Char) (h : isSpecial c = true) : databaseEngine.escapes c = true := by
  have all : specials.all databaseEngine.escapes = true := by decide
  exact List.all_eq_true.mp all c (isSpecial_iff.mp h)

theorem lineEngine_escapes (c : Char) (h : isSpecial c = true) : lineEngine.escapes c = true := by
  have all : specials.all lineEngine.escapes = true := by decide
  exact List.all_eq_true.mp all c (isSpecial_iff.mp h)

/-- In the database the expression of a pattern selects the subjects that fall under it. -/
theorem regex_selects (p : Pattern) (subject : String) : ∃ e, Regex.read databaseEngine p.regex = some e ∧
    (FoundIn databaseEngine e subject ↔ p.accepts subject = true) := by
  obtain ⟨e, hread, found⟩ := foundIn_regex_iff databaseEngine_escapes rfl p subject
  have spans : Spans databaseEngine (tokens p.text) (tokens subject) := fun _ _ _ _ _ => rfl
  exact ⟨e, hread, by rw [found, and_iff_left spans]⟩

/-- Line by line the expression of a pattern misses, of the subjects that fall under it, those with a line feed among the
    tokens that a `>` stands for. -/
theorem regex_misses_line_feeds (p : Pattern) (subject : String) : ∃ e, Regex.read lineEngine p.regex = some e ∧
    (FoundIn lineEngine e subject ↔ p.accepts subject = true ∧ ((tokens p.text).getLast? = some anyTail →
      ∀ token ∈ (tokens subject).drop ((tokens p.text).length - 1), '\n' ∉ token)) := by
  obtain ⟨e, hread, found⟩ := foundIn_regex_iff lineEngine_escapes rfl p subject
  refine ⟨e, hread, found.trans (and_congr_right fun _ => imp_congr_right fun _ => forall₂_congr fun token _ => ?_)⟩
  simp [lineEngine, List.forall_mem_ne']

/-- Under `>` falls a subject with a line feed, and line by line the expression of `>` does not find it. -/
theorem regex_not_of_lines : ¬∀ (p : Pattern) (subject : String), Subject.validate subject = .ok () →
    ∃ e, Regex.read lineEngine p.regex = some e ∧ (FoundIn lineEngine e subject ↔ p.accepts subject = true) := by
  intro agree
  let p : Pattern := ⟨">", by decide, by decide⟩
  obtain ⟨e, hread, found⟩ := agree p "a\nb" rfl
  obtain ⟨e', hread', found'⟩ := foundIn_regex_iff lineEngine_escapes rfl p "a\nb"
  obtain rfl : e = e' := Option.some.inj (hread.symm.trans hread')
  have accepted : p.accepts "a\nb" = true := by decide
  have spans := (found'.mp (found.mpr accepted)).2
  have tail : (tokens p.text).getLast? = some anyTail := by decide
  have feed : lineEngine.dot '\n' = true := spans tail ['a', '\n', 'b'] (by decide) '\n' (by decide)
  exact absurd feed (by decide)

end Pattern
end DurableQueue
