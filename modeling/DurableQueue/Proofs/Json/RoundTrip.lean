import DurableQueue.Json.Printer
import DurableQueue.Json.Reader
import DurableQueue.Proofs.Text.Number

/-! A value that is written on one line is read again as the same value. What has been written of a part ends where its
    reader stops, whatever stands behind it: strings and brackets close themselves, and behind a number there is a comma,
    a bracket or nothing. -/

namespace DurableQueue
namespace Json

theorem mapM_some {α : Type} (xs : List α) : xs.mapM (fun x => some (id x)) = some xs := by
  show xs.mapM (fun x => pure (id x)) = some xs
  rw [List.mapM_pure, List.map_id]
  rfl

/-! ### Strings -/

theorem hexValue?_hexDigit {n : Nat} (small : n < 16) : hexValue? (hexDigit n) = some n := by
  have all : ∀ n < 16, hexValue? (hexDigit n) = some n := by decide
  exact all n small

theorem scanHex_control {n : Nat} (small : n < 32) (rest : List Char) :
    scanHex ('0' :: '0' :: hexDigit (n / 16) :: hexDigit (n % 16) :: rest) = some (n, rest) := by
  have zero : hexValue? '0' = some 0 := by decide
  have high := hexValue?_hexDigit (show n / 16 < 16 by omega)
  have low := hexValue?_hexDigit (show n % 16 < 16 by omega)
  simp only [scanHex, zero, high, low, bind, Option.bind, Option.some.injEq, Prod.mk.injEq, and_true]
  omega

theorem scanUnicode_control {c : Char} (control : c.toNat < 0x20) (rest : List Char) :
    scanUnicode ('0' :: '0' :: hexDigit (c.toNat / 16) :: hexDigit (c.toNat % 16) :: rest) = some (some c, rest) := by
  simp only [scanUnicode, scanHex_control control, Option.bind_eq_bind, Option.bind_some, Char.ofNat_toNat]
  rw [if_pos (by omega)]

/-- A character is written as a letter that stands for it, as its number, or as itself. -/
theorem escapeChar_cases (c : Char) :
    (∃ e, escapeChar c = ['\\', e] ∧ shortEscape? e = some c) ∨
    (c.toNat < 0x20 ∧ escapeChar c = ['\\', 'u', '0', '0', hexDigit (c.toNat / 16), hexDigit (c.toNat % 16)]) ∨
    (c ≠ '"' ∧ c ≠ '\\' ∧ ¬c.toNat < 0x20 ∧ escapeChar c = [c]) := by
  unfold escapeChar
  split_ifs with quote backslash backspace feed line back tab control
  · exact Or.inl ⟨'"', rfl, by rw [quote]; rfl⟩
  · exact Or.inl ⟨'\\', rfl, by rw [backslash]; rfl⟩
  · exact Or.inl ⟨'b', rfl, by rw [backspace]; rfl⟩
  · exact Or.inl ⟨'f', rfl, by rw [feed]; rfl⟩
  · exact Or.inl ⟨'n', rfl, by rw [line]; rfl⟩
  · exact Or.inl ⟨'r', rfl, by rw [back]; rfl⟩
  · exact Or.inl ⟨'t', rfl, by rw [tab]; rfl⟩
  · exact Or.inr (Or.inl ⟨control, rfl⟩)
  · exact Or.inr (Or.inr ⟨quote, backslash, control, rfl⟩)

section
variable {fuel : Nat} {cs rest more : List Char}

theorem scanChars_short {e d : Char} (short : shortEscape? e = some d) :
    scanChars (fuel + 1) ('\\' :: e :: rest) = (scanChars fuel rest).map fun (ds, rest) => (some d :: ds, rest) := by
  have letter : e ≠ 'u' := by
    rintro rfl
    cases short
  rw [scanChars, if_neg (by decide), if_pos rfl]
  simp only [if_neg letter, short, Option.map_some, Option.bind_eq_bind, Option.bind_some]
  cases scanChars fuel rest <;> rfl

theorem scanChars_unicode {d : Option Char} (unicode : scanUnicode rest = some (d, more)) :
    scanChars (fuel + 1) ('\\' :: 'u' :: rest) = (scanChars fuel more).map fun (ds, rest) => (d :: ds, rest) := by
  rw [scanChars, if_neg (by decide), if_pos rfl, if_pos rfl]
  simp only [unicode, Option.bind_eq_bind, Option.bind_some]
  cases scanChars fuel more <;> rfl

theorem scanChars_escapeChar (c : Char) : scanChars (fuel + 1) (escapeChar c ++ rest) =
    (scanChars fuel rest).map fun (ds, rest) => (some c :: ds, rest) := by
  rcases escapeChar_cases c with ⟨e, written, short⟩ | ⟨control, written⟩ | ⟨quote, backslash, visible, written⟩
  · rw [written]
    exact scanChars_short short
  · rw [written]
    exact scanChars_unicode (scanUnicode_control control rest)
  · simp only [written, List.singleton_append, scanChars, if_neg quote, if_neg backslash, if_neg visible]
    cases scanChars fuel rest <;> rfl

theorem length_le_flatMap_escapeChar (cs : List Char) : cs.length ≤ (cs.flatMap escapeChar).length := by
  have one (c : Char) : 1 ≤ (escapeChar c).length := by
    rcases escapeChar_cases c with ⟨e, written, -⟩ | ⟨-, written⟩ | ⟨-, -, -, written⟩ <;> simp [written]
  induction cs with
  | nil => exact Nat.zero_le _
  | cons c cs ih =>
    have := one c
    simp only [List.flatMap_cons, List.length_cons, List.length_append]
    omega

theorem scanChars_flatMap_escapeChar (enough : cs.length < fuel) :
    scanChars fuel (cs.flatMap escapeChar ++ '"' :: rest) = some (cs.map some, rest) := by
  induction cs generalizing fuel with
  | nil =>
    obtain _ | fuel := fuel
    · exact absurd enough (Nat.not_lt_zero _)
    · rfl
  | cons c cs ih =>
    obtain _ | fuel := fuel
    · exact absurd enough (Nat.not_lt_zero _)
    · rw [List.flatMap_cons, List.append_assoc, scanChars_escapeChar, ih (Nat.lt_of_succ_lt_succ enough)]
      rfl

theorem quoted_append (s : String) (rest : List Char) :
    quoted s ++ rest = '"' :: (s.toList.flatMap escapeChar ++ '"' :: rest) := by
  rw [quoted, List.append_assoc]
  rfl

theorem scanString_quoted (s : String) (rest : List Char) :
    scanString (s.toList.flatMap escapeChar ++ '"' :: rest) = some (some s, rest) := by
  have enough : s.toList.length < (s.toList.flatMap escapeChar ++ '"' :: rest).length + 1 := by
    have := length_le_flatMap_escapeChar s.toList
    rw [List.length_append]
    omega
  have whole : (s.toList.map some).mapM id = some s.toList := by
    rw [List.mapM_map]
    exact mapM_some s.toList
  simp only [scanString, scanChars_flatMap_escapeChar enough, Option.bind_eq_bind, Option.bind_some, whole,
    Option.map_some, String.ofList_toList]

end

/-! ### Numbers -/

/-- What may stand behind a value: the end of the text, or a character that no number goes on with. -/
inductive Ends : List Char → Prop where
  | text : Ends []
  | comma (rest : List Char) : Ends (',' :: rest)
  | bracket (rest : List Char) : Ends (']' :: rest)
  | brace (rest : List Char) : Ends ('\x7d' :: rest)

section
variable {n : Nat} {digits rest : List Char}

theorem decimalValue_toDigits (n : Nat) : Text.decimalValue (Nat.toDigits 10 n) = n := by
  refine Eq.trans ?_ (Nat.ofDigitChars_ten_toDigits (n := n))
  simp only [Text.decimalValue, Nat.ofDigitChars, Nat.mul_comm]
  rfl

theorem isDigit_of_mem_toDigits {c : Char} (member : c ∈ Nat.toDigits 10 n) : c.isDigit = true :=
  Nat.isDigit_of_mem_toDigits (by decide) (by decide) member

/-- A number has no zero in front. -/
theorem head?_toDigits_ne (positive : 0 < n) : (Nat.toDigits 10 n).head? ≠ some '0' := by
  induction n using Nat.strong_induction_on with
  | _ n ih =>
    rw [Nat.toDigits_eq_if (by decide)]
    split
    · next small =>
      have digit : ∀ n < 10, 0 < n → n.digitChar ≠ '0' := by decide
      simpa using digit n small positive
    · rw [List.head?_append_of_ne_nil _ Nat.toDigits_ne_nil]
      exact ih (n / 10) (by omega) (by omega)

/-- Digits whose number has 64 bits are all kept. -/
theorem whole_eq {value : Nat} (fits : digits.foldl (fun n c => n * 10 + Text.digitValue c) value < digitsBound) :
    Digits.whole ⟨value, 0, false⟩ digits = ⟨digits.foldl (fun n c => n * 10 + Text.digitValue c) value, 0, false⟩ := by
  induction digits generalizing value with
  | nil => rfl
  | cons c cs ih =>
    have low := Text.le_foldl_digits (value * 10 + Text.digitValue c) cs
    rw [List.foldl_cons] at fits
    rw [Digits.whole, if_neg (by simp only [Bool.false_eq_true, false_or]; omega)]
    exact ih fits

theorem takeWhile_isDigit_append (all : ∀ c ∈ digits, c.isDigit = true) (ends : Ends rest) :
    (digits ++ rest).takeWhile Char.isDigit = digits := by
  rw [List.takeWhile_append_of_pos all]
  cases ends <;> simp

theorem scanExponent_eq_none (ends : Ends rest) : scanExponent rest = some (none, rest) := by
  cases ends <;> rfl

theorem scanMagnitude_toDigits {negative : Bool} (fits : n < digitsBound)
    (low : negative = true → n ≠ 0 ∧ leastInteger ≤ -(n : Int)) (ends : Ends rest) :
    scanMagnitude negative (Nat.toDigits 10 n ++ rest) = some (.integer (if negative then -n else n), rest) := by
  have whole : Digits.whole ⟨0, 0, false⟩ (Nat.toDigits 10 n) = ⟨n, 0, false⟩ := by
    have value := decimalValue_toDigits n
    unfold Text.decimalValue at value
    rw [whole_eq (value.symm ▸ fits), value]
  -- Zero alone begins with a zero, and it is one digit long.
  have form : ¬(Nat.toDigits 10 n = [] ∨ (Nat.toDigits 10 n).length ≠ 1 ∧ (Nat.toDigits 10 n).head? = some '0') := by
    rintro (none | ⟨long, zero⟩)
    · exact Nat.toDigits_ne_nil none
    · rcases Nat.eq_zero_or_pos n with rfl | positive
      · exact long rfl
      · exact head?_toDigits_ne positive zero
  -- The number stays whole: it is not too small, and it is no zero with a sign.
  have inside : ¬((false : Bool) = true ∨ (if negative then -(n : Int) else n) < leastInteger ∨
      negative = true ∧ (if negative then -(n : Int) else n) = 0) := by
    cases negative with
    | false => simp [leastInteger]
    | true =>
      have := low rfl
      simp
      omega
  simp only [scanMagnitude, takeWhile_isDigit_append (fun c => isDigit_of_mem_toDigits) ends, if_neg form, whole,
    List.drop_left]
  split
  · cases ends
  · simp only [scanExponent_eq_none ends, Option.bind_eq_bind, Option.bind_some]
    rw [if_neg inside]

end

/-! ### Values -/

/-- Values that can be told from what is written of them: their numbers are whole and have at most 64 bits, and no part is
    unreadable. -/
inductive Plain : Json → Prop where
  | null : Plain .null
  | bool (value : Bool) : Plain (.bool value)
  | integer {n : Int} (low : leastInteger ≤ n) (high : n ≤ greatestInteger) : Plain (.integer n)
  | string (s : String) : Plain (.string s)
  | array {items : List Json} (all : ∀ v ∈ items, Plain v) : Plain (.array items)
  | object {members : List (String × Json)} (all : ∀ m ∈ members, Plain m.2) : Plain (.object members)

section
variable {v : Json} {items : List Json} {members : List (String × Json)} {cs rest : List Char}

theorem render_integer (n : Int) :
    render (.integer n) = if 0 ≤ n then Nat.toDigits 10 n.toNat else '-' :: Nat.toDigits 10 (-n).toNat := by
  rw [render, Int.toString_eq_repr, Int.repr_eq_if]
  split
  · exact Nat.toList_repr
  · rw [String.toList_append, Nat.toList_repr]
    rfl

theorem renderItems_cons_cons (v w : Json) (items : List Json) :
    renderItems (v :: w :: items) = render v ++ ',' :: renderItems (w :: items) := rfl

theorem renderMembers_cons_cons (key : String) (v : Json) (m : String × Json) (members : List (String × Json)) :
    renderMembers ((key, v) :: m :: members) = quoted key ++ ':' :: render v ++ ',' :: renderMembers (m :: members) := rfl

theorem ne_of_isDigit {c d : Char} (digit : c.isDigit = true) (other : d.isDigit = false) : c ≠ d := by
  rintro rfl
  cases digit.symm.trans other

theorem isSpace_of_isDigit {c : Char} (digit : c.isDigit = true) : isSpace c = false := by
  simp only [isSpace, Bool.or_eq_false_iff, decide_eq_false_iff_not]
  exact ⟨⟨⟨ne_of_isDigit digit rfl, ne_of_isDigit digit rfl⟩, ne_of_isDigit digit rfl⟩, ne_of_isDigit digit rfl⟩

/-- A value begins with a character of its own. -/
theorem exists_render (plain : v.Plain) : ∃ c cs, render v = c :: cs ∧ isSpace c = false ∧ c ≠ ']' := by
  cases plain with
  | null => exact ⟨'n', _, rfl, by decide⟩
  | bool value =>
    cases value with
    | false => exact ⟨'f', _, rfl, by decide⟩
    | true => exact ⟨'t', _, rfl, by decide⟩
  | @integer n =>
    rw [render_integer]
    split
    · cases written : Nat.toDigits 10 n.toNat with
      | nil => exact absurd written Nat.toDigits_ne_nil
      | cons c cs =>
        have digit : c.isDigit = true := isDigit_of_mem_toDigits (written ▸ List.mem_cons_self)
        exact ⟨c, cs, rfl, isSpace_of_isDigit digit, ne_of_isDigit digit rfl⟩
    · exact ⟨'-', _, rfl, by decide⟩
  | string s => exact ⟨'"', _, rfl, by decide⟩
  | array => exact ⟨'[', _, rfl, by decide⟩
  | object => exact ⟨'\x7b', _, rfl, by decide⟩

theorem exists_renderItems (plain : v.Plain) (items : List Json) :
    ∃ c cs, renderItems (v :: items) = c :: cs ∧ isSpace c = false ∧ c ≠ ']' := by
  obtain ⟨c, cs, written, visible, other⟩ := exists_render plain
  cases items with
  | nil => exact ⟨c, cs, written, visible, other⟩
  | cons w items => exact ⟨c, _, by rw [renderItems_cons_cons, written, List.cons_append], visible, other⟩

theorem exists_renderMembers (m : String × Json) (members : List (String × Json)) :
    ∃ cs, renderMembers (m :: members) = '"' :: cs := by
  cases members with
  | nil => exact ⟨_, rfl⟩
  | cons n members => exact ⟨_, rfl⟩

/-! The bounds of the readers are lengths of texts, and a text is at least as long as there are parts in it. -/

theorem length_le_renderItems (plain : ∀ v ∈ items, v.Plain) : items.length ≤ (renderItems items).length := by
  induction items with
  | nil => exact Nat.zero_le _
  | cons v items ih =>
    rw [List.forall_mem_cons] at plain
    obtain ⟨c, cs, written, -⟩ := exists_render plain.1
    have others := ih plain.2
    cases items with
    | nil => simp [renderItems, written]
    | cons w items =>
      simp only [renderItems_cons_cons, List.length_append, List.length_cons] at others ⊢
      omega

theorem length_render_le_renderItems (member : v ∈ items) : (render v).length ≤ (renderItems items).length := by
  induction items with
  | nil => cases member
  | cons w items ih =>
    cases items with
    | nil =>
      cases List.mem_singleton.mp member
      exact Nat.le_refl _
    | cons x items =>
      rw [renderItems_cons_cons, List.length_append, List.length_cons]
      rcases List.mem_cons.mp member with rfl | member
      · omega
      · have := ih member
        omega

theorem length_le_renderMembers (members : List (String × Json)) : members.length ≤ (renderMembers members).length := by
  induction members with
  | nil => exact Nat.zero_le _
  | cons m members ih =>
    obtain ⟨key, v⟩ := m
    cases members with
    | nil =>
      simp only [renderMembers, List.length_append, List.length_cons, List.length_nil]
      omega
    | cons n members =>
      simp only [renderMembers_cons_cons, List.length_append, List.length_cons] at ih ⊢
      omega

theorem length_render_le_renderMembers {m : String × Json} (member : m ∈ members) :
    (render m.2).length ≤ (renderMembers members).length := by
  induction members with
  | nil => cases member
  | cons n members ih =>
    obtain ⟨key, w⟩ := n
    cases members with
    | nil =>
      cases List.mem_singleton.mp member
      simp only [renderMembers, List.length_append, List.length_cons]
      omega
    | cons o members =>
      simp only [renderMembers_cons_cons, List.length_append, List.length_cons]
      rcases List.mem_cons.mp member with rfl | member
      · dsimp only
        omega
      · have := ih member
        omega

/-! ### Reading values -/

section
variable {one : Scan Json} {fuel : Nat}

theorem scanItems_renderItems (nonempty : items ≠ [])
    (reads : ∀ v ∈ items, ∀ rest, Ends rest → one (render v ++ rest) = some (v, rest)) (enough : items.length ≤ fuel) :
    scanItems one fuel (renderItems items ++ ']' :: rest) = some (items, rest) := by
  -- Behind the last item there is a bracket and behind the others a comma, so one item is a case of its own.
  induction items generalizing fuel with
  | nil => exact absurd rfl nonempty
  | cons v items ih =>
    obtain _ | fuel := fuel
    · exact absurd enough (Nat.not_succ_le_zero _)
    rw [List.forall_mem_cons] at reads
    cases items with
    | nil =>
      simp only [renderItems, scanItems, reads.1 _ (.bracket rest), Option.bind_eq_bind, Option.bind_some]
      rfl
    | cons w items =>
      have first := reads.1 _ (.comma (renderItems (w :: items) ++ ']' :: rest))
      have others := ih (List.cons_ne_nil w items) reads.2 (Nat.le_of_succ_le_succ enough)
      rw [renderItems_cons_cons, List.append_assoc, List.cons_append, scanItems, first]
      show (scanItems one fuel _ >>= _) = _
      rw [others]
      rfl

/-- Behind its key a member is read like an item. -/
theorem scanMembers_quoted (key : String) (more : List Char) :
    scanMembers one (fuel + 1) (quoted key ++ ':' :: more) = (do
      let (v, rest) ← one more
      match skipSpace rest with
      | ',' :: rest =>
        let (vs, rest) ← scanMembers one fuel rest
        some ((some key, v) :: vs, rest)
      | '\x7d' :: rest => some ([(some key, v)], rest)
      | _ => none) := by
  rw [quoted_append, scanMembers]
  show (scanString _).bind _ = _
  rw [scanString_quoted]
  rfl

theorem scanMembers_renderMembers (nonempty : members ≠ [])
    (reads : ∀ m ∈ members, ∀ rest, Ends rest → one (render m.2 ++ rest) = some (m.2, rest))
    (enough : members.length ≤ fuel) :
    scanMembers one fuel (renderMembers members ++ '\x7d' :: rest) =
      some (members.map fun m => (some m.1, m.2), rest) := by
  induction members generalizing fuel with
  | nil => exact absurd rfl nonempty
  | cons m members ih =>
    obtain ⟨key, v⟩ := m
    obtain _ | fuel := fuel
    · exact absurd enough (Nat.not_succ_le_zero _)
    rw [List.forall_mem_cons] at reads
    cases members with
    | nil =>
      rw [renderMembers, List.append_assoc, List.cons_append, scanMembers_quoted, reads.1 _ (.brace rest)]
      rfl
    | cons n members =>
      have first := reads.1 _ (.comma (renderMembers (n :: members) ++ '\x7d' :: rest))
      have others := ih (List.cons_ne_nil n members) reads.2 (Nat.le_of_succ_le_succ enough)
      rw [renderMembers_cons_cons, List.append_assoc, List.append_assoc, List.cons_append, List.cons_append,
        scanMembers_quoted, first]
      show (scanMembers one fuel _ >>= _) = _
      rw [others]
      rfl

end

/-- Behind its bracket an array that does not end at once is a row of items. -/
theorem scanValue_bracket (depth : Nat) (goes : ∀ rest, skipSpace cs ≠ ']' :: rest) :
    scanValue (depth + 1) ('[' :: cs) = (scanItems (scanValue depth) ((skipSpace cs).length + 1) (skipSpace cs)).map
      fun (vs, rest) => (.array vs, rest) := by
  have start : skipSpace ('[' :: cs) = '[' :: cs := rfl
  rw [scanValue, start]
  dsimp only
  rw [if_neg (by decide), if_pos rfl]
  split
  · next closed => exact absurd closed (goes _)
  · rfl

/-- Behind its brace an object that does not end at once is a row of members. -/
theorem scanValue_brace (depth : Nat) (goes : ∀ rest, skipSpace cs ≠ '\x7d' :: rest) :
    scanValue (depth + 1) ('\x7b' :: cs) = (scanMembers (scanValue depth) ((skipSpace cs).length + 1) (skipSpace cs)).map
      fun (vs, rest) => (objectOf vs, rest) := by
  have start : skipSpace ('\x7b' :: cs) = '\x7b' :: cs := rfl
  rw [scanValue, start]
  dsimp only
  rw [if_neg (by decide), if_neg (by decide), if_pos rfl]
  split
  · next closed => exact absurd closed (goes _)
  · rfl

theorem objectOf_some (members : List (String × Json)) :
    objectOf (members.map fun m => (some m.1, m.2)) = .object members := by
  rw [objectOf, List.mapM_map]
  split
  · next read whole =>
    cases whole.symm.trans (mapM_some members)
    rfl
  · next none => cases none.symm.trans (mapM_some members)

theorem scanValue_of_isDigit {c : Char} (digit : c.isDigit = true) (depth : Nat) :
    scanValue depth (c :: cs) = scanMagnitude false (c :: cs) := by
  have start : skipSpace (c :: cs) = c :: cs := List.dropWhile_cons_of_neg (by simp [isSpace_of_isDigit digit])
  rw [scanValue.eq_def]
  dsimp only
  rw [start]
  dsimp only
  rw [if_neg (ne_of_isDigit digit rfl), if_neg (ne_of_isDigit digit rfl), if_neg (ne_of_isDigit digit rfl),
    if_neg (ne_of_isDigit digit rfl), if_pos digit]

theorem scanValue_integer {n : Int} (low : leastInteger ≤ n) (high : n ≤ greatestInteger) (depth : Nat)
    (ends : Ends rest) : scanValue depth (render (.integer n) ++ rest) = some (.integer n, rest) := by
  unfold leastInteger at low
  unfold greatestInteger at high
  rw [render_integer]
  split
  · next natural =>
    have fits : n.toNat < digitsBound := by
      unfold digitsBound
      omega
    have unsigned : false = true → n.toNat ≠ 0 ∧ leastInteger ≤ -(n.toNat : Int) := nofun
    have reads := scanMagnitude_toDigits fits unsigned ends
    rw [if_neg Bool.false_ne_true, Int.toNat_of_nonneg natural] at reads
    cases written : Nat.toDigits 10 n.toNat with
    | nil => exact absurd written Nat.toDigits_ne_nil
    | cons c cs =>
      rw [List.cons_append, scanValue_of_isDigit (isDigit_of_mem_toDigits (written ▸ List.mem_cons_self))]
      rwa [written] at reads
  · rw [List.cons_append, scanValue]
    show scanMagnitude true _ = _
    rw [scanMagnitude_toDigits (by unfold digitsBound; omega) (fun _ => by unfold leastInteger; omega) ends, if_pos rfl,
      Int.toNat_of_nonneg (by omega), Int.neg_neg]

theorem scanValue_array {depth : Nat} (plain : ∀ v ∈ items, v.Plain)
    (reads : ∀ v ∈ items, ∀ rest, Ends rest → scanValue depth (render v ++ rest) = some (v, rest)) :
    scanValue (depth + 1) (render (.array items) ++ rest) = some (.array items, rest) := by
  have bracketed : render (.array items) ++ rest = '[' :: (renderItems items ++ ']' :: rest) := by
    rw [render, List.append_assoc]
    rfl
  rw [bracketed]
  cases items with
  | nil =>
    rw [scanValue]
    rfl
  | cons v items =>
    obtain ⟨c, cs, written, visible, other⟩ := exists_renderItems (plain v List.mem_cons_self) items
    have start : skipSpace (renderItems (v :: items) ++ ']' :: rest) = renderItems (v :: items) ++ ']' :: rest := by
      rw [written]
      exact List.dropWhile_cons_of_neg (by simp [visible])
    rw [scanValue_bracket, start, scanItems_renderItems (List.cons_ne_nil v items) reads]
    · rfl
    · have := length_le_renderItems plain
      rw [List.length_append]
      omega
    · intro more closed
      rw [start, written] at closed
      cases closed
      exact other rfl

theorem scanValue_object {depth : Nat}
    (reads : ∀ m ∈ members, ∀ rest, Ends rest → scanValue depth (render m.2 ++ rest) = some (m.2, rest)) :
    scanValue (depth + 1) (render (.object members) ++ rest) = some (.object members, rest) := by
  have braced : render (.object members) ++ rest = '\x7b' :: (renderMembers members ++ '\x7d' :: rest) := by
    rw [render, List.append_assoc]
    rfl
  rw [braced]
  cases members with
  | nil =>
    rw [scanValue]
    rfl
  | cons m members =>
    obtain ⟨cs, written⟩ := exists_renderMembers m members
    have start : skipSpace (renderMembers (m :: members) ++ '\x7d' :: rest) =
        renderMembers (m :: members) ++ '\x7d' :: rest := by
      rw [written]
      rfl
    rw [scanValue_brace, start, scanMembers_renderMembers (List.cons_ne_nil m members) reads]
    · show some (objectOf _, rest) = _
      rw [objectOf_some]
    · have := length_le_renderMembers (m :: members)
      rw [List.length_append]
      omega
    · intro more closed
      rw [start, written] at closed
      cases closed

/-- What is written of a value is read up to its end, if the levels suffice. Every level is at least one character. -/
theorem scanValue_render (plain : v.Plain) {depth : Nat} (deep : (render v).length ≤ depth) (ends : Ends rest) :
    scanValue depth (render v ++ rest) = some (v, rest) := by
  induction plain generalizing depth rest with
  | null =>
    rw [scanValue]
    rfl
  | bool value => cases value <;> (rw [scanValue]; rfl)
  | integer low high => exact scanValue_integer low high depth ends
  | string s =>
    rw [render, quoted_append, scanValue]
    show (scanString _).map _ = _
    rw [scanString_quoted]
    rfl
  | array all ih =>
    simp only [render, List.length_append, List.length_cons, List.length_nil] at deep
    obtain _ | depth := depth
    · omega
    refine scanValue_array all fun v member rest ends => ih v member ?_ ends
    have := length_render_le_renderItems member
    omega
  | object all ih =>
    simp only [render, List.length_append, List.length_cons, List.length_nil] at deep
    obtain _ | depth := depth
    · omega
    refine scanValue_object fun m member rest ends => ih m member ?_ ends
    have := length_render_le_renderMembers member
    omega

/-- What is written on one line is read as the value that it was written from. -/
theorem scan_print (plain : v.Plain) : scan v.print = some v := by
  have reads : scanValue (render v).length (render v) = some (v, []) := by
    simpa using scanValue_render plain (Nat.le_refl _) .text
  rw [scan, print, String.toList_ofList]
  simp only [reads, Option.bind_eq_bind, Option.bind_some]
  rfl

end

end Json
end DurableQueue
