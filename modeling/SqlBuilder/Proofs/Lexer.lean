import Mathlib.Data.List.Basic
import SqlBuilder.Sql.Writer
import SqlBuilder.Text.Digits

/-!
# The tokens of a text

`lex` cuts a text into words, names between quotes, placeholders, numbers, operators and
punctuation, and skips blanks.  It reads the characters one by one; a `Reading` is a token that has
begun.  Main statements:

* `lex_append`: where a blank, a parenthesis, a comma, a point or a star stands at the border of two
  texts, the tokens of the whole are those of the first and then those of the second;
* `lex_identifier`: a name as it is written is one token, which carries the name, whatever
  characters are in it;
* `lex_number` and `lex_placeholder`: so are a number and a placeholder.
-/

namespace SqlBuilder

/-- A token of SQL.  A placeholder without a number is a question mark. -/
inductive Token where
  | word (s : String)
  | quoted (name : String)
  | placeholder (n : Option Nat)
  | number (n : Nat)
  | symbol (s : String)
  deriving DecidableEq, Repr

/-! ## The lexer -/

/-- What has been read of a token. -/
inductive Reading where
  /-- No token has begun. -/
  | blank
  | word (cs : List Char)
  /-- A name whose closing quote has not been met. -/
  | inside (cs : List Char)
  /-- A name before a quote, which is its last or the first of two. -/
  | quote (cs : List Char)
  | number (n : Nat)
  /-- A dollar sign and the number of the digits after it, if there are any. -/
  | dollar (n : Option Nat)
  | less
  | greater
  /-- A token that nothing can be added to. -/
  | complete (t : Token)

namespace Reading

/-- The beginning of a token, or a blank. -/
def begin (c : Char) : Option Reading :=
  if isWordStart c then some (word [c])
  else if c.isDigit then some (number (digitValue c))
  else if c.isWhitespace then some blank
  else if c = '"' then some (inside [])
  else if c = '$' then some (dollar none)
  else if c = '?' then some (complete (.placeholder none))
  else if c = '<' then some less
  else if c = '>' then some greater
  else if c ∈ ['(', ')', ',', '.', '*', '='] then some (complete (.symbol (String.singleton c)))
  else none

/-- The token with one more character, if it goes on. -/
def extend : Reading → Char → Option Reading
  | word cs, c => if isWordPart c then some (word (cs ++ [c])) else none
  | inside cs, c => some (if c = '"' then quote cs else inside (cs ++ [c]))
  | quote cs, c => if c = '"' then some (inside (cs ++ ['"'])) else none
  | number n, c => if c.isDigit then some (number (10 * n + digitValue c)) else none
  | dollar n, c => if c.isDigit then some (dollar (some (10 * n.getD 0 + digitValue c))) else none
  | less, c =>
    if c = '=' then some (complete (.symbol "<="))
    else if c = '>' then some (complete (.symbol "<>"))
    else none
  | greater, c => if c = '=' then some (complete (.symbol ">=")) else none
  | blank, _ => none
  | complete _, _ => none

/-- The token, if it may end here. -/
def finish : Reading → Option (List Token)
  | blank => some []
  | word cs => some [.word (String.ofList cs)]
  | inside _ => none
  | quote cs => some [.quoted (String.ofList cs)]
  | number n => some [.number n]
  | dollar n => n.map fun n => [.placeholder (some n)]
  | less => some [.symbol "<"]
  | greater => some [.symbol ">"]
  | complete t => some [t]

/-- The tokens of the characters that follow what has been read. -/
def tokens : Reading → List Char → Option (List Token)
  | r, [] => r.finish
  | r, c :: cs =>
    match r.extend c with
    | some r' => tokens r' cs
    | none =>
      match r.finish, begin c with
      | some ts, some r' => (tokens r' cs).map fun us => ts ++ us
      | _, _ => none

end Reading

/-- The tokens of a text, if it consists of tokens and blanks. -/
def lex (s : String) : Option (List Token) :=
  Reading.blank.tokens s.toList

example : lex "SELECT \"a\"\"b\" FROM t WHERE (x<>$12)" =
    some [.word "SELECT", .quoted "a\"b", .word "FROM", .word "t", .word "WHERE", .symbol "(",
      .word "x", .symbol "<>", .placeholder (some 12), .symbol ")"] := by
  decide

/-! ## Borders of tokens -/

/-- The characters at which every token but a name between quotes ends. -/
def isBreak (c : Char) : Bool :=
  c ∈ [' ', '(', ')', ',', '.', '*']

theorem isBreak_iff {c : Char} :
    isBreak c ↔ c = ' ' ∨ c = '(' ∨ c = ')' ∨ c = ',' ∨ c = '.' ∨ c = '*' := by
  simp only [isBreak, List.mem_cons, List.not_mem_nil, or_false, decide_eq_true_eq]

/-- Whether a text is empty or begins with a break. -/
def startsWithBreak (s : String) : Bool :=
  s.toList.head?.all isBreak

/-- Whether a text ends with a break. -/
def endsWithBreak (s : String) : Bool :=
  s.toList.getLast?.any isBreak

theorem startsWithBreak_append {a b : String} (ha : startsWithBreak a)
    (hb : a = "" → startsWithBreak b) : startsWithBreak (a ++ b) := by
  unfold startsWithBreak at *
  rw [String.toList_append]
  cases h : a.toList with
  | nil => exact hb (String.toList_eq_nil_iff.1 h)
  | cons c cs =>
    rw [h] at ha
    exact ha

namespace Reading

theorem tokens_cons_of_extend {r r' : Reading} {c : Char} (h : r.extend c = some r')
    (cs : List Char) : r.tokens (c :: cs) = r'.tokens cs := by
  rw [tokens, h]

theorem tokens_cons_of_finish {r r' : Reading} {c : Char} {ts : List Token}
    (he : r.extend c = none) (hf : r.finish = some ts) (hb : begin c = some r') (cs : List Char) :
    r.tokens (c :: cs) = (r'.tokens cs).map fun us => ts ++ us := by
  rw [tokens, he, hf, hb]

theorem tokens_blank_cons {r : Reading} {c : Char} (h : begin c = some r) (cs : List Char) :
    blank.tokens (c :: cs) = r.tokens cs := by
  rw [tokens_cons_of_finish rfl rfl h]
  exact Option.map_id'

/-- A break is a blank or a token of its own. -/
theorem begin_of_isBreak {c : Char} (h : isBreak c) :
    begin c = some blank ∨ ∃ t, begin c = some (complete t) := by
  rcases isBreak_iff.1 h with rfl | rfl | rfl | rfl | rfl | rfl
  · exact Or.inl rfl
  all_goals exact Or.inr ⟨_, rfl⟩

/-- No token goes on with a break but a name between quotes, which has not ended then. -/
theorem extend_of_isBreak {c : Char} (h : isBreak c) {r : Reading} {ts : List Token}
    (hr : r.finish = some ts ∨ r.tokens [c] = some ts) : r.extend c = none := by
  cases r with
  | inside cs =>
    -- a name between quotes does not end here, nor with the break in it
    rcases isBreak_iff.1 h with rfl | rfl | rfl | rfl | rfl | rfl <;>
      rcases hr with hr | hr <;> cases hr
  | _ => rcases isBreak_iff.1 h with rfl | rfl | rfl | rfl | rfl | rfl <;> rfl

/-- The tokens of a text are those that end in its first part, and those of the rest together with
what has been read of a token before it. -/
theorem exists_reading {r : Reading} {cs ds : List Char} {ts : List Token}
    (h : r.tokens (cs ++ ds) = some ts) :
    ∃ (us vs : List Token) (r' : Reading), ts = us ++ vs ∧ r'.tokens ds = some vs ∧
      ∀ es, r.tokens (cs ++ es) = (r'.tokens es).map fun ws => us ++ ws := by
  induction cs generalizing r ts with
  | nil => exact ⟨[], ts, r, rfl, h, fun es => Option.map_id'.symm⟩
  | cons c cs ih =>
    rw [List.cons_append] at h
    rcases he : r.extend c with _ | r'
    · rw [tokens, he] at h
      rcases hf : r.finish with _ | us
      · rw [hf] at h
        cases h
      rcases hb : begin c with _ | r'
      · rw [hf, hb] at h
        cases h
      rw [hf, hb] at h
      obtain ⟨vs, hvs, rfl⟩ := Option.map_eq_some_iff.1 h
      obtain ⟨vs, ws, r'', rfl, hds, hes⟩ := ih hvs
      refine ⟨us ++ vs, ws, r'', (List.append_assoc us vs ws).symm, hds, fun es => ?_⟩
      rw [List.cons_append, tokens_cons_of_finish he hf hb, hes, Option.map_map]
      congr 1
      funext xs
      exact (List.append_assoc us vs xs).symm
    · rw [tokens_cons_of_extend he] at h
      obtain ⟨us, vs, r'', rfl, hds, hes⟩ := ih h
      refine ⟨us, vs, r'', rfl, hds, fun es => ?_⟩
      rw [List.cons_append, tokens_cons_of_extend he, hes]

/-- After a blank or a token of its own, a token can only begin. -/
theorem tokens_eq_of_closed {r : Reading} {ts : List Token} (hf : r.finish = some ts)
    (he : ∀ c, r.extend c = none) (cs : List Char) :
    r.tokens cs = (blank.tokens cs).map fun us => ts ++ us := by
  cases cs with
  | nil => exact hf.trans (congrArg some (List.append_nil ts).symm)
  | cons c cs =>
    rcases hb : begin c with _ | r'
    · rw [tokens, he, hf, hb, tokens, hb]
      rfl
    · rw [tokens_cons_of_finish (he c) hf hb, tokens_blank_cons hb]

/-- A break ends what was read before it. -/
theorem tokens_break {c : Char} (h : isBreak c) {r : Reading} {ts : List Token}
    (hr : r.finish = some ts) (cs : List Char) :
    r.tokens (c :: cs) = (blank.tokens (c :: cs)).map fun us => ts ++ us := by
  obtain ⟨r', hb⟩ : ∃ r', begin c = some r' := by
    rcases begin_of_isBreak h with hb | ⟨t, hb⟩
    · exact ⟨_, hb⟩
    · exact ⟨_, hb⟩
  rw [tokens_cons_of_finish (extend_of_isBreak h (Or.inl hr)) hr hb, tokens_blank_cons hb]

/-- What follows a break does not go on with it. -/
theorem tokens_after_break {c : Char} (h : isBreak c) {r : Reading} {ts : List Token}
    (hr : r.tokens [c] = some ts) (cs : List Char) :
    r.tokens (c :: cs) = (blank.tokens cs).map fun us => ts ++ us := by
  have he := extend_of_isBreak h (Or.inr hr)
  rcases hf : r.finish with _ | us
  · rw [tokens, he, hf] at hr
    cases hr
  obtain ⟨r', vs, hb, hr', closed⟩ : ∃ r' vs, begin c = some r' ∧ r'.finish = some vs ∧
      ∀ c, r'.extend c = none := by
    rcases begin_of_isBreak h with hb | ⟨t, hb⟩
    · exact ⟨_, _, hb, rfl, fun _ => rfl⟩
    · exact ⟨_, _, hb, rfl, fun _ => rfl⟩
  rw [tokens_cons_of_finish he hf hb] at hr ⊢
  rw [tokens, hr'] at hr
  obtain rfl : us ++ vs = ts := Option.some.inj hr
  rw [tokens_eq_of_closed hr' closed, Option.map_map]
  congr 1
  funext ws
  exact (List.append_assoc us vs ws).symm

end Reading

theorem Reading.tokens_append {as bs : List Char} {ts us : List Token}
    (ha : blank.tokens as = some ts) (hb : blank.tokens bs = some us)
    (h : as.getLast?.any isBreak ∨ bs.head?.all isBreak) :
    blank.tokens (as ++ bs) = some (ts ++ us) := by
  rcases h with h | h
  · obtain ⟨c, hc, hbreak⟩ := (Option.any_eq_true _ _).1 h
    obtain ⟨as, rfl⟩ := List.getLast?_eq_some_iff.1 hc
    obtain ⟨vs, ws, r, rfl, hr, hes⟩ := exists_reading ha
    rw [List.append_assoc, hes, List.singleton_append, tokens_after_break hbreak hr, hb,
      List.append_assoc]
    rfl
  · cases bs with
    | nil =>
      obtain rfl : [] = us := Option.some.inj hb
      rw [List.append_nil, List.append_nil, ha]
    | cons c bs =>
      rw [← List.append_nil as] at ha
      obtain ⟨vs, ws, r, rfl, hr, hes⟩ := exists_reading ha
      rw [hes, tokens_break h hr, hb, List.append_assoc]
      rfl

/-- Where a break stands at the border of two texts, no token spans it. -/
theorem lex_append {a b : String} {ts us : List Token} (ha : lex a = some ts)
    (hb : lex b = some us) (h : endsWithBreak a ∨ startsWithBreak b) :
    lex (a ++ b) = some (ts ++ us) := by
  rw [lex, String.toList_append]
  exact Reading.tokens_append ha hb h

/-! ## Names -/

/-- The token of a name, which carries it as it is; only the lone star is no name. -/
def Token.ofName (always : Bool) (name : String) : Token :=
  if name = "*" then .symbol "*"
  else if !always && Identifier.isPlain name then .word name
  else .quoted name

namespace Reading

theorem tokens_word (cs : List Char) {ds : List Char} (h : ds.all isWordPart) :
    (word cs).tokens ds = some [.word (String.ofList (cs ++ ds))] := by
  induction ds generalizing cs with
  | nil => rw [List.append_nil]; rfl
  | cons d ds ih =>
    rw [List.all_cons, Bool.and_eq_true] at h
    have he : (word cs).extend d = some (word (cs ++ [d])) := if_pos h.1
    rw [tokens_cons_of_extend he, ih _ h.2, List.append_assoc, List.singleton_append]

/-- Within quotes, two quotes stand for one, and a quote alone ends the name. -/
theorem tokens_inside (cs ds : List Char) :
    (inside cs).tokens (Identifier.doubleQuotes ds ++ ['"']) =
      some [.quoted (String.ofList (cs ++ ds))] := by
  induction ds generalizing cs with
  | nil => rw [List.append_nil]; rfl
  | cons d ds ih =>
    have step : (cs ++ [d]) ++ ds = cs ++ d :: ds := by
      rw [List.append_assoc, List.singleton_append]
    rw [Identifier.doubleQuotes, ← step]
    split_ifs with hd
    · subst hd
      have opened : (inside cs).extend '"' = some (quote cs) := rfl
      have doubled : (quote cs).extend '"' = some (inside (cs ++ ['"'])) := rfl
      rw [List.cons_append, List.cons_append, tokens_cons_of_extend opened,
        tokens_cons_of_extend doubled, ih]
    · have he : (inside cs).extend d = some (inside (cs ++ [d])) := congrArg some (if_neg hd)
      rw [List.cons_append, tokens_cons_of_extend he, ih]

end Reading

theorem lex_plain {name : String} (h : Identifier.isPlain name) : lex name = some [.word name] := by
  rw [Identifier.isPlain] at h
  rw [lex, ← String.ofList_toList (s := name)]
  generalize name.toList = cs at *
  rw [String.toList_ofList]
  cases cs with
  | nil => cases h
  | cons c cs =>
    rw [Identifier.isPlainWord, Bool.and_eq_true] at h
    have hb : Reading.begin c = some (.word [c]) := if_pos h.1
    rw [Reading.tokens_blank_cons hb, Reading.tokens_word [c] h.2]
    rfl

theorem lex_quoted (name : String) : lex (Identifier.quoted name) = some [.quoted name] := by
  have chars : (Identifier.quoted name).toList =
      '"' :: (Identifier.doubleQuotes name.toList ++ ['"']) := by
    simp [Identifier.quoted]
  rw [lex, chars, Reading.tokens_blank_cons (r := .inside []) rfl, Reading.tokens_inside,
    List.nil_append, String.ofList_toList]

/-- A name as it is written is one token, whatever characters are in it. -/
theorem lex_identifier (always : Bool) (name : String) :
    lex (Identifier.write always name) = some [Token.ofName always name] := by
  unfold Identifier.write Token.ofName
  by_cases star : name = "*"
  · subst star
    cases always <;> decide
  · rw [if_neg star, decide_eq_false star, Bool.false_or]
    split_ifs with plain
    · exact lex_plain (Bool.and_eq_true_iff.1 plain).2
    · exact lex_quoted name

/-! ## Numbers and placeholders -/

/-- The token of the `n`th placeholder, which has a number only after a dollar sign. -/
def Token.ofPlaceholder : Placeholder → Nat → Token
  | .dollar, n => .placeholder (some n)
  | .questionMark, _ => .placeholder none

theorem isWordStart_of_isDigit {c : Char} (h : c.isDigit) : isWordStart c = false := by
  have range : 48 ≤ c.toNat ∧ c.toNat ≤ 57 := by
    simpa [Char.isDigit, UInt32.le_iff_toNat_le] using h
  have underscore : c ≠ '_' := by
    rintro rfl
    revert range
    decide
  have upper : c.isUpper = decide ('A'.val ≤ c.val ∧ c.val ≤ 'Z'.val) := rfl
  have lower : c.isLower = (decide ('a'.val ≤ c.val) && decide (c.val ≤ 'z'.val)) := rfl
  have alpha : c.isAlpha = (c.isUpper || c.isLower) := rfl
  simp only [isWordStart, alpha, upper, lower, UInt32.le_iff_toNat_le, Char.toNat_val,
    beq_eq_false_iff_ne.2 underscore, Bool.false_or, Bool.or_eq_false_iff,
    Bool.and_eq_false_iff, decide_eq_false_iff_not, Char.reduceToNat]
  omega

theorem begin_of_isDigit {c : Char} (h : c.isDigit) :
    Reading.begin c = some (.number (digitValue c)) := by
  rw [Reading.begin, isWordStart_of_isDigit h, if_neg Bool.false_ne_true, if_pos h]

/-- The digits of a number: the first, and the others, which say the rest of the number. -/
theorem exists_digits (n : Nat) :
    ∃ d ds, (toString n).toList = d :: ds ∧ d.isDigit ∧ (∀ c ∈ ds, c.isDigit) ∧
      Nat.ofDigitChars 10 ds (digitValue d) = n := by
  have digits : ∀ d ∈ Nat.toDigits 10 n, d.isDigit := fun d hd =>
    Nat.isDigit_of_mem_toDigits (b := 10) (by decide) (by decide) hd
  have value := Nat.ofDigitChars_ten_toDigits (n := n)
  rw [show (toString n).toList = Nat.toDigits 10 n from Nat.toList_repr]
  cases hn : Nat.toDigits 10 n with
  | nil => exact absurd hn Nat.toDigits_ne_nil
  | cons d ds =>
    rw [hn] at digits value
    obtain ⟨hd, hds⟩ := List.forall_mem_cons.1 digits
    rw [Nat.ofDigitChars_cons, Nat.mul_zero, Nat.zero_add] at value
    exact ⟨d, ds, rfl, hd, hds, value⟩

namespace Reading

theorem tokens_number (n : Nat) {ds : List Char} (h : ∀ d ∈ ds, d.isDigit) :
    (number n).tokens ds = some [.number (Nat.ofDigitChars 10 ds n)] := by
  induction ds generalizing n with
  | nil => rfl
  | cons d ds ih =>
    obtain ⟨hd, hds⟩ := List.forall_mem_cons.1 h
    have he : (number n).extend d = some (number (10 * n + digitValue d)) := if_pos hd
    rw [tokens_cons_of_extend he, ih _ hds, Nat.ofDigitChars_cons]
    rfl

theorem tokens_dollar (n : Nat) {ds : List Char} (h : ∀ d ∈ ds, d.isDigit) :
    (dollar (some n)).tokens ds = some [.placeholder (some (Nat.ofDigitChars 10 ds n))] := by
  induction ds generalizing n with
  | nil => rfl
  | cons d ds ih =>
    obtain ⟨hd, hds⟩ := List.forall_mem_cons.1 h
    have he : (dollar (some n)).extend d = some (dollar (some (10 * n + digitValue d))) := if_pos hd
    rw [tokens_cons_of_extend he, ih _ hds, Nat.ofDigitChars_cons]
    rfl

end Reading

theorem lex_number (n : Nat) : lex (toString n) = some [.number n] := by
  obtain ⟨d, ds, digits, hd, hds, value⟩ := exists_digits n
  rw [lex, digits, Reading.tokens_blank_cons (begin_of_isDigit hd), Reading.tokens_number _ hds,
    value]

theorem lex_dollar (n : Nat) : lex ("$" ++ toString n) = some [.placeholder (some n)] := by
  obtain ⟨d, ds, digits, hd, hds, value⟩ := exists_digits n
  have chars : ("$" ++ toString n).toList = '$' :: d :: ds := by
    rw [String.toList_append, digits]
    rfl
  have he : (Reading.dollar none).extend d = some (.dollar (some (10 * 0 + digitValue d))) :=
    if_pos hd
  rw [Nat.mul_zero, Nat.zero_add] at he
  rw [lex, chars, Reading.tokens_blank_cons (r := .dollar none) rfl,
    Reading.tokens_cons_of_extend he, Reading.tokens_dollar _ hds, value]

theorem lex_placeholder (p : Placeholder) (n : Nat) :
    lex (Writing.placeholder p n) = some [Token.ofPlaceholder p n] := by
  cases p with
  | dollar => exact lex_dollar n
  | questionMark =>
    change lex "?" = some [.placeholder none]
    decide

end SqlBuilder
