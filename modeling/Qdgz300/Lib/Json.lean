import Mathlib.Algebra.GroupWithZero.Nat
import Mathlib.Data.List.TakeWhile

/-!
# JSON texts

`Json.parse` reads a text, a list of characters, as one JSON value: a recursive descent over
readers, each of which takes a value off the front of a text and returns the rest. A number keeps
its token, an object its members in order, repeated keys included.

* Strings: `string_verbatim` reads back characters that stand for themselves, and
  `verbatim_of_string` says that a text closed by a quote that reads as itself has no others.
* `value_reads`: a value is read in the same way in front of any text that does not continue it,
  with any fuel above the length of the text. So `parse` never fails for want of fuel (`parse_iff`).
-/

/-- A JSON value. -/
inductive Json where
  | null
  | bool (b : Bool)
  | num (token : List Char)
  | str (text : List Char)
  | arr (items : List Json)
  | obj (members : List (List Char × Json))

namespace Json

/-- A reader takes a value off the front of a text. -/
abbrev Reader (α : Type*) := List Char → Option (α × List Char)

def isSpace (c : Char) : Bool := c = ' ' || c = '\t' || c = '\n' || c = '\r'

def skip (s : List Char) : List Char := s.dropWhile isSpace

/-! ## Strings -/

/-- Where a string is being read: between characters, behind a backslash, in the digits of `\u`
(with the first half of a surrogate pair, if it was read) and between the two halves of a pair. -/
inductive Scan where
  | plain
  | escape
  | hex (high : Option Nat) (digits : List Nat)
  | pair (high : Nat)
  | pairEscape (high : Nat)
  deriving DecidableEq

def simpleEscape (c : Char) : Option Char :=
  if c = '"' ∨ c = '\\' ∨ c = '/' then some c
  else if c = 'b' then some '\x08'
  else if c = 'f' then some '\x0c'
  else if c = 'n' then some '\n'
  else if c = 'r' then some '\r'
  else if c = 't' then some '\t'
  else none

def hexDigit (c : Char) : Option Nat :=
  if '0' ≤ c ∧ c ≤ '9' then some (c.toNat - 48)
  else if 'a' ≤ c ∧ c ≤ 'f' then some (c.toNat - 87)
  else if 'A' ≤ c ∧ c ≤ 'F' then some (c.toNat - 55)
  else none

/-- Four digits read. Half of a surrogate pair does not stand alone. -/
def codePoint (high : Option Nat) (code : Nat) : Option (Scan × List Char) :=
  match high with
  | none =>
    if 0xD800 ≤ code ∧ code < 0xDC00 then some (.pair code, [])
    else if 0xDC00 ≤ code ∧ code < 0xE000 then none
    else some (.plain, [Char.ofNat code])
  | some first =>
    if 0xDC00 ≤ code ∧ code < 0xE000 then
      some (.plain, [Char.ofNat (0x10000 + 0x400 * (first - 0xD800) + (code - 0xDC00))])
    else none

/-- One character of a string: what it completes, if anything. -/
def Scan.step : Scan → Char → Option (Scan × List Char)
  | .plain, c =>
    if c = '\\' then some (.escape, []) else if c < ' ' then none else some (.plain, [c])
  | .escape, c =>
    if c = 'u' then some (.hex none [], []) else (simpleEscape c).map fun d => (.plain, [d])
  | .hex high digits, c => (hexDigit c).bind fun d =>
    if digits.length < 3 then some (.hex high (digits ++ [d]), [])
    else codePoint high (digits.foldl (fun n d => 16 * n + d) 0 * 16 + d)
  | .pair high, c => if c = '\\' then some (.pairEscape high, []) else none
  | .pairEscape high, c => if c = 'u' then some (.hex (some high) [], []) else none

/-- A string up to its closing quote. -/
def string : Scan → List Char → Option (List Char × List Char)
  | _, [] => none
  | st, c :: r =>
    if st = .plain ∧ c = '"' then some ([], r)
    else (st.step c).bind fun p => (string p.1 r).map fun q => (p.2 ++ q.1, q.2)

/-! ## Numbers and names -/

def isDigits (s : List Char) : Bool := !s.isEmpty && s.all Char.isDigit

def isExponent : List Char → Bool
  | [] => true
  | e :: r => (e = 'e' || e = 'E') &&
    (isDigits r || ((r.head? = some '+' || r.head? = some '-') && isDigits r.tail))

def isFraction : List Char → Bool
  | [] => true
  | c :: r =>
    if c = '.' then !(r.takeWhile Char.isDigit).isEmpty && isExponent (r.dropWhile Char.isDigit)
    else isExponent (c :: r)

def isUnsigned (s : List Char) : Bool :=
  let whole := s.takeWhile Char.isDigit
  (whole = ['0'] || (!whole.isEmpty && whole.head? ≠ some '0')) && isFraction
    (s.dropWhile Char.isDigit)

def isNumber (s : List Char) : Bool :=
  if s.head? = some '-' then isUnsigned s.tail else isUnsigned s

/-- The value of a word: a number or one of the three names. -/
def word (w : List Char) : Option Json :=
  if isNumber w then some (.num w)
  else if w = "null".toList then some .null
  else if w = "true".toList then some (.bool true)
  else if w = "false".toList then some (.bool false)
  else none

def isWordChar (c : Char) : Bool := c.isAlphanum || c = '+' || c = '-' || c = '.'

/-- A number or a name reaches as far as its characters. -/
def scalar (s : List Char) : Option (Json × List Char) :=
  (word (s.takeWhile isWordChar)).map fun v => (v, s.dropWhile isWordChar)

/-! ## Values -/

section
variable {α : Type*} (item : Reader α) (close : Char)

/-- Items separated by commas, up to `close`. -/
def items : Nat → List Char → Option (List α × List Char)
  | 0, _ => none
  | n + 1, s => (item s).bind fun p =>
    match skip p.2 with
    | [] => none
    | c :: r =>
      if c = ',' then (items n (skip r)).map fun q => (p.1 :: q.1, q.2)
      else if c = close then some ([p.1], r)
      else none

/-- The inside of an array or object. -/
def block (n : Nat) (s : List Char) : Option (List α × List Char) :=
  match skip s with
  | [] => none
  | c :: r => if c = close then some ([], r) else items item close n (c :: r)

end

/-- A key, a colon and a value. -/
def member (value : Reader Json) : List Char → Option ((List Char × Json) × List Char)
  | [] => none
  | c :: s =>
    if c = '"' then (string .plain s).bind fun key =>
      match skip key.2 with
      | [] => none
      | d :: r => if d = ':' then (value (skip r)).map fun v => ((key.1, v.1), v.2) else none
    else none

/-- A value, with fuel for its depth and its items. -/
def value : Nat → List Char → Option (Json × List Char)
  | 0, _ => none
  | _ + 1, [] => none
  | n + 1, c :: s =>
    if c = '\x7b' then (block (member (value n)) '\x7d' n s).map fun p => (.obj p.1, p.2)
    else if c = '[' then (block (value n) ']' n s).map fun p => (.arr p.1, p.2)
    else if c = '"' then (string .plain s).map fun p => (.str p.1, p.2)
    else scalar (c :: s)

/-- A text as one value. -/
def parse (s : List Char) : Option Json :=
  (value (s.length + 1) (skip s)).bind fun p => if skip p.2 = [] then some p.1 else none

example : parse "[1, \"a\\u0042\\n\", -2.5e+1, \x7b\"k\":null\x7d]".toList = some (.arr
    [.num "1".toList, .str "aB\n".toList, .num "-2.5e+1".toList, .obj [("k".toList, .null)]]) := rfl

example : (parse "[01]".toList).isNone ∧ (parse "\"\t\"".toList).isNone ∧
    (parse "\"\\ud83d\"".toList).isNone := by decide

/-! ## Characters -/

/-- A character that stands for itself in a string. -/
def Verbatim (c : Char) : Prop := c ≠ '"' ∧ c ≠ '\\' ∧ ¬ c < ' '

instance (c : Char) : Decidable (Verbatim c) := inferInstanceAs (Decidable (_ ∧ _ ∧ _))

/-- A text that cannot continue a value. -/
def Stop (t : List Char) : Prop := ∀ c ∈ t.head?, isSpace c = false ∧ isWordChar c = false

theorem stop_nil : Stop [] := fun _ h => nomatch h

theorem skip_of_stop {t : List Char} (ht : Stop t) : skip t = t := by
  cases t with
  | nil => rfl
  | cons c t => simp [skip, (ht c rfl).1]

theorem skip_append {t : List Char} (ht : Stop t) (s : List Char) :
    skip (s ++ t) = skip s ++ t := by
  have hskip : t.dropWhile isSpace = t := skip_of_stop ht
  rw [skip, List.dropWhile_append, hskip]
  split
  · rename_i h
    rw [skip, List.isEmpty_iff.1 h, List.nil_append]
  · rfl

theorem length_skip_le (s : List Char) : (skip s).length ≤ s.length :=
  (List.dropWhile_suffix isSpace).length_le

/-! ## Reading in front of more text -/

/-- What `p` reads off a text of at most `n` characters, `q` reads off it in front of `t`; and it is
not empty. -/
def Carries {α : Type*} (t : List Char) (n : Nat) (p q : Reader α) : Prop :=
  ∀ s v r, s.length ≤ n → p s = some (v, r) → r.length < s.length ∧ q (s ++ t) = some (v, r ++ t)

theorem string_reads (t : List Char) :
    ∀ (s : List Char) (st : Scan) (v r : List Char), string st s = some (v, r) →
      r.length < s.length ∧ string st (s ++ t) = some (v, r ++ t)
  | [], _, _, _, h => nomatch h
  | c :: s, st, v, r, h => by
    rw [string] at h
    rw [List.cons_append, string]
    split at h
    · rename_i hend
      cases h
      rw [if_pos hend]
      exact ⟨Nat.lt_succ_self _, rfl⟩
    · rename_i hend
      rw [if_neg hend]
      obtain ⟨p, hp, h⟩ := Option.bind_eq_some_iff.1 h
      obtain ⟨q, hq, h⟩ := Option.map_eq_some_iff.1 h
      cases h
      obtain ⟨hlt, hrest⟩ := string_reads t s p.1 q.1 q.2 hq
      refine ⟨Nat.lt_succ_of_lt hlt, ?_⟩
      rw [hp, Option.bind_some, hrest, Option.map_some]

theorem scalar_reads {t : List Char} (ht : Stop t) {s r : List Char} {v : Json}
    (h : scalar s = some (v, r)) : r.length < s.length ∧ scalar (s ++ t) = some (v, r ++ t) := by
  have hword : t.takeWhile isWordChar = [] ∧ t.dropWhile isWordChar = t := by
    cases t with
    | nil => exact ⟨rfl, rfl⟩
    | cons c t => simp [(ht c rfl).2]
  obtain ⟨w, hw, h⟩ := Option.map_eq_some_iff.1 h
  cases h
  have htake : (s ++ t).takeWhile isWordChar = s.takeWhile isWordChar := by
    rw [List.takeWhile_append, hword.1, List.append_nil]
    split
    · rename_i hall
      exact ((List.takeWhile_prefix isWordChar).eq_of_length hall).symm
    · rfl
  have hdrop : (s ++ t).dropWhile isWordChar = s.dropWhile isWordChar ++ t := by
    rw [List.dropWhile_append, hword.2]
    split
    · rename_i hnil
      rw [List.isEmpty_iff.1 hnil, List.nil_append]
    · rfl
  refine ⟨?_, ?_⟩
  · have hne : s.takeWhile isWordChar ≠ [] := fun hnil => by
      rw [hnil] at hw
      exact nomatch hw
    have hsum := congrArg List.length (List.takeWhile_append_dropWhile (p := isWordChar) (l := s))
    rw [List.length_append] at hsum
    have hpos := List.length_pos_iff.2 hne
    omega
  · rw [scalar, htake, hdrop, hw, Option.map_some]

section
variable {α : Type*} {p q : Reader α} {close : Char} {t : List Char} {n : Nat}

theorem items_reads (ht : Stop t) (h : Carries t n p q) :
    ∀ (k m : Nat) (s : List Char) (v : List α) (r : List Char), s.length ≤ n → s.length < m →
      items p close k s = some (v, r) →
      r.length < s.length ∧ items q close m (s ++ t) = some (v, r ++ t)
  | 0, _, _, _, _, _, _, hs => nomatch hs
  | k + 1, 0, s, _, _, _, hm, _ => absurd hm (Nat.not_lt_zero _)
  | k + 1, m + 1, s, v, r, hn, hm, hs => by
    rw [items] at hs ⊢
    obtain ⟨⟨x, s'⟩, hx, hs⟩ := Option.bind_eq_some_iff.1 hs
    obtain ⟨hlt, hx'⟩ := h s x s' hn hx
    have hle := length_skip_le s'
    rw [hx', Option.bind_some]
    simp only [skip_append ht] at hs ⊢
    cases hskip : skip s' with
    | nil => simp [hskip] at hs
    | cons c rest =>
      rw [hskip, List.length_cons] at hle
      simp only [hskip, List.cons_append] at hs ⊢
      by_cases hcomma : c = ','
      · rw [if_pos hcomma] at hs ⊢
        obtain ⟨⟨xs, r'⟩, hxs, hs⟩ := Option.map_eq_some_iff.1 hs
        cases hs
        have hrest := length_skip_le rest
        obtain ⟨hlt', hxs'⟩ := items_reads ht h k m (skip rest) xs r' (by omega) (by omega) hxs
        refine ⟨show r'.length < s.length by omega, ?_⟩
        rw [skip_append ht, hxs', Option.map_some]
      · rw [if_neg hcomma] at hs ⊢
        split at hs
        · rename_i hclose
          cases hs
          rw [if_pos hclose]
          exact ⟨by omega, rfl⟩
        · exact nomatch hs

theorem block_reads (ht : Stop t) (h : Carries t n p q) {k m : Nat} {s : List Char} {v : List α}
    {r : List Char} (hn : s.length ≤ n) (hm : s.length < m) (hs : block p close k s = some (v, r)) :
    r.length < s.length ∧ block q close m (s ++ t) = some (v, r ++ t) := by
  have hle := length_skip_le s
  unfold block at hs ⊢
  rw [skip_append ht]
  cases hskip : skip s with
  | nil => simp [hskip] at hs
  | cons c rest =>
    rw [hskip] at hle
    simp only [hskip, List.cons_append] at hs ⊢
    by_cases hclose : c = close
    · rw [if_pos hclose] at hs ⊢
      cases hs
      exact ⟨hle, rfl⟩
    · rw [if_neg hclose] at hs ⊢
      obtain ⟨hlt, hs'⟩ := items_reads ht h k m (c :: rest) v r (by omega) (by omega) hs
      exact ⟨by omega, hs'⟩

end

theorem member_reads {t : List Char} (ht : Stop t) {n : Nat} {p q : Reader Json}
    (h : Carries t n p q) : Carries t n (member p) (member q)
  | [], _, _, _, hs => nomatch hs
  | c :: s, v, r, hn, hs => by
    rw [List.length_cons] at hn
    rw [member] at hs
    rw [List.cons_append, member]
    by_cases hquote : c = '"'
    · rw [if_pos hquote] at hs ⊢
      obtain ⟨⟨key, s'⟩, hkey, hs⟩ := Option.bind_eq_some_iff.1 hs
      obtain ⟨hlt, hkey'⟩ := string_reads t s _ _ _ hkey
      have hle := length_skip_le s'
      rw [hkey', Option.bind_some]
      simp only [skip_append ht] at hs ⊢
      cases hskip : skip s' with
      | nil => simp [hskip] at hs
      | cons d rest =>
        rw [hskip, List.length_cons] at hle
        simp only [hskip, List.cons_append] at hs ⊢
        by_cases hcolon : d = ':'
        · rw [if_pos hcolon] at hs ⊢
          obtain ⟨⟨x, r'⟩, hx, hs⟩ := Option.map_eq_some_iff.1 hs
          cases hs
          have hrest := length_skip_le rest
          obtain ⟨hlt', hx'⟩ := h (skip rest) x r' (by omega) hx
          refine ⟨show r'.length < s.length + 1 by omega, ?_⟩
          rw [skip_append ht, hx', Option.map_some]
        · rw [if_neg hcolon] at hs
          exact nomatch hs
    · rw [if_neg hquote] at hs
      exact nomatch hs

/-- What is read behind the first character of a value. -/
theorem map_reads {α : Type*} {f : α → Json} {x y : Option (α × List Char)} {s t r : List Char}
    {v : Json} (h : (x.map fun p => (f p.1, p.2)) = some (v, r))
    (hread : ∀ a r, x = some (a, r) → r.length < s.length ∧ y = some (a, r ++ t)) :
    r.length < s.length + 1 ∧ (y.map fun p => (f p.1, p.2)) = some (v, r ++ t) := by
  obtain ⟨⟨a, r'⟩, hx, h⟩ := Option.map_eq_some_iff.1 h
  cases h
  obtain ⟨hlt, hy⟩ := hread a r' hx
  rw [hy, Option.map_some]
  exact ⟨Nat.lt_succ_of_lt hlt, rfl⟩

/-- **A value is read in front of more text as alone**, with any fuel above its length. -/
theorem value_reads {t : List Char} (ht : Stop t) :
    ∀ (k m : Nat) (s : List Char) (v : Json) (r : List Char), s.length < m →
      value k s = some (v, r) → r.length < s.length ∧ value m (s ++ t) = some (v, r ++ t)
  | 0, _, _, _, _, _, hs => nomatch hs
  | k + 1, _, [], _, _, _, hs => nomatch hs
  | k + 1, 0, _ :: _, _, _, hm, _ => absurd hm (Nat.not_lt_zero _)
  | k + 1, m + 1, c :: s, v, r, hm, hs => by
    rw [List.length_cons] at hm
    have hinner : Carries t s.length (value k) (value m) := fun s' v' r' hn hs' =>
      value_reads ht k m s' v' r' (by omega) hs'
    rw [value] at hs
    rw [List.cons_append, value]
    have hfuel : s.length < m := Nat.lt_of_succ_lt_succ hm
    by_cases hobj : c = '\x7b'
    · rw [if_pos hobj] at hs ⊢
      exact map_reads hs fun ms r' => block_reads ht (member_reads ht hinner) (Nat.le_refl _) hfuel
    rw [if_neg hobj] at hs ⊢
    by_cases harr : c = '['
    · rw [if_pos harr] at hs ⊢
      exact map_reads hs fun xs r' => block_reads ht hinner (Nat.le_refl _) hfuel
    rw [if_neg harr] at hs ⊢
    by_cases hstr : c = '"'
    · rw [if_pos hstr] at hs ⊢
      exact map_reads hs fun w r' => string_reads t s .plain w r'
    · rw [if_neg hstr] at hs ⊢
      exact scalar_reads ht hs

/-- **`parse` accepts what is read with any fuel.** -/
theorem parse_iff {s : List Char} {v : Json} :
    parse s = some v ↔ ∃ k r, value k (skip s) = some (v, r) ∧ skip r = [] := by
  refine ⟨?_, ?_⟩
  · intro h
    obtain ⟨⟨w, r⟩, hw, h⟩ := Option.bind_eq_some_iff.1 h
    split at h
    · rename_i hend
      cases h
      exact ⟨_, r, hw, hend⟩
    · exact nomatch h
  · intro ⟨k, r, hv, hend⟩
    have hfuel := (value_reads stop_nil k (s.length + 1) (skip s) v r
      (Nat.lt_succ_of_le (length_skip_le s)) hv).2
    rw [List.append_nil, List.append_nil] at hfuel
    rw [parse, hfuel, Option.bind_some, if_pos hend]

/-! ## Strings that read as themselves -/

theorem string_plain_cons {c : Char} (hc : Verbatim c) (s : List Char) :
    string .plain (c :: s) = (string .plain s).map fun q => (c :: q.1, q.2) := by
  rw [string, if_neg (by simp [hc.1]), Scan.step, if_neg hc.2.1, if_neg hc.2.2]
  rfl

/-- Characters that stand for themselves. -/
theorem string_verbatim (r : List Char) : ∀ {w : List Char}, (∀ c ∈ w, Verbatim c) →
    string .plain (w ++ '"' :: r) = some (w, r)
  | [], _ => by simp [string]
  | c :: w, hw => by
    rw [List.cons_append, string_plain_cons (hw c List.mem_cons_self),
      string_verbatim r fun d hd => hw d (List.mem_cons_of_mem c hd)]
    rfl

theorem codePoint_cases {high : Option Nat} {code : Nat} {st : Scan} {out : List Char}
    (h : codePoint high code = some (st, out)) : st ≠ .escape ∧ out.length ≤ 1 := by
  cases high with
  | none =>
    rw [codePoint] at h
    split at h
    · cases h; simp
    · split at h
      · exact nomatch h
      · cases h; simp
  | some first =>
    rw [codePoint] at h
    split at h
    · cases h; simp
    · exact nomatch h

/-- A character of a string stands for itself, is a backslash, or belongs to an escape. -/
theorem Scan.step_cases {st st' : Scan} {c : Char} {out : List Char}
    (h : st.step c = some (st', out)) :
    (st = .plain ∧ c ≠ '\\' ∧ ¬ c < ' ' ∧ st' = .plain ∧ out = [c]) ∨ (c = '\\' ∧ out = []) ∨
      (st ≠ .plain ∧ st' ≠ .escape ∧ out.length ≤ 1) := by
  cases st with
  | plain =>
    rw [Scan.step] at h
    split at h
    · rename_i hc
      cases h
      exact .inr (.inl ⟨hc, rfl⟩)
    · rename_i hc
      split at h
      · exact nomatch h
      · rename_i hctl
        cases h
        exact .inl ⟨rfl, hc, hctl, rfl, rfl⟩
  | escape =>
    rw [Scan.step] at h
    split at h
    · cases h; simp
    · obtain ⟨d, -, h⟩ := Option.map_eq_some_iff.1 h
      cases h; simp
  | hex high digits =>
    obtain ⟨d, -, h⟩ := Option.bind_eq_some_iff.1 h
    split at h
    · cases h; simp
    · exact .inr (.inr ⟨by simp, codePoint_cases h⟩)
  | pair high =>
    rw [Scan.step] at h
    split at h
    · rename_i hc
      cases h
      exact .inr (.inl ⟨hc, rfl⟩)
    · exact nomatch h
  | pairEscape high =>
    rw [Scan.step] at h
    split at h
    · cases h; simp
    · exact nomatch h

/-- A quote met inside an escape is the escaped one, and the string goes on to the next quote. -/
theorem string_quote {st : Scan} {d : Char} {t w r : List Char} (hst : st ≠ .plain)
    (hd : Verbatim d)
    (h : string st ('"' :: d :: '"' :: t) = some (w, r)) : st = .escape ∧ w = ['"', d] := by
  rw [string, if_neg (by simp [hst])] at h
  obtain ⟨⟨st', out⟩, hstep, h⟩ := Option.bind_eq_some_iff.1 h
  cases st with
  | plain => exact absurd rfl hst
  | escape =>
    cases hstep
    rw [string_plain_cons hd, string, if_pos (by simp)] at h
    cases h
    exact ⟨rfl, rfl⟩
  | hex high digits => exact nomatch hstep
  | pair high => exact nomatch hstep
  | pairEscape high => exact nomatch hstep

/-- Reading `m` as a string that a quote, one more character and another quote follow. Either the
string ends within `m` or at the first quote; it is then no longer than `m`, and shorter if any
character of `m` does not stand for itself. Or `m` ends with a backslash that escapes the first
quote. -/
theorem string_cases {d : Char} (hd : Verbatim d) (t : List Char) :
    ∀ (m : List Char) (st : Scan) (w r : List Char),
      string st (m ++ '"' :: d :: '"' :: t) = some (w, r) →
      (w.length ≤ m.length ∧ (st = .plain → w.length = m.length → ∀ c ∈ m, Verbatim c)) ∨
        ((m = [] ∧ st = .escape ∨ m.getLast? = some '\\') ∧ w.getLast? = some d)
  | [], st, w, r, h => by
    by_cases hst : st = .plain
    · subst hst
      rw [List.nil_append, string, if_pos ⟨rfl, rfl⟩] at h
      cases h
      exact .inl ⟨Nat.le_refl 0, by simp⟩
    · obtain ⟨hesc, rfl⟩ := string_quote hst hd h
      exact .inr ⟨.inl ⟨rfl, hesc⟩, rfl⟩
  | c :: m, st, w, r, h => by
    rw [List.cons_append, string] at h
    split at h
    · cases h
      exact .inl ⟨Nat.zero_le _, by simp⟩
    rename_i hend
    obtain ⟨⟨st', out⟩, hstep, h⟩ := Option.bind_eq_some_iff.1 h
    obtain ⟨⟨w', r'⟩, hw', h⟩ := Option.map_eq_some_iff.1 h
    cases h
    have hcases := Scan.step_cases hstep
    rcases string_cases hd t m st' w' r' hw' with ⟨hle, hverb⟩ | ⟨hlast, hw⟩
    · left
      simp only [List.length_append, List.length_cons]
      rcases hcases with ⟨rfl, hc, hctl, rfl, rfl⟩ | ⟨-, rfl⟩ | ⟨hst, -, hout⟩
      · refine ⟨by rw [List.length_singleton]; omega, ?_⟩
        intro _ hlen
        have hquote : c ≠ '"' := fun hq => hend ⟨rfl, hq⟩
        rw [List.length_singleton] at hlen
        exact List.forall_mem_cons.2 ⟨⟨hquote, hc, hctl⟩, hverb rfl (by omega)⟩
      · refine ⟨by rw [List.length_nil]; omega, ?_⟩
        intro _ hlen
        rw [List.length_nil] at hlen
        omega
      · exact ⟨by omega, fun hplain => absurd hplain hst⟩
    · refine .inr ⟨.inr ?_, by simp [List.getLast?_append, hw]⟩
      rcases hlast with ⟨rfl, rfl⟩ | hlast
      · rcases hcases with ⟨_, _, _, hno, _⟩ | ⟨rfl, -⟩ | ⟨-, hno, -⟩
        · exact nomatch hno
        · rfl
        · exact absurd rfl hno
      · simp [List.getLast?_cons, hlast]

/-- **Only a text whose characters stand for themselves reads as itself.** -/
theorem verbatim_of_string {d : Char} (hd : Verbatim d) {m t r : List Char}
    (h : string .plain (m ++ '"' :: d :: '"' :: t) = some (m, r)) : ∀ c ∈ m, Verbatim c := by
  rcases string_cases hd t m .plain m r h with ⟨-, hverb⟩ | ⟨hlast, hd'⟩
  · exact hverb rfl rfl
  · rcases hlast with ⟨-, hno⟩ | hlast
    · exact nomatch hno
    · rw [hlast] at hd'
      exact absurd (Option.some.inj hd').symm hd.2.1

/-! ## Numerals -/

theorem isDigit_toDigits {n : Nat} {c : Char} (h : c ∈ Nat.toDigits 10 n) : c.isDigit = true :=
  Nat.isDigit_of_mem_toDigits (by decide) (by decide) h

/-- A numeral starts with `0` only for zero. -/
theorem head_toDigits (n : Nat) (hn : 0 < n) : (Nat.toDigits 10 n).head? ≠ some '0' := by
  rcases Nat.lt_or_ge n 10 with h | h
  · have hdigit : ∀ n < 10, 0 < n → Nat.digitChar n ≠ '0' := by decide
    rw [Nat.toDigits_of_lt_base h]
    exact fun h0 => hdigit n h hn (Option.some.inj h0)
  · have hrest := head_toDigits (n / 10) (by omega)
    obtain ⟨c, hc⟩ := Option.ne_none_iff_exists'.1
      (mt List.head?_eq_none_iff.1 (@Nat.toDigits_ne_nil (n / 10) 10))
    rw [Nat.toDigits_of_base_le (by decide) h, List.head?_append, hc]
    rwa [hc] at hrest

/-- The numeral of a natural number is a number. -/
theorem isNumber_toDigits (n : Nat) : isNumber (Nat.toDigits 10 n) = true := by
  have hsign : (Nat.toDigits 10 n).head? ≠ some '-' := fun h => by
    have := isDigit_toDigits (List.mem_of_head? h)
    simp at this
  have htake : (Nat.toDigits 10 n).takeWhile Char.isDigit = Nat.toDigits 10 n :=
    List.takeWhile_eq_self_iff.2 fun c hc => isDigit_toDigits hc
  have hdrop : (Nat.toDigits 10 n).dropWhile Char.isDigit = [] :=
    List.dropWhile_eq_nil_iff.2 fun c hc => isDigit_toDigits hc
  rw [isNumber, if_neg hsign, isUnsigned, htake, hdrop]
  rcases Nat.eq_zero_or_pos n with rfl | hpos
  · rfl
  · simp [isFraction, head_toDigits n hpos, Nat.toDigits_ne_nil]

/-- A numeral in front of a text that does not continue it. -/
theorem scalar_toDigits (n : Nat) {t : List Char} (ht : Stop t) :
    scalar (Nat.toDigits 10 n ++ t) = some (.num (Nat.toDigits 10 n), t) := by
  have hword : ∀ c ∈ Nat.toDigits 10 n, isWordChar c = true := fun c hc => by
    simp [isWordChar, Char.isAlphanum, isDigit_toDigits hc]
  have hself : scalar (Nat.toDigits 10 n) = some (.num (Nat.toDigits 10 n), []) := by
    rw [scalar, List.takeWhile_eq_self_iff.2 hword, List.dropWhile_eq_nil_iff.2 hword, word,
      if_pos (isNumber_toDigits n), Option.map_some]
  exact (scalar_reads ht hself).2

end Json
