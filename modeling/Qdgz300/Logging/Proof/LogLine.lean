import Qdgz300.Lib.Json
import Qdgz300.Logging.AsyncLogger

/-!
# What a log line says

`Faithful`: the line is a JSON text of one object, written on one line, whose members are those that
were logged, in order and no others (`loggedMembers`). `json_line_exact` says when: the module name
must consist of characters that stand for themselves in a JSON string, since `build_json_line` does
not escape it; the message must have no control character but the line feed, since it escapes no
other; and the detail must be on one line.

The line is read member by member (`items_cons`). `line_value` reads the four members that do not
depend on the texts; a module name that reads as itself is `verbatim_of_string`, a message
`string_escaped`.
-/

namespace Qdgz300.Logging

open Json

/-- The members that do not depend on the texts. -/
def frontMembers (s : AsyncLogger) (now : Int) (level : LevelEnum) : List (List Char × Json) :=
  [("ts".toList, .str (tsBuf now)), ("level".toList, .str (levelToJsonString level).toList),
    ("run_id".toList, .num s.runId.toNat.repr.toList),
    ("trace_id".toList, .num s.threadTraceId.toNat.repr.toList)]

/-- The members of a line: what was logged. -/
def loggedMembers (s : AsyncLogger) (now : Int) (level : LevelEnum)
    (module msg detailJson : String) :
    List (List Char × Json) :=
  frontMembers s now level ++ ("module".toList, .str module.toList) ::
    ("msg".toList, .str msg.toList) ::
    ((Json.parse detailJson.toList).map fun v => ("detail".toList, v)).toList

/-- A line is read as what was logged. -/
def Faithful (s : AsyncLogger) (now : Int) (level : LevelEnum) (module msg detailJson : String) :
    Prop :=
  let line := (s.buildJsonLine now level module msg detailJson).toList
  Json.parse line = some (.obj (loggedMembers s now level module msg detailJson)) ∧ '\n' ∉ line

/-- A character that the escapes of the message cover. -/
def Shown (c : Char) : Prop := c = '\n' ∨ ¬ c < ' '

instance (c : Char) : Decidable (Shown c) := inferInstanceAs (Decidable (_ ∨ _))

/-- A member as it is written. -/
def keyed (key s : List Char) : List Char := '"' :: key ++ '"' :: ':' :: s

def quoted (w s : List Char) : List Char := '"' :: w ++ '"' :: s

/-- The end of a line. -/
def closing (detailJson : String) : List Char :=
  if detailJson = "" then ['\x7d'] else ',' :: keyed "detail".toList (detailJson.toList ++ ['\x7d'])

/-- A line from its module on. -/
def textMembers (module msg detailJson : String) : List Char :=
  keyed "module".toList (quoted module.toList (',' ::
    keyed "msg".toList (quoted (msg.toList.flatMap escapeChar) (closing detailJson))))

section
variable {s : AsyncLogger} {now : Int} {level : LevelEnum} {module msg detailJson : String}

theorem closing_eq :
    (if detailJson = "" then "" else ",\"detail\":" ++ detailJson).toList ++ ['\x7d'] =
      closing detailJson := by
  unfold closing
  split
  · rfl
  · rw [String.toList_append, keyed]
    rfl

theorem line_toList : (s.buildJsonLine now level module msg detailJson).toList =
    '\x7b' :: keyed "ts".toList (quoted (tsBuf now) (',' ::
      keyed "level".toList (quoted (levelToJsonString level).toList (',' ::
      keyed "run_id".toList (Nat.toDigits 10 s.runId.toNat ++ ',' ::
      keyed "trace_id".toList (Nat.toDigits 10 s.threadTraceId.toNat ++ ',' ::
      textMembers module msg detailJson)))))) := by
  unfold AsyncLogger.buildJsonLine textMembers keyed quoted
  simp only [String.toList_append, String.toList_ofList, Nat.toList_repr, List.append_assoc]
  simp only [show "\x7d".toList = ['\x7d'] from rfl, closing_eq]
  simp only [String.reduceToList, List.cons_append, List.nil_append]

/-! ## Characters -/

theorem isDigit_ne {c d : Char} (h : c.isDigit = true) (hd : d.isDigit = false) : c ≠ d := by
  intro hcd
  rw [hcd, hd] at h
  exact nomatch h

theorem verbatim_of_isDigit {c : Char} (h : c.isDigit = true) : Verbatim c := by
  refine ⟨isDigit_ne h rfl, isDigit_ne h rfl, ?_⟩
  simp only [Char.isDigit, Bool.and_eq_true, decide_eq_true_eq] at h
  exact UInt32.not_lt.2 (UInt32.le_trans (by decide) h.1)

theorem verbatim_zeroPadded {width : Nat} {n : Int} {c : Char} (h : c ∈ zeroPadded width n) :
    Verbatim c := by
  have hpad : ∀ k, c ∈ (Nat.toDigits 10 n.natAbs).leftpad k '0' → Verbatim c := by
    intro k hc
    rcases List.mem_append.1 hc with hc | hc
    · rw [List.eq_of_mem_replicate hc]
      decide
    · exact verbatim_of_isDigit (isDigit_toDigits hc)
  unfold zeroPadded at h
  split at h
  · rcases List.mem_cons.1 h with rfl | h
    · decide
    · exact hpad _ h
  · exact hpad _ h

theorem verbatim_tsBuf {c : Char} (h : c ∈ tsBuf now) : Verbatim c := by
  have hmarks : Verbatim '-' ∧ Verbatim 'T' ∧ Verbatim ':' ∧ Verbatim '.' ∧
    Verbatim 'Z' := by decide
  have h := List.mem_of_mem_take h
  simp only [List.mem_append, List.mem_cons, List.not_mem_nil, or_false] at h
  grind [verbatim_zeroPadded]

theorem verbatim_level {c : Char} (h : c ∈ (levelToJsonString level).toList) : Verbatim c := by
  have hall : ∀ c ∈ (levelToJsonString level).toList, Verbatim c := by
    cases level <;> simp [levelToJsonString, Verbatim]
  exact hall c h

/-- **The escapes of the message** are read back, and nothing else covers a control character. -/
theorem string_escapeChar (c : Char) (r : List Char) : string .plain (escapeChar c ++ r) =
    if Shown c then (string .plain r).map fun q => (c :: q.1, q.2) else none := by
  unfold escapeChar
  split
  · subst c
    rw [if_pos (by decide)]
    cases h : string .plain r <;> simp [string, Scan.step, simpleEscape, h]
  · split
    · subst c
      rw [if_pos (by decide)]
      cases h : string .plain r <;> simp [string, Scan.step, simpleEscape, h]
    · split
      · subst c
        rw [if_pos (by decide)]
        cases h : string .plain r <;> simp [string, Scan.step, simpleEscape, h]
      · rename_i hquote hslash hnewline
        split
        · rename_i hshown
          exact string_plain_cons ⟨hquote, hslash, hshown.resolve_left hnewline⟩ r
        · rename_i hshown
          have hctl : c < ' ' := Classical.byContradiction fun h => hshown (.inr h)
          simp [string, Scan.step, hquote, hslash, hctl]

theorem string_escaped (r : List Char) : ∀ {m : List Char}, (∀ c ∈ m, Shown c) →
    string .plain (m.flatMap escapeChar ++ '"' :: r) = some (m, r)
  | [], _ => by simp [string]
  | c :: m, hm => by
    rw [List.flatMap_cons, List.append_assoc, string_escapeChar, if_pos (hm c List.mem_cons_self),
      string_escaped r fun d hd => hm d (List.mem_cons_of_mem c hd)]
    rfl

theorem shown_of_string {r : List Char} : ∀ {m : List Char} {q : List Char × List Char},
    string .plain (m.flatMap escapeChar ++ '"' :: r) = some q → ∀ c ∈ m, Shown c
  | [], _, _ => fun _ h => nomatch h
  | c :: m, q, h => by
    rw [List.flatMap_cons, List.append_assoc, string_escapeChar] at h
    split at h
    · rename_i hc
      obtain ⟨q', hq', -⟩ := Option.map_eq_some_iff.1 h
      exact List.forall_mem_cons.2 ⟨hc, shown_of_string hq'⟩
    · exact nomatch h

/-! ## Members -/

theorem member_keyed {p : Reader Json} {key : List Char} (hkey : ∀ c ∈ key, Verbatim c)
    (r : List Char) : member p (keyed key r) = (p (skip r)).map fun v => ((key, v.1), v.2) := by
  unfold keyed
  rw [List.cons_append, member, if_pos rfl, string_verbatim _ hkey, Option.bind_some]
  rfl

theorem value_quoted (k : Nat) (r : List Char) :
    value (k + 1) ('"' :: r) = (string .plain r).map fun q => (.str q.1, q.2) := by
  rw [value, if_neg (by decide), if_neg (by decide), if_pos rfl]

theorem value_toDigits (k n : Nat) {t : List Char} (ht : Stop t) :
    value (k + 1) (skip (Nat.toDigits 10 n ++ t)) = some (.num (Nat.toDigits 10 n), t) := by
  have hscalar := scalar_toDigits n ht
  obtain ⟨c, w, hw⟩ := List.exists_cons_of_ne_nil (@Nat.toDigits_ne_nil n 10)
  have hdigit : c.isDigit = true := isDigit_toDigits (hw ▸ List.mem_cons_self)
  rw [hw, List.cons_append] at hscalar ⊢
  have hspace : isSpace c = false := by
    simp [isSpace, isDigit_ne hdigit (d := ' ') rfl, isDigit_ne hdigit (d := '\t') rfl,
      isDigit_ne hdigit (d := '\n') rfl, isDigit_ne hdigit (d := '\r') rfl]
  rw [skip, List.dropWhile_cons, hspace, if_neg (by simp), value, if_neg (isDigit_ne hdigit rfl),
    if_neg (isDigit_ne hdigit rfl), if_neg (isDigit_ne hdigit rfl), hscalar]

theorem items_cons {α : Type*} {item : Reader α} {close : Char} {n : Nat}
    {t key r : List Char} {x : α} (h : item t = some (x, ',' :: keyed key r)) :
    items item close (n + 1) t = (items item close n (keyed key r)).map fun q =>
      (x :: q.1, q.2) := by
  rw [items, h, Option.bind_some]
  rfl

theorem items_last {α : Type*} {item : Reader α} {n : Nat} {t r r' : List Char} {x : α}
    (h : item t = some (x, r)) (hr : skip r = '\x7d' :: r') :
    items item '\x7d' (n + 1) t = some ([x], r') := by
  rw [items, h, Option.bind_some]
  simp [hr]

theorem items_head {α : Type*} {item : Reader α} {close : Char} {n : Nat} {t r : List Char} {x : α}
    {xs : List α} (h : items item close n t = some (x :: xs, r)) : ∃ r', item t = some (x, r') := by
  cases n with
  | zero => exact nomatch h
  | succ n =>
    obtain ⟨⟨y, r'⟩, hy, h⟩ := Option.bind_eq_some_iff.1 h
    refine ⟨r', ?_⟩
    have hyx : y = x := by
      dsimp only at h
      split at h
      · exact nomatch h
      · split at h
        · obtain ⟨q, -, hq⟩ := Option.map_eq_some_iff.1 h
          exact (List.cons.inj (congrArg Prod.fst hq)).1
        · split at h
          · exact (List.cons.inj (congrArg Prod.fst (Option.some.inj h))).1
          · exact nomatch h
    rw [hy, hyx]

theorem member_quoted {key : List Char} (hkey : ∀ c ∈ key, Verbatim c) (k : Nat) (w r : List Char) :
    member (value (k + 1)) (keyed key (quoted w r)) =
      (string .plain (w ++ '"' :: r)).map fun q => ((key, .str q.1), q.2) := by
  have hskip : skip (quoted w r) = '"' :: (w ++ '"' :: r) := rfl
  rw [member_keyed hkey, hskip, value_quoted, Option.map_map]
  rfl

theorem member_verbatim {key w : List Char} (hkey : ∀ c ∈ key, Verbatim c)
    (hw : ∀ c ∈ w, Verbatim c) (k : Nat) (r : List Char) :
    member (value (k + 1)) (keyed key (quoted w r)) = some ((key, .str w), r) := by
  rw [member_quoted hkey, string_verbatim r hw, Option.map_some]

theorem member_toDigits {key : List Char} (hkey : ∀ c ∈ key, Verbatim c) (k i : Nat)
    (r : List Char) :
    member (value (k + 1)) (keyed key (Nat.toDigits 10 i ++ ',' :: r)) =
      some ((key, .num (Nat.toDigits 10 i)), ',' :: r) := by
  have hstop : Stop (',' :: r) := by
    intro d hd
    cases hd
    decide
  rw [member_keyed hkey, value_toDigits k i hstop, Option.map_some]

/-! ## The line -/

/-- The object is opened and its first four members are read. -/
theorem line_value (n : Nat) :
    value (n + 5) (s.buildJsonLine now level module msg detailJson).toList =
      (items (member (value (n + 4))) '\x7d' n (textMembers module msg detailJson)).map fun q =>
        (.obj (frontMembers s now level ++ q.1), q.2) := by
  have hkeys : (∀ c ∈ "ts".toList, Verbatim c) ∧ (∀ c ∈ "level".toList, Verbatim c) ∧
      (∀ c ∈ "run_id".toList, Verbatim c) ∧ ∀ c ∈ "trace_id".toList, Verbatim c := by simp [Verbatim]
  obtain ⟨hts, hlevel, hrun, htrace⟩ := hkeys
  have hblock : ∀ {m : Nat} {key r : List Char},
      block (member (value (n + 4))) '\x7d' m (keyed key r) =
        items (member (value (n + 4))) '\x7d' m (keyed key r) := by
    intro m key r
    rfl
  rw [line_toList, value, if_pos rfl, hblock]
  rw [items_cons (member_verbatim hts (fun _ => verbatim_tsBuf) _ _),
    items_cons (member_verbatim hlevel (fun _ => verbatim_level) _ _),
    items_cons (member_toDigits hrun _ _ _), textMembers, items_cons (member_toDigits htrace _ _ _)]
  simp only [Option.map_map, frontMembers, Nat.toList_repr]
  rfl

theorem verbatim_module : ∀ c ∈ "module".toList, Verbatim c := by simp [Verbatim]

theorem verbatim_msg : ∀ c ∈ "msg".toList, Verbatim c := by simp [Verbatim]

theorem verbatim_detail : ∀ c ∈ "detail".toList, Verbatim c := by simp [Verbatim]

/-- A module and a message that are read as logged. -/
theorem texts_of_read {k n : Nat} {ms : List (List Char × Json)} {r : List Char}
    (h : items (member (value (k + 1))) '\x7d' (n + 1) (textMembers module msg detailJson) =
      some (("module".toList, .str module.toList) :: ("msg".toList, .str msg.toList) :: ms, r)) :
    (∀ c ∈ module.toList, Verbatim c) ∧ ∀ c ∈ msg.toList, Shown c := by
  have hmodule : ∀ c ∈ module.toList, Verbatim c := by
    obtain ⟨r', hr'⟩ := items_head h
    rw [textMembers, member_quoted verbatim_module] at hr'
    obtain ⟨⟨w, r''⟩, hw, heq⟩ := Option.map_eq_some_iff.1 hr'
    have hsame : w = module.toList := by simpa using congrArg (fun p => p.1.2) heq
    subst hsame
    exact verbatim_of_string (d := ',') (by decide) hw
  refine ⟨hmodule, ?_⟩
  rw [textMembers, items_cons (member_verbatim verbatim_module hmodule _ _)] at h
  obtain ⟨⟨ms', r'⟩, hms', heq⟩ := Option.map_eq_some_iff.1 h
  have hsame : ms' = ("msg".toList, .str msg.toList) :: ms := by simpa using congrArg Prod.fst heq
  subst hsame
  obtain ⟨r'', hr''⟩ := items_head hms'
  rw [member_quoted verbatim_msg] at hr''
  obtain ⟨q, hq, -⟩ := Option.map_eq_some_iff.1 hr''
  exact shown_of_string hq

/-- A detail is read up to the end of the line. -/
theorem detail_read {v : Json} (h : Json.parse detailJson.toList = some v) :
    items (member (value (detailJson.toList.length + 7))) '\x7d' (detailJson.toList.length + 1)
      (keyed "detail".toList (detailJson.toList ++ ['\x7d'])) =
        some ([("detail".toList, v)], []) := by
  have hstop : Stop ['\x7d'] := by
    intro d hd
    cases hd
    decide
  obtain ⟨k, r, hv, hend⟩ := Json.parse_iff.1 h
  have hfuel : (skip detailJson.toList).length < detailJson.toList.length + 7 := by
    have := length_skip_le detailJson.toList
    omega
  obtain ⟨-, hread⟩ := value_reads hstop k _ _ _ _ hfuel hv
  refine items_last (r := r ++ ['\x7d']) ?_ ?_
  · rw [member_keyed verbatim_detail, skip_append hstop, hread, Option.map_some]
  · rw [skip_append hstop, hend, List.nil_append]

/-- Texts that are read back. -/
theorem texts_read (hmodule : ∀ c ∈ module.toList, Verbatim c) (hmsg : ∀ c ∈ msg.toList, Shown c)
    (hdetail : detailJson = "" ∨ (Json.parse detailJson.toList).isSome) :
    items (member (value (detailJson.toList.length + 7))) '\x7d' (detailJson.toList.length + 3)
      (textMembers module msg detailJson) =
      some (("module".toList, .str module.toList) :: ("msg".toList, .str msg.toList) ::
        ((Json.parse detailJson.toList).map fun v => ("detail".toList, v)).toList, []) := by
  have hmember : ∀ r, member (value (detailJson.toList.length + 7))
      (keyed "msg".toList (quoted (msg.toList.flatMap escapeChar) r)) =
        some (("msg".toList, .str msg.toList), r) := by
    intro r
    rw [member_quoted verbatim_msg, string_escaped r hmsg, Option.map_some]
  rw [textMembers, items_cons (member_verbatim verbatim_module hmodule _ _), closing]
  rcases hdetail with rfl | hdetail
  · rw [if_pos rfl, items_last (hmember _) rfl]
    rfl
  · obtain ⟨v, hv⟩ := Option.isSome_iff_exists.1 hdetail
    have hne : detailJson ≠ "" := by
      intro hnil
      rw [hnil] at hv
      exact nomatch hv
    rw [if_neg hne, items_cons (hmember _), detail_read hv, hv]
    rfl

theorem skip_line : skip (s.buildJsonLine now level module msg detailJson).toList =
    (s.buildJsonLine now level module msg detailJson).toList := by
  rw [line_toList]
  rfl

/-! ## One line -/

theorem newline_not_mem_escaped (m : List Char) : '\n' ∉ m.flatMap escapeChar := by
  intro h
  obtain ⟨c, -, hc⟩ := List.mem_flatMap.1 h
  unfold escapeChar at hc
  split at hc
  · simp at hc
  · split at hc
    · simp at hc
    · split at hc
      · simp at hc
      · rename_i hne
        exact hne (List.mem_singleton.1 hc).symm

theorem newline_not_mem_verbatim {w : List Char} (hw : ∀ c ∈ w, Verbatim c) : '\n' ∉ w :=
  fun h => (hw _ h).2.2 (by decide)

/-- The line feeds of a line are those of its detail. -/
theorem newline_mem_line (hmodule : ∀ c ∈ module.toList, Verbatim c) :
    '\n' ∈ (s.buildJsonLine now level module msg detailJson).toList ↔ '\n' ∈ detailJson.toList := by
  have hts : '\n' ∉ tsBuf now := newline_not_mem_verbatim fun _ => verbatim_tsBuf
  have hlevel : '\n' ∉ (levelToJsonString level).toList :=
    newline_not_mem_verbatim fun _ => verbatim_level
  have hnum : ∀ i, '\n' ∉ Nat.toDigits 10 i := fun i =>
    newline_not_mem_verbatim fun _ h => verbatim_of_isDigit (isDigit_toDigits h)
  have htext := newline_not_mem_verbatim hmodule
  have hclosing : '\n' ∈ closing detailJson ↔ '\n' ∈ detailJson.toList := by
    unfold closing
    split
    · rename_i hnil
      simp [hnil]
    · simp [keyed]
  have hmsg := newline_not_mem_escaped msg.toList
  rw [line_toList, textMembers]
  generalize msg.toList.flatMap escapeChar = escaped at hmsg
  simp [keyed, quoted, hts, hlevel, hnum, htext, hmsg, hclosing]

/-- **When a log line is what was logged.** For a detail that is empty or valid JSON, a line is one
JSON object on one line with exactly the members that were logged just when the module name has only
characters that stand for themselves, the message no control character but line feeds, and the
detail no line feed. -/
theorem json_line_exact (hdetail : detailJson = "" ∨ (Json.parse detailJson.toList).isSome) :
    Faithful s now level module msg detailJson ↔
      (∀ c ∈ module.toList, c ≠ '"' ∧ c ≠ '\\' ∧ ¬ c < ' ') ∧
      (∀ c ∈ msg.toList, c = '\n' ∨ ¬ c < ' ') ∧ '\n' ∉ detailJson.toList := by
  refine ⟨?_, ?_⟩
  · intro ⟨hparse, hline⟩
    obtain ⟨k, r, hv, -⟩ := Json.parse_iff.1 hparse
    rw [skip_line] at hv
    obtain ⟨-, hread⟩ := value_reads stop_nil k
      ((s.buildJsonLine now level module msg detailJson).toList.length + 1 + 5) _ _ _ (by omega) hv
    rw [List.append_nil, line_value] at hread
    obtain ⟨⟨ms, r'⟩, hms, heq⟩ := Option.map_eq_some_iff.1 hread
    have hsame : frontMembers s now level ++ ms = loggedMembers s now level module msg
      detailJson := by
      simpa using congrArg Prod.fst heq
    rw [List.append_cancel_left hsame] at hms
    obtain ⟨hmodule, hmsg⟩ := texts_of_read hms
    exact ⟨hmodule, hmsg, mt (newline_mem_line hmodule).2 hline⟩
  · intro ⟨hmodule, hmsg, hbreak⟩
    refine ⟨?_, mt (newline_mem_line hmodule).1 hbreak⟩
    refine Json.parse_iff.2 ⟨detailJson.toList.length + 3 + 5, [], ?_, rfl⟩
    rw [skip_line, line_value, texts_read hmodule hmsg hdetail]
    rfl

/-- A message of two lines and a detail are read back. -/
theorem loggedDetail_faithful : (Json.parse "[1, 2]".toList).isSome ∧
    Faithful ⟨7, 9⟩ 0 .warn "m01_receiver" "first \"line\"\nsecond" "[1, 2]" :=
  ⟨by decide, (json_line_exact (.inr (by decide))).2 ⟨by simp, by simp, by decide⟩⟩

/-- **A forged member**: a module name with quotes adds a second level, and a tab in the message
spoils the line. -/
theorem forged_member :
    Json.parse ((⟨7, 9⟩ : AsyncLogger).buildJsonLine 0 .info "x\",\"level\":\"ERROR" "m").toList =
      some (.obj (frontMembers ⟨7, 9⟩ 0 .info ++ [("module".toList, .str "x".toList),
        ("level".toList, .str "ERROR".toList), ("msg".toList, .str "m".toList)])) ∧
    ¬ Faithful ⟨7, 9⟩ 0 .info "x\",\"level\":\"ERROR" "m" "" ∧
    ¬ Faithful ⟨7, 9⟩ 0 .info "x" "a\tb" "" := by
  have hforged : Json.parse
      ((⟨7, 9⟩ : AsyncLogger).buildJsonLine 0 .info "x\",\"level\":\"ERROR" "m").toList =
      some (.obj (frontMembers ⟨7, 9⟩ 0 .info ++ [("module".toList, .str "x".toList),
        ("level".toList, .str "ERROR".toList), ("msg".toList, .str "m".toList)])) := by
    refine Json.parse_iff.2 ⟨4 + 5, [], ?_, rfl⟩
    rw [skip_line, line_value]
    rfl
  refine ⟨hforged, ?_, ?_⟩
  · intro h
    have hlength := h.1
    rw [hforged] at hlength
    simp [loggedMembers] at hlength
  · intro h
    have hnone :
        Json.parse ((⟨7, 9⟩ : AsyncLogger).buildJsonLine 0 .info "x" "a\tb").toList = none := by
      simp only [line_toList]
      rfl
    have hsome := h.1
    rw [hnone] at hsome
    exact nomatch hsome

end

end Qdgz300.Logging
