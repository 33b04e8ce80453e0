import Qdgz300.Config.ConfigManager

/-!
# What a configuration file can do to the receiver

A document is described by its texts: those that a row reads numbers of one byte from (`Row.texts`),
and whether the library refuses something in it (`Row.Refused`). `assign_cases` says for every kind
of row what the source's assignment makes of them, and `readRows_ok`, `readRows_std` say it of all
rows.

`loadFromFile_sound_iff` and `reload_sound_iff`: a load ends in the claimed way (the bytes that the
document gives are those it denotes, or nothing has changed) exactly for the documents that are
`Tame`. The two defects are apart in its fields: what `std::stoul` throws is not caught, and what it
returns is cut down to a byte.
-/

namespace Qdgz300.Config

open Strtoul

variable {N γ : Type} {y : Yaml N} {root : N} {cfg : ReceiverConfig}

/-! ## The texts of a document -/

/-- The texts of the items, up to the first that the library refuses. -/
def leadingTexts (y : Yaml N) : List N → List String
  | [] => []
  | item :: items =>
    match y.asString item with
    | some text => text :: leadingTexts y items
    | none => []

/-- The scalars of a sequence. -/
def scalars (y : Yaml N) (node : N) : List N := (y.items node).filter y.isScalar

/-- The texts that a row reads numbers from, up to the first that the library refuses. -/
def Row.texts (y : Yaml N) (root : N) : Row N → List String
  | .library _ => []
  | .hexOrDecimalU8 sectionName key _ =>
    match lookup y root sectionName key with
    | some (some node) => (y.asString node).toList
    | _ => []
  | .hexOrDecimalU8Vector sectionName key _ =>
    match lookup y root sectionName key with
    | some (some node) => if y.isSequence node then leadingTexts y (scalars y node) else []
    | _ => []

/-- The library refuses something that the row asks it for. -/
def Row.Refused (y : Yaml N) (root : N) : Row N → Prop
  | .library read => read y root = none
  | .hexOrDecimalU8 sectionName key _ =>
    match lookup y root sectionName key with
    | none => True
    | some none => False
    | some (some node) => y.asString node = none
  | .hexOrDecimalU8Vector sectionName key _ =>
    match lookup y root sectionName key with
    | none => True
    | some none => False
    | some (some node) => y.isSequence node = true ∧ ∃ item ∈ scalars y node, y.asString item = none

/-- The low byte of the number at the front of a text. -/
def lowByte (text : String) : BitVec 8 := BitVec.ofInt 8 ((front text).getD 0)

/-- What the document gives for a row. -/
def Row.given (y : Yaml N) (root : N) : Row N → ReceiverConfig → ReceiverConfig
  | .library read => (read y root).getD id
  | .hexOrDecimalU8 sectionName key set =>
    match lookup y root sectionName key with
    | some (some node) => (y.asString node).elim id fun text => set (lowByte text)
    | _ => id
  | .hexOrDecimalU8Vector sectionName key set =>
    match lookup y root sectionName key with
    | some (some node) =>
      if y.isSequence node then set ((leadingTexts y (scalars y node)).map lowByte) else id
    | _ => id

/-- The configuration that a document describes: the defaults, and over them what it gives. -/
def described (y : Yaml N) (root : N) : ReceiverConfig :=
  rows.foldl (fun cfg row => row.given y root cfg) {}

/-- The text is a numeral of a number from 0 to 255. -/
def InByte (text : String) : Prop := ∃ n : Nat, n ≤ 255 ∧ denotes text = some (n : Int)

/-- The documents that are read as they should be. -/
structure Tame (y : Yaml N) (root : N) : Prop where
  /-- Every text that is reached before the library refuses something has a number at its front. -/
  readable : ∀ pre row post, rows = pre ++ row :: post → (∀ r ∈ pre, ¬ r.Refused y root) →
    ∀ text ∈ row.texts y root, Readable text
  /-- Unless the document is refused anyway, the texts of bytes are numerals from 0 to 255. -/
  inRange : (∀ row ∈ rows, ¬ row.Refused y root) → validate (described y root) →
    ∀ row ∈ rows, ∀ text ∈ row.texts y root, InByte text

/-! ## What a load should come to -/

/-- The text that a document gives for a field. -/
def byteText (y : Yaml N) (root : N) (sectionName key : String) : Option String :=
  match lookup y root sectionName key with
  | some (some node) => y.asString node
  | _ => none

/-- The texts that a document gives for a sequence of bytes. -/
def byteTextList (y : Yaml N) (root : N) (sectionName key : String) : Option (List String) :=
  match lookup y root sectionName key with
  | some (some node) => if y.isSequence node then (scalars y node).mapM y.asString else none
  | _ => none

/-- The bytes are what the texts denote. -/
def ReadAs (texts : List String) (bytes : List (BitVec 8)) : Prop :=
  texts.map denotes = bytes.map fun b => some (b.toNat : Int)

/-- Every one-byte field that the document gives is what its text denotes. -/
structure Exact (y : Yaml N) (root : N) (cfg : ReceiverConfig) : Prop where
  localDeviceId : ∀ text ∈ byteText y root "network" "local_device_id",
    ReadAs [text] [cfg.network.localDeviceId]
  sourceIdMap : ∀ texts ∈ byteTextList y root "network" "source_id_map",
    ReadAs texts cfg.network.sourceIdMap
  filterPacketTypes : ∀ texts ∈ byteTextList y root "capture" "filter_packet_types",
    ReadAs texts cfg.capture.filterPacketTypes
  filterSourceIds : ∀ texts ∈ byteTextList y root "capture" "filter_source_ids",
    ReadAs texts cfg.capture.filterSourceIds

/-- How a load should end: with the bytes that the document denotes, or with nothing changed. -/
def Sound (y : Yaml N) (m : ConfigManager γ) (configFile : String) (o : Outcome γ) : Prop :=
  match o.result with
  | .ok true => ∀ root, y.loadFile configFile = some root → Exact y root o.manager.currentConfig
  | .ok false => o.manager = m ∧ o.called = []
  | .error _ => False

/-! ## Texts -/

theorem lowByte_of_stoul {text : String} {n : Nat} (h : stoul text = .ok n) :
    BitVec.ofNat 8 n = lowByte text := by
  have hreadable : Readable text := by
    by_contra hc
    obtain ⟨e, he⟩ := stoul_of_unreadable hc
    rw [h] at he
    cases he
  obtain ⟨k, n', hfront, hn', hk⟩ := stoul_of_readable hreadable
  obtain rfl : n = n' := Except.ok.inj (h.symm.trans hn')
  rw [lowByte, hfront, Option.getD_some]
  refine BitVec.eq_of_toNat_eq ?_
  rw [BitVec.toNat_ofNat, BitVec.toNat_ofInt]
  omega

theorem denotes_iff_inByte {text : String} :
    denotes text = some ((lowByte text).toNat : Int) ↔ InByte text := by
  constructor
  · intro h
    exact ⟨_, Nat.lt_succ_iff.1 (lowByte text).isLt, h⟩
  · intro ⟨k, hk, h⟩
    rw [h, lowByte, denotes_eq_front h, Option.getD_some, BitVec.toNat_ofInt]
    congr 1
    omega

theorem readAs_iff {texts : List String} :
    ReadAs texts (texts.map lowByte) ↔ ∀ text ∈ texts, InByte text := by
  unfold ReadAs
  rw [List.map_map, List.map_inj_left]
  exact forall₂_congr fun text _ => denotes_iff_inByte

theorem mapM_asString : ∀ {items : List N}, (∀ item ∈ items, y.asString item ≠ none) →
    items.mapM y.asString = some (leadingTexts y items)
  | [], _ => rfl
  | item :: items, h => by
    obtain ⟨text, htext⟩ := Option.ne_none_iff_exists'.1 (h item List.mem_cons_self)
    rw [List.mapM_cons, mapM_asString fun i hi => h i (List.mem_cons_of_mem item hi), leadingTexts, htext]
    rfl

/-! ## Rows -/

/-- What reading something comes to, where the library may refuse it and the texts may be no
numbers. -/
inductive Reading {α : Type} (texts : List String) (refused : Prop) (value : α) :
    Except ConfigException α → Prop
  | std {e : StdException} {text : String} : text ∈ texts → ¬ Readable text →
    Reading texts refused value (.error (.std e))
  | yaml : refused → (∀ text ∈ texts, Readable text) → Reading texts refused value (.error .yaml)
  | ok : ¬ refused → (∀ text ∈ texts, Readable text) → Reading texts refused value (.ok value)

/-- The number of one text. -/
theorem reading_stoul (text : String) :
    Reading [text] False (lowByte text) (do return BitVec.ofNat 8 (← stoulOrThrow text)) := by
  by_cases h : Readable text
  · obtain ⟨-, n, -, hn, -⟩ := stoul_of_readable h
    have hread : (do return BitVec.ofNat 8 (← stoulOrThrow text) : Except ConfigException (BitVec 8)) =
        .ok (BitVec.ofNat 8 n) := by
      rw [stoulOrThrow, hn]
      rfl
    rw [hread, lowByte_of_stoul hn]
    exact .ok id fun t ht => by rwa [List.mem_singleton.1 ht]
  · obtain ⟨e, he⟩ := stoul_of_unreadable h
    have hread : (do return BitVec.ofNat 8 (← stoulOrThrow text) : Except ConfigException (BitVec 8)) =
        .error (.std e) := by
      rw [stoulOrThrow, he]
      rfl
    rw [hread]
    exact .std (List.mem_singleton_self text) h

section
variable {α β : Type} {texts : List String} {refused refused' : Prop} {value : α}
  {r : Except ConfigException α}

theorem Reading.map (h : Reading texts refused value r) (f : α → β) :
    Reading texts refused (f value) (do return f (← r)) := by
  cases h with
  | std hmem hbad => exact .std hmem hbad
  | yaml hrefused hall => exact .yaml hrefused hall
  | ok hfine hall => exact .ok hfine hall

theorem Reading.congr (h : Reading texts refused value r) (hiff : refused ↔ refused') :
    Reading texts refused' value r := by
  rwa [← propext hiff]

end

/-- The numbers of a sequence. -/
theorem reading_items : ∀ items : List N,
    Reading (leadingTexts y items) (∃ item ∈ items, y.asString item = none)
      ((leadingTexts y items).map lowByte)
      (items.mapM fun item => do
        let text ← orThrow (y.asString item)
        let parsed ← stoulOrThrow text
        return BitVec.ofNat 8 parsed)
  | [] => .ok (by simp) nofun
  | item :: items => by
    rw [List.mapM_cons, leadingTexts]
    cases hitem : y.asString item with
    | none => exact .yaml ⟨item, List.mem_cons_self, hitem⟩ nofun
    | some text =>
      have hfirst := reading_stoul text
      have hrest := reading_items items
      have hread : (do
          let text ← orThrow (some text)
          let parsed ← stoulOrThrow text
          return BitVec.ofNat 8 parsed : Except ConfigException (BitVec 8)) =
        do return BitVec.ofNat 8 (← stoulOrThrow text) := rfl
      rw [hread]
      generalize (do return BitVec.ofNat 8 (← stoulOrThrow text) :
        Except ConfigException (BitVec 8)) = first at hfirst ⊢
      generalize (items.mapM fun item => do
        let text ← orThrow (y.asString item)
        let parsed ← stoulOrThrow text
        return BitVec.ofNat 8 parsed : Except ConfigException (List (BitVec 8))) = rest at hrest ⊢
      cases hfirst with
      | std hmem hbad =>
        obtain rfl := List.mem_singleton.1 hmem
        exact .std List.mem_cons_self hbad
      | yaml hrefused _ => exact hrefused.elim
      | ok _ hreadable =>
        have htext := hreadable text (List.mem_singleton_self text)
        cases hrest with
        | std hmem hbad => exact .std (List.mem_cons_of_mem _ hmem) hbad
        | yaml hrefused hall =>
          obtain ⟨bad, hmem, hbad⟩ := hrefused
          exact .yaml ⟨bad, List.mem_cons_of_mem _ hmem, hbad⟩ (List.forall_mem_cons.2 ⟨htext, hall⟩)
        | ok hfine hall =>
          refine .ok ?_ (List.forall_mem_cons.2 ⟨htext, hall⟩)
          rintro ⟨bad, hmem, hbad⟩
          rcases List.mem_cons.1 hmem with rfl | hmem
          · rw [hitem] at hbad
            cases hbad
          · exact hfine ⟨bad, hmem, hbad⟩

theorem library_cases (y : Yaml N) (root : N) (read : LibraryRow N) :
    Reading ((Row.library read).texts y root) ((Row.library read).Refused y root)
      ((Row.library read).given y root) ((Row.library read).assign y root) := by
  rw [Row.texts, Row.Refused, Row.given, Row.assign]
  cases read y root with
  | none => exact .yaml rfl (List.forall_mem_nil _)
  | some set => exact .ok (Option.some_ne_none set) (List.forall_mem_nil _)

/-- **`assign_hex_or_decimal_u8`.** -/
theorem hexOrDecimalU8_cases (y : Yaml N) (root : N) (sectionName key : String)
    (set : BitVec 8 → ReceiverConfig → ReceiverConfig) :
    let row := Row.hexOrDecimalU8 sectionName key set
    Reading (row.texts y root) (row.Refused y root) (row.given y root) (row.assign y root) := by
  intro row
  rw [Row.texts, Row.Refused, Row.given, Row.assign, hexOrDecimalU8]
  rcases lookup y root sectionName key with _ | _ | node
  · exact .yaml trivial (List.forall_mem_nil _)
  · exact .ok id (List.forall_mem_nil _)
  · change Reading (y.asString node).toList (y.asString node = none)
      ((y.asString node).elim id fun text => set (lowByte text))
      (orThrow (y.asString node) >>= fun text =>
        stoulOrThrow text >>= fun parsed => pure (set (BitVec.ofNat 8 parsed)))
    cases y.asString node with
    | none => exact .yaml rfl (List.forall_mem_nil _)
    | some text =>
      have hset := (reading_stoul text).map set
      simp only [bind_assoc, pure_bind] at hset
      exact hset.congr ⟨False.elim, fun h => Option.some_ne_none text h⟩

/-- **`assign_hex_or_decimal_u8_vector`.** -/
theorem hexOrDecimalU8Vector_cases (y : Yaml N) (root : N) (sectionName key : String)
    (set : List (BitVec 8) → ReceiverConfig → ReceiverConfig) :
    let row := Row.hexOrDecimalU8Vector sectionName key set
    Reading (row.texts y root) (row.Refused y root) (row.given y root) (row.assign y root) := by
  intro row
  rw [Row.texts, Row.Refused, Row.given, Row.assign, hexOrDecimalU8Vector]
  rcases lookup y root sectionName key with _ | _ | node
  · exact .yaml trivial (List.forall_mem_nil _)
  · exact .ok id (List.forall_mem_nil _)
  · change Reading (if y.isSequence node then _ else _) (_ ∧ _) (if y.isSequence node then _ else _)
      (if y.isSequence node then _ else _)
    by_cases hseq : y.isSequence node = true
    · rw [if_pos hseq, if_pos hseq, if_pos hseq]
      exact ((reading_items (scalars y node)).map set).congr (and_iff_right hseq).symm
    · rw [if_neg hseq, if_neg hseq, if_neg hseq]
      exact .ok (fun h => hseq h.1) (List.forall_mem_nil _)

/-- **One row**: what the source's assignment makes of the texts. -/
theorem assign_cases (y : Yaml N) (root : N) (row : Row N) :
    Reading (row.texts y root) (row.Refused y root) (row.given y root) (row.assign y root) := by
  cases row with
  | library read => exact library_cases y root read
  | hexOrDecimalU8 sectionName key set => exact hexOrDecimalU8_cases y root sectionName key set
  | hexOrDecimalU8Vector sectionName key set =>
    exact hexOrDecimalU8Vector_cases y root sectionName key set

/-! ## All rows -/

/-- The loop over some of the rows. -/
def readRows (y : Yaml N) (root : N) (rs : List (Row N)) (cfg : ReceiverConfig) :
    Except ConfigException ReceiverConfig :=
  rs.foldlM (fun cfg row => (· cfg) <$> row.assign y root) cfg

theorem readRows_cons (row : Row N) (rs : List (Row N)) (cfg : ReceiverConfig) :
    readRows y root (row :: rs) cfg =
      row.assign y root >>= fun set => readRows y root rs (set cfg) := by
  rw [readRows, List.foldlM_cons]
  cases row.assign y root <;> rfl

/-- **What is read**: nothing is refused, every text is readable, and the result is what the rows
give. -/
theorem readRows_ok : ∀ {rs : List (Row N)} {cfg cfg' : ReceiverConfig},
    readRows y root rs cfg = .ok cfg' ↔
      (∀ row ∈ rs, ¬ row.Refused y root ∧ ∀ text ∈ row.texts y root, Readable text) ∧
        rs.foldl (fun cfg row => row.given y root cfg) cfg = cfg'
  | [], cfg, cfg' => by
    constructor
    · intro h
      exact ⟨nofun, Except.ok.inj h⟩
    · intro ⟨_, h⟩
      exact congrArg Except.ok h
  | row :: rs, cfg, cfg' => by
    have hrow := assign_cases y root row
    rw [readRows_cons, List.forall_mem_cons, List.foldl_cons]
    generalize row.assign y root = r at hrow ⊢
    cases hrow with
    | std hmem hbad => exact ⟨nofun, fun h => absurd (h.1.1.2 _ hmem) hbad⟩
    | yaml hrefused _ => exact ⟨nofun, fun h => absurd hrefused h.1.1.1⟩
    | ok hfine hall =>
      have ih : readRows y root rs (row.given y root cfg) = .ok cfg' ↔ _ := readRows_ok
      refine ih.trans ?_
      rw [and_assoc]
      exact (and_iff_right ⟨hfine, hall⟩).symm

/-- **What is thrown past the library's exceptions**: a text that is not readable, before anything
is refused. -/
theorem readRows_std : ∀ {rs : List (Row N)} {cfg : ReceiverConfig},
    (∃ e, readRows y root rs cfg = .error (.std e)) ↔
      ∃ pre row post, rs = pre ++ row :: post ∧ (∀ r ∈ pre, ¬ r.Refused y root) ∧
        ∃ text ∈ row.texts y root, ¬ Readable text
  | [], cfg => by
    refine ⟨nofun, fun ⟨pre, row, post, hrs, _⟩ => ?_⟩
    simp at hrs
  | row :: rs, cfg => by
    have hrow := assign_cases y root row
    rw [readRows_cons]
    generalize row.assign y root = r at hrow ⊢
    cases hrow with
    | @std e text hmem hbad =>
      exact iff_of_true ⟨e, rfl⟩ ⟨[], row, rs, rfl, by simp, text, hmem, hbad⟩
    | yaml hrefused hall =>
      refine iff_of_false ?_ ?_
      · rintro ⟨e, h⟩
        cases h
      rintro ⟨pre, row', post, hrs, hpre, text, hmem, hbad⟩
      cases pre with
      | nil =>
        obtain ⟨rfl, -⟩ := List.cons_eq_cons.1 hrs
        exact hbad (hall text hmem)
      | cons p pre =>
        obtain ⟨rfl, -⟩ := List.cons_eq_cons.1 hrs
        exact hpre row List.mem_cons_self hrefused
    | ok hfine hall =>
      have ih : (∃ e, readRows y root rs (row.given y root cfg) = .error (.std e)) ↔ _ :=
        readRows_std
      refine ih.trans ?_
      constructor
      · rintro ⟨pre, row', post, rfl, hpre, hbad⟩
        exact ⟨row :: pre, row', post, rfl, List.forall_mem_cons.2 ⟨hfine, hpre⟩, hbad⟩
      · rintro ⟨pre, row', post, hrs, hpre, text, hmem, hbad⟩
        cases pre with
        | nil =>
          obtain ⟨rfl, -⟩ := List.cons_eq_cons.1 hrs
          exact absurd (hall text hmem) hbad
        | cons p pre =>
          obtain ⟨-, rfl⟩ := List.cons_eq_cons.1 hrs
          exact ⟨pre, row', post, rfl, fun r hr => hpre r (List.mem_cons_of_mem p hr), text, hmem, hbad⟩

/-! ## The fields that rows set -/

/-- The row leaves `f` of the configuration alone. -/
def Keeps {α : Type} (f : ReceiverConfig → α) (row : Row N) : Prop :=
  ∀ (y : Yaml N) (root : N) (c : ReceiverConfig), f (row.given y root c) = f c

section
variable {α T : Type} {f : ReceiverConfig → α} {sectionName key : String}

theorem keeps_library {read : LibraryRow N}
    (h : ∀ y root set, read y root = some set → ∀ c, f (set c) = f c) :
      Keeps f (.library read) := by
  intro y root c
  rw [Row.given]
  cases hread : read y root with
  | none => rfl
  | some set => exact h y root set hread c

theorem ifPresent_keeps {as : Yaml N → N → Option T} {set : T → ReceiverConfig → ReceiverConfig}
    (h : ∀ v c, f (set v c) = f c) : Keeps f (.library (ifPresent sectionName key as set)) := by
  refine keeps_library fun y root set' hread c => ?_
  obtain ⟨node, -, hread⟩ := Option.bind_eq_some_iff.1 hread
  cases node with
  | none =>
    obtain rfl := Option.some.inj hread
    rfl
  | some node =>
    obtain ⟨v, -, hread⟩ := Option.bind_eq_some_iff.1 hread
    obtain rfl := Option.some.inj hread
    exact h v c

theorem sequenceIfPresent_keeps {as : Yaml N → N → Option T}
    {set : List T → ReceiverConfig → ReceiverConfig} (h : ∀ v c, f (set v c) = f c) :
    Keeps f (.library (sequenceIfPresent sectionName key as set)) := by
  refine keeps_library fun y root set' hread c => ?_
  obtain ⟨node, -, hread⟩ := Option.bind_eq_some_iff.1 hread
  cases node with
  | none =>
    obtain rfl := Option.some.inj hread
    rfl
  | some node =>
    simp only at hread
    split at hread
    · obtain ⟨v, -, hread⟩ := Option.bind_eq_some_iff.1 hread
      obtain rfl := Option.some.inj hread
      exact h v c
    · obtain rfl := Option.some.inj hread
      rfl

theorem spoolDir_keeps (h : ∀ (dir : String) c, f { c with capture.spoolDir := dir } = f c) :
    Keeps (N := N) f (.library spoolDir) := by
  refine keeps_library fun y root set' hread c => ?_
  obtain ⟨spool, -, hread⟩ := Option.bind_eq_some_iff.1 hread
  simp only at hread
  split at hread <;>
  · obtain ⟨output, -, hread⟩ := Option.bind_eq_some_iff.1 hread
    obtain rfl := Option.some.inj hread
    exact h _ c

theorem hexOrDecimalU8Vector_keeps {set : List (BitVec 8) → ReceiverConfig → ReceiverConfig}
    (h : ∀ v c, f (set v c) = f c) :
    Keeps (N := N) f (.hexOrDecimalU8Vector sectionName key set) := by
  intro y root c
  rw [Row.given]
  rcases lookup y root sectionName key with _ | _ | node
  · rfl
  · rfl
  · simp only
    split
    · exact h _ c
    · rfl

end

theorem foldl_keeps {α : Type} {f : ReceiverConfig → α} :
    ∀ {rs : List (Row N)} {c : ReceiverConfig}, (∀ row ∈ rs, Keeps f row) →
      f (rs.foldl (fun cfg row => row.given y root cfg) c) = f c
  | [], _, _ => rfl
  | row :: rs, c, h => by
    rw [List.foldl_cons, foldl_keeps fun r hr => h r (List.mem_cons_of_mem row hr)]
    exact h row List.mem_cons_self y root c

theorem described_field {α : Type} {f : ReceiverConfig → α} {row : Row N} {pre post : List (Row N)}
    (hrows : rows = pre ++ row :: post) (hpost : ∀ r ∈ post, Keeps f r) :
    ∃ c, f (described y root) = f (row.given y root c) := by
  rw [described, hrows, List.foldl_append, List.foldl_cons, foldl_keeps hpost]
  exact ⟨_, rfl⟩

/-- No row behind the one that sets a field of bytes touches it. -/
theorem rows_keep :
    (∀ row ∈ (rows : List (Row N)).drop 5, Keeps (·.network.localDeviceId) row) ∧
      (∀ row ∈ (rows : List (Row N)).drop 11, Keeps (·.network.sourceIdMap) row) ∧
      (∀ row ∈ (rows : List (Row N)).drop 59, Keeps (·.capture.filterPacketTypes) row) ∧
      ∀ row ∈ (rows : List (Row N)).drop 60, Keeps (·.capture.filterSourceIds) row := by
  simp only [rows, List.drop_succ_cons, List.drop_zero, List.forall_mem_cons]
  and_intros
  all_goals first
    | exact ifPresent_keeps fun _ _ => rfl
    | exact sequenceIfPresent_keeps fun _ _ => rfl
    | exact hexOrDecimalU8Vector_keeps fun _ _ => rfl
    | exact spoolDir_keeps fun _ _ => rfl
    | exact nofun

/-- The rows that read numbers. -/
theorem forall_texts {P : String → Prop} : (∀ row ∈ rows, ∀ text ∈ row.texts y root, P text) ↔
    (∀ text ∈ (Row.hexOrDecimalU8 "network" "local_device_id" fun v c =>
      { c with network.localDeviceId := v }).texts y root, P text) ∧
    (∀ text ∈ (Row.hexOrDecimalU8Vector "network" "source_id_map" fun v c =>
      { c with network.sourceIdMap := v }).texts y root, P text) ∧
    (∀ text ∈ (Row.hexOrDecimalU8Vector "capture" "filter_packet_types" fun v c =>
      { c with capture.filterPacketTypes := v }).texts y root, P text) ∧
    ∀ text ∈ (Row.hexOrDecimalU8Vector "capture" "filter_source_ids" fun v c =>
      { c with capture.filterSourceIds := v }).texts y root, P text := by
  have hlibrary : ∀ read : LibraryRow N,
      (∀ text ∈ (Row.library read).texts y root, P text) ↔ True :=
    fun read => iff_true_intro nofun
  have hnil : (∀ row ∈ ([] : List (Row N)), ∀ text ∈ row.texts y root, P text) ↔ True :=
    iff_true_intro nofun
  simp only [rows, List.forall_mem_cons, hlibrary, hnil, true_and, and_true]

section
variable {sectionName key : String} {post : List (Row N)}

/-- **A byte** is exact exactly when its text is in range. -/
theorem exact_byte_iff (y : Yaml N) (root : N) (pre : List (Row N)) {f : ReceiverConfig → BitVec 8}
    {set : BitVec 8 → ReceiverConfig → ReceiverConfig}
    (hrows : rows = pre ++ .hexOrDecimalU8 sectionName key set :: post)
    (hpost : ∀ r ∈ post, Keeps f r) (hset : ∀ b c, f (set b c) = b) :
    (∀ text ∈ byteText y root sectionName key, ReadAs [text] [f (described y root)]) ↔
      ∀ text ∈ (Row.hexOrDecimalU8 sectionName key set).texts y root, InByte text := by
  obtain ⟨c, hc⟩ := described_field (y := y) hrows hpost
  rw [hc, byteText, Row.given, Row.texts]
  rcases lookup y root sectionName key with _ | _ | node
  · exact iff_of_true nofun nofun
  · exact iff_of_true nofun nofun
  · simp only
    cases y.asString node with
    | none => exact iff_of_true nofun nofun
    | some text =>
      have hread : ReadAs [text] [lowByte text] ↔ ∀ t ∈ [text], InByte t := readAs_iff
      simpa [hset] using hread

/-- **A sequence of bytes** is exact exactly when its texts are in range. -/
theorem exact_bytes_iff (y : Yaml N) (root : N) (pre : List (Row N))
    {f : ReceiverConfig → List (BitVec 8)} {set : List (BitVec 8) → ReceiverConfig → ReceiverConfig}
    (hrows : rows = pre ++ .hexOrDecimalU8Vector sectionName key set :: post)
    (hfine : ∀ row ∈ rows, ¬ row.Refused y root) (hpost : ∀ r ∈ post, Keeps f r)
    (hset : ∀ bs c, f (set bs c) = bs) :
    (∀ texts ∈ byteTextList y root sectionName key, ReadAs texts (f (described y root))) ↔
      ∀ text ∈ (Row.hexOrDecimalU8Vector sectionName key set).texts y root, InByte text := by
  obtain ⟨c, hc⟩ := described_field (y := y) hrows hpost
  have hrow := hfine (.hexOrDecimalU8Vector sectionName key set)
    (hrows ▸ List.mem_append_right pre List.mem_cons_self)
  rw [Row.Refused] at hrow
  rw [hc, byteTextList, Row.given, Row.texts]
  rcases hnode : lookup y root sectionName key with _ | _ | node
  · exact iff_of_true nofun nofun
  · exact iff_of_true nofun nofun
  · rw [hnode] at hrow
    simp only at hrow ⊢
    by_cases hseq : y.isSequence node = true
    · have hall : ∀ item ∈ scalars y node, y.asString item ≠ none := fun item hitem hnone =>
        hrow ⟨hseq, item, hitem, hnone⟩
      rw [if_pos hseq, if_pos hseq, if_pos hseq, mapM_asString hall, hset, ← readAs_iff]
      simp
    · rw [if_neg hseq, if_neg hseq, if_neg hseq]
      exact iff_of_true nofun nofun

end

/-- The bytes of a configuration that was read are exact when all texts are in range, and only
then. -/
theorem readConfig_exact_iff (h : readConfig y root = .ok cfg) :
    Exact y root cfg ↔ ∀ row ∈ rows, ∀ text ∈ row.texts y root, InByte text := by
  obtain ⟨hall, hcfg⟩ := readRows_ok.1 h
  obtain rfl : described y root = cfg := hcfg
  have hfine : ∀ row ∈ rows, ¬ row.Refused y root := fun row hrow => (hall row hrow).1
  obtain ⟨h5, h11, h59, h60⟩ := rows_keep (N := N)
  rw [forall_texts, ← exact_byte_iff y root (rows.take 4) rfl h5 fun _ _ => rfl,
    ← exact_bytes_iff y root (rows.take 10) rfl hfine h11 fun _ _ => rfl,
    ← exact_bytes_iff y root (rows.take 58) rfl hfine h59 fun _ _ => rfl,
    ← exact_bytes_iff y root (rows.take 59) rfl hfine h60 fun _ _ => rfl]
  constructor
  · intro ⟨h1, h2, h3, h4⟩
    exact ⟨h1, h2, h3, h4⟩
  · intro ⟨h1, h2, h3, h4⟩
    exact ⟨h1, h2, h3, h4⟩

/-! ## Loading -/

/-- The same, of what reading the rows comes to. -/
theorem tame_iff : Tame y root ↔ (∀ e, readConfig y root ≠ .error (.std e)) ∧
    ∀ cfg, readConfig y root = .ok cfg → validate cfg →
      ∀ row ∈ rows, ∀ text ∈ row.texts y root, InByte text := by
  constructor
  · intro htame
    refine ⟨fun e he => ?_, fun cfg hread hvalid => ?_⟩
    · obtain ⟨pre, row, post, hrows, hpre, text, hmem, hbad⟩ := readRows_std.1 ⟨e, he⟩
      exact hbad (htame.readable pre row post hrows hpre text hmem)
    · obtain ⟨hall, rfl⟩ := readRows_ok.1 hread
      exact htame.inRange (fun row hrow => (hall row hrow).1) hvalid
  · intro ⟨hcaught, hrange⟩
    have hreadable : ∀ pre row post, rows = pre ++ row :: post → (∀ r ∈ pre, ¬ r.Refused y root) →
        ∀ text ∈ row.texts y root, Readable text := by
      intro pre row post hrows hpre text hmem
      by_contra hbad
      obtain ⟨e, he⟩ := readRows_std.2 ⟨pre, row, post, hrows, hpre, text, hmem, hbad⟩
      exact hcaught e he
    refine ⟨hreadable, fun hfine hvalid => hrange _ (readRows_ok.2 ⟨fun row hrow => ?_, rfl⟩) hvalid⟩
    obtain ⟨pre, post, hrows⟩ := List.append_of_mem hrow
    have hbefore : ∀ r ∈ pre, ¬ r.Refused y root := fun r hr =>
      hfine r (hrows ▸ List.mem_append_left _ hr)
    exact ⟨hfine row hrow, hreadable pre row post hrows hbefore⟩

theorem loadFromFile_sound_iff (m : ConfigManager γ) (configFile : String) :
    Sound y m configFile (m.loadFromFile y configFile) ↔
      ∀ root, y.loadFile configFile = some root → Tame y root := by
  cases hroot : y.loadFile configFile with
  | none =>
    have hload : m.loadFromFile y configFile = { manager := m, result := .ok false } := by
      simp only [ConfigManager.loadFromFile, hroot]
      rfl
    rw [hload]
    exact iff_of_true ⟨rfl, rfl⟩ fun _ h => absurd h (Option.some_ne_none _).symm
  | some root =>
    have hread : (do readConfig y (← orThrow (some root))) = readConfig y root := rfl
    have hcond : (∀ r, some root = some r → Tame y r) ↔ Tame y root :=
      ⟨fun h => h root rfl, fun h r hr => Option.some.inj hr ▸ h⟩
    have hexact : ∀ cfg, readConfig y root = .ok cfg →
        (Exact y root cfg ↔ ∀ row ∈ rows, ∀ text ∈ row.texts y root, InByte text) :=
      fun _ h => readConfig_exact_iff h
    rw [ConfigManager.loadFromFile, hroot, hread, hcond, tame_iff]
    generalize readConfig y root = r at hexact ⊢
    cases r with
    | error e =>
      cases e with
      | yaml => exact iff_of_true ⟨rfl, rfl⟩ ⟨fun _ h => (by cases h), fun _ h => (by cases h)⟩
      | std e => exact iff_of_false (fun h => h) fun htame => htame.1 e rfl
    | ok cfg =>
      simp only
      cases hvalid : validate cfg with
      | false =>
        refine iff_of_true ⟨rfl, rfl⟩ ⟨fun _ h => (by cases h), fun c hc hv => ?_⟩
        obtain rfl := Except.ok.inj hc
        rw [hvalid] at hv
        cases hv
      | true =>
        constructor
        · intro hsound
          refine ⟨fun _ h => (by cases h), fun c hc _ => ?_⟩
          exact (hexact cfg rfl).1 (hsound root hroot)
        · intro htame r hr
          obtain rfl := Option.some.inj (hroot.symm.trans hr)
          exact (hexact cfg rfl).2 (htame.2 cfg rfl hvalid)

theorem reload_sound_iff (m : ConfigManager γ) :
    Sound y m m.configFilePath (m.reload y) ↔
      (m.configFilePath ≠ "" → ∀ root, y.loadFile m.configFilePath = some root → Tame y root) := by
  unfold ConfigManager.reload
  split
  case isTrue hpath => exact iff_of_true ⟨rfl, rfl⟩ fun h => absurd hpath h
  case isFalse hpath =>
    have hload := loadFromFile_sound_iff (y := y) m m.configFilePath
    rw [forall_prop_of_true hpath, ← hload]
    generalize m.loadFromFile y m.configFilePath = loaded
    cases hresult : loaded.result with
    | error e => simp only [hresult]
    | ok b =>
      cases b with
      | false => simp only [hresult]
      | true => simp only [Sound, hresult]

/-- **What a configuration file can do.** Loading one, and reloading the one loaded before, ends as
it should exactly when the document is tame. -/
theorem configuration_sound_iff (y : Yaml N) (m : ConfigManager γ) :
    (∀ configFile, Sound y m configFile (m.loadFromFile y configFile) ↔
      ∀ root, y.loadFile configFile = some root → Tame y root) ∧
    (Sound y m m.configFilePath (m.reload y) ↔
      (m.configFilePath ≠ "" → ∀ root, y.loadFile m.configFilePath = some root → Tame y root)) :=
  ⟨loadFromFile_sound_iff m, reload_sound_iff m⟩

/-- Documents that give a device id and nothing else. -/
inductive IdDocument where
  | root (id : String)
  | network (id : String)
  | scalar (text : String)

/-- The library on two such files. -/
def twoFiles : Yaml IdDocument where
  loadFile path :=
    if path = "wide.yaml" then some (.root "300")
    else if path = "letters.yaml" then some (.root "abc")
    else none
  get
    | .root id, key => some (if key = "network" then some (.network id) else none)
    | .network id, key => some (if key = "local_device_id" then some (.scalar id) else none)
    | .scalar _, _ => none
  isSequence _ := false
  isScalar
    | .scalar _ => true
    | _ => false
  items _ := []
  asString
    | .scalar text => some text
    | _ => none
  asBool _ := none
  asInt _ := none
  asU16 _ := none
  asU32 _ := none
  asSize _ := none

theorem wide_accepted :
    ((({} : ConfigManager Unit).loadFromFile twoFiles "wide.yaml").result.toOption,
      (({} : ConfigManager Unit).loadFromFile twoFiles
        "wide.yaml").manager.currentConfig.network.localDeviceId,
      byteText twoFiles (.root "300") "network" "local_device_id", denotes "300") =
        (some true, 44, some "300", some 300) := by
  decide +kernel

theorem letters_thrown :
    (({} : ConfigManager Unit).loadFromFile twoFiles "letters.yaml").result.toOption = none := by
  decide +kernel

/-- **Two bad files**: device id `300` is taken for 44, and device id `abc` ends the process. -/
theorem twoFiles_not_sound :
    ¬ Sound twoFiles ({} : ConfigManager Unit) "wide.yaml"
        (({} : ConfigManager Unit).loadFromFile twoFiles "wide.yaml") ∧
      ¬ Sound twoFiles ({} : ConfigManager Unit) "letters.yaml"
        (({} : ConfigManager Unit).loadFromFile twoFiles "letters.yaml") := by
  have hwide := wide_accepted
  have hletters := letters_thrown
  generalize ({} : ConfigManager Unit).loadFromFile twoFiles "wide.yaml" = wide at hwide ⊢
  generalize ({} : ConfigManager Unit).loadFromFile twoFiles "letters.yaml" = letters at hletters ⊢
  simp only [Prod.mk.injEq] at hwide
  obtain ⟨hresult, hid, htext, hdenotes⟩ := hwide
  constructor
  · intro hsound
    cases hr : wide.result with
    | error e => simp [hr, Except.toOption] at hresult
    | ok b =>
      obtain rfl : b = true := by simpa [hr, Except.toOption] using hresult
      simp only [Sound, hr] at hsound
      have hexact := (hsound (.root "300") rfl).localDeviceId "300" htext
      rw [hid, ReadAs, List.map_cons, hdenotes] at hexact
      exact absurd hexact (by decide)
  · intro hsound
    cases hr : letters.result with
    | error e => simp only [Sound, hr] at hsound
    | ok b => simp [hr, Except.toOption] at hletters

end Qdgz300.Config
