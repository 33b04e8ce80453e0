import Qdgz300.Lib.Circular
import Qdgz300.Pipeline.Reorderer

/-!
# The reorder window, position by position

Sequence numbers are seen as positions `0, 1, 2, …` counted from the first one, `s0`: the window
stands at the number of positions already consumed, and position `q` lives in slot `q % n`. Two
lists describe a run:

* `A`, the arrivals: every insert whose position was in the window when it came,
* `c`, what was consumed: for each position the entry handed out, or `none` for a gap.

`Win` relates them to the state: a consumed position handed out its first arrival, a position of
the window is buffered just when it has one (`first`). `insertBody_inv` and `checkTimeout_inv` say
how one call extends both lists and what it emits (`render`).
-/

namespace Qdgz300.Pipeline

open Protocol

/-- What an insert brings: a header and an owned payload. -/
structure Entry where
  header : CommonHeader
  payload : Option (List Byte)
  payloadSize : Nat
  deriving DecidableEq

/-- The packet that carries an entry. -/
def Entry.packet (e : Entry) (seq : BitVec 32) : OrderedPacket :=
  Reorderer.orderedOf e.header e.payload e.payloadSize seq

/-- The slot that buffers an entry. -/
def Entry.stored (e : Entry) (seq : BitVec 32) : StoredPacket where
  sequence := seq
  header := e.header
  payload := e.payload
  payloadSize := e.payloadSize
  occupied := true

/-- An insert of position `position` while that position was in the window, the `index`-th call. -/
structure Arrival where
  index : Nat
  position : Nat
  entry : Entry

/-- The first arrival at a position. -/
def first (A : List Arrival) (q : Nat) : Option Arrival := A.find? fun a => a.position == q

/-- What is stored for a position: its first arrival. -/
def held (A : List Arrival) (q : Nat) : Option Entry := (first A q).map (·.entry)

/-- The packets emitted for consumed positions from `i` on. -/
def render (zeroFill : Bool) (s0 : BitVec 32) : Nat → List (Option Entry) → List OrderedPacket
  | _, [] => []
  | i, some e :: c => e.packet (s0 + BitVec.ofNat 32 i) :: render zeroFill s0 (i + 1) c
  | i, none :: c =>
    (if zeroFill then [Reorderer.createZeroFilledPacket (s0 + BitVec.ofNat 32 i)] else []) ++
      render zeroFill s0 (i + 1) c

theorem render_append (zf : Bool) (s0 : BitVec 32) :
    ∀ (c d : List (Option Entry)) (i : Nat),
      render zf s0 i (c ++ d) = render zf s0 i c ++ render zf s0 (i + c.length) d
  | [], d, i => by simp [render]
  | some e :: c, d, i => by
    simp only [List.cons_append, render, render_append zf s0 c d, List.length_cons]
    rw [Nat.add_right_comm, Nat.add_assoc]
  | none :: c, d, i => by
    simp only [List.cons_append, render, render_append zf s0 c d, List.length_cons,
      List.append_assoc]
    rw [Nat.add_right_comm, Nat.add_assoc]

/-! ## Arrivals -/

theorem first_append (A : List Arrival) (a : Arrival) (q : Nat) :
    first (A ++ [a]) q = (first A q).or (if a.position = q then some a else none) := by
  unfold first
  rw [List.find?_append]
  by_cases h : a.position = q <;> simp [h]

theorem first_append_ne {A : List Arrival} {a : Arrival} {q : Nat} (h : a.position ≠ q) :
    first (A ++ [a]) q = first A q := by
  rw [first_append, if_neg h, Option.or_none]

theorem first_append_self {A : List Arrival} {a : Arrival} (h : first A a.position = none) :
    first (A ++ [a]) a.position = some a := by
  rw [first_append, h, if_pos rfl, Option.none_or]

theorem first_append_of_some {A : List Arrival} {a b : Arrival} {q : Nat} (h : first A q = some b) :
    first (A ++ [a]) q = some b := by
  rw [first_append, h, Option.some_or]

theorem first_eq_none {A : List Arrival} {q : Nat} (h : ∀ a ∈ A, a.position ≠ q) :
    first A q = none := by
  unfold first
  rw [List.find?_eq_none]
  exact fun a ha => by simpa using h a ha

/-! ## The window -/

/-- Slot `q % n` holds exactly `o`. -/
def SlotOk (ring : List StoredPacket) (bm : Bitmap) (s0 : BitVec 32) (q : Nat) :
    Option Entry → Prop
  | none => bm.test (q % ring.length) = false ∧ (ring.getD (q % ring.length) {}).occupied = false
  | some e => bm.test (q % ring.length) = true ∧
      ring.getD (q % ring.length) {} = e.stored (s0 + BitVec.ofNat 32 q)

theorem SlotOk.congr_set {ring : List StoredPacket} {bm bm' : Bitmap} {s0 : BitVec 32} {q i : Nat}
    {o : Option Entry} {p : StoredPacket} (h : SlotOk ring bm s0 q o) (hne : i ≠ q % ring.length)
    (hbit : bm'.test (q % ring.length) = bm.test (q % ring.length)) :
    SlotOk (ring.set i p) bm' s0 q o := by
  have hslot : (ring.set i p).getD (q % ring.length) {} = ring.getD (q % ring.length) {} :=
    Circular.getD_set_ne hne
  cases o <;>
  · unfold SlotOk at h ⊢
    rw [List.length_set, hbit, hslot]
    exact h

/-- The window after the positions `c` were consumed; `b` is what its first slot holds. -/
structure Win (cfg : ReorderConfig) (s0 : BitVec 32) (A : List Arrival) (c : List (Option Entry))
    (b : Option Entry) (s : Reorderer) : Prop where
  config : s.config = cfg
  init : s.initialized = true
  size : s.ringSlots.length = max 1 cfg.windowSize
  small : s.ringSlots.length < 2 ^ 31
  words : s.occupancyBitmap.length = (s.ringSlots.length + 63) / 64
  next : s.nextExpectedSeq = s0 + BitVec.ofNat 32 c.length
  advanced : s.stats.sequencesAdvanced = c.length
  base : s.baseIndex = c.length % s.ringSlots.length
  ahead : ∀ a ∈ A, a.position < c.length + s.ringSlots.length
  past : ∀ q < c.length, (c)[q]? = some (held A q)
  head : SlotOk s.ringSlots s.occupancyBitmap s0 c.length b
  slots : ∀ q, c.length < q → q < c.length + s.ringSlots.length →
    SlotOk s.ringSlots s.occupancyBitmap s0 q (held A q)

/-- The window between calls: its first position is still awaited. -/
structure WinInv (cfg : ReorderConfig) (s0 : BitVec 32) (A : List Arrival)
    (c : List (Option Entry)) (s : Reorderer) : Prop extends Win cfg s0 A c none s where
  awaited : first A c.length = none

section
variable {cfg : ReorderConfig} {s0 : BitVec 32} {A : List Arrival} {c : List (Option Entry)}
  {b : Option Entry} {s s' : Reorderer}

theorem Win.frame (h : Win cfg s0 A c b s) (h1 : s'.config = s.config)
    (h2 : s'.initialized = s.initialized) (h3 : s'.ringSlots = s.ringSlots)
    (h4 : s'.occupancyBitmap = s.occupancyBitmap) (h5 : s'.nextExpectedSeq = s.nextExpectedSeq)
    (h6 : s'.stats.sequencesAdvanced = s.stats.sequencesAdvanced)
    (h7 : s'.baseIndex = s.baseIndex) : Win cfg s0 A c b s' := by
  obtain ⟨a1, a2, a3, a4, a5, a6, a7, a8, a9, a10, a11, a12⟩ := h
  rw [← h3] at a3 a4 a5 a8 a9 a11 a12
  rw [← h4] at a5 a11 a12
  exact ⟨h1.trans a1, h2.trans a2, a3, a4, a5, h5.trans a6, h6.trans a7, h7.trans a8, a9, a10, a11,
    a12⟩

theorem WinInv.frame (h : WinInv cfg s0 A c s) (h1 : s'.config = s.config)
    (h2 : s'.initialized = s.initialized) (h3 : s'.ringSlots = s.ringSlots)
    (h4 : s'.occupancyBitmap = s.occupancyBitmap) (h5 : s'.nextExpectedSeq = s.nextExpectedSeq)
    (h6 : s'.stats.sequencesAdvanced = s.stats.sequencesAdvanced)
    (h7 : s'.baseIndex = s.baseIndex) : WinInv cfg s0 A c s' :=
  ⟨h.toWin.frame h1 h2 h3 h4 h5 h6 h7, h.awaited⟩

theorem Win.pos (h : Win cfg s0 A c b s) : 0 < s.ringSlots.length := by
  rw [h.size]
  omega

theorem Win.word_lt (h : Win cfg s0 A c b s) (q : Nat) :
    q % s.ringSlots.length / 64 < s.occupancyBitmap.length := by
  have := Nat.mod_lt q h.pos
  rw [h.words]
  omega

theorem seq_succ (s0 : BitVec 32) (p : Nat) :
    s0 + BitVec.ofNat 32 p + 1 = s0 + BitVec.ofNat 32 (p + 1) := by
  rw [BitVec.add_assoc, ← BitVec.ofNat_add_ofNat]
  rfl

/-- **One position forward** over an empty first slot: the position hands out what the arrivals
`A'` hold for it, and the slot it frees is that of the position entering the window. -/
theorem Win.advance (h : Win cfg s0 A c none s) (A' : List Arrival) (now : Int)
    (hsame : ∀ q, q ≠ c.length → first A' q = first A q)
    (hahead : ∀ a ∈ A', a.position < c.length + s.ringSlots.length) :
    Win cfg s0 A' (c ++ [held A' c.length]) (held A' (c.length + 1)) (s.advanceBy now) := by
  have hlen : (c ++ [held A' c.length]).length = c.length + 1 := by simp
  -- the position that enters the window takes over the first slot
  have henter : SlotOk s.ringSlots s.occupancyBitmap s0 (c.length + s.ringSlots.length)
      (held A' (c.length + s.ringSlots.length)) := by
    have hnone : held A' (c.length + s.ringSlots.length) = none := by
      rw [held, first_eq_none fun a ha => Nat.ne_of_lt (hahead a ha)]
      rfl
    have := h.head
    rw [hnone]
    unfold SlotOk at this ⊢
    rwa [Nat.add_mod_right]
  have hslot : ∀ q, c.length < q → q ≤ c.length + s.ringSlots.length →
      SlotOk s.ringSlots s.occupancyBitmap s0 q (held A' q) := by
    intro q h1 h2
    rcases Nat.lt_or_ge q (c.length + s.ringSlots.length) with hlt | hge
    · rw [held, hsame q (by omega)]
      exact h.slots q h1 hlt
    · rw [show q = c.length + s.ringSlots.length by omega]
      exact henter
  refine ⟨h.config, h.init, h.size, h.small, h.words, ?_, ?_, ?_, ?_, ?_, ?_, ?_⟩
  · simp only [Reorderer.advanceBy, h.next, hlen, seq_succ]
  · simp only [Reorderer.advanceBy, h.advanced, hlen]
  · simp only [Reorderer.advanceBy, h.base, hlen, Circular.succ_mod]
  · intro a ha
    have := hahead a ha
    simp only [Reorderer.advanceBy, hlen]
    omega
  · intro q hq
    rw [hlen] at hq
    rcases Nat.lt_or_ge q c.length with hlt | hge
    · rw [List.getElem?_append_left hlt, h.past q hlt, held, held, hsame q (by omega)]
    · rw [show q = c.length by omega, List.getElem?_concat_length]
  · rw [hlen]
    exact hslot _ (by omega) (by have := h.pos; omega)
  · intro q h1 h2
    simp only [Reorderer.advanceBy, hlen] at h1 h2
    exact hslot q (by omega) (by omega)

/-- The first slot moved out. -/
theorem Win.clearHead (h : Win cfg s0 A c b s) : Win cfg s0 A c none (s.clearSlot s.baseIndex) := by
  have hw := h.word_lt c.length
  rw [← h.base] at hw
  have hb : s.baseIndex < s.ringSlots.length := by rw [h.base]; exact Nat.mod_lt _ h.pos
  refine ⟨h.config, h.init, ?_, ?_, ?_, h.next, h.advanced, ?_, ?_, h.past, ?_, ?_⟩
  · simpa [Reorderer.clearSlot] using h.size
  · simpa [Reorderer.clearSlot] using h.small
  · simpa [Reorderer.clearSlot] using h.words
  · simpa [Reorderer.clearSlot] using h.base
  · simpa [Reorderer.clearSlot] using h.ahead
  · simp only [SlotOk, Reorderer.clearSlot, List.length_set, ← h.base]
    rw [Bitmap.test_clear hw, List.getD_eq_getElem?_getD, List.getElem?_set_self hb]
    simp
  · intro q h1 h2
    simp only [Reorderer.clearSlot, List.length_set] at h2
    have hne : s.baseIndex ≠ q % s.ringSlots.length := by
      rw [h.base]
      exact Circular.mod_ne h1 h2
    have hbit : (s.occupancyBitmap.clear s.baseIndex).test (q % s.ringSlots.length) =
        s.occupancyBitmap.test (q % s.ringSlots.length) := by
      rw [Bitmap.test_clear hw]
      simp [hne]
    exact (h.slots q h1 h2).congr_set hne hbit

/-! ## The loop of `advance_window` -/

theorem Win.takeHead (clk : SteadyClock) (h : Win cfg s0 A c (held A c.length) s) :
    Win cfg s0 A (c ++ [held A c.length]) (held A (c.length + 1)) (s.takeHead clk) := by
  refine (h.clearHead.advance A (clk s.reads) (fun _ _ => rfl) ?_).frame
    rfl rfl rfl rfl rfl rfl rfl
  simpa [Reorderer.clearSlot] using h.ahead

theorem Win.head_none (h : Win cfg s0 A c none s) :
    s.occupancyBitmap.test s.baseIndex = false := by
  rw [h.base]
  exact h.head.1

theorem Win.head_some {e : Entry} (h : Win cfg s0 A c (some e) s) :
    s.occupancyBitmap.test s.baseIndex = true ∧ (s.slot s.baseIndex).occupied = true ∧
      (s.slot s.baseIndex).sequence = s.nextExpectedSeq ∧
      s.headPacket = e.packet (s0 + BitVec.ofNat 32 c.length) := by
  obtain ⟨h1, h2⟩ := h.head
  rw [← h.base] at h1 h2
  have hs : s.slot s.baseIndex = e.stored (s0 + BitVec.ofNat 32 c.length) := h2
  refine ⟨h1, by rw [hs]; rfl, by rw [hs, h.next]; rfl, ?_⟩
  rw [Reorderer.headPacket, hs, h.next]
  rfl

/-- **The loop hands out the buffered positions in a row** and stops at the first one that has not
arrived, when it has fuel for the positions up to the last arrival. -/
theorem advanceLoop_spec (clk : SteadyClock) (zf : Bool) :
    ∀ (fuel : Nat) (c : List (Option Entry)) (s : Reorderer),
      Win cfg s0 A c (held A c.length) s → (∀ q, c.length + fuel ≤ q → first A q = none) →
      ∃ d, WinInv cfg s0 A (c ++ d) (Reorderer.advanceLoop clk fuel s).1 ∧
        (Reorderer.advanceLoop clk fuel s).2 = render zf s0 c.length d := by
  intro fuel
  induction fuel with
  | zero =>
    intro c s h hlast
    have hn := hlast c.length (by omega)
    rw [held, hn] at h
    exact ⟨[], ⟨by simpa [Reorderer.advanceLoop] using h, by simpa using hn⟩, rfl⟩
  | succ fuel ih =>
    intro c s h hlast
    unfold Reorderer.advanceLoop
    cases hf : first A c.length with
    | none =>
      rw [held, hf] at h
      rw [if_pos h.head_none]
      exact ⟨[], ⟨by simpa using h, by simpa using hf⟩, rfl⟩
    | some a =>
      have h' := h
      have hheld : held A c.length = some a.entry := by rw [held, hf]; rfl
      rw [hheld] at h'
      obtain ⟨h1, h2, h3, h4⟩ := h'.head_some
      rw [if_neg (by simp [h1]), if_neg (by simp [h2, h3])]
      obtain ⟨d, hd, hout⟩ := ih (c ++ [held A c.length]) (s.takeHead clk)
        (by simpa using h.takeHead clk)
        (fun q hq => hlast q (by simp at hq; omega))
      refine ⟨held A c.length :: d, by simpa using hd, ?_⟩
      simp only [hout, h4, hheld, render, List.length_append, List.length_singleton]

theorem advanceWindow_spec (clk : SteadyClock) (zf : Bool)
    (h : Win cfg s0 A c (held A c.length) s) :
    ∃ d, WinInv cfg s0 A (c ++ d) (s.advanceWindow clk).1 ∧
      (s.advanceWindow clk).2 = render zf s0 c.length d :=
  advanceLoop_spec clk zf _ c s h fun _ hq =>
    first_eq_none fun a ha => by have := h.ahead a ha; omega

/-! ## New arrivals -/

theorem WinInv.congr {A' : List Arrival} (h : WinInv cfg s0 A c s)
    (hsame : ∀ q, first A' q = first A q)
    (hahead : ∀ a ∈ A', a.position < c.length + s.ringSlots.length) : WinInv cfg s0 A' c s := by
  have hheld : ∀ q, held A' q = held A q := fun q => by rw [held, hsame, held]
  refine ⟨⟨h.config, h.init, h.size, h.small, h.words, h.next, h.advanced, h.base, hahead, ?_, h.head,
    ?_⟩, ?_⟩
  · exact fun q hq => by rw [hheld, h.past q hq]
  · exact fun q h1 h2 => by rw [hheld]; exact h.slots q h1 h2
  · rw [hsame, h.awaited]

theorem ahead_append {n : Nat} {a : Arrival} (h : ∀ a ∈ A, a.position < n) (ha : a.position < n) :
    ∀ b ∈ A ++ [a], b.position < n := by
  intro b hb
  rcases List.mem_append.1 hb with hb | hb
  · exact h b hb
  · rw [List.mem_singleton.1 hb]
    exact ha

theorem WinInv.repeated {a b : Arrival} (h : WinInv cfg s0 A c s)
    (ha : a.position < c.length + s.ringSlots.length) (hb : first A a.position = some b) :
    WinInv cfg s0 (A ++ [a]) c s := by
  refine h.congr (fun q => ?_) (ahead_append h.ahead ha)
  by_cases hq : a.position = q
  · rw [← hq, first_append_of_some hb, hb]
  · exact first_append_ne hq

theorem WinInv.first_of_free {q : Nat} (h : WinInv cfg s0 A c s) (h1 : c.length < q)
    (h2 : q < c.length + s.ringSlots.length) :
    s.occupancyBitmap.test (q % s.ringSlots.length) = (first A q).isSome := by
  have := h.slots q h1 h2
  cases hf : first A q with
  | none =>
    rw [held, hf] at this
    exact this.1
  | some a =>
    rw [held, hf] at this
    exact this.1

/-- A first arrival is buffered in its slot. -/
theorem WinInv.store {a : Arrival} (h : WinInv cfg s0 A c s) (h1 : c.length < a.position)
    (h2 : a.position < c.length + s.ringSlots.length) (hf : first A a.position = none) :
    WinInv cfg s0 (A ++ [a]) c (s.storeAt (a.position % s.ringSlots.length)
      (s0 + BitVec.ofNat 32 a.position) a.entry.header a.entry.payload a.entry.payloadSize) := by
  have hw := h.word_lt a.position
  have hlt := Nat.mod_lt a.position h.pos
  have hother : ∀ q o, c.length ≤ q → q < c.length + s.ringSlots.length → q ≠ a.position →
      SlotOk s.ringSlots s.occupancyBitmap s0 q o →
      SlotOk (s.ringSlots.set (a.position % s.ringSlots.length)
        (a.entry.stored (s0 + BitVec.ofNat 32 a.position)))
        (s.occupancyBitmap.set (a.position % s.ringSlots.length)) s0 q o := by
    intro q o hq1 hq2 hne ho
    have hmod : a.position % s.ringSlots.length ≠ q % s.ringSlots.length := fun he =>
      hne (Circular.mod_inj hq1 hq2 (Nat.le_of_lt h1) h2 he.symm)
    have hbit : (s.occupancyBitmap.set (a.position % s.ringSlots.length)).test
        (q % s.ringSlots.length) = s.occupancyBitmap.test (q % s.ringSlots.length) := by
      rw [Bitmap.test_set hw]
      simp [hmod]
    exact ho.congr_set hmod hbit
  refine ⟨⟨h.config, h.init, ?_, ?_, ?_, h.next, h.advanced, ?_, ?_, ?_, ?_, ?_⟩, ?_⟩
  · simpa [Reorderer.storeAt] using h.size
  · simpa [Reorderer.storeAt] using h.small
  · simpa [Reorderer.storeAt] using h.words
  · simpa [Reorderer.storeAt] using h.base
  · simpa [Reorderer.storeAt] using ahead_append h.ahead h2
  · intro q hq
    rw [h.past q hq, held, held, first_append_ne (by omega)]
  · exact hother c.length none (Nat.le_refl _) (by omega) (by omega) h.head
  · intro q hq1 hq2
    simp only [Reorderer.storeAt, List.length_set] at hq2
    by_cases hq : q = a.position
    · subst hq
      rw [held, first_append_self hf]
      simp only [Option.map_some, SlotOk, Reorderer.storeAt, List.length_set]
      rw [Bitmap.test_set hw, List.getD_eq_getElem?_getD, List.getElem?_set_self hlt]
      exact ⟨by simp, rfl⟩
    · have := hother q _ (Nat.le_of_lt hq1) hq2 hq (h.slots q hq1 hq2)
      rw [held, first_append_ne (Ne.symm hq)]
      exact this
  · rw [first_append_ne (by omega), h.awaited]

/-- The position at which a sequence number arrives, when it is in the window; the very first one
opens position `0`. -/
def Reorderer.position? (s : Reorderer) (seq : BitVec 32) : Option Nat :=
  if (seq - (s.initWith seq).nextExpectedSeq).toNat < s.ringSlots.length then
    some (s.stats.sequencesAdvanced + (seq - (s.initWith seq).nextExpectedSeq).toNat)
  else none

/-- The arrival that the `k`-th call makes when it inserts `e`. -/
def Reorderer.arrival (s : Reorderer) (k : Nat) (e : Entry) : List Arrival :=
  ((s.position? e.header.sequenceNumber).map fun q => ⟨k, q, e⟩).toList

theorem WinInv.position? (h : WinInv cfg s0 A c s) (seq : BitVec 32) :
    s.position? seq = if (seq - s.nextExpectedSeq).toNat < s.ringSlots.length then
      some (c.length + (seq - s.nextExpectedSeq).toNat) else none := by
  rw [Reorderer.position?, Reorderer.initWith, if_pos h.init, h.advanced]

theorem WinInv.seq_eq (h : WinInv cfg s0 A c s) (seq : BitVec 32) :
    s0 + BitVec.ofNat 32 (c.length + (seq - s.nextExpectedSeq).toNat) = seq := by
  rw [BitVec.ofNat_add, BitVec.ofNat_toNat, BitVec.setWidth_eq, ← BitVec.add_assoc, ← h.next,
    BitVec.add_comm, BitVec.sub_add_cancel]

/-- An arrival at the awaited position, and what it releases. -/
theorem WinInv.accept (clk : SteadyClock) (zf : Bool) {a : Arrival} (h : WinInv cfg s0 A c s)
    (ha : a.position = c.length) :
    ∃ d, WinInv cfg s0 (A ++ [a]) (c ++ d)
        (Reorderer.advanceWindow clk (Reorderer.advanceNow clk s.countInOrder)).1 ∧
      a.entry.packet (s0 + BitVec.ofNat 32 c.length) ::
        (Reorderer.advanceWindow clk (Reorderer.advanceNow clk s.countInOrder)).2 =
        render zf s0 c.length d := by
  have hheld : held (A ++ [a]) c.length = some a.entry := by
    rw [held, ← ha, first_append_self (by rw [ha, h.awaited])]
    rfl
  have hadv : Win cfg s0 (A ++ [a]) (c ++ [held (A ++ [a]) c.length])
    (held (A ++ [a]) (c.length + 1))
      (Reorderer.advanceNow clk s.countInOrder) :=
    (h.toWin.advance (A ++ [a]) (clk s.reads) (fun q hq => first_append_ne (by omega))
      (ahead_append h.ahead (by have := h.pos; omega))).frame rfl rfl rfl rfl rfl rfl rfl
  obtain ⟨d, hd, hout⟩ := advanceWindow_spec clk zf
    (c := c ++ [held (A ++ [a]) c.length]) (by simpa using hadv)
  refine ⟨some a.entry :: d, by simpa [hheld] using hd, ?_⟩
  rw [hout, render, hheld]
  simp

/-- **One insert**: the arrival it makes, if any, and the positions it releases. -/
theorem insertBody_inv (clk : SteadyClock) (zf : Bool) (k : Nat) (e : Entry)
    (h : WinInv cfg s0 A c s) :
    ∃ d, WinInv cfg s0 (A ++ s.arrival k e) (c ++ d)
        (s.insertBody clk e.header e.payload e.payloadSize).1 ∧
      (s.insertBody clk e.header e.payload e.payloadSize).2 = render zf s0 c.length d := by
  have hpos := h.position? e.header.sequenceNumber
  have hsmall := h.small
  unfold Reorderer.insertBody
  simp only
  by_cases heq : e.header.sequenceNumber = s.nextExpectedSeq
  · -- in order: the packet and everything buffered right behind it
    rw [if_pos heq]
    have harr : s.arrival k e = [⟨k, c.length, e⟩] := by
      rw [Reorderer.arrival, hpos, heq, BitVec.sub_self, if_pos (by simpa using h.pos)]
      rfl
    obtain ⟨d, hd, hout⟩ := h.accept clk zf (a := ⟨k, c.length, e⟩) rfl
    rw [harr]
    refine ⟨d, hd.frame rfl rfl rfl rfl rfl rfl rfl, ?_⟩
    rw [← hout, heq, h.next]
    rfl
  rw [if_neg heq]
  have hdrop : s.arrival k e = [] → ∃ d, WinInv cfg s0 (A ++ s.arrival k e)
    (c ++ d) s.countDuplicate ∧
      ([] : List OrderedPacket) = render zf s0 c.length d := by
    intro harr
    refine ⟨[], ?_, rfl⟩
    rw [harr, List.append_nil, List.append_nil]
    exact h.frame rfl rfl rfl rfl rfl rfl rfl
  by_cases hnew : isSequenceNewer e.header.sequenceNumber s.nextExpectedSeq = false
  · -- behind the window
    rw [if_pos hnew]
    refine hdrop ?_
    have hne : (e.header.sequenceNumber - s.nextExpectedSeq).toNat ≠ 0 := fun h0 =>
      heq (by simpa [BitVec.sub_eq_iff_eq_add] using BitVec.eq_of_toNat_eq (y := 0#32) h0)
    have hbig : ¬ (e.header.sequenceNumber - s.nextExpectedSeq).toNat < s.ringSlots.length := by
      simp only [isSequenceNewer, Bool.and_eq_false_iff, decide_eq_false_iff_not] at hnew
      omega
    rw [Reorderer.arrival, hpos, if_neg hbig]
    rfl
  rw [if_neg hnew]
  have hlen : (BitVec.ofNat 32 s.ringSlots.length).toNat = s.ringSlots.length := by
    rw [BitVec.toNat_ofNat, Nat.mod_eq_of_lt (by omega)]
  by_cases hfar : BitVec.ofNat 32 s.ringSlots.length ≤ e.header.sequenceNumber - s.nextExpectedSeq
  · -- beyond the window
    rw [if_pos hfar]
    refine hdrop ?_
    rw [BitVec.le_def, hlen] at hfar
    rw [Reorderer.arrival, hpos, if_neg (by omega)]
    rfl
  rw [if_neg hfar]
  rw [BitVec.le_def, hlen] at hfar
  -- in the window: buffered, unless that position is already there
  have hd0 : 0 < (e.header.sequenceNumber - s.nextExpectedSeq).toNat := by
    simp only [isSequenceNewer, Bool.not_eq_false, Bool.and_eq_true, decide_eq_true_eq] at hnew
    exact hnew.1
  have hseq := h.seq_eq e.header.sequenceNumber
  have harr : s.arrival k e =
      [⟨k, c.length + (e.header.sequenceNumber - s.nextExpectedSeq).toNat, e⟩] := by
    rw [Reorderer.arrival, hpos, if_pos (by omega)]
    rfl
  generalize (e.header.sequenceNumber - s.nextExpectedSeq).toNat = delta at hfar hd0 hseq harr ⊢
  have hidx : (s.baseIndex + delta) % s.ringSlots.length =
    (c.length + delta) % s.ringSlots.length := by
    rw [h.base, Nat.mod_add_mod]
  rw [hidx, h.first_of_free (by omega) (by omega), harr]
  cases hf : first A (c.length + delta) with
  | some b =>
    rw [if_pos (by simp)]
    refine ⟨[], ?_, rfl⟩
    rw [List.append_nil]
    exact (h.repeated (a := ⟨k, c.length + delta, e⟩) (by simp only; omega) hf).frame
      rfl rfl rfl rfl rfl rfl rfl
  | none =>
    rw [if_neg (by simp)]
    refine ⟨[], ?_, rfl⟩
    rw [List.append_nil]
    have := h.store (a := ⟨k, c.length + delta, e⟩) (by simp only; omega) (by simp only; omega) hf
    rw [hseq] at this
    exact this.frame rfl rfl rfl rfl rfl rfl rfl

/-- `check_timeout` that skips: one gap, and what it releases. -/
theorem skipExpected_inv (clk : SteadyClock) (h : WinInv cfg s0 A c s) :
    ∃ d, WinInv cfg s0 A (c ++ none :: d) (s.skipExpected clk).1 ∧
      (s.skipExpected clk).2 = render cfg.enableZeroFill s0 c.length (none :: d) := by
  have hheld : held A c.length = none := by rw [held, h.awaited]; rfl
  have hadv := h.toWin.advance A (clk s.reads) (fun _ _ => rfl) h.ahead
  rw [hheld] at hadv
  unfold Reorderer.skipExpected
  simp only
  have hnow : Win cfg s0 A (c ++ [none]) (held A (c.length + 1)) (Reorderer.advanceNow clk
      (if s.config.enableZeroFill then s.countZeroFilled else s)) :=
    hadv.frame (by split <;> rfl) (by split <;> rfl) (by split <;> rfl) (by split <;> rfl)
      (by split <;> rfl) (by split <;> rfl) (by split <;> rfl)
  obtain ⟨d, hd, hout⟩ := advanceWindow_spec clk cfg.enableZeroFill (c := c ++ [none])
    (by simpa using hnow)
  rw [List.append_assoc, List.singleton_append] at hd
  refine ⟨d, hd.frame rfl rfl rfl rfl rfl rfl rfl, ?_⟩
  rw [hout, h.config, h.next, render, List.length_append, List.length_singleton]

/-- **One `check_timeout`**. -/
theorem checkTimeout_inv (clk : SteadyClock) (h : WinInv cfg s0 A c s) :
    ∃ d, WinInv cfg s0 A (c ++ d) (s.checkTimeout clk).1 ∧
      (s.checkTimeout clk).2 = render cfg.enableZeroFill s0 c.length d := by
  unfold Reorderer.checkTimeout
  rw [if_neg (by simp [h.init])]
  split
  · refine ⟨[], ?_, rfl⟩
    rw [List.append_nil]
    exact h.frame rfl rfl rfl rfl rfl rfl rfl
  · obtain ⟨d, hd, hout⟩ := skipExpected_inv clk h
    exact ⟨none :: d, hd, hout⟩

end

end Qdgz300.Pipeline
