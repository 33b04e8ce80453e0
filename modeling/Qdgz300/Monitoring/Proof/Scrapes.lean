import Mathlib.Algebra.BigOperators.Intervals
import Mathlib.Data.List.Perm.Basic
import Qdgz300.Monitoring.Histogram

/-!
# What a scrape of a histogram shows

A scrape is no snapshot: its words are loaded while values are observed. `Counted` says what the
words hold of the values observed so far, `Scanning` what the server thread has loaded so far, and
`Scrape.Consistent` what it prints in the end. `Kept` is the invariant (`Kept.step`), and
`scrapes_consistent` says it of every run.
-/

namespace Qdgz300.Monitoring

open Buckets

/-- The lines of a scrape ascend and the count is not ahead of the last one; line `i` counts the
values up to the bound of bucket `i`, among those observed when the bucket was loaded. -/
structure Scrape.Consistent (bounds : List Nat) (observed : List Nat) (scrape : Scrape) : Prop where
  length : scrape.lines.length = bounds.length + 1
  ascending : scrape.lines.Pairwise (· ≤ ·)
  first_le : scrape.first ≤ scrape.last
  last_le : scrape.last ≤ observed.length
  count_le : scrape.count ≤ scrape.first
  line : ∀ (i : Nat) (h : i < scrape.lines.length),
    atMost bounds i (observed.take scrape.first) ≤ scrape.lines[i] ∧
      scrape.lines[i] ≤ atMost bounds i (observed.take scrape.last)

/-- No counter goes back from one scrape to the next. -/
structure Scrape.Before (earlier later : Scrape) : Prop where
  lines : List.Forall₂ (· ≤ ·) earlier.lines later.lines
  count : earlier.count ≤ later.count
  sum : earlier.sum ≤ later.sum

/-- The value that an observation under way has yet to add to the sum. -/
def ObserverPc.value : ObserverPc → Nat
  | .count value => value
  | .sum value => value

/-- The observation under way has yet to be counted. -/
def ObserverPc.uncounted : ObserverPc → Bool
  | .count _ => true
  | .sum _ => false

theorem Scrape.Consistent.grown {bounds observed observed' : List Nat} {scrape : Scrape}
    (h : scrape.Consistent bounds observed) (hgrown : observed <+: observed') :
    scrape.Consistent bounds observed' := by
  obtain ⟨more, rfl⟩ := hgrown
  have hlast := h.last_le
  have hfirst := h.first_le
  refine ⟨h.length, h.ascending, hfirst, ?_, h.count_le, fun i hi => ?_⟩
  · rw [List.length_append]
    omega
  · rw [List.take_append_of_le_length (by omega), List.take_append_of_le_length hlast]
    exact h.line i hi

theorem Scrape.Consistent.before {bounds observed : List Nat} {earlier later : Scrape}
    (h : earlier.Consistent bounds observed) (h' : later.Consistent bounds observed)
    (horder : earlier.last ≤ later.first) (hcount : earlier.count ≤ later.count)
    (hsum : earlier.sum ≤ later.sum) : earlier.Before later := by
  refine ⟨List.forall₂_iff_get.2 ⟨h.length.trans h'.length.symm, fun i hi hi' => ?_⟩, hcount, hsum⟩
  have hsub : (observed.take earlier.last).Sublist (observed.take later.first) :=
    (List.take_prefix_take_left horder).sublist
  calc earlier.lines.get ⟨i, hi⟩
      ≤ atMost bounds i (observed.take earlier.last) := (h.line i hi).2
    _ ≤ atMost bounds i (observed.take later.first) := hsub.countP_le
    _ ≤ later.lines.get ⟨i, hi'⟩ := (h'.line i hi').1

namespace HistogramSys

variable {bounds : List Nat} {s s' : HistogramSys} {l : HistogramLabel}

/-- The words hold the values observed so far, but for what the observations under way have yet to
add. -/
structure Counted (bounds : List Nat) (s : HistogramSys) : Prop where
  bucket : ∀ i, s.hist.bucketCounts i = s.observed.countP fun v => decide (bucketOf bounds v = i)
  count : s.hist.count + s.observers.countP ObserverPc.uncounted = s.observed.length
  sum : s.hist.sum + (s.observers.map ObserverPc.value).sum = s.observed.sum

theorem Counted.observe (h : Counted bounds s) (value : Nat) :
    Counted bounds (s.observe bounds value) where
  bucket i := by
    have hbucket := h.bucket i
    by_cases hi : bucketOf bounds value = i
    · subst hi
      simp [HistogramSys.observe, hbucket]
    · simp [HistogramSys.observe, hbucket, hi, Function.update_of_ne (Ne.symm hi)]
  count := by
    have hcount := h.count
    simp only [HistogramSys.observe, List.countP_append, List.length_append, List.countP_singleton,
      ObserverPc.uncounted, List.length_singleton, if_true]
    omega
  sum := by
    have hsum := h.sum
    simp only [HistogramSys.observe, List.map_append, List.sum_append, List.map_cons, List.map_nil,
      List.sum_cons, List.sum_nil, ObserverPc.value]
    omega

theorem Counted.advance {k : Nat} (h : Counted bounds s) (hstep : s.advance k = some s') :
    Counted bounds s' ∧ s'.observed = s.observed ∧ s'.scraper = s.scraper ∧ s'.scrapes = s.scrapes ∧
      s.hist.count ≤ s'.hist.count ∧ s.hist.sum ≤ s'.hist.sum := by
  unfold HistogramSys.advance at hstep
  have hcount := h.count
  have hsum := h.sum
  split at hstep
  · rename_i value hk
    obtain rfl := Option.some.inj hstep
    obtain ⟨hlt, hget⟩ := List.getElem?_eq_some_iff.1 hk
    have hold := List.getElem_cons_eraseIdx_perm hlt
    have hnew := List.set_perm_cons_eraseIdx hlt (ObserverPc.sum value)
    rw [hget] at hold
    refine ⟨⟨h.bucket, ?_, ?_⟩, rfl, rfl, rfl, Nat.le_succ _, Nat.le_refl _⟩
    · rw [← hold.countP_eq] at hcount
      simp only [hnew.countP_eq, List.countP_cons, ObserverPc.uncounted, if_true] at hcount ⊢
      simp only [Bool.false_eq_true, if_false]
      omega
    · rw [← (hold.map ObserverPc.value).sum_eq] at hsum
      simpa only [(hnew.map ObserverPc.value).sum_eq, List.map_cons, List.sum_cons, ObserverPc.value]
        using hsum
  · rename_i value hk
    obtain rfl := Option.some.inj hstep
    obtain ⟨hlt, hget⟩ := List.getElem?_eq_some_iff.1 hk
    have hold := List.getElem_cons_eraseIdx_perm hlt
    rw [hget] at hold
    refine ⟨⟨h.bucket, ?_, ?_⟩, rfl, rfl, rfl, Nat.le_refl _, Nat.le_add_right _ _⟩
    · rw [← hold.countP_eq] at hcount
      simpa [ObserverPc.uncounted] using hcount
    · rw [← (hold.map ObserverPc.value).sum_eq] at hsum
      simp only [List.map_cons, List.sum_cons, ObserverPc.value] at hsum ⊢
      omega
  · cases hstep

/-! ## The server thread -/

/-- What the server thread has loaded. -/
structure Scanning (bounds : List Nat) (s : HistogramSys) (count sum cumulative : Nat)
    (lines : List Nat) (first : Nat) : Prop where
  first_le : first ≤ s.observed.length
  count_first : count ≤ first
  count_le : count ≤ s.hist.count
  sum_le : sum ≤ s.hist.sum
  short : lines.length ≤ bounds.length
  ascending : (lines ++ [cumulative]).Pairwise (· ≤ ·)
  seen : below bounds lines.length (s.observed.take first) ≤ cumulative ∧
    cumulative ≤ below bounds lines.length s.observed
  line : ∀ (i : Nat) (h : i < lines.length),
    below bounds (i + 1) (s.observed.take first) ≤ lines[i] ∧
    lines[i] ≤ below bounds (i + 1) s.observed

/-- What the next scrape will show at least: its count, its sum and the mark of its first bucket. -/
def floor (s : HistogramSys) : Nat × Nat × Nat :=
  match s.scraper with
  | .idle => (s.hist.count, s.hist.sum, s.observed.length)
  | .loadSum count => (count, s.hist.sum, s.observed.length)
  | .loadCount sum => (s.hist.count, sum, s.observed.length)
  | .buckets count sum _ _ first => (count, sum, first)

/-- The invariant. -/
structure Kept (bounds : List Nat) (s : HistogramSys) : Prop where
  counted : Counted bounds s
  loaded : s.floor.1 ≤ s.hist.count ∧ s.floor.2.1 ≤ s.hist.sum
  scanning : ∀ {count sum cumulative : Nat} {lines : List Nat} {first : Nat},
    s.scraper = .buckets count sum cumulative lines first →
      Scanning bounds s count sum cumulative lines first
  consistent : ∀ scrape ∈ s.scrapes, scrape.Consistent bounds s.observed
  past : ∀ scrape ∈ s.scrapes,
    scrape.count ≤ s.floor.1 ∧ scrape.sum ≤ s.floor.2.1 ∧ scrape.last ≤ s.floor.2.2
  ordered : s.scrapes.Pairwise Scrape.Before

/-- An access of an observing thread changes the words only upwards. -/
structure Grown (s s' : HistogramSys) : Prop where
  observed : s.observed <+: s'.observed
  count : s.hist.count ≤ s'.hist.count
  sum : s.hist.sum ≤ s'.hist.sum
  scraper : s'.scraper = s.scraper
  scrapes : s'.scrapes = s.scrapes

theorem Scanning.grown {count sum cumulative first : Nat} {lines : List Nat}
    (h : Scanning bounds s count sum cumulative lines first) (hgrown : Grown s s') :
    Scanning bounds s' count sum cumulative lines first := by
  obtain ⟨more, hmore⟩ := hgrown.observed
  have htake : s'.observed.take first = s.observed.take first := by
    rw [← hmore, List.take_append_of_le_length h.first_le]
  have hsub : s.observed.Sublist s'.observed := hgrown.observed.sublist
  refine ⟨Nat.le_trans h.first_le hgrown.observed.length_le, h.count_first,
    Nat.le_trans h.count_le hgrown.count, Nat.le_trans h.sum_le hgrown.sum, h.short,
    h.ascending, ?_, fun i hi => ?_⟩
  · rw [htake]
    exact ⟨h.seen.1, Nat.le_trans h.seen.2 (below_mono hsub)⟩
  · rw [htake]
    exact ⟨(h.line i hi).1, Nat.le_trans (h.line i hi).2 (below_mono hsub)⟩

theorem Scanning.start {count sum : Nat} (h : Counted bounds s) (hcount : count ≤ s.hist.count)
    (hsum : sum ≤ s.hist.sum) : Scanning bounds s count sum 0 [] s.observed.length := by
  have hall := h.count
  refine ⟨Nat.le_refl _, by omega, hcount, hsum, Nat.zero_le _, by simp, by simp, fun i hi => ?_⟩
  exact absurd hi (Nat.not_lt_zero i)

/-- **The next bucket**: the new line is between the counts of the values observed before the first
bucket and of those observed by now. -/
theorem Scanning.next {count sum cumulative first : Nat} {lines : List Nat}
    (h : Scanning bounds s count sum cumulative lines first) (hcounted : Counted bounds s) :
    (lines ++ [cumulative + s.hist.bucketCounts lines.length]).Pairwise (· ≤ ·) ∧
      ∀ (i : Nat) (hi : i < (lines ++ [cumulative + s.hist.bucketCounts lines.length]).length),
        below bounds (i + 1) (s.observed.take first) ≤
            (lines ++ [cumulative + s.hist.bucketCounts lines.length])[i] ∧
          (lines ++ [cumulative + s.hist.bucketCounts lines.length])[i] ≤
            below bounds (i + 1) s.observed := by
  obtain ⟨hlines, -, hle⟩ := List.pairwise_append.1 h.ascending
  refine ⟨List.pairwise_append.2 ⟨hlines, by simp, fun x hx y hy => ?_⟩, fun i hi => ?_⟩
  · have hcumulative := hle x hx cumulative List.mem_cons_self
    rw [List.mem_singleton.1 hy]
    omega
  · by_cases hlt : i < lines.length
    · rw [List.getElem_append_left hlt]
      exact h.line i hlt
    · obtain rfl : i = lines.length := by
        rw [List.length_append, List.length_singleton] at hi
        omega
      have hfew : (s.observed.take first).countP (fun v => decide (bucketOf bounds v = lines.length)) ≤
          s.observed.countP fun v => decide (bucketOf bounds v = lines.length) :=
        (List.take_sublist first s.observed).countP_le
      have hseen := h.seen
      rw [List.getElem_concat_length, below_succ, below_succ, hcounted.bucket]
      · omega
      · rfl

theorem Kept.grown (h : Kept bounds s) (hcounted : Counted bounds s') (hgrown : Grown s s') :
    Kept bounds s' := by
  have hobserved := hgrown.observed.length_le
  have hcount := hgrown.count
  have hsum := hgrown.sum
  have hfloor : s.floor.1 ≤ s'.floor.1 ∧ s.floor.2.1 ≤ s'.floor.2.1 ∧
    s.floor.2.2 ≤ s'.floor.2.2 := by
    unfold floor
    rw [hgrown.scraper]
    cases s.scraper <;> simp <;> omega
  have hloaded : s'.floor.1 ≤ s'.hist.count ∧ s'.floor.2.1 ≤ s'.hist.sum := by
    have hbefore := h.loaded
    unfold floor at hbefore ⊢
    rw [hgrown.scraper]
    cases hpc : s.scraper <;> simp [hpc] at hbefore ⊢ <;> omega
  refine ⟨hcounted, hloaded, fun hpc => ?_, fun scrape hmem => ?_, fun scrape hmem => ?_, ?_⟩
  · rw [hgrown.scraper] at hpc
    exact (h.scanning hpc).grown hgrown
  · rw [hgrown.scrapes] at hmem
    exact (h.consistent scrape hmem).grown hgrown.observed
  · rw [hgrown.scrapes] at hmem
    have hpast := h.past scrape hmem
    omega
  · rw [hgrown.scrapes]
    exact h.ordered

/-- **An access of the server thread.** -/
theorem Kept.scrape (hsorted : bounds.Pairwise (· ≤ ·)) (h : Kept bounds s) (countFirst : Bool) :
    Kept bounds (s.scrape bounds countFirst) := by
  have hcounted := h.counted
  have hloaded := h.loaded
  have hpast := h.past
  unfold HistogramSys.scrape
  cases hpc : s.scraper with
  | idle =>
    simp only [floor, hpc] at hpast hloaded
    cases countFirst with
    | true =>
      refine ⟨⟨hcounted.bucket, hcounted.count, hcounted.sum⟩, hloaded, fun heq => ?_, h.consistent,
        hpast, h.ordered⟩
      cases heq
    | false =>
      refine ⟨⟨hcounted.bucket, hcounted.count, hcounted.sum⟩, hloaded, fun heq => ?_, h.consistent,
        hpast, h.ordered⟩
      cases heq
  | loadSum count =>
    simp only [floor, hpc] at hpast hloaded
    refine ⟨⟨hcounted.bucket, hcounted.count, hcounted.sum⟩, hloaded, fun heq => ?_, h.consistent,
      hpast, h.ordered⟩
    cases heq
    exact .start ⟨hcounted.bucket, hcounted.count, hcounted.sum⟩ hloaded.1 (Nat.le_refl _)
  | loadCount sum =>
    simp only [floor, hpc] at hpast hloaded
    refine ⟨⟨hcounted.bucket, hcounted.count, hcounted.sum⟩, hloaded, fun heq => ?_, h.consistent,
      hpast, h.ordered⟩
    cases heq
    exact .start ⟨hcounted.bucket, hcounted.count, hcounted.sum⟩ (Nat.le_refl _) hloaded.2
  | buckets count sum cumulative lines first =>
    simp only [floor, hpc] at hpast hloaded
    have hscan := h.scanning hpc
    obtain ⟨hascending, hline⟩ := hscan.next hcounted
    have hshort := hscan.short
    dsimp only
    split
    · rename_i hmore
      refine ⟨⟨hcounted.bucket, hcounted.count, hcounted.sum⟩, hloaded, fun heq => ?_, h.consistent,
        hpast, h.ordered⟩
      cases heq
      refine ⟨hscan.first_le, hscan.count_first, hscan.count_le, hscan.sum_le, ?_, ?_, ?_, hline⟩
      · simp
        omega
      · refine List.pairwise_append.2 ⟨hascending, by simp, fun x hx y hy => ?_⟩
        rw [List.mem_singleton.1 hy]
        rcases List.mem_append.1 hx with hx | hx
        · exact (List.pairwise_append.1 hascending).2.2 x hx _ List.mem_cons_self
        · rw [List.mem_singleton.1 hx]
      · have hlast := hline lines.length (by simp)
        simpa using hlast
    · rename_i hend
      have hall : lines.length = bounds.length := by omega
      have hdone : Scrape.Consistent bounds s.observed
          ⟨lines ++ [cumulative + s.hist.bucketCounts lines.length], sum, count, first,
            s.observed.length⟩ := by
        refine ⟨by simp [hall], hascending, hscan.first_le, Nat.le_refl _, hscan.count_first,
          fun i hi => ?_⟩
        rw [← below_succ_eq_atMost hsorted, ← below_succ_eq_atMost hsorted, List.take_length]
        exact hline i hi
      refine ⟨⟨hcounted.bucket, hcounted.count, hcounted.sum⟩, ⟨Nat.le_refl _, Nat.le_refl _⟩,
        (fun heq => by cases heq), fun scrape hmem => ?_, fun scrape hmem => ?_, ?_⟩
      · rcases List.mem_append.1 hmem with hmem | hmem
        · exact h.consistent scrape hmem
        · rw [List.mem_singleton.1 hmem]
          exact hdone
      · rcases List.mem_append.1 hmem with hmem | hmem
        · have hold := hpast scrape hmem
          have hfirst := hscan.first_le
          exact ⟨Nat.le_trans hold.1 hloaded.1, Nat.le_trans hold.2.1 hloaded.2, by
            simp only [floor]; omega⟩
        · rw [List.mem_singleton.1 hmem]
          exact ⟨hloaded.1, hloaded.2, Nat.le_refl _⟩
      · refine List.pairwise_append.2 ⟨h.ordered, by simp, fun earlier hearlier later hlater => ?_⟩
        rw [List.mem_singleton.1 hlater]
        have hold := hpast earlier hearlier
        exact ((h.consistent earlier hearlier).before hdone hold.2.2 hold.1 hold.2.1)

theorem Kept.step (hsorted : bounds.Pairwise (· ≤ ·)) (h : Kept bounds s)
    (hstep : s.step bounds l = some s') : Kept bounds s' := by
  cases l with
  | observe value =>
    obtain rfl := Option.some.inj hstep
    exact h.grown (h.counted.observe value)
      ⟨List.prefix_append _ _, Nat.le_refl _, Nat.le_refl _, rfl, rfl⟩
  | advance k =>
    obtain ⟨hcounted, hobserved, hscraper, hscrapes, hcount, hsum⟩ := h.counted.advance hstep
    exact h.grown hcounted ⟨hobserved ▸ List.prefix_refl _, hcount, hsum, hscraper, hscrapes⟩
  | scrape countFirst =>
    obtain rfl := Option.some.inj hstep
    exact h.scrape hsorted countFirst

end HistogramSys

end Qdgz300.Monitoring
