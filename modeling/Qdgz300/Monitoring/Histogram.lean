import Qdgz300.Lib.Buckets
import Qdgz300.Lib.Machine

/-!
# The histograms of the metrics (`src/m01_receiver/monitoring/metrics.cpp`)

An observation adds to three atomic words, the bucket of the value, the count and the sum; any
number of threads observe. A request for `/metrics` loads the words of a histogram one after the
other while they go on. `step` is one access. Counters are numbers, `uint64_t` in the source; the
accesses are interleaved as if sequentially consistent.

The histogram of the data delays has bounds and values of type `double`, and the quantiles are
computed in floating point; they are left out, and so is the text around the numbers.
-/

namespace Qdgz300.Monitoring

/-- The words of a histogram. -/
structure Histogram where
  bucketCounts : Nat → Nat := fun _ => 0
  count : Nat := 0
  sum : Nat := 0

/-- A thread within an observation: the next access, with the value. -/
inductive ObserverPc where
  | count (value : Nat)
  | sum (value : Nat)
  deriving DecidableEq, Repr

/-- What `append_histogram_uint64` prints: the cumulative count of every bucket, the sum and the
count. `first` and `last` are history: how many values had been observed before the first bucket was
loaded and when the last one was. -/
structure Scrape where
  lines : List Nat
  sum : Nat
  count : Nat
  first : Nat
  last : Nat
  deriving DecidableEq, Repr

/-- Where the server thread is in `build_metrics_payload`. The order of the arguments `count` and
`sum` is unspecified. -/
inductive ScraperPc where
  | idle
  | loadSum (count : Nat)
  | loadCount (sum : Nat)
  /-- The loop over the buckets: the lines so far. -/
  | buckets (count sum : Nat) (cumulative : Nat) (lines : List Nat) (first : Nat)
  deriving DecidableEq, Repr

/-- A histogram, the threads that observe and the server thread. `observed` is history: the values
in the order of their buckets' increments; so are the `scrapes`. -/
structure HistogramSys where
  hist : Histogram := {}
  observers : List ObserverPc := []
  observed : List Nat := []
  scraper : ScraperPc := .idle
  scrapes : List Scrape := []

/-- The access that is made: the first one of an observation, the next one of the `k`-th that is
under way, or the next one of the server thread. -/
inductive HistogramLabel where
  | observe (value : Nat)
  | advance (k : Nat)
  | scrape (countFirst : Bool)
  deriving DecidableEq, Repr

namespace HistogramSys

/-- The first access of `observe_processing_latency` and
`observe_packet_pool_allocation_latency_ns`. -/
def observe (bounds : List Nat) (s : HistogramSys) (value : Nat) : HistogramSys :=
  let i := Buckets.bucketOf bounds value
  { s with
    hist.bucketCounts := Function.update s.hist.bucketCounts i (s.hist.bucketCounts i + 1)
    observers := s.observers ++ [.count value]
    observed := s.observed ++ [value] }

/-- The other two accesses of an observation. -/
def advance (s : HistogramSys) (k : Nat) : Option HistogramSys :=
  match s.observers[k]? with
  | some (.count value) =>
    some { s with hist.count := s.hist.count + 1, observers := s.observers.set k (.sum value) }
  | some (.sum value) =>
    some { s with hist.sum := s.hist.sum + value, observers := s.observers.eraseIdx k }
  | none => none

/-- The next access of the server thread. -/
def scrape (bounds : List Nat) (s : HistogramSys) (countFirst : Bool) : HistogramSys :=
  match s.scraper with
  | .idle =>
    { s with scraper := if countFirst then .loadSum s.hist.count else .loadCount s.hist.sum }
  | .loadSum count => { s with scraper := .buckets count s.hist.sum 0 [] s.observed.length }
  | .loadCount sum => { s with scraper := .buckets s.hist.count sum 0 [] s.observed.length }
  | .buckets count sum cumulative lines first =>
    let cumulative := cumulative + s.hist.bucketCounts lines.length
    if lines.length < bounds.length then
      { s with scraper := .buckets count sum cumulative (lines ++ [cumulative]) first }
    else
      { s with
        scraper := .idle
        scrapes := s.scrapes ++
          [{ lines := lines ++ [cumulative], sum, count, first, last := s.observed.length }] }

/-- One access of one thread. -/
def step (bounds : List Nat) (s : HistogramSys) : HistogramLabel → Option HistogramSys
  | .observe value => some (s.observe bounds value)
  | .advance k => s.advance k
  | .scrape countFirst => some (s.scrape bounds countFirst)

end HistogramSys

end Qdgz300.Monitoring
