import Qdgz300.App.Proof.HandOver
import Qdgz300.App.Proof.ThreadedFace
import Qdgz300.App.TimeoutScan

/-!
# A face that the main thread scans

A call of the scan that finds no timeout reads a clock and does nothing else (`idle_step`). So as
long as the scans of a face find none, its reassembler and its reorderer do on the data packets what
they do without scans, at later readings (`paced_calls`).

* `QuietlyFollowing.scan`: one call of the scan.
* **`scanned_following`**: in every run up to the call of `app_shutdown`, the face does what its
  pipeline does on its data packets, with idle scans in between.
-/

namespace Qdgz300.App

open Protocol Common Pipeline Delivery

/-- The call is a scan that finds no timeout, or brings a data packet. -/
def FacePipeline.Quiet (sysClk : SystemClock) (clk : SteadyClock) (pipeline : FacePipeline) :
    FaceCall → Prop
  | .reassembler (.checkTimeouts _) => pipeline.1.timedOut (sysClk pipeline.1.reads) = []
  | .checkTimeout => pipeline.2.initialized = true → pipeline.2.timeoutElapsed clk = false
  | call => call.data?.isSome

instance (sysClk : SystemClock) (clk : SteadyClock) (pipeline : FacePipeline) :
    DecidablePred (pipeline.Quiet sysClk clk) := fun call => by
  unfold FacePipeline.Quiet
  split <;> infer_instance

/-- The call of the scan, with the face. -/
def ScanLabel.call? : ScanLabel → Option (Nat × FaceCall)
  | .thread _ => none
  | .checkTimeouts i _ order => some (i, .reassembler (.checkTimeouts order))
  | .checkTimeout i _ => some (i, .checkTimeout)

/-- The datagram that a step brings to face `i`. -/
def ScanLabel.datagram? (i : Nat) : ScanLabel → Option ReceivedPacket
  | .thread l => l.datagram? i
  | _ => none

/-- The step is no scan of face `i` that finds a timeout. -/
def ShutdownState.FindsNoTimeout (clocks : Nat → FaceClocks) (i : Nat) (s : ShutdownState)
    (l : ScanLabel) : Prop :=
  ∀ c ∈ l.call?, c.1 = i → FacePipeline.Quiet (clocks i).system (clocks i).steady
    ((s.faces i).reassembler, (s.faces i).reorderer) c.2

instance (clocks : Nat → FaceClocks) (i : Nat) (s : ShutdownState) :
    DecidablePred (s.FindsNoTimeout clocks i) := fun l =>
  inferInstanceAs (Decidable (∀ c ∈ l.call?, c.1 = i → FacePipeline.Quiet (clocks i).system
    (clocks i).steady ((s.faces i).reassembler, (s.faces i).reorderer) c.2))

/-! ## The pipeline -/

section
variable {sysClk : SystemClock} {clk : SteadyClock} {pipeline : FacePipeline} {call : FaceCall}

theorem checkTimeouts_idle {order : IterOrder}
    (h : pipeline.1.timedOut (sysClk pipeline.1.reads) = []) :
    pipeline.step sysClk clk (.reassembler (.checkTimeouts order)) =
      (({ pipeline.1 with reads := pipeline.1.reads + 1 }, pipeline.2), []) := by
  have horder : order.toFun [] = [] := (order.perm []).eq_nil
  have hcheck : Reassembler.checkTimeouts sysClk order pipeline.1 =
      ({ pipeline.1 with reads := pipeline.1.reads + 1 }, []) := by
    rw [Reassembler.checkTimeouts, h, horder]
    rfl
  rw [FacePipeline.step, Machine.feed, Reassembler.step, hcheck]
  rfl

theorem checkTimeout_idle (sysClk : SystemClock)
    (h : pipeline.2.initialized = true → pipeline.2.timeoutElapsed clk = false) :
    ∃ n, pipeline.step sysClk clk .checkTimeout =
      ((pipeline.1, { pipeline.2 with reads := n }), []) := by
  rw [FacePipeline.step, Reorderer.checkTimeout]
  by_cases hinit : pipeline.2.initialized = true
  · rw [if_neg (by simp [hinit]), if_pos (h hinit)]
    exact ⟨_, rfl⟩
  · rw [if_pos (Bool.eq_false_of_not_eq_true hinit)]
    exact ⟨pipeline.2.reads, rfl⟩

/-- **A scan that finds no timeout.** -/
theorem idle_step (h : pipeline.Quiet sysClk clk call) (hdata : call.data? = none) :
    (pipeline.step sysClk clk call).2 = [] ∧ Idles pipeline.1 (pipeline.step sysClk clk call).1.1 ∧
      ReordererIdles pipeline.2 (pipeline.step sysClk clk call).1.2 := by
  unfold FacePipeline.Quiet at h
  split at h
  case h_1 =>
    rw [checkTimeouts_idle h]
    exact ⟨rfl, ⟨_, Nat.le_succ _, rfl⟩, ⟨_, rfl⟩⟩
  case h_2 =>
    obtain ⟨n, heq⟩ := checkTimeout_idle sysClk h
    rw [heq]
    exact ⟨rfl, ⟨_, Nat.le_refl _, rfl⟩, ⟨n, rfl⟩⟩
  case h_3 =>
    rw [hdata] at h
    cases h

theorem step_of_data {data : FragmentStorage × ParsedPacket} (h : call.data? = some data) :
    pipeline.step sysClk clk call = Machine.feed (onData sysClk) (onFrame clk) pipeline data := by
  obtain ⟨op, hop, hpacket⟩ := Option.bind_eq_some_iff.1 h
  cases call <;> cases hop
  cases op <;> cases hpacket <;> rfl

/-- **Quiet calls** are a run of the two parts over the data packets, with readings of the clocks in
between. -/
theorem paced_calls : ∀ {calls : List FaceCall} {pipeline : FacePipeline},
    Machine.RunAlong (FacePipeline.step sysClk clk) (FacePipeline.Quiet sysClk clk) pipeline calls →
    ∃ es, Machine.Paced (onData sysClk) Idles pipeline.1 (calls.filterMap FaceCall.data?) es
        (Machine.run (FacePipeline.step sysClk clk) pipeline calls).1.1 ∧
      Machine.Paced (onFrame clk) ReordererIdles pipeline.2 es
        (Machine.run (FacePipeline.step sysClk clk) pipeline calls).2
        (Machine.run (FacePipeline.step sysClk clk) pipeline calls).1.2
  | [], pipeline, _ => ⟨[], .done _, .done _⟩
  | call :: calls, pipeline, h => by
    obtain ⟨hquiet, hrest⟩ := h
    obtain ⟨es, hreasm, hreorder⟩ := paced_calls hrest
    rw [Machine.run]
    cases hdata : call.data? with
    | none =>
      obtain ⟨hout, hidle, hidle'⟩ := idle_step hquiet hdata
      rw [List.filterMap_cons_none hdata, hout, List.nil_append]
      exact ⟨es, .drift hidle hreasm, .drift hidle' hreorder⟩
    | some data =>
      rw [List.filterMap_cons_some hdata]
      rw [step_of_data hdata, Machine.feed] at hreasm hreorder ⊢
      exact ⟨_, .step hreasm, hreorder.after_run⟩

theorem runAlong_dataCalls (datas : List (FragmentStorage × ParsedPacket))
    (pipeline : FacePipeline) :
    Machine.RunAlong (FacePipeline.step sysClk clk) (FacePipeline.Quiet sysClk clk) pipeline
      (dataCalls datas) := by
  refine Machine.runAlong_of_inv _ (I := fun _ => True) (D := fun call => ∃ data, call = .data data)
    (fun _ _ _ h => h) ?_ trivial fun call hcall => ?_
  · rintro pipeline _ ⟨⟨storage, packet⟩, rfl⟩ -
    cases storage <;> rfl
  · obtain ⟨data, -, rfl⟩ := List.mem_map.1 hcall
    exact ⟨data, rfl⟩

end

/-! ## The threads -/

namespace ShutdownState

section
variable {clocks : Nat → FaceClocks} {start s s' : ShutdownState} {i : Nat} {l : ScanLabel}
  {past : List ScanLabel}

/-- A call of the scan, or a step of a thread. -/
theorem scanStep_cases (h : s.scanStep clocks l = some s') :
    (∃ t, l = .thread t ∧ s.step clocks t = some s') ∨
    (l.call? ≠ none ∧ s' = { s with pc := .thrown }) ∨
    ∃ j call pushTimes, l.call? = some (j, call) ∧ s.pc = .entry ∧
      s' = s.setFace j ((s.faces j).scan (clocks j) pushTimes call) := by
  cases l with
  | thread t => exact .inl ⟨t, rfl, h⟩
  | checkTimeouts j pushTimes order =>
    obtain ⟨⟨hpc, -⟩, hstep⟩ := Option.ite_none_right_eq_some.1 h
    split at hstep
    · exact .inr (.inl ⟨by simp [ScanLabel.call?], (Option.some.inj hstep).symm⟩)
    · exact .inr (.inr ⟨j, _, pushTimes, rfl, hpc, (Option.some.inj hstep).symm⟩)
  | checkTimeout j pushTimes =>
    obtain ⟨⟨hpc, -⟩, hstep⟩ := Option.ite_none_right_eq_some.1 h
    exact .inr (.inr ⟨j, _, pushTimes, rfl, hpc, (Option.some.inj hstep).symm⟩)

/-- The blocks of a face that was scanned are in order. -/
theorem ordered_scanStep (h : Accounted start s ∧ Ordered start s)
    (hstep : s.scanStep clocks l = some s') : Accounted start s' ∧ Ordered start s' := by
  obtain ⟨⟨hn, hfaces⟩, hordered⟩ := h
  rcases scanStep_cases hstep with ⟨t, -, hthread⟩ | ⟨-, rfl⟩ | ⟨j, call, pushTimes, -, -, rfl⟩
  · exact ⟨accounted_step ⟨hn, hfaces⟩ hthread, ordered_step hordered hthread⟩
  · exact ⟨⟨hn, hfaces⟩, hordered⟩
  · refine ⟨⟨hn, forall_update hfaces fun hj => ?_⟩, ?_⟩
    · exact Face.Accounted.deliverAll _ _ ((hfaces j hj).of_rawBlock rfl)
    · refine forall_update (P := fun i f => ∀ path ∈ f.rawBlock, InOrderSince start i path) hordered
        fun hj => ?_
      refine AllPaths.deliverAll (R := InOrderSince start) ?_ _ _ (hordered j hj)
      intro path arrayId now packet h first hfirst
      exact ⟨(h first hfirst).1.push arrayId now packet, (h first hfirst).2⟩

/-- Up to the call of `app_shutdown`, face `i` follows a sequential run of quiet calls. -/
def QuietlyFollowing (clocks : Nat → FaceClocks) (start : ShutdownState) (i : Nat)
    (past : List ScanLabel) (s : ShutdownState) : Prop :=
  s.pc = .entry → ∃ ops calls, ops.filterMap datagram? = past.filterMap (ScanLabel.datagram? i) ∧
    (start.faces i).Follows (clocks i) ops calls (s.faces i) ∧
    Machine.RunAlong (FacePipeline.step (clocks i).system (clocks i).steady)
      (FacePipeline.Quiet (clocks i).system (clocks i).steady)
      ((start.faces i).reassembler, (start.faces i).reorderer) calls

/-- A step of a thread. -/
theorem QuietlyFollowing.thread (h : QuietlyFollowing clocks start i past s) {t : ShutdownLabel}
    (hstep : s.step clocks t = some s') :
    QuietlyFollowing clocks start i (past ++ [.thread t]) s' := by
  intro hentry
  have hmain : ∀ now pushTimes order, t ≠ .main now pushTimes order := by
    rintro now pushTimes order rfl
    exact main_leaves hstep hentry
  have hpc : s.pc = .entry := by
    rcases step_cases hstep with ⟨j, raw, -, -, rfl⟩ | ⟨j, now, face, -, -, -, rfl⟩ |
      ⟨j, face, -, -, -, rfl⟩ | ⟨now, pushTimes, order, heq, -⟩
    · exact hentry
    · exact hentry
    · exact hentry
    · exact absurd heq (hmain now pushTimes order)
  obtain ⟨ops, calls, hops, hfollows, hquiet⟩ := h hpc
  obtain ⟨-, ops', datas, hops', -, hfollows'⟩ := follows_thread hfollows hstep hmain
  refine ⟨ops', calls ++ dataCalls datas, ?_, hfollows', ?_⟩
  · rw [hops', hops]
    cases hl : t.datagram? i <;> simp [ScanLabel.datagram?, hl]
  · exact (Machine.runAlong_append _).2 ⟨hquiet, runAlong_dataCalls datas _⟩

/-- **A call of the scan**, of any face. -/
theorem QuietlyFollowing.scan (h : QuietlyFollowing clocks start i past s) {j : Nat}
    {call : FaceCall}
    (hcall : l.call? = some (j, call)) (hquiet : s.FindsNoTimeout clocks i l) (hpc : s.pc = .entry)
    (pushTimes : Nat → Int) :
    QuietlyFollowing clocks start i (past ++ [l])
      (s.setFace j ((s.faces j).scan (clocks j) pushTimes call)) := by
  intro _
  obtain ⟨ops, calls, hops, hfollows, halong⟩ := h hpc
  have hpast : ops.filterMap datagram? = (past ++ [l]).filterMap (ScanLabel.datagram? i) := by
    rw [List.filterMap_append, hops]
    cases l <;> simp [ScanLabel.call?, ScanLabel.datagram?] at hcall ⊢
  by_cases hj : j = i
  · subst hj
    have hdata : call.data? = none := by
      cases l <;> cases hcall <;> rfl
    have hfree := hquiet (j, call) hcall rfl
    have hidle := idle_step hfree hdata
    have hself : (s.setFace j ((s.faces j).scan (clocks j) pushTimes call)).faces j =
        (s.faces j).scan (clocks j) pushTimes call := Function.update_self ..
    refine ⟨ops, calls ++ [call], hpast, ?_, ?_⟩
    · rw [hself]
      exact hfollows.call call hdata pushTimes rfl (.inr hidle.1)
    · refine (Machine.runAlong_append _).2 ⟨halong, ?_, trivial⟩
      rw [← hfollows.pipeline]
      exact hfree
  · have hsame : (s.setFace j ((s.faces j).scan (clocks j) pushTimes call)).faces i = s.faces i :=
      Function.update_of_ne (Ne.symm hj) ..
    rw [hsame]
    exact ⟨ops, calls, hpast, hfollows, halong⟩

/-- **A run** whose scans of face `i` find no timeout. -/
theorem scanned_following (hentry : start.AtEntry) (hi : i < start.numFaces) {ls : List ScanLabel}
    (hrun : Machine.exec (scanStep clocks) start ls = some s)
    (halong : Machine.Along (scanStep clocks) (FindsNoTimeout clocks i) start ls) :
    (Accounted start s ∧ Ordered start s) ∧ QuietlyFollowing clocks start i ls s := by
  refine Machine.exec_trace_along (I := fun past t =>
    (Accounted start t ∧ Ordered start t) ∧ QuietlyFollowing clocks start i past t) ?_
      [] ?_ halong hrun
  · rintro past t l t' ⟨hordered, h⟩ hquiet hstep
    refine ⟨ordered_scanStep hordered hstep, ?_⟩
    rcases scanStep_cases hstep with ⟨t, rfl, hthread⟩ | ⟨-, rfl⟩ |
      ⟨j, call, pushTimes, hcall, hpc, rfl⟩
    · exact h.thread hthread
    · exact nofun
    · exact h.scan hcall hquiet hpc pushTimes
  · refine ⟨⟨hentry.accounted, hentry.ordered⟩, fun _ => ⟨[], [], rfl, ?_, trivial⟩⟩
    exact Face.follows_self fun path hpath => (hentry.paths i hi path hpath).1

end

end ShutdownState

end Qdgz300.App
