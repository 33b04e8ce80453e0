import Qdgz300.App.Proof.Phase

/-!
# What the main thread does to the phase

One lemma for each action that starts or stops something: `exchange`, `join` and `close` take a
service down, `start` brings it up (`initializeSocket_spec`: with a socket, or with none left open),
and the parts of `MetricsCollector::stop` end the endpoint, whether it or the server thread closes
`listen_fd` first.
-/

namespace Qdgz300.App

open Interference

variable {c : LaunchConfig} {p : Phase} {s s' : Process}

/-! ## The services -/

/-- The services from `lo` to `hi` are up. -/
def upIn (lo hi : Nat) (i : Nat) : Stage := if lo ≤ i ∧ i < hi then .up else .down

theorem Phase.Holds.exchange (h : p.Holds c s) {k : ServiceKind} {i : Nat} {answer : Answer}
    {b : Bool} (hup : p.stage k i = .up) (hendpoint : p.endpoint = .off ∨ p.endpoint = .up)
    (hstep : perform c s (.exchange k i) answer = some (s', b)) :
    b = true ∧ (p.set k i .stopping).Holds c s' := by
  cases hstep
  have hservice := h.service k i
  have hworker := hservice.worker
  rw [hup] at hservice hworker
  refine ⟨hservice.running, h.setService ⟨rfl, hservice.fd, ?_⟩ rfl (hendpoint.imp_right .inl)⟩
  change (s.services k i).worker = .alive at hworker
  change (s.services k i).worker ≠ .absent
  rw [hworker]
  exact Worker.noConfusion

theorem Phase.Holds.join (h : p.Holds c s) {k : ServiceKind} {i : Nat} {answer : Answer} {b : Bool}
    (hstopping : p.stage k i = .stopping) (hendpoint : p.endpoint = .off ∨ p.endpoint = .up)
    (hstep : perform c s (.join k i) answer = some (s', b)) :
    b = true ∧ (p.set k i .joined).Holds c s' := by
  obtain ⟨-, hs'⟩ := (Option.ite_none_left_eq_some).1 hstep
  cases hs'
  have hservice := h.service k i
  rw [hstopping] at hservice
  exact ⟨rfl, h.setService ⟨hservice.running, hservice.fd, rfl⟩ rfl (hendpoint.imp_right .inl)⟩

/-- **A service opens or closes its descriptor**: those of the others stay. -/
theorem Phase.Holds.moveService (h : p.Holds c s) {k : ServiceKind} {i : Nat} {service : Service}
    {stage : Stage} {d : Descriptors}
    (hkeep : ∀ n o, o ≠ .service k i → (d.owner n = some o ↔ s.descriptors.owner n = some o))
    (hown : ∀ n, d.owner n = some (.service k i) ↔ service.fd = some n)
    (hdisciplined : d.Disciplined)
    (hstage : stage.Holds c k service) (halone : p.endpoint = .off ∨ p.endpoint = .up) :
    (p.set k i stage).Holds c ({ s with descriptors := d }.setService k i service) where
  owned n k' i' := by
    rw [setService_apply]
    split
    · next heq =>
      obtain ⟨rfl, rfl⟩ := heq
      exact hown n
    · next hne =>
      refine (hkeep n _ fun heq => hne ?_).trans (h.owned n k' i')
      cases heq
      exact ⟨rfl, rfl⟩
  endpointOwned := h.endpointOwned.congr fun n => hkeep n _ (by simp)
  disciplined := hdisciplined
  service k' i' := by
    rw [setService_apply]
    unfold Phase.set
    dsimp only
    split
    · next heq =>
      obtain ⟨rfl, rfl⟩ := heq
      exact hstage
    · exact h.service k' i'
  processing := h.processing
  udpRunning := h.udpRunning
  processingRunning := h.processingRunning
  started := h.started
  endpoint := h.endpoint.congr fun n => hkeep n _ (by simp)
  alone hoff hup := absurd halone (not_or.2 ⟨hoff, hup⟩)
  capture := h.capture

theorem Phase.Holds.close (h : p.Holds c s) {k : ServiceKind} {i : Nat} {answer : Answer} {b : Bool}
    (hjoined : p.stage k i = .joined) (hendpoint : p.endpoint = .off ∨ p.endpoint = .up)
    (hstep : perform c s (.close k i) answer = some (s', b)) :
    b = true ∧ (p.set k i .down).Holds c s' := by
  have hservice := h.service k i
  rw [hjoined] at hservice
  rw [perform] at hstep
  split at hstep
  · next hnone =>
    cases hstep
    refine ⟨rfl, ?_⟩
    have hmove : (p.set k i .down).Holds c
        (({ s with descriptors := s.descriptors } : Process).setService k i (s.services k i)) :=
      h.moveService (fun _ _ _ => Iff.rfl) (fun n => h.owned n k i) h.disciplined
        ⟨hservice.running, by rw [hnone]; rfl, hservice.worker⟩ hendpoint
    have hsame :
        ({ s with descriptors := s.descriptors } : Process).setService k i
          (s.services k i) = s := by
      unfold Process.setService
      simp
    rw [hsame] at hmove
    exact hmove
  · next fd hsome =>
    cases hstep
    have howner := (h.owned fd k i).2 hsome
    refine ⟨rfl, h.moveService (fun n o ho => ?_) (fun n => ?_) (h.disciplined.close (.inl howner))
      ⟨hservice.running, rfl, hservice.worker⟩ hendpoint⟩
    · rw [close_owner]
      split
      · next heq =>
        subst heq
        rw [howner]
        simp [ho.symm]
      · exact Iff.rfl
    · rw [close_owner]
      split
      · simp
      · next hne =>
        rw [h.owned n k i, hsome]
        simp [Ne.symm hne]

/-- `initialize_socket` leaves a socket open exactly when it returns it. -/
theorem initializeSocket_spec (enableIpFreebind : Bool) (o : Owner) {answer : Answer}
    {d : Descriptors} (hfresh : ∀ fd ∈ answer.fd, d.owner fd = none) :
    ((initializeSocket enableIpFreebind o answer d).2 = none ∧
      (initializeSocket enableIpFreebind o answer d).1.owner = d.owner ∧
      (d.Disciplined → (initializeSocket enableIpFreebind o answer d).1.Disciplined)) ∨
    ∃ fd, d.owner fd = none ∧ initializeSocket enableIpFreebind o answer d =
      (d.opened fd o, some fd) := by
  unfold initializeSocket
  cases hfd : answer.fd with
  | none => exact .inl ⟨rfl, rfl, id⟩
  | some fd =>
    have hnone : d.owner fd = none := hfresh fd hfd
    have hclosed : ((d.opened fd o).close o fd).owner = d.owner ∧
        (d.Disciplined → ((d.opened fd o).close o fd).Disciplined) := by
      refine ⟨?_, fun hd => hd.opened.close (.inl ((opened_owner d fd o fd).trans (if_pos rfl)))⟩
      funext n
      rw [close_owner, opened_owner]
      split
      · next heq => rw [heq, hnone]
      · rfl
    dsimp only
    split
    · exact .inl ⟨rfl, hclosed⟩
    split
    · exact .inl ⟨rfl, hclosed⟩
    split
    · exact .inl ⟨rfl, hclosed⟩
    split
    · exact .inl ⟨rfl, hclosed⟩
    split
    · exact .inl ⟨rfl, hclosed⟩
    · exact .inr ⟨fd, hnone, rfl⟩

theorem openFor_spec {k : ServiceKind} {i : Nat} {answer : Answer} {d : Descriptors}
    (hfresh : ∀ fd ∈ answer.fd, d.owner fd = none) :
    ((Process.openFor c k i answer d).2 = none ∧ (Process.openFor c k i answer d).1.owner = d.owner ∧
      (d.Disciplined → (Process.openFor c k i answer d).1.Disciplined)) ∨
    (c.needsFd k = false ∧ Process.openFor c k i answer d = (d, some none)) ∨
    ∃ fd, c.needsFd k = true ∧ d.owner fd = none ∧
      Process.openFor c k i answer d = (d.opened fd (.service k i), some (some fd)) := by
  cases k with
  | receiver =>
    rcases initializeSocket_spec c.enableIpFreebind (.service .receiver i) hfresh with
      ⟨hnone, howner, hdisciplined⟩ | ⟨fd, hfree, heq⟩
    · exact .inl ⟨by rw [Process.openFor, hnone]; rfl, howner, hdisciplined⟩
    · exact .inr (.inr ⟨fd, rfl, hfree, by rw [Process.openFor, heq]; rfl⟩)
  | consumer =>
    unfold Process.openFor
    dsimp only
    split
    · next hwrite =>
      cases hfd : answer.fd with
      | none => exact .inl ⟨rfl, rfl, id⟩
      | some fd => exact .inr (.inr ⟨fd, hwrite, hfresh fd hfd, rfl⟩)
    · next hwrite => exact .inr (.inl ⟨by simpa [LaunchConfig.needsFd] using hwrite, rfl⟩)

theorem Phase.Holds.start (h : p.Holds c s) {k : ServiceKind} {i : Nat} {answer : Answer} {b : Bool}
    (hdown : p.stage k i = .down) (hendpoint : p.endpoint = .off ∨ p.endpoint = .up)
    (hstep : perform c s (.start k i) answer = some (s', b)) :
    (if b then p.set k i .up else p).Holds c s' := by
  obtain ⟨hfresh, hs'⟩ := (Option.ite_none_right_eq_some).1 hstep
  have hservice := h.service k i
  rw [hdown] at hservice
  have hrunning : (s.services k i).running = false := hservice.running
  have hfdNone : (s.services k i).fd = none := by simpa using hservice.fd
  rw [Process.start, if_neg (by rw [hrunning]; decide)] at hs'
  rcases openFor_spec (c := c) (k := k) (i := i) hfresh with
    ⟨hnone, howner, hdisciplined⟩ | ⟨hneeds, heq⟩ | ⟨fd, hneeds, hfree, heq⟩
  · dsimp only at hs'
    rw [hnone] at hs'
    cases hs'
    exact h.moveEndpoint (fun n k i => by rw [howner]) (h.endpointOwned.congr fun n => by rw [howner])
      (hdisciplined h.disciplined) (h.endpoint.congr fun n => by rw [howner]) h.alone_or
  · dsimp only at hs'
    rw [heq] at hs'
    cases hs'
    refine h.moveService (fun _ _ _ => Iff.rfl) (fun n => ?_) h.disciplined ⟨rfl, ?_, rfl⟩ hendpoint
    · rw [h.owned n k i, hfdNone]
    · simp [hneeds]
  · dsimp only at hs'
    rw [heq] at hs'
    cases hs'
    refine h.moveService (fun n o ho => ?_) (fun n => ?_) h.disciplined ⟨rfl, ?_, rfl⟩ hendpoint
    · rw [opened_owner]
      split
      · next heq =>
        rw [heq, hfree]
        simp [ho.symm]
      · exact Iff.rfl
    · rw [opened_owner]
      split
      · next heq => simp [heq]
      · next hne =>
        rw [h.owned n k i, hfdNone]
        simp [Ne.symm hne]
    · simp [hneeds]

/-! ## The processing threads -/

/-- The processing threads from `lo` to `hi` are there. -/
def Phase.threads (p : Phase) (lo hi : Nat) : Phase :=
  { p with spawned := fun i => decide (lo ≤ i ∧ i < hi) }

theorem Phase.Holds.spawnProcessing {lo i : Nat} (h : (p.threads lo i).Holds c s) (hlo : lo ≤ i)
    {answer : Answer} {b : Bool} (hstep : perform c s (.spawnProcessing i) answer = some (s', b)) :
    b = true ∧ (p.threads lo (i + 1)).Holds c s' := by
  cases hstep
  refine ⟨rfl, { h with processing := fun j => ?_ }⟩
  have hj := h.processing j
  simp only [Phase.threads, decide_eq_true_eq] at hj ⊢
  by_cases hij : j = i
  · subst hij
    rw [Function.update_self, if_pos (by omega)]
    exact ⟨Worker.noConfusion, fun _ => rfl⟩
  · rw [Function.update_of_ne hij]
    by_cases hin : lo ≤ j ∧ j < i
    · rw [if_pos hin] at hj
      rw [if_pos (by omega)]
      exact hj
    · rw [if_neg hin] at hj
      rw [if_neg (by omega)]
      exact hj

theorem Phase.Holds.joinProcessing {i hi : Nat} (h : (p.threads i hi).Holds c s)
    {answer : Answer} {b : Bool} (hstep : perform c s (.joinProcessing i) answer = some (s', b)) :
    b = true ∧ (p.threads (i + 1) hi).Holds c s' := by
  obtain ⟨-, hs'⟩ := (Option.ite_none_left_eq_some).1 hstep
  cases hs'
  refine ⟨rfl, { h with processing := fun j => ?_ }⟩
  have hj := h.processing j
  simp only [Phase.threads, decide_eq_true_eq] at hj ⊢
  by_cases hij : j = i
  · subst hij
    rw [Function.update_self, if_neg (by omega)]
  · rw [Function.update_of_ne hij]
    by_cases hin : i ≤ j ∧ j < hi
    · rw [if_pos hin] at hj
      rw [if_pos (by omega)]
      exact hj
    · rw [if_neg hin] at hj
      rw [if_neg (by omega)]
      exact hj

/-! ## The endpoint -/

theorem Phase.Holds.startEndpoint (h : p.Holds c s) (hoff : p.endpoint = .off) {answer : Answer}
    {b : Bool} (hstep : perform c s .startEndpoint answer = some (s', b)) :
    b = true ∧ ({ p with endpoint := .up } : Phase).Holds c s' := by
  have hempty : s.endpoint = {} := by
    have hendpoint := h.endpoint
    rwa [hoff] at hendpoint
  rw [perform, hempty] at hstep
  cases hstep
  refine ⟨rfl, h.moveEndpoint (fun _ _ _ => Iff.rfl) ⟨fun n hn => ?_, fun _ => rfl⟩ h.disciplined ?_
    (.inr (.inl rfl))⟩
  · have hlistening := (h.endpointOwned.listening n hn).2
    rw [hempty] at hlistening
    exact hlistening.elim
  · exact ⟨by simp, .inr ⟨rfl, by simp, fun n hn => by cases hn⟩⟩

theorem Phase.Holds.exchangeEndpoint (h : p.Holds c s) (hup : p.endpoint = .up)
    (hdown : ∀ k i, p.stage k i = .down) {answer : Answer} {b : Bool}
    (hstep : perform c s .exchangeEndpoint answer = some (s', b)) :
    b = true ∧ ({ p with endpoint := .stopping } : Phase).Holds c s' := by
  have hendpoint := h.endpoint
  rw [hup] at hendpoint
  cases hstep
  refine ⟨?_, h.moveEndpoint (fun _ _ _ => Iff.rfl) ⟨h.endpointOwned.listening, h.endpointOwned.idle⟩
    h.disciplined ⟨rfl, hendpoint.1⟩ (.inr (.inr hdown))⟩
  rw [Bool.or_eq_true, bne_iff_ne]
  exact .inr hendpoint.1

theorem Phase.Holds.testListenFd (h : p.Holds c s) (hstopping : p.endpoint = .stopping)
    (hdown : ∀ k i, p.stage k i = .down) {answer : Answer} {b : Bool}
    (hstep : perform c s .testListenFd answer = some (s', b)) :
    ({ p with endpoint := if b then .tested else .stopping } : Phase).Holds c s' := by
  have hendpoint := h.endpoint
  rw [hstopping] at hendpoint
  cases hstep
  refine h.moveEndpoint (fun _ _ _ => Iff.rfl) h.endpointOwned h.disciplined ?_ (.inr (.inr hdown))
  cases hlisten : s.endpoint.listenFd with
  | none => exact hendpoint
  | some fd =>
    refine ⟨hendpoint.1, hendpoint.2, fun hcreate => ?_⟩
    rw [h.endpointOwned.idle (.inr (.inl hcreate))] at hlisten
    cases hlisten

theorem Phase.Holds.closeListenFd (h : p.Holds c s) (htested : p.endpoint = .tested)
    (hdown : ∀ k i, p.stage k i = .down) {answer : Answer} {b : Bool}
    (hstep : perform c s .closeListenFd answer = some (s', b)) :
    b = true ∧ ({ p with endpoint := .closed } : Phase).Holds c s' := by
  have hendpoint := h.endpoint
  rw [htested] at hendpoint
  cases hstep
  obtain ⟨hs, hnone, hservice, hdisciplined⟩ :=
    closeListenFd_spec h.endpointOwned h.disciplined fun n k i _ => h.not_service hdown n k i
  rw [hs]
  exact ⟨rfl, h.moveEndpoint hservice ⟨fun n hn => absurd hn (hnone n), h.endpointOwned.idle⟩ hdisciplined
    ⟨hendpoint.1, hendpoint.2.1, hendpoint.2.2, hnone⟩ (.inr (.inr hdown))⟩

theorem Phase.Holds.storeListenFd (h : p.Holds c s) (hclosed : p.endpoint = .closed)
    (hdown : ∀ k i, p.stage k i = .down) {answer : Answer} {b : Bool}
    (hstep : perform c s .storeListenFd answer = some (s', b)) : b = true ∧ p.Holds c s' := by
  have hendpoint := h.endpoint
  rw [hclosed] at hendpoint
  cases hstep
  have hmove := h.moveEndpoint (fun _ _ _ => Iff.rfl)
    (e := { s.endpoint with listenFd := none }) ⟨fun n hn => absurd hn (hendpoint.2.2.2 n), fun _ => rfl⟩
    h.disciplined (by rw [hclosed]; exact hendpoint : p.endpoint.Holds _ _) (.inr (.inr hdown))
  exact ⟨rfl, hmove⟩

theorem Phase.Holds.joinServer (h : p.Holds c s)
    (hstopped : p.endpoint = .stopping ∨ p.endpoint = .closed)
    {answer : Answer} {b : Bool} (hstep : perform c s .joinServer answer = some (s', b)) :
    b = true ∧ ({ p with endpoint := .off } : Phase).Holds c s' := by
  have hendpoint : s.endpoint.started = false ∧ s.endpoint.server ≠ .absent := by
    have hholds := h.endpoint
    rcases hstopped with hp | hp <;> rw [hp] at hholds
    · exact hholds
    · exact ⟨hholds.1, hholds.2.1⟩
  obtain ⟨hserver, hs'⟩ := (Option.ite_none_right_eq_some).1 hstep
  have hexited := hserver.resolve_left hendpoint.2
  have hlisten := h.endpointOwned.idle (.inr (.inr (.inr hexited)))
  cases hs'
  refine ⟨rfl, h.moveEndpoint (fun _ _ _ => Iff.rfl) ⟨fun n hn => ?_, fun _ => hlisten⟩ h.disciplined ?_
    (.inl rfl)⟩
  · have hlistening := (h.endpointOwned.listening n hn).2
    rw [hexited] at hlistening
    exact hlistening.elim
  · change (⟨s.endpoint.started, s.endpoint.listenFd, .absent⟩ : Endpoint) = {}
    rw [hendpoint.1, hlisten]

end Qdgz300.App
