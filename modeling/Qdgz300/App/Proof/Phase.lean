import Qdgz300.App.Lifecycle

/-!
# Where the process is

A `Phase` says for each service whether it is down, up or on its way down, which processing threads
are there, and how far `MetricsCollector::stop` has come; `Phase.Holds` is what the process then
looks like.

* `Phase.Holds.setService`, `Phase.Holds.moveEndpoint`: what a change of one part needs.
* `EndpointStage.Holds.next`, `Phase.Holds.serverClose`, `Phase.Holds.server`: each step of
  `run_http_server` keeps the phase, in particular while `stop` is at work on `listen_fd`.
* **`Phase.Holds.stable`**: the threads other than the main thread keep the phase.
-/

namespace Qdgz300.App

open Interference

/-! ## Where a service, a thread and the endpoint are -/

/-- A service between the actions of `start` and `stop`. -/
inductive Stage where
  | down
  | up
  | stopping
  | joined
  deriving DecidableEq

/-- A service that runs has a descriptor if it needs one. -/
def LaunchConfig.needsFd (c : LaunchConfig) : ServiceKind → Bool
  | .receiver => true
  | .consumer => c.writeToFile

def Stage.Runs : Stage → Worker → Prop
  | .down, worker => worker = .absent
  | .up, worker => worker = .alive
  | .stopping, worker => worker ≠ .absent
  | .joined, worker => worker = .absent

structure Stage.Holds (c : LaunchConfig) (k : ServiceKind) (stage : Stage) (service : Service) :
    Prop where
  running : service.running = decide (stage = .up)
  fd : service.fd.isSome = (decide (stage ≠ .down) && c.needsFd k)
  worker : stage.Runs service.worker

/-- The endpoint between the actions of `MetricsCollector::start` and `stop`. -/
inductive EndpointStage where
  | off
  | up
  /-- After `started.exchange(false)`. -/
  | stopping
  /-- `listen_fd` was open, so the server is behind `socket`. -/
  | tested
  | closed
  deriving DecidableEq

/-- The server thread is between `socket` and its `close`. -/
def ServerPc.Listening : ServerPc → Prop
  | .setup | .serve | .failClose | .exitTest | .exitClose => True
  | _ => False

/-- What holds of the endpoint at all times. -/
structure Endpoint.Owned (e : Endpoint) (d : Descriptors) : Prop where
  listening : ∀ fd, d.owner fd = some .endpoint → e.listenFd = some fd ∧ e.server.Listening
  idle : e.server = .absent ∨ e.server = .create ∨ e.server = .failed ∨ e.server = .exited →
    e.listenFd = none

/-- The server thread has not ended, and `listen_fd` is what it has opened. -/
structure Endpoint.Serving (e : Endpoint) (d : Descriptors) : Prop where
  started : e.started = true
  inside : e.server ≠ .exitTest ∧ e.server ≠ .exitClose ∧ e.server ≠ .exitStore
  own : ∀ fd, e.listenFd = some fd → e.server ≠ .failStore → d.owner fd = some .endpoint

def EndpointStage.Holds (stage : EndpointStage) (e : Endpoint) (d : Descriptors) : Prop :=
  match stage with
  | .off => e = {}
  | .up => e.server ≠ .absent ∧ (e.server = .exited ∨ e.Serving d)
  | .stopping => e.started = false ∧ e.server ≠ .absent
  | .tested => e.started = false ∧ e.server ≠ .absent ∧ e.server ≠ .create
  | .closed => e.started = false ∧ e.server ≠ .absent ∧ e.server ≠ .create ∧
      ∀ fd, d.owner fd ≠ some .endpoint

/-- What has been closed was the closer's own, but for the second `close` of the endpoint. -/
def Descriptors.Disciplined (d : Descriptors) : Prop :=
  ∀ x ∈ d.closes, x.2 = some x.1 ∨ x.1 = .endpoint ∧ (x.2 = none ∨ x.2 = some .elsewhere)

/-- Where the process is: the stages of the services, the processing threads that are not joined,
the flags, and the stage of the endpoint. -/
structure Phase where
  stage : ServiceKind → Nat → Stage := fun _ _ => .down
  spawned : Nat → Bool := fun _ => false
  udpRunning : Bool := false
  processingRunning : Bool := false
  started : Bool := false
  endpoint : EndpointStage := .off
  /-- Whether there is a capture; `none` when that is not known. -/
  capture : Option Bool

/-- The process is in the phase. -/
structure Phase.Holds (c : LaunchConfig) (p : Phase) (s : Process) : Prop where
  owned : ∀ fd k i, s.descriptors.owner fd = some (.service k i) ↔ (s.services k i).fd = some fd
  endpointOwned : s.endpoint.Owned s.descriptors
  disciplined : s.descriptors.Disciplined
  service : ∀ k i, (p.stage k i).Holds c k (s.services k i)
  processing : ∀ i, if p.spawned i then s.processing i ≠ .absent ∧
    (p.processingRunning = true → s.processing i = .alive) else s.processing i = .absent
  udpRunning : s.udpRunning = p.udpRunning
  processingRunning : s.processingRunning = p.processingRunning
  started : s.started = p.started
  endpoint : p.endpoint.Holds s.endpoint s.descriptors
  /-- The endpoint is stopped when nothing else is up. -/
  alone : p.endpoint ≠ .off → p.endpoint ≠ .up → ∀ k i, p.stage k i = .down
  capture : ∀ b ∈ p.capture, s.capture = b

variable {c : LaunchConfig} {p : Phase} {s s' : Process}

/-! ## Descriptors and services -/

theorem Descriptors.Disciplined.close {d : Descriptors} (h : d.Disciplined) {o : Owner} {fd : Nat}
    (hfd : d.owner fd = some o ∨ o = .endpoint ∧
      (d.owner fd = none ∨ d.owner fd = some .elsewhere)) :
    (d.close o fd).Disciplined := by
  intro x hx
  rcases List.mem_append.1 hx with hx | hx
  · exact h x hx
  · obtain rfl := List.mem_singleton.1 hx
    exact hfd

@[simp] theorem opened_owner (d : Descriptors) (fd : Nat) (o : Owner) (n : Nat) :
    (d.opened fd o).owner n = if n = fd then some o else d.owner n := by
  simp [Descriptors.opened, Function.update_apply]

@[simp] theorem close_owner (d : Descriptors) (fd : Nat) (o : Owner) (n : Nat) :
    (d.close o fd).owner n = if n = fd then none else d.owner n := by
  simp [Descriptors.close, Function.update_apply]

theorem Descriptors.Disciplined.opened {d : Descriptors} {fd : Nat} {o : Owner}
    (h : d.Disciplined) :
    (d.opened fd o).Disciplined := h

theorem setService_apply (s : Process) (k k' : ServiceKind) (i i' : Nat) (service : Service) :
    (s.setService k i service).services k' i' =
      if k' = k ∧ i' = i then service else s.services k' i' := by
  unfold Process.setService
  by_cases hk : k' = k
  · subst hk
    by_cases hi : i' = i <;> simp [hi]
  · simp [hk]

/-- A service in another stage. -/
def Phase.set (p : Phase) (k : ServiceKind) (i : Nat) (stage : Stage) : Phase :=
  { p with stage := fun k' i' => if k' = k ∧ i' = i then stage else p.stage k' i' }

theorem Phase.set_self {p : Phase} {k : ServiceKind} {i : Nat} {stage : Stage}
    (h : p.stage k i = stage) :
    p.set k i stage = p := by
  unfold Phase.set
  congr 1
  funext k' i'
  split
  · next heq => rw [heq.1, heq.2, h]
  · rfl

/-- **A service changes its stage**, and its descriptor with it. -/
theorem Phase.Holds.setService (h : p.Holds c s) {k : ServiceKind} {i : Nat} {service : Service}
    {stage : Stage} (hstage : stage.Holds c k service) (hfd : service.fd = (s.services k i).fd)
    (halone : p.endpoint = .off ∨ p.endpoint = .up ∨ stage = .down) :
    (p.set k i stage).Holds c (s.setService k i service) where
  owned fd k' i' := by
    rw [setService_apply]
    split
    · next heq =>
      obtain ⟨rfl, rfl⟩ := heq
      rw [hfd]
      exact h.owned fd k' i'
    · exact h.owned fd k' i'
  endpointOwned := h.endpointOwned
  disciplined := h.disciplined
  service k' i' := by
    rw [setService_apply]
    unfold Phase.set
    dsimp only
    split
    · next heq =>
      obtain ⟨rfl, rfl⟩ := heq
      exact hstage
    · exact h.service k' i'
  processing := h.processing
  udpRunning := h.udpRunning
  processingRunning := h.processingRunning
  started := h.started
  endpoint := h.endpoint
  alone hoff hup k' i' := by
    unfold Phase.set
    dsimp only
    split
    · rcases halone with h' | h' | h'
      · exact absurd h' hoff
      · exact absurd h' hup
      · exact h'
    · exact h.alone hoff hup k' i'
  capture := h.capture

/-- **The endpoint moves**: the descriptors of the services stay. -/
theorem Phase.Holds.moveEndpoint (h : p.Holds c s) {d : Descriptors} {e : Endpoint}
    {stage : EndpointStage}
    (hservice : ∀ fd k i,
      d.owner fd = some (.service k i) ↔ s.descriptors.owner fd = some (.service k i))
    (howned : e.Owned d) (hdisciplined : d.Disciplined) (hstage : stage.Holds e d)
    (halone : stage = .off ∨ stage = .up ∨ ∀ k i, p.stage k i = .down) :
    ({ p with endpoint := stage } : Phase).Holds c { s with descriptors := d, endpoint := e } where
  owned fd k i := (hservice fd k i).trans (h.owned fd k i)
  endpointOwned := howned
  disciplined := hdisciplined
  service := h.service
  processing := h.processing
  udpRunning := h.udpRunning
  processingRunning := h.processingRunning
  started := h.started
  endpoint := hstage
  alone hoff hup := by
    rcases halone with h' | h' | h'
    · exact absurd h' hoff
    · exact absurd h' hup
    · exact h'
  capture := h.capture

theorem Phase.Holds.alone_or (h : p.Holds c s) :
    p.endpoint = .off ∨ p.endpoint = .up ∨ ∀ k i, p.stage k i = .down := by
  by_cases hoff : p.endpoint = .off
  · exact .inl hoff
  · by_cases hup : p.endpoint = .up
    · exact .inr (.inl hup)
    · exact .inr (.inr (h.alone hoff hup))

theorem Phase.Holds.not_service (h : p.Holds c s) (hdown : ∀ k i, p.stage k i = .down) (fd : Nat)
    (k : ServiceKind) (i : Nat) : s.descriptors.owner fd ≠ some (.service k i) := by
  intro howner
  have hfd := (h.service k i).fd
  rw [(h.owned fd k i).1 howner, hdown k i] at hfd
  simp at hfd

/-- `close(listen_fd)` where it is no descriptor of a service. -/
theorem closeListenFd_spec (howned : s.endpoint.Owned s.descriptors)
    (hdisciplined : s.descriptors.Disciplined)
    (htarget : ∀ fd k i,
      s.endpoint.listenFd = some fd → s.descriptors.owner fd ≠ some (.service k i)) :
    s.closeListenFd = { s with descriptors := s.closeListenFd.descriptors } ∧
      (∀ fd, s.closeListenFd.descriptors.owner fd ≠ some .endpoint) ∧
      (∀ fd k i, s.closeListenFd.descriptors.owner fd = some (.service k i) ↔
        s.descriptors.owner fd = some (.service k i)) ∧
      s.closeListenFd.descriptors.Disciplined := by
  unfold Process.closeListenFd
  split
  · next hnone =>
    refine ⟨rfl, fun fd howner => ?_, fun _ _ _ => Iff.rfl, hdisciplined⟩
    rw [(howned.listening fd howner).1] at hnone
    cases hnone
  · next fd hsome =>
    refine ⟨rfl, fun n howner => ?_, fun n k i => ?_, hdisciplined.close ?_⟩
    · rw [close_owner] at howner
      split at howner
      · cases howner
      · next hne =>
        have hlisten := (howned.listening n howner).1
        rw [hsome] at hlisten
        exact hne (Option.some.inj hlisten).symm
    · rw [close_owner]
      split
      · next heq =>
        subst heq
        exact ⟨nofun, fun h => absurd h (htarget n k i hsome)⟩
      · exact Iff.rfl
    · match howner : s.descriptors.owner fd with
      | none => exact .inr ⟨rfl, .inl rfl⟩
      | some .endpoint => exact .inl rfl
      | some .elsewhere => exact .inr ⟨rfl, .inr rfl⟩
      | some (.service k i) => exact absurd howner (htarget fd k i hsome)

/-! ## The server thread -/

theorem Endpoint.Owned.congr {e : Endpoint} {d d' : Descriptors} (h : e.Owned d)
    (hsame : ∀ fd, d'.owner fd = some .endpoint ↔ d.owner fd = some .endpoint) : e.Owned d' :=
  ⟨fun fd howner => h.listening fd ((hsame fd).1 howner), h.idle⟩

theorem EndpointStage.Holds.congr {stage : EndpointStage} {e : Endpoint} {d d' : Descriptors}
    (h : stage.Holds e d)
    (hsame : ∀ fd, d'.owner fd = some .endpoint ↔ d.owner fd = some .endpoint) :
    stage.Holds e d' := by
  cases stage with
  | off | stopping | tested => exact h
  | up =>
    refine ⟨h.1, h.2.imp_right fun hserving =>
      ⟨hserving.started, hserving.inside, fun fd hfd hne => ?_⟩⟩
    exact (hsame fd).2 (hserving.own fd hfd hne)
  | closed => exact ⟨h.1, h.2.1, h.2.2.1, fun fd howner => h.2.2.2 fd ((hsame fd).1 howner)⟩

theorem Endpoint.Serving.goto {e : Endpoint} {d : Descriptors} (h : e.Serving d) {pc : ServerPc}
    (hstore : e.server ≠ .failStore)
    (hinside : pc ≠ .exitTest ∧ pc ≠ .exitClose ∧ pc ≠ .exitStore) :
    ({ e with server := pc } : Endpoint).Serving d :=
  ⟨h.started, hinside, fun fd hfd _ => h.own fd hfd hstore⟩

theorem Endpoint.Owned.silent {e : Endpoint} {d : Descriptors} (h : e.Owned d)
    (hlistening : ¬ e.server.Listening) (fd : Nat) : d.owner fd ≠ some .endpoint :=
  fun howner => hlistening (h.listening fd howner).2

/-- What a step of the server has to keep in whichever stage the endpoint is. -/
theorem EndpointStage.Holds.next {stage : EndpointStage} {e e' : Endpoint} {d d' : Descriptors}
    (h : stage.Holds e d) (hthere : e.server ≠ .absent ∧ e.server ≠ .exited)
    (hpc : e'.server ≠ .absent ∧ e'.server ≠ .create)
    (hstarted : e.started = false → e'.started = false)
    (hsilent : e.server ≠ .create → (∀ fd, d.owner fd ≠ some .endpoint) →
      ∀ fd, d'.owner fd ≠ some .endpoint)
    (hserving : e.Serving d → e'.server = .exited ∨ e'.Serving d') : stage.Holds e' d' := by
  cases stage with
  | off =>
    have hempty : e = {} := h
    rw [hempty] at hthere
    exact absurd rfl hthere.1
  | up => exact ⟨hpc.1, hserving (h.2.resolve_left hthere.2)⟩
  | stopping => exact ⟨hstarted h.1, hpc.1⟩
  | tested => exact ⟨hstarted h.1, hpc⟩
  | closed => exact ⟨hstarted h.1, hpc.1, hpc.2, hsilent h.2.2.1 h.2.2.2⟩

theorem Phase.Holds.setEndpoint (h : p.Holds c s) {e : Endpoint} (howned : e.Owned s.descriptors)
    (hthere : s.endpoint.server ≠ .absent ∧ s.endpoint.server ≠ .exited)
    (hpc : e.server ≠ .absent ∧ e.server ≠ .create)
    (hstarted : s.endpoint.started = false → e.started = false)
    (hserving : s.endpoint.Serving s.descriptors → e.server = .exited ∨ e.Serving s.descriptors) :
    p.Holds c (s.setEndpoint e) :=
  h.moveEndpoint (fun _ _ _ => Iff.rfl) howned h.disciplined
    (h.endpoint.next hthere hpc hstarted (fun _ hsilent => hsilent) hserving) h.alone_or

/-- The server closes what is no descriptor of a service: before `stop` its own, and during `stop`
no service is up. -/
theorem Phase.Holds.server_target (h : p.Holds c s)
    (hpc : s.endpoint.server = .failClose ∨ s.endpoint.server = .exitClose) (fd : Nat)
    (k : ServiceKind) (i : Nat) (hlisten : s.endpoint.listenFd = some fd) :
    s.descriptors.owner fd ≠ some (.service k i) := by
  have hstage := h.endpoint
  rcases h.alone_or with hp | hp | hp
  · rw [hp] at hstage
    have hempty : s.endpoint = {} := hstage
    rw [hempty] at hlisten
    cases hlisten
  · rw [hp] at hstage
    rcases hstage.2 with hexited | hserving
    · rcases hpc with hpc | hpc <;> rw [hpc] at hexited <;> cases hexited
    · have hfail : s.endpoint.server = .failClose := hpc.resolve_right hserving.inside.2.1
      rw [hserving.own fd hlisten (by rw [hfail]; decide)]
      simp
  · exact h.not_service hp fd k i

theorem Phase.Holds.serverClose (h : p.Holds c s) {pc : ServerPc}
    (hpc : s.endpoint.server = .failClose ∧ pc = .failStore ∨
      s.endpoint.server = .exitClose ∧ pc = .exitStore) :
    p.Holds c (s.closeListenFd.setEndpoint { s.closeListenFd.endpoint with server := pc }) := by
  obtain ⟨hs, hnone, hservice, hdisciplined⟩ := closeListenFd_spec h.endpointOwned h.disciplined
    (h.server_target (hpc.imp And.left And.left))
  rw [hs]
  refine h.moveEndpoint hservice ⟨fun n hn => absurd hn (hnone n), fun hidle => ?_⟩ hdisciplined
    (h.endpoint.next ?_ ?_ id (fun _ _ => hnone) fun hserving => ?_) h.alone_or
  · rcases hpc with ⟨-, rfl⟩ | ⟨-, rfl⟩ <;> simp at hidle
  · rcases hpc with ⟨hpc, -⟩ | ⟨hpc, -⟩ <;> rw [hpc] <;> decide
  · rcases hpc with ⟨-, rfl⟩ | ⟨-, rfl⟩ <;> simp
  · obtain ⟨-, rfl⟩ := hpc.resolve_right fun hpc => hserving.inside.2.1 hpc.1
    exact .inr ⟨hserving.started, by simp, fun _ _ hne => absurd rfl hne⟩

/-- `socket`. -/
theorem Phase.Holds.serverOpen (h : p.Holds c s) {fd : Nat} (hpc : s.endpoint.server = .create)
    (hfresh : s.descriptors.owner fd = none) :
    p.Holds c ({ s with descriptors := s.descriptors.opened fd .endpoint }.setEndpoint
      { s.endpoint with listenFd := some fd, server := .setup }) := by
  refine h.moveEndpoint (fun n k i => ?_) ⟨fun n hn => ?_, fun hidle => by simp at hidle⟩ h.disciplined
    (h.endpoint.next (by rw [hpc]; decide) (by simp) id (fun hne => absurd hpc hne)
      fun hserving => ?_)
    h.alone_or
  · rw [opened_owner]
    split
    · next heq =>
      rw [heq, hfresh]
      simp
    · exact Iff.rfl
  · rw [opened_owner] at hn
    split at hn
    · next heq => exact ⟨congrArg some heq.symm, trivial⟩
    · exact absurd hn (h.endpointOwned.silent (by simp [hpc, ServerPc.Listening]) n)
  · refine .inr ⟨hserving.started, by simp, fun n hn _ => ?_⟩
    obtain rfl : fd = n := Option.some.inj hn
    simp

/-- **The server thread** keeps the phase. -/
theorem Phase.Holds.server (h : p.Holds c s) {fd : Option Nat} {ok : Bool}
    (hstep : serverStep s fd ok = some s') : p.Holds c s' := by
  have howned := h.endpointOwned
  unfold serverStep at hstep
  dsimp only at hstep
  cases hpc : s.endpoint.server <;> rw [hpc] at hstep <;> dsimp only at hstep
  case absent | exited => cases hstep
  case create =>
    cases fd with
    | none =>
      cases hstep
      exact h.setEndpoint ⟨fun n hn =>
        absurd hn (howned.silent (by simp [hpc, ServerPc.Listening]) n),
        fun _ => howned.idle (by simp [hpc])⟩ (by rw [hpc]; decide) (by simp) id
        fun hserving => .inr (hserving.goto (by rw [hpc]; decide) (by simp))
    | some fd =>
      obtain ⟨hfresh, hs'⟩ := (Option.ite_none_right_eq_some).1 hstep
      cases hs'
      exact h.serverOpen hpc hfresh
  case setup =>
    cases hstep
    refine h.setEndpoint ⟨fun n hn => ⟨(howned.listening n hn).1, ?_⟩, fun hidle => ?_⟩
      (by rw [hpc]; decide) ?_ id fun hserving => .inr (hserving.goto (by rw [hpc]; decide) ?_)
    · cases ok <;> trivial
    · cases ok <;> simp at hidle
    · cases ok <;> simp
    · cases ok <;> simp
  case serve =>
    cases hstep
    refine h.setEndpoint ⟨fun n hn => ⟨(howned.listening n hn).1, ?_⟩, fun hidle => ?_⟩
      (by rw [hpc]; decide) ?_ id fun hserving => .inr (hserving.goto (by rw [hpc]; decide) ?_)
    · cases s.endpoint.started <;> trivial
    · cases hs : s.endpoint.started <;> simp [hs] at hidle
    · cases s.endpoint.started <;> simp
    · simp [hserving.started]
  case failClose =>
    cases hstep
    exact h.serverClose (.inl ⟨hpc, rfl⟩)
  case exitClose =>
    cases hstep
    exact h.serverClose (.inr ⟨hpc, rfl⟩)
  case failStore =>
    cases hstep
    exact h.setEndpoint ⟨fun n hn =>
      absurd hn (howned.silent (by simp [hpc, ServerPc.Listening]) n),
      fun _ => rfl⟩ (by rw [hpc]; decide) (by simp) id
      fun hserving => .inr ⟨hserving.started, by simp, fun n hn => by cases hn⟩
  case failed =>
    cases hstep
    exact h.setEndpoint ⟨fun n hn =>
      absurd hn (howned.silent (by simp [hpc, ServerPc.Listening]) n),
      fun _ => howned.idle (by simp [hpc])⟩ (by rw [hpc]; decide) (by simp) (fun _ => rfl)
      fun _ => .inl rfl
  case exitTest =>
    cases hstep
    refine h.setEndpoint ⟨fun n hn => ⟨(howned.listening n hn).1, ?_⟩, fun hidle => ?_⟩
      (by rw [hpc]; decide) ?_ id fun hserving => absurd hpc hserving.inside.1
    · rw [(howned.listening n hn).1]
      trivial
    · cases hlisten : s.endpoint.listenFd with
      | none => rfl
      | some fd => simp [hlisten] at hidle
    · cases s.endpoint.listenFd <;> simp
  case exitStore =>
    cases hstep
    exact h.setEndpoint ⟨fun n hn =>
      absurd hn (howned.silent (by simp [hpc, ServerPc.Listening]) n),
      fun _ => rfl⟩ (by rw [hpc]; decide) (by simp) id
      fun _ => .inl rfl

/-! ## All threads but the main thread -/

/-- **The other threads** keep the phase. -/
theorem Phase.Holds.stable (c : LaunchConfig) (p : Phase) : Stable interfere (p.Holds c) := by
  intro s l s' h hstep
  cases l with
  | server fd ok => exact h.server hstep
  | serviceExits k i =>
    obtain ⟨⟨hrunning, hworker⟩, hs'⟩ := (Option.ite_none_right_eq_some).1 hstep
    cases hs'
    have hservice := h.service k i
    have hstopping : p.stage k i = .stopping := by
      have hw := hservice.worker
      have hr := hservice.running
      rw [hworker] at hw
      rw [hrunning] at hr
      cases hstage : p.stage k i <;> rw [hstage] at hw hr
      case up => simp at hr
      all_goals cases hw
    have hup : p.endpoint = .off ∨ p.endpoint = .up := by
      by_contra hne
      rw [not_or] at hne
      rw [h.alone hne.1 hne.2 k i] at hstopping
      cases hstopping
    have hexited : (p.stage k i).Runs .exited := by
      rw [hstopping]
      exact Worker.noConfusion
    have hset : (p.set k i (p.stage k i)).Holds c
        (s.setService k i { s.services k i with worker := .exited }) :=
      h.setService ⟨hservice.running, hservice.fd, hexited⟩ rfl (hup.imp_right .inl)
    rw [Phase.set_self rfl] at hset
    exact hset
  | processingExits i =>
    obtain ⟨⟨hrunning, halive⟩, hs'⟩ := (Option.ite_none_right_eq_some).1 hstep
    cases hs'
    refine { h with processing := fun j => ?_ }
    have hj := h.processing j
    dsimp only
    by_cases hij : j = i
    · subst hij
      rw [Function.update_self]
      split at hj
      · next hspawned =>
        rw [if_pos hspawned]
        refine ⟨by simp, fun hrun => ?_⟩
        rw [h.processingRunning, hrun] at hrunning
        cases hrunning
      · rw [hj] at halive
        cases halive
    · rw [Function.update_of_ne hij]
      exact hj
  | elsewhere fd =>
    have hmove : ∀ d : Descriptors, d.Disciplined →
        (∀ n o, o ≠ .elsewhere → (d.owner n = some o ↔ s.descriptors.owner n = some o)) →
        p.Holds c { s with descriptors := d } := by
      intro d hdisciplined hsame
      exact h.moveEndpoint (fun n k i => hsame n _ (by simp))
        (h.endpointOwned.congr fun n => hsame n _ (by simp)) hdisciplined
        (h.endpoint.congr fun n => hsame n _ (by simp)) h.alone_or
    rw [interfere] at hstep
    split at hstep
    · next hfd =>
      cases hstep
      refine hmove _ h.disciplined fun n o ho => ?_
      rw [opened_owner]
      split
      · next heq =>
        subst heq
        rw [hfd]
        simp [ho.symm]
      · exact Iff.rfl
    · next hfd =>
      cases hstep
      refine hmove _ (h.disciplined.close (.inl hfd)) fun n o ho => ?_
      rw [close_owner]
      split
      · next heq =>
        subst heq
        rw [hfd]
        simp [ho.symm]
      · exact Iff.rfl
    · cases hstep

end Qdgz300.App
