import NulConnect.Transition.Register
import NulConnect.Windows.RouteRecord

/-! The adapter of the running engine: `ACTIVE_ADAPTER_LUID` and `ACTIVE_ADAPTER_IP`, which
`WintunTunDevice::open` stores and its `drop` clears, read by `start_worker` for the routes and for
the status. A device can outlive the start that opened it. -/
namespace NulConnect.Windows
open Net Transition

/-- The `WintunTunDevice` of a start: the two registers are written one after the other. -/
inductive DevicePhase where
  | absent
  | opening
  | opened
  | dropping
  | dropped
deriving DecidableEq

/-- `open` has returned. -/
def DevicePhase.stored : DevicePhase → Bool
  | .opened | .dropping | .dropped => true
  | _ => false

/-- The routes with the registers of the adapter. `tunnelLuid` is the local variable of
`start_worker`, `virtualIp` a field of the shared state. -/
structure AdapterState (ι κ : Type*) where
  routes : RouteState ι κ
  device : ι → DevicePhase
  luid : Register ι UInt64
  ip : Register ι Ipv4Addr
  tunnelLuid : ι → Option UInt64
  virtualIp : Option Ipv4Addr

inductive AdapterAction (ι κ : Type*) where
  | route (a : RouteAction ι κ)
  | storeLuid (t : ι) (luid : UInt64)
  | storeIp (t : ι) (ip : Ipv4Addr)
  | dropLuid (t : ι)
  | dropIp (t : ι)

variable {ι κ : Type*}

def activeAdapterLuid (s : AdapterState ι κ) : Option UInt64 := s.luid.load 0

def activeAdapterIp (s : AdapterState ι κ) : Option Ipv4Addr := s.ip.load 0

variable [DecidableEq ι] [DecidableEq κ]

/-- What a step of the runtime or of the routes takes from the device. `VpnEngine::start` goes on
behind `open`, and may fail with the device open. -/
def FitsDevice (s : AdapterState ι κ) : RouteAction ι κ → Prop
  | .runtime (.engineStart t ok) => s.device t ≠ .opening ∧ (ok = true → (s.device t).stored = true)
  | .runtime (.adapterLuid _ ok) => ok = (activeAdapterLuid s).isSome
  | .beginInstall t _ tunnelLuid => s.tunnelLuid t = some tunnelLuid
  | _ => True

instance (s : AdapterState ι κ) (a : RouteAction ι κ) : Decidable (FitsDevice s a) := by
  unfold FitsDevice
  split
  all_goals infer_instance

def tunnelLuidAfter (s : AdapterState ι κ) : RouteAction ι κ → ι → Option UInt64
  | .runtime (.adapterLuid t _) => Function.update s.tunnelLuid t (activeAdapterLuid s)
  | _ => s.tunnelLuid

/-- The address is set with the engine in the slot, and taken out with it. -/
def virtualIpAfter (s : AdapterState ι κ) : RouteAction ι κ → Option Ipv4Addr
  | .runtime (.publish _) => activeAdapterIp s
  | .runtime (.monitorClear _) | .runtime (.stopTake _) => none
  | _ => s.virtualIp

def adapterStep (s : AdapterState ι κ) : AdapterAction ι κ → Option (AdapterState ι κ)
  | .route a =>
    if FitsDevice s a then
      (routeStep s.routes a).map fun routes => { s with
        routes := routes
        tunnelLuid := tunnelLuidAfter s a
        virtualIp := virtualIpAfter s a }
    else none
  | .storeLuid t luid => when (s.routes.runtime.start t = .starting ∧ s.device t = .absent) { s with
      device := Function.update s.device t .opening
      luid := s.luid.store t luid }
  | .storeIp t ip => when (s.routes.runtime.start t = .starting ∧ s.device t = .opening) { s with
      device := Function.update s.device t .opened
      ip := s.ip.store t ip }
  | .dropLuid t => when (s.device t = .opened) { s with
      device := Function.update s.device t .dropping
      luid := s.luid.release 0 t }
  | .dropIp t => when (s.device t = .dropping) { s with
      device := Function.update s.device t .dropped
      ip := s.ip.release 0 t }

def adapterSystem (ι κ : Type*) [DecidableEq ι] [DecidableEq κ] :
    System (AdapterState ι κ) (AdapterAction ι κ) where
  init s := (routeSystem ι κ).init s.routes ∧ s =
    { routes := s.routes
      device := fun _ => .absent
      luid := .cleared 0
      ip := .cleared 0
      tunnelLuid := fun _ => none
      virtualIp := none }
  step := adapterStep

/-- The worker of a start installs, and has these routes into the tunnel ahead of it. -/
def Installs (s : RouteState ι κ) (t : ι) (tunnel : List RouteSpec) : Prop :=
  ∃ bypass nrpt network, s.work = some (.worker t, .install bypass tunnel nrpt network)

/-- A start works on the adapter of its own engine. -/
structure OwnAdapter (s : AdapterState ι κ) : Prop where
  /-- its routes into the tunnel go there -/
  routes : ∀ t tunnel, Installs s.routes t tunnel →
    ∀ route ∈ tunnel, s.luid.stored t = some route.interfaceLuid
  /-- the address that the status gives is that of the engine in the slot -/
  address : ∀ ip, s.virtualIp = some ip →
    ∃ t, s.routes.runtime.engine = some t ∧ s.ip.stored t = some ip
  /-- the adapter is only found missing once it, or another device on the same adapter, has been
  dropped since it was opened -/
  unavailable : ∀ t, s.routes.runtime.start t = .started → activeAdapterLuid s = none →
    s.luid.stored t = some 0 ∨ ∃ m ∈ s.luid.released, s.luid.stored m = s.luid.stored t

/-- The phases behind `open`, and those behind the read of its LUID. -/
@[simp] def StartPhase.pastDevice : StartPhase → Bool
  | .starting | .started | .installing | .installed | .confirmed | .published | .failing
  | .reporting | .done => true
  | _ => false

@[simp] def StartPhase.pastLuid : StartPhase → Bool
  | .installing | .installed | .confirmed | .published | .failing | .reporting | .done => true
  | _ => false

/-- The worker counts on its own device. -/
@[simp] def StartPhase.onDevice : StartPhase → Bool
  | .starting | .started | .installing | .installed | .confirmed => true
  | _ => false

namespace StartPhase

theorem pastDevice_succ (p : StartPhase) : ∀ q ∈ p.succ, p.pastDevice → q.pastDevice := by
  cases p <;> decide

theorem pastLuid_succ (p : StartPhase) : ∀ q ∈ p.succ, p.pastLuid → q.pastLuid := by
  cases p <;> decide

theorem onDevice_succ (p : StartPhase) :
    ∀ q ∈ p.succ, q.onDevice → p.onDevice ∨ p.pastDevice = false := by
  cases p <;> decide

theorem ownsEngine_succ (p : StartPhase) :
    ∀ q ∈ p.succ, q.ownsEngine → p.ownsEngine ∨ p ≠ .started ∧ q = .started := by
  cases p <;> decide

theorem published_succ (p : StartPhase) :
    ∀ q ∈ p.succ, p = .published ∨ p = .done → q = .published ∨ q = .done := by
  cases p <;> decide

theorem holds_of_onDevice {p : StartPhase} (h : p.onDevice) : p.holds := by
  cases p <;> simp_all

end StartPhase

section Runtime

variable {s u : State ι κ} {a : Action ι κ} {t : ι}

/-- What holds of a phase holds of the next where every successor inherits it. -/
theorem start_inherits {P : StartPhase → Prop} (hP : ∀ p, ∀ q ∈ p.succ, P p → P q)
    (h : step s a = some u) (hs : P (s.start t)) : P (u.start t) := by
  obtain he | hedge := start_of_step h t
  · rwa [he]
  · exact hP _ _ hedge.1 hs

/-- Only `VpnEngine::start` leads to `started`. -/
theorem started_of_step (h : step s a = some u) (hu : u.start t = .started) :
    s.start t = .started ∨ a = .engineStart t true := by
  cases a with
  | engineStart m ok =>
    obtain ⟨-, rfl⟩ := when_eq_some.mp h
    cases ok with
    | false => exact .inl (eq_of_update_ne hu (by simp))
    | true =>
      by_cases htm : t = m
      · exact .inr (by rw [htm])
      · exact .inl (by simpa [htm] using hu)
  | beginStart m =>
    obtain ⟨-, rfl⟩ := when_eq_some.mp h
    split at hu
    all_goals exact .inl (eq_of_update_ne hu (by simp))
  | spawnWorker m ok | buildPlan m ok | adapterLuid m ok | installPlan m _ ok
  | spawnMonitor m ok =>
    obtain ⟨-, rfl⟩ := when_eq_some.mp h
    cases ok
    all_goals exact .inl (eq_of_update_ne hu (by simp))
  | checkGeneration m | recheckGeneration m | failCheck m =>
    obtain ⟨-, rfl⟩ := when_eq_some.mp h
    split_ifs at hu
    all_goals exact .inl (eq_of_update_ne hu (by simp))
  | readGeneration m | workerLock m | cleanPersisted m | publish m | failWrite m =>
    obtain ⟨-, rfl⟩ := when_eq_some.mp h
    exact .inl (eq_of_update_ne hu (by simp))
  | monitorRecheck m =>
    obtain ⟨-, rfl⟩ := when_eq_some.mp h
    split_ifs at hu
    all_goals exact .inl hu
  | engineEnds | monitorWake | monitorStatus | monitorLock | monitorTakeResult | monitorClear
  | monitorUndo | monitorReport | stopCount | stopMark | stopLock | stopTake | stopUndo
  | stopReport | leftoverLock | leftoverClean =>
    obtain ⟨-, rfl⟩ := when_eq_some.mp h
    exact .inl hu

end Runtime

section Routes

variable {s u : RouteState ι κ} {a : RouteAction ι κ} {t : ι} {bypass tunnel : List RouteSpec}
  {nrpt : Bool} {network : PersistedNetworkState}

omit [DecidableEq ι] [DecidableEq κ] in
/-- A step of the runtime begins no installation. -/
theorem workAfter_install {b : Action ι κ}
    (hw : workAfter s b = some (.worker t, .install bypass tunnel nrpt network)) :
    s.work = some (.worker t, .install bypass tunnel nrpt network) := by
  cases b with
  | cleanPersisted | monitorUndo | stopUndo | leftoverClean | monitorClear | stopTake =>
    simp [workAfter] at hw
  | installPlan =>
    simp only [workAfter] at hw
    split_ifs at hw
    simp at hw
  | recheckGeneration =>
    simp only [workAfter] at hw
    split_ifs at hw
    · exact hw
    · simp at hw
  | _ => exact hw

/-- The routes ahead of an installation only get fewer, once it has begun. -/
theorem installs_of_routeStep (h : routeStep s a = some u) (hu : Installs u t tunnel) :
    (∃ before, Installs s t before ∧ tunnel ⊆ before) ∨
      ∃ plan luid, a = .beginInstall t plan luid ∧
        tunnel = plan.tunnelRoutes.map (tunnelRoute luid) := by
  obtain ⟨bypass, nrpt, network, hw⟩ := hu
  have hsame (hs : s.work = some (.worker t, .install bypass tunnel nrpt network)) :
      ∃ before, Installs s t before ∧ tunnel ⊆ before :=
    ⟨tunnel, ⟨bypass, nrpt, network, hs⟩, List.Subset.refl tunnel⟩
  cases a with
  | runtime b =>
    simp only [routeStep] at h
    split_ifs at h
    obtain ⟨r, -, rfl⟩ := Option.map_eq_some_iff.mp h
    exact .inl (hsame (workAfter_install hw))
  | beginInstall m plan luid =>
    obtain ⟨-, rfl⟩ := when_eq_some.mp h
    obtain ⟨rfl, -, rfl, -⟩ := by simpa using hw
    exact .inr ⟨plan, luid, rfl, rfl⟩
  | addRoute failure =>
    simp only [routeStep] at h
    split at h
    · rename_i p before ahead rules record hwork
      refine .inl ?_
      unfold addStep at h
      split at h
      · split at h
        all_goals
          cases h
          obtain ⟨rfl, -, rfl, -⟩ := by simpa using hw
          exact ⟨_, ⟨_, _, _, hwork⟩, List.Subset.refl _⟩
      · split at h
        · cases h
          simp at hw
        all_goals
          cases h
          obtain ⟨rfl, -, rfl, -⟩ := by simpa using hw
          exact ⟨_, ⟨_, _, _, hwork⟩, List.subset_cons_self _ _⟩
      · cases h
    · cases h
  | otherAdds =>
    obtain ⟨-, rfl⟩ := when_eq_some.mp h
    exact .inl (hsame hw)
  | otherDeletes =>
    cases h
    exact .inl (hsame hw)
  | readRecord =>
    obtain ⟨-, rfl⟩ := when_eq_some.mp h
    simp at hw
  | applyNrpt ok =>
    simp only [routeStep] at h
    split at h
    · cases h
      dsimp only at hw
      split_ifs at hw
      all_goals simp at hw
    · cases h
  | deleteRoute =>
    simp only [routeStep] at h
    split at h
    · cases h
      simp at hw
    · cases h
  | returns =>
    simp only [routeStep] at h
    split at h
    · obtain ⟨-, rfl⟩ := when_eq_some.mp h
      simp at hw
    · cases h

end Routes

/-- The registers and the start that stored last: the worker between `open` and `publish`. -/
structure OnDevice (s : AdapterState ι κ) : Prop where
  exclusive : Exclusive s.routes.runtime
  /-- only a start opens a device, once -/
  fresh : ∀ t, s.device t ≠ .absent → (s.routes.runtime.start t).pastDevice
  opened : ∀ t, (s.routes.runtime.start t).ownsEngine → (s.device t).stored
  luid : ∀ t, (s.routes.runtime.start t).onDevice → s.device t ≠ .absent → s.luid.Last 0 t
  ip : ∀ t, (s.routes.runtime.start t).onDevice → (s.device t).stored → s.ip.Last 0 t

/-- What has been read from the registers. -/
structure Reads (s : AdapterState ι κ) : Prop where
  tunnelLuid : ∀ t l, s.tunnelLuid t = some l →
    (s.routes.runtime.start t).pastLuid ∧ s.luid.stored t = some l
  routes : ∀ t tunnel, Installs s.routes t tunnel →
    ∀ route ∈ tunnel, s.tunnelLuid t = some route.interfaceLuid
  slot : ∀ t, s.routes.runtime.engine = some t →
    s.routes.runtime.start t = .published ∨ s.routes.runtime.start t = .done
  address : ∀ ip, s.virtualIp = some ip →
    ∃ t, s.routes.runtime.engine = some t ∧ s.ip.stored t = some ip

section Invariant

variable {s u : AdapterState ι κ} {t : ι}

theorem DevicePhase.ne_absent {p : DevicePhase} (h : p.stored) : p ≠ .absent := by
  rintro rfl
  cases h

omit [DecidableEq ι] [DecidableEq κ] in
/-- Of two workers that count on their device there is one. -/
theorem OnDevice.unique (hs : OnDevice s) {m : ι} (ht : (s.routes.runtime.start t).onDevice)
    (hm : (s.routes.runtime.start m).onDevice) : m = t := by
  have hinm : Inside s.routes.runtime (.worker m) := StartPhase.holds_of_onDevice hm
  have hint : Inside s.routes.runtime (.worker t) := StartPhase.holds_of_onDevice ht
  exact Thread.worker.inj (hs.exclusive.guarded.unique hinm hint)

/-- A step of the runtime leaves the registers, and lets no other start open a device. -/
theorem OnDevice.runtime (hs : OnDevice s) {r : State ι κ} {b : Action ι κ}
    (h : step s.routes.runtime b = some r) (hfits : FitsDevice s (.runtime b))
    (hu : u.routes.runtime = r) (hdevice : u.device = s.device) (hluid : u.luid = s.luid)
    (hip : u.ip = s.ip) : OnDevice u := by
  have honDevice (t : ι) (ht : (r.start t).onDevice) (hne : s.device t ≠ .absent) :
      (s.routes.runtime.start t).onDevice := by
    obtain he | hedge := start_of_step h t
    · rwa [← he]
    · obtain hp | hp := StartPhase.onDevice_succ _ _ hedge.1 ht
      · exact hp
      · rw [hs.fresh t hne] at hp
        cases hp
  constructor
  · rw [hu]
    exact hs.exclusive.step h
  · intro t hne
    rw [hdevice] at hne
    rw [hu]
    exact start_inherits (P := fun p => p.pastDevice = true) StartPhase.pastDevice_succ h
      (hs.fresh t hne)
  · intro t ht
    rw [hu] at ht
    rw [hdevice]
    obtain he | hedge := start_of_step h t
    · exact hs.opened t (by rwa [← he])
    · obtain hp | ⟨hp, hstarted⟩ := StartPhase.ownsEngine_succ _ _ hedge.1 ht
      · exact hs.opened t hp
      · obtain hold | rfl := started_of_step h hstarted
        · exact absurd hold hp
        · exact hfits.2 rfl
  · intro t ht hne
    rw [hu] at ht
    rw [hdevice] at hne
    rw [hluid]
    exact hs.luid t (honDevice t ht hne) hne
  · intro t ht hstored
    rw [hu] at ht
    rw [hdevice] at hstored
    rw [hip]
    exact hs.ip t (honDevice t ht (DevicePhase.ne_absent hstored)) hstored

theorem OnDevice.route (hs : OnDevice s) {r : RouteState ι κ} {a : RouteAction ι κ}
    (h : routeStep s.routes a = some r) (hfits : FitsDevice s a) :
    OnDevice { s with
      routes := r
      tunnelLuid := tunnelLuidAfter s a
      virtualIp := virtualIpAfter s a } := by
  obtain he | ⟨b, rfl, hb⟩ := runtime_of_routeStep h
  · constructor
    all_goals
      dsimp only
      rw [he]
    · exact hs.exclusive
    · exact hs.fresh
    · exact hs.opened
    · exact hs.luid
    · exact hs.ip
  · exact hs.runtime hb hfits rfl rfl rfl rfl

omit [DecidableEq κ] in
theorem tunnelLuidAfter_some {a : RouteAction ι κ} {l : UInt64}
    (h : tunnelLuidAfter s a t = some l) :
    s.tunnelLuid t = some l ∨
      ∃ ok, a = .runtime (.adapterLuid t ok) ∧ activeAdapterLuid s = some l := by
  unfold tunnelLuidAfter at h
  split at h
  · rename_i m ok
    by_cases htm : t = m
    · subst m
      exact .inr ⟨ok, rfl, by simpa using h⟩
    · exact .inl (by simpa [htm] using h)
  · exact .inl h

omit [DecidableEq κ] in
theorem tunnelLuidAfter_eq {a : RouteAction ι κ} (h : ∀ ok, a ≠ .runtime (.adapterLuid t ok)) :
    tunnelLuidAfter s a t = s.tunnelLuid t := by
  unfold tunnelLuidAfter
  split
  · rename_i m ok
    have htm : t ≠ m := by
      rintro rfl
      exact h ok rfl
    simp [htm]
  · rfl

omit [DecidableEq ι] [DecidableEq κ] in
theorem virtualIpAfter_some {a : RouteAction ι κ} {ip : Ipv4Addr}
    (h : virtualIpAfter s a = some ip) :
    (∃ t, a = .runtime (.publish t) ∧ activeAdapterIp s = some ip) ∨
      s.virtualIp = some ip ∧ (∀ m, a ≠ .runtime (.publish m)) ∧
        (∀ m, a ≠ .runtime (.monitorClear m)) ∧ ∀ m, a ≠ .runtime (.stopTake m) := by
  unfold virtualIpAfter at h
  split at h
  · exact .inl ⟨_, rfl, h⟩
  · cases h
  · cases h
  · rename_i hpublish hclear htake
    exact .inr ⟨h, hpublish, hclear, htake⟩

/-- What holds of a phase holds behind a step of the routes where every successor inherits it. -/
theorem start_of_routeStep {P : StartPhase → Prop} (hP : ∀ p, ∀ q ∈ p.succ, P p → P q)
    {r v : RouteState ι κ} {a : RouteAction ι κ} (h : routeStep r a = some v)
    (hr : P (r.runtime.start t)) : P (v.runtime.start t) := by
  obtain he | ⟨b, -, hb⟩ := runtime_of_routeStep h
  · rwa [he]
  · exact start_inherits hP hb hr

theorem Reads.route (hs : Reads s) (hd : OnDevice s) {r : RouteState ι κ} {a : RouteAction ι κ}
    (h : routeStep s.routes a = some r) (hfits : FitsDevice s a) :
    Reads { s with
      routes := r
      tunnelLuid := tunnelLuidAfter s a
      virtualIp := virtualIpAfter s a } := by
  have hstep (b : Action ι κ) (hb : a = .runtime b) : step s.routes.runtime b = some r.runtime := by
    subst hb
    simp only [routeStep] at h
    split_ifs at h
    obtain ⟨u, hu, rfl⟩ := Option.map_eq_some_iff.mp h
    exact hu
  constructor
  · intro t l hl
    dsimp only at hl ⊢
    obtain hold | ⟨ok, rfl, hload⟩ := tunnelLuidAfter_some hl
    · obtain ⟨hpast, hstored⟩ := hs.tunnelLuid t l hold
      exact ⟨start_of_routeStep (P := fun p => p.pastLuid = true) StartPhase.pastLuid_succ h hpast,
        hstored⟩
    · obtain ⟨hstart, hr⟩ := when_eq_some.mp (hstep _ rfl)
      have hok : ok = true := by
        rw [show ok = _ from hfits, hload]
        rfl
      have hlast : s.luid.Last 0 t := hd.luid t (by simp [hstart])
        (DevicePhase.ne_absent (hd.opened t (by simp [hstart])))
      exact ⟨by simp [← hr, hok], hlast.own l hload⟩
  · intro t tunnel hinstalls route hroute
    dsimp only at hinstalls ⊢
    obtain ⟨before, hbefore, hsub⟩ | ⟨plan, luid, rfl, rfl⟩ := installs_of_routeStep h hinstalls
    · have hl := hs.routes t before hbefore route (hsub hroute)
      rw [tunnelLuidAfter_eq]
      · exact hl
      · rintro ok rfl
        have hstart := (when_eq_some.mp (hstep _ rfl)).1
        have hpast := (hs.tunnelLuid t _ hl).1
        simp [hstart] at hpast
    · obtain ⟨x, -, rfl⟩ := List.mem_map.mp hroute
      exact hfits
  · intro t ht
    dsimp only at ht ⊢
    obtain he | ⟨b, rfl, hb⟩ := runtime_of_routeStep h
    · rw [he] at ht ⊢
      exact hs.slot t ht
    · obtain hold | rfl := engine_of_step hb ht
      · exact start_inherits (P := fun p => p = .published ∨ p = .done)
          StartPhase.published_succ hb (hs.slot t hold)
      · obtain ⟨-, hr⟩ := when_eq_some.mp hb
        exact .inl (by simp [← hr])
  · intro ip hip
    dsimp only at hip ⊢
    obtain ⟨t, rfl, hload⟩ | ⟨hold, hpublish, hclear, htake⟩ := virtualIpAfter_some hip
    · obtain ⟨hstart, hr⟩ := when_eq_some.mp (hstep _ rfl)
      have hlast : s.ip.Last 0 t := hd.ip t (by simp [hstart]) (hd.opened t (by simp [hstart]))
      exact ⟨t, by simp [← hr], hlast.own ip hload⟩
    · obtain ⟨t, ht, hstored⟩ := hs.address ip hold
      refine ⟨t, ?_, hstored⟩
      obtain he | ⟨b, rfl, hb⟩ := runtime_of_routeStep h
      · rwa [he]
      · obtain hleft | ⟨m, rfl⟩ | ⟨m, rfl⟩ | ⟨m, rfl⟩ := engine_left_of_step hb ht
        · exact hleft
        · exact absurd rfl (hpublish m)
        · exact absurd rfl (hclear m)
        · exact absurd rfl (htake m)

omit [DecidableEq κ] in
/-- `open` stores the LUID: the other registers of a start that stores now are its own. -/
theorem OnDevice.storeLuid (hs : OnDevice s) {luid : UInt64}
    (ht : s.routes.runtime.start t = .starting) (habsent : s.device t = .absent) :
    OnDevice { s with
      device := Function.update s.device t .opening
      luid := s.luid.store t luid } where
  exclusive := hs.exclusive
  fresh m hm := by
    by_cases hmt : m = t
    · subst m
      simp [ht]
    · exact hs.fresh m (by simpa [hmt] using hm)
  opened m hm := by
    have hmt : m ≠ t := by
      rintro rfl
      simp [ht] at hm
    simpa [hmt] using hs.opened m hm
  luid m hm _ := by
    obtain rfl := hs.unique (t := t) (by simp [ht]) hm
    exact Register.last_store s.luid m luid
  ip m hm hstored := by
    obtain rfl := hs.unique (t := t) (by simp [ht]) hm
    simp [DevicePhase.stored] at hstored

omit [DecidableEq κ] in
theorem OnDevice.storeIp (hs : OnDevice s) {ip : Ipv4Addr}
    (ht : s.routes.runtime.start t = .starting) (hopening : s.device t = .opening) :
    OnDevice { s with
      device := Function.update s.device t .opened
      ip := s.ip.store t ip } where
  exclusive := hs.exclusive
  fresh m hm := by
    by_cases hmt : m = t
    · subst m
      simp [ht]
    · exact hs.fresh m (by simpa [hmt] using hm)
  opened m hm := by
    have hmt : m ≠ t := by
      rintro rfl
      simp [ht] at hm
    simpa [hmt] using hs.opened m hm
  luid m hm _ := by
    obtain rfl := hs.unique (t := t) (by simp [ht]) hm
    exact hs.luid m hm (by simp [hopening])
  ip m hm _ := by
    obtain rfl := hs.unique (t := t) (by simp [ht]) hm
    exact Register.last_store s.ip m ip

omit [DecidableEq κ] in
/-- The device that is dropped moves on, and the registers are at most cleared. -/
theorem OnDevice.drop (hs : OnDevice s) {p : DevicePhase} (hp : p.stored)
    (ht : (s.device t).stored) (hroutes : u.routes = s.routes)
    (hdevice : u.device = Function.update s.device t p)
    (hluid : ∀ m, s.luid.Last 0 m → u.luid.Last 0 m)
    (hip : ∀ m, s.ip.Last 0 m → u.ip.Last 0 m) : OnDevice u := by
  have hstored (m : ι) : (u.device m).stored = (s.device m).stored := by
    rw [hdevice]
    by_cases hmt : m = t
    · subst m
      simp [hp, ht]
    · simp [hmt]
  have habsent (m : ι) (hm : u.device m ≠ .absent) : s.device m ≠ .absent := by
    rw [hdevice] at hm
    by_cases hmt : m = t
    · exact hmt ▸ DevicePhase.ne_absent ht
    · simpa [hmt] using hm
  constructor
  · rw [hroutes]
    exact hs.exclusive
  · intro m hm
    rw [hroutes]
    exact hs.fresh m (habsent m hm)
  · intro m hm
    rw [hroutes] at hm
    rw [hstored]
    exact hs.opened m hm
  · intro m hm hne
    rw [hroutes] at hm
    exact hluid m (hs.luid m hm (habsent m hne))
  · intro m hm hm'
    rw [hroutes] at hm
    rw [hstored] at hm'
    exact hip m (hs.ip m hm hm')

omit [DecidableEq ι] [DecidableEq κ] in
/-- A start that stores has read nothing and is not in the slot. -/
theorem Reads.store (hs : Reads s) (ht : s.routes.runtime.start t = .starting)
    (hroutes : u.routes = s.routes) (htunnel : u.tunnelLuid = s.tunnelLuid)
    (hvirtual : u.virtualIp = s.virtualIp) (hluid : ∀ m ≠ t, u.luid.stored m = s.luid.stored m)
    (hip : ∀ m ≠ t, u.ip.stored m = s.ip.stored m) : Reads u := by
  constructor
  · intro m l hl
    rw [htunnel] at hl
    obtain ⟨hpast, hstored⟩ := hs.tunnelLuid m l hl
    have hmt : m ≠ t := by
      rintro rfl
      simp [ht] at hpast
    rw [hroutes, hluid m hmt]
    exact ⟨hpast, hstored⟩
  · rw [hroutes, htunnel]
    exact hs.routes
  · rw [hroutes]
    exact hs.slot
  · intro ip hv
    rw [hvirtual] at hv
    obtain ⟨m, hm, hstored⟩ := hs.address ip hv
    have hmt : m ≠ t := by
      rintro rfl
      simpa [ht] using hs.slot m hm
    refine ⟨m, ?_, ?_⟩
    · rw [hroutes]
      exact hm
    · rw [hip m hmt]
      exact hstored

omit [DecidableEq ι] [DecidableEq κ] in
/-- A device that is dropped takes nothing back of what was stored. -/
theorem Reads.drop (hs : Reads s) (hroutes : u.routes = s.routes)
    (htunnel : u.tunnelLuid = s.tunnelLuid) (hvirtual : u.virtualIp = s.virtualIp)
    (hluid : u.luid.stored = s.luid.stored) (hip : u.ip.stored = s.ip.stored) : Reads u := by
  constructor
  · rw [hroutes, htunnel, hluid]
    exact hs.tunnelLuid
  · rw [hroutes, htunnel]
    exact hs.routes
  · rw [hroutes]
    exact hs.slot
  · rw [hroutes, hvirtual, hip]
    exact hs.address

theorem adapter_initial (h : (adapterSystem ι κ).init s) : OnDevice s ∧ Reads s := by
  obtain ⟨⟨persisted, table, hroutes⟩, hs⟩ := h
  rw [hroutes] at hs
  subst hs
  have hx : Exclusive ({ initial with persisted := persisted } : State ι κ) :=
    ⟨exclusive_initial.guarded, fun _ _ => rfl⟩
  refine ⟨⟨hx, ?_, ?_, ?_, ?_⟩, ⟨?_, ?_, ?_, ?_⟩⟩
  all_goals simp [initial, Installs]

theorem adapter_step {a : AdapterAction ι κ} (hs : OnDevice s ∧ Reads s)
    (h : adapterStep s a = some u) : OnDevice u ∧ Reads u := by
  obtain ⟨hd, hr⟩ := hs
  cases a with
  | route a =>
    simp only [adapterStep] at h
    split_ifs at h with hfits
    obtain ⟨r, hstep, rfl⟩ := Option.map_eq_some_iff.mp h
    exact ⟨hd.route hstep hfits, hr.route hd hstep hfits⟩
  | storeLuid t l =>
    obtain ⟨⟨ht, habsent⟩, rfl⟩ := when_eq_some.mp h
    exact ⟨hd.storeLuid ht habsent, hr.store ht rfl rfl rfl
      (fun m hm => by simp [Register.store, hm]) (fun _ _ => rfl)⟩
  | storeIp t ip =>
    obtain ⟨⟨ht, hopening⟩, rfl⟩ := when_eq_some.mp h
    exact ⟨hd.storeIp ht hopening, hr.store ht rfl rfl rfl (fun _ _ => rfl)
      (fun m hm => by simp [Register.store, hm])⟩
  | dropLuid t =>
    obtain ⟨ht, rfl⟩ := when_eq_some.mp h
    exact ⟨hd.drop (t := t) rfl (by rw [ht]; rfl) rfl rfl (fun _ hl => hl.release t)
      (fun _ hl => hl), hr.drop rfl rfl rfl rfl rfl⟩
  | dropIp t =>
    obtain ⟨ht, rfl⟩ := when_eq_some.mp h
    exact ⟨hd.drop (t := t) rfl (by rw [ht]; rfl) rfl rfl (fun _ hl => hl)
      (fun _ hl => hl.release t), hr.drop rfl rfl rfl rfl rfl⟩

theorem adapter_of_reachable (h : (adapterSystem ι κ).Reachable s) : OnDevice s ∧ Reads s :=
  h.invariant (fun _ => adapter_initial) fun _ _ _ _ hi _ ht => adapter_step hi ht

end Invariant

theorem ownAdapter_of_reachable (s : AdapterState ι κ) (hs : (adapterSystem ι κ).Reachable s) :
    OwnAdapter s := by
  obtain ⟨hd, hr⟩ := adapter_of_reachable hs
  constructor
  · intro t tunnel hinstalls route hroute
    exact (hr.tunnelLuid t _ (hr.routes t tunnel hinstalls route hroute)).2
  · exact hr.address
  · intro t ht hnone
    have hopened : (s.device t).stored := hd.opened t (by simp [ht])
    exact (hd.luid t (by simp [ht]) (DevicePhase.ne_absent hopened)).gone hnone

section Witness

private def adapterBlank : AdapterState Bool Unit where
  routes := { runtime := initial, work := none, table := ∅, mine := ∅, deleted := ∅, readded := ∅ }
  device _ := .absent
  luid := .cleared 0
  ip := .cleared 0
  tunnelLuid _ := none
  virtualIp := none

/-- A start, to the device. -/
private def openDevice (t : Bool) (luid : UInt64) (ip : Ipv4Addr) :
    List (AdapterAction Bool Unit) :=
  [.route (.runtime (.beginStart t)), .route (.runtime (.readGeneration t)),
    .route (.runtime (.spawnWorker t true)), .route (.runtime (.workerLock t)),
    .route (.runtime (.checkGeneration t)), .route (.readRecord (.worker t)),
    .route (.runtime (.cleanPersisted t)), .route (.runtime (.buildPlan t true)),
    .storeLuid t luid, .storeIp t ip]

/-- A start fails behind its device, which stays open. -/
private def failBehind (t : Bool) : List (AdapterAction Bool Unit) :=
  [.route (.runtime (.engineStart t false)), .route (.runtime (.failCheck t)),
    .route (.runtime (.failWrite t))]

private def corpTunnel : NetworkPlan where
  tunnelRoutes := [(198 <<< 24, 15)]
  bypassRoutes := []
  dnsServer := none
  managedDomains := []

/-- The device of an earlier start is dropped in between, on another adapter. -/
private def publishTunnel (luid : UInt64) : List (AdapterAction Bool Unit) :=
  [.route (.runtime (.engineStart true true)), .dropLuid false,
    .route (.runtime (.adapterLuid true true)), .route (.beginInstall true corpTunnel luid),
    .route (.addRoute none), .dropIp false, .route (.applyNrpt true),
    .route (.runtime (.installPlan true
      { routes := [tunnelRoute luid (198 <<< 24, 15)] } true)),
    .route (.runtime (.recheckGeneration true)), .route (.runtime (.publish true))]

/-- The device of a failed start is dropped late, during the next start: from another adapter it
takes nothing, from the same one it takes the LUID that the next start is about to read. -/
theorem ownAdapter_lateDrop :
    (∃ s : AdapterState Bool Unit, OwnAdapter s ∧ s.device false = .dropped ∧
      s.routes.runtime.engine = some true ∧ s.virtualIp = some 2 ∧
      s.routes.table = {tunnelRoute 7 (198 <<< 24, 15)}) ∧
    ∃ s : AdapterState Bool Unit, OwnAdapter s ∧ s.routes.runtime.start true = .started ∧
      s.device true = .opened ∧ activeAdapterLuid s = none := by
  have h0 : (adapterSystem Bool Unit).Reachable adapterBlank := .init ⟨⟨none, ∅, rfl⟩, rfl⟩
  constructor
  · have h1 := System.Reachable.run h0 (openDevice false 9 1 ++ failBehind false) rfl
    have h2 := System.Reachable.run h1 (openDevice true 7 2) rfl
    have h3 := System.Reachable.run h2 (publishTunnel 7) rfl
    exact ⟨_, ownAdapter_of_reachable _ h3, rfl, rfl, rfl, rfl⟩
  · have h1 := System.Reachable.run h0 (openDevice false 7 1 ++ failBehind false) rfl
    have h2 := System.Reachable.run h1 (openDevice true 7 2) rfl
    have h3 := System.Reachable.run h2
      [.route (.runtime (.engineStart true true)), .dropLuid false] rfl
    exact ⟨_, ownAdapter_of_reachable _ h3, rfl, rfl, rfl⟩

end Witness

end NulConnect.Windows
