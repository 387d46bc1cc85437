import Mathlib.Data.List.Count
import Mathlib.Logic.Function.Basic
import NulConnect.Transition.System

/-! `start_l3_vpn_engine` with the threads it spawns: who holds the device, the tunnel and the
protocol stack, and what a failed start leaves behind. -/
namespace NulConnect.VpnEngine
open Transition

/-- What the call opens and shares by `Arc`. -/
inductive Resource where
  | device
  | tunnel
  | protocolStack
deriving DecidableEq

/-- A variable of the call, or one that a thread has captured. -/
inductive Local where
  | shared (r : Resource)
  | fakeDns
  | handle
deriving DecidableEq

/-- A thread that drops its variables; it has ended with `drop []`. The last owner of the protocol
stack waits for the worker of the stack, and the owner of the DNS server for its thread. -/
inductive Release where
  | drop (rest : List Local)
  | joinStack (rest : List Local)
  | joinDns (rest : List Local)
deriving DecidableEq

def Release.rest : Release → List Local
  | .drop rest | .joinStack rest | .joinDns rest => rest

inductive Thread where
  | idle
  | running
  | leaving (r : Release)
deriving DecidableEq

def Thread.Ended (t : Thread) : Prop := t = .leaving (.drop [])

instance Thread.decidableEnded (t : Thread) : Decidable t.Ended := by
  unfold Thread.Ended
  infer_instance

/-- The calls of `start_l3_vpn_engine` that may fail. -/
inductive StartStep where
  | virtualIp
  | interrupt
  | device
  | tunnel
  | fakeDns
  | stack
  | uplink
  | downlink
deriving DecidableEq

inductive Main where
  | before (next : StartStep)
  | started
  | leaving (failed : StartStep) (r : Release)
deriving DecidableEq

structure StartConfig where
  /-- There is an interrupt event, as everywhere but on Windows. -/
  interruptEvent : Bool
  fakeIp : Bool

/-- `uplinkFailed`: an error of its own has ended the uplink worker. -/
structure Starting where
  main : Main
  refs : Resource → ℕ
  close : Bool
  dnsStop : Bool
  dns : Thread
  stackWorker : Thread
  uplink : Thread
  downlink : Thread
  uplinkFailed : Bool

def Starting.initial : Starting where
  main := .before .virtualIp
  refs _ := 0
  close := false
  dnsStop := false
  dns := .idle
  stackWorker := .idle
  uplink := .idle
  downlink := .idle
  uplinkFailed := false

/-- The variables alive at the `?` of a step, in the order in which they are dropped. The device
has been moved into the last call. -/
def StartStep.locals : StartStep → List Local
  | .virtualIp | .interrupt | .device => []
  | .tunnel => [.shared .device]
  | .fakeDns => [.shared .tunnel, .shared .device]
  | .stack => [.fakeDns, .shared .tunnel, .shared .device]
  | .uplink => [.shared .protocolStack, .fakeDns, .shared .tunnel, .shared .device]
  | .downlink => [.handle, .shared .protocolStack, .fakeDns, .shared .tunnel]

def stackCaptured : List Local := [.shared .device, .shared .tunnel]

def uplinkCaptured : List Local := [.shared .device, .shared .protocolStack, .shared .tunnel]

def downlinkCaptured : List Local := [.shared .device, .shared .tunnel]

namespace Starting

/-- `Arc::new` or `clone`. -/
def hold (s : Starting) (r : Resource) : Starting :=
  { s with refs := Function.update s.refs r (s.refs r + 1) }

/-- A call has failed: its closure is dropped, and then the variables of the function. -/
def fails (s : Starting) (step : StartStep) (captured : List Local) : Starting :=
  { s with main := .leaving step (.drop (captured ++ step.locals)) }

/-- Drop the next variable, or go on where the thread waited for has ended. -/
def releaseStep (s : Starting) : Release → Option (Starting × Release)
  | .drop [] => none
  | .drop (.shared r :: rest) =>
    if r = .protocolStack ∧ s.refs r = 1 then
      -- `Drop` of `TunProtocolStack`.
      some ({ s with refs := Function.update s.refs r 0, close := true }, .joinStack rest)
    else some ({ s with refs := Function.update s.refs r (s.refs r - 1) }, .drop rest)
  | .drop (.fakeDns :: rest) =>
    if s.dns = .idle then some (s, .drop rest)
    else some ({ s with dnsStop := true }, .joinDns rest)
  | .drop (.handle :: rest) => some (s, .drop rest)
  | .joinStack rest => when s.stackWorker.Ended (s, .drop rest)
  | .joinDns rest => when s.dns.Ended (s, .drop rest)

/-- The next call of `start_l3_vpn_engine`. -/
def call (c : StartConfig) (s : Starting) (next : StartStep) (ok : Bool) : Option Starting :=
  match next with
  | .virtualIp =>
    some (if ok then { s with main := .before .interrupt } else s.fails .virtualIp [])
  | .interrupt =>
    if ok then some { s with main := .before .device }
    else when c.interruptEvent (s.fails .interrupt [])
  | .device =>
    some (if ok then { s.hold .device with main := .before .tunnel } else s.fails .device [])
  | .tunnel =>
    some (if ok then { s.hold .tunnel with main := .before .fakeDns } else s.fails .tunnel [])
  | .fakeDns =>
    if ok then some { s with
      main := .before .stack
      dns := if c.fakeIp then .running else .idle }
    else when c.fakeIp (s.fails .fakeDns [])
  | .stack =>
    let t := (s.hold .device).hold .tunnel
    some (if ok then { t.hold .protocolStack with main := .before .uplink, stackWorker := .running }
      else t.fails .stack stackCaptured)
  | .uplink =>
    let t := ((s.hold .device).hold .protocolStack).hold .tunnel
    some (if ok then { t with main := .before .downlink, uplink := .running }
      else t.fails .uplink uplinkCaptured)
  | .downlink =>
    let t := s.hold .tunnel
    some (if ok then { t with main := .started, downlink := .running }
      else t.fails .downlink downlinkCaptured)

end Starting

inductive StartAction where
  | call (ok : Bool)
  | drop
  | stackSeesClose
  | stackDrops
  | dnsSeesStop
  | uplinkSeesClose
  | uplinkFails
  | uplinkDrops
deriving DecidableEq

def startStep (c : StartConfig) (s : Starting) : StartAction → Option Starting
  | .call ok =>
    match s.main with
    | .before next => s.call c next ok
    | _ => none
  | .drop =>
    match s.main with
    | .leaving failed r =>
      (s.releaseStep r).map fun p => { p.1 with main := .leaving failed p.2 }
    | _ => none
  | .stackSeesClose =>
    when (s.stackWorker = .running ∧ s.close)
      { s with stackWorker := .leaving (.drop stackCaptured) }
  | .stackDrops =>
    match s.stackWorker with
    | .leaving r => (s.releaseStep r).map fun p => { p.1 with stackWorker := .leaving p.2 }
    | _ => none
  | .dnsSeesStop =>
    when (s.dns = .running ∧ s.dnsStop) { s with dns := .leaving (.drop []) }
  | .uplinkSeesClose =>
    when (s.uplink = .running ∧ s.close) { s with uplink := .leaving (.drop uplinkCaptured) }
  | .uplinkFails =>
    when (s.uplink = .running) { s with
      uplink := .leaving (.drop uplinkCaptured)
      close := true
      uplinkFailed := true }
  | .uplinkDrops =>
    match s.uplink with
    | .leaving r => (s.releaseStep r).map fun p => { p.1 with uplink := .leaving p.2 }
    | _ => none

def starts (c : StartConfig) : System Starting StartAction where
  init s := s = .initial
  step := startStep c

/-- `VpnEngine::start` has returned the error of this step. -/
def Starting.Failed (s : Starting) (step : StartStep) : Prop := s.main = .leaving step (.drop [])

/-- No thread can go on but for an error of the uplink worker. -/
def Starting.Settled (c : StartConfig) (s : Starting) : Prop :=
  ∀ a, a ≠ .uplinkFails → startStep c s a = none

/-- No thread is left, and nobody holds the device or the tunnel. -/
structure Starting.Released (s : Starting) : Prop where
  dns : s.dns = .idle ∨ s.dns.Ended
  stackWorker : s.stackWorker = .idle ∨ s.stackWorker.Ended
  uplink : s.uplink = .idle ∨ s.uplink.Ended
  downlink : s.downlink = .idle ∨ s.downlink.Ended
  device : s.refs .device = 0
  tunnel : s.refs .tunnel = 0

instance Starting.decidableReleased (s : Starting) : Decidable s.Released :=
  decidable_of_iff ((s.dns = .idle ∨ s.dns.Ended) ∧ (s.stackWorker = .idle ∨ s.stackWorker.Ended) ∧
      (s.uplink = .idle ∨ s.uplink.Ended) ∧ (s.downlink = .idle ∨ s.downlink.Ended) ∧
      s.refs .device = 0 ∧ s.refs .tunnel = 0)
    ⟨fun ⟨h1, h2, h3, h4, h5, h6⟩ => ⟨h1, h2, h3, h4, h5, h6⟩,
      fun h => ⟨h.dns, h.stackWorker, h.uplink, h.downlink, h.device, h.tunnel⟩⟩

/-- How many steps have been passed. -/
def StartStep.index : StartStep → ℕ
  | .virtualIp => 0
  | .interrupt => 1
  | .device => 2
  | .tunnel => 3
  | .fakeDns => 4
  | .stack => 5
  | .uplink => 6
  | .downlink => 7

def Main.index : Main → ℕ
  | .before next => next.index
  | .started => 8
  | .leaving failed _ => failed.index

/-- The variables that are still to be dropped. -/
def Main.held : Main → List Local
  | .before .downlink => .shared .device :: StartStep.downlink.locals
  | .before next => next.locals
  | .started => [.shared .protocolStack, .fakeDns, .shared .tunnel]
  | .leaving _ r => r.rest

def Thread.held (captured : List Local) : Thread → List Local
  | .idle => []
  | .running => captured
  | .leaving r => r.rest

def Starting.held (s : Starting) : List Local :=
  s.main.held ++ s.stackWorker.held stackCaptured ++ s.uplink.held uplinkCaptured ++
    s.downlink.held downlinkCaptured

/-- The thread that is waited for has been told to stop. -/
def Release.Pending (s : Starting) : Release → Prop
  | .drop _ => True
  | .joinStack _ => s.close = true ∧ s.stackWorker ≠ .idle
  | .joinDns _ => s.dnsStop = true ∧ s.dns ≠ .idle

/-- Every count is the number of holders, and whoever waits has told the other to stop. -/
structure Sound (s : Starting) : Prop where
  counted : ∀ q, s.refs q = s.held.count (.shared q)
  dnsIdle : s.main.index ≤ 4 → s.dns = .idle
  stackIdle : s.main.index ≤ 5 → s.stackWorker = .idle
  uplinkIdle : s.main.index ≤ 6 ↔ s.uplink = .idle
  downlinkIdle : s.main.index ≤ 7 → s.downlink = .idle
  stackSpawned : s.refs .protocolStack ≠ 0 → s.stackWorker ≠ .idle
  stackStops : s.stackWorker = .running → s.refs .protocolStack = 0 → s.close = true
  dnsStops : s.dns = .running → s.dnsStop = true ∨ .fakeDns ∈ s.main.held
  mainPending : ∀ failed r, s.main = .leaving failed r → r.Pending s
  uplinkPending : ∀ r, s.uplink = .leaving r → r.Pending s
  stackDrops : ∀ r, s.stackWorker = .leaving r →
    ∃ rest, r = .drop rest ∧ .shared .protocolStack ∉ rest ∧ .fakeDns ∉ rest
  dnsDrops : ∀ r, s.dns = .leaving r → r = .drop []
  failed : s.uplinkFailed = true → s.close = true ∧ s.uplink ≠ .idle ∧ s.uplink ≠ .running
  unfailed : s.uplinkFailed = false → s.uplink = .idle ∨ s.uplink = .running ∧ s.close = false
  opened : ∀ next, s.main = .before next → s.uplink = .idle → s.close = false

section Releases

variable {s t : Starting} {r r' : Release}

/-- What a step of a thread does that drops its variables. -/
structure Releases (s t : Starting) (r r' : Release) : Prop where
  frame : t = { s with refs := t.refs, close := t.close, dnsStop := t.dnsStop }
  refs : (∀ q, r.rest.count (.shared q) ≤ s.refs q) →
    ∀ q, s.refs q + r'.rest.count (.shared q) = t.refs q + r.rest.count (.shared q)
  closeMono : s.close = true → t.close = true
  closed : t.close = true →
    s.close = true ∨ s.refs .protocolStack = 1 ∧ .shared .protocolStack ∈ r.rest
  last : t.refs .protocolStack = 0 → s.refs .protocolStack = 0 ∨ t.close = true
  stopMono : s.dnsStop = true → t.dnsStop = true
  stopped : .fakeDns ∈ r.rest → .fakeDns ∈ r'.rest ∨ t.dnsStop = true ∨ s.dns = .idle
  pending : (s.refs .protocolStack ≠ 0 → s.stackWorker ≠ .idle) → r'.Pending t
  sublist : r'.rest.Sublist r.rest
  drops : ∀ rest, r = .drop rest → .shared .protocolStack ∉ rest → .fakeDns ∉ rest →
    ∃ rest', r' = .drop rest'

/-- Nothing is dropped that is shared: a wait is over, or the variable was a handle, or there is
no DNS server. -/
theorem Releases.unshared {rest : List Local}
    (hcount : ∀ q, rest.count (.shared q) = r.rest.count (.shared q))
    (hsub : rest.Sublist r.rest)
    (hdns : .fakeDns ∈ r.rest → .fakeDns ∈ rest ∨ s.dns = .idle) :
    Releases s s r (.drop rest) where
  frame := rfl
  refs _ q := congrArg (s.refs q + ·) (hcount q)
  closeMono := id
  closed := Or.inl
  last := Or.inl
  stopMono := id
  stopped hmem := (hdns hmem).imp_right Or.inr
  pending _ := trivial
  sublist := hsub
  drops _ _ _ _ := ⟨rest, rfl⟩

/-- The DNS server is dropped, which tells its thread to stop and waits for it. -/
theorem Releases.dnsServer {rest : List Local} (hdns : s.dns ≠ .idle) :
    Releases s { s with dnsStop := true } (.drop (.fakeDns :: rest)) (.joinDns rest) where
  frame := rfl
  refs _ q := by simp [Release.rest]
  closeMono := id
  closed := Or.inl
  last := Or.inl
  stopMono _ := rfl
  stopped _ := Or.inr (Or.inl rfl)
  pending _ := ⟨rfl, hdns⟩
  sublist := List.sublist_cons_self _ _
  drops _ hrest _ hnot := by
    obtain rfl := Release.drop.inj hrest
    exact absurd List.mem_cons_self hnot

/-- The last owner drops the protocol stack. -/
theorem Releases.lastOwner {rest : List Local} (hone : s.refs .protocolStack = 1) :
    Releases s { s with refs := Function.update s.refs .protocolStack 0, close := true }
      (.drop (.shared .protocolStack :: rest)) (.joinStack rest) where
  frame := rfl
  refs _ q := by
    by_cases hq : q = .protocolStack
    · subst hq
      simp [Release.rest, hone]
      omega
    · simp [Release.rest, hq, Ne.symm hq]
  closeMono _ := rfl
  closed _ := Or.inr ⟨hone, List.mem_cons_self⟩
  last _ := Or.inr rfl
  stopMono := id
  stopped hmem := Or.inl (by simpa [Release.rest] using hmem)
  pending hspawned := ⟨rfl, hspawned (by omega)⟩
  sublist := List.sublist_cons_self _ _
  drops _ hrest hnot _ := by
    obtain rfl := Release.drop.inj hrest
    exact absurd List.mem_cons_self hnot

/-- Another owner is left, or what is dropped is the device or the tunnel. -/
theorem Releases.oneOwner {q : Resource} {rest : List Local}
    (hlast : ¬ (q = .protocolStack ∧ s.refs q = 1)) :
    Releases s { s with refs := Function.update s.refs q (s.refs q - 1) }
      (.drop (.shared q :: rest)) (.drop rest) where
  frame := rfl
  refs hcount p := by
    have hp := hcount p
    by_cases hpq : p = q
    · subst hpq
      simp [Release.rest] at hp ⊢
      omega
    · simp [Release.rest, hpq, Ne.symm hpq]
  closeMono := id
  closed := Or.inl
  last hzero := by
    change Function.update s.refs q (s.refs q - 1) .protocolStack = 0 at hzero
    by_cases hq : q = .protocolStack
    · subst hq
      rw [Function.update_self] at hzero
      simp only [true_and] at hlast
      omega
    · rw [Function.update_of_ne (Ne.symm hq)] at hzero
      exact Or.inl hzero
  stopMono := id
  stopped hmem := Or.inl (by simpa [Release.rest] using hmem)
  pending _ := trivial
  sublist := List.sublist_cons_self _ _
  drops _ _ _ _ := ⟨rest, rfl⟩

theorem releaseStep_releases (h : s.releaseStep r = some (t, r')) : Releases s t r r' := by
  cases r with
  | joinStack rest | joinDns rest =>
    obtain ⟨-, heq⟩ := when_eq_some.mp h
    obtain ⟨rfl, rfl⟩ := Prod.mk.inj heq
    exact .unshared (fun _ => rfl) (List.Sublist.refl _) Or.inl
  | drop rest =>
    cases rest with
    | nil => cases h
    | cons l rest =>
      have hsub : rest.Sublist (l :: rest) := List.sublist_cons_self l rest
      cases l with
      | handle =>
        obtain ⟨rfl, rfl⟩ := Prod.mk.inj (Option.some.inj h)
        apply Releases.unshared
        · intro q
          simp [Release.rest]
        · exact hsub
        · intro hmem
          exact Or.inl (by simpa [Release.rest] using hmem)
      | fakeDns =>
        by_cases hdns : s.dns = .idle
        · simp only [Starting.releaseStep, if_pos hdns, Option.some.injEq] at h
          obtain ⟨rfl, rfl⟩ := Prod.mk.inj h
          apply Releases.unshared
          · intro q
            simp [Release.rest]
          · exact hsub
          · exact fun _ => Or.inr hdns
        · simp only [Starting.releaseStep, if_neg hdns, Option.some.injEq] at h
          obtain ⟨rfl, rfl⟩ := Prod.mk.inj h
          exact .dnsServer hdns
      | shared q =>
        by_cases hlast : q = .protocolStack ∧ s.refs q = 1
        · simp only [Starting.releaseStep, if_pos hlast, Option.some.injEq] at h
          obtain ⟨rfl, rfl⟩ := Prod.mk.inj h
          obtain ⟨rfl, hone⟩ := hlast
          exact .lastOwner hone
        · simp only [Starting.releaseStep, if_neg hlast, Option.some.injEq] at h
          obtain ⟨rfl, rfl⟩ := Prod.mk.inj h
          exact .oneOwner hlast

theorem Releases.main (h : Releases s t r r') : t.main = s.main := by rw [h.frame]

theorem Releases.dns (h : Releases s t r r') : t.dns = s.dns := by rw [h.frame]

theorem Releases.stackWorker (h : Releases s t r r') : t.stackWorker = s.stackWorker := by
  rw [h.frame]

theorem Releases.uplink (h : Releases s t r r') : t.uplink = s.uplink := by rw [h.frame]

theorem Releases.downlink (h : Releases s t r r') : t.downlink = s.downlink := by rw [h.frame]

theorem Releases.uplinkFailed (h : Releases s t r r') : t.uplinkFailed = s.uplinkFailed := by
  rw [h.frame]

theorem Releases.refs_le (h : Releases s t r r')
    (hcount : ∀ q, r.rest.count (.shared q) ≤ s.refs q) (q : Resource) : t.refs q ≤ s.refs q := by
  have hrefs := h.refs hcount q
  have hle := h.sublist.count_le (.shared q)
  omega

theorem Release.Pending.mono {p : Release} (h : p.Pending s)
    (hclose : s.close = true → t.close = true) (hstop : s.dnsStop = true → t.dnsStop = true)
    (hstack : s.stackWorker ≠ .idle → t.stackWorker ≠ .idle)
    (hdns : s.dns ≠ .idle → t.dns ≠ .idle) : p.Pending t := by
  cases p with
  | drop rest => trivial
  | joinStack rest => exact ⟨hclose h.1, hstack h.2⟩
  | joinDns rest => exact ⟨hstop h.1, hdns h.2⟩

/-- Who waits for a thread that has been told to stop still does. -/
theorem Releases.pending_mono (h : Releases s t r r') {p : Release} (hp : p.Pending s) :
    p.Pending t := by
  apply hp.mono h.closeMono h.stopMono
  · exact fun hne => h.stackWorker ▸ hne
  · exact fun hne => h.dns ▸ hne

theorem Releases.stackSpawned (h : Releases s t r r') (hs : Sound s)
    (hcount : ∀ q, r.rest.count (.shared q) ≤ s.refs q) (hne : t.refs .protocolStack ≠ 0) :
    t.stackWorker ≠ .idle := by
  have hle := h.refs_le hcount .protocolStack
  have hbefore : s.refs .protocolStack ≠ 0 := by omega
  rw [h.stackWorker]
  exact hs.stackSpawned hbefore

theorem Releases.stackStops (h : Releases s t r r') (hs : Sound s)
    (hrunning : t.stackWorker = .running) (hzero : t.refs .protocolStack = 0) :
    t.close = true := by
  rcases h.last hzero with hbefore | hclose
  · exact h.closeMono (hs.stackStops (h.stackWorker ▸ hrunning) hbefore)
  · exact hclose

theorem Releases.failed (h : Releases s t r r') (hs : Sound s) (hf : t.uplinkFailed = true) :
    t.close = true ∧ t.uplink ≠ .idle ∧ t.uplink ≠ .running := by
  have hbefore := hs.failed (h.uplinkFailed ▸ hf)
  rw [h.uplink]
  exact ⟨h.closeMono hbefore.1, hbefore.2⟩

/-- The worker that runs has not failed, and what is dropped does not set `close`. -/
theorem Releases.unfailed (h : Releases s t r r') (hs : Sound s) (hf : t.uplinkFailed = false)
    (hclosed : s.uplink = .running → t.close = true → s.close = true) :
    t.uplink = .idle ∨ t.uplink = .running ∧ t.close = false := by
  rw [h.uplink]
  rcases hs.unfailed (h.uplinkFailed ▸ hf) with hidle | ⟨hrunning, hopen⟩
  · exact Or.inl hidle
  · have hstill : t.close ≠ true := by
      intro hclose
      rw [hclosed hrunning hclose] at hopen
      cases hopen
    exact Or.inr ⟨hrunning, by simpa using hstill⟩

end Releases

section Steps

variable {c : StartConfig} {s t : Starting} {r r' : Release} {failed : StartStep}

/-- The caller drops a variable. -/
theorem Sound.main_drops (hs : Sound s) (hm : s.main = .leaving failed r) (h : Releases s t r r') :
    Sound { t with main := .leaving failed r' } := by
  have hheld : s.held = r.rest ++ s.stackWorker.held stackCaptured ++
      s.uplink.held uplinkCaptured ++ s.downlink.held downlinkCaptured := by
    rw [Starting.held, hm, Main.held]
  have hcount : ∀ q, r.rest.count (.shared q) ≤ s.refs q := by
    intro q
    rw [hs.counted q, hheld]
    simp only [List.count_append]
    omega
  have hindex : s.main.index = failed.index := by rw [hm, Main.index]
  -- A running uplink worker is another owner of the protocol stack.
  have hclosed : s.uplink = .running → t.close = true → s.close = true := by
    intro hrunning hclose
    rcases h.closed hclose with hbefore | ⟨hone, hmem⟩
    · exact hbefore
    · have hq := hs.counted .protocolStack
      have hpos := List.count_pos_iff.mpr hmem
      rw [hheld, hrunning, hone] at hq
      simp [Thread.held, uplinkCaptured] at hq
      omega
  exact {
    counted := by
      intro q
      have hrefs := h.refs hcount q
      have hq := hs.counted q
      rw [hheld] at hq
      simp only [Starting.held, Main.held, h.stackWorker, h.uplink, h.downlink, List.count_append]
        at hq ⊢
      omega
    dnsIdle := fun hi => h.dns.trans (hs.dnsIdle (Nat.le_trans (Nat.le_of_eq hindex) hi))
    stackIdle := fun hi =>
      h.stackWorker.trans (hs.stackIdle (Nat.le_trans (Nat.le_of_eq hindex) hi))
    uplinkIdle := by rw [h.uplink, ← hs.uplinkIdle, hindex, Main.index]
    downlinkIdle := fun hi =>
      h.downlink.trans (hs.downlinkIdle (Nat.le_trans (Nat.le_of_eq hindex) hi))
    stackSpawned := h.stackSpawned hs hcount
    stackStops := h.stackStops hs
    dnsStops := by
      intro hrunning
      have hrun : s.dns = .running := h.dns ▸ hrunning
      rcases hs.dnsStops hrun with hstop | hmem
      · exact Or.inl (h.stopMono hstop)
      · rw [hm] at hmem
        rcases h.stopped hmem with hrest | hstop | hidle
        · exact Or.inr hrest
        · exact Or.inl hstop
        · rw [hrun] at hidle
          cases hidle
    mainPending := by
      intro failed' p hp
      obtain ⟨rfl, rfl⟩ := Main.leaving.inj hp
      exact (h.pending hs.stackSpawned).mono id id id id
    uplinkPending := fun p hp =>
      (h.pending_mono (hs.uplinkPending p (h.uplink ▸ hp))).mono id id id id
    stackDrops := fun p hp => hs.stackDrops p (h.stackWorker ▸ hp)
    dnsDrops := fun p hp => hs.dnsDrops p (h.dns ▸ hp)
    failed := h.failed hs
    unfailed := fun hf => h.unfailed hs hf hclosed
    opened := by simp }

/-- The worker of the stack drops a variable. -/
theorem Sound.stack_drops (hs : Sound s) (hw : s.stackWorker = .leaving r)
    (h : Releases s t r r') : Sound { t with stackWorker := .leaving r' } := by
  obtain ⟨rest, hrest, hstack, hdnsRest⟩ := hs.stackDrops r hw
  have hheld : s.held = s.main.held ++ r.rest ++ s.uplink.held uplinkCaptured ++
      s.downlink.held downlinkCaptured := by
    rw [Starting.held, hw, Thread.held]
  have hcount : ∀ q, r.rest.count (.shared q) ≤ s.refs q := by
    intro q
    rw [hs.counted q, hheld]
    simp only [List.count_append]
    omega
  have hidle : s.stackWorker ≠ .idle := by
    rw [hw]
    simp
  obtain ⟨rest', hrest'⟩ := h.drops rest hrest hstack hdnsRest
  have hsub : rest'.Sublist rest := by
    have hsub := h.sublist
    rwa [hrest, hrest'] at hsub
  have hclosed : t.close = true → s.close = true := by
    intro hclose
    rcases h.closed hclose with hbefore | ⟨-, hmem⟩
    · exact hbefore
    · rw [hrest] at hmem
      exact absurd hmem hstack
  exact {
    counted := by
      intro q
      have hrefs := h.refs hcount q
      have hq := hs.counted q
      rw [hheld] at hq
      simp only [Starting.held, Thread.held, h.main, h.uplink, h.downlink, List.count_append]
        at hq ⊢
      omega
    dnsIdle := fun hi => h.dns.trans (hs.dnsIdle (h.main ▸ hi))
    stackIdle := fun hi => absurd (hs.stackIdle (h.main ▸ hi)) hidle
    uplinkIdle := by rw [h.uplink, ← hs.uplinkIdle, h.main]
    downlinkIdle := fun hi => h.downlink.trans (hs.downlinkIdle (h.main ▸ hi))
    stackSpawned := fun _ => by simp
    stackStops := by simp
    dnsStops := by
      intro hrunning
      rw [h.main]
      exact (hs.dnsStops (h.dns ▸ hrunning)).imp_left h.stopMono
    mainPending := fun failed p hp =>
      (h.pending_mono (hs.mainPending failed p (h.main ▸ hp))).mono id id (fun _ => by simp) id
    uplinkPending := fun p hp =>
      (h.pending_mono (hs.uplinkPending p (h.uplink ▸ hp))).mono id id (fun _ => by simp) id
    stackDrops := by
      intro p hp
      obtain rfl := Thread.leaving.inj hp
      exact ⟨rest', hrest', fun hmem => hstack (hsub.subset hmem),
        fun hmem => hdnsRest (hsub.subset hmem)⟩
    dnsDrops := fun p hp => hs.dnsDrops p (h.dns ▸ hp)
    failed := h.failed hs
    unfailed := fun hf => h.unfailed hs hf fun _ => hclosed
    opened := by
      intro next hnext hup
      have hopen := hs.opened next (h.main ▸ hnext) (h.uplink ▸ hup)
      by_contra hclose
      rw [hclosed (by simpa using hclose)] at hopen
      cases hopen }

/-- The uplink worker drops a variable. -/
theorem Sound.uplink_drops (hs : Sound s) (hw : s.uplink = .leaving r) (h : Releases s t r r') :
    Sound { t with uplink := .leaving r' } := by
  have hheld : s.held = s.main.held ++ s.stackWorker.held stackCaptured ++ r.rest ++
      s.downlink.held downlinkCaptured := by
    rw [Starting.held, hw, Thread.held]
  have hcount : ∀ q, r.rest.count (.shared q) ≤ s.refs q := by
    intro q
    rw [hs.counted q, hheld]
    simp only [List.count_append]
    omega
  have hfailed : s.uplinkFailed = true := by
    by_contra hf
    rcases hs.unfailed (by simpa using hf) with hidle | ⟨hrunning, -⟩
    · rw [hw] at hidle
      cases hidle
    · rw [hw] at hrunning
      cases hrunning
  exact {
    counted := by
      intro q
      have hrefs := h.refs hcount q
      have hq := hs.counted q
      rw [hheld] at hq
      simp only [Starting.held, Thread.held, h.main, h.stackWorker, h.downlink, List.count_append]
        at hq ⊢
      omega
    dnsIdle := fun hi => h.dns.trans (hs.dnsIdle (h.main ▸ hi))
    stackIdle := fun hi => h.stackWorker.trans (hs.stackIdle (h.main ▸ hi))
    uplinkIdle := by
      have hidle := hs.uplinkIdle
      rw [hw] at hidle
      rw [h.main, hidle]
      exact ⟨by simp, by simp⟩
    downlinkIdle := fun hi => h.downlink.trans (hs.downlinkIdle (h.main ▸ hi))
    stackSpawned := h.stackSpawned hs hcount
    stackStops := h.stackStops hs
    dnsStops := by
      intro hrunning
      rw [h.main]
      exact (hs.dnsStops (h.dns ▸ hrunning)).imp_left h.stopMono
    mainPending := fun failed p hp =>
      (h.pending_mono (hs.mainPending failed p (h.main ▸ hp))).mono id id id id
    uplinkPending := by
      intro p hp
      obtain rfl := Thread.leaving.inj hp
      exact (h.pending hs.stackSpawned).mono id id id id
    stackDrops := fun p hp => hs.stackDrops p (h.stackWorker ▸ hp)
    dnsDrops := fun p hp => hs.dnsDrops p (h.dns ▸ hp)
    failed := fun _ => ⟨h.closeMono (hs.failed hfailed).1, by simp, by simp⟩
    unfailed := by
      intro hf
      have hsame : s.uplinkFailed = false := h.uplinkFailed ▸ hf
      rw [hfailed] at hsame
      cases hsame
    opened := fun _ _ => by simp }

/-- A call fails: what its closure has captured is dropped as well. -/
theorem Sound.fails {step : StartStep} (hs : Sound s) (hm : s.main = .before step)
    (refs : Resource → ℕ) (captured : List Local)
    (hrefs : ∀ q, refs q + (Main.before step).held.count (.shared q) =
      s.refs q + (captured ++ step.locals).count (.shared q))
    (hstack : refs .protocolStack = 0 ↔ s.refs .protocolStack = 0)
    (hdns : .fakeDns ∈ (Main.before step).held → .fakeDns ∈ captured ++ step.locals) :
    Sound ({ s with refs := refs }.fails step captured) where
  counted q := by
    have hq := hs.counted q
    have hr := hrefs q
    rw [Starting.held, hm] at hq
    simp only [Starting.fails, Starting.held, Main.held, Release.rest, List.count_append] at hq hr ⊢
    omega
  dnsIdle hi := hs.dnsIdle (by rw [hm]; exact hi)
  stackIdle hi := hs.stackIdle (by rw [hm]; exact hi)
  uplinkIdle := by
    have hidle := hs.uplinkIdle
    rwa [hm] at hidle
  downlinkIdle hi := hs.downlinkIdle (by rw [hm]; exact hi)
  stackSpawned hne := hs.stackSpawned fun hzero => hne (hstack.mpr hzero)
  stackStops hrunning hzero := hs.stackStops hrunning (hstack.mp hzero)
  dnsStops hrunning := (hs.dnsStops hrunning).imp_right fun hmem => hdns (hm ▸ hmem)
  mainPending failed r hr := by
    obtain ⟨-, rfl⟩ := Main.leaving.inj hr
    trivial
  uplinkPending := hs.uplinkPending
  stackDrops := hs.stackDrops
  dnsDrops := hs.dnsDrops
  failed := hs.failed
  unfailed := hs.unfailed
  opened := by simp [Starting.fails]

/-- A call that starts no thread has succeeded. -/
theorem Sound.goes_on {step next : StartStep} (hs : Sound s) (hm : s.main = .before step)
    (refs : Resource → ℕ) (hnext : next.index = step.index + 1) (hearly : next.index ≤ 4)
    (hrefs : ∀ q, refs q + (Main.before step).held.count (.shared q) =
      s.refs q + (Main.before next).held.count (.shared q))
    (hstack : refs .protocolStack = s.refs .protocolStack) :
    Sound { s with main := .before next, refs := refs } := by
  have hindex : s.main.index = step.index := by rw [hm, Main.index]
  have hdns := hs.dnsIdle (by omega)
  have hworker := hs.stackIdle (by omega)
  have hup := hs.uplinkIdle.mp (by omega)
  have hdown := hs.downlinkIdle (by omega)
  exact {
    counted := by
      intro q
      have hq := hs.counted q
      have hr := hrefs q
      rw [Starting.held, hm] at hq
      simp only [Starting.held, List.count_append] at hq ⊢
      omega
    dnsIdle := fun _ => hdns
    stackIdle := fun _ => hworker
    uplinkIdle := ⟨fun _ => hup, fun _ => by dsimp only [Main.index]; omega⟩
    downlinkIdle := fun _ => hdown
    stackSpawned := fun hne => hs.stackSpawned (hstack ▸ hne)
    stackStops := fun hrunning hzero => hs.stackStops hrunning (hstack ▸ hzero)
    dnsStops := by
      intro hrunning
      change s.dns = .running at hrunning
      rw [hdns] at hrunning
      cases hrunning
    mainPending := by simp
    uplinkPending := hs.uplinkPending
    stackDrops := hs.stackDrops
    dnsDrops := hs.dnsDrops
    failed := hs.failed
    unfailed := hs.unfailed
    opened := fun _ _ _ => hs.opened _ hm hup }

/-- The DNS server has been started, where there is one. -/
theorem Sound.fakeDns_spawned (hs : Sound s) (hm : s.main = .before .fakeDns) (fakeIp : Bool) :
    Sound { s with main := .before .stack, dns := if fakeIp then .running else .idle } := by
  have hworker := hs.stackIdle (by rw [hm]; decide)
  have hup := hs.uplinkIdle.mp (by rw [hm]; decide)
  have hdown := hs.downlinkIdle (by rw [hm]; decide)
  exact {
    counted := by
      intro q
      have hq := hs.counted q
      rw [Starting.held, hm] at hq
      simpa [Starting.held, Main.held, StartStep.locals] using hq
    dnsIdle := by simp [Main.index, StartStep.index]
    stackIdle := fun _ => hworker
    uplinkIdle := by simp [Main.index, StartStep.index, hup]
    downlinkIdle := fun _ => hdown
    stackSpawned := hs.stackSpawned
    stackStops := hs.stackStops
    dnsStops := fun _ => Or.inr List.mem_cons_self
    mainPending := by simp
    uplinkPending := by
      intro p hp
      rw [hup] at hp
      cases hp
    stackDrops := hs.stackDrops
    dnsDrops := by
      intro p hp
      dsimp only at hp
      split_ifs at hp
    failed := hs.failed
    unfailed := hs.unfailed
    opened := fun _ _ _ => hs.opened _ hm hup }

/-- The worker of the protocol stack has been started. -/
theorem Sound.stack_spawned (hs : Sound s) (hm : s.main = .before .stack) :
    Sound { ((s.hold .device).hold .tunnel).hold .protocolStack with
      main := .before .uplink
      stackWorker := .running } := by
  have hworker := hs.stackIdle (by rw [hm]; decide)
  have hup := hs.uplinkIdle.mp (by rw [hm]; decide)
  have hdown := hs.downlinkIdle (by rw [hm]; decide)
  exact {
    counted := by
      intro q
      have hq := hs.counted q
      rw [Starting.held, hm, hworker] at hq
      cases q
      all_goals
        simp [Starting.held, Starting.hold, Main.held, Thread.held, StartStep.locals,
          stackCaptured] at hq ⊢
        omega
    dnsIdle := by simp [Main.index, StartStep.index]
    stackIdle := by simp [Main.index, StartStep.index]
    uplinkIdle := by simp [Starting.hold, Main.index, StartStep.index, hup]
    downlinkIdle := fun _ => hdown
    stackSpawned := fun _ => by simp
    stackStops := by
      intro _ hzero
      simp [Starting.hold] at hzero
    dnsStops := fun _ => Or.inr (List.mem_cons_of_mem _ List.mem_cons_self)
    mainPending := by simp
    uplinkPending := by
      intro p hp
      change s.uplink = .leaving p at hp
      rw [hup] at hp
      cases hp
    stackDrops := by simp
    dnsDrops := hs.dnsDrops
    failed := hs.failed
    unfailed := hs.unfailed
    opened := fun _ _ _ => hs.opened _ hm hup }

/-- Before the last call returns, the caller is an owner of the protocol stack it has started. -/
theorem Sound.stack_owned (hs : Sound s) {step : StartStep} (hm : s.main = .before step)
    (hmem : .shared .protocolStack ∈ (Main.before step).held) : s.refs .protocolStack ≠ 0 := by
  have hpos := List.count_pos_iff.mpr hmem
  rw [hs.counted, Starting.held, hm]
  simp only [List.count_append]
  omega

/-- The uplink worker has been started. -/
theorem Sound.uplink_spawned (hs : Sound s) (hm : s.main = .before .uplink) :
    Sound { ((s.hold .device).hold .protocolStack).hold .tunnel with
      main := .before .downlink
      uplink := .running } := by
  have hup := hs.uplinkIdle.mp (by rw [hm]; decide)
  have hdown := hs.downlinkIdle (by rw [hm]; decide)
  have howned := hs.stack_owned hm (by simp [Main.held, StartStep.locals])
  exact {
    counted := by
      intro q
      have hq := hs.counted q
      rw [Starting.held, hm, hup] at hq
      cases q
      all_goals
        simp [Starting.held, Starting.hold, Main.held, Thread.held, StartStep.locals,
          uplinkCaptured] at hq ⊢
        omega
    dnsIdle := by simp [Main.index, StartStep.index]
    stackIdle := by simp [Main.index, StartStep.index]
    uplinkIdle := by simp [Main.index, StartStep.index]
    downlinkIdle := fun _ => hdown
    stackSpawned := fun _ => hs.stackSpawned howned
    stackStops := by
      intro _ hzero
      simp [Starting.hold] at hzero
    dnsStops := fun _ => Or.inr (by simp [Main.held, StartStep.locals])
    mainPending := by simp
    uplinkPending := by simp
    stackDrops := hs.stackDrops
    dnsDrops := hs.dnsDrops
    failed := fun hf => absurd hup (hs.failed hf).2.1
    unfailed := fun _ => Or.inr ⟨rfl, hs.opened _ hm hup⟩
    opened := fun _ _ => by simp }

/-- The downlink worker has been started. -/
theorem Sound.downlink_spawned (hs : Sound s) (hm : s.main = .before .downlink) :
    Sound { s.hold .tunnel with main := .started, downlink := .running } := by
  have hup : s.uplink ≠ .idle := fun hidle => absurd (hs.uplinkIdle.mpr hidle) (by rw [hm]; decide)
  have hdown := hs.downlinkIdle (by rw [hm]; decide)
  exact {
    counted := by
      intro q
      have hq := hs.counted q
      rw [Starting.held, hm, hdown] at hq
      cases q
      all_goals
        simp [Starting.held, Starting.hold, Main.held, Thread.held, StartStep.locals,
          downlinkCaptured] at hq ⊢
        omega
    dnsIdle := by simp [Main.index]
    stackIdle := by simp [Main.index]
    uplinkIdle := by simp [Starting.hold, Main.index, hup]
    downlinkIdle := by simp [Main.index]
    stackSpawned := fun hne => hs.stackSpawned (by simpa [Starting.hold] using hne)
    stackStops := fun hrunning hzero =>
      hs.stackStops hrunning (by simpa [Starting.hold] using hzero)
    dnsStops := by
      intro hrunning
      rcases hs.dnsStops hrunning with hstop | -
      · exact Or.inl hstop
      · exact Or.inr (by simp [Main.held])
    mainPending := by simp
    uplinkPending := hs.uplinkPending
    stackDrops := hs.stackDrops
    dnsDrops := hs.dnsDrops
    failed := hs.failed
    unfailed := hs.unfailed
    opened := by simp }

theorem Sound.main_calls {next : StartStep} {ok : Bool} (hs : Sound s)
    (hm : s.main = .before next) (h : s.call c next ok = some t) : Sound t := by
  cases next with
  | virtualIp =>
    cases ok <;> obtain rfl := Option.some.inj h
    · exact hs.fails hm s.refs [] (fun _ => rfl) Iff.rfl id
    · exact hs.goes_on hm s.refs rfl (by decide) (fun _ => rfl) rfl
  | interrupt =>
    cases ok
    · obtain ⟨-, rfl⟩ := when_eq_some.mp h
      exact hs.fails hm s.refs [] (fun _ => rfl) Iff.rfl id
    · obtain rfl := Option.some.inj h
      exact hs.goes_on hm s.refs rfl (by decide) (fun _ => rfl) rfl
  | device =>
    cases ok <;> obtain rfl := Option.some.inj h
    · exact hs.fails hm s.refs [] (fun _ => rfl) Iff.rfl id
    · apply hs.goes_on hm (s.hold .device).refs rfl (by decide)
      · intro q
        cases q <;> simp [Starting.hold, Main.held, StartStep.locals]
      · rfl
  | tunnel =>
    cases ok <;> obtain rfl := Option.some.inj h
    · exact hs.fails hm s.refs [] (fun _ => rfl) Iff.rfl id
    · apply hs.goes_on hm (s.hold .tunnel).refs rfl (by decide)
      · intro q
        cases q <;> simp [Starting.hold, Main.held, StartStep.locals]
      · rfl
  | fakeDns =>
    cases ok
    · obtain ⟨-, rfl⟩ := when_eq_some.mp h
      exact hs.fails hm s.refs [] (fun _ => rfl) Iff.rfl id
    · obtain rfl := Option.some.inj h
      exact hs.fakeDns_spawned hm c.fakeIp
  | stack =>
    cases ok <;> obtain rfl := Option.some.inj h
    · apply hs.fails hm ((s.hold .device).hold .tunnel).refs stackCaptured
      · intro q
        cases q <;> simp [Starting.hold, Main.held, StartStep.locals, stackCaptured]
      · rfl
      · exact List.mem_append_right _
    · exact hs.stack_spawned hm
  | uplink =>
    cases ok <;> obtain rfl := Option.some.inj h
    · have howned := hs.stack_owned hm (by simp [Main.held, StartStep.locals])
      apply hs.fails hm (((s.hold .device).hold .protocolStack).hold .tunnel).refs uplinkCaptured
      · intro q
        cases q <;> simp [Starting.hold, Main.held, StartStep.locals, uplinkCaptured]
      · simp [Starting.hold, howned]
      · exact List.mem_append_right _
    · exact hs.uplink_spawned hm
  | downlink =>
    cases ok <;> obtain rfl := Option.some.inj h
    · apply hs.fails hm (s.hold .tunnel).refs downlinkCaptured
      · intro q
        cases q <;> simp [Starting.hold, Main.held, StartStep.locals, downlinkCaptured]
      · rfl
      · simp [Main.held, StartStep.locals]
    · exact hs.downlink_spawned hm

/-- The worker of the stack leaves its loop. -/
theorem Sound.stack_sees_close (hs : Sound s) (hw : s.stackWorker = .running) :
    Sound { s with stackWorker := .leaving (.drop stackCaptured) } where
  counted q := by
    have hq := hs.counted q
    rw [Starting.held, hw] at hq
    exact hq
  dnsIdle := hs.dnsIdle
  stackIdle hi := by
    have hidle := hs.stackIdle hi
    rw [hw] at hidle
    cases hidle
  uplinkIdle := hs.uplinkIdle
  downlinkIdle := hs.downlinkIdle
  stackSpawned _ := by simp
  stackStops := by simp
  dnsStops := hs.dnsStops
  mainPending failed p hp := (hs.mainPending failed p hp).mono id id (fun _ => by simp) id
  uplinkPending p hp := (hs.uplinkPending p hp).mono id id (fun _ => by simp) id
  stackDrops p hp := by
    obtain rfl := Thread.leaving.inj hp
    exact ⟨stackCaptured, rfl, by decide, by decide⟩
  dnsDrops := hs.dnsDrops
  failed := hs.failed
  unfailed := hs.unfailed
  opened := hs.opened

/-- The thread of the DNS server leaves its loop. -/
theorem Sound.dns_sees_stop (hs : Sound s) (hd : s.dns = .running) :
    Sound { s with dns := .leaving (.drop []) } where
  counted := hs.counted
  dnsIdle hi := by
    have hidle := hs.dnsIdle hi
    rw [hd] at hidle
    cases hidle
  stackIdle := hs.stackIdle
  uplinkIdle := hs.uplinkIdle
  downlinkIdle := hs.downlinkIdle
  stackSpawned := hs.stackSpawned
  stackStops := hs.stackStops
  dnsStops := by simp
  mainPending failed p hp := (hs.mainPending failed p hp).mono id id id fun _ => by simp
  uplinkPending p hp := (hs.uplinkPending p hp).mono id id id fun _ => by simp
  stackDrops := hs.stackDrops
  dnsDrops p hp := (Thread.leaving.inj hp).symm
  failed := hs.failed
  unfailed := hs.unfailed
  opened := hs.opened

/-- The uplink worker leaves its loop, which it does for an error of its own only. -/
theorem Sound.uplink_fails (hs : Sound s) (hw : s.uplink = .running) :
    Sound { s with
      uplink := .leaving (.drop uplinkCaptured)
      close := true
      uplinkFailed := true } where
  counted q := by
    have hq := hs.counted q
    rw [Starting.held, hw] at hq
    exact hq
  dnsIdle := hs.dnsIdle
  stackIdle := hs.stackIdle
  uplinkIdle := by
    have hidle := hs.uplinkIdle
    rw [hw] at hidle
    exact ⟨fun hi => absurd (hidle.mp hi) (by simp), by simp⟩
  downlinkIdle := hs.downlinkIdle
  stackSpawned := hs.stackSpawned
  stackStops _ _ := rfl
  dnsStops := hs.dnsStops
  mainPending failed p hp := (hs.mainPending failed p hp).mono (fun _ => rfl) id id id
  uplinkPending p hp := by
    obtain rfl := Thread.leaving.inj hp
    trivial
  stackDrops := hs.stackDrops
  dnsDrops := hs.dnsDrops
  failed _ := ⟨rfl, by simp, by simp⟩
  unfailed := by simp
  opened _ _ := by simp

/-- What a step does. -/
inductive Moves (c : StartConfig) (s : Starting) : Starting → Prop where
  | calls {next : StartStep} {ok : Bool} {t : Starting} (hm : s.main = .before next)
      (h : s.call c next ok = some t) : Moves c s t
  | mainDrops {failed : StartStep} {r r' : Release} {u : Starting}
      (hm : s.main = .leaving failed r) (h : s.releaseStep r = some (u, r')) :
      Moves c s { u with main := .leaving failed r' }
  | stackSeesClose (hw : s.stackWorker = .running) :
      Moves c s { s with stackWorker := .leaving (.drop stackCaptured) }
  | stackDrops {r r' : Release} {u : Starting} (hw : s.stackWorker = .leaving r)
      (h : s.releaseStep r = some (u, r')) : Moves c s { u with stackWorker := .leaving r' }
  | dnsSeesStop (hd : s.dns = .running) : Moves c s { s with dns := .leaving (.drop []) }
  | uplinkSeesClose (hw : s.uplink = .running) (hclose : s.close = true) :
      Moves c s { s with uplink := .leaving (.drop uplinkCaptured) }
  | uplinkFails (hw : s.uplink = .running) :
      Moves c s { s with
        uplink := .leaving (.drop uplinkCaptured)
        close := true
        uplinkFailed := true }
  | uplinkDrops {r r' : Release} {u : Starting} (hw : s.uplink = .leaving r)
      (h : s.releaseStep r = some (u, r')) : Moves c s { u with uplink := .leaving r' }

theorem moves_of_step {a : StartAction} (h : startStep c s a = some t) : Moves c s t := by
  cases a with
  | call ok =>
    cases hm : s.main with
    | before next =>
      simp only [startStep, hm] at h
      exact .calls hm h
    | started | leaving => simp [startStep, hm] at h
  | drop =>
    cases hm : s.main with
    | before | started => simp [startStep, hm] at h
    | leaving failed r =>
      simp only [startStep, hm] at h
      obtain ⟨⟨u, r'⟩, hu, rfl⟩ := Option.map_eq_some_iff.mp h
      exact .mainDrops hm hu
  | stackSeesClose =>
    obtain ⟨⟨hw, -⟩, rfl⟩ := when_eq_some.mp h
    exact .stackSeesClose hw
  | stackDrops =>
    cases hw : s.stackWorker with
    | idle | running => simp [startStep, hw] at h
    | leaving r =>
      simp only [startStep, hw] at h
      obtain ⟨⟨u, r'⟩, hu, rfl⟩ := Option.map_eq_some_iff.mp h
      exact .stackDrops hw hu
  | dnsSeesStop =>
    obtain ⟨⟨hd, -⟩, rfl⟩ := when_eq_some.mp h
    exact .dnsSeesStop hd
  | uplinkSeesClose =>
    obtain ⟨⟨hw, hclose⟩, rfl⟩ := when_eq_some.mp h
    exact .uplinkSeesClose hw hclose
  | uplinkFails =>
    obtain ⟨hw, rfl⟩ := when_eq_some.mp h
    exact .uplinkFails hw
  | uplinkDrops =>
    cases hw : s.uplink with
    | idle | running => simp [startStep, hw] at h
    | leaving r =>
      simp only [startStep, hw] at h
      obtain ⟨⟨u, r'⟩, hu, rfl⟩ := Option.map_eq_some_iff.mp h
      exact .uplinkDrops hw hu

theorem sound_initial : Sound .initial where
  counted q := by cases q <;> rfl
  dnsIdle _ := rfl
  stackIdle _ := rfl
  uplinkIdle := ⟨fun _ => rfl, fun _ => by decide⟩
  downlinkIdle _ := rfl
  stackSpawned hne := absurd rfl hne
  stackStops := by simp [Starting.initial]
  dnsStops := by simp [Starting.initial]
  mainPending := by simp [Starting.initial]
  uplinkPending := by simp [Starting.initial]
  stackDrops := by simp [Starting.initial]
  dnsDrops := by simp [Starting.initial]
  failed := by simp [Starting.initial]
  unfailed _ := Or.inl rfl
  opened _ _ _ := rfl

theorem Sound.step (hs : Sound s) (h : Moves c s t) : Sound t := by
  cases h with
  | calls hm h => exact hs.main_calls hm h
  | mainDrops hm h => exact hs.main_drops hm (releaseStep_releases h)
  | stackSeesClose hw => exact hs.stack_sees_close hw
  | stackDrops hw h => exact hs.stack_drops hw (releaseStep_releases h)
  | dnsSeesStop hd => exact hs.dns_sees_stop hd
  | uplinkSeesClose hw hclose =>
    -- Nobody else closes the engine while the worker runs.
    cases hf : s.uplinkFailed with
    | true => exact absurd hw (hs.failed hf).2.2
    | false =>
      rcases hs.unfailed hf with hidle | ⟨-, hopen⟩
      · rw [hw] at hidle
        cases hidle
      · rw [hopen] at hclose
        cases hclose
  | uplinkFails hw => exact hs.uplink_fails hw
  | uplinkDrops hw h => exact hs.uplink_drops hw (releaseStep_releases h)

theorem sound_of_reachable (h : (starts c).Reachable s) : Sound s := by
  apply h.invariant (I := Sound)
  · intro s hs
    rw [show s = .initial from hs]
    exact sound_initial
  · intro s a t _ hs _ ht
    exact hs.step (moves_of_step ht)

end Steps

section Settled

variable {c : StartConfig} {s t : Starting} {r : Release} {step : StartStep}

theorem releaseStep_drop_cons (s : Starting) (l : Local) (rest : List Local) :
    s.releaseStep (.drop (l :: rest)) ≠ none := by
  cases l with
  | handle => simp [Starting.releaseStep]
  | fakeDns | shared =>
    simp only [Starting.releaseStep]
    split_ifs <;> simp

/-- Where nothing moves, nobody waits for a thread that has been told to stop. -/
theorem Sound.nothing_pending (hs : Sound s) (hsettled : s.Settled c) (hp : r.Pending s)
    (hnone : s.releaseStep r = none) : r = .drop [] := by
  cases r with
  | drop rest =>
    cases rest with
    | nil => rfl
    | cons l rest => exact absurd hnone (releaseStep_drop_cons s l rest)
  | joinStack rest =>
    obtain ⟨hclose, hidle⟩ := hp
    have hnot : ¬ s.stackWorker.Ended := by
      intro hended
      simp [Starting.releaseStep, Transition.when, hended] at hnone
    cases hw : s.stackWorker with
    | idle => exact absurd hw hidle
    | running =>
      have hsees := hsettled .stackSeesClose (by simp)
      simp [startStep, Transition.when, hw, hclose] at hsees
    | leaving r =>
      obtain ⟨rest', rfl, hstack, hdns⟩ := hs.stackDrops r hw
      have hdrops := hsettled .stackDrops (by simp)
      simp only [startStep, hw, Option.map_eq_none_iff] at hdrops
      cases rest' with
      | nil => exact absurd hw hnot
      | cons l rest' => exact absurd hdrops (releaseStep_drop_cons s l rest')
  | joinDns rest =>
    obtain ⟨hstop, hidle⟩ := hp
    have hnot : ¬ s.dns.Ended := by
      intro hended
      simp [Starting.releaseStep, Transition.when, hended] at hnone
    cases hd : s.dns with
    | idle => exact absurd hd hidle
    | running =>
      have hsees := hsettled .dnsSeesStop (by simp)
      simp [startStep, Transition.when, hd, hstop] at hsees
    | leaving r =>
      obtain rfl := hs.dnsDrops r hd
      exact absurd hd hnot

/-- An upper bound of the steps that a thread still has to take to drop its variables. -/
def Release.rank : Release → ℕ
  | .drop rest => 2 * rest.length
  | .joinStack rest | .joinDns rest => 2 * rest.length + 1

def Thread.rank (captured : List Local) : Thread → ℕ
  | .idle => 0
  | .running => 2 * captured.length + 1
  | .leaving r => r.rank

def Main.rank : Main → ℕ
  | .before next => 20 * (8 - next.index)
  | .started => 0
  | .leaving _ r => r.rank

def Starting.rank (s : Starting) : ℕ :=
  s.main.rank + s.dns.rank [] + s.stackWorker.rank stackCaptured + s.uplink.rank uplinkCaptured

theorem releaseStep_rank {r' : Release} (h : s.releaseStep r = some (t, r')) :
    r'.rank < r.rank := by
  cases r with
  | drop rest =>
    cases rest with
    | nil => cases h
    | cons l rest =>
      cases l with
      | handle =>
        obtain ⟨-, rfl⟩ := Prod.mk.inj (Option.some.inj h)
        simp [Release.rank]
      | fakeDns | shared =>
        simp only [Starting.releaseStep] at h
        split_ifs at h
        all_goals
          obtain ⟨-, rfl⟩ := Prod.mk.inj (Option.some.inj h)
          simp [Release.rank]
          try omega
  | joinStack rest | joinDns rest =>
    obtain ⟨-, heq⟩ := when_eq_some.mp h
    obtain ⟨-, rfl⟩ := Prod.mk.inj heq
    simp [Release.rank]

theorem call_rank {next : StartStep} {ok : Bool} (hm : s.main = .before next)
    (h : s.call c next ok = some t) : t.rank < s.rank := by
  cases next with
  | virtualIp | device | tunnel =>
    cases ok
    all_goals
      obtain rfl := Option.some.inj h
      simp [Starting.rank, hm, Main.rank, Starting.fails, Starting.hold, StartStep.index,
        StartStep.locals, Release.rank]
  | interrupt =>
    cases ok
    · obtain ⟨-, rfl⟩ := when_eq_some.mp h
      simp [Starting.rank, hm, Main.rank, Starting.fails, StartStep.index, StartStep.locals,
        Release.rank]
    · obtain rfl := Option.some.inj h
      simp [Starting.rank, hm, Main.rank, StartStep.index]
  | fakeDns =>
    cases ok
    · obtain ⟨-, rfl⟩ := when_eq_some.mp h
      simp [Starting.rank, hm, Main.rank, Starting.fails, StartStep.index, StartStep.locals,
        Release.rank]
    · obtain rfl := Option.some.inj h
      cases c.fakeIp
      all_goals
        simp [Starting.rank, hm, Main.rank, StartStep.index, Thread.rank]
        omega
  | stack | uplink | downlink =>
    cases ok
    all_goals
      obtain rfl := Option.some.inj h
      simp [Starting.rank, hm, Main.rank, Starting.fails, Starting.hold, StartStep.index,
        StartStep.locals, stackCaptured, uplinkCaptured, downlinkCaptured, Release.rank,
        Thread.rank]
      try omega

/-- Every step comes closer to the end. -/
theorem Moves.rank_lt (h : Moves c s t) : t.rank < s.rank := by
  cases h with
  | calls hm h => exact call_rank hm h
  | mainDrops hm h =>
    have hlt := releaseStep_rank h
    have hrel := releaseStep_releases h
    simp only [Starting.rank, hm, Main.rank, hrel.dns, hrel.stackWorker, hrel.uplink]
    omega
  | stackSeesClose hw => simp [Starting.rank, hw, Thread.rank, Release.rank]
  | stackDrops hw h =>
    have hlt := releaseStep_rank h
    have hrel := releaseStep_releases h
    simp only [Starting.rank, hw, Thread.rank, hrel.main, hrel.dns, hrel.uplink]
    omega
  | dnsSeesStop hd => simp [Starting.rank, hd, Thread.rank, Release.rank]
  | uplinkSeesClose hw => simp [Starting.rank, hw, Thread.rank, Release.rank]
  | uplinkFails hw => simp [Starting.rank, hw, Thread.rank, Release.rank]
  | uplinkDrops hw h =>
    have hlt := releaseStep_rank h
    have hrel := releaseStep_releases h
    simp only [Starting.rank, hw, Thread.rank, hrel.main, hrel.dns, hrel.stackWorker]
    omega

/-- Every run goes on to a settled state, without a further error of the uplink worker. -/
theorem exists_settled (c : StartConfig) (s : Starting) :
    ∃ as t, (starts c).run s as = some t ∧ .uplinkFails ∉ as ∧ t.Settled c := by
  induction hn : s.rank using Nat.strongRecOn generalizing s with
  | _ n ih =>
    by_cases hsettled : s.Settled c
    · exact ⟨[], s, rfl, by simp, hsettled⟩
    · simp only [Starting.Settled, not_forall] at hsettled
      obtain ⟨a, ha, hstep⟩ := hsettled
      obtain ⟨u, hu⟩ := Option.ne_none_iff_exists'.mp hstep
      have hlt := (moves_of_step hu).rank_lt
      obtain ⟨as, t, hrun, hnot, ht⟩ := ih u.rank (hn ▸ hlt) u rfl
      refine ⟨a :: as, t, ?_, ?_, ht⟩
      · exact Option.bind_eq_some_iff.mpr ⟨u, hu, hrun⟩
      · exact fun hmem => (List.mem_cons.mp hmem).elim (fun heq => ha heq.symm) hnot

theorem Sound.stack_settled (hs : Sound s) (hsettled : s.Settled c)
    (hfree : s.refs .protocolStack = 0) : s.stackWorker = .idle ∨ s.stackWorker.Ended := by
  cases hw : s.stackWorker with
  | idle => exact Or.inl rfl
  | running =>
    have hclose := hs.stackStops hw hfree
    have hsees := hsettled .stackSeesClose (by simp)
    simp [startStep, Transition.when, hw, hclose] at hsees
  | leaving r =>
    obtain ⟨rest, rfl, -, -⟩ := hs.stackDrops r hw
    have hdrops := hsettled .stackDrops (by simp)
    simp only [startStep, hw, Option.map_eq_none_iff] at hdrops
    obtain rfl := Release.drop.inj (hs.nothing_pending hsettled (r := .drop rest) trivial hdrops)
    exact Or.inr rfl

theorem Sound.dns_settled (hs : Sound s) (hsettled : s.Settled c) (hheld : .fakeDns ∉ s.main.held) :
    s.dns = .idle ∨ s.dns.Ended := by
  cases hd : s.dns with
  | idle => exact Or.inl rfl
  | running =>
    rcases hs.dnsStops hd with hstop | hmem
    · have hsees := hsettled .dnsSeesStop (by simp)
      simp [startStep, Transition.when, hd, hstop] at hsees
    · exact absurd hmem hheld
  | leaving r =>
    obtain rfl := hs.dnsDrops r hd
    exact Or.inr rfl

theorem Sound.uplink_settled (hs : Sound s) (hsettled : s.Settled c) (hw : s.uplink ≠ .running) :
    s.uplink = .idle ∨ s.uplink.Ended := by
  cases hup : s.uplink with
  | idle => exact Or.inl rfl
  | running => exact absurd hup hw
  | leaving r =>
    have hdrops := hsettled .uplinkDrops (by simp)
    simp only [startStep, hup, Option.map_eq_none_iff] at hdrops
    obtain rfl := hs.nothing_pending hsettled (hs.uplinkPending r hup) hdrops
    exact Or.inr rfl

theorem Thread.held_eq_nil {captured : List Local} {w : Thread} (h : w = .idle ∨ w.Ended) :
    w.held captured = [] := by
  rcases h with hidle | hended
  · rw [hidle, Thread.held]
  · rw [hended, Thread.held, Release.rest]

theorem Sound.released_of_settled (hs : Sound s) (hfailed : s.Failed step)
    (hsettled : s.Settled c) :
    s.Released ↔ (step = .downlink → s.uplinkFailed = true) := by
  have hindex : s.main.index = step.index := by rw [hfailed, Main.index]
  have hheld : s.main.held = [] := by rw [hfailed, Main.held, Release.rest]
  have hdown : s.downlink = .idle := by
    apply hs.downlinkIdle
    rw [hindex]
    cases step <;> decide
  constructor
  · rintro hreleased rfl
    by_contra hf
    have hne : s.uplink ≠ .idle := by
      intro hidle
      have hle := hs.uplinkIdle.mpr hidle
      rw [hindex] at hle
      exact absurd hle (by decide)
    rcases hreleased.uplink with hidle | hended
    · exact hne hidle
    · rcases hs.unfailed (by simpa using hf) with hidle | ⟨hrunning, -⟩
      · exact hne hidle
      · rw [hrunning] at hended
        cases hended
  · intro hcond
    have hrunning : s.uplink ≠ .running := by
      intro hw
      by_cases hstep : step = .downlink
      · exact (hs.failed (hcond hstep)).2.2 hw
      · have hidle : s.uplink = .idle := by
          apply hs.uplinkIdle.mp
          rw [hindex]
          cases step with
          | downlink => exact absurd rfl hstep
          | virtualIp | interrupt | device | tunnel | fakeDns | stack | uplink => decide
        rw [hw] at hidle
        cases hidle
    have hup := hs.uplink_settled hsettled hrunning
    have hrefs : ∀ q, s.refs q = (s.stackWorker.held stackCaptured).count (.shared q) := by
      intro q
      rw [hs.counted q, Starting.held, hheld, Thread.held_eq_nil hup, hdown]
      simp [Thread.held]
    have hfree : s.refs .protocolStack = 0 := by
      rw [hrefs, List.count_eq_zero]
      cases hw : s.stackWorker with
      | idle | running => decide
      | leaving r =>
        obtain ⟨rest, rfl, hnot, -⟩ := hs.stackDrops r hw
        exact hnot
    have hstack := hs.stack_settled hsettled hfree
    refine ⟨hs.dns_settled hsettled (by rw [hheld]; simp), hstack, hup, Or.inl hdown, ?_, ?_⟩
    · rw [hrefs, Thread.held_eq_nil hstack]
      rfl
    · rw [hrefs, Thread.held_eq_nil hstack]
      rfl

/-- A failed start leaves nothing behind, except where the downlink worker could not be spawned:
then the uplink worker goes on until it meets an error. -/
theorem released_iff (h : (starts c).Reachable s) (hfailed : s.Failed step)
    (hsettled : s.Settled c) :
    s.Released ↔ (step = .downlink → s.uplinkFailed = true) :=
  (sound_of_reachable h).released_of_settled hfailed hsettled

/-- The uplink worker could not be spawned. -/
theorem released_uplink_not_spawned : ∃ s : Starting, s.Failed .uplink ∧ s.Released := by
  have h0 : (starts { interruptEvent := true, fakeIp := true }).Reachable .initial := .init rfl
  have h := h0.run [.call true, .call true, .call true, .call true, .call true, .call true,
    .call false, .drop, .drop, .drop, .drop, .stackSeesClose, .stackDrops, .stackDrops, .drop,
    .drop, .dnsSeesStop, .drop, .drop, .drop] rfl
  refine ⟨_, ?failed, (released_iff h ?failed ?settled).mpr ?cond⟩
  case failed => rfl
  case settled => rintro (ok | _) - <;> rfl
  case cond => simp

/-- The downlink worker could not be spawned, and the uplink worker goes on. -/
theorem uplink_left_running : ¬ ∀ (c : StartConfig) (s : Starting) (step : StartStep),
    (starts c).Reachable s → s.Failed step → s.Settled c → s.Released := by
  intro hall
  have h0 : (starts { interruptEvent := true, fakeIp := true }).Reachable .initial := .init rfl
  have h := h0.run [.call true, .call true, .call true, .call true, .call true, .call true,
    .call true, .call false, .drop, .drop, .drop, .drop, .drop, .dnsSeesStop, .drop, .drop] rfl
  have hreleased := hall _ _ .downlink h rfl (by
    rintro (ok | _) hne
    all_goals first | rfl | exact absurd rfl hne)
  rcases hreleased.uplink with hidle | hended
  · cases hidle
  · cases hended

end Settled

end NulConnect.VpnEngine
