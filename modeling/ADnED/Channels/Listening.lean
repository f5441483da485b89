import ADnED.Channels.Connected
import ADnED.Channels.Monitors
import ADnED.Tasks.Requests
import ADnED.Tasks.StartStop

/-!
# The monitors during an acquisition

The driver together with its PVAccess members: a start connects the channels one after the
other and starts the monitors, the end of the loop of `eventTask` stops them
(`ADnED.cpp:1541-1573`, `1612-1617`). To the system this is the system as it was, with the
outcome of the connect loop in the place of what its environment decides
(`connectChannels_throws`).

In every interleaving, the monitors that run during an acquisition are those that
`p_Monitor` has for the channels below the number read at its start, and no monitor runs
while `eventTask` waits for a Start (`listens_while_acquiring`). This is by the members and
not by the PV names: a channel that was connected once and is then switched off by a name
that starts with 0 goes on delivering.
-/

namespace ADnED

/-- What the environment decides about a start: the outcome of `calloc`, whether the provider
is registered, and which channels connect. -/
structure SetupEnv where
  callocOk : Bool
  registered : Bool
  connects : Nat → Bool

/-- The same for a system without PVAccess members. -/
def SetupEnv.start (env : SetupEnv) : StartEnv := ⟨env.callocOk, fun c => env.registered && env.connects c⟩

/-- The driver and its PVAccess members. A monitor is known by the channel object that it was
created on; `running` are those that are started. `wanted` is a history variable: the channels
that the last start connected. -/
structure Station where
  sys : Sys
  members : Channels
  running : Nat → Bool
  wanted : List Nat

/-- A step of `eventTask`, or any other request. -/
inductive Station.Action where
  | request (r : Request)
  | event (env : SetupEnv)

namespace Channels

/-- `p_Monitor[c]` for one of the channels is this monitor. -/
def uses (s : Channels) (cs : List Nat) (m : Nat) : Bool := cs.any fun c => s.monitor c == some m

theorem uses_iff {s : Channels} {cs : List Nat} {m : Nat} : s.uses cs m = true ↔ ∃ c ∈ cs, s.monitor c = some m := by
  simp [uses]

section Setup

variable (s : Channels) (registered connects : Bool) (pvName : String) (c : Nat)

theorem openChannel_isSome : ((s.openChannel pvName c).1.channel c).isSome = true := by
  obtain ⟨ch, there, -⟩ := Link.openChannel_channel s pvName c
  rw [there]
  rfl

theorem openChannel_monitor : (s.openChannel pvName c).1.monitor = s.monitor := by
  unfold openChannel createChannel
  split
  · rfl
  · split <;> rfl

/-- The calls that go through. -/
theorem setupChannelMonitor_ok_iff :
    (s.setupChannelMonitor registered connects pvName c).2 = .ok () ↔
      registered = true ∧ connects = true ∧ c < maxChannels := by
  refine ⟨setupChannelMonitor_ok, ?_⟩
  rintro ⟨rfl, rfl, inRange⟩
  simp only [setupChannelMonitor, if_neg (Nat.not_le.2 inRange), finish, if_true, Bool.true_eq_false, if_false]

/-- A call that goes through leaves a monitor. -/
theorem setupChannelMonitor_monitor (success : (s.setupChannelMonitor registered connects pvName c).2 = .ok ()) :
    ((s.setupChannelMonitor registered connects pvName c).1.monitor c).isSome = true := by
  obtain ⟨rfl, rfl, inRange⟩ := (setupChannelMonitor_ok_iff s registered connects pvName c).1 success
  have there := s.openChannel_isSome pvName c
  simp only [setupChannelMonitor, if_neg (Nat.not_le.2 inRange), Bool.true_eq_false, if_false]
  rw [finish_monitor]
  split
  · simpa using there
  · rename_i kept
    rw [Option.isSome_iff_ne_none]
    exact fun none => kept ⟨rfl, .inl none⟩

/-- No call takes a monitor away. -/
theorem setupChannelMonitor_keeps {c' : Nat} (there : (s.monitor c').isSome = true) :
    ((s.setupChannelMonitor registered connects pvName c).1.monitor c').isSome = true := by
  by_cases here : c' = c
  · subst here
    have opened := s.openChannel_isSome pvName c'
    unfold setupChannelMonitor
    split
    · exact there
    · split
      · exact there
      · rw [finish_monitor, openChannel_monitor]
        split
        · simpa using opened
        · exact there
  · have other := (call_other registered s (k := ⟨pvName, c, connects⟩) here).2
    rw [show (s.setupChannelMonitor registered connects pvName c).1 = s.call registered ⟨pvName, c, connects⟩ from rfl,
      other]
    exact there

end Setup

end Channels

namespace EventTask

open Channels

/-- The connect loop: the members, the monitors that run, and whether it ends with an exception.
A monitor that a call replaces is destroyed. -/
def connectChannels (env : SetupEnv) (d : Driver) : List Nat → Channels → (Nat → Bool) → Channels × (Nat → Bool) × Bool
  | [], s, running => (s, running, false)
  | c :: cs, s, running =>
    if skipsChannel d c then connectChannels env d cs s running
    else
      match s.setupChannelMonitor env.registered (env.connects c) (d.str c .pvName) c with
      | (s', .error _) => (s', running, true)
      | (s', .ok _) =>
        connectChannels env d cs s' fun m => running m && !(s.monitor c == some m && s'.monitor c != some m)

section Connect

variable {env : SetupEnv} {d : Driver}

/-- **The connect loop** ends with an exception exactly if the system says so. -/
theorem connectChannels_throws {cs : List Nat} (inRange : ∀ c ∈ cs, c < maxChannels) (s : Channels) (running : Nat → Bool) :
    (connectChannels env d cs s running).2.2 = cs.any fun c => !skipsChannel d c && !env.start.connects c := by
  induction cs generalizing s running with
  | nil => rfl
  | cons c cs ih =>
    obtain ⟨first, later⟩ := List.forall_mem_cons.1 inRange
    rw [List.any_cons]
    cases skips : skipsChannel d c with
    | true => simp only [connectChannels, skips, if_true, ih later, Bool.not_true, Bool.false_and, Bool.false_or]
    | false =>
      have ok := setupChannelMonitor_ok_iff s env.registered (env.connects c) (d.str c .pvName) c
      simp only [connectChannels, skips, Bool.false_eq_true, if_false, Bool.not_false, Bool.true_and]
      cases outcome : s.setupChannelMonitor env.registered (env.connects c) (d.str c .pvName) c with
      | mk s' result =>
        rw [outcome] at ok
        cases result with
        | error e =>
          have fails : env.start.connects c = false := by
            rw [Bool.eq_false_iff]
            intro connects
            have both := Bool.and_eq_true_iff.1 connects
            cases ok.2 ⟨both.1, both.2, first⟩
          rw [fails]
          rfl
        | ok done =>
          obtain ⟨registered, connects, -⟩ := ok.1 rfl
          have goes : env.start.connects c = true := Bool.and_eq_true_iff.2 ⟨registered, connects⟩
          rw [goes]
          exact ih later _ _

/-- The loop starts no monitor. -/
theorem connectChannels_running {cs : List Nat} {s : Channels} {running : Nat → Bool} {m : Nat}
    (runs : (connectChannels env d cs s running).2.1 m = true) : running m = true := by
  induction cs generalizing s running with
  | nil => exact runs
  | cons c cs ih =>
    simp only [connectChannels] at runs
    split at runs
    · exact ih runs
    · split at runs
      · exact runs
      · exact (Bool.and_eq_true_iff.1 (ih runs)).1

/-- The loop takes no monitor away. -/
theorem connectChannels_keeps {cs : List Nat} {s : Channels} {running : Nat → Bool} {c : Nat}
    (there : (s.monitor c).isSome = true) : ((connectChannels env d cs s running).1.monitor c).isSome = true := by
  induction cs generalizing s running with
  | nil => exact there
  | cons c' cs ih =>
    have kept := setupChannelMonitor_keeps s env.registered (env.connects c') (d.str c' .pvName) c' there
    simp only [connectChannels]
    split
    · exact ih there
    · split <;> rename_i outcome <;> rw [outcome] at kept
      · exact kept
      · exact ih kept

/-- A loop that goes through leaves a monitor for each channel that it does not skip. -/
theorem connectChannels_monitors {cs : List Nat} {s : Channels} {running : Nat → Bool}
    (through : (connectChannels env d cs s running).2.2 = false) :
    ∀ c ∈ cs, skipsChannel d c = false → ((connectChannels env d cs s running).1.monitor c).isSome = true := by
  induction cs generalizing s running with
  | nil => simp
  | cons c' cs ih =>
    have monitor := setupChannelMonitor_monitor s env.registered (env.connects c') (d.str c' .pvName) c'
    intro c mem wanted
    simp only [connectChannels] at through ⊢
    split at through
    · rename_i skips
      rw [if_pos skips]
      rcases List.mem_cons.1 mem with rfl | mem
      · rw [wanted] at skips
        cases skips
      · exact ih through c mem wanted
    · rename_i used
      rw [if_neg used]
      split at through
      · cases through
      · rename_i s' done outcome
        rw [outcome] at monitor
        rcases List.mem_cons.1 mem with rfl | mem
        · exact connectChannels_keeps (monitor rfl)
        · exact ih through c mem wanted

end Connect

end EventTask

namespace Station

open EventTask

/-- The driver and its members after the constructor. -/
def init (u : Uninit) : Station := ⟨Sys.init u, Channels.init, fun _ => false, []⟩

/-- The connect loop of a start. -/
def connect (env : SetupEnv) (s : Station) : Channels × (Nat → Bool) × Bool :=
  connectChannels env s.sys.drv (channels (readNumChannels s.sys.drv)) s.members s.running

/-- The start of an acquisition, as far as the members are concerned. -/
def startMonitors (env : SetupEnv) (s : Station) : Station :=
  let numChannels := readNumChannels s.sys.drv
  match s.connect env with
  | (members, running, true) => { s with members := members, running := running }
  | (members, running, false) =>
    { s with
      members := members
      running := fun m => running m || members.uses (channels numChannels) m
      wanted := (channels numChannels).filter fun c => !skipsChannel s.sys.drv c }

/-- "Stop monitor here". -/
def stopMonitors (s : Station) : Station :=
  { s with running := fun m => s.running m && !s.members.uses (channels s.sys.event.numChannels) m }

/-- What a step of `eventTask` does to the members. -/
def work (env : SetupEnv) (s : Station) : Station :=
  match s.sys.event.pc with
  | .startSection =>
    match (s.sys.drv.allocArray env.callocOk).2 with
    | .success => s.startMonitors env
    | .error => s
  | .tail => s.stopMonitors
  | _ => s

/-- The step function of the driver with its members. -/
def step (s : Station) : Action → Option Station
  | .request r => if r.isEvent then none else (s.sys.serve r).map fun t => { s with sys := t }
  | .event env => (s.sys.step (.event env.start)).map fun t => { s.work env with sys := t }

/-- The request that an action is to the system. -/
def Action.toRequest : Action → Request
  | .request r => r
  | .event env => .sys (.event env.start)

variable {s s' : Station}

theorem step_request {r : Request} (h : s.step (.request r) = some s') :
    r.isEvent = false ∧ ∃ t, s.sys.serve r = some t ∧ s' = { s with sys := t } := by
  simp only [step] at h
  split at h
  · cases h
  · rename_i other
    obtain ⟨t, taken, same⟩ := Option.map_eq_some_iff.1 h
    exact ⟨Bool.eq_false_iff.2 other, t, taken, same.symm⟩

theorem step_event {env : SetupEnv} (h : s.step (.event env) = some s') :
    ∃ t, s.sys.step (.event env.start) = some t ∧ s' = { s.work env with sys := t } := by
  obtain ⟨t, taken, same⟩ := Option.map_eq_some_iff.1 h
  exact ⟨t, taken, same.symm⟩

/-- The system does not see its members. -/
theorem step_serves {a : Action} (h : s.step a = some s') : s.sys.serve a.toRequest = some s'.sys := by
  cases a with
  | request r =>
    obtain ⟨-, t, taken, rfl⟩ := step_request h
    exact taken
  | event env =>
    obtain ⟨t, taken, rfl⟩ := step_event h
    exact taken

end Station

/-- `eventTask` is between the start of the monitors and their stop. -/
def EventTask.listening (e : EventTask) : Bool :=
  match e.pc with
  | .stopWait | .stopLock | .stopSection => true
  | .tail => !e.error
  | _ => false

theorem EventTask.listening_iff {e : EventTask} :
    e.listening = true ↔ e.pc.acquiring = true ∨ e.pc = .tail ∧ e.error = false := by
  unfold listening EventPc.acquiring
  cases e.pc <;> simp

theorem EventTask.startSection_numChannels (env : StartEnv) (t : Thread) :
    (startSection env t).2.2 = readNumChannels t.drv := by
  simp only [startSection]
  split <;> rfl

/-- The step of a start: `eventTask` goes on to listen exactly if it has gone through. -/
theorem EventTask.step_startSection {env : StartEnv} {d : Driver} {e : EventTask} {r : Driver × EventTask}
    (there : e.pc = .startSection) (h : e.step env d = some r) :
    (r.2.listening = true ↔ StartOk env d) ∧ (r.2.error = false ↔ StartOk env d) ∧
      r.2.numChannels = readNumChannels d := by
  have error := startSection_error env (e.thread d)
  have numChannels := startSection_numChannels env (e.thread d)
  simp only [step, there] at h
  cases h
  refine ⟨?_, error, numChannels⟩
  rw [← show _ ↔ StartOk env d from error]
  cases (startSection env (e.thread d)).2.1 <;> simp [goto, listening]

/-- The step that ends the loop. -/
theorem EventTask.step_tail {env : StartEnv} {d : Driver} {e : EventTask} {r : Driver × EventTask}
    (there : e.pc = .tail) (h : e.step env d = some r) : r.2.pc = .drainWait := by
  simp only [step, there] at h
  cases h
  rfl

/-- The other steps of `eventTask` neither start nor stop to listen. -/
theorem EventTask.step_listening {env : StartEnv} {d : Driver} {e : EventTask} {r : Driver × EventTask}
    (start : e.pc ≠ .startSection) (tail : e.pc ≠ .tail) (clean : e.pc.acquiring = true → e.error = false)
    (h : e.step env d = some r) :
    r.2.listening = e.listening ∧ r.2.numChannels = e.numChannels ∧ (r.2.pc.acquiring = true → r.2.error = false) := by
  simp only [step] at h
  split at h <;> rename_i there <;> simp only [there, EventPc.acquiring] at clean
  case h_6 => exact absurd there start
  case h_10 => exact absurd there tail
  case h_4 =>
    split at h <;> cases h
    simp [goto, listening, there, EventPc.acquiring]
  case h_7 => split at h <;> cases h <;> simp [goto, listening, there, clean]
  all_goals
    cases h
    simp [goto, listening, there, EventPc.acquiring, clean]

/-- There are never more than four channels. -/
theorem EventTask.channel_lt {d : Driver} {c : Nat} (mem : c ∈ channels (readNumChannels d)) : c < maxChannels := by
  have below := List.mem_range.1 mem
  unfold readNumChannels at below
  split at below
  · exact below
  · omega

namespace Station

open EventTask

variable {s s' : Station}

/-- The connect loop of a start ends as the system has it. -/
theorem connect_throws (s : Station) (env : SetupEnv) :
    (s.connect env).2.2 = connectThrows env.start s.sys.drv (readNumChannels s.sys.drv) :=
  connectChannels_throws (fun _ => channel_lt) s.members s.running

/-- The monitors run exactly while `eventTask` is between their start and their stop, and each channel that the
start has connected has one. -/
structure Listens (s : Station) : Prop where
  holds : s.sys.event.Holds
  phased : s.sys.control.Phased
  clean : s.sys.event.pc.acquiring = true → s.sys.event.error = false
  quiet : s.sys.event.listening = false → ∀ m, s.running m = false
  running : s.sys.event.listening = true → ∀ m, s.running m = s.members.uses (channels s.sys.event.numChannels) m
  wanted : s.sys.event.listening = true →
    ∀ c ∈ s.wanted, c ∈ channels s.sys.event.numChannels ∧ (s.members.monitor c).isSome = true

/-- A step that neither starts nor stops the monitors. -/
theorem Listens.congr {t : Sys} (h : s.Listens) (holds : t.event.Holds) (phased : t.control.Phased)
    (error : t.event.pc.acquiring = true → t.event.error = false)
    (same : t.event.listening = s.sys.event.listening) (numChannels : t.event.numChannels = s.sys.event.numChannels) :
    Listens { s with sys := t } := by
  have below : channels t.event.numChannels = channels s.sys.event.numChannels := congrArg channels numChannels
  refine ⟨holds, phased, error, ?_, ?_, ?_⟩
  · intro off
    exact h.quiet (same.symm.trans off)
  · intro on m
    rw [below]
    exact h.running (same.symm.trans on) m
  · intro on c mem
    rw [below]
    exact h.wanted (same.symm.trans on) c mem

/-- No monitor runs through the connect loop. -/
theorem Listens.connect_running (h : s.Listens) (there : s.sys.event.pc = .startSection) (env : SetupEnv) (m : Nat) :
    (s.connect env).2.1 m = false := by
  rw [Bool.eq_false_iff]
  intro runs
  have before : s.running m = true := connectChannels_running runs
  rw [h.quiet (by simp [listening, there]) m] at before
  cases before

/-- A start that does not go through starts no monitor. -/
theorem Listens.work_failed {env : SetupEnv} (h : s.Listens) (there : s.sys.event.pc = .startSection)
    (failed : ¬ StartOk env.start s.sys.drv) (m : Nat) : (s.work env).running m = false := by
  have off := h.connect_running there env m
  have throws := s.connect_throws env
  simp only [work, there]
  split
  · rename_i allocated
    simp only [Station.startMonitors]
    split <;> rename_i outcome <;> rw [outcome] at throws off
    · exact off
    · exact absurd ⟨allocated, throws.symm⟩ failed
  · exact h.quiet (by simp [listening, there]) m

/-- A start that goes through starts the monitors of its channels, among which are those of
the channels that it has connected. -/
theorem Listens.work_started {env : SetupEnv} (h : s.Listens) (there : s.sys.event.pc = .startSection)
    (ok : StartOk env.start s.sys.drv) :
    (∀ m, (s.work env).running m = (s.work env).members.uses (channels (readNumChannels s.sys.drv)) m) ∧
      ∀ c ∈ (s.work env).wanted, c ∈ channels (readNumChannels s.sys.drv) ∧
        ((s.work env).members.monitor c).isSome = true := by
  have off := h.connect_running there env
  have throws := s.connect_throws env
  have monitors := connectChannels_monitors (throws.trans ok.2)
  simp only [work, there, show (s.sys.drv.allocArray env.callocOk).2 = .success from ok.1, Station.startMonitors]
  split <;> rename_i members running outcome
  · rw [outcome] at throws
    cases throws.trans ok.2
  · rw [outcome] at off
    rw [← connect, outcome] at monitors
    constructor
    · intro m
      have silent : running m = false := off m
      simp only [silent, Bool.false_or]
    · intro c mem
      obtain ⟨below, used⟩ := List.mem_filter.1 mem
      exact ⟨below, monitors c below (by simpa using used)⟩

/-- **The start section.** -/
theorem Listens.startMonitors {env : SetupEnv} {t : Sys} (h : s.Listens) (there : s.sys.event.pc = .startSection)
    (hs : s.sys.step (.event env.start) = some t) : Listens { s.work env with sys := t } := by
  obtain ⟨holds, phased⟩ := Sys.serve_phased (r := .sys (.event env.start)) h.holds h.phased hs
  obtain ⟨r, taken, rfl⟩ := Sys.step_eventTask hs
  obtain ⟨listens, error, numChannels⟩ := step_startSection there taken
  have below : channels r.2.numChannels = channels (readNumChannels s.sys.drv) := congrArg channels numChannels
  refine ⟨holds, phased, ?_, ?_, ?_, ?_⟩
  · intro acquiring
    exact error.2 (listens.1 (listening_iff.2 (.inl acquiring)))
  · intro off
    exact h.work_failed there fun ok => Bool.eq_false_iff.1 off (listens.2 ok)
  · intro on m
    rw [below]
    exact (h.work_started there (listens.1 on)).1 m
  · intro on c mem
    rw [below]
    exact (h.work_started there (listens.1 on)).2 c mem

/-- **The end of the loop.** -/
theorem Listens.stopMonitors {env : SetupEnv} {t : Sys} (h : s.Listens) (there : s.sys.event.pc = .tail)
    (hs : s.sys.step (.event env.start) = some t) : Listens { s.work env with sys := t } := by
  obtain ⟨holds, phased⟩ := Sys.serve_phased (r := .sys (.event env.start)) h.holds h.phased hs
  obtain ⟨r, taken, rfl⟩ := Sys.step_eventTask hs
  have outside : r.2.pc = .drainWait := step_tail there taken
  have off : r.2.listening = false := by simp [listening, outside]
  refine ⟨holds, phased, ?_, ?_, ?_, ?_⟩
  · intro acquiring
    rw [outside] at acquiring
    cases acquiring
  · intro _ m
    simp only [work, there, Station.stopMonitors]
    cases on : s.sys.event.listening with
    | false => rw [h.quiet on m, Bool.false_and]
    | true => rw [h.running on m, Bool.and_not_self]
  · intro on
    cases off.symm.trans on
  · intro on
    cases off.symm.trans on

/-- **One action.** -/
theorem step_listens {a : Action} (h : s.Listens) (hs : s.step a = some s') : s'.Listens := by
  obtain ⟨holds, phased⟩ := Sys.serve_phased h.holds h.phased (step_serves hs)
  cases a with
  | request r =>
    obtain ⟨other, t, taken, rfl⟩ := step_request hs
    have event := Sys.serve_event taken other
    exact h.congr holds phased (by rw [event]; exact h.clean) (congrArg listening event) (congrArg EventTask.numChannels event)
  | event env =>
    obtain ⟨t, taken, rfl⟩ := step_event hs
    by_cases start : s.sys.event.pc = .startSection
    · exact h.startMonitors start taken
    by_cases tail : s.sys.event.pc = .tail
    · exact h.stopMonitors tail taken
    have idle : s.work env = s := by
      unfold work
      split
      · rename_i there
        exact absurd there start
      · rename_i there
        exact absurd there tail
      · rfl
    obtain ⟨r, moved, rfl⟩ := Sys.step_eventTask taken
    obtain ⟨same, numChannels, clean⟩ := step_listening start tail h.clean moved
    rw [idle]
    exact h.congr holds phased clean same numChannels

theorem listens_init (u : Uninit) : (init u).Listens where
  holds := .inl rfl
  phased := Control.phased_init u
  clean := fun acquiring => by cases acquiring
  quiet := fun _ _ => rfl
  running := fun on => by cases on
  wanted := fun on => by cases on

/-- **The monitors run during an acquisition.** In every interleaving, a monitor runs only during an acquisition
and in the step of `eventTask` that ends it. During an acquisition, the monitors that run are those of the channels
below the number read at its start, and each channel that its start has connected is among these. -/
theorem listens_while_acquiring {u : Uninit} {as : List Action} (reached : Runs.run step (init u) as = some s) :
    (∀ m, s.running m = true → s.sys.drv.adStatus = .acquire ∨ s.sys.event.pc = .tail) ∧
      (s.sys.drv.adStatus = .acquire →
        (∀ m, s.running m = true ↔ ∃ c ∈ channels s.sys.event.numChannels, s.members.monitor c = some m) ∧
          ∀ c ∈ s.wanted, ∃ m, s.members.monitor c = some m ∧ s.running m = true) := by
  have listens := Runs.run_invariant Listens (fun _ _ _ => step_listens) reached (listens_init u)
  have acquiring : s.sys.drv.adStatus = .acquire ↔ s.sys.event.pc.acquiring = true := listens.phased.acquiring
  constructor
  · intro m runs
    have on : s.sys.event.listening = true := by
      rw [← Bool.not_eq_false]
      intro off
      rw [listens.quiet off m] at runs
      cases runs
    rcases listening_iff.1 on with inside | tail
    · exact .inl (acquiring.2 inside)
    · exact .inr tail.1
  · intro status
    have on := listening_iff.2 (.inl (acquiring.1 status))
    have running : ∀ m, s.running m = true ↔ ∃ c ∈ channels s.sys.event.numChannels, s.members.monitor c = some m := by
      intro m
      rw [listens.running on m, Channels.uses_iff]
    refine ⟨running, ?_⟩
    intro c mem
    obtain ⟨below, there⟩ := listens.wanted on c mem
    obtain ⟨m, monitor⟩ := Option.isSome_iff_exists.1 there
    exact ⟨m, monitor, (running m).2 ⟨c, below, monitor⟩⟩

/-- A step of `eventTask` in which everything goes well. -/
def setupStep : Action := .event ⟨true, true, fun _ => true⟩

/-- A file that is not read. -/
def noFile : FileEnv := ⟨.unreadable, true, true, fun _ => none⟩

/-- Two channels are connected for a first acquisition; the first of them is then switched off. -/
def switchedOff : List Action :=
  [.request (.sys (.write 0 .numDet 1 true)), .request (.sys (.write 1 .pixelNumSize 2 true)),
    .request (.sys (.write 0 .numChannels 2 true)), .request (.octet 0 .pvName "neutrons" false noFile),
    .request (.octet 1 .pvName "chopper" false noFile), setupStep, setupStep, setupStep,
    .request (.sys Sys.startWrite), setupStep, setupStep, setupStep, .request (.sys Sys.stopWrite), setupStep, setupStep,
    setupStep, setupStep, .request (.octet 0 .pvName "0" false noFile), setupStep, setupStep, setupStep,
    .request (.sys Sys.startWrite), setupStep, setupStep, setupStep]

/-- The first channel is not connected again, and its monitor runs as before. -/
theorem listens_while_acquiring_switchedOff : ∃ s, Runs.run step (init .blank) switchedOff = some s ∧
    s.sys.drv.adStatus = .acquire ∧ s.sys.drv.str 0 .pvName = "0" ∧ s.wanted = [1] ∧
    s.members.monitor 0 = some 0 ∧ s.running 0 = true ∧
    ∀ c ∈ s.wanted, ∃ m, s.members.monitor c = some m ∧ s.running m = true := by
  have state : (Runs.run step (init .blank) switchedOff).map (fun s =>
      (s.sys.drv.adStatus, s.sys.drv.str 0 .pvName, s.wanted, s.members.monitor 0, s.sys.event.numChannels)) =
      some (.acquire, "0", [1], some 0, 2) := by
    decide +kernel
  obtain ⟨s, reached, state⟩ := Option.map_eq_some_iff.1 state
  simp only [Prod.mk.injEq] at state
  obtain ⟨status, name, wanted, monitor, two⟩ := state
  obtain ⟨running, each⟩ := (listens_while_acquiring reached).2 status
  have runs : s.running 0 = true := (running 0).2 ⟨0, by rw [two]; decide, monitor⟩
  exact ⟨s, reached, status, name, wanted, monitor, runs, each⟩

end Station

end ADnED
