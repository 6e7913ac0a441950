/-
**The interrupt of a pin.**

`gpio_event_processing` goes through the devices of the platform.  For each one whose pin it is, it
runs the service routine of the device, posts an event for the dispatcher and switches the callback
of the pin on again.  Several devices may share a pin.

The configuration of a pin is reached through a pointer that is set when the platform starts, and
neither the fan nor the processor has one.  The loop follows the pointer of every device, before it
knows whether the pin is the device's.  And the type of the event stands in a variable that a device
of an unknown type leaves as it was.

Main definitions:

* `PlatformDevice` — a device with its configuration, if it has one;
* `gpioEventLoop` — the loop; there is no result when it follows a null pointer;
* `GpioServed` — exactly the devices on the pin are served, with the right events;
* `platformDevicesDefault`, `platformDevicesWithoutCpuThermal` — the two tables of the platform.

Main results:

* `gpioEventLoop_eq_none_iff` — the loop fails exactly when a device has no configuration;
* `gpioSteps_loop`, `gpioSteps_fault` — the steps of the dispatcher do what the loop does;
* `gpioExact_iff` — **exactly the devices on the pin are served if and only if every device has a
  configuration, those on the pin have an event, and the queue has room for them**;
* `not_gpioExact_default`, `not_gpioExact_withoutCpuThermal` — with the tables of the platform it is
  never so;
* `platform_lost` — and the first interrupt of the USB-C controller is the last one.
-/

import PseFw.Eclite.Dispatcher

set_option relaxedAutoImplicit false
set_option autoImplicit false

namespace PseFw.Eclite

/-! ### The devices -/

/-- `struct gpio_config_t`. -/
structure GpioConfig where
  pinBitMask : UInt32
  dir : UInt32
  pullDownEn : UInt8
  intrType : UInt32
  deriving DecidableEq, Repr

/-- `struct platform_gpio_config`. -/
structure PlatformGpioConfig where
  gpioNo : UInt32
  gpioConfig : GpioConfig
  deriving DecidableEq, Repr

/-- `struct eclite_device` with its `struct hw_configuration`: the configuration of the pin and the
port, if the pointers are set, and whether there is a service routine. -/
structure PlatformDevice where
  deviceTyp : DeviceType
  gpioConfig : Option PlatformGpioConfig
  gpioDev : Option ℕ
  isr : Bool
  deriving DecidableEq, Repr

/-- What the loop does: the devices whose service routines ran, the queue, and the callbacks that
were switched on, each with its port, its pin and its flags. -/
structure GpioRun where
  isrs : List PlatformDevice
  queue : List DispatcherQueueData
  callbacks : List (ℕ × UInt32 × UInt32)
  deriving DecidableEq, Repr

/-- The flags with which a callback is switched on. -/
def GpioConfig.flags (c : GpioConfig) : UInt32 := c.dir ||| c.pullDownEn.toUInt32 ||| c.intrType

/-- A device whose pin it is: the service routine, the event, the callback. -/
def serveDevice (pin : UInt32) (d : PlatformDevice) (cfg : PlatformGpioConfig)
    (event : EcliteEvents) (x : GpioRun) : GpioRun where
  isrs := if d.isr = true then x.isrs ++ [d] else x.isrs
  queue := eclitePostDispatcherEvent ⟨event, 0⟩ x.queue
  callbacks := match d.gpioDev with
    | none => x.callbacks
    | some port => x.callbacks ++ [(port, pin, cfg.gpioConfig.flags)]

/-- The loop of `gpio_event_processing`; `event` is what stands in the variable for the event. -/
def gpioEventLoop (pin : UInt32) :
    List PlatformDevice → EcliteEvents → GpioRun → Option GpioRun
  | [], _, x => some x
  | d :: ds, event, x =>
      match d.gpioConfig with
      | none => none
      | some cfg =>
          if pin = cfg.gpioNo then
            gpioEventLoop pin ds (d.deviceTyp.event event)
              (serveDevice pin d cfg (d.deviceTyp.event event) x)
          else gpioEventLoop pin ds event x

/-! ### What is wanted -/

/-- The device is configured on the pin. -/
def PlatformDevice.OnPin (pin : UInt32) (d : PlatformDevice) : Bool :=
  d.gpioConfig.any fun cfg => decide (cfg.gpioNo = pin)

/-- The event the dispatcher handles a device with, if it has one for it. -/
def DeviceType.rightEvent : DeviceType → Option EcliteEvents
  | .chg => some .chg
  | .fg => some .fg
  | .thermal | .fan => some .thermal
  | .ucsi => some .ucsi
  | .tacho | .thermalCpu => none

/-- The callback of a device that has a port. -/
def PlatformDevice.callback (pin : UInt32) (d : PlatformDevice) :
    Option (ℕ × UInt32 × UInt32) :=
  match d.gpioDev, d.gpioConfig with
  | some port, some cfg => some (port, pin, cfg.gpioConfig.flags)
  | _, _ => none

/-- **Exactly the devices on the pin are served**: their service routines have run, one event of the
right type stands in the queue for each, and their callbacks are on. -/
structure GpioServed (pin : UInt32) (devices : List PlatformDevice) (x x' : GpioRun) : Prop where
  isrs : x'.isrs = x.isrs ++ (devices.filter (·.OnPin pin)).filter (·.isr)
  posted : ∃ events : List EcliteEvents,
    (devices.filter (·.OnPin pin)).map (·.deviceTyp.rightEvent) = events.map some ∧
      x'.queue = x.queue ++ events.map (⟨·, 0⟩)
  callbacks : x'.callbacks = x.callbacks ++
    (devices.filter (·.OnPin pin)).filterMap (·.callback pin)

/-- The loop serves exactly the devices on the pin, whatever stands in the variable. -/
def GpioExact (pin : UInt32) (devices : List PlatformDevice) (x : GpioRun) : Prop :=
  ∀ event, ∃ x', gpioEventLoop pin devices event x = some x' ∧ GpioServed pin devices x x'

/-- There is room in the queue for so many events. -/
def RoomFor (n : ℕ) (queue : List DispatcherQueueData) : Prop :=
  n = 0 ∨ queue.length + n ≤ ecliteQueueDepth

variable {pin : UInt32} {d : PlatformDevice} {devices : List PlatformDevice} {x : GpioRun}
variable {event : EcliteEvents}

/-! ### The loop -/

/-- The events of the devices on the pin, with what a device of another type leaves. -/
def eventsOnPin (pin : UInt32) : List PlatformDevice → EcliteEvents → List EcliteEvents
  | [], _ => []
  | d :: ds, event =>
      if d.OnPin pin = true then
        d.deviceTyp.event event :: eventsOnPin pin ds (d.deviceTyp.event event)
      else eventsOnPin pin ds event

theorem onPin_of_config {cfg : PlatformGpioConfig} (h : d.gpioConfig = some cfg) :
    d.OnPin pin = decide (cfg.gpioNo = pin) := by
  unfold PlatformDevice.OnPin
  rw [h, Option.any_some]

/-- **The loop fails exactly when a device has no configuration**, whichever pin it is. -/
theorem gpioEventLoop_eq_none_iff :
    gpioEventLoop pin devices event x = none ↔ ∃ d ∈ devices, d.gpioConfig = none := by
  induction devices generalizing event x with
  | nil =>
      refine iff_of_false (fun h => ?_) fun ⟨d, hd, _⟩ => List.not_mem_nil hd
      cases h
  | cons d ds ih =>
      rw [List.exists_mem_cons_iff]
      unfold gpioEventLoop
      cases hcfg : d.gpioConfig with
      | none => exact iff_of_true rfl (Or.inl rfl)
      | some cfg =>
          simp only
          have hd : ¬ some cfg = none := fun h => Option.some_ne_none cfg h
          split
          · rw [ih, or_iff_right hd]
          · rw [ih, or_iff_right hd]

/-- What the loop does, when all devices have a configuration. -/
theorem gpioEventLoop_eq (h : ∀ d ∈ devices, d.gpioConfig ≠ none) :
    gpioEventLoop pin devices event x = some
      { isrs := x.isrs ++ (devices.filter (·.OnPin pin)).filter (·.isr)
        queue := (eventsOnPin pin devices event).foldl
          (fun queue e => eclitePostDispatcherEvent ⟨e, 0⟩ queue) x.queue
        callbacks := x.callbacks ++
          (devices.filter (·.OnPin pin)).filterMap (·.callback pin) } := by
  induction devices generalizing event x with
  | nil =>
      unfold gpioEventLoop eventsOnPin
      simp only [List.filter_nil, List.filterMap_nil, List.append_nil, List.foldl_nil]
  | cons d ds ih =>
      obtain ⟨hd, hds⟩ := List.forall_mem_cons.1 h
      obtain ⟨cfg, hcfg⟩ := Option.ne_none_iff_exists'.1 hd
      have hon : d.OnPin pin = decide (cfg.gpioNo = pin) := onPin_of_config hcfg
      unfold gpioEventLoop eventsOnPin
      rw [hcfg]
      simp only
      by_cases hpin : pin = cfg.gpioNo
      · have htrue : d.OnPin pin = true := hon.trans (decide_eq_true hpin.symm)
        rw [if_pos hpin, if_pos htrue, ih hds, List.filter_cons_of_pos htrue, List.foldl_cons]
        unfold serveDevice PlatformDevice.callback
        cases hisr : d.isr <;> cases hdev : d.gpioDev <;>
          simp [hisr, hdev, hcfg]
      · have hfalse : ¬ d.OnPin pin = true := by
          rw [hon, decide_eq_true_eq]
          exact fun h => hpin h.symm
        rw [if_neg hpin, if_neg hfalse, ih hds, List.filter_cons_of_neg hfalse]

/-! ### The events and the queue -/

/-- An event of the right type does not depend on what stands in the variable. -/
theorem event_of_rightEvent {t : DeviceType} {e : EcliteEvents} (h : t.rightEvent = some e) :
    t.event event = e := by
  cases t with
  | chg => exact Option.some.inj h
  | fg => exact Option.some.inj h
  | fan => exact Option.some.inj h
  | thermal => exact Option.some.inj h
  | ucsi => exact Option.some.inj h
  | tacho => cases h
  | thermalCpu => cases h

theorem length_eventsOnPin (devices : List PlatformDevice) (event : EcliteEvents) :
    (eventsOnPin pin devices event).length = (devices.filter (·.OnPin pin)).length := by
  induction devices generalizing event with
  | nil => rfl
  | cons d ds ih =>
      unfold eventsOnPin
      by_cases hon : d.OnPin pin = true
      · rw [if_pos hon, List.filter_cons_of_pos hon, List.length_cons, List.length_cons, ih]
      · rw [if_neg hon, List.filter_cons_of_neg hon, ih]

/-- When every device on the pin has an event, these are the events that are posted. -/
theorem eventsOnPin_right (event : EcliteEvents)
    (h : ∀ d ∈ devices, d.OnPin pin = true → d.deviceTyp.rightEvent ≠ none) :
    (devices.filter (·.OnPin pin)).map (·.deviceTyp.rightEvent) =
      (eventsOnPin pin devices event).map some := by
  induction devices generalizing event with
  | nil => rfl
  | cons d ds ih =>
      obtain ⟨hd, hds⟩ := List.forall_mem_cons.1 h
      unfold eventsOnPin
      by_cases hon : d.OnPin pin = true
      · obtain ⟨e, he⟩ := Option.ne_none_iff_exists'.1 (hd hon)
        rw [if_pos hon, List.filter_cons_of_pos hon, List.map_cons, List.map_cons, ← ih _ hds, he,
          event_of_rightEvent he]
      · rw [if_neg hon, List.filter_cons_of_neg hon, ih _ hds]

/-- The queue behind the events, one after the other. -/
def postAll (events : List EcliteEvents) (queue : List DispatcherQueueData) :
    List DispatcherQueueData :=
  events.foldl (fun queue e => eclitePostDispatcherEvent ⟨e, 0⟩ queue) queue

theorem length_postAll_le (events : List EcliteEvents) (queue : List DispatcherQueueData) :
    (postAll events queue).length ≤ max queue.length ecliteQueueDepth := by
  induction events generalizing queue with
  | nil => exact le_max_left _ _
  | cons e events ih =>
      refine (ih (eclitePostDispatcherEvent ⟨e, 0⟩ queue)).trans (max_le ?_ (le_max_right _ _))
      unfold eclitePostDispatcherEvent
      split
      · rw [List.length_append, List.length_singleton]
        exact le_max_of_le_right (by omega)
      · exact le_max_left _ _

/-- **All events are in the queue exactly when there was room for them.** -/
theorem postAll_eq_iff (events : List EcliteEvents) (queue : List DispatcherQueueData) :
    postAll events queue = queue ++ events.map (⟨·, 0⟩) ↔ RoomFor events.length queue := by
  constructor
  · intro h
    have hlen := length_postAll_le events queue
    rw [h, List.length_append, List.length_map] at hlen
    unfold RoomFor
    omega
  · intro h
    induction events generalizing queue with
    | nil => exact (List.append_nil queue).symm
    | cons e events ih =>
        rw [RoomFor, List.length_cons] at h
        have hroom : queue.length < ecliteQueueDepth := by omega
        have hpost : eclitePostDispatcherEvent ⟨e, 0⟩ queue = queue ++ [⟨e, 0⟩] := if_pos hroom
        have hrest : RoomFor events.length (queue ++ [⟨e, 0⟩]) := by
          rw [RoomFor, List.length_append, List.length_singleton]
          omega
        show postAll events (eclitePostDispatcherEvent ⟨e, 0⟩ queue) = _
        rw [hpost, ih _ hrest, List.append_assoc, List.map_cons]
        rfl

/-! ### The devices on the pin -/

/-- **Exactly the devices on the pin are served, if and only if every device of the list has a
configuration, every device on the pin has an event, and there is room for these events.** -/
theorem gpioExact_iff (pin : UInt32) (devices : List PlatformDevice) (x : GpioRun) :
    GpioExact pin devices x ↔ (∀ d ∈ devices, d.gpioConfig ≠ none) ∧
      (∀ d ∈ devices, d.OnPin pin = true → d.deviceTyp.rightEvent ≠ none) ∧
      RoomFor (devices.filter (·.OnPin pin)).length x.queue := by
  constructor
  · intro h
    obtain ⟨x', hloop, hserved⟩ := h .heci
    have hcfg : ∀ d ∈ devices, d.gpioConfig ≠ none := by
      intro d hd hnone
      rw [gpioEventLoop_eq_none_iff.2 ⟨d, hd, hnone⟩] at hloop
      cases hloop
    rw [gpioEventLoop_eq hcfg] at hloop
    obtain rfl := Option.some.inj hloop
    obtain ⟨events, hright, hqueue⟩ := hserved.posted
    have hevent : ∀ d ∈ devices, d.OnPin pin = true → d.deviceTyp.rightEvent ≠ none := by
      intro d hd hon hnone
      have hmem : none ∈ events.map some := by
        rw [← hright, ← hnone]
        exact List.mem_map_of_mem (List.mem_filter.2 ⟨hd, hon⟩)
      obtain ⟨e, -, he⟩ := List.mem_map.1 hmem
      cases he
    -- so these are the events that were posted
    have heq : events = eventsOnPin pin devices .heci :=
      List.map_injective_iff.2 (Option.some_injective _)
        (hright.symm.trans (eventsOnPin_right .heci hevent))
    rw [heq] at hqueue
    refine ⟨hcfg, hevent, ?_⟩
    rw [← length_eventsOnPin devices .heci]
    exact (postAll_eq_iff _ _).1 hqueue
  · rintro ⟨hcfg, hevent, hroom⟩ event
    refine ⟨_, gpioEventLoop_eq hcfg, rfl, ⟨_, eventsOnPin_right event hevent, ?_⟩, rfl⟩
    rw [← length_eventsOnPin devices event] at hroom
    exact (postAll_eq_iff _ _).2 hroom

/-! ### The steps of the dispatcher -/

/-- The device as the dispatcher sees it. -/
def PlatformDevice.toEclite (d : PlatformDevice) : EcliteDevice :=
  ⟨d.deviceTyp, d.gpioDev, d.gpioConfig.map fun cfg => cfg.gpioNo.toNat⟩

/-- So many steps of the loop of the dispatcher. -/
def gpioSteps : ℕ → EcliteSys → Option EcliteSys
  | 0, s => some s
  | n + 1, s => (gpioEventProcessing s).bind (gpioSteps n)

theorem gpioSteps_succ {n : ℕ} {s s' : EcliteSys} (h : gpioEventProcessing s = some s') :
    gpioSteps (n + 1) s = gpioSteps n s' := by
  rw [gpioSteps, h, Option.bind_some]

/-- A device on another pin takes one step. -/
theorem gpioStep_skip {e : EcliteDevice} {rest : List EcliteDevice} {s : EcliteSys} {no : ℕ}
    (hphase : s.phase = .gpio pin.toNat event (e :: rest)) (hno : e.gpioNo = some no)
    (hpin : pin.toNat ≠ no) :
    gpioEventProcessing s = some { s with phase := .gpio pin.toNat event rest } := by
  rw [gpioEventProcessing, hphase]
  simp only [hno]
  exact if_neg hpin

/-- A device on the pin takes two half rounds: the event, and the callback. -/
theorem gpioStep_serve {e : EcliteDevice} {rest : List EcliteDevice} {s : EcliteSys}
    (hphase : s.phase = .gpio pin.toNat event (e :: rest)) (hno : e.gpioNo = some pin.toNat) :
    ∃ s₁ s₂, gpioEventProcessing s = some s₁ ∧ gpioEventProcessing s₁ = some s₂ ∧
      s₂.queue = eclitePostDispatcherEvent ⟨e.deviceTyp.event event, 0⟩ s.queue ∧
      s₂.phase = .gpio pin.toNat (e.deviceTyp.event event) rest := by
  let s₁ : EcliteSys := { s.post ⟨e.deviceTyp.event event, 0⟩ with
    phase := .gpioPosted pin.toNat (e.deviceTyp.event event) e rest }
  have hstep₁ : gpioEventProcessing s = some s₁ := by
    rw [gpioEventProcessing, hphase]
    simp only [hno]
    exact if_pos trivial
  cases hdev : e.gpioDev with
  | none =>
      refine ⟨s₁, { s₁ with phase := .gpio pin.toNat (e.deviceTyp.event event) rest },
        hstep₁, ?_, rfl, rfl⟩
      simp only [gpioEventProcessing, s₁, hdev]
  | some port =>
      refine ⟨s₁, { s₁.setCallback port pin.toNat true with
        phase := .gpio pin.toNat (e.deviceTyp.event event) rest }, hstep₁, ?_, rfl, rfl⟩
      simp only [gpioEventProcessing, s₁, hdev]

/-- The end of the steps of the dispatcher, for what the loop returns. -/
def EndsLike (r : Option GpioRun) (s' : EcliteSys) : Prop :=
  match r with
  | none => s'.phase = .fault
  | some x' => s'.phase = .waiting ∧ s'.queue = x'.queue

/-- **The steps of the dispatcher do what the loop does**: they come to an end with the same queue,
or to the pointer the loop cannot follow. -/
theorem gpioSteps_loop {s : EcliteSys} (hqueue : s.queue = x.queue)
    (hphase : s.phase = .gpio pin.toNat event (devices.map PlatformDevice.toEclite)) :
    ∃ n s', gpioSteps n s = some s' ∧ EndsLike (gpioEventLoop pin devices event x) s' := by
  induction devices generalizing event x s with
  | nil =>
      refine ⟨1, { s with phase := .waiting }, ?_, rfl, hqueue⟩
      rw [gpioSteps, gpioEventProcessing, hphase]
      rfl
  | cons d ds ih =>
      rw [List.map_cons] at hphase
      unfold gpioEventLoop
      cases hcfg : d.gpioConfig with
      | none =>
          have hno : d.toEclite.gpioNo = none := congrArg (Option.map _) hcfg
          refine ⟨1, { s with phase := .fault }, ?_, rfl⟩
          rw [gpioSteps, gpioEventProcessing, hphase]
          simp only [hno]
          rfl
      | some cfg =>
          have hno : d.toEclite.gpioNo = some cfg.gpioNo.toNat := congrArg (Option.map _) hcfg
          by_cases hpin : pin = cfg.gpioNo
          · simp only [if_pos hpin]
            obtain ⟨s₁, s₂, hstep₁, hstep₂, hqueue₂, hphase₂⟩ :=
              gpioStep_serve hphase (hpin ▸ hno)
            have hqueue' : s₂.queue =
                (serveDevice pin d cfg (d.deviceTyp.event event) x).queue := by
              rw [hqueue₂, hqueue]
              rfl
            obtain ⟨n, s', hrun, hend⟩ := ih hqueue' hphase₂
            exact ⟨n + 2, s', (gpioSteps_succ hstep₁).trans ((gpioSteps_succ hstep₂).trans hrun),
              hend⟩
          · simp only [if_neg hpin]
            have hstep := gpioStep_skip hphase hno fun heq => hpin (UInt32.toNat_inj.1 heq)
            have hrest : ({ s with
                phase := .gpio pin.toNat event (ds.map PlatformDevice.toEclite) } :
                EcliteSys).queue = x.queue := hqueue
            obtain ⟨n, s', hrun, hend⟩ := ih hrest rfl
            exact ⟨n + 1, s', (gpioSteps_succ hstep).trans hrun, hend⟩

/-- With a device that has no configuration the dispatcher comes to the null pointer. -/
theorem gpioSteps_fault {s : EcliteSys} (hd : d ∈ devices) (hcfg : d.gpioConfig = none)
    (hphase : s.phase = .gpio pin.toNat event (devices.map PlatformDevice.toEclite)) :
    ∃ n s', gpioSteps n s = some s' ∧ s'.phase = .fault := by
  obtain ⟨n, s', hrun, hend⟩ := gpioSteps_loop (x := ⟨[], s.queue, []⟩) rfl hphase
  rw [gpioEventLoop_eq_none_iff.2 ⟨d, hd, hcfg⟩] at hend
  exact ⟨n, s', hrun, hend⟩

/-! ### The platform

The numbers of the pins are the defaults of the configuration. -/

/-- The flags of the platform: an input, and the edges that interrupt. -/
structure GpioFlags where
  gpioInput : UInt32
  gpioIntEdgeRising : UInt32
  gpioIntEdgeFalling : UInt32
  gpioIntEdgeBoth : UInt32

section

variable (flags : GpioFlags) (gpio0 gpio1 : Option ℕ)

/-- The configuration of an input that interrupts at some edge. -/
def inputConfig (gpioNo : UInt32) (intrType : UInt32) : PlatformGpioConfig :=
  ⟨gpioNo, ⟨1 <<< gpioNo, flags.gpioInput, 0, intrType⟩⟩

/-- `battery_gpio_config`. -/
def batteryGpioConfig : PlatformGpioConfig := inputConfig flags 13 flags.gpioIntEdgeRising

/-- `charger_gpio_config`. -/
def chargerGpioConfig : PlatformGpioConfig := inputConfig flags 10 flags.gpioIntEdgeBoth

/-- `thermal_1_gpio_config` and the three like it. -/
def thermalGpioConfig : PlatformGpioConfig := inputConfig flags 12 flags.gpioIntEdgeFalling

/-- `ucsi_gpio_config`. -/
def ucsiGpioConfig : PlatformGpioConfig := inputConfig flags 14 flags.gpioIntEdgeFalling

/-- `bq40z40_device_fg`, when the platform has started. -/
def bq40z40DeviceFg : PlatformDevice := ⟨.fg, some (batteryGpioConfig flags), gpio0, true⟩

/-- `bq24610_device_charger`, when the platform has started. -/
def bq24610DeviceCharger : PlatformDevice := ⟨.chg, some (chargerGpioConfig flags), gpio0, true⟩

/-- `tmp102_sensor1` and the three like it, when the platform has started. -/
def tmp102Sensor : PlatformDevice := ⟨.thermal, some (thermalGpioConfig flags), gpio1, true⟩

/-- `ccg_pd_device`, when the platform has started. -/
def ccgPdDevice : PlatformDevice := ⟨.ucsi, some (ucsiGpioConfig flags), gpio1, true⟩

end

/-- `thermal_cpu`: nobody sets its pointers. -/
def thermalCpu : PlatformDevice := ⟨.thermalCpu, none, none, true⟩

/-- `fan_device`: nobody sets its pointers. -/
def fanDevice : PlatformDevice := ⟨.fan, none, none, true⟩

/-- `platform_devices_default`; the last two arguments are the two ports. -/
def platformDevicesDefault (flags : GpioFlags) (gpio0 gpio1 : Option ℕ) : List PlatformDevice :=
  [bq40z40DeviceFg flags gpio0, bq24610DeviceCharger flags gpio0, tmp102Sensor flags gpio1,
    tmp102Sensor flags gpio1, tmp102Sensor flags gpio1, tmp102Sensor flags gpio1, thermalCpu,
    fanDevice, ccgPdDevice flags gpio1]

/-- `platform_devices_without_cpu_thermal`. -/
def platformDevicesWithoutCpuThermal (flags : GpioFlags) (gpio0 gpio1 : Option ℕ) :
    List PlatformDevice :=
  [bq40z40DeviceFg flags gpio0, bq24610DeviceCharger flags gpio0, tmp102Sensor flags gpio1,
    tmp102Sensor flags gpio1, tmp102Sensor flags gpio1, tmp102Sensor flags gpio1, fanDevice,
    ccgPdDevice flags gpio1]

/-- A list with a device without a configuration is never served. -/
theorem not_gpioExact_of_none (hd : d ∈ devices) (h : d.gpioConfig = none) :
    ¬ GpioExact pin devices x := by
  intro hexact
  obtain ⟨x', hloop, -⟩ := hexact .heci
  rw [gpioEventLoop_eq_none_iff.2 ⟨d, hd, h⟩] at hloop
  cases hloop

/-- **With the tables of the platform the loop never comes to its end**, whichever pin it is. -/
theorem not_gpioExact_default (flags : GpioFlags) (gpio0 gpio1 : Option ℕ) :
    ¬ GpioExact pin (platformDevicesDefault flags gpio0 gpio1) x := by
  refine not_gpioExact_of_none (d := fanDevice) ?_ rfl
  simp only [platformDevicesDefault, List.mem_cons, true_or, or_true]

theorem not_gpioExact_withoutCpuThermal (flags : GpioFlags) (gpio0 gpio1 : Option ℕ) :
    ¬ GpioExact pin (platformDevicesWithoutCpuThermal flags gpio0 gpio1) x := by
  refine not_gpioExact_of_none (d := fanDevice) ?_ rfl
  simp only [platformDevicesWithoutCpuThermal, List.mem_cons, true_or, or_true]

/-- **The first interrupt of the USB-C controller is the last one**: its callback is off, and the
dispatcher has come to the null pointer of a device before it. -/
theorem platform_lost (flags : GpioFlags) (gpio0 : Option ℕ) (port : ℕ) (cpuThermalEnable : Bool) :
    ∃ x, Lts.Reach EcliteInit (ecliteStep
        ((platformDevicesDefault flags gpio0 (some port)).map (·.toEclite)) cpuThermalEnable)
        Lts.Free x ∧
      ¬ NoLostEvent ((platformDevicesDefault flags gpio0 (some port)).map (·.toEclite)) x := by
  let acts : List EcliteAct := [.gpioIsr port 14, .get .heci] ++ List.replicate 7 .gpioNext
  have hrun : Lts.run (ecliteStep
      ((platformDevicesDefault flags gpio0 (some port)).map (·.toEclite)) cpuThermalEnable)
      idleSys acts = some { idleSys.setCallback port 14 false with phase := .fault } := rfl
  refine ⟨_, (Lts.Reach.init ecliteInit_idleSys).run hrun, fun h => ?_⟩
  have hmem : (ccgPdDevice flags (some port)).toEclite ∈
      (platformDevicesDefault flags gpio0 (some port)).map (·.toEclite) := by
    refine List.mem_map_of_mem ?_
    simp only [platformDevicesDefault, List.mem_cons, true_or, or_true]
  have hoff : (idleSys.setCallback port 14 false).enabled port 14 = false := if_pos ⟨rfl, rfl⟩
  rcases h.gpio _ hmem port 14 rfl rfl hoff with hq | hq
  · exact List.not_mem_nil hq
  · exact Option.some_ne_none _ hq.symm

/-- The pin of the fuel gauge, with a table that ends with the fan. -/
theorem not_gpioExact_battery : ¬ ∀ (pin : UInt32) (devices : List PlatformDevice) (x : GpioRun),
    GpioExact pin devices x := by
  intro h
  obtain ⟨x', hloop, -⟩ :=
    h 13 [bq40z40DeviceFg ⟨1, 2, 4, 6⟩ (some 0), fanDevice] ⟨[], [], []⟩ .heci
  cases hloop

end PseFw.Eclite
