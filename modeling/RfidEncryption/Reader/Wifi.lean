import RfidEncryption.Reactive.Machine
import RfidEncryption.Reactive.Past

/-! How `event_handler` joins the access point again, and when it gives up. -/

namespace Rfid

open Reactive

/-- The events `event_handler` is registered for. -/
inductive WifiEvent where
  | staStart
  | staDisconnected
  | gotIp
  /-- Any other Wi-Fi event. -/
  | other
  deriving DecidableEq, Repr

/-- `s_retry_num`, and the bits of `s_wifi_event_group`. -/
structure Wifi where
  retryNum : Nat
  connectedBit : Bool
  failBit : Bool
  deriving DecidableEq, Repr

/-- Before the first event. -/
def Wifi.start : Wifi := ⟨0, false, false⟩

/-- `EXAMPLE_ESP_MAXIMUM_RETRY` -/
def maximumRetry : Nat := 10

/-- `event_handler`, with whether it calls `esp_wifi_connect`. -/
def eventHandler (s : Wifi) : WifiEvent → Wifi × Bool
  | .staStart => (s, true)
  | .staDisconnected =>
    if s.retryNum < maximumRetry then ({ s with retryNum := s.retryNum + 1 }, true)
    -- Nothing is tried any more.
    else ({ s with failBit := true }, false)
  | .gotIp => ({ s with retryNum := 0, connectedBit := true }, false)
  | .other => (s, false)

/-- What the Wi-Fi driver is doing. -/
inductive Link where
  | off | joining | up | down
  deriving DecidableEq, Repr

/-- The handler together with the driver it is called by. -/
structure Station where
  wifi : Wifi
  link : Link
  deriving DecidableEq, Repr

/-- The station before `esp_wifi_start`. -/
def Station.start : Station := ⟨Wifi.start, .off⟩

/--
The events a driver reports.

Every attempt to join ends, a link that is up can be lost or be given an address again, and without
an attempt there is nothing to report.
-/
def Delivers (s : Station) : WifiEvent → Prop
  | .staStart => s.link = .off
  | .staDisconnected => s.link = .joining ∨ s.link = .up
  | .gotIp => s.link = .joining ∨ s.link = .up
  | .other => True

instance (s : Station) : DecidablePred (Delivers s)
  | .staStart => inferInstanceAs (Decidable (s.link = .off))
  | .staDisconnected => inferInstanceAs (Decidable (s.link = .joining ∨ s.link = .up))
  | .gotIp => inferInstanceAs (Decidable (s.link = .joining ∨ s.link = .up))
  | .other => inferInstanceAs (Decidable True)

/-- One event at the station, answered by whether an attempt to join is made. -/
def stationStep (s : Station) (e : WifiEvent) : Station × Bool :=
  let (wifi, connect) := eventHandler s.wifi e
  let link :=
    if connect then .joining
    else match e with
      | .gotIp => .up
      | .other => s.link
      | _ => .down
  (⟨wifi, link⟩, connect)

/-- The station as a machine. -/
def station : Machine Station WifiEvent Bool := ⟨stationStep⟩

/-- How often the link was lost, or could not be joined, since the last address. -/
def losses (past : List WifiEvent) : Nat :=
  howMany (· = .staDisconnected) (sinceLast (· = .gotIp) past)

section
variable {past : List WifiEvent}

@[simp] theorem losses_staDisconnected : losses (.staDisconnected :: past) = losses past + 1 := by
  simp [losses]

@[simp] theorem losses_gotIp : losses (.gotIp :: past) = 0 := by
  simp [losses]

@[simp] theorem losses_staStart : losses (.staStart :: past) = losses past := by
  simp [losses]

@[simp] theorem losses_other : losses (.other :: past) = losses past := by
  simp [losses]

end

/-- What the past of a station says about it. -/
structure Station.Tells (s : Station) (past : List WifiEvent) : Prop where
  retries : s.wifi.retryNum = min maximumRetry (losses past)
  fails : s.wifi.failBit = true ↔ maximumRetry < losses past
  down : s.link = .down ↔ maximumRetry < losses past
  early : s.link = .off → losses past = 0

/-- Every event the driver reports is counted. -/
theorem Station.Tells.next {s : Station} {past : List WifiEvent} (tells : s.Tells past)
    {e : WifiEvent} (delivered : Delivers s e) : (station.next s e).Tells (e :: past) := by
  obtain ⟨retries, fails, down, early⟩ := tells
  cases e with
  | staStart =>
    -- Nothing can have been lost before.
    have none := early delivered
    have notFailed : s.wifi.failBit ≠ true := by simp [fails, none]
    constructor <;>
      simp [station, Machine.next, stationStep, eventHandler, retries, none, notFailed]
  | staDisconnected =>
    have trying : s.link ≠ .down := by
      rcases delivered with joining | up <;> simp [*]
    have few : losses past ≤ maximumRetry := not_lt.mp fun many => trying (down.mpr many)
    have notFailed : s.wifi.failBit ≠ true :=
      fun failed => absurd (fails.mp failed) (not_lt.mpr few)
    by_cases tries : s.wifi.retryNum < maximumRetry
    · -- One more attempt is made, and it is counted.
      have fewer : losses past < maximumRetry := by omega
      constructor <;>
        simp [station, Machine.next, stationStep, eventHandler, tries, notFailed] <;> omega
    · -- The count has reached the limit, and this loss is one too many.
      have all : losses past = maximumRetry := by omega
      constructor <;>
        simp [station, Machine.next, stationStep, eventHandler, tries, all]
      omega
  | gotIp =>
    -- An address is only given while the reader has not given up.
    have trying : s.link ≠ .down := by
      rcases delivered with joining | up <;> simp [*]
    have notFailed : s.wifi.failBit ≠ true := fun failed => trying (down.mpr (fails.mp failed))
    constructor <;> simp [station, Machine.next, stationStep, eventHandler, notFailed]
  | other =>
    constructor <;>
      simp [station, Machine.next, stationStep, eventHandler, retries, fails, down]
    exact early

/-- The past of every run tells about its end. -/
theorem station_tells {run : List WifiEvent}
    (delivered : station.Along Delivers Station.start run) :
    (station.after Station.start run).Tells run.reverse := by
  -- The run is taken apart from its latest event, which stands first in the past.
  induction run using List.reverseRecOn with
  | nil => exact ⟨rfl, by decide, by decide, fun _ => rfl⟩
  | append_singleton run e ih =>
    rw [Machine.along_append] at delivered
    rw [Machine.after_append, List.reverse_append]
    exact (ih delivered.1).next delivered.2.1

/-- Nothing more is reported of a link that is down and not joined again. -/
theorem silent_of_down {s : Station} (down : s.link = .down) {rest : List WifiEvent}
    (delivered : station.Along Delivers s rest) : ∀ e ∈ rest, e = .other := by
  -- Without an attempt the link stays as it is.
  induction rest generalizing s with
  | nil => simp
  | cons e rest ih =>
    have only : e = .other := by
      cases e <;> simp_all [Delivers]
    subst only
    have still : (station.next s .other).link = .down := by
      simp [station, Machine.next, stationStep, eventHandler, down]
    intro e listed
    rcases List.mem_cons.mp listed with rfl | behind
    · rfl
    · exact ih still delivered.2 e behind

/--
The reader gives up on the access point exactly when the link was lost, or could not be joined,
more than ten times since the last address, and then for good.

Until then the link is up, or an attempt is under way, or the driver has not started.
-/
theorem station_gives_up {run : List WifiEvent}
    (delivered : station.Along Delivers Station.start run) :
    ((station.after Station.start run).wifi.failBit = true ↔ maximumRetry < losses run.reverse) ∧
      ((station.after Station.start run).link = .down ↔ maximumRetry < losses run.reverse) ∧
      ∀ rest, station.Along Delivers Station.start (run ++ rest) →
        maximumRetry < losses run.reverse → ∀ e ∈ rest, e = .other := by
  have tells := station_tells delivered
  refine ⟨tells.fails, tells.down, fun rest all many => ?_⟩
  exact silent_of_down (tells.down.mpr many) (station.along_append.mp all).2

/-- Ten losses in a row are too few, and eleven are enough. -/
theorem station_gives_up_eleven :
    (station.after Station.start (.staStart :: List.replicate 11 .staDisconnected)).wifi.failBit =
        true ∧
      (station.after Station.start (.staStart :: List.replicate 10 .staDisconnected)).wifi.failBit ≠
        true := by
  constructor
  · exact (station_gives_up (by decide)).1.mpr (by decide)
  · exact fun failed => absurd ((station_gives_up (by decide)).1.mp failed) (by decide)

end Rfid
