import WifiIot.Clock.Basic
import WifiIot.Machine.Trace

/-!
# A timer over a run

The calls of one timer, and every other call that reads the clocks, one after
the other.  Where every reading is steady, the answers are those of a clock that
never runs backwards.

Source: `HAL_GetTick` of `astronauts_game/game/src/oled.c`, and
`GetCurrentTime` and the timers of
`paho_mqtt/MQTTClient-C/src/ohos/mqtt_ohos_cmsis.c`.
-/

namespace WifiIot.Clock

/-- `now` is when the last reading was taken. -/
structure State where
  now : Nat
  globals : Globals
  endTime : TimeVal
  deriving DecidableEq

def State.boot : State := ⟨0, .initial, ⟨0, 0⟩⟩

inductive Operation where
  | HAL_GetTick
  | GetCurrentTime
  | TimerIsExpired
  | TimerLeftMS
  | TimerCountdownMS (ms : UInt32)
  | TimerCountdown (seconds : UInt32)
  deriving DecidableEq

inductive Call where
  | TimerInit
  | run (reading : Reading) (operation : Operation)
  deriving DecidableEq

inductive Action where
  | HAL_GetTick (result : Nat)
  | GetCurrentTime (now : TimeVal)
  | TimerIsExpired (result : Bool)
  | TimerLeftMS (result : Int)
  | TimerCountdownMS (ms : UInt32)
  | TimerCountdown (seconds : UInt32)
  deriving DecidableEq

/-- What an operation of the timer does with the current time. -/
def answer (state : State) (now : TimeVal) : Operation → State × List Action
  | .HAL_GetTick => (state, [])
  | .GetCurrentTime => (state, [.GetCurrentTime now])
  | .TimerIsExpired =>
      (state, [.GetCurrentTime now, .TimerIsExpired (TimerIsExpired state.endTime now)])
  | .TimerLeftMS => (state, [.GetCurrentTime now, .TimerLeftMS (TimerLeftMS state.endTime now)])
  | .TimerCountdownMS ms =>
      ({ state with endTime := TimeVal.timeradd now (milliseconds ms) },
        [.GetCurrentTime now, .TimerCountdownMS ms])
  | .TimerCountdown count =>
      ({ state with endTime := TimeVal.timeradd now (seconds count) },
        [.GetCurrentTime now, .TimerCountdown count])

def perform (state : State) (reading : Reading) (operation : Operation) :
    Option (State × List Action) :=
  if operation = .HAL_GetTick then some (state, [.HAL_GetTick (HAL_GetTick reading)])
  else (GetCurrentTime state.globals reading).map fun now => answer state now operation

/-- No call overlaps the one before, and the run is shorter than 2^32 milliseconds. -/
def step (state : State) : Call → Option (State × List Action)
  | .TimerInit =>
      some ({ state with globals := state.globals.TimerInit, endTime := ⟨0, 0⟩ }, [])
  | .run reading operation =>
      if state.now ≤ reading.tick ∧ reading.tick ≤ reading.sys ∧ reading.sys < RUN_LIMIT then
        perform { state with now := reading.sys } reading operation
      else none

def machine : Machine State Call Action := ⟨step⟩

/-! ## The law -/

/-- The later of two answers of a clock is not smaller. -/
def NotBackwards : Action → Action → Prop
  | .HAL_GetTick first, .HAL_GetTick later => first ≤ later
  | .GetCurrentTime first, .GetCurrentTime later => first ≤ later
  | _, _ => True

def Expired (action : Action) : Prop := action = .TimerIsExpired true

def Running (action : Action) : Prop := action = .TimerIsExpired false

def Left (result : Int) (action : Action) : Prop := action = .TimerLeftMS result

def Sets : Action → Prop
  | .TimerCountdownMS _ => True
  | .TimerCountdown _ => True
  | _ => False

/-- The clocks do not run backwards; a timer that has expired stays expired, and
the time it has left never grows, until it is set again. -/
structure Forward (log : List Action) : Prop where
  clocks : log.Pairwise NotBackwards
  expired : Trace.Separated Expired Running Sets log
  left : ∀ first later, first < later → Trace.Separated (Left first) (Left later) Sets log

/-- The readings are steady, and a `TimerLeftMS` begins with less than 2^31
milliseconds left. -/
def Steady (state : State) (_log : List Action) : Call → Prop
  | .TimerInit => True
  | .run reading operation =>
      reading.Steady ∧
        (operation = .TimerLeftMS →
          state.endTime.toMicros < (reading.tick / 160 : Nat) + 2147483648000)

instance (state : State) (log : List Action) (call : Call) : Decidable (Steady state log call) := by
  cases call <;> unfold Steady <;> infer_instance

/-! ## Answers of a true clock -/

/-- The answers at the time `now`, in microseconds, of a timer with the given deadline. -/
def Accurate (deadline now : Int) : Action → Prop
  | .HAL_GetTick result => (result : Int) = now / 1000
  | .GetCurrentTime time => time.Normal ∧ time.toMicros = now
  | .TimerIsExpired result => result = decide (deadline ≤ now)
  | .TimerLeftMS result => result = millisLeft deadline now
  | _ => True

/-- What a log of accurate answers, until the time `now`, has to do with the timer. -/
structure Truthful (deadline now : Int) (log : List Action) : Prop where
  ticks : ∀ result : Nat, .HAL_GetTick result ∈ log → (result : Int) ≤ now / 1000
  times : ∀ time, .GetCurrentTime time ∈ log → time.Normal ∧ time.toMicros ≤ now
  expired : Trace.Standing Expired Sets log → deadline ≤ now
  left : ∀ result, Trace.Standing (Left result) Sets log → millisLeft deadline now ≤ result
  forward : Forward log

namespace Truthful

variable {deadline now : Int} {log : List Action} {action : Action}

theorem nil (deadline now : Int) : Truthful deadline now [] where
  ticks := by simp
  times := by simp
  expired standing := absurd standing Trace.not_standing_nil
  left result standing := absurd standing Trace.not_standing_nil
  forward := ⟨.nil, Trace.separated_nil, fun _ _ _ => Trace.separated_nil⟩

theorem advance (truthful : Truthful deadline now log) {later : Int} (forward : now ≤ later) :
    Truthful deadline later log where
  ticks result membership := by
    have := truthful.ticks result membership
    omega
  times time membership :=
    ⟨(truthful.times time membership).1, le_trans (truthful.times time membership).2 forward⟩
  expired standing := le_trans (truthful.expired standing) forward
  left result standing := le_trans (millisLeft_anti deadline forward) (truthful.left result standing)
  forward := truthful.forward

theorem notBackwards (truthful : Truthful deadline now log) (accurate : Accurate deadline now action)
    {earlier : Action} (membership : earlier ∈ log) : NotBackwards earlier action := by
  cases earlier with
  | HAL_GetTick first =>
      cases action with
      | HAL_GetTick later =>
          have := truthful.ticks first membership
          change (later : Int) = now / 1000 at accurate
          change first ≤ later
          omega
      | _ => trivial
  | GetCurrentTime first =>
      cases action with
      | GetCurrentTime later =>
          obtain ⟨normal, before⟩ := truthful.times first membership
          exact (TimeVal.le_iff normal accurate.1).mpr (accurate.2 ▸ before)
      | _ => trivial
  | _ => trivial

theorem tell (truthful : Truthful deadline now log) (accurate : Accurate deadline now action) :
    Truthful deadline now (log ++ [action]) where
  ticks result membership := by
    rcases List.mem_append.mp membership with earlier | last
    · exact truthful.ticks result earlier
    · rw [← List.mem_singleton.mp last] at accurate
      exact le_of_eq accurate
  times time membership := by
    rcases List.mem_append.mp membership with earlier | last
    · exact truthful.times time earlier
    · rw [← List.mem_singleton.mp last] at accurate
      exact ⟨accurate.1, le_of_eq accurate.2⟩
  expired standing := by
    rcases (Trace.standing_snoc_iff ..).mp standing with rfl | ⟨earlier, -⟩
    · exact of_decide_eq_true accurate.symm
    · exact truthful.expired earlier
  left result standing := by
    rcases (Trace.standing_snoc_iff ..).mp standing with rfl | ⟨earlier, -⟩
    · exact le_of_eq accurate.symm
    · exact truthful.left result earlier
  forward := by
    refine ⟨?_, ?_, ?_⟩
    · rw [List.pairwise_append]
      refine ⟨truthful.forward.clocks, List.pairwise_singleton _ _, ?_⟩
      intro earlier membership last same
      rw [List.mem_singleton.mp same]
      exact truthful.notBackwards accurate membership
    · refine (Trace.separated_snoc_iff ..).mpr ⟨truthful.forward.expired, ?_⟩
      rintro rfl standing
      have due := truthful.expired standing
      exact of_decide_eq_false accurate.symm due
    · intro first later smaller
      refine (Trace.separated_snoc_iff ..).mpr ⟨truthful.forward.left first later smaller, ?_⟩
      rintro rfl standing
      have bound := truthful.left first standing
      rw [← show later = millisLeft deadline now from accurate] at bound
      exact absurd smaller (not_lt.mpr bound)

theorem set (truthful : Truthful deadline now log) (sets : Sets action) (other : Int) :
    Truthful other now (log ++ [action]) := by
  have accurate : Accurate deadline now action := by
    cases action with
    | TimerCountdownMS ms => trivial
    | TimerCountdown count => trivial
    | _ => exact absurd sets id
  have told := truthful.tell accurate
  have closed : ∀ {opens : Action → Prop}, ¬opens action →
      ¬Trace.Standing opens Sets (log ++ [action]) := by
    intro opens unopened standing
    rcases (Trace.standing_snoc_iff ..).mp standing with opened | ⟨-, unset⟩
    · exact unopened opened
    · exact unset sets
  refine ⟨told.ticks, told.times, ?_, ?_, told.forward⟩
  · intro standing
    refine absurd standing (closed ?_)
    rintro rfl
    exact sets
  · intro result standing
    refine absurd standing (closed ?_)
    rintro rfl
    exact sets

theorem reset (truthful : Truthful deadline now log) (started : 0 ≤ now) : Truthful 0 now log where
  ticks := truthful.ticks
  times := truthful.times
  expired _ := started
  left result standing := by
    have bound := truthful.left result standing
    unfold millisLeft at bound ⊢
    omega
  forward := truthful.forward

end Truthful

/-! ## The code on a true clock -/

/-- A log of the code, with its state: the log of a true clock that has come no
further than the last reading. -/
structure Sound (state : State) (log : List Action) : Prop where
  globals : state.globals = .initial ∨ state.globals = .board
  normal : state.endTime.Normal
  truthful : ∃ now : Nat, now ≤ state.now / 160 ∧ Truthful state.endTime.toMicros now log

theorem sound_boot : Sound .boot [] where
  globals := .inl rfl
  normal := TimeVal.zero_normal
  truthful := ⟨0, Nat.zero_le _, .nil _ _⟩

theorem Sound.answer (state : State) {log : List Action} {now : TimeVal} {time : Nat}
    (globals : state.globals = .initial ∨ state.globals = .board) (normal : state.endTime.Normal)
    (truthful : Truthful state.endTime.toMicros time log) (reached : time ≤ state.now / 160)
    (nowNormal : now.Normal) (current : now.toMicros = time) (operation : Operation)
    (small : operation = .TimerLeftMS → state.endTime.toMicros < time + 2147483648000) :
    Sound (answer state now operation).1 (log ++ (answer state now operation).2) := by
  have told : Truthful state.endTime.toMicros time (log ++ [.GetCurrentTime now]) :=
    truthful.tell ⟨nowNormal, current⟩
  have two : ∀ action : Action,
      log ++ [.GetCurrentTime now, action] = (log ++ [.GetCurrentTime now]) ++ [action] := by simp
  cases operation with
  | HAL_GetTick => exact ⟨globals, normal, time, reached, by simpa [Clock.answer] using truthful⟩
  | GetCurrentTime => exact ⟨globals, normal, time, reached, told⟩
  | TimerIsExpired =>
      refine ⟨globals, normal, time, reached, ?_⟩
      simp only [Clock.answer, two]
      apply told.tell
      rw [← current]
      exact TimerIsExpired_eq normal nowNormal
  | TimerLeftMS =>
      refine ⟨globals, normal, time, reached, ?_⟩
      simp only [Clock.answer, two]
      apply told.tell
      rw [← current]
      exact TimerLeftMS_eq normal nowNormal (current ▸ small rfl)
  | TimerCountdownMS ms =>
      have sets : Sets (.TimerCountdownMS ms) := trivial
      refine ⟨globals, TimeVal.timeradd_normal nowNormal (milliseconds_normal ms), time, reached, ?_⟩
      simp only [Clock.answer, two]
      exact told.set sets _
  | TimerCountdown count =>
      have sets : Sets (.TimerCountdown count) := trivial
      refine ⟨globals, TimeVal.timeradd_normal nowNormal (seconds_normal count), time, reached, ?_⟩
      simp only [Clock.answer, two]
      exact told.set sets _

/-- A steady call keeps the log that of a true clock. -/
theorem Sound.step {state next : State} {log emitted : List Action} {call : Call}
    (sound : Sound state log) (steady : Steady state log call)
    (stepped : step state call = some (next, emitted)) : Sound next (log ++ emitted) := by
  obtain ⟨now, reached, truthful⟩ := sound.truthful
  cases call with
  | TimerInit =>
      cases stepped
      refine ⟨?_, TimeVal.zero_normal, now, reached, ?_⟩
      · rcases sound.globals with initial | board
        · exact .inr (by rw [initial]; rfl)
        · exact .inr (by rw [board]; rfl)
      · rw [List.append_nil]
        exact truthful.reset (Int.natCast_nonneg _)
  | run reading operation =>
      obtain ⟨readingSteady, small⟩ := steady
      simp only [Clock.step] at stepped
      split at stepped
      · rename_i timely
        obtain ⟨after, ordered, early⟩ := timely
        obtain ⟨begun, ended⟩ := readingSteady.time_bounds ordered
        have later : (now : Int) ≤ reading.time := by omega
        have advanced := truthful.advance later
        unfold perform at stepped
        split at stepped
        · cases stepped
          refine ⟨sound.globals, sound.normal, reading.time, ended, advanced.tell ?_⟩
          rw [HAL_GetTick_eq readingSteady ordered early]
          change ((reading.time / 1000 : Nat) : Int) = (reading.time : Int) / 1000
          omega
        · obtain ⟨current, read, rfl, rfl⟩ : ∃ now, GetCurrentTime state.globals reading = some now ∧
              (Clock.answer { state with now := reading.sys } now operation).1 = next ∧
              (Clock.answer { state with now := reading.sys } now operation).2 = emitted := by
            obtain ⟨now, read, answered⟩ := Option.map_eq_some_iff.mp stepped
            exact ⟨now, read, by rw [answered], by rw [answered]⟩
          rcases sound.globals with initial | board
          · rw [initial] at read
            cases read
          · rw [board] at read
            obtain ⟨time, readAs, normal, timeEq⟩ := GetCurrentTime_eq readingSteady ordered early
            obtain rfl : time = current := Option.some.inj (readAs.symm.trans read)
            refine Sound.answer { state with now := reading.sys } sound.globals sound.normal advanced
              ended normal timeEq operation ?_
            intro left
            refine lt_of_lt_of_le (small left) ?_
            omega
      · cases stepped

/-- Clocks do not run backwards in a run of steady calls, and the timer keeps
its law. -/
theorem clocks_forward_of_steady {calls : List Call} {state : State} {log : List Action}
    (run : machine.Run .boot calls state log) (steady : machine.Meets Steady .boot calls) :
    Forward log := by
  have sound : Sound state log :=
    run.invariant_of_meets Sound sound_boot
      (fun state log call next emitted sound steady stepped => sound.step steady stepped) steady
  obtain ⟨now, -, truthful⟩ := sound.truthful
  exact truthful.forward

/-- Readings shortly after the start and after 3125 overflows, which lose whole ticks. -/
def aDayLater : List Call :=
  [.TimerInit, .run ⟨10, 20⟩ (.TimerCountdownMS 5), .run ⟨20, 400000⟩ .TimerLeftMS,
    .run ⟨13421772800000, 13421772800160⟩ .TimerIsExpired,
    .run ⟨13421772800160, 13421772900000⟩ .HAL_GetTick]

def aDayLaterLog : List Action :=
  [.GetCurrentTime ⟨0, 0⟩, .TimerCountdownMS 5, .GetCurrentTime ⟨0, 2500⟩, .TimerLeftMS 2,
    .GetCurrentTime ⟨83886, 80001⟩, .TimerIsExpired true, .HAL_GetTick 83886080]

theorem clocks_forward_of_steady_a_day_later :
    ∃ state, machine.Run .boot aDayLater state aDayLaterLog ∧ Forward aDayLaterLog := by
  obtain ⟨state, log, run, rfl⟩ :=
    machine.exists_run_of_exec Prod.snd .boot aDayLater aDayLaterLog (by decide +kernel)
  refine ⟨state, run, clocks_forward_of_steady run ?_⟩
  exact Machine.meets_of_meetsFrom (fun state log call => decide (Steady state log call))
    (fun _ _ _ passed => of_decide_eq_true passed) (by decide +kernel)

/-! ## The first overflow of the cycle counter -/

/-- A timer of 26842 ms, and the clocks one cycle before the overflow and at it. -/
def acrossOverflow : List Call :=
  [.TimerInit, .run ⟨0, 0⟩ (.TimerCountdownMS 26842),
    .run ⟨4294967295, 4294967295⟩ .HAL_GetTick,
    .run ⟨4294967295, 4294967295⟩ .TimerIsExpired,
    .run ⟨4294967295, 4294967295⟩ .TimerLeftMS,
    .run ⟨4294967296, 4294967296⟩ .HAL_GetTick,
    .run ⟨4294967296, 4294967296⟩ .TimerIsExpired,
    .run ⟨4294967296, 4294967296⟩ .TimerLeftMS]

def acrossOverflowLog : List Action :=
  [.GetCurrentTime ⟨0, 0⟩, .TimerCountdownMS 26842, .HAL_GetTick 26843,
    .GetCurrentTime ⟨26, 843545⟩, .TimerIsExpired true,
    .GetCurrentTime ⟨26, 843545⟩, .TimerLeftMS 0, .HAL_GetTick 26840,
    .GetCurrentTime ⟨26, 840000⟩, .TimerIsExpired false,
    .GetCurrentTime ⟨26, 840000⟩, .TimerLeftMS 2]

/-- At the overflow both clocks fall back, the expired timer runs again and has time left. -/
theorem clocks_fall_back :
    (∃ state, machine.Run .boot acrossOverflow state acrossOverflowLog) ∧
      ¬ acrossOverflowLog.Pairwise NotBackwards ∧
      ¬ Trace.Separated Expired Running Sets acrossOverflowLog ∧
      ¬ Trace.Separated (Left 0) (Left 2) Sets acrossOverflowLog := by
  refine ⟨?_, ?_, ?_, ?_⟩
  · obtain ⟨state, log, run, rfl⟩ :=
      machine.exists_run_of_exec Prod.snd .boot acrossOverflow acrossOverflowLog (by decide +kernel)
    exact ⟨state, run⟩
  · intro clocks
    have order := List.pairwise_iff_getElem.mp clocks 2 7 (by decide) (by decide) (by decide)
    change 26843 ≤ 26840 at order
    omega
  · intro separated
    obtain ⟨event, between, sets⟩ :=
      separated (acrossOverflowLog.take 4) _ ((acrossOverflowLog.drop 5).take 4) _
        (acrossOverflowLog.drop 10) rfl rfl rfl
    simp only [acrossOverflowLog, List.drop, List.take, List.mem_cons, List.not_mem_nil,
      or_false] at between
    rcases between with rfl | rfl | rfl | rfl <;> exact sets
  · intro separated
    obtain ⟨event, between, sets⟩ :=
      separated (acrossOverflowLog.take 6) _ ((acrossOverflowLog.drop 7).take 4) _
        (acrossOverflowLog.drop 12) rfl rfl rfl
    simp only [acrossOverflowLog, List.drop, List.take, List.mem_cons, List.not_mem_nil,
      or_false] at between
    rcases between with rfl | rfl | rfl | rfl <;> exact sets

end WifiIot.Clock
