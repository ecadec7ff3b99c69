import Mathlib.Data.Nat.Notation
import Mathlib.Algebra.Order.Ring.Int
import Mathlib.Tactic.NormNum

/-!
# The clocks of the board

The kernel counts ticks and the processor counts cycles, both in 32 bits.  The
game and the MQTT port read one counter after the other and put a time together
from the two values.

Source: `HAL_GetTick` of `astronauts_game/game/src/oled.c`, and
`GetCurrentTime` and the timers of
`paho_mqtt/MQTTClient-C/src/ohos/mqtt_ohos_cmsis.c`.
-/

namespace WifiIot.Clock

def osKernelGetTickFreq : Nat := 100
def osKernelGetSysTimerFreq : Nat := 160000000
def cyclesPerTick : Nat := 1600000

/-- The number of values of a `uint32_t`. -/
def UINT32_RANGE : Nat := 4294967296

/-- The tick counter when the processor has run the given number of cycles. -/
def osKernelGetTickCount (cycle : Nat) : Nat := cycle / cyclesPerTick % UINT32_RANGE

def osKernelGetSysTimerCount (cycle : Nat) : Nat := cycle % UINT32_RANGE

/-- When a call reads the two counters, in cycles since the start; the ticks
are read first. -/
structure Reading where
  tick : Nat
  sys : Nat
  deriving DecidableEq

def TIME_UNITS : Nat := 1000

def HAL_GetTick (reading : Reading) : Nat :=
  let msPerTick := TIME_UNITS / osKernelGetTickFreq
  let tickMs := osKernelGetTickCount reading.tick * msPerTick % UINT32_RANGE
  let csPerMs := osKernelGetSysTimerFreq / TIME_UNITS
  let csPerTick := csPerMs * msPerTick
  let restMs := osKernelGetSysTimerCount reading.sys % csPerTick / csPerMs
  (tickMs + restMs) % UINT32_RANGE

/-- `struct timeval`, with seconds of 64 bits. -/
structure TimeVal where
  tv_sec : Int
  tv_usec : Int
  deriving DecidableEq

def US_PER_SEC : Nat := 1000000

structure Globals where
  g_tickPerSec : Nat
  g_sysPerSec : Nat
  g_sysPerTick : Nat
  deriving DecidableEq

def Globals.initial : Globals := ⟨0, 0, 0⟩

def Globals.board : Globals where
  g_tickPerSec := osKernelGetTickFreq
  g_sysPerSec := osKernelGetSysTimerFreq
  g_sysPerTick := osKernelGetSysTimerFreq / osKernelGetTickFreq

/-- The part of `TimerInit` that all timers share. -/
def Globals.TimerInit (globals : Globals) : Globals :=
  if globals.g_tickPerSec = 0 then .board else globals

/-- A division by 0 before the first `TimerInit`. -/
def GetCurrentTime (globals : Globals) (reading : Reading) : Option TimeVal :=
  if globals.g_tickPerSec = 0 then none
  else
    let tickCount := osKernelGetTickCount reading.tick
    let sysCount := osKernelGetSysTimerCount reading.sys % globals.g_sysPerTick
    some {
      tv_sec := (tickCount / globals.g_tickPerSec : Nat)
      tv_usec :=
        (tickCount % globals.g_tickPerSec * (US_PER_SEC / globals.g_tickPerSec) +
          sysCount * US_PER_SEC / globals.g_sysPerSec : Nat) }

/-! ## Times -/

namespace TimeVal

def Normal (time : TimeVal) : Prop := 0 ≤ time.tv_usec ∧ time.tv_usec < 1000000

def toMicros (time : TimeVal) : Int := time.tv_sec * 1000000 + time.tv_usec

/-- The order of `timercmp`. -/
instance : LE TimeVal where
  le first second :=
    first.tv_sec < second.tv_sec ∨
      first.tv_sec = second.tv_sec ∧ first.tv_usec ≤ second.tv_usec

def timeradd (first second : TimeVal) : TimeVal :=
  let sec := first.tv_sec + second.tv_sec
  let usec := first.tv_usec + second.tv_usec
  if 1000000 ≤ usec then ⟨sec + 1, usec - 1000000⟩ else ⟨sec, usec⟩

def timersub (first second : TimeVal) : TimeVal :=
  let sec := first.tv_sec - second.tv_sec
  let usec := first.tv_usec - second.tv_usec
  if usec < 0 then ⟨sec - 1, usec + 1000000⟩ else ⟨sec, usec⟩

variable {first second : TimeVal}

theorem le_def : first ≤ second ↔ first.tv_sec < second.tv_sec ∨
    first.tv_sec = second.tv_sec ∧ first.tv_usec ≤ second.tv_usec := Iff.rfl

theorem le_iff (firstNormal : first.Normal) (secondNormal : second.Normal) :
    first ≤ second ↔ first.toMicros ≤ second.toMicros := by
  rw [le_def]
  unfold Normal at firstNormal secondNormal
  unfold toMicros
  omega

theorem zero_normal : (⟨0, 0⟩ : TimeVal).Normal := ⟨le_refl 0, by norm_num⟩

theorem timeradd_normal (firstNormal : first.Normal) (secondNormal : second.Normal) :
    (timeradd first second).Normal := by
  unfold Normal at firstNormal secondNormal
  simp only [timeradd]
  split
  · exact ⟨by simp only; omega, by simp only; omega⟩
  · exact ⟨by simp only; omega, by simp only; omega⟩

theorem timersub_normal (firstNormal : first.Normal) (secondNormal : second.Normal) :
    (timersub first second).Normal := by
  unfold Normal at firstNormal secondNormal
  simp only [timersub]
  split
  · exact ⟨by simp only; omega, by simp only; omega⟩
  · exact ⟨by simp only; omega, by simp only; omega⟩

theorem timersub_toMicros (first second : TimeVal) :
    (timersub first second).toMicros = first.toMicros - second.toMicros := by
  simp only [timersub, toMicros]
  split
  · simp only
    omega
  · simp only
    omega

end TimeVal

/-! ## Timers -/

/-- The conversion of a `long` to an `int`. -/
def toInt (value : Int) : Int := Int.bmod value 4294967296

def TimerIsExpired (endTime now : TimeVal) : Bool :=
  let res := TimeVal.timersub endTime now
  decide (res.tv_sec < 0 ∨ res.tv_sec = 0 ∧ res.tv_usec ≤ 0)

def TimerLeftMS (endTime now : TimeVal) : Int :=
  let res := TimeVal.timersub endTime now
  if res.tv_sec < 0 then 0 else toInt (res.tv_sec * 1000 + res.tv_usec.tdiv 1000)

/-- The interval that `TimerCountdownMS` adds to the current time. -/
def milliseconds (ms : UInt32) : TimeVal where
  tv_sec := (ms.toNat / 1000 : Nat)
  tv_usec := (ms.toNat % 1000 * 1000 : Nat)

/-- The interval that `TimerCountdown` adds. -/
def seconds (seconds : UInt32) : TimeVal := ⟨seconds.toNat, 0⟩

theorem milliseconds_normal (ms : UInt32) : (milliseconds ms).Normal := by
  unfold milliseconds TimeVal.Normal
  constructor <;> simp only <;> omega

theorem seconds_normal (count : UInt32) : (seconds count).Normal := by
  refine ⟨le_refl 0, ?_⟩
  change (0 : Int) < 1000000
  norm_num

section Answers

variable {endTime now : TimeVal}

theorem TimerIsExpired_eq (endNormal : endTime.Normal) (nowNormal : now.Normal) :
    TimerIsExpired endTime now = decide (endTime.toMicros ≤ now.toMicros) := by
  have normal := TimeVal.timersub_normal endNormal nowNormal
  have difference := TimeVal.timersub_toMicros endTime now
  unfold TimeVal.Normal at normal
  rw [TimeVal.toMicros] at difference
  unfold TimerIsExpired
  refine decide_eq_decide.mpr ?_
  omega

def millisLeft (deadline now : Int) : Int := max 0 ((deadline - now) / 1000)

theorem millisLeft_anti (deadline : Int) {now later : Int} (forward : now ≤ later) :
    millisLeft deadline later ≤ millisLeft deadline now := by
  unfold millisLeft
  omega

theorem TimerLeftMS_eq (endNormal : endTime.Normal) (nowNormal : now.Normal)
    (small : endTime.toMicros < now.toMicros + 2147483648000) :
    TimerLeftMS endTime now = millisLeft endTime.toMicros now.toMicros := by
  have normal := TimeVal.timersub_normal endNormal nowNormal
  have difference := TimeVal.timersub_toMicros endTime now
  unfold TimeVal.Normal at normal
  rw [TimeVal.toMicros] at difference
  unfold TimerLeftMS millisLeft
  simp only
  split
  · omega
  · rw [Int.tdiv_eq_ediv_of_nonneg normal.1, toInt, Int.bmod_eq_of_le (by omega) (by omega)]
    omega

end Answers

/-! ## Steady readings -/

def RUN_LIMIT : Nat := 4294967296 * 160000

/-- The cycles that the cycle counter has lost in its overflows are whole ticks,
and at the second reading the processor is, to the microsecond, no less far into
a tick than at the first one; so it is when both fall into one tick. -/
structure Reading.Steady (reading : Reading) : Prop where
  overflows : cyclesPerTick ∣ UINT32_RANGE * (reading.sys / UINT32_RANGE)
  phase : reading.tick % cyclesPerTick / 160 ≤ reading.sys % cyclesPerTick / 160

instance (reading : Reading) : Decidable reading.Steady :=
  decidable_of_iff
    (cyclesPerTick ∣ UINT32_RANGE * (reading.sys / UINT32_RANGE) ∧
      reading.tick % cyclesPerTick / 160 ≤ reading.sys % cyclesPerTick / 160)
    ⟨fun steady => ⟨steady.1, steady.2⟩, fun steady => ⟨steady.overflows, steady.phase⟩⟩

def Reading.time (reading : Reading) : Nat :=
  reading.tick / 1600000 * 10000 + reading.sys % 1600000 / 160

section Readings

variable {reading : Reading}

theorem Reading.Steady.time_bounds (steady : reading.Steady) (ordered : reading.tick ≤ reading.sys) :
    reading.tick / 160 ≤ reading.time ∧ reading.time ≤ reading.sys / 160 := by
  have phase := steady.phase
  simp only [cyclesPerTick] at phase
  unfold Reading.time
  omega

theorem HAL_GetTick_def (reading : Reading) :
    HAL_GetTick reading =
      (reading.tick / 1600000 % 4294967296 * 10 % 4294967296 +
        reading.sys % 4294967296 % 1600000 / 160000) % 4294967296 := rfl

theorem GetCurrentTime_def (reading : Reading) :
    GetCurrentTime .board reading = some {
      tv_sec := (reading.tick / 1600000 % 4294967296 / 100 : Nat)
      tv_usec :=
        (reading.tick / 1600000 % 4294967296 % 100 * 10000 +
          reading.sys % 4294967296 % 1600000 * 1000000 / 160000000 : Nat) } := rfl

/-- After whole ticks lost in overflows the cycle counter shows how far the tick has come. -/
theorem count_eq {sys : Nat} (overflows : cyclesPerTick ∣ UINT32_RANGE * (sys / UINT32_RANGE)) :
    sys % 4294967296 % 1600000 = sys % 1600000 := by
  have split := Nat.div_add_mod sys 4294967296
  have whole : 4294967296 * (sys / 4294967296) % 1600000 = 0 := Nat.mod_eq_zero_of_dvd overflows
  conv_rhs => rw [← split]
  rw [Nat.add_mod, whole, Nat.zero_add, Nat.mod_mod]

theorem HAL_GetTick_eq (steady : reading.Steady) (ordered : reading.tick ≤ reading.sys)
    (early : reading.sys < RUN_LIMIT) : HAL_GetTick reading = reading.time / 1000 := by
  rw [HAL_GetTick_def, count_eq steady.overflows]
  rw [RUN_LIMIT] at early
  unfold Reading.time
  omega

theorem GetCurrentTime_eq (steady : reading.Steady) (ordered : reading.tick ≤ reading.sys)
    (early : reading.sys < RUN_LIMIT) :
    ∃ now, GetCurrentTime .board reading = some now ∧ now.Normal ∧
      now.toMicros = reading.time := by
  refine ⟨_, GetCurrentTime_def reading, ?_⟩
  rw [count_eq steady.overflows]
  rw [RUN_LIMIT] at early
  simp only [TimeVal.Normal, TimeVal.toMicros, Reading.time]
  omega

/-! ## Readings that are not steady -/

/-- After overflows that lost part of a tick, the cycle counter begins a tick in
the middle of one, and both clocks fall back there. -/
theorem falls_back_within_tick {overflows : Nat}
    (uneven : ¬cyclesPerTick ∣ UINT32_RANGE * overflows) {cycle : Nat}
    (begun : cycle + 1 = UINT32_RANGE * overflows + cyclesPerTick) (early : cycle + 1 < RUN_LIMIT) :
    HAL_GetTick ⟨cycle + 1, cycle + 1⟩ < HAL_GetTick ⟨cycle, cycle⟩ ∧
      ∃ first later, GetCurrentTime .board ⟨cycle, cycle⟩ = some first ∧
        GetCurrentTime .board ⟨cycle + 1, cycle + 1⟩ = some later ∧ ¬first ≤ later := by
  simp only [UINT32_RANGE, cyclesPerTick, RUN_LIMIT] at uneven begun early
  have rest : 0 < 4294967296 * overflows % 1600000 :=
    Nat.pos_of_ne_zero fun even => uneven (Nat.dvd_of_mod_eq_zero even)
  have sameTick : (cycle + 1) / 1600000 = cycle / 1600000 := by
    rw [Nat.succ_div, if_neg (by omega), Nat.add_zero]
  have firstCount : cycle % 4294967296 = 1599999 := by omega
  have laterCount : (cycle + 1) % 4294967296 = 1600000 := by omega
  have few : overflows ≤ 159999 := by omega
  have ticks : cycle / 1600000 < 429496729 := by omega
  constructor
  · simp only [HAL_GetTick_def, sameTick, firstCount, laterCount]
    simp (disch := omega) only [Nat.mod_eq_of_lt]
    omega
  · refine ⟨_, _, GetCurrentTime_def _, GetCurrentTime_def _, ?_⟩
    simp only [TimeVal.le_def, sameTick, firstCount, laterCount]
    omega

/-- A tick that passes between the two readings is missing in the time, which
falls back behind the time at the first reading unless the second one makes up
for it. -/
theorem falls_back_across_ticks (begun : (Reading.mk reading.tick reading.tick).Steady)
    (overflows : cyclesPerTick ∣ UINT32_RANGE * (reading.sys / UINT32_RANGE))
    (unsteady : ¬reading.Steady) :
    ∃ first later, GetCurrentTime .board ⟨reading.tick, reading.tick⟩ = some first ∧
      GetCurrentTime .board reading = some later ∧ ¬first ≤ later := by
  have phase : reading.sys % 1600000 / 160 < reading.tick % 1600000 / 160 := by
    by_contra further
    exact unsteady ⟨overflows, not_lt.mp further⟩
  refine ⟨_, _, GetCurrentTime_def _, GetCurrentTime_def _, ?_⟩
  rw [count_eq begun.overflows, count_eq overflows]
  simp only [TimeVal.le_def]
  omega

end Readings

/-- Past the range of `int` the answer grows while the time left shrinks. -/
theorem TimerLeftMS_overflows {endTime first later : TimeVal} (endNormal : endTime.Normal)
    (firstNormal : first.Normal) (laterNormal : later.Normal)
    (many : endTime.toMicros = first.toMicros + 2147483648000)
    (passed : later.toMicros = first.toMicros + 1000) :
    TimerLeftMS endTime first = -2147483648 ∧ TimerLeftMS endTime later = 2147483647 := by
  constructor
  · have normal := TimeVal.timersub_normal endNormal firstNormal
    have difference := TimeVal.timersub_toMicros endTime first
    unfold TimeVal.Normal at normal
    rw [TimeVal.toMicros] at difference
    have left : (TimeVal.timersub endTime first).tv_sec * 1000 +
        (TimeVal.timersub endTime first).tv_usec / 1000 = 2147483648 := by omega
    unfold TimerLeftMS
    simp only
    rw [if_neg (by omega), Int.tdiv_eq_ediv_of_nonneg normal.1, left]
    rfl
  · rw [TimerLeftMS_eq endNormal laterNormal (by omega), millisLeft]
    omega

end WifiIot.Clock
