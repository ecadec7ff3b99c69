import Mathlib.Data.Rat.Defs
import Mathlib.Tactic.Linarith
import Mathlib.Tactic.NormNum
import WifiIot.Memory.Bit

/-!
# The temperature and humidity sensor

`AHT20_GetMeasureResult` reads six bytes from the sensor, tries again while the
busy bit is set, and cuts the two 20-bit values out of the last reading.  The
floating-point numbers of the source are rational numbers here, and a pointer
to one is an `Option`, with `none` for `NULL`.

Source: `i2c_demo/aht20.c`.
-/

namespace WifiIot.Sensor

open Memory

/-- The two codes of the hardware interface that the driver compares with. -/
structure Errno where
  IOT_SUCCESS : UInt32
  IOT_FAILURE : UInt32
  distinct : IOT_FAILURE ≠ IOT_SUCCESS

/-- `AHT20_STATUS_RESPONSE_MAX` bytes. -/
abbrev Response := Fin 6 → UInt8

/-- What one `IoTI2cRead` returns, and what it leaves in the buffer. -/
structure Reading where
  retval : UInt32
  buffer : Response

structure Measurement where
  retval : UInt32
  temp : Option ℚ
  humi : Option ℚ

def AHT20_STATUS_BUSY (status : UInt8) : UInt8 := (status &&& 0x80) >>> 7

def AHT20_RESLUTION : ℚ := 2 ^ 20

abbrev AHT20_MAX_RETRY : Nat := 10

def humiRaw (buffer : Response) : UInt32 :=
  let humiRaw := (buffer 1).toUInt32
  let humiRaw := humiRaw <<< 8 ||| (buffer 2).toUInt32
  humiRaw <<< 4 ||| ((buffer 3 &&& 0xF0) >>> 4).toUInt32

def tempRaw (buffer : Response) : UInt32 :=
  let tempRaw := (buffer 3 &&& 0x0F).toUInt32
  let tempRaw := tempRaw <<< 8 ||| (buffer 4).toUInt32
  tempRaw <<< 8 ||| (buffer 5).toUInt32

/-- Bytes 1 and 2 and the high half of byte 3. -/
def humidity (buffer : Response) : Nat :=
  (buffer 1).toNat * 2 ^ 12 + (buffer 2).toNat * 2 ^ 4 + (buffer 3).toNat / 2 ^ 4

/-- The low half of byte 3 and bytes 4 and 5. -/
def temperature (buffer : Response) : Nat :=
  (buffer 3).toNat % 2 ^ 4 * 2 ^ 16 + (buffer 4).toNat * 2 ^ 8 + (buffer 5).toNat

section Driver

variable (errno : Errno)

def AHT20_Read (reading : Reading) : UInt32 :=
  if reading.retval ≠ errno.IOT_SUCCESS then reading.retval else errno.IOT_SUCCESS

/-- The `for` loop: the code of a read that fails, or the counter and the buffer
with which the loop is left.  Read number 0 came before the loop. -/
def retry (reads : Nat → Reading) (buffer : Response) (i : Nat) :
    Except UInt32 (Nat × Response) :=
  if AHT20_STATUS_BUSY (buffer 0) ≠ 0 ∧ i < AHT20_MAX_RETRY then
    let retval := AHT20_Read errno (reads (i + 1))
    if retval ≠ errno.IOT_SUCCESS then .error retval
    else retry reads (reads (i + 1)).buffer (i + 1)
  else .ok (i, buffer)
  termination_by AHT20_MAX_RETRY - i

def AHT20_GetMeasureResult (reads : Nat → Reading) (temp humi : Option ℚ) : Measurement :=
  if temp = none ∨ humi = none then ⟨errno.IOT_FAILURE, temp, humi⟩
  else
    let retval := AHT20_Read errno (reads 0)
    if retval ≠ errno.IOT_SUCCESS then ⟨retval, temp, humi⟩
    else
      match retry errno reads (reads 0).buffer 0 with
      | .error retval => ⟨retval, temp, humi⟩
      | .ok (i, buffer) =>
          if AHT20_MAX_RETRY ≤ i then ⟨errno.IOT_FAILURE, temp, humi⟩
          else
            { retval := errno.IOT_SUCCESS
              humi := some ((humiRaw buffer).toNat / AHT20_RESLUTION * 100)
              temp := some ((tempRaw buffer).toNat / AHT20_RESLUTION * 200 - 50) }

def Reading.Busy (reading : Reading) : Prop :=
  reading.retval = errno.IOT_SUCCESS ∧ bit (reading.buffer 0) 7 = true

def Reading.Ready (reading : Reading) : Prop :=
  reading.retval = errno.IOT_SUCCESS ∧ bit (reading.buffer 0) 7 = false

/-- Read number `k` is the first that does not find the sensor busy, and it
finds a result. -/
def FirstReady (reads : Nat → Reading) (k : Nat) : Prop :=
  (∀ earlier < k, (reads earlier).Busy errno) ∧ (reads k).Ready errno

/-- What a measurement promises: success exactly if a result is found before an
error, by the first read or one of the further ones; then the values of that
result, and else the old values. -/
def Retrieves (reads : Nat → Reading) (temp humi : ℚ) : Prop :=
  let measurement := AHT20_GetMeasureResult errno reads (some temp) (some humi)
  (measurement.retval = errno.IOT_SUCCESS ↔ ∃ k ≤ AHT20_MAX_RETRY, FirstReady errno reads k) ∧
    (measurement.retval = errno.IOT_SUCCESS → ∀ k, FirstReady errno reads k →
      ∃ newTemp newHumi, measurement.temp = some newTemp ∧ measurement.humi = some newHumi ∧
        newHumi = 100 * humidity (reads k).buffer / 2 ^ 20 ∧
        newTemp = 200 * temperature (reads k).buffer / 2 ^ 20 - 50 ∧
        0 ≤ newHumi ∧ newHumi < 100 ∧ -50 ≤ newTemp ∧ newTemp < 150) ∧
    (measurement.retval ≠ errno.IOT_SUCCESS →
      measurement.temp = some temp ∧ measurement.humi = some humi)

end Driver

section Fields

theorem humiRaw_toNat (buffer : Response) : (humiRaw buffer).toNat = humidity buffer := by
  have first := (buffer 1).toNat_lt
  have second := (buffer 2).toNat_lt
  have third := (buffer 3).toNat_lt
  have upper : ((buffer 1).toUInt32 <<< 8 ||| (buffer 2).toUInt32).toNat =
      (buffer 1).toNat * 2 ^ 8 + (buffer 2).toNat :=
    toNat_shiftLeft_or rfl (by decide) second (by rw [UInt8.toNat_toUInt32]; omega)
  have lower : ((buffer 3 &&& 0xF0) >>> 4).toUInt32.toNat = (buffer 3).toNat / 16 :=
    toNat_and_high (buffer 3)
  have joined : (((buffer 1).toUInt32 <<< 8 ||| (buffer 2).toUInt32) <<< 4 |||
      ((buffer 3 &&& 0xF0) >>> 4).toUInt32).toNat =
        ((buffer 1).toUInt32 <<< 8 ||| (buffer 2).toUInt32).toNat * 2 ^ 4 +
          ((buffer 3 &&& 0xF0) >>> 4).toUInt32.toNat :=
    toNat_shiftLeft_or rfl (by decide) (by omega) (by omega)
  unfold humiRaw humidity
  rw [joined, upper, lower]
  omega

theorem tempRaw_toNat (buffer : Response) : (tempRaw buffer).toNat = temperature buffer := by
  have third := (buffer 3).toNat_lt
  have fourth := (buffer 4).toNat_lt
  have fifth := (buffer 5).toNat_lt
  have half : (buffer 3 &&& 0x0F).toUInt32.toNat = (buffer 3).toNat % 16 :=
    toNat_and_low (buffer 3)
  have upper : ((buffer 3 &&& 0x0F).toUInt32 <<< 8 ||| (buffer 4).toUInt32).toNat =
      (buffer 3 &&& 0x0F).toUInt32.toNat * 2 ^ 8 + (buffer 4).toNat :=
    toNat_shiftLeft_or rfl (by decide) fourth (by omega)
  have joined : (((buffer 3 &&& 0x0F).toUInt32 <<< 8 ||| (buffer 4).toUInt32) <<< 8 |||
      (buffer 5).toUInt32).toNat =
        ((buffer 3 &&& 0x0F).toUInt32 <<< 8 ||| (buffer 4).toUInt32).toNat * 2 ^ 8 +
          (buffer 5).toUInt32.toNat :=
    toNat_shiftLeft_or rfl (by decide) fifth (by omega)
  unfold tempRaw temperature
  rw [joined, upper, half, UInt8.toNat_toUInt32]
  omega

theorem humidity_lt (buffer : Response) : humidity buffer < 2 ^ 20 := by
  have first := (buffer 1).toNat_lt
  have second := (buffer 2).toNat_lt
  have third := (buffer 3).toNat_lt
  unfold humidity
  omega

theorem temperature_lt (buffer : Response) : temperature buffer < 2 ^ 20 := by
  have third := (buffer 3).toNat_lt
  have fourth := (buffer 4).toNat_lt
  have fifth := (buffer 5).toNat_lt
  unfold temperature
  omega

theorem AHT20_STATUS_BUSY_ne_zero_iff (status : UInt8) :
    AHT20_STATUS_BUSY status ≠ 0 ↔ bit status 7 = true := by
  rw [ne_eq, ← UInt8.toNat_inj, AHT20_STATUS_BUSY, UInt8.toNat_shiftRight, UInt8.toNat_and]
  change ¬(status.toNat &&& 2 ^ 7) >>> 7 = 0 ↔ _
  rw [Nat.and_two_pow]
  change ¬((bit status 7).toNat * 2 ^ 7) >>> 7 = 0 ↔ _
  cases bit status 7 with
  | false => simp
  | true => simp

end Fields

section Retries

variable {errno : Errno} {reads : Nat → Reading} {i k : Nat}

@[simp]
theorem AHT20_Read_eq (reading : Reading) : AHT20_Read errno reading = reading.retval := by
  unfold AHT20_Read
  split
  · rfl
  · rename_i succeeded
    exact (not_not.mp succeeded).symm

theorem Reading.Busy.status {reading : Reading} (busy : reading.Busy errno) :
    AHT20_STATUS_BUSY (reading.buffer 0) ≠ 0 :=
  (AHT20_STATUS_BUSY_ne_zero_iff _).mpr busy.2

theorem Reading.Ready.status {reading : Reading} (ready : reading.Ready errno) :
    ¬AHT20_STATUS_BUSY (reading.buffer 0) ≠ 0 := by
  rw [AHT20_STATUS_BUSY_ne_zero_iff, ready.2]
  exact Bool.false_ne_true

theorem Reading.cases (errno : Errno) (reading : Reading) :
    reading.retval ≠ errno.IOT_SUCCESS ∨ reading.Busy errno ∨ reading.Ready errno := by
  by_cases succeeded : reading.retval = errno.IOT_SUCCESS
  · cases status : bit (reading.buffer 0) 7 with
    | true => exact .inr (.inl ⟨succeeded, status⟩)
    | false => exact .inr (.inr ⟨succeeded, status⟩)
  · exact .inl succeeded

theorem retry_of_busy (busy : (reads i).Busy errno) (bound : i < AHT20_MAX_RETRY) :
    retry errno reads (reads i).buffer i =
      if (reads (i + 1)).retval ≠ errno.IOT_SUCCESS then .error (reads (i + 1)).retval
      else retry errno reads (reads (i + 1)).buffer (i + 1) := by
  rw [retry, if_pos ⟨busy.status, bound⟩]
  simp only [AHT20_Read_eq]

/-- Rounds that find the sensor busy hand on to the next one. -/
theorem retry_advance (before : i ≤ k) (bound : k ≤ AHT20_MAX_RETRY)
    (busy : ∀ earlier < k, (reads earlier).Busy errno)
    (succeeded : (reads k).retval = errno.IOT_SUCCESS) :
    retry errno reads (reads i).buffer i = retry errno reads (reads k).buffer k := by
  induction k, before using Nat.le_induction with
  | base => rfl
  | succ k before inductionHypothesis =>
      have last := busy k (Nat.lt_succ_self k)
      rw [inductionHypothesis (Nat.le_of_succ_le bound)
        (fun earlier bound => busy earlier (Nat.lt_succ_of_lt bound)) last.1]
      rw [retry_of_busy last bound, if_neg (not_not.mpr succeeded)]

theorem retry_of_firstReady (bound : k ≤ AHT20_MAX_RETRY) (first : FirstReady errno reads k) :
    retry errno reads (reads 0).buffer 0 = .ok (k, (reads k).buffer) := by
  rw [retry_advance (Nat.zero_le k) bound first.1 first.2.1, retry,
    if_neg fun again => first.2.status again.1]

theorem retry_of_failed (bound : k < AHT20_MAX_RETRY)
    (busy : ∀ earlier < k + 1, (reads earlier).Busy errno)
    (failed : (reads (k + 1)).retval ≠ errno.IOT_SUCCESS) :
    retry errno reads (reads 0).buffer 0 = .error (reads (k + 1)).retval := by
  have last := busy k (Nat.lt_succ_self k)
  rw [retry_advance (Nat.zero_le k) (Nat.le_of_lt bound)
    (fun earlier before => busy earlier (Nat.lt_succ_of_lt before)) last.1]
  rw [retry_of_busy last bound, if_pos failed]

theorem retry_of_busy_throughout (busy : ∀ k ≤ AHT20_MAX_RETRY, (reads k).Busy errno) :
    retry errno reads (reads 0).buffer 0 = .ok (AHT20_MAX_RETRY, (reads AHT20_MAX_RETRY).buffer) := by
  rw [retry_advance (Nat.zero_le _) (Nat.le_refl _)
    (fun earlier before => busy earlier (Nat.le_of_lt before)) (busy _ (Nat.le_refl _)).1, retry,
    if_neg fun again => absurd again.2 (Nat.lt_irrefl _)]

/-- How the reads of one measurement go: an error or a result after busy ones,
or all of them busy. -/
theorem reads_cases (errno : Errno) (reads : Nat → Reading) :
    (∃ k ≤ AHT20_MAX_RETRY, FirstReady errno reads k) ∨
      (∃ k ≤ AHT20_MAX_RETRY, (∀ earlier < k, (reads earlier).Busy errno) ∧
        (reads k).retval ≠ errno.IOT_SUCCESS) ∨
      ∀ k ≤ AHT20_MAX_RETRY, (reads k).Busy errno := by
  classical
  by_cases left : ∃ k, k ≤ AHT20_MAX_RETRY ∧ ¬(reads k).Busy errno
  · have bound := (Nat.find_spec left).1
    have busy : ∀ earlier < Nat.find left, (reads earlier).Busy errno := by
      intro earlier before
      by_contra idle
      exact Nat.find_min left before ⟨by omega, idle⟩
    rcases Reading.cases errno (reads (Nat.find left)) with failed | again | ready
    · exact .inr (.inl ⟨_, bound, busy, failed⟩)
    · exact absurd again (Nat.find_spec left).2
    · exact .inl ⟨_, bound, busy, ready⟩
  · push Not at left
    exact .inr (.inr left)

theorem FirstReady.unique {other : Nat} (first : FirstReady errno reads k)
    (second : FirstReady errno reads other) : k = other := by
  have before : ∀ {i j}, FirstReady errno reads i → FirstReady errno reads j → i ≤ j := by
    intro i j firstReady secondReady
    by_contra later
    have busy := (firstReady.1 j (not_le.mp later)).2
    rw [secondReady.2.2] at busy
    cases busy
  exact Nat.le_antisymm (before first second) (before second first)

end Retries

section Measurements

variable {errno : Errno} {reads : Nat → Reading} {k : Nat} {temp humi : ℚ}

/-- Only the counter tells a result from a busy sensor, so the last try never
counts. -/
theorem AHT20_GetMeasureResult_of_firstReady (bound : k < AHT20_MAX_RETRY)
    (first : FirstReady errno reads k) :
    AHT20_GetMeasureResult errno reads (some temp) (some humi) =
      { retval := errno.IOT_SUCCESS
        humi := some (humidity (reads k).buffer / AHT20_RESLUTION * 100)
        temp := some (temperature (reads k).buffer / AHT20_RESLUTION * 200 - 50) } := by
  have initial : (reads 0).retval = errno.IOT_SUCCESS := by
    cases k with
    | zero => exact first.2.1
    | succ k => exact (first.1 0 (Nat.succ_pos k)).1
  unfold AHT20_GetMeasureResult
  rw [if_neg (by simp), AHT20_Read_eq, if_neg (not_not.mpr initial),
    retry_of_firstReady (Nat.le_of_lt bound) first]
  simp only [if_neg (Nat.not_le.mpr bound), humiRaw_toNat, tempRaw_toNat]

theorem AHT20_GetMeasureResult_of_not (temp humi : ℚ)
    (late : ¬∃ k < AHT20_MAX_RETRY, FirstReady errno reads k) :
    ∃ code, code ≠ errno.IOT_SUCCESS ∧
      AHT20_GetMeasureResult errno reads (some temp) (some humi) = ⟨code, some temp, some humi⟩ := by
  unfold AHT20_GetMeasureResult
  rw [if_neg (by simp), AHT20_Read_eq]
  simp only
  split
  · rename_i failed
    exact ⟨_, failed, rfl⟩
  · rename_i initial
    rcases reads_cases errno reads with ⟨k, bound, first⟩ | ⟨k, bound, busy, failed⟩ | busy
    · have last : k = AHT20_MAX_RETRY :=
        Nat.le_antisymm bound (not_lt.mp fun early => late ⟨k, early, first⟩)
      rw [retry_of_firstReady bound first]
      simp only [last, if_pos (Nat.le_refl _)]
      exact ⟨_, errno.distinct, rfl⟩
    · cases k with
      | zero => exact absurd failed initial
      | succ k =>
          rw [retry_of_failed bound busy failed]
          exact ⟨_, failed, rfl⟩
    · rw [retry_of_busy_throughout busy]
      simp only [if_pos (Nat.le_refl _)]
      exact ⟨_, errno.distinct, rfl⟩

theorem values_of_response (response : Response) :
    ∃ newTemp newHumi : ℚ,
      newTemp = temperature response / AHT20_RESLUTION * 200 - 50 ∧
      newHumi = humidity response / AHT20_RESLUTION * 100 ∧
      newHumi = 100 * humidity response / 2 ^ 20 ∧
      newTemp = 200 * temperature response / 2 ^ 20 - 50 ∧
      0 ≤ newHumi ∧ newHumi < 100 ∧ -50 ≤ newTemp ∧ newTemp < 150 := by
  have humidBelow : (humidity response : ℚ) < 2 ^ 20 := by exact_mod_cast humidity_lt response
  have warmBelow : (temperature response : ℚ) < 2 ^ 20 := by exact_mod_cast temperature_lt response
  have humidAbove : (0 : ℚ) ≤ humidity response := Nat.cast_nonneg _
  have warmAbove : (0 : ℚ) ≤ temperature response := Nat.cast_nonneg _
  refine ⟨_, _, rfl, rfl, ?_, ?_, ?_, ?_, ?_, ?_⟩
  all_goals unfold AHT20_RESLUTION
  all_goals linarith

theorem retrieves_iff_success_of_ready :
    Retrieves errno reads temp humi ↔
      ((∃ k ≤ AHT20_MAX_RETRY, FirstReady errno reads k) →
        ∃ k < AHT20_MAX_RETRY, FirstReady errno reads k) := by
  unfold Retrieves
  by_cases early : ∃ k < AHT20_MAX_RETRY, FirstReady errno reads k
  · refine iff_of_true ?_ fun _ => early
    obtain ⟨k, bound, first⟩ := early
    simp only [AHT20_GetMeasureResult_of_firstReady bound first]
    refine ⟨iff_of_true trivial ⟨k, Nat.le_of_lt bound, first⟩, ?_, fun failed => absurd rfl failed⟩
    intro _ other firstToo
    obtain rfl := first.unique firstToo
    obtain ⟨newTemp, newHumi, temp_eq, humi_eq, values⟩ := values_of_response (reads k).buffer
    exact ⟨newTemp, newHumi, by rw [temp_eq], by rw [humi_eq], values⟩
  · obtain ⟨code, failed, measured⟩ :=
      AHT20_GetMeasureResult_of_not temp humi early
    simp only [measured]
    constructor
    · intro retrieves ready
      exact absurd (retrieves.1.mpr ready) failed
    · intro never
      exact ⟨iff_of_false failed fun ready => early (never ready),
        fun succeeded => absurd succeeded failed, fun _ => ⟨trivial, trivial⟩⟩

/-- The measurement keeps its promise except when the result comes with the
last try. -/
theorem retrieves_iff_not_firstReady_last :
    Retrieves errno reads temp humi ↔ ¬FirstReady errno reads AHT20_MAX_RETRY := by
  rw [retrieves_iff_success_of_ready]
  constructor
  · intro early last
    obtain ⟨k, bound, first⟩ := early ⟨AHT20_MAX_RETRY, Nat.le_refl _, last⟩
    exact absurd (first.unique last) (Nat.ne_of_lt bound)
  · rintro never ⟨k, bound, first⟩
    refine ⟨k, lt_of_le_of_ne bound ?_, first⟩
    rintro rfl
    exact never first

/-- Ten busy readings and then a result. -/
def resultAtLastTry (k : Nat) : Reading := ⟨0, fun _ => if k < 10 then 0x98 else 0x18⟩

theorem not_retrieves_of_result_at_last_try :
    ¬Retrieves ⟨0, 1, by decide⟩ resultAtLastTry 0 0 := by
  intro retrieves
  have last : FirstReady ⟨0, 1, by decide⟩ resultAtLastTry AHT20_MAX_RETRY := by
    refine ⟨fun earlier before => ⟨rfl, ?_⟩, rfl, by decide⟩
    simp only [resultAtLastTry, if_pos before]
    decide
  obtain ⟨k, bound, first⟩ :=
    retrieves_iff_success_of_ready.mp retrieves ⟨AHT20_MAX_RETRY, Nat.le_refl _, last⟩
  exact absurd (first.unique last) (Nat.ne_of_lt bound)

end Measurements

end WifiIot.Sensor
