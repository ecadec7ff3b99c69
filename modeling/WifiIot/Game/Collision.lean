import WifiIot.Game.Logic
import WifiIot.Machine.Orbit

/-!
# Collisions

`IsCollision` looks at the first obstacle in the band of the astronaut only.
How the obstacles fall depends on the difficulty that the last game left, but
not on the random positions or the buttons, and the fall repeats itself; two
obstacles are never in the band together.
-/

namespace WifiIot.Game

open Orbit

/-- What the fall of the obstacles depends on.  Beyond 200 the distance makes
no difference. -/
structure Course where
  flag : Nat
  speed : Nat
  distance : Nat
  obstacles : List (Int × Int)
  deriving DecidableEq

namespace Course

/-- One obstacle, given by `Y` and height. -/
def fall (speed : Nat) (obstacle : Int × Int) : Int × Int :=
  let y := short (obstacle.1 + speed)
  if y > SSD1306_HEIGHT then (-(OBSTACLE_INTERVAL * (PIPES_COUNT - 1)), obstacle.2)
  else (y, obstacle.2)

def advance (course : Course) : Course :=
  { course with
    distance := min (course.distance + course.speed) (FLY_DISTANCE_TAG_2 + 1)
    obstacles := course.obstacles.map (fall course.speed) }

def refresh (course : Course) : Course :=
  if course.flag ≠ SPEED_LEVLE_1 then
    if course.distance > FLY_DISTANCE_TAG_1 ∧ course.distance < FLY_DISTANCE_TAG_2 then
      { course with flag := SPEED_LEVLE_1, speed := course.speed + SPEED_LEVLE_1 }
    else course
  else if course.distance > FLY_DISTANCE_TAG_2 then
    { course with flag := SPEED_LEVLE_2, speed := course.speed + SPEED_LEVLE_2 }
  else course

def turn (course : Course) : Course := course.advance.refresh

/-- The start of a game, with the flag that the last game left. -/
def start (flag : Nat) : Course :=
  ⟨flag, INIT_MOVE_SPEED_Y, 0, [(0, 16), (-40, 8), (-80, 14)]⟩

/-- The obstacle is as high as some part of the astronaut. -/
def InBand (obstacle : Int × Int) : Prop := 40 - obstacle.2 < obstacle.1 ∧ obstacle.1 < 64

instance (obstacle : Int × Int) : Decidable (InBand obstacle) := by
  unfold InBand
  infer_instance

/-- At most one obstacle is in the band, and all are near the screen. -/
def Spread (obstacles : List (Int × Int)) : Prop :=
  obstacles.Pairwise (fun first second => ¬(InBand first ∧ InBand second)) ∧
    ∀ obstacle ∈ obstacles, -128 < obstacle.1 ∧ obstacle.1 < 128

instance (obstacles : List (Int × Int)) : Decidable (Spread obstacles) := by
  unfold Spread
  infer_instance

def orbit (flag : Nat) : List Course := List.iterate turn (start flag) 280

theorem orbit_closes : ∀ flag ≤ 2, Closes turn (start flag) 280 := by decide +kernel

theorem orbit_spread : ∀ flag ≤ 2, ∀ course ∈ orbit flag,
    course.flag ≤ 2 ∧ Spread course.advance.obstacles := by decide +kernel

def Reached (course : Course) : Prop := ∃ flag ≤ 2, course ∈ orbit flag

theorem reached_start {flag : Nat} (known : flag ≤ 2) : Reached (start flag) :=
  ⟨flag, known, (orbit_closes flag known).start_mem⟩

variable {course : Course}

theorem Reached.turn (reached : Reached course) : Reached course.turn := by
  obtain ⟨flag, known, visited⟩ := reached
  exact ⟨flag, known, (orbit_closes flag known).next_mem visited⟩

theorem Reached.flag_le (reached : Reached course) : course.flag ≤ 2 := by
  obtain ⟨flag, known, visited⟩ := reached
  exact (orbit_spread flag known course visited).1

theorem Reached.spread (reached : Reached course) : Spread course.advance.obstacles := by
  obtain ⟨flag, known, visited⟩ := reached
  exact (orbit_spread flag known course visited).2

end Course

/-! ## The course of the program's state -/

theorem single_of_lt {value : Nat} (small : value < 2 ^ 24) : single value = value := if_pos small

theorem le_single {value : Nat} (large : 2 ^ 24 ≤ value) : 2 ^ 23 ≤ single value := by
  have exponent : 24 ≤ Nat.log 2 value := Nat.le_log_of_pow_le (by decide) large
  have whole : 2 ^ 23 * 2 ^ (Nat.log 2 value - 23) ≤ value := by
    rw [← pow_add, Nat.add_sub_cancel' (by omega)]
    exact Nat.pow_log_le_self 2 (by omega)
  have positive : 0 < 2 ^ (Nat.log 2 value - 23) := Nat.pow_pos (by decide)
  have quotient : 2 ^ 23 ≤ value / 2 ^ (Nat.log 2 value - 23) :=
    (Nat.le_div_iff_mul_le positive).mpr whole
  unfold single
  rw [if_neg (not_lt.mpr large)]
  simp only
  split
  · exact le_trans quotient (Nat.le_mul_of_pos_right _ positive)
  · exact le_trans (le_trans quotient (Nat.le_succ _)) (Nat.le_mul_of_pos_right _ positive)

/-- Rounding makes no difference below the last threshold. -/
theorem min_single_add (distance speed : Nat) :
    min (single (single distance + speed)) (FLY_DISTANCE_TAG_2 + 1) =
      min (min distance (FLY_DISTANCE_TAG_2 + 1) + speed) (FLY_DISTANCE_TAG_2 + 1) := by
  unfold FLY_DISTANCE_TAG_2
  have rounds (value : Nat) : single value = value ∨ 2 ^ 24 ≤ value ∧ 2 ^ 23 ≤ single value := by
    by_cases small : value < 2 ^ 24
    · exact .inl (single_of_lt small)
    · exact .inr ⟨not_lt.mp small, le_single (not_lt.mp small)⟩
  rcases rounds distance with first | ⟨first, firstLarge⟩ <;>
    rcases rounds (single distance + speed) with second | ⟨second, secondLarge⟩ <;> omega

namespace Globals

def course (globals : Globals) : Course where
  flag := globals.game_difficulty_flag
  speed := globals.moveSpeedY
  distance := min globals.flyDistance (FLY_DISTANCE_TAG_2 + 1)
  obstacles := globals.obstacles.map fun obstacle => (obstacle.Y, obstacle.height)

end Globals

theorem SetRandPosition_fst (obstacle : ObstacleAttr) (results : Rand) :
    (SetRandPosition obstacle results).1.Y = obstacle.Y ∧
      (SetRandPosition obstacle results).1.height = obstacle.height := by
  unfold SetRandPosition rand
  simp only
  split <;> exact ⟨rfl, rfl⟩

theorem moveObstacles_course (speed : Nat) (obstacles : List ObstacleAttr) (results : Rand) :
    (moveObstacles speed obstacles results).1.map (fun obstacle => (obstacle.Y, obstacle.height)) =
      (obstacles.map fun obstacle => (obstacle.Y, obstacle.height)).map (Course.fall speed) := by
  induction obstacles generalizing results with
  | nil => rfl
  | cons obstacle obstacles inductionHypothesis =>
      simp only [moveObstacles, List.map_cons, inductionHypothesis, Course.fall]
      split
      · rw [GenerateObstacle, (SetRandPosition_fst _ _).1, (SetRandPosition_fst _ _).2]
      · rfl

theorem course_advance (globals : Globals) :
    (advance globals).course = globals.course.advance := by
  simp only [advance, Globals.course, Course.advance, moveObstacles_course, min_single_add]

theorem course_RefreshGameDifficulty (globals : Globals) :
    (RefreshGameDifficulty globals).course = globals.course.refresh := by
  have between : (min globals.flyDistance (FLY_DISTANCE_TAG_2 + 1) > FLY_DISTANCE_TAG_1 ∧
      min globals.flyDistance (FLY_DISTANCE_TAG_2 + 1) < FLY_DISTANCE_TAG_2) ↔
      (globals.flyDistance > FLY_DISTANCE_TAG_1 ∧ globals.flyDistance < FLY_DISTANCE_TAG_2) := by
    unfold FLY_DISTANCE_TAG_1 FLY_DISTANCE_TAG_2
    omega
  have beyond : min globals.flyDistance (FLY_DISTANCE_TAG_2 + 1) > FLY_DISTANCE_TAG_2 ↔
      globals.flyDistance > FLY_DISTANCE_TAG_2 := by
    unfold FLY_DISTANCE_TAG_2
    omega
  simp only [RefreshGameDifficulty, Course.refresh, Globals.course, between, beyond]
  by_cases first : globals.game_difficulty_flag = SPEED_LEVLE_1
  · have noSecond : SPEED_LEVLE_1 ≠ SPEED_LEVLE_2 := by decide
    simp only [first, ne_eq, not_true_eq_false, if_false, noSecond, not_false_eq_true, if_true]
    split
    · rfl
    · rw [first]
  · simp only [first, ne_eq, not_false_eq_true, if_true]
    split <;> rfl

theorem course_GameStart (results : Rand) (globals : Globals)
    (speed : globals.moveSpeedY = INIT_MOVE_SPEED_Y) :
    (GameStart results globals).course = Course.start globals.game_difficulty_flag := by
  simp only [GameStart, GameInit, initObstacles, obstacleParm, Globals.course, Course.start, speed,
    List.map_cons, List.map_nil, (SetRandPosition_fst _ _).1, (SetRandPosition_fst _ _).2]
  rfl

/-- What GameTask keeps: at rest the speeds are the first ones, and in a game
the course is one that a game runs through. -/
def Sound : GameTask → Prop
  | ⟨.pending, globals⟩ | ⟨.stop, globals⟩ =>
      globals.game_difficulty_flag ≤ 2 ∧ globals.moveSpeedY = INIT_MOVE_SPEED_Y ∧
        globals.moveSpeedX = INIT_MOVE_SPEED_X
  | ⟨.gameLoop, globals⟩ | ⟨.drawn _, globals⟩ | ⟨.gameOver, globals⟩ =>
      globals.isStarted = true ∧ globals.course.Reached
  | ⟨.refresh _, globals⟩ =>
      globals.isStarted = true ∧ ∃ course : Course, course.Reached ∧ globals.course = course.advance

theorem Button_Callback_frame (event : KeyCode) (globals : Globals) :
    (Button_Callback event globals).course = globals.course ∧
      (Button_Callback event globals).isStarted = globals.isStarted ∧
      (Button_Callback event globals).moveSpeedX = globals.moveSpeedX := by
  cases event <;> exact ⟨rfl, rfl, rfl⟩

theorem sound_step {task next : GameTask} {input : Input} {emitted : List Bool}
    (sound : Sound task) (stepped : machine.step task input = some (next, emitted)) :
    Sound next := by
  obtain ⟨pc, globals⟩ := task
  cases input with
  | button event =>
      cases stepped
      obtain ⟨course, isStarted, moveSpeedX⟩ := Button_Callback_frame event globals
      have flag : (Button_Callback event globals).game_difficulty_flag =
          globals.game_difficulty_flag := congrArg Course.flag course
      have moveSpeedY : (Button_Callback event globals).moveSpeedY = globals.moveSpeedY :=
        congrArg Course.speed course
      cases pc <;> simpa only [Sound, course, isStarted, moveSpeedX, flag, moveSpeedY] using sound
  | start results =>
      cases pc with
      | pending =>
          obtain ⟨known, speed, -⟩ := sound
          simp only [machine, step] at stepped
          split at stepped
          · cases stepped
            refine ⟨rfl, ?_⟩
            rw [course_GameStart results globals speed]
            exact Course.reached_start known
          · cases stepped
      | _ => cases stepped
  | proceed =>
      cases pc with
      | pending =>
          simp only [machine, step] at stepped
          split at stepped
          · cases stepped
          · cases stepped
            exact sound
      | gameLoop =>
          obtain ⟨started, reached⟩ := sound
          simp only [machine, step, GameLoop, started, if_true] at stepped
          cases stepped
          exact ⟨started, globals.course, reached, course_advance globals⟩
      | refresh isCollision =>
          obtain ⟨started, course, reached, same⟩ := sound
          cases stepped
          refine ⟨?_, ?_⟩
          · unfold RefreshGameDifficulty
            repeat' split
            all_goals exact started
          · rw [course_RefreshGameDifficulty, same]
            exact reached.turn
      | drawn isCollision =>
          cases stepped
          cases isCollision <;> exact sound
      | gameOver =>
          cases stepped
          exact ⟨sound.2.flag_le, rfl, rfl⟩
      | stop =>
          cases stepped
          exact sound

theorem sound_of_run {inputs : List Input} {task : GameTask} {log : List Bool}
    (run : machine.Run boot inputs task log) : Sound task := by
  have initially : Sound boot := ⟨by decide, rfl, rfl⟩
  exact run.invariant (fun task _ => Sound task) initially
    fun _ _ _ _ _ sound stepped => sound_step sound stepped

/-! ## What IsCollision reports -/

/-- The astronaut at `position` runs into the obstacle. -/
def Touches (position : Int) (obstacle : ObstacleAttr) : Prop :=
  40 - obstacle.height < obstacle.Y ∧ obstacle.Y < 64 ∧
    obstacle.X - 16 ≤ position ∧ position ≤ obstacle.X + obstacle.width

instance (position : Int) (obstacle : ObstacleAttr) : Decidable (Touches position obstacle) := by
  unfold Touches
  infer_instance

/-- The box of the astronaut, 16 by 24 pixels at height 40, and that of the
obstacle share a pixel. -/
def Overlaps (position : Int) (obstacle : ObstacleAttr) : Prop :=
  position < obstacle.X + obstacle.width ∧ obstacle.X < position + 16 ∧
    40 < obstacle.Y + obstacle.height ∧ obstacle.Y < 40 + 24

theorem Overlaps.touches {position : Int} {obstacle : ObstacleAttr}
    (overlaps : Overlaps position obstacle) : Touches position obstacle := by
  obtain ⟨left, right, above, below⟩ := overlaps
  refine ⟨?_, ?_, ?_, ?_⟩ <;> omega

theorem tmod_width {y : Int} (low : -128 < y) (high : y < 128) :
    Int.tmod y SSD1306_WIDTH = y := by
  unfold SSD1306_WIDTH
  by_cases negative : y < 0
  · have positive : Int.tmod (-y) 128 = -y := Int.tmod_eq_of_lt (by omega) (by omega)
    rw [Int.neg_tmod] at positive
    omega
  · exact Int.tmod_eq_of_lt (by omega) (by omega)

theorem scanObstacles_iff (position : Int) (obstacles : List ObstacleAttr)
    (spread : Course.Spread (obstacles.map fun obstacle => (obstacle.Y, obstacle.height))) :
    scanObstacles position obstacles = true ↔ ∃ obstacle ∈ obstacles, Touches position obstacle := by
  induction obstacles with
  | nil => simp [scanObstacles]
  | cons obstacle obstacles inductionHypothesis =>
      obtain ⟨apart, near⟩ := spread
      rw [List.map_cons, List.pairwise_cons] at apart
      simp only [List.map_cons, List.forall_mem_cons] at near
      have rest := inductionHypothesis ⟨apart.2, near.2⟩
      rw [scanObstacles, tmod_width near.1.1 near.1.2]
      unfold SSD1306_HEIGHT ASTRONAUTS_HEIGHT ASTRONAUTS_WIDTH
      by_cases band : Course.InBand (obstacle.Y, obstacle.height)
      · have inBand : obstacle.Y < 64 ∧ obstacle.Y > 64 - 24 - obstacle.height := by
          obtain ⟨above, below⟩ := band
          omega
        -- No other obstacle can touch the astronaut.
        have others : ∀ other ∈ obstacles, ¬Touches position other := by
          intro other membership touches
          exact apart.1 _ (List.mem_map_of_mem membership) ⟨band, touches.1, touches.2.1⟩
        rw [if_pos inBand, List.exists_mem_cons_iff]
        constructor
        · intro hit
          apply Or.inl
          unfold Touches
          split at hit
          · cases hit
          · omega
        · rintro (touches | ⟨other, membership, touches⟩)
          · obtain ⟨above, below, left, right⟩ := touches
            rw [if_neg (by omega)]
          · exact absurd touches (others other membership)
      · have outside : ¬(obstacle.Y < 64 ∧ obstacle.Y > 64 - 24 - obstacle.height) := by
          intro inside
          apply band
          unfold Course.InBand
          omega
        have misses : ¬Touches position obstacle := fun touches => band ⟨touches.1, touches.2.1⟩
        rw [if_neg outside, rest, List.exists_mem_cons_iff]
        simp only [misses, false_or]

/-- Of obstacles that are spread, `IsCollision` misses none. -/
theorem IsCollision_iff {globals : Globals}
    (spread : Course.Spread (globals.obstacles.map fun obstacle => (obstacle.Y, obstacle.height))) :
    IsCollision globals = true ↔
      globals.astronautsPositionX < 0 ∨ globals.astronautsPositionX > 112 ∨
      ∃ obstacle ∈ globals.obstacles, Touches globals.astronautsPositionX obstacle := by
  unfold IsCollision SSD1306_WIDTH ASTRONAUTS_WIDTH
  by_cases off : globals.astronautsPositionX < 0 ∨ globals.astronautsPositionX > 128 - 16
  · rw [if_pos off]
    refine iff_of_true rfl ?_
    rcases off with left | right
    · exact .inl left
    · exact .inr (.inl (by omega))
  · rw [if_neg off, scanObstacles_iff _ _ spread]
    refine ⟨fun touches => .inr (.inr touches), ?_⟩
    rintro (left | right | touches)
    · exact absurd (.inl left) off
    · exact absurd (.inr (by omega)) off
    · exact touches

theorem spread_advance {globals : Globals} (reached : globals.course.Reached) :
    Course.Spread ((advance globals).obstacles.map fun obstacle =>
      (obstacle.Y, obstacle.height)) := by
  have same : (advance globals).course.obstacles = globals.course.advance.obstacles := by
    rw [course_advance]
  change Course.Spread (advance globals).course.obstacles
  rw [same]
  exact reached.spread

/-- At every call from `GameLoop`, in whatever game and with whatever moves
before, a collision is reported exactly if the astronaut has left the screen or
runs into one of the obstacles; in particular if the boxes overlap. -/
theorem collision_exact {inputs : List Input} {task : GameTask} {log : List Bool}
    (run : machine.Run boot inputs task log) (loop : task.pc = .gameLoop) :
    ((GameLoop task.globals).2 = true ↔
      (GameLoop task.globals).1.astronautsPositionX < 0 ∨
      (GameLoop task.globals).1.astronautsPositionX > 112 ∨
      ∃ obstacle ∈ (GameLoop task.globals).1.obstacles,
        Touches (GameLoop task.globals).1.astronautsPositionX obstacle) ∧
    ((∃ obstacle ∈ (GameLoop task.globals).1.obstacles,
        Overlaps (GameLoop task.globals).1.astronautsPositionX obstacle) →
      (GameLoop task.globals).2 = true) := by
  obtain ⟨pc, globals⟩ := task
  obtain rfl : pc = .gameLoop := loop
  obtain ⟨started, reached⟩ := sound_of_run run
  have exact := IsCollision_iff (spread_advance reached)
  simp only [GameLoop, started, if_true]
  refine ⟨exact, ?_⟩
  rintro ⟨obstacle, membership, overlaps⟩
  exact exact.mpr (.inr (.inr ⟨obstacle, membership, overlaps.touches⟩))

/-- The astronaut stays where he is, and the first obstacle reaches him in the
25th loop. -/
theorem collision_exact_at_rest :
    ∃ task log, machine.Run boot
        ([.button .SSU_USER, .start fun _ => 0] ++ List.replicate 72 .proceed) task log ∧
      (GameLoop task.globals).2 = true := by
  obtain ⟨task, log, run, seen⟩ := machine.exists_run_of_exec
    (fun result => (result.1.pc, decide (∃ obstacle ∈ (GameLoop result.1.globals).1.obstacles,
      Touches (GameLoop result.1.globals).1.astronautsPositionX obstacle))) boot
    ([.button .SSU_USER, .start fun _ => 0] ++ List.replicate 72 .proceed) (.gameLoop, true)
    (by decide +kernel)
  simp only [Prod.mk.injEq, decide_eq_true_eq] at seen
  exact ⟨task, log, run, (collision_exact run seen.1).1.mpr (.inr (.inr seen.2))⟩

end WifiIot.Game
