import Mathlib.Algebra.Group.Nat.Defs
import Mathlib.Data.Nat.Log
import WifiIot.Machine.Run

/-!
# The obstacle game

`GameTask` waits for the user button, moves the obstacles until the astronaut
collides with one, and waits again.  The button task calls back between any two
steps.  The float speeds only take integer values; their sum with the distance
is rounded to single precision.

Source: `astronauts_game/game/src/game_logic.c` and `main.c`.
-/

namespace WifiIot.Game

def SSD1306_WIDTH : Int := 128
def SSD1306_HEIGHT : Int := 64
def ASTRONAUTS_WIDTH : Int := 16
def ASTRONAUTS_HEIGHT : Int := 24
def OBSTACLE_INTERVAL : Int := 40
def PIPES_COUNT : Int := 3
def ASTRONAUTS_INIT_POSITION_X : Int := 52
def INIT_MOVE_SPEED_Y : Nat := 1
def INIT_MOVE_SPEED_X : Nat := 2
def SPEED_LEVLE_1 : Nat := 1
def SPEED_LEVLE_2 : Nat := 2
def FLY_DISTANCE_TAG_1 : Nat := 50
def FLY_DISTANCE_TAG_2 : Nat := 200

structure ObstacleAttr where
  X : Int
  Y : Int
  width : Int
  height : Int
  Inverse : Bool
  deriving DecidableEq

/-- Width and height of the obstacles. -/
def obstacleParm : List (Int × Int) := [(16, 16), (16, 8), (16, 14)]

/-- The conversion to a 16-bit integer. -/
def short (value : Int) : Int := Int.bmod value 65536

/-- The nearest number with 24 significant bits, ties to even. -/
def single (value : Nat) : Nat :=
  if value < 2 ^ 24 then value
  else
    let ulp := 2 ^ (Nat.log 2 value - 23)
    let quotient := value / ulp
    let twice := 2 * (value % ulp)
    if twice < ulp ∨ twice = ulp ∧ quotient % 2 = 0 then quotient * ulp else (quotient + 1) * ulp

/-- What `rand` returns after `srand`. -/
abbrev Rand := Nat → Nat

def rand (results : Rand) : Nat × Rand := (results 0, fun k => results (k + 1))

def SetRandPosition (obstacle : ObstacleAttr) (results : Rand) : ObstacleAttr × Rand :=
  let (value, results) := rand results
  if obstacle.Inverse = false then
    ({ obstacle with
        X := SSD1306_WIDTH / 2 + (value : Int) % (SSD1306_WIDTH / 2 - ASTRONAUTS_WIDTH) - 1 },
      results)
  else ({ obstacle with X := (value : Int) % (SSD1306_WIDTH / 2) + 1 }, results)

def GenerateObstacle (obstacle : ObstacleAttr) (results : Rand) : ObstacleAttr × Rand :=
  SetRandPosition { obstacle with Y := -(OBSTACLE_INTERVAL * (PIPES_COUNT - 1)) } results

structure Globals where
  game_difficulty_flag : Nat
  isStarted : Bool
  astronautsPositionX : Int
  moveSpeedY : Nat
  moveSpeedX : Nat
  flyDistance : Nat
  obstacles : List ObstacleAttr
  gameRunningStatus : Bool
  results : Rand

/-- The loop of `GameInit` from obstacle `i` on. -/
def initObstacles (i : Nat) : List (Int × Int) → Rand → List ObstacleAttr × Rand
  | [], results => ([], results)
  | (width, height) :: parms, results =>
      let fresh : ObstacleAttr :=
        ⟨0, -((i : Int) * OBSTACLE_INTERVAL), width, height, i % 2 = 1⟩
      let (obstacle, results) := SetRandPosition fresh results
      let (obstacles, results) := initObstacles (i + 1) parms results
      (obstacle :: obstacles, results)

def GameInit (results : Rand) (globals : Globals) : Globals :=
  let (obstacles, results) := initObstacles 0 obstacleParm results
  { globals with
    obstacles := obstacles
    results := results
    astronautsPositionX := ASTRONAUTS_INIT_POSITION_X
    flyDistance := 0 }

def GameStart (results : Rand) (globals : Globals) : Globals :=
  { GameInit results globals with isStarted := true }

/-- The loop of `IsCollision`: the first obstacle in the band decides. -/
def scanObstacles (position : Int) : List ObstacleAttr → Bool
  | [] => false
  | obstacle :: obstacles =>
      if Int.tmod obstacle.Y SSD1306_WIDTH < SSD1306_HEIGHT ∧
          Int.tmod obstacle.Y SSD1306_WIDTH >
            SSD1306_HEIGHT - ASTRONAUTS_HEIGHT - obstacle.height then
        if position > obstacle.X + obstacle.width ∨ position < obstacle.X - ASTRONAUTS_WIDTH then
          false
        else true
      else scanObstacles position obstacles

def IsCollision (globals : Globals) : Bool :=
  if globals.astronautsPositionX < 0 ∨
      globals.astronautsPositionX > SSD1306_WIDTH - ASTRONAUTS_WIDTH then true
  else scanObstacles globals.astronautsPositionX globals.obstacles

def GameOver (globals : Globals) : Globals :=
  { globals with
    isStarted := false
    moveSpeedY := INIT_MOVE_SPEED_Y
    moveSpeedX := INIT_MOVE_SPEED_X }

def RefreshGameDifficulty (globals : Globals) : Globals :=
  if globals.game_difficulty_flag ≠ SPEED_LEVLE_1 then
    if globals.flyDistance > FLY_DISTANCE_TAG_1 ∧ globals.flyDistance < FLY_DISTANCE_TAG_2 then
      { globals with
        game_difficulty_flag := SPEED_LEVLE_1
        moveSpeedY := globals.moveSpeedY + SPEED_LEVLE_1
        moveSpeedX := globals.moveSpeedX + SPEED_LEVLE_1 }
    else globals
  else if globals.game_difficulty_flag ≠ SPEED_LEVLE_2 then
    if globals.flyDistance > FLY_DISTANCE_TAG_2 then
      { globals with
        game_difficulty_flag := SPEED_LEVLE_2
        moveSpeedY := globals.moveSpeedY + SPEED_LEVLE_2
        moveSpeedX := globals.moveSpeedX + SPEED_LEVLE_2 }
    else globals
  else globals

/-- The loop of `GameLoop` over the obstacles. -/
def moveObstacles (moveSpeedY : Nat) : List ObstacleAttr → Rand → List ObstacleAttr × Rand
  | [], results => ([], results)
  | obstacle :: obstacles, results =>
      let moved := { obstacle with Y := short (obstacle.Y + moveSpeedY) }
      let (obstacle, results) :=
        if moved.Y > SSD1306_HEIGHT then GenerateObstacle moved results else (moved, results)
      let (obstacles, results) := moveObstacles moveSpeedY obstacles results
      (obstacle :: obstacles, results)

/-- `GameLoop` up to the call of `IsCollision`. -/
def advance (globals : Globals) : Globals :=
  let (obstacles, results) :=
    moveObstacles globals.moveSpeedY globals.obstacles globals.results
  { globals with
    flyDistance := single (single globals.flyDistance + globals.moveSpeedY)
    obstacles := obstacles
    results := results }

def GameLoop (globals : Globals) : Globals × Bool :=
  if globals.isStarted then (advance globals, IsCollision (advance globals)) else (globals, false)

def MOVE_LEFT : Nat := 0
def MOVE_RIGHT : Nat := 1

def AstronautMove (flag : Nat) (globals : Globals) : Globals :=
  if flag = 0 then
    { globals with
      astronautsPositionX := short (globals.astronautsPositionX - globals.moveSpeedX) }
  else
    { globals with
      astronautsPositionX := short (globals.astronautsPositionX + globals.moveSpeedX) }

inductive KeyCode where
  | SSU_NONE
  | SSU_USER
  | SSU_S1
  | SSU_S2
  deriving DecidableEq

def Button_Callback (event : KeyCode) (globals : Globals) : Globals :=
  match event with
  | .SSU_S1 => AstronautMove MOVE_LEFT globals
  | .SSU_S2 => AstronautMove MOVE_RIGHT globals
  | .SSU_USER => { globals with gameRunningStatus := true }
  | .SSU_NONE => globals

/-- Where `GameTask` is.  Drawing is between the refresh and the test of
`isCollision`. -/
inductive Pc where
  | pending
  | gameLoop
  | refresh (isCollision : Bool)
  | drawn (isCollision : Bool)
  | gameOver
  | stop
  deriving DecidableEq

structure GameTask where
  pc : Pc
  globals : Globals

inductive Input where
  | proceed
  /-- The task goes on to `GameStart`; `rand` is seeded anew. -/
  | start (results : Rand)
  | button (event : KeyCode)

/-- The output of a step is the result of `GameLoop`. -/
def step (task : GameTask) (input : Input) : Option (GameTask × List Bool) :=
  match input, task with
  | .button event, ⟨pc, globals⟩ => some (⟨pc, Button_Callback event globals⟩, [])
  | .start results, ⟨.pending, globals⟩ =>
      if globals.gameRunningStatus then some (⟨.gameLoop, GameStart results globals⟩, []) else none
  | .start _, _ => none
  | .proceed, ⟨.pending, globals⟩ =>
      if globals.gameRunningStatus then none else some (⟨.pending, globals⟩, [])
  | .proceed, ⟨.gameLoop, globals⟩ =>
      let (globals, isCollision) := GameLoop globals
      some (⟨.refresh isCollision, globals⟩, [isCollision])
  | .proceed, ⟨.refresh isCollision, globals⟩ =>
      some (⟨.drawn isCollision, RefreshGameDifficulty globals⟩, [])
  | .proceed, ⟨.drawn isCollision, globals⟩ =>
      some (⟨if isCollision then .gameOver else .gameLoop, globals⟩, [])
  | .proceed, ⟨.gameOver, globals⟩ => some (⟨.stop, GameOver globals⟩, [])
  | .proceed, ⟨.stop, globals⟩ => some (⟨.pending, { globals with gameRunningStatus := false }⟩, [])

def machine : Machine GameTask Input Bool := ⟨step⟩

def boot : GameTask where
  pc := .pending
  globals :=
    { game_difficulty_flag := 0
      isStarted := false
      astronautsPositionX := ASTRONAUTS_INIT_POSITION_X
      moveSpeedY := INIT_MOVE_SPEED_Y
      moveSpeedX := INIT_MOVE_SPEED_X
      flyDistance := 0
      obstacles := List.replicate 3 ⟨0, 0, 0, 0, false⟩
      gameRunningStatus := false
      results := fun _ => 0 }

end WifiIot.Game
