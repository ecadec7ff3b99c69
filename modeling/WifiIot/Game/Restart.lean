import WifiIot.Game.Collision
import WifiIot.Machine.Simulation

/-!
# Starting again

`GameOver` resets the speeds and `GameInit` the rest, except the difficulty
flag.  A flag of 1 from the last game keeps the next one slow until the second
threshold; any other flag acts like the first one.
-/

namespace WifiIot.Game

/-- What a player sees of the state: the obstacles, the speeds, the distance
and the astronaut. -/
structure View where
  obstacles : List ObstacleAttr
  moveSpeedX : Nat
  moveSpeedY : Nat
  flyDistance : Nat
  astronautsPositionX : Int
  deriving DecidableEq

def view (task : GameTask) : View where
  obstacles := task.globals.obstacles
  moveSpeedX := task.globals.moveSpeedX
  moveSpeedY := task.globals.moveSpeedY
  flyDistance := task.globals.flyDistance
  astronautsPositionX := task.globals.astronautsPositionX

/-- From the next `GameStart` on, both show the same under the same `rand`
results and buttons. -/
def PlaysLike (first second : GameTask) : Prop :=
  ∀ results later, machine.observed view first (.start results :: later) =
    machine.observed view second (.start results :: later)

def firstGame : GameTask :=
  { boot with globals := Button_Callback .SSU_USER boot.globals }

/-- The states agree up to the flag, and only a flag of 1 counts. -/
def AlikeUpToFlag (first second : GameTask) : Prop :=
  second.pc = first.pc ∧
    second.globals =
      { first.globals with game_difficulty_flag := second.globals.game_difficulty_flag } ∧
    (first.globals.game_difficulty_flag = SPEED_LEVLE_1 ↔
      second.globals.game_difficulty_flag = SPEED_LEVLE_1)

section

variable {pc : Pc} {globals : Globals} {flag : Nat}

theorem alikeUpToFlag_iff {first second : GameTask} :
    AlikeUpToFlag first second ↔ ∃ pc globals flag,
      (globals.game_difficulty_flag = SPEED_LEVLE_1 ↔ flag = SPEED_LEVLE_1) ∧
      first = ⟨pc, globals⟩ ∧ second = ⟨pc, { globals with game_difficulty_flag := flag }⟩ := by
  constructor
  · rintro ⟨samePc, sameGlobals, sameFlag⟩
    refine ⟨first.pc, first.globals, second.globals.game_difficulty_flag, sameFlag, rfl, ?_⟩
    rw [← sameGlobals, ← samePc]
  · rintro ⟨pc, globals, flag, sameFlag, rfl, rfl⟩
    exact ⟨rfl, rfl, sameFlag⟩

/-- Only a flag of 1 makes a difference to the refresh. -/
theorem RefreshGameDifficulty_flag
    (same : globals.game_difficulty_flag = SPEED_LEVLE_1 ↔ flag = SPEED_LEVLE_1) :
    ∃ next, ((RefreshGameDifficulty globals).game_difficulty_flag = SPEED_LEVLE_1 ↔
        next = SPEED_LEVLE_1) ∧
      RefreshGameDifficulty { globals with game_difficulty_flag := flag } =
        { RefreshGameDifficulty globals with game_difficulty_flag := next } := by
  by_cases first : globals.game_difficulty_flag = SPEED_LEVLE_1
  · obtain rfl : flag = globals.game_difficulty_flag := (same.mp first).trans first.symm
    exact ⟨_, Iff.rfl, rfl⟩
  have other : flag ≠ SPEED_LEVLE_1 := fun isFirst => first (same.mpr isFirst)
  by_cases between : globals.flyDistance > FLY_DISTANCE_TAG_1 ∧
      globals.flyDistance < FLY_DISTANCE_TAG_2
  · refine ⟨SPEED_LEVLE_1, ?_, ?_⟩
    · simp [RefreshGameDifficulty, first, between]
    · simp [RefreshGameDifficulty, first, other, between]
  · refine ⟨flag, ?_, ?_⟩
    · simp [RefreshGameDifficulty, first, between, other]
    · simp [RefreshGameDifficulty, first, other, between]

theorem alikeUpToFlag_bisimulates : machine.Bisimulates AlikeUpToFlag := by
  intro first second input related
  obtain ⟨pc, globals, flag, same, rfl, rfl⟩ := alikeUpToFlag_iff.mp related
  have later (next : Pc) (state : Globals)
      (kept : state.game_difficulty_flag = globals.game_difficulty_flag) :
      AlikeUpToFlag ⟨next, state⟩ ⟨next, { state with game_difficulty_flag := flag }⟩ :=
    ⟨rfl, rfl, kept ▸ same⟩
  cases input with
  | button event =>
      refine .inr ⟨_, ⟨pc, { Button_Callback event globals with game_difficulty_flag := flag }⟩, [],
        rfl, ?_, later pc _ ?_⟩
      · cases event <;> rfl
      · exact congrArg Course.flag (Button_Callback_frame event globals).1
  | start results =>
      cases pc with
      | pending =>
          by_cases pressed : globals.gameRunningStatus = true
          · exact .inr ⟨_, _, [], if_pos pressed, if_pos pressed, later .gameLoop _ rfl⟩
          · exact .inl ⟨if_neg pressed, if_neg pressed⟩
      | _ => exact .inl ⟨rfl, rfl⟩
  | proceed =>
      cases pc with
      | pending =>
          by_cases pressed : globals.gameRunningStatus = true
          · exact .inl ⟨if_pos pressed, if_pos pressed⟩
          · exact .inr ⟨_, _, [], if_neg pressed, if_neg pressed, later .pending _ rfl⟩
      | gameLoop =>
          by_cases started : globals.isStarted = true
          · have turn (state : Globals) (same : state.isStarted = true) :
                machine.step ⟨.gameLoop, state⟩ .proceed =
                  some (⟨.refresh (IsCollision (advance state)), advance state⟩,
                    [IsCollision (advance state)]) := by
              simp only [machine, step, GameLoop, same, if_true]
            exact .inr ⟨_, _, _, turn globals started, turn _ started, later _ (advance globals) rfl⟩
          · have idle (state : Globals) (same : state.isStarted = globals.isStarted) :
                machine.step ⟨.gameLoop, state⟩ .proceed = some (⟨.refresh false, state⟩, [false]) := by
              simp [machine, step, GameLoop, same, started]
            exact .inr ⟨_, _, _, idle globals rfl, idle _ rfl, later _ _ rfl⟩
      | refresh isCollision =>
          obtain ⟨next, sameNext, refreshed⟩ := RefreshGameDifficulty_flag same
          refine .inr ⟨_, ⟨.drawn isCollision, _⟩, [], rfl, rfl, ?_⟩
          exact alikeUpToFlag_iff.mpr ⟨_, _, next, sameNext, rfl, by rw [refreshed]⟩
      | drawn isCollision => exact .inr ⟨_, _, [], rfl, rfl, later _ _ rfl⟩
      | gameOver => exact .inr ⟨_, _, [], rfl, rfl, later _ _ rfl⟩
      | stop => exact .inr ⟨_, _, [], rfl, rfl, later _ _ rfl⟩

end

/-- The state right after `GameStart`. -/
def started (flag : Nat) (results : Rand) : GameTask :=
  ⟨.gameLoop, GameStart results { firstGame.globals with game_difficulty_flag := flag }⟩

theorem step_start {task : GameTask} (sound : Sound task) (waiting : task.pc = .pending)
    (pressed : task.globals.gameRunningStatus = true) (results : Rand) :
    machine.step task (.start results) =
      some (started task.globals.game_difficulty_flag results, []) := by
  obtain ⟨pc, globals⟩ := task
  obtain rfl : pc = .pending := waiting
  obtain ⟨known, speedY, speedX⟩ := sound
  simp only at pressed
  simp only [machine, step, pressed, if_true, started, firstGame, boot, GameStart, GameInit,
    Button_Callback, speedY, speedX]

def quietTurns : List Input := List.replicate (51 * 3) .proceed

def edges : Rand := fun k => if k = 1 then 0 else 47

theorem slow_start : machine.observed view (started 1 edges) quietTurns ≠
    machine.observed view (started 0 edges) quietTurns := by decide +kernel

/-- After any history, the game that is about to start plays like the first one
exactly if the flag that the history left is not 1. -/
theorem restart_iff {inputs : List Input} {task : GameTask} {log : List Bool}
    (run : machine.Run boot inputs task log) (waiting : task.pc = .pending)
    (pressed : task.globals.gameRunningStatus = true) :
    PlaysLike task firstGame ↔ task.globals.game_difficulty_flag ≠ SPEED_LEVLE_1 := by
  have starts := step_start (sound_of_run run) waiting pressed
  have firstSound : Sound firstGame := ⟨by decide, rfl, rfl⟩
  have firstStarts := step_start firstSound rfl rfl
  constructor
  · intro playsLike isFirst
    have same := playsLike edges quietTurns
    rw [Machine.observed_cons, Machine.observed_cons, starts, firstStarts, isFirst] at same
    simp only [Option.bind_some, List.nil_append, Prod.mk.eta, Option.map_id'] at same
    exact slow_start same
  · intro other results later
    have related : AlikeUpToFlag (started task.globals.game_difficulty_flag results)
        (started firstGame.globals.game_difficulty_flag results) :=
      ⟨rfl, rfl, iff_of_false other (show (0 : Nat) ≠ 1 by decide)⟩
    have sees (first second : GameTask) (related : AlikeUpToFlag first second) :
        view first = view second := by
      obtain ⟨pc, globals, flag, same, rfl, rfl⟩ := alikeUpToFlag_iff.mp related
      rfl
    have alike := alikeUpToFlag_bisimulates.behaveAlike sees related
    rw [Machine.observed_cons, Machine.observed_cons, starts, firstStarts]
    simp only [Option.bind_some, alike later]

/-- A game of the given number of turns that ends at the left edge, and the
button for the next one. -/
def playedGame (turns presses : Nat) : List Input :=
  [.button .SSU_USER, .start edges] ++ List.replicate (turns * 3) .proceed ++
    List.replicate presses (.button .SSU_S1) ++ List.replicate 5 .proceed ++ [.button .SSU_USER]

theorem restart_iff_short_game :
    ∃ task log, machine.Run boot (playedGame 0 27) task log ∧ PlaysLike task firstGame := by
  obtain ⟨task, log, run, seen⟩ := machine.exists_run_of_exec
    (fun result => (result.1.pc, result.1.globals.gameRunningStatus,
      result.1.globals.game_difficulty_flag)) boot (playedGame 0 27) (.pending, true, 0)
    (by decide +kernel)
  simp only [Prod.mk.injEq] at seen
  obtain ⟨waiting, pressed, flag⟩ := seen
  exact ⟨task, log, run, (restart_iff run waiting pressed).mpr (by rw [flag]; decide)⟩

/-- After a game that ended between the thresholds, the next one is still at
speed 1 where the first one had gone on to speed 2. -/
theorem restart_keeps_difficulty :
    ∃ task log, machine.Run boot (playedGame 51 18) task log ∧ task.pc = .pending ∧
      task.globals.gameRunningStatus = true ∧
      (machine.observed view task (.start edges :: quietTurns)).map
        (fun seen => (seen.1.flyDistance, seen.1.moveSpeedY)) = some (51, 1) ∧
      (machine.observed view firstGame (.start edges :: quietTurns)).map
        (fun seen => (seen.1.flyDistance, seen.1.moveSpeedY)) = some (51, 2) := by
  obtain ⟨task, log, run, seen⟩ := machine.exists_run_of_exec
    (fun result => (result.1.pc, result.1.globals.gameRunningStatus,
      (machine.observed view result.1 (.start edges :: quietTurns)).map
        fun seen => (seen.1.flyDistance, seen.1.moveSpeedY))) boot (playedGame 51 18)
    (.pending, true, some (51, 1)) (by decide +kernel)
  simp only [Prod.mk.injEq] at seen
  obtain ⟨waiting, pressed, slow⟩ := seen
  exact ⟨task, log, run, waiting, pressed, slow, by decide +kernel⟩

end WifiIot.Game
