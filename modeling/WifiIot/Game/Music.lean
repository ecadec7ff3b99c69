import WifiIot.Machine.Trace

/-!
# The beeper of the game

The game task asks for the music by setting a flag; the beeper task polls the
flag, plays the sample and clears the flag when the last note has ended.  A
request counts as served once a playback starts after it.  The flag stands for
the requests that no playback has served, until a step clears it under one.

Source: `astronauts_game/game/src/music.c` and the calls in `game/src/main.c`.
-/

namespace WifiIot.Game.Music

open Trace

def WIFI_IOT_PWM_PORT_PWM0 : Nat := 0
def TIMES_OF_MUSICAL_NOTE_INTERVAL : Nat := 125 * 1000
def THE_TIMES_OF_RELEASE_CPU_RESOURCE : Nat := 1000 * 1000

def g_tuneFreqs : List Nat := [0, 38223, 34052, 30338, 28635, 25511, 22728, 20249, 19048]

def g_scoreNotes : List Nat := [7, 4, 7, 4]

def g_scoreDurations : List Nat := [2, 2, 2, 2]

inductive Action where
  | SetupMusicPlaybackFlag (flag : Bool)
  /-- The call; the notes follow as actions of their own. -/
  | PlaybackMusicSample
  | HalPwmStart (id duty freq : Nat)
  | usleep (usec : Nat)
  | IoTPwmStop (id : Nat)
  deriving DecidableEq

/-- Where the beeper task stands: at the test of the flag, at the call, in the
loop of the playback, at the assignment behind the call, or before `usleep`. -/
inductive Pc where
  | test
  | call
  | start (i : Nat)
  | stop (i : Nat)
  | clear
  | release
  deriving DecidableEq

structure Beeper where
  pc : Pc
  music_playback_flag : Bool
  deriving DecidableEq

/-- Either task may move: the game task with a call, the beeper with its next
step. -/
inductive Input where
  | SetupMusicPlaybackFlag (flag : Bool)
  | beeper
  deriving DecidableEq

def SetupMusicPlaybackFlag (flag : Bool) (beeper : Beeper) : Beeper :=
  { beeper with music_playback_flag := flag }

/-- The loop head of `PlaybackMusicSample`. -/
def nextNote (i : Nat) : Pc := if i < g_scoreNotes.length then .start i else .clear

/-- The tone of a note.  The duty is half of the divisor, cut to an integer by
the parameter of `HalPwmStart`. -/
def startTune (i : Nat) : List Action :=
  let tune := g_scoreNotes.getD i 0
  let freqDivisor := g_tuneFreqs.getD tune 0
  let tuneInterval := g_scoreDurations.getD i 0 * TIMES_OF_MUSICAL_NOTE_INTERVAL
  [.HalPwmStart WIFI_IOT_PWM_PORT_PWM0 (freqDivisor / 2) freqDivisor, .usleep tuneInterval]

/-- A step of `BeeperMusicTask`. -/
def BeeperMusicTask (beeper : Beeper) : Beeper × List Action :=
  match beeper.pc with
  | .test => ({ beeper with pc := if beeper.music_playback_flag then .call else .release }, [])
  | .call => ({ beeper with pc := nextNote 0 }, [.PlaybackMusicSample])
  | .start i => ({ beeper with pc := .stop i }, startTune i)
  | .stop i => ({ beeper with pc := nextNote (i + 1) }, [.IoTPwmStop WIFI_IOT_PWM_PORT_PWM0])
  | .clear => ({ pc := .release, music_playback_flag := false }, [])
  | .release => ({ beeper with pc := .test }, [.usleep THE_TIMES_OF_RELEASE_CPU_RESOURCE])

/-- The game task asks with `true` only. -/
def step (beeper : Beeper) : Input → Option (Beeper × List Action)
  | .SetupMusicPlaybackFlag true =>
      some (SetupMusicPlaybackFlag true beeper, [.SetupMusicPlaybackFlag true])
  | .SetupMusicPlaybackFlag false => none
  | .beeper => some (BeeperMusicTask beeper)

def machine : Machine Beeper Input Action := ⟨step⟩

def boot : Beeper where
  pc := .test
  music_playback_flag := false

/-! ## The law -/

/-- A request was made and no playback has started since. -/
def Unserved (log : List Action) : Prop :=
  Standing (· = .SetupMusicPlaybackFlag true) (· = .PlaybackMusicSample) log

instance (log : List Action) : Decidable (Unserved log) :=
  inferInstanceAs (Decidable (Standing _ _ log))

/-- The flag stands for the requests that are not served. -/
def Pending (beeper : Beeper) (log : List Action) : Prop :=
  Unserved log → beeper.music_playback_flag = true

/-- The flag is not cleared when a request came after the playback started. -/
def ClearsServed (beeper : Beeper) (log : List Action) (input : Input) : Prop :=
  input = .beeper → beeper.pc = .clear → ¬Unserved log

instance (beeper : Beeper) (log : List Action) (input : Input) :
    Decidable (ClearsServed beeper log input) :=
  inferInstanceAs (Decidable (_ → _ → ¬_))

theorem unserved_snoc_call (log : List Action) : ¬Unserved (log ++ [.PlaybackMusicSample]) := by
  rw [Unserved, standing_snoc_iff]
  simp

theorem unserved_step_iff {beeper : Beeper} (uncalled : beeper.pc ≠ .call) (log : List Action) :
    Unserved (log ++ (BeeperMusicTask beeper).2) ↔ Unserved log := by
  apply standing_append_iff_of_forall
  intro event membership
  cases place : beeper.pc with
  | call => exact absurd place uncalled
  | start i =>
      simp only [BeeperMusicTask, place, startTune, List.mem_cons, List.not_mem_nil, or_false] at membership
      rcases membership with rfl | rfl <;> simp
  | stop i =>
      simp only [BeeperMusicTask, place, List.mem_singleton] at membership
      simp [membership]
  | release =>
      simp only [BeeperMusicTask, place, List.mem_singleton] at membership
      simp [membership]
  | test => simp [BeeperMusicTask, place] at membership
  | clear => simp [BeeperMusicTask, place] at membership

/-- Only the clearing step changes the flag. -/
theorem flag_BeeperMusicTask {beeper : Beeper} (kept : beeper.pc ≠ .clear) :
    (BeeperMusicTask beeper).1.music_playback_flag = beeper.music_playback_flag := by
  cases place : beeper.pc with
  | clear => exact absurd place kept
  | _ => simp [BeeperMusicTask, place]

theorem pending_step_iff {beeper next : Beeper} {log emitted : List Action} {input : Input}
    (pending : Pending beeper log)
    (stepped : machine.step beeper input = some (next, emitted)) :
    Pending next (log ++ emitted) ↔ ClearsServed beeper log input := by
  cases input with
  | SetupMusicPlaybackFlag flag =>
      cases flag with
      | false => cases stepped
      | true =>
          obtain ⟨rfl, rfl⟩ : _ = next ∧ _ = emitted := by simpa [machine, step] using stepped
          exact iff_of_true (fun _ => rfl) (fun same => by cases same)
  | beeper =>
      have same : BeeperMusicTask beeper = (next, emitted) := Option.some.inj stepped
      obtain rfl : (BeeperMusicTask beeper).1 = next := by rw [same]
      obtain rfl : (BeeperMusicTask beeper).2 = emitted := by rw [same]
      by_cases called : beeper.pc = .call
      · -- the playback that starts here serves every request
        have emitted : (BeeperMusicTask beeper).2 = [.PlaybackMusicSample] := by
          simp [BeeperMusicTask, called]
        refine iff_of_true ?_ fun _ cleared => by rw [called] at cleared; cases cleared
        rw [emitted]
        exact fun unserved => absurd unserved (unserved_snoc_call log)
      rw [Pending, unserved_step_iff called]
      by_cases cleared : beeper.pc = .clear
      · have lowered : (BeeperMusicTask beeper).1.music_playback_flag = false := by
          simp [BeeperMusicTask, cleared]
        simp [ClearsServed, cleared, lowered]
      · rw [flag_BeeperMusicTask cleared]
        exact iff_of_true pending fun _ same => absurd same cleared

/-- No request is lost exactly in the runs in which the flag is never cleared
under a request that came after the playback started. -/
theorem pending_throughout_iff {inputs : List Input} {beeper : Beeper} {log : List Action}
    (run : machine.Run boot inputs beeper log) :
    machine.Throughout Pending boot inputs ↔ machine.Meets ClearsServed boot inputs := by
  refine run.throughout_iff_meets (fun _ _ => True) ⟨trivial, ?_⟩ (fun _ _ _ _ _ _ _ => trivial) ?_
  · exact fun unserved => absurd unserved not_standing_nil
  · intro state log input next emitted _ pending stepped
    exact pending_step_iff pending stepped

/-- A request, the playback it starts, and further requests in the first note of
that playback, up to the step that clears the flag. -/
def requestDuring (requests : Nat) : List Input :=
  [.SetupMusicPlaybackFlag true] ++ List.replicate 3 .beeper ++
    List.replicate requests (.SetupMusicPlaybackFlag true) ++ List.replicate 8 .beeper

theorem pending_throughout_iff_one_request :
    machine.Throughout Pending boot (requestDuring 0) := by
  obtain ⟨beeper, log, run, -⟩ := machine.exists_run_of_exec (fun _ => ()) boot (requestDuring 0) ()
    (by decide)
  refine (pending_throughout_iff run).mpr ?_
  exact Machine.meets_of_meetsFrom (fun beeper log input => decide (ClearsServed beeper log input))
    (fun _ _ _ => of_decide_eq_true) (by decide)

/-- The second request comes in the first note and is gone with the first one. -/
theorem request_lost : ∃ beeper log, machine.Run boot (requestDuring 1) beeper log ∧
    Unserved log ∧ beeper.music_playback_flag = false := by
  obtain ⟨beeper, log, run, seen⟩ := machine.exists_run_of_exec
    (fun result => (decide (Unserved result.2), result.1.music_playback_flag)) boot
    (requestDuring 1) (true, false) (by decide)
  simp only [Prod.mk.injEq, decide_eq_true_eq] at seen
  exact ⟨beeper, log, run, seen⟩

end WifiIot.Game.Music
