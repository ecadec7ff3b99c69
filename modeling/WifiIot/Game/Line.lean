import Mathlib.Data.List.Range
import Mathlib.Tactic.Ring
import WifiIot.Display.Framebuffer
import WifiIot.Machine.Loop
import WifiIot.Raster.Line

/-!
# The lines of the game

`ssd1306_DrawLine` goes on until both coordinates have reached the end at once.
The error term tells the progress on both axes, so the major axis takes part in
every round and the minor one as `track` says.

Source: `astronauts_game/game/src/oled.c`.
-/

namespace WifiIot.Game.Oled

open Display Memory Raster

def DRAW_LINE_CALC_PARM : Int := 2

structure Slope where
  deltaX : Int
  deltaY : Int
  signX : Int
  signY : Int

structure Pen where
  x1 : UInt8
  y1 : UInt8
  error : Int

def extent (first last : UInt8) : Nat := ((last.toNat : Int) - first.toNat).natAbs

def sign (first last : UInt8) : Int := if first < last then 1 else -1

def slope (x1 y1 x2 y2 : UInt8) : Slope where
  deltaX := extent x1 x2
  deltaY := extent y1 y2
  signX := sign x1 x2
  signY := sign y1 y2

def Pen.next (slope : Slope) (pen : Pen) : Pen :=
  let error2 := pen.error * DRAW_LINE_CALC_PARM
  let moved :=
    if error2 > -slope.deltaY then
      { pen with
        error := pen.error - slope.deltaY
        x1 := UInt8.ofInt (pen.x1.toNat + slope.signX) }
    else pen
  if error2 < slope.deltaX then
    { moved with
      error := moved.error + slope.deltaX
      y1 := UInt8.ofInt (moved.y1.toNat + slope.signY) }
  else moved

section Drawing

variable {Canvas : Type} (draw : Canvas → UInt8 × UInt8 → Canvas)

def unfinished (x2 y2 : UInt8) (state : Pen × Canvas) : Bool :=
  state.1.x1 != x2 || state.1.y1 != y2

def round (slope : Slope) (state : Pen × Canvas) : Pen × Canvas :=
  (state.1.next slope, draw state.2 (state.1.x1, state.1.y1))

def firstPen (x1 y1 x2 y2 : UInt8) : Pen :=
  ⟨x1, y1, (slope x1 y1 x2 y2).deltaX - (slope x1 y1 x2 y2).deltaY⟩

/-- The line on any canvas that takes the calls of `ssd1306_DrawPixel`.  At most the given
number of rounds; `none` if the loop has not ended then. -/
def drawLine (rounds : Nat) (canvas : Canvas) (x1 y1 x2 y2 : UInt8) : Option Canvas :=
  (whileLoop (unfinished x2 y2) (round draw (slope x1 y1 x2 y2)) rounds
    (firstPen x1 y1 x2 y2, draw canvas (x2, y2))).map Prod.snd

end Drawing

def ssd1306_DrawLine (rounds : Nat) (screen : Screen) (x1 y1 x2 y2 : UInt8)
    (color : SSD1306_COLOR) : Option Screen :=
  drawLine (fun screen place => ssd1306_DrawPixel screen place.1 place.2 color) rounds screen
    x1 y1 x2 y2

/-- The places that are passed to `ssd1306_DrawPixel`, in the order of the calls. -/
def drawPixelCalls (rounds : Nat) (x1 y1 x2 y2 : UInt8) : Option (List (UInt8 × UInt8)) :=
  drawLine (fun calls place => calls ++ [place]) rounds [] x1 y1 x2 y2

def penAfter (x1 y1 x2 y2 : UInt8) (rounds : Nat) : Pen :=
  (Pen.next (slope x1 y1 x2 y2))^[rounds] (firstPen x1 y1 x2 y2)

/-! ## Lines between two pixels -/

/-- How far a place is off the straight line, along the minor axis. -/
def offset (first last place : UInt8 × UInt8) : ℚ :=
  let width : ℚ := last.1.toNat - first.1.toNat
  let height : ℚ := last.2.toNat - first.2.toNat
  let right : ℚ := place.1.toNat - first.1.toNat
  let down : ℚ := place.2.toNat - first.2.toNat
  if extent first.2 last.2 ≤ extent first.1 last.1 then down - right * (height / width)
  else right - down * (width / height)

def steps (first last : UInt8 × UInt8) : Nat := max (extent first.1 last.1) (extent first.2 last.2)

/-- A path of neighbouring pixels that follows the straight line. -/
structure Follows (first last : UInt8 × UInt8) (path : List (UInt8 × UInt8)) : Prop where
  length : path.length = steps first last + 1
  begins : path.head? = some first
  ends : path.getLast? = some last
  connected : path.IsChain fun place next =>
    extent place.1 next.1 ≤ 1 ∧ extent place.2 next.2 ≤ 1 ∧
      (extent first.2 last.2 ≤ extent first.1 last.1 → extent place.1 next.1 = 1) ∧
      (extent first.1 last.1 < extent first.2 last.2 → extent place.2 next.2 = 1)
  inBox : ∀ place ∈ path,
    min first.1.toNat last.1.toNat ≤ place.1.toNat ∧
      place.1.toNat ≤ max first.1.toNat last.1.toNat ∧
      min first.2.toNat last.2.toNat ≤ place.2.toNat ∧
      place.2.toNat ≤ max first.2.toNat last.2.toNat
  near : ∀ place ∈ path, |offset first last place| ≤ 1 / 2

/-- A coordinate stays or moves by its sign, as an integer. -/
def Unwrapped (first last coordinate next : UInt8) : Prop :=
  (next.toNat : Int) = coordinate.toNat ∨ (next.toNat : Int) = coordinate.toNat + sign first last

/-! ## Coordinates -/

def reach (first last : UInt8) (taken : Nat) : UInt8 :=
  UInt8.ofInt (first.toNat + sign first last * taken)

section Reach

variable {first last : UInt8}

theorem toNat_reach {taken : Nat} (within : taken ≤ extent first last) :
    ((reach first last taken).toNat : Int) = first.toNat + sign first last * taken := by
  have cut := toNat_ofInt (first.toNat + sign first last * taken)
  have small := UInt8.toNat_lt first
  have smallLast := UInt8.toNat_lt last
  rw [reach, cut]
  unfold extent at within
  unfold sign
  simp only [UInt8.lt_iff_toNat_lt]
  split <;> omega

theorem reach_succ (first last : UInt8) (taken : Nat) :
    UInt8.ofInt ((reach first last taken).toNat + sign first last) =
      reach first last (taken + 1) := by
  have before := toNat_ofInt (first.toNat + sign first last * taken)
  have after := toNat_ofInt (first.toNat + sign first last * (taken + 1 : Nat))
  have stepped := toNat_ofInt ((reach first last taken).toNat + sign first last)
  apply UInt8.toNat_inj.mp
  unfold reach at stepped ⊢
  rw [Nat.cast_succ, mul_add, mul_one] at after
  rw [Nat.cast_succ, mul_add, mul_one]
  omega

theorem reach_zero (first last : UInt8) : reach first last 0 = first := by
  apply UInt8.toNat_inj.mp
  have same := toNat_reach (Nat.zero_le (extent first last))
  simpa using same

theorem reach_extent (first last : UInt8) : reach first last (extent first last) = last := by
  apply UInt8.toNat_inj.mp
  have same := toNat_reach (le_refl (extent first last))
  generalize reach first last (extent first last) = place at same ⊢
  unfold extent sign at same
  simp only [UInt8.lt_iff_toNat_lt] at same
  split at same <;> omega

theorem extent_reach {taken later : Nat} (order : taken ≤ later) (within : later ≤ extent first last) :
    extent (reach first last taken) (reach first last later) = later - taken := by
  have before := toNat_reach (le_trans order within)
  have after := toNat_reach within
  unfold extent
  rw [before, after]
  unfold sign
  split <;> omega

theorem reach_mem_box {taken : Nat} (within : taken ≤ extent first last) :
    min first.toNat last.toNat ≤ (reach first last taken).toNat ∧
      (reach first last taken).toNat ≤ max first.toNat last.toNat := by
  have place := toNat_reach within
  generalize reach first last taken = reached at place ⊢
  unfold extent at within
  unfold sign at place
  simp only [UInt8.lt_iff_toNat_lt] at place
  split at place <;> omega

end Reach

/-! ## The loop -/

section Loop

variable (x1 y1 x2 y2 : UInt8)

def penAt (across down : Nat) : Pen where
  x1 := reach x1 x2 across
  y1 := reach y1 y2 down
  error := (down + 1) * extent x1 x2 - (across + 1) * extent y1 y2

def across (rounds : Nat) : Nat :=
  if extent y1 y2 ≤ extent x1 x2 then rounds else track (extent y1 y2) (extent x1 x2) rounds

def down (rounds : Nat) : Nat :=
  if extent y1 y2 ≤ extent x1 x2 then track (extent x1 x2) (extent y1 y2) rounds else rounds

section Round

variable {x1 y1 x2 y2} {across down : Nat}

theorem steps_right_iff :
    (penAt x1 y1 x2 y2 across down).error * DRAW_LINE_CALC_PARM > -(extent y1 y2 : Int) ↔
      follows (extent y1 y2) (extent x1 x2) down across := by
  simp only [penAt, DRAW_LINE_CALC_PARM, follows]
  zify
  constructor
  · intro passed
    linarith
  · intro behind
    linarith

theorem steps_down_iff :
    (penAt x1 y1 x2 y2 across down).error * DRAW_LINE_CALC_PARM < (extent x1 x2 : Int) ↔
      follows (extent x1 x2) (extent y1 y2) across down := by
  simp only [penAt, DRAW_LINE_CALC_PARM, follows]
  zify
  constructor
  · intro passed
    linarith
  · intro behind
    linarith

theorem next_penAt :
    (penAt x1 y1 x2 y2 across down).next (slope x1 y1 x2 y2) =
      penAt x1 y1 x2 y2
        (if follows (extent y1 y2) (extent x1 x2) down across then across + 1 else across)
        (if follows (extent x1 x2) (extent y1 y2) across down then down + 1 else down) := by
  have right : ({ penAt x1 y1 x2 y2 across down with
        error := (penAt x1 y1 x2 y2 across down).error - extent y1 y2
        x1 := UInt8.ofInt ((penAt x1 y1 x2 y2 across down).x1.toNat + sign x1 x2) } : Pen) =
      penAt x1 y1 x2 y2 (across + 1) down := by
    simp only [penAt, reach_succ, Pen.mk.injEq, true_and]
    push_cast
    ring
  have lower (across : Nat) : ({ penAt x1 y1 x2 y2 across down with
        error := (penAt x1 y1 x2 y2 across down).error + extent x1 x2
        y1 := UInt8.ofInt ((penAt x1 y1 x2 y2 across down).y1.toNat + sign y1 y2) } : Pen) =
      penAt x1 y1 x2 y2 across (down + 1) := by
    simp only [penAt, reach_succ, Pen.mk.injEq, true_and]
    push_cast
    ring
  simp only [Pen.next, slope, steps_right_iff, steps_down_iff, right]
  split_ifs
  · exact lower (across + 1)
  · exact lower across
  · rfl
  · rfl

end Round

section Progress

variable {x1 y1 x2 y2} {rounds : Nat}

theorem steps_pos_cases (moves : 0 < steps (x1, y1) (x2, y2)) :
    (extent y1 y2 ≤ extent x1 x2 ∧ 0 < extent x1 x2 ∧ steps (x1, y1) (x2, y2) = extent x1 x2) ∨
      (¬extent y1 y2 ≤ extent x1 x2 ∧ 0 < extent y1 y2 ∧
        steps (x1, y1) (x2, y2) = extent y1 y2) := by
  simp only [steps] at moves ⊢
  omega

/-- The minor axis is within half a step of the line. -/
theorem nearest_down (flat : extent y1 y2 ≤ extent x1 x2) (wide : 0 < extent x1 x2) (rounds : Nat) :
    across x1 y1 x2 y2 rounds = rounds ∧
      Nearest (extent x1 x2) (extent y1 y2) rounds (down x1 y1 x2 y2 rounds) := by
  unfold across down
  rw [if_pos flat, if_pos flat]
  exact ⟨rfl, nearest_track wide flat rounds⟩

theorem nearest_across (steep : ¬extent y1 y2 ≤ extent x1 x2) (rounds : Nat) :
    down x1 y1 x2 y2 rounds = rounds ∧
      Nearest (extent y1 y2) (extent x1 x2) rounds (across x1 y1 x2 y2 rounds) := by
  have high : extent x1 x2 < extent y1 y2 := not_le.mp steep
  unfold across down
  rw [if_neg steep, if_neg steep]
  exact ⟨rfl, nearest_track (Nat.zero_lt_of_lt high) high.le rounds⟩

/-- The major axis takes part in every round. -/
theorem penAt_succ (moves : 0 < steps (x1, y1) (x2, y2)) (rounds : Nat) :
    (penAt x1 y1 x2 y2 (across x1 y1 x2 y2 rounds) (down x1 y1 x2 y2 rounds)).next
        (slope x1 y1 x2 y2) =
      penAt x1 y1 x2 y2 (across x1 y1 x2 y2 (rounds + 1)) (down x1 y1 x2 y2 (rounds + 1)) := by
  rw [next_penAt]
  rcases steps_pos_cases moves with ⟨flat, wide, -⟩ | ⟨steep, high, -⟩
  · obtain ⟨same, nearest⟩ := nearest_down flat wide rounds
    obtain ⟨sameNext, -⟩ := nearest_down flat wide (rounds + 1)
    rw [same, sameNext, if_pos (nearest.advances wide flat)]
    simp only [down, if_pos flat, track]
  · obtain ⟨same, nearest⟩ := nearest_across steep rounds
    obtain ⟨sameNext, -⟩ := nearest_across steep (rounds + 1)
    rw [same, sameNext, if_pos (nearest.advances high (Nat.le_of_not_le steep))]
    simp only [across, if_neg steep, track]

theorem progress_zero : across x1 y1 x2 y2 0 = 0 ∧ down x1 y1 x2 y2 0 = 0 := by
  unfold across down
  split <;> exact ⟨rfl, rfl⟩

theorem extent_le (first last : UInt8) : extent first last ≤ 255 := by
  have small := UInt8.toNat_lt first
  have smallLast := UInt8.toNat_lt last
  unfold extent
  omega

/-- The error term is small, so no `int32` overflows. -/
theorem abs_error_le (moves : 0 < steps (x1, y1) (x2, y2)) (rounds : Nat) :
    |(penAt x1 y1 x2 y2 (across x1 y1 x2 y2 rounds) (down x1 y1 x2 y2 rounds)).error *
      DRAW_LINE_CALC_PARM| ≤ 765 := by
  have width := extent_le x1 x2
  have height := extent_le y1 y2
  rw [abs_le]
  simp only [penAt, DRAW_LINE_CALC_PARM]
  rcases steps_pos_cases moves with ⟨flat, wide, -⟩ | ⟨steep, high, -⟩
  · obtain ⟨same, above, below⟩ := nearest_down flat wide rounds
    rw [same]
    zify at above below width height flat
    exact ⟨by linarith, by linarith⟩
  · obtain ⟨same, above, below⟩ := nearest_across steep rounds
    rw [same]
    zify at above below width height steep
    exact ⟨by linarith, by linarith⟩

/-- No coordinate leaves its extent before the end. -/
theorem progress_le (within : rounds ≤ steps (x1, y1) (x2, y2)) :
    across x1 y1 x2 y2 rounds ≤ extent x1 x2 ∧ down x1 y1 x2 y2 rounds ≤ extent y1 y2 := by
  rcases Nat.eq_zero_or_pos (steps (x1, y1) (x2, y2)) with still | moves
  · obtain rfl : rounds = 0 := by omega
    rw [progress_zero.1, progress_zero.2]
    exact ⟨Nat.zero_le _, Nat.zero_le _⟩
  rcases steps_pos_cases moves with ⟨flat, wide, length⟩ | ⟨steep, high, length⟩
  · obtain ⟨same, nearest⟩ := nearest_down flat wide rounds
    exact ⟨by omega, nearest.le_minor (by omega)⟩
  · obtain ⟨same, nearest⟩ := nearest_across steep rounds
    exact ⟨nearest.le_minor (by omega), by omega⟩

theorem progress_end : across x1 y1 x2 y2 (steps (x1, y1) (x2, y2)) = extent x1 x2 ∧
    down x1 y1 x2 y2 (steps (x1, y1) (x2, y2)) = extent y1 y2 := by
  obtain ⟨right, lower⟩ := progress_le (le_refl (steps (x1, y1) (x2, y2)))
  rcases Nat.eq_zero_or_pos (steps (x1, y1) (x2, y2)) with still | moves
  · have flat : extent x1 x2 = 0 ∧ extent y1 y2 = 0 := by
      simpa [steps] using still
    omega
  rcases steps_pos_cases moves with ⟨flat, wide, length⟩ | ⟨steep, high, length⟩
  · rw [length]
    obtain ⟨same, nearest⟩ := nearest_down flat wide (extent x1 x2)
    exact ⟨same, nearest.eq_minor wide⟩
  · rw [length]
    obtain ⟨same, nearest⟩ := nearest_across steep (extent y1 y2)
    exact ⟨nearest.eq_minor high, same⟩

end Progress

/-! ## The path -/

def place (rounds : Nat) : UInt8 × UInt8 :=
  (reach x1 x2 (across x1 y1 x2 y2 rounds), reach y1 y2 (down x1 y1 x2 y2 rounds))

def path : List (UInt8 × UInt8) :=
  (List.range (steps (x1, y1) (x2, y2) + 1)).map (place x1 y1 x2 y2)

section Path

variable {x1 y1 x2 y2} {rounds : Nat}

theorem place_end : place x1 y1 x2 y2 (steps (x1, y1) (x2, y2)) = (x2, y2) := by
  obtain ⟨right, lower⟩ := @progress_end x1 y1 x2 y2
  rw [place, right, lower, reach_extent, reach_extent]

theorem place_zero : place x1 y1 x2 y2 0 = (x1, y1) := by
  rw [place, progress_zero.1, progress_zero.2, reach_zero, reach_zero]

theorem place_ne_end (before : rounds < steps (x1, y1) (x2, y2)) :
    place x1 y1 x2 y2 rounds ≠ (x2, y2) := by
  intro arrived
  obtain ⟨right, lower⟩ := Prod.mk.inj arrived
  have still (coordinate : UInt8) : extent coordinate coordinate = 0 := by simp [extent]
  rcases steps_pos_cases (Nat.zero_lt_of_lt before) with ⟨flat, wide, length⟩ | ⟨steep, high, length⟩
  · obtain ⟨same, -⟩ := nearest_down flat wide rounds
    have short : extent (reach x1 x2 rounds) (reach x1 x2 (extent x1 x2)) = extent x1 x2 - rounds :=
      extent_reach (by omega) le_rfl
    rw [same] at right
    rw [right, reach_extent, still] at short
    omega
  · obtain ⟨same, -⟩ := nearest_across steep rounds
    have short : extent (reach y1 y2 rounds) (reach y1 y2 (extent y1 y2)) = extent y1 y2 - rounds :=
      extent_reach (by omega) le_rfl
    rw [same] at lower
    rw [lower, reach_extent, still] at short
    omega

theorem progress_step (before : rounds < steps (x1, y1) (x2, y2)) :
    extent (place x1 y1 x2 y2 rounds).1 (place x1 y1 x2 y2 (rounds + 1)).1 =
        across x1 y1 x2 y2 (rounds + 1) - across x1 y1 x2 y2 rounds ∧
      extent (place x1 y1 x2 y2 rounds).2 (place x1 y1 x2 y2 (rounds + 1)).2 =
        down x1 y1 x2 y2 (rounds + 1) - down x1 y1 x2 y2 rounds := by
  obtain ⟨right, lower⟩ := progress_le (Nat.succ_le_of_lt before)
  have forward : across x1 y1 x2 y2 rounds ≤ across x1 y1 x2 y2 (rounds + 1) ∧
      down x1 y1 x2 y2 rounds ≤ down x1 y1 x2 y2 (rounds + 1) := by
    have slow := track_succ_cases (extent x1 x2) (extent y1 y2) rounds
    have slowAcross := track_succ_cases (extent y1 y2) (extent x1 x2) rounds
    unfold across down
    split <;> omega
  exact ⟨extent_reach forward.1 right, extent_reach forward.2 lower⟩

theorem reach_sub {first last : UInt8} {taken : Nat} (within : taken ≤ extent first last) :
    ((reach first last taken).toNat : ℚ) - first.toNat = sign first last * taken ∧
      (last.toNat : ℚ) - first.toNat = sign first last * extent first last := by
  have covered : ((reach first last taken).toNat : ℚ) = first.toNat + sign first last * taken := by
    exact_mod_cast toNat_reach within
  have whole : (last.toNat : ℚ) = first.toNat + sign first last * extent first last := by
    have same := toNat_reach (le_refl (extent first last))
    rw [reach_extent] at same
    exact_mod_cast same
  constructor
  · linarith
  · linarith

theorem sign_cases (first last : UInt8) : (sign first last : ℚ) = 1 ∨ (sign first last : ℚ) = -1 := by
  unfold sign
  split
  · exact .inl (by norm_num)
  · exact .inr (by norm_num)

theorem abs_offset_place (within : rounds ≤ steps (x1, y1) (x2, y2)) :
    |offset (x1, y1) (x2, y2) (place x1 y1 x2 y2 rounds)| ≤ 1 / 2 := by
  obtain ⟨right, lower⟩ := progress_le within
  obtain ⟨covered, width⟩ := reach_sub right
  obtain ⟨descended, height⟩ := reach_sub lower
  rcases Nat.eq_zero_or_pos (steps (x1, y1) (x2, y2)) with still | moves
  · obtain rfl : rounds = 0 := by omega
    simp [offset, place_zero]
  simp only [offset, place, covered, width, descended, height]
  rcases steps_pos_cases moves with ⟨flat, wide, -⟩ | ⟨steep, high, -⟩
  · obtain ⟨same, nearest⟩ := nearest_down flat wide rounds
    rw [if_pos flat, same]
    exact nearest.within_half_signed wide (sign_cases x1 x2) (sign_cases y1 y2)
  · obtain ⟨same, nearest⟩ := nearest_across steep rounds
    rw [if_neg steep, same]
    exact nearest.within_half_signed high (sign_cases y1 y2) (sign_cases x1 x2)

end Path

theorem follows_path : Follows (x1, y1) (x2, y2) (path x1 y1 x2 y2) where
  length := by simp [path]
  begins := by
    rw [path, List.head?_map, List.head?_range, if_neg (Nat.succ_ne_zero _), Option.map_some,
      place_zero]
  ends := by
    rw [path, List.range_succ, List.map_append, List.map_singleton, List.getLast?_concat, place_end]
  connected := by
    rw [path, List.isChain_map, List.isChain_range_succ]
    intro rounds before
    obtain ⟨right, lower⟩ := progress_step before
    rw [right, lower]
    have slow := track_succ_cases (extent x1 x2) (extent y1 y2) rounds
    have slowAcross := track_succ_cases (extent y1 y2) (extent x1 x2) rounds
    unfold across down
    split
    · rename_i flat
      exact ⟨by omega, by omega, fun _ => by omega, fun steep => absurd flat (not_le.mpr steep)⟩
    · rename_i steep
      exact ⟨by omega, by omega, fun flat => absurd flat steep, fun _ => by omega⟩
  inBox := by
    intro place membership
    obtain ⟨rounds, listed, rfl⟩ := List.mem_map.mp membership
    obtain ⟨right, lower⟩ := progress_le (Nat.le_of_lt_succ (List.mem_range.mp listed))
    obtain ⟨left, leftEnd⟩ := reach_mem_box right
    obtain ⟨top, topEnd⟩ := reach_mem_box lower
    exact ⟨left, leftEnd, top, topEnd⟩
  near := by
    intro place membership
    obtain ⟨rounds, listed, rfl⟩ := List.mem_map.mp membership
    exact abs_offset_place (Nat.le_of_lt_succ (List.mem_range.mp listed))

section Rounds

variable {x1 y1 x2 y2} {Canvas : Type} {draw : Canvas → UInt8 × UInt8 → Canvas}

theorem penAfter_eq {rounds : Nat} (within : rounds ≤ steps (x1, y1) (x2, y2)) :
    penAfter x1 y1 x2 y2 rounds =
      penAt x1 y1 x2 y2 (across x1 y1 x2 y2 rounds) (down x1 y1 x2 y2 rounds) := by
  induction rounds with
  | zero =>
      rw [progress_zero.1, progress_zero.2]
      simp [penAfter, firstPen, penAt, slope, reach_zero]
  | succ rounds inductionHypothesis =>
      rw [← penAt_succ (Nat.zero_lt_of_lt within), ← inductionHypothesis (Nat.le_of_succ_le within)]
      exact Function.iterate_succ_apply' ..

theorem place_penAfter {rounds : Nat} (within : rounds ≤ steps (x1, y1) (x2, y2)) :
    ((penAfter x1 y1 x2 y2 rounds).x1, (penAfter x1 y1 x2 y2 rounds).y1) =
      place x1 y1 x2 y2 rounds := by
  rw [penAfter_eq within]
  rfl

theorem iterate_round (canvas : Canvas) {rounds : Nat}
    (within : rounds ≤ steps (x1, y1) (x2, y2)) :
    (round draw (slope x1 y1 x2 y2))^[rounds] (firstPen x1 y1 x2 y2, canvas) =
      (penAfter x1 y1 x2 y2 rounds, ((List.range rounds).map (place x1 y1 x2 y2)).foldl draw canvas) := by
  induction rounds with
  | zero => rfl
  | succ rounds inductionHypothesis =>
      have before := Nat.le_of_succ_le within
      rw [Function.iterate_succ_apply', inductionHypothesis before, round, place_penAfter before,
        List.range_succ, List.map_append, List.foldl_append, penAfter, penAfter,
        Function.iterate_succ_apply']
      rfl

theorem unfinished_eq_false_iff {state : Pen × Canvas} :
    unfinished x2 y2 state = false ↔ (state.1.x1, state.1.y1) = (x2, y2) := by
  simp [unfinished]

theorem path_dropLast :
    (path x1 y1 x2 y2).dropLast = (List.range (steps (x1, y1) (x2, y2))).map (place x1 y1 x2 y2) := by
  rw [path, List.range_succ, List.map_append, List.map_singleton, List.dropLast_concat]

theorem drawLine_eq (canvas : Canvas) (rounds : Nat) :
    drawLine draw rounds canvas x1 y1 x2 y2 =
      if steps (x1, y1) (x2, y2) ≤ rounds then
        some (((x2, y2) :: (path x1 y1 x2 y2).dropLast).foldl draw canvas)
      else none := by
  have state (k : Nat) (within : k ≤ steps (x1, y1) (x2, y2)) :=
    @iterate_round x1 y1 x2 y2 Canvas draw (draw canvas (x2, y2)) k within
  have goesOn : ∀ k < steps (x1, y1) (x2, y2), unfinished x2 y2
      ((round draw (slope x1 y1 x2 y2))^[k] (firstPen x1 y1 x2 y2, draw canvas (x2, y2))) = true := by
    intro k before
    rw [state k before.le, ← Bool.not_eq_false, unfinished_eq_false_iff, place_penAfter before.le]
    exact place_ne_end before
  have ends : unfinished x2 y2 ((round draw (slope x1 y1 x2 y2))^[steps (x1, y1) (x2, y2)]
      (firstPen x1 y1 x2 y2, draw canvas (x2, y2))) = false := by
    rw [state _ le_rfl, unfinished_eq_false_iff, place_penAfter le_rfl]
    exact place_end
  rw [drawLine, whileLoop_eq goesOn ends, state _ le_rfl, path_dropLast]
  split
  · rfl
  · rfl

theorem unwrapped_reach {first last : UInt8} {taken later : Nat} (within : later ≤ extent first last)
    (moved : later = taken ∨ later = taken + 1) :
    Unwrapped first last (reach first last taken) (reach first last later) := by
  have before : taken ≤ extent first last := by omega
  rw [Unwrapped, toNat_reach within, toNat_reach before]
  rcases moved with rfl | rfl
  · exact .inl rfl
  · right
    push_cast
    ring

theorem unwrapped_penAfter {rounds : Nat} (before : rounds < steps (x1, y1) (x2, y2)) :
    Unwrapped x1 x2 (penAfter x1 y1 x2 y2 rounds).x1 (penAfter x1 y1 x2 y2 (rounds + 1)).x1 ∧
      Unwrapped y1 y2 (penAfter x1 y1 x2 y2 rounds).y1 (penAfter x1 y1 x2 y2 (rounds + 1)).y1 := by
  obtain ⟨right, lower⟩ := progress_le (Nat.succ_le_of_lt before)
  rw [penAfter_eq before.le, penAfter_eq (Nat.succ_le_of_lt before)]
  have slow := track_succ_cases (extent x1 x2) (extent y1 y2) rounds
  have slowAcross := track_succ_cases (extent y1 y2) (extent x1 x2) rounds
  constructor
  · refine unwrapped_reach right ?_
    unfold across
    split <;> omega
  · refine unwrapped_reach lower ?_
    unfold down
    split <;> omega

theorem abs_error_penAfter_le {rounds : Nat} (within : rounds ≤ steps (x1, y1) (x2, y2)) :
    |(penAfter x1 y1 x2 y2 rounds).error * DRAW_LINE_CALC_PARM| ≤ 765 := by
  rw [penAfter_eq within]
  rcases Nat.eq_zero_or_pos (steps (x1, y1) (x2, y2)) with still | positive
  · obtain ⟨narrow, low⟩ : extent x1 x2 = 0 ∧ extent y1 y2 = 0 := by
      unfold steps at still
      simp only at still
      omega
    simp [penAt, narrow, low]
  · exact abs_error_le positive rounds

end Rounds

def dots (color : SSD1306_COLOR) (places : List (UInt8 × UInt8)) : List Dot :=
  places.map fun place => ⟨place.1, place.2, color⟩

theorem ssd1306_DrawLine_path (screen : Screen) (color : SSD1306_COLOR) (rounds : Nat) :
    ssd1306_DrawLine rounds screen x1 y1 x2 y2 color =
      if steps (x1, y1) (x2, y2) ≤ rounds then
        some (screen.draw (dots color ((x2, y2) :: (path x1 y1 x2 y2).dropLast)))
      else none := by
  rw [ssd1306_DrawLine, drawLine_eq, dots, Screen.draw, List.foldl_map]

/-- The loop ends after one round for each step of the major axis.  Up to then its pen goes
along a path that follows the straight line, without a wrap or an overflow, and
`ssd1306_DrawPixel` is called for the last place of the path and then for the others in their
order. -/
theorem ssd1306_DrawLine_follows :
    ∃ path, Follows (x1, y1) (x2, y2) path ∧
      (∀ k ≤ steps (x1, y1) (x2, y2),
        path[k]? = some ((penAfter x1 y1 x2 y2 k).x1, (penAfter x1 y1 x2 y2 k).y1) ∧
        |(penAfter x1 y1 x2 y2 k).error * DRAW_LINE_CALC_PARM| ≤ 765) ∧
      (∀ k < steps (x1, y1) (x2, y2),
        Unwrapped x1 x2 (penAfter x1 y1 x2 y2 k).x1 (penAfter x1 y1 x2 y2 (k + 1)).x1 ∧
        Unwrapped y1 y2 (penAfter x1 y1 x2 y2 k).y1 (penAfter x1 y1 x2 y2 (k + 1)).y1) ∧
      ∀ rounds,
        drawPixelCalls rounds x1 y1 x2 y2 =
          (if steps (x1, y1) (x2, y2) ≤ rounds then some ((x2, y2) :: path.dropLast) else none) ∧
        ∀ (screen : Screen) (color : SSD1306_COLOR),
          ssd1306_DrawLine rounds screen x1 y1 x2 y2 color =
            (drawPixelCalls rounds x1 y1 x2 y2).map fun calls => screen.draw (dots color calls) := by
  have calls (rounds : Nat) : drawPixelCalls rounds x1 y1 x2 y2 =
      if steps (x1, y1) (x2, y2) ≤ rounds then some ((x2, y2) :: (path x1 y1 x2 y2).dropLast)
      else none := by
    rw [drawPixelCalls, drawLine_eq, List.foldl_append_eq_append, List.nil_append,
      ← List.flatMap_def, List.flatMap_singleton']
  refine ⟨path x1 y1 x2 y2, follows_path x1 y1 x2 y2, fun k within => ⟨?_, ?_⟩,
    fun k before => unwrapped_penAfter before, fun rounds => ⟨calls rounds, fun screen color => ?_⟩⟩
  · rw [place_penAfter within, path, List.getElem?_map, List.getElem?_range (Nat.lt_succ_of_le within)]
    rfl
  · exact abs_error_penAfter_le within
  · rw [ssd1306_DrawLine_path, calls]
    split <;> rfl

end Loop

end WifiIot.Game.Oled
