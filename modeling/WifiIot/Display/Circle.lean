import WifiIot.Display.Framebuffer
import WifiIot.Machine.Loop
import WifiIot.Raster.Circle

/-!
# Drawing circles

`ssd1306_DrawCircle` follows a quarter of the circle and mirrors its places.  The variables
are of type `int32_t`, the arguments of `ssd1306_DrawPixel` of type `uint8_t`, so beyond 255 and
below 0 the coordinates come back before they are clipped.

Source: `ssd1306_3rd_driver/ssd1306/ssd1306.c`.
-/

namespace WifiIot.Display

open Raster

structure Ring where
  x : Int
  y : Int
  err : Int

def Ring.start (par_r : UInt8) : Ring where
  x := -par_r.toNat
  y := 0
  err := 2 - 2 * par_r.toNat

def Ring.next (ring : Ring) : Ring :=
  let e2 := ring.err
  let lower : Ring × Int :=
    if e2 ≤ ring.y then
      ({ ring with y := ring.y + 1, err := ring.err + ((ring.y + 1) * 2 + 1) },
        if -ring.x = ring.y + 1 ∧ e2 ≤ ring.x then 0 else e2)
    else (ring, e2)
  if lower.2 > lower.1.x then
    { lower.1 with x := lower.1.x + 1, err := lower.1.err + ((lower.1.x + 1) * 2 + 1) }
  else lower.1

/-- The four mirrored places of a round, before they are cut to `uint8_t`. -/
def corners (par_x par_y : UInt8) (x y : Int) : List (Int × Int) :=
  [(par_x.toNat - x, par_y.toNat + y), (par_x.toNat + x, par_y.toNat + y),
    (par_x.toNat + x, par_y.toNat - y), (par_x.toNat - x, par_y.toNat - y)]

section Loop

variable (par_x par_y : UInt8) (par_color : SSD1306_COLOR)

def ringRound (state : Ring × Screen) : Ring × Screen :=
  (state.1.next, (corners par_x par_y state.1.x state.1.y).foldl (fun screen place =>
    ssd1306_DrawPixel screen (UInt8.ofInt place.1) (UInt8.ofInt place.2) par_color) state.2)

/-- The first round and at most so many more; `none` if the loop has not ended then. -/
def ssd1306_DrawCircle (rounds : Nat) (screen : Screen) (par_r : UInt8) : Option Screen :=
  if SSD1306_WIDTH ≤ par_x.toNat ∨ SSD1306_HEIGHT ≤ par_y.toNat then some screen
  else
    (whileLoop (fun state => decide (state.1.x ≤ 0)) (ringRound par_x par_y par_color) rounds
      (ringRound par_x par_y par_color (Ring.start par_r, screen))).map Prod.snd

end Loop

/-! ## The quarter -/

/-- A place of the quarter; `err` is the excess of the place to its right below. -/
structure OnRing (radius : Int) (ring : Ring) : Prop where
  leftmost : -radius ≤ ring.x
  left : ring.x ≤ 0
  below : 0 ≤ ring.y
  lowest : ring.y ≤ radius
  err : ring.err = excess radius ring.x ring.y + 2 * ring.x + 2 * ring.y + 2
  near : NearCircle radius ring.x ring.y

structure Advances (ring next : Ring) : Prop where
  column : ring.x ≤ next.x ∧ next.x ≤ ring.x + 1
  row : ring.y ≤ next.y ∧ next.y ≤ ring.y + 1
  moves : ring.x + ring.y < next.x + next.y

section Quarter

variable {radius : Int} {ring : Ring}

theorem onRing_start (par_r : UInt8) : OnRing par_r.toNat (Ring.start par_r) where
  leftmost := le_refl _
  left := Int.neg_nonpos_of_nonneg (Int.natCast_nonneg _)
  below := le_refl 0
  lowest := Int.natCast_nonneg _
  err := by
    simp only [Ring.start, excess]
    ring
  near := nearCircle_leftmost _

/-- A round left of the axis stays near the circle and makes progress. -/
theorem OnRing.next (on : OnRing radius ring) (goesOn : ring.x < 0) :
    OnRing radius ring.next ∧ Advances ring ring.next := by
  obtain ⟨leftmost, left, below, lowest, err, near⟩ := on
  obtain ⟨x, y, e⟩ := ring
  dsimp only at *
  rw [nearCircle_iff left below] at near
  have right := excess_right radius x y
  have down := excess_down radius x y
  have both := excess_right radius x (y + 1)
  have further : e ≤ y → y < radius := fun small => lt_radius_of_excess_le below lowest (err ▸ small)
  -- below, right, both or both beside the diagonal; not to move at all contradicts the signs
  simp only [Ring.next]
  split_ifs with descends special moves moves
  all_goals
    refine ⟨⟨?_, ?_, ?_, ?_, ?_, (nearCircle_iff ?_ ?_).mpr ⟨?_, ?_⟩⟩, ⟨⟨?_, ?_⟩, ⟨?_, ?_⟩, ?_⟩⟩ <;>
      dsimp only at * <;> omega

/-- The place on the axis is the lowest one, and the loop ends behind it. -/
theorem OnRing.last (on : OnRing radius ring) (arrived : ring.x = 0) :
    ring.y = radius ∧ ring.next.x = 1 := by
  obtain ⟨leftmost, left, below, lowest, err, near⟩ := on
  obtain ⟨x, y, e⟩ := ring
  dsimp only at *
  subst arrived
  have bounds := (nearCircle_iff left below).mp near
  refine ⟨eq_radius_of_near near below lowest, ?_⟩
  have below : ¬e ≤ y := by omega
  have right : 0 < e := by omega
  simp only [Ring.next, if_neg below, gt_iff_lt, if_pos right]
  rfl

/-- The rounds of the loop: it arrives at the axis, and comes through every row and every
column on its way. -/
structure Walk (radius : Int) (ring : Ring) (last : Nat) : Prop where
  onRing : ∀ k ≤ last, OnRing radius (Ring.next^[k] ring)
  arrives : (Ring.next^[last] ring).x = 0
  rows : ∀ y, ring.y ≤ y → y ≤ radius → ∃ k ≤ last, (Ring.next^[k] ring).y = y
  columns : ∀ x, ring.x ≤ x → x ≤ 0 → ∃ k ≤ last, (Ring.next^[k] ring).x = x

theorem exists_walk (on : OnRing radius ring) {measure : Nat}
    (enough : radius - ring.x - ring.y ≤ measure) : ∃ last ≤ measure, Walk radius ring last := by
  induction measure generalizing ring with
  | zero =>
      have left := on.left
      have lowest := on.lowest
      have arrived : ring.x = 0 := by omega
      refine ⟨0, le_rfl, fun k few => ?_, arrived, fun y above inside => ⟨0, le_rfl, ?_⟩,
        fun x right inside => ⟨0, le_rfl, ?_⟩⟩
      · rw [Nat.le_zero.mp few]
        exact on
      · rw [Function.iterate_zero_apply]
        omega
      · rw [Function.iterate_zero_apply]
        omega
  | succ measure inductionHypothesis =>
      rcases eq_or_lt_of_le on.left with arrived | goesOn
      · refine ⟨0, Nat.zero_le _, fun k few => ?_, arrived, fun y above inside => ⟨0, le_rfl, ?_⟩,
          fun x right inside => ⟨0, le_rfl, ?_⟩⟩
        · rw [Nat.le_zero.mp few]
          exact on
        · rw [Function.iterate_zero_apply]
          exact le_antisymm above (inside.trans_eq (on.last arrived).1.symm)
        · rw [Function.iterate_zero_apply]
          omega
      · obtain ⟨onNext, advances⟩ := on.next goesOn
        have column := advances.column
        have row := advances.row
        have moves := advances.moves
        obtain ⟨last, few, walk⟩ := inductionHypothesis onNext (by omega)
        refine ⟨last + 1, Nat.succ_le_succ few, fun k small => ?_, walk.arrives, fun y above inside => ?_,
          fun x right inside => ?_⟩
        · cases k with
          | zero => exact on
          | succ k => exact walk.onRing k (Nat.le_of_succ_le_succ small)
        · rcases eq_or_lt_of_le above with here | later
          · exact ⟨0, Nat.zero_le _, here⟩
          · obtain ⟨k, small, there⟩ := walk.rows y (by omega) inside
            exact ⟨k + 1, Nat.succ_le_succ small, there⟩
        · rcases eq_or_lt_of_le right with here | later
          · exact ⟨0, Nat.zero_le _, here⟩
          · obtain ⟨k, small, there⟩ := walk.columns x (by omega) inside
            exact ⟨k + 1, Nat.succ_le_succ small, there⟩

end Quarter

/-! ## The circle -/

section Circle

variable {par_x par_y par_r : UInt8} {par_color : SSD1306_COLOR} {screen : Screen}

def cornerDot (par_color : SSD1306_COLOR) (place : Int × Int) : Dot :=
  ⟨UInt8.ofInt place.1, UInt8.ofInt place.2, par_color⟩

def ringDots (par_x par_y : UInt8) (par_color : SSD1306_COLOR) (ring : Ring) (rounds : Nat) : List Dot :=
  (List.range rounds).flatMap fun k =>
    (corners par_x par_y (Ring.next^[k] ring).x (Ring.next^[k] ring).y).map (cornerDot par_color)

theorem mem_ringDots {ring : Ring} {rounds : Nat} {dot : Dot} :
    dot ∈ ringDots par_x par_y par_color ring rounds ↔ ∃ k < rounds,
      ∃ place ∈ corners par_x par_y (Ring.next^[k] ring).x (Ring.next^[k] ring).y,
        cornerDot par_color place = dot := by
  simp only [ringDots, List.mem_flatMap, List.mem_range, List.mem_map]

theorem ringDots_succ (ring : Ring) (rounds : Nat) :
    ringDots par_x par_y par_color ring (rounds + 1) = ringDots par_x par_y par_color ring rounds ++
      (corners par_x par_y (Ring.next^[rounds] ring).x (Ring.next^[rounds] ring).y).map
        (cornerDot par_color) := by
  rw [ringDots, List.range_succ, List.flatMap_append, List.flatMap_singleton, ringDots]

theorem iterate_ringRound (ring : Ring) (screen : Screen) (rounds : Nat) :
    (ringRound par_x par_y par_color)^[rounds] (ring, screen) =
      (Ring.next^[rounds] ring, screen.draw (ringDots par_x par_y par_color ring rounds)) := by
  induction rounds with
  | zero => rfl
  | succ rounds inductionHypothesis =>
      rw [Function.iterate_succ_apply', inductionHypothesis, ringRound, Function.iterate_succ_apply',
        ringDots_succ, Screen.draw, Screen.draw, List.foldl_append, List.foldl_map]
      rfl

theorem ssd1306_DrawCircle_walk (inside : par_x.toNat < SSD1306_WIDTH ∧ par_y.toNat < SSD1306_HEIGHT)
    {last : Nat} (walk : Walk par_r.toNat (Ring.start par_r) last) {rounds : Nat}
    (enough : last ≤ rounds) :
    ssd1306_DrawCircle par_x par_y par_color rounds screen par_r =
      some (screen.draw (ringDots par_x par_y par_color (Ring.start par_r) (last + 1))) := by
  have returns := @whileLoop_eq _ (fun state => decide (state.1.x ≤ 0)) (ringRound par_x par_y par_color)
    last (ringRound par_x par_y par_color (Ring.start par_r, screen)) (fun k few => by
      rw [← Function.iterate_succ_apply, iterate_ringRound]
      exact decide_eq_true (walk.onRing (k + 1) few).left) (by
      rw [← Function.iterate_succ_apply, iterate_ringRound, Function.iterate_succ_apply',
        ((walk.onRing last le_rfl).last walk.arrives).2]
      rfl) rounds
  rw [ssd1306_DrawCircle, if_neg (by omega), returns, if_pos enough, ← Function.iterate_succ_apply,
    iterate_ringRound]
  rfl

def placeOf (point : Point) : Int × Int := ((point.1.val : Int), (point.2.val : Int))

/-- No place of the circle comes back to the screen when it is cut to `uint8_t`. -/
def RingFits (par_x par_y par_r : UInt8) : Prop :=
  (par_x.toNat + par_r.toNat < 256 ∧ par_r.toNat ≤ par_x.toNat + 128) ∧
    par_y.toNat + par_r.toNat < 256 ∧ par_r.toNat ≤ par_y.toNat + 192

theorem onScreen_corner {place : Int × Int} {point : Point} :
    onScreen (UInt8.ofInt place.1) (UInt8.ofInt place.2) = some point ↔
      place.1 % 256 = point.1.val ∧ place.2 % 256 = point.2.val := by
  have column := Memory.toNat_ofInt place.1
  have row := Memory.toNat_ofInt place.2
  rw [onScreen_eq_some]
  omega

theorem onScreen_placeOf (point : Point) :
    onScreen (UInt8.ofInt (placeOf point).1) (UInt8.ofInt (placeOf point).2) = some point := by
  have column : point.1.val < 128 := point.1.isLt
  have row : point.2.val < 64 := point.2.isLt
  rw [onScreen_corner, placeOf]
  omega

theorem eq_of_ringFits (inside : par_x.toNat < SSD1306_WIDTH ∧ par_y.toNat < SSD1306_HEIGHT)
    (fits : RingFits par_x par_y par_r) {ring : Ring} (on : OnRing par_r.toNat ring) {place : Int × Int}
    (listed : place ∈ corners par_x par_y ring.x ring.y) {point : Point}
    (shown : place.1 % 256 = point.1.val ∧ place.2 % 256 = point.2.val) :
    place = placeOf point := by
  obtain ⟨⟨right, left⟩, lower, upper⟩ := fits
  have leftmost := on.leftmost
  have beside := on.left
  have below := on.below
  have lowest := on.lowest
  have column : point.1.val < 128 := point.1.isLt
  have row : point.2.val < 64 := point.2.isLt
  have edge : par_x.toNat < 128 ∧ par_y.toNat < 64 := inside
  simp only [corners, List.mem_cons, List.not_mem_nil, or_false] at listed
  rcases listed with rfl | rfl | rfl | rfl
  all_goals
    rw [placeOf, Prod.mk.injEq]
    dsimp only at shown
    omega

end Circle

/-- A circle around a place of the screen is closed and thin: the loop ends after twice the
radius, only the mirrored places of points near the circle change, and in every row and every
column up to the radius there is such a point with all its mirrored places drawn.  Beyond the
bounds of `RingFits` places come back modulo 256. -/
theorem ssd1306_DrawCircle_outline {par_x par_y : UInt8} {screen : Screen} (plain : screen.Inverted = 0)
    (inside : par_x.toNat < SSD1306_WIDTH ∧ par_y.toNat < SSD1306_HEIGHT) (par_r : UInt8)
    (par_color : SSD1306_COLOR) :
    ∃ drawn, (∀ rounds, 2 * par_r.toNat ≤ rounds →
        ssd1306_DrawCircle par_x par_y par_color rounds screen par_r = some drawn) ∧
      (∀ point, drawn.pixel point ≠ screen.pixel point → ∃ x y : Int, NearCircle par_r.toNat x y ∧
        ∃ place ∈ corners par_x par_y x y,
          (place.1 % 256 = point.1.val ∧ place.2 % 256 = point.2.val) ∧
          (RingFits par_x par_y par_r → place = placeOf point)) ∧
      (∀ k ≤ par_r.toNat, ∃ x : Int, NearCircle par_r.toNat x k ∧ ∀ point : Point,
        placeOf point ∈ corners par_x par_y x k →
          drawn.pixel point = decide (par_color = .White)) ∧
      ∀ k ≤ par_r.toNat, ∃ y : Int, NearCircle par_r.toNat (-k) y ∧ ∀ point : Point,
        placeOf point ∈ corners par_x par_y (-k) y →
          drawn.pixel point = decide (par_color = .White) := by
  obtain ⟨last, few, walk⟩ := exists_walk (onRing_start par_r) (show
    (par_r.toNat : Int) - (Ring.start par_r).x - (Ring.start par_r).y ≤ (2 * par_r.toNat : Nat) by
      simp only [Ring.start]
      omega)
  let dots := ringDots par_x par_y par_color (Ring.start par_r) (last + 1)
  have colored : ∀ k ≤ last, ∀ point : Point, placeOf point ∈
      corners par_x par_y (Ring.next^[k] (Ring.start par_r)).x (Ring.next^[k] (Ring.start par_r)).y →
        (screen.draw dots).pixel point = decide (par_color = .White) := by
    intro k small point listed
    refine pixel_draw_of_hit plain (fun dot mem _ => ?_)
      ⟨cornerDot par_color (placeOf point),
        mem_ringDots.mpr ⟨k, Nat.lt_succ_of_le small, _, listed, rfl⟩, onScreen_placeOf point⟩
    obtain ⟨_, _, _, _, rfl⟩ := mem_ringDots.mp mem
    rfl
  refine ⟨screen.draw dots, fun rounds enough => ssd1306_DrawCircle_walk inside walk (few.trans enough),
    fun point changed => ?_, fun k small => ?_, fun k small => ?_⟩
  · by_contra away
    refine changed (pixel_draw_of_miss plain fun dot mem shown => away ?_)
    obtain ⟨k, small, place, listed, rfl⟩ := mem_ringDots.mp mem
    have on := walk.onRing k (Nat.le_of_lt_succ small)
    have cut := onScreen_corner.mp shown
    exact ⟨_, _, on.near, place, listed, cut, fun fits => eq_of_ringFits inside fits on listed cut⟩
  · obtain ⟨round, before, here⟩ := walk.rows k (Int.natCast_nonneg k) (by exact_mod_cast small)
    refine ⟨(Ring.next^[round] (Ring.start par_r)).x, ?_, ?_⟩
    · exact here ▸ (walk.onRing round before).near
    · exact here ▸ colored round before
  · obtain ⟨round, before, here⟩ := walk.columns (-k)
      (Int.neg_le_neg (by exact_mod_cast small)) (Int.neg_nonpos_of_nonneg (Int.natCast_nonneg k))
    refine ⟨(Ring.next^[round] (Ring.start par_r)).y, ?_, ?_⟩
    · exact here ▸ (walk.onRing round before).near
    · exact here ▸ colored round before

/-- A circle that reaches over the right edge. -/
theorem ssd1306_DrawCircle_outline_edge :
    ∃ drawn, ssd1306_DrawCircle 120 32 .White 40 black 20 = some drawn ∧
      (∀ point, drawn.pixel point ≠ black.pixel point → ∃ x y : Int, NearCircle 20 x y ∧
        placeOf point ∈ corners 120 32 x y) ∧
      ∃ x : Int, NearCircle 20 x 16 ∧ ∀ point : Point,
        placeOf point ∈ corners 120 32 x 16 → drawn.pixel point = true := by
  obtain ⟨drawn, returns, changes, rows, -⟩ :=
    @ssd1306_DrawCircle_outline 120 32 black rfl (by decide) 20 .White
  obtain ⟨x, near, shown⟩ := rows 16 (by decide)
  refine ⟨drawn, returns 40 (by decide), fun point changed => ?_, x, near, shown⟩
  obtain ⟨x, y, near, place, listed, -, same⟩ := changes point changed
  exact ⟨x, y, near, same ⟨⟨by decide, by decide⟩, by decide, by decide⟩ ▸ listed⟩

end WifiIot.Display
