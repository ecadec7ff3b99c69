import WifiIot.Game.Line

/-!
# Polylines and rectangles

The driver has the line of the game and draws outlines from it.  A polyline is exactly the
paths of its lines, and a rectangle exactly its border, clipped at the edges of the screen.

Source: `ssd1306_3rd_driver/ssd1306/ssd1306.c` and `ssd1306.h`.
-/

namespace WifiIot.Display

open Memory
open Game.Oled (dots extent path place progress_le reach reach_mem_box sign steps toNat_reach)

structure SSD1306_VERTEX where
  x : UInt8
  y : UInt8

section Outlines

variable (rounds : Nat) (screen : Screen)

/-- The same as in the game, which has a name for the factor 2. -/
def ssd1306_DrawLine (x1 y1 x2 y2 : UInt8) (color : SSD1306_COLOR) : Option Screen :=
  Game.Oled.ssd1306_DrawLine rounds screen x1 y1 x2 y2 color

def drawLines (color : SSD1306_COLOR) (lines : List (SSD1306_VERTEX × SSD1306_VERTEX)) : Option Screen :=
  lines.foldlM (fun screen line =>
    ssd1306_DrawLine rounds screen line.1.x line.1.y line.2.x line.2.y color) screen

def ssd1306_DrawPolyline (par_vertex : List SSD1306_VERTEX) (color : SSD1306_COLOR) : Option Screen :=
  drawLines rounds screen color (par_vertex.zip par_vertex.tail)

def ssd1306_DrawRectangle (x1 y1 x2 y2 : UInt8) (color : SSD1306_COLOR) : Option Screen := do
  let screen ← ssd1306_DrawLine rounds screen x1 y1 x2 y1 color
  let screen ← ssd1306_DrawLine rounds screen x2 y1 x2 y2 color
  let screen ← ssd1306_DrawLine rounds screen x2 y2 x1 y2 color
  ssd1306_DrawLine rounds screen x1 y2 x1 y1 color

end Outlines

/-! ## Lines one after the other -/

def lineOf (line : SSD1306_VERTEX × SSD1306_VERTEX) : List (UInt8 × UInt8) :=
  path line.1.x line.1.y line.2.x line.2.y

def OnLines (lines : List (SSD1306_VERTEX × SSD1306_VERTEX)) (point : Point) : Prop :=
  ∃ line ∈ lines, ∃ place ∈ lineOf line, onScreen place.1 place.2 = some point

section Lines

variable {screen : Screen} {rounds : Nat} {color : SSD1306_COLOR}
  {lines : List (SSD1306_VERTEX × SSD1306_VERTEX)}

def lineDots (color : SSD1306_COLOR) (line : SSD1306_VERTEX × SSD1306_VERTEX) : List Dot :=
  dots color ((line.2.x, line.2.y) :: (lineOf line).dropLast)

theorem mem_lineDots {line : SSD1306_VERTEX × SSD1306_VERTEX} {dot : Dot} :
    dot ∈ lineDots color line ↔ ∃ place ∈ lineOf line, (⟨place.1, place.2, color⟩ : Dot) = dot := by
  have split : lineOf line = (lineOf line).dropLast ++ [(line.2.x, line.2.y)] := by
    rw [lineOf, path, List.range_succ, List.map_append, List.map_singleton, Game.Oled.place_end,
      List.dropLast_concat]
  have same : ∀ place, place ∈ (line.2.x, line.2.y) :: (lineOf line).dropLast ↔ place ∈ lineOf line := by
    intro place
    conv_rhs => rw [split]
    rw [List.mem_cons, List.mem_append, List.mem_singleton, or_comm]
  rw [lineDots, dots, List.mem_map]
  simp only [same]

theorem drawLines_eq (enough : 255 ≤ rounds) :
    drawLines rounds screen color lines = some (screen.draw (lines.flatMap (lineDots color))) := by
  induction lines generalizing screen with
  | nil => rfl
  | cons line lines inductionHypothesis =>
      have few : steps (line.1.x, line.1.y) (line.2.x, line.2.y) ≤ rounds :=
        (max_le (Game.Oled.extent_le _ _) (Game.Oled.extent_le _ _)).trans enough
      have drawn : ssd1306_DrawLine rounds screen line.1.x line.1.y line.2.x line.2.y color =
          some (screen.draw (lineDots color line)) := by
        rw [ssd1306_DrawLine, Game.Oled.ssd1306_DrawLine_path, if_pos few]
        rfl
      rw [drawLines, List.foldlM_cons, drawn, Option.bind_eq_bind, Option.bind_some, ← drawLines,
        inductionHypothesis, List.flatMap_cons, Screen.draw, Screen.draw, Screen.draw, List.foldl_append]

theorem pixel_drawLines (plain : screen.Inverted = 0) (point : Point) :
    (OnLines lines point →
        (screen.draw (lines.flatMap (lineDots color))).pixel point = decide (color = .White)) ∧
      (¬OnLines lines point →
        (screen.draw (lines.flatMap (lineDots color))).pixel point = screen.pixel point) := by
  constructor
  · rintro ⟨line, listed, place, mem, shown⟩
    refine pixel_draw_of_hit plain (fun dot dotMem _ => ?_)
      ⟨_, List.mem_flatMap.mpr ⟨line, listed, mem_lineDots.mpr ⟨place, mem, rfl⟩⟩, shown⟩
    obtain ⟨_, -, other⟩ := List.mem_flatMap.mp dotMem
    obtain ⟨_, -, rfl⟩ := mem_lineDots.mp other
    rfl
  · intro away
    refine pixel_draw_of_miss plain fun dot dotMem shown => away ?_
    obtain ⟨line, listed, other⟩ := List.mem_flatMap.mp dotMem
    obtain ⟨place, mem, rfl⟩ := mem_lineDots.mp other
    exact ⟨line, listed, place, mem, shown⟩

end Lines

/-! ## Level and upright lines -/

/-- The coordinate is one of the two or between them. -/
def Between (first last coordinate : UInt8) : Prop :=
  min first.toNat last.toNat ≤ coordinate.toNat ∧ coordinate.toNat ≤ max first.toNat last.toNat

section Sides

variable {x y x1 y1 x2 y2 : UInt8} {spot : UInt8 × UInt8}

theorem extent_self (coordinate : UInt8) : extent coordinate coordinate = 0 := by
  rw [extent, sub_self, Int.natAbs_zero]

theorem reach_still (coordinate last : UInt8) : reach coordinate last 0 = coordinate :=
  Game.Oled.reach_zero coordinate last

theorem exists_reach {first last coordinate : UInt8} :
    (∃ taken ≤ extent first last, reach first last taken = coordinate) ↔
      Between first last coordinate := by
  constructor
  · rintro ⟨taken, within, rfl⟩
    exact reach_mem_box within
  · rintro ⟨least, most⟩
    have within : extent first coordinate ≤ extent first last := by
      unfold extent
      omega
    refine ⟨extent first coordinate, within, UInt8.toNat_inj.mp ?_⟩
    have arrived := toNat_reach within
    unfold extent sign at *
    simp only [UInt8.lt_iff_toNat_lt] at arrived
    split at arrived <;> omega

theorem mem_path : spot ∈ path x1 y1 x2 y2 ↔
    ∃ taken ≤ steps (x1, y1) (x2, y2), place x1 y1 x2 y2 taken = spot := by
  simp only [path, List.mem_map, List.mem_range, Nat.lt_succ_iff]

theorem mem_path_level : spot ∈ path x1 y x2 y ↔ Between x1 x2 spot.1 ∧ spot.2 = y := by
  have level := extent_self y
  have length : steps (x1, y) (x2, y) = extent x1 x2 := by
    rw [steps, level, Nat.max_zero]
  have places : ∀ taken ≤ extent x1 x2, place x1 y x2 y taken = (reach x1 x2 taken, y) := by
    intro taken within
    have still := (progress_le (length.symm ▸ within : taken ≤ steps (x1, y) (x2, y))).2
    rw [level, Nat.le_zero] at still
    rw [place, still, reach_still, Game.Oled.across, if_pos (level ▸ Nat.zero_le _)]
  rw [mem_path, length, ← exists_reach]
  obtain ⟨column, row⟩ := spot
  constructor
  · rintro ⟨taken, within, same⟩
    rw [places taken within, Prod.mk.injEq] at same
    exact ⟨⟨taken, within, same.1⟩, same.2.symm⟩
  · rintro ⟨⟨taken, within, rfl⟩, rfl⟩
    exact ⟨taken, within, places taken within⟩

theorem mem_path_upright : spot ∈ path x y1 x y2 ↔ spot.1 = x ∧ Between y1 y2 spot.2 := by
  have upright := extent_self x
  have length : steps (x, y1) (x, y2) = extent y1 y2 := by
    rw [steps, upright, Nat.zero_max]
  have places : ∀ taken ≤ extent y1 y2, place x y1 x y2 taken = (x, reach y1 y2 taken) := by
    intro taken within
    obtain ⟨still, lower⟩ := progress_le (length.symm ▸ within : taken ≤ steps (x, y1) (x, y2))
    have progress : Game.Oled.down x y1 x y2 taken = taken := by
      by_cases point : extent y1 y2 ≤ extent x x
      · omega
      · rw [Game.Oled.down, if_neg point]
    rw [upright, Nat.le_zero] at still
    rw [place, still, reach_still, progress]
  rw [mem_path, length, ← exists_reach]
  obtain ⟨column, row⟩ := spot
  constructor
  · rintro ⟨taken, within, same⟩
    rw [places taken within, Prod.mk.injEq] at same
    exact ⟨same.1.symm, taken, within, same.2⟩
  · rintro ⟨rfl, taken, within, rfl⟩
    exact ⟨taken, within, places taken within⟩

end Sides

/-! ## The outlines -/

/-- A polyline ends and is exactly its lines, each of which follows the straight line between its
vertices. -/
theorem ssd1306_DrawPolyline_lines {screen : Screen} (plain : screen.Inverted = 0)
    (par_vertex : List SSD1306_VERTEX) (color : SSD1306_COLOR) :
    ∃ drawn, (∀ rounds, 255 ≤ rounds →
        ssd1306_DrawPolyline rounds screen par_vertex color = some drawn) ∧
      (∀ line ∈ par_vertex.zip par_vertex.tail,
        Game.Oled.Follows (line.1.x, line.1.y) (line.2.x, line.2.y) (lineOf line)) ∧
      ∀ point, (OnLines (par_vertex.zip par_vertex.tail) point →
          drawn.pixel point = decide (color = .White)) ∧
        (¬OnLines (par_vertex.zip par_vertex.tail) point → drawn.pixel point = screen.pixel point) :=
  ⟨_, fun _ enough => drawLines_eq enough, fun _ _ => Game.Oled.follows_path _ _ _ _,
    pixel_drawLines plain⟩

theorem ssd1306_DrawPolyline_lines_corner :
    ∃ drawn, ssd1306_DrawPolyline 255 black [⟨2, 3⟩, ⟨9, 3⟩, ⟨9, 200⟩] .White = some drawn ∧
      drawn.pixel (9, 3) = true := by
  obtain ⟨drawn, runs, -, shown⟩ :=
    @ssd1306_DrawPolyline_lines black rfl [⟨2, 3⟩, ⟨9, 3⟩, ⟨9, 200⟩] .White
  refine ⟨drawn, runs 255 le_rfl, (shown (9, 3)).1 ⟨(⟨2, 3⟩, ⟨9, 3⟩), List.mem_cons_self, (9, 3), ?_, rfl⟩⟩
  exact mem_path_level.mpr ⟨⟨by decide, by decide⟩, rfl⟩

/-- The sides in the order in which they are drawn. -/
def sides (x1 y1 x2 y2 : UInt8) : List (SSD1306_VERTEX × SSD1306_VERTEX) :=
  [(⟨x1, y1⟩, ⟨x2, y1⟩), (⟨x2, y1⟩, ⟨x2, y2⟩), (⟨x2, y2⟩, ⟨x1, y2⟩), (⟨x1, y2⟩, ⟨x1, y1⟩)]

def OnBorder (x1 y1 x2 y2 : UInt8) (spot : UInt8 × UInt8) : Prop :=
  Between x1 x2 spot.1 ∧ Between y1 y2 spot.2 ∧
    (spot.1 = x1 ∨ spot.1 = x2 ∨ spot.2 = y1 ∨ spot.2 = y2)

theorem between_comm {first last coordinate : UInt8} :
    Between first last coordinate ↔ Between last first coordinate := by
  rw [Between, Between, min_comm, max_comm]

theorem between_first (first last : UInt8) : Between first last first :=
  ⟨min_le_left _ _, le_max_left _ _⟩

theorem mem_sides {x1 y1 x2 y2 : UInt8} {spot : UInt8 × UInt8} :
    (∃ line ∈ sides x1 y1 x2 y2, spot ∈ lineOf line) ↔ OnBorder x1 y1 x2 y2 spot := by
  simp only [sides, List.mem_cons, List.not_mem_nil, or_false, exists_eq_or_imp, exists_eq_left, lineOf,
    mem_path_level, mem_path_upright]
  obtain ⟨column, row⟩ := spot
  constructor
  · rintro (⟨across, rfl⟩ | ⟨rfl, down⟩ | ⟨across, rfl⟩ | ⟨rfl, down⟩)
    · exact ⟨across, between_first _ _, .inr (.inr (.inl rfl))⟩
    · exact ⟨between_comm.mp (between_first _ _), down, .inr (.inl rfl)⟩
    · exact ⟨between_comm.mp across, between_comm.mp (between_first _ _), .inr (.inr (.inr rfl))⟩
    · exact ⟨between_first _ _, between_comm.mp down, .inl rfl⟩
  · rintro ⟨across, down, rfl | rfl | rfl | rfl⟩
    · exact .inr (.inr (.inr ⟨rfl, between_comm.mp down⟩))
    · exact .inr (.inl ⟨rfl, down⟩)
    · exact .inl ⟨across, rfl⟩
    · exact .inr (.inr (.inl ⟨between_comm.mp across, rfl⟩))

/-- A rectangle ends and is exactly its border. -/
theorem ssd1306_DrawRectangle_border {screen : Screen} (plain : screen.Inverted = 0)
    (x1 y1 x2 y2 : UInt8) (color : SSD1306_COLOR) :
    ∃ drawn, (∀ rounds, 255 ≤ rounds →
        ssd1306_DrawRectangle rounds screen x1 y1 x2 y2 color = some drawn) ∧
      ∀ (spot : UInt8 × UInt8) (point : Point), onScreen spot.1 spot.2 = some point →
        (OnBorder x1 y1 x2 y2 spot → drawn.pixel point = decide (color = .White)) ∧
          (¬OnBorder x1 y1 x2 y2 spot → drawn.pixel point = screen.pixel point) := by
  have lines : ∀ rounds, ssd1306_DrawRectangle rounds screen x1 y1 x2 y2 color =
      drawLines rounds screen color (sides x1 y1 x2 y2) := by
    intro rounds
    simp only [ssd1306_DrawRectangle, drawLines, sides, List.foldlM_cons, List.foldlM_nil]
    simp
  refine ⟨_, fun rounds enough => (lines rounds).trans (drawLines_eq enough), fun spot point shown => ?_⟩
  have border : OnLines (sides x1 y1 x2 y2) point ↔ OnBorder x1 y1 x2 y2 spot := by
    rw [← mem_sides]
    constructor
    · rintro ⟨line, listed, place, mem, there⟩
      obtain ⟨sameColumn, sameRow⟩ := onScreen_eq_some.mp there
      obtain ⟨column, row⟩ := onScreen_eq_some.mp shown
      have same : place = spot := Prod.ext (UInt8.toNat_inj.mp (sameColumn.trans column.symm))
        (UInt8.toNat_inj.mp (sameRow.trans row.symm))
      exact ⟨line, listed, same ▸ mem⟩
    · rintro ⟨line, listed, mem⟩
      exact ⟨line, listed, spot, mem, shown⟩
  have drawn := @pixel_drawLines screen color (sides x1 y1 x2 y2) plain point
  rwa [border] at drawn

/-- A rectangle that leaves the screen below. -/
theorem ssd1306_DrawRectangle_border_clipped :
    ∃ drawn, ssd1306_DrawRectangle 255 black 10 20 30 90 .White = some drawn ∧
      drawn.pixel (10, 63) = true ∧ drawn.pixel (11, 63) = false := by
  obtain ⟨drawn, runs, shown⟩ := @ssd1306_DrawRectangle_border black rfl 10 20 30 90 .White
  refine ⟨drawn, runs 255 le_rfl, (shown (10, 63) (10, 63) rfl).1 ?_,
    ((shown (11, 63) (11, 63) rfl).2 ?_).trans rfl⟩
  · exact ⟨⟨by decide, by decide⟩, ⟨by decide, by decide⟩, .inl rfl⟩
  · rintro ⟨-, -, side⟩
    revert side
    decide

end WifiIot.Display
