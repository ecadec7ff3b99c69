import WifiIot.Memory.Bit
import WifiIot.Memory.Block
import WifiIot.Raster.Plot

/-!
# The framebuffer of the SSD1306 driver

The driver keeps the screen in pages of eight rows: a byte holds eight pixels of
one column, the topmost in its lowest bit.  `pixel` reads the framebuffer as a
picture, and drawing pixels is drawing strokes on it.

Source: `ssd1306_3rd_driver/ssd1306/ssd1306.c` and `ssd1306.h`.
-/

namespace WifiIot.Display

open Memory Raster

abbrev SSD1306_WIDTH : Nat := 128
abbrev SSD1306_HEIGHT : Nat := 64

inductive SSD1306_COLOR where
  | Black
  | White
  deriving DecidableEq

/-- `!color` -/
def SSD1306_COLOR.not : SSD1306_COLOR → SSD1306_COLOR
  | .Black => .White
  | .White => .Black

abbrev Point : Type := Fin SSD1306_WIDTH × Fin SSD1306_HEIGHT

/-- `SSD1306_Buffer` and the flag of the screen object that drawing reads. -/
structure Screen where
  buffer : Block 1024
  Inverted : UInt8

/-- A screen that is all black. -/
def black : Screen where
  buffer := fun _ => 0
  Inverted := 0

def cell (point : Point) : Fin 1024 :=
  ⟨point.1.val + point.2.val / 8 * SSD1306_WIDTH, by
    have column := point.1.isLt
    have row := point.2.isLt
    simp only [SSD1306_WIDTH, SSD1306_HEIGHT] at column row ⊢
    omega⟩

/-- The pixel at the coordinates, if they are on the screen. -/
def onScreen (x y : UInt8) : Option Point :=
  if inside : x.toNat < SSD1306_WIDTH ∧ y.toNat < SSD1306_HEIGHT then
    some (⟨x.toNat, inside.1⟩, ⟨y.toNat, inside.2⟩)
  else none

def ssd1306_DrawPixel (screen : Screen) (x y : UInt8) (color : SSD1306_COLOR) : Screen :=
  match onScreen x y with
  | none => screen
  | some point =>
      let color := if screen.Inverted ≠ 0 then color.not else color
      let byte := screen.buffer (cell point)
      let drawn := match color with
        | .White => byte ||| 1 <<< (y % 8)
        | .Black => byte &&& ~~~(1 <<< (y % 8))
      { screen with buffer := Function.update screen.buffer (cell point) drawn }

namespace Screen

def pixel (screen : Screen) (point : Point) : Bool :=
  bit (screen.buffer (cell point)) (point.2.val % 8)

end Screen

/-! ## Drawing one pixel -/

theorem onScreen_eq_some {x y : UInt8} {point : Point} :
    onScreen x y = some point ↔ x.toNat = point.1.val ∧ y.toNat = point.2.val := by
  obtain ⟨⟨column, left⟩, ⟨row, top⟩⟩ := point
  unfold onScreen
  constructor
  · intro shown
    split at shown
    · cases shown
      exact ⟨rfl, rfl⟩
    · cases shown
  · rintro ⟨rfl, rfl⟩
    rw [dif_pos ⟨left, top⟩]

theorem cell_inj {first second : Point} :
    cell first = cell second ↔ first.1 = second.1 ∧ first.2.val / 8 = second.2.val / 8 := by
  obtain ⟨⟨column, left⟩, ⟨row, top⟩⟩ := first
  obtain ⟨⟨otherColumn, otherLeft⟩, ⟨otherRow, otherTop⟩⟩ := second
  simp only [cell, Fin.mk.injEq, SSD1306_WIDTH] at left otherLeft ⊢
  omega

theorem eq_of_cell_eq {first second : Point} (shared : cell first = cell second)
    (level : first.2.val % 8 = second.2.val % 8) : first = second := by
  obtain ⟨column, page⟩ := cell_inj.mp shared
  refine Prod.ext column (Fin.ext ?_)
  calc
    first.2.val = 8 * (first.2.val / 8) + first.2.val % 8 := (Nat.div_add_mod ..).symm
    _ = 8 * (second.2.val / 8) + second.2.val % 8 := by rw [page, level]
    _ = second.2.val := Nat.div_add_mod ..

theorem pixel_DrawPixel {screen : Screen} (plain : screen.Inverted = 0) {x y : UInt8}
    {point : Point} (shown : onScreen x y = some point) (color : SSD1306_COLOR) :
    (ssd1306_DrawPixel screen x y color).pixel =
      Function.update screen.pixel point (decide (color = .White)) := by
  have level : (y % 8).toNat = point.2.val % 8 := by
    rw [UInt8.toNat_mod, (onScreen_eq_some.mp shown).2]
    rfl
  have small : (y % 8).toNat < 8 := by
    rw [level]
    exact Nat.mod_lt _ (by decide)
  funext other
  simp only [ssd1306_DrawPixel, shown, plain, ne_eq, not_true_eq_false, if_false, Screen.pixel]
  by_cases shared : cell other = cell point
  · rw [shared, Function.update_self]
    by_cases same : other = point
    · rw [same, Function.update_self]
      cases color with
      | White => simp [bit_set _ small, level]
      | Black => simp [bit_clear _ small (Nat.mod_lt _ (by decide : 0 < 8)), level]
    · have elsewhere : ¬point.2.val % 8 = other.2.val % 8 :=
        fun equal => same (eq_of_cell_eq shared equal.symm)
      rw [Function.update_of_ne same, Screen.pixel, shared]
      cases color with
      | White => simp [bit_set _ small, level, elsewhere]
      | Black =>
          simp [bit_clear _ small (Nat.mod_lt _ (by decide : 0 < 8)), level, elsewhere]
  · have different : other ≠ point := fun same => shared (by rw [same])
    rw [Function.update_of_ne shared, Function.update_of_ne different]
    rfl

/-- The color that is drawn for a color: an inverted screen takes the other one. -/
def Screen.drawn (screen : Screen) (color : SSD1306_COLOR) : SSD1306_COLOR :=
  if screen.Inverted ≠ 0 then color.not else color

/-- An inverted screen is drawn on like a plain one, in the other color. -/
theorem pixel_DrawPixel_drawn {screen : Screen} {x y : UInt8} {point : Point}
    (shown : onScreen x y = some point) (color : SSD1306_COLOR) :
    (ssd1306_DrawPixel screen x y color).pixel =
      Function.update screen.pixel point (decide (screen.drawn color = .White)) := by
  by_cases plain : screen.Inverted = 0
  · rw [pixel_DrawPixel plain shown, Screen.drawn, if_neg (not_not.mpr plain)]
  · have sameBuffer : (ssd1306_DrawPixel screen x y color).buffer =
        (ssd1306_DrawPixel { screen with Inverted := 0 } x y color.not).buffer := by
      simp [ssd1306_DrawPixel, shown, plain]
    have samePixel : (ssd1306_DrawPixel screen x y color).pixel =
        (ssd1306_DrawPixel { screen with Inverted := 0 } x y color.not).pixel := by
      funext other
      rw [Screen.pixel, sameBuffer]
      rfl
    rw [samePixel, pixel_DrawPixel rfl shown, Screen.drawn, if_pos plain]
    rfl

theorem DrawPixel_outside {screen : Screen} {x y : UInt8} (outside : onScreen x y = none)
    (color : SSD1306_COLOR) : ssd1306_DrawPixel screen x y color = screen := by
  simp only [ssd1306_DrawPixel, outside]

@[simp]
theorem Inverted_DrawPixel (screen : Screen) (x y : UInt8) (color : SSD1306_COLOR) :
    (ssd1306_DrawPixel screen x y color).Inverted = screen.Inverted := by
  unfold ssd1306_DrawPixel
  split <;> rfl

/-! ## Drawing many pixels -/

/-- The arguments of a call of `ssd1306_DrawPixel`. -/
structure Dot where
  x : UInt8
  y : UInt8
  color : SSD1306_COLOR

def Screen.draw (screen : Screen) (dots : List Dot) : Screen :=
  dots.foldl (fun screen dot => ssd1306_DrawPixel screen dot.x dot.y dot.color) screen

@[simp]
theorem Inverted_draw (screen : Screen) (dots : List Dot) :
    (screen.draw dots).Inverted = screen.Inverted := by
  induction dots generalizing screen with
  | nil => rfl
  | cons dot dots inductionHypothesis =>
      have later := inductionHypothesis (ssd1306_DrawPixel screen dot.x dot.y dot.color)
      rw [Inverted_DrawPixel] at later
      exact later

/-- What a dot puts on the screen; it is clipped outside. -/
def Dot.stroke? (dot : Dot) : Option (Point × Bool) :=
  (onScreen dot.x dot.y).map fun point => (point, decide (dot.color = .White))

theorem pixel_draw {screen : Screen} (plain : screen.Inverted = 0) (dots : List Dot) :
    (screen.draw dots).pixel = plot screen.pixel (dots.filterMap Dot.stroke?) := by
  induction dots generalizing screen with
  | nil => rfl
  | cons dot dots inductionHypothesis =>
      have drawn : screen.draw (dot :: dots) =
          (ssd1306_DrawPixel screen dot.x dot.y dot.color).draw dots := rfl
      rw [drawn, inductionHypothesis (by rw [Inverted_DrawPixel, plain])]
      cases shown : onScreen dot.x dot.y with
      | none =>
          have clipped : dot.stroke? = none := by rw [Dot.stroke?, shown, Option.map_none]
          rw [DrawPixel_outside shown, List.filterMap_cons_none clipped]
      | some point =>
          have stroke : dot.stroke? = some (point, decide (dot.color = .White)) := by
            rw [Dot.stroke?, shown, Option.map_some]
          rw [pixel_DrawPixel plain shown, List.filterMap_cons_some stroke, plot_cons]

theorem mem_strokes {dots : List Dot} {stroke : Point × Bool}
    (membership : stroke ∈ dots.filterMap Dot.stroke?) :
    ∃ dot ∈ dots, onScreen dot.x dot.y = some stroke.1 ∧
      stroke.2 = decide (dot.color = .White) := by
  obtain ⟨dot, listed, drawn⟩ := List.mem_filterMap.mp membership
  obtain ⟨point, shown, rfl⟩ := Option.map_eq_some_iff.mp drawn
  exact ⟨dot, listed, shown, rfl⟩

theorem pixel_draw_of_hit {screen : Screen} (plain : screen.Inverted = 0) {dots : List Dot}
    {point : Point} {color : SSD1306_COLOR}
    (agree : ∀ dot ∈ dots, onScreen dot.x dot.y = some point → dot.color = color)
    (hit : ∃ dot ∈ dots, onScreen dot.x dot.y = some point) :
    (screen.draw dots).pixel point = decide (color = .White) := by
  rw [pixel_draw plain]
  apply plot_of_hit
  · intro stroke membership here
    obtain ⟨dot, listed, shown, colored⟩ := mem_strokes membership
    rw [here] at shown
    rw [colored, agree dot listed shown]
  · obtain ⟨dot, listed, shown⟩ := hit
    have stroke : dot.stroke? = some (point, decide (dot.color = .White)) := by
      rw [Dot.stroke?, shown, Option.map_some]
    exact ⟨_, List.mem_filterMap.mpr ⟨dot, listed, stroke⟩, rfl⟩

theorem pixel_draw_of_miss {screen : Screen} (plain : screen.Inverted = 0) {dots : List Dot}
    {point : Point} (miss : ∀ dot ∈ dots, onScreen dot.x dot.y ≠ some point) :
    (screen.draw dots).pixel point = screen.pixel point := by
  rw [pixel_draw plain]
  apply plot_of_miss
  intro stroke membership here
  obtain ⟨dot, listed, shown, -⟩ := mem_strokes membership
  exact miss dot listed (by rw [shown, here])

/-- A pixel shows the last dot that hits it. -/
theorem pixel_draw_of_last {screen : Screen} (plain : screen.Inverted = 0) {point : Point}
    {dot : Dot} {before after : List Dot} (here : onScreen dot.x dot.y = some point)
    (miss : ∀ later ∈ after, onScreen later.x later.y ≠ some point) :
    (screen.draw (before ++ dot :: after)).pixel point = decide (dot.color = .White) := by
  have stroke : dot.stroke? = some (point, decide (dot.color = .White)) := by
    rw [Dot.stroke?, here, Option.map_some]
  rw [pixel_draw plain, List.filterMap_append, List.filterMap_cons_some stroke]
  apply plot_of_last rfl
  intro later membership there
  obtain ⟨other, listed, shown, -⟩ := mem_strokes membership
  exact miss other listed (by rw [shown, there])

end WifiIot.Display
