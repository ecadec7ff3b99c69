import Mathlib
import WifiIot.Raster.Plot

/-!
# Rectangles in a grid

A square grid, some rectangles in it, and the count of the cells that none of them
covers.  The count needs one look at each pair of strips only, when the edges of all
rectangles lie between the strips.
-/

namespace WifiIot.Raster

structure Rectangle where
  left : Nat
  top : Nat
  width : Nat
  height : Nat
  deriving DecidableEq

namespace Rectangle

def coversColumn (rectangle : Rectangle) (x : Nat) : Bool :=
  Nat.ble rectangle.left x && Nat.blt x (rectangle.left + rectangle.width)

def coversRow (rectangle : Rectangle) (y : Nat) : Bool :=
  Nat.ble rectangle.top y && Nat.blt y (rectangle.top + rectangle.height)

def covers (rectangle : Rectangle) (x y : Nat) : Bool := rectangle.coversColumn x && rectangle.coversRow y

theorem covers_iff {rectangle : Rectangle} {x y : Nat} : rectangle.covers x y = true ↔
    (rectangle.left ≤ x ∧ x < rectangle.left + rectangle.width) ∧
      rectangle.top ≤ y ∧ y < rectangle.top + rectangle.height := by
  simp only [covers, coversColumn, coversRow, Bool.and_eq_true, Nat.ble_eq, Nat.blt_eq]

def cells (rectangle : Rectangle) : List (Nat × Nat) :=
  scan rectangle.height rectangle.width fun dy dx => (rectangle.left + dx, rectangle.top + dy)

theorem mem_cells {rectangle : Rectangle} {cell : Nat × Nat} :
    cell ∈ rectangle.cells ↔ rectangle.covers cell.1 cell.2 = true := by
  obtain ⟨x, y⟩ := cell
  rw [cells, mem_scan, covers_iff]
  simp only [Prod.mk.injEq]
  constructor
  · rintro ⟨dy, low, dx, near, rfl, rfl⟩
    omega
  · rintro ⟨⟨left, right⟩, top, bottom⟩
    exact ⟨y - rectangle.top, by omega, x - rectangle.left, by omega, by omega, by omega⟩

def covered (rectangles : List Rectangle) (x y : Nat) : Bool :=
  rectangles.any fun rectangle => rectangle.covers x y

end Rectangle

/-! ## Strips -/

structure Strip where
  first : Nat
  len : Nat
  deriving DecidableEq

namespace Strip

def places (strip : Strip) : List Nat := List.range' strip.first strip.len

def between (cuts : List Nat) : List Strip :=
  List.zipWith (fun first next => ⟨first, next - first⟩) cuts cuts.tail

/-- No place of the strip has the cut on its other side. -/
def uncut (strip : Strip) (cut : Nat) : Bool :=
  Nat.ble cut strip.first || Nat.ble (strip.first + strip.len) cut

theorem le_iff {strip : Strip} {cut place : Nat} (uncut : strip.uncut cut = true)
    (mem : place ∈ strip.places) : cut ≤ place ↔ cut ≤ strip.first := by
  obtain ⟨offset, inside, rfl⟩ := List.mem_range'.mp mem
  rw [Strip.uncut, Bool.or_eq_true, Nat.ble_eq, Nat.ble_eq] at uncut
  omega

end Strip

variable {rectangles : List Rectangle} {cuts : List Nat} {side : Nat}

/-- The strips between the cuts make up a side, and all edges are among the cuts. -/
structure Fitting (rectangles : List Rectangle) (cuts : List Nat) (side : Nat) : Prop where
  whole : (Strip.between cuts).flatMap Strip.places = List.range side
  uncut : ∀ cut ∈ cuts, ∀ strip ∈ Strip.between cuts, strip.uncut cut = true
  edges : ∀ rectangle ∈ rectangles, rectangle.left ∈ cuts ∧ rectangle.left + rectangle.width ∈ cuts ∧
    rectangle.top ∈ cuts ∧ rectangle.top + rectangle.height ∈ cuts

theorem Fitting.covered_eq (fitting : Fitting rectangles cuts side) {column row : Strip}
    (columnMem : column ∈ Strip.between cuts) (rowMem : row ∈ Strip.between cuts) {x y : Nat}
    (xMem : x ∈ column.places) (yMem : y ∈ row.places) :
    Rectangle.covered rectangles x y = Rectangle.covered rectangles column.first row.first := by
  rw [Rectangle.covered, Rectangle.covered]
  rw [Bool.eq_iff_iff, List.any_eq_true, List.any_eq_true]
  refine exists_congr fun rectangle => and_congr_right fun mem => ?_
  obtain ⟨left, right, top, bottom⟩ := fitting.edges rectangle mem
  rw [Rectangle.covers_iff, Rectangle.covers_iff, ← not_le, ← not_le, ← not_le, ← not_le,
    Strip.le_iff (fitting.uncut _ left column columnMem) xMem,
    Strip.le_iff (fitting.uncut _ right column columnMem) xMem,
    Strip.le_iff (fitting.uncut _ top row rowMem) yMem,
    Strip.le_iff (fitting.uncut _ bottom row rowMem) yMem]

def grid (side : Nat) : List (Nat × Nat) :=
  (List.range side).flatMap fun x => (List.range side).map fun y => (x, y)

theorem mem_grid {cell : Nat × Nat} : cell ∈ grid side ↔ cell.1 < side ∧ cell.2 < side := by
  obtain ⟨x, y⟩ := cell
  simp [grid]

theorem nodup_grid : (grid side).Nodup :=
  List.Nodup.product List.nodup_range List.nodup_range

/-- The uncovered cells of the strips, with the rectangles of a column looked up once. -/
def uncovered (rectangles : List Rectangle) (strips : List Strip) : Nat :=
  (strips.map fun column =>
    let active := rectangles.filter fun rectangle => rectangle.coversColumn column.first
    column.len * (strips.map fun row =>
      bif active.any fun rectangle => rectangle.coversRow row.first then 0 else row.len).sum).sum

theorem any_filter_coversColumn (rectangles : List Rectangle) (x y : Nat) :
    ((rectangles.filter fun rectangle => rectangle.coversColumn x).any fun rectangle =>
      rectangle.coversRow y) = Rectangle.covered rectangles x y := by
  rw [List.any_filter, Rectangle.covered]
  rfl

theorem Fitting.countP_column (fitting : Fitting rectangles cuts side) {column : Strip}
    (columnMem : column ∈ Strip.between cuts) {x : Nat} (xMem : x ∈ column.places) :
    (List.range side).countP (fun y => !Rectangle.covered rectangles x y) =
      ((Strip.between cuts).map fun row =>
        bif Rectangle.covered rectangles column.first row.first then 0 else row.len).sum := by
  rw [← fitting.whole, List.countP_flatMap]
  congr 1
  refine List.map_congr_left fun row rowMem => ?_
  have same : ∀ y ∈ row.places, Rectangle.covered rectangles x y =
      Rectangle.covered rectangles column.first row.first :=
    fun y yMem => fitting.covered_eq columnMem rowMem xMem yMem
  cases inside : Rectangle.covered rectangles column.first row.first with
  | true =>
      refine List.countP_eq_zero.mpr fun y yMem => ?_
      rw [same y yMem, inside]
      decide
  | false =>
      have length : row.places.length = row.len := List.length_range'
      rw [cond_false, ← length]
      refine List.countP_eq_length.mpr fun y yMem => ?_
      rw [same y yMem, inside]
      rfl

theorem countP_grid (fitting : Fitting rectangles cuts side) :
    (grid side).countP (fun cell => !Rectangle.covered rectangles cell.1 cell.2) =
      uncovered rectangles (Strip.between cuts) := by
  have columns : (grid side).countP (fun cell => !Rectangle.covered rectangles cell.1 cell.2) =
      ((List.range side).map fun x =>
        (List.range side).countP fun y => !Rectangle.covered rectangles x y).sum := by
    rw [grid, List.countP_flatMap]
    congr 1
    refine List.map_congr_left fun x _ => ?_
    exact List.countP_map
  have sums : (((Strip.between cuts).flatMap Strip.places).map fun x =>
        (List.range side).countP fun y => !Rectangle.covered rectangles x y).sum =
      uncovered rectangles (Strip.between cuts) := by
    rw [List.map_flatMap, List.flatMap, List.sum_flatten, List.map_map, uncovered]
    congr 1
    refine List.map_congr_left fun column columnMem => ?_
    have each : column.places.map (fun x =>
        (List.range side).countP fun y => !Rectangle.covered rectangles x y) =
          List.replicate column.len ((Strip.between cuts).map fun row =>
            bif Rectangle.covered rectangles column.first row.first then 0 else row.len).sum := by
      refine List.eq_replicate_iff.mpr ⟨by rw [List.length_map]; exact List.length_range', ?_⟩
      intro count mem
      obtain ⟨x, xMem, rfl⟩ := List.mem_map.mp mem
      exact fitting.countP_column columnMem xMem
    change (column.places.map fun x => _).sum = _
    rw [each, List.sum_replicate_nat]
    simp only [any_filter_coversColumn]
  rw [columns, ← sums, fitting.whole]

end WifiIot.Raster
