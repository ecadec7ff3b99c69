import Mathlib.Data.List.Range
import Mathlib.Logic.Function.Basic

/-!
# Pictures drawn point by point

A picture gives every point a colour.  `plot` draws strokes one after the other;
what a point shows in the end depends on the strokes that hit it only.  `scan`
lists the cells of a grid row by row, the order in which loops over rows and
columns go through them.
-/

namespace WifiIot.Raster

universe u v

/-! ## Grids in row order -/

section Scan

variable {Item : Type u}

def scan (rows columns : Nat) (item : Nat → Nat → Item) : List Item :=
  (List.range rows).flatMap fun row => (List.range columns).map (item row)

variable {rows columns : Nat} {item : Nat → Nat → Item}

theorem mem_scan (value : Item) :
    value ∈ scan rows columns item ↔ ∃ row < rows, ∃ column < columns, item row column = value := by
  simp [scan]

theorem scan_succ :
    scan (rows + 1) columns item = scan rows columns item ++ (List.range columns).map (item rows) := by
  simp [scan, List.range_succ, List.flatMap_append]

@[simp]
theorem length_scan : (scan rows columns item).length = rows * columns := by
  induction rows with
  | zero => simp [scan]
  | succ rows inductionHypothesis =>
      rw [scan_succ, List.length_append, inductionHypothesis, List.length_map, List.length_range,
        Nat.succ_mul]

theorem getElem?_scan {row column : Nat} (above : row < rows) (inside : column < columns) :
    (scan rows columns item)[row * columns + column]? = some (item row column) := by
  induction rows with
  | zero => exact absurd above (Nat.not_lt_zero row)
  | succ rows inductionHypothesis =>
      rw [scan_succ]
      rcases Nat.lt_succ_iff_lt_or_eq.mp above with earlier | rfl
      · have before : row * columns + column < rows * columns := by
          calc
            row * columns + column < row * columns + columns := Nat.add_lt_add_left inside _
            _ = (row + 1) * columns := (Nat.succ_mul ..).symm
            _ ≤ rows * columns := Nat.mul_le_mul_right columns earlier
        rw [List.getElem?_append_left (by rwa [length_scan])]
        exact inductionHypothesis earlier
      · rw [List.getElem?_append_right (by rw [length_scan]; exact Nat.le_add_right ..), length_scan,
          Nat.add_sub_cancel_left, List.getElem?_map, List.getElem?_range inside]
        rfl

theorem scan_congr {other : Nat → Nat → Item}
    (same : ∀ row < rows, ∀ column < columns, item row column = other row column) :
    scan rows columns item = scan rows columns other := by
  apply List.flatMap_congr
  intro row above
  apply List.map_congr_left
  intro column inside
  exact same row (List.mem_range.mp above) column (List.mem_range.mp inside)

/-- A grid split at one of its cells: what follows comes from a later row, or
from further right in the row. -/
theorem exists_split_scan (item : Nat → Nat → Item) {row column : Nat} (above : row < rows)
    (inside : column < columns) :
    ∃ before after, scan rows columns item = before ++ item row column :: after ∧
      ∀ value ∈ after, ∃ laterRow laterColumn, laterRow < rows ∧ laterColumn < columns ∧
        (row < laterRow ∨ row = laterRow ∧ column < laterColumn) ∧
        item laterRow laterColumn = value := by
  induction rows with
  | zero => exact absurd above (Nat.not_lt_zero row)
  | succ rows inductionHypothesis =>
      rw [scan_succ]
      rcases Nat.lt_succ_iff_lt_or_eq.mp above with earlier | rfl
      · obtain ⟨before, after, split, later⟩ := inductionHypothesis earlier
        refine ⟨before, after ++ (List.range columns).map (item rows), by simp [split], ?_⟩
        intro value membership
        rcases List.mem_append.mp membership with inAfter | inLast
        · obtain ⟨laterRow, laterColumn, bound, inColumns, order, rfl⟩ := later value inAfter
          exact ⟨laterRow, laterColumn, Nat.lt_succ_of_lt bound, inColumns, order, rfl⟩
        · obtain ⟨laterColumn, listed, rfl⟩ := List.mem_map.mp inLast
          exact ⟨rows, laterColumn, Nat.lt_succ_self rows, List.mem_range.mp listed,
            .inl earlier, rfl⟩
      · obtain ⟨rest, rfl⟩ := Nat.exists_eq_add_of_lt inside
        refine ⟨scan row (column + rest + 1) item ++ (List.range column).map (item row),
          (List.range rest).map fun k => item row (column + 1 + k), ?_, ?_⟩
        · rw [List.append_assoc, Nat.add_right_comm, List.range_add, List.map_append,
            List.range_succ, List.map_append, List.map_map, List.append_assoc]
          rfl
        · intro value membership
          obtain ⟨k, listed, rfl⟩ := List.mem_map.mp membership
          have bound := List.mem_range.mp listed
          exact ⟨row, column + 1 + k, Nat.lt_succ_self row, by omega, .inr ⟨rfl, by omega⟩, rfl⟩

theorem foldl_scan {State : Type v} (step : State → Item → State) (start : State) :
    (scan rows columns item).foldl step start =
      (List.range rows).foldl (fun state row =>
        (List.range columns).foldl (fun state column => step state (item row column)) state)
        start := by
  simp only [scan, List.foldl_flatMap, List.foldl_map]

end Scan

/-! ## Strokes -/

section Plot

variable {Point : Type u} {Colour : Type v} [DecidableEq Point]

def plot (picture : Point → Colour) (strokes : List (Point × Colour)) : Point → Colour :=
  strokes.foldl (fun picture stroke => Function.update picture stroke.1 stroke.2) picture

variable {picture : Point → Colour} {strokes : List (Point × Colour)}

@[simp]
theorem plot_cons (stroke : Point × Colour) :
    plot picture (stroke :: strokes) = plot (Function.update picture stroke.1 stroke.2) strokes :=
  rfl

theorem plot_append (first second : List (Point × Colour)) :
    plot picture (first ++ second) = plot (plot picture first) second := List.foldl_append

theorem plot_of_miss {point : Point} (miss : ∀ stroke ∈ strokes, stroke.1 ≠ point) :
    plot picture strokes point = picture point := by
  induction strokes generalizing picture with
  | nil => rfl
  | cons stroke strokes inductionHypothesis =>
      have here : stroke.1 ≠ point := miss stroke List.mem_cons_self
      rw [plot_cons, inductionHypothesis fun later membership =>
        miss later (List.mem_cons_of_mem _ membership), Function.update_of_ne here.symm]

theorem plot_of_hit {point : Point} {colour : Colour}
    (agree : ∀ stroke ∈ strokes, stroke.1 = point → stroke.2 = colour)
    (hit : ∃ stroke ∈ strokes, stroke.1 = point) : plot picture strokes point = colour := by
  induction strokes generalizing picture with
  | nil =>
      obtain ⟨stroke, membership, -⟩ := hit
      cases membership
  | cons stroke strokes inductionHypothesis =>
      rw [plot_cons]
      by_cases again : ∃ later ∈ strokes, later.1 = point
      · exact inductionHypothesis (fun later membership =>
          agree later (List.mem_cons_of_mem _ membership)) again
      · have last : stroke.1 = point := by
          obtain ⟨other, membership, here⟩ := hit
          rcases List.mem_cons.mp membership with rfl | later
          · exact here
          · exact absurd ⟨other, later, here⟩ again
        rw [plot_of_miss fun later membership here => again ⟨later, membership, here⟩, ← last,
          Function.update_self]
        exact agree stroke List.mem_cons_self last

section Places

variable {place : Nat → Point} {colour : Nat → Colour} {len : Nat} {point : Point}

theorem plot_place {j : Nat} (distinct : ∀ j < len, ∀ k < len, place j = place k → j = k)
    (inside : j < len) :
    plot picture ((List.range len).map fun k => (place k, colour k)) (place j) = colour j := by
  apply plot_of_hit
  · intro stroke membership here
    obtain ⟨k, listed, rfl⟩ := List.mem_map.mp membership
    rw [distinct k (List.mem_range.mp listed) j inside here]
  · exact ⟨_, List.mem_map.mpr ⟨j, List.mem_range.mpr inside, rfl⟩, rfl⟩

theorem plot_elsewhere (elsewhere : ∀ k < len, place k ≠ point) :
    plot picture ((List.range len).map fun k => (place k, colour k)) point = picture point := by
  apply plot_of_miss
  intro stroke membership
  obtain ⟨k, listed, rfl⟩ := List.mem_map.mp membership
  exact elsewhere k (List.mem_range.mp listed)

end Places

/-- A point shows the last stroke that hits it. -/
theorem plot_of_last {point : Point} {stroke : Point × Colour} {before after : List (Point × Colour)}
    (here : stroke.1 = point) (miss : ∀ later ∈ after, later.1 ≠ point) :
    plot picture (before ++ stroke :: after) point = stroke.2 := by
  unfold plot
  rw [List.foldl_append, List.foldl_cons]
  change plot _ after point = _
  rw [plot_of_miss miss, ← here, Function.update_self]

/-- Where no stroke hits is all that matters of what was there. -/
theorem plot_congr {other : Point → Colour}
    (same : ∀ point, (∀ stroke ∈ strokes, stroke.1 ≠ point) → picture point = other point) :
    plot picture strokes = plot other strokes := by
  induction strokes generalizing picture other with
  | nil =>
      funext point
      exact same point fun _ membership => absurd membership List.not_mem_nil
  | cons stroke strokes inductionHypothesis =>
      rw [plot_cons, plot_cons]
      refine inductionHypothesis fun point miss => ?_
      by_cases here : stroke.1 = point
      · rw [← here, Function.update_self, Function.update_self]
      · rw [Function.update_of_ne (Ne.symm here), Function.update_of_ne (Ne.symm here)]
        exact same point (List.forall_mem_cons.mpr ⟨here, miss⟩)

theorem map_plot_zip {places : List Point} {colours : List Colour} (nodup : places.Nodup)
    (enough : colours.length ≤ places.length) :
    (places.map (plot picture (places.zip colours))).take colours.length = colours := by
  induction places generalizing picture colours with
  | nil =>
      have empty : colours = [] := List.eq_nil_of_length_eq_zero (Nat.le_zero.mp enough)
      rw [empty]
      rfl
  | cons place places inductionHypothesis =>
      cases colours with
      | nil => rfl
      | cons colour colours =>
          obtain ⟨fresh, nodup⟩ := List.nodup_cons.mp nodup
          have first : plot (Function.update picture place colour) (places.zip colours) place = colour := by
            rw [plot_of_miss, Function.update_self]
            rintro stroke membership rfl
            exact fresh (List.of_mem_zip membership).1
          rw [List.zip_cons_cons, plot_cons, List.map_cons, List.length_cons, List.take_succ_cons, first]
          exact congrArg _ (inductionHypothesis nodup (Nat.le_of_succ_le_succ enough))

/-! ## Changes -/

/-- Each of the places gets a colour that depends on the one it has. -/
def retouch (change : Point → Colour → Colour) (picture : Point → Colour) (places : List Point) :
    Point → Colour :=
  places.foldl (fun picture place => Function.update picture place (change place (picture place))) picture

theorem retouch_eq {change : Point → Colour → Colour} {places : List Point} (nodup : places.Nodup) :
    retouch change picture places = fun point =>
      if point ∈ places then change point (picture point) else picture point := by
  induction places generalizing picture with
  | nil => rfl
  | cons place places inductionHypothesis =>
      obtain ⟨fresh, nodup⟩ := List.nodup_cons.mp nodup
      have rest := @inductionHypothesis (Function.update picture place (change place (picture place))) nodup
      rw [retouch] at rest
      rw [retouch, List.foldl_cons, rest]
      funext point
      by_cases here : point = place
      · subst here
        rw [if_neg fresh, if_pos List.mem_cons_self, Function.update_self]
      · simp only [Function.update_of_ne here, List.mem_cons, here, false_or]

end Plot

end WifiIot.Raster
