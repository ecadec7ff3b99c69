import WifiIot.Qrcodegen.Ecc
import WifiIot.Qrcodegen.Modules

/-!
# Function modules

The modules that a reader finds its way with: rectangles that are first filled and then
get their patterns, and the format bits.  All other modules are left to the codewords.

Source: `qrcode_gen/src/qrcodegen.c`.
-/

namespace WifiIot.Qrcodegen

open Memory Raster

/-- `version * 4 + 17` -/
def Version.side (version : Version) : Nat := version.ver * 4 + 17

def getAlignmentPatternPositions (version : Version) : List Nat :=
  let ver := version.ver
  if ver = 1 then []
  else
    let numAlign := ver / 7 + 2
    let step := if ver = 32 then 26 else (ver * 4 + numAlign * 2 + 1) / (numAlign * 2 - 2) * 2
    6 :: (List.range' 1 (numAlign - 1)).map fun i => ver * 4 + 10 - (numAlign - 1 - i) * step

/-- The centres for which the two loops over the positions draw. -/
def alignmentCentres (version : Version) : List (Nat × Nat) :=
  let alignPatPos := getAlignmentPatternPositions version
  let numAlign := alignPatPos.length
  (List.range numAlign).flatMap fun i =>
    ((List.range numAlign).filter fun j =>
      !((i = 0 && j = 0) || (i = 0 && j = numAlign - 1) || (i = numAlign - 1 && j = 0))).map fun j =>
        (alignPatPos.getD i 0, alignPatPos.getD j 0)

def fillRectangle (name : Buffer) (qrcode : List UInt8) (rectangle : Rectangle) : Run (List UInt8) :=
  (List.range rectangle.height).foldlM (fun qrcode dy =>
    (List.range rectangle.width).foldlM (fun qrcode dx =>
      setModule name qrcode (rectangle.left + dx) (rectangle.top + dy) true) qrcode) qrcode

/-- The rectangles of `initializeFunctionModules`. -/
def functionRectangles (version : Version) : List Rectangle :=
  let qrsize := version.side
  [⟨6, 0, 1, qrsize⟩, ⟨0, 6, qrsize, 1⟩, ⟨0, 0, 9, 9⟩, ⟨qrsize - 8, 0, 8, 9⟩, ⟨0, qrsize - 8, 9, 8⟩] ++
    (alignmentCentres version).map (fun centre => ⟨centre.1 - 2, centre.2 - 2, 5, 5⟩) ++
    if 7 ≤ version.ver then [⟨qrsize - 11, 0, 3, 6⟩, ⟨0, qrsize - 11, 6, 3⟩] else []

def initializeFunctionModules (name : Buffer) (version : Version) (qrcode : List UInt8) :
    Run (List UInt8) := do
  let qrsize := version.side
  let qrcode ← memset name qrcode ((qrsize * qrsize + 7) / 8 + 1)
  let qrcode ← store name qrcode 0 (UInt8.ofNat qrsize)
  (functionRectangles version).foldlM (fillRectangle name) qrcode

/-! ## The patterns -/

def timingDots (qrsize : Nat) : List ((Nat × Nat) × Bool) :=
  (List.range ((qrsize - 13) / 2)).flatMap fun k =>
    [((6, 7 + 2 * k), false), ((7 + 2 * k, 6), false)]

/-- `-4 <= d && d <= 4` -/
def around (radius : Nat) : List Int := (List.range (2 * radius + 1)).map fun k => (k : Int) - radius

/-- The offsets in a finder pattern that are drawn white. -/
def finderOffsets : List (Int × Int) :=
  ((around 4).flatMap fun dy => (around 4).map fun dx => (dx, dy)).filter fun offset =>
    let dist := max offset.1.natAbs offset.2.natAbs
    dist = 2 || dist = 4

def drawFinders (name : Buffer) (qrsize : Nat) (qrcode : List UInt8) (offset : Int × Int) :
    Run (List UInt8) := do
  let (dx, dy) := offset
  let qrcode ← setModuleBounded name qrcode (3 + dx) (3 + dy) false
  let qrcode ← setModuleBounded name qrcode (qrsize - 4 + dx) (3 + dy) false
  setModuleBounded name qrcode (3 + dx) (qrsize - 4 + dy) false

def alignmentDots (centre : Nat × Nat) : List ((Nat × Nat) × Bool) :=
  (List.range 3).flatMap fun dy => (List.range 3).map fun dx =>
    ((centre.1 - 1 + dx, centre.2 - 1 + dy), dx = 1 && dy = 1)

/-- A check code: so many times the value is doubled and reduced. -/
def checkCode (steps width divisor value : Nat) : Nat :=
  (List.range steps).foldl (fun rem _ => (rem <<< 1) ^^^ ((rem >>> (width - 1)) * divisor)) value

def versionBits (version : Version) : Nat :=
  version.ver <<< 12 ||| checkCode 12 12 0x1F25 version.ver

def versionDots (qrsize bits : Nat) : List ((Nat × Nat) × Bool) :=
  (List.range 6).flatMap fun i => (List.range 3).flatMap fun j =>
    let k := qrsize - 11 + j
    let bit := (bits >>> (3 * i + j)) &&& 1 ≠ 0
    [((k, i), bit), ((i, k), bit)]

def drawWhiteFunctionModules (name : Buffer) (qrcode : List UInt8) (version : Version) :
    Run (List UInt8) := do
  let qrsize ← getSize name qrcode
  let qrcode ← draw name qrcode (timingDots qrsize)
  let qrcode ← finderOffsets.foldlM (drawFinders name qrsize) qrcode
  let qrcode ← draw name qrcode ((alignmentCentres version).flatMap alignmentDots)
  if 7 ≤ version.ver then draw name qrcode (versionDots qrsize (versionBits version))
  else .ok qrcode

/-! ## The format -/

/-- `qrcodegen_Mask` without `qrcodegen_Mask_AUTO`. -/
abbrev Mask := Fin 8

/-- `table[(int)ecl]` -/
def qrcodegen_Ecc.bits : qrcodegen_Ecc → Nat
  | .LOW => 1
  | .MEDIUM => 0
  | .QUARTILE => 3
  | .HIGH => 2

def formatBits (ecl : qrcodegen_Ecc) (mask : Mask) : Nat :=
  let data := ecl.bits <<< 3 ||| mask.val
  (data <<< 10 ||| checkCode 10 10 0x537 data) ^^^ 0x5412

def firstPlace (i : Nat) : Nat × Nat :=
  if i ≤ 5 then (8, i) else if i = 6 then (8, 7) else if i = 7 then (8, 8)
  else if i = 8 then (7, 8) else (14 - i, 8)

def secondPlace (qrsize i : Nat) : Nat × Nat :=
  if i < 8 then (qrsize - 1 - i, 8) else (8, qrsize - 15 + i)

def formatDots (qrsize bits : Nat) : List ((Nat × Nat) × Bool) :=
  (List.range 15).map (fun i => (firstPlace i, getBit bits i)) ++
    (List.range 15).map (fun i => (secondPlace qrsize i, getBit bits i)) ++ [((8, qrsize - 8), true)]

def drawFormatBits (name : Buffer) (ecl : qrcodegen_Ecc) (mask : Mask) (qrcode : List UInt8) :
    Run (List UInt8) := do
  let bits := formatBits ecl mask
  let qrsize ← getSize name qrcode
  draw name qrcode (formatDots qrsize bits)

/-! ## Where the function modules are -/

def isFunction (version : Version) (point : Nat × Nat) : Bool :=
  Rectangle.covered (functionRectangles version) point.1 point.2

def cuts (version : Version) : List Nat :=
  let side := version.side
  [0, 4, 6, 7, 9] ++
    (getAlignmentPatternPositions version).dropLast.tail.flatMap (fun place => [place - 2, place + 3]) ++
    [side - 11, side - 9, side - 8, side - 4, side]

theorem mem_alignmentCentres {version : Version} {centre : Nat × Nat}
    (mem : centre ∈ alignmentCentres version) :
    centre.1 ∈ getAlignmentPatternPositions version ∧
      centre.2 ∈ getAlignmentPatternPositions version := by
  obtain ⟨i, inI, mem⟩ := List.mem_flatMap.mp mem
  obtain ⟨j, inJ, rfl⟩ := List.mem_map.mp mem
  have listed : ∀ k < (getAlignmentPatternPositions version).length,
      (getAlignmentPatternPositions version).getD k 0 ∈ getAlignmentPatternPositions version := by
    intro k inside
    rw [← List.getElem_eq_getD (h := inside)]
    exact List.getElem_mem inside
  exact ⟨listed i (List.mem_range.mp inI), listed j (List.mem_range.mp (List.mem_filter.mp inJ).1)⟩

theorem alignment_bounds (version : Version) {place : Nat}
    (mem : place ∈ getAlignmentPatternPositions version) :
    (6 ≤ place ∧ place + 7 ≤ version.side) ∧ place - 2 ∈ cuts version ∧ place - 2 + 5 ∈ cuts version := by
  have all : ∀ version ∈ versions, ∀ place ∈ getAlignmentPatternPositions version,
      (6 ≤ place ∧ place + 7 ≤ version.side) ∧ place - 2 ∈ cuts version ∧
        place - 2 + 5 ∈ cuts version := by
    decide +kernel
  exact all version (mem_versions version) place mem

theorem side_bounds (version : Version) : 21 ≤ version.side ∧ version.side ≤ 177 := by
  have least := version.least
  have most := version.most
  rw [Version.side]
  omega

theorem mem_functionRectangles {version : Version} {rectangle : Rectangle}
    (mem : rectangle ∈ functionRectangles version) :
    rectangle ∈ [⟨6, 0, 1, version.side⟩, ⟨0, 6, version.side, 1⟩, ⟨0, 0, 9, 9⟩,
        ⟨version.side - 8, 0, 8, 9⟩, ⟨0, version.side - 8, 9, 8⟩] ∨
      (∃ centre ∈ alignmentCentres version, rectangle = ⟨centre.1 - 2, centre.2 - 2, 5, 5⟩) ∨
      rectangle ∈ [⟨version.side - 11, 0, 3, 6⟩, ⟨0, version.side - 11, 6, 3⟩] := by
  rw [functionRectangles, List.mem_append, List.mem_append, List.mem_map] at mem
  rcases mem with (first | ⟨centre, listed, rfl⟩) | last
  · exact .inl first
  · exact .inr (.inl ⟨centre, listed, rfl⟩)
  · split at last
    · exact .inr (.inr last)
    · exact absurd last List.not_mem_nil

theorem fitting_functionRectangles (version : Version) :
    Fitting (functionRectangles version) (cuts version) version.side := by
  have whole : ∀ version ∈ versions,
      (Strip.between (cuts version)).flatMap Strip.places = List.range version.side := by
    decide +kernel
  have uncut : (versions.all fun version => (cuts version).all fun cut =>
      (Strip.between (cuts version)).all fun strip => strip.uncut cut) = true := by
    decide +kernel
  have fixed : ∀ version ∈ versions, ∀ edge ∈ [0, 6, 7, 9, version.side - 11, version.side - 8,
      version.side], edge ∈ cuts version := by
    decide +kernel
  have here := fixed version (mem_versions version)
  have bounds := side_bounds version
  refine ⟨whole version (mem_versions version), ?_, ?_⟩
  · intro cut cutMem strip stripMem
    have all := List.all_eq_true.mp uncut version (mem_versions version)
    exact List.all_eq_true.mp (List.all_eq_true.mp all cut cutMem) strip stripMem
  · intro rectangle mem
    have last : version.side - 8 + 8 = version.side := by omega
    have block : version.side - 11 + 3 = version.side - 8 := by omega
    rcases mem_functionRectangles mem with first | ⟨centre, listed, rfl⟩ | second
    · simp only [List.mem_cons, List.not_mem_nil, or_false] at first
      rcases first with rfl | rfl | rfl | rfl | rfl
      all_goals
        simp only [Nat.zero_add, last]
        refine ⟨here _ ?_, here _ ?_, here _ ?_, here _ ?_⟩ <;> simp
    · obtain ⟨column, row⟩ := mem_alignmentCentres listed
      exact ⟨(alignment_bounds version column).2.1, (alignment_bounds version column).2.2,
        (alignment_bounds version row).2.1, (alignment_bounds version row).2.2⟩
    · simp only [List.mem_cons, List.not_mem_nil, or_false] at second
      rcases second with rfl | rfl
      all_goals
        simp only [Nat.zero_add, block]
        refine ⟨here _ ?_, here _ ?_, here _ ?_, here _ ?_⟩ <;> simp

/-- The modules that the rectangles leave are as many as `getNumRawDataModules` says. -/
theorem countP_isFunction (version : Version) :
    (grid version.side).countP (fun point => !isFunction version point) =
      getNumRawDataModules version := by
  have all : (versions.all fun version => Nat.beq
      (uncovered (functionRectangles version) (Strip.between (cuts version)))
      (getNumRawDataModules version)) = true := by
    decide +kernel
  rw [← Nat.eq_of_beq_eq_true (List.all_eq_true.mp all version (mem_versions version)),
    ← countP_grid (fitting_functionRectangles version)]
  rfl

theorem functionRectangle_inside {version : Version} {rectangle : Rectangle}
    (mem : rectangle ∈ functionRectangles version) :
    rectangle.left + rectangle.width ≤ version.side ∧ rectangle.top + rectangle.height ≤ version.side := by
  have bounds := side_bounds version
  rcases mem_functionRectangles mem with first | ⟨centre, listed, rfl⟩ | second
  · simp only [List.mem_cons, List.not_mem_nil, or_false] at first
    rcases first with rfl | rfl | rfl | rfl | rfl
    all_goals
      dsimp only
      omega
  · obtain ⟨column, row⟩ := mem_alignmentCentres listed
    have inColumn := (alignment_bounds version column).1
    have inRow := (alignment_bounds version row).1
    dsimp only
    omega
  · simp only [List.mem_cons, List.not_mem_nil, or_false] at second
    rcases second with rfl | rfl
    all_goals
      dsimp only
      omega

theorem isFunction_of_covers {version : Version} {rectangle : Rectangle} {point : Nat × Nat}
    (mem : rectangle ∈ functionRectangles version)
    (inColumn : rectangle.left ≤ point.1 ∧ point.1 < rectangle.left + rectangle.width)
    (inRow : rectangle.top ≤ point.2 ∧ point.2 < rectangle.top + rectangle.height) :
    isFunction version point = true :=
  List.any_eq_true.mpr ⟨rectangle, mem, Rectangle.covers_iff.mpr ⟨inColumn, inRow⟩⟩

theorem inside_of_isFunction {version : Version} {point : Nat × Nat}
    (function : isFunction version point = true) :
    point.1 < version.side ∧ point.2 < version.side := by
  obtain ⟨rectangle, mem, covers⟩ := List.any_eq_true.mp function
  obtain ⟨inColumn, inRow⟩ := Rectangle.covers_iff.mp covers
  obtain ⟨right, bottom⟩ := functionRectangle_inside mem
  omega

/-! ## Filling them -/

section Fill

variable {name : Buffer} {version : Version} {qrcode : List UInt8}

theorem fillRectangle_eq (name : Buffer) (qrcode : List UInt8) (rectangle : Rectangle) :
    fillRectangle name qrcode rectangle =
      draw name qrcode (rectangle.cells.map fun cell => (cell, true)) := by
  have rows : ∀ (dy : Nat) (drawn : List UInt8), (List.range rectangle.width).foldlM (fun qrcode dx =>
      setModule name qrcode (rectangle.left + dx) (rectangle.top + dy) true) drawn =
        draw name drawn ((List.range rectangle.width).map fun dx =>
          ((rectangle.left + dx, rectangle.top + dy), true)) := by
    intro dy drawn
    rw [draw, List.foldlM_map]
  rw [fillRectangle, foldlM_draw rows, Rectangle.cells, scan, List.map_flatMap]
  simp only [List.map_map]
  rfl

theorem exists_cleared (room : bufferLen version.side ≤ qrcode.length) :
    ∃ zeros cleared, memset name qrcode ((version.side * version.side + 7) / 8 + 1) = .ok zeros ∧
      store name zeros 0 (UInt8.ofNat version.side) = .ok cleared ∧ Symbol cleared version.side ∧
      cleared.length = qrcode.length ∧ moduleAt cleared version.side = fun _ => false := by
  have bounds := side_bounds version
  let count := (version.side * version.side + 7) / 8 + 1
  let zeros := List.replicate count (0 : UInt8) ++ qrcode.drop count
  have length : zeros.length = qrcode.length := by
    rw [List.length_append, List.length_replicate, List.length_drop]
    exact Nat.add_sub_cancel' room
  have positive : 0 < zeros.length := by
    rw [List.length_append, List.length_replicate]
    exact Nat.lt_of_lt_of_le (Nat.succ_pos _) (Nat.le_add_right _ _)
  have clearedLength : (zeros.set 0 (UInt8.ofNat version.side)).length = qrcode.length :=
    List.length_set.trans length
  refine ⟨zeros, zeros.set 0 (UInt8.ofNat version.side), if_pos room, store_eq positive _,
    ⟨bounds.1, bounds.2, by rwa [clearedLength], ?_⟩, clearedLength, ?_⟩
  · rw [byteAt_set positive, Function.update_self, UInt8.toNat_ofNat']
    omega
  · funext point
    rw [moduleAt]
    split
    · rename_i inPoint
      have inside := index_lt inPoint.1 inPoint.2
      have place : (point.2 * version.side + point.1) / 8 + 1 < count := by
        change _ < (version.side * version.side + 7) / 8 + 1
        omega
      rw [byteAt_set positive, Function.update_of_ne (Nat.succ_ne_zero _), byteAt,
        List.getD_eq_getElem?_getD, List.getElem?_append_left (by rwa [List.length_replicate]),
        List.getElem?_replicate_of_lt place]
      exact Nat.zero_testBit _
    · rfl

def functionDots (version : Version) : List ((Nat × Nat) × Bool) :=
  (functionRectangles version).flatMap fun rectangle => rectangle.cells.map fun cell => (cell, true)

theorem mem_functionDots {dot : (Nat × Nat) × Bool} :
    dot ∈ functionDots version ↔ isFunction version dot.1 = true ∧ dot.2 = true := by
  rw [functionDots, List.mem_flatMap]
  constructor
  · rintro ⟨rectangle, listed, mem⟩
    obtain ⟨cell, cellMem, rfl⟩ := List.mem_map.mp mem
    obtain ⟨inColumn, inRow⟩ := Rectangle.covers_iff.mp (Rectangle.mem_cells.mp cellMem)
    exact ⟨isFunction_of_covers listed inColumn inRow, rfl⟩
  · obtain ⟨point, black⟩ := dot
    rintro ⟨function, rfl⟩
    obtain ⟨rectangle, listed, covers⟩ := List.any_eq_true.mp function
    exact ⟨rectangle, listed, List.mem_map.mpr ⟨point, Rectangle.mem_cells.mpr covers, rfl⟩⟩

/-- All function modules are black and all others white. -/
theorem initializeFunctionModules_eq (room : bufferLen version.side ≤ qrcode.length) :
    ∃ drawn, initializeFunctionModules name version qrcode = .ok drawn ∧
      Symbol drawn version.side ∧ drawn.length = qrcode.length ∧
      moduleAt drawn version.side = isFunction version := by
  obtain ⟨zeros, cleared, clears, stores, symbol, length, white⟩ := @exists_cleared name _ _ room
  have inside : ∀ dot ∈ functionDots version, dot.1.1 < version.side ∧ dot.1.2 < version.side :=
    fun dot mem => inside_of_isFunction (mem_functionDots.mp mem).1
  obtain ⟨drawn, draws, symbolDrawn, same, picture⟩ := @draw_eq name _ _ symbol _ inside
  refine ⟨drawn, ?_, symbolDrawn, same.trans length, ?_⟩
  · rw [initializeFunctionModules, clears, run_ok_bind, stores, run_ok_bind,
      foldlM_draw fun rectangle drawn => fillRectangle_eq name drawn rectangle]
    exact draws
  · rw [picture, white]
    funext point
    cases function : isFunction version point with
    | true =>
        exact plot_of_hit (fun dot mem _ => (mem_functionDots.mp mem).2)
          ⟨(point, true), mem_functionDots.mpr ⟨function, rfl⟩, rfl⟩
    | false =>
        refine plot_of_miss fun dot mem here => ?_
        have covered := (mem_functionDots.mp mem).1
        rw [here, function] at covered
        cases covered

end Fill

/-! ## Drawing over them -/

structure Kept (version : Version) (qrcode drawn : List UInt8) : Prop where
  symbol : Symbol drawn version.side
  length : drawn.length = qrcode.length
  others : ∀ point, isFunction version point = false →
    moduleAt drawn version.side point = moduleAt qrcode version.side point

section Kept

variable {name : Buffer} {version : Version} {qrcode drawn : List UInt8}

theorem Kept.trans {last : List UInt8} (first : Kept version qrcode drawn)
    (second : Kept version drawn last) : Kept version qrcode last :=
  ⟨second.symbol, second.length.trans first.length,
    fun point other => (second.others point other).trans (first.others point other)⟩

theorem draw_kept (symbol : Symbol qrcode version.side) {dots : List ((Nat × Nat) × Bool)}
    (function : ∀ dot ∈ dots, isFunction version dot.1 = true) :
    ∃ drawn, draw name qrcode dots = .ok drawn ∧ Kept version qrcode drawn ∧
      moduleAt drawn version.side = plot (moduleAt qrcode version.side) dots := by
  obtain ⟨drawn, draws, symbolDrawn, same, picture⟩ := @draw_eq name _ _ symbol _ fun dot mem =>
    inside_of_isFunction (function dot mem)
  refine ⟨drawn, draws, ⟨symbolDrawn, same, fun point other => ?_⟩, picture⟩
  rw [picture]
  refine plot_of_miss fun dot mem here => ?_
  rw [← here, function dot mem] at other
  cases other

theorem setModuleBounded_kept (symbol : Symbol qrcode version.side) {x y : Int}
    (function : 0 ≤ x → x < version.side → 0 ≤ y → y < version.side →
      isFunction version (x.toNat, y.toNat) = true) (isBlack : Bool) :
    ∃ drawn, setModuleBounded name qrcode x y isBlack = .ok drawn ∧ Kept version qrcode drawn := by
  rw [setModuleBounded, symbol.load_first, run_ok_bind]
  dsimp only
  rw [symbol.first]
  by_cases inside : 0 ≤ x ∧ x < version.side ∧ 0 ≤ y ∧ y < version.side
  · have here := function inside.1 inside.2.1 inside.2.2.1 inside.2.2.2
    obtain ⟨drawn, draws, kept, -⟩ := @draw_kept name _ _ symbol
      [((x.toNat, y.toNat), isBlack)] fun dot mem => by rwa [List.mem_singleton.mp mem]
    refine ⟨drawn, ?_, kept⟩
    rw [if_pos inside, ← draws, draw, List.foldlM_cons]
    exact (bind_pure _).symm
  · exact ⟨qrcode, if_neg inside, symbol, rfl, fun _ _ => rfl⟩

theorem foldlM_kept {Item : Type} {round : List UInt8 → Item → Run (List UInt8)} {items : List Item}
    (rounds : ∀ item ∈ items, ∀ qrcode, Symbol qrcode version.side →
      ∃ drawn, round qrcode item = .ok drawn ∧ Kept version qrcode drawn)
    (symbol : Symbol qrcode version.side) :
    ∃ drawn, items.foldlM round qrcode = .ok drawn ∧ Kept version qrcode drawn := by
  induction items generalizing qrcode with
  | nil => exact ⟨qrcode, rfl, symbol, rfl, fun _ _ => rfl⟩
  | cons item items inductionHypothesis =>
      obtain ⟨here, later⟩ := List.forall_mem_cons.mp rounds
      obtain ⟨next, draws, kept⟩ := here qrcode symbol
      obtain ⟨drawn, others, keptLast⟩ := inductionHypothesis later kept.symbol
      refine ⟨drawn, ?_, kept.trans keptLast⟩
      rw [List.foldlM_cons, draws]
      exact others

theorem fixed_mem (version : Version) : ∀ rectangle ∈
    [(⟨6, 0, 1, version.side⟩ : Rectangle), ⟨0, 6, version.side, 1⟩, ⟨0, 0, 9, 9⟩,
      ⟨version.side - 8, 0, 8, 9⟩, ⟨0, version.side - 8, 9, 8⟩],
      rectangle ∈ functionRectangles version := by
  intro rectangle mem
  exact List.mem_append_left _ (List.mem_append_left _ mem)

theorem finderOffsets_bounds {offset : Int × Int} (mem : offset ∈ finderOffsets) :
    -4 ≤ offset.1 ∧ offset.1 ≤ 4 ∧ -4 ≤ offset.2 ∧ offset.2 ≤ 4 := by
  have all : ∀ offset ∈ finderOffsets,
      -4 ≤ offset.1 ∧ offset.1 ≤ 4 ∧ -4 ≤ offset.2 ∧ offset.2 ≤ 4 := by
    decide
  exact all offset mem

theorem drawFinders_kept {offset : Int × Int} (mem : offset ∈ finderOffsets)
    (symbol : Symbol qrcode version.side) :
    ∃ drawn, drawFinders name version.side qrcode offset = .ok drawn ∧ Kept version qrcode drawn := by
  obtain ⟨left, right, top, bottom⟩ := finderOffsets_bounds mem
  have bounds := side_bounds version
  obtain ⟨first, drawsFirst, keptFirst⟩ := @setModuleBounded_kept name _ _ symbol
    (3 + offset.1) (3 + offset.2) (fun _ _ _ _ => by
      refine isFunction_of_covers (fixed_mem version ⟨0, 0, 9, 9⟩ (by simp)) ?_ ?_
      · dsimp only
        omega
      · dsimp only
        omega) false
  obtain ⟨second, drawsSecond, keptSecond⟩ := @setModuleBounded_kept name _ _ keptFirst.symbol
    (version.side - 4 + offset.1) (3 + offset.2) (fun _ _ _ _ => by
      refine isFunction_of_covers (fixed_mem version ⟨version.side - 8, 0, 8, 9⟩ (by simp)) ?_ ?_
      · dsimp only
        omega
      · dsimp only
        omega) false
  obtain ⟨third, drawsThird, keptThird⟩ := @setModuleBounded_kept name _ _ keptSecond.symbol
    (3 + offset.1) (version.side - 4 + offset.2) (fun _ _ _ _ => by
      refine isFunction_of_covers (fixed_mem version ⟨0, version.side - 8, 9, 8⟩ (by simp)) ?_ ?_
      · dsimp only
        omega
      · dsimp only
        omega) false
  refine ⟨third, ?_, (keptFirst.trans keptSecond).trans keptThird⟩
  obtain ⟨dx, dy⟩ := offset
  rw [drawFinders, drawsFirst, run_ok_bind, drawsSecond, run_ok_bind, drawsThird]

theorem isFunction_timingDots (version : Version) :
    ∀ dot ∈ timingDots version.side, isFunction version dot.1 = true := by
  intro dot mem
  obtain ⟨k, listed, mem⟩ := List.mem_flatMap.mp mem
  have small := List.mem_range.mp listed
  simp only [List.mem_cons, List.not_mem_nil, or_false] at mem
  rcases mem with rfl | rfl
  · refine isFunction_of_covers (fixed_mem version ⟨6, 0, 1, version.side⟩ (by simp)) ?_ ?_
    · dsimp only
      omega
    · dsimp only
      omega
  · refine isFunction_of_covers (fixed_mem version ⟨0, 6, version.side, 1⟩ (by simp)) ?_ ?_
    · dsimp only
      omega
    · dsimp only
      omega

theorem isFunction_alignmentDots (version : Version) :
    ∀ dot ∈ (alignmentCentres version).flatMap alignmentDots, isFunction version dot.1 = true := by
  intro dot mem
  obtain ⟨centre, listed, mem⟩ := List.mem_flatMap.mp mem
  obtain ⟨dy, smallY, mem⟩ := List.mem_flatMap.mp mem
  obtain ⟨dx, smallX, rfl⟩ := List.mem_map.mp mem
  obtain ⟨column, row⟩ := mem_alignmentCentres listed
  have inColumn := (alignment_bounds version column).1
  have inRow := (alignment_bounds version row).1
  have nearX := List.mem_range.mp smallX
  have nearY := List.mem_range.mp smallY
  have rectangle : (⟨centre.1 - 2, centre.2 - 2, 5, 5⟩ : Rectangle) ∈ functionRectangles version :=
    List.mem_append_left _ (List.mem_append_right _ (List.mem_map.mpr ⟨centre, listed, rfl⟩))
  refine isFunction_of_covers rectangle ?_ ?_
  · dsimp only
    omega
  · dsimp only
    omega

theorem isFunction_versionDots {version : Version} (marked : 7 ≤ version.ver) (bits : Nat) :
    ∀ dot ∈ versionDots version.side bits, isFunction version dot.1 = true := by
  intro dot mem
  have bounds := side_bounds version
  obtain ⟨i, smallI, mem⟩ := List.mem_flatMap.mp mem
  obtain ⟨j, smallJ, mem⟩ := List.mem_flatMap.mp mem
  have nearI := List.mem_range.mp smallI
  have nearJ := List.mem_range.mp smallJ
  have blocks : ∀ rectangle ∈ [(⟨version.side - 11, 0, 3, 6⟩ : Rectangle),
      ⟨0, version.side - 11, 6, 3⟩], rectangle ∈ functionRectangles version := by
    intro rectangle listed
    rw [functionRectangles, if_pos marked]
    exact List.mem_append_right _ listed
  simp only [List.mem_cons, List.not_mem_nil, or_false] at mem
  rcases mem with rfl | rfl
  · refine isFunction_of_covers (blocks ⟨version.side - 11, 0, 3, 6⟩ (by simp)) ?_ ?_
    · dsimp only
      omega
    · dsimp only
      omega
  · refine isFunction_of_covers (blocks ⟨0, version.side - 11, 6, 3⟩ (by simp)) ?_ ?_
    · dsimp only
      omega
    · dsimp only
      omega

theorem drawWhiteFunctionModules_kept (symbol : Symbol qrcode version.side) :
    ∃ drawn, drawWhiteFunctionModules name qrcode version = .ok drawn ∧ Kept version qrcode drawn := by
  obtain ⟨timed, drawsTiming, keptTiming, -⟩ :=
    @draw_kept name _ _ symbol _ (isFunction_timingDots version)
  obtain ⟨found, drawsFinders, keptFinders⟩ := @foldlM_kept version timed _
    (drawFinders name version.side) finderOffsets
    (fun _ mem _ symbol => drawFinders_kept mem symbol) keptTiming.symbol
  obtain ⟨aligned, drawsAlignment, keptAlignment, -⟩ :=
    @draw_kept name _ _ keptFinders.symbol _ (isFunction_alignmentDots version)
  have before := (keptTiming.trans keptFinders).trans keptAlignment
  have front : drawWhiteFunctionModules name qrcode version =
      if 7 ≤ version.ver then draw name aligned (versionDots version.side (versionBits version))
      else .ok aligned := by
    rw [drawWhiteFunctionModules, getSize_eq symbol, run_ok_bind, drawsTiming, run_ok_bind, drawsFinders,
      run_ok_bind, drawsAlignment, run_ok_bind]
  rw [front]
  by_cases marked : 7 ≤ version.ver
  · obtain ⟨drawn, draws, kept, -⟩ := @draw_kept name _ _ keptAlignment.symbol _
      (isFunction_versionDots marked (versionBits version))
    refine ⟨drawn, ?_, before.trans kept⟩
    rw [if_pos marked, draws]
  · exact ⟨aligned, if_neg marked, before⟩

/-! ## The format bits -/

theorem isFunction_firstPlace (version : Version) {i : Nat} (small : i < 15) :
    isFunction version (firstPlace i) = true := by
  refine isFunction_of_covers (fixed_mem version ⟨0, 0, 9, 9⟩ (by simp)) ?_ ?_
  all_goals
    rw [firstPlace]
    split_ifs <;> dsimp only <;> omega

theorem isFunction_secondPlace (version : Version) {i : Nat} (small : i < 15) :
    isFunction version (secondPlace version.side i) = true := by
  have bounds := side_bounds version
  rw [secondPlace]
  by_cases right : i < 8
  · rw [if_pos right]
    refine isFunction_of_covers (fixed_mem version ⟨version.side - 8, 0, 8, 9⟩ (by simp)) ?_ ?_
    all_goals
      dsimp only
      omega
  · rw [if_neg right]
    refine isFunction_of_covers (fixed_mem version ⟨0, version.side - 8, 9, 8⟩ (by simp)) ?_ ?_
    all_goals
      dsimp only
      omega

theorem formatBits_small (ecl : qrcodegen_Ecc) (mask : Mask) : formatBits ecl mask >>> 15 = 0 := by
  have all : ∀ ecl ∈ levels, ∀ mask : Mask, formatBits ecl mask >>> 15 = 0 := by decide +kernel
  exact all ecl (mem_levels ecl) mask

theorem isFunction_formatDots (version : Version) (bits : Nat) :
    ∀ dot ∈ formatDots version.side bits, isFunction version dot.1 = true := by
  have bounds := side_bounds version
  intro dot mem
  rw [formatDots, List.mem_append, List.mem_append, List.mem_map, List.mem_map,
    List.mem_singleton] at mem
  rcases mem with (⟨i, listed, rfl⟩ | ⟨i, listed, rfl⟩) | rfl
  · exact isFunction_firstPlace version (List.mem_range.mp listed)
  · exact isFunction_secondPlace version (List.mem_range.mp listed)
  · refine isFunction_of_covers (fixed_mem version ⟨0, version.side - 8, 9, 8⟩ (by simp)) ?_ ?_
    all_goals
      dsimp only
      omega

theorem drawFormatBits_eq (symbol : Symbol qrcode version.side) (ecl : qrcodegen_Ecc) (mask : Mask) :
    ∃ drawn, drawFormatBits name ecl mask qrcode = .ok drawn ∧ Kept version qrcode drawn ∧
      moduleAt drawn version.side =
        plot (moduleAt qrcode version.side) (formatDots version.side (formatBits ecl mask)) := by
  obtain ⟨drawn, draws, kept, picture⟩ := @draw_kept name _ _ symbol _
    (isFunction_formatDots version (formatBits ecl mask))
  refine ⟨drawn, ?_, kept, picture⟩
  rw [drawFormatBits, getSize_eq symbol, run_ok_bind, draws]

theorem plot_formatDots (version : Version) (picture : Nat × Nat → Bool) (bits : Nat) {i : Nat}
    (small : i < 15) : plot picture (formatDots version.side bits) (firstPlace i) = bits.testBit i := by
  have bounds := side_bounds version
  refine plot_of_hit ?_ ⟨(firstPlace i, getBit bits i), ?_, rfl⟩
  · intro dot mem here
    have near : (firstPlace i).1 < 9 ∧ (firstPlace i).2 < 9 := by
      rw [firstPlace]
      split_ifs <;> dsimp only <;> omega
    rw [formatDots, List.mem_append, List.mem_append, List.mem_map, List.mem_map,
      List.mem_singleton] at mem
    rcases mem with (⟨j, listed, rfl⟩ | ⟨j, listed, rfl⟩) | rfl
    · have distinct : ∀ i < 15, ∀ j < 15, firstPlace j = firstPlace i → j = i := by decide
      rw [distinct i small j (List.mem_range.mp listed) here]
      exact getBit_eq _ _
    · have below := List.mem_range.mp listed
      rw [← here] at near
      dsimp only at near
      rw [secondPlace] at near
      split_ifs at near <;> dsimp only at near <;> omega
    · rw [← here] at near
      dsimp only at near
      omega
  · exact List.mem_append_left _ (List.mem_append_left _
      (List.mem_map.mpr ⟨i, List.mem_range.mpr small, rfl⟩))

end Kept

/-- As many modules stay white as `getNumRawDataModules` says. -/
theorem initializeFunctionModules_white (name : Buffer) {version : Version} {qrcode : List UInt8}
    (room : bufferLen version.side ≤ qrcode.length) :
    ∃ drawn, initializeFunctionModules name version qrcode = .ok drawn ∧
      drawn.length = qrcode.length ∧
      (∀ x y, ∃ black, qrcodegen_getModule drawn x y = .ok black) ∧
      (grid version.side).countP (fun point => !moduleAt drawn version.side point) =
        getNumRawDataModules version := by
  obtain ⟨drawn, runs, symbol, same, picture⟩ := @initializeFunctionModules_eq name version qrcode room
  refine ⟨drawn, runs, same, fun x y => ⟨_, qrcodegen_getModule_eq symbol x y⟩, ?_⟩
  rw [picture]
  exact countP_isFunction version

/-- The 208 modules of version 1. -/
theorem initializeFunctionModules_white_version_1 :
    ∃ drawn, initializeFunctionModules .qrcode ⟨1, Nat.le_refl 1, Nat.le_of_ble_eq_true rfl⟩
        (List.replicate 57 0xFF) = .ok drawn ∧
      (grid 21).countP (fun point => !moduleAt drawn 21 point) = 208 := by
  let version : Version := ⟨1, Nat.le_refl 1, Nat.le_of_ble_eq_true rfl⟩
  have room : bufferLen version.side ≤ (List.replicate 57 (0xFF : UInt8)).length := by decide
  obtain ⟨drawn, runs, -, -, white⟩ := initializeFunctionModules_white .qrcode room
  exact ⟨drawn, runs, white⟩

end WifiIot.Qrcodegen
