import WifiIot.Qrcodegen.Bits
import WifiIot.Qrcodegen.FunctionModules

/-!
# Codewords and masks

The bits of the codewords go through the modules that are no function modules, in pairs
of columns from the right, up and down by turns.  A mask turns some of them over.

Source: `qrcode_gen/src/qrcodegen.c`.
-/

namespace WifiIot.Qrcodegen

open Coding Memory Raster

/-- The values of `right`, at most so many. -/
def rightColumns : Nat → Nat → List Nat
  | 0, _ => []
  | rounds + 1, right =>
      if right = 0 then []
      else
        let right := if right = 6 then 5 else right
        right :: if right < 2 then [] else rightColumns rounds (right - 2)

/-- The modules of a pair of columns, in the order of the two inner loops. -/
def columnPair (qrsize right : Nat) : List (Nat × Nat) :=
  (List.range qrsize).flatMap fun vert => (List.range 2).map fun j =>
    let upward : Bool := (right + 1) &&& 2 = 0
    (right - j, if upward then qrsize - 1 - vert else vert)

def zigzag (qrsize : Nat) : List (Nat × Nat) :=
  (rightColumns qrsize (qrsize - 1)).flatMap (columnPair qrsize)

/-- One round, with `qrcode` and `i`. -/
def drawBit (data : List UInt8) (dataLen : Nat) (state : List UInt8 × Nat) (place : Nat × Nat) :
    Run (List UInt8 × Nat) := do
  let (qrcode, i) := state
  let taken ← getModule .qrcode qrcode place.1 place.2
  if !taken && i < dataLen * 8 then do
    let byte ← load .tempBuffer data (i >>> 3)
    let black := getBit byte.toNat (7 - (i &&& 7))
    let qrcode ← setModule .qrcode qrcode place.1 place.2 black
    .ok (qrcode, i + 1)
  else .ok (qrcode, i)

def drawCodewords (data : List UInt8) (dataLen : Nat) (qrcode : List UInt8) : Run (List UInt8) := do
  let qrsize ← getSize .qrcode qrcode
  let (qrcode, _) ← (zigzag qrsize).foldlM (drawBit data dataLen) (qrcode, 0)
  .ok qrcode

def invert (mask : Mask) (x y : Nat) : Bool :=
  match mask.val with
  | 0 => (x + y) % 2 = 0
  | 1 => y % 2 = 0
  | 2 => x % 3 = 0
  | 3 => (x + y) % 3 = 0
  | 4 => (x / 3 + y / 2) % 2 = 0
  | 5 => x * y % 2 + x * y % 3 = 0
  | 6 => (x * y % 2 + x * y % 3) % 2 = 0
  | _ => ((x + y) % 2 + x * y % 3) % 2 = 0

def maskModule (functionModules : List UInt8) (mask : Mask) (qrcode : List UInt8) (place : Nat × Nat) :
    Run (List UInt8) := do
  let function ← getModule .tempBuffer functionModules place.1 place.2
  if function then .ok qrcode
  else do
    let val ← getModule .qrcode qrcode place.1 place.2
    setModule .qrcode qrcode place.1 place.2 (val ^^ invert mask place.1 place.2)

def applyMask (functionModules qrcode : List UInt8) (mask : Mask) : Run (List UInt8) := do
  let qrsize ← getSize .qrcode qrcode
  (scan qrsize qrsize fun y x => (x, y)).foldlM (maskModule functionModules mask) qrcode

/-! ## The order of the modules -/

theorem columns_eq (version : Version) :
    (rightColumns version.side (version.side - 1)).flatMap (fun right => [right, right - 1]) =
      (List.range version.side).reverse.filter (· ≠ 6) := by
  have all : (versions.all fun version =>
      (rightColumns version.side (version.side - 1)).flatMap (fun right => [right, right - 1]) ==
        (List.range version.side).reverse.filter (fun column => !Nat.beq column 6)) = true := by
    decide +kernel
  rw [eq_of_beq (List.all_eq_true.mp all version (mem_versions version))]
  refine List.filter_congr fun column _ => ?_
  by_cases six : column = 6
  · subst six
    rfl
  · have different : Nat.beq column 6 = false := by
      rw [Bool.eq_false_iff]
      exact fun same => six (Nat.eq_of_beq_eq_true same)
    rw [different, decide_eq_true six]
    rfl

theorem columnPair_perm (qrsize right : Nat) :
    (columnPair qrsize right).Perm
      ([right, right - 1].flatMap fun x => (List.range qrsize).map fun y => (x, y)) := by
  have rows : ∀ upward : Bool, ((List.range qrsize).flatMap fun vert => (List.range 2).map fun j =>
      (right - j, if upward then qrsize - 1 - vert else vert)).Perm
        ([right, right - 1].flatMap fun x => (List.range qrsize).map fun y => (x, y)) := by
    intro upward
    have pairs : ((List.range qrsize).flatMap fun vert => (List.range 2).map fun j =>
        (right - j, if upward then qrsize - 1 - vert else vert)) =
          ((List.range qrsize).map fun vert => if upward then qrsize - 1 - vert else vert).flatMap
            fun y => [(right, y)] ++ [(right - 1, y)] := by
      rw [List.flatMap_map]
      rfl
    have order : ((List.range qrsize).map fun vert => if upward then qrsize - 1 - vert else vert).Perm
        (List.range qrsize) := by
      cases upward with
      | true =>
          have turned : (List.range qrsize).map (fun vert => qrsize - 1 - vert) =
              (List.range qrsize).reverse := by
            rw [List.range_eq_range', List.reverse_range', Nat.zero_add, ← List.range_eq_range']
          exact turned ▸ List.reverse_perm _
      | false => exact List.Perm.of_eq (List.map_id _)
    rw [pairs]
    refine (order.flatMap_right _).trans ((List.flatMap_append_perm _ _ _).symm.trans ?_)
    rw [← List.map_eq_flatMap, ← List.map_eq_flatMap, List.flatMap_cons, List.flatMap_singleton]
  exact rows _

/-- The scan goes through all modules but those of one column, and through none twice. -/
theorem zigzag_perm (version : Version) :
    (zigzag version.side).Perm ((grid version.side).filter fun point => point.1 ≠ 6) := by
  have pairs : (zigzag version.side).Perm ((rightColumns version.side (version.side - 1)).flatMap
      fun right => [right, right - 1].flatMap fun x =>
        (List.range version.side).map fun y => (x, y)) :=
    List.Perm.flatMap_left _ fun right _ => columnPair_perm version.side right
  have columns : ∀ columns : List Nat, (columns.flatMap fun x =>
      (List.range version.side).map fun y => (x, y)).filter (fun point => point.1 ≠ 6) =
        (columns.filter (· ≠ 6)).flatMap fun x => (List.range version.side).map fun y => (x, y) := by
    intro columns
    induction columns with
    | nil => rfl
    | cons x columns inductionHypothesis =>
        rw [List.flatMap_cons, List.filter_append, inductionHypothesis]
        by_cases six : x = 6
        · simp [six]
        · simp [six, List.filter_eq_self]
  rw [grid, columns]
  refine pairs.trans ?_
  rw [← List.flatMap_assoc, columns_eq, List.filter_reverse]
  exact (List.reverse_perm _).flatMap_right _

theorem nodup_zigzag (version : Version) : (zigzag version.side).Nodup :=
  (zigzag_perm version).nodup_iff.mpr (nodup_grid.filter _)

theorem mem_zigzag {version : Version} {point : Nat × Nat} (mem : point ∈ zigzag version.side) :
    point.1 < version.side ∧ point.2 < version.side :=
  mem_grid.mp (List.mem_filter.mp ((zigzag_perm version).mem_iff.mp mem)).1

/-- The modules that are left to the codewords, in their order. -/
def codewordModules (version : Version) : List (Nat × Nat) :=
  (zigzag version.side).filter fun point => !isFunction version point

theorem length_codewordModules (version : Version) :
    (codewordModules version).length = getNumRawDataModules version := by
  have bounds := side_bounds version
  have counted : (grid version.side).filter (fun point => !isFunction version point && point.1 ≠ 6) =
      (grid version.side).filter fun point => !isFunction version point := by
    refine List.filter_congr fun point mem => ?_
    by_cases six : point.1 = 6
    · have inside := mem_grid.mp mem
      have function : isFunction version point = true := by
        refine isFunction_of_covers (fixed_mem version ⟨6, 0, 1, version.side⟩ (by simp)) ?_ ?_
        all_goals
          dsimp only
          omega
      rw [function]
      rfl
    · simp [six]
  rw [codewordModules, ((zigzag_perm version).filter _).length_eq, List.filter_filter, counted,
    ← List.countP_eq_length_filter, countP_isFunction]

theorem nodup_codewordModules (version : Version) : (codewordModules version).Nodup :=
  (nodup_zigzag version).filter _

theorem mem_codewordModules {version : Version} {point : Nat × Nat}
    (mem : point ∈ codewordModules version) :
    (point.1 < version.side ∧ point.2 < version.side) ∧ isFunction version point = false := by
  obtain ⟨listed, free⟩ := List.mem_filter.mp mem
  exact ⟨mem_zigzag listed, by simpa using free⟩

/-! ## Drawing the codewords -/

section Draw

variable {version : Version} {data qrcode : List UInt8} {dataLen : Nat}

theorem drawBit_takes (fits : dataLen ≤ data.length) {i : Nat} (more : i < dataLen * 8)
    (symbol : Symbol qrcode version.side) {place : Nat × Nat}
    (here : place.1 < version.side ∧ place.2 < version.side)
    (white : moduleAt qrcode version.side place = false) :
    ∃ stored, drawBit data dataLen (qrcode, i) place = .ok (stored, i + 1) ∧
      Symbol stored version.side ∧ stored.length = qrcode.length ∧
      moduleAt stored version.side =
        Function.update (moduleAt qrcode version.side) place (bitAt data i) := by
  let black := bitAt data i
  obtain ⟨stored, sets, stays⟩ := @setModule_eq .qrcode _ _ _ _ symbol here.1 here.2 black
  have byte : i >>> 3 < data.length := by
    rw [shiftRight_three]
    omega
  refine ⟨stored, ?_, stays⟩
  rw [drawBit, getModule_eq symbol here.1 here.2, white, run_ok_bind, if_pos (by simp [more]),
    load_eq byte, run_ok_bind]
  dsimp only
  rw [getBit_eq, shiftRight_three, and_seven]
  change setModule .qrcode qrcode place.1 place.2 black >>= _ = _
  rw [sets, run_ok_bind]

/-- A function module stays, and so does every module when there are no bits left. -/
theorem drawBit_stays {i : Nat} (symbol : Symbol qrcode version.side) {place : Nat × Nat}
    (here : place.1 < version.side ∧ place.2 < version.side)
    (taken : moduleAt qrcode version.side place = true ∨ ¬i < dataLen * 8) :
    drawBit data dataLen (qrcode, i) place = .ok (qrcode, i) := by
  have skips : ¬(!moduleAt qrcode version.side place && i < dataLen * 8) = true := by
    rcases taken with black | finished
    · simp [black]
    · simp [finished]
  rw [drawBit, getModule_eq symbol here.1 here.2, run_ok_bind, if_neg skips]

theorem foldlM_drawBit {places : List (Nat × Nat)} (nodup : places.Nodup)
    (inside : ∀ place ∈ places, place.1 < version.side ∧ place.2 < version.side)
    (fits : dataLen ≤ data.length) {i : Nat} (symbol : Symbol qrcode version.side)
    (initial : ∀ place ∈ places, moduleAt qrcode version.side place = isFunction version place)
    (early : i ≤ dataLen * 8) :
    ∃ drawn strokes, places.foldlM (drawBit data dataLen) (qrcode, i) =
        .ok (drawn, i + strokes.length) ∧
      strokes = (places.filter fun place => !isFunction version place).zip
        (((List.range (dataLen * 8)).map (bitAt data)).drop i) ∧
      Symbol drawn version.side ∧ drawn.length = qrcode.length ∧
      moduleAt drawn version.side = plot (moduleAt qrcode version.side) strokes := by
  induction places generalizing qrcode i with
  | nil => exact ⟨qrcode, [], rfl, rfl, symbol, rfl, rfl⟩
  | cons place places inductionHypothesis =>
      obtain ⟨fresh, nodup⟩ := List.nodup_cons.mp nodup
      obtain ⟨here, later⟩ := List.forall_mem_cons.mp inside
      obtain ⟨white, whites⟩ := List.forall_mem_cons.mp initial
      rw [List.foldlM_cons]
      cases function : isFunction version place with
      | true =>
          obtain ⟨drawn, strokes, runs, shape, rest⟩ :=
            inductionHypothesis nodup later symbol whites early
          refine ⟨drawn, strokes, ?_, ?_, rest⟩
          · rw [drawBit_stays symbol here (.inl (white.trans function))]
            exact runs
          · rw [shape, List.filter_cons_of_neg (by simp [function])]
      | false =>
          by_cases more : i < dataLen * 8
          · obtain ⟨stored, round, symbolStored, same, picture⟩ :=
              drawBit_takes fits more symbol here (white.trans function)
            have unchanged : ∀ other ∈ places, moduleAt stored version.side other =
                isFunction version other := by
              intro other mem
              have different : other ≠ place := fun equal => fresh (equal ▸ mem)
              rw [picture, Function.update_of_ne different]
              exact whites other mem
            obtain ⟨drawn, strokes, runs, shape, symbolDrawn, sameDrawn, pictureDrawn⟩ :=
              inductionHypothesis nodup later symbolStored unchanged more
            have next : ((List.range (dataLen * 8)).map (bitAt data)).drop i =
                bitAt data i :: ((List.range (dataLen * 8)).map (bitAt data)).drop (i + 1) := by
              rw [List.drop_eq_getElem_cons (by simpa using more), List.getElem_map,
                List.getElem_range]
            refine ⟨drawn, (place, bitAt data i) :: strokes, ?_, ?_, symbolDrawn, sameDrawn.trans same, ?_⟩
            · rw [round, run_ok_bind, runs, List.length_cons, Nat.succ_add_eq_add_succ]
            · rw [shape, List.filter_cons_of_pos (by simp [function]), next, List.zip_cons_cons]
            · rw [pictureDrawn, picture, plot_cons]
          · have all : ((List.range (dataLen * 8)).map (bitAt data)).drop i = [] := by
              refine List.drop_of_length_le ?_
              rw [List.length_map, List.length_range]
              omega
            obtain ⟨drawn, strokes, runs, shape, rest⟩ :=
              inductionHypothesis nodup later symbol whites early
            refine ⟨drawn, strokes, ?_, ?_, rest⟩
            · rw [drawBit_stays symbol here (.inr more)]
              exact runs
            · rw [shape, all, List.zip_nil_right, List.zip_nil_right]

/-- All codewords are drawn: the modules show their bits, and then white. -/
theorem drawCodewords_eq (symbol : Symbol qrcode version.side)
    (initial : moduleAt qrcode version.side = isFunction version)
    (fits : rawCodewords version ≤ data.length) :
    ∃ drawn, drawCodewords data (rawCodewords version) qrcode = .ok drawn ∧
      Kept version drawn drawn ∧ drawn.length = qrcode.length ∧
      ((codewordModules version).map (moduleAt drawn version.side)).take (8 * rawCodewords version) =
        bytesBits (data.take (rawCodewords version)) := by
  obtain ⟨drawn, strokes, runs, shape, symbolDrawn, same, picture⟩ := foldlM_drawBit
    (nodup_zigzag version) (fun _ => mem_zigzag) fits symbol
    (fun place _ => congrFun initial place) (Nat.zero_le (rawCodewords version * 8))
  have whole : 8 * rawCodewords version ≤ getNumRawDataModules version := by
    rw [rawCodewords]
    omega
  have taken : (data.take (rawCodewords version)).length = rawCodewords version :=
    List.length_take_of_le fits
  have bits : ((List.range (rawCodewords version * 8)).map (bitAt data)) =
      bytesBits (data.take (rawCodewords version)) := by
    rw [bytesBits_eq_map, taken, Nat.mul_comm]
    refine List.map_congr_left fun k mem => ?_
    have inside := List.mem_range.mp mem
    rw [bitAt, bitAt, byteAt, byteAt, List.getD_eq_getElem?_getD, List.getD_eq_getElem?_getD,
      List.getElem?_take_of_lt (by omega)]
  have length : (bytesBits (data.take (rawCodewords version))).length = 8 * rawCodewords version := by
    rw [length_bytesBits, taken]
  have enough : (bytesBits (data.take (rawCodewords version))).length ≤
      (codewordModules version).length := by
    rw [length, length_codewordModules]
    exact whole
  rw [List.drop_zero, bits] at shape
  change strokes = (codewordModules version).zip _ at shape
  refine ⟨drawn, ?_, ⟨symbolDrawn, rfl, fun _ _ => rfl⟩, same, ?_⟩
  · rw [drawCodewords, getSize_eq symbol, run_ok_bind]
    dsimp only
    rw [runs]
    rfl
  · rw [picture, shape, ← length]
    exact map_plot_zip (nodup_codewordModules version) enough

end Draw

/-! ## Masks -/

def maskAt (version : Version) (mask : Mask) (point : Nat × Nat) : Bool :=
  (point.1 < version.side ∧ point.2 < version.side) && !isFunction version point &&
    invert mask point.1 point.2

section Mask

variable {version : Version} {functionModules qrcode : List UInt8}

theorem foldlM_retouch {side : Nat} {change : Nat × Nat → Bool → Bool}
    {round : List UInt8 → Nat × Nat → Run (List UInt8)} {places : List (Nat × Nat)}
    (rounds : ∀ place ∈ places, ∀ qrcode, Symbol qrcode side → ∃ stored,
      round qrcode place = .ok stored ∧ Symbol stored side ∧ stored.length = qrcode.length ∧
      moduleAt stored side = Function.update (moduleAt qrcode side) place
        (change place (moduleAt qrcode side place)))
    (symbol : Symbol qrcode side) :
    ∃ stored, places.foldlM round qrcode = .ok stored ∧ Symbol stored side ∧
      stored.length = qrcode.length ∧
      moduleAt stored side = retouch change (moduleAt qrcode side) places := by
  induction places generalizing qrcode with
  | nil => exact ⟨qrcode, rfl, symbol, rfl, rfl⟩
  | cons place places inductionHypothesis =>
      obtain ⟨here, later⟩ := List.forall_mem_cons.mp rounds
      obtain ⟨next, draws, symbolNext, sameNext, pictureNext⟩ := here qrcode symbol
      obtain ⟨stored, others, symbolStored, same, picture⟩ := inductionHypothesis later symbolNext
      refine ⟨stored, ?_, symbolStored, same.trans sameNext, ?_⟩
      · rw [List.foldlM_cons, draws]
        exact others
      · rw [picture, pictureNext]
        rfl

theorem maskModule_eq (symbol : Symbol qrcode version.side)
    (marked : Symbol functionModules version.side)
    (function : moduleAt functionModules version.side = isFunction version) (mask : Mask)
    {place : Nat × Nat} (inside : place.1 < version.side ∧ place.2 < version.side) :
    ∃ stored, maskModule functionModules mask qrcode place = .ok stored ∧ Symbol stored version.side ∧
      stored.length = qrcode.length ∧
      moduleAt stored version.side = Function.update (moduleAt qrcode version.side) place
        (moduleAt qrcode version.side place ^^ maskAt version mask place) := by
  have taken : getModule .tempBuffer functionModules place.1 place.2 =
      .ok (isFunction version place) := by
    rw [← function]
    exact getModule_eq marked inside.1 inside.2
  rw [maskModule, taken, run_ok_bind]
  cases free : isFunction version place with
  | true =>
      have kept : maskAt version mask place = false := by
        rw [maskAt, free, Bool.not_true, Bool.and_false, Bool.false_and]
      refine ⟨qrcode, rfl, symbol, rfl, ?_⟩
      rw [kept, Bool.xor_false, Function.update_eq_self]
  | false =>
      have turned : maskAt version mask place = invert mask place.1 place.2 := by
        rw [maskAt, free, decide_eq_true inside, Bool.not_false, Bool.true_and, Bool.true_and]
      rw [if_neg Bool.false_ne_true, getModule_eq symbol inside.1 inside.2, run_ok_bind, turned]
      exact setModule_eq symbol inside.1 inside.2 _

theorem applyMask_eq (symbol : Symbol qrcode version.side)
    (marked : Symbol functionModules version.side)
    (function : moduleAt functionModules version.side = isFunction version) (mask : Mask) :
    ∃ masked, applyMask functionModules qrcode mask = .ok masked ∧ Symbol masked version.side ∧
      masked.length = qrcode.length ∧
      moduleAt masked version.side =
        fun point => moduleAt qrcode version.side point ^^ maskAt version mask point := by
  let places := scan version.side version.side fun y x => (x, y)
  have inside : ∀ place, place ∈ places ↔ place.1 < version.side ∧ place.2 < version.side := by
    rintro ⟨x, y⟩
    rw [mem_scan]
    constructor
    · rintro ⟨row, above, column, before, same⟩
      obtain ⟨rfl, rfl⟩ := Prod.mk.inj same
      exact ⟨before, above⟩
    · rintro ⟨before, above⟩
      exact ⟨y, above, x, before, rfl⟩
  have nodup : places.Nodup := by
    have swapped : places = (grid version.side).map Prod.swap := by
      rw [grid, List.map_flatMap]
      simp only [List.map_map]
      rfl
    rw [swapped]
    exact nodup_grid.map Prod.swap_injective
  obtain ⟨masked, runs, symbolMasked, same, picture⟩ := @foldlM_retouch qrcode version.side
    (fun place val => val ^^ maskAt version mask place) (maskModule functionModules mask) places
    (fun place mem qrcode symbol =>
      maskModule_eq symbol marked function mask ((inside place).mp mem)) symbol
  refine ⟨masked, ?_, symbolMasked, same, ?_⟩
  · rw [applyMask, getSize_eq symbol, run_ok_bind]
    exact runs
  · rw [picture, retouch_eq nodup]
    funext point
    by_cases here : point.1 < version.side ∧ point.2 < version.side
    · rw [if_pos ((inside point).mpr here)]
    · have outside : maskAt version mask point = false := by
        rw [maskAt, decide_eq_false here]
        rfl
      rw [if_neg fun mem => here ((inside point).mp mem), outside, Bool.xor_false]

end Mask

/-- A mask is undone by itself, and it leaves the marked modules alone. -/
theorem applyMask_applyMask {version : Version} {tempBuffer functionModules qrcode : List UInt8}
    (room : bufferLen version.side ≤ tempBuffer.length)
    (marks : initializeFunctionModules .tempBuffer version tempBuffer = .ok functionModules)
    (symbol : Symbol qrcode version.side) (mask : Mask) :
    ∃ masked restored, applyMask functionModules qrcode mask = .ok masked ∧
      applyMask functionModules masked mask = .ok restored ∧
      (∀ x y, qrcodegen_getModule restored x y = qrcodegen_getModule qrcode x y) ∧
      ∀ x y, qrcodegen_getModule functionModules x y = .ok true →
        qrcodegen_getModule masked x y = qrcodegen_getModule qrcode x y := by
  obtain ⟨marked, runs, symbolMarked, -, function⟩ :=
    @initializeFunctionModules_eq .tempBuffer version tempBuffer room
  obtain rfl := Except.ok.inj (runs.symm.trans marks)
  obtain ⟨masked, masks, symbolMasked, -, pictureMasked⟩ := applyMask_eq symbol symbolMarked function mask
  obtain ⟨restored, restores, symbolRestored, -, pictureRestored⟩ :=
    applyMask_eq symbolMasked symbolMarked function mask
  refine ⟨masked, restored, masks, restores, fun x y => ?_, fun x y taken => ?_⟩
  · have same : moduleAt restored version.side = moduleAt qrcode version.side := by
      rw [pictureRestored, pictureMasked]
      funext point
      rw [Bool.xor_assoc, Bool.xor_self, Bool.xor_false]
    rw [qrcodegen_getModule_eq symbolRestored, qrcodegen_getModule_eq symbol, same]
  · rw [qrcodegen_getModule_eq symbolMarked, function] at taken
    have function := (Bool.and_eq_true_iff.mp (Except.ok.inj taken)).2
    have kept : maskAt version mask (x.toNat, y.toNat) = false := by
      rw [maskAt, function, Bool.not_true, Bool.and_false, Bool.false_and]
    rw [qrcodegen_getModule_eq symbolMasked, qrcodegen_getModule_eq symbol, pictureMasked]
    dsimp only
    rw [kept, Bool.xor_false]

/-- A white symbol of version 1. -/
theorem applyMask_applyMask_version_1 :
    ∃ functionModules masked restored,
      initializeFunctionModules .tempBuffer ⟨1, Nat.le_refl 1, Nat.le_of_ble_eq_true rfl⟩
        (List.replicate 57 0) = .ok functionModules ∧
      applyMask functionModules (21 :: List.replicate 56 0) ⟨3, Nat.le_of_ble_eq_true rfl⟩ = .ok masked ∧
      applyMask functionModules masked ⟨3, Nat.le_of_ble_eq_true rfl⟩ = .ok restored ∧
      qrcodegen_getModule restored 20 20 = .ok false := by
  let version : Version := ⟨1, Nat.le_refl 1, Nat.le_of_ble_eq_true rfl⟩
  have room : bufferLen version.side ≤ (List.replicate 57 (0 : UInt8)).length := by decide
  have symbol : Symbol (21 :: List.replicate 56 0) version.side := ⟨by decide, by decide, by decide, rfl⟩
  obtain ⟨functionModules, marks, -⟩ := @initializeFunctionModules_eq .tempBuffer version _ room
  obtain ⟨masked, restored, masks, restores, same, -⟩ :=
    applyMask_applyMask room marks symbol ⟨3, Nat.le_of_ble_eq_true rfl⟩
  refine ⟨functionModules, masked, restored, marks, masks, restores, ?_⟩
  rw [same]
  rfl

end WifiIot.Qrcodegen
