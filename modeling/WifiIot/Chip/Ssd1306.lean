import Mathlib.Data.Fin.Basic
import Mathlib.Logic.Function.Iterate
import WifiIot.Memory.Bit
import WifiIot.Raster.Plot

/-!
# The SSD1306 controller

The part of the display controller that decides what its memory holds: how a
transfer is split into commands and data, the addressing mode, the window, and
the pointer that moves on with every data byte.  Commands that set other things
are only skipped, with their arguments.

The central facts are what a run of data bytes writes: a part of a row in the
page mode, and a window row by row in the horizontal mode.
-/

namespace WifiIot.Ssd1306

open Memory Raster

/-! ## Transfers -/

inductive Item where
  | command (byte : UInt8)
  | data (byte : UInt8)
  deriving DecidableEq

/-- A byte behind a control byte; bit 6 says what it is. -/
def item (control byte : UInt8) : Item :=
  if bit control 6 then .data byte else .command byte

/-- A control byte with bit 7 set stands for one byte, and the first one without
for all that follow. -/
def decode : List UInt8 → List Item
  | control :: byte :: rest =>
      if bit control 7 then item control byte :: decode rest
      else (byte :: rest).map (item control)
  | _ => []

theorem decode_one {control : UInt8} (single : bit control 7 = true) (byte : UInt8)
    (rest : List UInt8) : decode (control :: byte :: rest) = item control byte :: decode rest :=
  if_pos single

theorem decode_rest {control : UInt8} (last : bit control 7 = false) (bytes : List UInt8) :
    decode (control :: bytes) = bytes.map (item control) := by
  cases bytes with
  | nil => rfl
  | cons byte rest => exact if_neg (by rw [last]; exact Bool.false_ne_true)

theorem decode_each {control : UInt8} (single : bit control 7 = true) (bytes rest : List UInt8) :
    decode (bytes.flatMap (fun byte => [control, byte]) ++ rest) =
      bytes.map (item control) ++ decode rest := by
  induction bytes with
  | nil => rfl
  | cons byte bytes inductionHypothesis =>
      rw [List.flatMap_cons, List.append_assoc]
      exact (decode_one single byte _).trans (congrArg (item control byte :: ·) inductionHypothesis)

/-! ## The pointer -/

inductive Mode where
  | horizontal
  | vertical
  | page
  deriving DecidableEq

def Mode.ofByte (byte : UInt8) : Mode :=
  match byte.toNat % 4 with
  | 0 => .horizontal
  | 1 => .vertical
  | _ => .page

/-- A byte of the memory: its page and its column. -/
abbrev Cell : Type := Fin 8 × Fin 128

/-- The page and the column that the low bits of a number name. -/
abbrev pageOf (n : Nat) : Fin 8 := Fin.ofNat 8 n

abbrev columnOf (n : Nat) : Fin 128 := Fin.ofNat 128 n

structure Window where
  columnStart : Fin 128
  columnEnd : Fin 128
  pageStart : Fin 8
  pageEnd : Fin 8
  deriving DecidableEq

structure Addressing where
  mode : Mode
  window : Window
  page : Fin 8
  column : Fin 128
  deriving DecidableEq

namespace Addressing

def cell (addressing : Addressing) : Cell := (addressing.page, addressing.column)

def nextColumn (addressing : Addressing) : Fin 128 :=
  if addressing.column = addressing.window.columnEnd then addressing.window.columnStart
  else addressing.column + 1

def nextPage (addressing : Addressing) : Fin 8 :=
  if addressing.page = addressing.window.pageEnd then addressing.window.pageStart
  else addressing.page + 1

def next (addressing : Addressing) : Addressing :=
  match addressing.mode with
  | .page => { addressing with column := addressing.column + 1 }
  | .horizontal =>
      { addressing with
        column := addressing.nextColumn
        page := if addressing.column = addressing.window.columnEnd then addressing.nextPage
          else addressing.page }
  | .vertical =>
      { addressing with
        page := addressing.nextPage
        column := if addressing.page = addressing.window.pageEnd then addressing.nextColumn
          else addressing.column }

/-- A command with its arguments.  The commands of one byte that set the pointer
are for the page mode, the windows for the other modes. -/
def execute (addressing : Addressing) : List UInt8 → Addressing
  | [code] =>
      if addressing.mode ≠ .page then addressing
      else if code < 0x10 then
        { addressing with column := columnOf (addressing.column.val / 16 * 16 + code.toNat % 16) }
      else if code < 0x20 then
        { addressing with column := columnOf (code.toNat % 16 * 16 + addressing.column.val % 16) }
      else if 0xB0 ≤ code ∧ code ≤ 0xB7 then
        { addressing with page := pageOf code.toNat }
      else addressing
  | [code, argument] =>
      if code = 0x20 then { addressing with mode := Mode.ofByte argument } else addressing
  | [code, first, last] =>
      if addressing.mode = .page then addressing
      else if code = 0x21 then
        { addressing with
          window.columnStart := columnOf first.toNat
          window.columnEnd := columnOf last.toNat
          column := columnOf first.toNat }
      else if code = 0x22 then
        { addressing with
          window.pageStart := pageOf first.toNat
          window.pageEnd := pageOf last.toNat
          page := pageOf first.toNat }
      else addressing
  | _ => addressing

end Addressing

/-! ## The memory -/

/-- `pending` holds a command that still waits for arguments. -/
structure Chip where
  ram : Cell → UInt8
  addressing : Addressing
  pending : List UInt8

def argumentCount (code : UInt8) : Nat :=
  if code ∈ [0x20, 0x81, 0x8D, 0xA8, 0xD3, 0xD5, 0xD8, 0xD9, 0xDA, 0xDB] then 1
  else if code ∈ [0x21, 0x22, 0xA3] then 2
  else if code ∈ [0x29, 0x2A] then 5
  else if code ∈ [0x26, 0x27] then 6
  else 0

namespace Chip

def command (chip : Chip) (byte : UInt8) : Chip :=
  let instruction := chip.pending ++ [byte]
  if instruction.length ≤ argumentCount (instruction.headD 0) then
    { chip with pending := instruction }
  else { chip with addressing := chip.addressing.execute instruction, pending := [] }

def store (chip : Chip) (byte : UInt8) : Chip :=
  { chip with
    ram := Function.update chip.ram chip.addressing.cell byte
    addressing := chip.addressing.next }

def process (chip : Chip) : Item → Chip
  | .command byte => chip.command byte
  | .data byte => chip.store byte

def receive (chip : Chip) (transfer : List UInt8) : Chip :=
  (decode transfer).foldl process chip

def receiveAll (chip : Chip) (transfers : List (List UInt8)) : Chip :=
  transfers.foldl receive chip

def stores (chip : Chip) (bytes : List UInt8) : Chip := bytes.foldl store chip

end Chip

/-! ## Commands -/

section Commands

variable {chip : Chip} {code : UInt8}

/-- A command waits for its arguments and takes effect with the last one. -/
theorem commands_of_pending {got : List UInt8} (argument : UInt8) (rest : List UInt8)
    (waiting : chip.pending = code :: got)
    (count : got.length + (argument :: rest).length = argumentCount code) :
    (argument :: rest).foldl Chip.command chip =
      { chip with
        addressing := chip.addressing.execute (code :: got ++ argument :: rest)
        pending := [] } := by
  induction rest generalizing chip got argument with
  | nil =>
      have last : ¬(code :: got ++ [argument]).length ≤ argumentCount code := by
        rw [← count]
        simp
      simp only [List.foldl_cons, List.foldl_nil, Chip.command, waiting]
      exact if_neg last
  | cons following rest inductionHypothesis =>
      have more : (code :: got ++ [argument]).length ≤ argumentCount code := by
        rw [← count]
        simp only [List.cons_append, List.length_cons, List.length_append, List.length_nil]
        omega
      have waits : chip.command argument = { chip with pending := code :: (got ++ [argument]) } := by
        simp only [Chip.command, waiting]
        exact if_pos more
      rw [List.foldl_cons, waits, inductionHypothesis following rfl (by rw [← count]; simp; omega)]
      simp

theorem commands_instruction (idle : chip.pending = []) (arguments : List UInt8)
    (count : arguments.length = argumentCount code) :
    (code :: arguments).foldl Chip.command chip =
      { chip with addressing := chip.addressing.execute (code :: arguments), pending := [] } := by
  cases arguments with
  | nil =>
      simp only [List.foldl_cons, List.foldl_nil, Chip.command, idle]
      exact if_neg (by rw [List.nil_append, List.headD_cons, ← count]; simp)
  | cons argument rest =>
      have waits : chip.command code = { chip with pending := [code] } := by
        simp only [Chip.command, idle]
        exact if_pos (by rw [List.nil_append, List.headD_cons, ← count]; simp)
      rw [List.foldl_cons, waits]
      exact @commands_of_pending { chip with pending := [code] } code [] argument rest rfl
        (by rw [← count]; simp)

def Complete (program : List (UInt8 × List UInt8)) : Prop :=
  ∀ instruction ∈ program, instruction.2.length = argumentCount instruction.1

instance (program : List (UInt8 × List UInt8)) : Decidable (Complete program) :=
  inferInstanceAs (Decidable (∀ instruction ∈ program, _))

def Addressing.executeAll (addressing : Addressing) (program : List (UInt8 × List UInt8)) :
    Addressing :=
  program.foldl (fun addressing instruction =>
    addressing.execute (instruction.1 :: instruction.2)) addressing

@[simp]
theorem executeAll_cons (addressing : Addressing) (instruction : UInt8 × List UInt8)
    (program : List (UInt8 × List UInt8)) :
    addressing.executeAll (instruction :: program) =
      (addressing.execute (instruction.1 :: instruction.2)).executeAll program := rfl

theorem commands_program {program : List (UInt8 × List UInt8)} (complete : Complete program)
    (idle : chip.pending = []) :
    (program.flatMap fun instruction => instruction.1 :: instruction.2).foldl Chip.command chip =
      { chip with addressing := chip.addressing.executeAll program, pending := [] } := by
  induction program generalizing chip with
  | nil =>
      change chip = _
      rw [← idle]
      rfl
  | cons instruction program inductionHypothesis =>
      rw [List.flatMap_cons, List.foldl_append,
        commands_instruction idle _ (complete instruction List.mem_cons_self)]
      exact inductionHypothesis
        (fun later membership => complete later (List.mem_cons_of_mem _ membership)) rfl

theorem mode_execute {code : UInt8} (other : code ≠ 0x20) (addressing : Addressing)
    (arguments : List UInt8) : (addressing.execute (code :: arguments)).mode = addressing.mode := by
  match arguments with
  | [] =>
      simp only [Addressing.execute]
      repeat' split
      all_goals rfl
  | [argument] => simp [Addressing.execute, other]
  | [first, last] =>
      simp only [Addressing.execute]
      repeat' split
      all_goals rfl
  | _ :: _ :: _ :: _ => rfl

theorem mode_program {program : List (UInt8 × List UInt8)}
    (others : ∀ instruction ∈ program, instruction.1 ≠ 0x20) (addressing : Addressing) :
    (addressing.executeAll program).mode = addressing.mode := by
  induction program generalizing addressing with
  | nil => rfl
  | cons instruction program inductionHypothesis =>
      rw [executeAll_cons, inductionHypothesis
        (fun later membership => others later (List.mem_cons_of_mem _ membership)),
        mode_execute (others instruction List.mem_cons_self)]

theorem receive_of_decode {transfer commands data : List UInt8}
    (split : decode transfer = commands.map Item.command ++ data.map Item.data) :
    chip.receive transfer = (commands.foldl Chip.command chip).stores data := by
  rw [Chip.receive, split, List.foldl_append, List.foldl_map, List.foldl_map]
  rfl

theorem receive_one {control : UInt8} (last : bit control 7 = false) (byte : UInt8) :
    chip.receive [control, byte] = chip.process (item control byte) := by
  rw [Chip.receive, decode_rest last]
  rfl

theorem receiveAll_commands {control : UInt8} (last : bit control 7 = false)
    (commands : bit control 6 = false) (bytes : List UInt8) :
    chip.receiveAll (bytes.map fun byte => [control, byte]) = bytes.foldl Chip.command chip := by
  rw [Chip.receiveAll, List.foldl_map]
  congr 1
  funext chip byte
  rw [receive_one last, item, commands]
  rfl

theorem receiveAll_data {control : UInt8} (last : bit control 7 = false)
    (data : bit control 6 = true) (bytes : List UInt8) :
    chip.receiveAll (bytes.map fun byte => [control, byte]) = chip.stores bytes := by
  rw [Chip.receiveAll, List.foldl_map, Chip.stores]
  congr 1
  funext chip byte
  rw [receive_one last, item, data]
  rfl

theorem receiveAll_append (chip : Chip) (first second : List (List UInt8)) :
    chip.receiveAll (first ++ second) = (chip.receiveAll first).receiveAll second :=
  List.foldl_append

end Commands

/-! ## The pointer of the page mode -/

section Position

/-- The commands for the page and for the two halves of the column. -/
def SetsPointer (code : UInt8) : Prop := code < 0x20 ∨ 0xB0 ≤ code ∧ code ≤ 0xB7

instance (code : UInt8) : Decidable (SetsPointer code) := inferInstanceAs (Decidable (_ ∨ _))

variable {addressing : Addressing} {code : UInt8}

theorem argumentCount_of_setsPointer (pointer : SetsPointer code) : argumentCount code = 0 := by
  have counted : ∀ n < 256, SetsPointer (UInt8.ofNat n) → argumentCount (UInt8.ofNat n) = 0 := by
    decide +kernel
  have known := counted code.toNat code.toNat_lt
  rw [UInt8.ofNat_toNat] at known
  exact known pointer

theorem execute_low (mode : addressing.mode = .page) (low : code < 0x10) :
    addressing.execute [code] = { addressing with
      column := columnOf (addressing.column.val / 16 * 16 + code.toNat % 16) } := by
  simp [Addressing.execute, mode, low]

theorem execute_high (mode : addressing.mode = .page) (above : 0x10 ≤ code) (high : code < 0x20) :
    addressing.execute [code] = { addressing with
      column := columnOf (code.toNat % 16 * 16 + addressing.column.val % 16) } := by
  have notLow : ¬code < 0x10 := UInt8.not_lt.mpr above
  simp [Addressing.execute, mode, notLow, high]

theorem execute_page (mode : addressing.mode = .page) (above : 0xB0 ≤ code) (below : code ≤ 0xB7) :
    addressing.execute [code] = { addressing with page := pageOf code.toNat } := by
  have notLow : ¬code < 0x10 := UInt8.not_lt.mpr (UInt8.le_trans (by decide) above)
  have notHigh : ¬code < 0x20 := UInt8.not_lt.mpr (UInt8.le_trans (by decide) above)
  simp [Addressing.execute, mode, notLow, notHigh, above, below]

def Addressing.moveTo (addressing : Addressing) (page : Fin 8) (column : Fin 128) : Addressing :=
  { addressing with page := page, column := column }

def Chip.moveTo (chip : Chip) (page : Fin 8) (column : Fin 128) : Chip :=
  { chip with addressing := chip.addressing.moveTo page column }

theorem execute_position {page low high : UInt8} (mode : addressing.mode = .page)
    (pageAbove : 0xB0 ≤ page) (pageBelow : page ≤ 0xB7) (lowBelow : low < 0x10)
    (highAbove : 0x10 ≤ high) (highBelow : high < 0x20) :
    ((addressing.execute [page]).execute [low]).execute [high] =
      addressing.moveTo (pageOf page.toNat)
        (columnOf (high.toNat % 16 * 16 + low.toNat % 16)) := by
  have pageMode : ({ addressing with page := pageOf page.toNat } : Addressing).mode = .page :=
    mode
  have lowMode : ({ addressing with
      page := pageOf page.toNat
      column := columnOf (addressing.column.val / 16 * 16 + low.toNat % 16) } :
        Addressing).mode = .page := mode
  have lowHalf : (addressing.column.val / 16 * 16 + low.toNat % 16) % 128 % 16 = low.toNat % 16 := by
    omega
  rw [execute_page mode pageAbove pageBelow, execute_low pageMode lowBelow,
    execute_high lowMode highAbove highBelow]
  simp only [Fin.val_ofNat, lowHalf]
  rfl

end Position

/-! ## Data -/

section Stores

variable {chip : Chip} {bytes : List UInt8}

@[simp]
theorem pending_stores (chip : Chip) (bytes : List UInt8) :
    (chip.stores bytes).pending = chip.pending := by
  induction bytes generalizing chip with
  | nil => rfl
  | cons byte bytes inductionHypothesis => exact inductionHypothesis (chip.store byte)

@[simp]
theorem Addressing.mode_next (addressing : Addressing) : addressing.next.mode = addressing.mode := by
  cases shown : addressing.mode with
  | horizontal => simp only [next, shown]
  | vertical => simp only [next, shown]
  | page => simp only [next, shown]

@[simp]
theorem mode_stores (chip : Chip) (bytes : List UInt8) :
    (chip.stores bytes).addressing.mode = chip.addressing.mode := by
  induction bytes generalizing chip with
  | nil => rfl
  | cons byte bytes inductionHypothesis =>
      exact (inductionHypothesis (chip.store byte)).trans (Addressing.mode_next chip.addressing)

theorem ram_stores (chip : Chip) (bytes : List UInt8) :
    (chip.stores bytes).ram = plot chip.ram ((List.range bytes.length).map fun k =>
      ((Addressing.next^[k] chip.addressing).cell, bytes.getD k 0)) := by
  induction bytes generalizing chip with
  | nil => rfl
  | cons byte bytes inductionHypothesis =>
      rw [List.length_cons, List.range_succ_eq_map, List.map_cons, List.map_map, plot_cons]
      exact inductionHypothesis (chip.store byte)

theorem ram_stores_of_places {place : Nat → Cell}
    (places : ∀ k < bytes.length, (Addressing.next^[k] chip.addressing).cell = place k)
    (distinct : ∀ j < bytes.length, ∀ k < bytes.length, place j = place k → j = k) :
    (∀ k < bytes.length, (chip.stores bytes).ram (place k) = bytes.getD k 0) ∧
      ∀ cell, (∀ k < bytes.length, place k ≠ cell) → (chip.stores bytes).ram cell = chip.ram cell := by
  have strokes : (List.range bytes.length).map (fun k =>
      ((Addressing.next^[k] chip.addressing).cell, bytes.getD k 0)) =
        (List.range bytes.length).map fun k => (place k, bytes.getD k 0) := by
    apply List.map_congr_left
    intro k listed
    rw [places k (List.mem_range.mp listed)]
  rw [ram_stores, strokes]
  constructor
  · intro k inside
    exact plot_place distinct inside
  · intro cell elsewhere
    exact plot_elsewhere elsewhere

end Stores

/-! ## A part of a row -/

section Row

variable {addressing : Addressing}

theorem iterate_next_page (mode : addressing.mode = .page) (k : Nat) :
    (Addressing.next^[k] addressing).mode = .page ∧
      (Addressing.next^[k] addressing).page = addressing.page ∧
      (Addressing.next^[k] addressing).column.val = (addressing.column.val + k) % 128 := by
  induction k with
  | zero => exact ⟨mode, rfl, (Nat.mod_eq_of_lt addressing.column.isLt).symm⟩
  | succ k inductionHypothesis =>
      obtain ⟨sameMode, samePage, moved⟩ := inductionHypothesis
      rw [Function.iterate_succ_apply']
      simp only [Addressing.next, sameMode, samePage, true_and]
      rw [Fin.val_add, moved]
      change ((addressing.column.val + k) % 128 + 1) % 128 = _
      rw [Nat.mod_add_mod, Nat.add_assoc]

theorem ram_stores_page {chip : Chip} {bytes : List UInt8} (mode : chip.addressing.mode = .page)
    (room : chip.addressing.column.val + bytes.length ≤ 128) (cell : Cell) :
    (chip.stores bytes).ram cell =
      if cell.1 = chip.addressing.page ∧ chip.addressing.column.val ≤ cell.2.val ∧
          cell.2.val < chip.addressing.column.val + bytes.length then
        bytes.getD (cell.2.val - chip.addressing.column.val) 0
      else chip.ram cell := by
  have places : ∀ k < bytes.length, (Addressing.next^[k] chip.addressing).cell =
      (chip.addressing.page, columnOf (chip.addressing.column.val + k)) := by
    intro k inside
    obtain ⟨-, samePage, moved⟩ := iterate_next_page mode k
    exact Prod.ext samePage (Fin.ext moved)
  have column : ∀ k < bytes.length, (columnOf (chip.addressing.column.val + k)).val =
      chip.addressing.column.val + k :=
    fun k inside => Nat.mod_eq_of_lt (by omega)
  obtain ⟨written, kept⟩ := ram_stores_of_places places (by
    intro j left k right same
    have sameColumn := congrArg (fun place : Cell => place.2.val) same
    simp only [column j left, column k right] at sameColumn
    omega)
  split
  · rename_i inside
    have here := written (cell.2.val - chip.addressing.column.val) (by omega)
    have place : (chip.addressing.page, Fin.ofNat 128
        (chip.addressing.column.val + (cell.2.val - chip.addressing.column.val))) = cell := by
      refine Prod.ext inside.1.symm (Fin.ext ?_)
      rw [column _ (by omega)]
      omega
    rwa [place] at here
  · rename_i outside
    apply kept
    rintro k inside rfl
    apply outside
    rw [column k inside]
    exact ⟨rfl, by omega, by omega⟩

end Row

/-! ## A window -/

section Window

namespace Window

def width (window : Window) : Nat := window.columnEnd.val + 1 - window.columnStart.val

def height (window : Window) : Nat := window.pageEnd.val + 1 - window.pageStart.val

def place (window : Window) (k : Nat) : Cell :=
  (pageOf (window.pageStart.val + k / window.width),
    columnOf (window.columnStart.val + k % window.width))

end Window

variable {window : Window} {addressing : Addressing} {k : Nat}

structure Addressing.At (addressing : Addressing) (window : Window) (k : Nat) : Prop where
  mode : addressing.mode = .horizontal
  framed : addressing.window = window
  page : addressing.page.val = window.pageStart.val + k / window.width
  column : addressing.column.val = window.columnStart.val + k % window.width

namespace Addressing

theorem At.cell (here : At addressing window k) : addressing.cell = window.place k := by
  apply Prod.ext
  · apply Fin.ext
    change addressing.page.val = (window.pageStart.val + k / window.width) % 8
    rw [← here.page, Nat.mod_eq_of_lt addressing.page.isLt]
  · apply Fin.ext
    change addressing.column.val = (window.columnStart.val + k % window.width) % 128
    rw [← here.column, Nat.mod_eq_of_lt addressing.column.isLt]

theorem next_of_horizontal (mode : addressing.mode = .horizontal) :
    addressing.next = { addressing with
      column := addressing.nextColumn
      page := if addressing.column = addressing.window.columnEnd then addressing.nextPage
        else addressing.page } := by
  unfold next
  rw [mode]

/-- The last column is followed by the first one of the next page. -/
theorem At.next (here : At addressing window k)
    (inside : k + 1 < window.width * window.height) : At addressing.next window (k + 1) := by
  obtain ⟨mode, rfl, page, column⟩ := here
  have positive : 0 < addressing.window.width :=
    Nat.pos_of_mul_pos_right (Nat.zero_lt_of_lt inside)
  have below := Nat.mod_lt k positive
  have width : addressing.window.width =
    addressing.window.columnEnd.val + 1 - addressing.window.columnStart.val := rfl
  have split := Nat.div_add_mod k addressing.window.width
  by_cases last : addressing.column = addressing.window.columnEnd
  · have full : k % addressing.window.width + 1 = addressing.window.width := by omega
    have next : k + 1 = addressing.window.width * (k / addressing.window.width + 1) := by
      rw [Nat.mul_succ]
      omega
    obtain ⟨row, start⟩ :=
      (Nat.div_mod_unique positive).mpr ⟨(Nat.zero_add _).trans next.symm, positive⟩
    have above : k / addressing.window.width + 1 < addressing.window.height := by
      rw [next] at inside
      exact Nat.lt_of_mul_lt_mul_left inside
    have height : addressing.window.height =
      addressing.window.pageEnd.val + 1 - addressing.window.pageStart.val := rfl
    have more : addressing.page ≠ addressing.window.pageEnd := by
      intro same
      rw [height, ← same, page, Nat.add_assoc, Nat.add_sub_cancel_left] at above
      exact Nat.lt_irrefl _ above
    rw [next_of_horizontal mode, if_pos last, nextPage, if_neg more, nextColumn, if_pos last]
    refine ⟨mode, rfl, ?_, ?_⟩
    · change (addressing.page + 1).val = _
      rw [Fin.val_add_one_of_lt' (i := addressing.page) (by omega), row, page, Nat.add_assoc]
    · rw [start]
      rfl
  · have room : k % addressing.window.width + 1 < addressing.window.width := by omega
    obtain ⟨row, right⟩ := (Nat.div_mod_unique positive).mpr
      ⟨show k % addressing.window.width + 1 +
        addressing.window.width * (k / addressing.window.width) = k + 1 by omega, room⟩
    rw [next_of_horizontal mode, if_neg last, nextColumn, if_neg last]
    refine ⟨mode, rfl, ?_, ?_⟩
    · rw [row]
      exact page
    · change (addressing.column + 1).val = _
      rw [Fin.val_add_one_of_lt' (i := addressing.column) (by omega), right, column, Nat.add_assoc]

theorem At.iterate (here : addressing.At window 0) (inside : k < window.width * window.height) :
    (Addressing.next^[k] addressing).At window k := by
  induction k with
  | zero => exact here
  | succ k inductionHypothesis =>
      rw [Function.iterate_succ_apply']
      exact (inductionHypothesis (Nat.lt_of_succ_lt inside)).next inside

end Addressing

namespace Window

theorem val_place (inside : k < window.width * window.height) :
    (window.place k).1.val = window.pageStart.val + k / window.width ∧
      (window.place k).2.val = window.columnStart.val + k % window.width := by
  have positive : 0 < window.width := Nat.pos_of_mul_pos_right (Nat.zero_lt_of_lt inside)
  have row : k / window.width < window.height := Nat.div_lt_of_lt_mul inside
  have column : k % window.width < window.width := Nat.mod_lt k positive
  have width : window.width = window.columnEnd.val + 1 - window.columnStart.val := rfl
  have height : window.height = window.pageEnd.val + 1 - window.pageStart.val := rfl
  have right := window.columnEnd.isLt
  have bottom := window.pageEnd.isLt
  constructor
  · change (window.pageStart.val + k / window.width) % 8 = _
    exact Nat.mod_eq_of_lt (by omega)
  · change (window.columnStart.val + k % window.width) % 128 = _
    exact Nat.mod_eq_of_lt (by omega)

theorem place_inj {j : Nat} (left : j < window.width * window.height)
    (right : k < window.width * window.height) (same : window.place j = window.place k) : j = k := by
  obtain ⟨leftRow, leftColumn⟩ := val_place left
  obtain ⟨rightRow, rightColumn⟩ := val_place right
  rw [same] at leftRow leftColumn
  have row : j / window.width = k / window.width := by omega
  have column : j % window.width = k % window.width := by omega
  rw [← Nat.div_add_mod j window.width, row, column, Nat.div_add_mod]

end Window

theorem ram_stores_window {chip : Chip} {bytes : List UInt8} (here : chip.addressing.At window 0)
    (fits : bytes.length ≤ window.width * window.height) :
    (∀ k < bytes.length, (chip.stores bytes).ram (window.place k) = bytes.getD k 0) ∧
      ∀ cell, (∀ k < bytes.length, window.place k ≠ cell) →
        (chip.stores bytes).ram cell = chip.ram cell := by
  apply ram_stores_of_places
  · intro k inside
    exact (here.iterate (inside.trans_le fits)).cell
  · intro j left k right
    exact Window.place_inj (left.trans_le fits) (right.trans_le fits)

end Window

end WifiIot.Ssd1306
