import WifiIot.Chip.Ssd1306
import WifiIot.Display.Text
import WifiIot.Memory.Token

/-!
# The frame transfer of the game display

`ssd1306_UpdateScreen` packs the commands for the window and the whole
framebuffer into one transfer: a control byte in front of each command, one in
front of all the data.  In the horizontal mode that `ssd1306_Init` selects, the
controller then holds the framebuffer, page by page.

Source: `astronauts_game/game/src/oled.c`.
-/

namespace WifiIot.Game.Oled

open Display Memory Ssd1306

inductive Buffer where
  | data
  | SSD1306_Buffer
  deriving DecidableEq

def SSD1306_BUFFER_SIZE : Nat := 1024
def SSD1306_CTRL_CMD : UInt8 := 0x00
def SSD1306_CTRL_DATA : UInt8 := 0x40
def SSD1306_MASK_CONT : UInt8 := (0x1 : UInt8) <<< 7
def CMD_SAVE_PARM : Nat := 2

def cmd : List UInt8 := [0x21, 0x00, 0x7F, 0x22, 0x00, 0x07]

def DATA_SIZE : Nat := cmd.length * CMD_SAVE_PARM + SSD1306_BUFFER_SIZE + 1

/-- The array `data` and the number of bytes in it. -/
structure Packet where
  data : Block DATA_SIZE
  count : Nat

/-- `data[count++] = byte` -/
def Packet.push (packet : Packet) (byte : UInt8) : Checked Buffer Packet := do
  let data ← packet.data.write .data packet.count byte
  .ok ⟨data, packet.count + 1⟩

def Packet.pushCommand (packet : Packet) (byte : UInt8) : Checked Buffer Packet := do
  let packet ← packet.push (SSD1306_CTRL_CMD ||| SSD1306_MASK_CONT)
  packet.push byte

def ssd1306_UpdateScreen (screen : Screen) : Checked Buffer (List UInt8) := do
  let packet ← cmd.foldlM Packet.pushCommand ⟨fun _ => 0, 0⟩
  let packet ← packet.push SSD1306_CTRL_DATA
  -- `memcpy_s` gets the same size for the room and for the bytes
  let data ← copy .data (screen.buffer.read .SSD1306_Buffer) packet.data packet.count
    SSD1306_BUFFER_SIZE
  readBytes (data.read .data) (packet.count + SSD1306_BUFFER_SIZE)

def ssd1306_WriteCommand (byte : UInt8) : List UInt8 := [SSD1306_CTRL_CMD, byte]

def ssd1306_SetDisplayOn (on : Bool) : List (List UInt8) :=
  [ssd1306_WriteCommand (if on then 0xAF else 0xAE)]

def ssd1306_SetContrast (value : UInt8) : List (List UInt8) :=
  [ssd1306_WriteCommand 0x81, ssd1306_WriteCommand value]

/-- The transfers of the start, and the canvas after it. -/
def ssd1306_Init (canvas : Canvas) : Checked Buffer (List (List UInt8) × Canvas) := do
  let canvas' := ssd1306_Fill canvas .Black
  let frame ← ssd1306_UpdateScreen canvas'.toScreen
  .ok (ssd1306_SetDisplayOn false ++
      [0x20, 0x00, 0xB0, 0xC8, 0x00, 0x10, 0x40].map ssd1306_WriteCommand ++
      ssd1306_SetContrast 0xFF ++
      [0xA1, 0xA6, 0xA8, 0x3F, 0xA4, 0xD3, 0x00, 0xD5, 0xF0, 0xD9, 0x11, 0xDA, 0x12, 0xDB, 0x30,
        0x8D, 0x14].map ssd1306_WriteCommand ++
      ssd1306_SetDisplayOn true ++ [frame],
    ssd1306_SetCursor canvas' 0 0)

/-! ## The bytes of a frame -/

section Frame

def frame (screen : Screen) : List UInt8 :=
  (List.range SSD1306_BUFFER_SIZE).map screen.buffer.byteAt

structure Packet.Holds (packet : Packet) (bytes : List UInt8) : Prop where
  count : packet.count = bytes.length
  reads : Reads packet.data 0 bytes

variable {packet : Packet} {bytes : List UInt8}

theorem Packet.Holds.push (holds : packet.Holds bytes) (byte : UInt8)
    (room : bytes.length < DATA_SIZE) :
    ∃ next, packet.push byte = .ok next ∧ next.Holds (bytes ++ [byte]) := by
  obtain ⟨data, written, reads⟩ := holds.reads.write Buffer.data byte room
  refine ⟨⟨data, packet.count + 1⟩, ?_, ?_, reads⟩
  · rw [Packet.push, holds.count, written]
    rfl
  · rw [holds.count, List.length_append]
    rfl

theorem Packet.Holds.commands (holds : packet.Holds bytes) (commands : List UInt8)
    (room : bytes.length + 2 * commands.length ≤ DATA_SIZE) :
    ∃ next, commands.foldlM Packet.pushCommand packet = .ok next ∧
      next.Holds (bytes ++ commands.flatMap fun byte =>
        [SSD1306_CTRL_CMD ||| SSD1306_MASK_CONT, byte]) := by
  induction commands generalizing packet bytes with
  | nil => exact ⟨packet, rfl, by rwa [List.flatMap_nil, List.append_nil]⟩
  | cons command commands inductionHypothesis =>
      rw [List.length_cons] at room
      obtain ⟨marked, pushed, marks⟩ :=
        holds.push (SSD1306_CTRL_CMD ||| SSD1306_MASK_CONT) (by omega)
      obtain ⟨more, pushedMore, holdsMore⟩ := marks.push command (by
        rw [List.length_append, List.length_singleton]
        omega)
      obtain ⟨next, folded, holdsAll⟩ := inductionHypothesis holdsMore (by
        simp only [List.length_append, List.length_singleton]
        omega)
      refine ⟨next, ?_, ?_⟩
      · rw [List.foldlM_cons, Packet.pushCommand, pushed, ok_bind, pushedMore, ok_bind, folded]
      · simpa using holdsAll

theorem ssd1306_UpdateScreen_eq (screen : Screen) : ssd1306_UpdateScreen screen =
    .ok (cmd.flatMap (fun byte => [SSD1306_CTRL_CMD ||| SSD1306_MASK_CONT, byte]) ++
      SSD1306_CTRL_DATA :: frame screen) := by
  have empty : Packet.Holds ⟨fun _ => 0, 0⟩ [] := ⟨rfl, trivial⟩
  obtain ⟨commands, folded, holdsCommands⟩ := empty.commands cmd (by decide)
  obtain ⟨packet, pushed, holds⟩ := holdsCommands.push SSD1306_CTRL_DATA (by decide)
  have count : packet.count = 13 := holds.count
  have front : (List.range 13).map packet.data.byteAt = _ :=
    (congrArg (List.map packet.data.byteAt) (List.range_eq_range')).trans holds.reads.map_byteAt
  have copied : copy Buffer.data (screen.buffer.read Buffer.SSD1306_Buffer) packet.data 13
      SSD1306_BUFFER_SIZE =
        .ok (packet.data.patch 13 SSD1306_BUFFER_SIZE screen.buffer.byteAt) :=
    copy_eq_ok (fun k inside => Block.read_of_lt inside) (.inr (by decide))
  rw [ssd1306_UpdateScreen, folded, ok_bind, pushed, ok_bind, count, copied, ok_bind,
    readBytes_patch (by decide), front]
  rfl

end Frame

/-! ## The controller behind a frame -/

section Shown

variable {chip : Chip} {screen : Screen}

theorem decode_transfer (screen : Screen) :
    decode (cmd.flatMap (fun byte => [SSD1306_CTRL_CMD ||| SSD1306_MASK_CONT, byte]) ++
      SSD1306_CTRL_DATA :: frame screen) = cmd.map Item.command ++ (frame screen).map Item.data := by
  rw [decode_each (by decide), decode_rest (by decide)]
  rfl

def whole : Window where
  columnStart := columnOf 0
  columnEnd := columnOf 127
  pageStart := pageOf 0
  pageEnd := pageOf 7

theorem commands_cmd (mode : chip.addressing.mode = .horizontal) (idle : chip.pending = []) :
    cmd.foldl Chip.command chip =
      { chip with addressing := ⟨.horizontal, whole, 0, 0⟩, pending := [] } := by
  have columns := commands_instruction idle [0x00, 0x7F]
    (show [(0x00 : UInt8), 0x7F].length = argumentCount 0x21 by decide)
  have split : cmd = [0x21, 0x00, 0x7F] ++ [0x22, 0x00, 0x07] := rfl
  rw [split, List.foldl_append, columns, commands_instruction rfl [0x00, 0x07] (by decide)]
  simp [Addressing.execute, mode, whole]

theorem whole_place (page : Fin 8) (column : Fin 128) :
    whole.place (page.val * Display.SSD1306_WIDTH + column.val) = (page, column) := by
  have width : whole.width = 128 := rfl
  have row : (page.val * 128 + column.val) / 128 = page.val := by omega
  have right : (page.val * 128 + column.val) % 128 = column.val := by omega
  obtain ⟨samePage, sameColumn⟩ := @Window.val_place whole (page.val * 128 + column.val) (by
    rw [width, show whole.height = 8 from rfl]
    omega)
  rw [width, row] at samePage
  rw [width, right] at sameColumn
  refine Prod.ext (Fin.ext ?_) (Fin.ext ?_)
  · exact samePage.trans (Nat.zero_add _)
  · exact sameColumn.trans (Nat.zero_add _)

/-- The controller holds the framebuffer and is ready for the next frame. -/
structure Shows (chip : Chip) (screen : Screen) : Prop where
  mode : chip.addressing.mode = .horizontal
  idle : chip.pending = []
  ram : ∀ page column, chip.ram (page, column) =
    screen.buffer.byteAt (page.val * Display.SSD1306_WIDTH + column.val)

theorem receive_frame (mode : chip.addressing.mode = .horizontal) (idle : chip.pending = [])
    {transfer : List UInt8}
    (split : decode transfer = cmd.map Item.command ++ (frame screen).map Item.data) :
    Shows (chip.receive transfer) screen := by
  rw [receive_of_decode split, commands_cmd mode idle]
  have start : Addressing.At ⟨.horizontal, whole, 0, 0⟩ whole 0 := ⟨rfl, rfl, rfl, rfl⟩
  have length : (frame screen).length = 1024 := by
    rw [frame, List.length_map, List.length_range]
    rfl
  refine ⟨mode_stores .., pending_stores .., ?_⟩
  intro page column
  have inside : page.val * Display.SSD1306_WIDTH + column.val < 1024 := by
    simp only [Display.SSD1306_WIDTH]
    omega
  obtain ⟨written, -⟩ := @ram_stores_window whole
    { chip with addressing := ⟨.horizontal, whole, 0, 0⟩, pending := [] } (frame screen) start
    length.le
  have here := written (page.val * Display.SSD1306_WIDTH + column.val) (length.symm ▸ inside)
  rw [whole_place, ← List.getElem_eq_getD (h := length.symm ▸ inside)] at here
  rw [here]
  simp [frame]

def lit (ram : Cell → UInt8) (point : Point) : Bool :=
  bit (ram (pageOf (point.2.val / 8), point.1)) (point.2.val % 8)

theorem Shows.lit (shows_ : Shows chip screen) : lit chip.ram = screen.pixel := by
  funext point
  have page : (pageOf (point.2.val / 8)).val = point.2.val / 8 :=
    Nat.mod_eq_of_lt (Nat.div_lt_of_lt_mul point.2.isLt)
  rw [Oled.lit, shows_.ram, page, Screen.pixel, ← Block.byteAt_eq screen.buffer (cell point)]
  simp only [cell, Nat.add_comm]

/-- A frame reaches the display, whatever the pointer and the window were. -/
theorem exists_frame (screen : Screen) (mode : chip.addressing.mode = .horizontal)
    (idle : chip.pending = []) :
    ∃ transfer, ssd1306_UpdateScreen screen = .ok transfer ∧
      decode transfer = cmd.map Item.command ++ (frame screen).map Item.data ∧
      Shows (chip.receive transfer) screen :=
  ⟨_, ssd1306_UpdateScreen_eq screen, decode_transfer screen,
    receive_frame mode idle (decode_transfer screen)⟩

def settings : List (UInt8 × List UInt8) :=
  [(0xB0, []), (0xC8, []), (0x00, []), (0x10, []), (0x40, []), (0x81, [0xFF]), (0xA1, []),
    (0xA6, []), (0xA8, [0x3F]), (0xA4, []), (0xD3, [0x00]), (0xD5, [0xF0]), (0xD9, [0x11]),
    (0xDA, [0x12]), (0xDB, [0x30]), (0x8D, [0x14]), (0xAF, [])]

def startProgram : List (UInt8 × List UInt8) := (0xAE, []) :: (0x20, [0x00]) :: settings

def startCommands : List UInt8 :=
  startProgram.flatMap fun instruction => instruction.1 :: instruction.2

theorem mode_startProgram (addressing : Addressing) :
    (addressing.executeAll startProgram).mode = .horizontal := by
  have others : ∀ instruction ∈ settings, instruction.1 ≠ 0x20 := by decide
  rw [startProgram, executeAll_cons, executeAll_cons, mode_program others]
  rfl

/-- The start selects the horizontal mode and clears the display. -/
theorem ssd1306_Init_shows (canvas : Canvas) (idle : chip.pending = []) :
    ∃ transfers drawn, ssd1306_Init canvas = .ok (transfers, drawn) ∧
      drawn.pixel = (fun _ => false) ∧ Shows (chip.receiveAll transfers) drawn.toScreen := by
  have complete : Complete startProgram := by decide
  have started : chip.receiveAll (startCommands.map ssd1306_WriteCommand) =
      { chip with addressing := chip.addressing.executeAll startProgram, pending := [] } :=
    (receiveAll_commands (by decide) (by decide) startCommands).trans
      (commands_program complete idle)
  have mode : (chip.receiveAll (startCommands.map ssd1306_WriteCommand)).addressing.mode =
      .horizontal := by
    rw [started]
    exact mode_startProgram chip.addressing
  obtain ⟨transfer, sent, -, shown⟩ := exists_frame (ssd1306_Fill canvas .Black).toScreen mode
    (by rw [started])
  refine ⟨startCommands.map ssd1306_WriteCommand ++ [transfer],
    ssd1306_SetCursor (ssd1306_Fill canvas .Black) 0 0, ?_, ?_, ?_⟩
  · rw [ssd1306_Init, sent]
    rfl
  · funext point
    simp [ssd1306_SetCursor, ssd1306_Fill, Screen.pixel, bit]
  · rw [Chip.receiveAll, List.foldl_append]
    exact shown

/-- A pixel that is drawn is the one that lights up: every frame shows the
framebuffer, from any place of the pointer. -/
theorem ssd1306_UpdateScreen_shows (screen : Screen) (mode : chip.addressing.mode = .horizontal)
    (idle : chip.pending = []) :
    (∃ transfer, ∃ data : List UInt8, ssd1306_UpdateScreen screen = .ok transfer ∧
      decode transfer =
        [0x21, 0x00, 0x7F, 0x22, 0x00, 0x07].map Item.command ++ data.map Item.data ∧
      data.length = 1024 ∧
      (∀ page column, (chip.receive transfer).ram (page, column) =
        screen.buffer.byteAt (page.val * 128 + column.val)) ∧
      lit (chip.receive transfer).ram = screen.pixel) ∧
    ∀ x y color point, onScreen x y = some point →
      ∃ transfer, ssd1306_UpdateScreen (ssd1306_DrawPixel screen x y color) = .ok transfer ∧
        lit (chip.receive transfer).ram =
          Function.update screen.pixel point (decide (screen.drawn color = .White)) := by
  constructor
  · obtain ⟨transfer, sent, split, shown⟩ := exists_frame screen mode idle
    refine ⟨transfer, frame screen, sent, split, ?_, shown.ram, shown.lit⟩
    rw [frame, List.length_map, List.length_range]
    rfl
  · intro x y color point inside
    obtain ⟨transfer, sent, -, shown⟩ :=
      exists_frame (ssd1306_DrawPixel screen x y color) mode idle
    exact ⟨transfer, sent, shown.lit.trans (pixel_DrawPixel_drawn inside color)⟩

/-- A frame behind an unfinished one, on a window in the middle. -/
theorem ssd1306_UpdateScreen_shows_again :
    (∃ transfer, ∃ data : List UInt8, ssd1306_UpdateScreen black = .ok transfer ∧
      decode transfer =
        [0x21, 0x00, 0x7F, 0x22, 0x00, 0x07].map Item.command ++ data.map Item.data ∧
      data.length = 1024 ∧
      (∀ page column, (Chip.receive ⟨fun _ => 0xFF, ⟨.horizontal, ⟨5, 60, 1, 3⟩, 2, 17⟩, []⟩
        transfer).ram (page, column) = black.buffer.byteAt (page.val * 128 + column.val)) ∧
      lit (Chip.receive ⟨fun _ => 0xFF, ⟨.horizontal, ⟨5, 60, 1, 3⟩, 2, 17⟩, []⟩ transfer).ram =
        black.pixel) ∧
    ∀ x y color point, onScreen x y = some point →
      ∃ transfer, ssd1306_UpdateScreen (ssd1306_DrawPixel black x y color) = .ok transfer ∧
        lit (Chip.receive ⟨fun _ => 0xFF, ⟨.horizontal, ⟨5, 60, 1, 3⟩, 2, 17⟩, []⟩ transfer).ram =
          Function.update black.pixel point (decide (black.drawn color = .White)) :=
  ssd1306_UpdateScreen_shows black (show Addressing.mode ⟨.horizontal, ⟨5, 60, 1, 3⟩, 2, 17⟩ =
    .horizontal from rfl) rfl

end Shown

end WifiIot.Game.Oled
