import WifiIot.Display.Text
import WifiIot.Machine.Loop
import WifiIot.Memory.Token

/-!
# The messages of the MQTT screen

The callback copies the payload, cuts it at the bars and prints a line for each
piece, with a line end behind it.  The cursor goes on below the screen, where
nothing is drawn any more.  The copy is bounded by the length of the payload, but the
payload is read as a string, to the next NUL in the receive buffer and beyond it.

Source: `mqtt_oled/mqtt_task.c`, `OnMessageArrived`.
-/

namespace WifiIot.Mqtt.Oled

open Display Memory

inductive Place where
  | readbuf
  | message
  | font
  deriving DecidableEq

def READBUF_SIZE : Nat := 512
def MESSAGE_SIZE : Nat := 512

def isBar (byte : UInt8) : Bool := byte == 0x7c

/-- The variables of the loop: what `strtok` returned and keeps, and the screen. -/
structure Layout where
  parsed : Parsed MESSAGE_SIZE
  canvas : Canvas

/-- Up to the first call of `strtok`, for the payload at a place of `readbuf`. -/
def start (canvas : Canvas) (readbuf : Block READBUF_SIZE) (payload payloadlen : Nat) :
    Checked Place Layout := do
  let canvas := ssd1306_SetCursor (ssd1306_Fill canvas .Black) 0 0
  let message ← snprintf .message .readbuf (fun _ => 0 : Block MESSAGE_SIZE) (payloadlen + 1)
    readbuf payload
  let parsed ← strtok .message isBar message (some 0)
  .ok ⟨parsed, canvas⟩

/-- `p != NULL` -/
def pending : Checked Place Layout → Bool
  | .ok layout => layout.parsed.token.isSome
  | .error _ => false

def showLine (layout : Layout) : Checked Place Layout :=
  match layout.parsed.token with
  | none => .ok layout
  | some p => do
      let line ← stringAt .message layout.parsed.text p
      let canvas ← ssd1306_PrintString .font Font_7x10 layout.canvas line .White
      let canvas ← ssd1306_PrintString .font Font_7x10 canvas [13, 10] .White
      let parsed ← strtok .message isBar layout.parsed.text layout.parsed.rest
      .ok ⟨parsed, canvas⟩

/-- At most the given number of lines; `none` if the loop has not ended then. -/
def OnMessageArrived (rounds : Nat) (canvas : Canvas) (readbuf : Block READBUF_SIZE)
    (payload payloadlen : Nat) : Option (Checked Place Layout) :=
  whileLoop pending (fun layout => layout >>= showLine) rounds
    (start canvas readbuf payload payloadlen)

/-! ## The picture of a message -/

def payloadBytes (readbuf : Block READBUF_SIZE) (payload payloadlen : Nat) : List UInt8 :=
  (List.range' payload payloadlen).map readbuf.byteAt

def line (segment : List UInt8) : List UInt8 :=
  (segment.take 18).takeWhile fun ch => decide (printable ch)

def segments (payload : List UInt8) : List (List UInt8) := tokens isBar (beforeNul payload).val

/-- The pixel in a line of text, from the left edge. -/
def linePixel (text : List UInt8) (x i : Nat) : Bool :=
  (text[x / 7]?).elim false fun ch => Font_7x10.ink ch i (x % 7)

def picture (payload : List UInt8) (point : Point) : Bool :=
  (((segments payload).take 6)[point.2.val / 10]?).elim false fun segment =>
    linePixel (line segment) point.1.val (point.2.val % 10)

/-! ## One line -/

section Line

variable {y : Nat} {segment text : List UInt8}

theorem fits_line (segment : List UInt8) (below : y + 10 ≤ SSD1306_HEIGHT) :
    Fits Font_7x10 0 y (line segment) where
  known := by
    intro ch membership
    exact of_decide_eq_true (List.mem_takeWhile_imp (p := fun ch => decide (printable ch)) membership)
  right := by
    intro k inside
    have short : (line segment).length ≤ 18 :=
      (List.takeWhile_prefix _).length_le.trans (List.length_take_le ..)
    change 0 + 7 * (k + 1) ≤ 128
    omega
  below := fun _ => below

theorem line_prefix_segment : line segment <+: segment :=
  (List.takeWhile_prefix _).trans (List.take_prefix ..)

/-- On the screen the line is what fits; below nothing does. -/
theorem longestFitting_line (longest : LongestFitting Font_7x10 0 y segment text) :
    text = if y + 10 ≤ SSD1306_HEIGHT then line segment else [] := by
  split
  · rename_i below
    have short : text.length ≤ 18 := by
      by_contra long
      have right := longest.fits.right 18 (not_le.mp long)
      revert right
      decide
    have inFront : text <+: segment.take 18 := List.prefix_take_iff.mpr ⟨longest.front, short⟩
    have inLine : text <+: line segment := by
      obtain ⟨rest, split⟩ := inFront
      have known : ∀ ch ∈ text, decide (printable ch) = true :=
        fun ch membership => decide_eq_true (longest.fits.known ch membership)
      rw [line, ← split, List.takeWhile_append_of_pos known]
      exact List.prefix_append ..
    exact inLine.eq_of_length_le
      (longest.longest _ line_prefix_segment (fits_line segment below))
  · rename_i outside
    by_contra nonempty
    exact outside (longest.fits.below nonempty)

/-- The pixels after a line is printed on a row of the screen that is still black. -/
theorem pixel_written_line {canvas : Canvas} (plain : canvas.Inverted = 0) {k : Nat}
    (column : canvas.CurrentX.toNat = 0) (row : canvas.CurrentY.toNat = 10 * k)
    (blank : ∀ point : Point, point.2.val / 10 = k → canvas.pixel point = false)
    (longest : LongestFitting Font_7x10 0 (10 * k) segment text) (point : Point) :
    (canvas.written Font_7x10 text .White).pixel point =
      if point.2.val / 10 = k ∧ k < 6 then
        linePixel (line segment) point.1.val (point.2.val % 10)
      else canvas.pixel point := by
  have shown := longestFitting_line longest
  have width : Font_7x10.FontWidth.toNat = 7 := rfl
  have height : Font_7x10.FontHeight.toNat = 10 := rfl
  simp only [Canvas.written, column, row]
  by_cases here : point.2.val / 10 = k ∧ k < 6
  · obtain ⟨inRow, visible⟩ := here
    rw [if_pos (show 10 * k + 10 ≤ SSD1306_HEIGHT by simp only [SSD1306_HEIGHT]; omega)] at shown
    rw [if_pos ⟨inRow, visible⟩, ← shown, linePixel]
    by_cases inside : point.1.val / 7 < text.length
    · rw [pixel_textDots_of_cell plain longest.fits inside
        (show point.2.val % 10 < Font_7x10.FontHeight.toNat from Nat.mod_lt _ (by decide))
        (show point.1.val % 7 < Font_7x10.FontWidth.toNat from Nat.mod_lt _ (by decide))
        (by rw [width]; omega) (by omega), List.getElem?_eq_getElem inside]
      simp
    · rw [pixel_textDots_beside plain longest.fits (by rw [width]; omega), blank point inRow,
        List.getElem?_eq_none (not_lt.mp inside)]
      rfl
  · rw [if_neg here]
    apply pixel_textDots_beside plain longest.fits
    rintro ⟨-, right, above, below⟩
    rw [height] at below
    by_cases visible : k < 6
    · exact here ⟨by omega, visible⟩
    · rw [if_neg (show ¬10 * k + 10 ≤ SSD1306_HEIGHT by simp only [SSD1306_HEIGHT]; omega)] at shown
      rw [shown] at right
      simp at right

end Line

/-! ## The loop -/

section Loop

/-- Before a line: the segments that are left, the number of the line, and a
screen that is black from there on. -/
structure Ready (layout : Layout) (words : List (List UInt8)) (k : Nat) : Prop where
  returned : Returned layout.parsed words.head?
  remains : Remains isBar layout.parsed.text layout.parsed.rest words.tail
  plain : layout.canvas.Inverted = 0
  column : layout.canvas.CurrentX = 0
  row : layout.canvas.CurrentY.toNat = 10 * k
  blank : ∀ point : Point, k ≤ point.2.val / 10 → layout.canvas.pixel point = false

variable {layout : Layout} {word : List UInt8} {words : List (List UInt8)} {k : Nat}

theorem showLine_ready (ready : Ready layout (word :: words) k)
    (unbroken : (10 : UInt8) ∉ word ∧ (13 : UInt8) ∉ word) (small : 10 * (k + 1) < 65536) :
    ∃ next, showLine layout = .ok next ∧ Ready next words (k + 1) ∧
      ∀ point : Point, next.canvas.pixel point =
        if point.2.val / 10 = k ∧ k < 6 then
          linePixel (line word) point.1.val (point.2.val % 10)
        else layout.canvas.pixel point := by
  obtain ⟨clean, token, current, reads⟩ := ready.returned
  obtain ⟨parsed, tokenized, returned, remains⟩ := ready.remains.strtok Place.message rfl
  have left : layout.canvas.CurrentX.toNat = 0 := by rw [ready.column]; rfl
  obtain ⟨text, longest, printed⟩ := @ssd1306_PrintString_eq _ Font_7x10 word .White Place.font
    layout.canvas Font_7x10_complete clean unbroken
  rw [left, ready.row] at longest
  have pixels := pixel_written_line ready.plain left ready.row
    (fun point inRow => ready.blank point inRow.ge) longest
  have height : Font_7x10.FontHeight.toUInt16 = 10 := rfl
  refine ⟨⟨parsed, { layout.canvas.written Font_7x10 text .White with
      CurrentX := 0
      CurrentY := layout.canvas.CurrentY + 10 }⟩, ?_, ⟨returned, remains, ?_, rfl, ?_, ?_⟩, pixels⟩
  · rw [showLine, current]
    simp only [reads.stringAt Place.message clean, ok_bind, printed, ssd1306_PrintString_line_end,
      tokenized, height]
    rfl
  · exact (Inverted_draw ..).trans ready.plain
  · change (layout.canvas.CurrentY + 10).toNat = _
    rw [UInt16.toNat_add, ready.row]
    change (10 * k + 10) % 65536 = 10 * (k + 1)
    omega
  · intro point below
    exact (pixels point).trans (by rw [if_neg (by omega), ready.blank point (by omega)])

theorem showLines_ready {rounds : Nat} (ready : Ready layout words k)
    (unbroken : ∀ word ∈ words, (10 : UInt8) ∉ word ∧ (13 : UInt8) ∉ word)
    (small : 10 * (k + words.length) < 65536) (enough : words.length ≤ rounds) :
    ∃ final, whileLoop pending (fun layout => layout >>= showLine) rounds (.ok layout) =
        some (.ok final) ∧
      ∀ point : Point, final.canvas.pixel point =
        if k ≤ point.2.val / 10 then
          ((words.take (6 - k))[point.2.val / 10 - k]?).elim false fun segment =>
            linePixel (line segment) point.1.val (point.2.val % 10)
        else layout.canvas.pixel point := by
  induction words generalizing layout k rounds with
  | nil =>
      have noToken : layout.parsed.token = none := ready.returned
      refine ⟨layout, whileLoop_of_false (by rw [pending, noToken]; rfl) rounds, ?_⟩
      intro point
      split
      · rename_i below
        simp [ready.blank point below]
      · rfl
  | cons word words inductionHypothesis =>
      obtain ⟨-, token, current, -⟩ := ready.returned
      cases rounds with
      | zero => simp at enough
      | succ rounds =>
          simp only [List.length_cons] at small enough
          obtain ⟨next, shown, readyNext, pixels⟩ :=
            showLine_ready ready (unbroken word List.mem_cons_self) (by omega)
          obtain ⟨final, returned, finalPixels⟩ := inductionHypothesis readyNext
            (fun other membership => unbroken other (List.mem_cons_of_mem _ membership))
            (by omega) (Nat.le_of_succ_le_succ enough)
          refine ⟨final, ?_, ?_⟩
          · rw [whileLoop_of_true (by rw [pending, current]; rfl), ok_bind, shown, returned]
          · intro point
            rw [finalPixels, pixels]
            rcases Nat.lt_trichotomy (point.2.val / 10) k with above | here | below
            · rw [if_neg (by omega), if_neg (by omega), if_neg (by omega)]
            · rw [if_neg (by omega), if_pos here.ge, here, Nat.sub_self, List.getElem?_take]
              by_cases visible : k < 6
              · rw [if_pos ⟨rfl, visible⟩, if_pos (by omega)]
                rfl
              · rw [if_neg (by omega), if_neg (by omega), ready.blank point here.ge]
                rfl
            · obtain ⟨m, same⟩ : ∃ m, point.2.val / 10 - k = m + 1 :=
                ⟨_, (Nat.sub_add_cancel (by omega)).symm⟩
              rw [if_pos (by omega), if_pos (by omega), List.getElem?_take, List.getElem?_take, same,
                List.getElem?_cons_succ, show point.2.val / 10 - (k + 1) = m by omega]
              by_cases visible : m + 1 < 6 - k
              · rw [if_pos visible, if_pos (by omega)]
              · rw [if_neg visible, if_neg (by omega)]

end Loop

section Message

variable {canvas : Canvas} {readbuf : Block READBUF_SIZE} {payload payloadlen : Nat}

theorem length_payloadBytes : (payloadBytes readbuf payload payloadlen).length = payloadlen := by
  rw [payloadBytes, List.length_map, List.length_range']

theorem pixel_Fill_black (point : Point) : (ssd1306_Fill canvas .Black).pixel point = false := by
  simp [ssd1306_Fill, Screen.pixel, bit]

theorem start_ready (plain : canvas.Inverted = 0) (short : payloadlen ≤ 511)
    (within : payload + payloadlen ≤ READBUF_SIZE)
    (stops : Stops (· == 0) readbuf payload READBUF_SIZE) :
    ∃ layout, start canvas readbuf payload payloadlen = .ok layout ∧
      Ready layout (segments (payloadBytes readbuf payload payloadlen)) 0 := by
  obtain ⟨message, printed, reads⟩ := @snprintf_eq _ _ readbuf payload _ Place.message Place.readbuf
    (fun _ => 0 : Block MESSAGE_SIZE) (payloadlen + 1) stops (Nat.succ_pos payloadlen)
    (Nat.succ_le_succ short) within
  have remains : Remains isBar message (some 0) (segments (payloadBytes readbuf payload payloadlen)) :=
    ⟨_, (beforeNul (payloadBytes readbuf payload payloadlen)).property, reads, rfl⟩
  obtain ⟨parsed, tokenized, returned, remaining⟩ := remains.strtok Place.message rfl
  refine ⟨⟨parsed, ssd1306_SetCursor (ssd1306_Fill canvas .Black) 0 0⟩, ?_,
    ⟨returned, remaining, plain, rfl, rfl, fun point _ => pixel_Fill_black point⟩⟩
  simp only [start, printed, ok_bind, tokenized]

/-- Without a NUL the callback reads behind `readbuf`. -/
theorem OnMessageArrived_eq_error (endless : ¬Stops (· == 0) readbuf payload READBUF_SIZE)
    (rounds : Nat) :
    ∃ index, OnMessageArrived rounds canvas readbuf payload payloadlen =
      some (.error ⟨.readbuf, index, .read⟩) := by
  obtain ⟨index, failed⟩ := snprintf_eq_error Place.message Place.readbuf
    (fun _ => 0 : Block MESSAGE_SIZE) (payloadlen + 1) endless
  refine ⟨index, ?_⟩
  rw [OnMessageArrived, start, failed, error_bind]
  exact whileLoop_of_false rfl rounds

theorem unbroken_segments {bytes : List UInt8}
    (unbroken : (10 : UInt8) ∉ bytes ∧ (13 : UInt8) ∉ bytes) :
    ∀ word ∈ segments bytes, (10 : UInt8) ∉ word ∧ (13 : UInt8) ∉ word := by
  intro word listed
  have fromPayload {byte : UInt8} (membership : byte ∈ word) : byte ∈ bytes :=
    (List.takeWhile_prefix _).subset (mem_of_mem_tokens listed membership)
  exact ⟨fun lineFeed => unbroken.1 (fromPayload lineFeed),
    fun carriageReturn => unbroken.2 (fromPayload carriageReturn)⟩

/-- The screen shows the first lines of the message, whatever it showed before and whatever else
is in the receive buffer, exactly if a NUL in the payload or behind it ends the string. -/
theorem OnMessageArrived_shows_picture_iff (plain : canvas.Inverted = 0)
    (within : payload + payloadlen ≤ READBUF_SIZE) (short : payloadlen ≤ 511)
    (unbroken : (10 : UInt8) ∉ payloadBytes readbuf payload payloadlen ∧
      (13 : UInt8) ∉ payloadBytes readbuf payload payloadlen)
    {rounds : Nat} (enough : (segments (payloadBytes readbuf payload payloadlen)).length ≤ rounds) :
    (∃ final, OnMessageArrived rounds canvas readbuf payload payloadlen = some (.ok final) ∧
      final.canvas.pixel = picture (payloadBytes readbuf payload payloadlen)) ↔
      Stops (· == 0) readbuf payload READBUF_SIZE := by
  constructor
  · rintro ⟨final, returned, -⟩
    by_contra endless
    obtain ⟨index, failed⟩ := @OnMessageArrived_eq_error canvas _ _ payloadlen endless rounds
    rw [failed] at returned
    cases returned
  · intro stops
    obtain ⟨layout, started, ready⟩ := start_ready plain short within stops
    have few : (segments (payloadBytes readbuf payload payloadlen)).length ≤ 511 := by
      have bytes : (beforeNul (payloadBytes readbuf payload payloadlen)).val.length ≤
          (payloadBytes readbuf payload payloadlen).length := (List.takeWhile_prefix _).length_le
      rw [length_payloadBytes] at bytes
      exact (length_tokens_le ..).trans (bytes.trans short)
    obtain ⟨final, returned, pixels⟩ :=
      showLines_ready ready (unbroken_segments unbroken) (by omega) enough
    refine ⟨final, ?_, ?_⟩
    · rw [OnMessageArrived, started, returned]
    · funext point
      rw [pixels, if_pos (Nat.zero_le _)]
      rfl

/-- The message `A|B` and a NUL, in front of the rest of an older message. -/
def twoLines : Block READBUF_SIZE :=
  Block.patch (fun _ => 0x7c) 9 4 fun k => [(0x41 : UInt8), 0x7c, 0x42, 0].getD k 0

theorem OnMessageArrived_shows_picture_two_lines :
    ∃ final, OnMessageArrived 2 ⟨black, 7, 20⟩ twoLines 9 3 = some (.ok final) ∧
      final.canvas.pixel = picture [0x41, 0x7c, 0x42] := by
  have bytes : payloadBytes twoLines 9 3 = [0x41, 0x7c, 0x42] := by decide +kernel
  have shows := @OnMessageArrived_shows_picture_iff ⟨black, 7, 20⟩ twoLines 9 3 rfl (by decide)
    (by decide) (by rw [bytes]; decide) 2 (by rw [bytes]; decide)
  rw [bytes] at shows
  exact shows.mpr ⟨12, by decide, by decide, by decide +kernel⟩

/-- A packet for the topic `t` that fills the receive buffer, with 506 letters as its payload. -/
def fullPacket : Block READBUF_SIZE :=
  Block.patch (fun _ => 0x41) 0 6 fun k => [(0x30 : UInt8), 0xfd, 0x03, 0, 1, 0x74].getD k 0

theorem byteAt_fullPacket {k : Nat} (behind : 6 ≤ k) (before : k < READBUF_SIZE) :
    fullPacket.byteAt k = 0x41 := by
  rw [fullPacket, Block.byteAt_patch before, if_neg (by omega), Block.byteAt, dif_pos before]

/-- Its string has no end. -/
theorem OnMessageArrived_reads_behind_readbuf :
    (10 : UInt8) ∉ payloadBytes fullPacket 6 506 ∧ (13 : UInt8) ∉ payloadBytes fullPacket 6 506 ∧
      ∀ rounds, ∃ index, OnMessageArrived rounds ⟨black, 0, 0⟩ fullPacket 6 506 =
        some (.error ⟨.readbuf, index, .read⟩) := by
  have letters : ∀ byte ∈ payloadBytes fullPacket 6 506, byte = 0x41 := by
    intro byte mem
    obtain ⟨k, listed, rfl⟩ := List.mem_map.mp mem
    have within := List.mem_range'_1.mp listed
    exact byteAt_fullPacket within.1 within.2
  have endless : ¬Stops (· == 0) fullPacket 6 READBUF_SIZE := by
    rintro ⟨k, behind, before, stopped⟩
    rw [byteAt_fullPacket behind before] at stopped
    cases stopped
  refine ⟨fun lineFeed => ?_, fun carriageReturn => ?_, OnMessageArrived_eq_error endless⟩
  · cases letters _ lineFeed
  · cases letters _ carriageReturn

end Message

end WifiIot.Mqtt.Oled
