import Mathlib.Data.List.TakeDrop
import WifiIot.Nfc.Tag

/-!
# What one frame does to the tag

The reply and the next state of `fm11_t4t` in closed form, and the frames on
which every access stays inside its array.  The chip takes 32 bytes of a reply
at once and 24 more for each reading at which its FIFO is low.
-/

namespace WifiIot.Nfc

open Memory

namespace Tag

def byte (tag : Tag) (index : Nat) : UInt8 := tag.fm327_fifo.byteAt index

def pcb (tag : Tag) : UInt8 := tag.byte 0
def ins (tag : Tag) : UInt8 := tag.byte INS
def p1 (tag : Tag) : UInt8 := tag.byte P1
def p2 (tag : Tag) : UInt8 := tag.byte P2
def lc (tag : Tag) : UInt8 := tag.byte LC
def off (tag : Tag) : Nat := tag.p1.toNat * 256 + tag.p2.toNat
def data (tag : Tag) (k : Nat) : UInt8 := tag.byte (DATA + k)

/-- The LC bytes of an array from the offset of the frame on. -/
def window {size : Nat} (tag : Tag) (file : Block size) : List UInt8 :=
  (List.range tag.lc.toNat).map fun k => file.byteAt (tag.off + k)

def Selects (tag : Tag) (id : List UInt8) : Prop :=
  tag.lc.toNat = id.length ∧ (List.range tag.lc.toNat).map tag.data = id

instance (tag : Tag) (id : List UInt8) : Decidable (tag.Selects id) := by
  unfold Selects
  infer_instance

/-- The file that a SELECT by file id makes the current one. -/
def selection (tag : Tag) : T4T_FILE :=
  if tag.Selects ndef_capability_container then .CC_FILE
  else if tag.Selects ndef_id then .NDEF_FILE
  else .NONE

def next (tag : Tag) : Tag :=
  if tag.ins = 0xA4 then
    if tag.p1 = 0 then { tag with current_file := tag.selection } else tag
  else if tag.ins = 0xD6 then
    { tag with ndef_file := tag.ndef_file.patch tag.off tag.lc.toNat tag.data }
  else tag

/-- The whole reply.  The length of an NDEF reply is taken modulo 256. -/
def answer (tag : Tag) : List UInt8 :=
  if tag.ins = 0xA4 then
    [tag.pcb, if tag.p1 = 0 ∧ tag.selection = .NONE then 0x6A else 0x90, 0x00]
  else if tag.ins = 0xB0 then
    match tag.current_file with
    | .CC_FILE => tag.pcb :: tag.window capability_container ++ [0x90, 0x00]
    | .NDEF_FILE =>
        (tag.pcb :: tag.window tag.ndef_file ++ [0x90, 0x00]).take (tag.lc + 3).toNat
    | .NONE => [tag.pcb, 0x6A, 0x82]
  else if tag.ins = 0xD6 then [tag.pcb, 0x90, 0x00]
  else (List.range tag.rfLen.toNat).map tag.byte

/-- The bytes that the frame asks for lie inside an array of `size` bytes. -/
def Inside (tag : Tag) (size : Nat) : Prop :=
  tag.lc.toNat = 0 ∨ tag.off + tag.lc.toNat ≤ size

def InBounds (tag : Tag) : Prop :=
  (tag.ins = 0xB0 → tag.current_file = .CC_FILE → tag.Inside 15) ∧
  (tag.ins = 0xB0 → tag.current_file = .NDEF_FILE → tag.lc.toNat ≤ 253 ∧ tag.Inside 1024) ∧
  (tag.ins = 0xD6 → tag.Inside 1024)

instance (tag : Tag) (size : Nat) : Decidable (tag.Inside size) := by
  unfold Inside
  infer_instance

instance (tag : Tag) : Decidable tag.InBounds := by
  unfold InBounds
  infer_instance

theorem fifo_eq (tag : Tag) {index : Nat} (inside : index < 1024) :
    tag.fifo index = .ok (tag.byte index) :=
  Block.read_of_lt inside

theorem fifo_pcb (tag : Tag) : tag.fifo 0 = .ok tag.pcb := tag.fifo_eq (by decide)

theorem fifo_ins (tag : Tag) : tag.fifo INS = .ok tag.ins := tag.fifo_eq (by decide)

theorem fifo_p1 (tag : Tag) : tag.fifo P1 = .ok tag.p1 := tag.fifo_eq (by decide)

theorem fifo_p2 (tag : Tag) : tag.fifo P2 = .ok tag.p2 := tag.fifo_eq (by decide)

theorem fifo_lc (tag : Tag) : tag.fifo LC = .ok tag.lc := tag.fifo_eq (by decide)

theorem fifo_data (tag : Tag) {k : Nat} (inside : k < tag.lc.toNat) :
    tag.fifo (DATA + k) = .ok (tag.data k) :=
  tag.fifo_eq (by have := tag.lc.toNat_lt; unfold DATA; omega)

theorem readBytes_fifo (tag : Tag) :
    readBytes tag.fifo tag.rfLen.toNat = .ok ((List.range tag.rfLen.toNat).map tag.byte) :=
  readBytes_eq_ok fun _ inside => tag.fifo_eq (by have := tag.rfLen.toNat_lt; omega)

theorem offset_eq (tag : Tag) : tag.offset = .ok tag.off := by
  simp only [offset, fifo_p1, fifo_p2, ok_bind]
  rfl

section Receive

variable (frame : Frame)

theorem length_stored : frame.stored.length = frame.bytes.length + 2 := by
  simp only [Frame.stored, List.length_append, List.length_cons, List.length_nil]

/-- The received frame overwrites the buffer; what lies behind it stays. -/
theorem byte_receive (tag : Tag) {index : Nat} (inside : index < 1024) :
    (tag.receive frame).byte index =
      if index < frame.stored.length then frame.stored.getD index 0 else tag.byte index := by
  simp only [byte, receive, Block.byteAt_patch inside, Nat.zero_le, Nat.zero_add, true_and,
    Nat.sub_zero]

theorem byte_receive_of_lt (tag : Tag) {index : Nat} (inside : index < frame.bytes.length) :
    (tag.receive frame).byte index = frame.bytes.getD index 0 := by
  have fits := frame.fits
  rw [byte_receive _ _ (by omega), if_pos (by rw [length_stored]; omega), Frame.stored]
  simp only [List.getD_eq_getElem?_getD, List.getElem?_append_left inside]

theorem rfLen_receive (tag : Tag) : (tag.receive frame).rfLen.toNat = frame.bytes.length := by
  have fits := frame.fits
  simp only [receive, UInt8.toNat_ofNat']
  omega

end Receive

end Tag

structure Request where
  pcb : UInt8
  cla : UInt8
  ins : UInt8
  p1 : UInt8
  p2 : UInt8
  lc : UInt8
  body : List UInt8
  crc : UInt8 × UInt8
  fits : body.length ≤ 249

namespace Request

def frame (request : Request) : Frame where
  bytes := request.pcb :: request.cla :: request.ins :: request.p1 :: request.p2 :: request.lc ::
    request.body
  crc := request.crc
  nonempty := Nat.succ_pos _
  fits := by
    have fits := request.fits
    simp only [List.length_cons]
    omega

variable (request : Request) (tag : Tag)

theorem length_bytes : request.frame.bytes.length = 6 + request.body.length := by
  simp only [frame, List.length_cons]
  omega

theorem header_receive {index : Nat} (inside : index < 6) :
    (tag.receive request.frame).byte index = request.frame.bytes.getD index 0 :=
  Tag.byte_receive_of_lt _ tag (by rw [length_bytes]; omega)

@[simp]
theorem pcb_receive : (tag.receive request.frame).pcb = request.pcb :=
  request.header_receive tag (by decide)

@[simp]
theorem ins_receive : (tag.receive request.frame).ins = request.ins :=
  request.header_receive tag (by decide)

@[simp]
theorem p1_receive : (tag.receive request.frame).p1 = request.p1 :=
  request.header_receive tag (by decide)

@[simp]
theorem p2_receive : (tag.receive request.frame).p2 = request.p2 :=
  request.header_receive tag (by decide)

@[simp]
theorem lc_receive : (tag.receive request.frame).lc = request.lc :=
  request.header_receive tag (by decide)

theorem data_receive {k : Nat} (inside : k < request.body.length) :
    (tag.receive request.frame).data k = request.body.getD k 0 := by
  rw [Tag.data, Tag.byte_receive_of_lt _ tag (by rw [length_bytes]; unfold DATA; omega), DATA,
    Nat.add_comm]
  rfl

end Request

/-- The readings at which the FIFO of the chip is low. -/
def lows (readings : List UInt8) : Nat := readings.countP fun reading => reading &&& 0x3F ≤ 8

/-- How many bytes the chip has taken after the given readings. -/
def capacity (readings : List UInt8) : Nat := 32 + 24 * lows readings

theorem lows_cons (reading : UInt8) (readings : List UInt8) :
    lows (reading :: readings) = lows readings + if reading &&& 0x3F ≤ 8 then 1 else 0 := by
  simp [lows, List.countP_cons]

section Sending

theorem toNat_ofNat {n : Nat} (small : n < 256) : (UInt8.ofNat n).toNat = n := by
  rw [UInt8.toNat_ofNat']
  omega

theorem take_range_add (bytes : Nat → UInt8) (first rest more : Nat) :
    ((List.range (first + rest)).map bytes).take (first + more) =
      (List.range first).map bytes ++ ((List.range rest).map fun k => bytes (first + k)).take more := by
  rw [List.range_add, List.map_append, List.map_map, List.take_append, List.length_map,
    List.length_range, Nat.add_sub_cancel_left, List.take_of_length_le]
  · rfl
  · simp only [List.length_map, List.length_range]
    omega

variable (source : Source Buffer) (bytes : Nat → UInt8)

/-- The helper writes the address of the FIFO and then the data, as long as
these fit into `_send_user_cmd`. -/
theorem write_fifo_data_eq (len : UInt8) (fits : len.toNat ≤ 126)
    (readable : ∀ k < len.toNat, source k = .ok (bytes k)) :
    write_fifo_data source len = .ok (0xff :: 0xf0 :: (List.range len.toNat).map bytes) := by
  unfold write_fifo_data
  simp only [Block.write, show (0 : Nat) < 128 by decide, show (1 : Nat) < 128 by decide,
    dif_pos, ok_bind]
  rw [copy_eq_ok readable (by omega), ok_bind]
  rw [readBytes_patch (by omega)]
  rfl

variable {source} in
theorem readable_of_write_fifo_data {len : UInt8} {result : List UInt8}
    (written : write_fifo_data source len = .ok result) :
    ∀ k < len.toNat, ∃ byte, source k = .ok byte := by
  unfold write_fifo_data at written
  obtain ⟨_, _, written⟩ := bind_eq_ok_iff.mp written
  obtain ⟨_, _, written⟩ := bind_eq_ok_iff.mp written
  obtain ⟨_, copied, _⟩ := bind_eq_ok_iff.mp written
  exact (readable_of_copy copied).1

theorem reply_cons_data (data : List UInt8) (bus : Bus) :
    reply ((0xff :: 0xf0 :: data) :: bus) = data ++ reply bus := rfl

theorem reply_cons_txen (bus : Bus) :
    reply (fm11_write_reg RF_TXEN_REG 0x55 :: bus) = reply bus := rfl

@[simp]
theorem reply_nil : reply [] = [] := rfl

/-- The streaming loop writes the bytes in order, 24 at each low reading. -/
theorem sendLoop_spec (readings : List UInt8) (sbuf slen : Nat)
    (readable : ∀ k < slen, source (sbuf + k) = .ok (bytes (sbuf + k))) :
    ∃ sent, sendLoop source sbuf slen readings = .ok sent ∧
      reply sent.bus =
        ((List.range slen).map fun k => bytes (sbuf + k)).take (24 * lows readings) ∧
      (sent.returned = true ↔ slen ≤ 24 * lows readings) := by
  induction readings generalizing sbuf slen with
  | nil => exact ⟨_, rfl, by simp [lows], by simp [lows]⟩
  | cons reading readings inductionHypothesis =>
      unfold sendLoop
      rw [lows_cons]
      by_cases done : slen = 0
      · rw [if_pos done]
        exact ⟨_, rfl, by simp [done], by simp [done]⟩
      rw [if_neg done]
      by_cases low : reading &&& 0x3F ≤ 8
      · simp only [low, if_true]
        by_cases short : slen ≤ 24
        · have size : (UInt8.ofNat slen).toNat = slen := toNat_ofNat (by omega)
          have written := write_fifo_data_eq (fun k => source (sbuf + k))
            (fun k => bytes (sbuf + k)) (UInt8.ofNat slen) (by omega)
            (fun k inside => readable k (by omega))
          rw [if_pos short]
          simp only [fm11_write_fifo, written, ok_bind]
          refine ⟨_, rfl, ?_, by simp only [true_iff]; omega⟩
          rw [reply_cons_data, reply_nil, List.append_nil, size, List.take_of_length_le]
          simp only [List.length_map, List.length_range]
          omega
        · have written := write_fifo_data_eq (fun k => source (sbuf + k))
            (fun k => bytes (sbuf + k)) 24 (by decide)
            (fun k inside => readable k (by have : (24 : UInt8).toNat = 24 := rfl; omega))
          obtain ⟨rest, sending, replied, finished⟩ :=
            inductionHypothesis (sbuf + 24) (slen - 24) (by
              intro k inside
              rw [Nat.add_assoc]
              exact readable (24 + k) (by omega))
          rw [if_neg short]
          simp only [fm11_write_fifo, written, ok_bind, sending]
          refine ⟨_, rfl, ?_, ?_⟩
          · rw [reply_cons_data, replied]
            obtain ⟨more, rfl⟩ : ∃ more, slen = 24 + more := ⟨slen - 24, by omega⟩
            rw [show 24 * (lows readings + 1) = 24 + 24 * lows readings by omega, take_range_add,
              Nat.add_sub_cancel_left]
            simp only [Nat.add_assoc]
            rfl
          · simp only [finished]
            omega
      · simp only [low, if_false, Nat.add_zero]
        exact inductionHypothesis sbuf slen readable

theorem fm11_data_send_spec (readings : List UInt8) (ilen : Nat)
    (readable : ∀ k < ilen, source k = .ok (bytes k)) :
    ∃ sent, fm11_data_send ilen source readings = .ok sent ∧
      reply sent.bus = ((List.range ilen).map bytes).take (capacity readings) ∧
      (sent.returned = true ↔ ilen ≤ capacity readings) := by
  unfold fm11_data_send capacity
  by_cases short : ilen ≤ 32
  · have size : (UInt8.ofNat ilen).toNat = ilen := toNat_ofNat (by omega)
    have written := write_fifo_data_eq source bytes (UInt8.ofNat ilen) (by omega)
      (fun k inside => readable k (by omega))
    rw [if_pos short]
    simp only [fm11_write_fifo, written, ok_bind]
    refine ⟨_, rfl, ?_, by simp only [true_iff]; omega⟩
    rw [reply_cons_data, reply_cons_txen, reply_nil, List.append_nil, size,
      List.take_of_length_le]
    simp only [List.length_map, List.length_range]
    omega
  · have written := write_fifo_data_eq source bytes 32 (by decide)
      (fun k inside => readable k (by have : (32 : UInt8).toNat = 32 := rfl; omega))
    obtain ⟨rest, sending, replied, finished⟩ :=
      sendLoop_spec source bytes readings 32 (ilen - 32)
        (fun k inside => readable (32 + k) (by omega))
    rw [if_neg short]
    simp only [fm11_write_fifo, written, ok_bind, sending]
    refine ⟨_, rfl, ?_, ?_⟩
    · rw [reply_cons_data, reply_cons_txen, replied]
      obtain ⟨more, rfl⟩ : ∃ more, ilen = 32 + more := ⟨ilen - 32, by omega⟩
      rw [take_range_add, Nat.add_sub_cancel_left]
      rfl
    · simp only [finished]
      omega

theorem sendStatus_eq (pcb sw1 sw2 : UInt8) :
    sendStatus (statusWord pcb sw1 sw2) =
      .ok ⟨[[0xff, 0xf0, pcb, sw1, sw2], fm11_write_reg RF_TXEN_REG 0x55], true⟩ := by
  have written := write_fifo_data_eq ((statusWord pcb sw1 sw2).read .status)
    (statusWord pcb sw1 sw2).byteAt 3 (by decide)
    (fun k inside => Block.read_of_lt inside)
  simp only [sendStatus, fm11_write_fifo, written, ok_bind]
  rfl

end Sending

section Branches

variable (tag : Tag)

theorem isSelected_eq (id : List UInt8) : isSelected tag id = .ok (decide (tag.Selects id)) := by
  unfold isSelected
  rw [tag.fifo_lc, ok_bind]
  by_cases size : tag.lc.toNat = id.length
  · have readData : readBytes (fun k => tag.fifo (DATA + k)) tag.lc.toNat =
        .ok ((List.range tag.lc.toNat).map tag.data) :=
      readBytes_eq_ok fun k inside => tag.fifo_data inside
    rw [if_pos size, readData, ok_bind]
    simp only [Tag.Selects, size, true_and]
  · rw [if_neg size]
    simp only [Tag.Selects, size, false_and, decide_false]

theorem selectApdu_eq (select : tag.ins = 0xA4) :
    ∃ sent, selectApdu tag tag.pcb = .ok ⟨tag.next, sent⟩ ∧
      reply sent.bus = tag.answer ∧ sent.returned = true := by
  unfold selectApdu
  simp only [tag.fifo_p1, isSelected_eq, sendStatus_eq, ok_bind, Tag.next, Tag.answer,
    Tag.selection, select]
  by_cases byId : tag.p1 = 0
  · by_cases container : tag.Selects ndef_capability_container
    · simp [byId, container, reply_cons_data, reply_cons_txen]
    · by_cases ndef : tag.Selects ndef_id <;>
        simp [byId, container, ndef, reply_cons_data, reply_cons_txen]
  · simp [byId, reply_cons_data, reply_cons_txen]

theorem readContainer_eq (inside : tag.Inside 15) :
    ∃ sent, readContainer tag tag.pcb = .ok ⟨tag, sent⟩ ∧
      reply sent.bus = tag.pcb :: tag.window capability_container ++ [0x90, 0x00] ∧
      sent.returned = true := by
  have first := write_fifo_data_eq ((statusWord tag.pcb 0x90 0x00).read .status)
    (statusWord tag.pcb 0x90 0x00).byteAt 1 (by decide)
    (fun k bound => Block.read_of_lt (lt_trans bound (by decide)))
  have second := write_fifo_data_eq
    (fun k => capability_container.read .capability_container (tag.off + k))
    (fun k => capability_container.byteAt (tag.off + k)) tag.lc
    (by rcases inside with empty | fits <;> omega)
    (fun k bound => Block.read_of_lt (by rcases inside with empty | fits <;> omega))
  have third := write_fifo_data_eq
    (fun k => (statusWord tag.pcb 0x90 0x00).read .status (1 + k))
    (fun k => (statusWord tag.pcb 0x90 0x00).byteAt (1 + k)) 2 (by decide)
    (fun k bound => Block.read_of_lt (by have : (2 : UInt8).toNat = 2 := rfl; omega))
  unfold readContainer
  simp only [fm11_write_fifo, first, second, third, tag.offset_eq, tag.fifo_lc, ok_bind]
  refine ⟨_, rfl, ?_, rfl⟩
  rw [reply_cons_data, reply_cons_data, reply_cons_data, reply_cons_txen, reply_nil]
  rfl

/-- `xbuf` after the three copies. -/
def ndefBuffer (tag : Tag) : Block 256 :=
  let status_ok := statusWord tag.pcb 0x90 0x00
  let head : Block 256 := Block.patch (fun _ => 0) 0 1 status_ok.byteAt
  let body := head.patch 1 tag.lc.toNat fun k => tag.ndef_file.byteAt (tag.off + k)
  body.patch (tag.lc.toNat + 1) 2 fun k => status_ok.byteAt (1 + k)

theorem map_range_eq_take {bytes : Nat → UInt8} {whole : List UInt8} {len : Nat}
    (fits : len ≤ whole.length) (same : ∀ k < len, bytes k = whole.getD k 0) :
    (List.range len).map bytes = whole.take len := by
  apply List.ext_getElem
  · simp only [List.length_map, List.length_range, List.length_take, Nat.min_eq_left fits]
  · intro k inside _
    simp only [List.length_map, List.length_range] at inside
    simp only [List.getElem_map, List.getElem_range, List.getElem_take, same k inside]
    rw [List.getD_eq_getElem?_getD, List.getElem?_eq_getElem (by omega), Option.getD_some]

theorem ndefBuffer_byteAt (small : tag.lc.toNat ≤ 253) {k : Nat} (inside : k < tag.lc.toNat + 3) :
    (ndefBuffer tag).byteAt k =
      (tag.pcb :: tag.window tag.ndef_file ++ [0x90, 0x00]).getD k 0 := by
  have length : (tag.window tag.ndef_file).length = tag.lc.toNat := by simp [Tag.window]
  unfold ndefBuffer
  rw [Block.byteAt_patch (by omega), List.getD_eq_getElem?_getD, List.cons_append]
  rcases k with _ | k
  · rw [if_neg (by omega), Block.byteAt_patch (by omega), if_neg (by omega),
      Block.byteAt_patch (by omega), if_pos (by omega)]
    rfl
  rw [List.getElem?_cons_succ]
  by_cases body : k < tag.lc.toNat
  · rw [if_neg (by omega), Block.byteAt_patch (by omega), if_pos (by omega),
      List.getElem?_append_left (by omega)]
    simp [Tag.window, body]
  · rw [if_pos (by omega), List.getElem?_append_right (by omega), length]
    obtain rfl | rfl : k = tag.lc.toNat ∨ k = tag.lc.toNat + 1 := by omega
    · simp [statusWord, Block.byteAt]
    · simp [statusWord, Block.byteAt]

theorem readNdef_eq (readings : List UInt8) (small : tag.lc.toNat ≤ 253)
    (inside : tag.Inside 1024) :
    ∃ sent, readNdef tag tag.pcb readings = .ok ⟨tag, sent⟩ ∧
      reply sent.bus =
        ((tag.pcb :: tag.window tag.ndef_file ++ [0x90, 0x00]).take (tag.lc + 3).toNat).take
          (capacity readings) ∧
      (sent.returned = true ↔ (tag.lc + 3).toNat ≤ capacity readings) := by
  have width : (tag.lc + 3).toNat ≤ tag.lc.toNat + 3 := by
    rw [UInt8.toNat_add]
    exact Nat.mod_le _ _
  let status_ok := statusWord tag.pcb 0x90 0x00
  have head : copy Buffer.xbuf (status_ok.read Buffer.status) (fun _ => 0 : Block 256) 0 1 =
      .ok (Block.patch (fun _ => 0) 0 1 status_ok.byteAt) :=
    copy_eq_ok (fun k bound => Block.read_of_lt (by omega)) (by decide)
  have body (xbuf : Block 256) :
      copy Buffer.xbuf (fun k => tag.ndef_file.read Buffer.ndef_file (tag.off + k)) xbuf 1 tag.lc.toNat =
        .ok (xbuf.patch 1 tag.lc.toNat fun k => tag.ndef_file.byteAt (tag.off + k)) :=
    copy_eq_ok
      (fun k bound => Block.read_of_lt (by rcases inside with empty | fits <;> omega)) (by omega)
  have tail (xbuf : Block 256) :
      copy Buffer.xbuf (fun k => status_ok.read Buffer.status (1 + k)) xbuf (tag.lc.toNat + 1) 2 =
        .ok (xbuf.patch (tag.lc.toNat + 1) 2 fun k => status_ok.byteAt (1 + k)) :=
    copy_eq_ok (fun k bound => Block.read_of_lt (by omega)) (by omega)
  obtain ⟨sent, sending, replied, finished⟩ :=
    fm11_data_send_spec ((ndefBuffer tag).read .xbuf) (ndefBuffer tag).byteAt readings
      (tag.lc + 3).toNat (fun k bound => Block.read_of_lt (by omega))
  have assembled : readNdef tag tag.pcb readings = .ok ⟨tag, sent⟩ := by
    simp only [readNdef, status_ok, head, body, tail, tag.offset_eq, tag.fifo_lc, ok_bind]
    change (fm11_data_send _ ((ndefBuffer tag).read .xbuf) readings >>= _) = _
    rw [sending, ok_bind]
  refine ⟨sent, assembled, ?_, finished⟩
  rw [replied, map_range_eq_take]
  · simp only [Tag.window, List.cons_append, List.length_cons, List.length_append, List.length_map,
      List.length_range, List.length_nil]
    omega
  · exact fun k bound => ndefBuffer_byteAt tag small (by omega)

theorem updateBinary_eq (inside : tag.Inside 1024) :
    updateBinary tag tag.pcb =
      .ok ⟨{ tag with ndef_file := tag.ndef_file.patch tag.off tag.lc.toNat tag.data },
        ⟨[[0xff, 0xf0, tag.pcb, 0x90, 0x00], fm11_write_reg RF_TXEN_REG 0x55], true⟩⟩ := by
  have copied : copy .ndef_file (fun k => tag.fifo (DATA + k)) tag.ndef_file tag.off tag.lc.toNat =
      .ok (tag.ndef_file.patch tag.off tag.lc.toNat tag.data) :=
    copy_eq_ok (fun k bound => tag.fifo_data bound) inside
  simp only [updateBinary, tag.readBytes_fifo, copied, tag.offset_eq, tag.fifo_lc, sendStatus_eq, ok_bind]

theorem sent_of_short (readings : List UInt8) {result : Checked Buffer Outcome} {after : Tag}
    {whole : List UInt8} (small : whole.length ≤ 32)
    (sends : ∃ sent, result = .ok ⟨after, sent⟩ ∧ reply sent.bus = whole ∧
      sent.returned = true) :
    ∃ sent, result = .ok ⟨after, sent⟩ ∧ reply sent.bus = whole.take (capacity readings) ∧
      (sent.returned = true ↔ whole.length ≤ capacity readings) := by
  have room : 32 ≤ capacity readings := Nat.le_add_right 32 _
  obtain ⟨sent, processed, replied, returned⟩ := sends
  refine ⟨sent, processed, ?_, ?_⟩
  · rw [replied, List.take_of_length_le (by omega)]
  · exact iff_of_true returned (by omega)

/-- A frame within bounds is processed, and `next` and `answer` say how. -/
theorem fm11_t4t_spec (readings : List UInt8) (bounds : tag.InBounds) :
    ∃ sent, fm11_t4t tag readings = .ok ⟨tag.next, sent⟩ ∧
      reply sent.bus = tag.answer.take (capacity readings) ∧
      (sent.returned = true ↔ tag.answer.length ≤ capacity readings) := by
  unfold fm11_t4t
  rw [tag.fifo_pcb, ok_bind, tag.fifo_ins, ok_bind]
  by_cases select : tag.ins = 0xA4
  · rw [if_pos select]
    exact sent_of_short readings (by simp [Tag.answer, select]) (selectApdu_eq tag select)
  rw [if_neg select]
  by_cases read : tag.ins = 0xB0
  · have unchanged : tag.next = tag := by simp [Tag.next, read]
    rw [if_pos read, unchanged]
    rw [Tag.answer, if_neg select, if_pos read]
    cases current : tag.current_file with
    | NONE =>
        apply sent_of_short readings (by simp)
        rw [sendStatus_eq, ok_bind]
        exact ⟨_, rfl, rfl, rfl⟩
    | CC_FILE =>
        have inside := bounds.1 read current
        apply sent_of_short readings
        · simp only [Tag.window, List.cons_append, List.length_cons, List.length_append,
            List.length_map, List.length_range, List.length_nil]
          rcases inside with empty | fits <;> omega
        · exact readContainer_eq tag inside
    | NDEF_FILE =>
        obtain ⟨small, inside⟩ := bounds.2.1 read current
        obtain ⟨sent, processed, replied, finished⟩ := readNdef_eq tag readings small inside
        refine ⟨sent, processed, replied, ?_⟩
        rw [finished, List.length_take]
        simp only [Tag.window, List.cons_append, List.length_cons, List.length_append,
          List.length_map, List.length_range, List.length_nil]
        have width : (tag.lc + 3).toNat ≤ tag.lc.toNat + 3 := by
          rw [UInt8.toNat_add]
          exact Nat.mod_le _ _
        rw [Nat.min_eq_left (by omega)]
  rw [if_neg read]
  by_cases update : tag.ins = 0xD6
  · rw [if_pos update, updateBinary_eq tag (bounds.2.2 update)]
    rw [Tag.next, if_neg select, if_pos update, Tag.answer, if_neg select, if_neg read,
      if_pos update]
    exact sent_of_short readings (by simp) ⟨_, rfl, rfl, rfl⟩
  · have unchanged : tag.next = tag := by simp [Tag.next, select, update]
    obtain ⟨sent, sending, replied, finished⟩ :=
      fm11_data_send_spec tag.fifo tag.byte readings tag.rfLen.toNat
        (fun k bound => tag.fifo_eq (by have := tag.rfLen.toNat_lt; omega))
    rw [if_neg update, sending, ok_bind, unchanged, Tag.answer, if_neg select, if_neg read,
      if_neg update]
    refine ⟨sent, rfl, replied, ?_⟩
    rw [finished, List.length_map, List.length_range]

variable {tag} in
theorem inside_of_readable {name : Buffer} {size : Nat} {file : Block size}
    (readable : ∀ k < tag.lc.toNat, ∃ byte, file.read name (tag.off + k) = .ok byte) :
    tag.Inside size := by
  by_cases empty : tag.lc.toNat = 0
  · exact .inl empty
  · obtain ⟨byte, readLast⟩ := readable (tag.lc.toNat - 1) (by omega)
    have inside := Block.lt_of_read readLast
    exact .inr (by omega)

theorem inBounds_of_ok {readings : List UInt8} {outcome : Outcome}
    (processed : fm11_t4t tag readings = .ok outcome) : tag.InBounds := by
  unfold fm11_t4t at processed
  rw [tag.fifo_pcb, ok_bind, tag.fifo_ins, ok_bind] at processed
  refine ⟨fun read container => ?_, fun read ndef => ?_, fun update => ?_⟩
  · rw [if_neg (by rw [read]; decide), if_pos read, container] at processed
    obtain ⟨_, _, processed⟩ := bind_eq_ok_iff.mp processed
    rw [tag.offset_eq, ok_bind, tag.fifo_lc, ok_bind] at processed
    obtain ⟨_, written, _⟩ := bind_eq_ok_iff.mp processed
    exact inside_of_readable fun k bound => readable_of_write_fifo_data written k bound
  · rw [if_neg (by rw [read]; decide), if_pos read, ndef] at processed
    obtain ⟨_, _, processed⟩ := bind_eq_ok_iff.mp processed
    rw [tag.offset_eq, ok_bind, tag.fifo_lc, ok_bind] at processed
    obtain ⟨_, body, processed⟩ := bind_eq_ok_iff.mp processed
    obtain ⟨_, status, _⟩ := bind_eq_ok_iff.mp processed
    have fits := (readable_of_copy status).2
    exact ⟨by omega, inside_of_readable (readable_of_copy body).1⟩
  · rw [if_neg (by rw [update]; decide), if_neg (by rw [update]; decide), if_pos update] at processed
    simp only [updateBinary, bind_eq_ok_iff, tag.offset_eq, tag.fifo_lc, ok_bind] at processed
    obtain ⟨_, _, copied, written, _⟩ := processed
    exact (readable_of_copy written).2

end Branches

section Next

variable {tag : Tag}

theorem next_ndef_file_of_ne (other : tag.ins ≠ 0xD6) : tag.next.ndef_file = tag.ndef_file := by
  unfold Tag.next
  rw [if_neg other]
  split
  · split <;> rfl
  · rfl

theorem next_ndef_file_of_update (update : tag.ins = 0xD6) :
    tag.next.ndef_file = tag.ndef_file.patch tag.off tag.lc.toNat tag.data := by
  rw [Tag.next, if_neg (by rw [update]; decide), if_pos update]

end Next

theorem process_eq (tag : Tag) (frame : Frame) (readings : List UInt8)
    (bounds : (tag.receive frame).InBounds) :
    process tag (frame, readings) =
      if (tag.receive frame).answer.length ≤ capacity readings then
        some ((tag.receive frame).next, [(tag.receive frame).answer])
      else none := by
  obtain ⟨⟨bus, returned⟩, processed, replied, finished⟩ :=
    fm11_t4t_spec (tag.receive frame) readings bounds
  unfold process
  simp only [processed]
  cases returned with
  | false =>
      have waiting : ¬(tag.receive frame).answer.length ≤ capacity readings := fun whole => by
        have returns := finished.mpr whole
        cases returns
      rw [if_neg waiting]
  | true =>
      have whole := finished.mp rfl
      rw [List.take_of_length_le whole] at replied
      rw [if_pos whole, ← replied]

end WifiIot.Nfc
