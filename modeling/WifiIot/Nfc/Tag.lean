import Mathlib.Data.Fin.VecNotation
import WifiIot.Machine.Run
import WifiIot.Memory.Block

/-!
# The emulated NFC tag

`fm11_t4t` answers one frame of a type 4 tag: it takes the frame from
`fm327_fifo`, keeps the selected file in `current_file` and the data in
`ndef_file`, and hands the reply to the front-end chip over I2C.  All array
accesses are checked.

Source: `nfc_demo/app_demo_nfc.c` and `nfc_demo/c081_nfc.h`.
-/

namespace WifiIot.Nfc

open Memory

inductive T4T_FILE where
  | NONE
  | CC_FILE
  | NDEF_FILE
  deriving DecidableEq

/-- The arrays that a frame makes the program access.  `status` stands for the
three-byte status words. -/
inductive Buffer where
  | capability_container
  | ndef_file
  | xbuf
  | fm327_fifo
  | send_user_cmd
  | status
  deriving DecidableEq

def INS : Nat := 2
def P1 : Nat := 3
def P2 : Nat := 4
def LC : Nat := 5
def DATA : Nat := 6

def RF_TXEN_REG : UInt16 := 0xFFF4

def capability_container : Block 15 :=
  ![0x00, 0x0F, 0x20, 0x00, 0xF6, 0x00, 0xF6, 0x04, 0x06, 0xE1, 0x04, 0x03, 0x84, 0x00, 0x00]

structure Tag where
  current_file : T4T_FILE
  ndef_file : Block 1024
  fm327_fifo : Block 1024
  rfLen : UInt8

/-- The I2C writes to the chip, each with its two address bytes in front. -/
abbrev Bus := List (List UInt8)

/-- The result of a function that may wait for the chip: `returned` is false
when it still waits after the given register readings. -/
structure Sent where
  bus : Bus
  returned : Bool
  deriving DecidableEq

structure Outcome where
  tag : Tag
  sent : Sent

/-- `memset`, the two address bytes, the copying loop, and the I2C write of
`2 + len` bytes. -/
def write_fifo_data (data_buff : Source Buffer) (len : UInt8) : Checked Buffer (List UInt8) := do
  let cmd : Block 128 := fun _ => 0
  let cmd ← cmd.write .send_user_cmd 0 0xff
  let cmd ← cmd.write .send_user_cmd 1 0xf0
  let cmd ← copy .send_user_cmd data_buff cmd 2 len.toNat
  readBytes (cmd.read .send_user_cmd) (2 + len.toNat)

/-- The status of the I2C write is not looked at. -/
def fm11_write_fifo (pbuf : Source Buffer) (len : UInt8) : Checked Buffer (List UInt8) :=
  write_fifo_data pbuf len

def fm11_write_reg (addr : UInt16) (data : UInt8) : List UInt8 :=
  [((addr &&& 0xFF00) >>> 8).toUInt8, (addr &&& 0x00FF).toUInt8, data]

/-- The loop of `fm11_data_send`; `sbuf` is the position in `ibuf`, and each
turn takes one reading of `FIFO_WORDCNT_REG`. -/
def sendLoop (ibuf : Source Buffer) (sbuf slen : Nat) : List UInt8 → Checked Buffer Sent
  | [] => .ok ⟨[], slen = 0⟩
  | reading :: readings =>
      if slen = 0 then .ok ⟨[], true⟩
      else if reading &&& 0x3F ≤ 8 then
        if slen ≤ 24 then do
          let write ← fm11_write_fifo (fun k => ibuf (sbuf + k)) (UInt8.ofNat slen)
          .ok ⟨[write], true⟩
        else do
          let write ← fm11_write_fifo (fun k => ibuf (sbuf + k)) 24
          let rest ← sendLoop ibuf (sbuf + 24) (slen - 24) readings
          .ok ⟨write :: rest.bus, rest.returned⟩
      else sendLoop ibuf sbuf slen readings

def fm11_data_send (ilen : Nat) (ibuf : Source Buffer) (readings : List UInt8) :
    Checked Buffer Sent :=
  if ilen ≤ 32 then do
    let write ← fm11_write_fifo ibuf (UInt8.ofNat ilen)
    .ok ⟨[write, fm11_write_reg RF_TXEN_REG 0x55], true⟩
  else do
    let write ← fm11_write_fifo ibuf 32
    let rest ← sendLoop ibuf 32 (ilen - 32) readings
    .ok ⟨write :: fm11_write_reg RF_TXEN_REG 0x55 :: rest.bus, rest.returned⟩

namespace Tag

def fifo (tag : Tag) : Source Buffer := tag.fm327_fifo.read .fm327_fifo

/-- `(fm327_fifo[P1] << 8) + fm327_fifo[P2]` -/
def offset (tag : Tag) : Checked Buffer Nat := do
  let p1 ← tag.fifo P1
  let p2 ← tag.fifo P2
  .ok (p1.toNat * 256 + p2.toNat)

end Tag

def statusWord (pcb sw1 sw2 : UInt8) : Block 3 := ![pcb, sw1, sw2]

def sendStatus (status : Block 3) : Checked Buffer Sent := do
  let write ← fm11_write_fifo (status.read .status) 3
  .ok ⟨[write, fm11_write_reg RF_TXEN_REG 0x55], true⟩

/-- `fm327_fifo[LC] == sizeof(id) && 0 == memcmp(id, fm327_fifo + DATA, fm327_fifo[LC])` -/
def isSelected (tag : Tag) (id : List UInt8) : Checked Buffer Bool := do
  let lc ← tag.fifo LC
  if lc.toNat = id.length then do
    let data ← readBytes (fun k => tag.fifo (DATA + k)) lc.toNat
    .ok (data = id)
  else .ok false

def ndef_capability_container : List UInt8 := [0xE1, 0x03]
def ndef_id : List UInt8 := [0xE1, 0x04]

def selectApdu (tag : Tag) (pcb : UInt8) : Checked Buffer Outcome := do
  let p1 ← tag.fifo P1
  if p1 = 0x00 then do
    let isContainer ← isSelected tag ndef_capability_container
    if isContainer then do
      let sent ← sendStatus (statusWord pcb 0x90 0x00)
      .ok ⟨{ tag with current_file := .CC_FILE }, sent⟩
    else do
      let isNdef ← isSelected tag ndef_id
      if isNdef then do
        let sent ← sendStatus (statusWord pcb 0x90 0x00)
        .ok ⟨{ tag with current_file := .NDEF_FILE }, sent⟩
      else do
        let sent ← sendStatus (statusWord pcb 0x6A 0x00)
        .ok ⟨{ tag with current_file := .NONE }, sent⟩
  else do
    -- Select by name and every other selection are acknowledged only.
    let sent ← sendStatus (statusWord pcb 0x90 0x00)
    .ok ⟨tag, sent⟩

/-- READ BINARY of the capability container, written in three pieces. -/
def readContainer (tag : Tag) (pcb : UInt8) : Checked Buffer Outcome := do
  let status_ok := statusWord pcb 0x90 0x00
  let first ← fm11_write_fifo (status_ok.read .status) 1
  let offset ← tag.offset
  let lc ← tag.fifo LC
  let second ← fm11_write_fifo
    (fun k => capability_container.read .capability_container (offset + k)) lc
  let third ← fm11_write_fifo (fun k => status_ok.read .status (1 + k)) 2
  .ok ⟨tag, [first, second, third, fm11_write_reg RF_TXEN_REG 0x55], true⟩

/-- READ BINARY of the NDEF file, assembled in `xbuf`. -/
def readNdef (tag : Tag) (pcb : UInt8) (readings : List UInt8) : Checked Buffer Outcome := do
  let status_ok := statusWord pcb 0x90 0x00
  let xbuf : Block 256 := fun _ => 0
  let xbuf ← copy .xbuf (status_ok.read .status) xbuf 0 1
  let offset ← tag.offset
  let lc ← tag.fifo LC
  let xbuf ← copy .xbuf (fun k => tag.ndef_file.read .ndef_file (offset + k)) xbuf 1 lc.toNat
  let xbuf ← copy .xbuf (fun k => status_ok.read .status (1 + k)) xbuf (lc.toNat + 1) 2
  let xlen : UInt8 := lc + 3
  let sent ← fm11_data_send xlen.toNat (xbuf.read .xbuf) readings
  .ok ⟨tag, sent⟩

def updateBinary (tag : Tag) (pcb : UInt8) : Checked Buffer Outcome := do
  -- The frame is printed byte by byte.
  let _ ← readBytes tag.fifo tag.rfLen.toNat
  let offset ← tag.offset
  let lc ← tag.fifo LC
  let ndef_file ← copy .ndef_file (fun k => tag.fifo (DATA + k)) tag.ndef_file offset lc.toNat
  let sent ← sendStatus (statusWord pcb 0x90 0x00)
  .ok ⟨{ tag with ndef_file := ndef_file }, sent⟩

/-- The branch for a CRC error is left out: `crc_err` is always 0. -/
def fm11_t4t (tag : Tag) (readings : List UInt8) : Checked Buffer Outcome := do
  let pcb ← tag.fifo 0
  let ins ← tag.fifo INS
  if ins = 0xA4 then selectApdu tag pcb
  else if ins = 0xB0 then
    match tag.current_file with
    | .CC_FILE => readContainer tag pcb
    | .NDEF_FILE => readNdef tag pcb readings
    | .NONE => do
        let sent ← sendStatus (statusWord pcb 0x6A 0x82)
        .ok ⟨tag, sent⟩
  else if ins = 0xD6 then updateBinary tag pcb
  else do
    let sent ← fm11_data_send tag.rfLen.toNat tag.fifo readings
    .ok ⟨tag, sent⟩

/-- The bytes that the I2C writes append to the FIFO of the chip. -/
def reply (bus : Bus) : List UInt8 :=
  bus.flatMap fun write =>
    match write with
    | 0xff :: 0xf0 :: data => data
    | _ => []

/-- A frame of 1 to 255 bytes and the two CRC bytes that follow it. -/
structure Frame where
  bytes : List UInt8
  crc : UInt8 × UInt8
  nonempty : 0 < bytes.length
  fits : bytes.length ≤ 255

def Frame.stored (frame : Frame) : List UInt8 :=
  frame.bytes ++ [frame.crc.1, frame.crc.2]

/-- `fm11_data_recv` stores the frame and its CRC from `fm327_fifo[0]` on and
returns the length without the CRC. -/
def Tag.receive (tag : Tag) (frame : Frame) : Tag :=
  { tag with
    fm327_fifo := tag.fm327_fifo.patch 0 frame.stored.length fun k => frame.stored.getD k 0
    rfLen := UInt8.ofNat frame.bytes.length }

/-- One turn of the loop of `app_i2c_nfc_demo` that received a frame: the
output is the reply. -/
def process (tag : Tag) (input : Frame × List UInt8) : Option (Tag × List (List UInt8)) :=
  match fm11_t4t (tag.receive input.1) input.2 with
  | .ok ⟨next, ⟨bus, true⟩⟩ => some (next, [reply bus])
  | _ => none

/-- The receive loop.  Each input is a frame and the FIFO levels that
`fm11_data_send` reads while it answers it. -/
def machine : Machine Tag (Frame × List UInt8) (List UInt8) := ⟨process⟩

/-- The state after start-up, with any contents of `ndef_file`. -/
def boot (ndef_file : Block 1024) : Tag where
  current_file := .NONE
  ndef_file := ndef_file
  fm327_fifo := fun _ => 0
  rfLen := 0

end WifiIot.Nfc
