import Mathlib.Algebra.Group.Nat.Defs
import WifiIot.Memory.Block
import WifiIot.Memory.Stretch

/-!
# Writing the EEPROM of the tag

`fm11_write_eep` cuts a write into pages for `eep_write_page`: an unaligned
head, whole blocks and a tail.  The address has 16 bits and wraps, the length
has 32 bits, and the offset and the length of a page have 8.

Source: `nfc_demo/app_demo_nfc.c` and `nfc_demo/c081_nfc.h`.
-/

namespace WifiIot.Nfc.Eeprom

open Memory

def FM11_E2_USER_ADDR : UInt16 := 0x0010
def FM11_E2_MANUF_ADDR : UInt16 := 0x03FF

abbrev FM11_E2_BLOCK_SIZE : Nat := 16

inductive Buffer where
  | wbuf
  | send_user_cmd
  deriving DecidableEq

/-- One call of `eep_write_page`, with the frame that goes over the I2C bus. -/
structure PageWrite where
  WriteAddr : UInt16
  datalen : UInt8
  frame : List UInt8
  deriving DecidableEq

namespace PageWrite

/-- What the chip stores: the bytes after the two address bytes, from that
address on. -/
def written (page : PageWrite) : List (Nat × UInt8) :=
  match page.frame with
  | high :: low :: data =>
      (List.range data.length).map fun k => (high.toNat * 256 + low.toNat + k, data.getD k 0)
  | _ => []

/-- The page has some bytes, at most a block of them, and its first and its last
byte lie in one block. -/
def InOneBlock (page : PageWrite) : Prop :=
  page.datalen.toNat ≠ 0 ∧ page.datalen.toNat ≤ FM11_E2_BLOCK_SIZE ∧
    page.WriteAddr.toNat / FM11_E2_BLOCK_SIZE =
      (page.WriteAddr.toNat + page.datalen.toNat - 1) / FM11_E2_BLOCK_SIZE

/-- The page spares the bytes below the user area and the manufacturer area. -/
def InUserArea (page : PageWrite) : Prop :=
  ∀ place byte, (place, byte) ∈ page.written →
    FM11_E2_USER_ADDR.toNat ≤ place ∧ place < FM11_E2_MANUF_ADDR.toNat

end PageWrite

/-- The two address bytes, the copying loop, and the I2C write of `2 + len`
bytes.  Its status is not looked at. -/
def c08i_nfc_i2c_write (reg_high_8bit_cmd reg_low_8bit_cmd : UInt8) (data_buff : Source Buffer)
    (len : UInt8) : Checked Buffer (List UInt8) := do
  let cmd : Block 64 := fun _ => 0
  let cmd ← cmd.write .send_user_cmd 0 reg_high_8bit_cmd
  let cmd ← cmd.write .send_user_cmd 1 reg_low_8bit_cmd
  let cmd ← copy .send_user_cmd data_buff cmd 2 len.toNat
  readBytes (cmd.read .send_user_cmd) (2 + len.toNat)

def eep_write_page (pBuffer : Source Buffer) (WriteAddr : UInt16) (datalen : UInt8) :
    Checked Buffer PageWrite := do
  let frame ← c08i_nfc_i2c_write ((WriteAddr &&& 0xFF00) >>> 8).toUInt8
    (WriteAddr &&& 0x00FF).toUInt8 pBuffer datalen
  .ok ⟨WriteAddr, datalen, frame⟩

/-- `while (len)`.  A page shorter than a block is the last one, as it sets
`len` to 0. -/
def writeBlocks (addr : UInt16) (len : UInt32) (wbuf : Source Buffer) :
    Checked Buffer (List PageWrite) :=
  if len = 0 then .ok []
  else if 16 ≤ len then do
    let page ← eep_write_page wbuf addr 16
    let pages ← writeBlocks (addr + 16) (len - 16) (fun k => wbuf (16 + k))
    .ok (page :: pages)
  else do
    let page ← eep_write_page wbuf addr len.toUInt8
    .ok [page]
  termination_by len.toNat
  decreasing_by
    rename_i _ whole
    rw [UInt32.toNat_sub_of_le _ _ whole]
    have := UInt32.le_iff_toNat_le.mp whole
    simp only [UInt32.reduceToNat] at this ⊢
    omega

def fm11_write_eep (addr : UInt16) (len : UInt32) (wbuf : Source Buffer) :
    Checked Buffer (List PageWrite) :=
  if addr < FM11_E2_USER_ADDR ∨ FM11_E2_MANUF_ADDR ≤ addr then .ok []
  else if addr % 16 ≠ 0 then
    let offset : UInt8 := (16 - addr % 16).toUInt8
    if offset.toUInt32 < len then do
      let page ← eep_write_page wbuf addr offset
      let pages ← writeBlocks (addr + offset.toUInt16) (len - offset.toUInt32)
        (fun k => wbuf (offset.toNat + k))
      .ok (page :: pages)
    else do
      -- The loop is then left at once, since `len` is set to 0.
      let page ← eep_write_page wbuf addr len.toUInt8
      .ok [page]
  else writeBlocks addr len wbuf

theorem toNat_address (WriteAddr : UInt16) :
    ((WriteAddr &&& 0xFF00) >>> 8).toUInt8.toNat * 256 + (WriteAddr &&& 0x00FF).toUInt8.toNat =
      WriteAddr.toNat := by
  have bound := WriteAddr.toNat_lt
  have low : (WriteAddr &&& 0x00FF).toUInt8.toNat = WriteAddr.toNat % 256 := by
    rw [UInt16.toNat_toUInt8, UInt16.toNat_and]
    change (WriteAddr.toNat &&& (2 ^ 8 - 1)) % 256 = _
    rw [Nat.and_two_pow_sub_one_eq_mod, Nat.mod_mod]
  have high : ((WriteAddr &&& 0xFF00) >>> 8).toUInt8.toNat = WriteAddr.toNat / 256 := by
    rw [UInt16.toNat_toUInt8, UInt16.toNat_shiftRight, UInt16.toNat_and]
    change ((WriteAddr.toNat &&& 0xFF00) >>> 8) % 256 = _
    rw [Nat.shiftRight_and_distrib, Nat.shiftRight_eq_div_pow]
    change (WriteAddr.toNat / 256 &&& (2 ^ 8 - 1)) % 256 = _
    rw [Nat.and_two_pow_sub_one_eq_mod]
    omega
  omega

/-- The pages write the given bytes in order, each page into one block. -/
structure Cover (addr : UInt16) (bytes : Nat → UInt8) (len : Nat) (pages : List PageWrite) :
    Prop where
  written : pages.flatMap PageWrite.written = stretch (2 ^ 16) addr.toNat bytes len
  inOneBlock : ∀ page ∈ pages, page.InOneBlock

namespace Cover

variable {addr : UInt16} {bytes : Nat → UInt8} {first rest : Nat} {pages more : List PageWrite}

theorem nil : Cover addr bytes 0 [] :=
  ⟨rfl, fun _ membership => absurd membership List.not_mem_nil⟩

theorem append {next : UInt16} (before : Cover addr bytes first pages)
    (advanced : next.toNat = (addr.toNat + first) % 2 ^ 16)
    (after : Cover next (fun k => bytes (first + k)) rest more) :
    Cover addr bytes (first + rest) (pages ++ more) where
  written := by
    rw [List.flatMap_append, before.written, after.written, stretch_add, advanced, stretch_mod]
  inOneBlock := by
    intro page membership
    rcases List.mem_append.mp membership with earlier | later
    · exact before.inOneBlock page earlier
    · exact after.inOneBlock page later

end Cover

section Pages

variable (wbuf : Source Buffer) (bytes : Nat → UInt8)

variable {wbuf bytes} in
theorem c08i_nfc_i2c_write_eq {high low len : UInt8} (fits : len.toNat ≤ 62)
    (readable : ∀ k < len.toNat, wbuf k = .ok (bytes k)) :
    c08i_nfc_i2c_write high low wbuf len = .ok (high :: low :: (List.range len.toNat).map bytes) := by
  unfold c08i_nfc_i2c_write
  simp only [Block.write, show (0 : Nat) < 64 by decide, show (1 : Nat) < 64 by decide,
    dif_pos, ok_bind]
  rw [copy_eq_ok readable (by omega), ok_bind, readBytes_patch (by omega)]
  rfl

theorem eep_write_page_eq (WriteAddr : UInt16) (datalen : UInt8) (fits : datalen.toNat ≤ 62)
    (inside : WriteAddr.toNat + datalen.toNat ≤ 2 ^ 16)
    (readable : ∀ k < datalen.toNat, wbuf k = .ok (bytes k)) :
    ∃ page, eep_write_page wbuf WriteAddr datalen = .ok page ∧
      page.WriteAddr = WriteAddr ∧ page.datalen = datalen ∧
      page.written = stretch (2 ^ 16) WriteAddr.toNat bytes datalen.toNat := by
  refine ⟨_, by rw [eep_write_page, c08i_nfc_i2c_write_eq fits readable, ok_bind], rfl, rfl, ?_⟩
  rw [stretch_of_le inside]
  simp only [PageWrite.written, toNat_address, List.length_map, List.length_range]
  apply List.map_congr_left
  intro k membership
  have bound := List.mem_range.mp membership
  rw [← List.getElem_eq_getD (h := by simpa using bound), List.getElem_map, List.getElem_range]

theorem eep_write_page_cover (addr : UInt16) (datalen : UInt8) (nonzero : datalen.toNat ≠ 0)
    (room : addr.toNat % 16 + datalen.toNat ≤ 16)
    (readable : ∀ k < datalen.toNat, wbuf k = .ok (bytes k)) :
    ∃ page, eep_write_page wbuf addr datalen = .ok page ∧
      Cover addr bytes datalen.toNat [page] := by
  have bound := addr.toNat_lt
  obtain ⟨page, issued, start, length, written⟩ :=
    eep_write_page_eq wbuf bytes addr datalen (by omega) (by omega) readable
  refine ⟨page, issued, by simpa using written, ?_⟩
  intro other membership
  obtain rfl := List.mem_singleton.mp membership
  unfold PageWrite.InOneBlock FM11_E2_BLOCK_SIZE
  rw [start, length]
  omega

/-- The loop starts at a block and stays at blocks until its last page. -/
theorem writeBlocks_cover (addr : UInt16) (len : UInt32) (aligned : addr.toNat % 16 = 0)
    (readable : ∀ k < len.toNat, wbuf k = .ok (bytes k)) :
    ∃ pages, writeBlocks addr len wbuf = .ok pages ∧ Cover addr bytes len.toNat pages := by
  induction addr, len, wbuf using writeBlocks.induct generalizing bytes with
  | case1 addr wbuf => exact ⟨[], by rw [writeBlocks, if_pos rfl], Cover.nil⟩
  | case2 addr len wbuf more whole inductionHypothesis =>
      have enough : 16 ≤ len.toNat := UInt32.le_iff_toNat_le.mp whole
      have left : (len - 16).toNat = len.toNat - 16 := UInt32.toNat_sub_of_le _ _ whole
      have advanced : (addr + 16).toNat = (addr.toNat + 16) % 2 ^ 16 := UInt16.toNat_add addr 16
      obtain ⟨page, issued, head⟩ := eep_write_page_cover wbuf bytes addr 16 (by decide)
        (by rw [aligned]; decide) fun k inside => readable k (lt_of_lt_of_le inside enough)
      obtain ⟨pages, rest, tail⟩ := inductionHypothesis (fun k => bytes (16 + k))
        (by omega) fun k inside => readable (16 + k) (by omega)
      refine ⟨page :: pages, ?_, ?_⟩
      · rw [writeBlocks, if_neg more, if_pos whole, issued, ok_bind, rest, ok_bind]
      · have whole := head.append advanced tail
        rwa [left, show (16 : UInt8).toNat + (len.toNat - 16) = len.toNat by
          change 16 + (len.toNat - 16) = len.toNat; omega] at whole
  | case3 addr len wbuf more short =>
      have few : len.toNat < 16 := by
        have := mt UInt32.le_iff_toNat_le.mpr short
        exact not_le.mp this
      have positive : len.toNat ≠ 0 := fun zero => more (UInt32.toNat_inj.mp zero)
      have length : len.toUInt8.toNat = len.toNat := by
        rw [UInt32.toNat_toUInt8]
        omega
      obtain ⟨page, issued, last⟩ := eep_write_page_cover wbuf bytes addr len.toUInt8
        (by omega) (by omega) fun k inside => readable k (by omega)
      refine ⟨[page], ?_, length ▸ last⟩
      rw [writeBlocks, if_neg more, if_neg short, issued, ok_bind]

/-- Each way through the function starts at the given address, ends its head
at a block, and loses no byte. -/
theorem fm11_write_eep_cover {addr : UInt16} {len : UInt32}
    (user : ¬(addr < FM11_E2_USER_ADDR ∨ FM11_E2_MANUF_ADDR ≤ addr)) (nonzero : len.toNat ≠ 0)
    (readable : ∀ k < len.toNat, wbuf k = .ok (bytes k)) :
    ∃ pages, fm11_write_eep addr len wbuf = .ok pages ∧ Cover addr bytes len.toNat pages := by
  unfold fm11_write_eep
  rw [if_neg user]
  have phase : (addr % 16).toNat = addr.toNat % 16 := UInt16.toNat_mod addr 16
  by_cases unaligned : addr % 16 ≠ 0
  · rw [if_pos unaligned]
    have ahead : addr.toNat % 16 ≠ 0 := fun zero =>
      unaligned (UInt16.toNat_inj.mp (phase.trans zero))
    have within : (addr % 16).toNat ≤ (16 : UInt16).toNat := by
      change (addr % 16).toNat ≤ 16
      omega
    have offset : (16 - addr % 16).toUInt8.toNat = 16 - addr.toNat % 16 := by
      rw [UInt16.toNat_toUInt8, UInt16.toNat_sub_of_le _ _ (UInt16.le_iff_toNat_le.mpr within),
        phase]
      change (16 - addr.toNat % 16) % 256 = _
      omega
    generalize (16 - addr % 16).toUInt8 = headLength at offset
    simp only
    by_cases longer : headLength.toUInt32 < len
    · rw [if_pos longer]
      have enough : headLength.toNat < len.toNat := UInt32.lt_iff_toNat_lt.mp longer
      have left : (len - headLength.toUInt32).toNat = len.toNat - headLength.toNat := by
        rw [UInt32.toNat_sub_of_le _ _ (UInt32.le_of_lt longer), UInt8.toNat_toUInt32]
      have advanced :
          (addr + headLength.toUInt16).toNat = (addr.toNat + headLength.toNat) % 2 ^ 16 := by
        rw [UInt16.toNat_add, UInt8.toNat_toUInt16]
      obtain ⟨page, issued, head⟩ := eep_write_page_cover wbuf bytes addr headLength
        (by omega) (by omega) fun k inside => readable k (by omega)
      obtain ⟨pages, rest, tail⟩ := writeBlocks_cover (fun k => wbuf (headLength.toNat + k))
        (fun k => bytes (headLength.toNat + k)) (addr + headLength.toUInt16)
        (len - headLength.toUInt32)
        (by omega) fun k inside => readable (headLength.toNat + k) (by omega)
      refine ⟨page :: pages, by rw [issued, ok_bind, rest, ok_bind], ?_⟩
      have whole := head.append advanced tail
      rwa [left, show headLength.toNat + (len.toNat - headLength.toNat) = len.toNat by omega]
        at whole
    · rw [if_neg longer]
      have few : len.toNat ≤ headLength.toNat := by
        have := mt UInt32.lt_iff_toNat_lt.mpr longer
        rw [UInt8.toNat_toUInt32] at this
        exact not_lt.mp this
      have length : len.toUInt8.toNat = len.toNat := by
        rw [UInt32.toNat_toUInt8]
        omega
      obtain ⟨page, issued, only⟩ := eep_write_page_cover wbuf bytes addr len.toUInt8
        (by omega) (by omega) fun k inside => readable k (by omega)
      exact ⟨[page], by rw [issued, ok_bind], length ▸ only⟩
  · rw [if_neg unaligned]
    have aligned : addr.toNat % 16 = 0 := by
      rw [← phase, not_not.mp unaligned]
      rfl
    exact writeBlocks_cover wbuf bytes addr len aligned readable

theorem fm11_write_eep_nothing (addr : UInt16) :
    ∃ pages, fm11_write_eep addr 0 wbuf = .ok pages ∧ pages.flatMap PageWrite.written = [] := by
  unfold fm11_write_eep
  split
  · exact ⟨[], rfl, rfl⟩
  · split
    · obtain ⟨page, issued, _, _, written⟩ := eep_write_page_eq wbuf (fun _ => 0) addr 0
        (by decide) (le_of_lt addr.toNat_lt)
        fun k inside => absurd inside (Nat.not_lt_zero k)
      refine ⟨[page], ?_, by simpa using written⟩
      rw [if_neg (UInt32.not_lt_zero), show (0 : UInt32).toUInt8 = 0 from rfl, issued, ok_bind]
    · exact ⟨[], by rw [writeBlocks, if_pos rfl], rfl⟩

end Pages

/-- A write into the user area is cut into pages that store every byte of the
buffer at its place, once and in order, and each page keeps to one block. -/
theorem fm11_write_eep_exact {addr : UInt16} {len : UInt32} {wbuf : List UInt8}
    (user : 0x10 ≤ addr.toNat ∧ addr.toNat < 0x3FF) (nonempty : 1 ≤ len.toNat)
    (inside : addr.toNat + len.toNat ≤ 65536) (whole : wbuf.length = len.toNat) :
    ∃ pages, fm11_write_eep addr len (listSource .wbuf wbuf) = .ok pages ∧
      pages.flatMap PageWrite.written =
        (List.range len.toNat).map (fun k => (addr.toNat + k, wbuf.getD k 0)) ∧
      ∀ page ∈ pages, page.InOneBlock := by
  have allowed : ¬(addr < FM11_E2_USER_ADDR ∨ FM11_E2_MANUF_ADDR ≤ addr) := by
    rintro (below | above)
    · exact absurd (UInt16.lt_iff_toNat_lt.mp below) (not_lt.mpr user.1)
    · exact absurd (UInt16.le_iff_toNat_le.mp above) (not_le.mpr user.2)
  obtain ⟨pages, issued, cover⟩ := fm11_write_eep_cover (listSource .wbuf wbuf)
    (fun k => wbuf.getD k 0) allowed (by omega)
    fun k bound => listSource_eq Buffer.wbuf (whole ▸ bound)
  exact ⟨pages, issued, cover.written.trans (stretch_of_le inside), cover.inOneBlock⟩

/-- A head of one byte, one block and a tail of two bytes. -/
theorem fm11_write_eep_exact_three_pages :
    ∃ pages, fm11_write_eep 0x1F 19 (listSource .wbuf (List.replicate 19 0xA5)) = .ok pages ∧
      pages.flatMap PageWrite.written =
        (List.range 19).map (fun k => (0x1F + k, (List.replicate 19 0xA5).getD k 0)) ∧
      ∀ page ∈ pages, page.InOneBlock :=
  fm11_write_eep_exact (by decide) (by decide) (by decide) (by decide)

section UserArea

variable {addr : UInt16} {len : UInt32} {pages : List PageWrite}

theorem inUserArea_iff :
    (∀ page ∈ pages, page.InUserArea) ↔
      ∀ place byte, (place, byte) ∈ pages.flatMap PageWrite.written →
        FM11_E2_USER_ADDR.toNat ≤ place ∧ place < FM11_E2_MANUF_ADDR.toNat := by
  constructor
  · intro safe place byte membership
    obtain ⟨page, issued, written⟩ := List.mem_flatMap.mp membership
    exact safe page issued place byte written
  · intro safe page issued place byte written
    exact safe place byte (List.mem_flatMap.mpr ⟨page, issued, written⟩)

/-- Only the start is compared with the bounds, so the bytes stay below the
manufacturer area exactly when the last one does. -/
theorem Cover.inUserArea_iff {bytes : Nat → UInt8}
    (user : ¬(addr < FM11_E2_USER_ADDR ∨ FM11_E2_MANUF_ADDR ≤ addr))
    (cover : Cover addr bytes len.toNat pages) :
    (∀ page ∈ pages, page.InUserArea) ↔ addr.toNat + len.toNat ≤ FM11_E2_MANUF_ADDR.toNat := by
  obtain ⟨above, below⟩ := not_or.mp user
  have above : 0x10 ≤ addr.toNat := not_lt.mp fun low =>
    above (UInt16.lt_iff_toNat_lt.mpr low)
  have below : addr.toNat < 0x3FF := not_le.mp fun high =>
    below (UInt16.le_iff_toNat_le.mpr high)
  have first : FM11_E2_USER_ADDR.toNat = 0x10 := rfl
  have last : FM11_E2_MANUF_ADDR.toNat = 0x3FF := rfl
  rw [Eeprom.inUserArea_iff, cover.written]
  constructor
  · intro safe
    by_contra reached
    have touched : (0x3FF, bytes (0x3FF - addr.toNat)) ∈
        stretch (2 ^ 16) addr.toNat bytes len.toNat :=
      mem_stretch.mpr ⟨0x3FF - addr.toNat, by omega, by omega, rfl⟩
    exact absurd (safe _ _ touched).2 (by omega)
  · intro fits place byte membership
    obtain ⟨k, inside, same, _⟩ := mem_stretch.mp membership
    omega

end UserArea

/-- Every byte written lies in the user area exactly when the guard turns the
write away or the write ends before the manufacturer area. -/
theorem fm11_write_eep_inUserArea_iff (addr : UInt16) (len : UInt32) (wbuf : Nat → UInt8) :
    (∃ pages, fm11_write_eep addr len (fun k => .ok (wbuf k)) = .ok pages ∧
        ∀ page ∈ pages, page.InUserArea) ↔
      addr < FM11_E2_USER_ADDR ∨ FM11_E2_MANUF_ADDR ≤ addr ∨
        addr.toNat + len.toNat ≤ FM11_E2_MANUF_ADDR.toNat := by
  rw [← or_assoc]
  by_cases refused : addr < FM11_E2_USER_ADDR ∨ FM11_E2_MANUF_ADDR ≤ addr
  · have silent : fm11_write_eep addr len (fun k => .ok (wbuf k)) = .ok [] := if_pos refused
    exact iff_of_true ⟨[], silent, by simp⟩ (Or.inl refused)
  · rw [or_iff_right refused]
    by_cases nothing : len.toNat = 0
    · obtain rfl : len = 0 := UInt32.toNat_inj.mp nothing
      obtain ⟨pages, issued, written⟩ := fm11_write_eep_nothing (fun k => .ok (wbuf k)) addr
      have below := UInt16.lt_iff_toNat_lt.mp (UInt16.not_le.mp (not_or.mp refused).2)
      exact iff_of_true ⟨pages, issued, inUserArea_iff.mpr (by simp [written])⟩ (le_of_lt below)
    · obtain ⟨pages, issued, cover⟩ := fm11_write_eep_cover (fun k => .ok (wbuf k)) wbuf refused nothing
        fun _ _ => rfl
      simp only [issued, Except.ok.injEq, exists_eq_left']
      exact cover.inUserArea_iff refused

/-- The block from 0x3F0 on: its last byte is the first of the manufacturer area. -/
theorem fm11_write_eep_not_inUserArea :
    ∃ pages, fm11_write_eep 0x3F0 16 (fun _ => .ok 0) = .ok pages ∧
      ¬∀ page ∈ pages, page.InUserArea := by
  obtain ⟨pages, issued, cover⟩ := fm11_write_eep_cover (fun _ => .ok 0) (fun _ => 0)
    (show ¬((0x3F0 : UInt16) < FM11_E2_USER_ADDR ∨ FM11_E2_MANUF_ADDR ≤ 0x3F0) by decide)
    (show (16 : UInt32).toNat ≠ 0 by decide) fun _ _ => rfl
  refine ⟨pages, issued, fun safe => ?_⟩
  have inside := (cover.inUserArea_iff (by decide)).mp safe
  exact absurd inside (by decide)

end WifiIot.Nfc.Eeprom
