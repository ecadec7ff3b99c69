import WifiIot.Nfc.Spec

/-!
# Which frames stay inside the arrays

Offset and length of a READ or an UPDATE come from the frame and are not
compared with the size of the file.  An NDEF reply of 253 bytes stays inside
`xbuf`, but its length does not fit into `xlen`.
-/

namespace WifiIot.Nfc

open Memory

/-- The requests that the arrays, and the length of the reply, have room for. -/
def Tag.Fits (tag : Tag) : Prop :=
  (tag.ins = 0xB0 → tag.current_file = .CC_FILE → tag.Inside 15) ∧
  (tag.ins = 0xB0 → tag.current_file = .NDEF_FILE → tag.lc.toNat ≤ 252 ∧ tag.Inside 1024) ∧
  (tag.ins = 0xD6 → tag.Inside 1024)

def Tag.Reads (tag : Tag) : Prop := tag.ins = 0xB0 ∧ tag.current_file ≠ .NONE

section

variable {tag : Tag}

theorem Tag.Fits.inBounds (fits : tag.Fits) : tag.InBounds := by
  refine ⟨fits.1, fun read ndef => ?_, fits.2.2⟩
  obtain ⟨small, inside⟩ := fits.2.1 read ndef
  exact ⟨by omega, inside⟩

theorem length_window {size : Nat} (file : Block size) :
    (tag.window file).length = tag.lc.toNat := by
  simp only [Tag.window, List.length_map, List.length_range]

theorem toNat_xlen (small : tag.lc.toNat ≤ 252) : (tag.lc + 3).toNat = tag.lc.toNat + 3 := by
  have three : (3 : UInt8).toNat = 3 := rfl
  rw [UInt8.toNat_add, three]
  omega

theorem Tag.Fits.length_answer (fits : tag.Fits) (reads : tag.Reads) :
    tag.answer.length = 1 + tag.lc.toNat + 2 := by
  obtain ⟨read, selected⟩ := reads
  rw [Tag.answer, if_neg (by rw [read]; decide), if_pos read]
  cases current : tag.current_file with
  | NONE => exact absurd current selected
  | CC_FILE => simp only [List.cons_append, List.length_cons, List.length_append, length_window,
      List.length_nil]; omega
  | NDEF_FILE =>
      have width := toNat_xlen (fits.2.1 read current).1
      simp only [List.cons_append, List.length_take, List.length_cons, List.length_append,
        length_window, List.length_nil, width]
      omega

/-- With LC 253 the whole length wraps to 0, and the reply is empty. -/
theorem answer_eq_nil (read : tag.ins = 0xB0) (ndef : tag.current_file = .NDEF_FILE)
    (wraps : tag.lc.toNat = 253) : tag.answer = [] := by
  have width : (tag.lc + 3).toNat = 0 := by
    have three : (3 : UInt8).toNat = 3 := rfl
    rw [UInt8.toNat_add, three, wraps]
  rw [Tag.answer, if_neg (by rw [read]; decide), if_pos read, ndef]
  simp only [width, List.take_zero]

end

/-- Every access of a frame stays inside its array, and every reply to a READ
has a byte for the PCB, the LC data bytes and two status bytes, exactly on the
requests that there is room for. -/
theorem bounds_iff (tag : Tag) (readings : List UInt8) :
    ((∃ outcome, fm11_t4t tag readings = .ok outcome) ∧
      ∀ outcome, fm11_t4t tag readings = .ok outcome → outcome.sent.returned = true →
        tag.Reads → (reply outcome.sent.bus).length = 1 + tag.lc.toNat + 2) ↔
    tag.Fits := by
  constructor
  · rintro ⟨⟨outcome, processed⟩, exact⟩
    have bounds := inBounds_of_ok tag processed
    refine ⟨bounds.1, fun read ndef => ?_, bounds.2.2⟩
    obtain ⟨small, inside⟩ := bounds.2.1 read ndef
    refine ⟨?_, inside⟩
    by_contra large
    obtain ⟨sent, sends, replied, returned⟩ := fm11_t4t_spec tag readings bounds
    have empty := answer_eq_nil read ndef (by omega)
    rw [empty] at replied returned
    have length := exact _ sends (returned.mpr (Nat.zero_le _)) ⟨read, by rw [ndef]; decide⟩
    rw [replied] at length
    simp only [List.take_nil, List.length_nil] at length
    omega
  · intro fits
    obtain ⟨sent, sends, replied, returned⟩ := fm11_t4t_spec tag readings fits.inBounds
    refine ⟨⟨_, sends⟩, ?_⟩
    intro outcome processed finished reads
    obtain rfl : Outcome.mk tag.next sent = outcome := Except.ok.inj (sends.symm.trans processed)
    rw [replied, List.take_of_length_le (returned.mp finished), fits.length_answer reads]

def selectRequest (id : UInt8) : Request :=
  ⟨0x02, 0x00, 0xA4, 0x00, 0x0C, 0x02, [0xE1, id], (0, 0), by simp⟩

def readRequest (p1 p2 lc : UInt8) : Request :=
  ⟨0x02, 0x00, 0xB0, p1, p2, lc, [], (0, 0), by simp⟩

/-- A READ of the container at offset 256 leaves it, and a READ of 253 NDEF
bytes is answered with nothing. -/
theorem bounds_broken :
    (∃ tag log, machine.Run (boot fun _ => 0) [((selectRequest 0x03).frame, [])] tag log ∧
      fm11_t4t (tag.receive (readRequest 0x01 0x00 0x01).frame) [] =
        .error ⟨.capability_container, 256, .read⟩) ∧
    ∃ tag, machine.Run (boot fun _ => 0)
      [((selectRequest 0x04).frame, []), ((readRequest 0x00 0x00 0xFD).frame, [])] tag
        [[0x02, 0x90, 0x00], []] := by
  constructor
  · refine ⟨_, _, .single rfl, ?_⟩
    rfl
  · obtain ⟨tag, log, run, seen⟩ := machine.exists_run_of_exec Prod.snd (boot fun _ => 0)
      [((selectRequest 0x04).frame, []), ((readRequest 0x00 0x00 0xFD).frame, [])]
      [[0x02, 0x90, 0x00], []]
      (by decide +kernel)
    simp only at seen
    exact ⟨tag, seen ▸ run⟩

end WifiIot.Nfc
