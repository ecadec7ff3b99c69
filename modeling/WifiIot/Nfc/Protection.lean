import WifiIot.Nfc.Spec

/-!
# Who may write the NDEF file

READ answers from the file that was selected; UPDATE writes the NDEF file
whatever is selected, takes LC on trust and reads the missing data bytes of a
short frame from what earlier frames left in the buffer.
-/

namespace WifiIot.Nfc

open Memory

/-- A complete UPDATE BINARY that arrives while the NDEF file is selected and
ends inside of it. -/
def Tag.Authorised (tag : Tag) : Prop :=
  tag.ins = 0xD6 ∧ tag.current_file = .NDEF_FILE ∧ DATA + tag.lc.toNat ≤ tag.rfLen.toNat ∧
    tag.off + tag.lc.toNat ≤ 1024

/-- The frame in the buffer changes the file only with authority, and then only
the bytes that it addresses.  A frame that faults must not have left the file
by writing. -/
def Protected (tag : Tag) (readings : List UInt8) : Prop :=
  match fm11_t4t tag readings with
  | .ok outcome =>
      outcome.tag.ndef_file ≠ tag.ndef_file →
        tag.Authorised ∧ ∀ i : Fin 1024, outcome.tag.ndef_file i =
          if tag.off ≤ i.val ∧ i.val < tag.off + tag.lc.toNat then tag.data (i.val - tag.off)
          else tag.ndef_file i
  | .error fault => ¬(fault.array = .ndef_file ∧ fault.access = .write)

/-- An UPDATE that stays inside the file, and that either meets the remaining
conditions or writes what is there already. -/
def Tag.Harmless (tag : Tag) : Prop :=
  tag.ins = 0xD6 → tag.Inside 1024 ∧
    ((tag.current_file = .NDEF_FILE ∧ DATA + tag.lc.toNat ≤ tag.rfLen.toNat) ∨
      ∀ k < tag.lc.toNat, tag.data k = tag.ndef_file.byteAt (tag.off + k))

section Avoiding

abbrev Spares {Value : Type} (computation : Checked Buffer Value) : Prop :=
  Avoids .ndef_file .write computation

variable {source : Source Buffer}

theorem write_fifo_data_spares (reads : ∀ k, Spares (source k)) (len : UInt8) :
    Spares (write_fifo_data source len) := by
  unfold write_fifo_data
  apply Avoids.bind
  · exact .write _ _ _ (by decide)
  intro cmd
  apply Avoids.bind
  · exact .write _ _ _ (by decide)
  intro cmd
  apply Avoids.bind
  · exact .copy reads (by decide) _ _ _
  intro cmd
  exact .readBytes (.read cmd) _

theorem sendLoop_spares (reads : ∀ k, Spares (source k)) (readings : List UInt8)
    (sbuf slen : Nat) : Spares (sendLoop source sbuf slen readings) := by
  have writes (sbuf : Nat) (len : UInt8) :
      Spares (fm11_write_fifo (fun k => source (sbuf + k)) len) :=
    write_fifo_data_spares (fun k => reads (sbuf + k)) len
  induction readings generalizing sbuf slen with
  | nil => exact .ok _
  | cons reading readings inductionHypothesis =>
      unfold sendLoop
      split
      · exact .ok _
      split
      · split
        · exact (writes _ _).bind fun _ => .ok _
        · exact (writes _ _).bind fun _ => (inductionHypothesis _ _).bind fun _ => .ok _
      · exact inductionHypothesis _ _

theorem fm11_data_send_spares (reads : ∀ k, Spares (source k)) (ilen : Nat)
    (readings : List UInt8) : Spares (fm11_data_send ilen source readings) := by
  unfold fm11_data_send
  split
  · exact (write_fifo_data_spares reads _).bind fun _ => .ok _
  · exact (write_fifo_data_spares reads _).bind fun _ =>
      (sendLoop_spares reads readings _ _).bind fun _ => .ok _

theorem readContainer_spares (tag : Tag) (pcb : UInt8) : Spares (readContainer tag pcb) := by
  unfold readContainer
  rw [tag.offset_eq, tag.fifo_lc]
  apply Avoids.bind
  · exact write_fifo_data_spares (.read _) _
  intro first
  simp only [ok_bind]
  apply Avoids.bind
  · exact write_fifo_data_spares (fun k => .read _ _) _
  intro second
  apply Avoids.bind
  · exact write_fifo_data_spares (fun k => .read _ _) _
  exact fun third => .ok _

theorem readNdef_spares (tag : Tag) (pcb : UInt8) (readings : List UInt8) :
    Spares (readNdef tag pcb readings) := by
  unfold readNdef
  rw [tag.offset_eq, tag.fifo_lc]
  apply Avoids.bind
  · exact .copy (.read _) (by decide) _ _ _
  intro xbuf
  simp only [ok_bind]
  apply Avoids.bind
  · exact .copy (fun k => .read _ _) (by decide) _ _ _
  intro xbuf
  apply Avoids.bind
  · exact .copy (fun k => .read _ _) (by decide) _ _ _
  intro xbuf
  exact (fm11_data_send_spares (.read _) _ _).bind fun _ => .ok _

theorem fm11_t4t_spares (tag : Tag) (readings : List UInt8) (other : tag.ins ≠ 0xD6) :
    Spares (fm11_t4t tag readings) := by
  by_cases bounds : tag.InBounds
  · obtain ⟨sent, processed, -⟩ := fm11_t4t_spec tag readings bounds
    rw [processed]
    exact .ok _
  · -- Out of bounds and no UPDATE: it is a READ of a selected file.
    have read : tag.ins = 0xB0 := by
      by_contra noRead
      exact bounds ⟨fun read => absurd read noRead, fun read => absurd read noRead,
        fun update => absurd update other⟩
    unfold fm11_t4t
    rw [tag.fifo_pcb, ok_bind, tag.fifo_ins, ok_bind, if_neg (by rw [read]; decide), if_pos read]
    cases tag.current_file with
    | NONE =>
        rw [sendStatus_eq]
        exact .ok _
    | CC_FILE => exact readContainer_spares tag _
    | NDEF_FILE => exact readNdef_spares tag _ readings

end Avoiding

section Updating

variable {tag : Tag}

theorem update_overruns (update : tag.ins = 0xD6) (outside : ¬tag.Inside 1024)
    (readings : List UInt8) :
    ∃ index, fm11_t4t tag readings = .error ⟨.ndef_file, index, .write⟩ := by
  obtain ⟨index, failed⟩ : ∃ index,
      copy .ndef_file (fun k => tag.fifo (DATA + k)) tag.ndef_file tag.off tag.lc.toNat =
        .error ⟨.ndef_file, index, .write⟩ := by
    unfold Tag.Inside at outside
    exact copy_eq_error (fun k bound => tag.fifo_data bound) (by omega) (by omega)
  refine ⟨index, ?_⟩
  unfold fm11_t4t
  rw [tag.fifo_pcb, ok_bind, tag.fifo_ins, ok_bind, if_neg (by rw [update]; decide),
    if_neg (by rw [update]; decide), if_pos update]
  simp only [updateBinary, tag.readBytes_fifo, failed, tag.offset_eq, tag.fifo_lc, ok_bind, error_bind]

/-- On an UPDATE inside the file, protection comes down to the rest of the
authority, or to nothing being changed. -/
theorem protected_update_iff (update : tag.ins = 0xD6) (inside : tag.Inside 1024)
    (readings : List UInt8) :
    Protected tag readings ↔
      (tag.current_file = .NDEF_FILE ∧ DATA + tag.lc.toNat ≤ tag.rfLen.toNat) ∨
        ∀ k < tag.lc.toNat, tag.data k = tag.ndef_file.byteAt (tag.off + k) := by
  have bounds : tag.InBounds :=
    ⟨fun read => absurd (update.symm.trans read) (by decide),
      fun read => absurd (update.symm.trans read) (by decide), fun _ => inside⟩
  obtain ⟨sent, processed, -⟩ := fm11_t4t_spec tag readings bounds
  unfold Protected
  rw [processed]
  simp only [next_ndef_file_of_update update]
  by_cases empty : tag.lc.toNat = 0
  · simp [empty]
  have fits : tag.off + tag.lc.toNat ≤ 1024 := inside.resolve_left empty
  rw [← Block.patch_eq_self_iff fits]
  constructor
  · intro guarded
    by_cases same : tag.ndef_file.patch tag.off tag.lc.toNat tag.data = tag.ndef_file
    · exact .inr same
    · obtain ⟨-, selected, complete, -⟩ := (guarded same).1
      exact .inl ⟨selected, complete⟩
  · rintro (⟨selected, complete⟩ | same) changed
    · exact ⟨⟨update, selected, complete, fits⟩, fun i => rfl⟩
    · exact absurd same changed

theorem protected_iff (tag : Tag) (readings : List UInt8) :
    Protected tag readings ↔ tag.Harmless := by
  unfold Tag.Harmless
  by_cases update : tag.ins = 0xD6
  · by_cases inside : tag.Inside 1024
    · rw [protected_update_iff update inside readings]
      simp [update, inside]
    · obtain ⟨index, failed⟩ := update_overruns update inside readings
      unfold Protected
      rw [failed]
      simp [update, inside]
  · refine iff_of_true ?_ (fun absurdly => absurd absurdly update)
    unfold Protected
    cases result : fm11_t4t tag readings with
    | ok outcome =>
        obtain ⟨sent, processed, -⟩ := fm11_t4t_spec tag readings (inBounds_of_ok tag result)
        obtain rfl : Outcome.mk tag.next sent = outcome :=
          Except.ok.inj (processed.symm.trans result)
        exact fun changed => absurd (next_ndef_file_of_ne update) changed
    | error fault =>
        rintro ⟨array, access⟩
        refine fm11_t4t_spares tag readings update fault.index ?_
        rw [result, ← array, ← access]

end Updating

def updateRequest (p1 p2 byte : UInt8) : Request :=
  ⟨0x02, 0x00, 0xD6, p1, p2, 0x01, [byte], (0, 0), by simp⟩

end WifiIot.Nfc
