import WifiIot.Nfc.Bounds

/-!
# What was written is read back

A reader that keeps to the limits of the capability container, 0xF6 bytes a
frame, and to the 1024 bytes of the file.
-/

namespace WifiIot.Nfc

open Memory

structure Update where
  pcb : UInt8
  cla : UInt8
  off : Nat
  data : List UInt8
  crc : UInt8 × UInt8
  nonempty : 0 < data.length
  small : data.length ≤ 0xF6
  inside : off + data.length ≤ 1024

structure Read where
  pcb : UInt8
  cla : UInt8
  off : Nat
  len : Nat
  crc : UInt8 × UInt8
  nonempty : 0 < len
  small : len ≤ 0xF6
  inside : off + len ≤ 1024

theorem off_receive {request : Request} {tag : Tag} {off : Nat} (inside : off < 1024)
    (high : request.p1 = UInt8.ofNat (off / 256)) (low : request.p2 = UInt8.ofNat (off % 256)) :
    (tag.receive request.frame).off = off := by
  rw [Tag.off, Request.p1_receive, Request.p2_receive, high, low, toNat_ofNat (by omega),
    toNat_ofNat (by omega)]
  omega

namespace Update

def request (update : Update) : Request where
  pcb := update.pcb
  cla := update.cla
  ins := 0xD6
  p1 := UInt8.ofNat (update.off / 256)
  p2 := UInt8.ofNat (update.off % 256)
  lc := UInt8.ofNat update.data.length
  body := update.data
  crc := update.crc
  fits := le_trans update.small (by decide)

def apply (update : Update) (file : Block 1024) : Block 1024 :=
  file.patch update.off update.data.length fun k => update.data.getD k 0

def after (update : Update) (tag : Tag) : Tag :=
  { tag.receive update.request.frame with ndef_file := update.apply tag.ndef_file }

variable (update : Update) (tag : Tag)

theorem lc_receive : (tag.receive update.request.frame).lc.toNat = update.data.length := by
  have small := update.small
  rw [Request.lc_receive, request, toNat_ofNat (by omega)]

theorem off_receive : (tag.receive update.request.frame).off = update.off := by
  have nonempty := update.nonempty
  have inside := update.inside
  exact Nfc.off_receive (by omega) rfl rfl

theorem step_eq (readings : List UInt8) :
    machine.step tag (update.request.frame, readings) =
      some (update.after tag, [[update.pcb, 0x90, 0x00]]) := by
  have isUpdate : (tag.receive update.request.frame).ins = 0xD6 := Request.ins_receive _ _
  have bounds : (tag.receive update.request.frame).InBounds :=
    ⟨fun read => absurd (isUpdate.symm.trans read) (by decide),
      fun read => absurd (isUpdate.symm.trans read) (by decide),
      fun _ => .inr (by rw [off_receive, lc_receive]; exact update.inside)⟩
  have answered : (tag.receive update.request.frame).answer = [update.pcb, 0x90, 0x00] := by
    rw [Tag.answer, if_neg (by rw [isUpdate]; decide), if_neg (by rw [isUpdate]; decide),
      if_pos isUpdate, Request.pcb_receive]
    rfl
  have written : (tag.receive update.request.frame).next = update.after tag := by
    rw [Tag.next, if_neg (by rw [isUpdate]; decide), if_pos isUpdate, off_receive, lc_receive,
      after]
    congr 1
    exact Block.patch_congr fun k inside _ => Request.data_receive _ _ inside
  have taken : ([update.pcb, 0x90, 0x00] : List UInt8).length ≤ capacity readings :=
    le_trans (by decide : 3 ≤ 32) (Nat.le_add_right 32 _)
  change process _ _ = _
  rw [process_eq tag _ readings bounds, answered, if_pos taken, written]

theorem apply_of_covered (file : Block 1024) {i : Nat} (covered : update.off ≤ i)
    (before : i < update.off + update.data.length) :
    (update.apply file).byteAt i = update.data.getD (i - update.off) 0 := by
  have inside := update.inside
  rw [apply, Block.byteAt_patch (by omega), if_pos ⟨covered, before⟩]

theorem apply_of_not_covered (file : Block 1024) {i : Nat} (inside : i < 1024)
    (outside : ¬(update.off ≤ i ∧ i < update.off + update.data.length)) :
    (update.apply file).byteAt i = file.byteAt i := by
  rw [apply, Block.byteAt_patch inside, if_neg outside]

end Update

namespace Read

def request (read : Read) : Request where
  pcb := read.pcb
  cla := read.cla
  ins := 0xB0
  p1 := UInt8.ofNat (read.off / 256)
  p2 := UInt8.ofNat (read.off % 256)
  lc := UInt8.ofNat read.len
  body := []
  crc := read.crc
  fits := Nat.zero_le _

def slice (read : Read) (file : Block 1024) : List UInt8 :=
  (List.range read.len).map fun k => file.byteAt (read.off + k)

variable (read : Read) (tag : Tag)

theorem lc_receive : (tag.receive read.request.frame).lc.toNat = read.len := by
  have small := read.small
  rw [Request.lc_receive, request, toNat_ofNat (by omega)]

theorem off_receive : (tag.receive read.request.frame).off = read.off := by
  have nonempty := read.nonempty
  have inside := read.inside
  exact Nfc.off_receive (by omega) rfl rfl

theorem step_eq (selected : tag.current_file = .NDEF_FILE) (readings : List UInt8) :
    machine.step tag (read.request.frame, readings) =
      if read.len + 3 ≤ capacity readings then
        some (tag.receive read.request.frame,
          [read.pcb :: read.slice tag.ndef_file ++ [0x90, 0x00]])
      else none := by
  have isRead : (tag.receive read.request.frame).ins = 0xB0 := Request.ins_receive _ _
  have current : (tag.receive read.request.frame).current_file = .NDEF_FILE := selected
  have small := read.small
  have fits : (tag.receive read.request.frame).Fits :=
    ⟨fun _ container => absurd (current.symm.trans container) (by decide),
      fun _ _ => ⟨by rw [lc_receive]; omega,
        .inr (by rw [off_receive, lc_receive]; exact read.inside)⟩,
      fun update => absurd (isRead.symm.trans update) (by decide)⟩
  have length := fits.length_answer ⟨isRead, by rw [current]; decide⟩
  rw [lc_receive] at length
  have answered : (tag.receive read.request.frame).answer =
      read.pcb :: read.slice tag.ndef_file ++ [0x90, 0x00] := by
    rw [Tag.answer, if_neg (by rw [isRead]; decide), if_pos isRead, current]
    simp only [Request.pcb_receive, Tag.window, off_receive, lc_receive]
    rw [toNat_xlen (by rw [lc_receive]; omega), lc_receive, List.take_of_length_le]
    · rfl
    · simp only [List.cons_append, List.length_cons, List.length_append, List.length_map,
        List.length_range, List.length_nil]
      omega
  have unchanged : (tag.receive read.request.frame).next = tag.receive read.request.frame := by
    rw [Tag.next, if_neg (by rw [isRead]; decide), if_neg (by rw [isRead]; decide)]
  change process _ _ = _
  rw [process_eq tag _ readings fits.inBounds, length, answered, unchanged]
  congr 1
  rw [show 1 + read.len + 2 = read.len + 3 by omega]

end Read

/-- The frames of a reader's session, each with the FIFO levels read while it
is answered. -/
def updateInputs (updates : List (Update × List UInt8)) : List (Frame × List UInt8) :=
  updates.map fun update => (update.1.request.frame, update.2)

def readInputs (reads : List (Read × List UInt8)) : List (Frame × List UInt8) :=
  reads.map fun read => (read.1.request.frame, read.2)

def Update.Carries (file : List UInt8) (update : Update) : Prop :=
  update.data = (file.drop update.off).take update.data.length

def Update.Covers (update : Update) (i : Nat) : Prop :=
  update.off ≤ i ∧ i < update.off + update.data.length

theorem getD_data {file : List UInt8} {update : Update} (carries : update.Carries file) {i : Nat}
    (covered : update.Covers i) : update.data.getD (i - update.off) 0 = file.getD i 0 := by
  have inside : i - update.off < update.data.length := by
    obtain ⟨reached, before⟩ := covered
    omega
  rw [carries]
  simp only [List.getD_eq_getElem?_getD, List.getElem?_take, inside, if_true, List.getElem?_drop,
    Nat.add_sub_cancel' covered.1]

/-- Updates that carry parts of a file leave its bytes wherever one of them
reaches, and wherever the bytes were right before. -/
theorem run_updates (file : List UInt8) (updates : List (Update × List UInt8))
    (carry : ∀ update ∈ updates, update.1.Carries file) (tag : Tag) :
    ∃ last, machine.Run tag (updateInputs updates) last
        (updates.map fun update => [update.1.pcb, 0x90, 0x00]) ∧
      last.current_file = tag.current_file ∧
      ∀ i < 1024, (tag.ndef_file.byteAt i = file.getD i 0 ∨
          ∃ update ∈ updates, update.1.Covers i) →
        last.ndef_file.byteAt i = file.getD i 0 := by
  induction updates generalizing tag with
  | nil =>
      refine ⟨tag, .refl, rfl, fun i _ right => ?_⟩
      simpa using right
  | cons update updates inductionHypothesis =>
      obtain ⟨last, run, selected, stored⟩ := inductionHypothesis
        (fun later membership => carry later (List.mem_cons_of_mem _ membership))
        (update.1.after tag)
      refine ⟨last, ?_, selected, ?_⟩
      · exact Machine.run_cons_iff.mpr ⟨_, _, _, update.1.step_eq tag update.2, run, rfl⟩
      · intro i inside right
        apply stored i inside
        by_cases covered : update.1.Covers i
        · apply Or.inl
          refine (update.1.apply_of_covered _ covered.1 covered.2).trans ?_
          exact getD_data (carry update List.mem_cons_self) covered
        · rcases right with before | ⟨later, membership, reaches⟩
          · apply Or.inl
            exact (update.1.apply_of_not_covered _ inside covered).trans before
          · rcases List.mem_cons.mp membership with rfl | membership
            · exact absurd reaches covered
            · exact .inr ⟨later, membership, reaches⟩

/-- A session of reads goes through exactly if the chip takes every reply, and
the replies are the slices of the file. -/
theorem run_reads_iff (reads : List (Read × List UInt8)) (tag : Tag)
    (selected : tag.current_file = .NDEF_FILE) (log : List (List UInt8)) :
    (∃ last, machine.Run tag (readInputs reads) last log) ↔
      (∀ read ∈ reads, read.1.len + 3 ≤ capacity read.2) ∧
        log = reads.map fun read =>
          read.1.pcb :: read.1.slice tag.ndef_file ++ [0x90, 0x00] := by
  induction reads generalizing tag log with
  | nil => simp [readInputs, Machine.run_nil_iff]
  | cons read reads inductionHypothesis =>
      have later := inductionHypothesis (tag.receive read.1.request.frame) selected
      simp only [readInputs, List.map_cons, Machine.run_cons_iff, read.1.step_eq tag selected,
        List.forall_mem_cons]
      by_cases taken : read.1.len + 3 ≤ capacity read.2
      · simp only [taken, if_true, Option.some.injEq, Prod.mk.injEq, true_and]
        constructor
        · rintro ⟨last, next, emitted, rest, ⟨rfl, rfl⟩, run, rfl⟩
          obtain ⟨all, rfl⟩ := (later rest).mp ⟨last, run⟩
          exact ⟨all, rfl⟩
        · rintro ⟨all, rfl⟩
          obtain ⟨last, run⟩ := (later _).mpr ⟨all, rfl⟩
          exact ⟨last, _, _, _, ⟨rfl, rfl⟩, run, rfl⟩
      · simp [taken]

theorem slice_eq {file : List UInt8} {block : Block 1024} (read : Read)
    (within : read.off + read.len ≤ file.length)
    (stored : ∀ i < file.length, block.byteAt i = file.getD i 0) :
    read.slice block = (file.drop read.off).take read.len := by
  have length : read.len ≤ (file.drop read.off).length := by
    rw [List.length_drop]
    omega
  apply map_range_eq_take length
  intro k inside
  rw [stored _ (by omega)]
  simp only [List.getD_eq_getElem?_getD, List.getElem?_drop]

theorem Update.step_read {tag : Tag} (update : Update) (selected : tag.current_file = .NDEF_FILE)
    (read : Read) (levels : List UInt8) (sameOffset : read.off = update.off)
    (sameLength : read.len = update.data.length) :
    machine.step (update.after tag) (read.request.frame, levels) =
      if read.len + 3 ≤ capacity levels then
        some ((update.after tag).receive read.request.frame,
          [read.pcb :: update.data ++ [0x90, 0x00]])
      else none := by
  have written : read.slice (update.apply tag.ndef_file) = update.data := by
    have pieces : read.slice (update.apply tag.ndef_file) = update.data.take read.len := by
      apply map_range_eq_take (le_of_eq sameLength)
      intro k inside
      rw [update.apply_of_covered _ (by omega) (by omega), sameOffset, Nat.add_sub_cancel_left]
    rw [pieces, sameLength, List.take_length]
  rw [read.step_eq (update.after tag) selected levels, ← written]
  rfl

theorem run_round_trip_iff {tag : Tag} (selected : tag.current_file = .NDEF_FILE)
    {file : List UInt8} {updates : List (Update × List UInt8)} {reads : List (Read × List UInt8)}
    (short : file.length ≤ 1024)
    (carry : ∀ update ∈ updates, update.1.Carries file)
    (cover : ∀ i < file.length, ∃ update ∈ updates, update.1.Covers i)
    (within : ∀ read ∈ reads, read.1.off + read.1.len ≤ file.length) (log : List (List UInt8)) :
    (∃ last, machine.Run tag (updateInputs updates ++ readInputs reads) last log) ↔
      (∀ read ∈ reads, read.1.len + 3 ≤ capacity read.2) ∧
        log = (updates.map fun update => [update.1.pcb, 0x90, 0x00]) ++
          reads.map fun read =>
            read.1.pcb :: (file.drop read.1.off).take read.1.len ++ [0x90, 0x00] := by
  obtain ⟨middle, writes, kept, stored⟩ := run_updates file updates carry tag
  have whole : ∀ i < file.length, middle.ndef_file.byteAt i = file.getD i 0 :=
    fun i inside => stored i (by omega) (.inr (cover i inside))
  have slices : (reads.map fun read =>
        read.1.pcb :: read.1.slice middle.ndef_file ++ [0x90, 0x00]) =
      reads.map fun read =>
        read.1.pcb :: (file.drop read.1.off).take read.1.len ++ [0x90, 0x00] := by
    apply List.map_congr_left
    intro read membership
    rw [slice_eq read.1 (within read membership) whole]
  have reading := run_reads_iff reads middle (kept.trans selected)
  rw [slices] at reading
  constructor
  · rintro ⟨last, run⟩
    obtain ⟨reached, firstLog, secondLog, first, second, rfl⟩ := run.split
    obtain ⟨rfl, rfl⟩ := first.deterministic writes
    obtain ⟨taken, rfl⟩ := (reading secondLog).mp ⟨last, second⟩
    exact ⟨taken, rfl⟩
  · rintro ⟨taken, rfl⟩
    obtain ⟨last, run⟩ := (reading _).mpr ⟨taken, rfl⟩
    exact ⟨last, writes.append run⟩

/-- With the NDEF file selected, what an update wrote is what the next read of
the same bytes is answered with, and nothing else changed.  A file that updates
cover is read back in whatever pieces, once the chip takes the replies. -/
theorem ndef_round_trip (tag : Tag) (selected : tag.current_file = .NDEF_FILE) :
    (∀ (update : Update) (readings : List UInt8), ∃ next,
      machine.step tag (update.request.frame, readings) =
        some (next, [[update.pcb, 0x90, 0x00]]) ∧
      (∀ i : Fin 1024, ¬update.Covers i → next.ndef_file i = tag.ndef_file i) ∧
      ∀ (read : Read) (levels : List UInt8),
        read.off = update.off → read.len = update.data.length →
        machine.step next (read.request.frame, levels) =
          if read.len + 3 ≤ capacity levels then
            some (next.receive read.request.frame, [read.pcb :: update.data ++ [0x90, 0x00]])
          else none) ∧
    ∀ (file : List UInt8) (updates : List (Update × List UInt8)) (reads : List (Read × List UInt8)),
      file.length ≤ 1024 →
      (∀ update ∈ updates, update.1.Carries file) →
      (∀ i < file.length, ∃ update ∈ updates, update.1.Covers i) →
      (∀ read ∈ reads, read.1.off + read.1.len ≤ file.length) →
      ∀ log, (∃ last, machine.Run tag (updateInputs updates ++ readInputs reads) last log) ↔
        (∀ read ∈ reads, read.1.len + 3 ≤ capacity read.2) ∧
          log = (updates.map fun update => [update.1.pcb, 0x90, 0x00]) ++
            reads.map fun read =>
              read.1.pcb :: (file.drop read.1.off).take read.1.len ++ [0x90, 0x00] := by
  constructor
  · intro update readings
    refine ⟨update.after tag, update.step_eq tag readings, ?_, update.step_read selected⟩
    intro i outside
    have kept := update.apply_of_not_covered tag.ndef_file i.isLt outside
    rwa [Block.byteAt_eq, Block.byteAt_eq] at kept
  · intro file updates reads short carry cover within log
    exact run_round_trip_iff selected short carry cover within log

def sampleFile : List UInt8 := [0x03, 0x02, 0xD1, 0x00, 0xFE]

def sampleUpdate : Update :=
  ⟨0x03, 0x00, 2, [0xD1, 0x00, 0xFE], (0, 0), by decide, by decide, by decide⟩

def sampleRead : Read := ⟨0x03, 0x00, 2, 3, (0, 0), by decide, by decide, by decide⟩

def sampleUpdates : List (Update × List UInt8) :=
  [(⟨0x02, 0x00, 0, [0x03, 0x02, 0xD1], (0, 0), by decide, by decide, by decide⟩, []),
    (sampleUpdate, [])]

def sampleReads : List (Read × List UInt8) :=
  [(⟨0x02, 0x00, 0, 2, (0, 0), by decide, by decide, by decide⟩, []), (sampleRead, [])]

theorem ndef_round_trip_sample :
    ∃ tag, machine.Run (boot fun _ => 0) [((selectRequest 0x04).frame, [])] tag
        [[0x02, 0x90, 0x00]] ∧
      (∃ next last,
        machine.step tag (sampleUpdate.request.frame, []) = some (next, [[0x03, 0x90, 0x00]]) ∧
        machine.step next (sampleRead.request.frame, []) =
          some (last, [[0x03, 0xD1, 0x00, 0xFE, 0x90, 0x00]])) ∧
      ∃ last, machine.Run tag (updateInputs sampleUpdates ++ readInputs sampleReads) last
        [[0x02, 0x90, 0x00], [0x03, 0x90, 0x00], [0x02, 0x03, 0x02, 0x90, 0x00],
          [0x03, 0xD1, 0x00, 0xFE, 0x90, 0x00]] := by
  obtain ⟨tag, log, run, seen⟩ := machine.exists_run_of_exec
    (fun result => (result.1.current_file, result.2)) (boot fun _ => 0)
    [((selectRequest 0x04).frame, [])] (.NDEF_FILE, [[0x02, 0x90, 0x00]]) (by decide +kernel)
  simp only [Prod.mk.injEq] at seen
  obtain ⟨selected, rfl⟩ := seen
  obtain ⟨single, session⟩ := ndef_round_trip tag selected
  obtain ⟨next, written, -, answered⟩ := single sampleUpdate []
  exact ⟨tag, run, ⟨next, _, written, answered sampleRead [] rfl rfl⟩,
    (session sampleFile sampleUpdates sampleReads (by decide) (by unfold Update.Carries; decide)
      (by unfold Update.Covers; decide) (by decide) _).mpr ⟨by decide, rfl⟩⟩

end WifiIot.Nfc
