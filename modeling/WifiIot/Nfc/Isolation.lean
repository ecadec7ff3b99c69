import WifiIot.Nfc.Bounds

/-!
# What a frame sees of earlier frames

The frames share one buffer, and only the reply to an unknown command looks at
the length of the frame.  A frame that is shorter than what its command reads
is completed by its CRC and by older frames.
-/

namespace WifiIot.Nfc

open Memory

/-- Both states process the frame in the buffer, with the same reply and the
same new selection and file. -/
def Alike (first second : Tag) (readings : List UInt8) : Prop :=
  ∃ one two, fm11_t4t first readings = .ok one ∧ fm11_t4t second readings = .ok two ∧
    reply one.sent.bus = reply two.sent.bus ∧ one.sent.returned = two.sent.returned ∧
    one.tag.current_file = two.tag.current_file ∧ one.tag.ndef_file = two.tag.ndef_file

/-- Whatever was received before, the frame is processed in the same way. -/
def Isolated (bytes : List UInt8) (current_file : T4T_FILE) (ndef_file : Block 1024) : Prop :=
  ∀ firstBoot secondBoot firstInputs secondInputs first second firstLog secondLog,
    machine.Run (boot firstBoot) firstInputs first firstLog →
    machine.Run (boot secondBoot) secondInputs second secondLog →
    first.current_file = current_file → second.current_file = current_file →
    first.ndef_file = ndef_file → second.ndef_file = ndef_file →
    ∀ firstFrame secondFrame : Frame, firstFrame.bytes = bytes → secondFrame.bytes = bytes →
      ∀ readings, Alike (first.receive firstFrame) (second.receive secondFrame) readings

/-- The bytes that the header of a frame asks for. -/
def Within (bytes : List UInt8) (size : Nat) : Prop :=
  (bytes.getD LC 0).toNat = 0 ∨
    (bytes.getD P1 0).toNat * 256 + (bytes.getD P2 0).toNat + (bytes.getD LC 0).toNat ≤ size

/-- The frame has every byte that its command reads, and the command stays
inside the arrays. -/
structure SelfContained (bytes : List UInt8) (current_file : T4T_FILE) : Prop where
  ins : INS < bytes.length
  select : bytes.getD INS 0 = 0xA4 → P1 < bytes.length ∧
    (bytes.getD P1 0 = 0 → LC < bytes.length ∧
      (bytes.getD LC 0 = 2 → DATA + 2 ≤ bytes.length ∨
        bytes.length = DATA + 1 ∧ bytes.getD DATA 0 ≠ 0xE1))
  read : bytes.getD INS 0 = 0xB0 → current_file ≠ .NONE → LC < bytes.length ∧
    (current_file = .CC_FILE → Within bytes 15) ∧
    (current_file = .NDEF_FILE → (bytes.getD LC 0).toNat ≤ 253 ∧ Within bytes 1024)
  update : bytes.getD INS 0 = 0xD6 →
    DATA + (bytes.getD LC 0).toNat ≤ bytes.length ∧ Within bytes 1024

theorem alike_iff (first second : Tag) (readings : List UInt8) :
    Alike first second readings ↔
      first.InBounds ∧ second.InBounds ∧
      first.answer.take (capacity readings) = second.answer.take (capacity readings) ∧
      (first.answer.length ≤ capacity readings ↔ second.answer.length ≤ capacity readings) ∧
      first.next.current_file = second.next.current_file ∧
      first.next.ndef_file = second.next.ndef_file := by
  constructor
  · rintro ⟨one, two, firstRuns, secondRuns, replies, returns, selections, files⟩
    have firstBounds := inBounds_of_ok first firstRuns
    have secondBounds := inBounds_of_ok second secondRuns
    obtain ⟨sent, processed, replied, finished⟩ := fm11_t4t_spec first readings firstBounds
    obtain ⟨sent', processed', replied', finished'⟩ := fm11_t4t_spec second readings secondBounds
    obtain rfl := Except.ok.inj (processed.symm.trans firstRuns)
    obtain rfl := Except.ok.inj (processed'.symm.trans secondRuns)
    refine ⟨firstBounds, secondBounds, ?_, ?_, selections, files⟩
    · rw [← replied, ← replied', replies]
    · rw [← finished, ← finished']
      exact iff_of_eq (congrArg (· = true) returns)
  · rintro ⟨firstBounds, secondBounds, replies, returns, selections, files⟩
    obtain ⟨sent, processed, replied, finished⟩ := fm11_t4t_spec first readings firstBounds
    obtain ⟨sent', processed', replied', finished'⟩ := fm11_t4t_spec second readings secondBounds
    refine ⟨_, _, processed, processed', ?_, ?_, selections, files⟩
    · rw [replied, replied', replies]
    · exact Bool.eq_iff_iff.mpr (finished.trans (returns.trans finished'.symm))

structure Tag.Holds (tag : Tag) (bytes : List UInt8) : Prop where
  length : tag.rfLen.toNat = bytes.length
  byte : ∀ k < bytes.length, tag.byte k = bytes.getD k 0

theorem holds_receive (tag : Tag) (frame : Frame) : (tag.receive frame).Holds frame.bytes where
  length := Tag.rfLen_receive frame tag
  byte _ inside := Tag.byte_receive_of_lt frame tag inside

theorem selects_iff (tag : Tag) (second : UInt8) :
    tag.Selects [0xE1, second] ↔ tag.lc = 2 ∧ tag.data 0 = 0xE1 ∧ tag.data 1 = second := by
  have two : (2 : UInt8).toNat = 2 := rfl
  unfold Tag.Selects
  constructor
  · rintro ⟨size, same⟩
    rw [size] at same
    simp only [List.length_cons, List.length_nil, List.range_succ, List.range_zero,
      List.nil_append, List.map_cons, List.map_nil, List.cons_append,
      List.cons.injEq, and_true] at same
    exact ⟨UInt8.toNat_inj.mp size, same⟩
  · rintro ⟨rfl', first, rest⟩
    rw [rfl', two]
    simp [List.range_succ, first, rest]

section Sufficient

variable {bytes : List UInt8} {first second : Tag}

theorem inside_iff_within {tag : Tag} (holds : tag.Holds bytes) (header : LC < bytes.length)
    (size : Nat) : tag.Inside size ↔ Within bytes size := by
  unfold LC at header
  rw [Tag.Inside, Tag.off, Tag.lc, Tag.p1, Tag.p2, holds.byte LC header,
    holds.byte P1 (by unfold P1; omega), holds.byte P2 (by unfold P2; omega)]
  rfl

theorem inBounds_of_selfContained {tag : Tag} (holds : tag.Holds bytes)
    (contained : SelfContained bytes tag.current_file) : tag.InBounds := by
  have ins : tag.ins = bytes.getD INS 0 := holds.byte INS contained.ins
  refine ⟨fun read container => ?_, fun read ndef => ?_, fun update => ?_⟩
  · obtain ⟨header, within, -⟩ := contained.read (ins.symm.trans read) (by rw [container]; decide)
    exact (inside_iff_within holds header 15).mpr (within container)
  · obtain ⟨header, -, within⟩ := contained.read (ins.symm.trans read) (by rw [ndef]; decide)
    refine ⟨?_, (inside_iff_within holds header 1024).mpr (within ndef).2⟩
    rw [Tag.lc, holds.byte LC header]
    exact (within ndef).1
  · obtain ⟨complete, within⟩ := contained.update (ins.symm.trans update)
    exact (inside_iff_within holds (by unfold DATA at complete; unfold LC; omega) 1024).mpr within

theorem selection_eq (firstHolds : first.Holds bytes) (secondHolds : second.Holds bytes)
    (header : LC < bytes.length)
    (complete : bytes.getD LC 0 = 2 → DATA + 2 ≤ bytes.length ∨
      bytes.length = DATA + 1 ∧ bytes.getD DATA 0 ≠ 0xE1) :
    first.selection = second.selection := by
  have same (id : UInt8) : first.Selects [0xE1, id] ↔ second.Selects [0xE1, id] := by
    rw [selects_iff, selects_iff, Tag.lc, Tag.lc, firstHolds.byte LC header,
      secondHolds.byte LC header]
    apply and_congr_right
    intro two
    simp only [Tag.data, Nat.add_zero]
    rcases complete two with whole | ⟨length, other⟩
    · rw [firstHolds.byte DATA (by omega), secondHolds.byte DATA (by omega),
        firstHolds.byte (DATA + 1) (by omega), secondHolds.byte (DATA + 1) (by omega)]
    · rw [firstHolds.byte DATA (by omega), secondHolds.byte DATA (by omega)]
      simp only [other, false_and]
  exact if_congr (same 0x03) rfl (if_congr (same 0x04) rfl rfl)

/-- Two tags that hold the same frame, with the same selection and file. -/
structure Twins (bytes : List UInt8) (first second : Tag) : Prop where
  left : first.Holds bytes
  right : second.Holds bytes
  current : first.current_file = second.current_file
  file : first.ndef_file = second.ndef_file

/-- Two tags that reply the same and go on the same. -/
structure SameOutcome (first second : Tag) : Prop where
  answer : first.answer = second.answer
  current : first.next.current_file = second.next.current_file
  file : first.next.ndef_file = second.next.ndef_file

namespace Twins

theorem byte (twins : Twins bytes first second) {k : Nat} (inside : k < bytes.length) :
    first.byte k = second.byte k := by
  rw [twins.left.byte k inside, twins.right.byte k inside]

theorem header (twins : Twins bytes first second) (whole : LC < bytes.length) :
    first.lc = second.lc ∧ first.off = second.off := by
  have size : 5 < bytes.length := whole
  have p1 : first.p1 = second.p1 := twins.byte (lt_trans (by decide) size)
  have p2 : first.p2 = second.p2 := twins.byte (lt_trans (by decide) size)
  refine ⟨twins.byte whole, ?_⟩
  rw [Tag.off, Tag.off, p1, p2]

theorem ins (twins : Twins bytes first second) (whole : INS < bytes.length) :
    first.ins = second.ins := twins.byte whole

theorem pcb (twins : Twins bytes first second) (whole : INS < bytes.length) :
    first.pcb = second.pcb := twins.byte (lt_trans (by decide) whole)

theorem select (twins : Twins bytes first second)
    (contained : SelfContained bytes first.current_file) (isSelect : first.ins = 0xA4) :
    SameOutcome first second := by
  have isIns : first.ins = bytes.getD INS 0 := twins.left.byte INS contained.ins
  obtain ⟨hasP1, complete⟩ := contained.select (isIns.symm.trans isSelect)
  have alsoSelect : second.ins = 0xA4 := (twins.ins contained.ins).symm.trans isSelect
  have p1 : first.p1 = second.p1 := twins.byte hasP1
  by_cases byId : first.p1 = 0
  · obtain ⟨hasLc, whole⟩ := complete ((twins.left.byte P1 hasP1).symm.trans byId)
    have selections := selection_eq twins.left twins.right hasLc whole
    constructor
    · simp only [Tag.answer, isSelect, alsoSelect, if_true, ← p1, selections,
        twins.pcb contained.ins]
    · simp only [Tag.next, isSelect, alsoSelect, if_true, ← p1, byId, selections]
    · simp only [Tag.next, isSelect, alsoSelect, if_true, ← p1, byId]
      exact twins.file
  · constructor
    · simp only [Tag.answer, isSelect, alsoSelect, if_true, ← p1, byId, false_and, if_false,
        twins.pcb contained.ins]
    · simp only [Tag.next, isSelect, alsoSelect, if_true, ← p1, byId, if_false]
      exact twins.current
    · simp only [Tag.next, isSelect, alsoSelect, if_true, ← p1, byId, if_false]
      exact twins.file

theorem read (twins : Twins bytes first second)
    (contained : SelfContained bytes first.current_file) (isRead : first.ins = 0xB0) :
    SameOutcome first second := by
  have isIns : first.ins = bytes.getD INS 0 := twins.left.byte INS contained.ins
  have alsoRead : second.ins = 0xB0 := (twins.ins contained.ins).symm.trans isRead
  have noSelect : ¬(0xB0 : UInt8) = 0xA4 := by decide
  have noUpdate : ¬(0xB0 : UInt8) = 0xD6 := by decide
  have whole (selected : first.current_file ≠ .NONE) : LC < bytes.length :=
    (contained.read (isIns.symm.trans isRead) selected).1
  constructor
  · simp only [Tag.answer, isRead, alsoRead, noSelect, if_false, if_true, ← twins.current,
      ← twins.pcb contained.ins]
    cases current : first.current_file with
    | NONE => rfl
    | CC_FILE =>
        obtain ⟨lc, off⟩ := twins.header (whole (by rw [current]; decide))
        simp only [Tag.window, lc, off]
    | NDEF_FILE =>
        obtain ⟨lc, off⟩ := twins.header (whole (by rw [current]; decide))
        simp only [Tag.window, lc, off, twins.file]
  · simp only [Tag.next, isRead, alsoRead, noSelect, noUpdate, if_false]
    exact twins.current
  · simp only [Tag.next, isRead, alsoRead, noSelect, noUpdate, if_false]
    exact twins.file

theorem update (twins : Twins bytes first second)
    (contained : SelfContained bytes first.current_file) (isUpdate : first.ins = 0xD6) :
    SameOutcome first second := by
  have isIns : first.ins = bytes.getD INS 0 := twins.left.byte INS contained.ins
  have alsoUpdate : second.ins = 0xD6 := (twins.ins contained.ins).symm.trans isUpdate
  have noSelect : ¬(0xD6 : UInt8) = 0xA4 := by decide
  have noRead : ¬(0xD6 : UInt8) = 0xB0 := by decide
  obtain ⟨complete, -⟩ := contained.update (isIns.symm.trans isUpdate)
  have whole : LC < bytes.length :=
    lt_of_lt_of_le (by decide) (le_trans (Nat.le_add_right 6 _) complete)
  obtain ⟨lc, off⟩ := twins.header whole
  constructor
  · simp only [Tag.answer, isUpdate, alsoUpdate, noSelect, noRead, if_false, if_true,
      twins.pcb contained.ins]
  · simp only [Tag.next, isUpdate, alsoUpdate, noSelect, if_false, if_true]
    exact twins.current
  · simp only [Tag.next, isUpdate, alsoUpdate, noSelect, if_false, if_true, ← lc, ← off,
      ← twins.file]
    refine Block.patch_congr fun k inside _ => twins.byte ?_
    have size : first.lc = bytes.getD LC 0 := twins.left.byte LC whole
    rw [size] at inside
    omega

theorem echo (twins : Twins bytes first second) (whole : INS < bytes.length)
    (noSelect : first.ins ≠ 0xA4) (noRead : first.ins ≠ 0xB0) (noUpdate : first.ins ≠ 0xD6) :
    SameOutcome first second := by
  have ins := twins.ins whole
  constructor
  · simp only [Tag.answer, ← ins, noSelect, noRead, noUpdate, if_false]
    rw [twins.left.length, twins.right.length]
    exact List.map_congr_left fun k inside => twins.byte (List.mem_range.mp inside)
  · simp only [Tag.next, ← ins, noSelect, noUpdate, if_false]
    exact twins.current
  · simp only [Tag.next, ← ins, noSelect, noUpdate, if_false]
    exact twins.file

theorem sameOutcome (twins : Twins bytes first second)
    (contained : SelfContained bytes first.current_file) : SameOutcome first second := by
  by_cases isSelect : first.ins = 0xA4
  · exact twins.select contained isSelect
  by_cases isRead : first.ins = 0xB0
  · exact twins.read contained isRead
  by_cases isUpdate : first.ins = 0xD6
  · exact twins.update contained isUpdate
  · exact twins.echo contained.ins isSelect isRead isUpdate

end Twins

/-- On a self-contained frame the reply and the next state are functions of the
frame, the selection and the file. -/
theorem alike_of_selfContained (twins : Twins bytes first second)
    (contained : SelfContained bytes first.current_file) (readings : List UInt8) :
    Alike first second readings := by
  obtain ⟨answers, selections, files⟩ := twins.sameOutcome contained
  refine (alike_iff first second readings).mpr ⟨inBounds_of_selfContained twins.left contained,
    inBounds_of_selfContained twins.right (twins.current ▸ contained), ?_, ?_, selections, files⟩
  · rw [answers]
  · rw [answers]

end Sufficient

/-! ## Frames that are not self-contained -/

/-- The frame in the buffer, and what lies behind it. -/
structure Tag.Follows (tag : Tag) (bytes : List UInt8) (content : Nat → UInt8)
    (current_file : T4T_FILE) (ndef_file : Block 1024) : Prop extends tag.Holds bytes where
  behind : ∀ k < 256, bytes.length ≤ k → tag.byte k = content k
  current : tag.current_file = current_file
  file : tag.ndef_file = ndef_file

section Necessary

variable {bytes : List UInt8} {current_file : T4T_FILE} {ndef_file : Block 1024}

/-- Whatever lies behind the frame, two such states are alike. -/
def Unaffected (bytes : List UInt8) (current_file : T4T_FILE) (ndef_file : Block 1024) : Prop :=
  ∀ one two : Nat → UInt8, ∃ first second : Tag,
    first.Follows bytes one current_file ndef_file ∧
    second.Follows bytes two current_file ndef_file ∧ Alike first second []

theorem Alike.answer_eq {first second : Tag} (alike : Alike first second [])
    (firstShort : first.answer.length ≤ 32) (secondShort : second.answer.length ≤ 32) :
    first.answer = second.answer := by
  obtain ⟨-, -, same, -⟩ := (alike_iff first second []).mp alike
  have room : capacity [] = 32 := rfl
  rwa [room, List.take_of_length_le firstShort, List.take_of_length_le secondShort] at same

theorem answer_of_unselected {tag : Tag} (select : tag.ins = 0xA4) (byId : tag.p1 = 0)
    (unselected : tag.selection = .NONE) : tag.answer = [tag.pcb, 0x6A, 0x00] := by
  simp only [Tag.answer, select, if_true, byId, unselected, true_and]

theorem answer_of_acknowledged {tag : Tag} (select : tag.ins = 0xA4)
    (known : ¬(tag.p1 = 0 ∧ tag.selection = .NONE)) : tag.answer = [tag.pcb, 0x90, 0x00] := by
  simp only [Tag.answer, select, if_true, known, if_false]

theorem ins_of_unaffected (unaffected : Unaffected bytes current_file ndef_file) :
    INS < bytes.length := by
  by_contra short
  unfold INS at short
  obtain ⟨first, second, firstFollows, secondFollows, alike⟩ :=
    unaffected (fun _ => 0) (fun k => if k = 2 then 0xA4 else 1)
  have echo : first.ins = 0 := firstFollows.behind 2 (by decide) (by omega)
  have select : second.ins = 0xA4 := secondFollows.behind 2 (by decide) (by omega)
  have byName : second.p1 = 1 := secondFollows.behind 3 (by decide) (by omega)
  have echoed : first.answer.length = bytes.length := by
    have whole : first.answer = (List.range first.rfLen.toNat).map first.byte := by
      simp [Tag.answer, echo]
    rw [whole, List.length_map, List.length_range, firstFollows.length]
  have acknowledged : second.answer = [second.pcb, 0x90, 0x00] :=
    answer_of_acknowledged select (by simp [byName])
  have same := alike.answer_eq (by omega) (by rw [acknowledged]; simp)
  rw [same, acknowledged] at echoed
  simp only [List.length_cons, List.length_nil] at echoed
  omega

theorem selection_eq_none {tag : Tag}
    (neither : tag.lc = 2 → tag.data 1 ≠ 0x03 ∧ tag.data 1 ≠ 0x04) : tag.selection = .NONE := by
  have unselected (id : UInt8) (other : tag.lc = 2 → tag.data 1 ≠ id) :
      ¬tag.Selects [0xE1, id] := by
    rw [selects_iff]
    rintro ⟨two, -, same⟩
    exact other two same
  rw [Tag.selection, ndef_capability_container, ndef_id,
    if_neg (unselected 0x03 fun two => (neither two).1),
    if_neg (unselected 0x04 fun two => (neither two).2)]

theorem selection_ne_none {tag : Tag} (two : tag.lc = 2) (first : tag.data 0 = 0xE1)
    (second : tag.data 1 = 0x04) : tag.selection ≠ .NONE := by
  have ndef : tag.Selects ndef_id := (selects_iff tag 0x04).mpr ⟨two, first, second⟩
  rw [Tag.selection, if_pos ndef]
  split <;> decide

theorem not_alike_of_select {first second : Tag} (firstSelect : first.ins = 0xA4)
    (secondSelect : second.ins = 0xA4)
    (known : ¬(first.p1 = 0 ∧ first.selection = .NONE))
    (unknown : second.p1 = 0 ∧ second.selection = .NONE) : ¬Alike first second [] := by
  intro alike
  have acknowledged := answer_of_acknowledged firstSelect known
  have refused := answer_of_unselected secondSelect unknown.1 unknown.2
  have same := alike.answer_eq (by rw [acknowledged]; simp) (by rw [refused]; simp)
  rw [acknowledged, refused] at same
  simp at same

/-- If a SELECT by file id leaves its data open, they may be the id of the NDEF
file or not. -/
theorem closed_of_unaffected (unaffected : Unaffected bytes current_file ndef_file)
    (isSelect : bytes.getD INS 0 = 0xA4) (hasP1 : 3 < bytes.length) (byId : bytes.getD P1 0 = 0)
    (short : bytes.length ≤ 7)
    (lc : 5 < bytes.length → bytes.getD LC 0 = 2)
    (start : 6 < bytes.length → bytes.getD DATA 0 = 0xE1) : False := by
  obtain ⟨first, second, firstFollows, secondFollows, alike⟩ :=
    unaffected (fun k => if k = 5 then 2 else if k = 6 then 0xE1 else 0x04) (fun _ => 0)
  have firstSelect : first.ins = 0xA4 := (firstFollows.byte 2 (by omega)).trans isSelect
  have secondSelect : second.ins = 0xA4 := (secondFollows.byte 2 (by omega)).trans isSelect
  have secondById : second.p1 = 0 := (secondFollows.byte 3 hasP1).trans byId
  have open' : second.data 1 = 0 := secondFollows.behind 7 (by decide) short
  have two : first.lc = 2 := by
    by_cases whole : 5 < bytes.length
    · exact (firstFollows.byte 5 whole).trans (lc whole)
    · exact firstFollows.behind 5 (by decide) (by omega)
  have head : first.data 0 = 0xE1 := by
    by_cases whole : 6 < bytes.length
    · exact (firstFollows.byte 6 whole).trans (start whole)
    · exact firstFollows.behind 6 (by decide) (by omega)
  have tail : first.data 1 = 0x04 := firstFollows.behind 7 (by decide) short
  refine not_alike_of_select firstSelect secondSelect ?_ ⟨secondById, ?_⟩ alike
  · rintro ⟨-, unselected⟩
    exact selection_ne_none two head tail unselected
  · apply selection_eq_none
    intro _
    rw [open']
    decide

theorem select_of_unaffected (unaffected : Unaffected bytes current_file ndef_file)
    (isSelect : bytes.getD INS 0 = 0xA4) :
    P1 < bytes.length ∧ (bytes.getD P1 0 = 0 → LC < bytes.length ∧
      (bytes.getD LC 0 = 2 → DATA + 2 ≤ bytes.length ∨
        bytes.length = DATA + 1 ∧ bytes.getD DATA 0 ≠ 0xE1)) := by
  have hasIns : 2 < bytes.length := ins_of_unaffected unaffected
  have hasP1 : 3 < bytes.length := by
    by_contra short
    obtain ⟨first, second, firstFollows, secondFollows, alike⟩ :=
      unaffected (fun _ => 1) (fun _ => 0)
    have byName : first.p1 = 1 := firstFollows.behind 3 (by decide) (by omega)
    have byId : second.p1 = 0 := secondFollows.behind 3 (by decide) (by omega)
    have empty : second.lc = 0 := secondFollows.behind 5 (by decide) (by omega)
    refine not_alike_of_select ((firstFollows.byte 2 hasIns).trans isSelect)
      ((secondFollows.byte 2 hasIns).trans isSelect) ?_ ⟨byId, ?_⟩ alike
    · rw [byName]
      exact fun both => absurd both.1 (by decide)
    · apply selection_eq_none
      rw [empty]
      exact fun two => absurd two (by decide)
  refine ⟨hasP1, fun byId => ?_⟩
  by_contra leftOpen
  by_cases hasLc : 5 < bytes.length
  · have undecided : bytes.getD LC 0 = 2 ∧ bytes.length ≤ 7 ∧
        (6 < bytes.length → bytes.getD DATA 0 = 0xE1) := by
      refine ⟨?_, ?_, ?_⟩
      · by_contra other
        exact leftOpen ⟨hasLc, fun two => absurd two other⟩
      · by_contra whole
        exact leftOpen ⟨hasLc, fun _ => .inl (by unfold DATA; omega)⟩
      · intro longer
        by_contra other
        apply leftOpen
        by_cases whole : DATA + 2 ≤ bytes.length
        · exact ⟨hasLc, fun _ => .inl whole⟩
        · exact ⟨hasLc, fun _ => .inr ⟨by unfold DATA at whole ⊢; omega, other⟩⟩
    exact closed_of_unaffected unaffected isSelect hasP1 byId undecided.2.1 (fun _ => undecided.1)
      undecided.2.2
  · exact closed_of_unaffected unaffected isSelect hasP1 byId (by omega)
      (fun whole => absurd whole hasLc) (fun whole => absurd whole (by omega))

theorem read_of_unaffected (unaffected : Unaffected bytes current_file ndef_file)
    (isRead : bytes.getD INS 0 = 0xB0) (selected : current_file ≠ .NONE) :
    LC < bytes.length ∧ (current_file = .CC_FILE → Within bytes 15) ∧
      (current_file = .NDEF_FILE → (bytes.getD LC 0).toNat ≤ 253 ∧ Within bytes 1024) := by
  have hasIns : 2 < bytes.length := ins_of_unaffected unaffected
  obtain ⟨first, second, firstFollows, secondFollows, alike⟩ :=
    unaffected (fun _ => 0) (fun _ => 1)
  obtain ⟨firstBounds, secondBounds, -⟩ := (alike_iff _ _ _).mp alike
  have reads {tag : Tag} {content : Nat → UInt8}
      (follows : tag.Follows bytes content current_file ndef_file) : tag.Reads :=
    ⟨(follows.byte 2 hasIns).trans isRead, by rw [follows.current]; exact selected⟩
  have length {tag : Tag} (bounds : tag.InBounds) (reads : tag.Reads) (small : tag.lc.toNat ≤ 1) :
      tag.answer.length = 1 + tag.lc.toNat + 2 :=
    Tag.Fits.length_answer ⟨bounds.1, fun read ndef => ⟨by omega, (bounds.2.1 read ndef).2⟩,
      bounds.2.2⟩ reads
  have hasLc : 5 < bytes.length := by
    by_contra short
    have empty : first.lc = 0 := firstFollows.behind 5 (by decide) (by omega)
    have one : second.lc = 1 := secondFollows.behind 5 (by decide) (by omega)
    have firstLength := length firstBounds (reads firstFollows) (by rw [empty]; decide)
    have secondLength := length secondBounds (reads secondFollows) (by rw [one]; decide)
    rw [empty] at firstLength
    rw [one] at secondLength
    have zero : (0 : UInt8).toNat = 0 := rfl
    have one' : (1 : UInt8).toNat = 1 := rfl
    have same := alike.answer_eq (by omega) (by omega)
    rw [same] at firstLength
    omega
  have isLc : first.lc = bytes.getD LC 0 := firstFollows.byte 5 hasLc
  refine ⟨hasLc, fun container => ?_, fun ndef => ?_⟩
  · exact (inside_iff_within firstFollows.toHolds hasLc 15).mp
      (firstBounds.1 (reads firstFollows).1 (firstFollows.current.trans container))
  · obtain ⟨small, inside⟩ :=
      firstBounds.2.1 (reads firstFollows).1 (firstFollows.current.trans ndef)
    exact ⟨isLc ▸ small, (inside_iff_within firstFollows.toHolds hasLc 1024).mp inside⟩

theorem Tag.Follows.byte_eq {first second : Tag} {one two : Nat → UInt8}
    (firstFollows : first.Follows bytes one current_file ndef_file)
    (secondFollows : second.Follows bytes two current_file ndef_file) {k : Nat} (inside : k < 256)
    (same : one k = two k) : first.byte k = second.byte k := by
  by_cases whole : k < bytes.length
  · rw [firstFollows.byte k whole, secondFollows.byte k whole]
  · rw [firstFollows.behind k inside (not_lt.mp whole),
      secondFollows.behind k inside (not_lt.mp whole), same]

theorem data_eq_of_update {first second : Tag} (firstUpdate : first.ins = 0xD6)
    (secondUpdate : second.ins = 0xD6) (lc : first.lc = second.lc) (off : first.off = second.off)
    (files : first.next.ndef_file = second.next.ndef_file)
    (inside : first.off + first.lc.toNat ≤ 1024) {k : Nat} (stored : k < first.lc.toNat) :
    first.data k = second.data k := by
  have written : first.next.ndef_file.byteAt (first.off + k) =
      second.next.ndef_file.byteAt (first.off + k) := by rw [files]
  rwa [next_ndef_file_of_update firstUpdate, next_ndef_file_of_update secondUpdate, ← off, ← lc,
    Block.byteAt_patch (by omega), Block.byteAt_patch (by omega), if_pos (by omega),
    if_pos (by omega), Nat.add_sub_cancel_left] at written

/-- An UPDATE that lacks data stores what lies behind the frame. -/
theorem update_complete_of_unaffected (unaffected : Unaffected bytes current_file ndef_file)
    (isUpdate : bytes.getD INS 0 = 0xD6) (fits : bytes.length ≤ 255) :
    DATA + (bytes.getD LC 0).toNat ≤ bytes.length := by
  have hasIns : 2 < bytes.length := ins_of_unaffected unaffected
  -- A header without LC is completed with LC 1; the data differ.
  obtain ⟨first, second, firstFollows, secondFollows, alike⟩ :=
    unaffected (fun k => if k = 5 then 1 else 0) (fun k => if 5 ≤ k then 1 else 0)
  obtain ⟨firstBounds, -, -, -, -, files⟩ := (alike_iff _ _ _).mp alike
  have firstUpdate : first.ins = 0xD6 := (firstFollows.byte 2 hasIns).trans isUpdate
  have secondUpdate : second.ins = 0xD6 := (secondFollows.byte 2 hasIns).trans isUpdate
  by_contra short
  unfold DATA at short
  have lc : first.lc = second.lc := firstFollows.byte_eq secondFollows (by decide) rfl
  have p1 : first.p1 = second.p1 := firstFollows.byte_eq secondFollows (by decide) rfl
  have p2 : first.p2 = second.p2 := firstFollows.byte_eq secondFollows (by decide) rfl
  have off : first.off = second.off := by rw [Tag.off, Tag.off, p1, p2]
  have missing : max bytes.length 6 < 6 + first.lc.toNat := by
    by_cases whole : 5 < bytes.length
    · have isLc : first.lc = bytes.getD LC 0 := firstFollows.byte 5 whole
      rw [isLc]
      omega
    · have isLc : first.lc = 1 := firstFollows.behind 5 (by decide) (by omega)
      have one : (1 : UInt8).toNat = 1 := rfl
      rw [isLc]
      omega
  have inside : first.off + first.lc.toNat ≤ 1024 :=
    (firstBounds.2.2 firstUpdate).resolve_left (by omega)
  have stored : max bytes.length 6 - 6 < first.lc.toNat := by omega
  have same := data_eq_of_update firstUpdate secondUpdate lc off files inside stored
  rw [Tag.data, Tag.data, DATA, Nat.add_sub_cancel' (le_max_right _ _),
    firstFollows.behind _ (by omega) (le_max_left _ _), if_neg (by omega),
    secondFollows.behind _ (by omega) (le_max_left _ _), if_pos (by omega)] at same
  exact absurd same (by decide)

theorem update_of_unaffected (unaffected : Unaffected bytes current_file ndef_file)
    (isUpdate : bytes.getD INS 0 = 0xD6) (fits : bytes.length ≤ 255) :
    DATA + (bytes.getD LC 0).toNat ≤ bytes.length ∧ Within bytes 1024 := by
  have complete := update_complete_of_unaffected unaffected isUpdate fits
  have hasIns : INS < bytes.length := ins_of_unaffected unaffected
  have hasLc : LC < bytes.length :=
    lt_of_lt_of_le (by decide) (le_trans (Nat.le_add_right 6 _) complete)
  obtain ⟨first, second, follows, -, alike⟩ := unaffected (fun _ => 0) (fun _ => 0)
  obtain ⟨bounds, -⟩ := (alike_iff _ _ _).mp alike
  have update : first.ins = 0xD6 := (follows.byte INS hasIns).trans isUpdate
  exact ⟨complete, (inside_iff_within follows.toHolds hasLc 1024).mp (bounds.2.2 update)⟩

theorem selfContained_of_unaffected (unaffected : Unaffected bytes current_file ndef_file)
    (fits : bytes.length ≤ 255) : SelfContained bytes current_file where
  ins := ins_of_unaffected unaffected
  select := select_of_unaffected unaffected
  read := read_of_unaffected unaffected
  update isUpdate := update_of_unaffected unaffected isUpdate fits

end Necessary

section Reaching

theorem exists_run_selected (current_file : T4T_FILE) (ndef_file : Block 1024) :
    ∃ inputs tag log, machine.Run (boot ndef_file) inputs tag log ∧
      tag.current_file = current_file ∧ tag.ndef_file = ndef_file := by
  cases current_file with
  | NONE => exact ⟨[], _, _, .refl, rfl, rfl⟩
  | CC_FILE => exact ⟨[((selectRequest 0x03).frame, [])], _, _, .single rfl, rfl, rfl⟩
  | NDEF_FILE => exact ⟨[((selectRequest 0x04).frame, [])], _, _, .single rfl, rfl, rfl⟩

theorem echo_step (tag : Tag) (frame : Frame) (readings : List UInt8)
    (unknown : (tag.receive frame).ins = 0) (taken : frame.bytes.length ≤ capacity readings) :
    machine.step tag (frame, readings) =
      some (tag.receive frame, [(tag.receive frame).answer]) := by
  have bounds : (tag.receive frame).InBounds :=
    ⟨fun read => absurd (unknown.symm.trans read) (by decide),
      fun read => absurd (unknown.symm.trans read) (by decide),
      fun update => absurd (unknown.symm.trans update) (by decide)⟩
  have unchanged : (tag.receive frame).next = tag.receive frame := by
    simp [Tag.next, unknown]
  have length : (tag.receive frame).answer.length = frame.bytes.length := by
    simp [Tag.answer, unknown, Tag.rfLen_receive]
  change process _ _ = _
  rw [process_eq tag frame readings bounds, length, if_pos taken, unchanged]

/-- A frame that fills the buffer with the given bytes. -/
def fillFrame (content : Nat → UInt8) : Frame where
  bytes := (List.range 255).map fun k => if k = INS then 0 else content k
  crc := (content 255, 0)
  nonempty := by simp
  fits := by simp

/-- Earlier frames can leave any bytes behind a frame, with any selection. -/
theorem exists_run_follows (frame : Frame) (content : Nat → UInt8) (current_file : T4T_FILE)
    (ndef_file : Block 1024) :
    ∃ inputs tag log, ∃ last : Frame, machine.Run (boot ndef_file) inputs tag log ∧
      tag.current_file = current_file ∧ tag.ndef_file = ndef_file ∧ last.bytes = frame.bytes ∧
      (tag.receive last).Follows frame.bytes content current_file ndef_file := by
  obtain ⟨inputs, tag, log, run, selected, file⟩ := exists_run_selected current_file ndef_file
  have fillLength : (fillFrame content).bytes.length = 255 := by simp [fillFrame]
  have filled (k : Nat) (inside : k < 256) (other : k ≠ INS) :
      (tag.receive (fillFrame content)).byte k = content k := by
    rw [Tag.byte_receive _ _ (by omega), Tag.length_stored, fillLength, if_pos (by omega),
      Frame.stored, List.getD_eq_getElem?_getD]
    by_cases last : k = 255
    · rw [List.getElem?_append_right (by omega), fillLength, last]
      rfl
    · rw [List.getElem?_append_left (by omega)]
      simp [fillFrame, show k < 255 by omega, other]
  have unknown : (tag.receive (fillFrame content)).ins = 0 := by
    have header : (tag.receive (fillFrame content)).ins = (fillFrame content).bytes.getD INS 0 :=
      Tag.byte_receive_of_lt (fillFrame content) tag (by rw [fillLength]; decide)
    rw [header]
    simp [fillFrame, INS]
  let last : Frame := ⟨frame.bytes, (content frame.bytes.length, content (frame.bytes.length + 1)),
    frame.nonempty, frame.fits⟩
  refine ⟨_, _, _, last, run.snoc (echo_step tag (fillFrame content) (List.replicate 10 0) unknown
    (by rw [fillLength]; decide)), selected, file, rfl, holds_receive _ last, ?_, selected, file⟩
  intro k inside behind
  have nonempty := frame.nonempty
  have stored : last.stored.length = frame.bytes.length + 2 := Tag.length_stored last
  rw [Tag.byte_receive _ _ (by omega), stored]
  by_cases crc : k < frame.bytes.length + 2
  · rw [if_pos crc, Frame.stored, List.getD_eq_getElem?_getD, List.getElem?_append_right behind]
    obtain rfl | rfl : k = frame.bytes.length ∨ k = frame.bytes.length + 1 := by omega
    · simp [last]
    · simp [last]
  · rw [if_neg crc]
    exact filled k inside (by unfold INS; omega)

end Reaching

/-- A frame is processed in the same way whatever was received before exactly if
it is self-contained. -/
theorem isolated_iff (frame : Frame) (current_file : T4T_FILE) (ndef_file : Block 1024) :
    Isolated frame.bytes current_file ndef_file ↔ SelfContained frame.bytes current_file := by
  constructor
  · intro isolated
    have unaffected : Unaffected frame.bytes current_file ndef_file := by
      intro one two
      obtain ⟨firstInputs, first, firstLog, firstLast, firstRun, firstFile, firstData, firstBytes,
        firstFollows⟩ := exists_run_follows frame one current_file ndef_file
      obtain ⟨secondInputs, second, secondLog, secondLast, secondRun, secondFile, secondData,
        secondBytes, secondFollows⟩ := exists_run_follows frame two current_file ndef_file
      exact ⟨_, _, firstFollows, secondFollows, isolated _ _ _ _ _ _ _ _ firstRun secondRun firstFile
        secondFile firstData secondData _ _ firstBytes secondBytes []⟩
    exact selfContained_of_unaffected unaffected frame.fits
  · intro contained firstBoot secondBoot firstInputs secondInputs first second firstLog secondLog
      firstRun secondRun firstFile secondFile firstData secondData firstFrame secondFrame firstBytes
      secondBytes readings
    have firstHolds := holds_receive first firstFrame
    have secondHolds := holds_receive second secondFrame
    rw [firstBytes] at firstHolds
    rw [secondBytes] at secondHolds
    have current : (first.receive firstFrame).current_file = current_file := firstFile
    have twins : Twins frame.bytes (first.receive firstFrame) (second.receive secondFrame) :=
      ⟨firstHolds, secondHolds, firstFile.trans secondFile.symm, firstData.trans secondData.symm⟩
    exact alike_of_selfContained twins (current ▸ contained) readings

/-- A frame with an unknown command that leaves a byte at index 9. -/
def leaveFrame (byte : UInt8) : Frame :=
  ⟨[0x02, 0x00, 0x00, 0x00, 0x00, 0x00, 0x00, 0x00, 0x00, byte], (0, 0), Nat.succ_pos _, by simp⟩

def shortUpdate : Frame :=
  ⟨[0x02, 0x00, 0xD6, 0x00, 0x00, 0x04], (0, 0), Nat.succ_pos _, by simp⟩

/-- The short UPDATE stores what the frame before it left in the buffer. -/
theorem frames_leak :
    ∃ first second firstLog secondLog firstNext secondNext,
      machine.Run (boot fun _ => 0) [(leaveFrame 0xAA, [])] first firstLog ∧
      machine.Run (boot fun _ => 0) [(leaveFrame 0xBB, [])] second secondLog ∧
      first.current_file = second.current_file ∧ first.ndef_file = second.ndef_file ∧
      machine.step first (shortUpdate, []) = some (firstNext, [[0x02, 0x90, 0x00]]) ∧
      machine.step second (shortUpdate, []) = some (secondNext, [[0x02, 0x90, 0x00]]) ∧
      firstNext.ndef_file 3 = 0xAA ∧ secondNext.ndef_file 3 = 0xBB :=
  ⟨_, _, _, _, _, _, .single rfl, .single rfl, rfl, rfl, rfl, rfl, rfl, rfl⟩

end WifiIot.Nfc
