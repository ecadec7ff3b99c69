import WifiIot.Paho.Packet

/-!
# Packets from a stream

The reader that does not block is called again and again until a packet is there.
Between two calls it keeps how far it has come in the length and in the rest of
the packet; the invariant says which bytes of the packet have been taken from the
stream and where they are.

Source: `paho_mqtt/MQTTPacket/src/MQTTPacket.c`, `MQTTPacket_read`,
`MQTTPacket_readnb`.
-/

namespace WifiIot.Paho

open Memory Wire

variable {size : Nat}

/-- What `getfn` returns: -1, 0, or the number of bytes that it has put down, which
is not 0. -/
inductive Answer where
  | error
  | again
  | read (byte : UInt8) (more : List UInt8)

/-- `*(trp->getfn)` on what identifies the transport. -/
abbrev Getfn (Sck : Type) := Sck → Nat → Answer × Sck

structure MQTTTransport (Sck : Type) where
  sck : Sck
  multiplier : Nat := 1
  rem_len : Nat := 0
  len : Nat := 0
  state : Nat := 0

variable {Sck : Type}

/-! ## Blocking -/

def getchar (getfn : Getfn Sck) (sck : Sck) : Checked Buffer (Option UInt8 × Sck) :=
  match getfn sck 1 with
  | (.read c [], sck) => .ok (some c, sck)
  | (_, sck) => .ok (none, sck)

/-- The result of the reading of the length is not looked at. -/
def MQTTPacket_read (getfn : Getfn Sck) (buf : Block size) (sck : Sck) :
    Checked Buffer (Int × Block size × Sck) :=
  match getfn sck 1 with
  | (.read byte [], sck) => do
      let output ← (⟨buf, 0⟩ : Output size).put .buf byte
      let (decoded, sck) ← MQTTPacket_decode (getchar getfn) sck
      let output ← MQTTPacket_encode decoded.value output
      if decoded.value + output.ptr > size then .ok (-1, output.block, sck)
      else if decoded.value ≠ 0 then
        match getfn sck decoded.value with
        | (.read byte more, sck) =>
            let output ← output.emit .buf (byte :: more)
            if (byte :: more).length ≠ decoded.value then .ok (-1, output.block, sck)
            else
              let byte ← output.block.read .buf 0
              .ok ((MQTTHeader.ofByte byte).type, output.block, sck)
        | (_, sck) => .ok (-1, output.block, sck)
      else
        let byte ← output.block.read .buf 0
        .ok ((MQTTHeader.ofByte byte).type, output.block, sck)
  | (_, sck) => .ok (-1, buf, sck)

/-! ## Not blocking -/

/-- The rounds of `MQTTPacket_decodenb`.  After four of them it gives up. -/
def decodenbRound (getfn : Getfn Sck) : Nat → MQTTTransport Sck → Int × MQTTTransport Sck
  | 0, trp => (MQTTPACKET_READ_ERROR, trp)
  | rounds + 1, trp =>
      if trp.len ≥ MAX_NO_OF_REMAINING_LENGTH_BYTES then (MQTTPACKET_READ_ERROR, trp)
      else
        match getfn trp.sck 1 with
        | (.error, sck) => (MQTTPACKET_READ_ERROR, { trp with sck := sck })
        | (.again, sck) => (0, { trp with sck := sck })
        | (.read c _, sck) =>
            let trp := { trp with
              sck := sck, len := trp.len + 1
              rem_len := trp.rem_len + (c &&& 127).toNat * trp.multiplier
              multiplier := trp.multiplier * 128 }
            if c &&& 128 ≠ 0 then decodenbRound getfn rounds trp else (trp.len, trp)

def MQTTPacket_decodenb (getfn : Getfn Sck) (trp : MQTTTransport Sck) : Int × MQTTTransport Sck :=
  let trp := if trp.len = 0 then { trp with multiplier := 1, rem_len := 0 } else trp
  decodenbRound getfn (MAX_NO_OF_REMAINING_LENGTH_BYTES + 1) trp

/-- The type of the packet; the next call begins with a new one. -/
def complete (buf : Block size) (trp : MQTTTransport Sck) :
    Checked Buffer (Int × Block size × MQTTTransport Sck) := do
  let byte ← buf.read .buf 0
  .ok ((MQTTHeader.ofByte byte).type, buf, { trp with state := 0 })

/-- `case 2` -/
def readRest (getfn : Getfn Sck) (buf : Block size) (trp : MQTTTransport Sck) :
    Checked Buffer (Int × Block size × MQTTTransport Sck) :=
  if trp.rem_len ≠ 0 then
    match getfn trp.sck trp.rem_len with
    | (.error, sck) => .ok (-1, buf, { trp with sck := sck, state := 0 })
    | (.again, sck) => .ok (0, buf, { trp with sck := sck })
    | (.read byte more, sck) => do
        let bytes := byte :: more
        let output ← (⟨buf, trp.len⟩ : Output size).emit .buf bytes
        let trp := { trp with
          sck := sck, rem_len := trp.rem_len - bytes.length, len := trp.len + bytes.length }
        if trp.rem_len ≠ 0 then .ok (0, output.block, trp) else complete output.block trp
  else complete buf trp

/-- `case 1` -/
def readLength (getfn : Getfn Sck) (buf : Block size) (trp : MQTTTransport Sck) :
    Checked Buffer (Int × Block size × MQTTTransport Sck) :=
  match MQTTPacket_decodenb getfn trp with
  | (frc, trp) =>
      if frc = MQTTPACKET_READ_ERROR then .ok (-1, buf, { trp with state := 0 })
      else if frc = 0 then .ok (0, buf, trp)
      else do
        let output ← MQTTPacket_encode trp.rem_len (⟨buf, 1⟩ : Output size)
        let trp := { trp with len := output.ptr }
        if trp.rem_len + trp.len > size then .ok (-1, output.block, { trp with state := 0 })
        else readRest getfn output.block { trp with state := 2 }

/-- `case 0` -/
def readHeader (getfn : Getfn Sck) (buf : Block size) (trp : MQTTTransport Sck) :
    Checked Buffer (Int × Block size × MQTTTransport Sck) :=
  match getfn trp.sck 1 with
  | (.error, sck) => .ok (-1, buf, { trp with sck := sck, state := 0 })
  | (.again, sck) => .ok (0, buf, { trp with sck := sck })
  | (.read byte more, sck) => do
      let output ← (⟨buf, 0⟩ : Output size).emit .buf (byte :: more)
      readLength getfn output.block { trp with sck := sck, len := 0, state := 1 }

def MQTTPacket_readnb (getfn : Getfn Sck) (buf : Block size) (trp : MQTTTransport Sck) :
    Checked Buffer (Int × Block size × MQTTTransport Sck) :=
  match trp.state with
  | 1 => readLength getfn buf trp
  | 2 => readRest getfn buf trp
  | _ => readHeader getfn buf { trp with state := 0 }

def poll (getfn : Getfn Sck) :
    Nat → Block size → MQTTTransport Sck → Checked Buffer (Int × Block size × MQTTTransport Sck)
  | 0, buf, trp => .ok (0, buf, trp)
  | calls + 1, buf, trp => do
      let (rc, buf, trp) ← MQTTPacket_readnb getfn buf trp
      if rc = 0 then poll getfn calls buf trp else .ok (rc, buf, trp)

/-- A transport that delivers a stream, in pieces of any size and with any number of
refusals between them, of which there are finitely many while bytes are left. -/
structure Delivers (getfn : Getfn Sck) (stream : Sck → List UInt8) (patience : Sck → Nat) : Prop where
  read : ∀ sck count byte more next, getfn sck count = (.read byte more, next) →
    (byte :: more).length ≤ count ∧ stream sck = byte :: more ++ stream next ∧
      patience next ≤ patience sck
  again : ∀ sck count next, 0 < count → getfn sck count = (.again, next) →
    stream next = stream sck ∧ (stream sck ≠ [] → patience next < patience sck)
  sound : ∀ sck count next, stream sck ≠ [] → getfn sck count ≠ (.error, next)

section Progress

variable {getfn : Getfn Sck} {stream : Sck → List UInt8} {patience : Sck → Nat}

/-- The length of a packet between two rounds: what has been read of it, and the
value `left` of the digits that are still in the stream. -/
structure Digits (stream : Sck → List UInt8) (value total : Nat) (tail : List UInt8)
    (trp : MQTTTransport Sck) (left : Nat) : Prop where
  value : value = trp.rem_len + left * trp.multiplier
  total : trp.len + (lengthBytes left).length = total
  ahead : stream trp.sck = lengthBytes left ++ tail

variable {value total : Nat} {tail : List UInt8}

theorem lengthBytes_ne_nil (length : Nat) : lengthBytes length ≠ [] := by
  rw [lengthBytes]
  split <;> exact List.cons_ne_nil _ _

theorem Delivers.read_one (delivers : Delivers getfn stream patience) {sck next : Sck}
    {byte first : UInt8} {more rest : List UInt8} (answered : getfn sck 1 = (.read byte more, next))
    (ahead : stream sck = first :: rest) :
    byte = first ∧ more = [] ∧ stream next = rest ∧ patience next ≤ patience sck := by
  obtain ⟨few, same, patient⟩ := delivers.read sck 1 byte more next answered
  have nothing : more = [] := List.length_eq_zero_iff.mp (Nat.le_zero.mp (Nat.le_of_succ_le_succ few))
  rw [ahead, nothing, List.singleton_append, List.cons.injEq] at same
  exact ⟨same.1.symm, nothing, same.2.symm, patient⟩

theorem Delivers.answers (delivers : Delivers getfn stream patience) {sck : Sck} {count : Nat}
    (positive : 0 < count) (left : stream sck ≠ []) :
    (∃ next, getfn sck count = (.again, next) ∧ stream next = stream sck ∧
        patience next < patience sck) ∨
      ∃ byte more next, getfn sck count = (.read byte more, next) := by
  cases answered : getfn sck count with
  | mk answer next =>
      cases answer with
      | error => exact absurd answered (delivers.sound _ _ _ left)
      | again =>
          obtain ⟨same, patient⟩ := delivers.again _ _ _ positive answered
          exact .inl ⟨next, rfl, same, patient left⟩
      | read byte more => exact .inr ⟨byte, more, next, rfl⟩

def afterDigit (trp : MQTTTransport Sck) (c : UInt8) (sck : Sck) : MQTTTransport Sck :=
  { trp with
    sck := sck, len := trp.len + 1
    rem_len := trp.rem_len + (c &&& 127).toNat * trp.multiplier
    multiplier := trp.multiplier * 128 }

theorem Digits.read {left : Nat} {trp : MQTTTransport Sck} {c : UInt8} {more : List UInt8} {sck : Sck}
    (digits : Digits stream value total tail trp left) (delivers : Delivers getfn stream patience)
    (answered : getfn trp.sck 1 = (.read c more, sck)) :
    patience sck ≤ patience trp.sck ∧
      ((c &&& 128 ≠ 0 ∧ Digits stream value total tail (afterDigit trp c sck) (left / 128)) ∨
        (¬(c &&& 128 ≠ 0) ∧ trp.len + 1 = total ∧ (afterDigit trp c sck).rem_len = value ∧
          stream sck = tail)) := by
  obtain ⟨valueEq, totalEq, ahead⟩ := digits
  rw [lengthBytes] at ahead
  by_cases goesOn : 0 < left / 128
  · rw [if_pos goesOn, List.cons_append] at ahead
    obtain ⟨rfl, -, behind, patient⟩ := delivers.read_one answered ahead
    rw [length_lengthBytes_of_le (by omega)] at totalEq
    have marked := toNat_marked left
    have later : value = trp.rem_len + (left % 128 + 128) % 128 * trp.multiplier +
        left / 128 * (trp.multiplier * 128) := by
      rw [valueEq, Nat.add_mod_right, Nat.mod_mod, Nat.add_assoc, Nat.mul_comm trp.multiplier 128,
        ← Nat.mul_assoc, ← Nat.add_mul, Nat.mul_comm _ 128, Nat.mod_add_div]
    refine ⟨patient, .inl ⟨?_, ?_, ?_, behind⟩⟩
    · rw [and_128_ne_zero_iff, marked]
      omega
    · simp only [afterDigit, toNat_and_127, marked]
      exact later
    · simp only [afterDigit]
      omega
  · rw [if_neg goesOn, List.singleton_append] at ahead
    obtain ⟨rfl, -, behind, patient⟩ := delivers.read_one answered ahead
    rw [length_lengthBytes_of_lt (by omega)] at totalEq
    refine ⟨patient, .inr ⟨?_, totalEq, ?_, behind⟩⟩
    · rw [and_128_ne_zero_iff, digit_lt]
      omega
    · rw [afterDigit, toNat_and_127, digit_lt, Nat.mod_mod, Nat.mod_eq_of_lt (by omega), valueEq]

/-- The rounds of the length, from any digit on.  They end with the last digit or
where the transport has nothing. -/
theorem decodenbRound_eq (delivers : Delivers getfn stream patience) (few : total ≤ 4)
    {rounds left : Nat} {trp : MQTTTransport Sck} (enough : 4 < trp.len + rounds)
    (digits : Digits stream value total tail trp left) :
    ∃ next, next.state = trp.state ∧
      ((decodenbRound getfn rounds trp = ((total : Int), next) ∧ next.rem_len = value ∧
          stream next.sck = tail ∧ patience next.sck ≤ patience trp.sck) ∨
        (decodenbRound getfn rounds trp = (0, next) ∧ patience next.sck < patience trp.sck ∧
          trp.len ≤ next.len ∧ ∃ rest, Digits stream value total tail next rest ∧
            (next.len = 0 → rest = left))) := by
  have positive := List.length_pos_of_ne_nil (lengthBytes_ne_nil left)
  have counted := digits.total
  induction rounds generalizing trp left with
  | zero => omega
  | succ rounds inductionHypothesis =>
      have nonempty : stream trp.sck ≠ [] := by
        rw [digits.ahead]
        simp [lengthBytes_ne_nil]
      have room : ¬trp.len ≥ MAX_NO_OF_REMAINING_LENGTH_BYTES := by
        rw [MAX_NO_OF_REMAINING_LENGTH_BYTES]
        omega
      rw [decodenbRound, if_neg room]
      obtain ⟨sck, answered, same, patient⟩ | ⟨c, more, sck, answered⟩ :=
        delivers.answers Nat.one_pos nonempty
      · rw [answered]
        exact ⟨{ trp with sck := sck }, rfl, .inr ⟨rfl, patient, Nat.le_refl _, left,
          ⟨digits.value, digits.total, same.trans digits.ahead⟩, fun _ => rfl⟩⟩
      · rw [answered]
        simp only
        obtain ⟨patient, ⟨mark, further⟩ | ⟨ends, last, read, behind⟩⟩ := digits.read delivers answered
        · rw [if_pos mark]
          obtain ⟨next, state, reached | waiting⟩ := inductionHypothesis
            (by simp only [afterDigit]; omega) further
            (List.length_pos_of_ne_nil (lengthBytes_ne_nil _)) further.total
          · exact ⟨next, state, .inl ⟨reached.1, reached.2.1, reached.2.2.1,
              reached.2.2.2.trans patient⟩⟩
          · obtain ⟨again, impatient, longer, rest, digits, -⟩ := waiting
            have read : next.len ≠ 0 := Nat.ne_of_gt ((Nat.succ_pos _).trans_le longer)
            exact ⟨next, state, .inr ⟨again, impatient.trans_le patient,
              (Nat.le_succ _).trans longer, rest, digits, fun unread => absurd unread read⟩⟩
        · rw [if_neg ends]
          exact ⟨afterDigit trp c sck, rfl, .inl ⟨by rw [← last]; rfl, read, behind, patient⟩⟩

/-! ## From call to call -/

/-- How far a packet has come: nothing of it, its first byte and a part of its length,
or all but the bytes `left`. -/
inductive Progress (stream : Sck → List UInt8) (header : MQTTHeader) (body after : List UInt8)
    (buf : Block size) (trp : MQTTTransport Sck) : Prop where
  | header : trp.state ≠ 1 → trp.state ≠ 2 →
      stream trp.sck = packetBytes header body ++ after →
      Progress stream header body after buf trp
  | length {left : Nat} : trp.state = 1 → Reads buf 0 [header.byte] →
      (trp.len ≠ 0 → body.length = trp.rem_len + left * trp.multiplier) →
      (trp.len = 0 → left = body.length) →
      trp.len + (lengthBytes left).length = (lengthBytes body.length).length →
      stream trp.sck = lengthBytes left ++ (body ++ after) →
      Progress stream header body after buf trp
  | rest {done left : List UInt8} : trp.state = 2 → body = done ++ left → left ≠ [] →
      Reads buf 0 (header.byte :: (lengthBytes body.length ++ done)) →
      trp.len = 1 + (lengthBytes body.length).length + done.length → trp.rem_len = left.length →
      stream trp.sck = left ++ after →
      Progress stream header body after buf trp

/-- How often the reader can still come back without a packet. -/
def pending (patience : Sck → Nat) (body : List UInt8) (trp : MQTTTransport Sck) : Nat :=
  patience trp.sck + if trp.state = 2 then trp.rem_len else body.length

/-- What a call comes to: one more call, with fewer of them left, or the packet. -/
def Answers (stream : Sck → List UInt8) (patience : Sck → Nat) (header : MQTTHeader)
    (body after : List UInt8) (bound : Nat) (buf : Block size)
    (result : Checked Buffer (Int × Block size × MQTTTransport Sck)) : Prop :=
  ∃ rc block next, result = .ok (rc, block, next) ∧
    (∀ index, (packetBytes header body).length ≤ index → block.byteAt index = buf.byteAt index) ∧
    ((rc = 0 ∧ Progress stream header body after block next ∧ pending patience body next < bound) ∨
      (rc = (header.type % 16 : Nat) ∧ next.state = 0 ∧
        Reads block 0 (packetBytes header body) ∧ stream next.sck = after ∧
        patience next.sck ≤ bound))

variable {header : MQTTHeader} {body after : List UInt8} {buf : Block size}
  {trp : MQTTTransport Sck}

theorem Answers.of_kept {bound : Nat} {block : Block size}
    {result : Checked Buffer (Int × Block size × MQTTTransport Sck)}
    (answers : Answers stream patience header body after bound block result)
    (kept : ∀ index, (packetBytes header body).length ≤ index →
      block.byteAt index = buf.byteAt index) :
    Answers stream patience header body after bound buf result := by
  obtain ⟨rc, final, next, done, same, outcome⟩ := answers
  exact ⟨rc, final, next, done, fun index beyond => (same index beyond).trans (kept index beyond),
    outcome⟩

theorem complete_answers {bound : Nat} (reads : Reads buf 0 (packetBytes header body))
    (ahead : stream trp.sck = after) (early : patience trp.sck ≤ bound) :
    Answers stream patience header body after bound buf (complete buf trp) := by
  refine ⟨_, buf, { trp with state := 0 }, ?_, fun _ _ => rfl, .inr ⟨rfl, rfl, reads, ahead, early⟩⟩
  rw [complete, read_of_reads reads, ok_bind, MQTTHeader.ofByte_byte]

theorem emit_behind {front bytes : List UInt8} (reads : Reads buf 0 front)
    (fits : front.length + bytes.length ≤ size) :
    ∃ block, (⟨buf, front.length⟩ : Output size).emit Buffer.buf bytes =
        .ok ⟨block, front.length + bytes.length⟩ ∧ Reads block 0 (front ++ bytes) ∧
      ∀ index, front.length + bytes.length ≤ index → block.byteAt index = buf.byteAt index := by
  refine ⟨((⟨buf, front.length⟩ : Output size).filled bytes).block,
    Output.emit_eq_ok fits, ?_, fun index behind => Output.byteAt_filled_of_outside (.inr behind)⟩
  rw [reads_append_iff, Nat.zero_add]
  refine ⟨?_, Output.reads_filled fits⟩
  rw [reads_iff] at reads ⊢
  intro k inside
  obtain ⟨within, same⟩ := reads k inside
  refine ⟨within, ?_⟩
  rw [Output.byteAt_filled_of_outside (.inl (by simpa using inside))]
  exact same

theorem exists_of_append_eq {first second left rest : List UInt8}
    (same : first ++ second = left ++ rest) (shorter : first.length ≤ left.length) :
    ∃ more, left = first ++ more ∧ second = more ++ rest := by
  rcases List.append_eq_append_iff.mp same with ⟨more, split, behind⟩ | ⟨more, split, behind⟩
  · exact ⟨more, split, behind⟩
  · have nothing : more = [] := by
      have lengths := congrArg List.length split
      rw [List.length_append] at lengths
      exact List.length_eq_zero_iff.mp (by omega)
    subst nothing
    exact ⟨[], by rw [split, List.append_nil, List.append_nil], behind.symm⟩

theorem piece_answers {done left : List UInt8} (split : body = done ++ left)
    (reads : Reads buf 0 (header.byte :: (lengthBytes body.length ++ done)))
    (state : trp.state = 2)
    (len : trp.len = 1 + (lengthBytes body.length).length + done.length)
    (rem_len : trp.rem_len = left.length) (ahead : stream trp.sck = left ++ after) {bound : Nat}
    (early : patience trp.sck + left.length < bound) :
    Answers stream patience header body after bound buf
      (if trp.rem_len ≠ 0 then .ok (0, buf, trp) else complete buf trp) := by
  by_cases empty : left = []
  · subst empty
    rw [List.append_nil] at split
    subst split
    rw [if_neg (by simp [rem_len])]
    exact complete_answers reads ahead early.le
  · have positive := List.length_pos_of_ne_nil empty
    rw [if_pos (by omega)]
    refine ⟨0, buf, trp, rfl, fun _ _ => rfl,
      .inl ⟨rfl, .rest state split empty reads len rem_len ahead, ?_⟩⟩
    rw [pending, if_pos state, rem_len]
    exact early

theorem readRest_answers (delivers : Delivers getfn stream patience)
    (fits : (packetBytes header body).length ≤ size) {done left : List UInt8}
    (split : body = done ++ left)
    (reads : Reads buf 0 (header.byte :: (lengthBytes body.length ++ done)))
    (state : trp.state = 2)
    (len : trp.len = 1 + (lengthBytes body.length).length + done.length)
    (rem_len : trp.rem_len = left.length) (ahead : stream trp.sck = left ++ after) {bound : Nat}
    (early : patience trp.sck + left.length ≤ bound) :
    Answers stream patience header body after bound buf (readRest getfn buf trp) := by
  have front : (header.byte :: (lengthBytes body.length ++ done)).length = trp.len := by
    rw [len, List.length_cons, List.length_append]
    omega
  have total : (packetBytes header body).length = trp.len + left.length := by
    have whole := congrArg List.length split
    rw [List.length_append] at whole
    rw [length_packetBytes, len]
    omega
  rw [readRest]
  by_cases empty : left = []
  · subst empty
    rw [List.append_nil] at split
    subst split
    rw [if_neg (by simp [rem_len])]
    exact complete_answers reads ahead ((Nat.le_add_right _ _).trans early)
  · have bytesLeft := List.length_pos_of_ne_nil empty
    rw [if_pos (by omega)]
    have nonempty : stream trp.sck ≠ [] := by simp [ahead, empty]
    obtain ⟨sck, answered, same, patient⟩ | ⟨byte, more, sck, answered⟩ :=
      delivers.answers (show 0 < trp.rem_len by omega) nonempty
    · rw [answered]
      refine ⟨0, buf, { trp with sck := sck }, rfl, fun _ _ => rfl,
        .inl ⟨rfl, .rest state split empty reads len rem_len (same.trans ahead), ?_⟩⟩
      rw [pending, if_pos state, rem_len]
      exact (Nat.add_lt_add_right patient _).trans_le early
    · rw [answered]
      obtain ⟨few, same, patient⟩ := delivers.read _ _ _ _ _ answered
      simp only
      have positive : 0 < (byte :: more).length := Nat.succ_pos _
      generalize byte :: more = bytes at few same positive ⊢
      obtain ⟨later, parts, behind⟩ :=
        exists_of_append_eq (same.symm.trans ahead) (few.trans rem_len.le)
      have lengths : left.length = bytes.length + later.length := by
        rw [parts, List.length_append]
      have room : (header.byte :: (lengthBytes body.length ++ done)).length + bytes.length ≤ size := by
        omega
      obtain ⟨block, emitted, held, kept⟩ := emit_behind reads room
      rw [front] at emitted kept
      rw [emitted, ok_bind]
      rw [List.cons_append, List.append_assoc] at held
      have further : body = (done ++ bytes) ++ later := by
        rw [split, parts, List.append_assoc]
      let next : MQTTTransport Sck := { trp with
        sck := sck, rem_len := trp.rem_len - bytes.length, len := trp.len + bytes.length }
      have piece : Answers stream patience header body after bound block
          (if next.rem_len ≠ 0 then .ok (0, block, next) else complete block next) := by
        apply piece_answers further held
        · exact state
        · simp only [next, len, List.length_append]
          omega
        · simp only [next]
          omega
        · exact behind
        · simp only [next]
          omega
      exact piece.of_kept fun index beyond => kept index (by omega)

/-- The first round of a length clears what the last packet has left. -/
theorem exists_started {left : Nat}
    (value : trp.len ≠ 0 → body.length = trp.rem_len + left * trp.multiplier)
    (fresh : trp.len = 0 → left = body.length)
    (total : trp.len + (lengthBytes left).length = (lengthBytes body.length).length)
    (ahead : stream trp.sck = lengthBytes left ++ after) :
    ∃ started, MQTTPacket_decodenb getfn trp =
        decodenbRound getfn (MAX_NO_OF_REMAINING_LENGTH_BYTES + 1) started ∧
      started.sck = trp.sck ∧ started.state = trp.state ∧ started.len = trp.len ∧
      Digits stream body.length (lengthBytes body.length).length after started left := by
  refine ⟨_, rfl, ?_, ?_, ?_, ?_, ?_, ?_⟩
  · split <;> rfl
  · split <;> rfl
  · split <;> rfl
  · split
    · rename_i none
      rw [Nat.zero_add, Nat.mul_one, fresh none]
    · rename_i some
      exact value some
  · split <;> exact total
  · split <;> exact ahead

/-- `case 1`: a part of the length, or all of it and what follows. -/
theorem readLength_answers (delivers : Delivers getfn stream patience)
    (bounded : body.length < 268435456) (fits : (packetBytes header body).length ≤ size) {left : Nat}
    (state : trp.state = 1) (reads : Reads buf 0 [header.byte])
    (value : trp.len ≠ 0 → body.length = trp.rem_len + left * trp.multiplier)
    (fresh : trp.len = 0 → left = body.length)
    (total : trp.len + (lengthBytes left).length = (lengthBytes body.length).length)
    (ahead : stream trp.sck = lengthBytes left ++ (body ++ after)) {bound : Nat}
    (early : patience trp.sck + body.length ≤ bound) :
    Answers stream patience header body after bound buf (readLength getfn buf trp) := by
  have few : (lengthBytes body.length).length ≤ 4 := by
    rw [length_lengthBytes bounded]
    split_ifs <;> decide
  have positive := List.length_pos_of_ne_nil (lengthBytes_ne_nil body.length)
  have length := length_packetBytes header body
  obtain ⟨started, startedEq, sck, startedState, startedLen, digits⟩ :=
    @exists_started _ getfn stream _ _ _ _ value fresh total ahead
  rw [state] at startedState
  have samePatience : patience started.sck = patience trp.sck := congrArg patience sck
  obtain ⟨next, nextState, done | waiting⟩ := decodenbRound_eq delivers few
    (show 4 < started.len + (MAX_NO_OF_REMAINING_LENGTH_BYTES + 1) by
      rw [MAX_NO_OF_REMAINING_LENGTH_BYTES]; omega) digits
  · obtain ⟨decoded, rem_len, behind, patient⟩ := done
    obtain ⟨block, emitted, held, kept⟩ := emit_behind reads
      (show [header.byte].length + (lengthBytes body.length).length ≤ size by
        rw [List.length_singleton]; omega)
    rw [List.length_singleton] at emitted kept
    rw [readLength, startedEq, decoded]
    simp only [MQTTPACKET_READ_ERROR]
    rw [if_neg (by omega), if_neg (by omega), rem_len, MQTTPacket_encode_eq, emitted, ok_bind]
    simp only
    rw [if_neg (by omega)]
    rw [List.singleton_append] at held
    have nothing : Reads block 0 (header.byte :: (lengthBytes body.length ++ [])) := by
      rwa [List.append_nil]
    have rest : Answers stream patience header body after bound block
        (readRest getfn block { next with
          rem_len := body.length, len := 1 + (lengthBytes body.length).length, state := 2 }) := by
      apply readRest_answers delivers fits (List.nil_append body).symm nothing
      · rfl
      · rfl
      · rfl
      · exact behind
      · simp only
        omega
    exact rest.of_kept fun index beyond => kept index (by omega)
  · obtain ⟨decoded, impatient, longer, rest, digits, unread⟩ := waiting
    have notFailed : (0 : Int) ≠ MQTTPACKET_READ_ERROR := by decide
    rw [readLength, startedEq, decoded]
    simp only [if_neg notFailed, if_true]
    refine ⟨0, buf, next, rfl, fun _ _ => rfl, .inl ⟨rfl, ?_, ?_⟩⟩
    · refine .length (nextState.trans startedState) reads (fun _ => digits.value) ?_ digits.total
        digits.ahead
      intro nothing
      rw [unread nothing]
      exact fresh (by omega)
    · rw [pending, if_neg (by rw [nextState, startedState]; decide)]
      omega

theorem MQTTPacket_readnb_answers (delivers : Delivers getfn stream patience)
    (bounded : body.length < 268435456) (fits : (packetBytes header body).length ≤ size)
    (progress : Progress stream header body after buf trp) :
    Answers stream patience header body after (pending patience body trp) buf
      (MQTTPacket_readnb getfn buf trp) := by
  cases progress with
  | header notOne notTwo ahead =>
      have begins : MQTTPacket_readnb getfn buf trp = readHeader getfn buf { trp with state := 0 } := by
        rw [MQTTPacket_readnb]
        split
        · contradiction
        · contradiction
        · rfl
      have nonempty : stream trp.sck ≠ [] := by simp [ahead, packetBytes]
      have few := length_packetBytes header body
      rw [begins, readHeader, pending, if_neg notTwo]
      simp only
      obtain ⟨sck, answered, same, patient⟩ | ⟨byte, more, sck, answered⟩ :=
        delivers.answers Nat.one_pos nonempty
      · rw [answered]
        refine ⟨0, buf, { trp with sck := sck, state := 0 }, rfl, fun _ _ => rfl, .inl ⟨rfl, ?_, ?_⟩⟩
        · exact .header (by simp) (by simp) (same.trans ahead)
        · rw [pending, if_neg (by simp)]
          simp only
          omega
      · rw [answered]
        obtain ⟨rfl, rfl, behind, patient⟩ := delivers.read_one answered
          (ahead.trans (by rw [packetBytes, List.cons_append, List.append_assoc]))
        obtain ⟨block, emitted, held, kept⟩ := emit_behind (reads_nil buf 0)
          (show ([] : List UInt8).length + [header.byte].length ≤ size by
            rw [List.length_nil, List.length_singleton]; omega)
        rw [List.length_nil] at emitted
        simp only
        rw [emitted, ok_bind]
        have rest : Answers stream patience header body after (patience trp.sck + body.length)
            block (readLength getfn block { trp with sck := sck, len := 0, state := 1 }) := by
          refine readLength_answers delivers bounded fits rfl held (fun nonzero => absurd rfl nonzero)
            (fun _ => rfl) (Nat.zero_add _) behind ?_
          simp only
          omega
        refine rest.of_kept fun index beyond => kept index ?_
        rw [List.length_nil, List.length_singleton]
        omega
  | length state reads value fresh total ahead =>
      rw [MQTTPacket_readnb, state]
      exact readLength_answers delivers bounded fits state reads value fresh total ahead
        (by rw [pending, if_neg (by omega)])
  | rest state split unfinished reads len rem_len ahead =>
      rw [MQTTPacket_readnb, state]
      exact readRest_answers delivers fits split reads state len rem_len ahead
        (by rw [pending, if_pos state, rem_len])

/-- Called often enough, the reader returns the packet, whatever the pieces in which
the transport delivers it.  Nothing behind the packet is taken from the stream. -/
theorem poll_eq (delivers : Delivers getfn stream patience) (typed : header.type % 16 ≠ 0)
    (bounded : body.length < 268435456) (fits : (packetBytes header body).length ≤ size)
    (progress : Progress stream header body after buf trp) {calls : Nat}
    (enough : pending patience body trp < calls) :
    ∃ block next, poll getfn calls buf trp = .ok ((header.type % 16 : Nat), block, next) ∧
      next.state = 0 ∧ Reads block 0 (packetBytes header body) ∧
      (∀ index, (packetBytes header body).length ≤ index →
        block.byteAt index = buf.byteAt index) ∧
      stream next.sck = after ∧ patience next.sck ≤ pending patience body trp := by
  induction calls generalizing buf trp with
  | zero => exact absurd enough (Nat.not_lt_zero _)
  | succ calls inductionHypothesis =>
      obtain ⟨rc, block, next, called, kept, waiting | done⟩ :=
        MQTTPacket_readnb_answers delivers bounded fits progress
      · obtain ⟨rfl, further, fewer⟩ := waiting
        obtain ⟨final, last, polled, state, reads, same, rest, early⟩ :=
          inductionHypothesis further (by omega)
        refine ⟨final, last, ?_, state, reads, fun index beyond => ?_, rest, early.trans fewer.le⟩
        · rw [poll, called, ok_bind]
          exact polled
        · exact (same index beyond).trans (kept index beyond)
      · obtain ⟨rfl, state, reads, rest, early⟩ := done
        refine ⟨block, next, ?_, state, reads, kept, rest, early⟩
        rw [poll, called, ok_bind]
        exact if_neg (by exact_mod_cast typed)

theorem eq_sent {block : Block size} (reads : Reads block 0 (packetBytes header body))
    (kept : ∀ index, (packetBytes header body).length ≤ index →
      block.byteAt index = buf.byteAt index) : block = sent buf header body := by
  funext i
  rw [← Block.byteAt_eq block i, ← Block.byteAt_eq (sent buf header body) i]
  by_cases inside : i.val < (packetBytes header body).length
  · rw [sent, Output.filled, Block.byteAt_patch i.isLt, if_pos ⟨Nat.zero_le _, by omega⟩,
      Nat.sub_zero, ← List.getElem_eq_getD 0]
    simpa using reads.byteAt_eq inside
  · rw [kept _ (not_lt.mp inside), byteAt_sent buf (not_lt.mp inside)]

/-! ## The same packet, read at once -/

/-- A transport that waits until there are as many bytes as it is asked for. -/
def Waits (getfn : Getfn Sck) (stream : Sck → List UInt8) : Prop :=
  ∀ sck byte more rest, stream sck = byte :: more ++ rest →
    ∃ next, getfn sck (byte :: more).length = (.read byte more, next) ∧ stream next = rest

theorem spells_getchar (waits : Waits getfn stream) {bytes : List UInt8} {sck : Sck}
    (ahead : stream sck = bytes ++ after) :
    ∃ last, Spells (getchar getfn) sck bytes last ∧ stream last = after := by
  induction bytes generalizing sck with
  | nil => exact ⟨sck, rfl, ahead⟩
  | cons byte bytes inductionHypothesis =>
      obtain ⟨next, answered, behind⟩ := waits sck byte [] (bytes ++ after) ahead
      obtain ⟨last, spelled, rest⟩ := inductionHypothesis behind
      refine ⟨last, ⟨next, ?_, spelled⟩, rest⟩
      rw [getchar, show (1 : Nat) = [byte].length from rfl, answered]

theorem MQTTPacket_read_eq (waits : Waits getfn stream) (bounded : body.length < 268435456)
    (fits : (packetBytes header body).length ≤ size) {sck : Sck}
    (ahead : stream sck = packetBytes header body ++ after) :
    ∃ last, MQTTPacket_read getfn buf sck =
        .ok ((header.type % 16 : Nat), sent buf header body, last) ∧ stream last = after := by
  have length := length_packetBytes header body
  rw [packetBytes, List.cons_append, List.append_assoc] at ahead
  obtain ⟨next, first, ahead⟩ := waits sck header.byte [] _ ahead
  rw [List.length_singleton] at first
  obtain ⟨behindLength, spelled, ahead⟩ := spells_getchar waits ahead
  let empty : Output size := ⟨buf, 0⟩
  let front := empty.filled (header.byte :: lengthBytes body.length)
  have put : empty.put Buffer.buf header.byte = .ok (empty.filled [header.byte]) :=
    Output.put_eq_ok (by simp only [empty]; omega) _
  have opened : MQTTPacket_encode body.length (empty.filled [header.byte]) = .ok front := by
    rw [MQTTPacket_encode_eq, Output.emit_eq_ok (by simp [empty]; omega), Output.filled_append]
    rfl
  have ptr : front.ptr = 1 + (lengthBytes body.length).length := by
    simp only [front, empty, Output.ptr_filled, List.length_cons]
    omega
  have whole : front.filled body = empty.filled (packetBytes header body) := by
    rw [Output.filled_append, packetBytes, List.cons_append]
  have typeRead : (sent buf header body).read Buffer.buf 0 = .ok header.byte :=
    read_of_reads (reads_sent buf fits)
  have type : (MQTTHeader.ofByte header.byte).type = header.type % 16 := by
    rw [MQTTHeader.ofByte_byte]
  rw [MQTTPacket_read, first]
  simp only
  rw [put, ok_bind, MQTTPacket_decode_spelled bounded spelled, ok_bind]
  simp only
  rw [opened, ok_bind, if_neg (by omega)]
  cases body with
  | nil =>
      rw [Output.filled_nil] at whole
      rw [List.length_nil, if_neg (Ne.irrefl), whole]
      exact ⟨behindLength, by rw [← type, ← sent, typeRead, ok_bind], ahead⟩
  | cons byte more =>
      obtain ⟨last, answered, behind⟩ := waits behindLength byte more after ahead
      rw [if_pos (by simp), answered]
      simp only
      rw [Output.emit_eq_ok (by omega), ok_bind, whole, if_neg (by simp)]
      exact ⟨last, by rw [← type, ← sent, typeRead, ok_bind], behind⟩

/-! ## Packet after packet -/

/-- The next packets, each of them with the buffer as it is then. -/
def pollAll (getfn : Getfn Sck) (calls : Nat) :
    Nat → Block size → MQTTTransport Sck → Checked Buffer (List (Int × Block size))
  | 0, _, _ => .ok []
  | packets + 1, buf, trp => do
      let (rc, buf, trp) ← poll getfn calls buf trp
      let rest ← pollAll getfn calls packets buf trp
      .ok ((rc, buf) :: rest)

def readAll (getfn : Getfn Sck) :
    Nat → Block size → Sck → Checked Buffer (List (Int × Block size))
  | 0, _, _ => .ok []
  | packets + 1, buf, sck => do
      let (rc, buf, sck) ← MQTTPacket_read getfn buf sck
      let rest ← readAll getfn packets buf sck
      .ok ((rc, buf) :: rest)

def received : List (MQTTHeader × List UInt8) → Block size → List (Int × Block size)
  | [], _ => []
  | (header, body) :: packets, buf =>
      ((header.type % 16 : Nat), sent buf header body) :: received packets (sent buf header body)

def streamBytes (packets : List (MQTTHeader × List UInt8)) : List UInt8 :=
  packets.flatMap fun packet => packetBytes packet.1 packet.2

/-- Packets that both readers can tell from an error and from nothing. -/
def Receivable (size : Nat) (packets : List (MQTTHeader × List UInt8)) : Prop :=
  ∀ packet ∈ packets, packet.1.type % 16 ≠ 0 ∧ packet.2.length < 268435456 ∧
    (packetBytes packet.1 packet.2).length ≤ size

theorem pollAll_eq (delivers : Delivers getfn stream patience)
    {packets : List (MQTTHeader × List UInt8)} (receivable : Receivable size packets)
    (notOne : trp.state ≠ 1) (notTwo : trp.state ≠ 2)
    (ahead : stream trp.sck = streamBytes packets ++ after) {calls : Nat}
    (enough : patience trp.sck + (streamBytes packets).length < calls) :
    pollAll getfn calls packets.length buf trp = .ok (received packets buf) := by
  induction packets generalizing buf trp with
  | nil => rfl
  | cons packet packets inductionHypothesis =>
      obtain ⟨header, body⟩ := packet
      obtain ⟨⟨typed, bounded, fits⟩, others⟩ := List.forall_mem_cons.mp receivable
      have length := length_packetBytes header body
      rw [streamBytes, List.flatMap_cons, List.length_append] at enough
      simp only at typed bounded fits enough
      rw [streamBytes, List.flatMap_cons, List.append_assoc] at ahead
      have counted : pending patience body trp = patience trp.sck + body.length := by
        rw [pending, if_neg notTwo]
      obtain ⟨block, next, polled, state, reads, kept, behind, early⟩ :=
        poll_eq delivers typed bounded fits (.header notOne notTwo ahead : Progress stream header body
          (streamBytes packets ++ after) buf trp) (show _ < calls by rw [counted]; omega)
      obtain rfl := eq_sent reads kept
      have later := @inductionHypothesis (sent buf header body) next others (by omega) (by omega) behind
        (by rw [streamBytes]; omega)
      rw [List.length_cons, pollAll, polled, ok_bind]
      simp only
      rw [later, ok_bind, received]

theorem readAll_eq (waits : Waits getfn stream) {packets : List (MQTTHeader × List UInt8)}
    (receivable : Receivable size packets) {sck : Sck}
    (ahead : stream sck = streamBytes packets ++ after) :
    readAll getfn packets.length buf sck = .ok (received packets buf) := by
  induction packets generalizing buf sck with
  | nil => rfl
  | cons packet packets inductionHypothesis =>
      obtain ⟨header, body⟩ := packet
      obtain ⟨⟨typed, bounded, fits⟩, others⟩ := List.forall_mem_cons.mp receivable
      rw [streamBytes, List.flatMap_cons, List.append_assoc] at ahead
      obtain ⟨last, read, behind⟩ := MQTTPacket_read_eq waits bounded fits ahead
      have later := @inductionHypothesis (sent buf header body) others last behind
      rw [List.length_cons, readAll, read, ok_bind]
      simp only
      rw [later, ok_bind, received]

end Progress

/-- A transport with its bytes in pieces: a call gets what is left of the first of
them, as far as it asks for it, and nothing when that has been used up. -/
def inPieces : Getfn (List (List UInt8))
  | [], _ => (.error, [])
  | [] :: pieces, _ => (.again, pieces)
  | piece, 0 => (.again, piece)
  | (byte :: more) :: pieces, count + 1 =>
      (.read byte (more.take count), more.drop count :: pieces)

theorem delivers_inPieces : Delivers inPieces List.flatten List.length where
  read := by
    intro sck count byte more next answered
    unfold inPieces at answered
    split at answered <;> cases answered
    refine ⟨Nat.succ_le_succ (List.length_take_le _ _), ?_, Nat.le_refl _⟩
    rw [List.flatten_cons, List.flatten_cons, List.cons_append, List.cons_append, ← List.append_assoc,
      List.take_append_drop]
  again := by
    intro sck count next asked answered
    unfold inPieces at answered
    split at answered <;> cases answered
    · exact ⟨rfl, fun _ => Nat.lt_succ_self _⟩
    · exact absurd asked (Nat.lt_irrefl 0)
  sound := by
    intro sck count next nonempty answered
    unfold inPieces at answered
    split at answered <;> cases answered
    exact nonempty rfl

def atOnce : Getfn (List UInt8) := fun sck count =>
  match sck.take count with
  | [] => (.error, sck)
  | byte :: more => (.read byte more, sck.drop count)

theorem waits_atOnce : Waits atOnce id := by
  intro sck byte more rest ahead
  refine ⟨rest, ?_, rfl⟩
  rw [atOnce, show sck = byte :: more ++ rest from ahead, List.take_left, List.drop_left]

/-- Whatever the pieces in which a stream of packets comes and however often there is
nothing yet, the reader that does not block ends up with the buffers of the one that
waits. -/
theorem pollAll_eq_readAll {Waiting : Type} {getfn : Getfn Sck} {waitfn : Getfn Waiting}
    {stream : Sck → List UInt8} {patience : Sck → Nat} {whole : Waiting → List UInt8}
    (delivers : Delivers getfn stream patience) (waits : Waits waitfn whole)
    {packets : List (MQTTHeader × List UInt8)} (receivable : Receivable size packets)
    {trp : MQTTTransport Sck} (notOne : trp.state ≠ 1) (notTwo : trp.state ≠ 2) {sck : Waiting}
    {after : List UInt8} (ahead : stream trp.sck = streamBytes packets ++ after)
    (same : whole sck = stream trp.sck) (buf : Block size) {calls : Nat}
    (enough : patience trp.sck + (streamBytes packets).length < calls) :
    pollAll getfn calls packets.length buf trp = readAll waitfn packets.length buf sck ∧
      pollAll getfn calls packets.length buf trp = .ok (received packets buf) := by
  have polled : pollAll getfn calls packets.length buf trp = .ok (received packets buf) :=
    pollAll_eq delivers receivable notOne notTwo ahead enough
  have read : readAll waitfn packets.length buf sck = .ok (received packets buf) :=
    readAll_eq waits receivable (same.trans ahead)
  exact ⟨polled.trans read.symm, polled⟩

/-- A PINGRESP and a PUBACK in six pieces, two of them empty. -/
theorem pollAll_eq_readAll_two_packets :
    let packets := [(({ type := 13 } : MQTTHeader), []), ({ type := 4 }, [0x12, 0x34])]
    let pieces := [[], [0xD0], [0x00, 0x40], [], [0x02], [0x12, 0x34]]
    pollAll inPieces 20 2 (fun _ => 0 : Block 4) { sck := pieces } =
        readAll atOnce 2 (fun _ => 0 : Block 4) pieces.flatten ∧
      pollAll inPieces 20 2 (fun _ => 0 : Block 4) { sck := pieces } =
        .ok (received packets fun _ => 0) := by
  intro packets pieces
  have bytes : streamBytes packets = pieces.flatten := by
    simp [packets, pieces, streamBytes, packetBytes, lengthBytes_of_lt, MQTTHeader.byte]
  have receivable : Receivable 4 packets := by
    simp [packets, Receivable, packetBytes, lengthBytes_of_lt]
  exact pollAll_eq_readAll delivers_inPieces waits_atOnce receivable (by decide) (by decide)
    (by rw [bytes, List.append_nil]) rfl (fun _ => 0) (by rw [bytes]; decide)

end WifiIot.Paho
