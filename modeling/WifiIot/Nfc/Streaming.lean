import WifiIot.Nfc.Spec

/-!
# Streaming a reply through the FIFO

The chip keeps 32 bytes of a reply and the radio takes them from the front
whenever it likes.  Here `fm11_data_send` is a machine that shares the FIFO with
the radio: a write to the FIFO arrives byte by byte, and the radio removes any
number of bytes between any two of them.

Source: `fm11_data_send` in `nfc_demo/app_demo_nfc.c`.
-/

namespace WifiIot.Nfc.Streaming

open Memory

/-! ## The machine -/

def txen : List UInt8 := fm11_write_reg RF_TXEN_REG 0x55

/-- Where `fm11_data_send` stands: `sbuf` is the position in `ibuf` and `slen`
what is left to send. -/
inductive Pc where
  | start
  /-- `fm11_write_reg(RF_TXEN_REG, 0x55)` after the first write. -/
  | trigger (sbuf slen : Nat)
  /-- `while (slen > 0)` and the reading of `FIFO_WORDCNT_REG`. -/
  | check (sbuf slen : Nat)
  /-- The reading was at most 8. -/
  | refill (sbuf slen : Nat)
  | returned
  deriving DecidableEq

/-- The FIFO of the chip, the bytes of a write that have not arrived there yet,
and the program, which waits for the write to end. -/
structure Sending where
  fifo : List UInt8
  transit : List UInt8
  pc : Pc
  deriving DecidableEq

inductive Event where
  | write (bytes : List UInt8)
  | reading (level : UInt8)
  | arrival (byte : UInt8)
  deriving DecidableEq

inductive Move where
  | program
  | bus
  | radio (count : Nat)

/-- The data bytes of an I2C write to the FIFO. -/
def fifoData : List UInt8 → List UInt8
  | 0xff :: 0xf0 :: data => data
  | _ => []

/-- A caller's buffer; a read behind its end is a fault. -/
def buffer (data : List UInt8) : Source Buffer := listSource .xbuf data

def hand (sending : Sending) (write : Checked Buffer (List UInt8)) (next : Pc) :
    Option (Sending × List Event) :=
  match write with
  | .ok bytes => some ({ sending with transit := fifoData bytes, pc := next }, [.write bytes])
  | .error _ => none

/-- One step of `fm11_data_send(ilen, ibuf)`. -/
def sendStep (ilen : Nat) (ibuf : Source Buffer) (sending : Sending) :
    Option (Sending × List Event) :=
  if sending.transit ≠ [] then none
  else
    match sending.pc with
    | .start =>
        if ilen ≤ 32 then hand sending (fm11_write_fifo ibuf (UInt8.ofNat ilen)) (.trigger 0 0)
        else hand sending (fm11_write_fifo ibuf 32) (.trigger 32 (ilen - 32))
    | .trigger sbuf slen => hand sending (.ok txen) (.check sbuf slen)
    | .check sbuf slen =>
        -- A reply of up to 32 bytes does not come to the loop; `slen` is 0 then.
        if slen = 0 then some ({ sending with pc := .returned }, [])
        else
          let level := UInt8.ofNat sending.fifo.length
          some ({ sending with
            pc := if level &&& 0x3F ≤ 8 then .refill sbuf slen else .check sbuf slen },
            [.reading level])
    | .refill sbuf slen =>
        if slen ≤ 24 then
          hand sending (fm11_write_fifo (fun k => ibuf (sbuf + k)) (UInt8.ofNat slen))
            (.check sbuf 0)
        else
          hand sending (fm11_write_fifo (fun k => ibuf (sbuf + k)) 24)
            (.check (sbuf + 24) (slen - 24))
    | .returned => none

def machine (data : List UInt8) : Machine Sending Move Event where
  step sending
    | .program => sendStep data.length (buffer data) sending
    | .bus =>
        match sending.transit with
        | [] => none
        | byte :: rest =>
            some ({ sending with fifo := sending.fifo ++ [byte], transit := rest },
              [.arrival byte])
    | .radio count => some ({ sending with fifo := sending.fifo.drop count }, [])

/-- The FIFO is empty when `fm11_data_send` is called. -/
def call : Sending := ⟨[], [], .start⟩

/-! ## What the log shows -/

def writes (log : List Event) : Bus :=
  log.filterMap fun
    | .write bytes => some bytes
    | _ => none

def readings (log : List Event) : List UInt8 :=
  log.filterMap fun
    | .reading level => some level
    | _ => none

def arrivals (log : List Event) : List UInt8 :=
  log.filterMap fun
    | .arrival byte => some byte
    | _ => none

/-- The radio is triggered once, when the first write has arrived. -/
def TriggeredOnce (data : List UInt8) (log : List Event) : Prop :=
  ∃ before after, log = before ++ .write txen :: after ∧ arrivals before = data.take 32 ∧
    .write txen ∉ before ∧ .write txen ∉ after

section Logs

variable (first second : List Event)

@[simp]
theorem readings_append : readings (first ++ second) = readings first ++ readings second :=
  List.filterMap_append ..

theorem reply_append (left right : Bus) : reply (left ++ right) = reply left ++ reply right :=
  List.flatMap_append ..

theorem reply_single (write : List UInt8) : reply [write] = fifoData write := by
  rw [reply, List.flatMap_singleton]
  rfl

end Logs

theorem TriggeredOnce.append {data : List UInt8} {log events : List Event}
    (triggered : TriggeredOnce data log) (silent : .write txen ∉ events) :
    TriggeredOnce data (log ++ events) := by
  obtain ⟨before, after, rfl, arrived, earlier, later⟩ := triggered
  refine ⟨before, after ++ events, by simp, arrived, earlier, ?_⟩
  exact List.not_mem_append later silent

/-! ## The buffer -/

section Buffer

variable {data : List UInt8}

theorem buffer_eq {k : Nat} (inside : k < data.length) : buffer data k = .ok (data.getD k 0) :=
  listSource_eq _ inside

theorem map_getD (data : List UInt8) (start len : Nat) (inside : start + len ≤ data.length) :
    (List.range len).map (fun k => data.getD (start + k) 0) = (data.drop start).take len := by
  apply List.ext_getElem
  · simp only [List.length_map, List.length_range, List.length_take, List.length_drop]
    omega
  · intro k left right
    have bound : k < len := by simpa using left
    simp only [List.getElem_map, List.getElem_range, List.getElem_take, List.getElem_drop]
    exact (List.getElem_eq_getD 0).symm

theorem fm11_write_fifo_buffer (data : List UInt8) (sbuf len : Nat) (inside : sbuf + len ≤ data.length)
    (small : len ≤ 32) :
    fm11_write_fifo (fun k => buffer data (sbuf + k)) (UInt8.ofNat len) =
      .ok (0xff :: 0xf0 :: (data.drop sbuf).take len) := by
  have size : (UInt8.ofNat len).toNat = len := toNat_ofNat (by omega)
  have written := write_fifo_data_eq (fun k => buffer data (sbuf + k))
    (fun k => data.getD (sbuf + k) 0) (UInt8.ofNat len) (by omega)
    (fun k bound => buffer_eq (by omega))
  rw [fm11_write_fifo, written, size, map_getD data sbuf len inside]

theorem fm11_write_fifo_start (data : List UInt8) (len : Nat) (inside : len ≤ data.length) (small : len ≤ 32) :
    fm11_write_fifo (buffer data) (UInt8.ofNat len) = .ok (0xff :: 0xf0 :: data.take len) := by
  have written := fm11_write_fifo_buffer data 0 len (by omega) small
  simpa only [Nat.zero_add, List.drop_zero] using written

end Buffer

/-! ## The machine and the function -/

variable {data : List UInt8}

/-- The rest of a call that has written `bus` and goes on with the loop. -/
def resume (data : List UInt8) (bus : Bus) (sbuf slen : Nat) (levels : List UInt8) :
    Checked Buffer Sent := do
  let rest ← sendLoop (buffer data) sbuf slen levels
  .ok ⟨bus ++ rest.bus, rest.returned⟩

/-- The program has done what `fm11_data_send` does with the readings so far. -/
def Follows (data : List UInt8) (pc : Pc) (log : List Event) : Prop :=
  match pc with
  | .start => log = []
  | .trigger sbuf slen => readings log = [] ∧ ∀ levels,
      fm11_data_send data.length (buffer data) levels =
        resume data (writes log ++ [txen]) sbuf slen levels
  | .check sbuf slen => ∀ levels,
      fm11_data_send data.length (buffer data) (readings log ++ levels) =
        resume data (writes log) sbuf slen levels
  | .refill sbuf slen => ∃ earlier level, readings log = earlier ++ [level] ∧
      level &&& 0x3F ≤ 8 ∧ ∀ levels,
        fm11_data_send data.length (buffer data) (earlier ++ levels) =
          resume data (writes log) sbuf slen levels
  | .returned =>
      fm11_data_send data.length (buffer data) (readings log) = .ok ⟨writes log, true⟩

theorem resume_done (bus : Bus) (sbuf : Nat) (levels : List UInt8) :
    resume data bus sbuf 0 levels = .ok ⟨bus, true⟩ := by
  cases levels <;> simp [resume, sendLoop]

theorem resume_high {bus : Bus} {sbuf slen : Nat} {level : UInt8} {levels : List UInt8}
    (unfinished : slen ≠ 0) (high : ¬level &&& 0x3F ≤ 8) :
    resume data bus sbuf slen (level :: levels) = resume data bus sbuf slen levels := by
  simp only [resume, sendLoop, if_neg unfinished, if_neg high]

theorem resume_last {bus : Bus} {sbuf slen : Nat} {level : UInt8} {levels : List UInt8}
    {bytes : List UInt8} (unfinished : slen ≠ 0) (low : level &&& 0x3F ≤ 8) (short : slen ≤ 24)
    (written : fm11_write_fifo (fun k => buffer data (sbuf + k)) (UInt8.ofNat slen) = .ok bytes) :
    resume data bus sbuf slen (level :: levels) = resume data (bus ++ [bytes]) sbuf 0 levels := by
  rw [resume_done]
  simp only [resume, sendLoop, if_neg unfinished, if_pos low, if_pos short, written, ok_bind]

theorem resume_more {bus : Bus} {sbuf slen : Nat} {level : UInt8} {levels : List UInt8}
    {bytes : List UInt8} (unfinished : slen ≠ 0) (low : level &&& 0x3F ≤ 8) (long : ¬slen ≤ 24)
    (written : fm11_write_fifo (fun k => buffer data (sbuf + k)) 24 = .ok bytes) :
    resume data bus sbuf slen (level :: levels) =
      resume data (bus ++ [bytes]) (sbuf + 24) (slen - 24) levels := by
  simp only [resume, sendLoop, if_neg unfinished, if_pos low, if_neg long, written, ok_bind]
  cases sendLoop (buffer data) (sbuf + 24) (slen - 24) levels with
  | error fault => rfl
  | ok rest => simp

theorem follows_first_short (short : data.length ≤ 32) (levels : List UInt8) :
    fm11_data_send data.length (buffer data) levels =
      resume data [0xff :: 0xf0 :: data, txen] 0 0 levels := by
  have written := fm11_write_fifo_start data data.length le_rfl short
  rw [List.take_length] at written
  rw [resume_done, fm11_data_send, if_pos short, written]
  rfl

theorem follows_first_long (long : ¬data.length ≤ 32) (levels : List UInt8) :
    fm11_data_send data.length (buffer data) levels =
      resume data [0xff :: 0xf0 :: data.take 32, txen] 32 (data.length - 32) levels := by
  have written := fm11_write_fifo_start data 32 (by omega) le_rfl
  rw [fm11_data_send, if_neg long, resume]
  change (do let write ← fm11_write_fifo (buffer data) (UInt8.ofNat 32); _) = _
  rw [written]
  rfl

/-! ## The invariant -/

/-- Before a refill at most 8 bytes are left, so that 24 more fit; the program
goes on when its write has arrived. -/
def Sending.Fits (sending : Sending) : Prop :=
  match sending.pc with
  | .start => sending.fifo = [] ∧ sending.transit = []
  | .refill _ _ => sending.fifo.length ≤ 8 ∧ sending.transit = []
  | .returned => sending.fifo.length ≤ 32 ∧ sending.transit = []
  | _ => sending.fifo.length + sending.transit.length ≤ 32

/-- What is left to send is what lies behind `sbuf`. -/
def Pc.Ahead (ilen : Nat) : Pc → Prop
  | .trigger sbuf slen | .check sbuf slen => slen = 0 ∨ sbuf + slen = ilen
  | .refill sbuf slen => slen ≠ 0 ∧ sbuf + slen = ilen
  | _ => True

def Triggered (data : List UInt8) (pc : Pc) (log : List Event) : Prop :=
  match pc with
  | .start => log = []
  | .trigger _ _ => reply (writes log) = data.take 32 ∧ .write txen ∉ log
  | _ => TriggeredOnce data log

structure Streams (data : List UInt8) (sending : Sending) (log : List Event) : Prop where
  fits : sending.Fits
  ahead : sending.pc.Ahead data.length
  conserved : arrivals log ++ sending.transit = reply (writes log)
  follows : Follows data sending.pc log
  triggered : Triggered data sending.pc log

theorem streams_call (data : List UInt8) : Streams data call [] where
  fits := ⟨rfl, rfl⟩
  ahead := trivial
  conserved := rfl
  follows := rfl
  triggered := rfl

theorem Sending.Fits.occupancy {sending : Sending} (fits : sending.Fits) :
    sending.fifo.length + sending.transit.length ≤ 32 := by
  unfold Sending.Fits at fits
  split at fits
  · simp [fits.1, fits.2]
  · simp only [fits.2, List.length_nil]
    omega
  · simp only [fits.2, List.length_nil]
    omega
  · exact fits

theorem level_low {count : Nat} (bounded : count ≤ 32) (low : UInt8.ofNat count &&& 0x3F ≤ 8) :
    count ≤ 8 := by
  have shown : ∀ level ≤ 32, UInt8.ofNat level &&& 0x3F ≤ 8 → level ≤ 8 := by decide
  exact shown count bounded low

theorem Streams.radio {sending : Sending} {log : List Event} (streams : Streams data sending log)
    (count : Nat) : Streams data { sending with fifo := sending.fifo.drop count } (log ++ []) := by
  obtain ⟨fits, ahead, conserved, follows, triggered⟩ := streams
  rw [List.append_nil]
  refine ⟨?_, ahead, conserved, follows, triggered⟩
  have fewer : (sending.fifo.drop count).length ≤ sending.fifo.length := by
    rw [List.length_drop]
    exact Nat.sub_le ..
  unfold Sending.Fits at fits ⊢
  split at fits
  all_goals
    rename_i reached
    simp only [reached]
  · exact ⟨by rw [fits.1, List.drop_nil], fits.2⟩
  · exact ⟨fewer.trans fits.1, fits.2⟩
  · exact ⟨fewer.trans fits.1, fits.2⟩
  · exact (Nat.add_le_add_right fewer _).trans fits

theorem Follows.arrival {pc : Pc} {log : List Event} (follows : Follows data pc log)
    (started : pc ≠ .start) (byte : UInt8) : Follows data pc (log ++ [.arrival byte]) := by
  have sameReadings : readings (log ++ [.arrival byte]) = readings log := by simp [readings]
  have sameWrites : writes (log ++ [.arrival byte]) = writes log := by simp [writes]
  cases pc with
  | start => exact absurd rfl started
  | _ =>
      simp only [Follows, sameReadings, sameWrites]
      exact follows

theorem Triggered.arrival {pc : Pc} {log : List Event} (triggered : Triggered data pc log)
    (started : pc ≠ .start) (byte : UInt8) : Triggered data pc (log ++ [.arrival byte]) := by
  have silent : Event.write txen ∉ [Event.arrival byte] := by simp
  cases pc with
  | start => exact absurd rfl started
  | trigger sbuf slen =>
      have sameWrites : writes (log ++ [.arrival byte]) = writes log := by simp [writes]
      refine ⟨?_, List.not_mem_append triggered.2 silent⟩
      rw [sameWrites]
      exact triggered.1
  | _ => exact TriggeredOnce.append triggered silent

theorem Streams.arrival {fifo rest : List UInt8} {byte : UInt8} {pc : Pc} {log : List Event}
    (streams : Streams data ⟨fifo, byte :: rest, pc⟩ log) :
    Streams data ⟨fifo ++ [byte], rest, pc⟩ (log ++ [.arrival byte]) := by
  obtain ⟨fits, ahead, conserved, follows, triggered⟩ := streams
  have occupancy := fits.occupancy
  have started : pc ≠ .start := by
    rintro rfl
    cases fits.2
  refine ⟨?_, ahead, ?_, follows.arrival started byte, triggered.arrival started byte⟩
  · have room : (fifo ++ [byte]).length + rest.length ≤ 32 := by
      simp only [List.length_append, List.length_cons, List.length_nil] at occupancy ⊢
      omega
    cases pc with
    | start => exact absurd rfl started
    | refill sbuf slen => cases fits.2
    | returned => cases fits.2
    | _ => exact room
  · have unwritten : writes (log ++ [.arrival byte]) = writes log := by simp [writes]
    have arrived : arrivals (log ++ [.arrival byte]) = arrivals log ++ [byte] := by simp [arrivals]
    rw [unwritten, arrived, ← conserved, List.append_assoc, List.singleton_append]

/-! ## The steps of the program -/

/-- What a write leaves behind: it is under way, and the chip gets its data. -/
theorem conserved_write {log : List Event} {bytes : List UInt8}
    (conserved : arrivals log ++ [] = reply (writes log)) :
    arrivals (log ++ [.write bytes]) ++ fifoData bytes = reply (writes (log ++ [.write bytes])) := by
  have arrived : arrivals (log ++ [.write bytes]) = arrivals log := by simp [arrivals]
  have written : writes (log ++ [.write bytes]) = writes log ++ [bytes] := by simp [writes]
  rw [arrived, written, reply_append, reply_single, ← conserved, List.append_nil]

theorem length_fifoData_write (data : List UInt8) (sbuf len : Nat) :
    (fifoData (0xff :: 0xf0 :: (data.drop sbuf).take len)).length ≤ len := by
  change ((data.drop sbuf).take len).length ≤ len
  rw [List.length_take]
  exact Nat.min_le_left ..

theorem write_ne_txen (bytes : List UInt8) : (0xff :: 0xf0 :: bytes) ≠ txen := by
  intro same
  cases bytes <;> cases same

theorem streams_start {fifo : List UInt8} {log : List Event}
    (streams : Streams data ⟨fifo, [], .start⟩ log) :
    ∃ next events, sendStep data.length (buffer data) ⟨fifo, [], .start⟩ = some (next, events) ∧
      Streams data next (log ++ events) := by
  obtain ⟨⟨empty, -⟩, -, conserved, follows, -⟩ := streams
  obtain rfl : fifo = [] := empty
  obtain rfl : log = [] := follows
  by_cases short : data.length ≤ 32
  · have written := fm11_write_fifo_start data data.length le_rfl short
    rw [List.take_length] at written
    refine ⟨⟨[], data, .trigger 0 0⟩, [.write (0xff :: 0xf0 :: data)], ?_, ?_, .inl rfl,
      conserved_write conserved, ⟨rfl, follows_first_short short⟩, ?_, ?_⟩
    · simp only [sendStep, if_pos short, written]
      rfl
    · simpa [Sending.Fits] using short
    · change fifoData (0xff :: 0xf0 :: data) ++ [] = data.take 32
      rw [List.append_nil, List.take_of_length_le short]
      rfl
    · simpa using (write_ne_txen data).symm
  · have written := fm11_write_fifo_start data 32 (by omega) le_rfl
    refine ⟨⟨[], data.take 32, .trigger 32 (data.length - 32)⟩,
      [.write (0xff :: 0xf0 :: data.take 32)], ?_, ?_, .inr (Nat.add_sub_of_le (by omega)),
      conserved_write conserved, ⟨rfl, follows_first_long short⟩, ?_, ?_⟩
    · change (if data.length ≤ 32 then _
        else hand _ (fm11_write_fifo (buffer data) (UInt8.ofNat 32)) _) = _
      rw [if_neg short, written]
      rfl
    · simp [Sending.Fits]
    · change fifoData (0xff :: 0xf0 :: data.take 32) ++ [] = data.take 32
      rw [List.append_nil]
      rfl
    · simpa using (write_ne_txen (data.take 32)).symm

theorem streams_trigger {fifo : List UInt8} {sbuf slen : Nat} {log : List Event}
    (streams : Streams data ⟨fifo, [], .trigger sbuf slen⟩ log) :
    ∃ next events, sendStep data.length (buffer data) ⟨fifo, [], .trigger sbuf slen⟩ =
        some (next, events) ∧ Streams data next (log ++ events) := by
  obtain ⟨fits, ahead, conserved, ⟨unread, follows⟩, ⟨first, untriggered⟩⟩ := streams
  have sameReadings : readings (log ++ [.write txen]) = [] := by
    rw [readings_append, unread]
    rfl
  have moreWrites : writes (log ++ [.write txen]) = writes log ++ [txen] := by simp [writes]
  refine ⟨⟨fifo, [], .check sbuf slen⟩, [.write txen], rfl, fits, ahead,
    conserved_write conserved, ?_, log, [], rfl, ?_, untriggered, List.not_mem_nil⟩
  · intro levels
    rw [sameReadings, moreWrites]
    exact follows levels
  · rw [← first, ← conserved, List.append_nil]

theorem streams_check {fifo : List UInt8} {sbuf slen : Nat} {log : List Event}
    (streams : Streams data ⟨fifo, [], .check sbuf slen⟩ log) :
    ∃ next events, sendStep data.length (buffer data) ⟨fifo, [], .check sbuf slen⟩ =
        some (next, events) ∧ Streams data next (log ++ events) := by
  obtain ⟨fits, ahead, conserved, follows, triggered⟩ := streams
  by_cases done : slen = 0
  · subst slen
    refine ⟨⟨fifo, [], .returned⟩, [], rfl, ⟨fits, rfl⟩, trivial, ?_, ?_, ?_⟩
    · rw [List.append_nil log]
      exact conserved
    · have finished := follows []
      rw [resume_done, List.append_nil] at finished
      rw [List.append_nil]
      exact finished
    · rw [List.append_nil]
      exact triggered
  · have position := ahead.resolve_left done
    have bounded : fifo.length ≤ 32 := fits
    let level := UInt8.ofNat fifo.length
    have sameWrites : writes (log ++ [.reading level]) = writes log := by simp [writes]
    have moreReadings : readings (log ++ [.reading level]) = readings log ++ [level] := by
      simp [readings]
    have stays : arrivals (log ++ [.reading level]) ++ [] =
        reply (writes (log ++ [.reading level])) := by
      have arrived : arrivals (log ++ [.reading level]) = arrivals log := by simp [arrivals]
      rw [arrived, sameWrites]
      exact conserved
    have silent : Event.write txen ∉ [Event.reading level] := by simp
    have still := TriggeredOnce.append triggered silent
    by_cases low : level &&& 0x3F ≤ 8
    · refine ⟨⟨fifo, [], .refill sbuf slen⟩, [.reading level], ?_, ⟨level_low bounded low, rfl⟩,
        ⟨done, position⟩, stays, ⟨readings log, level, moreReadings, low, ?_⟩, still⟩
      · simp only [sendStep, if_neg done, level, if_pos low]
        rfl
      · rw [sameWrites]
        exact follows
    · refine ⟨⟨fifo, [], .check sbuf slen⟩, [.reading level], ?_, fits, ahead, stays, ?_, still⟩
      · simp only [sendStep, if_neg done, level, if_neg low]
        rfl
      · intro levels
        rw [moreReadings, sameWrites, List.append_assoc, List.singleton_append, follows,
          resume_high done low]

theorem streams_refill {fifo : List UInt8} {sbuf slen : Nat} {log : List Event}
    (streams : Streams data ⟨fifo, [], .refill sbuf slen⟩ log) :
    ∃ next events, sendStep data.length (buffer data) ⟨fifo, [], .refill sbuf slen⟩ =
        some (next, events) ∧ Streams data next (log ++ events) := by
  obtain ⟨⟨low, -⟩, ⟨unfinished, position⟩, conserved, ⟨earlier, level, read, shown, follows⟩,
    triggered⟩ := streams
  have sameReadings (bytes : List UInt8) :
      readings (log ++ [.write bytes]) = earlier ++ [level] := by
    rw [readings_append, read]
    exact List.append_nil _
  have moreWrites (bytes : List UInt8) :
      writes (log ++ [.write bytes]) = writes log ++ [bytes] := by simp [writes]
  by_cases short : slen ≤ 24
  · have written := fm11_write_fifo_buffer data sbuf slen (by omega) (by omega)
    let bytes := 0xff :: 0xf0 :: (data.drop sbuf).take slen
    refine ⟨⟨fifo, fifoData bytes, .check sbuf 0⟩, [.write bytes], ?_, ?_, .inl rfl,
      conserved_write conserved, ?_, ?_⟩
    · simp only [sendStep, if_pos short, written]
      rfl
    · have size := length_fifoData_write data sbuf slen
      simp only [Sending.Fits, bytes]
      simp only at low
      omega
    · intro levels
      rw [sameReadings, moreWrites, List.append_assoc, List.singleton_append, follows,
        resume_last unfinished shown short written]
    · exact TriggeredOnce.append triggered (by simpa using (write_ne_txen _).symm)
  · have written := fm11_write_fifo_buffer data sbuf 24 (by omega) (by omega)
    let bytes := 0xff :: 0xf0 :: (data.drop sbuf).take 24
    refine ⟨⟨fifo, fifoData bytes, .check (sbuf + 24) (slen - 24)⟩, [.write bytes], ?_, ?_,
      .inr (by omega), conserved_write conserved, ?_, ?_⟩
    · change (if slen ≤ 24 then _
        else hand _ (fm11_write_fifo (fun k => buffer data (sbuf + k)) (UInt8.ofNat 24)) _) = _
      rw [if_neg short, written]
      rfl
    · have size := length_fifoData_write data sbuf 24
      simp only [Sending.Fits, bytes]
      simp only at low
      omega
    · intro levels
      rw [sameReadings, moreWrites, List.append_assoc, List.singleton_append, follows,
        resume_more unfinished shown short written]
    · exact TriggeredOnce.append triggered (by simpa using (write_ne_txen _).symm)

/-- While the program is not finished and waits for no write, it has a next
step: every write it makes reads inside the buffer. -/
theorem streams_program {sending : Sending} {log : List Event}
    (streams : Streams data sending log) (arrived : sending.transit = [])
    (unfinished : sending.pc ≠ .returned) :
    ∃ next events, sendStep data.length (buffer data) sending = some (next, events) ∧
      Streams data next (log ++ events) := by
  obtain ⟨fifo, transit, pc⟩ := sending
  obtain rfl : transit = [] := arrived
  cases pc with
  | start => exact streams_start streams
  | trigger sbuf slen => exact streams_trigger streams
  | check sbuf slen => exact streams_check streams
  | refill sbuf slen => exact streams_refill streams
  | returned => exact absurd rfl unfinished

theorem streams_of_step {sending next : Sending} {log events : List Event} {move : Move}
    (streams : Streams data sending log)
    (stepped : (machine data).step sending move = some (next, events)) :
    Streams data next (log ++ events) := by
  cases move with
  | program =>
      change sendStep data.length (buffer data) sending = _ at stepped
      have arrived : sending.transit = [] := by
        by_contra under
        rw [sendStep, if_pos under] at stepped
        cases stepped
      have unfinished : sending.pc ≠ .returned := by
        intro finished
        simp only [sendStep, arrived, finished, ne_eq, not_true_eq_false, if_false] at stepped
        cases stepped
      obtain ⟨_, _, taken, after⟩ := streams_program streams arrived unfinished
      rw [taken] at stepped
      cases stepped
      exact after
  | bus =>
      obtain ⟨fifo, transit, pc⟩ := sending
      cases transit with
      | nil => cases stepped
      | cons byte rest =>
          cases stepped
          exact streams.arrival
  | radio count =>
      cases stepped
      exact streams.radio count

section Runs

variable {moves : List Move} {sending : Sending} {log : List Event}

theorem streams_of_run (run : (machine data).Run call moves sending log) :
    Streams data sending log := by
  refine run.invariant (Streams data) (streams_call data) ?_
  intro sending log move next events streams stepped
  exact streams_of_step streams stepped

/-- The machine has written what `fm11_data_send` writes for the readings that
the radio let it see. -/
theorem fm11_data_send_of_run (run : (machine data).Run call moves sending log)
    (finished : sending.pc = .returned) :
    fm11_data_send data.length (buffer data) (readings log) = .ok ⟨writes log, true⟩ := by
  have follows := (streams_of_run run).follows
  rw [finished] at follows
  exact follows

theorem reply_of_run (run : (machine data).Run call moves sending log)
    (finished : sending.pc = .returned) : reply (writes log) = data := by
  obtain ⟨sent, handed, replied, complete⟩ :=
    fm11_data_send_spec (buffer data) (fun k => data.getD k 0) (readings log) data.length
      (fun k inside => buffer_eq inside)
  rw [fm11_data_send_of_run run finished] at handed
  cases handed
  have all := map_getD data 0 data.length (by omega)
  simp only [Nat.zero_add, List.drop_zero, List.take_length] at all
  rw [replied, all]
  exact List.take_of_length_le (complete.mp rfl)

/-- Whatever the radio does, the FIFO never holds more than 32 bytes, and the
program always has a next step, so that every write reads inside the buffer;
when it returns exactly the reply has arrived in the FIFO, and the radio was
triggered once, after the first write. -/
theorem data_send_streams (data : List UInt8) (moves : List Move) (sending : Sending)
    (log : List Event) (run : (machine data).Run call moves sending log) :
    sending.fifo.length ≤ 32 ∧
      (sending.transit = [] → sending.pc ≠ .returned →
        ((machine data).step sending .program).isSome) ∧
      (sending.pc = .returned → arrivals log = data ∧ TriggeredOnce data log) := by
  have streams := streams_of_run run
  refine ⟨le_trans (Nat.le_add_right ..) streams.fits.occupancy, ?_, ?_⟩
  · intro arrived unfinished
    obtain ⟨next, events, stepped, -⟩ := streams_program streams arrived unfinished
    exact Option.isSome_of_eq_some stepped
  · intro finished
    have triggered := streams.triggered
    rw [finished] at triggered
    refine ⟨?_, triggered⟩
    have fits := streams.fits
    rw [Sending.Fits, finished] at fits
    have conserved := streams.conserved
    rw [reply_of_run run finished, fits.2, List.append_nil] at conserved
    exact conserved

end Runs

/-- The moves that pass on a write of the given length. -/
def pass (count : Nat) : List Move := .program :: List.replicate count .bus

/-- A reply of 57 bytes: 32, 24 and the last one; the radio waits until the
first 32 have arrived. -/
def longReply : List Move :=
  pass 32 ++ [.program, .program, .radio 23, .program, .radio 1, .program] ++ pass 24 ++
    [.radio 30, .program] ++ pass 1 ++ [.program]

theorem data_send_streams_long :
    let data := (List.range 57).map UInt8.ofNat
    ∃ sending log, (machine data).Run call longReply sending log ∧ sending.pc = .returned ∧
      arrivals log = data ∧ TriggeredOnce data log := by
  intro data
  obtain ⟨sending, log, run, seen⟩ := (machine data).exists_run_of_exec
    (fun result => result.1.pc) call longReply .returned (by decide +kernel)
  exact ⟨sending, log, run, seen, (data_send_streams data longReply sending log run).2.2 seen⟩

end WifiIot.Nfc.Streaming
