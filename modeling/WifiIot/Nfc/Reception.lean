import WifiIot.Machine.Throughout
import WifiIot.Nfc.Spec

/-!
# Receiving a frame through the FIFO

`fm11_data_recv` collects a frame from a FIFO of 32 bytes that the radio fills
while the program polls the chip.  The file has two copies of the loop, one of
which is compiled.  They differ in how many bytes they take at the water level:
24, which the FIFO then holds, or 25.

Source: `fm11_data_recv`, `write_read` in `nfc_demo/app_demo_nfc.c`, and
`nfc_demo/c081_nfc.h`.
-/

namespace WifiIot.Nfc.Reception

open Memory

/-! ## The chip and the program -/

def MAIN_IRQ_RX_START : UInt8 := 0x20
def MAIN_IRQ_RX_DONE : UInt8 := 0x10
def MAIN_IRQ_FIFO : UInt8 := 0x02
def MAIN_IRQ_AUX : UInt8 := 0x01
def FIFO_IRQ_WL : UInt8 := 0x08

/-- Where the loop stands, between its accesses to the chip. -/
inductive Pc where
  /-- `irq = fm11_read_reg(MAIN_IRQ)` -/
  | poll
  /-- `ret = fm11_read_reg(FIFO_IRQ)` -/
  | fifoIrq (irq : UInt8)
  | aux (irq : UInt8) (irq_data_wl : Bool)
  /-- `if (irq_data_in && irq_data_wl)` -/
  | waterLevel (irq : UInt8) (irq_data_wl : Bool)
  /-- `if (irq & MAIN_IRQ_RX_DONE)` -/
  | done (irq : UInt8)
  | lastRead (temp : Nat)
  | returned
  deriving DecidableEq

/-- The FIFO, the bytes of the frame that are still to come, whether any has
come, and the pending `RX_START`; then the variables of the program. -/
structure Receiving where
  fifo : List UInt8
  rest : List UInt8
  begun : Bool
  rxStart : Bool
  rbuf : Block 1024
  rlen : Nat
  irq_data_in : Bool
  pc : Pc

/-- A byte arrives, or the program goes on: the answer says whether a reading of
`MAIN_IRQ` clears `RX_START`, and what a read behind the end of the FIFO gets. -/
inductive Move where
  | arrival
  | program (clears : Bool) (excess : Nat → UInt8)

namespace Receiving

variable (receiving : Receiving)

/-- What `MAIN_IRQ` shows. -/
def mainIrq : UInt8 :=
  (if 24 ≤ receiving.fifo.length then MAIN_IRQ_FIFO else 0) |||
    (if receiving.rxStart then MAIN_IRQ_RX_START else 0) |||
    (if receiving.rest = [] then MAIN_IRQ_RX_DONE else 0)

/-- What `FIFO_IRQ` shows. -/
def fifoIrq : UInt8 := if 24 ≤ receiving.fifo.length then FIFO_IRQ_WL else 0

/-- `fm11_read_fifo(count, &rbuf[rlen])`: `write_read` clears
`sizeof(recv_data)` bytes, the size of a pointer, before it reads. -/
def fm11_read_fifo (count : Nat) (excess : Nat → UInt8) : Option Receiving :=
  if receiving.rlen + max 4 count ≤ 1024 then
    some { receiving with
      fifo := receiving.fifo.drop count
      rbuf := (receiving.rbuf.patch receiving.rlen 4 fun _ => 0).patch receiving.rlen count
        fun k => receiving.fifo.getD k (excess k)
      rlen := receiving.rlen + count }
  else none

def result : Nat := if receiving.rlen ≤ 2 then 0 else receiving.rlen - 2

end Receiving

/-- One step of the loop; `count` is what it takes at the water level. -/
def recvStep (count : Nat) (receiving : Receiving) (clears : Bool) (excess : Nat → UInt8) :
    Option Receiving :=
  match receiving.pc with
  | .poll =>
      some { receiving with
        rxStart := receiving.rxStart && !clears
        pc := .fifoIrq receiving.mainIrq }
  | .fifoIrq irq =>
      let irq_data_wl :=
        irq &&& MAIN_IRQ_FIFO ≠ 0 ∧ receiving.fifoIrq &&& FIFO_IRQ_WL ≠ 0
      some { receiving with pc := .aux irq irq_data_wl }
  | .aux irq irq_data_wl =>
      -- `FIFO_FLUSH` empties the FIFO.
      let fifo := if irq &&& MAIN_IRQ_AUX ≠ 0 then [] else receiving.fifo
      some { receiving with fifo := fifo, pc := .waterLevel irq irq_data_wl }
  | .waterLevel irq irq_data_wl =>
      let irq_data_in := receiving.irq_data_in || irq &&& MAIN_IRQ_RX_START ≠ 0
      let next := { receiving with irq_data_in := irq_data_in, pc := .done irq }
      if irq_data_in && irq_data_wl then next.fm11_read_fifo count excess else some next
  | .done irq =>
      if irq &&& MAIN_IRQ_RX_DONE ≠ 0 then
        let temp := (UInt8.ofNat receiving.fifo.length &&& 0x3F).toNat
        some { receiving with pc := .lastRead temp }
      else some { receiving with pc := .poll }
  | .lastRead temp =>
      { receiving with irq_data_in := false, pc := .returned }.fm11_read_fifo temp excess
  | .returned => none

/-- The next byte of the frame enters the FIFO; the first one raises `RX_START`. -/
def Receiving.arrive (receiving : Receiving) (byte : UInt8) (rest : List UInt8) : Receiving :=
  { receiving with
    fifo := receiving.fifo ++ [byte]
    rest := rest
    begun := true
    rxStart := receiving.rxStart || !receiving.begun }

/-- The radio never overruns the FIFO. -/
def arrivalStep (receiving : Receiving) : Option Receiving :=
  match receiving.rest with
  | [] => none
  | byte :: rest =>
      if receiving.fifo.length < 32 then some (receiving.arrive byte rest) else none

/-- The loop of `fm11_data_recv`, written once for its two copies. -/
def fm11_data_recv (count : Nat) : Machine Receiving Move Unit where
  step receiving
    | .arrival => (arrivalStep receiving).map fun next => (next, [])
    | .program clears excess => (recvStep count receiving clears excess).map fun next => (next, [])

/-- The copy that is compiled. -/
def CHECK : Machine Receiving Move Unit := fm11_data_recv 25

def INTERRUPT : Machine Receiving Move Unit := fm11_data_recv 24

def call (frame : Frame) (rbuf : Block 1024) : Receiving where
  fifo := []
  rest := frame.stored
  begun := false
  rxStart := false
  rbuf := rbuf
  rlen := 0
  irq_data_in := false
  pc := .poll

/-! ## What a call should do -/

/-- The frame is in `rbuf`, and the length without the CRC is returned. -/
def Delivered (frame : Frame) (receiving : Receiving) : Prop :=
  receiving.result = frame.stored.length - 2 ∧
    ∀ k < frame.stored.length, receiving.rbuf.byteAt k = frame.stored.getD k 0

/-- Two calls return the same, and leave the same frame. -/
def Agree (frame : Frame) (first second : Receiving) : Prop :=
  first.result = second.result ∧
    ∀ k < frame.stored.length, first.rbuf.byteAt k = second.rbuf.byteAt k

/-- What is read at the water level is there. -/
def Stocked (count : Nat) (receiving : Receiving) (_log : List Unit) : Move → Prop
  | .program _ _ =>
      match receiving.pc with
      | .waterLevel _ irq_data_wl => irq_data_wl = true → count ≤ receiving.fifo.length
      | _ => True
  | .arrival => True

instance (count : Nat) (receiving : Receiving) (log : List Unit) (move : Move) :
    Decidable (Stocked count receiving log move) := by
  unfold Stocked
  repeat' split
  all_goals infer_instance

/-! ## The interrupt flags -/

section Flags

variable {receiving : Receiving}

theorem mainIrq_shows (receiving : Receiving) :
    (receiving.mainIrq &&& MAIN_IRQ_FIFO ≠ 0 ↔ 24 ≤ receiving.fifo.length) ∧
      (receiving.mainIrq &&& MAIN_IRQ_RX_START ≠ 0 ↔ receiving.rxStart = true) ∧
      (receiving.mainIrq &&& MAIN_IRQ_RX_DONE ≠ 0 ↔ receiving.rest = []) ∧
      receiving.mainIrq &&& MAIN_IRQ_AUX = 0 := by
  unfold Receiving.mainIrq
  by_cases low : 24 ≤ receiving.fifo.length <;> cases receiving.rxStart <;>
    by_cases complete : receiving.rest = [] <;> simp only [low, complete] <;> decide

theorem fifoIrq_wl : receiving.fifoIrq &&& FIFO_IRQ_WL ≠ 0 ↔ 24 ≤ receiving.fifo.length := by
  unfold Receiving.fifoIrq
  by_cases low : 24 ≤ receiving.fifo.length <;> simp only [low] <;> decide

theorem wordcnt_eq {count : Nat} (bounded : count ≤ 32) :
    (UInt8.ofNat count &&& 0x3F).toNat = count := by
  have shown : ∀ level ≤ 32, (UInt8.ofNat level &&& 0x3F).toNat = level := by decide
  exact shown count bounded

end Flags

/-! ## The invariant -/

/-- The first byte is pending in `RX_START` or was noticed. -/
def Receiving.Noticed (receiving : Receiving) : Prop :=
  receiving.begun = true → receiving.rxStart = true ∨ receiving.irq_data_in = true

/-- What a reading of `MAIN_IRQ` still says until the program has used it. -/
structure Receiving.Knows (receiving : Receiving) (irq : UInt8) : Prop where
  error : irq &&& MAIN_IRQ_AUX = 0
  complete : irq &&& MAIN_IRQ_RX_DONE ≠ 0 → receiving.rest = []
  noticed : receiving.begun = true →
    receiving.rxStart = true ∨ receiving.irq_data_in = true ∨ irq &&& MAIN_IRQ_RX_START ≠ 0
  started : irq &&& MAIN_IRQ_FIFO ≠ 0 →
    receiving.irq_data_in = true ∨ irq &&& MAIN_IRQ_RX_START ≠ 0

def Receiving.Placed (receiving : Receiving) : Prop :=
  match receiving.pc with
  | .poll => receiving.Noticed
  | .fifoIrq irq => receiving.Knows irq
  | .aux irq irq_data_wl | .waterLevel irq irq_data_wl => receiving.Knows irq ∧
      (irq_data_wl = true → 24 ≤ receiving.fifo.length ∧ irq &&& MAIN_IRQ_FIFO ≠ 0)
  | .done irq => receiving.Noticed ∧ (irq &&& MAIN_IRQ_RX_DONE ≠ 0 → receiving.rest = [])
  | .lastRead temp => receiving.rest = [] ∧ temp = receiving.fifo.length
  | .returned => receiving.rest = [] ∧ receiving.fifo = []

/-- The bytes that the program counts as received or that are still to come. -/
def Receiving.total (receiving : Receiving) : Nat :=
  receiving.rlen + receiving.fifo.length + receiving.rest.length

/-- A frame on its way: no byte is missing, and without excess bytes they are all
in their places. -/
structure Reassembles (frame : List UInt8) (receiving : Receiving) : Prop where
  whole : frame.length ≤ receiving.total
  intact : receiving.total = frame.length →
    (∀ k < receiving.rlen, receiving.rbuf.byteAt k = frame.getD k 0) ∧
      receiving.fifo ++ receiving.rest = frame.drop receiving.rlen
  held : receiving.fifo.length ≤ 32
  room : receiving.rlen + 2 * (receiving.fifo.length + receiving.rest.length) ≤ 2 * frame.length
  begun : receiving.fifo ≠ [] → receiving.begun = true
  placed : receiving.Placed

theorem reassembles_call (frame : Frame) (rbuf : Block 1024) :
    Reassembles frame.stored (call frame rbuf) where
  whole := by simp [Receiving.total, call]
  intact _ := ⟨fun _ impossible => absurd impossible (Nat.not_lt_zero _), rfl⟩
  held := Nat.zero_le _
  room := by simp [call]
  begun nonempty := absurd rfl nonempty
  placed := fun begun => by cases begun

section Arrival

variable {receiving : Receiving} {byte : UInt8} {rest : List UInt8}

theorem Receiving.Noticed.arrive (noticed : receiving.Noticed) :
    (receiving.arrive byte rest).Noticed := by
  intro _
  cases begun : receiving.begun with
  | false => exact .inl (by simp [Receiving.arrive, begun])
  | true =>
      rcases noticed begun with pending | known
      · exact .inl (by simp [Receiving.arrive, pending])
      · exact .inr known

theorem Receiving.Knows.arrive {irq : UInt8} (knows : receiving.Knows irq)
    (coming : receiving.rest = byte :: rest) : (receiving.arrive byte rest).Knows irq where
  error := knows.error
  complete done := by
    have finished := knows.complete done
    rw [coming] at finished
    cases finished
  noticed _ := by
    cases begun : receiving.begun with
    | false => exact .inl (by simp [Receiving.arrive, begun])
    | true =>
        rcases knows.noticed begun with pending | known
        · exact .inl (by simp [Receiving.arrive, pending])
        · exact .inr known
  started := knows.started

theorem total_arrive (receiving : Receiving) (coming : receiving.rest = byte :: rest) :
    (receiving.arrive byte rest).total = receiving.total := by
  simp only [Receiving.total, Receiving.arrive, coming, List.length_append, List.length_cons,
    List.length_nil]
  omega

theorem placed_arrive (placed : receiving.Placed) (coming : receiving.rest = byte :: rest) :
    (receiving.arrive byte rest).Placed := by
  have more : receiving.fifo.length ≤ (receiving.arrive byte rest).fifo.length := by
    simp [Receiving.arrive]
  have unfinished : receiving.rest ≠ [] := by
    rw [coming]
    exact List.cons_ne_nil _ _
  obtain ⟨fifo, ahead, begun, rxStart, rbuf, rlen, irq_data_in, pc⟩ := receiving
  cases pc with
  | poll => exact Receiving.Noticed.arrive placed
  | fifoIrq irq => exact Receiving.Knows.arrive placed coming
  | aux irq irq_data_wl =>
      exact ⟨placed.1.arrive coming, fun level => ⟨(placed.2 level).1.trans more, (placed.2 level).2⟩⟩
  | waterLevel irq irq_data_wl =>
      exact ⟨placed.1.arrive coming, fun level => ⟨(placed.2 level).1.trans more, (placed.2 level).2⟩⟩
  | done irq => exact ⟨placed.1.arrive, fun done => absurd (placed.2 done) unfinished⟩
  | lastRead temp => exact absurd placed.1 unfinished
  | returned => exact absurd placed.1 unfinished

theorem Reassembles.arrival {frame : List UInt8} {next : Receiving}
    (reassembles : Reassembles frame receiving) (stepped : arrivalStep receiving = some next) :
    Reassembles frame next ∧ next.total = receiving.total := by
  unfold arrivalStep at stepped
  split at stepped
  · cases stepped
  · rename_i byte rest coming
    split at stepped
    · rename_i space
      cases stepped
      have same := total_arrive receiving coming
      refine ⟨⟨?_, ?_, ?_, ?_, fun _ => rfl, placed_arrive reassembles.placed coming⟩, same⟩
      · rw [same]
        exact reassembles.whole
      · rw [same]
        intro total
        obtain ⟨stored, ahead⟩ := reassembles.intact total
        refine ⟨stored, ?_⟩
        change (receiving.fifo ++ [byte]) ++ rest = _
        rw [List.append_assoc, List.singleton_append, ← coming]
        exact ahead
      · change (receiving.fifo ++ [byte]).length ≤ 32
        rw [List.length_append]
        exact space
      · have room := reassembles.room
        change receiving.rlen + 2 * ((receiving.fifo ++ [byte]).length + rest.length) ≤ _
        rw [coming] at room
        simp only [List.length_append, List.length_cons, List.length_nil] at room ⊢
        omega
    · cases stepped

end Arrival

/-! ## Reading the FIFO -/

/-- A read takes what the FIFO holds and counts every byte asked for. -/
theorem Receiving.fm11_read_fifo_eq {receiving : Receiving} {count : Nat} (excess : Nat → UInt8)
    (room : receiving.rlen ≤ 900) (bounded : count ≤ 32) :
    receiving.fm11_read_fifo count excess = some { receiving with
      fifo := receiving.fifo.drop count
      rbuf := (receiving.rbuf.patch receiving.rlen 4 fun _ => 0).patch receiving.rlen count
        fun k => receiving.fifo.getD k (excess k)
      rlen := receiving.rlen + count } := by
  have inside : receiving.rlen + max 4 count ≤ 1024 := by
    have largest : max 4 count ≤ 32 := max_le (by decide) bounded
    omega
  rw [Receiving.fm11_read_fifo, if_pos inside]

theorem byteAt_read {frame : List UInt8} {receiving : Receiving} {count k : Nat}
    (excess : Nat → UInt8)
    (stored : ∀ k < receiving.rlen, receiving.rbuf.byteAt k = frame.getD k 0)
    (ahead : receiving.fifo ++ receiving.rest = frame.drop receiving.rlen)
    (available : count ≤ receiving.fifo.length) (room : receiving.rlen + count ≤ 1024)
    (inside : k < receiving.rlen + count) :
    ((receiving.rbuf.patch receiving.rlen 4 fun _ => 0).patch receiving.rlen count
      fun k => receiving.fifo.getD k (excess k)).byteAt k = frame.getD k 0 := by
  rw [Block.byteAt_patch (by omega)]
  by_cases earlier : k < receiving.rlen
  · rw [if_neg (by omega), Block.byteAt_patch (by omega), if_neg (by omega), stored k earlier]
  · have position : k - receiving.rlen < receiving.fifo.length := by omega
    rw [if_pos (by omega)]
    have same : receiving.fifo[k - receiving.rlen]? = frame[k]? := by
      have there := congrArg (fun bytes => bytes[k - receiving.rlen]?) ahead
      simp only [List.getElem?_append_left position, List.getElem?_drop] at there
      rw [there, Nat.add_sub_of_le (by omega)]
    have present := List.getElem?_eq_getElem position
    rw [List.getD_eq_getElem?_getD, List.getD_eq_getElem?_getD, ← same, present]
    rfl

/-- A read keeps the frame together; it is exact when no excess byte is read. -/
theorem Reassembles.read {frame : List UInt8} {receiving : Receiving} {count : Nat}
    {excess : Nat → UInt8} (reassembles : Reassembles frame receiving)
    (short : frame.length ≤ 400) (bounded : count ≤ 32) (most : count ≤ 2 * receiving.fifo.length)
    {pc : Pc} {irq_data_in : Bool}
    (next : Receiving)
    (read : { receiving with irq_data_in := irq_data_in, pc := pc }.fm11_read_fifo count excess =
      some next)
    (placed : next.Placed) :
    Reassembles frame next ∧
      (next.total = frame.length ↔
        receiving.total = frame.length ∧ count ≤ receiving.fifo.length) := by
  obtain ⟨whole, intact, held, room, begun, -⟩ := reassembles
  rw [Receiving.fm11_read_fifo_eq excess (by simp only; omega) bounded] at read
  cases read
  simp only [Receiving.total] at whole intact ⊢
  have exactly : receiving.rlen + count + (receiving.fifo.drop count).length +
      receiving.rest.length = frame.length ↔
        receiving.rlen + receiving.fifo.length + receiving.rest.length = frame.length ∧
          count ≤ receiving.fifo.length := by
    rw [List.length_drop]
    omega
  refine ⟨⟨?_, ?_, ?_, ?_, ?_, placed⟩, exactly⟩
  · simp only [Receiving.total, List.length_drop]
    omega
  · intro total
    obtain ⟨before, available⟩ := exactly.mp total
    obtain ⟨stored, ahead⟩ := intact before
    refine ⟨fun k inside => byteAt_read excess stored ahead available (by omega) inside, ?_⟩
    simp only
    rw [← List.drop_drop, ← ahead, List.drop_append_of_le_length available]
  · simp only [List.length_drop]
    omega
  · simp only [List.length_drop]
    omega
  · intro nonempty
    apply begun
    rintro empty
    rw [empty, List.drop_nil] at nonempty
    exact nonempty rfl

/-! ## The steps of the program -/

section Program

variable {frame : List UInt8} {receiving next : Receiving} {count : Nat} {clears : Bool}
  {excess : Nat → UInt8} {log : List Unit}

theorem Reassembles.steady (reassembles : Reassembles frame receiving) {rxStart irq_data_in : Bool}
    {pc : Pc}
    (placed : { receiving with rxStart := rxStart, irq_data_in := irq_data_in, pc := pc }.Placed) :
    Reassembles frame
      { receiving with rxStart := rxStart, irq_data_in := irq_data_in, pc := pc } where
  whole := reassembles.whole
  intact := reassembles.intact
  held := reassembles.held
  room := reassembles.room
  begun := reassembles.begun
  placed := placed

theorem knows_of_poll (reassembles : Reassembles frame receiving) (noticed : receiving.Noticed) :
    { receiving with
      rxStart := receiving.rxStart && !clears
      pc := .fifoIrq receiving.mainIrq }.Knows receiving.mainIrq := by
  obtain ⟨level, start, done, error⟩ := mainIrq_shows receiving
  have known : receiving.begun = true →
      receiving.irq_data_in = true ∨ receiving.mainIrq &&& MAIN_IRQ_RX_START ≠ 0 := by
    intro begun
    rcases noticed begun with pending | seen
    · exact .inr (start.mpr pending)
    · exact .inl seen
  refine ⟨error, done.mp, fun begun => .inr (known begun), fun low => known ?_⟩
  have many : 24 ≤ receiving.fifo.length := level.mp low
  apply reassembles.begun
  intro empty
  rw [empty] at many
  exact absurd many (by decide)

theorem Reassembles.program (reassembles : Reassembles frame receiving)
    (short : frame.length ≤ 400) (bounded : count ≤ 32)
    (stepped : recvStep count receiving clears excess = some next) :
    Reassembles frame next ∧
      (next.total = frame.length ↔
        receiving.total = frame.length ∧ Stocked count receiving log (.program clears excess)) := by
  have placed := reassembles.placed
  unfold Receiving.Placed at placed
  unfold recvStep at stepped
  unfold Stocked
  cases reached : receiving.pc with
  | poll =>
      simp only [reached] at placed stepped ⊢
      cases stepped
      exact ⟨reassembles.steady (knows_of_poll reassembles placed), (and_iff_left trivial).symm⟩
  | fifoIrq irq =>
      simp only [reached] at placed stepped ⊢
      cases stepped
      refine ⟨reassembles.steady ⟨⟨placed.error, placed.complete, placed.noticed, placed.started⟩,
        fun low => ?_⟩, (and_iff_left trivial).symm⟩
      obtain ⟨announced, level⟩ := of_decide_eq_true low
      exact ⟨fifoIrq_wl.mp level, announced⟩
  | aux irq irq_data_wl =>
      simp only [reached] at placed stepped ⊢
      obtain ⟨knows, level⟩ := placed
      rw [if_neg (not_not.mpr knows.error)] at stepped
      cases stepped
      exact ⟨reassembles.steady ⟨⟨knows.error, knows.complete, knows.noticed, knows.started⟩, level⟩,
        (and_iff_left trivial).symm⟩
  | waterLevel irq irq_data_wl =>
      simp only [reached] at placed stepped ⊢
      obtain ⟨knows, level⟩ := placed
      have noticed : receiving.begun = true → receiving.rxStart = true ∨
          (receiving.irq_data_in || decide (irq &&& MAIN_IRQ_RX_START ≠ 0)) = true := by
        intro begun
        rcases knows.noticed begun with pending | seen
        · exact .inl pending
        · exact .inr (by simpa [Bool.or_eq_true] using seen)
      by_cases low : irq_data_wl = true
      · obtain ⟨many, announced⟩ := level low
        have started : (receiving.irq_data_in ||
            decide (irq &&& MAIN_IRQ_RX_START ≠ 0)) = true := by
          simpa [Bool.or_eq_true] using knows.started announced
        simp only [started, low, Bool.and_self, if_true] at stepped
        have after : next.Placed := by
          have read := stepped
          rw [Receiving.fm11_read_fifo] at read
          split at read
          · cases read
            exact ⟨fun _ => .inr rfl, knows.complete⟩
          · cases read
        obtain ⟨kept, whole⟩ := reassembles.read short bounded (by omega) next stepped after
        refine ⟨kept, whole.trans (and_congr_right fun _ => ?_)⟩
        exact ⟨fun enough _ => enough, fun enough => enough low⟩
      · simp only [low, Bool.and_false, Bool.false_eq_true, if_false] at stepped
        cases stepped
        exact ⟨reassembles.steady ⟨noticed, knows.complete⟩,
          (and_iff_left fun impossible => absurd impossible low).symm⟩
  | done irq =>
      simp only [reached] at placed stepped ⊢
      split at stepped
      · rename_i complete
        cases stepped
        refine ⟨reassembles.steady ⟨placed.2 complete, ?_⟩, (and_iff_left trivial).symm⟩
        exact wordcnt_eq reassembles.held
      · cases stepped
        exact ⟨reassembles.steady placed.1, (and_iff_left trivial).symm⟩
  | lastRead temp =>
      simp only [reached] at placed stepped ⊢
      obtain ⟨complete, rfl⟩ := placed
      have after : next.Placed := by
        have read := stepped
        rw [Receiving.fm11_read_fifo] at read
        split at read
        · cases read
          exact ⟨complete, List.drop_length⟩
        · cases read
      obtain ⟨kept, whole⟩ :=
        reassembles.read short reassembles.held (by omega) next stepped after
      exact ⟨kept, whole.trans (and_congr_right fun _ => iff_of_true le_rfl trivial)⟩
  | returned => simp only [reached, reduceCtorEq] at stepped

theorem reassembles_of_step (log : List Unit) {move : Move} {emitted : List Unit}
    (reassembles : Reassembles frame receiving) (short : frame.length ≤ 400) (bounded : count ≤ 32)
    (stepped : (fm11_data_recv count).step receiving move = some (next, emitted)) :
    Reassembles frame next ∧
      (next.total = frame.length ↔
        receiving.total = frame.length ∧ Stocked count receiving log move) := by
  cases move with
  | arrival =>
      obtain ⟨after, arrived, same⟩ := Option.map_eq_some_iff.mp stepped
      cases same
      obtain ⟨kept, total⟩ := reassembles.arrival arrived
      refine ⟨kept, ?_⟩
      rw [total]
      exact (and_iff_left trivial).symm
  | program clears excess =>
      obtain ⟨after, taken, same⟩ := Option.map_eq_some_iff.mp stepped
      cases same
      exact reassembles.program short bounded taken

end Program

/-! ## Whole calls -/

section Calls

variable {frame : Frame} {rbuf : Block 1024} {count : Nat} {moves : List Move}
  {receiving : Receiving} {log : List Unit}

theorem length_stored_le (frame : Frame) : frame.stored.length ≤ 257 := by
  have fits := frame.fits
  rw [Tag.length_stored]
  omega

theorem reassembles_of_run (bounded : count ≤ 32)
    (run : (fm11_data_recv count).Run (call frame rbuf) moves receiving log) :
    Reassembles frame.stored receiving := by
  have short := length_stored_le frame
  refine run.invariant (fun receiving _ => Reassembles frame.stored receiving)
    (reassembles_call frame rbuf) ?_
  intro receiving log move next emitted reassembles stepped
  exact (reassembles_of_step log reassembles (by omega) bounded stepped).1

/-- How many steps the program is away from its return, once the frame is complete. -/
def Pc.remaining : Pc → Nat
  | .poll => 6
  | .fifoIrq irq => if irq &&& MAIN_IRQ_RX_DONE ≠ 0 then 5 else 10
  | .aux irq _ => if irq &&& MAIN_IRQ_RX_DONE ≠ 0 then 4 else 9
  | .waterLevel irq _ => if irq &&& MAIN_IRQ_RX_DONE ≠ 0 then 3 else 8
  | .done irq => if irq &&& MAIN_IRQ_RX_DONE ≠ 0 then 2 else 7
  | .lastRead _ => 1
  | .returned => 0

/-- The program is never stuck, and it never writes outside `rbuf`. -/
theorem program_advances (reassembles : Reassembles frame.stored receiving) (bounded : count ≤ 32)
    (clears : Bool) (excess : Nat → UInt8) (unfinished : receiving.pc ≠ .returned) :
    ∃ next, recvStep count receiving clears excess = some next ∧ next.rest = receiving.rest ∧
      (receiving.rest = [] → next.pc.remaining < receiving.pc.remaining) := by
  have short := length_stored_le frame
  have room := reassembles.room
  have placed := reassembles.placed
  unfold Receiving.Placed at placed
  unfold recvStep Pc.remaining
  cases reached : receiving.pc with
  | poll =>
      refine ⟨_, rfl, rfl, fun complete => ?_⟩
      have done := (mainIrq_shows receiving).2.2.1.mpr complete
      simp only [if_pos done]
      decide
  | fifoIrq irq =>
      refine ⟨_, rfl, rfl, fun _ => ?_⟩
      simp only
      split <;> decide
  | aux irq irq_data_wl =>
      refine ⟨_, rfl, rfl, fun _ => ?_⟩
      simp only
      split <;> decide
  | waterLevel irq irq_data_wl =>
      simp only
      split
      · rw [Receiving.fm11_read_fifo_eq excess (by simp only; omega) bounded]
        refine ⟨_, rfl, rfl, fun _ => ?_⟩
        simp only
        split <;> decide
      · refine ⟨_, rfl, rfl, fun _ => ?_⟩
        simp only
        split <;> decide
  | done irq =>
      simp only
      split
      · exact ⟨_, rfl, rfl, fun _ => Nat.lt_succ_self _⟩
      · exact ⟨_, rfl, rfl, fun _ => Nat.lt_succ_self _⟩
  | lastRead temp =>
      simp only [reached] at placed ⊢
      obtain ⟨complete, rfl⟩ := placed
      rw [Receiving.fm11_read_fifo_eq excess (by simp only; omega) reassembles.held]
      exact ⟨_, rfl, rfl, fun _ => Nat.lt_succ_self _⟩
  | returned => exact absurd reached unfinished

theorem fm11_data_recv_returns (bounded : count ≤ 32)
    (run : (fm11_data_recv count).Run (call frame rbuf) moves receiving log)
    (complete : receiving.rest = []) :
    ∃ later final, (fm11_data_recv count).Run (call frame rbuf) (moves ++ later) final log ∧
      final.pc = .returned := by
  induction distance : receiving.pc.remaining using Nat.strong_induction_on
    generalizing moves receiving with
  | _ distance inductionHypothesis =>
      by_cases finished : receiving.pc = .returned
      · exact ⟨[], receiving, by simpa using run, finished⟩
      · obtain ⟨next, stepped, same, closer⟩ := program_advances (reassembles_of_run bounded run)
          bounded true (fun _ => 0) finished
        have step : (fm11_data_recv count).step receiving (.program true fun _ => 0) =
            some (next, []) := by
          change (recvStep count receiving true fun _ => 0).map _ = _
          rw [stepped]
          rfl
        have continued := run.snoc step
        rw [List.append_nil] at continued
        obtain ⟨later, final, ended, returned⟩ := inductionHypothesis next.pc.remaining
          (by rw [← distance]; exact closer complete) continued (same.trans complete) rfl
        exact ⟨.program true (fun _ => 0) :: later, final, by simpa using ended, returned⟩

theorem total_iff_stocked (bounded : count ≤ 32)
    (run : (fm11_data_recv count).Run (call frame rbuf) moves receiving log) :
    receiving.total = frame.stored.length ↔
      (fm11_data_recv count).Meets (Stocked count) (call frame rbuf) moves := by
  have short := length_stored_le frame
  have initially : (call frame rbuf).total = frame.stored.length := by
    simp [Receiving.total, call]
  apply run.property_iff_meets (fun receiving _ => Reassembles frame.stored receiving)
    ⟨reassembles_call frame rbuf, initially⟩
  · intro receiving log move next emitted reassembles stepped
    exact (reassembles_of_step log reassembles (by omega) bounded stepped).1
  · intro receiving log move next emitted reassembles stepped
    exact (reassembles_of_step log reassembles (by omega) bounded stepped).2

/-- At the end nothing is left in the FIFO, and the length tells whether an
excess byte was counted. -/
theorem delivered_iff_total (bounded : count ≤ 32)
    (run : (fm11_data_recv count).Run (call frame rbuf) moves receiving log)
    (finished : receiving.pc = .returned) :
    Delivered frame receiving ↔ receiving.total = frame.stored.length := by
  obtain ⟨whole, intact, -, -, -, placed⟩ := reassembles_of_run bounded run
  rw [Receiving.Placed, finished] at placed
  obtain ⟨complete, drained⟩ := placed
  have length : receiving.total = receiving.rlen := by
    rw [Receiving.total, complete, drained]
    rfl
  have least : 2 < frame.stored.length := by
    have nonempty := frame.nonempty
    rw [Tag.length_stored]
    omega
  constructor
  · intro delivered
    have same := delivered.1
    rw [length] at whole ⊢
    rw [Receiving.result, if_neg (by omega)] at same
    omega
  · intro total
    obtain ⟨stored, -⟩ := intact total
    rw [length] at total
    refine ⟨?_, fun k inside => stored k (by omega)⟩
    rw [Receiving.result, if_neg (by omega), total]

theorem stocked_of_waterLevel :
    (fm11_data_recv 24).Meets (Stocked 24) (call frame rbuf) moves := by
  intro before move after equality state earlierLog earlier
  have placed := (reassembles_of_run (by decide) earlier).placed
  cases move with
  | arrival => trivial
  | program clears excess =>
      unfold Stocked
      unfold Receiving.Placed at placed
      cases reached : state.pc with
      | waterLevel irq irq_data_wl =>
          simp only [reached] at placed ⊢
          exact fun low => (placed.2 low).1
      | _ => trivial

theorem delivered_interrupt
    (run : INTERRUPT.Run (call frame rbuf) moves receiving log)
    (finished : receiving.pc = .returned) : Delivered frame receiving :=
  (delivered_iff_total (by decide) run finished).mpr
    ((total_iff_stocked (by decide) run).mpr stocked_of_waterLevel)

/-- The compiled copy returns the frame, as the other copy does on any schedule,
exactly if the FIFO held 25 bytes whenever it was read at the water level. -/
theorem frame_reassembled_iff {others : List Move} {other : Receiving} {otherLog : List Unit}
    (run : CHECK.Run (call frame rbuf) moves receiving log)
    (finished : receiving.pc = .returned)
    (otherRun : INTERRUPT.Run (call frame rbuf) others other otherLog)
    (otherFinished : other.pc = .returned) :
    Delivered frame receiving ∧ Agree frame receiving other ↔
      CHECK.Meets (Stocked 25) (call frame rbuf) moves := by
  have interrupt := delivered_interrupt otherRun otherFinished
  have same : Delivered frame receiving → Agree frame receiving other := by
    intro delivered
    refine ⟨delivered.1.trans interrupt.1.symm, fun k inside => ?_⟩
    rw [delivered.2 k inside, interrupt.2 k inside]
  rw [and_iff_left_of_imp same, delivered_iff_total (by decide) run finished]
  exact total_iff_stocked (by decide) run

/-- A call whose reads find what they ask for leaves the frame where the tag takes it from. -/
theorem receive_of_stocked (tag : Tag) (bounded : count ≤ 32)
    (run : (fm11_data_recv count).Run (call frame rbuf) moves receiving log)
    (finished : receiving.pc = .returned)
    (stocked : (fm11_data_recv count).Meets (Stocked count) (call frame rbuf) moves) :
    UInt8.ofNat receiving.result = (tag.receive frame).rfLen ∧
      ∀ k < frame.stored.length, receiving.rbuf.byteAt k = (tag.receive frame).byte k := by
  obtain ⟨length, stored⟩ :=
    (delivered_iff_total bounded run finished).mpr ((total_iff_stocked bounded run).mpr stocked)
  have short := length_stored_le frame
  refine ⟨?_, fun k inside => ?_⟩
  · rw [length, Tag.length_stored]
    rfl
  · rw [stored k inside, Tag.byte_receive _ _ (by omega), if_pos inside]

end Calls

/-! ## Two schedules -/

def arrive (count : Nat) : List Move := List.replicate count .arrival

/-- Steps of the program, with `RX_START` shown once. -/
def program (count : Nat) : List Move := List.replicate count (.program true fun _ => 0)

def sampleFrame (size : Fin 254) : Frame where
  bytes := (List.range (size.val + 1)).map UInt8.ofNat
  crc := (0xAA, 0x55)
  nonempty := by simp
  fits := by
    rw [List.length_map, List.length_range]
    omega

/-- The poll comes when 25 bytes have arrived. -/
theorem frame_reassembled_stocked :
    ∃ moves receiving log other otherLog,
      CHECK.Run (call (sampleFrame 35) fun _ => 0) moves receiving log ∧
      INTERRUPT.Run (call (sampleFrame 35) fun _ => 0) moves other otherLog ∧
      receiving.result = 36 ∧ Delivered (sampleFrame 35) receiving ∧
      Agree (sampleFrame 35) receiving other := by
  obtain ⟨receiving, log, run, seen⟩ := CHECK.exists_run_of_exec
    (fun result => (result.1.pc, result.1.result)) (call (sampleFrame 35) fun _ => 0)
    (arrive 25 ++ program 5 ++ arrive 13 ++ program 6) (.returned, 36) (by decide +kernel)
  obtain ⟨other, otherLog, otherRun, otherFinished⟩ := INTERRUPT.exists_run_of_exec
    (fun result => result.1.pc) (call (sampleFrame 35) fun _ => 0)
    (arrive 25 ++ program 5 ++ arrive 13 ++ program 6) .returned (by decide +kernel)
  obtain ⟨finished, length⟩ := Prod.mk.inj seen
  refine ⟨_, receiving, log, other, otherLog, run, otherRun, length,
    (frame_reassembled_iff run finished otherRun otherFinished).mpr ?_⟩
  exact Machine.meets_of_meetsFrom (fun receiving log move => decide (Stocked 25 receiving log move))
    (fun _ _ _ passed => of_decide_eq_true passed) (by decide +kernel)

/-- A frame of 24 bytes, CRC included, is complete when the program polls: one
byte too many is read and returned. -/
theorem excess_byte_returned :
    let moves := arrive 24 ++ program 6
    ∃ receiving log other otherLog,
      CHECK.Run (call (sampleFrame 21) fun _ => 0) moves receiving log ∧
      INTERRUPT.Run (call (sampleFrame 21) fun _ => 0) moves other otherLog ∧
      receiving.pc = .returned ∧ other.pc = .returned ∧
      (sampleFrame 21).stored.length = 24 ∧ receiving.result = 23 ∧ other.result = 22 ∧
      ¬Delivered (sampleFrame 21) receiving ∧ ¬Agree (sampleFrame 21) receiving other := by
  intro moves
  obtain ⟨receiving, log, run, seen⟩ := CHECK.exists_run_of_exec
    (fun result => (result.1.pc, result.1.result)) (call (sampleFrame 21) fun _ => 0)
    (arrive 24 ++ program 6) (.returned, 23) (by decide +kernel)
  obtain ⟨other, otherLog, otherRun, otherSeen⟩ := INTERRUPT.exists_run_of_exec
    (fun result => (result.1.pc, result.1.result)) (call (sampleFrame 21) fun _ => 0)
    (arrive 24 ++ program 6) (.returned, 22) (by decide +kernel)
  obtain ⟨finished, length⟩ := Prod.mk.inj seen
  obtain ⟨otherFinished, otherLength⟩ := Prod.mk.inj otherSeen
  refine ⟨receiving, log, other, otherLog, run, otherRun, finished, otherFinished, by decide,
    length, otherLength, fun delivered => ?_, fun agree => ?_⟩
  · have wrong := length.symm.trans delivered.1
    exact absurd wrong (by decide)
  · have wrong := (length.symm.trans agree.1).trans otherLength
    exact absurd wrong (by decide)

end WifiIot.Nfc.Reception
