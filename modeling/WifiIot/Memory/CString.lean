import Mathlib.Data.List.TakeWhile
import Mathlib.Data.Nat.Find
import WifiIot.Memory.Block

/-!
# Strings in byte arrays

`strtok` and `atoi` as the C library defines them, on an array whose accesses
are checked.  A scan goes on until a byte stops it, whatever the length of the
text was meant to be; a scan that leaves the array is a fault.
-/

namespace WifiIot.Memory

universe u

variable {Name : Type u} {size : Nat}

def findFrom (name : Name) (stop : UInt8 → Bool) (text : Block size) : Nat → Nat → Checked Name Nat
  | 0, index => .error ⟨name, index, .read⟩
  | fuel + 1, index => do
      let byte ← text.read name index
      if stop byte then pure index else findFrom name stop text fuel (index + 1)

/-- The first index from `start` on whose byte satisfies `stop`. -/
def find (name : Name) (stop : UInt8 → Bool) (text : Block size) (start : Nat) :
    Checked Name Nat :=
  findFrom name stop text (size - start) start

/-- What a call of `strtok` leaves: the token it returns, the position that it
keeps for the next call, and the text. -/
structure Parsed (size : Nat) where
  token : Option Nat
  rest : Option Nat
  text : Block size

def ends (delim : UInt8 → Bool) (byte : UInt8) : Bool := delim byte || byte == 0

def strtok (name : Name) (delim : UInt8 → Bool) (text : Block size) :
    Option Nat → Checked Name (Parsed size)
  | none => .ok ⟨none, none, text⟩
  | some start => do
      let token ← find name (fun byte => !delim byte) text start
      if text.byteAt token = 0 then pure ⟨none, none, text⟩
      else
        let stop ← find name (ends delim) text token
        if text.byteAt stop = 0 then pure ⟨some token, none, text⟩
        else
          let cut ← text.write name stop 0
          pure ⟨some token, some (stop + 1), cut⟩

def isspace (byte : UInt8) : Bool := byte == 32 || (9 ≤ byte && byte ≤ 13)

def isdigit (byte : UInt8) : Bool := 48 ≤ byte && byte ≤ 57

def decimal (text : Block size) (start stop : Nat) : Nat :=
  (List.range' start (stop - start)).foldl
    (fun value index => 10 * value + ((text.byteAt index).toNat - 48)) 0

/-- A value outside of `int` leaves the result to the C library. -/
def atoi (name : Name) (overflow : Int → Int) (text : Block size) (start : Nat) :
    Checked Name Int := do
  let sign ← find name (fun byte => !isspace byte) text start
  let digits := if text.byteAt sign = 43 ∨ text.byteAt sign = 45 then sign + 1 else sign
  let stop ← find name (fun byte => !isdigit byte) text digits
  let magnitude : Int := decimal text digits stop
  let value := if text.byteAt sign = 45 then -magnitude else magnitude
  pure (if -2147483648 ≤ value ∧ value ≤ 2147483647 then value else overflow value)

/-! ## Scans -/

/-- The first index from `start` on whose byte satisfies `stop`. -/
structure First (stop : UInt8 → Bool) (text : Block size) (start index : Nat) : Prop where
  le : start ≤ index
  lt : index < size
  found : stop (text.byteAt index) = true
  before : ∀ k, start ≤ k → k < index → stop (text.byteAt k) = false

namespace First

variable {stop : UInt8 → Bool} {text : Block size} {start index : Nat}

theorem step (passed : stop (text.byteAt start) = false) :
    First stop text start index ↔ First stop text (start + 1) index := by
  constructor
  · intro first
    have later : start ≠ index := by
      intro same
      have found := first.found
      rw [← same, passed] at found
      cases found
    exact ⟨by have := first.le; omega, first.lt, first.found,
      fun k after => first.before k (by omega)⟩
  · intro first
    refine ⟨by have := first.le; omega, first.lt, first.found, ?_⟩
    intro k after prior
    rcases Nat.eq_or_lt_of_le after with rfl | later
    · exact passed
    · exact first.before k later prior

theorem le_of_stop (first : First stop text start index) {k : Nat} (after : start ≤ k)
    (stopped : stop (text.byteAt k) = true) : index ≤ k := by
  by_contra earlier
  have passed := first.before k after (not_le.mp earlier)
  rw [stopped] at passed
  cases passed

end First

theorem find_eq_ok_iff {name : Name} {stop : UInt8 → Bool} {text : Block size}
    {start index : Nat} : find name stop text start = .ok index ↔ First stop text start index := by
  have general : ∀ fuel start, fuel = size - start →
      (findFrom name stop text fuel start = .ok index ↔ First stop text start index) := by
    intro fuel
    induction fuel with
    | zero =>
        intro start outside
        constructor
        · intro found
          cases found
        · intro first
          have := first.le
          have := first.lt
          omega
    | succ fuel inductionHypothesis =>
        intro start remaining
        have inside : start < size := by omega
        simp only [findFrom, Block.read_of_lt inside, ok_bind]
        cases stopped : stop (text.byteAt start) with
        | true =>
            constructor
            · intro found
              cases found
              exact ⟨le_rfl, inside, stopped, fun k after prior => absurd prior (not_lt.mpr after)⟩
            · intro first
              have same : index = start := le_antisymm (first.le_of_stop le_rfl stopped) first.le
              rw [same]
              rfl
        | false =>
            rw [if_neg (by simp), inductionHypothesis (start + 1) (by omega)]
            exact (First.step stopped).symm
  exact general _ start rfl

theorem find_eq_error (name : Name) {stop : UInt8 → Bool} {text : Block size} {start : Nat}
    (never : ∀ k, start ≤ k → k < size → stop (text.byteAt k) = false) :
    ∃ index, find name stop text start = .error ⟨name, index, .read⟩ := by
  unfold find
  generalize remaining : size - start = fuel
  induction fuel generalizing start with
  | zero => exact ⟨start, rfl⟩
  | succ fuel inductionHypothesis =>
      have inside : start < size := by omega
      obtain ⟨index, failed⟩ := @inductionHypothesis (start + 1)
        (fun k after => never k (by omega)) (by omega)
      refine ⟨index, ?_⟩
      rw [findFrom, Block.read_of_lt inside, ok_bind, never start le_rfl inside]
      exact failed

/-- Some byte between `start` and `limit` satisfies `stop`. -/
def Stops (stop : UInt8 → Bool) (text : Block size) (start limit : Nat) : Prop :=
  ∃ k, start ≤ k ∧ k < limit ∧ stop (text.byteAt k) = true

theorem Stops.exists_first {stop : UInt8 → Bool} {text : Block size} {start limit : Nat}
    (stops : Stops stop text start limit) (inside : limit ≤ size) :
    ∃ index, First stop text start index ∧ index < limit := by
  have witnessed : ∃ k, start ≤ k ∧ k < limit ∧ stop (text.byteAt k) = true := stops
  refine ⟨Nat.find witnessed, ?_, (Nat.find_spec witnessed).2.1⟩
  obtain ⟨le, lt, found⟩ := Nat.find_spec witnessed
  refine ⟨le, by omega, found, ?_⟩
  intro k after prior
  have minimal := Nat.find_min witnessed prior
  cases stopped : stop (text.byteAt k) with
  | false => rfl
  | true => exact absurd ⟨after, by omega, stopped⟩ minimal

/-! ## Texts that agree -/

/-- Two texts hold the same bytes from `start` to `limit`. -/
def Agree (start limit : Nat) (left right : Block size) : Prop :=
  ∀ k, start ≤ k → k < limit → left.byteAt k = right.byteAt k

section Agreement

variable {start limit index : Nat} {left right : Block size}

theorem Agree.mono (agree : Agree start limit left right) {later : Nat} (after : start ≤ later) :
    Agree later limit left right :=
  fun k behind => agree k (le_trans after behind)

theorem Agree.patch (agree : Agree start limit left right) (inside : limit ≤ size)
    (position len : Nat) (bytes : Nat → UInt8) :
    Agree start limit (left.patch position len bytes) (right.patch position len bytes) := by
  intro k after before
  rw [Block.byteAt_patch (by omega), Block.byteAt_patch (by omega), agree k after before]

theorem First.agree {stop : UInt8 → Bool} (first : First stop left start index)
    (agree : Agree start limit left right) (before : index < limit) :
    First stop right start index := by
  refine ⟨first.le, first.lt, ?_, ?_⟩
  · rw [← agree index first.le before]
    exact first.found
  · intro k after prior
    rw [← agree k after (by omega)]
    exact first.before k after prior

end Agreement

/-! ## Tokens -/

/-- What `strtok` does with a text from `start` on; `last` is the last byte it looks at. -/
inductive Tokenized (delim : UInt8 → Bool) (text : Block size) (start : Nat) :
    Nat → Parsed size → Prop where
  | exhausted {last} :
      First (fun byte => !delim byte) text start last →
      text.byteAt last = 0 →
      Tokenized delim text start last ⟨none, none, text⟩
  | final {token last} :
      First (fun byte => !delim byte) text start token →
      text.byteAt token ≠ 0 →
      First (ends delim) text token last →
      text.byteAt last = 0 →
      Tokenized delim text start last ⟨some token, none, text⟩
  | cut {token last} :
      First (fun byte => !delim byte) text start token →
      text.byteAt token ≠ 0 →
      First (ends delim) text token last →
      text.byteAt last ≠ 0 →
      Tokenized delim text start last
        ⟨some token, some (last + 1), text.patch last 1 fun _ => 0⟩

theorem write_eq_patch {name : Name} {text : Block size} {index : Nat} {byte : UInt8}
    (inside : index < size) :
    text.write name index byte = .ok (text.patch index 1 fun _ => byte) := by
  rw [Block.write, dif_pos inside]
  congr 1
  have written : Function.update (text.patch index 0 fun _ => byte) ⟨index + 0, inside⟩ byte =
      text.patch index 1 fun _ => byte := Block.update_patch inside
  simpa using written

theorem strtok_eq_ok_iff {name : Name} {delim : UInt8 → Bool} {text : Block size}
    {start : Nat} {parsed : Parsed size} :
    strtok name delim text (some start) = .ok parsed ↔
      ∃ last, Tokenized delim text start last parsed := by
  simp only [strtok, bind_eq_ok_iff, find_eq_ok_iff]
  constructor
  · rintro ⟨token, skipped, returned⟩
    split at returned
    · rename_i nul
      cases returned
      exact ⟨token, .exhausted skipped nul⟩
    · rename_i present
      simp only [bind_eq_ok_iff, find_eq_ok_iff] at returned
      obtain ⟨last, ended, returned⟩ := returned
      split at returned
      · rename_i nul
        cases returned
        exact ⟨last, .final skipped present ended nul⟩
      · rename_i delimiter
        rw [write_eq_patch ended.lt, ok_bind] at returned
        cases returned
        exact ⟨last, .cut skipped present ended delimiter⟩
  · rintro ⟨last, tokenized⟩
    cases tokenized with
    | exhausted skipped nul => exact ⟨last, skipped, by rw [if_pos nul]; rfl⟩
    | @final token _ skipped present ended nul =>
        refine ⟨token, skipped, ?_⟩
        rw [if_neg present, find_eq_ok_iff.mpr ended, ok_bind, if_pos nul]
        rfl
    | @cut token _ skipped present ended delimiter =>
        refine ⟨token, skipped, ?_⟩
        rw [if_neg present, find_eq_ok_iff.mpr ended, ok_bind, if_neg delimiter,
          write_eq_patch ended.lt, ok_bind]
        rfl

/-- From `start` on and before `limit` there is a NUL, or a delimiter behind a token. -/
def Delimited (delim : UInt8 → Bool) (text : Block size) (start limit : Nat) : Prop :=
  Stops (· == 0) text start limit ∨
    ∃ token stop, start ≤ token ∧ token < stop ∧ stop < limit ∧
      delim (text.byteAt token) = false ∧ delim (text.byteAt stop) = true

namespace Tokenized

variable {delim : UInt8 → Bool} {text left right : Block size} {start last limit : Nat}
  {parsed : Parsed size}

theorem start_le (tokenized : Tokenized delim text start last parsed) : start ≤ last := by
  cases tokenized with
  | exhausted skipped _ => exact skipped.le
  | final skipped _ ended _ => exact le_trans skipped.le ended.le
  | cut skipped _ ended _ => exact le_trans skipped.le ended.le

theorem last_lt (tokenized : Tokenized delim text start last parsed) : last < size := by
  cases tokenized with
  | exhausted skipped _ => exact skipped.lt
  | final _ _ ended _ => exact ended.lt
  | cut _ _ ended _ => exact ended.lt

/-- The call ends at a NUL, or at the delimiter behind a token. -/
theorem zero_or_rest (tokenized : Tokenized delim text start last parsed) :
    text.byteAt last = 0 ∨ parsed.rest = some (last + 1) := by
  cases tokenized with
  | exhausted _ nul => exact .inl nul
  | final _ _ _ nul => exact .inl nul
  | cut => exact .inr rfl

theorem exists_of_delimited (delimited : Delimited delim text start limit)
    (nul : delim 0 = false) (inside : limit ≤ size) :
    ∃ last parsed, Tokenized delim text start last parsed ∧ last < limit := by
  -- the byte that ends the token, and one at or before it that starts one
  have bounded : ∃ token stop, start ≤ token ∧ token ≤ stop ∧ stop < limit ∧
      delim (text.byteAt token) = false ∧ ends delim (text.byteAt stop) = true := by
    rcases delimited with ⟨k, after, before, zero⟩ | ⟨token, stop, after, behind, before, other, delimiter⟩
    · have zero : text.byteAt k = 0 := by simpa using zero
      exact ⟨k, k, after, le_rfl, before, by rw [zero, nul], by simp [ends, zero]⟩
    · exact ⟨token, stop, after, behind.le, before, other, by simp [ends, delimiter]⟩
  obtain ⟨token, stop, after, behind, before, other, ended⟩ := bounded
  have starts : Stops (fun byte => !delim byte) text start limit :=
    ⟨token, after, by omega, by simp [other]⟩
  obtain ⟨first, skipped, within⟩ := starts.exists_first inside
  have early : first ≤ token := skipped.le_of_stop after (by simp [other])
  by_cases zero : text.byteAt first = 0
  · exact ⟨first, _, .exhausted skipped zero, within⟩
  · have stops : Stops (ends delim) text first limit := ⟨stop, le_trans early behind, before, ended⟩
    obtain ⟨last, found, within⟩ := stops.exists_first inside
    by_cases final : text.byteAt last = 0
    · exact ⟨last, _, .final skipped zero found final, within⟩
    · exact ⟨last, _, .cut skipped zero found final, within⟩

/-- The call looks at no byte behind `last`, so it does the same on a text that
agrees up to there. -/
theorem agree (tokenized : Tokenized delim left start last parsed)
    (agree : Agree start limit left right) (before : last < limit) (inside : limit ≤ size) :
    ∃ other, Tokenized delim right start last other ∧ other.token = parsed.token ∧
      other.rest = parsed.rest ∧ Agree start limit parsed.text other.text := by
  cases tokenized with
  | exhausted skipped nul =>
      have same := agree last skipped.le before
      exact ⟨_, .exhausted (skipped.agree agree before) (same ▸ nul), rfl, rfl, agree⟩
  | @final token _ skipped present ended nul =>
      have early : token < limit := lt_of_le_of_lt ended.le before
      have first := agree token skipped.le early
      have same := agree last (le_trans skipped.le ended.le) before
      exact ⟨_, .final (skipped.agree agree early) (first ▸ present)
        (ended.agree (agree.mono skipped.le) before) (same ▸ nul), rfl, rfl, agree⟩
  | @cut token _ skipped present ended delimiter =>
      have early : token < limit := lt_of_le_of_lt ended.le before
      have first := agree token skipped.le early
      have same := agree last (le_trans skipped.le ended.le) before
      exact ⟨_, .cut (skipped.agree agree early) (first ▸ present)
        (ended.agree (agree.mono skipped.le) before) (same ▸ delimiter), rfl, rfl,
        agree.patch inside last 1 fun _ => 0⟩

theorem token_ends (tokenized : Tokenized delim text start last parsed) {token : Nat}
    (returned : parsed.token = some token) :
    start ≤ token ∧ token ≤ last ∧ parsed.text.byteAt last = 0 := by
  cases tokenized with
  | exhausted => cases returned
  | final skipped _ ended nul =>
      cases returned
      exact ⟨skipped.le, ended.le, nul⟩
  | cut skipped _ ended _ =>
      cases returned
      exact ⟨skipped.le, ended.le, by simp [Block.byteAt_patch ended.lt]⟩

theorem rest_begins (tokenized : Tokenized delim text start last parsed) (nul : delim 0 = false)
    {rest : Nat} (kept : parsed.rest = some rest) :
    rest = last + 1 ∧
      (∃ token, First (fun byte => !delim byte) text start token ∧
        First (ends delim) text token last ∧ token < last ∧ delim (text.byteAt last) = true) ∧
      (∀ k, start ≤ k → k ≤ last → text.byteAt k ≠ 0) ∧
      ∀ k, last < k → k < size → parsed.text.byteAt k = text.byteAt k := by
  cases tokenized with
  | exhausted => cases kept
  | final => cases kept
  | @cut token _ skipped present ended delimiter =>
      cases kept
      have delimiterThere : delim (text.byteAt last) = true := by
        have found := ended.found
        simpa [ends, delimiter] using found
      have behind : token < last := by
        refine lt_of_le_of_ne ended.le ?_
        intro same
        have other := skipped.found
        rw [same, delimiterThere] at other
        cases other
      refine ⟨rfl, ⟨token, skipped, ended, behind, delimiterThere⟩, ?_, ?_⟩
      · intro k after upTo zero
        rcases Nat.lt_or_ge k token with skippedOver | inToken
        · have passed := skipped.before k after skippedOver
          rw [zero, nul] at passed
          cases passed
        · rcases Nat.lt_or_ge k last with earlier | final
          · have passed := ended.before k inToken earlier
            rw [zero] at passed
            simp [ends] at passed
          · exact delimiter (le_antisymm upTo final ▸ zero)
      · intro k later within
        rw [Block.byteAt_patch within, if_neg (by omega)]

end Tokenized

/-! ## Numbers -/

section Numbers

variable {name : Name} {overflow : Int → Int} {start limit : Nat} {left right : Block size}

theorem decimal_agree {stop : Nat} (agree : Agree start limit left right) (before : stop ≤ limit) :
    decimal left start stop = decimal right start stop := by
  unfold decimal
  refine List.foldl_ext _ _ _ ?_
  intro value index membership
  have inside := List.mem_range'_1.mp membership
  rw [agree index inside.1 (by omega)]

/-- A number in a text that has a NUL before `limit` is read without a look behind it. -/
theorem atoi_agree (agree : Agree start limit left right) (inside : limit ≤ size)
    (nul : Stops (· == 0) left start limit) :
    ∃ value, atoi name overflow left start = .ok value ∧
      atoi name overflow right start = .ok value := by
  obtain ⟨k, after, before, zero⟩ := nul
  have zero : left.byteAt k = 0 := by simpa using zero
  have begins : Stops (fun byte => !isspace byte) left start limit :=
    ⟨k, after, before, by rw [zero]; rfl⟩
  obtain ⟨sign, skipped, signBefore⟩ := begins.exists_first inside
  have signByte := agree sign skipped.le signBefore
  have signFirst : sign ≤ k := skipped.le_of_stop after (by rw [zero]; rfl)
  -- a sign is not the NUL, so the digits begin before it ends
  obtain ⟨digits, chosen, digitsAfter, digitsBefore⟩ : ∃ digits,
      digits = (if left.byteAt sign = 43 ∨ left.byteAt sign = 45 then sign + 1 else sign) ∧
        start ≤ digits ∧ digits ≤ k := by
    refine ⟨_, rfl, ?_⟩
    have := skipped.le
    split
    · rename_i signed
      have different : sign ≠ k := by
        rintro rfl
        rw [zero] at signed
        rcases signed with plus | minus
        · cases plus
        · cases minus
      omega
    · omega
  have stops : Stops (fun byte => !isdigit byte) left digits limit :=
    ⟨k, digitsBefore, before, by rw [zero]; rfl⟩
  obtain ⟨stop, ended, stopBefore⟩ := stops.exists_first inside
  have skippedRight := skipped.agree agree signBefore
  have endedRight := ended.agree (agree.mono digitsAfter) stopBefore
  simp only [atoi, find_eq_ok_iff.mpr skipped, find_eq_ok_iff.mpr skippedRight, ok_bind,
    ← signByte, ← chosen, find_eq_ok_iff.mpr ended, find_eq_ok_iff.mpr endedRight,
    decimal_agree (agree.mono digitsAfter) stopBefore.le]
  exact ⟨_, rfl, rfl⟩

end Numbers

/-! ## The string in an array -/

/-- The bytes of a string, without the NUL that ends it. -/
abbrev Text : Type := { bytes : List UInt8 // (0 : UInt8) ∉ bytes }

def emptyText : Text := ⟨[], List.not_mem_nil⟩

def strlen (text : Text) : Nat := text.val.length

def beforeNul (bytes : List UInt8) : Text :=
  ⟨bytes.takeWhile (· != 0), fun membership => by simpa using List.mem_takeWhile_imp membership⟩

namespace Block

/-- The string in an array, which it fills if there is no NUL. -/
def content (block : Block size) : Text := beforeNul ((List.range size).map block.byteAt)

def string (name : Name) (block : Block size) : Checked Name Text := do
  let _ ← find name (· == 0) block 0
  pure block.content

end Block

section Strings

variable {name : Name} {block : Block size}

theorem beforeNul_append_zero (text : Text) (rest : List UInt8) :
    beforeNul (text.val ++ 0 :: rest) = text := by
  have passed : ∀ byte ∈ text.val, (byte != 0) = true := by
    intro byte membership
    have nonzero : byte ≠ 0 := fun zero => text.property (zero ▸ membership)
    simpa using nonzero
  apply Subtype.ext
  change (text.val ++ 0 :: rest).takeWhile (· != 0) = text.val
  rw [List.takeWhile_append_of_pos passed, List.takeWhile_cons_of_neg (by simp), List.append_nil]

theorem content_eq {text : Text} (fits : strlen text < size)
    (bytes : ∀ k (inside : k < text.val.length), block.byteAt k = text.val[k])
    (nul : block.byteAt (strlen text) = 0) : block.content = text := by
  obtain ⟨rest, total⟩ : ∃ rest, size = strlen text + 1 + rest := Nat.exists_eq_add_of_le fits
  have front : (List.range (strlen text)).map block.byteAt = text.val := by
    apply List.ext_getElem
    · simp [strlen]
    · intro k left right
      simpa using bytes k right
  unfold Block.content
  have indices : List.range size = List.range (strlen text + 1 + rest) := congrArg _ total
  rw [indices, List.range_add, List.map_append, List.range_succ, List.map_append, front,
    List.map_singleton, nul, List.append_assoc]
  exact beforeNul_append_zero text _

theorem string_eq_ok (nul : Stops (· == 0) block 0 size) :
    block.string name = .ok block.content := by
  obtain ⟨index, found, -⟩ := nul.exists_first le_rfl
  rw [Block.string, find_eq_ok_iff.mpr found]
  rfl

theorem stops_of_string {text : Text} (read : block.string name = .ok text) :
    Stops (· == 0) block 0 size := by
  obtain ⟨index, found, -⟩ := bind_eq_ok_iff.mp read
  have first := find_eq_ok_iff.mp found
  exact ⟨index, first.le, first.lt, first.found⟩

end Strings

end WifiIot.Memory
