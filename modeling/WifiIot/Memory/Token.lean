import WifiIot.Memory.CString

/-!
# The tokens of a string

What `strtok` and `atoi` return, said of the string and not of the array that
holds it.  The tokens of a text are the pieces between its delimiters, without
the empty ones; `strtok` returns them one after the other, each ended by a NUL
of its own.
-/

namespace WifiIot.Memory

universe u

def tokens (delim : UInt8 → Bool) (text : List UInt8) : List (List UInt8) :=
  (text.splitOnP delim).filter fun piece => !piece.isEmpty

section Tokens

variable {delim : UInt8 → Bool} {lead word : List UInt8}

theorem tokens_append_cons {byte : UInt8} (delimiter : delim byte = true)
    (text rest : List UInt8) :
    tokens delim (text ++ byte :: rest) = tokens delim text ++ tokens delim rest := by
  rw [tokens, List.splitOnP_append_cons text rest delimiter, List.filter_append]
  rfl

theorem tokens_word (nonempty : word ≠ []) (within : ∀ byte ∈ word, delim byte = false) :
    tokens delim word = [word] := by
  rw [tokens, List.splitOnP_eq_singleton within]
  simp [nonempty]

theorem tokens_lead (delimiters : ∀ byte ∈ lead, delim byte = true) (text : List UInt8) :
    tokens delim (lead ++ text) = tokens delim text := by
  induction lead with
  | nil => rfl
  | cons byte lead inductionHypothesis =>
      have front : tokens delim ([] ++ byte :: (lead ++ text)) = tokens delim (lead ++ text) :=
        tokens_append_cons (delimiters byte (by simp)) [] (lead ++ text)
      rw [List.cons_append]
      exact front.trans
        (inductionHypothesis fun other membership => delimiters other (by simp [membership]))

/-- How a text begins, with its tokens: it has none, it ends with the first one,
or a delimiter follows the first one. -/
inductive Cut (delim : UInt8 → Bool) : List UInt8 → List (List UInt8) → Prop where
  | blank {lead : List UInt8} :
      (∀ byte ∈ lead, delim byte = true) →
      Cut delim lead []
  | last {lead word : List UInt8} :
      (∀ byte ∈ lead, delim byte = true) → word ≠ [] →
      (∀ byte ∈ word, delim byte = false) →
      Cut delim (lead ++ word) [word]
  | more {lead word : List UInt8} {byte : UInt8} {rest : List UInt8} :
      (∀ byte ∈ lead, delim byte = true) → word ≠ [] →
      (∀ byte ∈ word, delim byte = false) → delim byte = true →
      Cut delim (lead ++ (word ++ byte :: rest)) (word :: tokens delim rest)

theorem cut_tokens (delim : UInt8 → Bool) (text : List UInt8) :
    Cut delim text (tokens delim text) := by
  have delimiters : ∀ byte ∈ text.takeWhile delim, delim byte = true :=
    fun byte membership => List.mem_takeWhile_imp membership
  have split : text.takeWhile delim ++ text.dropWhile delim = text := List.takeWhile_append_dropWhile
  rw [← split, tokens_lead delimiters]
  generalize text.takeWhile delim = lead at delimiters
  cases behind : text.dropWhile delim with
  | nil =>
      rw [List.append_nil]
      exact .blank delimiters
  | cons first others =>
      have starts : delim first = false := by
        have found := List.head?_dropWhile_not delim text
        rw [behind] at found
        simpa using found
      -- the first token ends at the next delimiter
      have nonempty : (first :: others).takeWhile (fun byte => !delim byte) ≠ [] := by
        simp [starts]
      have within : ∀ byte ∈ (first :: others).takeWhile (fun byte => !delim byte), delim byte = false := by
        intro byte membership
        simpa using List.mem_takeWhile_imp membership
      have parts : (first :: others).takeWhile (fun byte => !delim byte) ++
          (first :: others).dropWhile (fun byte => !delim byte) = first :: others :=
        List.takeWhile_append_dropWhile
      rw [← parts]
      generalize (first :: others).takeWhile (fun byte => !delim byte) = word at nonempty within
      cases later : (first :: others).dropWhile (fun byte => !delim byte) with
      | nil =>
          rw [List.append_nil, tokens_word nonempty within]
          exact .last delimiters nonempty within
      | cons byte rest =>
          have delimiter : delim byte = true := by
            have found := List.head?_dropWhile_not (fun byte => !delim byte) (first :: others)
            rw [later] at found
            simpa using found
          rw [tokens_append_cons delimiter, tokens_word nonempty within]
          exact .more delimiters nonempty within delimiter

theorem tokens_induction (delim : UInt8 → Bool) {motive : List UInt8 → List (List UInt8) → Prop}
    (blank : ∀ lead, motive lead [])
    (last : ∀ lead word, word ≠ [] → motive (lead ++ word) [word])
    (more : ∀ lead word byte rest, word ≠ [] → motive rest (tokens delim rest) →
      motive (lead ++ (word ++ byte :: rest)) (word :: tokens delim rest))
    (text : List UInt8) : motive text (tokens delim text) := by
  induction length : text.length using Nat.strong_induction_on generalizing text with
  | _ total inductionHypothesis =>
      have cut := cut_tokens delim text
      generalize tokens delim text = words at cut
      cases cut with
      | blank => exact blank _
      | last _ nonempty _ => exact last _ _ nonempty
      | @more lead word byte rest _ nonempty _ _ =>
          have shorter : rest.length < total := by
            simp only [← length, List.length_append, List.length_cons]
            omega
          exact more lead word byte rest nonempty (inductionHypothesis _ shorter rest rfl)

theorem length_tokens_le (delim : UInt8 → Bool) (text : List UInt8) :
    (tokens delim text).length ≤ text.length := by
  induction text using tokens_induction delim with
  | blank lead => exact Nat.zero_le _
  | last lead word nonempty =>
      have positive := List.length_pos_of_ne_nil nonempty
      simp only [List.length_singleton, List.length_append]
      omega
  | more lead word byte rest nonempty inductionHypothesis =>
      simp only [List.length_append, List.length_cons]
      omega

theorem mem_of_mem_tokens {text : List UInt8} {byte : UInt8} (listed : word ∈ tokens delim text)
    (membership : byte ∈ word) : byte ∈ text := by
  revert listed
  induction text using tokens_induction delim with
  | blank lead =>
      intro listed
      cases listed
  | last lead token nonempty =>
      intro listed
      rw [List.mem_singleton] at listed
      exact List.mem_append_right lead (listed ▸ membership)
  | more lead token delimiter rest nonempty inductionHypothesis =>
      intro listed
      rcases List.mem_cons.mp listed with rfl | later
      · simp [membership]
      · simp [inductionHypothesis later]

end Tokens

/-! ## Numbers -/

def digitsValue (digits : List UInt8) : Nat :=
  digits.foldl (fun value byte => 10 * value + (byte.toNat - 48)) 0

/-- The value that `atoi` returns for a string. -/
def numeral (overflow : Int → Int) (text : List UInt8) : Int :=
  let unspaced := text.dropWhile isspace
  let digits := if unspaced.head? = some 43 ∨ unspaced.head? = some 45 then unspaced.tail else unspaced
  let magnitude : Int := digitsValue (digits.takeWhile isdigit)
  let value := if unspaced.head? = some 45 then -magnitude else magnitude
  if -2147483648 ≤ value ∧ value ≤ 2147483647 then value else overflow value

/-! ## Texts in an array -/

variable {size : Nat}

/-- The array holds these bytes from `start` on. -/
def Reads (block : Block size) : Nat → List UInt8 → Prop
  | _, [] => True
  | start, byte :: rest => start < size ∧ block.byteAt start = byte ∧ Reads block (start + 1) rest

instance (block : Block size) (start : Nat) (bytes : List UInt8) :
    Decidable (Reads block start bytes) :=
  match bytes with
  | [] => .isTrue trivial
  | byte :: rest =>
      have : Decidable (Reads block (start + 1) rest) := instDecidableReads block (start + 1) rest
      inferInstanceAs (Decidable (start < size ∧ block.byteAt start = byte ∧ _))

section Reads

variable {block : Block size} {start : Nat} {front rest text : List UInt8} {byte : UInt8}

@[simp]
theorem reads_nil (block : Block size) (start : Nat) : Reads block start [] := trivial

@[simp]
theorem reads_cons_iff : Reads block start (byte :: rest) ↔
    start < size ∧ block.byteAt start = byte ∧ Reads block (start + 1) rest := Iff.rfl

@[simp]
theorem reads_append_iff : Reads block start (front ++ rest) ↔
    Reads block start front ∧ Reads block (start + front.length) rest := by
  induction front generalizing start with
  | nil => simp
  | cons byte front inductionHypothesis =>
      have position : start + 1 + front.length = start + (byte :: front).length := by
        rw [List.length_cons]
        omega
      rw [List.cons_append, reads_cons_iff, reads_cons_iff, inductionHypothesis, position, and_assoc,
        and_assoc]

theorem Reads.lt_size (reads : Reads block start text) {k : Nat} (inside : k < text.length) :
    start + k < size := by
  induction text generalizing start k with
  | nil => simp at inside
  | cons byte rest inductionHypothesis =>
      obtain ⟨here, -, later⟩ := reads
      cases k with
      | zero => exact here
      | succ k =>
          have next := inductionHypothesis later (Nat.lt_of_succ_lt_succ inside)
          omega

theorem Reads.byteAt_eq (reads : Reads block start text) {k : Nat} (inside : k < text.length) :
    block.byteAt (start + k) = text[k] := by
  induction text generalizing start k with
  | nil => simp at inside
  | cons byte rest inductionHypothesis =>
      obtain ⟨-, same, later⟩ := reads
      cases k with
      | zero => exact same
      | succ k =>
          have next := inductionHypothesis later (Nat.lt_of_succ_lt_succ inside)
          rw [List.getElem_cons_succ, ← next]
          congr 1
          omega

theorem Reads.patch_before {index : Nat} (reads : Reads block start text) (before : index < start)
    (value : UInt8) : Reads (block.patch index 1 fun _ => value) start text := by
  induction text generalizing start with
  | nil => trivial
  | cons byte rest inductionHypothesis =>
      obtain ⟨here, same, later⟩ := reads
      refine ⟨here, ?_, inductionHypothesis later (by omega)⟩
      rw [Block.byteAt_patch here, if_neg (by omega)]
      exact same

theorem Reads.patch_behind {index : Nat} (reads : Reads block start text)
    (behind : start + text.length ≤ index) (value : UInt8) :
    Reads (block.patch index 1 fun _ => value) start text := by
  induction text generalizing start with
  | nil => trivial
  | cons byte rest inductionHypothesis =>
      obtain ⟨here, same, later⟩ := reads
      rw [List.length_cons] at behind
      refine ⟨here, ?_, inductionHypothesis later (by omega)⟩
      rw [Block.byteAt_patch here, if_neg (by omega)]
      exact same

theorem Reads.first {stop : UInt8 → Bool} (reads : Reads block start (front ++ byte :: rest))
    (passed : ∀ other ∈ front, stop other = false) (stopped : stop byte = true) :
    First stop block start (start + front.length) := by
  obtain ⟨before, here, same, -⟩ := reads_append_iff.mp reads
  refine ⟨Nat.le_add_right .., here, by rw [same]; exact stopped, ?_⟩
  intro k after prior
  obtain ⟨offset, rfl⟩ := Nat.exists_eq_add_of_le after
  have inside : offset < front.length := by omega
  rw [before.byteAt_eq inside]
  exact passed _ (List.getElem_mem inside)

end Reads

/-! ## The calls of `strtok` -/

/-- The tokens that are left for the calls from the saved position on. -/
def Remains (delim : UInt8 → Bool) (block : Block size) :
    Option Nat → List (List UInt8) → Prop
  | none, words => words = []
  | some start, words =>
      ∃ text, (0 : UInt8) ∉ text ∧ Reads block start (text ++ [0]) ∧ tokens delim text = words

/-- What a call returns: a pointer to the word, ended by a NUL, or none. -/
def Returned (parsed : Parsed size) : Option (List UInt8) → Prop
  | none => parsed.token = none
  | some word => (0 : UInt8) ∉ word ∧
      ∃ token, parsed.token = some token ∧ Reads parsed.text token (word ++ [0])

section Calls

variable {delim : UInt8 → Bool} {block : Block size} {position : Option Nat}
  {words : List (List UInt8)}

theorem Reads.token {start : Nat} {lead word rest : List UInt8} {stop : UInt8}
    (reads : Reads block start (lead ++ (word ++ stop :: rest)))
    (delimiters : ∀ byte ∈ lead, delim byte = true) (nonempty : word ≠ [])
    (within : ∀ byte ∈ word, delim byte = false) (nonzero : ∀ byte ∈ word, byte ≠ 0)
    (ended : ends delim stop = true) :
    First (fun byte => !delim byte) block start (start + lead.length) ∧
      block.byteAt (start + lead.length) ≠ 0 ∧
      First (ends delim) block (start + lead.length) (start + lead.length + word.length) ∧
      block.byteAt (start + lead.length + word.length) = stop := by
  obtain ⟨-, fromToken⟩ := reads_append_iff.mp reads
  obtain ⟨inToken, here, last, -⟩ := reads_append_iff.mp fromToken
  have passed : ∀ byte ∈ word, ends delim byte = false := by
    intro byte membership
    simp [ends, within byte membership, nonzero byte membership]
  have scanned := fromToken.first passed ended
  cases word with
  | nil => exact absurd rfl nonempty
  | cons first others =>
      have starts : delim first = false := within first List.mem_cons_self
      refine ⟨?_, ?_, scanned, last⟩
      · refine reads.first (fun byte membership => ?_) (by simp [starts])
        simp [delimiters byte membership]
      · rw [inToken.2.1]
        exact nonzero first List.mem_cons_self

/-- Each call returns the next token and leaves the others. -/
theorem Remains.strtok {Name : Type u} (name : Name) (nul : delim 0 = false)
    (remains : Remains delim block position words) :
    ∃ parsed, strtok name delim block position = .ok parsed ∧ Returned parsed words.head? ∧
      Remains delim parsed.text parsed.rest words.tail := by
  cases position with
  | none =>
      obtain rfl : words = [] := remains
      exact ⟨⟨none, none, block⟩, rfl, rfl, rfl⟩
  | some start =>
      obtain ⟨text, clean, reads, rfl⟩ := remains
      have nonzero : ∀ byte ∈ text, byte ≠ 0 := fun byte membership zero => clean (zero ▸ membership)
      have cut := cut_tokens delim text
      generalize tokens delim text = words at cut
      cases cut with
      | blank delimiters =>
          have skipped : First (fun byte => !delim byte) block start (start + text.length) := by
            refine reads.first (fun byte membership => ?_) (by simp [nul])
            simp [delimiters byte membership]
          have zero : block.byteAt (start + text.length) = 0 := (reads_append_iff.mp reads).2.2.1
          refine ⟨⟨none, none, block⟩, strtok_eq_ok_iff.mpr ⟨_, .exhausted skipped zero⟩, rfl, rfl⟩
      | @last lead word delimiters nonempty within =>
          have cleanWord : ∀ byte ∈ word, byte ≠ 0 :=
            fun byte membership => nonzero byte (List.mem_append_right lead membership)
          rw [List.append_assoc] at reads
          obtain ⟨skipped, present, ended, zero⟩ :=
            reads.token delimiters nonempty within cleanWord (by simp [ends])
          refine ⟨_, strtok_eq_ok_iff.mpr ⟨_, .final skipped present ended zero⟩, ⟨?_, ?_⟩, rfl⟩
          · exact fun membership => cleanWord 0 membership rfl
          · exact ⟨_, rfl, (reads_append_iff.mp reads).2⟩
      | @more lead word byte rest delimiters nonempty within delimiter =>
          have cleanWord : ∀ byte ∈ word, byte ≠ 0 :=
            fun byte membership => nonzero byte (by simp [membership])
          have cleanRest : (0 : UInt8) ∉ rest := fun membership => nonzero 0 (by simp [membership]) rfl
          rw [List.append_assoc, List.append_assoc, List.cons_append] at reads
          obtain ⟨skipped, present, ended, stop⟩ :=
            reads.token delimiters nonempty within cleanWord (by simp [ends, delimiter])
          have nonzeroStop : byte ≠ 0 := nonzero byte (by simp)
          obtain ⟨inWord, here, -, behind⟩ :=
            reads_append_iff.mp (reads_append_iff.mp reads).2
          refine ⟨_, strtok_eq_ok_iff.mpr ⟨_, .cut skipped present ended (stop ▸ nonzeroStop)⟩,
            ⟨?_, _, rfl, ?_⟩, rest, cleanRest, ?_, rfl⟩
          · exact fun membership => cleanWord 0 membership rfl
          · -- the delimiter behind the word has become the NUL that ends it
            refine reads_append_iff.mpr ⟨inWord.patch_behind le_rfl 0, here, ?_, trivial⟩
            rw [Block.byteAt_patch here, if_pos (by omega)]
          · exact behind.patch_before (Nat.lt_succ_self _) 0

end Calls

section Numbers

variable {block : Block size} {start : Nat} {text : List UInt8}

theorem Reads.scan (reads : Reads block start (text ++ [0])) (stop : UInt8 → Bool)
    (nul : stop 0 = true) :
    First stop block start (start + (text.takeWhile fun byte => !stop byte).length) ∧
      Reads block (start + (text.takeWhile fun byte => !stop byte).length)
        (text.dropWhile (fun byte => !stop byte) ++ [0]) := by
  have passed : ∀ byte ∈ text.takeWhile fun byte => !stop byte, stop byte = false := by
    intro byte membership
    simpa using List.mem_takeWhile_imp membership
  have parts : text.takeWhile (fun byte => !stop byte) ++ text.dropWhile (fun byte => !stop byte) =
      text := List.takeWhile_append_dropWhile
  rw [← parts, List.append_assoc] at reads
  refine ⟨?_, (reads_append_iff.mp reads).2⟩
  cases behind : text.dropWhile fun byte => !stop byte with
  | nil =>
      rw [behind] at reads
      exact reads.first passed nul
  | cons byte rest =>
      have stopped : stop byte = true := by
        have found := List.head?_dropWhile_not (fun byte => !stop byte) text
        rw [behind] at found
        simpa using found
      rw [behind] at reads
      exact reads.first passed stopped

theorem Reads.foldl_range' (reads : Reads block start text) (value : Nat) :
    (List.range' start text.length).foldl
        (fun value index => 10 * value + ((block.byteAt index).toNat - 48)) value =
      text.foldl (fun value byte => 10 * value + (byte.toNat - 48)) value := by
  induction text generalizing start value with
  | nil => rfl
  | cons byte rest inductionHypothesis =>
      obtain ⟨-, same, later⟩ := reads
      rw [List.length_cons, List.range'_succ, List.foldl_cons, List.foldl_cons, same]
      exact inductionHypothesis later _

theorem Reads.decimal (reads : Reads block start text) :
    decimal block start (start + text.length) = digitsValue text := by
  rw [Memory.decimal, Nat.add_sub_cancel_left]
  exact reads.foldl_range' 0

theorem Reads.atoi {Name : Type u} (name : Name) (overflow : Int → Int)
    (reads : Reads block start (text ++ [0])) :
    atoi name overflow block start = .ok (numeral overflow text) := by
  obtain ⟨skipped, unspaced⟩ := reads.scan (fun byte => !isspace byte) rfl
  simp only [Bool.not_not] at skipped unspaced
  generalize start + (text.takeWhile isspace).length = sign at skipped unspaced
  generalize rest : text.dropWhile isspace = signed at unspaced
  have first (byte : UInt8) (nonzero : byte ≠ 0) :
      block.byteAt sign = byte ↔ signed.head? = some byte := by
    cases signed with
    | nil => simp [unspaced.2.1, nonzero.symm]
    | cons other others => simp [unspaced.2.1]
  obtain ⟨digits, position, chosen, digitsRest, digitsReads⟩ : ∃ digits position,
      (if block.byteAt sign = 43 ∨ block.byteAt sign = 45 then sign + 1 else sign) = position ∧
      (if signed.head? = some 43 ∨ signed.head? = some 45 then signed.tail else signed) = digits ∧
      Reads block position (digits ++ [0]) := by
    refine ⟨_, _, rfl, rfl, ?_⟩
    simp only [first 43 (by decide), first 45 (by decide)]
    split
    · cases signed with
      | nil => simp_all
      | cons other others => exact unspaced.2.2
    · exact unspaced
  obtain ⟨ended, -⟩ := digitsReads.scan (fun byte => !isdigit byte) rfl
  simp only [Bool.not_not] at ended
  have split : digits.takeWhile isdigit ++ (digits.dropWhile isdigit ++ [0]) = digits ++ [0] := by
    rw [← List.append_assoc, List.takeWhile_append_dropWhile]
  rw [← split] at digitsReads
  have value := (reads_append_iff.mp digitsReads).1.decimal
  simp only [Memory.atoi, find_eq_ok_iff.mpr skipped, ok_bind, chosen, find_eq_ok_iff.mpr ended, value]
  simp only [numeral, rest, digitsRest, first 45 (by decide)]
  rfl

end Numbers

/-! ## Copies of strings -/

def stringAt {Name : Type u} (name : Name) (block : Block size) (start : Nat) :
    Checked Name (List UInt8) := do
  let stop ← find name (· == 0) block start
  .ok ((List.range' start (stop - start)).map block.byteAt)

/-- `snprintf(block, len, "%s", text + start)`.  The string is read to its NUL, as all of it is
counted; at most `len - 1` bytes of it are stored, and a NUL behind them. -/
def snprintf {Name : Type u} {room : Nat} (name textName : Name) (block : Block room) (len : Nat)
    (text : Block size) (start : Nat) : Checked Name (Block room) := do
  let string ← stringAt textName text start
  if len = 0 then .ok block
  else
    let bytes := string.take (len - 1)
    let copied ← copy name (listSource name bytes) block 0 bytes.length
    copied.write name bytes.length 0

section Copies

variable {Name : Type u} {block : Block size} {start : Nat} {text : List UInt8}

theorem reads_iff : Reads block start text ↔
    ∀ k, ∀ inside : k < text.length, start + k < size ∧ block.byteAt (start + k) = text[k] := by
  constructor
  · intro reads k inside
    exact ⟨reads.lt_size inside, reads.byteAt_eq inside⟩
  · intro holds
    induction text generalizing start with
    | nil => trivial
    | cons byte rest inductionHypothesis =>
        obtain ⟨here, same⟩ := holds 0 (Nat.succ_pos _)
        refine ⟨here, same, inductionHypothesis ?_⟩
        intro k inside
        obtain ⟨lt, later⟩ := holds (k + 1) (Nat.succ_lt_succ inside)
        rw [Nat.add_right_comm, Nat.add_assoc]
        exact ⟨lt, later⟩

theorem Reads.map_byteAt (reads : Reads block start text) :
    (List.range' start text.length).map block.byteAt = text := by
  apply List.ext_getElem
  · simp
  · intro k left right
    simpa using reads.byteAt_eq right

theorem Reads.write (name : Name) (reads : Reads block 0 text) (byte : UInt8)
    (room : text.length < size) : ∃ written, block.write name text.length byte = .ok written ∧
      Reads written 0 (text ++ [byte]) := by
  refine ⟨_, write_eq_patch room, reads_append_iff.mpr ⟨?_, ?_, ?_, trivial⟩⟩
  · exact reads.patch_behind (Nat.zero_add _).le byte
  · rwa [Nat.zero_add]
  · rw [Nat.zero_add, Block.byteAt_patch room, if_pos (by omega)]

theorem Reads.stringAt (name : Name) (clean : (0 : UInt8) ∉ text)
    (reads : Reads block start (text ++ [0])) : stringAt name block start = .ok text := by
  have passed : ∀ byte ∈ text, (byte == 0) = false := by
    intro byte membership
    have nonzero : byte ≠ 0 := fun zero => clean (zero ▸ membership)
    simpa using nonzero
  have stop : find name (· == 0) block start = .ok (start + text.length) :=
    find_eq_ok_iff.mpr (reads.first passed rfl)
  have bytes := (reads_append_iff.mp reads).1.map_byteAt
  rw [Memory.stringAt, stop, ok_bind, Nat.add_sub_cancel_left, bytes]

theorem stringAt_eq (name : Name) (stops : Stops (· == 0) block start size) :
    stringAt name block start =
      .ok (beforeNul ((List.range' start (size - start)).map block.byteAt)).val := by
  obtain ⟨stop, first, -⟩ := stops.exists_first le_rfl
  rw [stringAt, find_eq_ok_iff.mpr first, ok_bind]
  have le := first.le
  have lt := first.lt
  obtain ⟨length, here⟩ : ∃ length, size - stop = length + 1 :=
    Nat.exists_eq_add_one_of_ne_zero (by omega)
  have split : List.range' start (size - start) =
      List.range' start (stop - start) ++ stop :: List.range' (stop + 1) length := by
    have whole : size - start = (stop - start) + (size - stop) := by omega
    rw [whole, ← List.range'_append_1, Nat.add_sub_cancel' le, here, List.range'_succ]
  have passed : ∀ byte ∈ (List.range' start (stop - start)).map block.byteAt, (byte != 0) = true := by
    intro byte mem
    obtain ⟨k, listed, rfl⟩ := List.mem_map.mp mem
    have within := List.mem_range'_1.mp listed
    simpa using first.before k within.1 (by omega)
  have ended : block.byteAt stop = 0 := by simpa using first.found
  change _ = Except.ok (((List.range' start (size - start)).map block.byteAt).takeWhile (· != 0))
  rw [split, List.map_append, List.map_cons, List.takeWhile_append_of_pos passed, ended,
    List.takeWhile_cons_of_neg (by simp), List.append_nil]

theorem snprintf_eq {room : Nat} {name textName : Name} {message : Block room} {len : Nat}
    (stops : Stops (· == 0) block start size) (positive : 0 < len) (fits : len ≤ room)
    (inside : start + (len - 1) ≤ size) :
    ∃ printed, snprintf name textName message len block start = .ok printed ∧
      Reads printed 0
        ((beforeNul ((List.range' start (len - 1)).map block.byteAt)).val ++ [0]) := by
  have taken : (beforeNul ((List.range' start (size - start)).map block.byteAt)).val.take (len - 1) =
      (beforeNul ((List.range' start (len - 1)).map block.byteAt)).val := by
    rw [beforeNul, beforeNul, List.take_takeWhile, ← List.map_take,
      List.take_range'_of_length_ge (by omega)]
  rw [snprintf, stringAt_eq textName stops, ok_bind, if_neg positive.ne', taken]
  generalize stringEq : (beforeNul ((List.range' start (len - 1)).map block.byteAt)).val = bytes
  have short : bytes.length < room := by
    have bounded : bytes.length ≤ ((List.range' start (len - 1)).map block.byteAt).length :=
      stringEq ▸ (List.takeWhile_prefix _).length_le
    rw [List.length_map, List.length_range'] at bounded
    omega
  have copied : copy name (listSource name bytes) message 0 bytes.length =
      .ok (message.patch 0 bytes.length fun k => bytes.getD k 0) :=
    copy_eq_ok (fun k inside => listSource_eq name inside) (by omega)
  refine ⟨(message.patch 0 bytes.length fun k => bytes.getD k 0).patch bytes.length 1 fun _ => 0, ?_, ?_⟩
  · simp only [copied, ok_bind]
    exact write_eq_patch short
  · rw [reads_append_iff, Nat.zero_add]
    refine ⟨reads_iff.mpr fun k inside => ?_, short, ?_, trivial⟩
    · have within : 0 + k < room := by omega
      refine ⟨within, ?_⟩
      rw [Block.byteAt_patch within, if_neg (by omega), Block.byteAt_patch within,
        if_pos (by omega), Nat.zero_add, Nat.sub_zero, ← List.getElem_eq_getD 0]
    · rw [Block.byteAt_patch short, if_pos (by omega)]

theorem snprintf_eq_error {room : Nat} (name textName : Name) (message : Block room) (len : Nat)
    (endless : ¬Stops (· == 0) block start size) :
    ∃ index, snprintf name textName message len block start = .error ⟨textName, index, .read⟩ := by
  obtain ⟨index, failed⟩ := @find_eq_error _ size textName (· == 0) block start (by
    intro k after before
    by_contra stopped
    exact endless ⟨k, after, before, by simpa using stopped⟩)
  refine ⟨index, ?_⟩
  rw [snprintf, stringAt, failed]
  rfl

end Copies

end WifiIot.Memory
