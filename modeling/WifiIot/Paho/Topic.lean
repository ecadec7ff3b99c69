import WifiIot.Paho.Packet

/-!
# Topic filters

`isTopicMatched` goes through a filter and a topic name at the same time.  For a
filter that is written as its comment asks for, it compares them level by level;
against a level without characters no wildcard holds.

Source: `paho_mqtt/MQTTClient-C/src/MQTTClient.c`, `isTopicMatched`, and
`paho_mqtt/MQTTPacket/src/MQTTPacket.c`, `MQTTPacket_equals`.
-/

namespace WifiIot.Paho

open Memory Wire

variable {size : Nat}

/-- `/` -/
def SLASH : UInt8 := 47

/-- `+` -/
def PLUS : UInt8 := 43

/-- `#` -/
def HASH : UInt8 := 35

/-- The loop of a `+`: up to the last character of the level. -/
def skipLevel (block : Block size) (curn curn_end : Nat) : Checked Buffer Nat :=
  if curn + 1 < curn_end then do
    let next ← block.read .buf (curn + 1)
    if next ≠ SLASH then skipLevel block (curn + 1) curn_end else .ok curn
  else .ok curn
termination_by curn_end - curn

/-- The rounds of the loop, one for each character of the filter, and the end. -/
def matchRounds (block : Block size) (curn_end : Nat) : List UInt8 → Nat → Checked Buffer Bool
  | [], curn => .ok (curn = curn_end)
  | f :: curf, curn =>
      if curn < curn_end then do
        let n ← block.read .buf curn
        if n = SLASH ∧ f ≠ SLASH then .ok false
        else if f ≠ PLUS ∧ f ≠ HASH ∧ f ≠ n then .ok false
        else if f = PLUS then do
          let curn ← skipLevel block curn curn_end
          matchRounds block curn_end curf (curn + 1)
        else if f = HASH then matchRounds block curn_end curf (curn_end - 1 + 1)
        else matchRounds block curn_end curf (curn + 1)
      else .ok false

def isTopicMatched (topicFilter : Text) (block : Block size) (topicName : MQTTLenString) :
    Checked Buffer Bool :=
  matchRounds block (topicName.data + topicName.len) topicFilter.val topicName.data

/-- `strncmp` over as many characters as both have. -/
def sameBytes (block : Block size) : Nat → List UInt8 → Checked Buffer Bool
  | _, [] => .ok true
  | ptr, b :: bytes => do
      let a ← block.read .buf ptr
      if a = b then sameBytes block (ptr + 1) bytes else .ok false

def MQTTPacket_equals (block : Block size) (a : MQTTLenString) (bptr : Text) : Checked Buffer Bool :=
  if a.len = strlen bptr then sameBytes block a.data bptr.val else .ok false

/-! ## On the bytes of the name -/

/-- What is left of a name behind its first level. -/
def behindLevel (name : List UInt8) : List UInt8 := name.dropWhile (· ≠ SLASH)

def topicMatches : List UInt8 → List UInt8 → Bool
  | [], name => name = []
  | _ :: _, [] => false
  | f :: curf, n :: name =>
      if n = SLASH ∧ f ≠ SLASH then false
      else if f = PLUS then topicMatches curf (behindLevel name)
      else if f = HASH then curf = []
      else f = n && topicMatches curf name

section Bytes

variable {block : Block size} {name : List UInt8} {curn curn_end : Nat}

theorem skipLevel_eq (reads : Reads block (curn + 1) name) (ends : curn + 1 + name.length = curn_end) :
    ∃ last, skipLevel block curn curn_end = .ok last ∧ Reads block (last + 1) (behindLevel name) ∧
      last + 1 + (behindLevel name).length = curn_end := by
  induction name generalizing curn with
  | nil =>
      rw [List.length_nil] at ends
      exact ⟨curn, by rw [skipLevel, if_neg (by omega)], reads, ends⟩
  | cons next name inductionHypothesis =>
      rw [List.length_cons] at ends
      have read : block.read Buffer.buf (curn + 1) = .ok next := read_of_reads reads
      rw [skipLevel, if_pos (by omega), read, ok_bind]
      by_cases slash : next = SLASH
      · have stays : behindLevel (next :: name) = next :: name := by
          rw [behindLevel, List.dropWhile_cons_of_neg (by simpa using slash)]
        rw [if_neg (not_not.mpr slash), stays]
        exact ⟨curn, rfl, reads, by rw [List.length_cons]; omega⟩
      · have goes : behindLevel (next :: name) = behindLevel name := by
          rw [behindLevel, List.dropWhile_cons_of_pos (by simpa using slash), behindLevel]
        rw [if_pos slash, goes]
        exact inductionHypothesis reads.2.2 (by omega)

/-- The loop reads the bytes of the name and no others. -/
theorem matchRounds_eq (topicFilter : List UInt8) (reads : Reads block curn name)
    (ends : curn + name.length = curn_end) :
    matchRounds block curn_end topicFilter curn = .ok (topicMatches topicFilter name) := by
  induction topicFilter generalizing curn name with
  | nil =>
      rw [matchRounds, topicMatches]
      congr 2
      rw [← List.length_eq_zero_iff, eq_iff_iff]
      omega
  | cons f curf inductionHypothesis =>
      cases name with
      | nil =>
          rw [List.length_nil] at ends
          rw [matchRounds, if_neg (by omega), topicMatches]
      | cons n name =>
          rw [List.length_cons] at ends
          have read : block.read Buffer.buf curn = .ok n := read_of_reads reads
          have endsBehind : curn + 1 + name.length = curn_end := by omega
          rw [matchRounds, if_pos (by omega), read, ok_bind, topicMatches]
          by_cases slash : n = SLASH ∧ f ≠ SLASH
          · rw [if_pos slash, if_pos slash]
          · rw [if_neg slash, if_neg slash]
            by_cases plus : f = PLUS
            · obtain ⟨last, skipped, behind, within⟩ := skipLevel_eq reads.2.2 endsBehind
              rw [if_neg (by simp [plus]), if_pos plus, if_pos plus, skipped, ok_bind]
              exact inductionHypothesis behind within
            · rw [if_neg plus, if_neg plus]
              by_cases hash : f = HASH
              · have atEnd : Reads block curn_end [] := reads_nil block curn_end
                have last : curn_end - 1 + 1 = curn_end := by omega
                rw [if_neg (by simp [hash]), if_pos hash, if_pos hash, last,
                  inductionHypothesis atEnd (Nat.add_zero _)]
                cases curf <;> rfl
              · rw [if_neg hash, if_neg hash]
                by_cases same : f = n
                · rw [if_neg (by simp [same]), inductionHypothesis reads.2.2 endsBehind]
                  simp [same]
                · rw [if_pos ⟨plus, hash, same⟩]
                  simp [same]

theorem sameBytes_eq {ptr : Nat} {bytes : List UInt8} (reads : Reads block ptr name)
    (length : name.length = bytes.length) : sameBytes block ptr bytes = .ok (name = bytes) := by
  induction bytes generalizing ptr name with
  | nil =>
      rw [List.length_nil, List.length_eq_zero_iff] at length
      simp [sameBytes, length]
  | cons b bytes inductionHypothesis =>
      cases name with
      | nil => simp at length
      | cons a name =>
          have read : block.read Buffer.buf ptr = .ok a := read_of_reads reads
          rw [sameBytes, read, ok_bind]
          by_cases same : a = b
          · rw [if_pos same, inductionHypothesis reads.2.2 (Nat.succ.inj length)]
            simp [same]
          · rw [if_neg same]
            simp [same]

end Bytes

theorem isTopicMatched_eq (topicFilter : Text) {block : Block size} {topicName : MQTTLenString}
    {name : List UInt8} (holds : topicName.Holds block name) :
    isTopicMatched topicFilter block topicName = .ok (topicMatches topicFilter.val name) :=
  matchRounds_eq topicFilter.val holds.2 (by rw [holds.1])

theorem MQTTPacket_equals_eq {block : Block size} {topicName : MQTTLenString} {name : List UInt8}
    (holds : topicName.Holds block name) (topicFilter : Text) :
    MQTTPacket_equals block topicName topicFilter = .ok (name = topicFilter.val) := by
  rw [MQTTPacket_equals, holds.1]
  by_cases length : name.length = strlen topicFilter
  · rw [if_pos length, sameBytes_eq holds.2 length]
  · have other : name ≠ topicFilter.val := fun same => length (congrArg List.length same)
    rw [if_neg length]
    simp [other]

/-! ## Level by level -/

def levels (text : List UInt8) : List (List UInt8) := text.splitOn SLASH

def Plain (level : List UInt8) : Prop := PLUS ∉ level ∧ HASH ∉ level

instance (level : List UInt8) : Decidable (Plain level) := inferInstanceAs (Decidable (_ ∧ _))

/-- A `+` has a level for itself, and a `#` the last one. -/
def WellFormedFilter : List (List UInt8) → Prop
  | [] => True
  | [level] => level = [HASH] ∨ level = [PLUS] ∨ Plain level
  | level :: levels => (level = [PLUS] ∨ Plain level) ∧ WellFormedFilter levels

def LevelsMatch : List (List UInt8) → List (List UInt8) → Prop
  | [], names => names = []
  | _ :: _, [] => False
  | level :: filters, name :: names =>
      if level = [HASH] then name ≠ []
      else if level = [PLUS] then name ≠ [] ∧ LevelsMatch filters names
      else level = name ∧ LevelsMatch filters names

/-- What the wildcards stand for: one level, and any number of levels, none included. -/
def Admits : List (List UInt8) → List (List UInt8) → Prop
  | [], names => names = []
  | level :: filters, names =>
      if level = [HASH] then True
      else
        match names with
        | [] => False
        | name :: names => (level = [PLUS] ∨ level = name) ∧ Admits filters names

section Levels

variable {level text name : List UInt8}

theorem levels_of_notMem (single : SLASH ∉ text) : levels text = [text] :=
  List.splitOn_eq_singleton single

theorem levels_append (first : SLASH ∉ level) (rest : List UInt8) :
    levels (level ++ SLASH :: rest) = level :: levels rest :=
  List.splitOn_append_cons_self_of_not_mem first rest

/-- What can follow a level: nothing, or the next one. -/
inductive AfterLevel : List UInt8 → List (List UInt8) → Prop where
  | nothing : AfterLevel [] []
  | next (rest : List UInt8) : AfterLevel (SLASH :: rest) (levels rest)

theorem AfterLevel.eq_nil {rest : List UInt8} {others : List (List UInt8)}
    (behind : AfterLevel rest others) (last : others = []) : rest = [] := by
  cases behind with
  | nothing => rfl
  | next rest => exact absurd last (List.splitOn_ne_nil _ _)

theorem exists_first_level (text : List UInt8) : ∃ level rest others,
    text = level ++ rest ∧ SLASH ∉ level ∧ AfterLevel rest others ∧ levels text = level :: others := by
  by_cases slash : SLASH ∈ text
  · obtain ⟨level, rest, rfl, first⟩ := List.eq_append_cons_of_mem slash
    exact ⟨level, SLASH :: rest, levels rest, rfl, first, .next rest, levels_append first rest⟩
  · exact ⟨text, [], [], (List.append_nil text).symm, slash, .nothing, levels_of_notMem slash⟩

theorem behindLevel_append {rest : List UInt8} {others : List (List UInt8)} (first : SLASH ∉ level)
    (behind : AfterLevel rest others) : behindLevel (level ++ rest) = rest := by
  have skipped : ∀ byte ∈ level, decide (byte ≠ SLASH) = true := by
    intro byte membership
    exact decide_eq_true (ne_of_mem_of_not_mem membership first)
  rw [behindLevel, List.dropWhile_append_of_pos skipped]
  cases behind with
  | nothing => rfl
  | next rest => rw [List.dropWhile_cons_of_neg (by simp)]

variable {curf rest : List UInt8} {filters names : List (List UInt8)}

theorem topicMatches_plain (plain : Plain level) (whole : SLASH ∉ level) (first : SLASH ∉ name)
    (behindFilter : AfterLevel curf filters) (behindName : AfterLevel rest names) :
    topicMatches (level ++ curf) (name ++ rest) = true ↔
      level = name ∧ topicMatches curf rest = true := by
  induction level generalizing name with
  | nil =>
      cases name with
      | nil => simp
      | cons n name =>
          have notSlash : n ≠ SLASH := fun same => first (same ▸ List.mem_cons_self)
          cases behindFilter with
          | nothing => simp [topicMatches]
          | next more =>
              have other : SLASH ≠ n := Ne.symm notSlash
              have noWildcard : SLASH ≠ PLUS ∧ SLASH ≠ HASH := by decide
              simp [topicMatches, other, noWildcard]
  | cons f level inductionHypothesis =>
      obtain ⟨noPlus, noHash⟩ := plain
      simp only [List.mem_cons, not_or] at noPlus noHash whole
      cases name with
      | nil =>
          cases behindName with
          | nothing => simp [topicMatches]
          | next more =>
              have other : f ≠ SLASH := Ne.symm whole.1
              simp [topicMatches, other]
      | cons n name =>
          simp only [List.mem_cons, not_or] at first
          have later := @inductionHypothesis name ⟨noPlus.2, noHash.2⟩ whole.2 first.2
          have notSlash : n ≠ SLASH := Ne.symm first.1
          have notPlus : f ≠ PLUS := Ne.symm noPlus.1
          have notHash : f ≠ HASH := Ne.symm noHash.1
          simp [topicMatches, notSlash, notPlus, notHash, later, and_assoc]

theorem topicMatches_plus (first : SLASH ∉ name) (behindName : AfterLevel rest names) :
    topicMatches (PLUS :: curf) (name ++ rest) = true ↔
      name ≠ [] ∧ topicMatches curf rest = true := by
  have notSlash : PLUS ≠ SLASH := by decide
  cases name with
  | nil =>
      cases behindName with
      | nothing => simp [topicMatches]
      | next more => simp [topicMatches, notSlash]
  | cons n name =>
      simp only [List.mem_cons, not_or] at first
      have other : n ≠ SLASH := Ne.symm first.1
      rw [List.cons_append, topicMatches, if_neg (by simp [other]), if_pos rfl,
        behindLevel_append first.2 behindName]
      simp

/-- A `#` takes all that is left, if the first level of it is not empty. -/
theorem topicMatches_hash (first : SLASH ∉ name) (behindName : AfterLevel rest names) :
    topicMatches [HASH] (name ++ rest) = true ↔ name ≠ [] := by
  have notSlash : HASH ≠ SLASH ∧ HASH ≠ PLUS := by decide
  cases name with
  | nil =>
      cases behindName with
      | nothing => simp [topicMatches]
      | next more => simp [topicMatches, notSlash]
  | cons n name =>
      simp only [List.mem_cons, not_or] at first
      have other : n ≠ SLASH := Ne.symm first.1
      simp [topicMatches, other, notSlash]

theorem topicMatches_after (behindFilter : AfterLevel curf filters) (behindName : AfterLevel rest names)
    (matches_iff : ∀ more, curf = SLASH :: more → ∀ other,
      topicMatches more other = true ↔ LevelsMatch filters (levels other)) :
    topicMatches curf rest = true ↔ LevelsMatch filters names := by
  have noWildcard : SLASH ≠ PLUS ∧ SLASH ≠ HASH := by decide
  have notEmpty (text : List UInt8) : levels text ≠ [] := List.splitOn_ne_nil _ _
  cases behindFilter with
  | nothing =>
      cases behindName with
      | nothing => simp [topicMatches, LevelsMatch]
      | next other => simp [topicMatches, LevelsMatch, notEmpty]
  | next more =>
      cases behindName with
      | nothing =>
          obtain ⟨level, others, split⟩ := List.exists_cons_of_ne_nil (notEmpty more)
          simp [topicMatches, LevelsMatch, split]
      | next other =>
          rw [← matches_iff more rfl other]
          simp [topicMatches, noWildcard]

end Levels

theorem wellFormedFilter_cons {level : List UInt8} {filters : List (List UInt8)}
    (wellFormed : WellFormedFilter (level :: filters)) :
    (level = [HASH] ∧ filters = [] ∨ level = [PLUS] ∨ Plain level) ∧ WellFormedFilter filters := by
  cases filters with
  | nil =>
      refine ⟨?_, trivial⟩
      rcases wellFormed with hash | other
      · exact .inl ⟨hash, rfl⟩
      · exact .inr other
  | cons next filters => exact ⟨.inr wellFormed.1, wellFormed.2⟩

theorem topicMatches_iff {filters : List (List UInt8)} {topicFilter : List UInt8}
    (split : levels topicFilter = filters) (wellFormed : WellFormedFilter filters)
    (name : List UInt8) :
    topicMatches topicFilter name = true ↔ LevelsMatch filters (levels name) := by
  induction filters generalizing topicFilter name with
  | nil => exact absurd split (List.splitOn_ne_nil _ _)
  | cons level filters inductionHypothesis =>
      obtain ⟨head, curf, others, rfl, whole, behindFilter, splitFilter⟩ :=
        exists_first_level topicFilter
      obtain ⟨rfl, rfl⟩ := List.cons.inj (splitFilter.symm.trans split)
      obtain ⟨first, rest, names, rfl, single, behindName, splitName⟩ := exists_first_level name
      obtain ⟨kind, wellFormed⟩ := wellFormedFilter_cons wellFormed
      have further : topicMatches curf rest = true ↔ LevelsMatch others names := by
        apply topicMatches_after behindFilter behindName
        rintro more rfl other
        cases behindFilter with
        | next => exact inductionHypothesis rfl wellFormed other
      rw [splitName, LevelsMatch]
      rcases kind with ⟨rfl, rfl⟩ | rfl | plain
      · obtain rfl := behindFilter.eq_nil rfl
        rw [if_pos rfl]
        exact topicMatches_hash single behindName
      · rw [if_neg (by decide), if_pos rfl, ← further]
        exact topicMatches_plus single behindName
      · have notHash : head ≠ [HASH] := by
          rintro rfl
          exact plain.2 List.mem_cons_self
        have notPlus : head ≠ [PLUS] := by
          rintro rfl
          exact plain.1 List.mem_cons_self
        rw [if_neg notHash, if_neg notPlus, ← further]
        exact topicMatches_plain plain whole single behindFilter behindName

/-! ## What the wildcards stand for -/

/-- Nothing is matched that the wildcards do not stand for. -/
theorem admits_of_levelsMatch {filters names : List (List UInt8)}
    (found : LevelsMatch filters names) : Admits filters names := by
  induction filters generalizing names with
  | nil => exact found
  | cons level filters inductionHypothesis =>
      cases names with
      | nil => exact found.elim
      | cons name names =>
          rw [LevelsMatch] at found
          rw [Admits]
          split_ifs at found with hash plus
          · rw [if_pos hash]
            trivial
          · rw [if_neg hash]
            exact ⟨.inl plus, inductionHypothesis found.2⟩
          · rw [if_neg hash]
            exact ⟨.inr found.1, inductionHypothesis found.2⟩

/-- In a name without empty levels all is matched, but for the name of the parent in
front of a `#`. -/
theorem levelsMatch_of_admits {filters names : List (List UInt8)} (admits : Admits filters names)
    (wellFormed : WellFormedFilter filters) (filled : ∀ name ∈ names, name ≠ [])
    (enough : filters.length ≤ names.length) : LevelsMatch filters names := by
  induction filters generalizing names with
  | nil => exact admits
  | cons level filters inductionHypothesis =>
      cases names with
      | nil => exact absurd enough (Nat.not_succ_le_zero _)
      | cons name names =>
          obtain ⟨first, others⟩ := List.forall_mem_cons.mp filled
          obtain ⟨-, further⟩ := wellFormedFilter_cons wellFormed
          rw [Admits] at admits
          rw [LevelsMatch]
          split_ifs at admits ⊢ with hash plus
          · exact first
          · exact ⟨first, inductionHypothesis admits.2 further others (Nat.le_of_succ_le_succ enough)⟩
          · exact ⟨admits.1.resolve_left plus,
              inductionHypothesis admits.2 further others (Nat.le_of_succ_le_succ enough)⟩

theorem length_le_of_levelsMatch {filters names : List (List UInt8)}
    (wellFormed : WellFormedFilter filters) (found : LevelsMatch filters names) :
    filters.length ≤ names.length := by
  induction filters generalizing names with
  | nil => exact Nat.zero_le _
  | cons level filters inductionHypothesis =>
      cases names with
      | nil => exact found.elim
      | cons name names =>
          obtain ⟨kind, further⟩ := wellFormedFilter_cons wellFormed
          rw [LevelsMatch] at found
          rw [List.length_cons, List.length_cons]
          split_ifs at found with hash plus
          · rcases kind with ⟨-, rfl⟩ | plus | plain
            · exact Nat.succ_le_succ (Nat.zero_le _)
            · exact absurd (hash.symm.trans plus) (by decide)
            · exact absurd (hash ▸ List.mem_cons_self) plain.2
          · exact Nat.succ_le_succ (inductionHypothesis further found.2)
          · exact Nat.succ_le_succ (inductionHypothesis further found.2)

/-- For a well-formed filter, the function reads the topic name and nothing else, it
compares level by level, it finds nothing that the wildcards do not stand for, and in a
name without empty levels it misses nothing but a parent in front of a `#`. -/
theorem isTopicMatched_iff {topicFilter : Text} (wellFormed : WellFormedFilter (levels topicFilter.val))
    {block : Block size} {topicName : MQTTLenString} {name : List UInt8}
    (holds : topicName.Holds block name) :
    ∃ matched, isTopicMatched topicFilter block topicName = .ok matched ∧
      (matched = true ↔ LevelsMatch (levels topicFilter.val) (levels name)) ∧
      (matched = true → Admits (levels topicFilter.val) (levels name)) ∧
      ((∀ level ∈ levels name, level ≠ []) → (matched = true ↔
        Admits (levels topicFilter.val) (levels name) ∧
          (levels topicFilter.val).length ≤ (levels name).length)) := by
  have exact_iff := topicMatches_iff rfl wellFormed name
  refine ⟨_, isTopicMatched_eq topicFilter holds, exact_iff,
    fun found => admits_of_levelsMatch (exact_iff.mp found), fun filled => exact_iff.trans ⟨?_, ?_⟩⟩
  · intro found
    exact ⟨admits_of_levelsMatch found, length_le_of_levelsMatch wellFormed found⟩
  · rintro ⟨admits, enough⟩
    exact levelsMatch_of_admits admits wellFormed filled enough

/-- `a/+` against `a/b` at the end of a packet. -/
theorem isTopicMatched_iff_one_level :
    let topicFilter : Text := ⟨[97, 47, 43], by decide⟩
    let block : Block 4 := fun i => [0, 97, 47, 98].getD i.val 0
    ∃ matched, isTopicMatched topicFilter block ⟨1, 3⟩ = .ok matched ∧
      (matched = true ↔ LevelsMatch (levels [97, 47, 43]) (levels [97, 47, 98])) := by
  intro topicFilter block
  have holds : (⟨1, 3⟩ : MQTTLenString).Holds block [97, 47, 98] := ⟨rfl, by decide⟩
  have split : levels [97, 47, 43] = [[97], [43]] := by decide
  have wellFormed : WellFormedFilter (levels topicFilter.val) := by
    rw [show topicFilter.val = [97, 47, 43] from rfl, split]
    exact ⟨.inr (by decide), .inr (.inl rfl)⟩
  obtain ⟨matched, called, iff, -⟩ := isTopicMatched_iff wellFormed holds
  exact ⟨matched, called, iff⟩

end WifiIot.Paho
