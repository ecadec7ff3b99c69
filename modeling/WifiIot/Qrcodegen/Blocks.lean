import WifiIot.Qrcodegen.Ecc

/-!
# What stands in the blocks

Every block is a word of a Reed–Solomon code: as a polynomial it vanishes at the first
powers of 2, one for each byte behind the data.  So the blocks of different data are far
from each other, and a reader that finds few wrong bytes in each block knows the data.

Source: `qrcode_gen/src/qrcodegen.c`.
-/

namespace WifiIot.Qrcodegen

open Coding Polynomial Raster

def lift (bytes : List UInt8) : List Codeword := bytes.map Codeword.mk

@[simp]
theorem length_lift (bytes : List UInt8) : (lift bytes).length = bytes.length := List.length_map _

theorem lift_injective : Function.Injective lift :=
  List.map_injective_iff.mpr fun _ _ same => congrArg Codeword.byte same

theorem lift_append (first second : List UInt8) : lift (first ++ second) = lift first ++ lift second :=
  List.map_append

theorem lift_replicate (count : Nat) : lift (List.replicate count 0) = List.replicate count 0 :=
  List.map_replicate

theorem headD_lift (bytes : List UInt8) : (lift bytes).headD 0 = ⟨bytes.headD 0⟩ := by
  cases bytes <;> rfl

theorem shifted_lift (bytes : List UInt8) : shifted (lift bytes) = lift (bytes.tail ++ [0]) := by
  rw [shifted, lift_append, lift, ← List.map_tail]
  rfl

/-! ## The remainder -/

theorem lift_multiplyRoot (root : UInt8) (bytes : List UInt8) :
    lift (multiplyRoot root bytes) = timesRoot (lift bytes) ⟨root⟩ := by
  induction bytes with
  | nil => rfl
  | cons first rest inductionHypothesis =>
      cases rest with
      | nil =>
          have place : (⟨reedSolomonMultiply first root⟩ : Codeword) =
              ⟨0 ^^^ reedSolomonMultiply first root⟩ := congrArg Codeword.mk UInt8.zero_xor.symm
          exact congrArg (fun place => [place]) place
      | cons next rest =>
          have place : (⟨reedSolomonMultiply first root ^^^ next⟩ : Codeword) =
              ⟨next ^^^ reedSolomonMultiply first root⟩ :=
            congrArg Codeword.mk (UInt8.xor_comm _ _)
          exact congrArg₂ List.cons place inductionHypothesis

theorem lift_divideRound (generator result : List UInt8) (value : UInt8) :
    lift (divideRound generator result value) =
      divideStep (lift generator) (lift result) ⟨value⟩ := by
  rw [divideStep, shifted_lift, headD_lift, lift, lift, lift, divideRound, List.map_zipWith,
    List.zipWith_map]
  rfl

theorem lift_reedSolomonComputeRemainder (data generator : List UInt8) :
    lift (reedSolomonComputeRemainder data generator generator.length) =
      remainder (lift generator) (lift data) := by
  have rounds : ∀ result : List UInt8, lift (data.foldl (divideRound generator) result) =
      (lift data).foldl (divideStep (lift generator)) (lift result) := by
    induction data with
    | nil => exact fun _ => rfl
    | cons value data inductionHypothesis =>
        intro result
        rw [List.foldl_cons, inductionHypothesis, lift_divideRound]
        rfl
  rw [reedSolomonComputeRemainder, rounds, remainder, length_lift, lift_replicate]

def roots (degree : Nat) : List Codeword := (List.range degree).map fun k => ⟨2⟩ ^ k

theorem roots_succ (degree : Nat) : roots (degree + 1) = roots degree ++ [⟨2⟩ ^ degree] := by
  rw [roots, List.range_succ, List.map_append, ← roots, List.map_singleton]

theorem lift_reedSolomonComputeDivisor (degree : Nat) :
    lift (reedSolomonComputeDivisor degree) = (roots degree).foldl timesRoot (unit degree) := by
  have rounds : ∀ count, ∃ result root,
      (List.range count).foldl (fun (state : List UInt8 × UInt8) _ =>
        (multiplyRoot state.2 state.1, reedSolomonMultiply state.2 0x02))
        (List.replicate (degree - 1) 0 ++ [1], (1 : UInt8)) = (result, root) ∧
      lift result = (roots count).foldl timesRoot (unit degree) ∧
      (⟨root⟩ : Codeword) = ⟨2⟩ ^ count := by
    intro count
    induction count with
    | zero =>
        refine ⟨_, _, rfl, ?_, rfl⟩
        rw [lift_append, lift_replicate]
        rfl
    | succ count inductionHypothesis =>
        obtain ⟨result, root, runs, product, power⟩ := inductionHypothesis
        refine ⟨multiplyRoot root result, reedSolomonMultiply root 0x02, ?_, ?_, ?_⟩
        · rw [List.range_succ, List.foldl_append, runs]
          rfl
        · rw [lift_multiplyRoot, product, power, roots_succ, List.foldl_append]
          rfl
        · rw [pow_succ, ← power]
          rfl
  obtain ⟨result, root, runs, product, -⟩ := rounds degree
  rw [reedSolomonComputeDivisor, runs]
  exact product

theorem length_reedSolomonComputeDivisor {degree : Nat} (positive : 0 < degree) :
    (reedSolomonComputeDivisor degree).length = degree := by
  have filled : (unit degree : List Codeword) ≠ [] := by simp [unit]
  rw [← length_lift, lift_reedSolomonComputeDivisor, length_foldl_timesRoot _ filled, length_unit positive]

theorem monic_reedSolomonComputeDivisor {degree : Nat} (positive : 0 < degree) :
    monic (lift (reedSolomonComputeDivisor degree)) = rootProduct (roots degree) := by
  have length : (roots degree).length = degree := by rw [roots, List.length_map, List.length_range]
  have filled : roots degree ≠ [] := by
    intro empty
    rw [empty, List.length_nil] at length
    omega
  rw [lift_reedSolomonComputeDivisor, ← monic_foldl_timesRoot filled, length]

theorem length_reedSolomonComputeRemainder {degree : Nat} (positive : 0 < degree) (data : List UInt8) :
    (reedSolomonComputeRemainder data (reedSolomonComputeDivisor degree) degree).length = degree := by
  have length := length_reedSolomonComputeDivisor positive
  have lifted := lift_reedSolomonComputeRemainder data (reedSolomonComputeDivisor degree)
  have filled : lift (reedSolomonComputeDivisor degree) ≠ [] := by
    intro empty
    rw [← length_lift, empty, List.length_nil] at length
    omega
  rw [length] at lifted
  rw [← length_lift, lifted, length_remainder filled, length_lift, length]

/-- A block with its remainder vanishes at the first powers of 2. -/
theorem vanishes_append_remainder {degree : Nat} (positive : 0 < degree) (data : List UInt8) :
    Vanishes ⟨2⟩ degree (lift (data ++
      reedSolomonComputeRemainder data (reedSolomonComputeDivisor degree) degree)) := by
  intro k less
  have length := length_reedSolomonComputeDivisor positive
  have lifted := lift_reedSolomonComputeRemainder data (reedSolomonComputeDivisor degree)
  have filled : lift (reedSolomonComputeDivisor degree) ≠ [] := by
    intro empty
    rw [← length_lift, empty, List.length_nil] at length
    omega
  obtain ⟨quotient, divided⟩ := monic_dvd_append filled (lift data)
  have root : (monic (lift (reedSolomonComputeDivisor degree))).eval (⟨2⟩ ^ k) = 0 := by
    rw [monic_reedSolomonComputeDivisor positive]
    exact eval_rootProduct (List.mem_map.mpr ⟨k, List.mem_range.mpr less, rfl⟩)
  have zero := congrArg (eval (⟨2⟩ ^ k)) divided
  rw [eval_mul, root, zero_mul, eval_sub] at zero
  have lengths : (remainder (lift (reedSolomonComputeDivisor degree)) (lift data)).length =
      (lift (reedSolomonComputeDivisor degree)).length := length_remainder filled _
  rw [length] at lifted
  rw [lift_append, poly_append, lifted, lengths, eval_add]
  exact zero

/-! ## The layout -/

section Layout

variable (version : Version) (ecl : qrcodegen_Ecc)

def block (data : List UInt8) (i : Nat) : List UInt8 :=
  (data.drop ((layout version ecl).start i)).take (datLen version ecl i)

def ecc (data : List UInt8) (i : Nat) : List UInt8 :=
  reedSolomonComputeRemainder (block version ecl data i)
    (reedSolomonComputeDivisor (blockEccLen version ecl)) (blockEccLen version ecl)

/-- The data of a block as it stands in the result. -/
def dataAt (result : List UInt8) (i : Nat) : List UInt8 :=
  (List.range (datLen version ecl i)).map fun j => byteAt result (dataPlace version ecl i j)

def eccAt (result : List UInt8) (i : Nat) : List UInt8 :=
  (List.range (blockEccLen version ecl)).map fun j => byteAt result (eccPlace version ecl i j)

def strokes (data : List UInt8) (i : Nat) : List (Nat × UInt8) :=
  (List.range (datLen version ecl i)).map
      (fun j => (dataPlace version ecl i j, (block version ecl data i).getD j 0)) ++
    (List.range (blockEccLen version ecl)).map
      fun j => (eccPlace version ecl i j, (ecc version ecl data i).getD j 0)

end Layout

section Interleave

variable {version : Version} {ecl : qrcodegen_Ecc} {data result : List UInt8} {i j : Nat}

theorem dataPlace_layout : dataPlace version ecl i j = (layout version ecl).dataPlace i j := rfl

theorem eccPlace_layout : eccPlace version ecl i j = (layout version ecl).checkPlace i j := by
  rw [eccPlace, Layout.checkPlace, dataTotal_layout]
  rfl

theorem start_add_datLen_le (inside : i < numBlocks version ecl) :
    (layout version ecl).start i + datLen version ecl i ≤ getNumDataCodewords version ecl := by
  rw [← dataTotal_layout]
  exact @Layout.start_add_dataLen_le (layout version ecl) i inside

theorem length_block (whole : getNumDataCodewords version ecl ≤ data.length)
    (inside : i < numBlocks version ecl) :
    (block version ecl data i).length = datLen version ecl i := by
  have fits := start_add_datLen_le inside
  rw [block, List.length_take, List.length_drop]
  omega

theorem length_ecc (data : List UInt8) (i : Nat) :
    (ecc version ecl data i).length = blockEccLen version ecl :=
  length_reedSolomonComputeRemainder (sound version ecl).degree.1 _

theorem dataPlace_lt_rawCodewords {j : Nat} (inside : i < numBlocks version ecl)
    (small : j < datLen version ecl i) : dataPlace version ecl i j < rawCodewords version := by
  have below := @Layout.dataPlace_lt (layout version ecl) i j inside small
  have all := total_layout version ecl
  rw [Layout.total] at all
  change (layout version ecl).dataPlace i j < _
  omega

theorem eccPlace_lt_rawCodewords {j : Nat} (inside : i < numBlocks version ecl)
    (small : j < blockEccLen version ecl) : eccPlace version ecl i j < rawCodewords version := by
  have below := @Layout.checkPlace_lt (layout version ecl) i j inside small
  rwa [total_layout, ← eccPlace_layout] at below

/-- A buffer in which only the work area behind the data may have changed. -/
structure Scratched (version : Version) (ecl : qrcodegen_Ecc) (data scratch : List UInt8) : Prop where
  length : scratch.length = data.length
  kept : ∀ k, k < getNumDataCodewords version ecl ∨
    getNumDataCodewords version ecl + blockEccLen version ecl ≤ k → byteAt scratch k = byteAt data k

theorem Scratched.take_eq {scratch : List UInt8} (scratched : Scratched version ecl data scratch) :
    scratch.take (getNumDataCodewords version ecl) = data.take (getNumDataCodewords version ecl) := by
  refine List.ext_getElem ?_ fun k inFirst inSecond => ?_
  · rw [List.length_take, List.length_take, scratched.length]
  · rw [List.length_take] at inFirst
    rw [List.getElem_take, List.getElem_take, List.getElem_eq_getD 0, List.getElem_eq_getD 0]
    exact scratched.kept k (.inl (by omega))

theorem Scratched.block_eq {scratch : List UInt8} (scratched : Scratched version ecl data scratch)
    (inside : i < numBlocks version ecl) : block version ecl scratch i = block version ecl data i := by
  have fits := start_add_datLen_le inside
  have front : ∀ bytes : List UInt8, block version ecl bytes i =
      ((bytes.take (getNumDataCodewords version ecl)).drop ((layout version ecl).start i)).take
        (datLen version ecl i) := by
    intro bytes
    rw [block, List.drop_take, List.take_take, Nat.min_eq_left (by omega)]
  rw [front, front, scratched.take_eq]

theorem foldlM_remainder {scratch remainder : List UInt8}
    (whole : getNumDataCodewords version ecl + blockEccLen version ecl ≤ data.length)
    (scratched : Scratched version ecl data scratch) :
    ∃ next, (List.range (blockEccLen version ecl)).foldlM (fun data j =>
        store .data data (getNumDataCodewords version ecl + j) (remainder.getD j 0)) scratch = .ok next ∧
      Scratched version ecl data next ∧
      ∀ j < blockEccLen version ecl,
        byteAt next (getNumDataCodewords version ecl + j) = remainder.getD j 0 := by
  have place : ∀ stroke ∈ (List.range (blockEccLen version ecl)).map
      (fun j => (getNumDataCodewords version ecl + j, remainder.getD j 0)),
      getNumDataCodewords version ecl ≤ stroke.1 ∧
        stroke.1 < getNumDataCodewords version ecl + blockEccLen version ecl := by
    intro stroke mem
    obtain ⟨j, listed, rfl⟩ := List.mem_map.mp mem
    exact ⟨Nat.le_add_right _ _, Nat.add_lt_add_left (List.mem_range.mp listed) _⟩
  obtain ⟨next, runs, same, picture⟩ := @foldlM_store .data scratch
    ((List.range (blockEccLen version ecl)).map
      fun j => (getNumDataCodewords version ecl + j, remainder.getD j 0)) fun stroke mem => by
      rw [scratched.length]
      exact (place stroke mem).2.trans_le whole
  rw [List.foldlM_map] at runs
  refine ⟨next, runs, ⟨same.trans scratched.length, fun k outside => ?_⟩, fun j small => ?_⟩
  · rw [picture, ← scratched.kept k outside]
    refine plot_of_miss fun stroke mem here => ?_
    have bounds := place stroke mem
    omega
  · rw [picture]
    exact plot_place (fun _ _ _ _ same => Nat.add_left_cancel same) small

theorem addBlock_eq (whole : getNumDataCodewords version ecl + blockEccLen version ecl ≤ data.length)
    (room : rawCodewords version ≤ result.length) (inside : i < numBlocks version ecl)
    {scratch : List UInt8} (scratched : Scratched version ecl data scratch) :
    ∃ next stored, addBlock version ecl (reedSolomonComputeDivisor (blockEccLen version ecl))
        ((layout version ecl).start i, scratch, result) i =
          .ok ((layout version ecl).start (i + 1), next, stored) ∧
      Scratched version ecl data next ∧ stored.length = result.length ∧
      byteAt stored = plot (byteAt result) (strokes version ecl data i) := by
  have fits := start_add_datLen_le inside
  have blockOf := scratched.block_eq inside
  have loads : (List.range (datLen version ecl i)).mapM
      (fun j => load .data scratch ((layout version ecl).start i + j)) =
        .ok (block version ecl data i) := by
    rw [mapM_load (by rw [scratched.length]; omega), ← blockOf]
    rfl
  obtain ⟨next, remains, scratchedNext, behind⟩ :=
    @foldlM_remainder _ _ _ _ (ecc version ecl data i) whole scratched
  have dataInside : ∀ stroke ∈ (List.range (datLen version ecl i)).map
      (fun j => (dataPlace version ecl i j, (block version ecl data i).getD j 0)),
      stroke.1 < result.length := by
    intro stroke mem
    obtain ⟨j, listed, rfl⟩ := List.mem_map.mp mem
    exact (dataPlace_lt_rawCodewords inside (List.mem_range.mp listed)).trans_le room
  obtain ⟨middle, first, sameMiddle, pictureMiddle⟩ := @foldlM_store .result _ _ dataInside
  have eccInside : ∀ stroke ∈ (List.range (blockEccLen version ecl)).map
      (fun j => (eccPlace version ecl i j, (ecc version ecl data i).getD j 0)),
      stroke.1 < middle.length := by
    intro stroke mem
    obtain ⟨j, listed, rfl⟩ := List.mem_map.mp mem
    rw [sameMiddle]
    exact (eccPlace_lt_rawCodewords inside (List.mem_range.mp listed)).trans_le room
  obtain ⟨stored, second, same, picture⟩ := @foldlM_store .result _ _ eccInside
  refine ⟨next, stored, ?_, scratchedNext, same.trans sameMiddle, ?_⟩
  · rw [addBlock]
    dsimp only
    rw [loads, run_ok_bind, ← ecc, remains, run_ok_bind,
      foldlM_copy _ (by rw [scratchedNext.length]; omega),
      List.map_congr_left fun j listed => congrArg (Prod.mk _) ?_, first, run_ok_bind,
      foldlM_copy _ (by rw [scratchedNext.length]; exact whole),
      List.map_congr_left fun j listed => congrArg (Prod.mk _) ?_, second, run_ok_bind]
    · rfl
    · exact behind j (List.mem_range.mp listed)
    · rw [← scratchedNext.block_eq inside, block, byteAt, List.getD_eq_getElem?_getD,
        List.getD_eq_getElem?_getD, List.getElem?_take_of_lt (List.mem_range.mp listed),
        List.getElem?_drop]
  · rw [picture, pictureMiddle, strokes, plot_append]

theorem addBlocks_eq (whole : getNumDataCodewords version ecl + blockEccLen version ecl ≤ data.length)
    (room : rawCodewords version ≤ result.length) {count : Nat} (few : count ≤ numBlocks version ecl) :
    ∃ scratch stored, (List.range count).foldlM
        (addBlock version ecl (reedSolomonComputeDivisor (blockEccLen version ecl))) (0, data, result) =
          .ok ((layout version ecl).start count, scratch, stored) ∧
      Scratched version ecl data scratch ∧ stored.length = result.length ∧
      byteAt stored = plot (byteAt result) ((List.range count).flatMap (strokes version ecl data)) := by
  induction count with
  | zero => exact ⟨data, result, rfl, ⟨rfl, fun _ _ => rfl⟩, rfl, rfl⟩
  | succ count inductionHypothesis =>
      obtain ⟨scratch, middle, runs, scratched, sameMiddle, pictureMiddle⟩ :=
        inductionHypothesis (by omega)
      obtain ⟨next, stored, last, scratchedNext, same, picture⟩ :=
        @addBlock_eq version ecl data middle count whole (by omega) few _ scratched
      refine ⟨next, stored, ?_, scratchedNext, same.trans sameMiddle, ?_⟩
      · rw [List.range_succ, List.foldlM_append, runs, run_ok_bind, List.foldlM_cons, last]
        rfl
      · rw [picture, pictureMiddle, List.range_succ, List.flatMap_append, plot_append,
          List.flatMap_singleton]

theorem mem_strokes {stroke : Nat × UInt8} {count : Nat} :
    stroke ∈ (List.range count).flatMap (strokes version ecl data) ↔ ∃ i < count,
      (∃ j < datLen version ecl i,
        stroke = (dataPlace version ecl i j, (block version ecl data i).getD j 0)) ∨
      ∃ j < blockEccLen version ecl,
        stroke = (eccPlace version ecl i j, (ecc version ecl data i).getD j 0) := by
  simp only [List.mem_flatMap, strokes, List.mem_append, List.mem_map, List.mem_range]
  refine exists_congr fun i => and_congr_right fun _ => or_congr ?_ ?_
  · exact exists_congr fun j => and_congr_right fun _ => eq_comm
  · exact exists_congr fun j => and_congr_right fun _ => eq_comm

/-- No place is written twice with different bytes. -/
theorem eq_of_same_place {first second : Nat × UInt8}
    (firstMem : first ∈ (List.range (numBlocks version ecl)).flatMap (strokes version ecl data))
    (secondMem : second ∈ (List.range (numBlocks version ecl)).flatMap (strokes version ecl data))
    (same : first.1 = second.1) : first.2 = second.2 := by
  obtain ⟨i, inside, ⟨j, small, rfl⟩ | ⟨j, small, rfl⟩⟩ := mem_strokes.mp firstMem <;>
    obtain ⟨i', inside', ⟨j', small', rfl⟩ | ⟨j', small', rfl⟩⟩ := mem_strokes.mp secondMem
  · obtain ⟨rfl, rfl⟩ := @Layout.dataPlace_inj (layout version ecl) _ _ _ _ inside small inside' small'
      same
    rfl
  · rw [eccPlace_layout] at same
    exact absurd same (@Layout.dataPlace_ne_checkPlace (layout version ecl) i j i' j' inside small)
  · rw [eccPlace_layout] at same
    exact absurd same.symm
      (@Layout.dataPlace_ne_checkPlace (layout version ecl) i' j' i j inside' small')
  · rw [eccPlace_layout, eccPlace_layout] at same
    obtain ⟨rfl, rfl⟩ := Layout.checkPlace_inj inside inside' same
    rfl

theorem addEccAndInterleave_eq
    (whole : getNumDataCodewords version ecl + blockEccLen version ecl ≤ data.length)
    (room : rawCodewords version ≤ result.length) :
    ∃ scratch stored, addEccAndInterleave version ecl data result = .ok (scratch, stored) ∧
      Scratched version ecl data scratch ∧ stored.length = result.length ∧
      (∀ k, rawCodewords version ≤ k → byteAt stored k = byteAt result k) ∧
      ∀ i < numBlocks version ecl, dataAt version ecl stored i = block version ecl data i ∧
        eccAt version ecl stored i = ecc version ecl data i := by
  obtain ⟨scratch, stored, runs, scratched, same, picture⟩ := addBlocks_eq whole room (le_refl _)
  have written : ∀ stroke ∈ (List.range (numBlocks version ecl)).flatMap (strokes version ecl data),
      byteAt stored stroke.1 = stroke.2 := by
    intro stroke mem
    rw [picture]
    exact plot_of_hit (fun other otherMem here => eq_of_same_place otherMem mem here) ⟨stroke, mem, rfl⟩
  refine ⟨scratch, stored, ?_, scratched, same, ?_, ?_⟩
  · rw [addEccAndInterleave, runs]
    rfl
  · intro k behind
    rw [picture]
    refine plot_of_miss fun stroke mem => ?_
    obtain ⟨i, inside, ⟨j, small, rfl⟩ | ⟨j, small, rfl⟩⟩ := mem_strokes.mp mem
    · exact ((dataPlace_lt_rawCodewords inside small).trans_le behind).ne
    · exact ((eccPlace_lt_rawCodewords inside small).trans_le behind).ne
  · intro i inside
    have lengthBlock := @length_block _ _ _ _ (Nat.le_of_add_right_le whole) inside
    constructor
    · refine List.ext_getElem ?_ fun j inFirst inSecond => ?_
      · rw [dataAt, List.length_map, List.length_range, lengthBlock]
      · have small : j < datLen version ecl i := by rwa [lengthBlock] at inSecond
        simp only [dataAt, List.getElem_map, List.getElem_range]
        rw [List.getElem_eq_getD 0]
        exact written _ (mem_strokes.mpr ⟨i, inside, .inl ⟨j, small, rfl⟩⟩)
    · refine List.ext_getElem ?_ fun j inFirst inSecond => ?_
      · rw [eccAt, List.length_map, List.length_range, length_ecc]
      · have small : j < blockEccLen version ecl := by rwa [length_ecc] at inSecond
        simp only [eccAt, List.getElem_map, List.getElem_range]
        rw [List.getElem_eq_getD 0]
        exact written _ (mem_strokes.mpr ⟨i, inside, .inr ⟨j, small, rfl⟩⟩)

end Interleave

def wordAt (version : Version) (ecl : qrcodegen_Ecc) (result : List UInt8) (i : Nat) : List UInt8 :=
  dataAt version ecl result i ++ eccAt version ecl result i

theorem length_wordAt (version : Version) (ecl : qrcodegen_Ecc) (result : List UInt8) (i : Nat) :
    (wordAt version ecl result i).length = datLen version ecl i + blockEccLen version ecl := by
  rw [wordAt, List.length_append, dataAt, eccAt, List.length_map, List.length_map, List.length_range,
    List.length_range]

theorem flatMap_block (version : Version) (ecl : qrcodegen_Ecc) (data : List UInt8) :
    (List.range (numBlocks version ecl)).flatMap (block version ecl data) =
      data.take (getNumDataCodewords version ecl) := by
  have all := @Layout.flatMap_blocks (layout version ecl) _ data (numBlocks version ecl)
  have last : (layout version ecl).start (numBlocks version ecl) = getNumDataCodewords version ecl := by
    rw [← dataTotal_layout]
    exact Layout.start_count
  rw [last] at all
  exact all

section Words

variable {version : Version} {ecl : qrcodegen_Ecc} {data result scratch stored : List UInt8}

theorem data_of_run (whole : getNumDataCodewords version ecl + blockEccLen version ecl ≤ data.length)
    (room : rawCodewords version ≤ result.length)
    (runs : addEccAndInterleave version ecl data result = .ok (scratch, stored)) :
    (List.range (numBlocks version ecl)).flatMap (dataAt version ecl stored) =
      data.take (getNumDataCodewords version ecl) := by
  obtain ⟨_, _, first, -, -, -, places⟩ := addEccAndInterleave_eq whole room
  obtain ⟨rfl, rfl⟩ := Prod.mk.inj (Except.ok.inj (runs.symm.trans first))
  rw [List.flatMap_congr fun i mem => (places i (List.mem_range.mp mem)).1]
  exact flatMap_block version ecl data

theorem vanishes_of_run (whole : getNumDataCodewords version ecl + blockEccLen version ecl ≤ data.length)
    (room : rawCodewords version ≤ result.length)
    (runs : addEccAndInterleave version ecl data result = .ok (scratch, stored)) {i : Nat}
    (inside : i < numBlocks version ecl) :
    Vanishes ⟨2⟩ (blockEccLen version ecl) (lift (wordAt version ecl stored i)) := by
  obtain ⟨_, _, first, -, -, -, places⟩ := addEccAndInterleave_eq whole room
  obtain ⟨rfl, rfl⟩ := Prod.mk.inj (Except.ok.inj (runs.symm.trans first))
  rw [wordAt, (places i inside).1, (places i inside).2]
  exact vanishes_append_remainder (sound version ecl).degree.1 _

end Words

/-- The result holds the data, block by block, every block is a word of the code, and there is
nothing else in it.  Of the data buffer only the work area behind the data may change. -/
theorem addEccAndInterleave_words (version : Version) (ecl : qrcodegen_Ecc) {data result : List UInt8}
    (whole : getNumDataCodewords version ecl + blockEccLen version ecl ≤ data.length)
    (room : rawCodewords version ≤ result.length) :
    ∃ scratch stored, addEccAndInterleave version ecl data result = .ok (scratch, stored) ∧
      scratch.length = data.length ∧ stored.length = result.length ∧
      (∀ k, k < getNumDataCodewords version ecl ∨
        getNumDataCodewords version ecl + blockEccLen version ecl ≤ k →
          byteAt scratch k = byteAt data k) ∧
      (∀ k, rawCodewords version ≤ k → byteAt stored k = byteAt result k) ∧
      (List.range (numBlocks version ecl)).flatMap (dataAt version ecl stored) =
        data.take (getNumDataCodewords version ecl) ∧
      (∀ i < numBlocks version ecl,
        Vanishes ⟨2⟩ (blockEccLen version ecl) (lift (wordAt version ecl stored i))) ∧
      ∀ k < rawCodewords version, ∃ i < numBlocks version ecl, ∃ j,
        (j < datLen version ecl i ∧ k = dataPlace version ecl i j) ∨
          (j < blockEccLen version ecl ∧ k = eccPlace version ecl i j) := by
  obtain ⟨scratch, stored, runs, scratched, same, behind, -⟩ := addEccAndInterleave_eq whole room
  refine ⟨scratch, stored, runs, scratched.length, same, scratched.kept, behind,
    data_of_run whole room runs, fun i inside => vanishes_of_run whole room runs inside,
    fun k inside => ?_⟩
  rw [← total_layout version ecl] at inside
  obtain ⟨i, block, j, place⟩ := Layout.exists_place inside
  rw [← dataPlace_layout, ← eccPlace_layout] at place
  exact ⟨i, block, j, place⟩

/-- Two short blocks and two long ones. -/
theorem addEccAndInterleave_words_version_5 :
    ∃ scratch stored, addEccAndInterleave ⟨5, by decide, by decide⟩ .HIGH
        ((List.range 68).map UInt8.ofNat) (List.replicate 140 0xA5) = .ok (scratch, stored) ∧
      scratch.length = 68 ∧ (∀ k < 46, byteAt scratch k = UInt8.ofNat k) ∧
      byteAt stored 139 = 0xA5 := by
  have data : getNumDataCodewords ⟨5, by decide, by decide⟩ .HIGH = 46 := by decide +kernel
  obtain ⟨scratch, stored, runs, length, -, kept, behind, -⟩ :=
    @addEccAndInterleave_words ⟨5, by decide, by decide⟩ .HIGH ((List.range 68).map UInt8.ofNat)
      (List.replicate 140 0xA5) (by decide +kernel) (by decide +kernel)
  have bytes : ∀ k < 46, byteAt ((List.range 68).map UInt8.ofNat) k = UInt8.ofNat k := by decide
  refine ⟨scratch, stored, runs, length, fun k small => ?_, (behind 139 (by decide +kernel)).trans (by decide)⟩
  rw [kept k (.inl (by rwa [data])), bytes k small]

/-- Bytes that are wrong in at most half as many places of each block as stand behind its
data are those of one data only. -/
theorem eq_of_differences_le (version : Version) (ecl : qrcodegen_Ecc)
    {data other result otherResult scratch otherScratch stored otherStored : List UInt8}
    (whole : getNumDataCodewords version ecl + blockEccLen version ecl ≤ data.length)
    (otherWhole : getNumDataCodewords version ecl + blockEccLen version ecl ≤ other.length)
    (room : rawCodewords version ≤ result.length) (otherRoom : rawCodewords version ≤ otherResult.length)
    (runs : addEccAndInterleave version ecl data result = .ok (scratch, stored))
    (otherRuns : addEccAndInterleave version ecl other otherResult = .ok (otherScratch, otherStored))
    {received : List UInt8}
    (near : ∀ i < numBlocks version ecl, 2 * differences (wordAt version ecl received i)
      (wordAt version ecl stored i) ≤ blockEccLen version ecl)
    (otherNear : ∀ i < numBlocks version ecl, 2 * differences (wordAt version ecl received i)
      (wordAt version ecl otherStored i) ≤ blockEccLen version ecl) :
    data.take (getNumDataCodewords version ecl) = other.take (getNumDataCodewords version ecl) := by
  have same : ∀ i < numBlocks version ecl,
      wordAt version ecl stored i = wordAt version ecl otherStored i := by
    intro i inside
    have length := length_wordAt version ecl
    by_contra different
    have far := lt_differences_of_vanishes (by rw [length_lift, length_lift, length, length])
      (vanishes_of_run whole room runs inside) (vanishes_of_run otherWhole otherRoom otherRuns inside)
      ?_ fun same => different (lift_injective same)
    · rw [lift, lift, differences_map fun _ _ same => congrArg Codeword.byte same] at far
      have around := @differences_triangle _ _ (wordAt version ecl stored i)
        (wordAt version ecl received i) (wordAt version ecl otherStored i) (by rw [length, length])
      rw [differences_comm (wordAt version ecl stored i) (wordAt version ecl received i)] at around
      have here := near i inside
      have there := otherNear i inside
      omega
    · intro a small b smaller equal
      have short := (sound version ecl).short
      have bound : datLen version ecl i + blockEccLen version ecl ≤ 255 := by
        rw [datLen]
        split <;> omega
      rw [length_lift, length] at small smaller
      refine pow_injOn_Iio_orderOf (x := (⟨2⟩ : Codeword)) ?_ ?_ equal
      · rw [Codeword.orderOf_two]
        exact lt_of_lt_of_le small bound
      · rw [Codeword.orderOf_two]
        exact lt_of_lt_of_le smaller bound
  rw [← data_of_run whole room runs, ← data_of_run otherWhole otherRoom otherRuns]
  refine List.flatMap_congr fun i mem => ?_
  have sameData := congrArg (List.take (datLen version ecl i)) (same i (List.mem_range.mp mem))
  have front : ∀ result, (wordAt version ecl result i).take (datLen version ecl i) =
      dataAt version ecl result i := by
    intro result
    rw [wordAt, List.take_left' (by rw [dataAt, List.length_map, List.length_range])]
  rwa [front, front] at sameData

/-- Three of 26 codewords are wrong. -/
theorem eq_of_differences_le_version_1 :
    let version : Version := ⟨1, by decide, by decide⟩
    let data := (List.range 26).map UInt8.ofNat
    let other := (List.range 19).map UInt8.ofNat ++ List.replicate 7 0xFF
    let received : List UInt8 :=
      [0xF0, 1, 2, 3, 4, 5, 6, 7, 8, 9, 0xF1, 11, 12, 13, 14, 15, 16, 17, 18, 24, 30, 105, 236, 66, 92, 0xF2]
    ∃ scratch otherScratch stored, addEccAndInterleave version .LOW data (List.replicate 26 0) =
        .ok (scratch, stored) ∧
      addEccAndInterleave version .LOW other (List.replicate 30 0xFF) =
        .ok (otherScratch, stored ++ List.replicate 4 0xFF) ∧
      differences received stored = 3 ∧
      data.take (getNumDataCodewords version .LOW) = other.take (getNumDataCodewords version .LOW) := by
  intro version data other received
  let stored : List UInt8 :=
    [0, 1, 2, 3, 4, 5, 6, 7, 8, 9, 10, 11, 12, 13, 14, 15, 16, 17, 18, 24, 30, 105, 236, 66, 92, 142]
  have runs : addEccAndInterleave version .LOW data (List.replicate 26 0) = .ok (stored, stored) := by
    decide +kernel
  have otherRuns : addEccAndInterleave version .LOW other (List.replicate 30 0xFF) =
      .ok (stored, stored ++ List.replicate 4 0xFF) := by decide +kernel
  have same := eq_of_differences_le version .LOW
    (show _ ≤ data.length by decide +kernel) (show _ ≤ other.length by decide +kernel)
    (show _ ≤ (List.replicate 26 (0 : UInt8)).length by decide +kernel)
    (show _ ≤ (List.replicate 30 (0xFF : UInt8)).length by decide +kernel) runs otherRuns
    (show ∀ i < numBlocks version .LOW, 2 * differences (wordAt version .LOW received i)
      (wordAt version .LOW stored i) ≤ blockEccLen version .LOW by decide +kernel) (by decide +kernel)
  exact ⟨stored, stored, stored, runs, otherRuns, by decide, same⟩

end WifiIot.Qrcodegen
